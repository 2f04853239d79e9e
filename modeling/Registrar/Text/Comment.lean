import Registrar.Text.Blank

/-! Removing comments. A block comment or a string may go on over several lines. -/

namespace Registrar

/-- What the next character of a header stands in. -/
inductive Mode where
  | code
  | string
  | block
deriving DecidableEq

namespace Mode

/-- The mode after a character that is kept: every `"` opens or closes a string, also one that
follows a backslash. -/
def afterKept (c : Char) : Mode → Mode
  | .code => if c = '"' then .string else .code
  | .string => if c = '"' then .code else .string
  | .block => .block

end Mode

namespace Text

/-- What is left of one line that starts in the given mode, and the mode after it. A line comment
ends with its line. Comment marks inside a string are kept. -/
def stripLine : Mode → Text → Text × Mode
  | mode, [] => ([], mode)
  | .block, '*' :: '/' :: t => stripLine .code t
  | .block, _ :: t => stripLine .block t
  | .string, c :: t =>
    let (kept, mode) := stripLine (Mode.string.afterKept c) t
    (c :: kept, mode)
  | .code, '/' :: '/' :: _ => ([], .code)
  | .code, '/' :: '*' :: t => stripLine .block t
  | .code, c :: t =>
    let (kept, mode) := stripLine (Mode.code.afterKept c) t
    (c :: kept, mode)

def stripLines : Mode → List Text → List Text
  | _, [] => []
  | mode, line :: more =>
    let (kept, mode) := stripLine mode line
    kept :: stripLines mode more

def modeAfter (mode : Mode) (lines : List Text) : Mode :=
  lines.foldl (fun mode line => (stripLine mode line).2) mode

theorem stripLines_append (mode : Mode) (first second : List Text) :
    stripLines mode (first ++ second) =
      stripLines mode first ++ stripLines (modeAfter mode first) second := by
  induction first generalizing mode with
  | nil => rfl
  | cons line first ih => simp [stripLines, modeAfter, ih]

/-- The lines of a header without comments and without blanks at their ends. Lines left empty are
dropped, so line numbers are not kept. -/
def cleanLines (source : Text) : List Text :=
  ((stripLines .code source.lines).map trimEnd).filter fun line => !line.isEmpty

end Text

end Registrar
