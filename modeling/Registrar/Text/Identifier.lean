import Registrar.Text.Basic

/-! Identifiers: the maximal runs of ASCII word characters that do not start with a digit. -/

namespace Registrar

def isIdentStart (c : Char) : Bool := c.isAlpha || c == '_'

def isIdentChar (c : Char) : Bool := c.isAlphanum || c == '_'

theorem isIdentChar_eq (c : Char) : isIdentChar c = (isIdentStart c || c.isDigit) := by
  rw [isIdentChar, isIdentStart, Char.isAlphanum, Bool.or_right_comm]

theorem isIdentChar_of_isIdentStart {c : Char} (h : isIdentStart c = true) :
    isIdentChar c = true := by
  rw [isIdentChar_eq, h, Bool.true_or]

theorem isIdentChar_of_isDigit {c : Char} (h : c.isDigit = true) : isIdentChar c = true := by
  rw [isIdentChar_eq, h, Bool.or_true]

namespace Text

def isIdentifier : Text → Bool
  | [] => false
  | c :: t => isIdentStart c && t.all isIdentChar

/-- A run of identifier characters, the byte offset just past it and the text that follows it. -/
structure Run where
  word : Text
  stop : Nat
  after : Text
deriving DecidableEq

namespace Run

/-- Whether the run is an identifier. A run that starts with a digit is a number. -/
def isIdentifier (run : Run) : Bool :=
  match run.word with
  | [] => false
  | c :: _ => isIdentStart c

def extendFirst (c : Char) : List Run → List Run
  | [] => []
  | run :: more => { run with word := c :: run.word } :: more

end Run

/-- The maximal runs of identifier characters in a text that starts at a byte offset, from left to
right. -/
def runsFrom (offset : Nat) : Text → List Run
  | [] => []
  | c :: t =>
    let next := offset + c.utf8Size
    if isIdentChar c then
      if t.head?.any isIdentChar then Run.extendFirst c (runsFrom next t)
      else ⟨[c], next, t⟩ :: runsFrom next t
    else runsFrom next t

def identifiers (line : Text) : List Run := (runsFrom 0 line).filter Run.isIdentifier

end Text

end Registrar
