import Registrar.Text.Basic

/-! A reading position in a line. -/

namespace Registrar.Text

/-- A position in a line: the characters already read and those still to come. -/
structure Cursor where
  consumed : Text
  rest : Text
deriving DecidableEq

namespace Cursor

def start (line : Text) : Cursor := ⟨[], line⟩

def line (cursor : Cursor) : Text := cursor.consumed ++ cursor.rest

def offset (cursor : Cursor) : Nat := cursor.consumed.byteLength

def peek (cursor : Cursor) : Option Char := cursor.rest.head?

def check (p : Char → Bool) (cursor : Cursor) : Bool := cursor.peek.any p

def checkText (text : Text) (cursor : Cursor) : Bool := startsWith text cursor.rest

def advance (cursor : Cursor) : Option Char × Cursor :=
  match cursor.rest with
  | [] => (none, cursor)
  | c :: rest => (some c, ⟨cursor.consumed ++ [c], rest⟩)

def eatText (text : Text) (cursor : Cursor) : Bool × Cursor :=
  match after? text cursor.rest with
  | some rest => (true, ⟨cursor.consumed ++ text, rest⟩)
  | none => (false, cursor)

def eatWhile (p : Char → Bool) (cursor : Cursor) : Text × Cursor :=
  let run := cursor.rest.takeWhile p
  (run, ⟨cursor.consumed ++ run, cursor.rest.dropWhile p⟩)

/-- The text from byte `n` to the cursor; nothing if `n` lies past the cursor or inside a
character. -/
def sliceFrom? (n : Nat) (cursor : Cursor) : Option Text := dropBytes? n cursor.consumed

theorem line_advance (cursor : Cursor) : cursor.advance.2.line = cursor.line := by
  unfold advance
  split
  · rfl
  · simp [line, *]

theorem line_eatText (text : Text) (cursor : Cursor) :
    (cursor.eatText text).2.line = cursor.line := by
  unfold eatText
  split
  · rename_i h
    simp [line, after?_eq_some_iff.mp h]
  · rfl

theorem line_eatWhile (p : Char → Bool) (cursor : Cursor) :
    (cursor.eatWhile p).2.line = cursor.line := by
  simp [eatWhile, line, List.append_assoc, List.takeWhile_append_dropWhile]

end Cursor

end Registrar.Text
