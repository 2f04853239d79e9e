import Registrar.Text.Identifier
import Registrar.Text.Slice
import Registrar.Text.Utf8

/-! A reading position over the bytes of a line. It is kept twice, as the part of the line still to
come and as a number of bytes, and it moves by slices. A slice that does not exist makes the reading
fail. -/

namespace Registrar.Text

/-- A position in a line: what is still to come, and the number of bytes in front of it. -/
structure Reader where
  line : Text
  rest : Text
  offset : Nat
deriving DecidableEq

namespace Reader

def start (line : Text) : Reader := ⟨line, line, 0⟩

/-- The character at the position, if there is one. A character of one byte is read off this byte,
without decoding what is still to come. -/
def peek (reader : Reader) : Option Char :=
  match reader.rest.encode with
  | [] => none
  | byte :: _ => if byte.toNat < 0x80 then some (Char.ofNat byte.toNat) else reader.rest.head?

def check (p : Char → Bool) (reader : Reader) : Bool := reader.peek.any p

def skip? (n : Nat) (reader : Reader) : Option Reader :=
  (dropBytes? n reader.rest).map fun rest => { reader with rest, offset := reader.offset + n }

def advance? (reader : Reader) : Option (Option Char × Reader) :=
  match reader.peek with
  | none => some (none, reader)
  | some c => (reader.skip? c.utf8Size).map fun next => (some c, next)

def eatText? (text : Text) (reader : Reader) : Option (Bool × Reader) :=
  if startsWith text reader.rest then
    (reader.skip? text.byteLength).map fun next => (true, next)
  else some (false, reader)

def sliceFrom? (n : Nat) (reader : Reader) : Option Text := slice? n reader.offset reader.line

/-- A step over a character that is there leaves less of the line. -/
theorem length_of_advance? {p : Char → Bool} {reader next : Reader} {c : Option Char}
    (hcheck : reader.check p = true) (h : reader.advance? = some (c, next)) :
    next.rest.length < reader.rest.length := by
  unfold advance? at h
  split at h
  · rename_i hpeek
    rw [check, hpeek] at hcheck
    exact Bool.noConfusion hcheck
  · rename_i d hpeek
    obtain ⟨_, hskip, heq⟩ := Option.map_eq_some_iff.mp h
    cases heq
    obtain ⟨rest, hdrop, rfl⟩ := Option.map_eq_some_iff.mp hskip
    obtain ⟨front, hrest, hfront⟩ := dropBytes?_eq_some_iff.mp hdrop
    have hne : front ≠ [] := by
      rintro rfl
      exact absurd hfront (Nat.ne_of_lt d.utf8Size_pos)
    rw [hrest, List.length_append]
    exact Nat.lt_add_of_pos_left (List.length_pos_iff.mpr hne)

def passWhile? (p : Char → Bool) (reader : Reader) : Option Reader :=
  if reader.check p then
    match _h : reader.advance? with
    | some (_, next) => next.passWhile? p
    | none => none
  else some reader
termination_by reader.rest.length
decreasing_by exact length_of_advance? ‹_› _h

def eatWhile? (p : Char → Bool) (reader : Reader) : Option (Text × Reader) :=
  (reader.passWhile? p).bind fun next =>
    (next.sliceFrom? reader.offset).map fun run => (run, next)

private theorem length_of_passWhile? {p : Char → Bool} {reader next : Reader}
    (h : reader.passWhile? p = some next) : next.rest.length ≤ reader.rest.length := by
  fun_induction passWhile? p reader with
  | case1 reader hcheck c after hadvance ih =>
    exact Nat.le_trans (ih h) (Nat.le_of_lt (length_of_advance? hcheck hadvance))
  | case2 => exact nomatch h
  | case3 reader _ =>
    cases h
    exact Nat.le_refl _

private theorem length_of_eatWhile? {p : Char → Bool} {reader next : Reader} {run : Text}
    (hcheck : reader.check p = true) (h : reader.eatWhile? p = some (run, next)) :
    next.rest.length < reader.rest.length := by
  obtain ⟨final, hpass, hslice⟩ := Option.bind_eq_some_iff.mp h
  obtain ⟨_, _, heq⟩ := Option.map_eq_some_iff.mp hslice
  cases heq
  rw [passWhile?, if_pos hcheck] at hpass
  split at hpass
  · rename_i c after hadvance
    exact Nat.lt_of_le_of_lt (length_of_passWhile? hpass) (length_of_advance? hcheck hadvance)
  · exact nomatch hpass

/-- The identifiers from the position on, each with the number of bytes up to its end. What starts
with a digit is stepped over as a whole. -/
def identifiers? (reader : Reader) : Option (List (Text × Nat)) :=
  match _hpeek : reader.peek with
  | none => some []
  | some c =>
    if isIdentStart c then
      match _h : reader.eatWhile? isIdentChar with
      | some (_, next) =>
        (next.sliceFrom? reader.offset).bind fun word =>
          next.identifiers?.map fun more => (word, next.offset) :: more
      | none => none
    else if c.isDigit then
      match _h : reader.eatWhile? isIdentChar with
      | some (_, next) => next.identifiers?
      | none => none
    else
      match _h : reader.advance? with
      | some (_, next) => next.identifiers?
      | none => none
termination_by reader.rest.length
decreasing_by
  · refine length_of_eatWhile? ?_ _h
    rw [check, _hpeek]
    exact isIdentChar_of_isIdentStart ‹_›
  · refine length_of_eatWhile? ?_ _h
    rw [check, _hpeek]
    exact isIdentChar_of_isDigit ‹_›
  · refine length_of_advance? (p := fun _ => true) ?_ _h
    rw [check, _hpeek]
    rfl

end Reader

end Registrar.Text
