import Registrar.Text.Basic

/-! Blanking string and character literals, so that their contents name nothing. -/

namespace Registrar

/-- Where the next character of a line stands: inside the literal opened by `quote`, if there is
one, and directly behind a backslash if `escaped`. -/
structure Quoting where
  quote : Option Char := none
  escaped : Bool := false
deriving DecidableEq

namespace Quoting

/-- The place after one character. A backslash escapes the next character also outside literals. -/
def next (place : Quoting) (c : Char) : Quoting :=
  if place.escaped then { place with escaped := false }
  else if c = '\\' then { place with escaped := true }
  else match place.quote with
    | some opened => if c = opened then {} else place
    | none => if c = '"' ∨ c = '\'' then { quote := some c } else place

/-- What is shown for one character: itself if it is outside literals, no quote, no backslash and
not escaped, else a space. -/
def shown (place : Quoting) (c : Char) : Char :=
  if place.escaped || place.quote.isSome || c == '\\' || c == '"' || c == '\'' then ' ' else c

end Quoting

namespace Text

def blankLiteralsFrom : Quoting → Text → Text
  | _, [] => []
  | place, c :: t => place.shown c :: blankLiteralsFrom (place.next c) t

def blankLiterals (line : Text) : Text := blankLiteralsFrom {} line

theorem blankLiteralsFrom_append (place : Quoting) (s t : Text) :
    blankLiteralsFrom place (s ++ t) =
      blankLiteralsFrom place s ++ blankLiteralsFrom (s.foldl Quoting.next place) t := by
  induction s generalizing place with
  | nil => rfl
  | cons c s ih => simp [blankLiteralsFrom, ih]

theorem length_blankLiteralsFrom (place : Quoting) (t : Text) :
    (blankLiteralsFrom place t).length = t.length := by
  induction t generalizing place with
  | nil => rfl
  | cons c t ih => simp [blankLiteralsFrom, ih]

end Text

end Registrar
