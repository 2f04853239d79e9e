import Registrar.Text.Basic
import Registrar.Text.Digit
import Registrar.Text.Word

/-! Blanking number literals.

A number is a run of decimal digits with an optional fraction, an optional exponent and type
suffixes, and stands apart from the words around it. -/

namespace Registrar.Text

def startsWord : Text → Bool
  | [] => false
  | c :: _ => isWordChar c

def isNumberSuffix (c : Char) : Bool := "fFlLuU".toList.contains c

def afterDigits? : Text → Option Text
  | [] => none
  | c :: t => if isDecimalDigit c then some (t.dropWhile isDecimalDigit) else none

def afterFraction? : Text → Option Text
  | '.' :: t => afterDigits? t
  | _ => none

def afterExponent? : Text → Option Text
  | [] => none
  | c :: t =>
    if c = 'e' ∨ c = 'E' then
      match t with
      | '+' :: u => afterDigits? u
      | '-' :: u => afterDigits? u
      | _ => afterDigits? t
    else none

/-- What follows the suffixes of a number, provided that the number ends there. -/
def afterSuffixes? (t : Text) : Option Text :=
  let rest := t.dropWhile isNumberSuffix
  if startsWord rest then none else some rest

def afterTail? (t : Text) : Option Text :=
  ((afterExponent? t).bind afterSuffixes?).or (afterSuffixes? t)

/-- What follows a number at the front of the text. The fraction is part of the number only if
the number can end behind it. -/
def afterNumber? (t : Text) : Option Text :=
  (afterDigits? t).bind fun rest => ((afterFraction? rest).bind afterTail?).or (afterTail? rest)

/-- What follows a number that starts at the front of the text. None starts inside a word. -/
def numberFront? (inWord : Bool) (t : Text) : Option Text :=
  if inWord then none else afterNumber? t

private theorem afterDigits?_length {t rest : Text} (h : afterDigits? t = some rest) :
    rest.length < t.length := by
  cases t with
  | nil => simp [afterDigits?] at h
  | cons c t =>
    simp only [afterDigits?] at h
    split at h
    · cases h
      exact Nat.lt_succ_of_le (List.dropWhile_sublist _).length_le
    · simp at h

private theorem afterFraction?_length {t rest : Text} (h : afterFraction? t = some rest) :
    rest.length < t.length := by
  unfold afterFraction? at h
  split at h
  · exact Nat.lt_succ_of_lt (afterDigits?_length h)
  · simp at h

private theorem afterExponent?_length {t rest : Text} (h : afterExponent? t = some rest) :
    rest.length < t.length := by
  unfold afterExponent? at h
  split at h
  · simp at h
  · split at h
    · split at h <;> have := afterDigits?_length h <;> simp_all <;> omega
    · simp at h

private theorem afterSuffixes?_length {t rest : Text} (h : afterSuffixes? t = some rest) :
    rest.length ≤ t.length := by
  simp only [afterSuffixes?] at h
  split at h
  · simp at h
  · cases h
    exact (List.dropWhile_sublist _).length_le

private theorem afterTail?_length {t rest : Text} (h : afterTail? t = some rest) :
    rest.length ≤ t.length := by
  rcases Option.or_eq_some_iff.mp h with h | ⟨_, h⟩
  · obtain ⟨u, hu, hrest⟩ := Option.bind_eq_some_iff.mp h
    have := afterExponent?_length hu
    have := afterSuffixes?_length hrest
    omega
  · exact afterSuffixes?_length h

/-- A number is not empty. -/
theorem afterNumber?_length {t rest : Text} (h : afterNumber? t = some rest) :
    rest.length < t.length := by
  obtain ⟨u, hu, h⟩ := Option.bind_eq_some_iff.mp h
  have := afterDigits?_length hu
  rcases Option.or_eq_some_iff.mp h with h | ⟨_, h⟩
  · obtain ⟨v, hv, hrest⟩ := Option.bind_eq_some_iff.mp h
    have := afterFraction?_length hv
    have := afterTail?_length hrest
    omega
  · have := afterTail?_length h
    omega

private theorem numberFront?_length {inWord : Bool} {t rest : Text}
    (h : numberFront? inWord t = some rest) : rest.length < t.length := by
  unfold numberFront? at h
  split at h
  · simp at h
  · exact afterNumber?_length h

/-- Replaces every number of a text by one space. `inWord` tells whether the character before the
text is a word character. -/
def blankNumbersFrom (inWord : Bool) : Text → Text
  | [] => []
  | c :: t =>
    match _found : numberFront? inWord (c :: t) with
    | some rest => ' ' :: blankNumbersFrom true rest
    | none => c :: blankNumbersFrom (isWordChar c) t
termination_by t => t.length
decreasing_by
  · exact numberFront?_length _found
  · simp

def blankNumbers (line : Text) : Text := blankNumbersFrom false line

end Registrar.Text
