import Registrar.ReflectedClass
import Registrar.Text.Blank

/-! Marker invocations: the marker's name, blanks, and arguments in parentheses.

The argument list ends at the first `)`. The name is taken literally, and the empty name is
admitted. -/

namespace Registrar

namespace Text

/-- The text without one pair of double quotes around it. Anything else is left as it is. -/
def unquote (t : Text) : Text :=
  match t with
  | '"' :: inner => if inner.getLast? = some '"' then inner.dropLast else t
  | _ => t

end Text

namespace Marker

/-- An invocation found in a text: what stands between its parentheses and what follows it. -/
structure Invocation where
  body : Text
  after : Text
deriving DecidableEq

def parenthesized? : Text → Option Invocation
  | '(' :: t =>
    match t.dropWhile (· != ')') with
    | _ :: after => some ⟨t.takeWhile (· != ')'), after⟩
    | [] => none
  | _ => none

def invocationFront? (name t : Text) : Option Invocation :=
  (Text.after? name t).bind fun rest => parenthesized? rest.trimStart

def invocation? (name : Text) : Text → Option Invocation
  | [] => none
  | c :: t => (invocationFront? name (c :: t)).or (invocation? name t)

private theorem parenthesized?_length {t : Text} {found : Invocation}
    (h : parenthesized? t = some found) : found.after.length < t.length := by
  unfold parenthesized? at h
  split at h
  · rename_i t
    have hle : (t.dropWhile (· != ')')).length ≤ t.length := (List.dropWhile_sublist _).length_le
    split at h
    · rename_i after heq
      cases h
      rw [heq] at hle
      simp at hle ⊢
      omega
    · simp at h
  · simp at h

/-- An invocation is not empty, not even that of the empty name. -/
theorem invocationFront?_length {name t : Text} {found : Invocation}
    (h : invocationFront? name t = some found) : found.after.length < t.length := by
  obtain ⟨rest, hrest, h⟩ := Option.bind_eq_some_iff.mp h
  have hlt := parenthesized?_length h
  have hle := Text.trimStart_length_le rest
  rw [Text.after?_eq_some_iff.mp hrest]
  simp
  omega

/-- The arguments of an invocation, without the blanks around them. Empty ones are dropped. -/
def Invocation.args (invocation : Invocation) : List Text :=
  ((invocation.body.splitAt ',').map Text.trim).filter fun arg => !arg.isEmpty

def args (name line : Text) : List Text :=
  match invocation? name line with
  | some invocation => invocation.args
  | none => []

def explicitName? (name line : Text) : Option Text := (args name line).head?.map Text.unquote

/-- How an invocation on the line registers a class: under a given name if it is not empty. -/
def registration (name line : Text) : Registration :=
  match explicitName? name line with
  | some explicit => if explicit.isEmpty then .qualified else .explicit explicit
  | none => .qualified

def strip (name : Text) : Text → Text
  | [] => []
  | c :: t =>
    match _found : invocationFront? name (c :: t) with
    | some invocation => strip name invocation.after
    | none => c :: strip name t
termination_by t => t.length
decreasing_by
  · exact invocationFront?_length _found
  · simp

def skipLeading (name t : Text) : Text :=
  match _found : invocationFront? name t.trimStart with
  | some invocation => skipLeading name invocation.after
  | none => t.trimStart
termination_by t.length
decreasing_by
  exact Nat.lt_of_lt_of_le (invocationFront?_length _found) (Text.trimStart_length_le t)

end Marker

end Registrar
