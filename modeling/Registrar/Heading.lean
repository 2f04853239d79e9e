import Registrar.Markers
import Registrar.Text.Word

/-! Headings: how a line opens namespaces and announces classes. -/

namespace Registrar

namespace Heading

/-- A word that starts with an ASCII letter or `_`, at the front of a text, and what follows it. -/
def word? : Text → Option (Text × Text)
  | [] => none
  | c :: t =>
    if isIdentStart c then some (c :: t.takeWhile isWordChar, t.dropWhile isWordChar) else none

def afterKeyword? (keyword t : Text) : Option Text :=
  (Text.after? keyword t).bind fun rest =>
    if rest.head?.any isBlank then some rest.trimStart else none

def chain (t : Text) : Text × Text :=
  match t with
  | ':' :: ':' :: rest =>
    if rest.head?.any isWordChar then
      let (more, after) := chain (rest.dropWhile isWordChar)
      (':' :: ':' :: rest.takeWhile isWordChar ++ more, after)
    else ([], t)
  | _ => ([], t)
termination_by t.length
decreasing_by
  have := (List.dropWhile_sublist (l := rest) isWordChar).length_le
  simp
  omega

/-- A namespace opened at the front of a text: its name, chained names as one, and what follows the
brace. -/
def namespaceFront? (t : Text) : Option (Text × Text) :=
  (afterKeyword? "namespace".toList t).bind fun t =>
    (word? t).bind fun (first, t) =>
      let (more, t) := chain t
      match t.trimStart with
      | '{' :: after => some (first ++ more, after)
      | _ => none

private theorem word?_length {t name rest : Text} (h : word? t = some (name, rest)) :
    rest.length < t.length := by
  cases t with
  | nil => simp [word?] at h
  | cons c t =>
    simp only [word?] at h
    split at h
    · cases h
      exact Nat.lt_succ_of_le (List.dropWhile_sublist _).length_le
    · simp at h

private theorem afterKeyword?_length {keyword t rest : Text}
    (h : afterKeyword? keyword t = some rest) : rest.length ≤ t.length := by
  obtain ⟨u, hu, h⟩ := Option.bind_eq_some_iff.mp h
  split at h
  · cases h
    have := Text.trimStart_length_le u
    rw [Text.after?_eq_some_iff.mp hu]
    simp
    omega
  · simp at h

private theorem chain_length (t : Text) : (chain t).2.length ≤ t.length := by
  fun_induction chain t with
  | case1 rest _ more after heq ih =>
    have := (List.dropWhile_sublist (l := rest) isWordChar).length_le
    simp only [heq] at ih
    simp
    omega
  | case2 => simp
  | case3 => simp

private theorem namespaceFront?_length {t name rest : Text}
    (h : namespaceFront? t = some (name, rest)) : rest.length < t.length := by
  obtain ⟨u, hu, h⟩ := Option.bind_eq_some_iff.mp h
  obtain ⟨⟨first, v⟩, hv, h⟩ := Option.bind_eq_some_iff.mp h
  have hkeyword := afterKeyword?_length hu
  have hword := word?_length hv
  have hchain := chain_length v
  have htrim := Text.trimStart_length_le (chain v).2
  simp only at h
  split at h
  · rename_i after heq
    cases h
    rw [heq] at htrim
    simp at htrim
    omega
  · simp at h

/-- The namespaces that a text opens, from left to right. `inWord` tells whether the character
before the text is a word character; the keyword starts only where it is not. -/
def namespacesFrom (inWord : Bool) : Text → List Text
  | [] => []
  | c :: t =>
    match _found : if inWord then none else namespaceFront? (c :: t) with
    | some (name, rest) => name :: namespacesFrom false rest
    | none => namespacesFrom (isWordChar c) t
termination_by t => t.length
decreasing_by
  · split at _found
    · simp at _found
    · exact namespaceFront?_length _found
  · simp

def namespaces (line : Text) : List Text := namespacesFrom false line

def className? (t : Text) : Option Text :=
  ((afterKeyword? "class".toList t).or (afterKeyword? "struct".toList t)).bind fun t =>
    (word? t).map Prod.fst

end Heading

/-- The head of a class whose body opens on a later line, with the registration that a class marker
in front of the head asks for. -/
structure ClassHead where
  name : Text
  mark : Option Registration := none
deriving DecidableEq

inductive Heading where
  /-- Declares a class and ends. -/
  | forward
  /-- Opens the body on the same line. -/
  | opening (name : Text)
  /-- Leaves the body to a later line. -/
  | split (head : ClassHead)
deriving DecidableEq

/-- The class head of a line. Invocations of the class marker in front of it are looked past. -/
def heading? (marker line : Text) : Option Heading :=
  let text := Marker.skipLeading marker line
  (Heading.className? text).map fun name =>
    if line.contains '{' then .opening name
    else if line.contains ';' then .forward
    else if text.length < line.trimStart.length then
      .split ⟨name, some (Marker.registration marker line)⟩
    else .split ⟨name, none⟩

end Registrar
