import Registrar.Markers
import Registrar.Proofs.Text.Occurrence
import Registrar.Proofs.Text.Pieces
import Registrar.Proofs.Text.Words

/-! Marker invocations at the front of a text, and texts without the marker. -/

namespace Registrar.Marker

variable {name t : Text}

private theorem invocationFront?_of_absent (h : Text.occursIn name t = false) :
    invocationFront? name t = none := by
  rw [invocationFront?, Text.after?_of_not_occursIn h]
  rfl

theorem strip_cons {c : Char} (h : invocationFront? name (c :: t) = none) :
    strip name (c :: t) = c :: strip name t := by
  rw [strip]
  split
  · rename_i found hfound
    exact absurd (hfound.symm.trans h) (by simp)
  · rfl

/-- Whether no invocation of `name` starts in a text that another one follows. -/
def Uninvoked (name s t : Text) : Prop :=
  ∀ front back, s = front ++ back → back ≠ [] → invocationFront? name (back ++ t) = none

namespace Uninvoked

variable {s : Text} {c : Char}

private theorem head (h : Uninvoked name (c :: s) t) :
    invocationFront? name (c :: (s ++ t)) = none :=
  h [] (c :: s) rfl (List.cons_ne_nil c s)

private theorem tail (h : Uninvoked name (c :: s) t) : Uninvoked name s t :=
  fun front back heq => h (c :: front) back (congrArg (c :: ·) heq)

/-- Where no invocation starts, the search goes on behind. -/
theorem invocation?_append (h : Uninvoked name s t) :
    invocation? name (s ++ t) = invocation? name t := by
  induction s with
  | nil => rfl
  | cons c s ih => rw [List.cons_append, invocation?, h.head, Option.none_or, ih h.tail]

/-- Nothing is removed where no invocation starts. -/
theorem strip_append (h : Uninvoked name s t) : strip name (s ++ t) = s ++ strip name t := by
  induction s with
  | nil => rfl
  | cons c s ih => rw [List.cons_append, strip_cons h.head, ih h.tail, List.cons_append]

theorem invocation?_eq_none (h : Uninvoked name t []) : invocation? name t = none := by
  have happend := h.invocation?_append
  rwa [List.append_nil] at happend

theorem strip_eq_self (h : Uninvoked name t []) : strip name t = t := by
  have happend := h.strip_append
  rwa [strip, List.append_nil] at happend

end Uninvoked

theorem strip_of_absent (h : Text.occursIn name t = false) : strip name t = t := by
  apply Uninvoked.strip_eq_self
  rintro front back rfl _
  rw [List.append_nil]
  exact invocationFront?_of_absent (Text.not_occursIn_of_suffix (List.suffix_append front back) h)

/-- Nothing is removed up to a separator that no invocation starts before. -/
theorem strip_append_cons {s : Text} {c : Char} (hname : name.isIdentifier = true)
    (hs : Text.occursIn name s = false) (hc : isIdentChar c = false) :
    strip name (s ++ c :: t) = s ++ c :: strip name t := by
  have hmem : c ∉ name := Text.not_mem_of_isIdentifier hname hc
  have hfront : ∀ {u}, Text.startsWith name u = false →
      invocationFront? name (u ++ c :: t) = none := by
    intro u hu
    rw [← Text.startsWith_append_cons (t := t) hmem, Text.startsWith,
      Option.isSome_eq_false_iff, Option.isNone_iff_eq_none] at hu
    rw [invocationFront?, hu]
    rfl
  induction s with
  | nil =>
    obtain ⟨first, more, rfl, _, _⟩ := Text.exists_of_isIdentifier hname
    exact strip_cons (hfront (u := []) rfl)
  | cons d s ih =>
    obtain ⟨hstart, hrest⟩ := Bool.or_eq_false_iff.mp hs
    have hnone := hfront hstart
    rw [List.cons_append] at hnone
    rw [List.cons_append, strip_cons hnone, ih hrest, List.cons_append]

theorem skipLeading_of_absent (h : Text.occursIn name t = false) :
    skipLeading name t = t.trimStart := by
  have htrim : Text.occursIn name t.trimStart = false :=
    Text.not_occursIn_of_suffix (List.dropWhile_suffix _) h
  rw [skipLeading]
  split
  · rename_i found hfound
    rw [invocationFront?_of_absent htrim] at hfound
    exact absurd hfound (by simp)
  · rfl

/-- A text without a parenthesis has no invocation, whatever the marker. -/
theorem invocationFront?_of_not_mem (h : '(' ∉ t) : invocationFront? name t = none := by
  rw [invocationFront?, Option.bind_eq_none_iff]
  intro rest hrest
  have hparen : '(' ∉ rest.trimStart := by
    intro hmem
    rw [Text.after?_eq_some_iff.mp hrest] at h
    exact h (List.mem_append_right name ((List.dropWhile_sublist _).mem hmem))
  unfold parenthesized?
  split
  · rename_i heq
    rw [heq] at hparen
    exact absurd (List.mem_cons_self ..) hparen
  · rfl

theorem skipLeading_of_not_mem (h : '(' ∉ t) : skipLeading name t = t.trimStart := by
  have htrim : '(' ∉ t.trimStart := fun hmem => h ((List.dropWhile_sublist _).mem hmem)
  rw [skipLeading]
  split
  · rename_i found hfound
    rw [invocationFront?_of_not_mem htrim] at hfound
    exact absurd hfound (by simp)
  · rfl

theorem skipLeading_of_some {first : Invocation}
    (h : invocationFront? name t.trimStart = some first) :
    skipLeading name t = skipLeading name first.after := by
  rw [skipLeading]
  split
  · rename_i found hfound
    rw [h] at hfound
    obtain rfl := Option.some.inj hfound
    rfl
  · rename_i hfound
    exact absurd (h.symm.trans hfound) (by simp)

theorem skipLeading_length_le (name t : Text) : (skipLeading name t).length ≤ t.length := by
  fun_induction skipLeading name t with
  | case1 t found hfound ih =>
    have hlt := invocationFront?_length hfound
    have hle := Text.trimStart_length_le t
    omega
  | case2 t => exact Text.trimStart_length_le t

/-- An invocation behind blanks is the leftmost one: the blanks could start one only if the marker
had no name, and then they belong to it. -/
theorem invocation?_of_trimStart {first : Invocation}
    (h : invocationFront? name t.trimStart = some first) : invocation? name t = some first := by
  induction t with
  | nil =>
    have hlt := invocationFront?_length h
    exact absurd hlt (Nat.not_lt_zero _)
  | cons c t ih =>
    by_cases hc : isBlank c = true
    · have htrim : Text.trimStart (c :: t) = Text.trimStart t := List.dropWhile_cons_of_pos hc
      rw [htrim] at h
      rw [invocation?, ih h]
      cases name with
      | nil =>
        have hfront : invocationFront? [] (c :: t) = some first := by
          simpa [invocationFront?, Text.after?, htrim, Text.trimStart_trimStart] using h
        rw [hfront]
        rfl
      | cons a name =>
        obtain ⟨rest, hrest, _⟩ := Option.bind_eq_some_iff.mp h
        have ha := Text.isBlank_of_trimStart (Text.after?_eq_some_iff.mp hrest)
        have hne : a ≠ c := by
          rintro rfl
          rw [hc] at ha
          exact Bool.noConfusion ha
        have hfront : invocationFront? (a :: name) (c :: t) = none := by
          rw [invocationFront?, Text.after?, if_neg hne]
          rfl
        rw [hfront]
        rfl
    · rw [Text.trimStart, List.dropWhile_cons_of_neg hc] at h
      rw [invocation?, h]
      rfl

theorem parenthesized?_front {body : Text} (after : Text) (h : ')' ∉ body) :
    parenthesized? ('(' :: body ++ ')' :: after) = some ⟨body, after⟩ := by
  have hbody : ∀ c ∈ body, (c != ')') = true := by
    intro c hc
    rw [bne_iff_ne]
    rintro rfl
    exact h hc
  simp only [parenthesized?, List.cons_append]
  rw [Text.dropWhile_append_stop hbody (by simp), Text.takeWhile_append_stop hbody (by simp)]

private theorem parenthesized?_eq_some_iff {body after : Text} :
    parenthesized? t = some ⟨body, after⟩ ↔ ')' ∉ body ∧ t = '(' :: body ++ ')' :: after := by
  constructor
  · intro h
    unfold parenthesized? at h
    split at h
    · rename_i t
      split at h
      · rename_i c rest hrest
        cases h
        have hc := Text.head?_dropWhile (· != ')') t c (by rw [hrest]; rfl)
        obtain rfl : c = ')' := by simpa using hc
        refine ⟨fun hmem => ?_, ?_⟩
        · have hbody := List.all_eq_true.mp List.all_takeWhile _ hmem
          exact absurd hbody (by decide)
        · rw [List.cons_append, ← hrest, List.takeWhile_append_dropWhile]
      · simp at h
    · simp at h
  · rintro ⟨hbody, rfl⟩
    exact parenthesized?_front after hbody

theorem exists_of_parenthesized? {found : Invocation}
    (h : parenthesized? t.trimStart = some found) :
    ∃ gap, t = gap ++ ('(' :: found.body ++ ')' :: found.after) ∧ (∀ c ∈ gap, isBlank c = true) ∧
      ')' ∉ found.body := by
  obtain ⟨hbody, htrim⟩ := parenthesized?_eq_some_iff.mp h
  refine ⟨t.takeWhile isBlank, ?_, List.all_eq_true.mp List.all_takeWhile, hbody⟩
  rw [← htrim]
  exact List.takeWhile_append_dropWhile.symm

/-- An invocation is the name, blanks, and a text in parentheses without a closing one. -/
theorem invocationFront?_eq_some_iff {found : Invocation} :
    invocationFront? name t = some found ↔ ')' ∉ found.body ∧
      ∃ gap, (∀ c ∈ gap, isBlank c = true) ∧
        t = name ++ (gap ++ ('(' :: found.body ++ ')' :: found.after)) := by
  constructor
  · intro h
    obtain ⟨rest, hrest, hparen⟩ := Option.bind_eq_some_iff.mp h
    obtain ⟨gap, rfl, hgap, hbody⟩ := exists_of_parenthesized? hparen
    exact ⟨hbody, gap, hgap, Text.after?_eq_some_iff.mp hrest⟩
  · rintro ⟨hbody, gap, hgap, rfl⟩
    have hopen : ∀ c ∈ ('(' :: found.body ++ ')' :: found.after).head?, isBlank c = false :=
      Text.forall_head?_cons (by decide) _
    rw [invocationFront?, Text.after?_append, Option.bind_some, Text.trimStart,
      Text.dropWhile_append_stop hgap hopen]
    exact parenthesized?_front found.after hbody

theorem invocation?_of_some {found : Invocation} (h : invocationFront? name t = some found) :
    invocation? name t = some found := by
  cases t with
  | nil => exact absurd (invocationFront?_length h) (Nat.not_lt_zero _)
  | cons c t => rw [invocation?, h, Option.some_or]

theorem strip_of_some {first : Invocation} (h : invocationFront? name t = some first) :
    strip name t = strip name first.after := by
  cases t with
  | nil => exact absurd (invocationFront?_length h) (Nat.not_lt_zero _)
  | cons c t =>
    rw [strip]
    split
    · rename_i found hfound
      obtain rfl := Option.some.inj (hfound.symm.trans h)
      rfl
    · rename_i hnone
      exact absurd (hnone.symm.trans h) (by simp)

private theorem invocationFront?_front {body : Text} (name after : Text) (h : ')' ∉ body) :
    invocationFront? name (name ++ ('(' :: body ++ ')' :: after)) = some ⟨body, after⟩ :=
  invocationFront?_eq_some_iff.mpr ⟨h, [], nofun, rfl⟩

variable {body : Text} (after : Text) (hbody : ')' ∉ body)
include hbody

theorem strip_front : strip name (name ++ ('(' :: body ++ ')' :: after)) = strip name after :=
  strip_of_some (invocationFront?_front name after hbody)

theorem skipLeading_front (hname : name.isIdentifier = true) :
    skipLeading name (name ++ ('(' :: body ++ ')' :: after)) = skipLeading name after := by
  have hfront := invocationFront?_front name after hbody
  rw [← Text.trimStart_identifier_append hname] at hfront
  exact skipLeading_of_some hfront

theorem args_front :
    args name (name ++ ('(' :: body ++ ')' :: after)) = Invocation.args ⟨body, after⟩ := by
  rw [args, invocation?_of_some (invocationFront?_front name after hbody)]

omit hbody

/-- The name that a marker on a line registers a class under: its first argument without quotes, or
the qualified name of the class if there is none or it is empty. -/
theorem nameFor_registration (name line : Text) (cls : ReflectedClass) :
    cls.nameFor (registration name line) =
      ((explicitName? name line).filter fun explicit => !explicit.isEmpty).getD
        cls.name.render := by
  rw [registration]
  cases explicitName? name line with
  | none => rfl
  | some explicit =>
    cases explicit with
    | nil => rfl
    | cons c explicit => rfl

theorem unquote_quoted (t : Text) : Text.unquote ('"' :: (t ++ ['"'])) = t := by
  simp [Text.unquote]

theorem args_quoted (after : Text) (h : ',' ∉ t) :
    Invocation.args ⟨'"' :: (t ++ ['"']), after⟩ = ['"' :: (t ++ ['"'])] := by
  have hcomma : ',' ∉ '"' :: (t ++ ['"']) := by simp [h]
  have htrim : Text.trim ('"' :: (t ++ ['"'])) = '"' :: (t ++ ['"']) := by
    rw [Text.trim, Text.trimStart_of_head _ (by decide), ← List.cons_append]
    exact Text.trimEnd_append_singleton ('"' :: t) (by decide)
  rw [Invocation.args, Text.splitAt_of_not_mem hcomma]
  simp [htrim]

end Registrar.Marker
