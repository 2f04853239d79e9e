import Registrar.Text.Basic

/-! Where a word can stand in a text: on one side of any character that it does not hold. -/

namespace Registrar.Text

variable {word s t : Text} {c : Char}

theorem startsWith_append_cons (hc : c ∉ word) :
    startsWith word (s ++ c :: t) = startsWith word s := by
  induction word generalizing s with
  | nil => simp [startsWith, after?]
  | cons a word ih =>
    obtain ⟨hca, hcw⟩ := not_or.mp (mt List.mem_cons.mpr hc)
    cases s with
    | nil => simp [startsWith, after?, Ne.symm hca]
    | cons b s =>
      by_cases hab : a = b
      · have hstep := ih (s := s) hcw
        simpa [startsWith, after?, hab] using hstep
      · simp [startsWith, after?, hab]

/-- A separator cuts the search in two. -/
theorem occursIn_append_cons (hword : word ≠ []) (hc : c ∉ word) :
    occursIn word (s ++ c :: t) = (occursIn word s || occursIn word t) := by
  have hempty : word.isEmpty = false := by simpa using hword
  induction s with
  | nil =>
    have hstart : startsWith word (c :: t) = startsWith word [] :=
      startsWith_append_cons (s := []) hc
    have hnil : startsWith word [] = false := by
      cases word with
      | nil => exact absurd rfl hword
      | cons a word => rfl
    simp only [List.nil_append, occursIn, hstart, hnil, hempty, Bool.false_or]
  | cons b s ih =>
    have hstart := startsWith_append_cons (s := b :: s) (t := t) hc
    simp only [List.cons_append] at hstart
    simp only [List.cons_append, occursIn, hstart, ih, Bool.or_assoc]

theorem occursIn_nil (hword : word ≠ []) : occursIn word [] = false := by
  simpa [occursIn] using hword

theorem occursIn_cons (hword : word ≠ []) (hc : c ∉ word) :
    occursIn word (c :: t) = occursIn word t := by
  have h := occursIn_append_cons (s := []) (t := t) hword hc
  rw [occursIn_nil hword] at h
  exact h

/-- A word without newlines stands on one line. -/
theorem occursIn_flatMap (hword : word ≠ []) (hc : '\n' ∉ word) (rows : List Text) :
    occursIn word (rows.flatMap fun line => line ++ ['\n']) = rows.any (occursIn word) := by
  induction rows with
  | nil => exact occursIn_nil hword
  | cons line rows ih =>
    rw [List.flatMap_cons, List.append_assoc, List.singleton_append, occursIn_append_cons hword hc,
      ih, List.any_cons]

theorem after?_of_not_occursIn (h : occursIn word t = false) : after? word t = none := by
  rw [Option.eq_none_iff_forall_not_mem]
  intro rest hrest
  have hocc : occursIn word t = true :=
    occursIn_iff.mpr ⟨[], rest, after?_eq_some_iff.mp hrest⟩
  rw [h] at hocc
  exact Bool.noConfusion hocc

theorem occursIn_of_suffix (hs : s <:+ t) (h : occursIn word s = true) :
    occursIn word t = true := by
  obtain ⟨front, rfl⟩ := hs
  obtain ⟨before, after, rfl⟩ := occursIn_iff.mp h
  exact occursIn_iff.mpr ⟨front ++ before, after, by simp only [List.append_assoc]⟩

theorem not_occursIn_of_suffix (hs : s <:+ t) (h : occursIn word t = false) :
    occursIn word s = false := by
  rw [Bool.eq_false_iff] at h ⊢
  exact mt (occursIn_of_suffix hs) h

theorem occursIn_self_append (word t : Text) : occursIn word (word ++ t) = true :=
  occursIn_iff.mpr ⟨[], t, rfl⟩

end Registrar.Text
