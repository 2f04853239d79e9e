import Registrar.Declaration
import Registrar.Proofs.Text.Runs

/-! Blanking literals and numbers. Neither cuts a word: what is left of a text may begin in the
middle of a word, but every word that it ends was ended by the text itself. Texts that hold neither
are left as they are. -/

namespace Registrar.Text

/-- Whether a word of a text ends with a given name. -/
def EndsWord (name t : Text) : Prop :=
  ∃ before after, t = before ++ (name ++ after) ∧ ∀ c ∈ after.head?, isIdentChar c = false

private theorem EndsWord.append_left {name t : Text} (h : EndsWord name t) (s : Text) :
    EndsWord name (s ++ t) := by
  obtain ⟨before, after, rfl, hafter⟩ := h
  exact ⟨s ++ before, after, (List.append_assoc ..).symm, hafter⟩

/-- A text with some of its pieces replaced by spaces. None of the pieces goes on with a word, and
`inWord` tells whether the first one would. -/
inductive Masked : Bool → Text → Text → Prop
  | nil (inWord : Bool) : Masked inWord [] []
  | keep {inWord : Bool} (c : Char) {t s : Text} :
      Masked (isIdentChar c) t s → Masked inWord (c :: t) (c :: s)
  | blank {inWord : Bool} (c : Char) (piece : Text) {t s : Text} :
      (inWord = true → isIdentChar c = false) → Masked false t s →
        Masked inWord (c :: piece ++ t) (' ' :: s)

namespace Masked

variable {inWord : Bool} {w t s : Text}

/-- The rest of a word is kept to its end. -/
theorem exists_append (hw : ∀ c ∈ w, isIdentChar c = true)
    (hs : ∀ c ∈ s.head?, isIdentChar c = false) (h : Masked true t (w ++ s)) :
    ∃ rest, t = w ++ rest ∧ ∀ c ∈ rest.head?, isIdentChar c = false := by
  induction w generalizing t with
  | nil =>
    refine ⟨t, rfl, ?_⟩
    cases h with
    | nil => exact hs
    | keep c h => exact forall_head?_cons (hs c rfl) _
    | blank c piece hc h => exact forall_head?_cons (hc rfl) _
  | cons c w ih =>
    obtain ⟨hc, hw⟩ := List.forall_mem_cons.mp hw
    cases h with
    | keep c h =>
      rw [hc] at h
      obtain ⟨rest, rfl, hrest⟩ := ih hw h
      exact ⟨rest, rfl, hrest⟩
    | blank => exact absurd hc (by decide)

/-- A word that ends in the masked text ends in the text. -/
theorem endsWord {name : Text} (hname : name.isIdentifier = true) (h : Masked inWord t s)
    (hends : EndsWord name s) : EndsWord name t := by
  obtain ⟨first, more, rfl, _, _⟩ := exists_of_isIdentifier hname
  have hident : ∀ c ∈ first :: more, isIdentChar c = true := fun c hc => isIdentChar_of_mem hname hc
  obtain ⟨hfirst, hmore⟩ := List.forall_mem_cons.mp hident
  obtain ⟨before, after, hs, hafter⟩ := hends
  induction h generalizing before with
  | nil => exact absurd hs (by simp)
  | keep c h ih =>
    cases before with
    | nil =>
      obtain ⟨rfl, rfl⟩ := List.cons.inj hs
      rw [hfirst] at h
      obtain ⟨rest, rfl, hrest⟩ := h.exists_append hmore hafter
      exact ⟨[], rest, rfl, hrest⟩
    | cons b before => exact (ih before (List.cons.inj hs).2).append_left [c]
  | blank c piece hc h ih =>
    cases before with
    | nil =>
      obtain ⟨rfl, _⟩ := List.cons.inj hs
      exact absurd hfirst (by decide)
    | cons b before => exact (ih before (List.cons.inj hs).2).append_left (c :: piece)

end Masked

theorem ne_quote_of_isIdentChar {c : Char} (hc : isIdentChar c = true) :
    c ≠ '\\' ∧ c ≠ '"' ∧ c ≠ '\'' :=
  ⟨ne_of_isIdentChar hc (by decide), ne_of_isIdentChar hc (by decide),
    ne_of_isIdentChar hc (by decide)⟩

private theorem shown_of_isIdentChar {c : Char} (hc : isIdentChar c = true) :
    Quoting.shown {} c = c := by
  obtain ⟨hslash, hdouble, hsingle⟩ := ne_quote_of_isIdentChar hc
  simp [Quoting.shown, hslash, hdouble, hsingle]

theorem shown_eq (place : Quoting) (c : Char) :
    place.shown c = ' ' ∨ place.shown c = c ∧ place.next c = {} := by
  obtain ⟨quote, escaped⟩ := place
  unfold Quoting.shown
  split
  · exact Or.inl rfl
  · rename_i hplain
    right
    simp only [Bool.or_eq_true, not_or, beq_iff_eq, Bool.not_eq_true, Option.isSome_eq_false_iff,
      Option.isNone_iff_eq_none] at hplain
    obtain ⟨⟨⟨⟨rfl, rfl⟩, hslash⟩, hdouble⟩, hsingle⟩ := hplain
    simp [Quoting.next, hslash, hdouble, hsingle]

/-- A word outside literals is not cut by a quote, which is no part of it. -/
theorem masked_blankLiteralsFrom {inWord : Bool} {place : Quoting} (h : inWord = true → place = {})
    (t : Text) : Masked inWord t (blankLiteralsFrom place t) := by
  induction t generalizing inWord place with
  | nil => exact .nil inWord
  | cons c t ih =>
    rw [blankLiteralsFrom]
    rcases shown_eq place c with hshown | ⟨hshown, hnext⟩
    · rw [hshown]
      refine .blank c [] ?_ (ih fun hword => absurd hword Bool.false_ne_true)
      intro hword
      rw [Bool.eq_false_iff]
      intro hc
      rw [h hword, shown_of_isIdentChar hc] at hshown
      exact absurd hc (by rw [hshown]; decide)
    · rw [hshown]
      exact .keep c (ih fun _ => hnext)

private theorem masked_blankLiterals (t : Text) : Masked false t t.blankLiterals := by
  rw [blankLiterals]
  exact masked_blankLiteralsFrom (fun h => absurd h Bool.false_ne_true) t

theorem afterDigits?_suffix {t rest : Text} (h : afterDigits? t = some rest) : rest <:+ t := by
  unfold afterDigits? at h
  split at h
  · simp at h
  · split at h
    · cases h
      exact (List.dropWhile_suffix _).trans (List.suffix_cons _ _)
    · simp at h

theorem afterFraction?_suffix {t rest : Text} (h : afterFraction? t = some rest) : rest <:+ t := by
  unfold afterFraction? at h
  split at h
  · exact (afterDigits?_suffix h).trans (List.suffix_cons _ _)
  · simp at h

private theorem afterExponent?_suffix {t rest : Text} (h : afterExponent? t = some rest) :
    rest <:+ t := by
  unfold afterExponent? at h
  split at h
  · simp at h
  · split at h
    · refine .trans ?_ (List.suffix_cons _ _)
      split at h
      · exact (afterDigits?_suffix h).trans (List.suffix_cons _ _)
      · exact (afterDigits?_suffix h).trans (List.suffix_cons _ _)
      · exact afterDigits?_suffix h
    · simp at h

private theorem afterSuffixes?_suffix {t rest : Text} (h : afterSuffixes? t = some rest) :
    rest <:+ t := by
  simp only [afterSuffixes?] at h
  split at h
  · simp at h
  · cases h
    exact List.dropWhile_suffix _

private theorem afterTail?_suffix {t rest : Text} (h : afterTail? t = some rest) : rest <:+ t := by
  rcases Option.or_eq_some_iff.mp h with h | ⟨_, h⟩
  · obtain ⟨u, hu, hrest⟩ := Option.bind_eq_some_iff.mp h
    exact (afterSuffixes?_suffix hrest).trans (afterExponent?_suffix hu)
  · exact afterSuffixes?_suffix h

theorem afterNumber?_suffix {t rest : Text} (h : afterNumber? t = some rest) : rest <:+ t := by
  obtain ⟨u, hu, h⟩ := Option.bind_eq_some_iff.mp h
  refine .trans ?_ (afterDigits?_suffix hu)
  rcases Option.or_eq_some_iff.mp h with h | ⟨_, h⟩
  · obtain ⟨v, hv, hrest⟩ := Option.bind_eq_some_iff.mp h
    exact (afterTail?_suffix hrest).trans (afterFraction?_suffix hv)
  · exact afterTail?_suffix h

/-- No number starts inside a word. -/
theorem masked_blankNumbersFrom {inWord wordBefore : Bool} (h : inWord = true → wordBefore = true)
    (t : Text) : Masked inWord t (blankNumbersFrom wordBefore t) := by
  fun_induction blankNumbersFrom wordBefore t generalizing inWord with
  | case1 => exact .nil inWord
  | case2 wordBefore c t rest hfound ih =>
    have hbefore : wordBefore = false := by
      rw [Bool.eq_false_iff]
      intro htrue
      rw [htrue] at hfound
      exact absurd hfound (by simp [numberFront?])
    rw [hbefore] at h hfound
    have hlength := afterNumber?_length hfound
    obtain ⟨piece, hpiece⟩ := afterNumber?_suffix hfound
    cases piece with
    | nil =>
      rw [← hpiece] at hlength
      exact absurd hlength (Nat.lt_irrefl _)
    | cons d piece =>
      rw [← hpiece]
      refine .blank d piece ?_ (ih fun hword => absurd hword Bool.false_ne_true)
      exact fun hword => absurd (h hword) Bool.false_ne_true
  | case3 wordBefore c t hnone ih => exact .keep c (ih isWordChar_of_isIdentChar)

private theorem masked_blankNumbers (t : Text) : Masked false t t.blankNumbers := by
  rw [blankNumbers]
  exact masked_blankNumbersFrom (fun h => absurd h Bool.false_ne_true) t

def IsPlain (t : Text) : Prop := ∀ c ∈ t, c ∉ "(\"'\\".toList

instance (t : Text) : Decidable t.IsPlain := List.decidableBAll _ t

theorem IsPlain.ne {t : Text} (h : t.IsPlain) :
    '(' ∉ t ∧ ∀ c ∈ t, c ≠ '\\' ∧ c ≠ '"' ∧ c ≠ '\'' := by
  have hne : ∀ c ∈ t, c ≠ '(' ∧ c ≠ '"' ∧ c ≠ '\'' ∧ c ≠ '\\' := by
    intro c hc
    simpa using h c hc
  refine ⟨fun hmem => (hne _ hmem).1 rfl, fun c hc => ?_⟩
  obtain ⟨_, hdouble, hsingle, hslash⟩ := hne c hc
  exact ⟨hslash, hdouble, hsingle⟩

theorem IsPlain.append {s t : Text} (hs : s.IsPlain) (ht : t.IsPlain) : (s ++ t).IsPlain :=
  List.forall_mem_append.mpr ⟨hs, ht⟩

theorem isPlain_of_isIdentChar {t : Text} (h : ∀ c ∈ t, isIdentChar c = true) : t.IsPlain := by
  have hmarks : "(\"'\\".toList.all (fun c => !isIdentChar c) = true := by decide
  intro c hc hmark
  have hno := List.all_eq_true.mp hmarks c hmark
  rw [h c hc] at hno
  exact Bool.noConfusion hno

theorem blankLiterals_cons {c : Char} (h : c ≠ '\\' ∧ c ≠ '"' ∧ c ≠ '\'') (t : Text) :
    blankLiterals (c :: t) = c :: t.blankLiterals := by
  obtain ⟨hslash, hdouble, hsingle⟩ := h
  have hshown : Quoting.shown {} c = c := by simp [Quoting.shown, hslash, hdouble, hsingle]
  have hnext : Quoting.next {} c = {} := by simp [Quoting.next, hslash, hdouble, hsingle]
  rw [blankLiterals, blankLiteralsFrom, hshown, hnext, ← blankLiterals]

theorem blankLiterals_append_of_plain {s : Text} (h : ∀ c ∈ s, c ≠ '\\' ∧ c ≠ '"' ∧ c ≠ '\'')
    (t : Text) : blankLiterals (s ++ t) = s ++ t.blankLiterals := by
  induction s with
  | nil => rfl
  | cons c s ih =>
    obtain ⟨hc, hs⟩ := List.forall_mem_cons.mp h
    rw [List.cons_append, blankLiterals_cons hc, ih hs, List.cons_append]

theorem blankLiterals_of_plain {t : Text} (h : ∀ c ∈ t, c ≠ '\\' ∧ c ≠ '"' ∧ c ≠ '\'') :
    t.blankLiterals = t := by
  have happend := blankLiterals_append_of_plain h []
  rwa [List.append_nil, show blankLiterals [] = [] from rfl, List.append_nil] at happend

theorem blankNumbersFrom_of_some {inWord : Bool} {c : Char} {t rest : Text}
    (h : numberFront? inWord (c :: t) = some rest) :
    blankNumbersFrom inWord (c :: t) = ' ' :: blankNumbersFrom true rest := by
  rw [blankNumbersFrom]
  split
  · rename_i found hfound
    obtain rfl := Option.some.inj (hfound.symm.trans h)
    rfl
  · rename_i hnone
    exact absurd (hnone.symm.trans h) (by simp)

theorem blankNumbersFrom_of_none {inWord : Bool} {c : Char} {t : Text}
    (h : numberFront? inWord (c :: t) = none) :
    blankNumbersFrom inWord (c :: t) = c :: blankNumbersFrom (isWordChar c) t := by
  rw [blankNumbersFrom]
  split
  · rename_i rest hfound
    exact absurd (hfound.symm.trans h) (by simp)
  · rfl

/-- A character is kept if no number starts at it. -/
theorem blankNumbersFrom_cons {inWord : Bool} {c : Char}
    (h : inWord = true ∨ isDecimalDigit c = false) (t : Text) :
    blankNumbersFrom inWord (c :: t) = c :: blankNumbersFrom (isWordChar c) t := by
  apply blankNumbersFrom_of_none
  rcases h with rfl | hdigit
  · rfl
  · simp [numberFront?, afterNumber?, afterDigits?, hdigit]

end Registrar.Text

namespace Registrar.Declaration

/-- The identifier that a line declares ends a word of the line. -/
theorem endsWord_of_identifier? {kind : BindingKind} {line name : Text}
    (h : identifier? kind line = some name) : Text.EndsWord name line := by
  have hends : ∀ {t : Text} {run : Text.Run}, run ∈ t.identifiers → Text.EndsWord run.word t := by
    intro t run hrun
    obtain ⟨_, _, hstop, before, rfl⟩ := Text.of_mem_runsFrom (List.mem_filter.mp hrun).1
    exact ⟨before, run.after, rfl, hstop⟩
  cases kind with
  | member =>
    rw [identifier?, memberIdentifier?] at h
    split at h
    · exact absurd h (by simp)
    · obtain ⟨run, hrun, rfl⟩ := Option.map_eq_some_iff.mp h
      have hmem := List.mem_of_getLast? hrun
      have hident := Text.isIdentifier_of_mem_identifiers hmem
      have hnumbers := (Text.masked_blankNumbers line.blankLiterals).endsWord hident (hends hmem)
      exact (Text.masked_blankLiterals line).endsWord hident hnumbers
  | function =>
    obtain ⟨hname, _⟩ := Option.filter_eq_some_iff.mp h
    obtain ⟨run, hrun, rfl⟩ := Option.map_eq_some_iff.mp hname
    exact hends (List.mem_of_find?_eq_some hrun)

end Registrar.Declaration
