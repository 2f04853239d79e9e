import Registrar.Proofs.Text.Runs

/-! The names of a text: its identifiers without their places. Cut where no word goes on, a text has
the names of its two parts. -/

namespace Registrar.Text

variable {s t w : Text} {c : Char}

def names (t : Text) : List Text := t.identifiers.map Run.word

/-- The names of a text that goes on with a word, behind the rest of this word. -/
def namesBehindWord (t : Text) : List Text := names (t.dropWhile isIdentChar)

private theorem map_word_runsFrom (offset : Nat) (t : Text) :
    (runsFrom offset t).map Run.word = t.words := by
  have hplaces : ∀ m n, (runsFrom m t).map Run.word = (runsFrom n t).map Run.word := by
    induction t using word_induction with
    | nil => exact fun _ _ => rfl
    | separator c t hc ih =>
      intro m n
      rw [runsFrom, runsFrom, hc, if_neg Bool.false_ne_true, if_neg Bool.false_ne_true]
      exact ih _ _
    | word c w t hw ht ih =>
      intro m n
      rw [runsFrom_word hw ht, runsFrom_word hw ht, List.map_cons, List.map_cons, ih]
  exact hplaces offset 0

private theorem words_separator (hc : isIdentChar c = false) (t : Text) :
    words (c :: t) = t.words := by
  rw [words, runsFrom, hc, if_neg Bool.false_ne_true, map_word_runsFrom]

private theorem words_word (hne : w ≠ []) (hw : ∀ d ∈ w, isIdentChar d = true)
    (ht : ∀ d ∈ t.head?, isIdentChar d = false) : words (w ++ t) = w :: t.words := by
  obtain ⟨c, more, rfl⟩ := List.exists_cons_of_ne_nil hne
  rw [words, runsFrom_word hw ht, List.map_cons, map_word_runsFrom]

/-- A text is cut where no word goes on. -/
theorem words_append (s : Text) (ht : ∀ d ∈ t.head?, isIdentChar d = false) :
    words (s ++ t) = s.words ++ t.words := by
  induction s using word_induction with
  | nil => rfl
  | separator c s hc ih => rw [List.cons_append, words_separator hc, words_separator hc, ih]
  | word c w s hw hs ih =>
    have hnext : ∀ d ∈ (s ++ t).head?, isIdentChar d = false := by
      cases s with
      | nil => exact ht
      | cons d s => exact hs
    rw [List.append_assoc, words_word (List.cons_ne_nil c w) hw hnext,
      words_word (List.cons_ne_nil c w) hw hs, ih, List.cons_append]

/-- The names of a text are its words that start as an identifier does. -/
theorem names_eq (t : Text) : t.names = t.words.filter fun word => word.head?.any isIdentStart := by
  have hstart : ∀ run : Run, run.isIdentifier = run.word.head?.any isIdentStart := by
    rintro ⟨word, stop, after⟩
    cases word <;> rfl
  rw [names, identifiers, words, List.filter_map]
  exact congrArg _ (List.filter_congr fun run _ => hstart run)

@[simp] theorem names_nil : names [] = [] := rfl

theorem names_separator (hc : isIdentChar c = false) (t : Text) : names (c :: t) = t.names := by
  rw [names_eq, words_separator hc, names_eq]

theorem names_append (s : Text) (ht : ∀ d ∈ t.head?, isIdentChar d = false) :
    names (s ++ t) = s.names ++ t.names := by
  rw [names_eq, words_append s ht, List.filter_append, names_eq, names_eq]

private theorem names_append_of_getLast? (hs : ∀ d ∈ s.getLast?, isIdentChar d = false) (t : Text) :
    names (s ++ t) = s.names ++ t.names := by
  rcases List.eq_nil_or_concat s with rfl | ⟨lead, d, rfl⟩
  · rfl
  · rw [List.concat_eq_append] at hs ⊢
    have hd : isIdentChar d = false := hs d (by simp)
    rw [List.append_assoc, List.singleton_append, names_append lead (forall_head?_cons hd t),
      names_append lead (forall_head?_cons hd []), names_separator hd, names_separator hd,
      names_nil, List.append_nil]

theorem names_of_isWordless (h : t.isWordless = true) : t.names = [] := by
  induction t with
  | nil => rfl
  | cons c t ih =>
    obtain ⟨hc, ht⟩ := isWordless_cons.mp h
    rw [names_separator hc, ih ht]

theorem names_wordless_append (hs : s.isWordless = true) (t : Text) : names (s ++ t) = t.names := by
  rw [names_append_of_getLast? fun d hd =>
      isIdentChar_of_isWordless hs d (List.mem_of_getLast? hd),
    names_of_isWordless hs, List.nil_append]

theorem names_identifier (h : w.isIdentifier = true) : w.names = [w] := by
  have hwords := words_word (t := []) (ne_nil_of_isIdentifier h)
    (fun c hc => isIdentChar_of_mem h hc) nofun
  rw [List.append_nil] at hwords
  obtain ⟨c, more, rfl, hc, _⟩ := exists_of_isIdentifier h
  rw [names_eq, hwords]
  exact List.filter_cons_of_pos hc

/-- A word with its rest behind it: the word counts if it starts as an identifier does. -/
theorem names_cons (hc : isIdentChar c = true) (t : Text) :
    names (c :: t) =
      (if isIdentStart c then [c :: t.takeWhile isIdentChar] else []) ++ t.namesBehindWord := by
  have hword : ∀ d ∈ c :: t.takeWhile isIdentChar, isIdentChar d = true :=
    List.forall_mem_cons.mpr ⟨hc, List.all_eq_true.mp List.all_takeWhile⟩
  have hwords := words_word (List.cons_ne_nil _ _) hword (head?_dropWhile isIdentChar t)
  rw [List.cons_append, List.takeWhile_append_dropWhile] at hwords
  rw [names_eq, hwords, List.filter_cons, namesBehindWord, names_eq]
  cases hstart : isIdentStart c <;> simp [hstart]

theorem namesBehindWord_of_stop (h : ∀ d ∈ t.head?, isIdentChar d = false) :
    t.namesBehindWord = t.names := by
  rw [namesBehindWord, ← List.nil_append t, dropWhile_append_stop (by simp) h, List.nil_append]

theorem namesBehindWord_cons (hc : isIdentChar c = true) (t : Text) :
    namesBehindWord (c :: t) = t.namesBehindWord := by
  rw [namesBehindWord, List.dropWhile_cons_of_pos hc, namesBehindWord]

theorem namesBehindWord_append (hw : ∀ d ∈ w, isIdentChar d = true) (t : Text) :
    namesBehindWord (w ++ t) = t.namesBehindWord := by
  rw [namesBehindWord, List.dropWhile_append_of_pos hw, namesBehindWord]

/-- Whether each letter and each `_` of a text goes on with a word of it. -/
def LettersContinue (t : Text) : Prop :=
  ∀ before c after, t = before ++ c :: after → isIdentStart c = true →
    ∃ d ∈ before.getLast?, isIdentChar d = true

/-- This is known of what stands behind a word or a separator if it is known of the whole text. -/
theorem LettersContinue.behind (h : LettersContinue (s ++ t))
    (hcut : (∀ c ∈ s.getLast?, isIdentChar c = false) ∨ ∀ c ∈ t.head?, isIdentChar c = false) :
    t.LettersContinue := by
  rintro before c after rfl hstart
  obtain ⟨d, hd, hident⟩ := h (s ++ before) c after (List.append_assoc ..).symm hstart
  rcases List.eq_nil_or_concat before with rfl | ⟨lead, e, rfl⟩
  · rw [List.append_nil] at hd
    rcases hcut with hcut | hcut
    · exact absurd hident (by simp [hcut d hd])
    · exact absurd (isIdentChar_of_isIdentStart hstart) (by simp [hcut c rfl])
  · obtain rfl : e = d := by simpa [← List.append_assoc] using hd
    exact ⟨e, by simp, hident⟩

/-- A text has no names exactly if none of its letters starts a word. -/
theorem names_eq_nil_iff : t.names = [] ↔ t.LettersContinue := by
  constructor
  · rintro hnone before c after rfl hstart
    refine Classical.byContradiction fun hfree => ?_
    simp only [not_exists, not_and, Bool.not_eq_true] at hfree
    rw [names_append_of_getLast? hfree, names_cons (isIdentChar_of_isIdentStart hstart),
      if_pos hstart] at hnone
    simp at hnone
  · intro hletters
    induction t using word_induction with
    | nil => rfl
    | separator c t hc ih =>
      rw [names_separator hc]
      exact ih (hletters.behind (s := [c]) (.inl (by simpa using hc)))
    | word c w t hw ht ih =>
      obtain ⟨hc, hmore⟩ := List.forall_mem_cons.mp hw
      have hnumber : isIdentStart c = false := by
        rw [Bool.eq_false_iff]
        intro hstart
        obtain ⟨d, hd, _⟩ := hletters [] c (w ++ t) rfl hstart
        exact absurd hd (by simp)
      rw [List.cons_append, names_cons hc, hnumber, if_neg Bool.false_ne_true, List.nil_append,
        namesBehindWord_append hmore, namesBehindWord_of_stop ht]
      exact ih (hletters.behind (.inr ht))

end Registrar.Text
