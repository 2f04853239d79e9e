import Registrar.Text.Basic

/-! Pieces of texts between separators. A separator cuts a text in two that can be split apart. -/

namespace Registrar.Text

variable {separator c : Char} {s t piece : Text}

theorem consPiece_append (c : Char) {pieces : List Text} (more : List Text) (h : pieces ≠ []) :
    consPiece c (pieces ++ more) = consPiece c pieces ++ more := by
  cases pieces with
  | nil => exact absurd rfl h
  | cons piece pieces => rfl

theorem consPiece_ne_nil (c : Char) (pieces : List Text) : consPiece c pieces ≠ [] := by
  cases pieces <;> simp [consPiece]

theorem splitAt_ne_nil (separator : Char) (t : Text) : splitAt separator t ≠ [] := by
  unfold splitAt
  split
  · exact List.cons_ne_nil _ _
  · split
    · exact List.cons_ne_nil _ _
    · exact consPiece_ne_nil _ _

theorem splitAt_of_not_mem (h : separator ∉ t) : t.splitAt separator = [t] := by
  induction t with
  | nil => rfl
  | cons d t ih =>
    obtain ⟨hd, ht⟩ := not_or.mp (mt List.mem_cons.mpr h)
    rw [Text.splitAt, if_neg (Ne.symm hd), ih ht]
    rfl

theorem splitAt_append_cons (separator : Char) (s t : Text) :
    splitAt separator (s ++ separator :: t) = splitAt separator s ++ splitAt separator t := by
  induction s with
  | nil => simp [splitAt]
  | cons c s ih =>
    by_cases hc : c = separator
    · simp [splitAt, hc, ih]
    · simp only [List.cons_append, splitAt, if_neg hc, ih]
      exact consPiece_append c _ (splitAt_ne_nil separator s)

/-- A piece holds no separator, and nothing that the text does not hold. -/
theorem of_mem_splitAt (h : piece ∈ splitAt separator t) :
    separator ∉ piece ∧ ∀ c ∈ piece, c ∈ t := by
  induction t generalizing piece with
  | nil =>
    obtain rfl : piece = [] := by simpa [splitAt] using h
    simp
  | cons d t ih =>
    by_cases hd : d = separator
    · rw [splitAt, if_pos hd, List.mem_cons] at h
      rcases h with rfl | h
      · simp
      · exact ⟨(ih h).1, fun c hc => List.mem_cons_of_mem _ ((ih h).2 c hc)⟩
    · rw [splitAt, if_neg hd] at h
      cases hpieces : splitAt separator t with
      | nil => exact absurd hpieces (splitAt_ne_nil separator t)
      | cons first more =>
        rw [hpieces, consPiece, List.mem_cons] at h
        rcases h with rfl | h
        · obtain ⟨hsep, hmem⟩ := ih (show first ∈ splitAt separator t by simp [hpieces])
          refine ⟨by simp [hsep, Ne.symm hd], fun c hc => ?_⟩
          rcases List.mem_cons.mp hc with rfl | hc
          · exact List.mem_cons_self
          · exact List.mem_cons_of_mem _ (hmem c hc)
        · obtain ⟨hsep, hmem⟩ := ih (show piece ∈ splitAt separator t by simp [hpieces, h])
          exact ⟨hsep, fun c hc => List.mem_cons_of_mem _ (hmem c hc)⟩

/-- What does not start with a separator has a piece that is not empty in front. -/
theorem exists_splitAt_cons (hc : c ≠ separator) (t : Text) :
    ∃ piece more, splitAt separator (c :: t) = (c :: piece) :: more := by
  rw [splitAt, if_neg hc]
  cases hpieces : splitAt separator t with
  | nil => exact absurd hpieces (splitAt_ne_nil separator t)
  | cons piece more => exact ⟨piece, more, rfl⟩

/-- A text is read piece by piece. -/
@[elab_as_elim]
theorem splitAt_induction {motive : Text → Prop} (separator : Char)
    (last : ∀ piece, separator ∉ piece → motive piece)
    (cons : ∀ piece t, separator ∉ piece → motive t → motive (piece ++ separator :: t))
    (t : Text) : motive t := by
  by_cases h : separator ∈ t
  · obtain ⟨piece, rest, heq, hpiece⟩ := List.eq_append_cons_of_mem h
    have hshorter : rest.length < t.length := by
      rw [heq, List.length_append, List.length_cons]
      omega
    rw [heq]
    exact cons piece rest hpiece (splitAt_induction separator last cons rest)
  · exact last t h
termination_by t.length

/-- Pieces that are joined are read back. -/
theorem splitAt_intercalate {pieces : List Text} (hne : pieces ≠ [])
    (h : ∀ piece ∈ pieces, separator ∉ piece) :
    splitAt separator (List.intercalate [separator] pieces) = pieces := by
  induction pieces with
  | nil => exact absurd rfl hne
  | cons first more ih =>
    obtain ⟨hfirst, hmore⟩ := List.forall_mem_cons.mp h
    cases more with
    | nil => rw [List.intercalate_singleton, splitAt_of_not_mem hfirst]
    | cons second more =>
      rw [List.intercalate_cons_cons, List.append_assoc, List.singleton_append,
        splitAt_append_cons, splitAt_of_not_mem hfirst, ih (List.cons_ne_nil _ _) hmore]
      rfl

theorem not_mem_intercalate {pieces : List Text} (hc : c ≠ separator)
    (h : ∀ piece ∈ pieces, c ∉ piece) : c ∉ List.intercalate [separator] pieces := by
  induction pieces with
  | nil => exact List.not_mem_nil
  | cons first more ih =>
    obtain ⟨hfirst, hmore⟩ := List.forall_mem_cons.mp h
    cases more with
    | nil => rwa [List.intercalate_singleton]
    | cons second more =>
      rw [List.intercalate_cons_cons]
      simp [hfirst, hc, ih hmore]

end Registrar.Text
