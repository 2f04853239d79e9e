import Mathlib.Data.List.Forall2
import Mathlib.Data.List.TakeWhile
import Registrar.Proofs.Text.Lines
import Registrar.Proofs.Text.Occurrence

/-! Lines behind blanks. Cleaning a text whose lines are indented in another way gives the same
lines, indented in another way: blanks neither start nor end a comment or a string, and they are no
part of a word that is searched for. -/

namespace Registrar.Text

variable {gap s t : Text} {c : Char}

def indent (gaps : Nat → Text) (t : Text) : Text :=
  List.intercalate ['\n'] ((t.splitAt '\n').mapIdx fun row line => gaps row ++ line)

def Indented (line indented : Text) : Prop :=
  ∃ gap, (∀ c ∈ gap, isBlank c = true) ∧ indented = gap ++ line

private theorem stripLine_blank_cons (hc : isBlank c = true) (mode : Mode) (t : Text) :
    stripLine mode (c :: t) =
      ((if mode = .block then [] else [c]) ++ (stripLine mode t).1, (stripLine mode t).2) := by
  have hquote : c ≠ '"' := ne_of_isBlank hc (by decide)
  cases mode with
  | code =>
    rw [stripLine, Mode.afterKept, if_neg hquote]
    · rfl
    · exact fun _ hslash => absurd hslash (ne_of_isBlank hc (by decide))
    · exact fun _ hslash => absurd hslash (ne_of_isBlank hc (by decide))
  | string =>
    rw [stripLine, Mode.afterKept, if_neg hquote]
    rfl
  | block =>
    rw [stripLine]
    · rfl
    · exact fun _ hstar => absurd hstar (ne_of_isBlank hc (by decide))

/-- Blanks in front of a line are kept, or dropped inside a block comment, and do not change the
mode. -/
theorem Indented.stripLine (h : Indented s t) (mode : Mode) :
    Indented (stripLine mode s).1 (stripLine mode t).1 ∧
      (Text.stripLine mode t).2 = (Text.stripLine mode s).2 := by
  obtain ⟨gap, hgap, rfl⟩ := h
  induction gap with
  | nil => exact ⟨⟨[], nofun, rfl⟩, rfl⟩
  | cons c gap ih =>
    obtain ⟨hc, hgap⟩ := List.forall_mem_cons.mp hgap
    obtain ⟨⟨front, hfront, heq⟩, hmode⟩ := ih hgap
    rw [List.cons_append, stripLine_blank_cons hc]
    refine ⟨⟨(if mode = .block then [] else [c]) ++ front, ?_, ?_⟩, hmode⟩
    · refine List.forall_mem_append.mpr ⟨?_, hfront⟩
      split
      · exact nofun
      · exact List.forall_mem_singleton.mpr hc
    · rw [heq, List.append_assoc]

private theorem trimEnd_blank_append (h : ∀ c ∈ gap, isBlank c = true) (t : Text) :
    trimEnd (gap ++ t) = if t.trimEnd = [] then [] else gap ++ t.trimEnd := by
  have hgap : gap.reverse.dropWhile isBlank = [] :=
    List.dropWhile_eq_nil_iff.mpr fun c hc => h c (List.mem_reverse.mp hc)
  simp only [trimEnd, List.reverse_append, List.dropWhile_append, hgap, List.reverse_eq_nil_iff,
    List.isEmpty_iff]
  split
  · rfl
  · rw [List.reverse_append, List.reverse_reverse]

/-- Lines that are indented in another way are cleaned alike: the same ones are left, and these are
indented in another way. -/
theorem forall₂_cleanRows {rows moved : List Text} (h : List.Forall₂ Indented rows moved)
    (mode : Mode) : List.Forall₂ Indented (cleanRows mode rows) (cleanRows mode moved) := by
  induction h generalizing mode with
  | nil => exact .nil
  | @cons row moved rows more hrow _ ih =>
    obtain ⟨⟨gap, hgap, heq⟩, hmode⟩ := hrow.stripLine mode
    have hrest := ih (stripLine mode row).2
    simp only [cleanRows, stripLines, List.map_cons, heq, hmode, trimEnd_blank_append hgap]
    split
    · rename_i hempty
      rw [hempty]
      exact hrest
    · rename_i hne
      have hmoved : gap ++ (stripLine mode row).1.trimEnd ≠ [] :=
        List.append_ne_nil_of_right_ne_nil gap hne
      rw [List.filter_cons_of_pos (by simpa using hne),
        List.filter_cons_of_pos (by simpa using hmoved)]
      exact .cons ⟨gap, hgap, rfl⟩ hrest

private theorem forall₂_mapIdx_append {gaps : Nat → Text}
    (h : ∀ row, ∀ c ∈ gaps row, isBlank c = true) (rows : List Text) :
    List.Forall₂ Indented rows (rows.mapIdx fun row line => gaps row ++ line) := by
  induction rows generalizing gaps with
  | nil => exact .nil
  | cons row rows ih =>
    rw [List.mapIdx_cons]
    exact .cons ⟨gaps 0, h 0, rfl⟩ (ih fun row => h (row + 1))

/-- The lines of the indented text are the lines that were indented. -/
theorem forall₂_splitAt_indent {gaps : Nat → Text}
    (hblank : ∀ row, ∀ c ∈ gaps row, isBlank c = true) (hnewline : ∀ row, '\n' ∉ gaps row)
    (t : Text) :
    List.Forall₂ Indented (t.splitAt '\n') ((t.indent gaps).splitAt '\n') := by
  rw [indent, splitAt_intercalate]
  · exact forall₂_mapIdx_append hblank _
  · simpa using splitAt_ne_nil '\n' t
  · intro piece hpiece
    obtain ⟨row, hrow, rfl⟩ := List.mem_mapIdx.mp hpiece
    rw [List.mem_append, not_or]
    exact ⟨hnewline row, (of_mem_splitAt (List.getElem_mem hrow)).1⟩

theorem forall₂_cleanLines (h : List.Forall₂ Indented (s.splitAt '\n') (t.splitAt '\n')) :
    List.Forall₂ Indented s.cleanLines t.cleanLines := by
  rw [cleanLines_eq_cleanRows, cleanLines_eq_cleanRows, cleanRows_lines, cleanRows_lines]
  exact forall₂_cleanRows h .code

variable {word : Text}

theorem occursIn_blank_append (hword : word ≠ []) (hblank : ∀ c ∈ word, isBlank c = false)
    (hgap : ∀ c ∈ gap, isBlank c = true) (t : Text) :
    occursIn word (gap ++ t) = occursIn word t := by
  refine blank_append_eq ?_ hgap t
  intro c t hc
  exact occursIn_cons hword fun hmem => ne_of_isBlank hc (hblank c hmem) rfl

private theorem any_occursIn_splitAt {separator : Char} (hword : word ≠ [])
    (hmem : separator ∉ word)
    (t : Text) : (t.splitAt separator).any (occursIn word) = occursIn word t := by
  induction t using splitAt_induction separator with
  | last piece hpiece => simp [splitAt_of_not_mem hpiece]
  | cons piece t hpiece ih =>
    rw [splitAt_append_cons, splitAt_of_not_mem hpiece, occursIn_append_cons hword hmem, ← ih]
    rfl

/-- A word that no blank stands in is found in a text however its lines are indented. -/
theorem occursIn_eq_of_indented (hword : word ≠ []) (hblank : ∀ c ∈ word, isBlank c = false)
    (h : List.Forall₂ Indented (s.splitAt '\n') (t.splitAt '\n')) :
    occursIn word t = occursIn word s := by
  have hmem : '\n' ∉ word := fun hmem => absurd (hblank _ hmem) (by decide)
  rw [← any_occursIn_splitAt hword hmem s, ← any_occursIn_splitAt hword hmem t]
  generalize s.splitAt '\n' = rows, t.splitAt '\n' = moved at h
  induction h with
  | nil => rfl
  | cons hrow _ ih =>
    obtain ⟨gap, hgap, rfl⟩ := hrow
    rw [List.any_cons, List.any_cons, occursIn_blank_append hword hblank hgap, ih]

end Registrar.Text
