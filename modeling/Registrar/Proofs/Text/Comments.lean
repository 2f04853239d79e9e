import Registrar.Proofs.Text.Occurrence
import Registrar.Proofs.Text.Lines

/-! Which words a text gets when its comments are removed: those it had, and those that a block
comment had cut in two. -/

namespace Registrar

theorem Mode.afterKept_ne_block {mode : Mode} (h : mode ≠ .block) (c : Char) :
    mode.afterKept c ≠ .block := by
  unfold afterKept
  split
  · split <;> exact nofun
  · split <;> exact nofun
  · exact absurd rfl h

namespace Text

variable {word s t : Text}

theorem occursIn_iff_isInfix : occursIn word t = true ↔ word <:+: t := by
  rw [occursIn_iff]
  constructor
  · rintro ⟨before, after, rfl⟩
    exact List.infix_append before word after
  · rintro ⟨before, after, rfl⟩
    exact ⟨before, after, rfl⟩

/-- The text starts with the word, unless a block comment cuts it or stands in front of it. -/
def KeptFront (word t : Text) : Prop :=
  word <+: t ∨ ∃ front back, word = front ++ back ∧ back ≠ [] ∧ front ++ ['/', '*'] <+: t

/-- Somewhere in the text a block comment starts inside the word. -/
def CutIn (word t : Text) : Prop :=
  ∃ front back, word = front ++ back ∧ front ≠ [] ∧ back ≠ [] ∧ front ++ ['/', '*'] <:+: t

private theorem CutIn.mono (h : CutIn word s) (hs : s <:+: t) : CutIn word t := by
  obtain ⟨front, back, heq, hfront, hback, hcut⟩ := h
  exact ⟨front, back, heq, hfront, hback, hcut.trans hs⟩

/-- The text holds the word, unless a block comment cuts it. -/
def KeptIn (word t : Text) : Prop := word <:+: t ∨ CutIn word t

private theorem KeptIn.mono (h : KeptIn word s) (hs : s <:+: t) : KeptIn word t :=
  h.imp (·.trans hs) (·.mono hs)

private theorem KeptFront.cons {a : Char} (h : KeptFront word t) :
    KeptFront (a :: word) (a :: t) := by
  rcases h with h | ⟨front, back, rfl, hback, hcut⟩
  · exact .inl (List.cons_prefix_cons.mpr ⟨rfl, h⟩)
  · exact .inr ⟨a :: front, back, rfl, hback, List.cons_prefix_cons.mpr ⟨rfl, hcut⟩⟩

/-- With a character kept in front of it, a comment stands inside the word and no longer before
it. -/
theorem KeptFront.keptIn {a : Char} (h : KeptFront word t) : KeptIn (a :: word) (a :: t) := by
  rcases h with h | ⟨front, back, rfl, hback, hcut⟩
  · exact .inl (List.cons_prefix_cons.mpr ⟨rfl, h⟩).isInfix
  · refine .inr ⟨a :: front, back, rfl, List.cons_ne_nil _ _, hback, ?_⟩
    exact (List.cons_prefix_cons.mpr ⟨rfl, hcut⟩).isInfix

private theorem keptFront_of_kept {kept : Text} (ih : ∀ word, word <+: kept → KeptFront word t)
    {c : Char} (h : word <+: c :: kept) : KeptFront word (c :: t) := by
  cases word with
  | nil => exact .inl List.nil_prefix
  | cons a word =>
    obtain ⟨rfl, hword⟩ := List.cons_prefix_cons.mp h
    exact (ih word hword).cons

private theorem keptIn_of_kept {kept : Text} (hfront : ∀ word, word <+: kept → KeptFront word t)
    (hmore : word <:+: kept → KeptIn word t) {c : Char} (h : word <:+: c :: kept) :
    KeptIn word (c :: t) := by
  rcases List.infix_cons_iff.mp h with hstart | hlater
  · cases word with
    | nil => exact .inl List.nil_infix
    | cons a word =>
      obtain ⟨rfl, hword⟩ := List.cons_prefix_cons.mp hstart
      exact (hfront word hword).keptIn
  · exact (hmore hlater).mono (List.suffix_cons c t).isInfix

theorem keptFront_of_stripLine {mode : Mode} (hmode : mode ≠ .block) (word : Text)
    (h : word <+: (stripLine mode t).1) : KeptFront word t := by
  -- The cases are those of a block comment, of a string and of code, in this order; only code can
  -- start a comment.
  fun_induction stripLine mode t generalizing word with
  | case1 => exact .inl h
  | case2 => exact absurd rfl hmode
  | case3 => exact absurd rfl hmode
  | case4 c t kept mode heq ih =>
    rw [heq] at ih
    exact keptFront_of_kept (ih (Mode.afterKept_ne_block hmode c)) h
  | case5 t =>
    obtain rfl := List.prefix_nil.mp h
    exact .inl List.nil_prefix
  | case6 t =>
    cases word with
    | nil => exact .inl List.nil_prefix
    | cons a word =>
      exact .inr ⟨[], a :: word, rfl, List.cons_ne_nil _ _, List.prefix_append ['/', '*'] t⟩
  | case7 c t _ _ kept mode heq ih =>
    rw [heq] at ih
    exact keptFront_of_kept (ih (Mode.afterKept_ne_block hmode c)) h

/-- A word of what is left of a line is a word of the line, or a block comment cut it. -/
theorem keptIn_of_stripLine {mode : Mode} (h : word <:+: (stripLine mode t).1) :
    KeptIn word t := by
  fun_induction stripLine mode t with
  | case1 => exact .inl h
  | case2 t ih => exact (ih h).mono (List.suffix_append ['*', '/'] t).isInfix
  | case3 c t _ ih => exact (ih h).mono (List.suffix_cons c t).isInfix
  -- A character is kept, so a word may start at it: then it is kept in front of what follows.
  | case4 c t kept mode heq ih =>
    have hmode : Mode.string.afterKept c ≠ .block := Mode.afterKept_ne_block (by decide) c
    have hfront := keptFront_of_stripLine (t := t) hmode
    rw [heq] at ih hfront
    exact keptIn_of_kept hfront ih h
  | case5 t =>
    obtain rfl := List.infix_nil.mp h
    exact .inl List.nil_infix
  | case6 t ih => exact (ih h).mono (List.suffix_append ['/', '*'] t).isInfix
  | case7 c t _ _ kept mode heq ih =>
    have hmode : Mode.code.afterKept c ≠ .block := Mode.afterKept_ne_block (by decide) c
    have hfront := keptFront_of_stripLine (t := t) hmode
    rw [heq] at ih hfront
    exact keptIn_of_kept hfront ih h

theorem trimEnd_isPrefix (t : Text) : t.trimEnd <+: t := by
  have hsuffix : t.reverse.dropWhile isBlank <:+ t.reverse := List.dropWhile_suffix _
  have hstart := List.reverse_prefix.mpr hsuffix
  rwa [List.reverse_reverse] at hstart

/-- Pieces of a text, the first one from its front on. -/
structure PiecesOf (t : Text) (pieces : List Text) : Prop where
  first : ∀ piece ∈ pieces.head?, piece <+: t
  all : ∀ piece ∈ pieces, piece <:+: t

private theorem PiecesOf.skip {pieces : List Text} (h : PiecesOf t pieces) (s : Text) :
    PiecesOf (s ++ t) ([] :: pieces) := by
  refine ⟨?_, List.forall_mem_cons.mpr ⟨List.nil_infix, fun piece hpiece => ?_⟩⟩
  · rintro _ ⟨⟩
    exact List.nil_prefix
  · exact (h.all piece hpiece).trans (List.suffix_append s t).isInfix

private theorem PiecesOf.consPiece {pieces : List Text} (h : PiecesOf t pieces) (c : Char) :
    PiecesOf (c :: t) (consPiece c pieces) := by
  obtain ⟨first, more, heq, hfirst, hmore⟩ : ∃ first more,
      Text.consPiece c pieces = (c :: first) :: more ∧ first <+: t ∧
        ∀ piece ∈ more, piece <:+: t := by
    cases pieces with
    | nil => exact ⟨[], [], rfl, List.nil_prefix, nofun⟩
    | cons first more => exact ⟨first, more, rfl, h.first _ rfl, (List.forall_mem_cons.mp h.all).2⟩
  have hstart : c :: first <+: c :: t := List.cons_prefix_cons.mpr ⟨rfl, hfirst⟩
  rw [heq]
  refine ⟨?_, List.forall_mem_cons.mpr ⟨hstart.isInfix, fun piece hpiece => ?_⟩⟩
  · rintro _ ⟨⟩
    exact hstart
  · exact List.infix_cons (hmore piece hpiece)

private theorem piecesOf_lines (t : Text) : PiecesOf t (lines t) := by
  fun_induction lines t with
  | case1 => exact ⟨by simp, by simp⟩
  | case2 t ih => exact ih.skip ['\n']
  | case3 t ih => exact ih.skip ['\r', '\n']
  | case4 c t _ _ ih => exact ih.consPiece c

theorem exists_of_mem_stripLines {mode : Mode} {rows : List Text} {kept : Text}
    (h : kept ∈ stripLines mode rows) : ∃ line ∈ rows, ∃ mode, kept = (stripLine mode line).1 := by
  induction rows generalizing mode with
  | nil => exact absurd h (by simp [stripLines])
  | cons line rows ih =>
    rcases List.mem_cons.mp h with rfl | h
    · exact ⟨line, List.mem_cons_self .., mode, rfl⟩
    · obtain ⟨line', hline', mode', heq⟩ := ih h
      exact ⟨line', List.mem_cons_of_mem _ hline', mode', heq⟩

/-- A word on a cleaned line of a text is a word of the text, or a block comment cut it. -/
theorem keptIn_of_mem_cleanLines {source line : Text} (hline : line ∈ source.cleanLines)
    (h : word <:+: line) : KeptIn word source := by
  obtain ⟨kept, hkept, rfl⟩ := List.mem_map.mp (List.mem_filter.mp hline).1
  obtain ⟨row, hrow, mode, rfl⟩ := exists_of_mem_stripLines hkept
  have hstripped := h.trans (trimEnd_isPrefix (stripLine mode row).1).isInfix
  exact (keptIn_of_stripLine hstripped).mono ((piecesOf_lines source).all row hrow)

end Text

end Registrar
