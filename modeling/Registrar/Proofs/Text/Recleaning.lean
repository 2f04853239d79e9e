import Mathlib.Data.List.DropRight
import Registrar.Proofs.Text.Comments

/-! Cleaning twice. Comments are removed without a trace, so the characters around them come to
stand side by side; still no two of them ever make a new comment, and whatever is kept stands in a
string afterwards exactly if it did before. -/

namespace Registrar

namespace Mode

def outside : Mode → Mode
  | .block => .code
  | mode => mode

private theorem outside_of_ne_block {mode : Mode} (h : mode ≠ .block) : mode.outside = mode := by
  cases mode with
  | block => exact absurd rfl h
  | code => rfl
  | string => rfl

end Mode

namespace Text

variable {mode : Mode} {c : Char} {s t gap : Text}

def modeBehind (mode : Mode) (t : Text) : Mode := t.foldl (fun mode c => mode.afterKept c) mode

/-- Wherever the text stands in code, no comment starts. -/
def IsCommentless (mode : Mode) (t : Text) : Prop :=
  ∀ before after, t = before ++ after → modeBehind mode before = .code →
    ¬ ['/', '/'] <+: after ∧ ¬ ['/', '*'] <+: after

private theorem modeBehind_ne_block (h : mode ≠ .block) (t : Text) :
    modeBehind mode t ≠ .block := by
  induction t generalizing mode with
  | nil => exact h
  | cons c t ih => exact ih (Mode.afterKept_ne_block h c)

private theorem modeBehind_append (mode : Mode) (s t : Text) :
    modeBehind mode (s ++ t) = modeBehind (modeBehind mode s) t := List.foldl_append

private theorem isCommentless_nil (mode : Mode) : IsCommentless mode [] := by
  intro before after h _
  obtain ⟨rfl, rfl⟩ := List.append_eq_nil_iff.mp h.symm
  simp

private theorem isCommentless_cons : IsCommentless mode (c :: t) ↔
    (mode = .code → ¬ ['/', '/'] <+: c :: t ∧ ¬ ['/', '*'] <+: c :: t) ∧
      IsCommentless (mode.afterKept c) t := by
  constructor
  · intro h
    exact ⟨fun hcode => h [] (c :: t) rfl hcode,
      fun before after heq hcode => h (c :: before) after (by rw [heq]; rfl) hcode⟩
  · rintro ⟨hfront, hmore⟩ before after heq hcode
    cases before with
    | nil =>
      obtain rfl : c :: t = after := heq
      exact hfront hcode
    | cons d before =>
      obtain ⟨rfl, rfl⟩ := List.cons.inj heq
      exact hmore before after rfl hcode

private theorem IsCommentless.of_append (h : IsCommentless mode (s ++ t)) :
    IsCommentless mode s := by
  rintro before after rfl hcode
  obtain ⟨hline, hblock⟩ := h before (after ++ t) (List.append_assoc ..) hcode
  exact ⟨fun hstart => hline (hstart.trans (List.prefix_append ..)),
    fun hstart => hblock (hstart.trans (List.prefix_append ..))⟩

/-- A newline between two texts keeps them apart. -/
theorem IsCommentless.append_newline (hs : IsCommentless mode s)
    (ht : IsCommentless (modeBehind mode s) t) : IsCommentless mode (s ++ '\n' :: t) := by
  induction s generalizing mode with
  | nil =>
    have hmode : mode.afterKept '\n' = mode := by cases mode <;> rfl
    refine isCommentless_cons.mpr ⟨fun _ => ?_, hmode.symm ▸ ht⟩
    simp [List.cons_prefix_cons]
  | cons c s ih =>
    obtain ⟨hfront, hmore⟩ := isCommentless_cons.mp hs
    refine isCommentless_cons.mpr ⟨fun hcode => ?_, ih hmore ht⟩
    cases s with
    | nil => simp [List.cons_prefix_cons]
    | cons d s => simpa [List.cons_prefix_cons] using hfront hcode

/-- A text without comments is kept as it is. -/
theorem stripLine_of_isCommentless (hmode : mode ≠ .block) (h : IsCommentless mode t) :
    stripLine mode t = (t, modeBehind mode t) := by
  induction t generalizing mode with
  | nil => cases mode <;> rfl
  | cons c t ih =>
    obtain ⟨hfront, hmore⟩ := isCommentless_cons.mp h
    have hrest := ih (Mode.afterKept_ne_block hmode c) hmore
    cases mode with
    | block => exact absurd rfl hmode
    | string =>
      rw [stripLine, hrest]
      rfl
    | code =>
      obtain ⟨hline, hblock⟩ := hfront rfl
      rw [stripLine, hrest]
      · rfl
      · rintro u rfl rfl
        exact hline (by simp)
      · rintro u rfl rfl
        exact hblock (by simp)

/-- What follows a kept slash in the line is kept too, unless it starts a comment together with the
slash. -/
theorem not_isPrefix_of_kept (hline : ∀ u, c = '/' → t = '/' :: u → False)
    (hblock : ∀ u, c = '/' → t = '*' :: u → False) (hmode : mode ≠ .block) :
    ¬ ['/', '/'] <+: c :: (stripLine mode t).1 ∧ ¬ ['/', '*'] <+: c :: (stripLine mode t).1 := by
  have hfirst : ∀ d, c = '/' → (∀ u, c = '/' → t = d :: u → False) →
      ¬ [d] <+: (stripLine mode t).1 := by
    intro d hc hd hstart
    rcases keptFront_of_stripLine hmode [d] hstart with ⟨u, hu⟩ | ⟨front, back, heq, hback, u, hu⟩
    · exact hd u hc hu.symm
    · obtain rfl : front = [] := by
        cases front with
        | nil => rfl
        | cons e front => simp_all
      exact hline ('*' :: u) hc hu.symm
  constructor
  · intro h
    obtain ⟨hc, hstart⟩ := List.cons_prefix_cons.mp h
    exact hfirst '/' hc.symm hline hstart
  · intro h
    obtain ⟨hc, hstart⟩ := List.cons_prefix_cons.mp h
    exact hfirst '*' hc.symm hblock hstart

/-- No comment is left, nor does a new one arise where one was removed. -/
theorem isCommentless_stripLine (mode : Mode) (t : Text) :
    IsCommentless mode.outside (stripLine mode t).1 := by
  fun_induction stripLine mode t with
  | case1 mode => exact isCommentless_nil _
  | case2 t ih => exact ih
  | case3 c t _ ih => exact ih
  | case4 c t kept mode heq ih =>
    rw [heq, Mode.outside_of_ne_block (Mode.afterKept_ne_block (by decide) c)] at ih
    exact isCommentless_cons.mpr ⟨fun hcode => absurd hcode (by decide), ih⟩
  | case5 t => exact isCommentless_nil _
  | case6 t ih => exact ih
  | case7 c t hline hblock kept mode heq ih =>
    have hmode : Mode.code.afterKept c ≠ .block := Mode.afterKept_ne_block (by decide) c
    have hfront := not_isPrefix_of_kept hline hblock hmode
    rw [heq, Mode.outside_of_ne_block hmode] at ih
    rw [heq] at hfront
    exact isCommentless_cons.mpr ⟨fun _ => hfront, ih⟩

private theorem modeBehind_stripLine (mode : Mode) (t : Text) :
    modeBehind mode.outside (stripLine mode t).1 = (stripLine mode t).2.outside := by
  fun_induction stripLine mode t with
  | case1 mode => rfl
  | case2 t ih => exact ih
  | case3 c t _ ih => exact ih
  | case4 c t kept mode heq ih =>
    rw [heq, Mode.outside_of_ne_block (Mode.afterKept_ne_block (by decide) c)] at ih
    exact ih
  | case5 t => rfl
  | case6 t ih => exact ih
  | case7 c t hline hblock kept mode heq ih =>
    rw [heq, Mode.outside_of_ne_block (Mode.afterKept_ne_block (by decide) c)] at ih
    exact ih

private theorem exists_trimEnd_append (t : Text) :
    ∃ gap, (∀ c ∈ gap, isBlank c = true) ∧ t = t.trimEnd ++ gap := by
  refine ⟨(t.reverse.takeWhile isBlank).reverse, fun c hc => ?_, ?_⟩
  · exact List.all_eq_true.mp List.all_takeWhile c (List.mem_reverse.mp hc)
  · rw [trimEnd, ← List.reverse_append, List.takeWhile_append_dropWhile, List.reverse_reverse]

/-- Blanks neither open nor close a string. -/
theorem modeBehind_blanks (mode : Mode) (h : ∀ c ∈ gap, isBlank c = true) :
    modeBehind mode gap = mode := by
  induction gap with
  | nil => rfl
  | cons c gap ih =>
    obtain ⟨hc, hgap⟩ := List.forall_mem_cons.mp h
    have hquote : c ≠ '"' := ne_of_isBlank hc (by decide)
    have hmode : mode.afterKept c = mode := by
      cases mode <;> simp [Mode.afterKept, hquote]
    exact (congrArg (modeBehind · gap) hmode).trans (ih hgap)

private theorem modeBehind_trimEnd (mode : Mode) (t : Text) :
    modeBehind mode t.trimEnd = modeBehind mode t := by
  obtain ⟨gap, hgap, heq⟩ := exists_trimEnd_append t
  calc
    modeBehind mode t.trimEnd = modeBehind mode (t.trimEnd ++ gap) := by
      rw [modeBehind_append, modeBehind_blanks _ hgap]
    _ = modeBehind mode t := by rw [← heq]

def AreCommentless : Mode → List Text → Prop
  | _, [] => True
  | mode, line :: lines => IsCommentless mode line ∧ AreCommentless (modeBehind mode line) lines

private theorem cleanRows_cons (mode : Mode) (row : Text) (rows : List Text) :
    cleanRows mode (row :: rows) =
      if (stripLine mode row).1.trimEnd = [] then cleanRows (stripLine mode row).2 rows
      else (stripLine mode row).1.trimEnd :: cleanRows (stripLine mode row).2 rows := by
  rw [cleanRows, stripLines, List.map_cons]
  split
  · rename_i hempty
    exact List.filter_cons_of_neg (by simp [hempty])
  · rename_i hne
    exact List.filter_cons_of_pos (by simpa using hne)

/-- The mode behind a row, told from what is left of it. -/
theorem modeBehind_trimEnd_stripLine (mode : Mode) (row : Text) :
    modeBehind mode.outside (stripLine mode row).1.trimEnd = (stripLine mode row).2.outside := by
  rw [modeBehind_trimEnd, modeBehind_stripLine]

private theorem areCommentless_cleanRows (mode : Mode) (rows : List Text) :
    AreCommentless mode.outside (cleanRows mode rows) := by
  induction rows generalizing mode with
  | nil => exact trivial
  | cons row rows ih =>
    have hmode := modeBehind_trimEnd_stripLine mode row
    have hmore := ih (stripLine mode row).2
    rw [cleanRows_cons]
    split
    · rename_i hempty
      rw [hempty] at hmode
      rwa [← hmode] at hmore
    · obtain ⟨gap, _, heq⟩ := exists_trimEnd_append (stripLine mode row).1
      have hrow := isCommentless_stripLine mode row
      rw [heq] at hrow
      exact ⟨hrow.of_append, hmode ▸ hmore⟩

/-- A cleaned line is not empty, does not end in a blank and is part of one row. -/
theorem of_mem_cleanRows {rows : List Text} {line : Text} (h : line ∈ cleanRows mode rows) :
    line ≠ [] ∧ line.trimEnd = line ∧ ∃ row ∈ rows, line.Sublist row := by
  obtain ⟨hmap, hne⟩ := List.mem_filter.mp h
  obtain ⟨kept, hkept, rfl⟩ := List.mem_map.mp hmap
  obtain ⟨row, hrow, mode, rfl⟩ := exists_of_mem_stripLines hkept
  refine ⟨by simpa using hne, List.rdropWhile_idempotent isBlank _, row, hrow, ?_⟩
  exact (trimEnd_isPrefix _).sublist.trans (stripLine_sublist mode row)

/-- Lines without comments, none of them empty or with a blank at its end, stay as they are. -/
theorem cleanRows_of_areCommentless {lines : List Text} (hmode : mode ≠ .block)
    (h : AreCommentless mode lines) (hclean : ∀ line ∈ lines, line ≠ [] ∧ line.trimEnd = line) :
    cleanRows mode lines = lines := by
  induction lines generalizing mode with
  | nil => rfl
  | cons line lines ih =>
    obtain ⟨hline, hlines⟩ := h
    obtain ⟨⟨hne, htrim⟩, hclean⟩ := List.forall_mem_cons.mp hclean
    have hstrip := stripLine_of_isCommentless hmode hline
    rw [cleanRows_cons, hstrip, htrim, if_neg hne,
      ih (modeBehind_ne_block hmode line) hlines hclean]

private theorem isCommentless_intercalate {lines : List Text} (h : AreCommentless mode lines) :
    IsCommentless mode (List.intercalate ['\n'] lines) := by
  induction lines generalizing mode with
  | nil => exact isCommentless_nil mode
  | cons line lines ih =>
    obtain ⟨hline, hlines⟩ := h
    cases lines with
    | nil => rwa [List.intercalate_singleton]
    | cons next lines =>
      rw [List.intercalate_cons_cons, List.append_assoc]
      exact hline.append_newline (ih hlines)

private theorem cleanLines_intercalate (source : Text) :
    cleanLines (List.intercalate ['\n'] source.cleanLines) = source.cleanLines := by
  have hclean : ∀ line ∈ source.cleanLines, line ≠ [] ∧ line.trimEnd = line := fun line hline =>
    ⟨(of_mem_cleanRows hline).1, (of_mem_cleanRows hline).2.1⟩
  have hnewline : ∀ line ∈ source.cleanLines, '\n' ∉ line := by
    intro line hline hmem
    rw [cleanLines_eq_cleanRows, cleanRows_lines] at hline
    obtain ⟨_, _, row, hrow, hpart⟩ := of_mem_cleanRows hline
    exact (of_mem_splitAt hrow).1 (hpart.mem hmem)
  rw [cleanLines_eq_cleanRows (List.intercalate _ _), cleanRows_lines]
  by_cases hne : source.cleanLines = []
  · rw [hne]
    rfl
  · rw [splitAt_intercalate hne hnewline]
    exact cleanRows_of_areCommentless nofun (areCommentless_cleanRows .code _) hclean

/-- What is left of one line, each character with the mode it stands in, and the mode after the
line. -/
def stripMarked : Mode → Text → List (Char × Mode) × Mode
  | mode, [] => ([], mode)
  | .block, '*' :: '/' :: t => stripMarked .code t
  | .block, _ :: t => stripMarked .block t
  | .string, c :: t =>
    let (kept, mode) := stripMarked (Mode.string.afterKept c) t
    ((c, .string) :: kept, mode)
  | .code, '/' :: '/' :: _ => ([], .code)
  | .code, '/' :: '*' :: t => stripMarked .block t
  | .code, c :: t =>
    let (kept, mode) := stripMarked (Mode.code.afterKept c) t
    ((c, .code) :: kept, mode)

def stripMarkedRows : Mode → List Text → List (List (Char × Mode))
  | _, [] => []
  | mode, row :: rows =>
    let (kept, mode) := stripMarked mode row
    kept :: stripMarkedRows mode rows

def markedLines (source : Text) : List (List (Char × Mode)) :=
  ((stripMarkedRows .code source.lines).map (List.rdropWhile fun mark => isBlank mark.1)).filter
    fun line => !line.isEmpty

def marked : Mode → Text → List (Char × Mode)
  | _, [] => []
  | mode, c :: t => (c, mode) :: marked (mode.afterKept c) t

def markedRows : Mode → List Text → List (List (Char × Mode))
  | _, [] => []
  | mode, line :: lines => marked mode line :: markedRows (modeBehind mode line) lines

private theorem marked_append (mode : Mode) (s t : Text) :
    marked mode (s ++ t) = marked mode s ++ marked (modeBehind mode s) t := by
  induction s generalizing mode with
  | nil => rfl
  | cons c s ih => exact congrArg ((c, mode) :: ·) (ih (mode.afterKept c))

private theorem map_fst_marked (mode : Mode) (t : Text) : (marked mode t).map Prod.fst = t := by
  induction t generalizing mode with
  | nil => rfl
  | cons c t ih => exact congrArg (c :: ·) (ih (mode.afterKept c))

/-- A kept character stands in the mode in which it stands in the kept text. -/
theorem stripMarked_eq (mode : Mode) (t : Text) :
    stripMarked mode t = (marked mode.outside (stripLine mode t).1, (stripLine mode t).2) := by
  fun_induction stripLine mode t with
  | case1 mode => cases mode <;> rfl
  | case2 t ih => exact ih
  | case3 c t hstar ih =>
    rw [stripMarked]
    · exact ih
    · exact hstar
  | case4 c t kept mode heq ih =>
    rw [heq, Mode.outside_of_ne_block (Mode.afterKept_ne_block (by decide) c)] at ih
    rw [stripMarked, ih]
    rfl
  | case5 t => rfl
  | case6 t ih => exact ih
  | case7 c t hline hblock kept mode heq ih =>
    rw [heq, Mode.outside_of_ne_block (Mode.afterKept_ne_block (by decide) c)] at ih
    rw [stripMarked, ih]
    · rfl
    · exact hline
    · exact hblock

private theorem rdropWhile_marked (mode : Mode) (t : Text) :
    (marked mode t).rdropWhile (fun mark => isBlank mark.1) = marked mode t.trimEnd := by
  induction t using List.reverseRecOn with
  | nil => rfl
  | append_singleton s c ih =>
    rw [marked_append, marked, marked, List.rdropWhile_concat, ih]
    cases hc : isBlank c with
    | true => rw [if_pos rfl, trimEnd_append_blank s hc]
    | false =>
      rw [if_neg Bool.false_ne_true, trimEnd_append_singleton s hc, marked_append]
      rfl

private theorem markedLines_eq_of_rows (mode : Mode) (rows : List Text) :
    ((stripMarkedRows mode rows).map (List.rdropWhile fun mark => isBlank mark.1)).filter
      (fun line => !line.isEmpty) = markedRows mode.outside (cleanRows mode rows) := by
  induction rows generalizing mode with
  | nil => rfl
  | cons row rows ih =>
    have hmode := modeBehind_trimEnd_stripLine mode row
    rw [stripMarkedRows, stripMarked_eq, List.map_cons, rdropWhile_marked, cleanRows_cons]
    split
    · rename_i hempty
      rw [hempty] at hmode
      rw [hempty, List.filter_cons_of_neg (by simp [marked]), ih, ← hmode]
      rfl
    · rename_i hne
      have hmarked : marked mode.outside (stripLine mode row).1.trimEnd ≠ [] := by
        intro hnil
        rw [← map_fst_marked mode.outside (stripLine mode row).1.trimEnd, hnil] at hne
        exact hne rfl
      rw [List.filter_cons_of_pos (by simpa using hmarked), ih, markedRows, hmode]

private theorem markedLines_eq (source : Text) :
    source.markedLines = markedRows .code source.cleanLines :=
  markedLines_eq_of_rows .code source.lines

private theorem map_fst_markedRows (mode : Mode) (lines : List Text) :
    (markedRows mode lines).map (List.map Prod.fst) = lines := by
  induction lines generalizing mode with
  | nil => rfl
  | cons line lines ih => rw [markedRows, List.map_cons, map_fst_marked, ih]

/-- Cleaning the cleaned lines again changes nothing: no comment starts in them, and every
character stands in the mode in which it was kept the first time. -/
theorem cleanLines_idempotent (source : Text) :
    let cleaned : Text := List.intercalate ['\n'] source.cleanLines
    cleaned.cleanLines = source.cleanLines ∧ IsCommentless .code cleaned ∧
      cleaned.markedLines = source.markedLines ∧
      source.markedLines.map (List.map Prod.fst) = source.cleanLines := by
  intro cleaned
  refine ⟨cleanLines_intercalate source, ?_, ?_, ?_⟩
  · exact isCommentless_intercalate (areCommentless_cleanRows .code source.lines)
  · rw [markedLines_eq, markedLines_eq, cleanLines_intercalate]
  · rw [markedLines_eq, map_fst_markedRows]

end Text

end Registrar
