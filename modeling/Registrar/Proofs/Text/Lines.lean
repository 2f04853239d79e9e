import Registrar.Proofs.Text.Pieces
import Registrar.Proofs.Text.Words
import Registrar.Text.Comment

/-! Lines of concatenated texts. A newline cuts a text in two that can be read apart, and a text of
whole lines is read back line by line. -/

namespace Registrar.Text

private theorem lines_ne_nil {t : Text} (h : t ≠ []) : lines t ≠ [] := by
  unfold lines
  split
  · exact absurd rfl h
  · simp
  · simp
  · exact consPiece_ne_nil _ _

private theorem lines_cons_append_newline {c : Char} {s : Text} (hnewline : c = '\n' → False)
    (hreturn : ∀ t, c = '\r' → s = '\n' :: t → False) (t : Text) :
    lines (c :: (s ++ '\n' :: t)) =
      if c = '\r' ∧ s = [] then [] :: lines t else consPiece c (lines (s ++ '\n' :: t)) := by
  split
  · rename_i h
    rw [h.1, h.2]
    simp [lines]
  · rename_i h
    rw [lines]
    · exact hnewline
    · intro u hc hu
      cases s with
      | nil => exact h ⟨hc, rfl⟩
      | cons d s =>
        obtain ⟨rfl, rfl⟩ := List.cons.inj hu
        exact hreturn s hc rfl

/-- The newline that ends a line belongs to the text in front of it. -/
theorem lines_append_newline (s t : Text) :
    lines (s ++ '\n' :: t) = lines (s ++ ['\n']) ++ lines t := by
  induction s using lines.induct with
  | case1 => simp [lines]
  | case2 s ih => simp [lines, ih]
  | case3 s ih => simp [lines, ih]
  | case4 c s hnewline hreturn ih =>
    rw [List.cons_append, List.cons_append, lines_cons_append_newline hnewline hreturn t,
      lines_cons_append_newline hnewline hreturn []]
    split
    · simp [lines]
    · rw [ih]
      exact consPiece_append c _ (lines_ne_nil (by simp))

/-- A line is read back if a newline follows it, unless it ends in a carriage return, which the
newline would take along. -/
theorem lines_cons {line : Text} (t : Text) (hnewline : '\n' ∉ line)
    (hreturn : line.getLast? ≠ some '\r') : lines (line ++ '\n' :: t) = line :: lines t := by
  induction line with
  | nil => simp [lines]
  | cons c line ih =>
    obtain ⟨hc, hline⟩ := not_or.mp (mt List.mem_cons.mpr hnewline)
    have hstep : lines (c :: (line ++ '\n' :: t)) = consPiece c (lines (line ++ '\n' :: t)) := by
      rw [lines]
      · exact fun h => hc h.symm
      · intro u hcr hu
        cases line with
        | nil => exact hreturn (by rw [hcr]; rfl)
        | cons d line =>
          obtain ⟨rfl, _⟩ := List.cons.inj hu
          exact hline (List.mem_cons_self ..)
    have hlast : line.getLast? ≠ some '\r' := by
      cases line with
      | nil => simp
      | cons d line => simpa using hreturn
    rw [List.cons_append, hstep, ih hline hlast]
    rfl

def cleanRows (mode : Mode) (rows : List Text) : List Text :=
  ((stripLines mode rows).map trimEnd).filter fun line => !line.isEmpty

theorem cleanLines_eq_cleanRows (source : Text) :
    cleanLines source = cleanRows .code source.lines := rfl

theorem cleanRows_append (mode : Mode) (first second : List Text) :
    cleanRows mode (first ++ second) =
      cleanRows mode first ++ cleanRows (modeAfter mode first) second := by
  unfold cleanRows
  rw [stripLines_append, List.map_append, List.filter_append]

/-- Whole lines are cleaned apart, except that what follows starts in the mode they end in. -/
theorem cleanLines_append (s t : Text) (h : modeAfter .code (lines (s ++ ['\n'])) = .code) :
    cleanLines (s ++ '\n' :: t) = cleanLines (s ++ ['\n']) ++ cleanLines t := by
  simp only [cleanLines_eq_cleanRows, lines_append_newline s t, cleanRows_append, h]

/-- The lines of a text before and after a newline is put behind it: an empty line is added, or the
last line ends there and loses its carriage return. -/
inductive EndedLines : List Text → List Text → Prop
  | added (rows : List Text) : EndedLines rows (rows ++ [[]])
  | kept (rows : List Text) : EndedLines rows rows
  | shortened (front : List Text) (last : Text) :
    EndedLines (front ++ [last ++ ['\r']]) (front ++ [last])

namespace EndedLines

variable {rows ended : List Text}

private theorem cons (h : EndedLines rows ended) (line : Text) :
    EndedLines (line :: rows) (line :: ended) := by
  cases h with
  | added => exact .added (line :: rows)
  | kept => exact .kept (line :: rows)
  | shortened front last => exact .shortened (line :: front) last

private theorem consPiece (h : EndedLines rows ended) (c : Char) (hrows : rows ≠ []) :
    EndedLines (consPiece c rows) (consPiece c ended) := by
  cases h with
  | added =>
    rw [consPiece_append c _ hrows]
    exact .added _
  | kept => exact .kept _
  | shortened front last =>
    cases front with
    | nil => exact .shortened [] (c :: last)
    | cons first front => exact .shortened ((c :: first) :: front) last

end EndedLines

private theorem endedLines_lines (s : Text) : EndedLines (lines s) (lines (s ++ ['\n'])) := by
  fun_induction lines s with
  | case1 => exact .added []
  | case2 s ih => exact ih.cons []
  | case3 s ih => exact ih.cons []
  | case4 c s hnewline hreturn ih =>
    rw [List.cons_append, lines_cons_append_newline hnewline hreturn []]
    split
    · rename_i h
      rw [h.1, h.2]
      exact .shortened [] []
    · cases s with
      | nil => exact .kept [[c]]
      | cons d s => exact ih.consPiece c (lines_ne_nil (by simp))

theorem exists_cons_of_append {d : Char} {t rest u : Text} (hrest : ∀ c ∈ rest.head?, c ≠ d)
    (h : t ++ rest = d :: u) : ∃ more, t = d :: more := by
  cases t with
  | nil =>
    obtain rfl : rest = d :: u := h
    exact absurd rfl (hrest d rfl)
  | cons e t => exact ⟨t, congrArg (· :: t) (List.cons.inj h).1⟩

/-- A carriage return at the end of a line is dropped with a comment or kept; it changes nothing
else. -/
theorem stripLine_return (mode : Mode) (t : Text) :
    ∃ tail, (tail = [] ∨ tail = ['\r']) ∧
      stripLine mode (t ++ ['\r']) = ((stripLine mode t).1 ++ tail, (stripLine mode t).2) := by
  -- No mark of a comment holds a carriage return, so the longer line falls under the same cases.
  fun_induction stripLine mode t with
  | case1 mode => cases mode <;> simp [stripLine, Mode.afterKept]
  | case2 t ih => exact ih
  | case3 c t hstar ih =>
    rw [List.cons_append, stripLine]
    · exact ih
    · intro u hc hu
      obtain ⟨rest, rfl⟩ := exists_cons_of_append (by simp) hu
      exact hstar rest hc rfl
  | case4 c t kept mode heq ih =>
    obtain ⟨tail, htail, hstrip⟩ := ih
    refine ⟨tail, htail, ?_⟩
    rw [List.cons_append, stripLine, hstrip, heq]
    rfl
  | case5 t => exact ⟨[], .inl rfl, rfl⟩
  | case6 t ih => exact ih
  | case7 c t hline hblock kept mode heq ih =>
    obtain ⟨tail, htail, hstrip⟩ := ih
    refine ⟨tail, htail, ?_⟩
    rw [List.cons_append, stripLine, hstrip, heq]
    · rfl
    · intro u hc hu
      obtain ⟨rest, rfl⟩ := exists_cons_of_append (by simp) hu
      exact hline rest hc rfl
    · intro u hc hu
      obtain ⟨rest, rfl⟩ := exists_cons_of_append (by simp) hu
      exact hblock rest hc rfl

/-- What is left of a line is part of it, in order. -/
theorem stripLine_sublist (mode : Mode) (t : Text) : (stripLine mode t).1.Sublist t := by
  fun_induction stripLine mode t with
  | case1 => exact .slnil
  | case2 t ih => exact (ih.cons '/').cons '*'
  | case3 c t _ ih => exact ih.cons c
  | case4 c t kept mode heq ih =>
    rw [heq] at ih
    exact ih.cons_cons c
  | case5 t => exact List.nil_sublist _
  | case6 t ih => exact (ih.cons '*').cons '/'
  | case7 c t _ _ kept mode heq ih =>
    rw [heq] at ih
    exact ih.cons_cons c

private theorem trimEnd_stripLine_return (mode : Mode) (t : Text) :
    (stripLine mode (t ++ ['\r'])).1.trimEnd = (stripLine mode t).1.trimEnd := by
  obtain ⟨tail, rfl | rfl, hstrip⟩ := stripLine_return mode t
  · rw [hstrip, List.append_nil]
  · rw [hstrip, trimEnd_append_blank _ (by decide)]

theorem EndedLines.cleanRows_eq {rows ended : List Text} (h : EndedLines rows ended)
    (mode : Mode) : cleanRows mode ended = cleanRows mode rows := by
  cases h with
  | added =>
    have hempty : ∀ mode, cleanRows mode [[]] = [] := fun mode => rfl
    rw [cleanRows_append, hempty, List.append_nil]
  | kept => rfl
  | shortened front last =>
    rw [cleanRows_append, cleanRows_append]
    simp only [cleanRows, stripLines, List.map_cons, List.map_nil, trimEnd_stripLine_return]

theorem EndedLines.modeAfter_eq {rows ended : List Text} (h : EndedLines rows ended)
    (mode : Mode) : modeAfter mode ended = modeAfter mode rows := by
  cases h with
  | added =>
    have hempty : ∀ mode, (stripLine mode []).2 = mode := fun mode => by rw [stripLine]
    rw [modeAfter, List.foldl_append, List.foldl_cons, hempty, List.foldl_nil, modeAfter]
  | kept => rfl
  | shortened front last =>
    obtain ⟨tail, _, hstrip⟩ := stripLine_return (modeAfter mode front) last
    simp only [modeAfter, List.foldl_append, List.foldl_cons, List.foldl_nil] at hstrip ⊢
    rw [hstrip]

private theorem lines_of_not_mem {row : Text} (h : '\n' ∉ row) (hne : row ≠ []) :
    lines row = [row] := by
  induction row with
  | nil => exact absurd rfl hne
  | cons c row ih =>
    obtain ⟨hc, hrow⟩ := not_or.mp (mt List.mem_cons.mpr h)
    rw [lines]
    · cases row with
      | nil => rfl
      | cons d row => rw [ih hrow (List.cons_ne_nil _ _), consPiece]
    · exact fun hnewline => hc hnewline.symm
    · rintro u _ rfl
      exact hrow List.mem_cons_self

/-- What reads lines one after the other and does not mind a newline behind them can read what
stands between the newlines instead. That a carriage return belongs to the newline behind it and
that no line follows the last newline makes no difference. -/
theorem read_lines {σ β : Type} (read : σ → List Text → List β) (after : σ → List Text → σ)
    (happend : ∀ state first second,
      read state (first ++ second) = read state first ++ read (after state first) second)
    (hended : ∀ {rows ended}, EndedLines rows ended → ∀ state,
      read state ended = read state rows ∧ after state ended = after state rows)
    (state : σ) (t : Text) : read state (lines t) = read state (t.splitAt '\n') := by
  induction t using splitAt_induction '\n' generalizing state with
  | last row hrow =>
    rw [splitAt_of_not_mem hrow]
    cases row with
    | nil => exact (hended (.added []) state).1.symm
    | cons c row => rw [lines_of_not_mem hrow (List.cons_ne_nil _ _)]
  | cons row t hrow ih =>
    have hsingle : EndedLines (lines row) [row] := by
      cases row with
      | nil => exact .added []
      | cons c row =>
        rw [lines_of_not_mem hrow (List.cons_ne_nil _ _)]
        exact .kept _
    obtain ⟨hread, hafter⟩ := hended (endedLines_lines row) state
    obtain ⟨hreadRow, hafterRow⟩ := hended hsingle state
    rw [lines_append_newline, splitAt_append_cons, splitAt_of_not_mem hrow, happend, happend, ih,
      hread, hafter, hreadRow, hafterRow]

theorem cleanRows_lines (mode : Mode) (t : Text) :
    cleanRows mode (lines t) = cleanRows mode (t.splitAt '\n') :=
  read_lines cleanRows modeAfter cleanRows_append
    (fun h mode => ⟨h.cleanRows_eq mode, h.modeAfter_eq mode⟩) mode t

/-- Text behind a newline is cleaned apart from the text in front of it, whether or not that ended
its last line already. -/
theorem cleanLines_append_newline (s t : Text) :
    ∃ mode, cleanLines (s ++ '\n' :: t) = cleanLines s ++ cleanRows mode (lines t) := by
  refine ⟨modeAfter .code (lines (s ++ ['\n'])), ?_⟩
  rw [cleanLines_eq_cleanRows, lines_append_newline s t, cleanRows_append,
    (endedLines_lines s).cleanRows_eq, cleanLines_eq_cleanRows]

/-- Text on one line that comment removal keeps, with every string closed. -/
structure IsCode (t : Text) : Prop where
  whole : '\n' ∉ t
  kept : stripLine .code t = (t, .code)

namespace IsCode

variable {s t : Text}

theorem nil : IsCode [] := ⟨by simp, rfl⟩

private theorem append (h : IsCode t) (hs : ∀ c ∈ s, c ≠ '\n' ∧ c ≠ '/' ∧ c ≠ '"') :
    IsCode (s ++ t) := by
  induction s with
  | nil => exact h
  | cons c s ih =>
    obtain ⟨⟨hnewline, hslash, hquote⟩, hs⟩ := List.forall_mem_cons.mp hs
    obtain ⟨hwhole, hkept⟩ := ih hs
    have hmode : Mode.code.afterKept c = .code := if_neg hquote
    refine ⟨?_, ?_⟩
    · rw [List.cons_append, List.mem_cons, not_or]
      exact ⟨Ne.symm hnewline, hwhole⟩
    · rw [List.cons_append, stripLine, hmode, hkept]
      · intro _ hc
        exact absurd hc hslash
      · intro _ hc
        exact absurd hc hslash

theorem cons {c : Char} (h : IsCode t) (hc : c ≠ '\n' ∧ c ≠ '/' ∧ c ≠ '"') : IsCode (c :: t) :=
  h.append (s := [c]) (by simpa using hc)

theorem word (h : IsCode t) (hs : s.isIdentifier = true) : IsCode (s ++ t) := by
  apply h.append
  intro c hc
  have hident := isIdentChar_of_mem hs hc
  exact ⟨ne_of_isIdentChar hident (by decide), ne_of_isIdentChar hident (by decide),
    ne_of_isIdentChar hident (by decide)⟩

private theorem stripLine_string (hs : '"' ∉ s) (hkept : stripLine .code t = (t, .code)) :
    stripLine .string (s ++ '"' :: t) = (s ++ '"' :: t, .code) := by
  induction s with
  | nil =>
    have hmode : Mode.string.afterKept '"' = .code := rfl
    rw [List.nil_append, stripLine, hmode, hkept]
  | cons c s ih =>
    obtain ⟨hc, hs⟩ := not_or.mp (mt List.mem_cons.mpr hs)
    have hmode : Mode.string.afterKept c = .string := if_neg (Ne.symm hc)
    rw [List.cons_append, stripLine, hmode, ih hs]

/-- Whatever looks like a comment inside a string is kept. -/
theorem quoted (h : IsCode t) (hnewline : '\n' ∉ s) (hquote : '"' ∉ s) :
    IsCode ('"' :: (s ++ '"' :: t)) := by
  have hmode : Mode.code.afterKept '"' = .string := rfl
  refine ⟨by simp [hnewline, h.whole], ?_⟩
  rw [stripLine, hmode, stripLine_string hquote h.kept]
  · intro _ hc
    exact absurd hc (by decide)
  · intro _ hc
    exact absurd hc (by decide)

end IsCode

/-- A line that cleaning leaves as it is: code that does not end in a blank. -/
structure IsClean (line : Text) : Prop where
  code : IsCode line
  ends : ∃ front c, line = front ++ [c] ∧ isBlank c = false

/-- What stands in front of a clean line matters to the search for comments only. -/
theorem IsClean.append {s line : Text} (h : IsClean line) (hcode : IsCode (s ++ line)) :
    IsClean (s ++ line) := by
  obtain ⟨front, c, heq, hc⟩ := h.ends
  refine ⟨hcode, s ++ front, c, ?_, hc⟩
  rw [heq, List.append_assoc]

theorem isClean_singleton {c : Char} (hc : c ≠ '\n' ∧ c ≠ '/' ∧ c ≠ '"')
    (hblank : isBlank c = false) : IsClean [c] :=
  ⟨IsCode.nil.cons hc, [], c, rfl, hblank⟩

theorem isClean_of_isIdentifier {w : Text} (h : w.isIdentifier = true) : IsClean w := by
  have hne := ne_nil_of_isIdentifier h
  refine ⟨?_, w.dropLast, w.getLast hne, (List.dropLast_concat_getLast hne).symm, ?_⟩
  · simpa using IsCode.nil.word h
  · exact isBlank_of_isIdentChar (isIdentChar_of_mem h (List.getLast_mem hne))

/-- A clean line is kept, and what follows it is cleaned as if it stood alone. -/
theorem IsClean.cleanLines_cons {line : Text} (h : IsClean line) (t : Text) :
    cleanLines (line ++ '\n' :: t) = line :: cleanLines t := by
  obtain ⟨front, c, rfl, hc⟩ := h.ends
  have hreturn : (front ++ [c]).getLast? ≠ some '\r' := by
    intro hlast
    obtain rfl : c = '\r' := by simpa using hlast
    exact absurd hc (by decide)
  rw [cleanLines_eq_cleanRows, lines_cons t h.code.whole hreturn]
  simp only [cleanRows, stripLines, h.code.kept, List.map_cons, trimEnd_append_singleton front hc]
  exact List.filter_cons_of_pos (by simp)

theorem cleanLines_flatMap {rows : List Text} (h : ∀ line ∈ rows, IsClean line) :
    cleanLines (rows.flatMap fun line => line ++ ['\n']) = rows := by
  induction rows with
  | nil => rfl
  | cons line rows ih =>
    obtain ⟨hline, hrows⟩ := List.forall_mem_cons.mp h
    rw [List.flatMap_cons, List.append_assoc, List.singleton_append, hline.cleanLines_cons,
      ih hrows]

end Registrar.Text
