import Registrar.Proofs.Text.Lines

/-! Removing comments from a whole text at once. One automaton reads the text over its newlines;
what it copies falls into the lines that are left when the comments are removed line by line. -/

namespace Registrar

/-- What the next character of a whole text stands in. -/
inductive Lexing where
  | code
  | string
  | lineComment
  | blockComment
deriving DecidableEq

namespace Lexing

def ofMode : Mode → Lexing
  | .code => .code
  | .string => .string
  | .block => .blockComment

/-- The text without comments. Newlines are always copied; they end line comments and nothing
else. -/
def uncomment : Lexing → Text → Text
  | _, [] => []
  | .code, '/' :: '/' :: t => uncomment .lineComment t
  | .code, '/' :: '*' :: t => uncomment .blockComment t
  | .code, '"' :: t => '"' :: uncomment .string t
  | .code, c :: t => c :: uncomment .code t
  | .string, '"' :: t => '"' :: uncomment .code t
  | .string, c :: t => c :: uncomment .string t
  | .lineComment, '\n' :: t => '\n' :: uncomment .code t
  | .lineComment, _ :: t => uncomment .lineComment t
  | .blockComment, '*' :: '/' :: t => uncomment .code t
  | .blockComment, '\n' :: t => '\n' :: uncomment .blockComment t
  | .blockComment, _ :: t => uncomment .blockComment t

private theorem uncomment_nil (state : Lexing) : state.uncomment [] = [] := by
  cases state <;> rfl

theorem uncomment_newline (mode : Mode) (t : Text) :
    (ofMode mode).uncomment ('\n' :: t) = '\n' :: (ofMode mode).uncomment t := by
  cases mode <;> rfl

theorem uncomment_lineComment {row : Text} (hrow : '\n' ∉ row) (rest : Text) :
    lineComment.uncomment (row ++ rest) = lineComment.uncomment rest := by
  induction row with
  | nil => rfl
  | cons c row ih =>
    obtain ⟨hc, hrow⟩ := not_or.mp (mt List.mem_cons.mpr hrow)
    rw [List.cons_append, uncomment, ih hrow]
    exact fun h => hc h.symm

/-- Where the reading stands behind a line: where the next line starts, or still in a line comment
that the newline is about to end. -/
def Reaches (mode : Mode) (state : Lexing) : Prop :=
  state = ofMode mode ∨ state = .lineComment ∧ mode = .code

private theorem uncomment_newline_of_reaches {mode : Mode} {state : Lexing} (h : Reaches mode state)
    (t : Text) : state.uncomment ('\n' :: t) = '\n' :: (ofMode mode).uncomment t := by
  rcases h with rfl | ⟨rfl, rfl⟩
  · exact uncomment_newline mode t
  · rfl

/-- Behind a character that starts no mark the next line cannot complete one. -/
theorem not_cons_of_append {c d e : Char} {t rest : Text} (hrest : ∀ c ∈ rest.head?, c = '\n')
    (he : '\n' ≠ e) (h : ∀ u, c = d → t = e :: u → False) :
    ∀ u, c = d → t ++ rest = e :: u → False := by
  intro u hc heq
  obtain ⟨more, rfl⟩ := Text.exists_cons_of_append (fun c hc => hrest c hc ▸ he) heq
  exact h more hc rfl

/-- A line is read over a whole text as it is read alone. -/
theorem exists_uncomment_append {row : Text} (hrow : '\n' ∉ row) (mode : Mode) (rest : Text)
    (hrest : ∀ c ∈ rest.head?, c = '\n') :
    ∃ state, Reaches (Text.stripLine mode row).2 state ∧
      (ofMode mode).uncomment (row ++ rest) =
        (Text.stripLine mode row).1 ++ state.uncomment rest := by
  fun_induction Text.stripLine mode row with
  | case1 mode => exact ⟨ofMode mode, .inl rfl, rfl⟩
  | case2 row ih =>
    obtain ⟨state, hstate, heq⟩ := ih (fun h => hrow (by simp [h]))
    exact ⟨state, hstate, heq⟩
  | case3 c row hstar ih =>
    obtain ⟨hc, hrow⟩ := not_or.mp (mt List.mem_cons.mpr hrow)
    obtain ⟨state, hstate, heq⟩ := ih hrow
    refine ⟨state, hstate, ?_⟩
    rw [ofMode, List.cons_append, uncomment]
    · exact heq
    · exact not_cons_of_append hrest (by decide) hstar
    · exact fun h => hc h.symm
  | case4 c row kept mode hkept ih =>
    obtain ⟨state, hstate, heq⟩ := ih (fun h => hrow (List.mem_cons_of_mem c h))
    rw [hkept] at hstate heq
    refine ⟨state, hstate, ?_⟩
    by_cases hquote : c = '"'
    · subst hquote
      exact congrArg ('"' :: ·) heq
    · rw [Mode.afterKept, if_neg hquote] at heq
      rw [ofMode, List.cons_append, uncomment]
      · exact congrArg (c :: ·) heq
      · exact hquote
  | case5 row =>
    have hrow : '\n' ∉ row := fun h => hrow (by simp [h])
    exact ⟨.lineComment, .inr ⟨rfl, rfl⟩, uncomment_lineComment hrow rest⟩
  | case6 row ih =>
    obtain ⟨state, hstate, heq⟩ := ih (fun h => hrow (by simp [h]))
    exact ⟨state, hstate, heq⟩
  | case7 c row hline hblock kept mode hkept ih =>
    obtain ⟨state, hstate, heq⟩ := ih (fun h => hrow (List.mem_cons_of_mem c h))
    rw [hkept] at hstate heq
    refine ⟨state, hstate, ?_⟩
    by_cases hquote : c = '"'
    · subst hquote
      exact congrArg ('"' :: ·) heq
    · rw [Mode.afterKept, if_neg hquote] at heq
      rw [ofMode, List.cons_append, uncomment]
      · exact congrArg (c :: ·) heq
      · exact not_cons_of_append hrest (by decide) hline
      · exact not_cons_of_append hrest (by decide) hblock
      · exact hquote

end Lexing

namespace Text

theorem stripLines_splitAt (mode : Mode) (t : Text) :
    stripLines mode (t.splitAt '\n') = ((Lexing.ofMode mode).uncomment t).splitAt '\n' := by
  induction t using splitAt_induction '\n' generalizing mode with
  | last row hrow =>
    obtain ⟨state, _, heq⟩ := Lexing.exists_uncomment_append hrow mode [] nofun
    have hkept : '\n' ∉ (stripLine mode row).1 := fun h => hrow ((stripLine_sublist mode row).mem h)
    rw [List.append_nil, state.uncomment_nil, List.append_nil] at heq
    rw [heq, splitAt_of_not_mem hrow, splitAt_of_not_mem hkept]
    rfl
  | cons row t hrow ih =>
    obtain ⟨state, hstate, heq⟩ :=
      Lexing.exists_uncomment_append hrow mode ('\n' :: t) (by simp)
    have hkept : '\n' ∉ (stripLine mode row).1 := fun h => hrow ((stripLine_sublist mode row).mem h)
    rw [heq, Lexing.uncomment_newline_of_reaches hstate, splitAt_append_cons, splitAt_append_cons,
      splitAt_of_not_mem hrow, splitAt_of_not_mem hkept, ← ih]
    rfl

def trimmed (rows : List Text) : List Text := (rows.map trimEnd).filter fun line => !line.isEmpty

theorem trimmed_append (first second : List Text) :
    trimmed (first ++ second) = trimmed first ++ trimmed second := by
  rw [trimmed, List.map_append, List.filter_append, ← trimmed, ← trimmed]

private theorem EndedLines.trimmed_eq {rows ended : List Text} (h : EndedLines rows ended) :
    trimmed ended = trimmed rows := by
  cases h with
  | added =>
    rw [trimmed_append]
    exact List.append_nil _
  | kept => rfl
  | shortened front last =>
    have hreturn : isBlank '\r' = true := by decide
    have hlast : trimmed [last ++ ['\r']] = trimmed [last] := by
      simp only [trimmed, List.map_cons, List.map_nil, trimEnd_append_blank last hreturn]
    rw [trimmed_append, trimmed_append, hlast]

private theorem trimmed_lines (t : Text) : trimmed (lines t) = trimmed (t.splitAt '\n') :=
  read_lines (fun () => trimmed) (fun _ _ => ()) (fun () => trimmed_append)
    (fun h () => ⟨h.trimmed_eq, rfl⟩) () t

/-- The whole text without comments, cut into lines without blank ends and empty lines, is what the
cleaning of its lines one by one gives. -/
theorem cleanLines_eq_uncommented (source : Text) :
    source.cleanLines =
      (((Lexing.uncomment .code source).lines.map trimEnd).filter fun line => !line.isEmpty) := by
  calc
    cleanRows .code source.lines = trimmed (stripLines .code (source.splitAt '\n')) :=
      cleanRows_lines .code source
    _ = trimmed ((Lexing.uncomment .code source).splitAt '\n') := by rw [stripLines_splitAt]; rfl
    _ = trimmed (Lexing.uncomment .code source).lines := (trimmed_lines _).symm

example : Lexing.uncomment .code "a /*/ \" */b // \"\r\n\"c\n// d\" e".toList =
    "a b \n\"c\n// d\" e".toList := by
  decide

end Text

end Registrar
