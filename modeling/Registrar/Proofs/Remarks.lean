import Mathlib.Data.List.TakeWhile
import Registrar.Proofs.Text.Lexing
import Registrar.Proofs.Text.Occurrence
import Registrar.Scan

/-! Lines that say nothing. Blank lines and comments on lines of their own can be put between the
lines of a header, and carriage returns in front of its newlines, without any effect on what is
found in it. -/

namespace Registrar

namespace Text

/-- Whole lines without code: blank lines, a line comment, or a block comment that may go on over
several lines. There may be blanks around the comments. -/
inductive Remark : Text → Prop
  | blank {gap : Text} : (∀ c ∈ gap, isBlank c = true) → Remark (gap ++ "\n".toList)
  | line {gap note : Text} : (∀ c ∈ gap, isBlank c = true) → '\n' ∉ note →
    Remark (gap ++ "//".toList ++ note ++ "\n".toList)
  | block {gap note tail : Text} : (∀ c ∈ gap, isBlank c = true) → ¬ "*/".toList <:+: note →
    (∀ c ∈ tail, isBlank c = true) →
      Remark (gap ++ "/*".toList ++ note ++ "*/".toList ++ tail ++ "\n".toList)

def withReturns (t : Text) : Text := t.flatMap fun c => if c = '\n' then ['\r', '\n'] else [c]

end Text

namespace Lexing

variable {gap note : Text} {c : Char}

private theorem uncomment_blanks (h : ∀ c ∈ gap, isBlank c = true) (t : Text) :
    code.uncomment (gap ++ t) = gap ++ code.uncomment t := by
  refine Text.blank_append_keep (fun c t hc => ?_) h t
  have hslash : c ≠ '/' := ne_of_isBlank hc (by decide)
  have hquote : c ≠ '"' := ne_of_isBlank hc (by decide)
  rw [uncomment]
  · exact fun _ h => absurd h hslash
  · exact fun _ h => absurd h hslash
  · exact hquote

/-- A block comment ends at the first mark that can end it, whatever stands in it. Only its newlines
are left. -/
private theorem uncomment_blockComment (h : ¬ ['*', '/'] <:+: note) (t : Text) :
    blockComment.uncomment (note ++ '*' :: '/' :: t) =
      note.filter (· == '\n') ++ code.uncomment t := by
  induction note with
  | nil => rfl
  | cons c note ih =>
    have hnote := ih fun hmark => h (List.infix_cons hmark)
    by_cases hc : c = '\n'
    · subst hc
      exact congrArg ('\n' :: ·) hnote
    · have hmark : ∀ u, c = '*' → note ++ '*' :: '/' :: t = '/' :: u → False := by
        rintro u rfl heq
        obtain ⟨more, rfl⟩ := Text.exists_cons_of_append (by simp) heq
        exact h (List.prefix_append ['*', '/'] more).isInfix
      rw [List.cons_append, uncomment, hnote, List.filter_cons_of_neg (by simpa using hc)]
      · exact hmark
      · exact hc

/-- What is left of a remark are blanks. -/
private theorem uncomment_remark {remark : Text} (h : Text.Remark remark) (t : Text) :
    ∃ gap, (∀ c ∈ gap, isBlank c = true) ∧
      code.uncomment (remark ++ t) = gap ++ '\n' :: code.uncomment t := by
  have hnewline : ∀ t, code.uncomment ('\n' :: t) = '\n' :: code.uncomment t :=
    uncomment_newline .code
  cases h with
  | @blank gap hgap =>
    refine ⟨gap, hgap, ?_⟩
    rw [List.append_assoc, uncomment_blanks hgap]
    exact congrArg (gap ++ ·) (hnewline t)
  | @line gap note hgap hnote =>
    refine ⟨gap, hgap, ?_⟩
    have hcomment : code.uncomment ('/' :: '/' :: (note ++ '\n' :: t)) = '\n' :: code.uncomment t :=
      uncomment_lineComment hnote ('\n' :: t)
    calc
      _ = code.uncomment (gap ++ '/' :: '/' :: (note ++ '\n' :: t)) := by simp
      _ = gap ++ '\n' :: code.uncomment t := by rw [uncomment_blanks hgap, hcomment]
  | @block gap note tail hgap hnote htail =>
    have hcomment : code.uncomment ('/' :: '*' :: (note ++ '*' :: '/' :: (tail ++ '\n' :: t))) =
        note.filter (· == '\n') ++ (tail ++ '\n' :: code.uncomment t) := by
      rw [← hnewline, ← uncomment_blanks htail]
      exact uncomment_blockComment hnote (tail ++ '\n' :: t)
    refine ⟨gap ++ note.filter (· == '\n') ++ tail, ?_, ?_⟩
    · refine List.forall_mem_append.mpr ⟨List.forall_mem_append.mpr ⟨hgap, fun c hc => ?_⟩, htail⟩
      obtain rfl : c = '\n' := by simpa using (List.mem_filter.mp hc).2
      decide
    · calc
        _ = code.uncomment (gap ++ '/' :: '*' :: (note ++ '*' :: '/' :: (tail ++ '\n' :: t))) := by
          simp
        _ = gap ++ (note.filter (· == '\n') ++ (tail ++ '\n' :: code.uncomment t)) := by
          rw [uncomment_blanks hgap, hcomment]
        _ = _ := by simp

end Lexing

namespace Text

variable {front back gap remark row t : Text}

private theorem cleanLines_eq_trimmed (t : Text) :
    cleanLines t = trimmed ((Lexing.code.uncomment t).splitAt '\n') :=
  (cleanRows_lines .code t).trans (congrArg trimmed (stripLines_splitAt .code t))

private theorem trimmed_blanks (h : ∀ c ∈ gap, isBlank c = true) :
    trimmed (gap.splitAt '\n') = [] := by
  rw [trimmed, List.filter_eq_nil_iff]
  intro line hline
  obtain ⟨row, hrow, rfl⟩ := List.mem_map.mp hline
  have hblank : ∀ c ∈ row.reverse, isBlank c = true := fun c hc =>
    h c ((of_mem_splitAt hrow).2 c (List.mem_reverse.mp hc))
  rw [trimEnd, List.dropWhile_eq_nil_iff.mpr hblank]
  exact fun h => absurd h (by decide)

/-- A remark leaves no lines, and the text behind it is cleaned as if it stood alone. -/
private theorem Remark.cleanLines_append (h : Remark remark) (t : Text) :
    cleanLines (remark ++ t) = cleanLines t := by
  obtain ⟨gap, hgap, heq⟩ := Lexing.uncomment_remark h t
  rw [cleanLines_eq_trimmed, heq, splitAt_append_cons, trimmed_append, trimmed_blanks hgap,
    List.nil_append, ← cleanLines_eq_trimmed]

/-- Whether a text breaks off between two lines. -/
def EndsLine (t : Text) : Prop := t = [] ∨ t.getLast? = some '\n'

private theorem Remark.cleanLines_inserted (h : Remark remark) (hfront : front.EndsLine)
    (hmode : modeAfter .code front.lines = .code) (back : Text) :
    cleanLines (front ++ (remark ++ back)) = cleanLines (front ++ back) := by
  rcases hfront with rfl | hlast
  · exact h.cleanLines_append back
  · obtain ⟨lead, rfl⟩ := List.getLast?_eq_some_iff.mp hlast
    have hsplit : ∀ t, cleanLines (lead ++ ['\n'] ++ t) =
        cleanLines (lead ++ ['\n']) ++ cleanLines t := by
      intro t
      rw [List.append_assoc, List.singleton_append]
      exact Text.cleanLines_append lead t hmode
    rw [hsplit, hsplit, h.cleanLines_append]

/-- What is put between two lines hides no word that stands on one line. -/
private theorem occursIn_inserted {word : Text} (hword : word ≠ []) (hnewline : '\n' ∉ word)
    (hfront : front.EndsLine) (middle : Text) (h : occursIn word (front ++ back) = true) :
    occursIn word (front ++ (middle ++ back)) = true := by
  have hmore : occursIn word back = true → occursIn word (middle ++ back) = true :=
    occursIn_of_suffix (List.suffix_append middle back)
  rcases hfront with rfl | hlast
  · exact hmore h
  · obtain ⟨lead, rfl⟩ := List.getLast?_eq_some_iff.mp hlast
    rw [List.append_assoc, List.singleton_append, occursIn_append_cons hword hnewline,
      Bool.or_eq_true_iff] at h ⊢
    exact h.imp id hmore

private theorem withReturns_of_not_mem (h : '\n' ∉ row) : row.withReturns = row := by
  induction row with
  | nil => rfl
  | cons c row ih =>
    obtain ⟨hc, hrow⟩ := not_or.mp (mt List.mem_cons.mpr h)
    rw [withReturns, List.flatMap_cons, if_neg (Ne.symm hc), ← withReturns, ih hrow]
    rfl

private theorem withReturns_append_newline (h : '\n' ∉ row) (t : Text) :
    withReturns (row ++ '\n' :: t) = row ++ ['\r'] ++ '\n' :: t.withReturns := by
  rw [withReturns, List.flatMap_append, ← withReturns, withReturns_of_not_mem h, List.flatMap_cons,
    if_pos rfl, ← withReturns]
  simp

/-- Carriage returns at the ends of lines change neither what is left of a line nor whether a string
or a comment goes on behind it. -/
private theorem cleanRows_withReturns (mode : Mode) (t : Text) :
    cleanRows mode (t.withReturns.splitAt '\n') = cleanRows mode (t.splitAt '\n') := by
  induction t using splitAt_induction '\n' generalizing mode with
  | last row hrow => rw [withReturns_of_not_mem hrow]
  | cons row t hrow ih =>
    have hended : EndedLines [row ++ ['\r']] [row] := .shortened [] row
    have hreturn : '\n' ∉ row ++ ['\r'] := by simpa using hrow
    rw [withReturns_append_newline hrow, splitAt_append_cons, splitAt_append_cons,
      splitAt_of_not_mem hreturn, splitAt_of_not_mem hrow, cleanRows_append, cleanRows_append,
      hended.cleanRows_eq, hended.modeAfter_eq, ih]

private theorem cleanLines_withReturns (t : Text) : t.withReturns.cleanLines = t.cleanLines := by
  rw [cleanLines_eq_cleanRows, cleanRows_lines, cleanRows_withReturns, ← cleanRows_lines,
    ← cleanLines_eq_cleanRows]

private theorem occursIn_withReturns {word : Text} (hne : word ≠ []) (hnewline : '\n' ∉ word)
    (hreturn : '\r' ∉ word) (t : Text) : occursIn word t.withReturns = occursIn word t := by
  induction t using splitAt_induction '\n' with
  | last row hrow => rw [withReturns_of_not_mem hrow]
  | cons row t hrow ih =>
    rw [withReturns_append_newline hrow, occursIn_append_cons hne hnewline,
      occursIn_append_cons hne hreturn, occursIn_append_cons hne hnewline, occursIn_nil hne,
      Bool.or_false, ih]

end Text

namespace Markers

/-- Neither remarks between the lines of a header nor carriage returns in front of its newlines have
any effect on a scan. A remark may hold whatever looks like markers, classes, strings or comments;
it must stand where neither a string nor a block comment goes on. -/
theorem scan_ignores_remarks (markers : Markers) (hvalid : markers.validate = .ok ())
    (header : Text) :
    (∀ front back remark : Text, markers.needsScan (front ++ back) = true → front.EndsLine →
      Text.modeAfter .code front.lines = .code → Text.Remark remark →
        markers.scan header (front ++ (remark ++ back)) = markers.scan header (front ++ back)) ∧
    ∀ source : Text, source.withReturns.cleanLines = source.cleanLines ∧
      markers.scan header source.withReturns = markers.scan header source := by
  have hclass := isIdentifier_onClass hvalid
  have hne := Text.ne_nil_of_isIdentifier hclass
  have hnewline := Text.not_mem_of_isIdentifier hclass (c := '\n') (by decide)
  constructor
  · intro front back remark hneeds hfront hmode hremark
    have hinserted : markers.needsScan (front ++ (remark ++ back)) = true :=
      Text.occursIn_inserted hne hnewline hfront remark hneeds
    rw [scan, scan, if_pos hneeds, if_pos hinserted, hremark.cleanLines_inserted hfront hmode]
  · intro source
    have hreturn := Text.not_mem_of_isIdentifier hclass (c := '\r') (by decide)
    have hneeds : markers.needsScan source.withReturns = markers.needsScan source :=
      Text.occursIn_withReturns hne hnewline hreturn source
    refine ⟨Text.cleanLines_withReturns source, ?_⟩
    rw [scan, scan, hneeds, Text.cleanLines_withReturns]

/-- A block comment with a class, its marker, a quote and marks that look like the start and the end
of comments stands between the lines of a class. Its first line leaves nothing open, although it
holds the mark of a block comment in a string and a quote in a comment. -/
theorem scan_ignores_remarks_between_lines :
    let front : Text := "class A \x7b REFLECT_CLASS(\"/*\") // \" /*\n".toList
    let note : Text := "/ class B \x7b\n\nREFLECT_CLASS() /* \" * /\r\n// \x7d; *".toList
    let remark : Text :=
      "  ".toList ++ "/*".toList ++ note ++ "*/".toList ++ " \t".toList ++ "\n".toList
    let back : Text := "REFLECT_MEMBER()\nint n; \x7d;".toList
    let cls : ReflectedClass :=
      { name := .global "A".toList, header := "a.hpp".toList, registration := some "/*".toList,
        members := [.same "n".toList] }
    Markers.scan {} "a.hpp".toList (front ++ (remark ++ back)) = [cls] ∧
      Markers.scan {} "a.hpp".toList (Text.withReturns (front ++ (remark ++ back))) = [cls] := by
  intro front note remark back cls
  have hnote : ¬ "*/".toList <:+: note := by decide +kernel
  have hremark : Text.Remark remark :=
    .block (List.all_eq_true.mp (by decide)) hnote (List.all_eq_true.mp (by decide))
  obtain ⟨hinserted, hreturns⟩ := scan_ignores_remarks {} rfl "a.hpp".toList
  have hneeds : Markers.needsScan {} (front ++ back) = true := by decide +kernel
  have hmode : Text.modeAfter .code front.lines = .code := by decide +kernel
  have hscan := hinserted front back remark hneeds (.inr (by decide +kernel)) hmode hremark
  have hcls : Markers.scan {} "a.hpp".toList (front ++ back) = [cls] := by decide +kernel
  exact ⟨hscan.trans hcls, (hreturns _).2.trans (hscan.trans hcls)⟩

end Markers

end Registrar
