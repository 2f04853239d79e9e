import Registrar.Proofs.Text.Readers

/-! The identifiers of a line are its words that cannot be made longer and do not start with a
digit: all of them, each once and in their order, with the offsets of their ends. A reader that
scans the line by byte offsets finds the same ones. -/

namespace Registrar.Text

variable {line : Text}

/-- A run is an identifier exactly if it does not start with a digit. -/
private theorem isIdentifier_iff_of_isMaximalRun {before : Text} {run : Run}
    (h : IsMaximalRun before run.word run.after) :
    run.isIdentifier = true ↔ run.word.head?.any Char.isDigit = false := by
  obtain ⟨word, stop, after⟩ := run
  obtain ⟨c, more, rfl⟩ := List.exists_cons_of_ne_nil h.ne_nil
  have hc := h.isIdentChar_word c (List.mem_cons_self ..)
  rw [isIdentChar_eq, Bool.or_eq_true] at hc
  constructor
  · intro hstart
    rw [Bool.eq_false_iff]
    intro hdigit
    exact absurd (show isIdentStart c = true from hstart) (by simp [isIdentStart_of_isDigit hdigit])
  · intro hdigit
    exact hc.resolve_right (Bool.eq_false_iff.mp hdigit)

private theorem mem_identifiers_iff {run : Run} :
    run ∈ line.identifiers ↔ ∃ before, line = before ++ (run.word ++ run.after) ∧
      IsMaximalRun before run.word run.after ∧ run.word.head?.any Char.isDigit = false ∧
        run.stop = byteLength (before ++ run.word) := by
  rw [identifiers, List.mem_filter, mem_runsFrom_iff]
  simp only [Nat.zero_add]
  constructor
  · rintro ⟨⟨before, hline, hrun, hstop⟩, hname⟩
    exact ⟨before, hline, hrun, (isIdentifier_iff_of_isMaximalRun hrun).mp hname, hstop⟩
  · rintro ⟨before, hline, hrun, hdigit, hstop⟩
    exact ⟨⟨before, hline, hrun, hstop⟩, (isIdentifier_iff_of_isMaximalRun hrun).mpr hdigit⟩

/-- A run is cut out of the line by the offset of its end and its own length. -/
private theorem slice?_of_mem_identifiers {run : Run} (h : run ∈ line.identifiers) :
    slice? (run.stop - run.word.byteLength) run.stop line = some run.word := by
  obtain ⟨before, hline, _, _, hstop⟩ := mem_identifiers_iff.mp h
  refine slice?_eq_some_iff.mpr ⟨before, run.after, hline, ?_, hstop.symm⟩
  rw [hstop, byteLength_append, Nat.add_sub_cancel]

/-- What follows a run is what is left of the line behind the offset of its end. -/
theorem dropBytes?_of_mem_identifiers {run : Run} (h : run ∈ line.identifiers) :
    dropBytes? run.stop line = some run.after := by
  obtain ⟨before, hline, _, _, hstop⟩ := mem_identifiers_iff.mp h
  exact dropBytes?_eq_some_iff.mpr
    ⟨before ++ run.word, hline.trans (List.append_assoc ..).symm, hstop.symm⟩

/-- The identifiers of a line are found exactly. Their ends stand in order, so none is listed twice;
what is listed is a word of the line that starts with no digit and is bounded on both sides, the
offset counts the bytes up to its end, and every such word is listed. Each one is the slice of the
line that ends at its offset, and a scan by byte offsets finds them without failing. -/
theorem identifiers_are_maximal_runs (line : Text) :
    (line.identifiers.Pairwise fun first second => first.stop < second.stop) ∧
      (∀ run : Run, run ∈ line.identifiers ↔ ∃ before, line = before ++ (run.word ++ run.after) ∧
        IsMaximalRun before run.word run.after ∧ run.word.head?.any Char.isDigit = false ∧
          run.stop = byteLength (before ++ run.word)) ∧
      (line.identifiers.map fun run => slice? (run.stop - run.word.byteLength) run.stop line) =
        (line.identifiers.map fun run => some run.word) ∧
      (Reader.start line).identifiers? =
        some (line.identifiers.map fun run => (run.word, run.stop)) := by
  refine ⟨?_, fun run => mem_identifiers_iff, ?_, Reader.identifiers?_start line⟩
  · exact (pairwise_runsFrom 0 line).filter _
  · exact List.map_congr_left fun run hrun => slice?_of_mem_identifiers hrun

/-- Letters beyond ASCII end a run and count with all of their bytes. -/
example : ((identifiers "größe_1 2nd x2".toList).map fun run => (run.word, run.stop)) =
    [("gr".toList, 2), ("e_1".toList, 9), ("x2".toList, 16)] := by decide

end Registrar.Text
