import Registrar.Proofs.Text.Occurrence
import Registrar.Proofs.Text.Words

/-! Runs of identifier characters. A text is made of words with separators between them, and its
runs are these words: each of them stands in the text with what follows it, and whatever ends a word
of the text ends one of the runs. -/

namespace Registrar.Text

variable {w t : Text}

/-- A text is read separator by separator and word by word. -/
@[elab_as_elim]
theorem word_induction {motive : Text → Prop} (nil : motive [])
    (separator : ∀ c t, isIdentChar c = false → motive t → motive (c :: t))
    (word : ∀ c w t, (∀ d ∈ c :: w, isIdentChar d = true) →
      (∀ d ∈ t.head?, isIdentChar d = false) → motive t → motive (c :: w ++ t)) (t : Text) :
    motive t := by
  match t with
  | [] => exact nil
  | c :: t =>
    by_cases hc : isIdentChar c = true
    · have hword : ∀ d ∈ c :: t.takeWhile isIdentChar, isIdentChar d = true :=
        List.forall_mem_cons.mpr ⟨hc, List.all_eq_true.mp List.all_takeWhile⟩
      have hsplit := word c (t.takeWhile isIdentChar) (t.dropWhile isIdentChar) hword
        (head?_dropWhile isIdentChar t) (word_induction nil separator word _)
      rwa [List.cons_append, List.takeWhile_append_dropWhile] at hsplit
    · exact separator c t (Bool.eq_false_iff.mpr hc) (word_induction nil separator word t)
termination_by t.length
decreasing_by
  · exact Nat.lt_succ_of_le (List.dropWhile_sublist _).length_le
  · simp

theorem runsFrom_separators {s : Text} (h : ∀ c ∈ s, isIdentChar c = false) (offset : Nat)
    (t : Text) : runsFrom offset (s ++ t) = runsFrom (offset + s.byteLength) t := by
  induction s generalizing offset with
  | nil => rfl
  | cons c s ih =>
    obtain ⟨hc, hs⟩ := List.forall_mem_cons.mp h
    rw [List.cons_append, runsFrom, hc, if_neg Bool.false_ne_true, ih hs, byteLength_cons,
      Nat.add_assoc]

/-- A word that a separator or the end follows is one run. -/
theorem runsFrom_word {c : Char} (h : ∀ d ∈ c :: w, isIdentChar d = true)
    (hrest : ∀ d ∈ t.head?, isIdentChar d = false) (offset : Nat) :
    runsFrom offset (c :: w ++ t) =
      ⟨c :: w, offset + byteLength (c :: w), t⟩ :: runsFrom (offset + byteLength (c :: w)) t := by
  induction w generalizing c offset with
  | nil =>
    have hc := h c (List.mem_cons_self ..)
    have hstop : ¬ t.head?.any isIdentChar = true := by
      rw [Option.any_eq_true_iff_get]
      rintro ⟨hsome, hident⟩
      rw [hrest _ (Option.get_mem hsome)] at hident
      exact Bool.noConfusion hident
    rw [List.cons_append, List.nil_append, runsFrom, hc, if_pos rfl, if_neg hstop]
    rfl
  | cons d w ih =>
    obtain ⟨hc, hw⟩ := List.forall_mem_cons.mp h
    have hnext : (d :: w ++ t).head?.any isIdentChar = true := hw d (List.mem_cons_self ..)
    rw [List.cons_append, runsFrom, hc, if_pos rfl, if_pos hnext, ih hw, byteLength_cons c,
      Nat.add_assoc]
    rfl

private theorem runsFrom_identifier (h : w.isIdentifier = true)
    (hrest : ∀ d ∈ t.head?, isIdentChar d = false) (offset : Nat) :
    runsFrom offset (w ++ t) =
      ⟨w, offset + w.byteLength, t⟩ :: runsFrom (offset + w.byteLength) t := by
  have hident : ∀ c ∈ w, isIdentChar c = true := fun c hc => isIdentChar_of_mem h hc
  obtain ⟨c, more, rfl, _, _⟩ := exists_of_isIdentifier h
  exact runsFrom_word hident hrest offset

private theorem Run.isIdentifier_of_word (h : w.isIdentifier = true) (stop : Nat) (after : Text) :
    Run.isIdentifier ⟨w, stop, after⟩ = true := by
  obtain ⟨c, more, rfl, hc, _⟩ := exists_of_isIdentifier h
  exact hc

/-- A text behind the last separator of what stands in front of it keeps its runs. -/
theorem mem_runsFrom_append {lead : Text} (hlead : ∀ c ∈ lead.getLast?, isIdentChar c = false)
    {run : Run} {offset : Nat} (h : run ∈ runsFrom (offset + lead.byteLength) t) :
    run ∈ runsFrom offset (lead ++ t) := by
  induction lead using word_induction generalizing offset with
  | nil => exact h
  | separator c lead hc ih =>
    have hskip := runsFrom_separators (List.forall_mem_singleton.mpr hc) offset (lead ++ t)
    rw [List.singleton_append] at hskip
    rw [List.cons_append, hskip]
    apply ih
    · intro d hd
      exact hlead d (by simp [List.getLast?_cons, Option.mem_def.mp hd])
    · rwa [byteLength_cons, ← Nat.add_assoc] at h
  | word c w lead hw hstop ih =>
    obtain ⟨d, lead, rfl⟩ : ∃ d rest, lead = d :: rest := by
      cases lead with
      | nil =>
        have hlast := hlead _ (Option.mem_def.mpr (List.getLast?_eq_some_getLast (by simp)))
        rw [hw _ (by simp)] at hlast
        exact Bool.noConfusion hlast
      | cons d rest => exact ⟨d, rest, rfl⟩
    have hnext : ∀ e ∈ (d :: lead ++ t).head?, isIdentChar e = false := hstop
    rw [List.append_assoc, runsFrom_word hw hnext]
    apply List.mem_cons_of_mem
    apply ih
    · intro e he
      refine hlead e ?_
      rw [Option.mem_def, List.getLast?_append, Option.mem_def.mp he]
      rfl
    · rwa [byteLength_append, ← Nat.add_assoc] at h

/-- A word between two texts that takes in no further character of them. -/
structure IsMaximalRun (before word after : Text) : Prop where
  ne_nil : word ≠ []
  isIdentChar_word : ∀ c ∈ word, isIdentChar c = true
  isIdentChar_before : ∀ c ∈ before.getLast?, isIdentChar c = false
  isIdentChar_after : ∀ c ∈ after.head?, isIdentChar c = false

/-- The runs of a text are its words that cannot be made longer, each with the offset of its end. -/
theorem mem_runsFrom_iff {run : Run} {offset : Nat} :
    run ∈ runsFrom offset t ↔ ∃ before, t = before ++ (run.word ++ run.after) ∧
      IsMaximalRun before run.word run.after ∧
        run.stop = offset + byteLength (before ++ run.word) := by
  constructor
  · intro h
    induction t using word_induction generalizing offset with
    | nil => exact absurd h (by simp [runsFrom])
    | separator c t hc ih =>
      have hskip := runsFrom_separators (List.forall_mem_singleton.mpr hc) offset t
      rw [List.singleton_append] at hskip
      rw [hskip] at h
      obtain ⟨before, rfl, hrun, hstop⟩ := ih h
      refine ⟨c :: before, rfl, ⟨hrun.ne_nil, hrun.isIdentChar_word, ?_, hrun.isIdentChar_after⟩,
        ?_⟩
      · cases before with
        | nil => exact forall_head?_cons hc []
        | cons d before =>
          rw [List.getLast?_cons_of_ne_nil (List.cons_ne_nil d before)]
          exact hrun.isIdentChar_before
      · rw [hstop, List.cons_append, byteLength_cons, byteLength_cons, byteLength_nil]
        omega
    | word c w t hw ht ih =>
      rw [runsFrom_word hw ht] at h
      rcases List.mem_cons.mp h with rfl | h
      · exact ⟨[], rfl, ⟨List.cons_ne_nil c w, hw, nofun, ht⟩, rfl⟩
      · obtain ⟨before, rfl, hrun, hstop⟩ := ih h
        -- The run stands behind the separator that ends the first word.
        have hne : before ≠ [] := by
          rintro rfl
          obtain ⟨d, more, hword⟩ := List.exists_cons_of_ne_nil hrun.ne_nil
          have hd := hrun.isIdentChar_word d (by simp [hword])
          rw [ht d (by simp [hword])] at hd
          exact Bool.noConfusion hd
        refine ⟨c :: w ++ before, (List.append_assoc ..).symm,
          ⟨hrun.ne_nil, hrun.isIdentChar_word, ?_, hrun.isIdentChar_after⟩, ?_⟩
        · rw [List.getLast?_append, List.getLast?_eq_some_getLast hne, Option.some_or,
            ← List.getLast?_eq_some_getLast hne]
          exact hrun.isIdentChar_before
        · rw [hstop, List.append_assoc, byteLength_append (c :: w)]
          omega
  · rintro ⟨before, rfl, hrun, hstop⟩
    obtain ⟨word, stop, after⟩ := run
    obtain ⟨c, more, rfl⟩ := List.exists_cons_of_ne_nil hrun.ne_nil
    apply mem_runsFrom_append hrun.isIdentChar_before
    rw [runsFrom_word hrun.isIdentChar_word hrun.isIdentChar_after, Nat.add_assoc,
      ← byteLength_append, ← hstop]
    exact List.mem_cons_self

/-- A run stands in the text in front of what follows it, which does not go on with the word. -/
theorem of_mem_runsFrom {run : Run} {offset : Nat} (h : run ∈ runsFrom offset t) :
    run.word ≠ [] ∧ (∀ c ∈ run.word, isIdentChar c = true) ∧
      (∀ c ∈ run.after.head?, isIdentChar c = false) ∧
        ∃ before, t = before ++ (run.word ++ run.after) := by
  obtain ⟨before, ht, hrun, _⟩ := mem_runsFrom_iff.mp h
  exact ⟨hrun.ne_nil, hrun.isIdentChar_word, hrun.isIdentChar_after, before, ht⟩

/-- The runs end one behind the other. -/
theorem pairwise_runsFrom (offset : Nat) (t : Text) :
    (runsFrom offset t).Pairwise fun first second => first.stop < second.stop := by
  induction t using word_induction generalizing offset with
  | nil => exact List.Pairwise.nil
  | separator c t hc ih =>
    have hskip := runsFrom_separators (List.forall_mem_singleton.mpr hc) offset t
    rw [List.singleton_append] at hskip
    rw [hskip]
    exact ih _
  | word c w t hw ht ih =>
    rw [runsFrom_word hw ht]
    refine List.pairwise_cons.mpr ⟨fun run hrun => ?_, ih _⟩
    obtain ⟨before, _, hmaximal, hstop⟩ := mem_runsFrom_iff.mp hrun
    have hpos : byteLength run.word ≠ 0 := fun hzero =>
      hmaximal.ne_nil (byteLength_eq_zero_iff.mp hzero)
    change offset + byteLength (c :: w) < run.stop
    rw [hstop, byteLength_append before]
    omega

theorem isIdentifier_of_mem_identifiers {run : Run} (h : run ∈ identifiers t) :
    run.word.isIdentifier = true := by
  obtain ⟨hrun, hstart⟩ := List.mem_filter.mp h
  obtain ⟨hne, hident, _, _⟩ := of_mem_runsFrom hrun
  obtain ⟨word, stop, after⟩ := run
  cases word with
  | nil => exact absurd rfl hne
  | cons c word =>
    obtain ⟨_, hword⟩ := List.forall_mem_cons.mp hident
    exact Bool.and_eq_true_iff.mpr ⟨hstart, List.all_eq_true.mpr hword⟩

/-- The identifiers of two words, with separators in front of them and behind them. -/
theorem identifiers_two {v : Text} (lead tail : Text) (hlead : ∀ c ∈ lead, isIdentChar c = false)
    (hw : w.isIdentifier = true) (hv : v.isIdentifier = true)
    (htail : tail.isWordless = true) :
    ∃ m n, identifiers (lead ++ (w ++ ' ' :: (v ++ tail))) =
      [⟨w, m, ' ' :: (v ++ tail)⟩, ⟨v, n, tail⟩] := by
  have htail := isIdentChar_of_isWordless htail
  have hspace : ∀ c ∈ (' ' :: (v ++ tail)).head?, isIdentChar c = false :=
    forall_head?_cons (by decide) _
  have hstop : ∀ c ∈ tail.head?, isIdentChar c = false := fun c hc =>
    htail c (List.mem_of_mem_head? hc)
  have hend : ∀ offset, runsFrom offset tail = [] := by
    intro offset
    have := runsFrom_separators htail offset []
    rwa [List.append_nil] at this
  have hgap : ∀ offset, runsFrom offset (' ' :: (v ++ tail)) =
      runsFrom (offset + byteLength [' ']) (v ++ tail) := fun offset =>
    runsFrom_separators (s := [' ']) (List.forall_mem_singleton.mpr (by decide)) offset (v ++ tail)
  refine ⟨0 + lead.byteLength + w.byteLength,
    0 + lead.byteLength + w.byteLength + byteLength [' '] + v.byteLength, ?_⟩
  rw [identifiers, runsFrom_separators hlead, runsFrom_identifier hw hspace, hgap,
    runsFrom_identifier hv hstop, hend, List.filter_cons_of_pos (Run.isIdentifier_of_word hw ..),
    List.filter_cons_of_pos (Run.isIdentifier_of_word hv ..), List.filter_nil]

/-- Where the word that a text breaks off in begins. -/
theorem exists_split_last_word (t : Text) : ∃ lead w, t = lead ++ w ∧
    (∀ c ∈ lead.getLast?, isIdentChar c = false) ∧ ∀ c ∈ w, isIdentChar c = true := by
  induction t with
  | nil => exact ⟨[], [], rfl, nofun, nofun⟩
  | cons c t ih =>
    obtain ⟨lead, w, rfl, hlead, hw⟩ := ih
    cases lead with
    | cons d lead => exact ⟨c :: d :: lead, w, rfl, hlead, hw⟩
    | nil =>
      by_cases hc : isIdentChar c = true
      · exact ⟨[], c :: w, rfl, nofun, List.forall_mem_cons.mpr ⟨hc, hw⟩⟩
      · refine ⟨[c], w, rfl, ?_, hw⟩
        rintro d ⟨⟩
        exact Bool.eq_false_iff.mpr hc

/-- Whatever ends a word of a text ends one of its runs. If it is the whole run, then no identifier
character stands in front of it. -/
theorem exists_run_of_append (hne : w ≠ []) (hw : ∀ c ∈ w, isIdentChar c = true)
    (ht : ∀ c ∈ t.head?, isIdentChar c = false) (before : Text) (offset : Nat) :
    ∃ run ∈ runsFrom offset (before ++ (w ++ t)), w <:+ run.word ∧ run.after = t ∧
      (run.word = w → ∀ c ∈ before.getLast?, isIdentChar c = false) := by
  obtain ⟨lead, v, rfl, hlead, hv⟩ := exists_split_last_word before
  obtain ⟨c, more, hvw⟩ := List.exists_cons_of_ne_nil (List.append_ne_nil_of_right_ne_nil v hne)
  have hword : ∀ d ∈ c :: more, isIdentChar d = true :=
    hvw ▸ List.forall_mem_append.mpr ⟨hv, hw⟩
  have hrun := runsFrom_word hword ht (offset + lead.byteLength)
  rw [← hvw] at hrun
  refine ⟨⟨v ++ w, offset + lead.byteLength + byteLength (v ++ w), t⟩, ?_,
    List.suffix_append v w, rfl, ?_⟩
  · rw [List.append_assoc, ← List.append_assoc v]
    apply mem_runsFrom_append hlead
    rw [hrun]
    exact List.mem_cons_self
  · intro heq
    obtain rfl : v = [] := List.append_left_eq_self.mp heq
    rwa [List.append_nil]

def words (line : Text) : List Text := (runsFrom 0 line).map Run.word

/-- An identifier that stands somewhere in a line stands inside one of its words. -/
theorem any_occursIn_words {name : Text} (hname : name.isIdentifier = true) (line : Text) :
    line.words.any (occursIn name) = occursIn name line := by
  rw [Bool.eq_iff_iff, List.any_eq_true]
  constructor
  · rintro ⟨word, hword, hocc⟩
    obtain ⟨run, hrun, rfl⟩ := List.mem_map.mp hword
    obtain ⟨_, _, _, before, rfl⟩ := of_mem_runsFrom hrun
    obtain ⟨front, back, hsplit⟩ := occursIn_iff.mp hocc
    refine occursIn_iff.mpr ⟨before ++ front, back ++ run.after, ?_⟩
    simp only [hsplit, List.append_assoc]
  · intro hocc
    obtain ⟨before, after, rfl⟩ := occursIn_iff.mp hocc
    -- The word that goes on behind the name ends before a separator.
    have hne : name ++ after.takeWhile isIdentChar ≠ [] :=
      List.append_ne_nil_of_left_ne_nil (ne_nil_of_isIdentifier hname) _
    have hident : ∀ c ∈ name ++ after.takeWhile isIdentChar, isIdentChar c = true :=
      List.forall_mem_append.mpr
        ⟨fun c hc => isIdentChar_of_mem hname hc, List.all_eq_true.mp List.all_takeWhile⟩
    obtain ⟨run, hrun, ⟨front, hword⟩, _⟩ :=
      exists_run_of_append hne hident (head?_dropWhile isIdentChar after) before 0
    rw [List.append_assoc name, List.takeWhile_append_dropWhile, ← List.append_assoc] at hrun
    refine ⟨run.word, List.mem_map_of_mem hrun, ?_⟩
    rw [← hword, ← List.append_assoc]
    exact occursIn_iff.mpr ⟨front, _, rfl⟩

end Registrar.Text
