import Registrar.Proofs.Text.Numbers

/-! Which identifiers a line declares. Whatever is found is an identifier, and no line declares both
a data member and a function. A declaration of two words names the second one, whatever blanks stand
in front of the first. -/

namespace Registrar

namespace Declaration

variable {line head lead type name : Text} {c : Char}

theorem isIdentifier_of_identifier? {kind : BindingKind} (h : identifier? kind line = some name) :
    name.isIdentifier = true := by
  cases kind with
  | member =>
    rw [identifier?, memberIdentifier?] at h
    split at h
    · exact absurd h (by simp)
    · obtain ⟨run, hrun, rfl⟩ := Option.map_eq_some_iff.mp h
      exact Text.isIdentifier_of_mem_identifiers (List.mem_of_getLast? hrun)
  | function =>
    obtain ⟨hname, _⟩ := Option.filter_eq_some_iff.mp h
    obtain ⟨run, hrun, rfl⟩ := Option.map_eq_some_iff.mp hname
    exact Text.isIdentifier_of_mem_identifiers (List.mem_of_find?_eq_some hrun)

private theorem not_mem_of_memberIdentifier? (h : memberIdentifier? line = some name) :
    '(' ∉ line := by
  rw [memberIdentifier?] at h
  split at h
  · exact absurd h (by simp)
  · rename_i hcall
    exact fun hmem => hcall (List.contains_iff_mem.mpr hmem)

private theorem mem_of_functionIdentifier? (h : functionIdentifier? line = some name) :
    '(' ∈ line := by
  obtain ⟨hname, _⟩ := Option.filter_eq_some_iff.mp h
  obtain ⟨run, hrun, rfl⟩ := Option.map_eq_some_iff.mp hname
  have hcalled : isCalled run = true := List.find?_some hrun
  have hrun : run ∈ Text.runsFrom 0 line := (List.mem_filter.mp (List.mem_of_find?_eq_some hrun)).1
  obtain ⟨_, _, _, before, rfl⟩ := Text.of_mem_runsFrom hrun
  have hmem : '(' ∈ run.after :=
    (List.dropWhile_sublist _).mem (List.mem_of_mem_head? (eq_of_beq hcalled))
  exact List.mem_append_right _ (List.mem_append_right _ hmem)

/-- A line does not declare a data member and a function at once: the one must not hold a
parenthesis, the other has to. -/
theorem identifier?_exclusive (line : Text) :
    identifier? .member line = none ∨ identifier? .function line = none := by
  cases hmember : identifier? .member line with
  | none => exact Or.inl rfl
  | some member =>
    right
    rw [Option.eq_none_iff_forall_not_mem]
    intro function hfunction
    exact not_mem_of_memberIdentifier? hmember (mem_of_functionIdentifier? hfunction)

theorem memberIdentifier?_eq (h : '(' ∉ line) :
    memberIdentifier? line = line.blankLiterals.blankNumbers.names.getLast? := by
  have hcall : ¬ line.contains '(' = true := fun hmem => h (List.contains_iff_mem.mp hmem)
  rw [memberIdentifier?, if_neg hcall, Text.names, List.getLast?_map]

/-- A line declares the last name behind a character that ends a number, or else what is declared in
front of it. -/
theorem memberIdentifier?_append_cons (rest : Text) (hhead : head.IsPlain) (hc : Text.EndsNumber c)
    (hplain : Text.IsPlain [c]) (hrest : '(' ∉ rest) (hdigits : rest.blankLiterals.HasAsciiDigits) :
    memberIdentifier? (head ++ c :: rest) =
      rest.blankLiterals.names.getLast?.or (memberIdentifier? head) := by
  obtain ⟨hcall, hhead⟩ := hhead.ne
  obtain ⟨hcallc, hquotes⟩ := hplain.ne
  have hident : isIdentChar c = false := by
    rw [Bool.eq_false_iff]
    intro hident
    exact absurd hc.not_word (by simp [isWordChar_of_isIdentChar hident])
  have hline : '(' ∉ head ++ c :: rest := by
    simpa [hcall, hrest] using hcallc
  rw [memberIdentifier?_eq hline, memberIdentifier?_eq hcall,
    Text.blankLiterals_append_of_plain hhead, Text.blankLiterals_of_plain hhead,
    Text.blankLiterals_cons (hquotes c (List.mem_singleton_self c)), Text.blankNumbers,
    hc.blankNumbersFrom, Text.names_append _ (Text.forall_head?_cons hident _),
    Text.names_separator hident, Text.blankNumbers, (Text.names_blankNumbersFrom hdigits false).1,
    List.getLast?_append, Text.blankNumbers]

theorem identifier?_nil (kind : BindingKind) : identifier? kind [] = none := by
  cases kind with
  | member => decide +kernel
  | function => rfl

theorem memberIdentifier?_two (hlead : ∀ c ∈ lead, c = ' ') (htype : type.isIdentifier = true)
    (hname : name.isIdentifier = true) :
    memberIdentifier? (lead ++ (type ++ ' ' :: (name ++ [';']))) = some name := by
  have hplain : ∀ {word : Text}, word.isIdentifier = true → word.IsPlain := fun hword =>
    Text.isPlain_of_isIdentChar fun _ hc => Text.isIdentChar_of_mem hword hc
  have hspace : Text.IsPlain [' '] := by decide
  have hhead : Text.IsPlain (lead ++ type) := by
    refine .append (fun c hc => ?_) (hplain htype)
    rw [hlead c hc]
    exact hspace ' ' (List.mem_singleton_self ' ')
  have htail : Text.IsPlain (name ++ [';']) := (hplain hname).append (by decide)
  have hdigits : Text.HasAsciiDigits (name ++ [';']) := by
    refine List.forall_mem_append.mpr ⟨Text.hasAsciiDigits_of_ascii ?_, ?_⟩
    · exact fun c hc => toNat_lt_of_isIdentChar (Text.isIdentChar_of_mem hname hc)
    · exact Text.hasAsciiDigits_of_ascii (List.forall_mem_singleton.mpr (by decide))
  rw [← List.append_assoc, memberIdentifier?_append_cons (name ++ [';']) hhead
      ⟨by decide, by decide, by decide⟩ hspace htail.ne.1
      (by rwa [Text.blankLiterals_of_plain htail.ne.2]),
    Text.blankLiterals_of_plain htail.ne.2,
    Text.names_append name (Text.forall_head?_cons (by decide) []), Text.names_identifier hname]
  rfl

theorem functionIdentifier?_two (hlead : ∀ c ∈ lead, c = ' ') (htype : type.isIdentifier = true)
    (hname : name.isIdentifier = true) (hcontrol : name ∉ controlKeywords) :
    functionIdentifier? (lead ++ (type ++ ' ' :: (name ++ ['(', ')', ';']))) = some name := by
  obtain ⟨m, n, hruns⟩ := Text.identifiers_two lead ['(', ')', ';']
    (fun c hc => by rw [hlead c hc]; decide) htype hname (by decide)
  have hfirst : isCalled ⟨type, m, ' ' :: (name ++ ['(', ')', ';'])⟩ = false := by
    have htrim : Text.trimStart (' ' :: (name ++ ['(', ')', ';'])) = name ++ ['(', ')', ';'] :=
      Text.trimStart_identifier_append hname _
    obtain ⟨c, rest, rfl, hc, _⟩ := Text.exists_of_isIdentifier hname
    have hne : c ≠ '(' := ne_of_isIdentChar (isIdentChar_of_isIdentStart hc) (by decide)
    rw [isCalled, htrim]
    simpa using hne
  have hsecond : isCalled ⟨name, n, ['(', ')', ';']⟩ = true := rfl
  have hkept : (!controlKeywords.contains name) = true := by simpa using hcontrol
  rw [functionIdentifier?, hruns, List.find?_cons_of_neg (by simp [hfirst]),
    List.find?_cons_of_pos hsecond, Option.map_some, Option.filter_some, if_pos hkept]

/-- A line that starts with a word is looked past only if the word is an access specifier. -/
theorem isTransparent_two (htype : type.isIdentifier = true) (haccess : type ∉ accessSpecifiers)
    {rest : Text} {c : Char} (hc : isBlank c = false) :
    isTransparent (type ++ ' ' :: (rest ++ [c])) = false := by
  have htrim : Text.trim (type ++ ' ' :: (rest ++ [c])) = type ++ ' ' :: (rest ++ [c]) := by
    have happend : type ++ ' ' :: (rest ++ [c]) = (type ++ ' ' :: rest) ++ [c] := by simp
    rw [Text.trim, Text.trimStart_identifier_append htype, happend,
      Text.trimEnd_append_singleton _ hc]
  have hspecifier : ∀ keyword ∈ accessSpecifiers, keyword.isIdentifier = true := by decide
  have haccess : startsWithAccess (type ++ ' ' :: (rest ++ [c])) = false := by
    rw [startsWithAccess, List.any_eq_false]
    intro keyword hkeyword
    split
    · rename_i after hafter
      intro hapart
      have hstop : ∀ c ∈ after.head?, isIdentChar c = false := by
        intro c hc
        simpa [Option.mem_def.mp hc] using hapart
      have hwords := congrArg (List.takeWhile isIdentChar) (Text.after?_eq_some_iff.mp hafter)
      rw [Text.takeWhile_append_stop (fun _ => Text.isIdentChar_of_mem htype)
          (Text.forall_head?_cons (by decide) _),
        Text.takeWhile_append_stop
          (fun _ => Text.isIdentChar_of_mem (hspecifier keyword hkeyword)) hstop] at hwords
      exact haccess (hwords ▸ hkeyword)
    · exact Bool.false_ne_true
  obtain ⟨d, more, rfl, hd, _⟩ := Text.exists_of_isIdentifier htype
  have hhash : d ≠ '#' := ne_of_isIdentChar (isIdentChar_of_isIdentStart hd) (by decide)
  simp only [isTransparent, htrim, haccess]
  simpa using hhash

end Declaration

end Registrar
