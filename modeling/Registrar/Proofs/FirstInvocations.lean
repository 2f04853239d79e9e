import Registrar.Proofs.Invocations

/-! Which arguments are read off a line and what is removed from it. The reading of arguments and
the removal agree on where an invocation starts and ends: they take the leftmost occurrence of the
name that blanks and parentheses follow, up to the first closing one. -/

namespace Registrar.Marker

variable {name front rest line : Text} {arguments : List Text}

/-- What is left of an argument without double quotes around it. One quote alone does not count as
a pair. -/
inductive Unquoted : Text → Text → Prop
  | quoted (inner : Text) : Unquoted ('"' :: (inner ++ ['"'])) inner
  | bare {argument : Text} :
    (∀ inner, argument ≠ '"' :: (inner ++ ['"'])) → Unquoted argument argument

/-- A line with the name first behind `front` and invoked there: blanks, the arguments in
parentheses and `rest` follow it. -/
structure FirstInvocation (name front : Text) (arguments : List Text) (rest line : Text) :
    Prop where
  spelled : ∃ gap, (∀ c ∈ gap, isBlank c = true) ∧
    line = front ++ name ++ gap ++ "(".toList ++ List.intercalate ",".toList arguments ++
      ")".toList ++ rest
  separate : ∀ argument ∈ arguments, ',' ∉ argument ∧ ')' ∉ argument
  first : ∀ before, before ++ name <+: line → front.length ≤ before.length

/-- Whether some occurrence of the name is followed by blanks and a text in parentheses. -/
def HasInvocation (name line : Text) : Prop :=
  ∃ before gap body after, (∀ c ∈ gap, isBlank c = true) ∧
    line = before ++ name ++ gap ++ "(".toList ++ body ++ ")".toList ++ after

theorem unquoted_unquote (argument : Text) : Unquoted argument argument.unquote := by
  by_cases h : ∃ inner, argument = '"' :: (inner ++ ['"'])
  · obtain ⟨inner, rfl⟩ := h
    rw [unquote_quoted]
    exact .quoted inner
  · have hbare : argument.unquote = argument := by
      unfold Text.unquote
      split
      · rename_i inner
        split
        · rename_i hlast
          obtain ⟨body, rfl⟩ := List.getLast?_eq_some_iff.mp hlast
          exact absurd ⟨body, rfl⟩ h
        · rfl
      · rfl
    rw [hbare]
    exact .bare (not_exists.mp h)

/-- The arguments are the texts between the commas, trimmed, the empty ones left out. -/
private theorem args_intercalate (h : ∀ argument ∈ arguments, ',' ∉ argument) (after : Text) :
    Invocation.args ⟨List.intercalate [','] arguments, after⟩ =
      (arguments.map Text.trim).filter fun argument => !argument.isEmpty := by
  rw [Invocation.args]
  cases arguments with
  | nil => rfl
  | cons first more => rw [Text.splitAt_intercalate (List.cons_ne_nil first more) h]

private theorem explicitName?_rel (name line : Text) :
    Option.Rel Unquoted (args name line).head? (explicitName? name line) := by
  rw [explicitName?]
  cases (args name line).head? with
  | none => exact .none
  | some argument => exact .some (unquoted_unquote argument)

/-- No invocation starts in front of the first occurrence of the name. -/
private theorem uninvoked_of_first {t : Text}
    (hfirst : ∀ before, before ++ name <+: front ++ t → front.length ≤ before.length) :
    Uninvoked name front t := by
  rintro lead back rfl hback
  rw [Option.eq_none_iff_forall_not_mem]
  intro found hfound
  obtain ⟨after, hafter, _⟩ := Option.bind_eq_some_iff.mp hfound
  have hstart : lead ++ name <+: lead ++ back ++ t := by
    rw [List.append_assoc, Text.after?_eq_some_iff.mp hafter, ← List.append_assoc]
    exact List.prefix_append _ after
  have hle := hfirst lead hstart
  have hpos := List.length_pos_iff.mpr hback
  rw [List.length_append] at hle
  omega

private theorem uninvoked_of_not_hasInvocation (h : ¬ HasInvocation name line) :
    Uninvoked name line [] := by
  rintro front back rfl _
  rw [Option.eq_none_iff_forall_not_mem]
  intro found hfound
  obtain ⟨_, gap, hgap, heq⟩ := invocationFront?_eq_some_iff.mp hfound
  refine h ⟨front, gap, found.body, found.after, hgap, ?_⟩
  rw [List.append_nil] at heq
  simp [heq]

/-- If the first occurrence of the name is an invocation, it is the leftmost one and the first one
that is removed. -/
private theorem FirstInvocation.found (h : FirstInvocation name front arguments rest line) :
    invocation? name line = some ⟨List.intercalate [','] arguments, rest⟩ ∧
      strip name line = front ++ strip name rest := by
  obtain ⟨⟨gap, hgap, rfl⟩, hseparate, hfirst⟩ := h
  have hbody : ')' ∉ List.intercalate [','] arguments :=
    Text.not_mem_intercalate (by decide) fun argument hargument => (hseparate argument hargument).2
  have hfront : invocationFront? name
      (name ++ (gap ++ ('(' :: List.intercalate [','] arguments ++ ')' :: rest))) =
        some ⟨List.intercalate [','] arguments, rest⟩ :=
    invocationFront?_eq_some_iff.mpr ⟨hbody, gap, hgap, rfl⟩
  have hline : front ++ name ++ gap ++ "(".toList ++ List.intercalate ",".toList arguments ++
      ")".toList ++ rest =
        front ++ (name ++ (gap ++ ('(' :: List.intercalate [','] arguments ++ ')' :: rest))) := by
    simp
  rw [hline] at hfirst ⊢
  have huninvoked := uninvoked_of_first hfirst
  constructor
  · rw [huninvoked.invocation?_append, invocation?_of_some hfront]
  · rw [huninvoked.strip_append, strip_of_some hfront]

/-- Invocations are read and removed exactly, whatever the name. If the first occurrence of the name
is an invocation, then its arguments are the trimmed texts between the commas that are not empty,
the first of them is the explicit name, up to a pair of quotes, and exactly the invocation is
removed before the removal goes on behind it. A line on which no occurrence is an invocation has
neither arguments nor an explicit name and stays as it is. -/
theorem invocation_read_and_removed (name : Text) :
    (∀ front arguments rest line, FirstInvocation name front arguments rest line →
      args name line = ((arguments.map Text.trim).filter fun argument => !argument.isEmpty) ∧
        Option.Rel Unquoted (args name line).head? (explicitName? name line) ∧
        strip name line = front ++ strip name rest) ∧
    ∀ line, ¬ HasInvocation name line →
      args name line = [] ∧ explicitName? name line = none ∧ strip name line = line := by
  constructor
  · intro front arguments rest line h
    obtain ⟨hfound, hstrip⟩ := h.found
    refine ⟨?_, explicitName?_rel name line, hstrip⟩
    rw [args, hfound]
    exact args_intercalate (fun argument hargument => (h.separate argument hargument).1) rest
  · intro line h
    have huninvoked := uninvoked_of_not_hasInvocation h
    have hargs : args name line = [] := by rw [args, huninvoked.invocation?_eq_none]
    refine ⟨hargs, ?_, huninvoked.strip_eq_self⟩
    rw [explicitName?, hargs]
    rfl

/-- A name that overlaps itself is invoked twice, the first time with blank arguments among the
others. On the second line a parenthesis is opened behind the name and none is closed. -/
theorem invocation_read_and_removed_twice :
    let line := "ab aba\t(\"n\" , k,, ) x ababa() y".toList
    let unclosed := "ababa) x aba (y".toList
    args "aba".toList line = ["\"n\"".toList, "k".toList] ∧
      Option.Rel Unquoted (some "\"n\"".toList) (explicitName? "aba".toList line) ∧
      strip "aba".toList line = "ab  x ab y".toList ∧
      strip "aba".toList unclosed = unclosed := by
  intro line unclosed
  have hfirst : FirstInvocation "aba".toList "ab ".toList
      ["\"n\" ".toList, " k".toList, [], " ".toList] " x ababa() y".toList line := by
    have hgap : ∀ c ∈ ['\t'], isBlank c = true := List.forall_mem_singleton.mpr (by decide)
    refine ⟨⟨['\t'], hgap, by decide⟩, by decide, fun before hbefore => ?_⟩
    have hnone : ∀ n < 3, ¬ "aba".toList <+: line.drop n := by decide
    refine Nat.le_of_not_lt fun hlt => hnone before.length hlt ?_
    obtain ⟨after, hafter⟩ := hbefore
    rw [← hafter, List.append_assoc, List.drop_left]
    exact List.prefix_append _ after
  have hunclosed : ¬ HasInvocation "aba".toList unclosed := by
    rintro ⟨before, gap, body, after, _, heq⟩
    have hopened : "(".toList.Sublist (before ++ "aba".toList ++ gap ++ "(".toList) :=
      List.sublist_append_right _ _
    have hpair := ((hopened.append (List.nil_sublist body)).append
      (List.Sublist.refl ")".toList)).append (List.nil_sublist after)
    rw [← heq] at hpair
    exact absurd hpair (by decide)
  obtain ⟨hinvoked, hkept⟩ := invocation_read_and_removed "aba".toList
  obtain ⟨hargs, hexplicit, hstrip⟩ := hinvoked _ _ _ _ hfirst
  have hread := hargs.trans (show _ = ["\"n\"".toList, "k".toList] by decide)
  rw [hread] at hexplicit
  exact ⟨hread, hexplicit, hstrip.trans (by decide +kernel), (hkept unclosed hunclosed).2.2⟩

end Registrar.Marker
