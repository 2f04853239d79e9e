import Registrar.Proofs.Invocations

/-! Skipping the invocations at the front of a text. The skipping searches the leftmost invocation
again and again and goes on behind it while it stands at the front. It comes to an end for every
name, the empty one included, and passes whole invocations and the blanks around them, as many as
there are. -/

namespace Registrar.Marker

variable {name t : Text}

/-- How an invocation is written behind its name: blanks, a text in parentheses, and the blanks that
follow it. -/
structure Spelled where
  gap : Text
  body : Text
  tail : Text
  isBlank_gap : ∀ c ∈ gap, isBlank c = true
  not_mem_body : ')' ∉ body
  isBlank_tail : ∀ c ∈ tail, isBlank c = true

def Spelled.text (name : Text) (invocation : Spelled) : Text :=
  name ++ (invocation.gap ++ ('(' :: invocation.body ++ ')' :: invocation.tail))

def spell (name : Text) (invocations : List Spelled) : Text :=
  invocations.flatMap (Spelled.text name)

/-- What a text is left with when the blanks and the given invocations at its front are passed, and
no other one follows. -/
structure Passes (name t : Text) (passed : List Spelled) (rest : Text) : Prop where
  text_eq : ∃ lead, (∀ c ∈ lead, isBlank c = true) ∧ t = lead ++ (spell name passed ++ rest)
  isBlank_head : ∀ c ∈ rest.head?, isBlank c = false
  not_invoked : ∀ invocation : Spelled, ¬ invocation.text name <+: rest

def search? (name : Text) : Text → Option (Text × Invocation)
  | [] => none
  | c :: t =>
    match invocationFront? name (c :: t) with
    | some found => some ([], found)
    | none => (search? name t).map fun (before, found) => (c :: before, found)

/-- The search finds the invocation whose arguments are read. -/
theorem map_snd_search? (name t : Text) : (search? name t).map Prod.snd = invocation? name t := by
  induction t with
  | nil => rfl
  | cons c t ih =>
    rw [search?, invocation?]
    cases invocationFront? name (c :: t) with
    | some found => rfl
    | none =>
      rw [Option.none_or, ← ih, Option.map_map]
      rfl

/-- The leftmost invocation has nothing in front of it exactly if it is the one at the front. -/
private theorem search?_eq_some_nil_iff {found : Invocation} :
    search? name t = some ([], found) ↔ invocationFront? name t = some found := by
  cases t with
  | nil =>
    constructor
    · exact nofun
    · exact fun h => absurd (invocationFront?_length h) (Nat.not_lt_zero _)
  | cons c t =>
    rw [search?]
    cases invocationFront? name (c :: t) with
    | some first => simp
    | none => simp

/-- The text that is reached by at most so many searches: each one goes on behind the leftmost
invocation and the blanks that follow it, until none stands at the front. Nothing if the searches do
not suffice. -/
def skipWithin? (name : Text) : Nat → Text → Option Text
  | 0, _ => none
  | searches + 1, t =>
    match search? name t with
    | some ([], found) => skipWithin? name searches found.after.trimStart
    | _ => some t

private theorem skipWithin?_of_some {found : Invocation} (h : invocationFront? name t = some found)
    (searches : Nat) :
    skipWithin? name (searches + 1) t = skipWithin? name searches found.after.trimStart := by
  rw [skipWithin?, search?_eq_some_nil_iff.mpr h]

private theorem skipWithin?_of_none (h : invocationFront? name t = none) (searches : Nat) :
    skipWithin? name (searches + 1) t = some t := by
  rw [skipWithin?]
  split
  · rename_i found hfound
    exact absurd (search?_eq_some_nil_iff.mp hfound) (by simp [h])
  · rfl

private theorem length_mul_le_length_spell (name : Text) (invocations : List Spelled) :
    invocations.length * (name.length + 2) ≤ (spell name invocations).length := by
  induction invocations with
  | nil => simp [spell]
  | cons first more ih =>
    have hfirst : name.length + 2 ≤ (first.text name).length := by simp [Spelled.text]; omega
    rw [spell, List.flatMap_cons, List.length_append, List.length_cons, Nat.succ_mul]
    rw [spell] at ih
    omega

private theorem spell_eq_nil_iff {invocations : List Spelled} :
    spell name invocations = [] ↔ invocations = [] := by
  cases invocations with
  | nil => simp [spell]
  | cons first more => simp [spell, Spelled.text]

private theorem isBlank_head?_skipLeading (name t : Text) :
    ∀ c ∈ (skipLeading name t).head?, isBlank c = false := by
  fun_induction skipLeading name t with
  | case1 t found hfound ih => exact ih
  | case2 t hnone => exact Text.head?_dropWhile isBlank t

private theorem invocationFront?_skipLeading (name t : Text) :
    invocationFront? name (skipLeading name t) = none := by
  fun_induction skipLeading name t with
  | case1 t found hfound ih => exact ih
  | case2 t hnone => exact hnone

private theorem not_isPrefix_of_invocationFront? (h : invocationFront? name t = none)
    (invocation : Spelled) : ¬ invocation.text name <+: t := by
  rintro ⟨after, rfl⟩
  have hfront : invocationFront? name (invocation.text name ++ after) =
      some ⟨invocation.body, invocation.tail ++ after⟩ :=
    invocationFront?_eq_some_iff.mpr
      ⟨invocation.not_mem_body, invocation.gap, invocation.isBlank_gap, by simp [Spelled.text]⟩
  rw [h] at hfront
  exact nomatch hfront

/-- Behind the first blanks stand the passed invocations, and there is one search for each of them
and one that ends the skipping. -/
private theorem exists_trimStart_eq_spell (name t : Text) :
    ∃ passed, t.trimStart = spell name passed ++ skipLeading name t ∧
      ∀ searches, skipWithin? name searches t.trimStart =
        if passed.length < searches then some (skipLeading name t) else none := by
  fun_induction skipLeading name t with
  | case1 t found hfound ih =>
    obtain ⟨passed, htrim, hsearches⟩ := ih
    obtain ⟨hbody, gap, hgap, hfront⟩ := invocationFront?_eq_some_iff.mp hfound
    have htail : ∀ c ∈ found.after.takeWhile isBlank, isBlank c = true :=
      List.all_eq_true.mp List.all_takeWhile
    have hafter : found.after.takeWhile isBlank ++ found.after.trimStart = found.after :=
      List.takeWhile_append_dropWhile
    refine ⟨⟨gap, found.body, found.after.takeWhile isBlank, hgap, hbody, htail⟩ :: passed, ?_, ?_⟩
    · calc t.trimStart
          = name ++ (gap ++ ('(' :: found.body ++ ')' :: found.after)) := hfront
        _ = name ++ (gap ++ ('(' :: found.body ++
              ')' :: (found.after.takeWhile isBlank ++ found.after.trimStart))) := by rw [hafter]
        _ = _ := by
          rw [htrim]
          simp [spell, Spelled.text]
    · rintro (_ | searches)
      · rfl
      · rw [skipWithin?_of_some hfound, hsearches, List.length_cons]
        simp only [Nat.add_lt_add_iff_right]
  | case2 t hnone =>
    refine ⟨[], rfl, ?_⟩
    rintro (_ | searches)
    · rfl
    · rw [skipWithin?_of_none hnone]
      exact (if_pos (Nat.succ_pos searches)).symm

/-- Skipping is exact and always ends. What is removed from the front of a text is blanks and whole
invocations with the blanks behind them, and what is left starts with neither. It takes one search
for each passed invocation and one that ends it, and every invocation takes up the name and two
parentheses of the text. The rest is shorter than the text without its first blanks, in bytes as in
characters, exactly if an invocation was passed. -/
theorem skipLeading_passes_invocations (name t : Text) :
    ∃ passed : List Spelled, Passes name t passed (skipLeading name t) ∧
      (∀ searches, skipWithin? name searches t.trimStart =
        if passed.length < searches then some (skipLeading name t) else none) ∧
      passed.length * (name.length + 2) ≤ t.length ∧
      ((skipLeading name t).byteLength < t.trimStart.byteLength ↔ passed ≠ []) ∧
      ((skipLeading name t).length < t.trimStart.length ↔ passed ≠ []) := by
  obtain ⟨passed, htrim, hsearches⟩ := exists_trimStart_eq_spell name t
  have hlead : ∀ c ∈ t.takeWhile isBlank, isBlank c = true :=
    List.all_eq_true.mp List.all_takeWhile
  have hsplit : t = t.takeWhile isBlank ++ (spell name passed ++ skipLeading name t) := by
    rw [← htrim]
    exact List.takeWhile_append_dropWhile.symm
  refine ⟨passed, ⟨⟨_, hlead, hsplit⟩, isBlank_head?_skipLeading name t,
    not_isPrefix_of_invocationFront? (invocationFront?_skipLeading name t)⟩, hsearches, ?_, ?_, ?_⟩
  · have hcount := length_mul_le_length_spell name passed
    have htotal := congrArg List.length htrim
    rw [List.length_append] at htotal
    have hle := Text.trimStart_length_le t
    omega
  · rw [htrim, Text.byteLength_append, Nat.lt_add_left_iff_pos, Nat.pos_iff_ne_zero, Ne,
      Text.byteLength_eq_zero_iff, spell_eq_nil_iff]
  · rw [htrim, List.length_append, Nat.lt_add_left_iff_pos, List.length_pos_iff, Ne,
      spell_eq_nil_iff]

/-- The empty name is invoked by parentheses alone, with the blanks in front of them. -/
example : skipLeading [] " (a)\t( b\n) x()".toList = "x()".toList := by decide +kernel

end Registrar.Marker
