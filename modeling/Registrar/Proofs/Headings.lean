import Registrar.Heading
import Registrar.Proofs.Invocations
import Registrar.Proofs.Text.Lines

/-! Which namespaces a line opens and which class it announces. The word in front of a brace tells a
namespace from a class. -/

namespace Registrar.Heading

variable {t w : Text}

private theorem afterKeyword?_space (keyword rest : Text) :
    afterKeyword? keyword (keyword ++ ' ' :: rest) = some rest.trimStart := by
  rw [afterKeyword?, Text.after?_append]
  rfl

private theorem word?_append (h : w.isName = true) {rest : Text}
    (hrest : ∀ c ∈ rest.head?, isWordChar c = false) : word? (w ++ rest) = some (w, rest) := by
  cases w with
  | nil => exact absurd h Bool.noConfusion
  | cons c more =>
    obtain ⟨hc, hmore⟩ := Bool.and_eq_true_iff.mp h
    have hword := List.all_eq_true.mp hmore
    rw [List.cons_append, word?, if_pos hc, Text.takeWhile_append_stop hword hrest,
      Text.dropWhile_append_stop hword hrest]

def chained (ws : List Text) : Text := ws.flatMap fun w => ':' :: ':' :: w

theorem chained_cons (w : Text) (ws : List Text) :
    chained (w :: ws) = ':' :: ':' :: (w ++ chained ws) := by
  simp only [chained, List.flatMap_cons, List.cons_append]

private theorem not_mem_chained {ws : List Text} (h : ∀ w ∈ ws, w.isIdentifier = true) {c : Char}
    (hc : isIdentChar c = false) (hcolon : c ≠ ':') : c ∉ chained ws := by
  intro hmem
  obtain ⟨w, hw, hmem⟩ := List.mem_flatMap.mp hmem
  have hword := Text.not_mem_of_isIdentifier (h w hw) hc
  simp [hcolon, hword] at hmem

private theorem head?_chained_append (ws : List Text) (rest : Text) :
    ∀ c ∈ (chained ws ++ ' ' :: rest).head?, isWordChar c = false := by
  cases ws with
  | nil => exact Text.forall_head?_cons (by decide) _
  | cons w ws => exact Text.forall_head?_cons (by decide) _

private theorem chain_append {ws : List Text} (h : ∀ w ∈ ws, w.isWord = true) (rest : Text) :
    chain (chained ws ++ ' ' :: rest) = (chained ws, ' ' :: rest) := by
  induction ws with
  | nil =>
    rw [chained, List.flatMap_nil, List.nil_append, chain]
    intro _ heq
    exact absurd (List.cons.inj heq).1 (by decide)
  | cons w ws ih =>
    obtain ⟨hw, hws⟩ := List.forall_mem_cons.mp h
    obtain ⟨hne, hword⟩ := Text.isWord_iff.mp hw
    have hstop := head?_chained_append ws rest
    have hfirst : (w ++ (chained ws ++ ' ' :: rest)).head?.any isWordChar = true := by
      obtain ⟨c, more, rfl⟩ := List.exists_cons_of_ne_nil hne
      exact hword c List.mem_cons_self
    rw [chained_cons, List.cons_append, List.cons_append, List.append_assoc, chain, if_pos hfirst,
      Text.dropWhile_append_stop hword hstop,
      Text.takeWhile_append_stop hword hstop, ih hws]
    rfl

/-- What the name of a namespace looks like: a name and the words chained to it. -/
def IsChain (name : Text) : Prop :=
  ∃ first ws, name = first ++ chained ws ∧ first.isName = true ∧ ∀ w ∈ ws, w.isWord = true

private theorem isChain_of_isIdentifier {ws : List Text} (hw : w.isIdentifier = true)
    (hws : ∀ w ∈ ws, w.isIdentifier = true) : IsChain (w ++ chained ws) :=
  ⟨w, ws, rfl, Text.isName_of_isIdentifier hw, fun v hv =>
    Text.isWord_of_isName (Text.isName_of_isIdentifier (hws v hv))⟩

private theorem namespaceFront?_space {name : Text} (h : IsChain name) (rest : Text) :
    namespaceFront? ("namespace".toList ++ ' ' :: (name ++ ' ' :: '{' :: rest)) =
      some (name, rest) := by
  obtain ⟨first, ws, rfl, hfirst, hws⟩ := h
  have htrim : Text.trimStart (first ++ (chained ws ++ ' ' :: '{' :: rest)) =
      first ++ (chained ws ++ ' ' :: '{' :: rest) := by
    obtain ⟨hne, _⟩ := Text.isWord_iff.mp (Text.isWord_of_isName hfirst)
    obtain ⟨c, more, rfl⟩ := List.exists_cons_of_ne_nil hne
    exact Text.trimStart_of_head _
      (Text.isBlank_of_isWord (Text.isWord_of_isName hfirst) c List.mem_cons_self)
  rw [namespaceFront?, afterKeyword?_space, List.append_assoc, htrim, Option.bind_some,
    word?_append hfirst (head?_chained_append ws ('{' :: rest)), Option.bind_some]
  simp only [chain_append hws]
  rfl

private theorem namespacesFrom_cons_of_front {c : Char} {name rest : Text}
    (h : namespaceFront? (c :: t) = some (name, rest)) :
    namespacesFrom false (c :: t) = name :: namespacesFrom false rest := by
  rw [namespacesFrom]
  split
  · rename_i name' rest' hfound
    obtain ⟨rfl, rfl⟩ := Prod.mk.inj (Option.some.inj (hfound.symm.trans h))
    rfl
  · rename_i hfound
    exact absurd (hfound.symm.trans h) (by simp)

/-- A namespace is opened first, and what follows its brace is read as if it stood alone. -/
theorem namespaces_space_append {name : Text} (h : IsChain name) (rest : Text) :
    namespaces ("namespace".toList ++ ' ' :: (name ++ ' ' :: '{' :: rest)) =
      name :: namespaces rest :=
  namespacesFrom_cons_of_front (t := "amespace".toList ++ ' ' :: (name ++ ' ' :: '{' :: rest))
    (namespaceFront?_space h rest)

/-- Blanks in front of a text are no part of a keyword and no part of a word before one. -/
theorem namespaces_blank_append {gap : Text} (h : ∀ c ∈ gap, isBlank c = true) (t : Text) :
    namespaces (gap ++ t) = namespaces t := by
  refine Text.blank_append_eq ?_ h t
  intro c t hc
  have hne : 'n' ≠ c := (ne_of_isBlank hc (by decide)).symm
  have hnone : namespaceFront? (c :: t) = none := by
    have hkeyword : Text.after? "namespace".toList (c :: t) = none := if_neg hne
    rw [namespaceFront?, afterKeyword?, hkeyword]
    rfl
  rw [namespaces, namespacesFrom]
  split
  · rename_i hfound
    exact absurd (hfound.symm.trans hnone) (by simp)
  · rw [isWordChar_of_isBlank hc, namespaces]

/-- A line that opens one namespace, with the words chained to its name. -/
theorem namespaces_space {ws : List Text} (hw : w.isIdentifier = true)
    (hws : ∀ w ∈ ws, w.isIdentifier = true) :
    namespaces ("namespace".toList ++ ' ' :: (w ++ chained ws ++ [' ', '{'])) =
      [w ++ chained ws] := by
  rw [namespaces_space_append (isChain_of_isIdentifier hw hws), namespaces, namespacesFrom]

theorem not_mem_space {ws : List Text} (hw : w.isIdentifier = true)
    (hws : ∀ w ∈ ws, w.isIdentifier = true) {c : Char} (hc : isIdentChar c = false)
    (hspace : c ≠ ' ') (hcolon : c ≠ ':') : c ∉ "namespace".toList ++ ' ' :: (w ++ chained ws) := by
  have hkeyword := Text.not_mem_of_isIdentifier (t := "namespace".toList) (by decide) hc
  have hword := Text.not_mem_of_isIdentifier hw hc
  have hchain := not_mem_chained hws hc hcolon
  simp only [List.mem_append, List.mem_cons, not_or]
  exact ⟨hkeyword, hspace, hword, hchain⟩

theorem isClean_space {ws : List Text} (hw : w.isIdentifier = true)
    (hws : ∀ w ∈ ws, w.isIdentifier = true) :
    Text.IsClean ("namespace".toList ++ ' ' :: (w ++ chained ws ++ [' ', '{'])) := by
  have hbrace : Text.IsCode [' ', '{'] := (Text.IsCode.nil.cons (by decide)).cons (by decide)
  have hchain : Text.IsCode (chained ws ++ [' ', '{']) := by
    induction ws with
    | nil => exact hbrace
    | cons v ws ih =>
      obtain ⟨hv, hws⟩ := List.forall_mem_cons.mp hws
      rw [chained_cons, List.cons_append, List.cons_append, List.append_assoc]
      exact (((ih hws).word hv).cons (by decide)).cons (by decide)
  have hcode := ((hchain.word hw).cons (c := ' ') (by decide)).word (s := "namespace".toList)
    (by decide)
  rw [← List.append_assoc w] at hcode
  exact ⟨hcode, "namespace".toList ++ ' ' :: (w ++ chained ws ++ [' ']), '{', by simp, by decide⟩

theorem className?_class (hw : w.isIdentifier = true) {rest : Text}
    (hrest : ∀ c ∈ rest.head?, isWordChar c = false) :
    className? ("class".toList ++ ' ' :: (w ++ rest)) = some w := by
  rw [className?, afterKeyword?_space, Option.some_or, Option.bind_some,
    Text.trimStart_identifier_append hw, word?_append (Text.isName_of_isIdentifier hw) hrest]
  rfl

theorem className?_struct (hw : w.isIdentifier = true) {rest : Text}
    (hrest : ∀ c ∈ rest.head?, isWordChar c = false) :
    className? ("struct".toList ++ ' ' :: (w ++ rest)) = some w := by
  have hclass : afterKeyword? "class".toList ("struct".toList ++ ' ' :: (w ++ rest)) = none := rfl
  rw [className?, hclass, afterKeyword?_space, Option.none_or, Option.bind_some,
    Text.trimStart_identifier_append hw, word?_append (Text.isName_of_isIdentifier hw) hrest]
  rfl

/-- A keyword and the parenthesis of an invocation have no blank between them. -/
theorem afterKeyword?_invocation {keyword name : Text} (hkeyword : keyword.isIdentifier = true)
    (hname : name.isIdentifier = true) (rest : Text) :
    afterKeyword? keyword (name ++ '(' :: rest) = none := by
  rw [afterKeyword?, Option.bind_eq_none_iff]
  intro after hafter
  have heq := Text.after?_eq_some_iff.mp hafter
  cases after with
  | nil => rfl
  | cons b after =>
    refine if_neg ?_
    intro hblank
    have hb : isIdentChar b = false := by
      rw [Bool.eq_false_iff]
      intro hident
      exact absurd hblank (by simp [isBlank_of_isIdentChar hident])
    have hdrop := congrArg (List.dropWhile isIdentChar) heq
    rw [Text.dropWhile_append_stop (fun _ => Text.isIdentChar_of_mem hname)
        (Text.forall_head?_cons (by decide) _),
      Text.dropWhile_append_stop (fun _ => Text.isIdentChar_of_mem hkeyword)
        (Text.forall_head?_cons hb _)] at hdrop
    obtain rfl := (List.cons.inj hdrop).1
    exact absurd (show isBlank '(' = true from hblank) (by decide)

theorem className?_invocation {name : Text} (hname : name.isIdentifier = true) (rest : Text) :
    className? (name ++ '(' :: rest) = none := by
  rw [className?, afterKeyword?_invocation (by decide) hname,
    afterKeyword?_invocation (by decide) hname]
  rfl

private theorem exists_of_afterKeyword? {keyword rest : Text}
    (h : afterKeyword? keyword t = some rest) :
    ∃ gap, t = keyword ++ (gap ++ rest) ∧ gap ≠ [] ∧ ∀ c ∈ gap, isBlank c = true := by
  obtain ⟨u, hu, h⟩ := Option.bind_eq_some_iff.mp h
  split at h
  · rename_i hhead
    obtain rfl := Option.some.inj h
    refine ⟨u.takeWhile isBlank, ?_, ?_, List.all_eq_true.mp List.all_takeWhile⟩
    · rw [Text.after?_eq_some_iff.mp hu, Text.trimStart, List.takeWhile_append_dropWhile]
    · cases u with
      | nil => exact absurd hhead (by simp)
      | cons c u => simp [List.takeWhile_cons_of_pos (show isBlank c = true from hhead)]
  · exact absurd h (by simp)

private theorem exists_of_word? {rest : Text} (h : word? t = some (w, rest)) :
    t = w ++ rest ∧ w.isName = true := by
  cases t with
  | nil => exact absurd h (by simp [word?])
  | cons c t =>
    rw [word?] at h
    split at h
    · rename_i hc
      obtain ⟨rfl, rfl⟩ := Prod.mk.inj (Option.some.inj h)
      refine ⟨by rw [List.cons_append, List.takeWhile_append_dropWhile], ?_⟩
      exact Bool.and_eq_true_iff.mpr ⟨hc, List.all_takeWhile⟩
    · exact absurd h (by simp)

private theorem chain_spec (t : Text) : t = (chain t).1 ++ (chain t).2 ∧
    ∃ ws, (chain t).1 = chained ws ∧ ∀ w ∈ ws, w.isWord = true := by
  fun_induction chain t with
  | case1 rest hword more after heq ih =>
    rw [heq] at ih
    obtain ⟨hrest, ws, rfl, hws⟩ := ih
    refine ⟨?_, rest.takeWhile isWordChar :: ws, ?_, ?_⟩
    · simp only [List.cons_append, List.append_assoc, List.cons.injEq, true_and]
      rw [← hrest, List.takeWhile_append_dropWhile]
    · rw [chained_cons, List.cons_append, List.cons_append]
    · exact List.forall_mem_cons.mpr ⟨Text.isWord_takeWhile hword, hws⟩
  | case2 => exact ⟨rfl, [], rfl, by simp⟩
  | case3 => exact ⟨rfl, [], rfl, by simp⟩

private theorem IsChain.ne_nil {name : Text} (h : IsChain name) : name ≠ [] := by
  obtain ⟨first, ws, rfl, hfirst, _⟩ := h
  have hne := (Text.isWord_iff.mp (Text.isWord_of_isName hfirst)).1
  exact List.append_ne_nil_of_left_ne_nil hne _

private theorem IsChain.not_isBlank {name : Text} (h : IsChain name) :
    ∀ c ∈ name, isBlank c = false := by
  obtain ⟨first, ws, rfl, hfirst, hws⟩ := h
  intro c hc
  rcases List.mem_append.mp hc with hc | hc
  · exact Text.isBlank_of_isWord (Text.isWord_of_isName hfirst) c hc
  · obtain ⟨w, hw, hc⟩ := List.mem_flatMap.mp hc
    simp only [List.mem_cons] at hc
    rcases hc with rfl | rfl | hc
    · decide
    · decide
    · exact Text.isBlank_of_isWord (hws w hw) c hc

/-- A namespace opens where the keyword, blanks, its name and a brace follow one another, with
blanks or nothing before the brace. -/
theorem exists_of_namespaceFront? {name after : Text} (h : namespaceFront? t = some (name, after)) :
    ∃ gap gap', t = "namespace".toList ++ gap ++ name ++ gap' ++ '{' :: after ∧
      gap ≠ [] ∧ (∀ c ∈ gap, isBlank c = true) ∧ IsChain name ∧ ∀ c ∈ gap', isBlank c = true := by
  obtain ⟨u, hu, hword⟩ := Option.bind_eq_some_iff.mp h
  obtain ⟨⟨first, v⟩, hv, hname⟩ := Option.bind_eq_some_iff.mp hword
  obtain ⟨gap, rfl, hgap, hblank⟩ := exists_of_afterKeyword? hu
  obtain ⟨rfl, hfirst⟩ := exists_of_word? hv
  obtain ⟨hsplit, ws, hchain, hws⟩ := chain_spec v
  simp only at hname
  split at hname
  · rename_i after' htrim
    obtain ⟨rfl, rfl⟩ := Prod.mk.inj (Option.some.inj hname)
    refine ⟨gap, (chain v).2.takeWhile isBlank, ?_, hgap, hblank,
      ⟨first, ws, by rw [hchain], hfirst, hws⟩, List.all_eq_true.mp List.all_takeWhile⟩
    have hgap' : (chain v).2 = (chain v).2.takeWhile isBlank ++ '{' :: after' := by
      rw [← htrim, Text.trimStart, List.takeWhile_append_dropWhile]
    simp only [List.append_assoc]
    rw [← hgap', ← hsplit]
  · exact absurd hname (by simp)

private theorem exists_of_mem_namespacesFrom {inWord : Bool} {name : Text}
    (h : name ∈ namespacesFrom inWord t) :
    ∃ before found after, t = before ++ found ∧ namespaceFront? found = some (name, after) := by
  fun_induction namespacesFrom inWord t with
  | case1 => exact absurd h (by simp)
  | case2 inWord c t name' rest hfound ih =>
    split at hfound
    · exact absurd hfound (by simp)
    · rcases List.mem_cons.mp h with rfl | h
      · exact ⟨[], c :: t, rest, rfl, hfound⟩
      · obtain ⟨before, found, after, rfl, hname⟩ := ih h
        obtain ⟨gap, gap', heq, _⟩ := exists_of_namespaceFront? hfound
        refine ⟨"namespace".toList ++ gap ++ name' ++ gap' ++ '{' :: before, found, after, ?_,
          hname⟩
        rw [heq]
        simp only [List.append_assoc, List.cons_append]
  | case3 inWord c t _ ih =>
    obtain ⟨before, found, after, rfl, hname⟩ := ih h
    exact ⟨c :: before, found, after, rfl, hname⟩

theorem isChain_of_mem_namespaces {name : Text} (h : name ∈ namespaces t) : IsChain name := by
  obtain ⟨before, found, after, _, hfound⟩ := exists_of_mem_namespacesFrom h
  obtain ⟨gap, gap', _, _, _, hchain, _⟩ := exists_of_namespaceFront? hfound
  exact hchain

theorem isName_of_className? (h : className? t = some w) : w.isName = true := by
  obtain ⟨rest, _, hname⟩ := Option.bind_eq_some_iff.mp h
  obtain ⟨⟨name, after⟩, hword, rfl⟩ := Option.map_eq_some_iff.mp hname
  exact (exists_of_word? hword).2

/-- A line without a brace opens no namespace. -/
theorem namespaces_of_not_mem (h : '{' ∉ t) : namespaces t = [] := by
  rw [List.eq_nil_iff_forall_not_mem]
  intro name hname
  obtain ⟨before, found, after, rfl, hfound⟩ := exists_of_mem_namespacesFrom hname
  obtain ⟨gap, gap', rfl, _⟩ := exists_of_namespaceFront? hfound
  exact h (by simp)

private theorem forall_head?_append {P : Char → Prop} (hne : w ≠ []) (h : ∀ c ∈ w, P c)
    (rest : Text) : ∀ c ∈ (w ++ rest).head?, P c := by
  cases w with
  | nil => exact absurd rfl hne
  | cons d w => exact Text.forall_head?_cons (h d (List.mem_cons_self ..)) _

private theorem eq_of_append_last {front front' : Text} {c : Char} (hc : c ∉ front) (rest : Text)
    (h : front ++ [c] = front' ++ c :: rest) : front = front' := by
  rcases List.append_eq_append_iff.mp h with ⟨a, rfl, ha⟩ | ⟨a, rfl, ha⟩
  · cases a with
    | nil => exact (List.append_nil _).symm
    | cons d a => exact absurd (congrArg List.length ha) (by simp)
  · cases a with
    | nil => exact List.append_nil _
    | cons d a =>
      obtain rfl := (List.cons.inj ha).1
      exact absurd (by simp) hc

/-- What stands in front of the last word of a text, backwards. -/
def beforeLastWord (t : Text) : Text :=
  ((t.reverse.dropWhile isBlank).dropWhile fun c => !isBlank c).dropWhile isBlank

private theorem beforeLastWord_append {front gap word tail : Text} (hgap : gap ≠ [])
    (hgapBlank : ∀ c ∈ gap, isBlank c = true) (hword : word ≠ [])
    (hwordBlank : ∀ c ∈ word, isBlank c = false) (htail : ∀ c ∈ tail, isBlank c = true)
    (hfront : ∀ c ∈ front.getLast?, isBlank c = false) :
    beforeLastWord (front ++ gap ++ word ++ tail) = front.reverse := by
  have hgapHead : ∀ c ∈ (gap.reverse ++ front.reverse).head?, isBlank c = true :=
    forall_head?_append (by simpa using hgap) (by simpa using hgapBlank) _
  have hwordHead : ∀ c ∈ (word.reverse ++ (gap.reverse ++ front.reverse)).head?,
      isBlank c = false :=
    forall_head?_append (by simpa using hword) (by simpa using hwordBlank) _
  rw [beforeLastWord]
  simp only [List.reverse_append, List.append_assoc]
  rw [Text.dropWhile_append_stop (fun c hc => htail c (List.mem_reverse.mp hc)) hwordHead,
    Text.dropWhile_append_stop
      (fun c hc => by simp [hwordBlank c (List.mem_reverse.mp hc)])
      (fun c hc => by simp [hgapHead c hc]),
    Text.dropWhile_append_stop (fun c hc => hgapBlank c (List.mem_reverse.mp hc))
      (by simpa using hfront)]

/-- The head of a class opens no namespace, whatever stands in front of it: the only brace follows
the name of the class, and the word before that is not `namespace`. -/
theorem namespaces_of_keyword {front : Text} {k : Char} (hw : w.isIdentifier = true)
    (hbrace : '{' ∉ front ++ [k]) (hk : isBlank k = false) (hne : k ≠ 'e') :
    namespaces (front ++ k :: ' ' :: (w ++ [' ', '{'])) = [] := by
  rw [List.eq_nil_iff_forall_not_mem]
  intro name hname
  obtain ⟨before, found, after, hline, hfound⟩ := exists_of_mem_namespacesFrom hname
  obtain ⟨gap, gap', rfl, hgap, hgapBlank, hchain, hgap'⟩ := exists_of_namespaceFront? hfound
  have hbare : '{' ∉ front ++ [k] ++ [' '] ++ w ++ [' '] := by
    have hword := Text.not_mem_of_isIdentifier hw (c := '{') (by decide)
    simp only [List.mem_append, not_or] at hbrace ⊢
    exact ⟨⟨⟨hbrace, by decide⟩, hword⟩, by decide⟩
  have hfront : front ++ [k] ++ [' '] ++ w ++ [' '] =
      before ++ "namespace".toList ++ gap ++ name ++ gap' := by
    apply eq_of_append_last hbare after
    simpa using hline
  have hsingle : ∀ c ∈ [' '], isBlank c = true := List.forall_mem_singleton.mpr (by decide)
  have hwordBlank : ∀ c ∈ w, isBlank c = false := fun c hc =>
    isBlank_of_isIdentChar (Text.isIdentChar_of_mem hw hc)
  have hclass : beforeLastWord (front ++ [k] ++ [' '] ++ w ++ [' ']) = (front ++ [k]).reverse :=
    beforeLastWord_append (by simp) hsingle (Text.ne_nil_of_isIdentifier hw) hwordBlank hsingle
      (by simpa using hk)
  have hspace : beforeLastWord (before ++ "namespace".toList ++ gap ++ name ++ gap') =
      (before ++ "namespace".toList).reverse :=
    beforeLastWord_append hgap hgapBlank hchain.ne_nil hchain.not_isBlank hgap' (by simp; decide)
  rw [hfront, hspace] at hclass
  have hlast := congrArg List.head? hclass
  exact hne (by simpa using hlast.symm)

end Registrar.Heading
