import Registrar.Proofs.ScopeDepth

/-! Namespaces opened on one line. Every one of them is given the depth of the outermost body, so
they all stay open until the last of their braces is closed, and then close at once. Namespaces that
are opened on lines of their own close one by one. -/

namespace Registrar

namespace Heading

def opener (name : Text) : Text := "namespace".toList ++ ' ' :: (name ++ [' ', '{'])

def openers (names : List Text) : Text := List.intercalate [' '] (names.map opener)

variable {name : Text} {names : List Text}

private theorem opener_append (name rest : Text) :
    opener name ++ rest = "namespace".toList ++ ' ' :: (name ++ ' ' :: '{' :: rest) := by
  unfold opener
  simp only [List.append_assoc, List.cons_append, List.nil_append]

private theorem openers_singleton (name : Text) : openers [name] = opener name :=
  List.intercalate_singleton

private theorem openers_cons_cons (name next : Text) (more : List Text) :
    openers (name :: next :: more) = opener name ++ ' ' :: openers (next :: more) := by
  simp only [openers, List.map_cons, List.intercalate_cons_cons, List.append_assoc,
    List.singleton_append]

private theorem namespaces_openers (h : ∀ name ∈ names, IsChain name) :
    namespaces (openers names) = names := by
  induction names with
  | nil => rw [openers, List.map_nil, List.intercalate_nil, namespaces, namespacesFrom]
  | cons name names ih =>
    obtain ⟨hname, hmore⟩ := List.forall_mem_cons.mp h
    have hfront : ∀ rest, namespaces (opener name ++ rest) = name :: namespaces rest := by
      intro rest
      rw [opener_append, namespaces_space_append hname]
    cases names with
    | nil =>
      rw [openers_singleton, ← List.append_nil (opener name), hfront, namespaces, namespacesFrom]
    | cons next more =>
      have hspace : ∀ c ∈ [' '], isBlank c = true := List.forall_mem_singleton.mpr (by decide)
      have hblank := namespaces_blank_append hspace (openers (next :: more))
      rw [List.singleton_append] at hblank
      rw [openers_cons_cons, hfront, hblank, ih hmore]

private theorem IsChain.not_mem (h : IsChain name) {c : Char} (hc : isWordChar c = false)
    (hcolon : c ≠ ':') : c ∉ name := by
  obtain ⟨first, ws, rfl, hfirst, hws⟩ := h
  have hword := Text.not_mem_of_isWord (Text.isWord_of_isName hfirst) hc
  have hchain : c ∉ chained ws := by
    intro hmem
    obtain ⟨w, hw, hmem⟩ := List.mem_flatMap.mp hmem
    have := Text.not_mem_of_isWord (hws w hw) hc
    simp [hcolon, this] at hmem
  simp [hword, hchain]

/-- The only separators on the line are blanks, colons and one brace for each namespace. -/
private theorem count_openers (h : ∀ name ∈ names, IsChain name) {c : Char}
    (hc : isWordChar c = false) (hcolon : c ≠ ':') (hspace : c ≠ ' ') :
    (openers names).count c = names.length * ['{'].count c := by
  have hopener : ∀ name, IsChain name → (opener name).count c = ['{'].count c := by
    intro name hname
    have hkeyword : c ∉ "namespace".toList :=
      Text.not_mem_of_isWord (t := "namespace".toList) (by decide) hc
    unfold opener
    simp only [List.count_append, List.count_cons_of_ne (Ne.symm hspace),
      List.count_eq_zero.mpr hkeyword, List.count_eq_zero.mpr (hname.not_mem hc hcolon),
      Nat.zero_add]
  induction names with
  | nil => simp [openers]
  | cons name names ih =>
    obtain ⟨hname, hmore⟩ := List.forall_mem_cons.mp h
    cases names with
    | nil => rw [openers_singleton, hopener name hname, List.length_singleton, Nat.one_mul]
    | cons next more =>
      rw [openers_cons_cons, List.count_append, List.count_cons_of_ne (Ne.symm hspace),
        hopener name hname, ih hmore, List.length_cons (a := name), Nat.succ_mul, Nat.add_comm]

private theorem ofLine_openers (h : ∀ name ∈ names, IsChain name) :
    Braces.ofLine (openers names) = ⟨names.length, 0⟩ := by
  rw [Braces.ofLine, count_openers h (by decide) (by decide) (by decide),
    count_openers h (by decide) (by decide) (by decide)]
  simp

private theorem heading?_openers (h : ∀ name ∈ names, IsChain name) (marker : Text) :
    heading? marker (openers names) = none := by
  have hparen : '(' ∉ openers names := by
    rw [← List.count_eq_zero, count_openers h (by decide) (by decide) (by decide)]
    rfl
  have hnone : className? (openers names).trimStart = none := by
    match names with
    | [] => rfl
    | [name] =>
      rw [openers_singleton]
      rfl
    | name :: next :: more =>
      rw [openers_cons_cons]
      rfl
  rw [heading?, Marker.skipLeading_of_not_mem hparen, hnone]
  rfl

end Heading

namespace Progress

variable {marker header : Text} {progress : Progress} {names : List Text}

/-- What is left of the scopes at another depth. -/
def sink (depth : Int) (progress : Progress) : Progress :=
  { progress with scopes := { progress.scopes with
      depth
      namespaces := progress.scopes.namespaces.filter fun frame => frame.bodyDepth ≤ depth
      classes := progress.scopes.classes.filter fun frame => frame.bodyDepth ≤ depth } }

private theorem sink_sink {lower depth : Int} (h : lower ≤ depth) :
    (progress.sink depth).sink lower = progress.sink lower := by
  have hboth : ∀ body : Int, (decide (body ≤ lower) && decide (body ≤ depth)) =
      decide (body ≤ lower) := by
    intro body
    rw [← Bool.decide_and]
    exact decide_eq_decide.mpr ⟨fun hb => hb.1, fun hb => ⟨hb, Int.le_trans hb h⟩⟩
  simp only [sink, List.filter_filter, hboth]

private theorem filter_of_le {α : Type} {depthOf : α → Int} {depth : Int} {frames : List α}
    (h : ∀ frame ∈ frames, depthOf frame ≤ depth) :
    (frames.filter fun frame => depthOf frame ≤ depth) = frames :=
  List.filter_eq_self.mpr fun frame hframe => decide_eq_true (h frame hframe)

private theorem Nested.sink_self (h : Nested progress.scopes.depth progress) :
    progress.sink progress.scopes.depth = progress := by
  simp only [sink, filter_of_le h.namespaces_le, filter_of_le h.classes_le]

/-- A brace on a line of its own closes what is too deep and does nothing else. -/
private theorem Nested.track_brace (h : Nested progress.scopes.depth progress)
    (marker header : Text) :
    progress.track marker header ['}'] = progress.sink (progress.scopes.depth - 1) := by
  have hhead : heading? marker ['}'] = none := by
    rw [heading?, Marker.skipLeading_of_not_mem (by decide)]
    rfl
  have hheadings : progress.scopes.headings marker ['}'] = (none, progress.scopes.pending) := by
    simp only [Scopes.headings, hhead]
    rfl
  have hopen : progress.openScopes marker header ['}'] = progress := by
    rw [openScopes_of_none marker header hheadings,
      enter_of_nil (Heading.namespaces_of_not_mem (by decide))]
    rfl
  have hnamespaces := h.namespaces_closeScopes ['}']
  have hclasses := h.classes_closeScopes ['}']
  have hdepth : progress.scopes.depth + (Braces.ofLine ['}']).change = progress.scopes.depth - 1 :=
    rfl
  simp only [Progress.closeScopes, Scopes.close, hdepth] at hnamespaces hclasses
  rw [track, hopen, Progress.closeScopes, Scopes.close]
  simp only [hdepth, hnamespaces, hclasses]
  rfl

private theorem Nested.trackLines_braces (h : Nested progress.scopes.depth progress)
    (marker header : Text) (count : Nat) :
    progress.trackLines marker header (List.replicate count ['}']) =
      progress.sink (progress.scopes.depth - count) := by
  induction count with
  | zero =>
    rw [Int.natCast_zero, Int.sub_zero, h.sink_self]
    rfl
  | succ count ih =>
    have hbefore := h.trackLines marker header (List.replicate count ['}'])
    rw [List.replicate_succ', trackLines_append, ih]
    rw [ih] at hbefore
    refine (hbefore.track_brace marker header).trans ?_
    rw [show (progress.sink (progress.scopes.depth - count)).scopes.depth - 1 =
      progress.scopes.depth - (count + 1 : Nat) by simp only [sink]; omega, sink_sink (by omega)]

/-- The frames of namespaces that are opened on one line at a depth: their bodies all lie one
deeper. -/
def opened (depth : Int) (names : List Text) : List NamespaceFrame :=
  (names.map fun name => ⟨name, depth + 1⟩).reverse

private theorem bodyDepth_of_mem_opened {depth : Int} {frame : NamespaceFrame}
    (h : frame ∈ opened depth names) : frame.bodyDepth = depth + 1 ∧ 0 < names.length := by
  obtain ⟨name, hname, rfl⟩ := List.mem_map.mp (List.mem_reverse.mp h)
  exact ⟨rfl, List.length_pos_of_mem hname⟩

def withNamespaces (depth : Int) (frames : List NamespaceFrame) (progress : Progress) : Progress :=
  { progress with scopes := { progress.scopes with
      depth, namespaces := frames ++ progress.scopes.namespaces } }

/-- A depth that no frame outside is deeper than touches the further namespaces only. -/
private theorem Nested.sink_withNamespaces (h : Nested progress.scopes.depth progress) (depth : Int)
    (frames : List NamespaceFrame) {lower : Int} (hlower : progress.scopes.depth ≤ lower) :
    (progress.withNamespaces depth frames).sink lower =
      progress.withNamespaces lower (frames.filter fun frame => frame.bodyDepth ≤ lower) := by
  have hnamespaces : (progress.scopes.namespaces.filter fun frame => frame.bodyDepth ≤ lower) =
      progress.scopes.namespaces :=
    filter_of_le fun frame hframe => Int.le_trans (h.namespaces_le frame hframe) hlower
  have hclasses : (progress.scopes.classes.filter fun frame => frame.bodyDepth ≤ lower) =
      progress.scopes.classes :=
    filter_of_le fun frame hframe => Int.le_trans (h.classes_le frame hframe) hlower
  simp only [sink, withNamespaces, List.filter_append, hnamespaces, hclasses]

private theorem Nested.track_openers (h : Nested progress.scopes.depth progress)
    (hpending : progress.scopes.pending = none) (hnames : ∀ name ∈ names, Heading.IsChain name)
    (marker header : Text) :
    progress.track marker header (Heading.openers names) =
      progress.withNamespaces (progress.scopes.depth + names.length)
        (opened progress.scopes.depth names) := by
  have hheadings : progress.scopes.headings marker (Heading.openers names) = (none, none) := by
    simp only [Scopes.headings, Heading.heading?_openers hnames, hpending]
    split <;> rfl
  have hdepth : (Braces.ofLine (Heading.openers names)).change = names.length := by
    rw [Heading.ofLine_openers hnames]
    exact Int.sub_zero _
  have hopen : progress.openScopes marker header (Heading.openers names) =
      progress.withNamespaces progress.scopes.depth (opened progress.scopes.depth names) := by
    rw [openScopes_of_none marker header hheadings]
    simp only [enter, Scopes.openNamespaces, Heading.namespaces_openers hnames, ← hpending]
    rfl
  rw [track, hopen, closeScopes_of_le (progress.scopes.depth + names.length)]
  · rfl
  · exact congrArg (progress.scopes.depth + ·) hdepth
  · intro frame hframe
    rcases List.mem_append.mp hframe with hframe | hframe
    · have := bodyDepth_of_mem_opened hframe
      omega
    · have := h.namespaces_le frame hframe
      omega
  · intro frame hframe
    have := h.classes_le frame hframe
    omega

private theorem Nested.track_opener (h : Nested progress.scopes.depth progress)
    (hpending : progress.scopes.pending = none) {name : Text} (hname : Heading.IsChain name)
    (marker header : Text) :
    progress.track marker header (Heading.opener name) =
      progress.withNamespaces (progress.scopes.depth + 1)
        (opened progress.scopes.depth [name]) := by
  rw [← Heading.openers_singleton]
  exact h.track_openers hpending (List.forall_mem_singleton.mpr hname) marker header

/-- As long as a brace of the line is not closed all its namespaces are open. -/
private theorem Nested.trackLines_openers_braces (h : Nested progress.scopes.depth progress)
    (hpending : progress.scopes.pending = none) (hnames : ∀ name ∈ names, Heading.IsChain name)
    (marker header : Text) {count : Nat} (hcount : count ≤ names.length) :
    progress.trackLines marker header
        (Heading.openers names :: List.replicate count ['}']) =
      progress.withNamespaces (progress.scopes.depth + names.length - count)
        (opened progress.scopes.depth (if count < names.length then names else [])) := by
  have hopened : Nested (progress.track marker header (Heading.openers names)).scopes.depth
      (progress.track marker header (Heading.openers names)) :=
    h.trackLines marker header [Heading.openers names]
  refine (hopened.trackLines_braces marker header count).trans ?_
  rw [h.track_openers hpending hnames]
  have hlower : progress.scopes.depth ≤ progress.scopes.depth + names.length - count := by omega
  refine (h.sink_withNamespaces _ _ hlower).trans (congrArg (withNamespaces _ · progress) ?_)
  split
  · refine List.filter_eq_self.mpr fun frame hframe => ?_
    have := bodyDepth_of_mem_opened hframe
    simp only [decide_eq_true_eq]
    omega
  · refine List.filter_eq_nil_iff.mpr fun frame hframe => ?_
    have := bodyDepth_of_mem_opened hframe
    simp only [decide_eq_true_eq]
    omega

/-- Namespaces on lines of their own, and a brace for each of them, leave nothing behind. -/
private theorem Nested.trackLines_openers_closed (h : Nested progress.scopes.depth progress)
    (hpending : progress.scopes.pending = none) (hnames : ∀ name ∈ names, Heading.IsChain name)
    (marker header : Text) :
    progress.trackLines marker header
      (names.map Heading.opener ++ List.replicate names.length ['}']) = progress := by
  induction names generalizing progress with
  | nil => rfl
  | cons name names ih =>
    obtain ⟨hname, hmore⟩ := List.forall_mem_cons.mp hnames
    have hline := h.track_opener hpending hname marker header
    have hpair : (progress.track marker header (Heading.opener name)).track marker header ['}'] =
        progress := by
      have hboth := h.trackLines_openers_braces hpending (List.forall_mem_singleton.mpr hname)
        marker header (Nat.le_refl 1)
      rw [Heading.openers_singleton] at hboth
      refine hboth.trans ?_
      simp [withNamespaces, opened]
    have hopened : Nested (progress.track marker header (Heading.opener name)).scopes.depth
        (progress.track marker header (Heading.opener name)) :=
      h.trackLines marker header [Heading.opener name]
    have hinner := ih hopened (by rw [hline]; exact hpending) hmore
    rw [List.map_cons, List.length_cons, List.replicate_succ', List.cons_append,
      ← List.append_assoc]
    refine (trackLines_append marker header
      (names.map Heading.opener ++ List.replicate names.length ['}']) [['}']]
      (progress.track marker header (Heading.opener name))).trans ?_
    rw [hinner]
    exact hpair

private theorem Nested.namespaces_trackLines_opener (h : Nested progress.scopes.depth progress)
    (hpending : progress.scopes.pending = none) (hnames : ∀ name ∈ names, Heading.IsChain name)
    (marker header : Text) :
    (progress.trackLines marker header (names.map Heading.opener)).scopes.pending = none ∧
      (progress.trackLines marker header (names.map Heading.opener)).scopes.namespaces.map
          NamespaceFrame.name =
        names.reverse ++ progress.scopes.namespaces.map NamespaceFrame.name := by
  induction names generalizing progress with
  | nil => exact ⟨hpending, rfl⟩
  | cons name names ih =>
    obtain ⟨hname, hmore⟩ := List.forall_mem_cons.mp hnames
    have hline := h.track_opener hpending hname marker header
    have hopened : Nested (progress.track marker header (Heading.opener name)).scopes.depth
        (progress.track marker header (Heading.opener name)) :=
      h.trackLines marker header [Heading.opener name]
    obtain ⟨hpending', hstack⟩ := ih hopened (by rw [hline]; exact hpending) hmore
    refine ⟨hpending', hstack.trans ?_⟩
    rw [hline, List.reverse_cons, List.append_assoc]
    rfl

/-- The last namespaces are closed by as many braces, so only the first ones are left. -/
private theorem Nested.namespaces_trackLines_apart {front back : List Text}
    (h : Nested progress.scopes.depth progress) (hpending : progress.scopes.pending = none)
    (hnames : ∀ name ∈ front ++ back, Heading.IsChain name) (marker header : Text) :
    (progress.trackLines marker header ((front ++ back).map Heading.opener ++
        List.replicate back.length ['}'])).scopes.namespaces.map NamespaceFrame.name =
      front.reverse ++ progress.scopes.namespaces.map NamespaceFrame.name := by
  obtain ⟨hfront, hback⟩ := List.forall_mem_append.mp hnames
  obtain ⟨hfirst, hstack⟩ := h.namespaces_trackLines_opener hpending hfront marker header
  have hopened := h.trackLines marker header (front.map Heading.opener)
  rw [List.map_append, List.append_assoc, trackLines_append,
    hopened.trackLines_openers_closed hfirst hback marker header]
  exact hstack

/-- A class on a line that opens no namespace is qualified by the scopes before the line. -/
private theorem registry_track_of_opening {line name : Text}
    (hhead : heading? marker line = some (.opening name)) (hspace : Heading.namespaces line = []) :
    (progress.track marker header line).registry = progress.registry ++
      [{ name := .ofSegments (progress.scopes.segments progress.registry) name, header }] := by
  have hheadings : progress.scopes.headings marker line = (some ⟨name, none⟩, none) := by
    simp only [Scopes.headings, hhead]
  have hopen : (progress.track marker header line).registry =
      (progress.openScopes marker header line).registry := rfl
  rw [hopen, openScopes_of_some marker header hheadings, enter_of_nil hspace]
  rfl

/-- Namespaces that are opened on one line, in any state without a pending head that lines can lead
to. As long as one of their braces is open they are all open, and a class that opens then is
qualified by all of them; with the last brace they close at once. Had each of them been opened on a
line of its own, every brace would have closed the innermost one. -/
theorem namespaces_of_one_line_close_at_once (marker header : Text) (registry : Registry)
    (before names : List Text) (hnames : ∀ name ∈ names, Heading.IsChain name) :
    let start := trackLines marker header before ⟨{}, registry⟩
    start.scopes.pending = none → ∀ count ≤ names.length,
      let braces := List.replicate count ['}']
      let together := start.trackLines marker header (Heading.openers names :: braces)
      let apart := start.trackLines marker header (names.map Heading.opener ++ braces)
      let kept := if count < names.length then names else []
      together.scopes.namespaces =
          (kept.map fun name => ⟨name, start.scopes.depth + 1⟩).reverse ++
            start.scopes.namespaces ∧
        (∀ line name, heading? marker line = some (.opening name) → Heading.namespaces line = [] →
          (together.track marker header line).registry = start.registry ++
            [{ name := .ofSegments
                ((start.scopes.namespaces.map NamespaceFrame.name).reverse ++ kept ++
                  { start.scopes with namespaces := [] }.segments start.registry) name
               header }]) ∧
        apart.scopes.namespaces.map NamespaceFrame.name =
          (names.take (names.length - count)).reverse ++
            start.scopes.namespaces.map NamespaceFrame.name := by
  intro start hpending count hcount braces together apart kept
  have hstart : Nested start.scopes.depth start :=
    (nested_start registry).trackLines marker header before
  have htogether : together = start.withNamespaces (start.scopes.depth + names.length - count)
      (opened start.scopes.depth kept) :=
    hstart.trackLines_openers_braces hpending hnames marker header hcount
  refine ⟨congrArg (·.scopes.namespaces) htogether, ?_, ?_⟩
  · intro line name hhead hspace
    rw [registry_track_of_opening hhead hspace, htogether]
    have hsegments : (start.withNamespaces (start.scopes.depth + names.length - count)
        (opened start.scopes.depth kept)).scopes.segments start.registry =
        (start.scopes.namespaces.map NamespaceFrame.name).reverse ++ kept ++
          { start.scopes with namespaces := [] }.segments start.registry := by
      simp [withNamespaces, opened, Scopes.segments, Function.comp_def]
    rw [← hsegments]
    rfl
  · have hback : (names.drop (names.length - count)).length = count := by
      rw [List.length_drop]
      omega
    have hsplit : names.take (names.length - count) ++ names.drop (names.length - count) = names :=
      List.take_append_drop ..
    have hstack := hstart.namespaces_trackLines_apart hpending (hsplit.symm ▸ hnames) marker header
    rwa [hsplit, hback] at hstack

/-- Inside a namespace, two more on one line, of which the second is chained. After one brace a
class is still qualified by both. -/
theorem namespaces_of_one_line_close_at_once_chained :
    let start := trackLines "REFLECT_CLASS".toList "a.hpp".toList ["namespace n \x7b".toList] {}
    let together := start.trackLines "REFLECT_CLASS".toList "a.hpp".toList
      ["namespace a \x7b namespace b::c \x7b".toList, "\x7d".toList]
    let apart := start.trackLines "REFLECT_CLASS".toList "a.hpp".toList
      ["namespace a \x7b".toList, "namespace b::c \x7b".toList, "\x7d".toList]
    together.scopes.namespaces = [⟨"b::c".toList, 2⟩, ⟨"a".toList, 2⟩, ⟨"n".toList, 1⟩] ∧
      (together.track "REFLECT_CLASS".toList "a.hpp".toList "struct S \x7b".toList).registry =
        [{ name := ⟨["n".toList, "a".toList, "b".toList, "c".toList], "S".toList⟩
           header := "a.hpp".toList }] ∧
      apart.scopes.namespaces.map NamespaceFrame.name = ["a".toList, "n".toList] := by
  intro start together apart
  have hnames : ∀ name ∈ ["a".toList, "b::c".toList], Heading.IsChain name := by
    refine List.forall_mem_cons.mpr ⟨⟨"a".toList, [], rfl, by decide, nofun⟩,
      List.forall_mem_singleton.mpr ⟨"b".toList, ["c".toList], rfl, by decide, ?_⟩⟩
    exact List.forall_mem_singleton.mpr (by decide)
  obtain ⟨hstack, hclass, hnext⟩ := namespaces_of_one_line_close_at_once "REFLECT_CLASS".toList
    "a.hpp".toList [] ["namespace n \x7b".toList] _ hnames (by decide +kernel) 1 (by decide)
  refine ⟨hstack.trans (by decide +kernel), ?_, hnext.trans (by decide +kernel)⟩
  exact (hclass "struct S \x7b".toList "S".toList (by decide +kernel) (by decide +kernel)).trans
    (by decide +kernel)

/-- One of two braces is closed and one namespace is still around the class, but the frames of both
are open and the class is qualified by both. -/
theorem namespaces_of_one_line_outlive_brace :
    let stop := trackLines "REFLECT_CLASS".toList "a.hpp".toList
      ["namespace a \x7b namespace b \x7b".toList, "\x7d".toList] {}
    stop.scopes.depth = 1 ∧
      stop.scopes.namespaces.map NamespaceFrame.name = ["b".toList, "a".toList] ∧
      stop.scopes.namespaces.map NamespaceFrame.name ≠ ["a".toList] ∧
      (stop.track "REFLECT_CLASS".toList "a.hpp".toList "struct S \x7b".toList).registry.map
        (·.name.render) = ["a::b::S".toList] := by
  decide +kernel

end Progress

end Registrar
