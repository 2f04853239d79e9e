import Mathlib.Data.List.Forall2
import Registrar.Proofs.ClassFinality
import Registrar.Proofs.LineEffects
import Registrar.Proofs.QualifiedNames
import Registrar.Proofs.Text.Comments

/-! A header put inside a namespace. The scan of it and the scan of the header alone go side by
side: one of them has a further frame below all its namespaces and every body one deeper, and its
classes have the longer names. Nothing else differs, as long as the header alone never closes more
braces than it has opened, for then it would close the namespace around it. -/

namespace Registrar

def Text.inNamespace (source name : Text) : Text :=
  "namespace".toList ++ ' ' :: (name ++ [' ', '{']) ++ '\n' :: (source ++ ['\n', '}'])

private theorem Text.infix_inNamespace (source name : Text) :
    source <:+: source.inNamespace name := by
  have hbody : source <:+: '\n' :: (source ++ ['\n', '}']) := ⟨['\n'], ['\n', '}'], rfl⟩
  exact hbody.trans (List.suffix_append _ _).isInfix

/-- The same class once its header stands inside a namespace. A class that is registered under its
qualified name gets the longer one. -/
structure ReflectedClass.MovedInto (outer : List Text) (old new : ReflectedClass) : Prop where
  name_eq : new.name.name = old.name.name
  scope_eq : new.name.scope = outer ++ old.name.scope
  header_eq : new.header = old.header
  bindings_eq : ∀ kind, new.bindings kind = old.bindings kind
  registration : new.registration = old.registration ∨
    old.registration = some old.name.render ∧ new.registration = some new.name.render

namespace ReflectedClass.MovedInto

variable {outer : List Text} {old new : ReflectedClass}

private theorem isRegistered_eq (h : old.MovedInto outer new) :
    new.isRegistered = old.isRegistered := by
  rcases h.registration with heq | ⟨hold, hnew⟩
  · rw [isRegistered, heq, isRegistered]
  · rw [isRegistered, hnew, isRegistered, hold]
    rfl

/-- Whatever a marker asks for, two classes are registered under one name or under the qualified
name of each. -/
private theorem nameFor_cases (old new : ReflectedClass) (registration : Registration) :
    some (new.nameFor registration) = some (old.nameFor registration) ∨
      some (old.nameFor registration) = some old.name.render ∧
        some (new.nameFor registration) = some new.name.render := by
  cases registration with
  | qualified => exact Or.inr ⟨rfl, rfl⟩
  | explicit name => exact Or.inl rfl

private theorem register (h : old.MovedInto outer new) (registration : Registration) :
    (old.register registration).MovedInto outer (new.register registration) where
  name_eq := h.name_eq
  scope_eq := h.scope_eq
  header_eq := h.header_eq
  bindings_eq := by
    intro kind
    rw [bindings_register, bindings_register]
    exact h.bindings_eq kind
  registration := nameFor_cases old new registration

/-- A line says the same about both classes. -/
private theorem annotateClass (h : old.MovedInto outer new) (markers : Markers) (line : Text)
    (slots : Slots) : (markers.annotateClass line slots old).MovedInto outer
      (markers.annotateClass line slots new) := by
  have hold := Extends.annotateClass markers line slots old
  have hnew := Extends.annotateClass markers line slots new
  refine ⟨?_, ?_, ?_, ?_, ?_⟩
  · rw [hnew.name_eq, hold.name_eq]
    exact h.name_eq
  · rw [hnew.name_eq, hold.name_eq]
    exact h.scope_eq
  · rw [hnew.header_eq, hold.header_eq]
    exact h.header_eq
  · intro kind
    rw [Markers.bindings_annotateClass, Markers.bindings_annotateClass, h.bindings_eq kind]
  · rw [Markers.registration_annotateClass, Markers.registration_annotateClass, hnew.name_eq,
      hold.name_eq]
    split
    · exact nameFor_cases old new _
    · exact h.registration

end ReflectedClass.MovedInto

namespace Registry

variable {outer : List Text} {old new : Registry}

private theorem names_eq_of_movedInto (h : List.Forall₂ (ReflectedClass.MovedInto outer) old new)
    (index : Nat) : new[index]?.map (·.name.name) = old[index]?.map (·.name.name) := by
  have hmap : new.map (·.name.name) = old.map (·.name.name) := by
    induction h with
    | nil => rfl
    | cons hcls _ ih => rw [List.map_cons, List.map_cons, hcls.name_eq, ih]
  rw [← List.getElem?_map, hmap, List.getElem?_map]

private theorem update_movedInto (h : List.Forall₂ (ReflectedClass.MovedInto outer) old new)
    {change : ReflectedClass → ReflectedClass}
    (hchange : ∀ a b, a.MovedInto outer b → (change a).MovedInto outer (change b)) (index : Nat) :
    List.Forall₂ (ReflectedClass.MovedInto outer) (old.update index change)
      (new.update index change) := by
  induction h generalizing index with
  | nil => simp [update]
  | cons hcls hmore ih =>
    cases index with
    | zero => exact .cons (hchange _ _ hcls) hmore
    | succ index => exact .cons hcls (ih index)

end Registry

def NamespaceFrame.deepen (frame : NamespaceFrame) : NamespaceFrame :=
  { frame with bodyDepth := frame.bodyDepth + 1 }

def ClassFrame.deepen (frame : ClassFrame) : ClassFrame :=
  { frame with bodyDepth := frame.bodyDepth + 1 }

def Scopes.inside (name : Text) (scopes : Scopes) : Scopes where
  depth := scopes.depth + 1
  namespaces := scopes.namespaces.map NamespaceFrame.deepen ++ [⟨name, 1⟩]
  classes := scopes.classes.map ClassFrame.deepen
  pending := scopes.pending

namespace Scopes

variable (name : Text) (scopes : Scopes)

private theorem openNamespaces_inside (line : Text) :
    (scopes.inside name).openNamespaces line = (scopes.openNamespaces line).inside name := by
  simp only [openNamespaces, inside, List.map_append, List.map_reverse, List.map_map,
    Function.comp_def, NamespaceFrame.deepen, List.append_assoc]

/-- A stack whose bodies lie one deeper is popped alike at a depth one deeper. -/
private theorem dropWhile_map_deepen {α : Type} {depthOf : α → Int} {deepen : α → α}
    (h : ∀ frame, depthOf (deepen frame) = depthOf frame + 1) (depth : Int) (frames : List α) :
    (frames.map deepen).dropWhile (fun frame => depth + 1 < depthOf frame) =
      (frames.dropWhile fun frame => depth < depthOf frame).map deepen := by
  have hpop : ((fun frame => decide (depth + 1 < depthOf frame)) ∘ deepen) =
      fun frame => decide (depth < depthOf frame) := by
    funext frame
    rw [Function.comp_apply, h]
    exact decide_eq_decide.mpr (Int.add_lt_add_iff_right 1)
  rw [List.dropWhile_map, hpop]

private theorem dropWhile_append_bottom {α : Type} (p : α → Bool) (bottom : α)
    (h : p bottom = false) (frames : List α) :
    (frames ++ [bottom]).dropWhile p = frames.dropWhile p ++ [bottom] := by
  induction frames with
  | nil => exact List.dropWhile_cons_of_neg (by simp [h])
  | cons first frames ih =>
    by_cases hfirst : p first = true
    · rw [List.cons_append, List.dropWhile_cons_of_pos hfirst, ih,
        List.dropWhile_cons_of_pos hfirst]
    · rw [List.cons_append, List.dropWhile_cons_of_neg hfirst, List.dropWhile_cons_of_neg hfirst,
        List.cons_append]

/-- Nothing that is closed inside the namespace closes the namespace itself, as long as the depth
outside of it does not fall below zero. -/
private theorem close_inside (braces : Braces) (hdepth : 0 ≤ (scopes.close braces).depth) :
    (scopes.inside name).close braces = (scopes.close braces).inside name := by
  have hsum : scopes.depth + 1 + braces.change = (scopes.close braces).depth + 1 := by
    simp only [close]
    omega
  have hbottom : ¬ (scopes.close braces).depth + 1 < 1 := by omega
  have hnamespaces : (scopes.inside name).namespaces.dropWhile
      (fun frame => (scopes.close braces).depth + 1 < frame.bodyDepth) =
      ((scopes.close braces).inside name).namespaces := by
    have hkept := dropWhile_append_bottom
      (fun frame : NamespaceFrame => decide ((scopes.close braces).depth + 1 < frame.bodyDepth))
      ⟨name, 1⟩ (decide_eq_false hbottom) (scopes.namespaces.map NamespaceFrame.deepen)
    rw [dropWhile_map_deepen fun _ => rfl] at hkept
    exact hkept
  have hclasses : (scopes.inside name).classes.dropWhile
      (fun frame => (scopes.close braces).depth + 1 < frame.bodyDepth) =
      ((scopes.close braces).inside name).classes :=
    dropWhile_map_deepen (fun _ => rfl) _ _
  rw [close]
  simp only [show (scopes.inside name).depth = scopes.depth + 1 from rfl, hsum, hnamespaces,
    hclasses]
  rfl

private theorem segments_inside {old new : Registry} (h : ∀ index : Nat,
    new[index]?.map (fun cls : ReflectedClass => cls.name.name) =
      old[index]?.map fun cls => cls.name.name) :
    (scopes.inside name).segments new = name :: scopes.segments old := by
  simp only [segments, inside, List.map_append, List.map_map, List.filterMap_map, Function.comp_def,
    NamespaceFrame.deepen, ClassFrame.deepen, h, List.map_cons, List.map_nil, List.reverse_append,
    List.reverse_singleton, List.cons_append, List.nil_append]

end Scopes

namespace Progress

/-- The same progress inside a namespace whose name is chained of words. -/
structure MovedInto (first : Text) (more : List Text) (old new : Progress) : Prop where
  scopes_eq : new.scopes = old.scopes.inside (first ++ Heading.chained more)
  registry : List.Forall₂ (ReflectedClass.MovedInto (first :: more)) old.registry new.registry

namespace MovedInto

variable {first : Text} {more : List Text} {old new : Progress}

private theorem path (h : old.MovedInto first more new)
    (hparts : ∀ part ∈ first :: more, part.isIdentifier = true) :
    new.path = first :: more ++ old.path := by
  have hkept : (first :: more).filter (fun part => !part.isEmpty) = first :: more := by
    rw [List.filter_eq_self]
    intro part hpart
    simpa using Text.ne_nil_of_isIdentifier (hparts part hpart)
  have hcolon : ∀ part ∈ first :: more, ':' ∉ part := fun part hpart =>
    Text.not_mem_of_isIdentifier (hparts part hpart) (by decide)
  obtain ⟨hfirst, hmore⟩ := List.forall_mem_cons.mp hcolon
  rw [Progress.path, h.scopes_eq,
    Scopes.segments_inside _ _ (Registry.names_eq_of_movedInto h.registry),
    QualifiedName.ofSegments, List.flatMap_cons, List.filter_append,
    QualifiedName.splitScope_word_chained hfirst hmore, hkept]
  rfl

private theorem fresh (h : old.MovedInto first more new)
    (hparts : ∀ part ∈ first :: more, part.isIdentifier = true) (header : Text) (head : ClassHead) :
    (old.fresh header head).MovedInto (first :: more) (new.fresh header head) := by
  have hcls : ReflectedClass.MovedInto (first :: more)
      { name := ⟨old.path, head.name⟩, header } { name := ⟨new.path, head.name⟩, header } :=
    ⟨rfl, h.path hparts, rfl, fun kind => by cases kind <;> rfl, .inl rfl⟩
  unfold Progress.fresh
  split
  · exact hcls.register _
  · exact hcls

private theorem enter (h : old.MovedInto first more new) (line : Text)
    (pending : Option ClassHead) :
    (old.enter line pending).MovedInto first more (new.enter line pending) := by
  refine ⟨?_, h.registry⟩
  simp only [Progress.enter, h.scopes_eq, Scopes.openNamespaces_inside]
  rfl

private theorem openClass (h : old.MovedInto first more new)
    (hparts : ∀ part ∈ first :: more, part.isIdentifier = true) (header : Text) (head : ClassHead) :
    (old.openClass header head).MovedInto first more (new.openClass header head) := by
  have hlength : new.registry.length = old.registry.length := h.registry.length_eq.symm
  refine ⟨?_, ?_⟩
  · simp only [Progress.openClass, h.scopes_eq, hlength]
    rfl
  · exact List.rel_append h.registry (.cons (h.fresh hparts header head) .nil)

private theorem openScopes (h : old.MovedInto first more new)
    (hparts : ∀ part ∈ first :: more, part.isIdentifier = true) (marker header line : Text) :
    (old.openScopes marker header line).MovedInto first more
      (new.openScopes marker header line) := by
  have hsame : new.scopes.headings marker line = old.scopes.headings marker line := by
    rw [h.scopes_eq]
    rfl
  rcases hheads : old.scopes.headings marker line with ⟨_ | head, pending⟩
  · rw [openScopes_of_none marker header hheads,
      openScopes_of_none marker header (hsame.trans hheads)]
    exact h.enter line pending
  · rw [openScopes_of_some marker header hheads,
      openScopes_of_some marker header (hsame.trans hheads)]
    exact (h.enter line pending).openClass hparts header head

private theorem readMarkers (h : old.MovedInto first more new) (markers : Markers) (line : Text) :
    (old.readMarkers markers line).MovedInto first more (new.readMarkers markers line) := by
  unfold Progress.readMarkers
  split
  · exact h
  · unfold annotate
    rcases hclasses : old.scopes.classes with _ | ⟨frame, outer⟩
    · have hnew : new.scopes.classes = [] := by
        rw [h.scopes_eq, Scopes.inside, hclasses]
        rfl
      simp only [hnew]
      exact h
    · have hnew : new.scopes.classes = frame.deepen :: outer.map ClassFrame.deepen := by
        rw [h.scopes_eq, Scopes.inside, hclasses]
        rfl
      simp only [hnew]
      refine ⟨?_, ?_⟩
      · simp only [h.scopes_eq]
        rfl
      · refine Registry.update_movedInto h.registry ?_ frame.index
        intro a b hab
        exact hab.annotateClass markers line frame.slots

private theorem closeScopes (h : old.MovedInto first more new) (line : Text)
    (hdepth : 0 ≤ (old.closeScopes line).scopes.depth) :
    (old.closeScopes line).MovedInto first more (new.closeScopes line) := by
  refine ⟨?_, h.registry⟩
  simp only [Progress.closeScopes, h.scopes_eq]
  exact Scopes.close_inside _ _ _ hdepth

private theorem readLine (h : old.MovedInto first more new)
    (hparts : ∀ part ∈ first :: more, part.isIdentifier = true) (markers : Markers)
    (header line : Text) (hdepth : 0 ≤ (old.readLine markers header line).scopes.depth) :
    (old.readLine markers header line).MovedInto first more (new.readLine markers header line) :=
  ((h.openScopes hparts markers.onClass header line).readMarkers markers line).closeScopes line
    hdepth

/-- The two runs stay side by side as long as the depth outside the namespace does not fall below
zero after a line. -/
private theorem readLines (h : old.MovedInto first more new)
    (hparts : ∀ part ∈ first :: more, part.isIdentifier = true) (markers : Markers)
    (header : Text) (lines : List Text)
    (hdepth : ∀ count ≤ lines.length,
      0 ≤ (old.readLines markers header (lines.take count)).scopes.depth) :
    (old.readLines markers header lines).MovedInto first more
      (new.readLines markers header lines) := by
  induction lines generalizing old new with
  | nil => exact h
  | cons line lines ih =>
    have hline := hdepth 1 (Nat.succ_le_succ (Nat.zero_le _))
    apply ih (h.readLine hparts markers header line hline)
    intro count hcount
    exact hdepth (count + 1) (Nat.succ_le_succ hcount)

end MovedInto

/-- The line in front of the header opens the namespace and nothing else. -/
private theorem readLine_space_start (markers : Markers) (header : Text) {first : Text}
    {more : List Text} (hparts : ∀ part ∈ first :: more, part.isIdentifier = true) :
    readLine markers header
        ("namespace".toList ++ ' ' :: (first ++ Heading.chained more ++ [' ', '{'])) {} =
      ⟨({} : Scopes).inside (first ++ Heading.chained more), []⟩ := by
  obtain ⟨hfirst, hmore⟩ := List.forall_mem_cons.mp hparts
  have habsent {c : Char} := Heading.not_mem_space (c := c) hfirst hmore
  have hopening : "namespace".toList ++ ' ' :: (first ++ Heading.chained more ++ [' ', '{']) =
      "namespace".toList ++ ' ' :: (first ++ Heading.chained more) ++ [' ', '{'] := by simp
  generalize hline : "namespace".toList ++ ' ' :: (first ++ Heading.chained more ++ [' ', '{']) =
    line at hopening ⊢
  have hhead : heading? markers.onClass line = none := by
    have hparen : '(' ∉ line := by
      have hname := habsent (c := '(') (by decide) (by decide) (by decide)
      rw [hopening, List.mem_append, not_or]
      exact ⟨hname, by decide⟩
    rw [heading?, Marker.skipLeading_of_not_mem hparen, ← hline]
    rfl
  have hheadings : ({} : Progress).scopes.headings markers.onClass line = (none, none) := by
    simp only [Scopes.headings, hhead]
    split <;> rfl
  have hmarks : marksLaterClass markers.onClass line = false := by
    simp only [marksLaterClass, hhead]
  have hbraces : Braces.ofLine line = ⟨1, 0⟩ := by
    have hopen := habsent (c := '{') (by decide) (by decide) (by decide)
    have hclose := habsent (c := '}') (by decide) (by decide) (by decide)
    rw [hopening]
    exact Braces.ofLine_opening hopen hclose
  have hnamespaces : Heading.namespaces line = [first ++ Heading.chained more] := by
    rw [← hline]
    exact Heading.namespaces_space hfirst hmore
  rw [readLine, openScopes_of_none markers.onClass header hheadings, readMarkers, hmarks,
    if_neg Bool.false_ne_true]
  simp only [enter, Scopes.openNamespaces, hnamespaces, annotate, closeScopes, Scopes.close,
    hbraces]
  rfl

/-- The brace behind the header is no declaration, so no class changes, whatever the header left
open. -/
private theorem registry_readLine_brace {markers : Markers} (hvalid : markers.validate = .ok ())
    (header : Text) (progress : Progress) :
    (progress.readLine markers header ['}']).registry = progress.registry := by
  have hclass : Text.occursIn markers.onClass ['}'] = false :=
    Text.occursIn_of_isWordless (Markers.isIdentifier_onClass hvalid) (by decide)
  have hbinding : ∀ kind, Text.occursIn (markers.onBinding kind) ['}'] = false := fun kind =>
    Text.occursIn_of_isWordless (Markers.isIdentifier_onBinding hvalid kind) (by decide)
  have hhead : heading? markers.onClass ['}'] = none := by
    rw [heading?, Marker.skipLeading_of_absent hclass]
    rfl
  have hkeeps : ∀ slots, markers.annotateClass ['}'] slots = id := by
    intro slots
    funext cls
    rw [Markers.annotateClass, Markers.effects_of_silent hclass hbinding]
    · rfl
    · rintro (_ | _) <;> decide +kernel
  rw [readLine_of_plain (by decide) (.inl hhead)]
  change (progress.annotate markers ['}']).registry = progress.registry
  unfold annotate
  split
  · rfl
  · simp only [hkeeps]
    exact List.modify_id ..

end Progress

namespace Markers

/-- A header inside a namespace is read line by line between the line that opens the namespace and
the brace that closes it, if no comment swallows that one. -/
private theorem cleanLines_inNamespace {first : Text} {more : List Text}
    (hparts : ∀ part ∈ first :: more, part.isIdentifier = true) (source : Text) :
    ∃ tail, (tail = [] ∨ tail = [['}']]) ∧
      (source.inNamespace (first ++ Heading.chained more)).cleanLines =
        ("namespace".toList ++ ' ' :: (first ++ Heading.chained more ++ [' ', '{'])) ::
          (source.cleanLines ++ tail) := by
  obtain ⟨hfirst, hmore⟩ := List.forall_mem_cons.mp hparts
  obtain ⟨mode, hlines⟩ := Text.cleanLines_append_newline source ['}']
  refine ⟨Text.cleanRows mode (Text.lines ['}']), ?_, ?_⟩
  · cases mode with
    | code => exact Or.inr (by decide +kernel)
    | string => exact Or.inr (by decide +kernel)
    | block => exact Or.inl (by decide +kernel)
  · have hcons := (Heading.isClean_space hfirst hmore).cleanLines_cons (source ++ ['\n', '}'])
    rw [hlines] at hcons
    exact hcons

/-- A header inside a namespace has the classes of the header alone, in the same order and with the
same bindings. Their scopes begin with the parts of the namespace. Each is registered if it was, and
under the same name, unless that was its qualified name. -/
theorem scan_inNamespace (markers : Markers) (hvalid : markers.validate = .ok ())
    (header source first : Text) (more : List Text)
    (hparts : ∀ part ∈ first :: more, part.isIdentifier = true)
    (hneeds : markers.needsScan source = true)
    (hdepth : ∀ count ≤ source.cleanLines.length,
      0 ≤ (Progress.readLines markers header (source.cleanLines.take count) {}).scopes.depth) :
    List.Forall₂ (fun old new =>
        old.MovedInto (first :: more) new ∧ new.isRegistered = old.isRegistered)
      (markers.scan header source)
      (markers.scan header
        (source.inNamespace (List.intercalate "::".toList (first :: more)))) := by
  obtain ⟨tail, htail, hlines⟩ := cleanLines_inNamespace hparts source
  have hneeds' : markers.needsScan (source.inNamespace (first ++ Heading.chained more)) = true := by
    have hinfix := source.infix_inNamespace (first ++ Heading.chained more)
    exact Text.occursIn_iff_isInfix.mpr ((Text.occursIn_iff_isInfix.mp hneeds).trans hinfix)
  have hstart : Progress.MovedInto first more {}
      ⟨({} : Scopes).inside (first ++ Heading.chained more), []⟩ := ⟨rfl, .nil⟩
  have hrun := hstart.readLines hparts markers header source.cleanLines hdepth
  rw [QualifiedName.intercalate_colons, scan, if_pos hneeds, scan, if_pos hneeds', hlines]
  have hend : ∀ progress : Progress,
      (progress.readLines markers header tail).registry = progress.registry := by
    intro progress
    rcases htail with rfl | rfl
    · rfl
    · exact Progress.registry_readLine_brace hvalid header progress
  rw [← List.cons_append, Progress.readLines_append, hend]
  have hfirst := congrArg (Progress.readLines markers header source.cleanLines)
    (Progress.readLine_space_start markers header hparts)
  rw [← hfirst] at hrun
  exact hrun.registry.imp fun old new hcls => ⟨hcls, hcls.isRegistered_eq⟩

/-- A class registered under its qualified name, one under a given name, with its head split and
inside a namespace of its own, and one that is not registered. The last line stays open. -/
theorem scan_inNamespace_three_classes :
    let source : Text := "class A \x7b REFLECT_CLASS()\nREFLECT_MEMBER() int x;\n\x7d;\n".toList ++
      "namespace b \x7b\nREFLECT_CLASS(\"B\") struct B\n\x7b\n\x7d; \x7d\nclass C \x7b".toList
    (Markers.scan {} "a.hpp".toList source).map (·.registration) =
        [some "A".toList, some "B".toList, none] ∧
      List.Forall₂ (fun old new => old.MovedInto ["game".toList, "core".toList] new ∧
          new.isRegistered = old.isRegistered)
        (Markers.scan {} "a.hpp".toList source)
        (Markers.scan {} "a.hpp".toList (source.inNamespace "game::core".toList)) := by
  intro source
  exact ⟨by decide +kernel, scan_inNamespace {} rfl "a.hpp".toList source "game".toList
    ["core".toList] (by decide) (by decide +kernel) (by decide +kernel)⟩

end Markers

end Registrar
