import Registrar.Proofs.ClassFinality
import Registrar.Proofs.LineEffects

/-! Class heads whose body opens on a later line. A class marker in front of such a head waits with
it: no class around it notices, and the class whose body opens at last gets the registration. -/

namespace Registrar

/-- A line that starts with an invocation of the class marker, goes on with the head of a class and
opens no body. More invocations may stand between the first one and the head. -/
structure MarkedHead (marker line name : Text) (first : Marker.Invocation) : Prop where
  marked : Marker.invocationFront? marker line.trimStart = some first
  named : Heading.className? (Marker.skipLeading marker first.after) = some name
  unopened : '{' ∉ line
  unended : ';' ∉ line

variable {markers : Markers} {marker header line name : Text} {first : Marker.Invocation}

private theorem MarkedHead.heading? (h : MarkedHead marker line name first) :
    heading? marker line = some (.split ⟨name, some (Marker.registration marker line)⟩) := by
  have hskip := Marker.skipLeading_of_some h.marked
  have hname : Heading.className? (Marker.skipLeading marker line) = some name :=
    hskip ▸ h.named
  have hshorter : (Marker.skipLeading marker line).length < line.trimStart.length := by
    have hle := Marker.skipLeading_length_le marker first.after
    have hlt := Marker.invocationFront?_length h.marked
    rw [hskip]
    omega
  rw [Registrar.heading?, hname, Option.map_some,
    if_neg (mt List.contains_iff_mem.mp h.unopened), if_neg (mt List.contains_iff_mem.mp h.unended),
    if_pos hshorter]

namespace Progress

variable {progress : Progress}

/-- The line of a marked head moves the depth and leaves the head pending. -/
private theorem readLine_of_markedHead (h : MarkedHead markers.onClass line name first) :
    progress.readLine markers header line =
      (progress.closeScopes line).await
        (some ⟨name, some (Marker.registration markers.onClass line)⟩) := by
  have hheadings : progress.scopes.headings markers.onClass line =
      (none, some ⟨name, some (Marker.registration markers.onClass line)⟩) := by
    simp only [Scopes.headings, h.heading?]
  have hmarks : marksLaterClass markers.onClass line = true := by
    simp only [marksLaterClass, h.heading?, Option.isSome_some]
  rw [readLine, openScopes_of_none markers.onClass header hheadings,
    enter_of_nil (Heading.namespaces_of_not_mem h.unopened), readMarkers, if_pos hmarks]
  rfl

private theorem annotate_await (pending : Option ClassHead) :
    (progress.await pending).annotate markers line =
      (progress.annotate markers line).await pending := by
  rcases h : progress.scopes.classes with _ | ⟨frame, outer⟩ <;> simp only [annotate, await, h]

variable {lines : List Text} (hlines : ∀ line ∈ lines, '{' ∉ line ∧
  ∀ head, heading? markers.onClass line ≠ some (.split head))
include hlines

/-- Lines that open nothing are read as if no head were pending, and hand the head over. -/
private theorem readLines_await (pending : Option ClassHead) :
    (progress.await pending).readLines markers header lines =
      (progress.readLines markers header lines).await pending := by
  induction lines generalizing progress with
  | nil => rfl
  | cons line lines ih =>
    obtain ⟨⟨hbrace, hhead⟩, hmore⟩ := List.forall_mem_cons.mp hlines
    have hplain := heading?_of_not_split hbrace hhead
    have hstep : (progress.await pending).readLine markers header line =
        (progress.readLine markers header line).await pending := by
      rw [readLine_of_plain hbrace hplain, readLine_of_plain hbrace hplain, annotate_await]
      rfl
    exact (congrArg (readLines markers header lines) hstep).trans (ih hmore)

/-- Lines that open nothing find no class. -/
private theorem length_registry_readLines :
    (progress.readLines markers header lines).registry.length = progress.registry.length := by
  induction lines generalizing progress with
  | nil => rfl
  | cons line lines ih =>
    obtain ⟨⟨hbrace, hhead⟩, hmore⟩ := List.forall_mem_cons.mp hlines
    have hstep : (progress.readLine markers header line).registry.length =
        progress.registry.length := by
      rw [readLine_of_plain hbrace (heading?_of_not_split hbrace hhead)]
      exact length_registry_annotate markers line progress
    exact (ih hmore).trans hstep

omit hlines

/-- A brace opens the pending head. What the line says otherwise, it says about that class. -/
private theorem registry_readLine_of_pending {head : ClassHead} (hbrace : '{' ∈ line)
    (hhead : heading? markers.onClass line = none) :
    ((progress.await (some head)).readLine markers header line).registry =
      progress.registry ++
        [markers.annotateClass line {} ((progress.enter line none).fresh header head)] := by
  have hheadings : (progress.await (some head)).scopes.headings markers.onClass line =
      (some head, none) := by
    simp only [Scopes.headings, hhead, if_pos (List.contains_iff_mem.mpr hbrace)]
    rfl
  have hmarks : ¬ marksLaterClass markers.onClass line = true := by
    simp only [marksLaterClass, hhead, Bool.false_eq_true, not_false_eq_true]
  rw [readLine, openScopes_of_some markers.onClass header hheadings, readMarkers, if_neg hmarks]
  exact Registry.update_append_right progress.registry
    [(progress.enter line none).fresh header head] 0 (markers.annotateClass line {})

/-- The class of a marked head, before anything inside it has been read, is registered under the
first argument of the first invocation in front of the head. -/
private theorem registration_fresh_of_markedHead (h : MarkedHead marker line name first) :
    (progress.fresh header ⟨name, some (Marker.registration marker line)⟩).registration =
      some (((first.args.head?.map Text.unquote).filter
        fun explicit => !explicit.isEmpty).getD (QualifiedName.mk progress.path name).render) := by
  have hexplicit : Marker.explicitName? marker line = first.args.head?.map Text.unquote := by
    rw [Marker.explicitName?, Marker.args, Marker.invocation?_of_trimStart h.marked]
  rw [← hexplicit]
  exact congrArg some (Marker.nameFor_registration marker line
    { name := ⟨progress.path, name⟩, header })

/-- The marker of a split head goes to the class of that head and to no other, whatever was read
before. The line of the head changes no class and no slot. Lines without an opening brace that leave
no other head pending find no class, and are read as if the head were not there. The first brace on
a line with neither a head nor the class marker then adds one class behind all others: with the name
of the head, in the scope that is open at the brace, registered under the first argument of the
first invocation on the head's line or, if that is missing or empty, under its qualified name. -/
theorem markedHead_registers_its_class (markers : Markers) (header line name : Text)
    (first : Marker.Invocation) (h : MarkedHead markers.onClass line name first)
    (progress : Progress) :
    let waiting := progress.readLine markers header line
    waiting.registry = progress.registry ∧
    waiting.scopes.classes <:+ progress.scopes.classes ∧
    ∀ (between : List Text) (opener : Text),
      (∀ line ∈ between, '{' ∉ line ∧ ∀ head, heading? markers.onClass line ≠ some (.split head)) →
      '{' ∈ opener → heading? markers.onClass opener = none →
      Text.occursIn markers.onClass opener = false →
      let last := waiting.readLines markers header between
      last.registry = ((progress.closeScopes line).readLines markers header between).registry ∧
      last.registry.length = progress.registry.length ∧
      ∃ cls, (last.readLine markers header opener).registry = last.registry ++ [cls] ∧
        cls.header = header ∧
        cls.name = .ofSegments ((last.scopes.openNamespaces opener).segments last.registry) name ∧
        cls.registration = some (((first.args.head?.map Text.unquote).filter
          fun explicit => !explicit.isEmpty).getD cls.name.render) := by
  intro waiting
  have hwaiting : waiting = (progress.closeScopes line).await
      (some ⟨name, some (Marker.registration markers.onClass line)⟩) := readLine_of_markedHead h
  refine ⟨?_, ?_, ?_⟩
  · rw [hwaiting]
    rfl
  · rw [hwaiting]
    exact List.dropWhile_suffix _
  · intro between opener hbetween hbrace hhead habsent last
    have hlast : last = ((progress.closeScopes line).readLines markers header between).await
        (some ⟨name, some (Marker.registration markers.onClass line)⟩) := by
      rw [← readLines_await hbetween, ← hwaiting]
    refine ⟨by rw [hlast]; rfl, by rw [hlast]; exact length_registry_readLines hbetween, _,
      by rw [hlast]; exact registry_readLine_of_pending hbrace hhead, ?_, ?_, ?_⟩
    · exact (ReflectedClass.Extends.annotateClass ..).header_eq
    · rw [hlast]
      exact (ReflectedClass.Extends.annotateClass ..).name_eq
    · rw [Markers.registration_annotateClass, habsent, if_neg Bool.false_ne_true,
        (ReflectedClass.Extends.annotateClass ..).name_eq]
      exact registration_fresh_of_markedHead h

/-- A split head inside a class and a namespace, with two invocations in front of it. A forward
declaration and a member of the outer class stand before the brace. -/
theorem markedHead_registers_its_class_nested :
    let progress := readLines {} "a.hpp".toList
      ["namespace a \x7b".toList, "class Outer \x7b".toList] {}
    let head := " REFLECT_CLASS(\"Bar\") REFLECT_CLASS() struct Inner : Base".toList
    let last := (progress.readLine {} "a.hpp".toList head).readLines {} "a.hpp".toList
      ["class Other;".toList, "REFLECT_MEMBER() int y;".toList]
    let opened := last.readLine {} "a.hpp".toList "\x7b int x;".toList
    ∃ cls, opened.registry = last.registry ++ [cls] ∧
      cls.name = ⟨["a".toList, "Outer".toList], "Inner".toList⟩ ∧
      cls.registration = some "Bar".toList := by
  intro progress head last opened
  have hhead : MarkedHead ({} : Markers).onClass head "Inner".toList
      ⟨"\"Bar\"".toList, " REFLECT_CLASS() struct Inner : Base".toList⟩ :=
    ⟨by decide +kernel, by decide +kernel, by decide, by decide⟩
  have hforward : heading? ({} : Markers).onClass "class Other;".toList = some .forward := by
    decide +kernel
  have hmember : heading? ({} : Markers).onClass "REFLECT_MEMBER() int y;".toList = none := by
    decide +kernel
  have hbetween : ∀ line ∈ ["class Other;".toList, "REFLECT_MEMBER() int y;".toList],
      '{' ∉ line ∧ ∀ head, heading? ({} : Markers).onClass line ≠ some (.split head) := by
    refine List.forall_mem_cons.mpr ⟨⟨by decide, fun head => ?_⟩,
      List.forall_mem_singleton.mpr ⟨by decide, fun head => ?_⟩⟩
    · rw [hforward]
      exact fun h => nomatch Option.some.inj h
    · rw [hmember]
      exact nofun
  obtain ⟨_, _, hopens⟩ := markedHead_registers_its_class {} "a.hpp".toList head _ _ hhead progress
  obtain ⟨_, _, cls, hregistry, _, hname, hregistration⟩ :=
    hopens _ "\x7b int x;".toList hbetween (by decide) (by decide +kernel) (by decide)
  exact ⟨cls, hregistry, hname.trans (by decide +kernel), hregistration⟩

end Progress

end Registrar
