import Registrar.Proofs.ClassFinality
import Registrar.Proofs.LineEffects
import Registrar.Proofs.QualifiedNames

/-! What every class of a scan looks like. Names and scopes are made of words, whatever the header
holds, and nothing is registered under an empty name. So a class can be told by the spelling of its
qualified name. -/

namespace Registrar

/-- A binding of an identifier, registered under some name. -/
structure Binding.WellFormed (binding : Binding) : Prop where
  identifier : binding.identifier.isIdentifier = true
  registration : binding.registration ≠ []

/-- A class of a header: a name inside words, registered under some name if at all. -/
structure ReflectedClass.WellFormed (header : Text) (cls : ReflectedClass) : Prop where
  header_eq : cls.header = header
  name : cls.name.name.isName = true
  scope : ∀ segment ∈ cls.name.scope, segment.isWord = true
  registration : ∀ registration ∈ cls.registration, registration ≠ []
  bindings : ∀ kind, ∀ binding ∈ cls.bindings kind, binding.WellFormed

/-- The head of a class: a name, and a mark that asks for no empty name. -/
structure ClassHead.WellFormed (head : ClassHead) : Prop where
  name : head.name.isName = true
  mark : head.mark ≠ some (.explicit [])

private theorem Marker.registration_ne (name line : Text) :
    registration name line ≠ .explicit [] := by
  unfold registration
  split
  · rename_i explicit _
    split
    · exact nofun
    · rename_i hempty
      intro heq
      exact hempty (by rw [Registration.explicit.inj heq]; rfl)
  · exact nofun

private theorem Binding.wellFormed_named {identifier : Text} (h : identifier.isIdentifier = true)
    (registration : Text) : (named registration identifier).WellFormed := by
  refine ⟨h, ?_⟩
  unfold named
  split
  · exact Text.ne_nil_of_isIdentifier h
  · rename_i hempty
    exact fun heq => hempty (List.isEmpty_iff.mpr heq)

private theorem Markers.wellFormed_of_mem_bound {markers : Markers} {kind : BindingKind}
    {line : Text} {slots : Slots} :
    ∀ binding ∈ markers.bound kind line slots, binding.WellFormed := by
  unfold bound
  split
  · rename_i explicit identifier _ hidentifier
    have hword := Declaration.isIdentifier_of_identifier? hidentifier
    exact List.forall_mem_singleton.mpr (Binding.wellFormed_named hword explicit)
  · exact nofun

private theorem wellFormed_of_opening {marker line name : Text}
    (h : heading? marker line = some (.opening name)) : ClassHead.WellFormed ⟨name, none⟩ := by
  obtain ⟨name, hname, ⟨_, heq⟩ | ⟨_, _, heq⟩ | ⟨_, _, heq⟩⟩ := heading?_cases h <;> cases heq
  exact ⟨Heading.isName_of_className? hname, nofun⟩

private theorem wellFormed_of_split {marker line : Text} {head : ClassHead}
    (h : heading? marker line = some (.split head)) : head.WellFormed := by
  obtain ⟨name, hname, ⟨_, heq⟩ | ⟨_, _, heq⟩ | ⟨_, _, heq⟩⟩ := heading?_cases h <;> cases heq
  refine ⟨Heading.isName_of_className? hname, ?_⟩
  split
  · exact fun heq => Marker.registration_ne marker line (Option.some.inj heq)
  · exact nofun

namespace ReflectedClass.WellFormed

variable {header : Text} {cls : ReflectedClass}

private theorem isPlain (h : cls.WellFormed header) : cls.name.IsPlain := by
  have hword : ∀ part ∈ cls.name.scope ++ [cls.name.name], part.isWord = true :=
    List.forall_mem_append.mpr
      ⟨h.scope, List.forall_mem_singleton.mpr (Text.isWord_of_isName h.name)⟩
  exact fun part hpart => Text.not_mem_of_isWord (hword part hpart) (by decide)

/-- No class is registered under an empty name: a mark gives one that is not empty, or the
qualified name is taken. -/
private theorem nameFor_ne_nil (h : cls.WellFormed header) {registration : Registration}
    (hmark : registration ≠ .explicit []) : cls.nameFor registration ≠ [] := by
  cases registration with
  | qualified =>
    have hname := (Text.isWord_iff.mp (Text.isWord_of_isName h.name)).1
    exact QualifiedName.render_ne_nil h.isPlain hname
  | explicit name => exact fun heq => hmark (congrArg Registration.explicit heq)

private theorem register (h : cls.WellFormed header) {registration : Registration}
    (hmark : registration ≠ .explicit []) : (cls.register registration).WellFormed header where
  header_eq := h.header_eq
  name := h.name
  scope := h.scope
  registration := by
    rintro _ ⟨⟩
    exact h.nameFor_ne_nil hmark
  bindings := by
    intro kind
    rw [bindings_register]
    exact h.bindings kind

/-- Whatever a line says about a well-formed class, the class stays well formed. -/
private theorem annotateClass (h : cls.WellFormed header) (markers : Markers) (line : Text)
    (slots : Slots) : (markers.annotateClass line slots cls).WellFormed header := by
  have hextends := Extends.annotateClass markers line slots cls
  refine ⟨hextends.header_eq.trans h.header_eq, ?_, ?_, ?_, ?_⟩
  · rw [hextends.name_eq]
    exact h.name
  · rw [hextends.name_eq]
    exact h.scope
  · rw [Markers.registration_annotateClass]
    split
    · rintro _ ⟨⟩
      exact h.nameFor_ne_nil (Marker.registration_ne markers.onClass line)
    · exact h.registration
  · intro kind
    rw [Markers.bindings_annotateClass]
    exact List.forall_mem_append.mpr ⟨h.bindings kind, Markers.wellFormed_of_mem_bound⟩

end ReflectedClass.WellFormed

/-- A state in which every class, every open namespace and the pending head are well formed. -/
structure Progress.WellFormed (header : Text) (progress : Progress) : Prop where
  classes : ∀ cls ∈ progress.registry, cls.WellFormed header
  namespaces : ∀ frame ∈ progress.scopes.namespaces, Heading.IsChain frame.name
  pending : ∀ head ∈ progress.scopes.pending, head.WellFormed

namespace Progress

variable {header : Text} {progress : Progress}

/-- The namespaces that a line opens are well formed, those that were open stay. -/
private theorem WellFormed.openNamespaces (h : progress.WellFormed header) (line : Text) :
    ∀ frame ∈ (progress.scopes.openNamespaces line).namespaces, Heading.IsChain frame.name := by
  intro frame hframe
  rcases List.mem_append.mp hframe with hframe | hframe
  · obtain ⟨name, hname, rfl⟩ := List.mem_map.mp (List.mem_reverse.mp hframe)
    exact Heading.isChain_of_mem_namespaces hname
  · exact h.namespaces frame hframe

private theorem WellFormed.enter (h : progress.WellFormed header) (line : Text) :
    (progress.enter line none).WellFormed header :=
  ⟨h.classes, h.openNamespaces line, nofun⟩

/-- The scope of a class opened now is made of words: a chained namespace is cut at its `::`, and
the names of classes have none. -/
private theorem WellFormed.isWord_of_mem_path (h : progress.WellFormed header) :
    ∀ segment ∈ progress.path, segment.isWord = true := by
  intro segment hsegment
  obtain ⟨name, hname, hpart⟩ := List.mem_flatMap.mp (List.mem_filter.mp hsegment).1
  rcases List.mem_append.mp hname with hname | hname
  · obtain ⟨frame, hframe, rfl⟩ := List.mem_map.mp (List.mem_reverse.mp hname)
    exact QualifiedName.isWord_of_mem_splitScope (h.namespaces frame hframe) segment hpart
  · obtain ⟨frame, _, hclass⟩ := List.mem_filterMap.mp (List.mem_reverse.mp hname)
    obtain ⟨cls, hcls, rfl⟩ := Option.map_eq_some_iff.mp hclass
    have hword := Text.isWord_of_isName (h.classes cls (List.mem_of_getElem? hcls)).name
    rw [QualifiedName.splitScope_word (Text.not_mem_of_isWord hword (by decide)),
      List.mem_singleton] at hpart
    exact hpart ▸ hword

private theorem WellFormed.fresh (h : progress.WellFormed header) {head : ClassHead}
    (hhead : head.WellFormed) : (progress.fresh header head).WellFormed header := by
  have hcls : ReflectedClass.WellFormed header { name := ⟨progress.path, head.name⟩, header } :=
    ⟨rfl, hhead.name, h.isWord_of_mem_path, nofun, fun kind => by cases kind <;> exact nofun⟩
  unfold Progress.fresh
  split
  · rename_i registration hmark
    exact hcls.register fun heq => hhead.mark (hmark.trans (congrArg some heq))
  · exact hcls

private theorem WellFormed.readLine (h : progress.WellFormed header) (markers : Markers)
    (line : Text) : (progress.readLine markers header line).WellFormed header := by
  obtain ⟨hopened, hpending⟩ : (∀ head ∈ (progress.scopes.headings markers.onClass line).1,
      head.WellFormed) ∧ ∀ head ∈ (progress.scopes.headings markers.onClass line).2,
      head.WellFormed :=
    Scopes.forall_headings h.pending (fun _ => wellFormed_of_opening) fun _ => wellFormed_of_split
  refine ⟨?_, ?_, ?_⟩
  · apply forall_mem_registry_readLine h.classes
    · intro head hhead
      exact (h.enter line).fresh (hopened head hhead)
    · intro slots cls hcls
      exact hcls.annotateClass markers line slots
  · intro frame hframe
    exact h.openNamespaces line frame (mem_namespaces_readLine hframe)
  · rw [pending_readLine]
    exact hpending

private theorem WellFormed.readLines (h : progress.WellFormed header) (markers : Markers)
    (lines : List Text) : (progress.readLines markers header lines).WellFormed header := by
  induction lines generalizing progress with
  | nil => exact h
  | cons line lines ih => exact ih (h.readLine markers line)

end Progress

namespace Markers

private theorem wellFormed_of_mem_scan {markers : Markers} {header source : Text} :
    ∀ cls ∈ markers.scan header source, cls.WellFormed header := by
  rcases markers.scan_cases header source with hscan | hscan
  · have hstart : Progress.WellFormed header {} := ⟨nofun, nofun, nofun⟩
    rw [hscan]
    exact (hstart.readLines markers source.cleanLines).classes
  · rw [hscan]
    exact nofun

/-- Every class of every scan is well formed and no part of its qualified name holds a colon. Two
classes, of one scan or of two, whose qualified names are spelled alike have the same scope and the
same name. -/
theorem scan_wellFormed (markers : Markers) (header source : Text) :
    (∀ cls ∈ markers.scan header source, cls.WellFormed header ∧ cls.name.IsPlain) ∧
    ∀ (markers' : Markers) (header' source' : Text),
      ∀ a ∈ markers.scan header source, ∀ b ∈ markers'.scan header' source',
        a.name.render = b.name.render →
          a.name.scope = b.name.scope ∧ a.name.name = b.name.name := by
  refine ⟨?_, ?_⟩
  · intro cls hcls
    have hformed := wellFormed_of_mem_scan cls hcls
    exact ⟨hformed, hformed.isPlain⟩
  · intro markers' header' source' a ha b hb hrender
    have heq : a.name = b.name := QualifiedName.eq_of_render_eq
      (wellFormed_of_mem_scan a ha).isPlain (wellFormed_of_mem_scan b hb).isPlain hrender
    exact ⟨congrArg QualifiedName.scope heq, congrArg QualifiedName.name heq⟩

/-- A namespace `a::b` in one header and `b` inside `a` in another one give classes whose qualified
names are spelled alike. -/
theorem scan_wellFormed_chained :
    let chained := "namespace a::b \x7b\nREFLECT_CLASS()\nstruct C \x7b\n\x7d;\n\x7d\n".toList
    let nested := "namespace a \x7b namespace b \x7b\nREFLECT_CLASS(\"\") class C\n\x7b\n".toList
    ∃ a ∈ Markers.scan {} "a.hpp".toList chained, ∃ b ∈ Markers.scan {} "b.hpp".toList nested,
      a.WellFormed "a.hpp".toList ∧ b.WellFormed "b.hpp".toList ∧
      a.name.render = "a::b::C".toList ∧ a.name.scope = b.name.scope := by
  intro chained nested
  obtain ⟨hformed, halike⟩ := scan_wellFormed {} "a.hpp".toList chained
  obtain ⟨hformed', _⟩ := scan_wellFormed {} "b.hpp".toList nested
  have ha : (⟨⟨["a".toList, "b".toList], "C".toList⟩, "a.hpp".toList, none, [], []⟩ :
      ReflectedClass) ∈ Markers.scan {} "a.hpp".toList chained := by decide +kernel
  have hb : (⟨⟨["a".toList, "b".toList], "C".toList⟩, "b.hpp".toList, some "a::b::C".toList, [],
      []⟩ : ReflectedClass) ∈ Markers.scan {} "b.hpp".toList nested := by decide +kernel
  exact ⟨_, ha, _, hb, (hformed _ ha).1, (hformed' _ hb).1, by decide,
    (halike {} "b.hpp".toList nested _ ha _ hb (by decide)).1⟩

end Markers

end Registrar
