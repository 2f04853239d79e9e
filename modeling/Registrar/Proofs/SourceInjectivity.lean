import Mathlib.Data.List.Forall2
import Registrar.Source

/-! What the registration source says about the classes it was written for. Every part of it, in
front of whatever follows, can be read in one way only: names end at their quotes and lines at their
newlines, and the lines of members, of functions and of the end of a block begin differently. So two
registries with the same source register the same classes with the same bindings. -/

namespace Registrar

namespace Text

def IsQuotable (t : Text) : Prop := '"' ∉ t ∧ '\n' ∉ t

instance (t : Text) : Decidable t.IsQuotable := inferInstanceAs (Decidable (_ ∧ _))

private theorem append_cons_inj {c : Char} {s t rest rest' : Text} (hs : c ∉ s) (ht : c ∉ t)
    (h : s ++ c :: rest = t ++ c :: rest') : s = t ∧ rest = rest' := by
  rcases List.append_eq_append_iff.mp h with ⟨u, rfl, hu⟩ | ⟨u, rfl, hu⟩
  · cases u with
    | nil => simpa using hu
    | cons d u =>
      rw [List.cons_append, List.cons.injEq] at hu
      exact absurd (by simp [hu.1]) ht
  · cases u with
    | nil => simpa [eq_comm] using hu
    | cons d u =>
      rw [List.cons_append, List.cons.injEq] at hu
      exact absurd (by simp [hu.1]) hs

/-- Two lists of pieces that read alike, where each piece can be read in one way and no piece begins
what follows the lists. -/
private theorem flatMap_append_inj {α β : Type} {R : α → β → Prop} {f : α → Text} {g : β → Text}
    {xs : List α} {ys : List β} {rest rest' : Text}
    (hpiece : ∀ x ∈ xs, ∀ y ∈ ys, ∀ s t, f x ++ s = g y ++ t → R x y ∧ s = t)
    (hleft : ∀ x ∈ xs, ∀ s, f x ++ s ≠ rest') (hright : ∀ y ∈ ys, ∀ t, g y ++ t ≠ rest)
    (h : xs.flatMap f ++ rest = ys.flatMap g ++ rest') : List.Forall₂ R xs ys ∧ rest = rest' := by
  induction xs generalizing ys with
  | nil =>
    cases ys with
    | nil => exact ⟨.nil, h⟩
    | cons y ys =>
      rw [List.flatMap_cons, List.append_assoc] at h
      exact absurd h.symm (hright y List.mem_cons_self _)
  | cons x xs ih =>
    cases ys with
    | nil =>
      rw [List.flatMap_cons, List.append_assoc] at h
      exact absurd h (hleft x List.mem_cons_self _)
    | cons y ys =>
      rw [List.flatMap_cons, List.flatMap_cons, List.append_assoc, List.append_assoc] at h
      obtain ⟨hxy, hrest⟩ := hpiece x List.mem_cons_self y List.mem_cons_self _ _ h
      obtain ⟨hlists, hrest⟩ := ih
        (fun x hx y hy => hpiece x (List.mem_cons_of_mem _ hx) y (List.mem_cons_of_mem _ hy))
        (fun x hx => hleft x (List.mem_cons_of_mem _ hx))
        (fun y hy => hright y (List.mem_cons_of_mem _ hy)) hrest
      exact ⟨.cons hxy hlists, hrest⟩

end Text

def Binding.IsQuotable (binding : Binding) : Prop :=
  binding.registration.IsQuotable ∧ binding.identifier.IsQuotable

instance (binding : Binding) : Decidable binding.IsQuotable := inferInstanceAs (Decidable (_ ∧ _))

namespace ReflectedClass

/-- Whether everything that the source says about a class fits between quotes. -/
structure IsQuotable (roots : List Text) (cls : ReflectedClass) : Prop where
  name : cls.name.render.IsQuotable
  registration : ∀ registration ∈ cls.registration, registration.IsQuotable
  members : ∀ binding ∈ cls.members, binding.IsQuotable
  functions : ∀ binding ∈ cls.functions, binding.IsQuotable
  includePath : (Include.path roots cls.header).IsQuotable

/-- Two classes that the source says the same about, their headers left out. -/
structure SameRegistration (cls other : ReflectedClass) : Prop where
  name_eq : cls.name.render = other.name.render
  registration_eq : cls.registration = other.registration
  members_eq : cls.members = other.members
  functions_eq : cls.functions = other.functions

end ReflectedClass

namespace Layout

/-- Whether the calls for members and for functions can be told apart once a quote follows them. -/
structure TellsBindings (layout : Layout) : Prop where
  memberCall : '"' ∉ layout.memberCall
  functionCall : '"' ∉ layout.functionCall
  ne : layout.memberCall ≠ layout.functionCall

private theorem includeLine_append (path rest : Text) :
    includeLine path ++ rest = "#include ".toList ++ '"' :: (path ++ '"' :: '\n' :: rest) := by
  simp [includeLine, sourceLine]

private theorem includeLine_append_inj {path path' rest rest' : Text} (hpath : path.IsQuotable)
    (hpath' : path'.IsQuotable) (h : includeLine path ++ rest = includeLine path' ++ rest') :
    path = path' ∧ rest = rest' := by
  rw [includeLine_append, includeLine_append] at h
  have hquoted := (List.cons.inj (List.append_cancel_left h)).2
  obtain ⟨hpaths, hrest⟩ := Text.append_cons_inj hpath.1 hpath'.1 hquoted
  exact ⟨hpaths, (List.cons.inj hrest).2⟩

variable {layout : Layout} {cls other : ReflectedClass} {rest rest' : Text}

private theorem bindingLine_append (layout : Layout) (cls : ReflectedClass) (kind : BindingKind)
    (binding : Binding) (rest : Text) :
    layout.bindingLine cls kind binding ++ rest =
      List.replicate 8 ' ' ++ layout.classBuilder ++ ['.'] ++
        (layout.bindingCall kind ++ ['('] ++ '"' :: (binding.registration ++ '"' ::
          (", &".toList ++ cls.name.render ++ "::".toList ++
            (binding.identifier ++ ");".toList ++ '\n' :: rest)))) := by
  simp [bindingLine, sourceLine]

/-- Among the bindings of one kind, in classes of one name, a line is read in one way. -/
private theorem bindingLine_append_inj (hname : cls.name.render = other.name.render)
    (kind : BindingKind)
    {binding binding' : Binding} (hbinding : binding.IsQuotable) (hbinding' : binding'.IsQuotable)
    (h : layout.bindingLine cls kind binding ++ rest =
      layout.bindingLine other kind binding' ++ rest') : binding = binding' ∧ rest = rest' := by
  rw [bindingLine_append, bindingLine_append] at h
  have hquoted := (List.cons.inj (List.append_cancel_left (List.append_cancel_left h))).2
  obtain ⟨hregistration, htarget⟩ := Text.append_cons_inj hbinding.1.1 hbinding'.1.1 hquoted
  rw [hname] at htarget
  obtain ⟨hidentifier, hrest⟩ := Text.append_cons_inj
    (List.not_mem_append hbinding.2.2 (by decide)) (List.not_mem_append hbinding'.2.2 (by decide))
    (List.append_cancel_left htarget)
  cases binding
  cases binding'
  cases hregistration
  cases List.append_cancel_right hidentifier
  exact ⟨rfl, hrest⟩

private theorem bindingLine_member_ne_function (htells : layout.TellsBindings)
    {member function : Binding} : layout.bindingLine cls .member member ++ rest ≠
      layout.bindingLine other .function function ++ rest' := by
  intro h
  rw [bindingLine_append, bindingLine_append] at h
  have hcalls := (Text.append_cons_inj (List.not_mem_append htells.memberCall (by decide))
    (List.not_mem_append htells.functionCall (by decide)) (List.append_cancel_left h)).1
  exact htells.ne (List.append_cancel_right hcalls)

def blockEnd : Text := sourceLine 1 ["\x7d".toList] ++ ['\n']

private theorem bindingLine_ne_blockEnd {kind : BindingKind} {binding : Binding} :
    layout.bindingLine cls kind binding ++ rest ≠ blockEnd ++ rest' := by
  intro h
  rw [bindingLine_append] at h
  simp [blockEnd, sourceLine, List.replicate] at h

/-- The lines of a block between its braces and the end of it: the members, then the functions. -/
private theorem bindingLines_append_inj (htells : layout.TellsBindings)
    (hname : cls.name.render = other.name.render) {roots roots' : List Text}
    (hcls : cls.IsQuotable roots) (hother : other.IsQuotable roots')
    (h : cls.members.flatMap (layout.bindingLine cls .member) ++
        (cls.functions.flatMap (layout.bindingLine cls .function) ++ (blockEnd ++ rest)) =
      other.members.flatMap (layout.bindingLine other .member) ++
        (other.functions.flatMap (layout.bindingLine other .function) ++ (blockEnd ++ rest'))) :
    cls.members = other.members ∧ cls.functions = other.functions ∧ rest = rest' := by
  -- What follows the members is a function or the end of the block, and no member begins so.
  have hafter : ∀ {c d : ReflectedClass} {member : Binding} {s t : Text},
      layout.bindingLine c .member member ++ s ≠
        d.functions.flatMap (layout.bindingLine d .function) ++ (blockEnd ++ t) := by
    intro c d member s t
    cases d.functions with
    | nil => exact bindingLine_ne_blockEnd
    | cons function more =>
      rw [List.flatMap_cons, List.append_assoc]
      exact bindingLine_member_ne_function htells
  obtain ⟨hmembers, hfunctions⟩ := Text.flatMap_append_inj
    (fun member hmember member' hmember' _ _ => bindingLine_append_inj hname .member
      (hcls.members member hmember) (hother.members member' hmember'))
    (fun _ _ _ => hafter) (fun _ _ _ => hafter) h
  obtain ⟨hfunctions, hrest⟩ := Text.flatMap_append_inj
    (fun function hfunction function' hfunction' _ _ => bindingLine_append_inj hname .function
      (hcls.functions function hfunction) (hother.functions function' hfunction'))
    (fun _ _ _ => bindingLine_ne_blockEnd) (fun _ _ _ => bindingLine_ne_blockEnd) hfunctions
  rw [List.forall₂_eq_eq_eq] at hmembers hfunctions
  exact ⟨hmembers, hfunctions, List.append_cancel_left hrest⟩

private theorem registrationBlock_append (layout : Layout) (cls : ReflectedClass)
    (registration rest : Text) :
    layout.registrationBlock cls registration ++ rest =
      sourceLine 1 ["\x7b".toList] ++ (List.replicate 8 ' ' ++ "auto ".toList ++
        layout.classBuilder ++ " = ".toList ++ layout.reflectSystem ++ ['.'] ++ layout.classCall ++
        ['<']) ++ (cls.name.render ++ ">(".toList ++ '"' :: (registration ++ '"' ::
          (");\n".toList ++ (cls.members.flatMap (layout.bindingLine cls .member) ++
            (cls.functions.flatMap (layout.bindingLine cls .function) ++
              (blockEnd ++ rest)))))) := by
  simp [registrationBlock, sourceLine, blockEnd]

private theorem registrationBlock_append_inj (htells : layout.TellsBindings)
    {roots roots' : List Text} (hcls : cls.IsQuotable roots) (hother : other.IsQuotable roots')
    {name name' : Text}
    (hregistration : cls.registration = some name)
    (hregistration' : other.registration = some name')
    (h : layout.registrationBlock cls name ++ rest =
      layout.registrationBlock other name' ++ rest') :
    cls.SameRegistration other ∧ rest = rest' := by
  rw [registrationBlock_append, registrationBlock_append] at h
  obtain ⟨hnames, h⟩ := Text.append_cons_inj (List.not_mem_append hcls.name.1 (by decide))
    (List.not_mem_append hother.name.1 (by decide)) (List.append_cancel_left h)
  obtain ⟨rfl, hlines⟩ := Text.append_cons_inj (hcls.registration name hregistration).1
    (hother.registration name' hregistration').1 h
  have hname := List.append_cancel_right hnames
  obtain ⟨hmembers, hfunctions, hrest⟩ :=
    bindingLines_append_inj htells hname hcls hother (List.append_cancel_left hlines)
  exact ⟨⟨hname, hregistration.trans hregistration'.symm, hmembers, hfunctions⟩, hrest⟩

private theorem block_eq_registrationBlock (layout : Layout) {registry : Registry}
    (hmem : cls ∈ registry.registered) :
    ∃ name, cls.registration = some name ∧
      layout.block cls = layout.registrationBlock cls name := by
  obtain ⟨name, hname⟩ := Option.isSome_iff_exists.mp (List.mem_filter.mp hmem).2
  exact ⟨name, hname, by rw [block, hname]⟩

private theorem block_append_ne_finish {registry : Registry} (hmem : cls ∈ registry.registered) :
    layout.block cls ++ rest ≠ finish := by
  obtain ⟨name, -, hblock⟩ := block_eq_registrationBlock layout hmem
  intro h
  rw [hblock, registrationBlock_append] at h
  simp [finish, sourceLine, List.replicate] at h

/-- The blocks of all registered classes are read in one way. -/
private theorem blocks_inj (htells : layout.TellsBindings) {a b : Registry}
    {rootsA rootsB : List Text} (ha : ∀ cls ∈ a.registered, cls.IsQuotable rootsA)
    (hb : ∀ cls ∈ b.registered, cls.IsQuotable rootsB)
    (h : a.registered.flatMap layout.block ++ finish =
      b.registered.flatMap layout.block ++ finish) :
    List.Forall₂ ReflectedClass.SameRegistration a.registered b.registered := by
  refine (Text.flatMap_append_inj (fun cls hcls other hother s t heq => ?_)
    (fun _ hcls _ => block_append_ne_finish hcls) (fun _ hcls _ => block_append_ne_finish hcls) h).1
  obtain ⟨name, hname, hblock⟩ := block_eq_registrationBlock layout hcls
  obtain ⟨name', hname', hblock'⟩ := block_eq_registrationBlock layout hother
  rw [hblock, hblock'] at heq
  exact registrationBlock_append_inj htells (ha cls hcls) (hb other hother) hname hname' heq

/-- The list of includes ends at an empty line. -/
private theorem preamble_append_inj (layout : Layout) {includes includes' : List Text}
    (hincludes : ∀ path ∈ includes, path.IsQuotable)
    (hincludes' : ∀ path ∈ includes', path.IsQuotable)
    (h : layout.preamble includes ++ rest = layout.preamble includes' ++ rest') :
    includes = includes' ∧ rest = rest' := by
  simp only [preamble, List.flatMap_append, List.append_assoc, List.append_cancel_left_eq] at h
  have hend : ∀ {path s t : Text}, includeLine path ++ s ≠ ['\n'] ++ t := by
    intro path s t heq
    rw [includeLine_append] at heq
    simp at heq
  obtain ⟨heq, hrest⟩ := Text.flatMap_append_inj
    (fun path hpath path' hpath' _ _ =>
      includeLine_append_inj (hincludes path hpath) (hincludes' path' hpath'))
    (fun _ _ _ => hend) (fun _ _ _ => hend) h
  rw [List.forall₂_eq_eq_eq] at heq
  exact ⟨heq, List.append_cancel_left hrest⟩

end Layout

private theorem Include.isQuotable_of_mem_collect {roots : List Text} {registry : Registry}
    (h : ∀ cls ∈ registry.registered, cls.IsQuotable roots) {path : Text}
    (hpath : path ∈ Include.collect roots registry) : path.IsQuotable := by
  obtain ⟨cls, hcls, rfl⟩ := List.mem_map.mp (List.mem_eraseDups.mp hpath)
  exact (h cls hcls).includePath

namespace Layout

/-- The source with the usual words says which headers it includes and, for each class in order, the
names and bindings that it registers; nothing about a class without a registration goes into it. -/
theorem source_determines_registrations (a b : Registry) (rootsA rootsB : List Text) :
    ((∀ cls ∈ a.registered, cls.IsQuotable rootsA) →
      (∀ cls ∈ b.registered, cls.IsQuotable rootsB) →
      ({} : Layout).source rootsA a = ({} : Layout).source rootsB b →
        Include.collect rootsA a = Include.collect rootsB b ∧
          List.Forall₂ ReflectedClass.SameRegistration a.registered b.registered) ∧
      (a.registered = b.registered →
        ({} : Layout).source rootsA a = ({} : Layout).source rootsA b) := by
  have htells : ({} : Layout).TellsBindings := ⟨by decide, by decide, by decide⟩
  constructor
  · intro ha hb h
    simp only [source, List.append_assoc] at h
    obtain ⟨hincludes, hbody⟩ := preamble_append_inj {}
      (fun _ => Include.isQuotable_of_mem_collect ha)
      (fun _ => Include.isQuotable_of_mem_collect hb) h
    exact ⟨hincludes, blocks_inj htells ha hb (List.append_cancel_left hbody)⟩
  · intro h
    rw [source, source, Include.collect, Include.collect, h]

/-- One class found below two roots, next to a class that is not registered. Its members are named
like the end of a line and of a block. -/
theorem source_determines_registrations_two_roots :
    let cls (header : Text) : ReflectedClass :=
      ⟨⟨["game".toList], "Actor".toList⟩, header, some "A>(".toList,
        [⟨"hp".toList, "hp);".toList⟩, ⟨");".toList, "    \x7d".toList⟩],
        [⟨"run".toList, "run".toList⟩]⟩
    let a : Registry := [cls "left/a.hpp".toList]
    let b : Registry := [⟨.global "Hidden".toList, "b.hpp".toList, none, [], []⟩,
      cls "right\\a.hpp".toList]
    Include.collect ["left".toList] a = ["a.hpp".toList] ∧
      a.registered = [cls "left/a.hpp".toList] ∧ b.registered = [cls "right\\a.hpp".toList] ∧
      Include.collect ["left".toList] a = Include.collect ["right/".toList] b ∧
      List.Forall₂ ReflectedClass.SameRegistration a.registered b.registered := by
  intro cls a b
  refine ⟨by decide +kernel, rfl, rfl, ?_⟩
  refine (source_determines_registrations a b ["left".toList] ["right/".toList]).1 ?_ ?_ ?_
  · intro c hc
    cases List.mem_singleton.mp hc
    exact ⟨by decide, by decide, by decide, by decide, by decide⟩
  · intro c hc
    cases List.mem_singleton.mp hc
    exact ⟨by decide, by decide, by decide, by decide, by decide⟩
  · decide +kernel

end Layout

end Registrar
