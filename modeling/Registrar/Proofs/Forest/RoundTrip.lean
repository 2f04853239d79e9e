import Registrar.Proofs.Forest.Steps

/-! Scanning the text of a forest gives the classes of the forest. -/

namespace Registrar.Forest

open Progress (Ready)

variable {markers : Markers} {progress : Progress} {frame : ClassFrame} {outer : List ClassFrame}

private theorem effects_opening (h : markers.Apart) (head : Head markers) :
    markers.effects (head.front ++ [' ', '{']) {} =
      match head.mark.pending with
      | some registration => [.register registration]
      | none => [] := by
  have hplain := absentFrom_plain head h [' ', '{'] (by decide)
  have hspace : markers.absentFrom (' ' :: (head.plain ++ [' ', '{'])) = true := by
    rw [Markers.absentFrom_cons h (by decide), hplain]
  rw [Head.front]
  cases head.mark with
  | absent => exact Markers.effects_empty_of_absentFrom hplain
  | leading label =>
    rw [List.append_assoc]
    exact effects_class label h hspace
  | inside label => exact Markers.effects_empty_of_absentFrom hplain

/-- The head and its brace on one line. -/
theorem readLine_opening (h : markers.Apart) (hready : Ready progress) (header : Text)
    (head : Head markers) :
    progress.readLine markers header (head.front ++ [' ', '{']) =
      progress.enterClass (progress.fresh header ⟨head.name.text, head.mark.pending⟩) := by
  have hhead := heading?_opening head h
  have hheadings : (progress.await none).scopes.headings markers.onClass
      (head.front ++ [' ', '{']) = (some ⟨head.name.text, none⟩, none) := by
    simp only [Scopes.headings, hhead]
  have hmarks : marksLaterClass markers.onClass (head.front ++ [' ', '{']) = false := by
    simp only [marksLaterClass, hhead]
  have hopens := Progress.readLine_opens hready header (namespaces_opening head h)
    hheadings hmarks (Braces.ofLine_opening (isFlat_front head h).1 (isFlat_front head h).2)
    (effects_opening h head) (by cases head.mark <;> rfl)
  rw [hready.await_none] at hopens
  rw [hopens]
  cases head.mark <;> rfl

/-- The head of a class without its brace. A marker in front of it is kept for later. -/
theorem readLine_split (h : markers.Apart) (hready : Ready progress) (header : Text)
    {head : Head markers} (hsplit : head.isSplit = true) :
    progress.readLine markers header head.front =
      progress.await (some ⟨head.name.text, head.mark.pending⟩) := by
  have hflat := isFlat_front head h
  have hhead := heading?_split head h hsplit
  have hheadings : progress.scopes.headings markers.onClass head.front =
      (none, some ⟨head.name.text, head.mark.pending⟩) := by
    simp only [Scopes.headings, hhead]
  have hread : (progress.await (some ⟨head.name.text, head.mark.pending⟩)).readMarkers markers
      head.front = progress.await (some ⟨head.name.text, head.mark.pending⟩) := by
    have hplain := absentFrom_plain head h [] rfl
    rw [List.append_nil] at hplain
    simp only [Progress.readMarkers, marksLaterClass, hhead]
    rw [Head.front]
    cases head.mark with
    | absent => exact Progress.annotate_of_absentFrom hready.slots hplain
    | leading label => rfl
    | inside label => exact Progress.annotate_of_absentFrom hready.slots hplain
  rw [Progress.readLine, Progress.openScopes_of_none markers.onClass header hheadings,
    Progress.enter_of_nil (Heading.namespaces_of_not_mem hflat.1), hread]
  refine Progress.closeScopes_of_le _ ?_ hready.nested.namespaces_le hready.nested.classes_le
  rw [Progress.change_of_isFlat hflat]
  exact Int.add_zero _

/-- A brace of its own opens the class whose head is pending. -/
theorem readLine_brace (h : markers.Apart) (hready : Ready progress) (header : Text)
    (head : ClassHead) :
    (progress.await (some head)).readLine markers header ['{'] =
      progress.enterClass (progress.fresh header head) := by
  have habsent : markers.absentFrom ['{'] = true :=
    Markers.absentFrom_of_isWordless h (by decide)
  have hhead : heading? markers.onClass ['{'] = none := by
    apply heading?_of_className?
    rw [Marker.skipLeading_of_absent (Markers.onClass_absent habsent)]
    rfl
  have hheadings : (progress.await (some head)).scopes.headings markers.onClass ['{'] =
      (some head, none) := by
    simp only [Scopes.headings, hhead]
    rfl
  have hmarks : marksLaterClass markers.onClass ['{'] = false := by
    simp only [marksLaterClass, hhead]
  exact Progress.readLine_opens hready header (by decide +kernel) hheadings hmarks rfl
    (Markers.effects_empty_of_absentFrom habsent) rfl

/-- A class marker alone on a line registers the class around it. -/
theorem readLine_inside (h : markers.Apart) (hready : Ready progress) (header : Text)
    (cls : ReflectedClass) (label : Option (Label markers)) :
    (progress.enterClass cls).readLine markers header (invoke markers.onClass label) =
      progress.enterClass (cls.register (registrationOf label)) := by
  have heffects := effects_class label h (Markers.absentFrom_nil h)
  rw [List.append_nil] at heffects
  rw [Progress.readLine_of_isFlat (hready.enterClass cls).nested rfl heffects
    (isFlat_invoke h.onClass label) (.inl (heading?_class h label))]
  exact congrArg _ (Registry.update_append_right progress.registry [cls] 0 _)

/-- Whatever the style of the head, after it the class is open and registered if it is marked. -/
theorem readLines_head (h : markers.Apart) (hready : Ready progress) (header : Text)
    (head : Head markers) :
    progress.readLines markers header head.lines =
      progress.enterClass (head.reflect header progress.path .done) := by
  have hopen : progress.readLines markers header
      (if head.isSplit then [head.front, ['{']] else [head.front ++ [' ', '{']]) =
      progress.enterClass (progress.fresh header ⟨head.name.text, head.mark.pending⟩) := by
    split
    · rename_i hsplit
      have hfront := readLine_split h hready header hsplit
      exact (congrArg _ hfront).trans (readLine_brace h hready header _)
    · exact readLine_opening h hready header head
  rw [Head.lines, Progress.readLines_append, hopen, Head.reflect]
  cases head.mark with
  | absent => rfl
  | leading label => cases label <;> rfl
  | inside label =>
    refine (readLine_inside h hready header _ label).trans ?_
    cases label <;> rfl

private theorem named_given (item : Item markers) :
    Binding.named (given item.label) item.name.text = item.binding := by
  rw [Item.binding]
  cases item.label with
  | none => rfl
  | some label =>
    have hname : ¬ (given (some label)).isEmpty = true := by simpa [given] using label.nonempty
    rw [Binding.named, if_neg hname]
    rfl

/-- The marker alone waits, and nothing else changes. -/
theorem readLine_wait (h : markers.Apart) (hready : Ready progress) (header : Text)
    (hclasses : progress.scopes.classes = frame :: outer) (item : Item markers) :
    progress.readLine markers header (invoke (markers.onBinding item.kind) item.label) =
      { progress with scopes := { progress.scopes with
          classes := { frame with
            slots := ({} : Slots).set item.kind (some (given item.label)) } :: outer } } := by
  have hslots : frame.slots = {} := hready.slots frame (by simp [hclasses])
  have heffects := effects_binding item.label h (Markers.absentFrom_nil h) item.kind
  have hhead := heading?_binding h item.kind item.label (Markers.absentFrom_nil h)
  rw [List.append_nil, Declaration.identifier?_nil, ← hslots] at heffects
  rw [List.append_nil] at hhead
  have hregistry : progress.registry.update frame.index
      (Effect.classAfter [.wait item.kind (given item.label)]) = progress.registry :=
    List.modify_id ..
  rw [Progress.readLine_of_isFlat hready.nested hclasses heffects
    (isFlat_invoke (h.onBinding item.kind) item.label) (.inl hhead), hregistry, hslots]
  rfl

/-- A marked declaration is added to the innermost class, and no marker is left waiting. -/
theorem readLines_item (h : markers.Apart) (hready : Ready progress) (header : Text)
    (hclasses : progress.scopes.classes = frame :: outer) (item : Item markers) :
    progress.readLines markers header item.lines =
      ⟨progress.scopes,
        progress.registry.update frame.index (·.addBinding item.kind item.binding)⟩ := by
  have hslots : frame.slots = {} := hready.slots frame (by simp [hclasses])
  have hback : { progress.scopes with classes := { frame with slots := {} } :: outer } =
      progress.scopes := by
    rw [← hslots, ← hclasses]
  rw [Item.lines]
  split
  · have hwait := readLine_wait h hready header hclasses item
    have hnested := hready.nested.readLine markers header
      (invoke (markers.onBinding item.kind) item.label)
    rw [hwait] at hnested
    have hcleared : Effect.slotsAfter [.resolve item.kind item.binding]
        (({} : Slots).set item.kind (some (given item.label))) = {} := by
      cases item.kind <;> rfl
    have heffects := effects_declaration item h (given item.label)
    rw [named_given] at heffects
    refine (congrArg (Progress.readLine markers header item.declaration) hwait).trans ?_
    rw [Progress.readLine_of_isFlat hnested rfl heffects (isFlat_declaration item)
      (heading?_declaration markers.onClass item), hcleared]
    exact congrArg (Progress.mk · _) hback
  · have hrest : markers.absentFrom (' ' :: item.declaration) = true := by
      rw [Markers.absentFrom_cons h (by decide), absentFrom_declaration item h]
    have hidentifier : Declaration.identifier? item.kind (' ' :: item.declaration) =
        some item.name.text := identifier?_declaration item [' '] (by simp)
    have hflat : Text.IsFlat
        (invoke (markers.onBinding item.kind) item.label ++ ' ' :: item.declaration) := by
      simp [isFlat_invoke (h.onBinding item.kind), isFlat_declaration item]
    have heffects := effects_binding item.label h hrest item.kind
    simp only [hidentifier, named_given] at heffects
    rw [← hslots] at heffects
    refine (Progress.readLine_of_isFlat hready.nested hclasses heffects hflat
      (.inl (heading?_binding h item.kind item.label hrest))).trans ?_
    rw [hslots]
    exact congrArg (Progress.mk · _) hback

def Body.extend (body : Body markers) (cls : ReflectedClass) : ReflectedClass :=
  { cls with
    members := cls.members ++ body.bindings .member
    functions := cls.functions ++ body.bindings .function }

private theorem Body.extend_done : (Body.done : Body markers).extend = id := by
  funext cls
  simp [Body.extend, Body.bindings]

private theorem Body.extend_item (entry : Item markers) (rest : Body markers) :
    rest.extend ∘ (·.addBinding entry.kind entry.binding) = (Body.item entry rest).extend := by
  funext cls
  cases hkind : entry.kind with
  | member => simp [Body.extend, Body.bindings, ReflectedClass.addBinding, hkind]
  | function => simp [Body.extend, Body.bindings, ReflectedClass.addBinding, hkind]

private theorem Body.extend_reflect (header : Text) (scope : List Text) (head : Head markers)
    (body : Body markers) :
    body.extend (head.reflect header scope .done) = head.reflect header scope body := by
  simp only [Body.extend, Head.reflect, Body.bindings, List.nil_append]

/-- The lines of a body extend the innermost class and add the nested classes behind all others;
the scopes are as before. -/
def Body.IsRead (header : Text) (body : Body markers) : Prop :=
  ∀ {progress : Progress} {frame : ClassFrame} {outer : List ClassFrame}, Ready progress →
    progress.scopes.classes = frame :: outer →
    progress.readLines markers header body.lines =
      ⟨progress.scopes, progress.registry.update frame.index body.extend ++
        body.classes header progress.path⟩

/-- A class with its body adds itself and the classes inside it. -/
theorem readLines_class (h : markers.Apart) (hready : Ready progress) {header : Text}
    {body : Body markers} (hbody : body.IsRead header) (head : Head markers) :
    progress.readLines markers header (head.lines ++ body.lines ++ [['}', ';']]) =
      ⟨progress.scopes, progress.registry ++ head.reflect header progress.path body ::
        body.classes header (progress.path ++ [head.name.text])⟩ := by
  have hinner := hbody (hready.enterClass (head.reflect header progress.path .done)) rfl
  have hpath := Progress.path_enterClass hready.nested.indices_lt
    (head.reflect header progress.path .done) head.name.isIdentifier
  have hupdate := Registry.update_append_right progress.registry
    [head.reflect header progress.path .done] 0 body.extend
  rw [Progress.readLines_append, Progress.readLines_append, readLines_head h hready, hinner, hpath]
  refine (Progress.readLine_closes_class h hready (.inr rfl) _ _).trans (congrArg _ ?_)
  refine (congrArg (· ++ _) hupdate).trans ?_
  rw [← Body.extend_reflect, List.append_assoc]
  rfl

private theorem Body.isRead (h : markers.Apart) (header : Text) (body : Body markers) :
    body.IsRead header := by
  induction body with
  | done =>
    intro progress frame outer hready hclasses
    rw [Body.extend_done, Registry.update, List.modify_id]
    simp [Body.lines, Body.classes, Progress.readLines]
  | item entry rest ih =>
    intro progress frame outer hready hclasses
    have hlength : progress.registry.length ≤ (progress.registry.update frame.index
        (·.addBinding entry.kind entry.binding)).length := Nat.le_of_eq (List.length_modify ..).symm
    have hrest := ih (hready.withRegistry hlength) hclasses
    have hpath : Progress.path ⟨progress.scopes, progress.registry.update frame.index
        (·.addBinding entry.kind entry.binding)⟩ = progress.path :=
      Progress.path_update (fun cls => cls.name_addBinding entry.kind entry.binding) frame.index
    rw [Body.lines, Progress.readLines_append, readLines_item h hready header hclasses, hrest,
      hpath, Registry.update, Registry.update, List.modify_modify_eq, Body.extend_item]
    rfl
  | nested head inner rest ihInner ihRest =>
    intro progress frame outer hready hclasses
    have hindex : frame.index < progress.registry.length :=
      hready.nested.indices_lt frame (by simp [hclasses])
    have hlines : (Body.nested head inner rest).lines =
        (head.lines ++ inner.lines ++ [['}', ';']]) ++ rest.lines := by
      simp [Body.lines]
    have hlength : progress.registry.length ≤ (progress.registry ++
        head.reflect header progress.path inner ::
          inner.classes header (progress.path ++ [head.name.text])).length := by
      simp
    rw [hlines, Progress.readLines_append, readLines_class h hready ihInner,
      ihRest (hready.withRegistry hlength) hclasses,
      Progress.path_append hready.nested.indices_lt, Registry.update_append_left hindex,
      List.append_assoc]
    rfl

private theorem readLines_forest (h : markers.Apart) (header : Text) (forest : Forest markers)
    (hready : Ready progress) (hclasses : progress.scopes.classes = []) :
    progress.readLines markers header forest.lines =
      ⟨progress.scopes, progress.registry ++ forest.classes header progress.path⟩ := by
  induction forest generalizing progress with
  | done => simp [lines, classes, Progress.readLines]
  | space name inner rest ihInner ihRest =>
    have hlines : (Forest.space name inner rest).lines =
        [name.line] ++ inner.lines ++ [['}']] ++ rest.lines := by
      simp [lines]
    have hopen : progress.readLines markers header [name.line] = progress.enterSpace name.text :=
      Progress.readLine_space hready (namespaces_space name) (heading?_space h name)
        (ofLine_space name) (absentFrom_space h name)
    have hpath : (progress.enterSpace name.text).path = progress.path ++ name.parts := by
      rw [name.text_eq]
      apply Progress.path_enterSpace hclasses name.first.isIdentifier
      intro w hw
      obtain ⟨word, _, rfl⟩ := List.mem_map.mp hw
      exact word.isIdentifier
    have hinner := ihInner (hready.enterSpace name.text) hclasses
    rw [hpath] at hinner
    have hclose : Progress.readLines markers header [['}']] ⟨(progress.enterSpace name.text).scopes,
        progress.registry ++ inner.classes header (progress.path ++ name.parts)⟩ =
        ⟨progress.scopes,
          progress.registry ++ inner.classes header (progress.path ++ name.parts)⟩ :=
      Progress.readLine_closes_space h hready (.inl rfl) _ _
    have hlength : progress.registry.length ≤
        (progress.registry ++ inner.classes header (progress.path ++ name.parts)).length := by
      simp
    rw [hlines, Progress.readLines_append, Progress.readLines_append, Progress.readLines_append,
      hopen, hinner]
    refine (congrArg (Progress.readLines markers header rest.lines) hclose).trans ?_
    rw [ihRest (hready.withRegistry hlength) hclasses,
      Progress.path_append hready.nested.indices_lt, List.append_assoc]
    rfl
  | cls head body rest ih =>
    have hlines : (Forest.cls head body rest).lines =
        (head.lines ++ body.lines ++ [['}', ';']]) ++ rest.lines := by
      simp [lines]
    have hlength : progress.registry.length ≤ (progress.registry ++
        head.reflect header progress.path body ::
          body.classes header (progress.path ++ [head.name.text])).length := by
      simp
    rw [hlines, Progress.readLines_append, readLines_class h hready (body.isRead h header),
      ih (hready.withRegistry hlength) hclasses,
      Progress.path_append hready.nested.indices_lt, List.append_assoc]
    rfl

/-- Rendering a forest and scanning the text gives the classes of the forest back, each with its
qualified name, its registration and its own bindings, in the order of their heads. Without any
class marker the text is not scanned. -/
theorem scan_render (header : Text) (forest : Forest ({} : Markers)) :
    ({} : Markers).scan header forest.render =
      if forest.isMarked then forest.classes header [] else [] := by
  have h := Markers.apart_default
  have hready : Ready {} := ⟨Progress.nested_start [], rfl, by simp⟩
  have hread := readLines_forest h header forest hready rfl
  rw [Markers.scan, needsScan_render h, cleanLines_render h, hread]
  rfl

/-- A marked member that waits for its line, inside a class with a chained scope, and a struct whose
head is split from its brace. -/
example :
    let a : Word {} := ⟨['a'], by decide, by decide⟩
    let b : Word {} := ⟨['b'], by decide, by decide⟩
    let label : Label {} := ⟨"// n".toList, by decide, by decide, by decide⟩
    let item : Item {} := ⟨.member, some label, b, a, true, by decide, by simp⟩
    let outer : Head {} := ⟨.cls, b, .leading none, false, by simp⟩
    let inner : Head {} := ⟨.struct, a, .inside (some label), true, by simp⟩
    let forest : Forest {} :=
      .space ⟨a, [b]⟩ (.cls outer (.nested inner .done (.item item .done)) .done) .done
    forest.render = ("namespace a::b \x7b\nREFLECT_CLASS() class b \x7b\nstruct a\n\x7b\n" ++
      "REFLECT_CLASS(\"// n\")\n\x7d;\nREFLECT_MEMBER(\"// n\")\nb a;\n\x7d;\n\x7d\n").toList ∧
    ({} : Markers).scan ['h'] forest.render =
      [⟨⟨[['a'], ['b']], ['b']⟩, ['h'], some "a::b::b".toList, [⟨"// n".toList, ['a']⟩], []⟩,
        ⟨⟨[['a'], ['b'], ['b']], ['a']⟩, ['h'], some "// n".toList, [], []⟩] := by
  decide +kernel

end Registrar.Forest
