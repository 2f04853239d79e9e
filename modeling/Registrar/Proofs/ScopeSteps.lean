import Registrar.Proofs.Headings
import Registrar.Scan

/-! What one line does to the depth, to the stacks of open frames and to the registry.
The content of the line decides which of the few cases applies; nothing else is used of it. -/

namespace Registrar

namespace Registry

theorem update_append_left {registry : Registry} {index : Nat} (h : index < registry.length)
    (more : Registry) (change : ReflectedClass → ReflectedClass) :
    update (registry ++ more) index change = registry.update index change ++ more := by
  induction registry generalizing index with
  | nil => exact absurd h (Nat.not_lt_zero _)
  | cons first registry ih =>
    cases index with
    | zero => rfl
    | succ index => exact congrArg (first :: ·) (ih (Nat.lt_of_succ_lt_succ h))

theorem update_append_right (registry more : Registry) (index : Nat)
    (change : ReflectedClass → ReflectedClass) :
    update (registry ++ more) (registry.length + index) change =
      registry ++ more.update index change := by
  unfold update List.modify
  exact List.modifyTailIdx_add (List.modifyHead change) index registry more

/-- A property of all classes stays if the change keeps it. -/
theorem forall_mem_update {P : ReflectedClass → Prop} {registry : Registry}
    {change : ReflectedClass → ReflectedClass} (h : ∀ cls ∈ registry, P cls)
    (hchange : ∀ cls, P cls → P (change cls)) (index : Nat) :
    ∀ cls ∈ registry.update index change, P cls := by
  induction registry generalizing index with
  | nil => simp [update]
  | cons first registry ih =>
    obtain ⟨hfirst, hrest⟩ := List.forall_mem_cons.mp h
    cases index with
    | zero => exact List.forall_mem_cons.mpr ⟨hchange first hfirst, hrest⟩
    | succ index => exact List.forall_mem_cons.mpr ⟨hfirst, ih hrest index⟩

end Registry

/-- What the head on a line can be, with the braces and semicolons that decide it. -/
theorem heading?_cases {marker line : Text} {heading : Heading}
    (h : heading? marker line = some heading) :
    ∃ name, Heading.className? (Marker.skipLeading marker line) = some name ∧
      ('{' ∈ line ∧ heading = .opening name ∨
        '{' ∉ line ∧ ';' ∈ line ∧ heading = .forward ∨
        '{' ∉ line ∧ ';' ∉ line ∧ heading = .split ⟨name,
          if (Marker.skipLeading marker line).length < line.trimStart.length then
            some (Marker.registration marker line)
          else none⟩) := by
  obtain ⟨name, hname, rfl⟩ := Option.map_eq_some_iff.mp h
  refine ⟨name, hname, ?_⟩
  by_cases hbrace : '{' ∈ line
  · exact .inl ⟨hbrace, if_pos (List.contains_iff_mem.mpr hbrace)⟩
  · rw [if_neg (mt List.contains_iff_mem.mp hbrace)]
    by_cases hend : ';' ∈ line
    · exact .inr (.inl ⟨hbrace, hend, if_pos (List.contains_iff_mem.mpr hend)⟩)
    · rw [if_neg (mt List.contains_iff_mem.mp hend)]
      refine .inr (.inr ⟨hbrace, hend, ?_⟩)
      split <;> rfl

/-- A line without an opening brace that leaves no head to a later line has no head or declares a
class without a body. -/
theorem heading?_of_not_split {marker line : Text} (hbrace : '{' ∉ line)
    (hhead : ∀ head, heading? marker line ≠ some (.split head)) :
    heading? marker line = none ∨ heading? marker line = some .forward := by
  cases h : heading? marker line with
  | none => exact Or.inl rfl
  | some heading =>
    obtain ⟨name, _, ⟨hopen, _⟩ | ⟨_, _, rfl⟩ | ⟨_, _, rfl⟩⟩ := heading?_cases h
    · exact absurd hopen hbrace
    · exact Or.inr rfl
    · exact absurd h (hhead _)

namespace Scopes

/-- A head that a line opens or leaves pending stands on the line or was pending before it. -/
theorem forall_headings {P : ClassHead → Prop} {marker line : Text} {scopes : Scopes}
    (hpending : ∀ head ∈ scopes.pending, P head)
    (hopening : ∀ name, heading? marker line = some (.opening name) → P ⟨name, none⟩)
    (hsplit : ∀ head, heading? marker line = some (.split head) → P head) :
    (∀ head ∈ (scopes.headings marker line).1, P head) ∧
      ∀ head ∈ (scopes.headings marker line).2, P head := by
  unfold headings
  split
  · rename_i name heading
    exact ⟨fun head hhead => Option.some.inj hhead ▸ hopening name heading, by simp⟩
  · rename_i head heading
    exact ⟨by simp, fun head hhead => Option.some.inj hhead ▸ hsplit _ heading⟩
  · split
    · exact ⟨hpending, by simp⟩
    · exact ⟨by simp, hpending⟩

end Scopes

namespace Progress

variable (markers : Markers) (marker header line : Text) (progress : Progress)

def enter (pending : Option ClassHead) : Progress :=
  { progress with scopes := { progress.scopes.openNamespaces line with pending } }

def path (progress : Progress) : List Text :=
  (QualifiedName.ofSegments (progress.scopes.segments progress.registry) []).scope

def fresh (header : Text) (head : ClassHead) (progress : Progress) : ReflectedClass :=
  let cls : ReflectedClass := { name := ⟨progress.path, head.name⟩, header }
  match head.mark with
  | some registration => cls.register registration
  | none => cls

def await (pending : Option ClassHead) (progress : Progress) : Progress :=
  { progress with scopes := { progress.scopes with pending } }

variable {line progress} in
theorem enter_of_nil (h : Heading.namespaces line = []) (pending : Option ClassHead) :
    progress.enter line pending = progress.await pending := by
  simp only [enter, Scopes.openNamespaces, h]
  rfl

variable {line progress} in
theorem openScopes_of_none {pending : Option ClassHead}
    (h : progress.scopes.headings marker line = (none, pending)) :
    progress.openScopes marker header line = progress.enter line pending := by
  have he : (progress.scopes.openNamespaces line).headings marker line = (none, pending) := h
  simp only [openScopes, he]
  rfl

variable {line progress} in
theorem openScopes_of_some {head : ClassHead} {pending : Option ClassHead}
    (h : progress.scopes.headings marker line = (some head, pending)) :
    progress.openScopes marker header line =
      (progress.enter line pending).openClass header head := by
  have he : (progress.scopes.openNamespaces line).headings marker line = (some head, pending) := h
  simp only [openScopes, he]
  rfl

@[simp] theorem namespaces_openScopes :
    (progress.openScopes marker header line).scopes.namespaces =
      ((Heading.namespaces line).map
        fun name => (⟨name, progress.scopes.depth + 1⟩ : NamespaceFrame)).reverse ++
        progress.scopes.namespaces := by
  rcases h : progress.scopes.headings marker line with ⟨_ | head, pending⟩
  · rw [openScopes_of_none marker header h]
    rfl
  · rw [openScopes_of_some marker header h]
    rfl

/-- A line opens no class, or exactly one, which becomes the innermost one and gets the next index
of the registry. -/
theorem openScopes_cases :
    ((progress.openScopes marker header line).scopes.classes = progress.scopes.classes ∧
      (progress.openScopes marker header line).registry = progress.registry) ∨
    ∃ cls, (progress.openScopes marker header line).scopes.classes =
        ⟨progress.registry.length, progress.scopes.depth + 1, {}⟩ :: progress.scopes.classes ∧
      (progress.openScopes marker header line).registry = progress.registry ++ [cls] := by
  rcases h : progress.scopes.headings marker line with ⟨_ | head, pending⟩
  · rw [openScopes_of_none marker header h]
    exact Or.inl ⟨rfl, rfl⟩
  · rw [openScopes_of_some marker header h]
    exact Or.inr ⟨_, rfl, rfl⟩

/-- Markers change the slots of the innermost frame and the class it stands for, nothing else. -/
theorem readMarkers_cases :
    progress.readMarkers markers line = progress ∨
    ∃ frame outer, progress.scopes.classes = frame :: outer ∧
      progress.readMarkers markers line =
        { scopes := { progress.scopes with
            classes := { frame with slots := markers.annotateSlots line frame.slots } :: outer }
          registry :=
            progress.registry.update frame.index (markers.annotateClass line frame.slots) } := by
  unfold readMarkers annotate
  split
  · exact Or.inl rfl
  · split
    · exact Or.inl rfl
    · rename_i frame outer heq
      exact Or.inr ⟨frame, outer, heq, rfl⟩

@[simp] theorem length_registry_annotate :
    (progress.annotate markers line).registry.length = progress.registry.length := by
  unfold annotate
  split
  · rfl
  · exact List.length_modify ..

@[simp] theorem length_registry_readMarkers :
    (progress.readMarkers markers line).registry.length = progress.registry.length := by
  unfold readMarkers
  split
  · rfl
  · exact length_registry_annotate markers line progress

/-- After a line the head is pending that the line left pending. -/
theorem pending_readLine : (progress.readLine markers header line).scopes.pending =
    (progress.scopes.headings markers.onClass line).2 := by
  have hopened : (progress.openScopes markers.onClass header line).scopes.pending =
      (progress.scopes.headings markers.onClass line).2 := by
    rcases h : progress.scopes.headings markers.onClass line with ⟨_ | head, pending⟩
    · rw [openScopes_of_none markers.onClass header h]
      rfl
    · rw [openScopes_of_some markers.onClass header h]
      rfl
  rw [← hopened]
  obtain heq | ⟨frame, outer, _, heq⟩ := readMarkers_cases markers line
    (progress.openScopes markers.onClass header line)
  · exact congrArg (·.scopes.pending) heq
  · exact congrArg (·.scopes.pending) heq

variable {markers header line progress} in
/-- The namespaces that are open after a line were open before it or are opened by it. -/
theorem mem_namespaces_readLine {frame : NamespaceFrame}
    (h : frame ∈ (progress.readLine markers header line).scopes.namespaces) :
    frame ∈ (progress.scopes.openNamespaces line).namespaces := by
  have hread := (List.dropWhile_sublist _).mem h
  have hopened : frame ∈ (progress.openScopes markers.onClass header line).scopes.namespaces := by
    obtain heq | ⟨top, outer, _, heq⟩ := readMarkers_cases markers line
      (progress.openScopes markers.onClass header line)
    · exact heq ▸ hread
    · rw [heq] at hread
      exact hread
  rw [namespaces_openScopes] at hopened
  exact hopened

variable {markers header line progress} in
/-- A property of all classes stays if the class that the line opens has it and its markers keep
it. -/
theorem forall_mem_registry_readLine {P : ReflectedClass → Prop}
    (h : ∀ cls ∈ progress.registry, P cls)
    (hfresh : ∀ head ∈ (progress.scopes.headings markers.onClass line).1,
      P ((progress.enter line none).fresh header head))
    (hmarkers : ∀ slots cls, P cls → P (markers.annotateClass line slots cls)) :
    ∀ cls ∈ (progress.readLine markers header line).registry, P cls := by
  have hopened : ∀ cls ∈ (progress.openScopes markers.onClass header line).registry, P cls := by
    rcases heads : progress.scopes.headings markers.onClass line with ⟨_ | head, pending⟩
    · rw [openScopes_of_none markers.onClass header heads]
      exact h
    · rw [openScopes_of_some markers.onClass header heads]
      refine List.forall_mem_append.mpr ⟨h, List.forall_mem_singleton.mpr ?_⟩
      exact hfresh head (by rw [heads]; rfl)
  change ∀ cls ∈ ((progress.openScopes markers.onClass header line).readMarkers markers
    line).registry, P cls
  obtain heq | ⟨frame, outer, _, heq⟩ := readMarkers_cases markers line
    (progress.openScopes markers.onClass header line)
  · rw [heq]
    exact hopened
  · rw [heq]
    exact Registry.forall_mem_update hopened (hmarkers frame.slots) frame.index

variable {markers header line progress} in
/-- A line without an opening brace and without a head opens nothing. -/
theorem readLine_of_plain (hbrace : '{' ∉ line)
    (hhead : heading? markers.onClass line = none ∨
      heading? markers.onClass line = some .forward) :
    progress.readLine markers header line = (progress.annotate markers line).closeScopes line := by
  have hcontains : ¬ line.contains '{' = true := mt List.contains_iff_mem.mp hbrace
  have hheadings : progress.scopes.headings markers.onClass line =
      (none, progress.scopes.pending) := by
    rcases hhead with h | h <;> simp only [Scopes.headings, h, if_neg hcontains]
  have hmarks : marksLaterClass markers.onClass line = false := by
    rcases hhead with h | h <;> simp only [marksLaterClass, h]
  rw [readLine, openScopes_of_none markers.onClass header hheadings,
    enter_of_nil (Heading.namespaces_of_not_mem hbrace), readMarkers, hmarks,
    if_neg Bool.false_ne_true]
  rfl

theorem readLines_append (first second : List Text) :
    progress.readLines markers header (first ++ second) =
      (progress.readLines markers header first).readLines markers header second :=
  List.foldl_append

end Progress

/-- The classes of a header are those found by reading all its lines, or there are none. -/
theorem Markers.scan_cases (markers : Markers) (header source : Text) :
    markers.scan header source =
        (Progress.readLines markers header source.cleanLines {}).registry ∨
      markers.scan header source = [] := by
  unfold scan
  split
  · exact Or.inl rfl
  · exact Or.inr rfl

end Registrar
