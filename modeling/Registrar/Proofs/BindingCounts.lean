import Registrar.Proofs.LineEffects
import Registrar.Proofs.ScopeSteps

/-! How many bindings a header can have. A marker is used up when its declaration is found or when
its class closes, and it waits in one slot until then, so the bindings found and the markers that
wait are never more than the markers read. -/

namespace Registrar

def Registry.bindings (kind : BindingKind) (registry : Registry) : List Binding :=
  registry.flatMap fun cls => cls.bindings kind

namespace Registry

variable (kind : BindingKind)

@[simp] theorem bindings_cons (cls : ReflectedClass) (registry : Registry) :
    bindings kind (cls :: registry) = cls.bindings kind ++ bindings kind registry :=
  List.flatMap_cons

@[simp] theorem bindings_append (registry more : Registry) :
    bindings kind (registry ++ more) = bindings kind registry ++ bindings kind more :=
  List.flatMap_append

/-- One class gets more bindings, or none does if the index is out of range. -/
private theorem bindings_update (registry : Registry) {change : ReflectedClass → ReflectedClass}
    {added : List Binding}
    (hchange : ∀ cls, (change cls).bindings kind = cls.bindings kind ++ added) (index : Nat) :
    (registry.bindings kind).Sublist ((registry.update index change).bindings kind) ∧
      ((registry.update index change).bindings kind).length ≤
        (registry.bindings kind).length + added.length := by
  induction registry generalizing index with
  | nil => exact ⟨List.nil_sublist _, by simp [update, bindings]⟩
  | cons first registry ih =>
    cases index with
    | zero =>
      have heq : update (first :: registry) 0 change = change first :: registry := rfl
      rw [heq, bindings_cons, bindings_cons, hchange, List.append_assoc]
      refine ⟨(List.Sublist.refl _).append (List.sublist_append_right _ _), ?_⟩
      simp only [List.length_append]
      omega
    | succ index =>
      have heq : update (first :: registry) (index + 1) change =
          first :: update registry index change := rfl
      obtain ⟨hsublist, hlength⟩ := ih index
      rw [heq, bindings_cons, bindings_cons]
      refine ⟨(List.Sublist.refl _).append hsublist, ?_⟩
      simp only [List.length_append]
      omega

end Registry

namespace Progress

variable (markers : Markers) (kind : BindingKind) (marker header line : Text) (progress : Progress)

theorem bindings_fresh (head : ClassHead) : (progress.fresh header head).bindings kind = [] := by
  unfold fresh
  split
  · exact (ReflectedClass.bindings_register ..).trans (by cases kind <;> rfl)
  · cases kind <;> rfl

/-- A class has no bindings when its body opens. -/
private theorem bindings_openScopes :
    (progress.openScopes marker header line).registry.bindings kind =
      progress.registry.bindings kind := by
  rcases h : progress.scopes.headings marker line with ⟨_ | head, pending⟩
  · rw [openScopes_of_none marker header h]
    rfl
  · have hregistry : ((progress.enter line pending).openClass header head).registry =
        progress.registry ++ [(progress.enter line pending).fresh header head] := rfl
    rw [openScopes_of_some marker header h, hregistry, Registry.bindings_append,
      Registry.bindings_cons, bindings_fresh]
    exact List.append_nil _

/-- A line keeps all bindings, and those it adds are bound in the slots of one frame. -/
private theorem bindings_readLine : ∃ slots, ∀ kind,
    (progress.registry.bindings kind).Sublist
      ((progress.readLine markers header line).registry.bindings kind) ∧
    ((progress.readLine markers header line).registry.bindings kind).length ≤
      (progress.registry.bindings kind).length + (markers.bound kind line slots).length := by
  have hregistry : (progress.readLine markers header line).registry =
      ((progress.openScopes markers.onClass header line).readMarkers markers line).registry := rfl
  rw [hregistry]
  obtain heq | ⟨frame, outer, _, heq⟩ := readMarkers_cases markers line
    (progress.openScopes markers.onClass header line)
  · refine ⟨{}, fun kind => ?_⟩
    rw [heq, bindings_openScopes]
    exact ⟨List.Sublist.refl _, Nat.le_add_right _ _⟩
  · refine ⟨frame.slots, fun kind => ?_⟩
    rw [heq, ← bindings_openScopes kind markers.onClass header line progress]
    exact Registry.bindings_update kind _ (markers.bindings_annotateClass kind line frame.slots) _

/-- A line adds one binding at most: a member or a function, but not both. -/
private theorem length_bindings_readLine_le :
    ((progress.readLine markers header line).registry.bindings .member).length +
        ((progress.readLine markers header line).registry.bindings .function).length ≤
      (progress.registry.bindings .member).length +
        (progress.registry.bindings .function).length + 1 := by
  obtain ⟨slots, h⟩ := bindings_readLine markers header line progress
  have hmember := (h .member).2
  have hfunction := (h .function).2
  have hone := markers.length_bound_add_length_bound_le line slots
  omega

private theorem length_bindings_readLines_le (lines : List Text) :
    ((progress.readLines markers header lines).registry.bindings .member).length +
        ((progress.readLines markers header lines).registry.bindings .function).length ≤
      (progress.registry.bindings .member).length +
        (progress.registry.bindings .function).length + lines.length := by
  induction lines generalizing progress with
  | nil => exact Nat.le_refl _
  | cons line lines ih =>
    have hstep := length_bindings_readLine_le markers header line progress
    have hrest := ih (progress.readLine markers header line)
    rw [List.length_cons]
    exact Nat.le_trans hrest (by omega)

def waiting (kind : BindingKind) (progress : Progress) : Nat :=
  progress.scopes.classes.countP fun frame => (frame.slots.get kind).isSome

/-- The bindings found and the markers that wait for one. -/
def taken (kind : BindingKind) (progress : Progress) : Nat :=
  (progress.registry.bindings kind).length + progress.waiting kind

private theorem taken_openScopes :
    (progress.openScopes marker header line).taken kind = progress.taken kind := by
  have hwaiting : (progress.openScopes marker header line).waiting kind =
      progress.waiting kind := by
    have hempty : (({} : Slots).get kind).isSome = false := by cases kind <;> rfl
    obtain ⟨hclasses, _⟩ | ⟨cls, hclasses, _⟩ := openScopes_cases marker header line progress
    · rw [waiting, hclasses, waiting]
    · rw [waiting, hclasses, List.countP_cons_of_neg (by simp [hempty]), waiting]
  rw [taken, bindings_openScopes, hwaiting, taken]

private theorem taken_readMarkers_le :
    (progress.readMarkers markers line).taken kind ≤
      progress.taken kind + if Text.occursIn (markers.onBinding kind) line then 1 else 0 := by
  obtain heq | ⟨frame, outer, hclasses, heq⟩ := readMarkers_cases markers line progress
  · rw [heq]
    exact Nat.le_add_right _ _
  · obtain ⟨_, hbindings⟩ := progress.registry.bindings_update kind
      (markers.bindings_annotateClass kind line frame.slots) frame.index
    have hbound := markers.length_bound_le kind line frame.slots
    simp only [taken, waiting, heq, hclasses, List.countP_cons]
    omega

private theorem taken_closeScopes_le :
    (progress.closeScopes line).taken kind ≤ progress.taken kind :=
  Nat.add_le_add_left (List.dropWhile_sublist _).countP_le _

/-- Only a line with a marker raises the number of bindings and waiting markers, and only by one. -/
private theorem taken_readLine_le :
    (progress.readLine markers header line).taken kind ≤
      progress.taken kind + if Text.occursIn (markers.onBinding kind) line then 1 else 0 := by
  have hclose := taken_closeScopes_le kind line
    ((progress.openScopes markers.onClass header line).readMarkers markers line)
  have hread := taken_readMarkers_le markers kind line
    (progress.openScopes markers.onClass header line)
  rw [taken_openScopes] at hread
  exact Nat.le_trans hclose hread

private theorem taken_readLines_le (lines : List Text) :
    (progress.readLines markers header lines).taken kind ≤
      progress.taken kind + lines.countP (Text.occursIn (markers.onBinding kind)) := by
  induction lines generalizing progress with
  | nil => exact Nat.le_refl _
  | cons line lines ih =>
    have hstep := taken_readLine_le markers kind header line progress
    have hrest := ih (progress.readLine markers header line)
    rw [List.countP_cons]
    exact Nat.le_trans hrest (by omega)

end Progress

namespace Markers

variable (markers : Markers) (header source : Text)

private theorem length_bindings_scan_le (kind : BindingKind) :
    ((markers.scan header source).bindings kind).length ≤
      source.cleanLines.countP (Text.occursIn (markers.onBinding kind)) := by
  rcases markers.scan_cases header source with hscan | hscan
  · have htaken := Progress.taken_readLines_le markers kind header {} source.cleanLines
    have hstart : ({} : Progress).taken kind = 0 := rfl
    rw [hstart, Nat.zero_add] at htaken
    rw [hscan]
    exact Nat.le_trans (Nat.le_add_right _ _) htaken
  · rw [hscan]
    exact Nat.zero_le _

private theorem length_bindings_scan_add_le :
    ((markers.scan header source).bindings .member).length +
      ((markers.scan header source).bindings .function).length ≤ source.cleanLines.length := by
  rcases markers.scan_cases header source with hscan | hscan
  · have hlength := Progress.length_bindings_readLines_le markers header {} source.cleanLines
    have hstart : ∀ kind, (({} : Progress).registry.bindings kind).length = 0 := fun _ => rfl
    rw [hscan]
    rwa [hstart, hstart, Nat.zero_add] at hlength
  · rw [hscan]
    exact Nat.zero_le _

/-- No marker is used twice and no line declares two things. A header has no more bindings of one
kind than lines with the marker of this kind. Every line, whatever was read before, keeps all
bindings and adds one at most, so a header has no more bindings than lines. -/
theorem scan_bindings_le (markers : Markers) (header source : Text) :
    let registry := markers.scan header source
    (∀ kind, (registry.bindings kind).length ≤
      source.cleanLines.countP (Text.occursIn (markers.onBinding kind))) ∧
    (∀ (progress : Progress) (line : Text),
      let next := progress.readLine markers header line
      (∀ kind, (progress.registry.bindings kind).Sublist (next.registry.bindings kind)) ∧
      (next.registry.bindings .member).length + (next.registry.bindings .function).length ≤
        (progress.registry.bindings .member).length +
          (progress.registry.bindings .function).length + 1) ∧
    (registry.bindings .member).length + (registry.bindings .function).length ≤
      source.cleanLines.length := by
  intro registry
  refine ⟨markers.length_bindings_scan_le header source, ?_,
    markers.length_bindings_scan_add_le header source⟩
  intro progress line next
  obtain ⟨slots, h⟩ := Progress.bindings_readLine markers header line progress
  exact ⟨fun kind => (h kind).1, Progress.length_bindings_readLine_le markers header line progress⟩

end Markers

end Registrar
