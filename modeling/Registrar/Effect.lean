import Registrar.Declaration
import Registrar.Progress

/-! What the markers on a line say about the class around it. -/

namespace Registrar

/-- One thing that a line says about the class around it. -/
inductive Effect where
  /-- A class marker registers the class. -/
  | register (registration : Registration)
  /-- A marker finds its declaration on its own line. -/
  | bind (kind : BindingKind) (binding : Binding)
  /-- A marker waits for its declaration. -/
  | wait (kind : BindingKind) (explicit : Text)
  /-- A declaration ends the wait of an earlier marker. -/
  | resolve (kind : BindingKind) (binding : Binding)
deriving DecidableEq

namespace Effect

def onClass : Effect → ReflectedClass → ReflectedClass
  | .register registration, cls => cls.register registration
  | .bind kind binding, cls => cls.addBinding kind binding
  | .wait _ _, cls => cls
  | .resolve kind binding, cls => cls.addBinding kind binding

/-- What the effect changes in the slots. A marker that finds its declaration leaves an earlier one
waiting. -/
def onSlots : Effect → Slots → Slots
  | .register _, slots => slots
  | .bind _ _, slots => slots
  | .wait kind explicit, slots => slots.set kind (some explicit)
  | .resolve kind _, slots => slots.set kind none

end Effect

namespace Markers

def classEffects (markers : Markers) (line : Text) : List Effect :=
  if Text.occursIn markers.onClass line then
    [.register (Marker.registration markers.onClass line)]
  else []

def markerEffects (markers : Markers) (kind : BindingKind) (line : Text) : List Effect :=
  if Text.occursIn (markers.onBinding kind) line then
    let explicit := (Marker.explicitName? (markers.onBinding kind) line).getD []
    match Declaration.identifier? kind (markers.strip line) with
    | some identifier => [.bind kind (.named explicit identifier)]
    | none => [.wait kind explicit]
  else []

/-- What a line without such a marker says about an earlier one that waits. -/
def slotEffects (markers : Markers) (kind : BindingKind) (line : Text) (slots : Slots) :
    List Effect :=
  if Text.occursIn (markers.onBinding kind) line || Declaration.isTransparent line then []
  else match slots.get kind, Declaration.identifier? kind (markers.strip line) with
    | some explicit, some identifier => [.resolve kind (.named explicit identifier)]
    | _, _ => []

/-- Everything that a line says, in order: the markers on it first. -/
def effects (markers : Markers) (line : Text) (slots : Slots) : List Effect :=
  markers.classEffects line ++
    markers.markerEffects .member line ++ markers.markerEffects .function line ++
    markers.slotEffects .member line slots ++ markers.slotEffects .function line slots

def annotateSlots (markers : Markers) (line : Text) (slots : Slots) : Slots :=
  (markers.effects line slots).foldl (fun slots effect => effect.onSlots slots) slots

def annotateClass (markers : Markers) (line : Text) (slots : Slots) (cls : ReflectedClass) :
    ReflectedClass :=
  (markers.effects line slots).foldl (fun cls effect => effect.onClass cls) cls

end Markers

namespace Progress

def annotate (markers : Markers) (line : Text) (progress : Progress) : Progress :=
  match progress.scopes.classes with
  | [] => progress
  | frame :: outer =>
    { scopes := { progress.scopes with
        classes := { frame with slots := markers.annotateSlots line frame.slots } :: outer }
      registry := progress.registry.update frame.index (markers.annotateClass line frame.slots) }

end Progress

end Registrar
