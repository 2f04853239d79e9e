import Registrar.Event
import Registrar.Scan

/-! The reports of a scan, derived from what each line changes. -/

namespace Registrar

def Effect.event (cls : ReflectedClass) : Effect → Event
  | .register registration => .classMarker cls.name (cls.nameFor registration)
  | .bind kind binding => .bound kind cls.name binding
  | .wait kind _ => .waiting kind cls.name
  | .resolve kind binding => .bound kind cls.name binding

namespace Progress

def openEvents (marker header line : Text) (progress : Progress) : List Event :=
  let depth := progress.scopes.depth
  let opened := (progress.openScopes marker header line).registry.drop progress.registry.length
  (Heading.namespaces line).map (Event.openedNamespace · depth) ++
    opened.map fun cls => Event.openedClass cls.name depth

/-- The reports of the markers of a line, the scopes of the line being open. -/
def markerEvents (markers : Markers) (line : Text) (progress : Progress) : List Event :=
  if marksLaterClass markers.onClass line then []
  else match progress.scopes.innermost? with
    | none => []
    | some frame =>
      match progress.registry[frame.index]? with
      | none => []
      | some cls => (markers.effects line frame.slots).map (Effect.event cls)

def classClosedEvents (registry : Registry) (frame : ClassFrame) : List Event :=
  match registry[frame.index]? with
  | none => []
  | some cls =>
    .closedClass cls.name cls.members.length cls.functions.length ::
      if frame.slots.isWaiting then [.unresolvedMarker cls.name] else []

/-- The reports of the scopes that a line closes, namespaces before classes. -/
def closeEvents (line : Text) (progress : Progress) : List Event :=
  let scopes := progress.scopes
  let depth := scopes.depth + (Braces.ofLine line).change
  (scopes.namespaces.takeWhile fun frame => depth < frame.bodyDepth).map
      (fun frame => Event.closedNamespace frame.name) ++
    (scopes.classes.takeWhile fun frame => depth < frame.bodyDepth).flatMap
      (classClosedEvents progress.registry)

def lineEvents (markers : Markers) (header line : Text) (progress : Progress) : List Event :=
  let entered := progress.openScopes markers.onClass header line
  progress.openEvents markers.onClass header line ++ entered.markerEvents markers line ++
    (entered.readMarkers markers line).closeEvents line

def linesEvents (markers : Markers) (header : Text) : List Text → Progress → List Event
  | [], _ => []
  | line :: more, progress =>
    progress.lineEvents markers header line ++
      linesEvents markers header more (progress.readLine markers header line)

end Progress

def Markers.scanEvents (markers : Markers) (header source : Text) : List Event :=
  if markers.needsScan source then
    let registry := markers.scan header source
    Progress.linesEvents markers header source.cleanLines {} ++
      [.scannedHeader header registry.length registry.registered.length]
  else [.skippedHeader header]

end Registrar
