import Registrar.Discovery
import Registrar.FileSystem.Operation
import Registrar.Journal
import Registrar.Source

/-! A whole run: find the headers, scan each of them, write the registration source.

All headers are read before anything is written. -/

namespace Registrar

structure Summary where
  headers : Nat
  classes : Nat
  registered : Nat
  output : Text
deriving DecidableEq

namespace FileSystem

def readHeader (files : FileSystem) (path : Text) : Except Fault Text :=
  (files.readText path).mapError (.readHeader path)

def writeOutput (files : FileSystem) (path source : Text) : Except Fault Unit × FileSystem :=
  let (result, written) := files.writeText path source
  (result.mapError (.writeOutput path), written)

end FileSystem

namespace Markers

def scanFile (markers : Markers) (files : FileSystem) (header : Text) : Except Fault Registry :=
  (files.readHeader header).map (markers.scan header)

/-- The classes of header files, in their order. The first file that cannot be read is blamed. -/
def scanFiles (markers : Markers) (files : FileSystem) : List Text → Except Fault Registry
  | [] => .ok []
  | header :: more =>
    match markers.scanFile files header with
    | .error fault => .error fault
    | .ok classes => (scanFiles markers files more).map (Registry.merge classes)

def scanFilesEvents (markers : Markers) (files : FileSystem) : List Text → List Event
  | [] => []
  | header :: more =>
    match files.readHeader header with
    | .error _ => []
    | .ok source => markers.scanEvents header source ++ scanFilesEvents markers files more

end Markers

namespace Settings

def scan (settings : Settings) (files : FileSystem) : Except Fault (Nat × Registry) :=
  match settings.discover files with
  | .error fault => .error fault
  | .ok headers =>
    (settings.markers.scanFiles files headers).map fun classes => (headers.length, classes)

def scanEvents (settings : Settings) (files : FileSystem) : List Event :=
  settings.discoverEvents files ++
    match settings.discover files with
    | .error _ => []
    | .ok headers => settings.markers.scanFilesEvents files headers

def render (settings : Settings) (classes : Registry) : Text :=
  settings.layout.source settings.roots classes

def summary (settings : Settings) (headers : Nat) (classes : Registry) : Summary :=
  ⟨headers, classes.length, classes.registered.length, settings.output⟩

def generate (settings : Settings) (files : FileSystem) : Except Fault Summary × FileSystem :=
  match settings.scan files with
  | .error fault => (.error fault, files)
  | .ok (headers, classes) =>
    match files.writeOutput settings.output (settings.render classes) with
    | (.error fault, written) => (.error fault, written)
    | (.ok (), written) => (.ok (settings.summary headers classes), written)

def generateEvents (settings : Settings) (files : FileSystem) : List Event :=
  settings.scanEvents files ++
    match settings.scan files with
    | .error _ => []
    | .ok (headers, classes) =>
      let source := settings.render classes
      match files.writeOutput settings.output source with
      | (.error _, _) => []
      | (.ok (), _) =>
        let summary := settings.summary headers classes
        [.wroteOutput settings.output source.byteLength,
          .generated summary.headers summary.classes summary.registered summary.output]

/-- Runs. Markers that are not valid are refused before anything is read. -/
def run (settings : Settings) (files : FileSystem) : Except Fault Summary × FileSystem :=
  match settings.markers.validate with
  | .error fault => (.error fault, files)
  | .ok () => settings.generate files

def runEvents (settings : Settings) (files : FileSystem) : List Event :=
  match settings.markers.validate with
  | .error _ => []
  | .ok () => settings.generateEvents files

end Settings

end Registrar
