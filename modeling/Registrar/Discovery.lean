import Registrar.Event
import Registrar.Fault
import Registrar.FileSystem.Lookup
import Registrar.Settings

/-! Finding the headers below the roots. -/

namespace Registrar

/-- What one root contributes: nothing if it is not a directory, else the headers below it that no
earlier root has listed. -/
structure RootReport where
  root : Text
  headers : Option (List Text)
deriving DecidableEq

namespace RootReport

def listed (report : RootReport) : List Text := report.headers.getD []

def event (report : RootReport) : Event :=
  match report.headers with
  | none => .skippedRoot report.root
  | some headers => .discovered report.root headers.length

end RootReport

/-- What a search finds: the reports of the roots, up to the first that cannot be walked, and why
that one cannot. -/
structure Search where
  reports : List RootReport := []
  failure : Option Fault := none
deriving DecidableEq

def Search.headers (search : Search) : Except Fault (List Text) :=
  match search.failure with
  | some fault => .error fault
  | none => .ok (search.reports.flatMap RootReport.listed)

/-- The first directory below a place that cannot be read by its path below a root, and why. -/
def FileSystem.unreadable? (files : FileSystem) (root : Text) (place : Location) :
    Option (Text × FileFault) :=
  (files.below place).findSome? fun (names, node) =>
    let path := names.foldl Path.join root
    match node with
    | .directory => (Path.refusal? path).map fun cause => (path, cause)
    | _ => none

namespace Settings

/-- The headers below a place, as paths below a root. Links are neither headers nor directories. -/
def headersBelow (settings : Settings) (files : FileSystem) (root : Text) (place : Location) :
    List Text :=
  (files.below place).filterMap fun (names, node) =>
    let path := names.foldl Path.join root
    match node with
    | .file _ => if settings.isHeader path then some path else none
    | _ => none

/-- The paths that are not listed yet, and each of them once. Paths are compared by components. -/
def unlisted (listed : List (List Component)) : List Text → List Text
  | [] => []
  | path :: more =>
    let components := Path.components path
    if components ∈ listed then unlisted listed more
    else path :: unlisted (components :: listed) more

def report (settings : Settings) (files : FileSystem) (listed : List Text) (root : Text) :
    Except Fault RootReport :=
  match files.directory? root with
  | none => .ok ⟨root, none⟩
  | some place =>
    match files.unreadable? root place with
    | some (directory, cause) => .error (.walkRoot directory cause)
    | none =>
      let headers := settings.headersBelow files root place
      .ok ⟨root, some (unlisted (listed.map Path.components) headers)⟩

def searchFrom (settings : Settings) (files : FileSystem) (listed : List Text) :
    List Text → Search
  | [] => {}
  | root :: more =>
    match settings.report files listed root with
    | .error fault => { failure := some fault }
    | .ok report =>
      let rest := searchFrom settings files (listed ++ report.listed) more
      { rest with reports := report :: rest.reports }

def search (settings : Settings) (files : FileSystem) : Search :=
  settings.searchFrom files [] settings.roots

/-- The headers below the roots: root by root, each sorted by names, none twice. -/
def discover (settings : Settings) (files : FileSystem) : Except Fault (List Text) :=
  (settings.search files).headers

def discoverEvents (settings : Settings) (files : FileSystem) : List Event :=
  (settings.search files).reports.map RootReport.event

end Settings

end Registrar
