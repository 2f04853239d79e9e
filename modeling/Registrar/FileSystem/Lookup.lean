import Registrar.FileSystem.Basic
import Registrar.FileSystem.Fault
import Registrar.Path

/-! Where a path leads. Links are followed, a limited number of them, and names and paths are
limited in length. -/

namespace Registrar

/-- Where a path leads: to a node, or to a free name in a directory. -/
inductive Destination where
  | found (place : Location) (node : Node)
  | free (place : Location)
deriving DecidableEq

/-- What a path is followed for. -/
inductive Purpose where
  /-- To use what is there. -/
  | use
  /-- To write a file, which is made if it is not there. -/
  | write
deriving DecidableEq

namespace Path

def steps (path : Text) : List Component :=
  (if isAbsolute path then [.root] else []) ++ (pieces path).map Component.ofPiece

def endsWithSlash (path : Text) : Bool := path.getLast? == some '/'

def maxNameBytes : Nat := 255

def maxBytes : Nat := 4095

def nameIsTooLong (name : Text) : Bool := maxNameBytes < name.byteLength

/-- Why a path is refused whatever the file system holds: a NUL in it, its length, or that it is
empty. -/
def refusal? (path : Text) : Option FileFault :=
  if path.contains '\x00' then some .nulInName
  else if maxBytes < path.byteLength then some .nameTooLong
  else if path.isEmpty then some .missing
  else none

end Path

namespace FileSystem

def maxLinks : Nat := 40

/-- Follows steps from a directory, through at most `links` links. Every step but the last has to
lead to a directory, and the last one too if a slash ends the path; a file is never written behind
such a slash, not even one whose name is too long. -/
def follow (files : FileSystem) (purpose : Purpose) (links : Nat) (slash : Bool)
    (place : Location) : List Component → Except FileFault Destination
  | [] => .ok (.found place .directory)
  | .root :: more => follow files purpose links slash [] more
  | .here :: more => follow files purpose links slash place more
  | .up :: more => follow files purpose links slash place.dropLast more
  | .name name :: more =>
    if slash && more.isEmpty && purpose == .write then .error .isDirectory
    else if Path.nameIsTooLong name then .error .nameTooLong
    else match files.get? (place ++ [name]) with
      | none => if more.isEmpty then .ok (.free (place ++ [name])) else .error .missing
      | some .directory => follow files purpose links slash (place ++ [name]) more
      | some (.file bytes) =>
        if more.isEmpty && !slash then .ok (.found (place ++ [name]) (.file bytes))
        else .error .notDirectory
      | some (.link target) =>
        match links with
        | 0 => .error .linkLoop
        | links + 1 =>
          follow files purpose links (slash || (more.isEmpty && Path.endsWithSlash target)) place
            (Path.steps target ++ more)
termination_by steps => (links, steps.length)

def lookup (files : FileSystem) (purpose : Purpose) (path : Text) : Except FileFault Destination :=
  match Path.refusal? path with
  | some fault => .error fault
  | none =>
    files.follow purpose maxLinks (Path.endsWithSlash path) files.working (Path.steps path)

def directoryAt (files : FileSystem) (steps : List Component) : Except FileFault Location :=
  match files.follow .use maxLinks false files.working steps with
  | .ok (.found place .directory) => .ok place
  | .ok (.found _ _) => .error .notDirectory
  | .ok (.free _) => .error .missing
  | .error fault => .error fault

def directory? (files : FileSystem) (path : Text) : Option Location :=
  match files.lookup .use path with
  | .ok (.found place .directory) => some place
  | _ => none

end FileSystem

end Registrar
