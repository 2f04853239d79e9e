import Registrar.FileSystem.Lookup
import Registrar.Text.Utf8

/-! Reading text files, making directories and writing files. -/

namespace Registrar

namespace FileSystem

def readText (files : FileSystem) (path : Text) : Except FileFault Text :=
  match files.lookup .use path with
  | .ok (.found _ (.file bytes)) =>
    match Text.decode? bytes with
    | some text => .ok text
    | none => .error .notText
  | .ok (.found _ _) => .error .isDirectory
  | .ok (.free _) => .error .missing
  | .error fault => .error fault

def makeDirectory (files : FileSystem) (path : Text) : Except FileFault FileSystem :=
  match Path.refusal? path with
  | some fault => .error fault
  | none =>
    match files.directoryAt (Path.steps path).dropLast with
    | .error fault => .error fault
    | .ok place =>
      match (Path.steps path).getLast? with
      | some (.name name) =>
        if Path.nameIsTooLong name then .error .nameTooLong
        else if (files.get? (place ++ [name])).isSome then .error .alreadyExists
        else .ok (files.put (place ++ [name]) .directory)
      | _ => .error .alreadyExists

def ensureDirectory (files : FileSystem) (path : Text) : Except FileFault Unit × FileSystem :=
  match files.makeDirectory path with
  | .ok made => (.ok (), made)
  | .error fault =>
    if (files.directory? path).isSome then (.ok (), files) else (.error fault, files)

/-- Makes a directory, and before it those of the directories it lies in that are missing; these
follow it in the list. Directories made before a failure stay. -/
def ensureDirectories (files : FileSystem) : List Text → Except FileFault Unit × FileSystem
  | [] => (.ok (), files)
  | path :: above =>
    match files.ensureDirectory path with
    | (.error .missing, _) =>
      match ensureDirectories files above with
      | (.ok (), made) => made.ensureDirectory path
      | failed => failed
    | done => done

def writeBytes (files : FileSystem) (path : Text) (bytes : List UInt8) :
    Except FileFault FileSystem :=
  match files.lookup .write path with
  | .ok (.found _ .directory) => .error .isDirectory
  | .ok (.found place _) => .ok (files.put place (.file bytes))
  | .ok (.free place) => .ok (files.put place (.file bytes))
  | .error fault => .error fault

/-- Writes a text to a path, missing directories above it made first. -/
def writeText (files : FileSystem) (path text : Text) : Except FileFault Unit × FileSystem :=
  match files.ensureDirectories (Path.ancestors path).tail with
  | (.ok (), made) =>
    match made.writeBytes path (Text.encode text) with
    | .ok written => (.ok (), written)
    | .error fault => (.error fault, made)
  | failed => failed

end FileSystem

end Registrar
