import Registrar.CommandLine.Call

/-! The program: reads from disk what a call needs, answers the call and stores what has changed. -/

namespace Registrar.Disk

def pathOf (place : Location) : String :=
  String.ofList ('/' :: List.intercalate ['/'] place)

def placeOf (path : String) : Location := Path.pieces path.toList

def wayTo (place : Location) : List Location :=
  (List.range place.length).map fun n => place.take (n + 1)

/-- Reads the node at a place. A link is read as one to the place it leads to in the end, or to
itself if it leads nowhere, and only files that `wanted` accepts are read with their bytes. -/
def readNode (wanted : Text → Bool) (place : Location) : IO (Option Node) := do
  let path := (← IO.currentDir) / pathOf place
  let kind ← try pure (some (← path.symlinkMetadata).type) catch _ => pure none
  match kind with
  | some .dir => return some .directory
  | some .file =>
    if wanted (pathOf place).toList then return some (.file (← IO.FS.readBinFile path).data.toList)
    else return some (.file [])
  | some .symlink =>
    try return some (.link (← IO.FS.realPath path).toString.toList)
    catch _ => return some (.link (pathOf place).toList)
  | _ => return none

def loadNode (wanted : Text → Bool) (files : FileSystem) (place : Location) :
    IO FileSystem := do
  if (files.get? place).isSome then return files
  match ← readNode wanted place with
  | some node => return files.put place node
  | none => return files

def loadWay (wanted : Text → Bool) (files : FileSystem) (place : Location) : IO FileSystem :=
  (wayTo place).foldlM (loadNode wanted) files

/-- Adds every place on the way that a path spells, and on the ways that links of it lead to. -/
def loadPath (wanted : Text → Bool) (files : FileSystem) (text : Text) : IO FileSystem := do
  let spelled := placeOf ((← IO.currentDir) / String.ofList text).toString
  (wayTo spelled).foldlM (fun files place => do
    let files ← loadNode wanted files place
    let real ← try pure (some (← IO.FS.realPath (pathOf place))) catch _ => pure none
    match real with
    | some real => loadWay wanted files (placeOf real.toString)
    | none => return files) files

/-- Adds everything below a directory. Links are not followed. -/
partial def loadTree (wanted : Text → Bool) (files : FileSystem) (place : Location) :
    IO FileSystem := do
  let entries ← ((← IO.currentDir) / pathOf place).readDir
  entries.foldlM (fun files entry => do
    let below := place ++ [entry.fileName.toList]
    let files ← loadNode wanted files below
    if files.get? below = some .directory then loadTree wanted files below else return files) files

def loadRoot (wanted : Text → Bool) (files : FileSystem) (root : Text) : IO FileSystem := do
  let files ← loadPath wanted files root
  match files.directory? root with
  | some place => loadTree wanted files place
  | none => return files

def load (arguments : List Text) : IO FileSystem := do
  let working := placeOf (← IO.currentDir).toString
  let empty : FileSystem := { working }
  match CommandLine.Options.settings? arguments with
  | none => return empty
  | some settings =>
    let files ← loadWay settings.isHeader empty working
    let files ← loadPath settings.isHeader files settings.output
    settings.roots.foldlM (loadRoot settings.isHeader) files

def store (change : Location × Node) : IO Unit :=
  match change with
  | (place, .directory) => IO.FS.createDir (pathOf place)
  | (place, .file bytes) => IO.FS.writeBinFile (pathOf place) ⟨bytes.toArray⟩
  | (_, .link _) => pure ()

def answer (arguments : List Text) : IO Nat := do
  let before ← load arguments
  let (reply, after) := CommandLine.call arguments before
  (before.changes after).forM store
  IO.print (String.ofList reply.output)
  reply.errors.forM fun line => IO.eprintln (String.ofList line)
  return reply.code

end Registrar.Disk

def main (arguments : List String) : IO UInt32 := do
  return (← Registrar.Disk.answer (arguments.map String.toList)).toUInt32
