import Registrar.Text.Basic

/-! Paths as texts, read by their components. -/

namespace Registrar

inductive Component where
  | root
  | here
  | up
  | name (text : Text)
deriving DecidableEq

namespace Component

def ofPiece (piece : Text) : Component :=
  if piece = ".".toList then .here else if piece = "..".toList then .up else .name piece

end Component

namespace Path

def pieces (path : Text) : List Text := (path.splitAt '/').filter fun piece => !piece.isEmpty

def isAbsolute (path : Text) : Bool := path.head? == some '/'

/-- The components of a path. Repeated slashes, slashes at the end and every `.` but a leading one
have no influence; `..` stays. -/
def components (path : Text) : List Component :=
  let named := (pieces path).map Component.ofPiece
  if isAbsolute path then .root :: named.filter (· != .here)
  else match named with
    | [] => []
    | first :: more => first :: more.filter (· != .here)

def same (a b : Text) : Bool := components a == components b

/-- Whether a piece between slashes adds nothing to the path before it. -/
def isSilent (piece : Text) : Bool := piece.isEmpty || piece == ".".toList

/-- The path of pieces between slashes. An empty piece alone is what stands before the slash of the
root. -/
def ofPieces : List Text → Text
  | [[]] => "/".toList
  | pieces => List.intercalate "/".toList pieces

/-- The path of pieces between slashes, given with the last one first, and those it lies in. -/
def ancestorsOf : List Text → List Text
  | [] => []
  | last :: above =>
    if isSilent last && !above.isEmpty then ancestorsOf above
    else ofPieces (last :: above).reverse :: ancestorsOf above

/-- The path up to its last component, the one it lies in, and so on, each as the path spells it;
none for the empty path. -/
def ancestors (path : Text) : List Text :=
  if path.isEmpty then [] else ancestorsOf (path.splitAt '/').reverse

def fileName? (path : Text) : Option Text :=
  match (components path).getLast? with
  | some (.name text) => some text
  | _ => none

/-- The text after the last dot of the file name; none if there is no dot, or only one in front. -/
def extension? (path : Text) : Option Text :=
  (fileName? path).bind fun name =>
    match (name.splitAt '.').reverse with
    | last :: before :: more => if before.isEmpty && more.isEmpty then none else some last
    | _ => none

/-- A path below a directory, with one slash between them. The empty directory adds nothing, and a
path that starts at the root replaces the directory. -/
def join (directory path : Text) : Text :=
  if isAbsolute path || directory.isEmpty then path
  else if directory.getLast? = some '/' then directory ++ path
  else directory ++ '/' :: path

end Path

end Registrar
