import Registrar.FileSystem.Fault
import Registrar.Marker.Kind

/-! Why a run can fail. -/

namespace Registrar

/-- A setting without which there is no run. -/
inductive Setting where
  | headerRoot
  | outputPath
deriving DecidableEq

def Setting.words : Setting → Text
  | .headerRoot => "header root".toList
  | .outputPath => "output path".toList

inductive Fault where
  | invalidMarker (kind : MarkerKind) (name : Text)
  | walkRoot (directory : Text) (cause : FileFault)
  | readHeader (path : Text) (cause : FileFault)
  | writeOutput (path : Text) (cause : FileFault)
  | missingSetting (setting : Setting)
deriving DecidableEq

def walkMessage (directory : Text) (cause : FileFault) : Text :=
  "IO error for operation on ".toList ++ directory ++ ": ".toList ++ cause.message

def Fault.message : Fault → Text
  | .invalidMarker kind name =>
    "invalid ".toList ++ kind.word ++ " marker '".toList ++ name ++
      "': expected a C++ identifier".toList
  | .walkRoot directory cause =>
    "failed to walk header root: ".toList ++ walkMessage directory cause
  | .readHeader path cause =>
    "failed to read header ".toList ++ path ++ ": ".toList ++ cause.message
  | .writeOutput path cause =>
    "failed to write ".toList ++ path ++ ": ".toList ++ cause.message
  | .missingSetting setting => "missing configuration: ".toList ++ setting.words

end Registrar
