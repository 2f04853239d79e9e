import Registrar.Fault
import Registrar.Layout
import Registrar.Markers
import Registrar.Path

/-! The settings of a run. -/

namespace Registrar

structure Settings where
  roots : List Text
  output : Text
  extensions : List Text := ["h".toList, "hpp".toList]
  markers : Markers := {}
  layout : Layout := {}
deriving DecidableEq

def Settings.isHeader (settings : Settings) (path : Text) : Bool :=
  (Path.extension? path).any settings.extensions.contains

/-- Settings that are not complete yet. -/
structure Draft where
  roots : List Text := []
  output : Option Text := none
  extensions : List Text := ["h".toList, "hpp".toList]
  markers : Markers := {}
  layout : Layout := {}
deriving DecidableEq

namespace Draft

def outputFile : Text := "auto_generated.cpp".toList

def addRoots (roots : List Text) (draft : Draft) : Draft :=
  { draft with roots := draft.roots ++ roots }

def writeTo (path : Text) (draft : Draft) : Draft := { draft with output := some path }

def writeInto (directory : Text) (draft : Draft) : Draft :=
  { draft with output := some (Path.join directory outputFile) }

def changeLayout (change : Layout → Layout) (draft : Draft) : Draft :=
  { draft with layout := change draft.layout }

/-- The settings, if there is a root and an output. A missing root is blamed first. -/
def build (draft : Draft) : Except Fault Settings :=
  if draft.roots.isEmpty then .error (.missingSetting .headerRoot)
  else match draft.output with
    | none => .error (.missingSetting .outputPath)
    | some output =>
      .ok { roots := draft.roots, output, extensions := draft.extensions,
            markers := draft.markers, layout := draft.layout }

end Draft

end Registrar
