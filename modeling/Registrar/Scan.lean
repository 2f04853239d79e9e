import Registrar.Effect
import Registrar.Text.Comment

/-! Scanning a header for the classes it declares. -/

namespace Registrar

namespace Progress

/-- Reads the markers of a line, unless its class marker belongs to a class that opens later. -/
def readMarkers (markers : Markers) (line : Text) (progress : Progress) : Progress :=
  if marksLaterClass markers.onClass line then progress else progress.annotate markers line

def readLine (markers : Markers) (header line : Text) (progress : Progress) : Progress :=
  ((progress.openScopes markers.onClass header line).readMarkers markers line).closeScopes line

def readLines (markers : Markers) (header : Text) (lines : List Text) (progress : Progress) :
    Progress :=
  lines.foldl (fun progress line => progress.readLine markers header line) progress

end Progress

namespace Markers

/-- Whether a header can register a class at all: it mentions the class marker. -/
def needsScan (markers : Markers) (source : Text) : Bool := Text.occursIn markers.onClass source

/-- The classes of a header, which is recorded with each of them. A header that does not need a
scan has none. -/
def scan (markers : Markers) (header source : Text) : Registry :=
  if markers.needsScan source then
    (Progress.readLines markers header source.cleanLines {}).registry
  else []

end Markers

end Registrar
