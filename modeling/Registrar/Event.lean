import Registrar.ReflectedClass
import Registrar.Text.Quoted

/-! What a run reports while it works. -/

namespace Registrar

inductive Level where
  | error
  | warn
  | info
  | debug
  | trace
deriving DecidableEq

namespace Level

def word : Level → Text
  | .error => "ERROR".toList
  | .warn => "WARN".toList
  | .info => "INFO".toList
  | .debug => "DEBUG".toList
  | .trace => "TRACE".toList

def rank : Level → Nat
  | .error => 0
  | .warn => 1
  | .info => 2
  | .debug => 3
  | .trace => 4

def shownUpTo (limit level : Level) : Bool := level.rank ≤ limit.rank

end Level

inductive Event where
  | openedNamespace (name : Text) (depth : Int)
  | openedClass (name : QualifiedName) (depth : Int)
  | closedNamespace (name : Text)
  | closedClass (name : QualifiedName) (members functions : Nat)
  | unresolvedMarker (name : QualifiedName)
  | classMarker (name : QualifiedName) (registration : Text)
  | waiting (kind : BindingKind) (name : QualifiedName)
  | bound (kind : BindingKind) (name : QualifiedName) (binding : Binding)
  | skippedHeader (header : Text)
  | scannedHeader (header : Text) (classes registered : Nat)
  | skippedRoot (root : Text)
  | discovered (root : Text) (headers : Nat)
  | wroteOutput (path : Text) (bytes : Nat)
  | generated (headers classes registered : Nat) (output : Text)
  | nothingRegistered
deriving DecidableEq

namespace Event

def level : Event → Level
  | .classMarker .. | .waiting .. | .bound .. => .trace
  | .skippedRoot .. | .nothingRegistered => .warn
  | .generated .. => .info
  | _ => .debug

def origin : Event → Text
  | .openedNamespace .. | .openedClass .. | .closedNamespace .. | .closedClass ..
  | .unresolvedMarker .. => "reflectgen_scanner::scope".toList
  | .classMarker .. | .waiting .. | .bound .. => "reflectgen_scanner::metadata".toList
  | .skippedHeader .. | .scannedHeader .. => "reflectgen_scanner::scanner".toList
  | .skippedRoot .. | .discovered .. => "reflectgen::discover".toList
  | .wroteOutput .. | .generated .. => "reflectgen::generator".toList
  | .nothingRegistered => "reflectgen".toList

def bindingWord : BindingKind → Text
  | .member => "member".toList
  | .function => "function".toList

def message : Event → Text
  | .openedNamespace .. => "opened namespace".toList
  | .openedClass .. => "opened class".toList
  | .closedNamespace .. => "closed namespace".toList
  | .closedClass .. => "closed class".toList
  | .unresolvedMarker .. => "class closed with an unresolved marker".toList
  | .classMarker .. => "class marker".toList
  | .waiting kind _ => bindingWord kind ++ " marker waiting for declaration".toList
  | .bound kind _ _ => bindingWord kind
  | .skippedHeader .. => "no class marker, skipping".toList
  | .scannedHeader .. => "scanned header".toList
  | .skippedRoot .. => "header root is not a directory, skipping".toList
  | .discovered .. => "discovered headers".toList
  | .wroteOutput .. => "wrote output".toList
  | .generated .. => "generated reflection registration".toList
  | .nothingRegistered => "no registered classes found".toList

def fields : Event → List (Text × Text)
  | .openedNamespace name depth =>
    [("namespace".toList, name), ("depth".toList, .ofInt depth)]
  | .openedClass name depth => [("class".toList, name.render), ("depth".toList, .ofInt depth)]
  | .closedNamespace name => [("namespace".toList, name)]
  | .closedClass name members functions =>
    [("class".toList, name.render), ("members".toList, .ofNat members),
      ("functions".toList, .ofNat functions)]
  | .unresolvedMarker name => [("class".toList, name.render)]
  | .classMarker name registration =>
    [("class".toList, name.render), ("registration".toList, Text.quoted registration)]
  | .waiting _ name => [("class".toList, name.render)]
  | .bound _ name binding =>
    [("class".toList, name.render), ("registration".toList, binding.registration),
      ("identifier".toList, binding.identifier)]
  | .skippedHeader header => [("header".toList, header)]
  | .scannedHeader header classes registered =>
    [("header".toList, header), ("classes".toList, .ofNat classes),
      ("registered".toList, .ofNat registered)]
  | .skippedRoot root => [("root".toList, root)]
  | .discovered root headers => [("root".toList, root), ("headers".toList, .ofNat headers)]
  | .wroteOutput path bytes => [("path".toList, path), ("bytes".toList, .ofNat bytes)]
  | .generated headers classes registered output =>
    [("headers".toList, .ofNat headers), ("classes".toList, .ofNat classes),
      ("registered".toList, .ofNat registered), ("output".toList, output)]
  | .nothingRegistered => []

/-- A report as a log shows it: one line, unless a detail has line breaks of its own. -/
def render (event : Event) : Text :=
  event.level.word ++ ' ' :: event.origin ++ ": ".toList ++ event.message ++
    event.fields.flatMap fun field => ' ' :: field.1 ++ '=' :: field.2

end Event

def logLines (limit : Level) (events : List Event) : List Text :=
  (events.filter fun event => limit.shownUpTo event.level).flatMap fun event =>
    Text.splitAt '\n' event.render

end Registrar
