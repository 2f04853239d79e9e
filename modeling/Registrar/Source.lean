import Registrar.Include
import Registrar.Layout

/-! Writing the registration source.

The source is one function that registers every registered class, behind a banner and the includes
that it needs. -/

namespace Registrar

def sourceLine (level : Nat) (parts : List Text) : Text :=
  List.replicate (4 * level) ' ' ++ parts.flatten ++ ['\n']

namespace Layout

def bannerLine (line : Text) : Text := sourceLine 0 ["// ".toList, line]

def includeLine (path : Text) : Text :=
  sourceLine 0 ["#include \"".toList, path, "\"".toList]

def preamble (layout : Layout) (includes : List Text) : Text :=
  layout.banner.flatMap bannerLine ++
    (if layout.banner.isEmpty then [] else ['\n']) ++
    (layout.frameworkIncludes ++ includes).flatMap includeLine ++ ['\n']

def guardLines (condition : List Text) : Text :=
  sourceLine 1 (["if (".toList] ++ condition ++ [") \x7b".toList]) ++
    sourceLine 2 ["return;".toList] ++ sourceLine 1 ["\x7d".toList]

def entry (layout : Layout) : Text :=
  sourceLine 0 ["void ".toList, layout.entryFunction, "() \x7b".toList] ++
    sourceLine 1 ["using namespace ".toList, layout.runtimeNamespace, ";".toList] ++
    guardLines [layout.context, " == nullptr".toList] ++
    guardLines [layout.context, "->".toList, layout.reflectSystem,
      ".getInstance() == nullptr".toList] ++
    sourceLine 1 ["auto& ".toList, layout.reflectSystem, " = *".toList, layout.context,
      "->".toList, layout.reflectSystem, ";".toList] ++
    ['\n']

def bindingCall (layout : Layout) : BindingKind → Text
  | .member => layout.memberCall
  | .function => layout.functionCall

def bindingLine (layout : Layout) (cls : ReflectedClass) (kind : BindingKind) (binding : Binding) :
    Text :=
  sourceLine 2 [layout.classBuilder, ".".toList, layout.bindingCall kind, "(\"".toList,
    binding.registration, "\", &".toList, cls.name.render, "::".toList, binding.identifier,
    ");".toList]

def registrationBlock (layout : Layout) (cls : ReflectedClass) (registration : Text) : Text :=
  sourceLine 1 ["\x7b".toList] ++
    sourceLine 2 ["auto ".toList, layout.classBuilder, " = ".toList, layout.reflectSystem,
      ".".toList, layout.classCall, "<".toList, cls.name.render, ">(\"".toList, registration,
      "\");".toList] ++
    cls.members.flatMap (layout.bindingLine cls .member) ++
    cls.functions.flatMap (layout.bindingLine cls .function) ++
    sourceLine 1 ["\x7d".toList] ++ ['\n']

def block (layout : Layout) (cls : ReflectedClass) : Text :=
  match cls.registration with
  | some registration => layout.registrationBlock cls registration
  | none => []

def finish : Text := sourceLine 0 ["\x7d".toList]

def source (layout : Layout) (roots : List Text) (registry : Registry) : Text :=
  layout.preamble (Include.collect roots registry) ++ layout.entry ++
    registry.registered.flatMap layout.block ++ finish

end Layout

end Registrar
