import Registrar.Text.Basic

/-! The names that the registration source is written with. -/

namespace Registrar

structure Layout where
  banner : List Text :=
    ["This file is auto-generated by reflectgen.".toList, "Do not edit manually.".toList]
  /-- Headers included before those of the registered classes. -/
  frameworkIncludes : List Text :=
    ["engine/global_context.hpp".toList, "core/reflect/reflect_system.hpp".toList]
  entryFunction : Text := "Parser".toList
  /-- The namespace used inside the entry function. -/
  runtimeNamespace : Text := "wen".toList
  /-- The global pointer to the context of the runtime. -/
  context : Text := "global_context".toList
  /-- The part of the context that classes are registered with. -/
  reflectSystem : Text := "reflect_system".toList
  /-- The local variable that builds one class. -/
  classBuilder : Text := "class_builder".toList
  classCall : Text := "addClass".toList
  memberCall : Text := "addMember".toList
  functionCall : Text := "addFunction".toList
deriving DecidableEq

end Registrar
