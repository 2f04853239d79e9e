import Registrar.Path
import Registrar.QualifiedName

/-! Reflected classes with their members and functions. -/

namespace Registrar

/-- What a class binds: a data member or a function. -/
inductive BindingKind where
  | member
  | function
deriving DecidableEq

/-- A reflected member or function: the name it is registered under and the identifier that
declares it. -/
structure Binding where
  registration : Text
  identifier : Text
deriving DecidableEq

namespace Binding

/-- A binding whose registration falls back to the identifier if the given one is empty. -/
def named (registration identifier : Text) : Binding :=
  ⟨if registration.isEmpty then identifier else registration, identifier⟩

def same (identifier : Text) : Binding := ⟨identifier, identifier⟩

end Binding

/-- How a class marker names the class: by its qualified name or by a given one. -/
inductive Registration where
  | qualified
  | explicit (name : Text)
deriving DecidableEq

/-- A class or struct found in a header. Only a class marker gives it a registration name; without
one it is kept so that classes inside it are qualified. -/
structure ReflectedClass where
  name : QualifiedName
  header : Text
  registration : Option Text := none
  members : List Binding := []
  functions : List Binding := []
deriving DecidableEq

namespace ReflectedClass

def isRegistered (cls : ReflectedClass) : Bool := cls.registration.isSome

def nameFor (cls : ReflectedClass) : Registration → Text
  | .qualified => cls.name.render
  | .explicit name => name

/-- Registers the class. A later marker replaces the name of an earlier one. -/
def register (registration : Registration) (cls : ReflectedClass) : ReflectedClass :=
  { cls with registration := some (cls.nameFor registration) }

def bindings (cls : ReflectedClass) : BindingKind → List Binding
  | .member => cls.members
  | .function => cls.functions

def addBinding (kind : BindingKind) (binding : Binding) (cls : ReflectedClass) : ReflectedClass :=
  match kind with
  | .member => { cls with members := cls.members ++ [binding] }
  | .function => { cls with functions := cls.functions ++ [binding] }

@[simp] theorem name_register (registration : Registration) (cls : ReflectedClass) :
    (cls.register registration).name = cls.name := rfl

@[simp] theorem header_register (registration : Registration) (cls : ReflectedClass) :
    (cls.register registration).header = cls.header := rfl

@[simp] theorem bindings_register (registration : Registration) (cls : ReflectedClass)
    (kind : BindingKind) : (cls.register registration).bindings kind = cls.bindings kind := by
  cases kind <;> rfl

@[simp] theorem name_addBinding (kind : BindingKind) (binding : Binding) (cls : ReflectedClass) :
    (cls.addBinding kind binding).name = cls.name := by
  cases kind <;> rfl

@[simp] theorem header_addBinding (kind : BindingKind) (binding : Binding) (cls : ReflectedClass) :
    (cls.addBinding kind binding).header = cls.header := by
  cases kind <;> rfl

@[simp] theorem registration_addBinding (kind : BindingKind) (binding : Binding)
    (cls : ReflectedClass) : (cls.addBinding kind binding).registration = cls.registration := by
  cases kind <;> rfl

@[simp] theorem bindings_addBinding (kind other : BindingKind) (binding : Binding)
    (cls : ReflectedClass) :
    (cls.addBinding kind binding).bindings other =
      cls.bindings other ++ if other = kind then [binding] else [] := by
  cases kind <;> cases other <;> simp [addBinding, bindings]

/-- Whether two classes agree in every field, headers compared by their path components. -/
def same (a b : ReflectedClass) : Bool :=
  Path.same a.header b.header && { a with header := [] } == { b with header := [] }

end ReflectedClass

end Registrar
