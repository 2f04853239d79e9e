import Registrar.ReflectedClass

/-! The registry that collects classes, in the order in which they are found. A class is known by
its index, and a change at an index out of range does nothing. -/

namespace Registrar

abbrev Registry := List ReflectedClass

namespace Registry

def push (registry : Registry) (cls : ReflectedClass) : Registry := registry ++ [cls]

def merge (registry other : Registry) : Registry := registry ++ other

def update (registry : Registry) (index : Nat) (change : ReflectedClass → ReflectedClass) :
    Registry :=
  registry.modify index change

def registered (registry : Registry) : List ReflectedClass :=
  registry.filter ReflectedClass.isRegistered

end Registry

end Registrar
