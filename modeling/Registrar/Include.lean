import Registrar.Registry

/-! The paths under which the registration source includes headers. -/

namespace Registrar.Include

def normalize (path : Text) : Text := path.map fun c => if c = '\\' then '/' else c

def rootStart (root : Text) : Text :=
  ((normalize root).reverse.dropWhile (· == '/')).reverse ++ ['/']

/-- The path to include a header by: what follows the first root that the header lies below. A
header outside every root keeps its whole path. -/
def path (roots : List Text) (header : Text) : Text :=
  (roots.findSome? fun root => Text.after? (rootStart root) (normalize header)).getD
    (normalize header)

/-- The distinct include paths of the registered classes, each where it comes first. -/
def collect (roots : List Text) (registry : Registry) : List Text :=
  (registry.registered.map fun cls => path roots cls.header).eraseDups

end Registrar.Include
