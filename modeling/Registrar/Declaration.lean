import Registrar.ReflectedClass
import Registrar.Text.Blank
import Registrar.Text.Identifier
import Registrar.Text.Literal
import Registrar.Text.Number

/-! Which identifier a line declares. Each line is judged alone. -/

namespace Registrar.Declaration

def controlKeywords : List Text :=
  ["if".toList, "for".toList, "while".toList, "switch".toList, "return".toList]

def accessSpecifiers : List Text :=
  ["public".toList, "private".toList, "protected".toList]

/-- The data member that a line declares: its last identifier, literals and numbers blanked. A line
with `(` declares none. -/
def memberIdentifier? (line : Text) : Option Text :=
  if line.contains '(' then none
  else (line.blankLiterals.blankNumbers.identifiers.getLast?).map Text.Run.word

def isCalled (run : Text.Run) : Bool := run.after.trimStart.head? == some '('

/-- The function that a line declares: its first identifier in front of `(`. If that is a control
keyword the line declares none. -/
def functionIdentifier? (line : Text) : Option Text :=
  ((line.identifiers.find? isCalled).map Text.Run.word).filter
    fun name => !controlKeywords.contains name

def identifier? : BindingKind → Text → Option Text
  | .member => memberIdentifier?
  | .function => functionIdentifier?

def startsWithAccess (t : Text) : Bool :=
  accessSpecifiers.any fun keyword =>
    match Text.after? keyword t with
    | some rest => !rest.head?.any isIdentChar
    | none => false

/-- Lines that a waiting marker looks past: blank ones, preprocessor directives and access
specifiers. -/
def isTransparent (line : Text) : Bool :=
  let t := line.trim
  t.isEmpty || t.head? == some '#' || startsWithAccess t

end Registrar.Declaration
