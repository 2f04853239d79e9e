import Registrar.Text.Basic
import Registrar.Text.Hidden

/-! Texts in double quotes, as log lines show them. -/

namespace Registrar.Text

/-- A character inside quotes. Quotes and backslashes get a backslash, the common control
characters a letter, and hidden characters their code point. -/
def quoteChar (c : Char) : Text :=
  if c = '"' ∨ c = '\\' then ['\\', c]
  else if c = '\n' then ['\\', 'n']
  else if c = '\r' then ['\\', 'r']
  else if c = '\t' then ['\\', 't']
  else if c = '\x00' then ['\\', '0']
  else if isHidden c then ['\\', 'u', '{'] ++ Nat.toDigits 16 c.toNat ++ ['}']
  else [c]

def quoted (t : Text) : Text := '"' :: t.flatMap quoteChar ++ ['"']

end Registrar.Text
