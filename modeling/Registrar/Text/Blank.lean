import Registrar.Text.Basic

/-! Blank characters, and what is left of a text without the blanks at its ends. -/

namespace Registrar

/-- The characters with the property White_Space. Zero-width characters are not among them. -/
def blanks : List Char :=
  ['\t', '\n', '\x0b', '\x0c', '\r', ' ', '\u0085', '\u00a0', '\u1680', '\u2000', '\u2001',
   '\u2002', '\u2003', '\u2004', '\u2005', '\u2006', '\u2007', '\u2008', '\u2009', '\u200a',
   '\u2028', '\u2029', '\u202f', '\u205f', '\u3000']

def isBlank (c : Char) : Bool := blanks.contains c

namespace Text

def trimStart (t : Text) : Text := t.dropWhile isBlank

def trimEnd (t : Text) : Text := (t.reverse.dropWhile isBlank).reverse

def trim (t : Text) : Text := t.trimStart.trimEnd

theorem trimStart_length_le (t : Text) : t.trimStart.length ≤ t.length :=
  (List.dropWhile_sublist isBlank).length_le

end Text

end Registrar
