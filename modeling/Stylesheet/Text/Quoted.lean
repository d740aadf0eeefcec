import Stylesheet.Text.Hex
import Stylesheet.Text.Printable

/-!
# Quoted texts in messages

A text quoted in a message stands between single quotes, or between double quotes if it holds a
single quote and no double one (`delimiter`). The quote in use, the backslash and the characters
that cannot be shown are escaped (`quoteChar`), so that a quoted text is always a single line.
-/

namespace Stylesheet.Text

/-- The quote that a text is put in. -/
def delimiter (cs : List Char) : Char :=
  if cs.contains '\'' && !cs.contains '"' then '"' else '\''

/-- An escape by code point, in the shortest of the three widths that holds it. -/
def codePointEscape (c : Char) : List Char :=
  if c.toNat < 0x100 then '\\' :: 'x' :: hexDigits 2 c.toNat
  else if c.toNat < 0x10000 then '\\' :: 'u' :: hexDigits 4 c.toNat
  else '\\' :: 'U' :: hexDigits 8 c.toNat

/-- A character inside a text quoted with `quote`. -/
def quoteChar (quote c : Char) : List Char :=
  if c = quote ∨ c = '\\' then ['\\', c]
  else if c = '\n' then ['\\', 'n']
  else if c = '\r' then ['\\', 'r']
  else if c = '\t' then ['\\', 't']
  else if isPrintable c then [c]
  else codePointEscape c

/-- A text in quotes, as messages show it. -/
def quoted (s : String) : String :=
  let quote := delimiter s.toList
  String.ofList (quote :: s.toList.flatMap (quoteChar quote) ++ [quote])

end Stylesheet.Text
