import Stylesheet.Text.Hex

/-!
# Identifiers

A name is written as an identifier by escaping what the identifier grammar does not take at its
place: every character outside letters, digits, `_` and `-`, a digit at the start, and a `-` at the
start that a digit or another `-` follows. Punctuation that is common in names is escaped by a
backslash alone (`simpleEscapes`), any other character by a backslash and its code point in exactly
six hexadecimal digits, so that no escape needs a blank to end it.
-/

namespace Stylesheet.Escape.Identifier

open Stylesheet.Text

/-- Whether a character is a decimal digit of ASCII. -/
def isDigit (c : Char) : Bool := 48 ≤ c.toNat && c.toNat ≤ 57

/-- Whether a character is a letter of ASCII. -/
def isLetter (c : Char) : Bool :=
  (65 ≤ c.toNat && c.toNat ≤ 90) || (97 ≤ c.toNat && c.toNat ≤ 122)

/-- Whether a character may stand inside an identifier as it is. -/
def isNameChar (c : Char) : Bool := isLetter c || isDigit c || c == '_' || c == '-'

/-- The characters that a backslash alone escapes. -/
def simpleEscapes : List Char := [':', '(', ')', '-', '\\', ' ', '=']

/-- The escape of a character. -/
def escapeChar (c : Char) : List Char :=
  if simpleEscapes.contains c then ['\\', c] else '\\' :: hexDigits 6 c.toNat

/-- A character behind the start of an identifier. -/
def encodeChar (c : Char) : List Char :=
  if isNameChar c then [c] else escapeChar c

/-- Whether `c`, followed by `rest`, may not start an identifier although it may stand inside
one. -/
def isBadStart (c : Char) (rest : List Char) : Bool :=
  isDigit c || (c == '-' && rest.head?.any fun d => d == '-' || isDigit d)

/-- The characters of the identifier for a name. -/
def encode : List Char → List Char
  | [] => []
  | c :: cs => (if isBadStart c cs then escapeChar c else encodeChar c) ++ cs.flatMap encodeChar

/-- The identifier for a name. -/
def escape (s : String) : String := String.ofList (encode s.toList)

@[simp] theorem toList_escape (s : String) : (escape s).toList = encode s.toList := by
  simp [escape]

@[simp] theorem encode_nil : encode [] = [] := rfl

/-- A name whose start is harmless is written character by character. -/
theorem encode_cons_of_not_isBadStart {c : Char} {cs : List Char} (h : isBadStart c cs = false) :
    encode (c :: cs) = (c :: cs).flatMap encodeChar := by
  simp [encode, h]

/-- Escaping writes at least one character for each one it is given. -/
theorem encodeChar_ne_nil (c : Char) : encodeChar c ≠ [] := by
  unfold encodeChar escapeChar
  split
  · simp
  · split <;> simp

end Stylesheet.Escape.Identifier
