/-!
# Double-quoted strings

A text is written inside double quotes by escaping what would end or corrupt the string: the
backslash, the double quote and the three characters that break a line. A line feed is written by
its code point, followed by the blank that ends such an escape; the others keep their character
behind a backslash.
-/

namespace Stylesheet.Escape.Quoted

/-- The characters that a string cannot hold as they are, each with its escape. -/
def escapes : List (Char × String) :=
  [('\\', "\\\\"), ('"', "\\\""), ('\n', "\\a "), ('\r', "\\\r"), ('\x0c', "\\\x0c")]

/-- A character inside a string. -/
def encodeChar (c : Char) : List Char :=
  match escapes.lookup c with
  | some escape => escape.toList
  | none => [c]

/-- A character that has an escape is written by it, and any other as it is. -/
theorem encodeChar_cases (c : Char) :
    (∃ e, (c, e) ∈ escapes ∧ encodeChar c = e.toList) ∨
      (∀ e ∈ escapes, c ≠ e.1) ∧ encodeChar c = [c] := by
  unfold encodeChar
  cases h : escapes.lookup c with
  | some e =>
    obtain ⟨l₁, l₂, hl, -⟩ := List.lookup_eq_some_iff.1 h
    exact .inl ⟨e, by rw [hl]; simp, rfl⟩
  | none => exact .inr ⟨fun e he => by simpa using List.lookup_eq_none_iff.1 h e he, rfl⟩

/-- The characters of a string for a text. -/
def encode (cs : List Char) : List Char := cs.flatMap encodeChar

/-- A text as it stands between double quotes. -/
def escape (s : String) : String := String.ofList (encode s.toList)

@[simp] theorem toList_escape (s : String) : (escape s).toList = encode s.toList := by
  simp [escape]

@[simp] theorem encode_nil : encode [] = [] := rfl

@[simp] theorem encode_cons (c : Char) (cs : List Char) :
    encode (c :: cs) = encodeChar c ++ encode cs := rfl

theorem encode_append (cs ds : List Char) : encode (cs ++ ds) = encode cs ++ encode ds := by
  simp [encode]

end Stylesheet.Escape.Quoted
