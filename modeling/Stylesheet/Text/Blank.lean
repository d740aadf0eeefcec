/-!
# Blank characters and trimming

`isBlank` is white space in the sense of Unicode: separators, and the controls whose bidirectional
class is a separator's. `trim` drops the blanks at both ends of a text
(`trimChars_cons_of_isBlank`, `trimChars_eq_self`) and no character that is not blank
(`filter_trimChars`).
-/

namespace Stylesheet.Text

/-- White space: tab to carriage return, the four information separators, the space, next line,
and the space, line and paragraph separators. -/
def isBlank (c : Char) : Bool :=
  let n := c.toNat
  (0x09 ≤ n && n ≤ 0x0D) || (0x1C ≤ n && n ≤ 0x20) || n == 0x85 || n == 0xA0 || n == 0x1680 ||
    (0x2000 ≤ n && n ≤ 0x200A) || n == 0x2028 || n == 0x2029 || n == 0x202F || n == 0x205F ||
    n == 0x3000

/-- The characters left when the blanks at both ends are dropped. -/
def trimChars (cs : List Char) : List Char :=
  ((cs.dropWhile isBlank).reverse.dropWhile isBlank).reverse

/-- A text without the blanks at its ends. -/
def trim (s : String) : String := String.ofList (trimChars s.toList)

@[simp] theorem toList_trim (s : String) : (trim s).toList = trimChars s.toList := by
  simp [trim]

@[simp] theorem trimChars_nil : trimChars [] = [] := rfl

/-- A leading blank is dropped. -/
theorem trimChars_cons_of_isBlank {c : Char} (cs : List Char) (h : isBlank c = true) :
    trimChars (c :: cs) = trimChars cs := by
  simp [trimChars, h]

/-- Characters that start and end with no blank are left alone. -/
theorem trimChars_eq_self {cs : List Char} (hd : ∀ c ∈ cs.head?, isBlank c = false)
    (tl : ∀ c ∈ cs.getLast?, isBlank c = false) : trimChars cs = cs := by
  have drop_self : ∀ {ds : List Char}, (∀ c ∈ ds.head?, isBlank c = false) →
      ds.dropWhile isBlank = ds := by
    intro ds h
    cases ds with
    | nil => rfl
    | cons d ds => simp [List.dropWhile, h d (by simp)]
  rw [trimChars, drop_self hd, drop_self (by simpa using tl), List.reverse_reverse]

private theorem filter_dropWhile (cs : List Char) :
    (cs.dropWhile isBlank).filter (fun c => !isBlank c) = cs.filter fun c => !isBlank c := by
  induction cs with
  | nil => rfl
  | cons c cs ih => by_cases h : isBlank c = true <;> simp [List.dropWhile, h, ih]

/-- Trimming takes no character that is not blank. -/
theorem filter_trimChars (cs : List Char) :
    (trimChars cs).filter (fun c => !isBlank c) = cs.filter fun c => !isBlank c := by
  rw [trimChars, List.filter_reverse, filter_dropWhile, List.filter_reverse, List.reverse_reverse,
    filter_dropWhile]

end Stylesheet.Text
