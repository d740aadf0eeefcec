import Mathlib.Computability.Language
import Stylesheet.Proofs.Decoding

/-!
# The grammar of identifiers

An identifier is an optional `-`, a start and any number of further characters (`identifierOf`). A
start is a letter, `_` or an escape; a further character may also be a digit or `-`. An escape is a
backslash with one to six hexadecimal digits and at most one white-space character, or with one
character that is neither such a digit nor the end of a line (`escaped`).

Escaping writes identifiers and writes no more escapes than it has to
(`encode_mem_identifier_iff`, `encode_eq_self_iff`). Only two names have no identifier, the empty
one and `-`. They are left as they are, and so is every name that is an identifier without escapes.
-/

namespace Stylesheet.Grammar

open Stylesheet.Text Stylesheet.Token Stylesheet.Escape.Identifier
open scoped Computability

/-! ## Words -/

/-- The words of one character of a kind. -/
def chars (p : Char → Bool) : Language Char := {cs | ∃ c, p c = true ∧ cs = [c]}

/-- Escapes by a code point. -/
def coded : Language Char :=
  {cs | ∃ digits blank, cs = '\\' :: (digits ++ blank) ∧ 1 ≤ digits.length ∧ digits.length ≤ 6 ∧
    (∀ d ∈ digits, isHex d = true) ∧ blank.length ≤ 1 ∧ ∀ b ∈ blank, isSpace b = true}

/-- Escapes of a character by a backslash alone. -/
def hidden : Language Char :=
  {cs | ∃ c, cs = ['\\', c] ∧ isNewline c = false ∧ isHex c = false}

/-- Escapes. -/
def escaped : Language Char := coded + hidden

/-- Whether a character can start an identifier as it is. -/
def isStartChar (c : Char) : Bool := c == '_' || isLetter c

/-- Identifiers with given starts and further characters. -/
def identifierOf (start char : Language Char) : Language Char := (1 + {['-']}) * start * char∗

/-- Starts of identifiers. -/
def start : Language Char := chars isStartChar + escaped

/-- Further characters of identifiers. -/
def further : Language Char := chars isNameChar + escaped

/-- Identifiers. -/
def identifier : Language Char := identifierOf start further

/-- Identifiers without escapes. -/
def plainIdentifier : Language Char := identifierOf (chars isStartChar) (chars isNameChar)

theorem singleton_mem_chars {p : Char → Bool} {c : Char} (h : p c = true) : [c] ∈ chars p :=
  ⟨c, h, rfl⟩

/-- An identifier is a start with further characters, alone or behind `-`. -/
theorem mem_identifierOf {start char : Language Char} {cs : List Char} :
    cs ∈ identifierOf start char ↔
      ∃ s ∈ start, ∃ t ∈ char∗, cs = s ++ t ∨ cs = '-' :: (s ++ t) := by
  constructor
  · rintro ⟨_, ⟨p, hp, s, hs, rfl⟩, t, ht, rfl⟩
    refine ⟨s, hs, t, ht, ?_⟩
    rcases (Language.mem_add _ _ _).1 hp with rfl | rfl
    · exact .inl rfl
    · exact .inr rfl
  · rintro ⟨s, hs, t, ht, rfl | rfl⟩
    · exact ⟨s, ⟨[], .inl rfl, s, hs, rfl⟩, t, ht, rfl⟩
    · exact ⟨'-' :: s, ⟨['-'], .inr rfl, s, hs, rfl⟩, t, ht, rfl⟩

theorem mem_kstar_chars {p : Char → Bool} {cs : List Char} :
    cs ∈ (chars p)∗ ↔ ∀ c ∈ cs, p c = true := by
  rw [Language.mem_kstar]
  constructor
  · rintro ⟨words, rfl, hwords⟩ c hc
    obtain ⟨word, hword, hc⟩ := List.mem_flatten.1 hc
    obtain ⟨d, hd, rfl⟩ := hwords word hword
    rwa [List.mem_singleton.1 hc]
  · intro h
    have hcs : cs = (cs.map fun c => [c]).flatten := by
      rw [← List.flatMap_def, List.flatMap_singleton']
    refine ⟨cs.map fun c => [c], hcs, fun word hword => ?_⟩
    obtain ⟨c, hc, rfl⟩ := List.mem_map.1 hword
    exact singleton_mem_chars (h c hc)

/-! ## What is written is an identifier -/

theorem escapeChar_mem_escaped (c : Char) : escapeChar c ∈ escaped := by
  rw [escapeChar]
  split
  case isTrue h =>
    exact .inr ⟨c, rfl, eq_false_of_contains (by decide) h, eq_false_of_contains (by decide) h⟩
  case isFalse =>
    refine .inl ⟨hexDigits 6 c.toNat, [], by simp, by simp, by simp, fun d hd => ?_, by simp, ?_⟩
    · rw [isHex, isHexDigit_of_mem_hexDigits hd, Bool.true_or]
    · exact List.forall_mem_nil _

theorem encodeChar_mem_further (c : Char) : encodeChar c ∈ further := by
  rw [encodeChar]
  split
  case isTrue h => exact .inl (singleton_mem_chars h)
  case isFalse => exact .inr (escapeChar_mem_escaped c)

theorem flatMap_encodeChar_mem_kstar (cs : List Char) : cs.flatMap encodeChar ∈ further∗ := by
  refine Language.mem_kstar.2 ⟨cs.map encodeChar, rfl, fun word hword => ?_⟩
  obtain ⟨c, -, rfl⟩ := List.mem_map.1 hword
  exact encodeChar_mem_further c

/-- The name characters that cannot start an identifier are the digits and `-`. -/
theorem isStartChar_eq {c : Char} (hdigit : isDigit c = false) (hdash : c ≠ '-') :
    isStartChar c = isNameChar c := by
  simp [isStartChar, isNameChar, hdigit, hdash, Bool.or_comm]

theorem encodeChar_mem_start {c : Char} (hdigit : isDigit c = false) (hdash : c ≠ '-') :
    encodeChar c ∈ start := by
  rw [encodeChar, ← isStartChar_eq hdigit hdash]
  split
  case isTrue h => exact .inl (singleton_mem_chars h)
  case isFalse => exact .inr (escapeChar_mem_escaped c)

theorem encode_mem_identifier {cs : List Char} (hne : cs ≠ []) (hdash : cs ≠ ['-']) :
    encode cs ∈ identifier := by
  cases cs with
  | nil => exact absurd rfl hne
  | cons c cs =>
    have hrest := flatMap_encodeChar_mem_kstar cs
    refine mem_identifierOf.2 ?_
    rw [encode]
    split
    case isTrue => exact ⟨_, .inr (escapeChar_mem_escaped c), _, hrest, .inl rfl⟩
    case isFalse h =>
      obtain ⟨hdigit, hnext⟩ := Bool.or_eq_false_iff.1 (Bool.eq_false_iff.2 h)
      by_cases hc : c = '-'
      · -- The start is the next character, which is neither a digit nor another `-`.
        subst hc
        cases cs with
        | nil => exact absurd rfl hdash
        | cons d ds =>
          obtain ⟨hd, hdigit'⟩ : d ≠ '-' ∧ isDigit d = false := by simpa using hnext
          exact ⟨_, encodeChar_mem_start hdigit' hd, _, flatMap_encodeChar_mem_kstar ds, .inr rfl⟩
      · exact ⟨_, encodeChar_mem_start hdigit hc, _, hrest, .inl rfl⟩

/-- A start is no `-`, and there is something to it. -/
theorem exists_cons_of_mem_start {cs : List Char} (h : cs ∈ start) :
    ∃ c ds, cs = c :: ds ∧ c ≠ '-' := by
  rcases h with ⟨c, hc, rfl⟩ | ⟨digits, blank, rfl, -⟩ | ⟨c, rfl, -⟩
  · refine ⟨c, [], rfl, ?_⟩
    rintro rfl
    revert hc
    decide
  · exact ⟨'\\', _, rfl, by decide⟩
  · exact ⟨'\\', _, rfl, by decide⟩

theorem ne_of_mem_identifier {cs : List Char} (h : cs ∈ identifier) : cs ≠ [] ∧ cs ≠ ['-'] := by
  obtain ⟨s, hs, t, -, rfl | rfl⟩ := mem_identifierOf.1 h
  all_goals
    obtain ⟨c, ds, rfl, hc⟩ := exists_cons_of_mem_start hs
    simp [hc]

/-- What is written for a name is an identifier, unless the name is empty or `-`. -/
theorem encode_mem_identifier_iff {cs : List Char} :
    encode cs ∈ identifier ↔ cs ≠ [] ∧ cs ≠ ['-'] := by
  refine ⟨fun h => ?_, fun h => encode_mem_identifier h.1 h.2⟩
  refine ⟨?_, ?_⟩
  · rintro rfl
    exact (ne_of_mem_identifier h).1 rfl
  · rintro rfl
    exact (ne_of_mem_identifier h).2 rfl

/-! ## What is written as it is -/

theorem two_le_length_escapeChar (c : Char) : 2 ≤ (escapeChar c).length := by
  rw [escapeChar]
  split
  · exact Nat.le_refl 2
  · simp

theorem length_le_length_flatMap (cs : List Char) : cs.length ≤ (cs.flatMap encodeChar).length := by
  induction cs with
  | nil => exact Nat.le_refl 0
  | cons c cs ih =>
    have hc := List.length_pos_iff.2 (encodeChar_ne_nil c)
    rw [List.flatMap_cons, List.length_append, List.length_cons]
    omega

/-- An escape makes a text longer. -/
theorem escapeChar_append_ne (c : Char) (cs : List Char) :
    escapeChar c ++ cs.flatMap encodeChar ≠ c :: cs := by
  intro h
  have hlength := congrArg List.length h
  have hc := two_le_length_escapeChar c
  have hcs := length_le_length_flatMap cs
  rw [List.length_append, List.length_cons] at hlength
  omega

theorem flatMap_encodeChar_eq_self_iff {cs : List Char} :
    cs.flatMap encodeChar = cs ↔ ∀ c ∈ cs, isNameChar c = true := by
  induction cs with
  | nil => simp
  | cons c cs ih =>
    rw [List.flatMap_cons, List.forall_mem_cons, ← ih, encodeChar]
    split
    case isTrue h => simp [h]
    case isFalse h => simp [h, escapeChar_append_ne]

/-- A name is written as it is if all of its characters may stand where they do. -/
theorem encode_cons_eq_self_iff {c : Char} {cs : List Char} :
    encode (c :: cs) = c :: cs ↔ isBadStart c cs = false ∧ ∀ d ∈ c :: cs, isNameChar d = true := by
  cases h : isBadStart c cs with
  | true => simp [encode, h, escapeChar_append_ne]
  | false =>
    rw [encode_cons_of_not_isBadStart h, flatMap_encodeChar_eq_self_iff]
    simp

theorem mem_plainIdentifier {cs : List Char} :
    cs ∈ plainIdentifier ↔ ∃ c ds, isStartChar c = true ∧ (∀ d ∈ ds, isNameChar d = true) ∧
      (cs = c :: ds ∨ cs = '-' :: c :: ds) := by
  rw [plainIdentifier, mem_identifierOf]
  constructor
  · rintro ⟨_, ⟨c, hc, rfl⟩, ds, hds, h⟩
    exact ⟨c, ds, hc, mem_kstar_chars.1 hds, h⟩
  · rintro ⟨c, ds, hc, hds, h⟩
    exact ⟨[c], singleton_mem_chars hc, ds, mem_kstar_chars.2 hds, h⟩

theorem isStartChar_iff {c : Char} :
    isStartChar c = true ↔ isNameChar c = true ∧ isDigit c = false ∧ c ≠ '-' := by
  constructor
  · intro h
    have hdigit : isDigit c = false := by
      simp only [isStartChar, isLetter, isDigit, Bool.or_eq_true, Bool.and_eq_true,
        decide_eq_true_eq, beq_iff_eq, Bool.and_eq_false_iff, decide_eq_false_iff_not] at h ⊢
      rcases h with rfl | h
      · decide
      · omega
    have hdash : c ≠ '-' := by
      rintro rfl
      revert h
      decide
    exact ⟨isStartChar_eq hdigit hdash ▸ h, hdigit, hdash⟩
  · rintro ⟨h, hdigit, hdash⟩
    exact isStartChar_eq hdigit hdash ▸ h

/-- The names that are written as they are. -/
theorem encode_eq_self_iff {cs : List Char} :
    encode cs = cs ↔ cs = [] ∨ cs = ['-'] ∨ cs ∈ plainIdentifier := by
  cases cs with
  | nil => simp
  | cons c cs =>
    rw [encode_cons_eq_self_iff, mem_plainIdentifier]
    constructor
    · rintro ⟨hstart, hnames⟩
      obtain ⟨hdigit, hnext⟩ := Bool.or_eq_false_iff.1 hstart
      obtain ⟨hc, hcs⟩ := List.forall_mem_cons.1 hnames
      by_cases hdash : c = '-'
      · subst hdash
        cases cs with
        | nil => exact .inr (.inl rfl)
        | cons d ds =>
          obtain ⟨hd, hdigit'⟩ : d ≠ '-' ∧ isDigit d = false := by simpa using hnext
          obtain ⟨hname, hds⟩ := List.forall_mem_cons.1 hcs
          exact .inr (.inr ⟨d, ds, isStartChar_iff.2 ⟨hname, hdigit', hd⟩, hds, .inr rfl⟩)
      · exact .inr (.inr ⟨c, cs, isStartChar_iff.2 ⟨hc, hdigit, hdash⟩, hcs, .inl rfl⟩)
    · rintro (h | h | ⟨d, ds, hd, hds, h | h⟩) <;> cases h
      · exact ⟨by decide, List.forall_mem_singleton.2 (by decide)⟩
      · obtain ⟨hname, hdigit, hdash⟩ := isStartChar_iff.1 hd
        exact ⟨by simp [isBadStart, hdigit, hdash], List.forall_mem_cons.2 ⟨hname, hds⟩⟩
      · obtain ⟨hname, hdigit, hdash⟩ := isStartChar_iff.1 hd
        have hstart : isBadStart '-' (d :: ds) = false := by
          simp [isBadStart, hdigit, hdash, show isDigit '-' = false by decide]
        exact ⟨hstart, List.forall_mem_cons.2 ⟨by decide, List.forall_mem_cons.2 ⟨hname, hds⟩⟩⟩

/-- What is written for a name is an identifier, unless the name is empty or `-`, and it is the name
itself exactly if the name is one of these two or an identifier without escapes. -/
theorem escape_valid_and_minimal (s : String) :
    ((escape s).toList ∈ identifier ↔ s ≠ "" ∧ s ≠ "-") ∧
      (escape s = s ↔ s = "" ∨ s = "-" ∨ s.toList ∈ plainIdentifier) := by
  have hempty : s = "" ↔ s.toList = [] := by rw [← String.toList_inj]; rfl
  have hdash : s = "-" ↔ s.toList = ['-'] := by rw [← String.toList_inj]; rfl
  rw [ne_eq, ne_eq, hempty, hdash, ← String.toList_inj, toList_escape]
  exact ⟨encode_mem_identifier_iff, encode_eq_self_iff⟩

end Stylesheet.Grammar
