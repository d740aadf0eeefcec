import Stylesheet.Escape.Identifier

/-!
# Reading names back

A reader of stylesheets takes a name for a run, as long as possible, of name characters and escapes
(`readName`). An escape is a backslash with one to six hexadecimal digits, or with one character
that is neither such a digit nor the end of a line (`readEscape?`). One white-space character behind
the digits belongs to the escape, so that digits of the text that follows can be told from those of
the escape. Six digits would not need it, but the rule is the same for them: white space behind six
digits is lost as well.

`readName_encode_append` says how the identifier for a name is read, whatever follows it: as the
name, except that white space behind it is lost if the last character of the name is written by its
code point (`endsInCode`).
-/

namespace Stylesheet.Token

open Stylesheet.Text Stylesheet.Escape.Identifier

/-- Whether a character is a hexadecimal digit, in either case. -/
def isHex (c : Char) : Bool := isHexDigit c || (65 ≤ c.toNat && c.toNat ≤ 70)

/-- The number that a hexadecimal digit of either case stands for. -/
def hexOf (c : Char) : Nat := if isHexDigit c then hexDigitValue c else c.toNat - 55

/-- The number that hexadecimal digits stand for, the most significant first. -/
def codeOf (ds : List Char) : Nat := ds.foldl (fun n d => n * 16 + hexOf d) 0

/-- The character with a given code point; a number that is none stands for the replacement
character. -/
def charOfCode (n : Nat) : Char := if n.isValidChar then Char.ofNat n else '\uFFFD'

/-- Whether a character ends a line. -/
def isNewline (c : Char) : Bool := c == '\n' || c == '\r' || c == '\x0c'

/-- Whether a character is white space between tokens. -/
def isSpace (c : Char) : Bool := c == ' ' || c == '\t' || isNewline c

/-- A text without the white-space character at its start, if there is one. -/
def dropSpace : List Char → List Char
  | [] => []
  | c :: cs => if isSpace c then cs else c :: cs

/-- The digits of an escape: as many as there are, but no more than six. -/
def escapeDigits (cs : List Char) : List Char := (cs.take 6).takeWhile isHex

/-- The character that an escape stands for, from what is behind its backslash, and what is left of
the text. -/
def readEscape? (cs : List Char) : Option (Char × List Char) :=
  match escapeDigits cs with
  | d :: ds => some (charOfCode (codeOf (d :: ds)), dropSpace (cs.drop (d :: ds).length))
  | [] =>
    match cs with
    | [] => none
    | c :: rest => if isNewline c then none else some (c, rest)

theorem length_dropSpace_le (cs : List Char) : (dropSpace cs).length ≤ cs.length := by
  fun_cases dropSpace cs <;> simp only [List.length_nil, List.length_cons] <;> omega

/-- An escape takes something of the text. -/
theorem length_of_readEscape? {cs rest : List Char} {c : Char}
    (h : readEscape? cs = some (c, rest)) : rest.length < cs.length := by
  unfold readEscape? at h
  split at h
  case h_1 d ds hds =>
    cases h
    have hlength : (escapeDigits cs).length ≤ (cs.take 6).length :=
      (List.takeWhile_sublist _).length_le
    have hdrop := length_dropSpace_le (cs.drop (d :: ds).length)
    simp only [hds, List.length_cons, List.length_take, List.length_drop] at hlength hdrop ⊢
    omega
  case h_2 =>
    split at h
    · cases h
    · split at h <;> cases h
      exact Nat.lt_succ_self _

/-- The name at the start of a text, and what is left of the text. -/
def readName (cs : List Char) : List Char × List Char :=
  match cs with
  | [] => ([], [])
  | c :: rest =>
    if isNameChar c then
      let r := readName rest
      (c :: r.1, r.2)
    else if c = '\\' then
      match h : readEscape? rest with
      | some (d, rest') =>
        have := length_of_readEscape? h
        let r := readName rest'
        (d :: r.1, r.2)
      | none => ([], c :: rest)
    else ([], c :: rest)
termination_by cs.length

@[simp] theorem readName_nil : readName [] = ([], []) := by
  rw [readName]

theorem readName_cons_of_isNameChar {c : Char} (h : isNameChar c = true) (cs : List Char) :
    readName (c :: cs) = (c :: (readName cs).1, (readName cs).2) := by
  rw [readName, if_pos h]

theorem readName_of_readEscape? {cs rest : List Char} {c : Char}
    (h : readEscape? cs = some (c, rest)) :
    readName ('\\' :: cs) = (c :: (readName rest).1, (readName rest).2) := by
  rw [readName, if_neg (by decide), if_pos rfl]
  split
  · rename_i d rest' hd
    rw [h] at hd
    cases hd
    rfl
  · rename_i hnone
    rw [h] at hnone
    cases hnone

/-- A name ends where neither a name character nor a backslash follows. -/
theorem readName_of_stop {c : Char} (hc : isNameChar c = false) (hne : c ≠ '\\') (cs : List Char) :
    readName (c :: cs) = ([], c :: cs) := by
  rw [readName, if_neg (by simp [hc]), if_neg hne]

theorem length_readName_le (cs : List Char) : (readName cs).2.length ≤ cs.length := by
  fun_induction readName cs with
  | case1 => exact Nat.le_refl _
  | case2 c rest _ r ih => exact Nat.le_succ_of_le ih
  | case3 rest d rest' hd _ r _ ih =>
    exact Nat.le_succ_of_le (Nat.le_trans ih (Nat.le_of_lt (length_of_readEscape? hd)))
  | case4 => exact Nat.le_refl _
  | case5 => exact Nat.le_refl _

/-! ## Escapes of single characters -/

theorem codeOf_of_isHexDigit {ds : List Char} (h : ∀ d ∈ ds, isHexDigit d = true) :
    codeOf ds = hexValue ds := by
  rw [codeOf, hexValue]
  generalize 0 = n
  induction ds generalizing n with
  | nil => rfl
  | cons d ds ih =>
    obtain ⟨hd, hds⟩ := List.forall_mem_cons.1 h
    rw [List.foldl_cons, List.foldl_cons, hexOf, if_pos hd, ih hds]

/-- Six digits are enough for the code point of any character. -/
theorem toNat_lt_pow (c : Char) : c.toNat < Nat.pow 16 6 := by
  have hvalid : c.toNat.isValidChar := c.valid
  have hpow : Nat.pow 16 6 = 16777216 := by decide
  unfold Nat.isValidChar at hvalid
  omega

/-- The six digits of a code point read back as the character. -/
theorem charOfCode_codeOf (c : Char) : charOfCode (codeOf (hexDigits 6 c.toNat)) = c := by
  have hvalid : c.toNat.isValidChar := c.valid
  rw [codeOf_of_isHexDigit fun d hd => isHexDigit_of_mem_hexDigits hd,
    hexValue_hexDigits (toNat_lt_pow c), charOfCode, if_pos hvalid, Char.ofNat_toNat]

theorem escapeDigits_hexDigits_append (n : Nat) (rest : List Char) :
    escapeDigits (hexDigits 6 n ++ rest) = hexDigits 6 n := by
  have hdigits : ∀ d ∈ hexDigits 6 n, isHex d = true := by
    intro d hd
    rw [isHex, isHexDigit_of_mem_hexDigits hd, Bool.true_or]
  have htake : (hexDigits 6 n ++ rest).take 6 = hexDigits 6 n := by
    rw [List.take_append_of_le_length (by simp), List.take_of_length_le (by simp)]
  have hall : (hexDigits 6 n ++ []).takeWhile isHex = hexDigits 6 n ++ [].takeWhile isHex :=
    List.takeWhile_append_of_pos hdigits
  rw [List.append_nil, List.takeWhile_nil, List.append_nil] at hall
  rw [escapeDigits, htake, hall]

/-- An escape of six digits takes the white space behind it. -/
theorem readEscape?_hexDigits_append (c : Char) (rest : List Char) :
    readEscape? (hexDigits 6 c.toNat ++ rest) = some (c, dropSpace rest) := by
  have hlength := length_hexDigits 6 c.toNat
  have hdrop : (hexDigits 6 c.toNat ++ rest).drop (hexDigits 6 c.toNat).length = rest :=
    List.drop_left
  have hcode := charOfCode_codeOf c
  unfold readEscape?
  rw [escapeDigits_hexDigits_append]
  cases hds : hexDigits 6 c.toNat with
  | nil =>
    rw [hds] at hlength
    cases hlength
  | cons d ds =>
    rw [hds] at hdrop hcode
    simp only [hdrop, hcode]

/-- What holds of none of some characters does not hold of one of them. -/
theorem eq_false_of_contains {p : Char → Bool} {cs : List Char} (hp : cs.any p = false) {c : Char}
    (hc : cs.contains c = true) : p c = false :=
  Bool.eq_false_iff.2 (List.any_eq_false.1 hp c (List.contains_iff_mem.1 hc))

/-- A character behind a backslash alone stands for itself, and nothing else is taken. -/
theorem readEscape?_simple {c : Char} (h : simpleEscapes.contains c = true) (rest : List Char) :
    readEscape? (c :: rest) = some (c, rest) := by
  have hhex : isHex c = false := eq_false_of_contains (by decide) h
  have hnewline : isNewline c = false := eq_false_of_contains (by decide) h
  have hdigits : escapeDigits (c :: rest) = [] := by
    rw [escapeDigits, List.take_succ_cons, List.takeWhile_cons_of_neg (by simp [hhex])]
  simp [readEscape?, hdigits, hnewline]

/-! ## Identifiers -/

/-- Whether a character behind the start of a name is written by its code point. -/
def isCoded (c : Char) : Bool := !isNameChar c && !simpleEscapes.contains c

/-- What is left of a text behind a name, by whether the name ends in a code point. -/
def behind (coded : Bool) (rest : List Char) : List Char := if coded then dropSpace rest else rest

/-- Whether the last character of a name is written by its code point: one that needs it anywhere,
or a digit that is the whole name. -/
def endsInCode (cs : List Char) : Bool :=
  cs.getLast?.any isCoded || (cs.length == 1 && cs.all isDigit)

theorem readName_escapeChar_append (c : Char) (rest : List Char) :
    let left := behind (!simpleEscapes.contains c) rest
    readName (escapeChar c ++ rest) = (c :: (readName left).1, (readName left).2) := by
  intro left
  rw [escapeChar]
  split
  case isTrue h =>
    have hleft : left = rest := by simp only [left, h, behind, Bool.not_true]; rfl
    rw [hleft]
    exact readName_of_readEscape? (readEscape?_simple h rest)
  case isFalse h =>
    have hleft : left = dropSpace rest := by simp only [left, h, behind, Bool.not_false]; rfl
    rw [hleft]
    exact readName_of_readEscape? (readEscape?_hexDigits_append c rest)

theorem readName_encodeChar_append (c : Char) (rest : List Char) :
    let left := behind (isCoded c) rest
    readName (encodeChar c ++ rest) = (c :: (readName left).1, (readName left).2) := by
  rw [encodeChar, isCoded]
  split
  case isTrue h =>
    rw [h]
    exact readName_cons_of_isNameChar h rest
  case isFalse h =>
    rw [Bool.eq_false_iff.2 h]
    exact readName_escapeChar_append c rest

theorem dropSpace_cons {c : Char} (h : isSpace c = false) (cs : List Char) :
    dropSpace (c :: cs) = c :: cs := by
  rw [dropSpace, if_neg (by simp [h])]

theorem isSpace_eq_false_of_isNameChar {c : Char} (h : isNameChar c = true) :
    isSpace c = false := by
  cases hc : isSpace c with
  | false => rfl
  | true =>
    have hspace : [' ', '\t', '\n', '\r', '\x0c'].contains c = true := by
      simpa [isSpace, isNewline, or_assoc] using hc
    have hname : isNameChar c = false := eq_false_of_contains (by decide) hspace
    rw [h] at hname
    cases hname

/-- What is written for a character does not start with white space. -/
theorem dropSpace_encodeChar_append (c : Char) (rest : List Char) :
    dropSpace (encodeChar c ++ rest) = encodeChar c ++ rest := by
  rw [encodeChar, escapeChar]
  split
  case isTrue h => exact dropSpace_cons (isSpace_eq_false_of_isNameChar h) rest
  case isFalse => split <;> exact dropSpace_cons (by decide) _

/-- Nothing is lost between the characters of a name, since none of them starts with white space. -/
theorem behind_flatMap_append (coded : Bool) (c : Char) (cs rest : List Char) :
    behind coded ((c :: cs).flatMap encodeChar ++ rest) =
      (c :: cs).flatMap encodeChar ++ rest := by
  rw [behind, List.flatMap_cons, List.append_assoc, dropSpace_encodeChar_append, ite_self]

/-- Characters behind the start of a name are read one by one. -/
theorem readName_flatMap_append (cs rest : List Char) :
    let left := behind (cs.getLast?.any isCoded) rest
    readName (cs.flatMap encodeChar ++ rest) = (cs ++ (readName left).1, (readName left).2) := by
  induction cs with
  | nil => rfl
  | cons c cs ih =>
    rw [List.flatMap_cons, List.append_assoc, readName_encodeChar_append]
    cases cs with
    | nil => rfl
    | cons d ds =>
      rw [behind_flatMap_append, ih, List.getLast?_cons_cons]
      rfl

theorem simpleEscapes_contains_of_isDigit {c : Char} (h : isDigit c = true) :
    simpleEscapes.contains c = false := by
  rw [Bool.eq_false_iff]
  intro hc
  have hdigit : isDigit c = false := eq_false_of_contains (by decide) hc
  rw [h] at hdigit
  cases hdigit

/-- The start of a name is read as the character that it stands for, however it is escaped. -/
theorem readName_start_append (c : Char) (cs rest : List Char) :
    ∃ coded, (cs = [] → coded = endsInCode [c]) ∧
      readName ((if isBadStart c cs then escapeChar c else encodeChar c) ++ rest) =
        (c :: (readName (behind coded rest)).1, (readName (behind coded rest)).2) := by
  split
  case isTrue h =>
    refine ⟨!simpleEscapes.contains c, ?_, readName_escapeChar_append c rest⟩
    rintro rfl
    have hdigit : isDigit c = true := by simpa [isBadStart] using h
    rw [simpleEscapes_contains_of_isDigit hdigit]
    simp [endsInCode, hdigit]
  case isFalse h =>
    refine ⟨isCoded c, ?_, readName_encodeChar_append c rest⟩
    rintro rfl
    have hdigit : isDigit c = false := by simpa [isBadStart] using h
    simp [endsInCode, hdigit]

/-- The identifier for a name is read as the name, and what follows is read on; but white space
behind a code point is lost. -/
theorem readName_encode_append (cs rest : List Char) :
    let left := behind (endsInCode cs) rest
    readName (encode cs ++ rest) = (cs ++ (readName left).1, (readName left).2) := by
  cases cs with
  | nil => rfl
  | cons c cs =>
    rw [encode, List.append_assoc]
    obtain ⟨coded, hcoded, hstart⟩ := readName_start_append c cs (cs.flatMap encodeChar ++ rest)
    rw [hstart]
    cases cs with
    | nil => rw [hcoded rfl]; rfl
    | cons d ds =>
      have hends : endsInCode (c :: d :: ds) = (d :: ds).getLast?.any isCoded := by
        simp [endsInCode]
      rw [behind_flatMap_append, readName_flatMap_append, hends]
      rfl

/-! ## How identifiers start -/

/-- Whether a character can start an identifier in a printed text. -/
def isNameStart (c : Char) : Bool := isNameChar c || c == '\\'

theorem exists_encodeChar_append (c : Char) (rest : List Char) :
    ∃ d ds, encodeChar c ++ rest = d :: ds ∧ isNameStart d = true := by
  rw [encodeChar, escapeChar]
  split
  case isTrue h => exact ⟨c, rest, rfl, by rw [isNameStart, h, Bool.true_or]⟩
  case isFalse => split <;> exact ⟨'\\', _, rfl, by decide⟩

/-- An identifier starts with a name character or with an escape. -/
theorem exists_encode_append {cs : List Char} (h : cs ≠ []) (rest : List Char) :
    ∃ d ds, encode cs ++ rest = d :: ds ∧ isNameStart d = true := by
  cases cs with
  | nil => exact absurd rfl h
  | cons c cs =>
    rw [encode, List.append_assoc]
    split
    case isFalse => exact exists_encodeChar_append c _
    case isTrue =>
      rw [escapeChar]
      split <;> exact ⟨'\\', _, rfl, by decide⟩

end Stylesheet.Token
