import Stylesheet.Escape.Quoted
import Stylesheet.Proofs.Decoding

/-!
# Reading strings back

A reader of stylesheets takes a double-quoted string for everything up to the next double quote that
no backslash hides (`readString`). A backslash hides the end of a line, and then stands for nothing:
the string goes on in the next line. Otherwise it starts an escape, which is read as in a name but
ends with a carriage return and a line feed as it does with a single white-space character. The end
of a line that is not hidden ends the reading without a string.

A quoted text is one such string, whatever follows it (`quoted_reads_back_iff`). Its value is the
text without its carriage returns and form feeds (`unbroken`): these are written behind a backslash,
which makes them the ends of hidden lines, while a line feed is written by its code point and comes
back. Still no two texts are written alike, for the written characters can be told apart
(`Escape.Quoted.tells_encode`).
-/

namespace Stylesheet

namespace Token

/-! ## Reading -/

/-- A text without the white space at its start that ends an escape; a carriage return and a line
feed go together. -/
def dropEnd : List Char → List Char
  | '\r' :: '\n' :: cs => cs
  | cs => dropSpace cs

theorem length_dropEnd_le (cs : List Char) : (dropEnd cs).length ≤ cs.length := by
  fun_cases dropEnd cs with
  | case1 cs => exact Nat.le_add_right _ 2
  | case2 => exact length_dropSpace_le _

/-- The character that an escape stands for, where `c` is behind its backslash and does not end a
line, and what is left of the text. -/
def readCode (c : Char) (cs : List Char) : Char × List Char :=
  match escapeDigits (c :: cs) with
  | [] => (c, cs)
  | d :: ds => (charOfCode (codeOf (d :: ds)), dropEnd (cs.drop ds.length))

theorem length_readCode_le (c : Char) (cs : List Char) : (readCode c cs).2.length ≤ cs.length := by
  fun_cases readCode c cs with
  | case1 => exact Nat.le_refl _
  | case2 d ds =>
    refine Nat.le_trans (length_dropEnd_le _) ?_
    rw [List.length_drop]
    exact Nat.sub_le _ _

/-- What a backslash inside a string stands for, from what is behind it, and what is left of the
text: nothing if a line ends there, and otherwise one character. -/
def readHidden? : List Char → Option (List Char × List Char)
  | [] => none
  | '\r' :: '\n' :: cs => some ([], cs)
  | c :: cs =>
    if isNewline c then some ([], cs) else some ([(readCode c cs).1], (readCode c cs).2)

/-- A carriage return takes the line feed behind it along, and no other character does. -/
theorem readHidden?_cons {c : Char} {cs : List Char} (h : c = '\r' → cs.head? ≠ some '\n') :
    readHidden? (c :: cs) =
      if isNewline c then some ([], cs) else some ([(readCode c cs).1], (readCode c cs).2) := by
  unfold readHidden?
  split
  · rename_i heq
    cases heq
  · rename_i heq
    cases heq
    exact absurd rfl (h rfl)
  · rename_i heq
    cases heq
    rfl

theorem length_of_readHidden? {cs rest ds : List Char} (h : readHidden? cs = some (ds, rest)) :
    rest.length < cs.length := by
  unfold readHidden? at h
  split at h
  · cases h
  · cases h
    simp only [List.length_cons]
    omega
  · split at h <;> cases h
    · exact Nat.lt_succ_self _
    · exact Nat.lt_succ_of_le (length_readCode_le _ _)

/-- Why no string stands at the start of a text. -/
inductive StringFault where
  /-- It does not start with a quote. -/
  | unquoted
  /-- A line ends before the string does, and nothing hides its end. -/
  | broken
  /-- The text ends before the string does. -/
  | unclosed
deriving DecidableEq

/-- The value of a string and what is left behind it, from what is behind its opening quote. -/
def readBody (cs : List Char) : Except StringFault (List Char × List Char) :=
  match cs with
  | [] => .error .unclosed
  | c :: rest =>
    if c = '"' then .ok ([], rest)
    else if c = '\\' then
      match h : readHidden? rest with
      | some (ds, rest') =>
        have : rest'.length < rest.length + 1 := Nat.lt_succ_of_lt (length_of_readHidden? h)
        (readBody rest').map fun r => (ds ++ r.1, r.2)
      | none => .error .unclosed
    else if isNewline c then .error .broken
    else (readBody rest).map fun r => (c :: r.1, r.2)
termination_by cs.length

/-- The value of the string at the start of a text, and what is left behind it. -/
def readString : List Char → Except StringFault (List Char × List Char)
  | '"' :: cs => readBody cs
  | _ => .error .unquoted

theorem readBody_quote (cs : List Char) : readBody ('"' :: cs) = .ok ([], cs) := by
  rw [readBody, if_pos rfl]

theorem readBody_of_readHidden? {cs rest ds : List Char} (h : readHidden? cs = some (ds, rest)) :
    readBody ('\\' :: cs) = (readBody rest).map fun r => (ds ++ r.1, r.2) := by
  rw [readBody, if_neg (by decide), if_pos rfl]
  split
  · rename_i hds
    rw [h] at hds
    cases hds
    rfl
  · rename_i hnone
    rw [h] at hnone
    cases hnone

theorem readBody_plain {c : Char} (hquote : c ≠ '"') (hbackslash : c ≠ '\\')
    (hnewline : isNewline c = false) (cs : List Char) :
    readBody (c :: cs) = (readBody cs).map fun r => ([c] ++ r.1, r.2) := by
  rw [readBody, if_neg hquote, if_neg hbackslash, hnewline, if_neg Bool.false_ne_true]
  rfl

/-! ## Hidden characters -/

theorem readHidden?_of_isNewline {c : Char} (hc : isNewline c = true) {cs : List Char}
    (h : cs.head? ≠ some '\n') : readHidden? (c :: cs) = some ([], cs) := by
  rw [readHidden?_cons fun _ => h, if_pos hc]

theorem readHidden?_self {c : Char} (hc : isNewline c = false) (hhex : isHex c = false)
    (cs : List Char) : readHidden? (c :: cs) = some ([c], cs) := by
  have hreturn : c ≠ '\r' := by
    rintro rfl
    exact absurd hc (by decide)
  have hdigits : escapeDigits (c :: cs) = [] := by
    rw [escapeDigits, List.take_succ_cons, List.takeWhile_cons_of_neg (by simp [hhex])]
  rw [readHidden?_cons fun h => absurd h hreturn, hc, if_neg Bool.false_ne_true, readCode, hdigits]

/-- The code point of a line feed ends with its blank, be there digits behind it or not. -/
theorem readHidden?_lineFeed (cs : List Char) :
    readHidden? ('a' :: ' ' :: cs) = some (['\n'], cs) := by
  have hdigits : escapeDigits ('a' :: ' ' :: cs) = ['a'] := by
    rw [escapeDigits, List.take_succ_cons, List.take_succ_cons]
    rfl
  have hcode : charOfCode (codeOf ['a']) = '\n' := by decide
  rw [readHidden?_cons fun h => absurd h (by decide), if_neg (by decide), readCode, hdigits]
  simp only [hcode]
  rfl

/-! ## Quoted texts -/

/-- A text without the characters that stand for nothing behind a backslash. -/
def unbroken (cs : List Char) : List Char := cs.filter fun c => c != '\r' && c != '\x0c'

theorem unbroken_cons (c : Char) (cs : List Char) :
    unbroken (c :: cs) = unbroken [c] ++ unbroken cs := List.filter_append [c] cs

theorem unbroken_eq_self_iff (cs : List Char) :
    unbroken cs = cs ↔ '\r' ∉ cs ∧ '\x0c' ∉ cs := by
  simp only [unbroken, List.filter_eq_self, Bool.and_eq_true, bne_iff_ne, ne_eq]
  constructor
  · exact fun h => ⟨fun hc => (h _ hc).1 rfl, fun hc => (h _ hc).2 rfl⟩
  · rintro ⟨hreturn, hfeed⟩ c hc
    exact ⟨fun h => hreturn (h ▸ hc), fun h => hfeed (h ▸ hc)⟩

open Escape.Quoted

/-- What is written for a character ends neither a string nor a line. -/
theorem exists_encodeChar_eq_cons (c : Char) :
    ∃ d ds, encodeChar c = d :: ds ∧ d ≠ '"' ∧ d ≠ '\n' := by
  rcases encodeChar_cases c with ⟨e, he, heq⟩ | ⟨hne, heq⟩
  · have hstart : ∀ e ∈ escapes, e.2.toList.head? = some '\\' := by decide
    obtain ⟨ds, hds⟩ := List.head?_eq_some_iff.1 (hstart _ he)
    exact ⟨'\\', ds, heq.trans hds, by decide, by decide⟩
  · exact ⟨c, [], heq, hne ('"', "\\\"") (by decide), hne ('\n', "\\a ") (by decide)⟩

/-- A written character is read as the character, or as nothing if it breaks the line. -/
theorem readBody_encodeChar_append (c : Char) {cs : List Char} (hcs : cs.head? ≠ some '\n') :
    readBody (encodeChar c ++ cs) = (readBody cs).map fun r => (unbroken [c] ++ r.1, r.2) := by
  rcases encodeChar_cases c with ⟨e, he, heq⟩ | ⟨hne, heq⟩
  · rw [heq]
    simp only [escapes, List.mem_cons, Prod.mk.injEq, List.not_mem_nil, or_false] at he
    rcases he with ⟨rfl, rfl⟩ | ⟨rfl, rfl⟩ | ⟨rfl, rfl⟩ | ⟨rfl, rfl⟩ | ⟨rfl, rfl⟩
    · exact readBody_of_readHidden? (readHidden?_self (by decide) (by decide) cs)
    · exact readBody_of_readHidden? (readHidden?_self (by decide) (by decide) cs)
    · exact readBody_of_readHidden? (readHidden?_lineFeed cs)
    · exact readBody_of_readHidden? (readHidden?_of_isNewline (by decide) hcs)
    · exact readBody_of_readHidden? (readHidden?_of_isNewline (by decide) hcs)
  · have hquote : c ≠ '"' := hne ('"', "\\\"") (by decide)
    have hbackslash : c ≠ '\\' := hne ('\\', "\\\\") (by decide)
    have hlineFeed : c ≠ '\n' := hne ('\n', "\\a ") (by decide)
    have hreturn : c ≠ '\r' := hne ('\r', "\\\r") (by decide)
    have hfeed : c ≠ '\x0c' := hne ('\x0c', "\\\x0c") (by decide)
    have hnewline : isNewline c = false := by simp [isNewline, hlineFeed, hreturn, hfeed]
    have hkept : unbroken [c] = [c] := by simp [unbroken, hreturn, hfeed]
    rw [heq, hkept]
    exact readBody_plain hquote hbackslash hnewline cs

/-- No line feed stands where the next written character or the closing quote does. -/
theorem head?_encode_append_quote (cs rest : List Char) :
    (encode cs ++ '"' :: rest).head? ≠ some '\n' := by
  cases cs with
  | nil => simp
  | cons c cs =>
    obtain ⟨d, ds, hd, -, hne⟩ := exists_encodeChar_eq_cons c
    simpa [hd] using hne

theorem readBody_encode_append_quote (cs rest : List Char) :
    readBody (encode cs ++ '"' :: rest) = .ok (unbroken cs, rest) := by
  induction cs with
  | nil => exact readBody_quote rest
  | cons c cs ih =>
    rw [encode_cons, List.append_assoc,
      readBody_encodeChar_append c (head?_encode_append_quote cs rest), ih]
    show Except.ok (unbroken [c] ++ unbroken cs, rest) = _
    rw [← unbroken_cons]

end Token

/-! ## Where strings end -/

namespace Escape.Quoted

/-- The character at the start of a written text, and what is left of the text. -/
def decodeChar? : List Char → Option (Char × List Char)
  | [] => none
  | '\\' :: 'a' :: ' ' :: cs => some ('\n', cs)
  | '\\' :: c :: cs => some (c, cs)
  | c :: cs => some (c, cs)

theorem decodeChar?_encodeChar_append (c : Char) (cs : List Char) :
    decodeChar? (encodeChar c ++ cs) = some (c, cs) := by
  rcases encodeChar_cases c with ⟨e, he, heq⟩ | ⟨hne, heq⟩
  · rw [heq]
    simp only [escapes, List.mem_cons, Prod.mk.injEq, List.not_mem_nil, or_false] at he
    rcases he with ⟨rfl, rfl⟩ | ⟨rfl, rfl⟩ | ⟨rfl, rfl⟩ | ⟨rfl, rfl⟩ | ⟨rfl, rfl⟩ <;> rfl
  · have hbackslash : c ≠ '\\' := hne ('\\', "\\\\") (by decide)
    rw [heq]
    simp [decodeChar?, hbackslash]

theorem tells_encodeChar : Tells encodeChar id fun _ => True :=
  .of_decode decodeChar?_encodeChar_append

/-- A written text tells the text and its own end, if a quote or nothing follows. -/
theorem tells_encode : Tells encode id fun cs => ∀ c ∈ cs.head?, c = '"' := by
  have h : Tells (List.flatMap encodeChar) (List.map id) fun cs => ∀ c ∈ cs.head?, c = '"' := by
    refine tells_encodeChar.flatMap (fun _ _ => trivial) (fun _ _ => trivial) ?_
    rintro c r s hs rfl
    obtain ⟨d, ds, hd, hne, -⟩ := Token.exists_encodeChar_eq_cons c
    exact hne (hs d (by simp [hd]))
  rw [List.map_id_fun] at h
  exact h

end Escape.Quoted

/-- A text between quotes is a string by itself, whatever follows it. The value of the string is the
text without its carriage returns and form feeds, and so it is the text if there are none. No two
texts are written alike. -/
theorem quoted_reads_back_iff :
    (∀ s rest : String,
      Token.readString ("\"" ++ Escape.Quoted.escape s ++ "\"" ++ rest).toList =
        .ok (Token.unbroken s.toList, rest.toList) ∧
      (Token.unbroken s.toList = s.toList ↔ '\r' ∉ s.toList ∧ '\x0c' ∉ s.toList)) ∧
    Function.Injective Escape.Quoted.escape := by
  refine ⟨fun s rest => ⟨?_, Token.unbroken_eq_self_iff s.toList⟩, fun s t hst => ?_⟩
  · simpa [Token.readString] using Token.readBody_encode_append_quote s.toList rest.toList
  · have hchars : Escape.Quoted.encode s.toList ++ [] = Escape.Quoted.encode t.toList ++ [] := by
      rw [← Escape.Quoted.toList_escape, ← Escape.Quoted.toList_escape, hst]
    have hnil : ∀ c ∈ ([] : List Char).head?, c = '"' := by simp
    exact String.toList_injective (Escape.Quoted.tells_encode hnil hnil hchars).1

end Stylesheet
