import Stylesheet.Proofs.Tokens

/-!
# Decoding identifiers

Escaping has an inverse. `decode?` reads a text from left to right and copies every character but
the backslash. Behind a backslash it takes six hexadecimal digits for a code point, and where there
are no six such digits it takes the next character for itself. Between the two it never has to
guess: none of the characters that a backslash alone escapes is a digit, and a code point always has
six digits. So every escaped character is decoded whatever follows it (`decodeChar?_encode_append`),
and every name is found again in its identifier (`escape_lossless`).

For texts that are put together from several names the question is also where a name ends. `Tells f
g stop` says that the text that `f` writes for something tells `g` of it and its own end, if only
texts that satisfy `stop` follow. What is known of the parts in this way carries over to sequences
of them (`Tells.flatMap`). An identifier tells its name if what follows cannot be a part of it
(`tells_encode`).
-/

namespace Stylesheet

/-- Whether the text that `f` writes for something tells `g` of it and where the text ends, if only
what satisfies `stop` follows. -/
def Tells {α β : Type} (f : α → List Char) (g : α → β) (stop : List Char → Prop) : Prop :=
  ∀ ⦃a b : α⦄ ⦃r s : List Char⦄, stop r → stop s → f a ++ r = f b ++ s → g a = g b ∧ r = s

/-- Texts that can be decoded in front of anything tell all there is to know. -/
theorem Tells.of_decode {α : Type} {f : α → List Char} {decode : List Char → Option (α × List Char)}
    (h : ∀ a r, decode (f a ++ r) = some (a, r)) : Tells f id fun _ => True := by
  intro a b r s _ _ heq
  have hr := h a r
  rw [heq, h b s] at hr
  cases hr
  exact ⟨rfl, rfl⟩

/-- If the texts of items tell the items apart, then so do sequences of such texts, where each may
be followed by another one and none can start behind the last. -/
theorem Tells.flatMap {α β : Type} {f : α → List Char} {g : α → β} {stop stop' : List Char → Prop}
    (h : Tells f g stop) (next : ∀ a r, stop (f a ++ r)) (last : ∀ r, stop' r → stop r)
    (ends : ∀ a r s, stop' s → f a ++ r ≠ s) : Tells (List.flatMap f) (List.map g) stop' := by
  have hstop : ∀ (as : List α) (r : List Char), stop' r → stop (as.flatMap f ++ r) := by
    intro as r hr
    cases as with
    | nil => exact last r hr
    | cons a as =>
      rw [List.flatMap_cons, List.append_assoc]
      exact next a _
  intro as
  induction as with
  | nil =>
    intro bs r s hr hs heq
    cases bs with
    | nil => exact ⟨rfl, heq⟩
    | cons b bs =>
      rw [List.flatMap_cons, List.append_assoc] at heq
      exact absurd heq.symm (ends b _ _ hr)
  | cons a as ih =>
    intro bs r s hr hs heq
    rw [List.flatMap_cons, List.append_assoc] at heq
    cases bs with
    | nil => exact absurd heq (ends a _ _ hs)
    | cons b bs =>
      rw [List.flatMap_cons, List.append_assoc] at heq
      obtain ⟨hg, hrest⟩ := h (hstop as r hr) (hstop bs s hs) heq
      obtain ⟨hgs, hrs⟩ := ih hr hs hrest
      exact ⟨by rw [List.map_cons, List.map_cons, hg, hgs], hrs⟩

namespace Escape.Identifier

open Stylesheet.Text Stylesheet.Token

/-! ## The decoder -/

/-- The character that an escape stands for, from what is behind its backslash, and what is left of
the text: the character whose code point the next six characters are, if these are hexadecimal
digits, and otherwise the next character. -/
def decodeEscape? (cs : List Char) : Option (Char × List Char) :=
  if (cs.take 6).length = 6 ∧ (cs.take 6).all isHexDigit = true then
    if (hexValue (cs.take 6)).isValidChar then
      some (Char.ofNat (hexValue (cs.take 6)), cs.drop 6)
    else none
  else
    match cs with
    | [] => none
    | d :: rest => some (d, rest)

/-- The character at the start of an escaped text, and what is left of the text. -/
def decodeChar? : List Char → Option (Char × List Char)
  | [] => none
  | c :: cs => if c = '\\' then decodeEscape? cs else some (c, cs)

theorem decodeChar?_backslash (cs : List Char) : decodeChar? ('\\' :: cs) = decodeEscape? cs := by
  rw [decodeChar?, if_pos rfl]

theorem decodeChar?_of_ne {c : Char} (h : c ≠ '\\') (cs : List Char) :
    decodeChar? (c :: cs) = some (c, cs) := by
  rw [decodeChar?, if_neg h]

theorem length_of_decodeEscape? {cs rest : List Char} {c : Char}
    (h : decodeEscape? cs = some (c, rest)) : rest.length ≤ cs.length := by
  unfold decodeEscape? at h
  split at h
  · split at h <;> cases h
    rw [List.length_drop]
    exact Nat.sub_le _ _
  · split at h <;> cases h
    exact Nat.le_succ _

theorem length_of_decodeChar? {cs rest : List Char} {c : Char}
    (h : decodeChar? cs = some (c, rest)) : rest.length < cs.length := by
  cases cs with
  | nil => cases h
  | cons d ds =>
    rw [decodeChar?] at h
    split at h
    · exact Nat.lt_succ_of_le (length_of_decodeEscape? h)
    · cases h
      exact Nat.lt_succ_self _

/-- The text that an escaped text stands for. -/
def decode? (cs : List Char) : Option (List Char) :=
  match cs with
  | [] => some []
  | c :: cs =>
    match h : decodeChar? (c :: cs) with
    | some (d, rest) =>
      have : rest.length < cs.length + 1 := length_of_decodeChar? h
      (decode? rest).map (d :: ·)
    | none => none
termination_by cs.length

@[simp] theorem decode?_nil : decode? [] = some [] := by
  rw [decode?]

theorem decode?_of_decodeChar? {cs rest : List Char} {c : Char}
    (h : decodeChar? cs = some (c, rest)) : decode? cs = (decode? rest).map (c :: ·) := by
  cases cs with
  | nil => cases h
  | cons d ds =>
    rw [decode?]
    split
    · rename_i e rest' he
      rw [h] at he
      cases he
      rfl
    · rename_i hnone
      rw [h] at hnone
      cases hnone

/-! ## Escaped characters -/

theorem decodeEscape?_hexDigits_append (c : Char) (rest : List Char) :
    decodeEscape? (hexDigits 6 c.toNat ++ rest) = some (c, rest) := by
  have hvalid : c.toNat.isValidChar := c.valid
  have hlength := length_hexDigits 6 c.toNat
  have hdigits : (hexDigits 6 c.toNat).all isHexDigit = true :=
    List.all_eq_true.2 fun d hd => isHexDigit_of_mem_hexDigits hd
  unfold decodeEscape?
  rw [List.take_left' hlength, List.drop_left' hlength, if_pos ⟨hlength, hdigits⟩,
    hexValue_hexDigits (toNat_lt_pow c), if_pos hvalid, Char.ofNat_toNat]

theorem decodeEscape?_simple {c : Char} (h : simpleEscapes.contains c = true) (rest : List Char) :
    decodeEscape? (c :: rest) = some (c, rest) := by
  have hhex : isHexDigit c = false := eq_false_of_contains (by decide) h
  have hdigits : ¬((c :: rest).take 6).all isHexDigit = true := by simp [hhex]
  unfold decodeEscape?
  rw [if_neg fun h => hdigits h.2]

theorem decodeChar?_escapeChar_append (c : Char) (rest : List Char) :
    decodeChar? (escapeChar c ++ rest) = some (c, rest) := by
  rw [escapeChar]
  split
  case isTrue h =>
    rw [List.cons_append, decodeChar?_backslash]
    exact decodeEscape?_simple h rest
  case isFalse =>
    rw [List.cons_append, decodeChar?_backslash]
    exact decodeEscape?_hexDigits_append c rest

theorem decodeChar?_encodeChar_append (c : Char) (rest : List Char) :
    decodeChar? (encodeChar c ++ rest) = some (c, rest) := by
  rw [encodeChar]
  split
  case isTrue h =>
    have hne : c ≠ '\\' := by
      rintro rfl
      revert h
      decide
    exact decodeChar?_of_ne hne rest
  case isFalse => exact decodeChar?_escapeChar_append c rest

/-- The first character of a name is found at the start of its identifier, whatever follows. -/
theorem decodeChar?_encode_append (c : Char) (cs rest : List Char) :
    decodeChar? (encode (c :: cs) ++ rest) = some (c, cs.flatMap encodeChar ++ rest) := by
  rw [encode, List.append_assoc]
  split
  · exact decodeChar?_escapeChar_append c _
  · exact decodeChar?_encodeChar_append c _

theorem decode?_flatMap_append (cs rest : List Char) :
    decode? (cs.flatMap encodeChar ++ rest) = (decode? rest).map (cs ++ ·) := by
  induction cs with
  | nil => simp
  | cons c cs ih =>
    rw [List.flatMap_cons, List.append_assoc,
      decode?_of_decodeChar? (decodeChar?_encodeChar_append c _), ih, Option.map_map]
    rfl

/-- What follows an identifier is decoded as if it stood alone. -/
theorem decode?_encode_append (cs rest : List Char) :
    decode? (encode cs ++ rest) = (decode? rest).map (cs ++ ·) := by
  cases cs with
  | nil => simp
  | cons c cs =>
    rw [decode?_of_decodeChar? (decodeChar?_encode_append c cs rest), decode?_flatMap_append,
      Option.map_map]
    rfl

/-! ## The characters of an identifier -/

/-- Whether a character occurs in identifiers. -/
def IsIdentifierChar (c : Char) : Prop := isNameChar c = true ∨ c ∈ simpleEscapes

theorem isNameChar_of_isHexDigit {c : Char} (h : isHexDigit c = true) : isNameChar c = true := by
  simp only [isHexDigit, Bool.or_eq_true, Bool.and_eq_true, decide_eq_true_eq] at h
  simp only [isNameChar, isLetter, isDigit, Bool.or_eq_true, Bool.and_eq_true, decide_eq_true_eq]
  omega

theorem isIdentifierChar_of_mem_escapeChar {c d : Char} (h : d ∈ escapeChar c) :
    IsIdentifierChar d := by
  have hbackslash : IsIdentifierChar '\\' := .inr (by decide)
  rw [escapeChar] at h
  split at h
  case isTrue hc =>
    rcases List.mem_cons.1 h with rfl | h
    · exact hbackslash
    · rw [List.mem_singleton.1 h]
      exact .inr (List.contains_iff_mem.1 hc)
  case isFalse =>
    rcases List.mem_cons.1 h with rfl | h
    · exact hbackslash
    · exact .inl (isNameChar_of_isHexDigit (isHexDigit_of_mem_hexDigits h))

theorem isIdentifierChar_of_mem_encodeChar {c d : Char} (h : d ∈ encodeChar c) :
    IsIdentifierChar d := by
  rw [encodeChar] at h
  split at h
  case isTrue hc =>
    rw [List.mem_singleton.1 h]
    exact .inl hc
  case isFalse => exact isIdentifierChar_of_mem_escapeChar h

theorem isIdentifierChar_of_mem_encode {cs : List Char} {d : Char} (h : d ∈ encode cs) :
    IsIdentifierChar d := by
  cases cs with
  | nil => cases h
  | cons c cs =>
    rw [encode, List.mem_append, List.mem_flatMap] at h
    rcases h with h | ⟨e, -, h⟩
    · split at h
      · exact isIdentifierChar_of_mem_escapeChar h
      · exact isIdentifierChar_of_mem_encodeChar h
    · exact isIdentifierChar_of_mem_encodeChar h

/-- Identifiers consist of name characters and of those that a backslash alone escapes, and every
name is decoded from its identifier. So different names have different identifiers. -/
theorem escape_lossless :
    (∀ s : String, (∀ c ∈ (escape s).toList, IsIdentifierChar c) ∧
      decode? (escape s).toList = some s.toList) ∧ Function.Injective escape := by
  have hdecode : ∀ s : String, decode? (escape s).toList = some s.toList := by
    intro s
    simpa using decode?_encode_append s.toList []
  refine ⟨fun s => ⟨fun c hc => ?_, hdecode s⟩, fun s t hst => ?_⟩
  · rw [toList_escape] at hc
    exact isIdentifierChar_of_mem_encode hc
  · have hchars : some s.toList = some t.toList := by rw [← hdecode s, ← hdecode t, hst]
    exact String.toList_injective (Option.some.inj hchars)

/-! ## Where identifiers end -/

theorem tells_encodeChar : Tells encodeChar id fun _ => True :=
  .of_decode decodeChar?_encodeChar_append

/-- Whether an identifier can start at the start of a text. -/
def StartsName (cs : List Char) : Prop := ∃ c ds, cs = c :: ds ∧ isNameStart c = true

/-- Whether no part of an identifier stands at the start of a text. -/
def EndsName (cs : List Char) : Prop := ∀ c ∈ cs.head?, isNameStart c = false

theorem StartsName.ne {cs ds : List Char} (h : StartsName cs) (hends : EndsName ds) : cs ≠ ds := by
  rintro rfl
  obtain ⟨c, ds, rfl, hc⟩ := h
  rw [hends c rfl] at hc
  cases hc

/-- An identifier tells the name that it stands for, and its own end. -/
theorem tells_encode : Tells encode id EndsName := by
  have htail : Tells (List.flatMap encodeChar) (List.map id) EndsName := by
    refine tells_encodeChar.flatMap (fun _ _ => trivial) (fun _ _ => trivial) fun c r s hs => ?_
    exact StartsName.ne (exists_encodeChar_append c r) hs
  have hstarts (c : Char) (cs r : List Char) : StartsName (encode (c :: cs) ++ r) :=
    exists_encode_append (List.cons_ne_nil c cs) r
  intro cs ds r s hr hs heq
  cases cs with
  | nil =>
    cases ds with
    | nil => exact ⟨rfl, heq⟩
    | cons d ds => exact absurd heq.symm ((hstarts d ds s).ne hr)
  | cons c cs =>
    cases ds with
    | nil => exact absurd heq ((hstarts c cs r).ne hs)
    | cons d ds =>
      have hc := decodeChar?_encode_append c cs r
      rw [heq, decodeChar?_encode_append] at hc
      obtain ⟨rfl, hrest⟩ := Prod.mk.inj (Option.some.inj hc)
      obtain ⟨hcs, hrs⟩ := htail hs hr hrest
      rw [List.map_id, List.map_id] at hcs
      exact ⟨by rw [id, id, hcs], hrs.symm⟩

end Escape.Identifier

end Stylesheet
