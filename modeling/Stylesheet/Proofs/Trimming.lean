import Stylesheet.Proofs.Blanks
import Stylesheet.Proofs.Bodies
import Stylesheet.Proofs.Brackets
import Stylesheet.Proofs.Tokens
import Stylesheet.Proofs.Typing

/-!
# What trimming takes from a value

The value of a declaration is trimmed as a whole, after its terms have been printed. This is meant
for the blank in front of the first term, and takes nothing else from almost all values: the text of
a term starts and ends with a character that is not blank, whatever blanks it contains
(`Node.exists_text`). The exception is a name that ends in a blank. Its identifier ends in the
escape of that blank, and trimming takes the blank and leaves the backslash.

`declaration_value_iff` says so for all declarations with well-typed terms.
-/

namespace Stylesheet

namespace Text

/-- No blank is among the visible characters of ASCII. -/
theorem isBlank_of_visible {c : Char} (hl : 32 < c.toNat) (hr : c.toNat < 127) :
    isBlank c = false := by
  simp only [isBlank, Bool.or_eq_false_iff, Bool.and_eq_false_iff, decide_eq_false_iff_not,
    beq_eq_false_iff_ne]
  omega

/-- A text without blanks. -/
def IsSolid (s : String) : Prop := ∀ c ∈ s.toList, isBlank c = false

instance (s : String) : Decidable (IsSolid s) := List.decidableBAll (isBlank · = false) s.toList

/-- A text that starts with a character that is not blank. -/
def StartsSolid (s : String) : Prop := ∃ c cs, s.toList = c :: cs ∧ isBlank c = false

/-- A text that ends with a character that is not blank and `tail` behind it. -/
def EndsSolid (tail s : String) : Prop :=
  ∃ cs c, s.toList = cs ++ c :: tail.toList ∧ isBlank c = false

/-- A text without the blanks at its start. -/
def trimLeft (s : String) : String := String.ofList (s.toList.dropWhile isBlank)

variable {s t tail : String}

theorem IsSolid.append (hs : IsSolid s) (ht : IsSolid t) : IsSolid (s ++ t) := by
  intro c hc
  rw [String.toList_append, List.mem_append] at hc
  exact hc.elim (hs c) (ht c)

theorem IsSolid.startsSolid (h : IsSolid s) (hne : s ≠ "") : StartsSolid s := by
  cases hs : s.toList with
  | nil => exact absurd (String.toList_eq_nil_iff.1 hs) hne
  | cons c cs => exact ⟨c, cs, hs, h c (by simp [hs])⟩

theorem IsSolid.endsSolid (h : IsSolid s) (hne : s ≠ "") : EndsSolid "" s := by
  have hcs : s.toList ≠ [] := fun hs => hne (String.toList_eq_nil_iff.1 hs)
  refine ⟨s.toList.dropLast, s.toList.getLast hcs, ?_, h _ (List.getLast_mem hcs)⟩
  exact (List.dropLast_append_getLast hcs).symm

theorem StartsSolid.append (h : StartsSolid s) (t : String) : StartsSolid (s ++ t) := by
  obtain ⟨c, cs, hs, hc⟩ := h
  exact ⟨c, cs ++ t.toList, by simp [hs], hc⟩

theorem EndsSolid.append (s : String) (h : EndsSolid tail t) : EndsSolid tail (s ++ t) := by
  obtain ⟨cs, c, ht, hc⟩ := h
  exact ⟨s.toList ++ cs, c, by simp [ht], hc⟩

/-- A text is the blanks at its start and what is left without them. -/
theorem exists_append_trimLeft (s : String) : ∃ l, IsBlank l ∧ s = l ++ trimLeft s := by
  refine ⟨String.ofList (s.toList.takeWhile isBlank), ?_, ?_⟩
  · intro c hc
    rw [String.toList_ofList] at hc
    exact List.all_eq_true.1 List.all_takeWhile c hc
  · rw [trimLeft, ← String.ofList_append, List.takeWhile_append_dropWhile, String.ofList_toList]

theorem startsSolid_trimLeft (h : trimLeft s ≠ "") : StartsSolid (trimLeft s) := by
  cases hs : (trimLeft s).toList with
  | nil => exact absurd (String.toList_eq_nil_iff.1 hs) h
  | cons c cs =>
    rw [trimLeft, String.toList_ofList] at hs
    have hhead := List.head?_dropWhile_not isBlank s.toList
    rw [hs] at hhead
    exact ⟨c, cs, by rw [trimLeft, String.toList_ofList, hs], by simpa using hhead⟩

/-- Trimming takes the blanks at the start of a text, and those behind its last other character. -/
theorem trim_append_of_bounds {l : String} (hl : IsBlank l) (hs : StartsSolid s)
    (he : EndsSolid tail s) (htail : IsBlank tail) : trim (l ++ s) ++ tail = s := by
  obtain ⟨c, cs, hs, hc⟩ := hs
  obtain ⟨core, d, he, hd⟩ := he
  have hleft : (l.toList ++ s.toList).dropWhile isBlank = s.toList := by
    rw [List.dropWhile_append_of_pos hl, hs, List.dropWhile_cons_of_neg (by simp [hc])]
  have hright : s.toList.reverse.dropWhile isBlank = d :: core.reverse := by
    have hrev : ∀ b ∈ tail.toList.reverse, isBlank b = true :=
      fun b hb => htail b (List.mem_reverse.1 hb)
    rw [he, List.reverse_append, List.reverse_cons, List.append_assoc,
      List.dropWhile_append_of_pos hrev, List.singleton_append,
      List.dropWhile_cons_of_neg (by simp [hd])]
  apply String.toList_injective
  rw [String.toList_append, toList_trim, trimChars, String.toList_append, hleft, hright,
    List.reverse_cons, List.reverse_reverse, he, List.append_assoc, List.singleton_append]

end Text

/-! ## Numerals -/

namespace Numeral

open Text

theorem isBlank_of_isDecimalChar {c : Char} (h : isDecimalChar c = true) : isBlank c = false := by
  simp only [isDecimalChar, Char.isDigit, Bool.or_eq_true, Bool.and_eq_true, decide_eq_true_eq,
    beq_iff_eq, UInt32.le_iff_toNat_le, ge_iff_le] at h
  rcases h with (((h | rfl) | rfl) | rfl) | rfl
  · exact isBlank_of_visible (Nat.lt_of_lt_of_le (by decide) h.1)
      (Nat.lt_of_le_of_lt h.2 (by decide))
  all_goals decide

theorem isSolid_of_isDecimalChar {cs : List Char} (h : ∀ c ∈ cs, isDecimalChar c = true) :
    IsSolid (String.ofList cs) := by
  intro c hc
  rw [String.toList_ofList] at hc
  exact isBlank_of_isDecimalChar (h c hc)

theorem isSolid_ofNat (n : Nat) : IsSolid (ofNat n) :=
  isSolid_of_isDecimalChar fun _ => isDecimalChar_of_mem_toDigits

theorem isSolid_ofInt (n : Int) : IsSolid (ofInt n) := by
  unfold ofInt
  split
  · exact IsSolid.append (by decide) (isSolid_ofNat _)
  · exact isSolid_ofNat _

theorem isSolid_ofDouble (x : Number.Double) : IsSolid (ofDouble x) := by
  cases x with
  | finite negative x =>
    have hds : ∀ d ∈ significant (Nat.toDigits 10 x.shortest.digits), isDecimalChar d = true :=
      fun d hd => isDecimalChar_of_mem_toDigits (mem_of_mem_significant hd)
    refine IsSolid.append (by cases negative <;> decide) (isSolid_of_isDecimalChar ?_)
    rw [ofDecimal]
    split
    · exact isDecimalChar_of_mem_positional hds _
    · exact isDecimalChar_of_mem_exponential hds _
  | infinite negative => cases negative <;> decide
  | nan payload => exact show IsSolid "nan" by decide

theorem isSolid_quantity (x : Number.Double) : IsSolid (quantity x) := by
  unfold quantity
  split
  · exact isSolid_ofInt _
  · exact isSolid_ofDouble x

end Numeral

/-! ## Identifiers -/

namespace Escape.Identifier

open Text

/-- The blank that the escape of a character ends in. -/
def hiddenBlank (c : Char) : String := if c = ' ' then " " else ""

theorem isBlank_of_isNameChar {c : Char} (h : isNameChar c = true) : isBlank c = false := by
  simp only [isNameChar, isLetter, isDigit, Bool.or_eq_true, Bool.and_eq_true, decide_eq_true_eq,
    beq_iff_eq] at h
  rcases h with ((h | h) | rfl) | rfl
  · exact isBlank_of_visible (by omega) (by omega)
  · exact isBlank_of_visible (by omega) (by omega)
  all_goals decide

theorem isBlank_of_isHexDigit {c : Char} (h : isHexDigit c = true) : isBlank c = false := by
  simp only [isHexDigit, Bool.or_eq_true, Bool.and_eq_true, decide_eq_true_eq] at h
  exact isBlank_of_visible (by omega) (by omega)

theorem endsSolid_escapeChar (c : Char) :
    EndsSolid (hiddenBlank c) (String.ofList (escapeChar c)) := by
  rw [escapeChar]
  split
  case isTrue h =>
    by_cases hc : c = ' '
    · subst hc
      exact ⟨[], '\\', by decide, by decide⟩
    · -- The other characters with a backslash in front of them are no blanks.
      have hother : (c != ' ' && isBlank c) = false :=
        Token.eq_false_of_contains (p := fun d => d != ' ' && isBlank d) (by decide) h
      have hblank : isBlank c = false := by simpa [hc] using hother
      exact ⟨['\\'], c, by simp [hiddenBlank, hc], hblank⟩
  case isFalse h =>
    have hne : c ≠ ' ' := by
      rintro rfl
      exact h (by decide)
    have hdigit : isHexDigit (hexDigit (c.toNat % 16)) = true :=
      isHexDigit_hexDigit _ (Nat.mod_lt _ (by decide))
    refine ⟨'\\' :: hexDigits 5 (c.toNat / 16), hexDigit (c.toNat % 16), ?_,
      isBlank_of_isHexDigit hdigit⟩
    simp [hiddenBlank, hne, hexDigits]

theorem endsSolid_encodeChar (c : Char) :
    EndsSolid (hiddenBlank c) (String.ofList (encodeChar c)) := by
  rw [encodeChar]
  split
  case isTrue h =>
    have hne : c ≠ ' ' := by
      rintro rfl
      cases h
    exact ⟨[], c, by simp [hiddenBlank, hne], isBlank_of_isNameChar h⟩
  case isFalse => exact endsSolid_escapeChar c

/-- An identifier ends with what is written for the last character of the name. -/
theorem endsSolid_encode (cs : List Char) (c : Char) :
    EndsSolid (hiddenBlank c) (String.ofList (encode (cs ++ [c]))) := by
  cases cs with
  | nil =>
    rw [List.nil_append, encode, List.flatMap_nil, List.append_nil]
    split
    · exact endsSolid_escapeChar c
    · exact endsSolid_encodeChar c
  | cons d cs =>
    rw [List.cons_append, encode, List.flatMap_append, List.flatMap_singleton, ← List.append_assoc,
      String.ofList_append]
    exact (endsSolid_encodeChar c).append _

theorem startsSolid_escape {s : String} (hne : s ≠ "") : StartsSolid (escape s) := by
  have hcs : s.toList ≠ [] := fun hs => hne (String.toList_eq_nil_iff.1 hs)
  obtain ⟨d, ds, hd, hstart⟩ := Token.exists_encode_append hcs []
  rw [List.append_nil] at hd
  refine ⟨d, ds, by rw [toList_escape, hd], ?_⟩
  rw [Token.isNameStart, Bool.or_eq_true, beq_iff_eq] at hstart
  rcases hstart with h | rfl
  · exact isBlank_of_isNameChar h
  · decide

end Escape.Identifier

/-! ## Terms -/

/-- The typing that asks nothing of texts. -/
def Typing.anyText : Typing where
  verbatim _ := True
  combinator _ := True
  test _ := True

/-- The typing of nodes whose texts that are written as they are have no blanks. -/
def Typing.solid : Typing := { Typing.anyText with verbatim := Text.IsSolid }

open Text

namespace Value

theorem IsAmount.isSolid_numeral {v : Value} (h : v.IsAmount .solid) : Text.IsSolid v.numeral := by
  rcases h with ⟨b, rfl⟩ | ⟨n, rfl⟩ | ⟨x, rfl⟩ | h
  · cases b <;> decide
  · exact Numeral.isSolid_ofInt n
  · exact Numeral.isSolid_quantity x
  · obtain ⟨⟨s, hs, -⟩, hd⟩ := h
    obtain ⟨a, rfl, ha⟩ := exists_atom_of_text? hs
    cases a <;> first | exact hd | cases ha

theorem IsOptional.isSolid_orEmpty {v : Value} (h : v.IsOptional (IsVerbatim .solid)) :
    Text.IsSolid v.orEmpty := by
  rw [orEmpty]
  split
  · decide
  · rcases h with rfl | h
    · contradiction
    · exact h.2

/-- Whether a value is a term for a name that ends in a blank. -/
def endsInBlank : Value → Bool
  | .node (.ident value _) => value.text?.any fun s => s.toList.getLast? == some ' '
  | _ => false

/-- What trimming would take from the end of a term. -/
def tail (v : Value) : String := if v.endsInBlank then " " else ""

/-- Whether no text that a term writes as it is has a blank. What a call or a colour has between its
parentheses does not count, nor does the operator. -/
def IsSolid : Value → Prop
  | .node (.hash value _) => value.IsVerbatim .solid
  | .node (.number value dimension _ _) =>
    value.IsAmount .solid ∧ dimension.IsOptional (IsVerbatim .solid)
  | .node (.resolution amount unit _) => amount.IsAmount .solid ∧ unit.IsVerbatim .solid
  | _ => True

end Value

/-- A term is always printed as `t`, which starts and ends with what is not blank. -/
structure Node.HasText (n : Node Value) (t : String) : Prop where
  render : n.render = pure t
  bounds : (Value.node n).IsSolid → t ≠ "" → StartsSolid t ∧ EndsSolid (Value.node n).tail t

namespace Node.HasText

variable {n : Node Value} {t : String}

/-- A term without blanks. -/
theorem of_isSolid (h : n.render = pure t) (htail : (Value.node n).tail = "")
    (hs : (Value.node n).IsSolid → Text.IsSolid t) : n.HasText t := by
  refine ⟨h, fun hn hne => ?_⟩
  rw [htail]
  exact ⟨(hs hn).startsSolid hne, (hs hn).endsSolid hne⟩

/-- A term between two characters that are not blank. -/
theorem of_between {l m r : String} (h : n.render = pure (l ++ m ++ r))
    (htail : (Value.node n).tail = "") (hl : StartsSolid l) (hr : Text.IsSolid r) (hne : r ≠ "") :
    n.HasText (l ++ m ++ r) := by
  refine ⟨h, fun _ _ => ⟨(hl.append m).append r, ?_⟩⟩
  rw [htail]
  exact (hr.endsSolid hne).append _

end Node.HasText

theorem exists_mapM_eq_pure {α β : Type} {f : α → Print β} {l : List α}
    (h : ∀ a ∈ l, ∃ b, f a = pure b) : ∃ bs, l.mapM f = pure bs := by
  induction l with
  | nil => exact ⟨[], rfl⟩
  | cons a l ih =>
    obtain ⟨⟨b, hb⟩, hl⟩ := List.forall_mem_cons.1 h
    obtain ⟨bs, hbs⟩ := ih hl
    exact ⟨b :: bs, by rw [List.mapM_cons, hb, pure_bind, hbs, pure_bind]⟩

theorem hasText_ident {value operator : Value} {s : String} (h : value.text? = some s) :
    (Node.ident value operator).HasText (Escape.Identifier.escape s) := by
  refine ⟨by rw [Node.render, Print.identifier_of_text? h], fun _ hne => ?_⟩
  have hs : s ≠ "" := by
    rintro rfl
    exact hne rfl
  refine ⟨Escape.Identifier.startsSolid_escape hs, ?_⟩
  have hcs : s.toList ≠ [] := fun hnil => hs (String.toList_eq_nil_iff.1 hnil)
  have hends := Escape.Identifier.endsSolid_encode s.toList.dropLast (s.toList.getLast hcs)
  rw [List.dropLast_append_getLast hcs] at hends
  have htail : (Value.node (.ident value operator)).tail =
      Escape.Identifier.hiddenBlank (s.toList.getLast hcs) := by
    simp [Value.tail, Value.endsInBlank, h, Escape.Identifier.hiddenBlank,
      List.getLast?_eq_some_getLast hcs]
  rw [htail]
  exact hends

/-- What is known right below a term when it is printed. -/
def TextsBelow (n : Node Value) : Prop :=
  ∀ m, .node m ∈ n.below → Typing.anyText.Types m ∧ (m.kind ∈ Kind.terms → ∃ t, m.HasText t)

theorem TextsBelow.term {n : Node Value} (h : TextsBelow n) {v : Value} (hv : v.IsOf Kind.terms)
    (hmem : v ∈ n.below) : ∃ t, v.render = pure t := by
  obtain ⟨m, rfl, hm⟩ := hv
  obtain ⟨t, ht⟩ := (h m hmem).2 hm
  exact ⟨t, ht.render⟩

theorem TextsBelow.param {n : Node Value} (h : TextsBelow n) {v : Value}
    (hv : v.IsVerbatim .anyText ∨ v.IsOf Kind.terms) (hmem : v ∈ n.below) :
    ∃ t, Render.param v.part = pure t := by
  rcases hv with ⟨⟨s, hs, -⟩, -⟩ | hv
  · refine ⟨s, ?_⟩
    rw [Render.param, show v.part.value.text? = some s from hs]
  · obtain ⟨t, ht⟩ := h.term hv hmem
    obtain ⟨m, rfl, hm⟩ := hv
    obtain ⟨o, ho, -⟩ := (h m hmem).1.exists_operator hm
    have htext : (Value.node m).part.text = pure t := ht
    rw [Render.param, show (Value.node m).part.value.text? = none from rfl,
      show (Value.node m).part.value.operator? = some o from ho, htext]
    by_cases hvacant : o.isVacant = true
    · exact ⟨t, if_pos hvacant⟩
    · exact ⟨o.display ++ " " ++ t, by simp [hvacant]⟩

/-- A term has a text if the terms right below it have one. -/
theorem exists_hasText_of_below {n : Node Value} (hn : Typing.anyText.Types n) (h : TextsBelow n)
    (hk : n.kind ∈ Kind.terms) : ∃ t, n.HasText t := by
  cases n with
  | ident value operator =>
    obtain ⟨⟨s, hs, -⟩, -⟩ := hn
    exact ⟨_, hasText_ident hs⟩
  | hash value operator =>
    exact ⟨_, .of_isSolid rfl rfl fun hs => IsSolid.append (by decide) hs.2⟩
  | uri value operator =>
    obtain ⟨⟨s, hs, -⟩, -⟩ := hn
    have hrender : (Node.uri value operator).render = 
        pure ("url(" ++ ("\"" ++ Escape.Quoted.escape s ++ "\"") ++ ")") := by
      rw [Node.render, Render.uri, Print.quoted, hs, pure_bind]
    exact ⟨_, .of_between hrender rfl (IsSolid.startsSolid (by decide) (by decide)) (by decide)
      (by decide)⟩
  | string value operator =>
    obtain ⟨⟨s, hs, -⟩, -⟩ := hn
    have hrender : (Node.string value operator).render = 
        pure ("\"" ++ Escape.Quoted.escape s ++ "\"") := by
      rw [Node.render, Print.quoted, hs]
    exact ⟨_, .of_between hrender rfl (IsSolid.startsSolid (by decide) (by decide)) (by decide)
      (by decide)⟩
  | number value dimension sign operator =>
    refine ⟨_, .of_isSolid rfl rfl fun hs => ?_⟩
    refine IsSolid.append (IsSolid.append ?_ hs.1.isSolid_numeral) hs.2.isSolid_orEmpty
    split <;> decide
  | resolution amount unit operator =>
    exact ⟨_, .of_isSolid rfl rfl fun hs => hs.1.isSolid_numeral.append hs.2.2⟩
  | rgb red green blue operator =>
    obtain ⟨hr, hg, hb, -⟩ := hn
    obtain ⟨r, hr⟩ := h.term hr (hr.mem_below (by simp [Node.fields, Node.entries]))
    obtain ⟨g, hg⟩ := h.term hg (hg.mem_below (by simp [Node.fields, Node.entries]))
    obtain ⟨b, hb⟩ := h.term hb (hb.mem_below (by simp [Node.fields, Node.entries]))
    have hrender : (Node.rgb red green blue operator).render =
        pure ("rgb(" ++ ", ".intercalate [r, g, b] ++ ")") := by
      rw [Node.render, Render.rgb, hr, hg, hb]
      rfl
    exact ⟨_, .of_between hrender rfl (IsSolid.startsSolid (by decide) (by decide)) (by decide)
      (by decide)⟩
  | function name params operator =>
    obtain ⟨⟨s, hs, -⟩, ⟨vs, rfl, hvs⟩, -⟩ := hn
    have hparams : Value.list vs ∈ (Node.function name (.list vs) operator).fields := by
      simp [Node.fields, Node.entries]
    obtain ⟨ps, hps⟩ : ∃ ps, (vs.map Value.part).mapM Render.param = pure ps :=
      exists_mapM_eq_pure (List.forall_mem_map.2 fun v hv =>
        h.param (hvs v hv) (Node.mem_below_of_list hparams hv))
    have hparts : (Value.list vs).parts = .ok (vs.map Value.part) := Value.parts_eq_map _
    have hrender : (Node.function name (.list vs) operator).render =
        pure (Escape.Identifier.escape s ++ "(" ++ String.join ps ++ ")") := by
      rw [Node.render, Render.call, hparts, Parts.each_ok, hps, pure_bind,
        Print.identifier_of_text? hs, pure_bind]
    refine ⟨_, .of_between hrender rfl ?_ (by decide) (by decide)⟩
    by_cases hname : s = ""
    · subst hname
      exact IsSolid.startsSolid (by decide) (by decide)
    · exact (Escape.Identifier.startsSolid_escape hname).append _
  | simple form => cases form <;> simp [Node.kind, SimpleForm.kind, Kind.terms] at hk
  | _ => simp [Node.kind, Kind.terms] at hk

/-- A typed term has a text, by induction over the tree. -/
theorem Value.IsTyped.exists_hasText {n : Node Value} (h : (Value.node n).IsTyped .anyText)
    (hk : n.kind ∈ Kind.terms) : ∃ t, n.HasText t := by
  have step (n : Node Value) (hn : Typing.anyText.Types n) (ih : TextsBelow n) :
      Typing.anyText.Types n ∧ (n.kind ∈ Kind.terms → ∃ t, n.HasText t) :=
    ⟨hn, exists_hasText_of_below hn ih⟩
  exact (Value.Everywhere.induction step h n List.mem_cons_self).2 hk

/-! ## Declarations -/

/-- A well-typed term whose texts that are written as they are have no blanks, and whose own text is
not empty. -/
structure Value.IsVisibleTerm (v : Value) : Prop where
  kind : v.IsOf Kind.terms
  typed : v.IsTyped .anyText
  solid : v.IsSolid
  visible : v.render ≠ pure ""

/-- The separator in front of a term and the text of the term. -/
structure Value.IsOperand (v : Value) (o : String × String) : Prop where
  separator : ∃ operator, v.operator? = some operator ∧ Render.separator operator = o.1
  text : v.render = pure o.2

/-- An operand whose text starts and ends with what is not blank. -/
structure Value.IsSolidOperand (v : Value) (o : String × String) : Prop extends v.IsOperand o where
  startsSolid : StartsSolid o.2
  endsSolid : EndsSolid v.tail o.2

/-- Operands one after another. -/
def operandsText (ops : List (String × String)) : String :=
  String.join (ops.map fun o => o.1 ++ o.2)

/-- Operands one after another, the first one without the blanks in front of it. -/
def valueText : List (String × String) → String
  | [] => ""
  | (s, t) :: ops => trimLeft s ++ (t ++ operandsText ops)

@[simp] theorem operandsText_cons (o : String × String) (ops : List (String × String)) :
    operandsText (o :: ops) = o.1 ++ (o.2 ++ operandsText ops) := by
  simp [operandsText, String.append_assoc]

theorem Value.IsVisibleTerm.exists_isSolidOperand {v : Value} (h : v.IsVisibleTerm) :
    ∃ o, v.IsSolidOperand o := by
  obtain ⟨n, rfl, hk⟩ := h.kind
  obtain ⟨t, ht⟩ := h.typed.exists_hasText hk
  obtain ⟨operator, ho, -⟩ := h.typed.types.exists_operator hk
  have hne : t ≠ "" := by
    rintro rfl
    exact h.visible ht.render
  obtain ⟨hstart, hend⟩ := ht.bounds h.solid hne
  exact ⟨(Render.separator operator, t), ⟨⟨operator, ho, rfl⟩, ht.render⟩, hstart, hend⟩

theorem exists_isSolidOperands {vs : List Value} (h : ∀ v ∈ vs, v.IsVisibleTerm) :
    ∃ ops, List.Forall₂ Value.IsSolidOperand vs ops := by
  induction vs with
  | nil => exact ⟨[], .nil⟩
  | cons v vs ih =>
    obtain ⟨hv, hvs⟩ := List.forall_mem_cons.1 h
    obtain ⟨o, ho⟩ := hv.exists_isSolidOperand
    obtain ⟨ops, hops⟩ := ih hvs
    exact ⟨o :: ops, .cons ho hops⟩

/-- Operands end as the last of them does. -/
theorem endsSolid_operandsText {v : Value} {vs : List Value} {o : String × String}
    {ops : List (String × String)} (ho : v.IsSolidOperand o)
    (hops : List.Forall₂ Value.IsSolidOperand vs ops) :
    EndsSolid ((v :: vs).getLast (by simp)).tail (o.2 ++ operandsText ops) := by
  induction hops generalizing v o with
  | nil => simpa [operandsText] using ho.endsSolid
  | cons ho' _ ih =>
    rw [operandsText_cons, ← String.append_assoc, List.getLast_cons (by simp)]
    exact (ih ho').append _

/-- Trimming takes from operands the blanks in front of the first one, and the blank that ends the
last one if that is a name that ends in a blank. -/
theorem trim_operandsText {vs : List Value} {ops : List (String × String)} (hne : vs ≠ [])
    (h : List.Forall₂ Value.IsSolidOperand vs ops) :
    trim (operandsText ops) ++ (vs.getLast hne).tail = valueText ops := by
  cases h with
  | nil => exact absurd rfl hne
  | @cons v o vs ops ho hops =>
    obtain ⟨s, t⟩ := o
    obtain ⟨l, hl, hs⟩ := exists_append_trimLeft s
    have hstart : StartsSolid (trimLeft s ++ (t ++ operandsText ops)) := by
      by_cases hempty : trimLeft s = ""
      · rw [hempty, String.empty_append]
        exact ho.startsSolid.append _
      · exact (startsSolid_trimLeft hempty).append _
    have hend : EndsSolid ((v :: vs).getLast hne).tail (trimLeft s ++ (t ++ operandsText ops)) :=
      (endsSolid_operandsText ho hops).append _
    have htail : IsBlank ((v :: vs).getLast hne).tail := by
      rw [Value.tail]
      split <;> decide
    have hsplit : operandsText ((s, t) :: ops) = l ++ (trimLeft s ++ (t ++ operandsText ops)) := by
      calc operandsText ((s, t) :: ops)
        _ = s ++ (t ++ operandsText ops) := operandsText_cons _ _
        _ = (l ++ trimLeft s) ++ (t ++ operandsText ops) := by rw [← hs]
        _ = l ++ (trimLeft s ++ (t ++ operandsText ops)) := String.append_assoc
    rw [hsplit]
    exact trim_append_of_bounds hl hstart hend htail

theorem Value.IsOperand.operand {v : Value} {o : String × String} (h : v.IsOperand o) :
    Render.operand v.part = pure (o.1 ++ o.2) := by
  obtain ⟨⟨operator, ho, hs⟩, ht⟩ := h
  rw [Render.operand, show v.part.value.operator? = some operator from ho,
    show v.part.text = pure o.2 from ht, ← hs]
  rfl

theorem declarationValue_of_operands {expressions : Value} {vs : List Value}
    {ops : List (String × String)} (hvs : expressions.items? = some vs)
    (h : List.Forall₂ Value.IsOperand vs ops) :
    Render.declarationValue expressions.parts = pure (trim (operandsText ops)) := by
  have heach : (vs.map Value.part).mapM Render.operand = pure (ops.map fun o => o.1 ++ o.2) := by
    clear hvs
    induction h with
    | nil => rfl
    | cons ho _ ih => rw [List.map_cons, List.mapM_cons, ho.operand, pure_bind, ih]; rfl
  rw [Render.declarationValue, Value.parts_eq_map, hvs]
  show (vs.map Value.part).mapM Render.operand >>= _ = _
  rw [heach, pure_bind]
  rfl

theorem exec_declaration_of_operands {property expressions : Value} {p : String}
    {vs : List Value} {ops : List (String × String)} (hp : property.text? = some p)
    (hvs : expressions.items? = some vs) (h : List.Forall₂ Value.IsOperand vs ops)
    (important : Value) (owned : Bool) (unit lineBreak : String) (compact : Bool)
    (s : PrintState) :
    (Value.node (.declaration property expressions important owned)).render.exec
        (.ofTexts unit lineBreak compact) s =
      (.ok (DeclarationLine.text unit s.level
        ⟨p, trim (operandsText ops), !important.isVacant, owned⟩), s) := by
  have hlevel : s.level + 1 - 1 = s.level := by omega
  rw [Value.render, Node.render, exec_declaration, declarationValue_of_operands hvs h,
    Print.exec_pure, hp]
  simp only [hlevel]

/-- A declaration of well-typed terms is printed with its terms and separators in order, the first
separator without the blanks in front of it. Nothing else is missing, except the escaped blank at
the end of a last term that is a name that ends in a blank. -/
theorem declaration_value_iff {property expressions : Value} {p : String} {terms : List Value}
    (hp : property.text? = some p) (hterms : expressions.items? = some terms) (hne : terms ≠ [])
    (h : ∀ v ∈ terms, v.IsVisibleTerm) (important : Value) (owned : Bool)
    (unit lineBreak : String) (compact : Bool) (s : PrintState) :
    ∃ ops value, List.Forall₂ Value.IsOperand terms ops ∧
      (Value.node (.declaration property expressions important owned)).render.exec
          (.ofTexts unit lineBreak compact) s =
        (.ok (DeclarationLine.text unit s.level ⟨p, value, !important.isVacant, owned⟩), s) ∧
      (value = valueText ops ↔ (terms.getLast hne).endsInBlank = false) ∧
      value ++ (terms.getLast hne).tail = valueText ops := by
  obtain ⟨ops, hops⟩ := exists_isSolidOperands h
  have hoperands : List.Forall₂ Value.IsOperand terms ops := hops.imp fun _ _ ho => ho.toIsOperand
  have htrim := trim_operandsText hne hops
  refine ⟨ops, trim (operandsText ops), hoperands, ?_, ?_, htrim⟩
  · exact exec_declaration_of_operands hp hterms hoperands _ _ _ _ _ _
  · rw [← htrim, Value.tail]
    cases (terms.getLast hne).endsInBlank with
    | false => simp
    | true =>
      have hlonger : trim (operandsText ops) ≠ trim (operandsText ops) ++ " " := by
        intro heq
        have hlength := congrArg String.length heq
        rw [String.length_append] at hlength
        exact absurd hlength (by simp)
      simpa using hlonger

theorem Print.pure_inj {α : Type} {a b : α} (h : (pure a : Print α) = pure b) : a = b := by
  have hexec := congrArg (fun act : Print α => (act.exec .pretty {}).1) h
  exact Except.ok.inj hexec

theorem declaration_value_of_call :
    let name : Value := .node (.ident (.text "a ") .absent)
    let call : Value := .node (.function (.text "f") (.list [.text " x "]) (.text "/"))
    let yes : Value := .atom (.bool true)
    ∃ ops value, List.Forall₂ Value.IsOperand [name, call] ops ∧
      (Value.node (.declaration (.text "p") (.list [name, call]) yes true)).render.exec
          (.ofTexts "  " "\n" false) {} =
        (.ok (DeclarationLine.text "  " 0 ⟨"p", value, true, true⟩), {}) ∧
      value = valueText ops := by
  intro name call yes
  have hname : name.IsVisibleTerm := by
    refine ⟨⟨_, rfl, by decide⟩, .node ⟨⟨_, rfl, trivial⟩, .inl rfl⟩ ?_, trivial, fun h => ?_⟩
    · exact List.forall_mem_cons.2 ⟨.atom _, List.forall_mem_singleton.2 (.atom _)⟩
    · exact absurd (Print.pure_inj h) (by decide)
  have hcall : call.IsVisibleTerm := by
    refine ⟨⟨_, rfl, by decide⟩, .node ⟨⟨_, rfl, trivial⟩, ⟨_, rfl, ?_⟩,
      .inr ⟨⟨_, rfl, trivial⟩, trivial⟩⟩ ?_, trivial, fun h => ?_⟩
    · exact List.forall_mem_singleton.2 (.inl ⟨⟨_, rfl, trivial⟩, trivial⟩)
    · exact List.forall_mem_cons.2 ⟨.atom _, List.forall_mem_cons.2
        ⟨.list (List.forall_mem_singleton.2 (.atom _)), List.forall_mem_singleton.2 (.atom _)⟩⟩
    · exact absurd (Print.pure_inj h) (by decide)
  have hp : (Value.text "p").text? = some "p" := rfl
  have hitems : (Value.list [name, call]).items? = some [name, call] := rfl
  have hterms : ∀ v ∈ [name, call], v.IsVisibleTerm :=
    List.forall_mem_cons.2 ⟨hname, List.forall_mem_singleton.2 hcall⟩
  obtain ⟨ops, value, hops, hexec, hiff, -⟩ :=
    declaration_value_iff hp hitems (by simp) hterms yes true "  " "\n" false {}
  exact ⟨ops, value, hops, hexec, hiff.2 rfl⟩

/-- Of a name that ends in a blank, as the last term of its declaration, only the backslash of the
escaped blank is left. -/
theorem declaration_value_loses_blank :
    let term : Value := .node (.ident (.text "v ") .absent)
    let no : Value := .atom (.bool false)
    term.IsOperand (" ", "v\\ ") ∧ valueText [(" ", "v\\ ")] = "v\\ " ∧
      (Value.node (.declaration (.text "p") (.list [term]) no false)).render.exec .pretty {} =
        (.ok "p: v\\", {}) := by
  intro term no
  have hterm : term.IsOperand (" ", "v\\ ") := ⟨⟨.absent, rfl, rfl⟩, rfl⟩
  have hitems : (Value.list [term]).items? = some [term] := rfl
  have hp : (Value.text "p").text? = some "p" := rfl
  have hexec :=
    exec_declaration_of_operands hp hitems (.cons hterm .nil) no false "  " "\n" false {}
  have htext : DeclarationLine.text "  " 0
      ⟨"p", trim (operandsText [(" ", "v\\ ")]), false, false⟩ = "p: v\\" := by decide
  exact ⟨hterm, by decide, htext ▸ hexec⟩

end Stylesheet
