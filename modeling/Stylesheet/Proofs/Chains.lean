import Mathlib.Data.List.Forall2
import Stylesheet.Proofs.Everywhere
import Stylesheet.Proofs.Tokens

/-!
# Reading selectors back

A selector of element names only is a chain: names with combinators between them. Its text is read
back by taking a name and a combinator in turn (`readChain`), with ` `, ` > `, ` + ` and ` ~ ` for
the combinators.

Such a selector always has a text, and `selector_reads_back_iff` says when the text reads back as
the chain: exactly if no name but the last ends in a character that is written by its code point.
Behind such a name the reader takes the blank of the combinator for the end of the escape. Then the
two names of a descendant combinator are read as one, and no other combinator is recognised.
-/

namespace Stylesheet

open Stylesheet.Escape.Identifier Stylesheet.Token

/-- Items with combinators between them. -/
inductive Chain (α : Type) where
  | last (a : α)
  | link (a : α) (k : Combinator) (rest : Chain α)
deriving DecidableEq

namespace Chain

variable {α β : Type}

/-- Changes every item. -/
def map (f : α → β) : Chain α → Chain β
  | last a => last (f a)
  | link a k rest => link (f a) k (rest.map f)

/-- The items in front of a combinator. -/
def inner : Chain α → List α
  | last _ => []
  | link a _ rest => a :: rest.inner

/-- The items with the combinators in front of them, where `k` is in front of the first. -/
def compounds (k : Option Combinator) : Chain α → List (Option Combinator × α)
  | last a => [(k, a)]
  | link a k' rest => (k, a) :: rest.compounds (some k')

/-- The text of a chain whose items are written by `f`. -/
def written (f : α → List Char) : Chain α → List Char
  | last a => f a
  | link a k rest => f a ++ (k.symbol.toList ++ rest.written f)

end Chain

/-! ## Reading -/

/-- The combinator at the start of a text, and what is left of the text. -/
def readCombinator : List Char → Option (Combinator × List Char)
  | ' ' :: '>' :: ' ' :: cs => some (.child, cs)
  | ' ' :: '+' :: ' ' :: cs => some (.adjacentSibling, cs)
  | ' ' :: '~' :: ' ' :: cs => some (.generalSibling, cs)
  | ' ' :: cs => some (.descendant, cs)
  | _ => none

theorem length_of_readCombinator {cs rest : List Char} {k : Combinator}
    (h : readCombinator cs = some (k, rest)) : rest.length < cs.length := by
  revert h
  fun_cases readCombinator cs <;> rintro ⟨⟩ <;> simp only [List.length_cons] <;> omega

/-- The chain of names that a text is. -/
def readChain (cs : List Char) : Option (Chain (List Char)) :=
  if (readName cs).1 = [] then none
  else if (readName cs).2 = [] then some (.last (readName cs).1)
  else
    match h : readCombinator (readName cs).2 with
    | some (k, rest) =>
      have := length_of_readCombinator h
      have := length_readName_le cs
      (readChain rest).map (.link (readName cs).1 k)
    | none => none
termination_by cs.length

theorem readChain_eq (cs : List Char) :
    readChain cs =
      if (readName cs).1 = [] then none
      else if (readName cs).2 = [] then some (.last (readName cs).1)
      else (readCombinator (readName cs).2).bind fun r =>
        (readChain r.2).map (.link (readName cs).1 r.1) := by
  conv => lhs; rw [readChain]
  split
  · rfl
  · split
    · rfl
    · split <;> rename_i hk <;> simp only [hk] <;> rfl

/-! ## Names and combinators -/

/-- A name of an element other than `*`. -/
structure ElementName where
  text : String
  ne_empty : text ≠ ""
  ne_star : text ≠ "*"

/-- The characters of a name. -/
def ElementName.chars (name : ElementName) : List Char := name.text.toList

theorem ElementName.chars_ne_nil (name : ElementName) : name.chars ≠ [] := by
  simpa [chars] using name.ne_empty

/-- The text of a chain. -/
def Chain.text : Chain ElementName → List Char
  | last a => encode a.chars
  | link a k rest => encode a.chars ++ (k.symbol.toList ++ rest.text)

theorem Chain.text_eq_written (chain : Chain ElementName) :
    chain.text = chain.written fun a => encode a.chars := by
  induction chain with
  | last a => rfl
  | link a k rest ih => rw [Chain.text, Chain.written, ih]

theorem Chain.exists_text (chain : Chain ElementName) :
    ∃ d ds, chain.text = d :: ds ∧ isNameStart d = true := by
  cases chain with
  | last a => simpa [Chain.text] using exists_encode_append a.chars_ne_nil []
  | link a k rest => exact exists_encode_append a.chars_ne_nil _

/-- A combinator in front of a name is recognised. -/
theorem readCombinator_symbol_append (k : Combinator) (chain : Chain ElementName) :
    readCombinator (k.symbol.toList ++ chain.text) = some (k, chain.text) := by
  cases k with
  | descendant =>
    obtain ⟨d, ds, htext, hd⟩ := chain.exists_text
    have hchild : d ≠ '>' := by rintro rfl; revert hd; decide
    have hadjacent : d ≠ '+' := by rintro rfl; revert hd; decide
    have hgeneral : d ≠ '~' := by rintro rfl; revert hd; decide
    rw [htext]
    simp [Combinator.symbol, readCombinator, hchild, hadjacent, hgeneral]
  | child => rfl
  | adjacentSibling => rfl
  | generalSibling => rfl

/-- Behind a name that does not end in a code point, the combinator is read as it is. -/
theorem readName_link_of_not_endsInCode {a : ElementName} (h : endsInCode a.chars = false)
    (k : Combinator) (rest : Chain ElementName) :
    readName (Chain.link a k rest).text = (a.chars, k.symbol.toList ++ rest.text) := by
  have hstop : readName (k.symbol.toList ++ rest.text) = ([], k.symbol.toList ++ rest.text) := by
    cases k <;> exact readName_of_stop (by decide) (by decide) _
  rw [Chain.text, readName_encode_append, h]
  simp only [behind, Bool.false_eq_true, if_false, hstop, List.append_nil]

theorem readChain_link_of_not_endsInCode {a : ElementName} (h : endsInCode a.chars = false)
    (k : Combinator) (rest : Chain ElementName) :
    readChain (Chain.link a k rest).text = (readChain rest.text).map (.link a.chars k) := by
  have hne : k.symbol.toList ++ rest.text ≠ [] := by cases k <;> nofun
  rw [readChain_eq, readName_link_of_not_endsInCode h, if_neg a.chars_ne_nil, if_neg hne,
    readCombinator_symbol_append, Option.bind_some]

/-- The first item of a chain. -/
def Chain.first {α : Type} : Chain α → α
  | last a => a
  | link a _ _ => a

theorem first_of_readChain {cs : List Char} {chain : Chain (List Char)}
    (h : readChain cs = some chain) : chain.first = (readName cs).1 := by
  rw [readChain_eq] at h
  split at h
  · cases h
  · split at h
    · cases h
      rfl
    · obtain ⟨r, -, hr⟩ := Option.bind_eq_some_iff.1 h
      obtain ⟨c, -, rfl⟩ := Option.map_eq_some_iff.1 hr
      rfl

/-- Some name stands at the start of a chain. -/
theorem readName_text_ne_nil (chain : Chain ElementName) : (readName chain.text).1 ≠ [] := by
  have hencode (a : ElementName) (cs : List Char) : (readName (encode a.chars ++ cs)).1 ≠ [] := by
    rw [readName_encode_append]
    simp [a.chars_ne_nil]
  cases chain with
  | last a => simpa [Chain.text] using hencode a []
  | link a k rest => exact hencode a _

/-- Without its first blank only a descendant combinator leaves something that can be read. -/
theorem readCombinator_dropSpace {k : Combinator} (hk : k ≠ .descendant) (rest : List Char) :
    let left := dropSpace (k.symbol.toList ++ rest)
    readName left = ([], left) ∧ left ≠ [] ∧ readCombinator left = none := by
  cases k with
  | descendant => exact absurd rfl hk
  | child => exact ⟨readName_of_stop (by decide) (by decide) _, nofun, rfl⟩
  | adjacentSibling => exact ⟨readName_of_stop (by decide) (by decide) _, nofun, rfl⟩
  | generalSibling => exact ⟨readName_of_stop (by decide) (by decide) _, nofun, rfl⟩

/-- Behind a name that ends in a code point, the combinator is lost. -/
theorem readChain_link_of_endsInCode {a : ElementName} (h : endsInCode a.chars = true)
    (k : Combinator) (rest : Chain ElementName) (chain : Chain (List Char)) :
    readChain (Chain.link a k rest).text ≠ some (.link a.chars k chain) := by
  have hname : readName (Chain.link a k rest).text =
      let left := dropSpace (k.symbol.toList ++ rest.text)
      (a.chars ++ (readName left).1, (readName left).2) := by
    rw [Chain.text, readName_encode_append, h]
    rfl
  intro hread
  by_cases hk : k = .descendant
  · -- The next name is read as a part of this one.
    subst hk
    have hfirst := first_of_readChain hread
    rw [hname] at hfirst
    exact readName_text_ne_nil rest (List.append_right_eq_self.1 hfirst.symm)
  · obtain ⟨hstop, hleft, hnone⟩ := readCombinator_dropSpace hk rest.text
    rw [readChain_eq, hname] at hread
    simp only [hstop, List.append_nil, if_neg a.chars_ne_nil, if_neg hleft, hnone,
      Option.bind_none] at hread
    cases hread

/-- The text of a chain reads back exactly if no name in front of a combinator ends in a code
point. -/
theorem readChain_text_iff (chain : Chain ElementName) :
    readChain chain.text = some (chain.map ElementName.chars) ↔
      ∀ a ∈ chain.inner, endsInCode a.chars = false := by
  induction chain with
  | last a =>
    have hname : readName (Chain.last a).text = (a.chars, []) := by
      have h := readName_encode_append a.chars []
      simpa [Chain.text, behind, dropSpace] using h
    rw [readChain_eq, hname, if_neg a.chars_ne_nil, if_pos rfl]
    exact iff_of_true rfl (List.forall_mem_nil _)
  | link a k rest ih =>
    rw [Chain.inner, List.forall_mem_cons, Chain.map, ← ih]
    cases h : endsInCode a.chars with
    | true => simpa using readChain_link_of_endsInCode h k rest _
    | false =>
      rw [readChain_link_of_not_endsInCode h]
      simp

/-! ## Printed selectors -/

/-- What stands in the field for a combinator. -/
def Combinator.value : Option Combinator → Value
  | none => .absent
  | some k => .atom (.keyword (.combinator k))

/-- What is written in front of a name for its combinator. -/
def Combinator.sign (k : Option Combinator) : String := k.elim "" symbol

/-- Whether a value is a compound that is a name alone, behind a combinator or at the start. -/
def IsCompound (c : Option Combinator × ElementName) (v : Value) : Prop :=
  ∃ form name qualifiers, v.contents = .node (.simple form name (Combinator.value c.1) qualifiers) ∧
    name.text? = some c.2.text ∧ qualifiers.items? = some []

/-- Whether a value is the selector for a chain of names. -/
def Chain.IsSelector (chain : Chain ElementName) (v : Value) : Prop :=
  ∃ simples vs, v.contents = .node (.selector simples) ∧ simples.items? = some vs ∧
    List.Forall₂ IsCompound (chain.compounds none) vs

/-- The selector for a chain of names, with every compound of the same form. -/
def Chain.selector (form : SimpleForm) (chain : Chain ElementName) : Value :=
  .node (.selector (.list ((chain.compounds none).map fun c =>
    .node (.simple form (.text c.2.text) (Combinator.value c.1) (.list [])))))

theorem Chain.isSelector_selector (form : SimpleForm) (chain : Chain ElementName) :
    chain.IsSelector (chain.selector form) := by
  refine ⟨_, _, rfl, rfl, ?_⟩
  rw [List.forall₂_map_right_iff]
  exact List.forall₂_same.2 fun c _ => ⟨form, _, _, rfl, rfl, rfl⟩

theorem combinator_value (selector : Value) (k : Option Combinator) :
    Render.combinator selector (Combinator.value k) = pure (Combinator.sign k) := by
  cases k with
  | none => rfl
  | some k => cases k <;> rfl

theorem render_of_simple {v name qualifiers : Value} {form : SimpleForm} {k : Option Combinator}
    {t u : String} (hv : v.contents = .node (.simple form name (Combinator.value k) qualifiers))
    (hname : Render.elementName name = pure t) (hqualifiers : qualifiers.parts.joined = pure u) :
    v.render = pure (Combinator.sign k ++ t ++ u) := by
  rw [← Value.render_contents, hv, Value.render, Node.render, Render.simple, combinator_value,
    hname, hqualifiers]
  rfl

theorem IsCompound.render {c : Option Combinator × ElementName} {v : Value} (h : IsCompound c v) :
    v.render = pure (Combinator.sign c.1 ++ escape c.2.text) := by
  obtain ⟨form, name, qualifiers, hv, hname, hq⟩ := h
  have hjoined : qualifiers.parts.joined = pure "" := by
    rw [Value.parts_eq_map, hq]
    rfl
  have helement : Render.elementName name = pure (escape c.2.text) := by
    rw [Render.elementName, Value.isAbsent_of_text? hname, Print.identifier_of_text? hname, hname]
    simp [c.2.ne_star]
  rw [render_of_simple hv helement hjoined, String.append_empty]

theorem mapM_render_eq_pure {α : Type} {f : α → String} {as : List α} {vs : List Value}
    (h : List.Forall₂ (fun a v => v.render = pure (f a)) as vs) :
    vs.mapM Value.render = pure (as.map f) := by
  induction h with
  | nil => rfl
  | cons h _ ih => rw [List.mapM_cons, h, pure_bind, ih, pure_bind, List.map_cons]

section

variable {α : Type} {f : α → List Char} {p : Option Combinator × α → Value → Prop}
  {chain : Chain α} {v : Value}

theorem Chain.join_compounds (f : α → List Char) (chain : Chain α) (k : Option Combinator) :
    String.join ((chain.compounds k).map fun c => Combinator.sign c.1 ++ String.ofList (f c.2)) =
      Combinator.sign k ++ String.ofList (chain.written f) := by
  induction chain generalizing k with
  | last a => simp [compounds, written]
  | link a k' rest ih =>
    rw [compounds, List.map_cons, String.join_cons, ih]
    simp [written, Combinator.sign, String.append_assoc]

/-- Whether a value is the selector for a chain, where `p` says which values are the compounds for
the items. -/
def Chain.IsSelectorOf (p : Option Combinator × α → Value → Prop) (chain : Chain α) (v : Value) :
    Prop :=
  ∃ simples vs, v.contents = .node (.selector simples) ∧ simples.items? = some vs ∧
    List.Forall₂ p (chain.compounds none) vs

/-- The selector for a chain is printed as the text of the chain, if its compounds are printed as
the combinators and items. -/
theorem Chain.IsSelectorOf.render
    (hp : ∀ c w, p c w → w.render = pure (Combinator.sign c.1 ++ String.ofList (f c.2)))
    (h : chain.IsSelectorOf p v) : v.render = pure (String.ofList (chain.written f)) := by
  obtain ⟨simples, vs, hv, hvs, hcompounds⟩ := h
  have hjoin := chain.join_compounds f none
  rw [← Value.render_contents, hv, Value.render, Node.render, Parts.joined,
    Value.texts_of_items? hvs, mapM_render_eq_pure (hcompounds.imp hp), pure_bind, hjoin]
  simp [Combinator.sign]

end

/-- The selector for a chain of names is printed as the text of the chain. -/
theorem Chain.IsSelector.render {chain : Chain ElementName} {v : Value} (h : chain.IsSelector v) :
    v.render = pure (String.ofList chain.text) := by
  have hv : chain.IsSelectorOf IsCompound v := h
  rw [chain.text_eq_written]
  exact hv.render fun c w hc => hc.render

/-- The selector for a chain of names is always printed, and its text reads back as the chain
exactly if no name in front of a combinator ends in a character that is written by its code
point. -/
theorem selector_reads_back_iff {chain : Chain ElementName} {v : Value} (h : chain.IsSelector v)
    (layout : Layout) (s : PrintState) :
    ∃ text, v.render.exec layout s = (.ok text, s) ∧
      (readChain text.toList = some (chain.map ElementName.chars) ↔
        ∀ a ∈ chain.inner, endsInCode a.chars = false) := by
  refine ⟨String.ofList chain.text, ?_, ?_⟩
  · rw [h.render, Print.exec_pure]
  · rw [String.toList_ofList]
    exact readChain_text_iff chain

theorem selector_reads_back_of_last :
    let chain : Chain ElementName :=
      .link ⟨"1 b", by decide, by decide⟩ .child (.last ⟨"é", by decide, by decide⟩)
    ∃ text, (chain.selector .typed).render.exec .pretty {} = (.ok text, {}) ∧
      readChain text.toList = some (chain.map ElementName.chars) := by
  intro chain
  obtain ⟨text, htext, hread⟩ :=
    selector_reads_back_iff (chain.isSelector_selector .typed) .pretty {}
  exact ⟨text, htext, hread.2 (by decide)⟩

/-- A name that ends in a code point and the one below it are read as one name. -/
theorem selector_reads_as_one_name :
    let chain : Chain ElementName :=
      .link ⟨"é", by decide, by decide⟩ .descendant (.last ⟨"b", by decide, by decide⟩)
    (chain.selector .typed).render.exec .pretty {} = (.ok "\\0000e9 b", {}) ∧
      readChain "\\0000e9 b".toList = some (.last ['é', 'b']) ∧
      readChain "\\0000e9 b".toList ≠ some (chain.map ElementName.chars) := by
  intro chain
  have hname : readName "\\0000e9 b".toList = (['é', 'b'], []) := by
    have hb : readName ['b'] = (['b'], []) := by
      rw [readName_cons_of_isNameChar (by decide), readName_nil]
    have h : readName (encode ['é'] ++ [' ', 'b']) =
        (['é'] ++ (readName ['b']).1, (readName ['b']).2) := readName_encode_append _ _
    rw [hb] at h
    exact h
  have hread : readChain "\\0000e9 b".toList = some (.last ['é', 'b']) := by
    rw [readChain_eq, hname]
    rfl
  refine ⟨?_, hread, ?_⟩
  · rw [(chain.isSelector_selector .typed).render, Print.exec_pure]
    rfl
  · rw [hread]
    decide

end Stylesheet
