import Stylesheet.Proofs.Compounds
import Stylesheet.Proofs.Strings

/-!
# Selectors that are written alike

Some selectors are synonyms: which form a compound has does not show, no name means `*`, a part of an
element in the legacy spelling looks like a state, the presence of an attribute is tested without a
value, and a value that is left out is the empty one. `Compound.normal` makes one of two synonyms the
other.

Two selectors are written alike exactly if they are the same up to synonyms (`texts_eq_iff`). To see
this their texts are taken apart from left to right. A part tells what it stands for, and where it
ends, by what can follow it (`Tells`): behind a name comes no character of a name
(`Escape.Identifier.tells_encode`), behind a qualifier another one, a blank or nothing (`EndsPart`),
and behind a compound a blank or nothing (`EndsCompound`). A combinator is told from the others by
the compound behind it, which does not start with a symbol (`StartsCompound`).
-/

namespace Stylesheet

open Stylesheet.Escape.Identifier Stylesheet.Token

/-! ## Normal forms -/

/-- A qualifier without what does not show: the legacy spelling of a part becomes a state, and of a
value only what an attribute is compared with is kept. -/
def Qualifier.normal : Qualifier → Qualifier
  | pseudoElement name true => pseudoClass name none
  | attributeTest name test value => attributeTest name test (comparand test value)
  | q => q

/-- The name for any element. -/
def Label.star : Label := ⟨"*", by decide⟩

/-- A compound without what does not show: its form, and whether any element is meant by name. -/
def Compound.normal (c : Compound) : Compound where
  form := .unmarked
  name := some (c.name.getD .star)
  qualifiers := c.qualifiers.map Qualifier.normal

theorem Qualifier.text_normal (q : Qualifier) : q.normal.text = q.text := by
  cases q with
  | pseudoElement name legacy => cases legacy <;> rfl
  | attributeTest name test value => cases test <;> rfl
  | _ => rfl

theorem Compound.text_normal (c : Compound) : c.normal.text = c.text := by
  have hname : elementText (some (c.name.getD .star)) = elementText c.name := by
    cases c.name <;> rfl
  have hqualifiers : (c.qualifiers.map Qualifier.normal).flatMap Qualifier.text =
      c.qualifiers.flatMap Qualifier.text := by
    rw [List.flatMap_map]
    exact List.flatMap_congr fun q _ => q.text_normal
  rw [text, normal, hname, hqualifiers, text]

theorem Chain.written_map {α β : Type} {f : α → List Char} {g : β → List Char} {h : α → β}
    (hg : ∀ a, g (h a) = f a) (chain : Chain α) : (chain.map h).written g = chain.written f := by
  induction chain with
  | last a => exact hg a
  | link a k rest ih => rw [map, written, written, hg, ih]

/-! ## What can follow -/

/-- Whether a text can follow a qualifier or the name of an element. -/
def EndsPart (cs : List Char) : Prop := ∀ c ∈ cs.head?, c ∈ ['#', '.', ':', '[', ' ']

/-- Whether a text can follow a compound. -/
def EndsCompound (cs : List Char) : Prop := ∀ c ∈ cs.head?, c = ' '

/-- Whether a compound can start at the start of a text. -/
def StartsCompound (cs : List Char) : Prop := ∃ c ds, cs = c :: ds ∧ (c = '*' ∨ isNameStart c = true)

theorem EndsCompound.endsPart {cs : List Char} (h : EndsCompound cs) : EndsPart cs := by
  intro c hc
  rw [h c hc]
  decide

theorem EndsPart.endsName {cs : List Char} (h : EndsPart cs) : EndsName cs := by
  have hstart : ['#', '.', ':', '[', ' '].any isNameStart = false := by decide
  exact fun c hc => Bool.eq_false_iff.2 (List.any_eq_false.1 hstart c (h c hc))

theorem EndsPart.ne_cons {c : Char} {cs ds : List Char} (hc : c ∉ ['#', '.', ':', '[', ' '])
    (h : EndsPart cs) : c :: ds ≠ cs := by
  rintro rfl
  exact hc (h c rfl)

theorem endsName_cons {c : Char} (h : isNameStart c = false) (cs : List Char) :
    EndsName (c :: cs) := by
  intro d hd
  cases hd
  exact h

/-! ## Parts of qualifiers -/

namespace Qualifier

theorem tells_argumentText : Tells argumentText id EndsPart := by
  have hparen : EndsName [')'] := endsName_cons (by decide) []
  intro a b r s hr hs heq
  cases a with
  | none =>
    cases b with
    | none => exact ⟨rfl, heq⟩
    | some t => exact absurd heq.symm (hr.ne_cons (by decide))
  | some t =>
    cases b with
    | none => exact absurd heq (hs.ne_cons (by decide))
    | some u =>
      simp only [argumentText, List.cons_append, List.append_assoc, List.cons.injEq, true_and] at heq
      obtain ⟨htext, hrest⟩ := tells_encode (endsName_cons (by decide) r)
        (endsName_cons (by decide) s) heq
      cases String.toList_injective htext
      exact ⟨rfl, (List.cons.inj hrest).2⟩

theorem tells_lead : Tells lead id fun _ => True := by
  intro a b r s _ _ heq
  cases a <;> cases b <;> simp_all [lead, AttributeTest.symbol?]

theorem tells_comparandText (test : AttributeTest) :
    Tells (fun value => comparandText (comparand test value)) (comparand test) fun _ => True := by
  intro a b r s _ _ heq
  unfold comparand at heq ⊢
  split at heq
  case isTrue => exact ⟨by simp [*], heq⟩
  case isFalse =>
    simp only [comparandText, List.append_assoc, List.cons_append, List.nil_append] at heq
    have hquote (cs : List Char) : ∀ c ∈ ('"' :: cs).head?, c = '"' := by simp
    obtain ⟨htext, hrest⟩ := Escape.Quoted.tells_encode (hquote _) (hquote _) heq
    simp only [List.cons.injEq, true_and] at hrest
    exact ⟨by simp [String.toList_injective htext], hrest⟩

theorem mark_mem (q : Qualifier) : q.mark ∈ [['#'], ['.'], [':'], [':', ':'], ['[']] := by
  cases q with
  | pseudoElement name legacy => cases legacy <;> simp [mark]
  | _ => simp [mark]

theorem tells_mark : Tells mark mark StartsName := by
  rintro p q _ _ ⟨c, r, rfl, hc⟩ ⟨d, s, rfl, hd⟩ heq
  have hcolon : isNameStart ':' = false := by decide
  have hc' : c ≠ ':' := by
    rintro rfl
    exact absurd hc (by simp [hcolon])
  have hd' : ':' ≠ d := by
    rintro rfl
    exact absurd hd (by simp [hcolon])
  have hp := p.mark_mem
  have hq := q.mark_mem
  generalize p.mark = m at heq hp ⊢
  generalize q.mark = n at heq hq ⊢
  simp only [List.mem_cons, List.not_mem_nil, or_false] at hp hq
  rcases hp with rfl | rfl | rfl | rfl | rfl <;> rcases hq with rfl | rfl | rfl | rfl | rfl <;>
    simp_all

/-! ## Qualifiers -/

/-- A qualifier with one colon is a state, or looks like one. -/
theorem exists_argument_of_mark {q : Qualifier} (h : q.mark = [':']) :
    ∃ argument, q.normal = pseudoClass q.name argument ∧ q.tail = argumentText argument := by
  cases q with
  | pseudoClass name argument => exact ⟨argument, rfl, rfl⟩
  | pseudoElement name legacy =>
    cases legacy with
    | false => cases h
    | true => exact ⟨none, rfl, rfl⟩
  | _ => cases h

/-- What follows the name tells the rest of a qualifier whose mark and name are known. -/
theorem normal_eq_of_tail_append {p q : Qualifier} (hmark : p.mark = q.mark)
    (hname : p.name = q.name) {r s : List Char} (hr : EndsPart r) (hs : EndsPart s)
    (heq : p.tail ++ r = q.tail ++ s) : p.normal = q.normal ∧ r = s := by
  by_cases hcolon : p.mark = [':']
  · obtain ⟨v, hp, hv⟩ := exists_argument_of_mark hcolon
    obtain ⟨w, hq, hw⟩ := exists_argument_of_mark (hmark ▸ hcolon)
    rw [hv, hw] at heq
    obtain ⟨hvalue, hrest⟩ := tells_argumentText hr hs heq
    exact ⟨by rw [hp, hq, hname, show v = w from hvalue], hrest⟩
  -- Any other mark belongs to one form of qualifier only.
  cases p with
  | idName a =>
    cases q with
    | idName b =>
      cases hname
      exact ⟨rfl, heq⟩
    | pseudoElement b legacy => cases legacy <;> cases hmark
    | _ => cases hmark
  | className a =>
    cases q with
    | className b =>
      cases hname
      exact ⟨rfl, heq⟩
    | pseudoElement b legacy => cases legacy <;> cases hmark
    | _ => cases hmark
  | pseudoClass a v => exact absurd rfl hcolon
  | pseudoElement a legacy =>
    cases legacy with
    | true => exact absurd rfl hcolon
    | false =>
      cases q with
      | pseudoElement b legacy =>
        cases hname
        cases legacy with
        | true => cases hmark
        | false => exact ⟨rfl, heq⟩
      | _ => cases hmark
  | attributeTest a t v =>
    cases q with
    | attributeTest b u w =>
      cases hname
      simp only [tail, List.append_assoc] at heq
      obtain ⟨htest, hrest⟩ := tells_lead trivial trivial heq
      cases htest
      obtain ⟨hvalue, hrest⟩ := tells_comparandText t trivial trivial hrest
      exact ⟨by rw [normal, normal, hvalue], hrest⟩
    | pseudoElement b legacy => cases legacy <;> cases hmark
    | _ => cases hmark

/-- A part of a qualifier, or what follows it, is no part of its name. -/
theorem endsName_tail_append (q : Qualifier) {r : List Char} (hr : EndsPart r) :
    EndsName (q.tail ++ r) := by
  cases q with
  | pseudoClass name argument =>
    cases argument with
    | none => exact hr.endsName
    | some s => exact endsName_cons (by decide) _
  | attributeTest name test value => cases test <;> exact endsName_cons (by decide) _
  | _ => exact hr.endsName

theorem tells_text : Tells text normal EndsPart := by
  intro p q r s hr hs heq
  simp only [text, List.append_assoc] at heq
  obtain ⟨hmark, heq⟩ := tells_mark (exists_encode_append p.name.chars_ne_nil _)
    (exists_encode_append q.name.chars_ne_nil _) heq
  obtain ⟨hchars, heq⟩ :=
    tells_encode (p.endsName_tail_append hr) (q.endsName_tail_append hs) heq
  exact normal_eq_of_tail_append hmark (Label.chars_injective hchars) hr hs heq

/-- A qualifier starts with the first character of its mark. -/
theorem exists_text_append (q : Qualifier) (r : List Char) :
    ∃ c ds, q.text ++ r = c :: ds ∧ c ∈ ['#', '.', ':', '['] := by
  cases q with
  | pseudoElement name legacy => cases legacy <;> exact ⟨':', _, rfl, by decide⟩
  | idName name => exact ⟨'#', _, rfl, by decide⟩
  | className name => exact ⟨'.', _, rfl, by decide⟩
  | pseudoClass name argument => exact ⟨':', _, rfl, by decide⟩
  | attributeTest name test value => exact ⟨'[', _, rfl, by decide⟩

theorem endsPart_text_append (q : Qualifier) (r : List Char) : EndsPart (q.text ++ r) := by
  obtain ⟨c, ds, heq, hc⟩ := q.exists_text_append r
  rw [heq]
  intro d hd
  cases hd
  exact List.mem_append_left [' '] hc

end Qualifier

/-! ## Compounds -/

namespace Compound

theorem tells_qualifiers :
    Tells (List.flatMap Qualifier.text) (List.map Qualifier.normal) EndsCompound := by
  refine Qualifier.tells_text.flatMap Qualifier.endsPart_text_append (fun _ h => h.endsPart) ?_
  rintro q r _ hs rfl
  obtain ⟨c, ds, heq, hc⟩ := q.exists_text_append r
  rw [EndsCompound, heq] at hs
  rw [hs c rfl] at hc
  revert hc
  decide

theorem endsPart_qualifiers_append (qs : List Qualifier) {r : List Char} (hr : EndsCompound r) :
    EndsPart (qs.flatMap Qualifier.text ++ r) := by
  cases qs with
  | nil => exact hr.endsPart
  | cons q qs =>
    rw [List.flatMap_cons, List.append_assoc]
    exact q.endsPart_text_append _

theorem elementText_eq (name : Option Label) :
    elementText name = if name.getD .star = .star then ['*'] else encode (name.getD .star).chars := by
  cases name with
  | none => rfl
  | some name =>
    have hstar : name.text = "*" ↔ name = .star := by
      cases name
      simp [Label.star]
    simp [elementText, hstar]

/-- The text for the name of an element tells which one is meant. -/
theorem tells_elementText : Tells elementText (fun name => name.getD .star) EndsPart := by
  have hne (l : Label) (r s : List Char) : '*' :: r ≠ encode l.chars ++ s := by
    intro h
    obtain ⟨c, ds, heq, hc⟩ := exists_encode_append l.chars_ne_nil s
    rw [heq] at h
    cases h
    revert hc
    decide
  intro a b r s hr hs heq
  rw [elementText_eq, elementText_eq] at heq
  split at heq
  case isTrue ha =>
    split at heq
    case isTrue hb => exact ⟨ha.trans hb.symm, (List.cons.inj heq).2⟩
    case isFalse => exact absurd heq (hne _ _ _)
  case isFalse =>
    split at heq
    case isTrue => exact absurd heq.symm (hne _ _ _)
    case isFalse =>
      obtain ⟨hchars, hrest⟩ := tells_encode hr.endsName hs.endsName heq
      exact ⟨Label.chars_injective hchars, hrest⟩

theorem tells_text : Tells text normal EndsCompound := by
  intro a b r s hr hs heq
  simp only [text, List.append_assoc] at heq
  obtain ⟨hname, heq⟩ := tells_elementText (endsPart_qualifiers_append a.qualifiers hr)
    (endsPart_qualifiers_append b.qualifiers hs) heq
  obtain ⟨hqualifiers, heq⟩ := tells_qualifiers hr hs heq
  have hname : a.name.getD .star = b.name.getD .star := hname
  exact ⟨by rw [normal, normal, hname, hqualifiers], heq⟩

theorem startsCompound_text_append (c : Compound) (r : List Char) :
    StartsCompound (c.text ++ r) := by
  rw [text, List.append_assoc, elementText_eq]
  split
  · exact ⟨'*', _, rfl, .inl rfl⟩
  · obtain ⟨d, ds, heq, hd⟩ := exists_encode_append (Label.chars_ne_nil _) _
    exact ⟨d, ds, heq, .inr hd⟩

end Compound

/-! ## Chains -/

/-- A combinator tells which one it is by its symbol, if a compound follows. -/
theorem Combinator.tells_symbol : Tells (fun k => (symbol k).toList) id StartsCompound := by
  have hsymbol : ['>', '+', '~'].any (fun c => c == '*' || isNameStart c) = false := by decide
  rintro k k' _ _ ⟨c, r, rfl, hc⟩ ⟨d, s, rfl, hd⟩ heq
  have hc' : ∀ e ∈ ['>', '+', '~'], c ≠ e := by
    rintro e he rfl
    exact List.any_eq_false.1 hsymbol c he (by simpa using hc)
  have hd' : ∀ e ∈ ['>', '+', '~'], e ≠ d := by
    rintro e he rfl
    exact List.any_eq_false.1 hsymbol e he (by simpa using hd)
  clear hsymbol hc hd
  cases k <;> cases k' <;> simp_all [symbol]

theorem Chain.startsCompound_written (chain : Chain Compound) :
    StartsCompound (chain.written Compound.text) := by
  cases chain with
  | last c => simpa [written] using c.startsCompound_text_append []
  | link c k rest => exact c.startsCompound_text_append _

theorem Combinator.endsCompound_symbol_append (k : Combinator) (r : List Char) :
    EndsCompound (k.symbol.toList ++ r) := by
  cases k <;>
  · intro c hc
    cases hc
    rfl

/-- Chains whose texts are the same are the same up to synonyms. -/
theorem Chain.map_normal_eq_of_written_eq {a b : Chain Compound}
    (h : a.written Compound.text = b.written Compound.text) :
    a.map Compound.normal = b.map Compound.normal := by
  have hnil : EndsCompound [] := by simp [EndsCompound]
  induction a generalizing b with
  | last c =>
    cases b with
    | last d =>
      rw [← List.append_nil (written _ _), ← List.append_nil (written _ (last d))] at h
      rw [map, map, (Compound.tells_text hnil hnil h).1]
    | link d k rest =>
      rw [← List.append_nil (written _ (last c))] at h
      obtain ⟨-, hrest⟩ := Compound.tells_text hnil (k.endsCompound_symbol_append _) h
      cases k <;> cases hrest
  | link c k rest ih =>
    cases b with
    | last d =>
      rw [← List.append_nil (written _ (last d))] at h
      obtain ⟨-, hrest⟩ := Compound.tells_text (k.endsCompound_symbol_append _) hnil h
      cases k <;> cases hrest
    | link d k' rest' =>
      obtain ⟨hc, hrest⟩ := Compound.tells_text (k.endsCompound_symbol_append _)
        (k'.endsCompound_symbol_append _) h
      obtain ⟨hk, hwritten⟩ :=
        Combinator.tells_symbol rest.startsCompound_written rest'.startsCompound_written hrest
      rw [map, map, hc, ih hwritten, show k = k' from hk]

/-- Two selectors are always printed, and their texts are the same exactly if the selectors are the
same up to synonyms. -/
theorem texts_eq_iff {a b : Chain Compound} {v w : Value} (hv : a.IsCompoundSelector v)
    (hw : b.IsCompoundSelector w) (layout : Layout) (s : PrintState) :
    ∃ t u, v.render.exec layout s = (.ok t, s) ∧ w.render.exec layout s = (.ok u, s) ∧
      (t = u ↔ a.map Compound.normal = b.map Compound.normal) := by
  refine ⟨_, _, by rw [hv.render, Print.exec_pure], by rw [hw.render, Print.exec_pure], ?_⟩
  rw [String.ofList_inj]
  constructor
  · exact Chain.map_normal_eq_of_written_eq
  · intro h
    rw [← Chain.written_map Compound.text_normal a, h, Chain.written_map Compound.text_normal]

/-- Any element by name and without one, a part in the legacy spelling and a state, and a value that
is left out and the empty one. -/
theorem texts_eq_of_synonyms :
    let before : Label := ⟨"before", by decide⟩
    let em : Option Label := some ⟨"em", by decide⟩
    let title : Label := ⟨"title", by decide⟩
    let a : Chain Compound :=
      .link ⟨.typed, none, [.pseudoElement before true]⟩ .child
        (.last ⟨.typed, em, [.attributeTest title .equals none]⟩)
    let b : Chain Compound :=
      .link ⟨.universal, some .star, [.pseudoClass before none]⟩ .child
        (.last ⟨.unmarked, em, [.attributeTest title .equals (some "")]⟩)
    a.IsCompoundSelector a.compoundSelector ∧ b.IsCompoundSelector b.compoundSelector ∧
      ∃ t u, a.compoundSelector.render.exec .pretty {} = (.ok t, {}) ∧
        b.compoundSelector.render.exec .pretty {} = (.ok u, {}) ∧ t = u := by
  intro before em title a b
  have ha := a.isCompoundSelector_compoundSelector
  have hb := b.isCompoundSelector_compoundSelector
  obtain ⟨t, u, ht, hu, htu⟩ := texts_eq_iff ha hb .pretty {}
  exact ⟨ha, hb, t, u, ht, hu, htu.2 (by decide)⟩

end Stylesheet
