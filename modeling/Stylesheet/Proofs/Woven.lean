import Stylesheet.Proofs.Blanks
import Stylesheet.Proofs.Decoding
import Stylesheet.Proofs.Visits

/-!
# Texts made of other texts

A text is woven from the texts of some values (`Woven`) if it holds these one after another and, in
front of them, between them and behind them, only texts that nothing is printed for. Such a text is
plain, so that no document condition starts in it (`Text.Starts`), or it is written as the layout or
a field has it (`Verbatim`). Blanks at the ends of a woven text may be lost. Several texts that are
woven one by one are `Fragments`; joining them gives a woven text again.
-/

namespace Stylesheet

/-! ## Where document conditions start -/

namespace Text

/-- How often `@document` stands among some characters. -/
def starts : List Char → Nat
  | [] => 0
  | c :: cs => starts cs + if "@document".toList.isPrefixOf (c :: cs) then 1 else 0

/-- In a text `@document` stands `n` times, blanks aside, and it is cut off nowhere at the end: the
text has no other share in what stands in a longer one. -/
def Starts (n : Nat) (s : String) : Prop := ∀ cs, starts (ink s ++ cs) = starts cs + n

variable {m n : Nat} {s t : String}

theorem Starts.eq (h : Starts n s) : starts (ink s) = n := by
  have hnil := h []
  rw [List.append_nil] at hnil
  rw [hnil]
  exact Nat.zero_add n

theorem Starts.append (hs : Starts m s) (ht : Starts n t) : Starts (m + n) (s ++ t) := by
  intro cs
  rw [ink_append, List.append_assoc, hs, ht]
  omega

theorem Starts.trim (h : Starts n s) : Starts n (Text.trim s) := by
  intro cs
  rw [ink_trim]
  exact h cs

theorem starts_of_not_mem (h : '@' ∉ s.toList) : Starts 0 s := by
  have hink : ∀ cs : List Char, '@' ∉ cs → ∀ ds, starts (cs ++ ds) = starts ds := by
    intro cs hcs ds
    induction cs with
    | nil => rfl
    | cons c cs ih =>
      rw [List.mem_cons, not_or] at hcs
      obtain ⟨hc, hcs⟩ := hcs
      have hne : ('@' == c) = false := by simpa using hc
      rw [List.cons_append, starts, ih hcs]
      simp [List.isPrefixOf, hne]
  exact hink _ fun hmem => h (List.mem_of_mem_filter hmem)

end Text

open Text (Starts starts_of_not_mem)

theorem starts_identifier (s : String) : Starts 0 (Escape.Identifier.escape s) := by
  refine starts_of_not_mem fun h => ?_
  rw [Escape.Identifier.toList_escape] at h
  rcases Escape.Identifier.isIdentifierChar_of_mem_encode h with h | h
  · exact absurd h (by decide)
  · exact absurd h (by decide)

theorem starts_symbol (c : Combinator) : Starts 0 c.symbol := by
  cases c <;> exact starts_of_not_mem (by decide)

theorem starts_symbol? {t : AttributeTest} {s : String} (h : t.symbol? = some s) : Starts 0 s := by
  cases t <;> cases h <;> exact starts_of_not_mem (by decide)

/-! ## Texts that are written as they are -/

/-- The ways in which a construct writes what a field holds without printing it. -/
inductive Value.Written (u : Value) : String → Prop
  | display : Written u u.display
  | numeral : Written u u.numeral
  | spelled {a : Atom} {t : String} (hu : u.contents = .atom a) (h : a.text? = some t) :
      Written u t
  | quoted {t : String} (h : u.text? = some t) : Written u (Escape.Quoted.escape t)

/-- The fields whose contents may be written without being printed. -/
def Field.written : List Field :=
  [.parent, .name, .value, .modifier, .operator, .dimension, .amount, .unit, .params]

/-- What some values hold in fields that may be written. -/
def writtenIn (vs : List Value) : List Value := vs.flatMap fun v => Field.written.filterMap v.field?

theorem mem_writtenIn {vs : List Value} {v u : Value} {f : Field} (hv : v ∈ vs)
    (hu : v.field? f = some u) (hf : f ∈ Field.written) : u ∈ writtenIn vs :=
  List.mem_flatMap.2 ⟨v, hv, List.mem_filterMap.2 ⟨f, hf, hu⟩⟩

/-- A text that the layout makes lines with, or that one of some values is or has in a field. -/
inductive Verbatim (layout : Layout) (vs : List Value) : String → Prop
  | indentation {n : Int} {t : String} (h : layout.indentation n = .ok t) : Verbatim layout vs t
  | lineBreak {t : String} (h : layout.joint = .ok t) : Verbatim layout vs t
  | text {v : Value} {t : String} (hv : v ∈ vs) (h : v.text? = some t) : Verbatim layout vs t
  | field {u : Value} {t : String} (hu : u ∈ writtenIn vs) (h : u.Written t) : Verbatim layout vs t

/-- A text that is made of the texts of some values, in their order, and of texts that nothing is
printed for. Such texts are plain, or the values `vs` have them. -/
inductive Woven (layout : Layout) (vs : List Value) : List Value → String → Prop
  | plain {t : String} (h : Starts 0 t) : Woven layout vs [] t
  | verbatim {t : String} (h : Verbatim layout vs t) : Woven layout vs [] t
  | printed {w : Value} {s s' : PrintState} {t : String}
      (h : w.render.exec layout s = (.ok t, s')) : Woven layout vs [w] t
  /-- What is no node is not printed; there may be a text for it all the same. -/
  | unprinted {w : Value} {t : String} (hw : ∀ n, w.contents ≠ .node n)
      (h : Woven layout vs [] t) : Woven layout vs [w] t
  | append {us ws : List Value} {s t : String} (hs : Woven layout vs us s)
      (ht : Woven layout vs ws t) : Woven layout vs (us ++ ws) (s ++ t)
  | trim {ws : List Value} {t : String} (h : Woven layout vs ws t) :
      Woven layout vs ws (Text.trim t)

/-- Texts that are woven, one after the other, from the texts of some values. -/
inductive Fragments (layout : Layout) (vs : List Value) : List Value → List String → Prop
  | nil : Fragments layout vs [] []
  | cons {us ws : List Value} {t : String} {ts : List String} (h : Woven layout vs us t)
      (hs : Fragments layout vs ws ts) : Fragments layout vs (us ++ ws) (t :: ts)
  /-- What is no node may have no text at all. -/
  | skip {w : Value} {ws : List Value} {ts : List String} (hw : ∀ n, w.contents ≠ .node n)
      (hs : Fragments layout vs ws ts) : Fragments layout vs (w :: ws) ts

variable {layout : Layout} {vs us ws : List Value} {w : Value} {s t : String} {ts : List String}

namespace Woven

/-- A text without an at sign is plain. -/
theorem of_not_mem (h : '@' ∉ t.toList) : Woven layout vs [] t :=
  .plain (starts_of_not_mem h)

theorem behind (hs : Woven layout vs [] s) (ht : Woven layout vs ws t) :
    Woven layout vs ws (s ++ t) := hs.append ht

theorem ahead (hs : Woven layout vs ws s) (ht : Woven layout vs [] t) :
    Woven layout vs ws (s ++ t) := by
  simpa using hs.append ht

theorem after (ht : Woven layout vs ws t) (h : '@' ∉ s.toList) : Woven layout vs ws (s ++ t) :=
  (of_not_mem h).behind ht

theorem before (hs : Woven layout vs ws s) (h : '@' ∉ t.toList) : Woven layout vs ws (s ++ t) :=
  hs.ahead (of_not_mem h)

/-- What is not printed may have no text. -/
theorem skip (hw : ∀ n, w.contents ≠ .node n) (h : Woven layout vs ws t) :
    Woven layout vs (w :: ws) t := by
  have hempty : Woven layout vs [w] "" := .unprinted hw (.of_not_mem (by simp))
  simpa using hempty.append h

/-- What a field holds is left out or written as it is. -/
theorem orEmpty {u : Value} (hu : u ∈ writtenIn vs) : Woven layout vs [] u.orEmpty := by
  unfold Value.orEmpty
  split
  · exact of_not_mem (by simp)
  · exact .verbatim (.field hu .display)

end Woven

namespace Fragments

theorem append {us' : List String} (hs : Fragments layout vs us us')
    (ht : Fragments layout vs ws ts) : Fragments layout vs (us ++ ws) (us' ++ ts) := by
  induction hs with
  | nil => exact ht
  | cons h _ ih =>
    rw [List.append_assoc]
    exact .cons h ih
  | skip hw _ ih => exact .skip hw ih

theorem join (h : Fragments layout vs ws ts) : Woven layout vs ws (String.join ts) := by
  induction h with
  | nil => exact .of_not_mem (by simp)
  | cons h _ ih =>
    rw [String.join_cons]
    exact h.append ih
  | skip hw _ ih => exact ih.skip hw

theorem intercalate {separator : String} (hseparator : Woven layout vs [] separator)
    (h : Fragments layout vs ws ts) : Woven layout vs ws (separator.intercalate ts) := by
  induction h with
  | nil => exact .of_not_mem (by simp)
  | @cons us ws t ts h _ ih =>
    cases ts with
    | nil => simpa using h.append ih
    | cons u ts =>
      rw [String.intercalate_cons_cons]
      exact (h.ahead hseparator).append ih
  | skip hw _ ih => exact ih.skip hw

/-- Empty fragments may be left out between the others: nothing is lost with them. -/
theorem intercalate_filter {separator : String} (hseparator : Woven layout vs [] separator)
    (h : Fragments layout vs ws ts) :
    Woven layout vs ws (separator.intercalate (ts.filter fun t => t ≠ "")) := by
  induction h with
  | nil => exact .of_not_mem (by simp)
  | skip hw _ ih => exact ih.skip hw
  | @cons us ws t ts h _ ih =>
    by_cases ht : t = ""
    · rw [List.filter_cons_of_neg (by simpa using ht)]
      subst ht
      simpa using h.append ih
    · rw [List.filter_cons_of_pos (by simpa using ht)]
      cases hts : ts.filter fun t => t ≠ "" with
      | nil =>
        rw [hts] at ih
        simpa using h.append ih
      | cons u rest =>
        rw [String.intercalate_cons_cons]
        rw [hts] at ih
        exact (h.ahead hseparator).append ih

end Fragments

end Stylesheet
