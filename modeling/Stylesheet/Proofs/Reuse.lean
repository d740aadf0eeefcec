import Stylesheet.Proofs.Constructs

/-!
# A printer used over and over

A tree without documents is printed the same whatever notes have been taken before: printing it adds
its notes to them and comes back to the level it started from, also if it fails (`Print.Steady`,
`Value.DocumentFree.steady`). A document forgets whatever was printed before, and leaves a printer
at the outermost level if no other document lies inside (`Value.level_exec_printDocument`).

A call (`Call`) asks a printer for a value or for a document. Where no document lies inside what is
asked for, each call gives what a new printer gives for it (`reused_printer`).
-/

namespace Stylesheet

/-- An action that adds to the notes, whatever they are, and comes back to the level it started
from. -/
def Print.Steady {α : Type} (layout : Layout) (act : Print α) : Prop :=
  ∀ s, act.exec layout s =
    let r := act.exec layout { level := s.level }
    (r.1, { level := s.level, notes := s.notes ++ r.2.notes })

/-- The comparison of a printer that has taken some notes with one that has not. The levels are the
same, and may be known. -/
def notesComparison (layout : Layout) (notes : List String) : Comparison (Option Int) where
  left := layout
  right := layout
  States l s t := s.level = t.level ∧ (∀ n ∈ l, s.level = n) ∧ s.notes = notes ++ t.notes
  Texts := Eq
  refl _ := rfl
  append ht hu := by rw [ht, hu]

variable {layout : Layout} {notes : List String}

theorem lays_notesComparison : (notesComparison layout notes).Lays := by
  refine Comparison.Lays.of_sameLayout rfl id And.left (fun message i s t h => ?_)
    (fun {i s t} h => ?_) (fun {i s t} h => ?_)
  · refine .ok rfl ⟨h.1, h.2.1, ?_⟩
    show s.notes ++ [message] = notes ++ (t.notes ++ [message])
    rw [h.2.2, List.append_assoc]
  · refine ⟨some (s.level + 1), ⟨?_, ?_, h.2.2⟩, fun s' t' h' => ⟨?_, fun n hn => ?_, h'.2.2⟩⟩
    · show s.level + 1 = t.level + 1
      rw [h.1]
    · rintro n ⟨⟩
      rfl
    · show s'.level - 1 = t'.level - 1
      rw [h'.1]
    · have hl : s'.level = s.level + 1 := h'.2.1 _ rfl
      have := h.2.1 n hn
      show s'.level - 1 = n
      omega
  · refine ⟨none, fun d s' t' h' => ⟨?_, nofun, h'.2.2⟩, ⟨h.1, nofun, h.2.2⟩, fun s' t' h' => ?_⟩
    · show s'.level + d = t'.level + d
      rw [h'.1]
    · exact ⟨h.1, h.2.1, h'.2.2⟩

/-- What two printers agree on, whatever notes one of them has taken, is steady. -/
theorem Print.steady_of_rel {α : Type} {act : Print α}
    (h : ∀ notes, (notesComparison layout notes).Rel Eq act act) : act.Steady layout := by
  intro s
  have hs := h s.notes (some s.level) s { level := s.level }
    ⟨rfl, fun n hn => by cases hn; rfl, (List.append_nil _).symm⟩
  change (notesComparison layout s.notes).Agree (some s.level) Eq (act.exec layout s)
    (act.exec layout { level := s.level }) at hs
  revert hs
  generalize act.exec layout s = p
  generalize act.exec layout { level := s.level } = q
  intro hs
  cases hs with
  | @ok a b s' t' hab hst =>
    obtain ⟨-, hl, hn⟩ := hst
    cases hab
    have := hl _ rfl
    show (Except.ok a, s') = (Except.ok a, _)
    cases s'
    simp_all
  | @error e s' t' hst =>
    obtain ⟨-, hl, hn⟩ := hst
    have := hl _ rfl
    show (Except.error e, s') = (Except.error e, _)
    cases s'
    simp_all

/-! ## Trees without documents, and documents -/

theorem Value.DocumentFree.sound {v : Value} (h : v.DocumentFree) :
    v.part.Sound (notesComparison layout notes).Prints ∧
      v.parts.Sound (notesComparison layout notes).Prints :=
  Comparison.sound_part (h.mono fun _ hn => ⟨fun _ => lays_notesComparison, fun hd => absurd hd hn⟩)

/-- A tree without documents is printed steadily. -/
theorem Value.DocumentFree.steady {v : Value} (h : v.DocumentFree) : v.render.Steady layout :=
  Print.steady_of_rel fun _ => h.sound.1.text

/-! ## Calls -/

namespace Value

/-- The values right inside a value: the items of a sequence, the fields of a node, and the fields
that an object has been given besides. -/
def inner : Value → List Value
  | atom _ => []
  | foreign _ => []
  | list vs => vs
  | tuple vs => vs
  | node n => n.fields
  | object _ added v => added.map Prod.snd ++ v.inner

/-- Whether a value is a document. -/
def isDocument : Value → Bool
  | node n => n.kind == .document
  | object _ _ v => v.isDocument
  | _ => false

theorem mem_inner_of_field? {v w : Value} {f : Field} (h : v.field? f = some w) : w ∈ v.inner := by
  fun_induction inner v with
  | case5 n => exact mem_fields_of_field? h
  | case6 key added v ih =>
    obtain h | h := field?_object_eq_some h
    · exact List.mem_append_right _ (ih h)
    · exact List.mem_append_left _ (List.mem_map.2 ⟨_, h, rfl⟩)
  | _ => cases h

/-- A value that is no document and has none inside is free of documents. -/
theorem documentFree_of_inner {v : Value} (hv : v.isDocument = false)
    (h : ∀ w ∈ v.inner, w.DocumentFree) : v.DocumentFree := by
  fun_induction inner v with
  | case1 a => exact .atom a
  | case2 label => exact .foreign label
  | case3 vs => exact .list h
  | case4 vs => exact .tuple h
  | case5 n => exact .node (by simpa [isDocument] using hv) h
  | case6 key added v ih =>
    refine .object (fun e he => ?_) (ih hv fun w hw => h w (List.mem_append_right _ hw))
    exact h e.2 (List.mem_append_left _ (List.mem_map.2 ⟨e, he, rfl⟩))

theorem partsAt_object {key : Option Nat} {added : List (Field × Value)} {v w : Value} {f : Field}
    (h : v.field? f = some w) : (object key added v).partsAt f = v.partsAt f := by
  rw [partsAt, partsAt, field?, h]
  rfl

/-- A document is printed as a document wherever it is found. -/
theorem render_of_isDocument {v : Value} (h : v.isDocument = true) :
    v.render = v.printDocument ∧
      ∀ f ∈ [Field.charsets, .imports, .fontFaces, .ruleSets], ∃ w, v.field? f = some w := by
  fun_induction isDocument v with
  | case1 n =>
    cases n with
    | document charsets imports fontFaces ruleSets =>
      refine ⟨by rw [printDocument_document, render], ?_⟩
      simp only [List.forall_mem_cons, List.not_mem_nil, false_implies, implies_true, and_true]
      exact ⟨⟨charsets, rfl⟩, ⟨imports, rfl⟩, ⟨fontFaces, rfl⟩, ⟨ruleSets, rfl⟩⟩
    | simple form _ _ _ => cases form <;> cases h
    | _ => cases h
  | case2 key added v ih =>
    obtain ⟨hr, hf⟩ := ih h
    refine ⟨?_, fun f hmem => ?_⟩
    · have hp (f : Field) (hmem : f ∈ [Field.charsets, .imports, .fontFaces, .ruleSets]) :
          (object key added v).partsAt f = v.partsAt f := by
        obtain ⟨w, hw⟩ := hf f hmem
        exact partsAt_object hw
      rw [render, hr, printDocument, printDocument, hp _ (by simp), hp _ (by simp), hp _ (by simp),
        hp _ (by simp)]
    · obtain ⟨w, hw⟩ := hf f hmem
      exact ⟨w, by rw [field?, hw]; rfl⟩
  | case3 => cases h

/-- Whatever was printed before a document is forgotten. -/
theorem exec_printDocument_eq (v : Value) (s : PrintState) :
    v.printDocument.exec layout s = v.printDocument.exec layout {} := by
  rw [printDocument, Render.document, Print.exec_bind, Print.exec_bind, Print.exec_reset,
    Print.exec_reset]

/-- A document without documents inside leaves a printer at the outermost level. -/
theorem level_exec_printDocument {v : Value} (h : ∀ w ∈ v.inner, w.DocumentFree) (s : PrintState) :
    (v.printDocument.exec layout s).2.level = 0 := by
  have hp (f : Field) (notes : List String) :
      (v.partsAt f).Sound (notesComparison layout notes).Prints := by
    unfold partsAt
    split
    · rename_i w hw; exact (h w (mem_inner_of_field? hw)).sound.2
    · exact nofun
  have hs : (do let ts ← Render.fragments (v.partsAt .charsets) (v.partsAt .imports)
                  (v.partsAt .fontFaces) (v.partsAt .ruleSets)
                Render.lines ts).Steady layout :=
    Print.steady_of_rel fun notes => Comparison.Rel.bind
      (Comparison.rel_fragments lays_notesComparison (hp _ notes) (hp _ notes) (hp _ notes)
        (hp _ notes)) fun _ _ hts => lays_notesComparison.lines hts
  rw [printDocument, Render.document, Print.exec_bind, Print.exec_reset]
  show (Print.exec _ layout {}).2.level = 0
  rw [hs {}]

end Value

/-- What a printer can be asked for: a value printed as what it is, or as a document. -/
inductive Call where
  | render (v : Value)
  | printDocument (v : Value)

namespace Call

/-- The value that a call is about. -/
def value : Call → Value
  | render v => v
  | printDocument v => v

/-- What a printer does when it is called. -/
def action : Call → Print String
  | render v => v.render
  | printDocument v => v.printDocument

/-- Whether a call makes a printer forget what it printed before: whether it is for a document. -/
def forgets : Call → Bool
  | render v => v.isDocument
  | printDocument _ => true

/-- Whether no document lies strictly inside the value that a call is about. -/
def IsFlat (c : Call) : Prop := ∀ w ∈ c.value.inner, w.DocumentFree

/-- The state of a new printer after some calls, each of which may have failed. -/
def stateAfter (layout : Layout) (calls : List Call) : PrintState :=
  calls.foldl (fun s c => (c.action.exec layout s).2) {}

theorem action_of_forgets {c : Call} (h : c.forgets = true) : c.action = c.value.printDocument := by
  cases c with
  | render v => exact (Value.render_of_isDocument h).1
  | printDocument v => rfl

/-- A call that forgets what was printed before gives what a new printer gives, and leaves it at the
outermost level. -/
theorem exec_of_forgets {c : Call} (h : c.forgets = true) (hc : c.IsFlat) (s : PrintState) :
    c.action.exec layout s = c.action.exec layout {} ∧ (c.action.exec layout s).2.level = 0 := by
  rw [action_of_forgets h]
  exact ⟨Value.exec_printDocument_eq _ s, Value.level_exec_printDocument hc s⟩

/-- Any other call adds to the notes, and comes back to the level it started from. -/
theorem steady_of_not_forgets {c : Call} (h : c.forgets = false) (hc : c.IsFlat) :
    c.action.Steady layout := by
  cases c with
  | render v => exact (Value.documentFree_of_inner h hc).steady
  | printDocument v => cases h

/-- One call leaves a printer at the outermost level if it was there before. -/
theorem level_exec {c : Call} (hc : c.IsFlat) {s : PrintState} (hs : s.level = 0) :
    (c.action.exec layout s).2.level = 0 := by
  cases h : c.forgets with
  | true => exact (exec_of_forgets h hc s).2
  | false =>
    rw [steady_of_not_forgets h hc s]
    exact hs

/-- Calls leave a printer at the outermost level, by induction on them. -/
theorem level_stateAfter {calls : List Call} (h : ∀ c ∈ calls, c.IsFlat) :
    (stateAfter layout calls).level = 0 := by
  unfold stateAfter
  suffices hs : ∀ s : PrintState, s.level = 0 →
      (calls.foldl (fun s c => (c.action.exec layout s).2) s).level = 0 from hs {} rfl
  induction calls with
  | nil => exact fun s hs => hs
  | cons c calls ih =>
    intro s hs
    rw [List.foldl_cons]
    exact ih (fun d hd => h d (List.mem_cons_of_mem c hd)) _
      (level_exec (h c List.mem_cons_self) hs)

end Call

/-- A printer that has been called before, whether those calls returned or failed, does at its next
call what a new printer does: it returns the same text or fails with the same fault, its level is
the outermost one, and its notes are those of the new printer, after its own notes from before
unless the call is for a document. -/
theorem reused_printer (layout : Layout) (before : List Call) (c : Call)
    (h : ∀ d ∈ before ++ [c], d.IsFlat) :
    let s := Call.stateAfter layout before
    let reused := c.action.exec layout s
    let fresh := c.action.exec layout {}
    reused.2.level = 0 ∧ reused.1 = fresh.1 ∧
      reused.2.notes = if c.forgets then fresh.2.notes else s.notes ++ fresh.2.notes := by
  intro s reused fresh
  have hs : s.level = 0 :=
    Call.level_stateAfter fun d hd => h d (List.mem_append_left _ hd)
  have hc : c.IsFlat := h c (by simp)
  refine ⟨Call.level_exec hc hs, ?_⟩
  cases hf : c.forgets with
  | true =>
    have : reused = fresh := (Call.exec_of_forgets hf hc s).1
    rw [this]
    exact ⟨rfl, rfl⟩
  | false =>
    have : reused = (fresh.1, { level := s.level, notes := s.notes ++ fresh.2.notes }) := by
      have hsteady : c.action.Steady layout := Call.steady_of_not_forgets hf hc
      have h := hsteady s
      rw [hs] at h ⊢
      exact h
    rw [this]
    exact ⟨rfl, rfl⟩

/-- A note, a failure in a selector, and the same note again. -/
theorem reused_printer_after_failure :
    let query : Value := .node (.documentQuery (.list []))
    let broken : Value := .node (.selector (.list [query, .absent]))
    let before : List Call := [.render query, .render broken]
    (∀ d ∈ before ++ [.render query], d.IsFlat) ∧
      (broken.render.exec .pretty {}).1 = .error (.unsupported .absent) ∧
      (query.render.exec .pretty (Call.stateAfter .pretty before)).2.notes =
        List.replicate 3 Render.emptyBodyNote := by
  intro query broken before
  have hl : (Value.list []).DocumentFree := .list nofun
  have hq : query.DocumentFree := .node (by decide) (List.forall_mem_singleton.2 hl)
  have hi : (Value.list [query, .absent]).DocumentFree :=
    .list (List.forall_mem_cons.2 ⟨hq, List.forall_mem_singleton.2 (.atom _)⟩)
  have hqf : (Call.render query).IsFlat := List.forall_mem_singleton.2 hl
  have hbf : (Call.render broken).IsFlat := List.forall_mem_singleton.2 hi
  have h : ∀ d ∈ before ++ [.render query], d.IsFlat :=
    List.forall_mem_cons.2 ⟨hqf, List.forall_mem_cons.2 ⟨hbf, List.forall_mem_singleton.2 hqf⟩⟩
  exact ⟨h, rfl, (reused_printer .pretty before (.render query) h).2.2.trans rfl⟩

end Stylesheet
