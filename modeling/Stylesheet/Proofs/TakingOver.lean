import Stylesheet.Proofs.Keeping

/-!
# What a new rule set does to the objects around it

A rule set is kept under a new address and then made the owner of the items of its declarations, one
after the other, up to the first that refuses an owner (`Store.refusal?`): a frozen node, a sequence
or an atom. One lemma says what is done to one item (`Build.change_assign_owner`), and an induction
on the items what is done to all of them (`Build.assign_owner_each`): an item that occurs twice, or
that another rule set owned before, is like any other. So the store after building a rule set is
known object by object, whether the rule set is returned or not (`Store.TakenOver`). What has an
owner then keeps having one along any run of a session that does not give owners itself
(`taken_over_stays_owned`).
-/

namespace Stylesheet

namespace Store

variable {store store' : Store}

/-- Whether a slot may be an item of a list of declarations: an object that is kept, or an atom.
Keywords are left out. They are made for fields of their own, but nothing keeps them from a list, and
there the program that is modelled would give one an owner, which `Store.assign` refuses because it
has no fields for it. Lists with keywords are therefore outside of what is proved here. -/
def IsItem (store : Store) : Slot → Prop
  | .atom (.keyword _) => False
  | .atom _ => True
  | .ref a => ∃ cell, store.get? a = some cell

/-- The items before the first one that refuses an owner. -/
def beforeRefusal (refuse : Slot → Option Fault) (items : List Slot) : List Slot :=
  items.takeWhile fun d => (refuse d).isNone

/-- What comes of building a rule set with some items for its declarations: an outcome and a
store. -/
structure TakenOver (store : Store) (declarations : Slot) (items : List Slot) (rule : Nat)
    (r : Except Fault Slot × Store) : Prop where
  /-- The rule set is returned if no item refuses it; otherwise there is the fault of the first that
  does. -/
  outcome : r.1 =
    match items.findSome? (store.refusal? .owner) with
    | none => .ok (.ref rule)
    | some e => .error e
  /-- The objects among the items before the first that refuses have the rule set for their owner.
  No other object and no other field has changed. -/
  old (a : Nat) (cell : Cell) : store.get? a = some cell →
    r.2.get? a = some (if .ref a ∈ beforeRefusal (store.refusal? .owner) items
      then cell.put .owner (.ref rule) else cell)
  /-- The rule set is a new object with these declarations, also if it is not returned. -/
  new : store.get? rule = none ∧
    ∃ fields, r.2.get? rule = some (.node .ruleSet fields) ∧
      fields.get? .declarations = some declarations
  /-- All other new objects are the empty lists for fields that are not given. -/
  others (a : Nat) (cell : Cell) : store.get? a = none → a ≠ rule → r.2.get? a = some cell →
    cell = .list []

/-- An item refuses a field or accepts it as it did, when objects are kept in addition. -/
theorem refusal?_mono (h : ∀ a cell, store.get? a = some cell → store'.get? a = some cell)
    {d : Slot} (hd : store.IsItem d) (f : Field) : store'.refusal? f d = store.refusal? f d := by
  cases d with
  | atom a => rfl
  | ref a =>
    obtain ⟨cell, ha⟩ := hd
    simp only [refusal?, ha, h a cell ha]

theorem items?_mono (h : ∀ a cell, store.get? a = some cell → store'.get? a = some cell)
    {s : Slot} {items : List Slot} (hs : store.items? s = some items) :
    store'.items? s = some items := by
  cases s with
  | atom a => exact hs
  | ref a =>
    simp only [items?] at hs ⊢
    cases ha : store.get? a with
    | none => rw [ha] at hs; cases hs
    | some cell =>
      rw [ha] at hs
      rw [h a cell ha]
      exact hs

/-- Giving a field changes no refusal. -/
theorem refusal?_update_put {b : Nat} {cell : Cell} (hb : store.get? b = some cell) (f g : Field)
    (s d : Slot) : (store.update b (cell.put f s)).refusal? g d = store.refusal? g d := by
  cases d with
  | atom a => rfl
  | ref a =>
    by_cases hab : a = b
    · subst hab
      simp only [refusal?, get?_update_self _ _ (lt_next_of_get? hb), hb, Cell.refusal?_put]
    · simp only [refusal?, get?_update_of_ne _ _ hab]

/-- What is new after adding empty lists is an empty list. -/
theorem Grows.eq_of_new (h : store.Grows store') {a : Nat} {cell : Cell}
    (ha : store.get? a = none) (ha' : store'.get? a = some cell) : cell = .list [] := by
  induction h with
  | refl =>
    rw [ha] at ha'
    cases ha'
  | @insert store store' hg ih =>
    by_cases hnext : a = store.next
    · have hself : (store.insert (.list [])).get? a = some (.list []) := by
        rw [hnext, get?_insert_self]
      rw [hg.get? hself] at ha'
      exact (Option.some.inj ha').symm
    · exact ih (by rw [get?_insert, if_neg hnext, ha]) ha'

end Store

/-! ## Items -/

namespace Build

open Store (beforeRefusal)

variable {store store' : Store}

theorem bind_of_eq_error {α β : Type} {act : Build α} {f : α → Build β} {e : Fault}
    {store₁ : Store} (h : act store = (.error e, store₁)) :
    (act >>= f) store = (.error e, store₁) := by
  simp only [bind, ExceptT.bind, ExceptT.mk, StateT.bind, h]
  rfl

/-- An action after which something is returned leaves the store that it leaves by itself. -/
theorem bind_pure_eq {α β : Type} (act : Build α) (b : β) (store : Store) :
    (act >>= fun _ => pure b) store = ((act store).1.map fun _ => b, (act store).2) := by
  rcases h : act store with ⟨e | a, store₁⟩
  · rw [bind_of_eq_error h]
    rfl
  · rw [bind_of_eq_ok h]
    rfl

/-- One item is given an owner, or refuses it. -/
theorem change_assign_owner (store : Store) (d owner : Slot) :
    (∃ e, store.refusal? .owner d = some e ∧
      change (fun store => store.assign d .owner owner) store = (.error e, store)) ∨
    ∃ a cell, d = .ref a ∧ store.get? a = some cell ∧ store.refusal? .owner d = none ∧
      change (fun store => store.assign d .owner owner) store =
        (.ok (), store.update a (cell.put .owner owner)) := by
  rw [change_eq]
  rcases store.assign_cases d .owner owner with ⟨e, he, herror⟩ | ⟨a, cell, hd, ha, hnone, hok⟩
  · exact .inl ⟨e, he, by rw [herror]⟩
  · exact .inr ⟨a, cell, hd, ha, hnone, by rw [hok]⟩

/-- Items are given an owner one after another, up to the first that refuses. They may be given it
in any store in which they refuse as they do. -/
theorem assign_owner_each {refuse : Slot → Option Fault} {items : List Slot}
    (h : ∀ d ∈ items, store.refusal? .owner d = refuse d) (owner : Slot) :
    let r := items.forM (fun d => change fun store => store.assign d .owner owner) store
    r.1 = (match items.findSome? refuse with
      | none => .ok ()
      | some e => .error e) ∧
    ∀ a, r.2.get? a = (store.get? a).map fun cell =>
      if .ref a ∈ beforeRefusal refuse items then cell.put .owner owner else cell := by
  induction items generalizing store with
  | nil =>
    refine ⟨rfl, fun a => ?_⟩
    show store.get? a = _
    simp [beforeRefusal]
  | cons d items ih =>
    obtain ⟨hd, hitems⟩ := List.forall_mem_cons.1 h
    rw [List.forM]
    rcases change_assign_owner store d owner with
      ⟨e, he, hchange⟩ | ⟨b, cell, rfl, hb, hnone, hchange⟩
    · rw [bind_of_eq_error hchange]
      rw [he] at hd
      simp [beforeRefusal, ← hd]
    · rw [bind_of_eq_ok hchange]
      rw [hnone] at hd
      have hupdate := Store.refusal?_update_put hb .owner .owner owner
      obtain ⟨hout, hget⟩ := ih fun d hmem => (hupdate d).trans (hitems d hmem)
      refine ⟨?_, fun a => ?_⟩
      · rw [hout, List.findSome?_cons, ← hd]
      · have hbefore : beforeRefusal refuse (.ref b :: items) =
            .ref b :: beforeRefusal refuse items := by
          simp [beforeRefusal, ← hd]
        rw [hget, hbefore]
        by_cases hab : a = b
        · subst hab
          simp [Store.get?_update_self _ _ (Store.lt_next_of_get? hb), hb]
        · simp [Store.get?_update_of_ne _ _ hab, hab]

/-- What becomes the owner of some declarations is given to their items one after another. -/
theorem claim_each {refuse : Slot → Option Fault} {declarations : Slot} {items : List Slot}
    (hitems : store.items? declarations = some items)
    (h : ∀ d ∈ items, store.refusal? .owner d = refuse d) (owner : Slot) :
    let r := claim owner declarations store
    r.1 = (match items.findSome? refuse with
      | none => .ok ()
      | some e => .error e) ∧
    ∀ a, r.2.get? a = (store.get? a).map fun cell =>
      if .ref a ∈ beforeRefusal refuse items then cell.put .owner owner else cell := by
  have hclaim : claim owner declarations store =
      items.forM (fun d => change fun store => store.assign d .owner owner) store :=
    bind_of_eq_ok (items_of_items? hitems)
  rw [hclaim]
  exact assign_owner_each h owner

/-! ## Rule sets -/

theorem forM_checkField {kind : Kind} {given : List (Field × Slot)}
    (h : ∀ e ∈ given, e.1 ∈ kind.contents) :
    given.forM (fun e => checkField kind e.1) store = (.ok (), store) := by
  induction given with
  | nil => rfl
  | cons e given ih =>
    obtain ⟨he, hgiven⟩ := List.forall_mem_cons.1 h
    have hany : (kind.schema.any fun e' => e'.1 = e.1) = true := by
      obtain ⟨hmem, -⟩ := List.mem_filter.1 he
      obtain ⟨e', he', hname⟩ := List.mem_map.1 hmem
      exact List.any_eq_true.2 ⟨e', he', by simpa using hname⟩
    have hcheck : checkField kind e.1 store = (.ok (), store) := by
      rw [checkField, if_pos hany]
      rfl
    rw [List.forM, bind_of_eq_ok hcheck]
    exact ih hgiven

/-- Fields that have a default can all be filled. -/
theorem exists_of_defaults (kind : Kind) (given : List (Field × Slot))
    {es : List (Field × Default)} (h : ∀ e ∈ es, e.2 ≠ .required) (store : Store) :
    ∃ entries store',
      (es.mapM fun e => field kind given e.1 e.2) store = (.ok entries, store') := by
  induction es generalizing store with
  | nil => exact ⟨[], store, rfl⟩
  | cons e es ih =>
    obtain ⟨he, hes⟩ := List.forall_mem_cons.1 h
    obtain ⟨entry, store₁, hentry⟩ :
        ∃ entry store₁, field kind given e.1 e.2 store = (.ok entry, store₁) := by
      unfold field
      cases given.lookup e.1 with
      | some s => exact ⟨_, _, rfl⟩
      | none =>
        cases hd : e.2 with
        | required => exact absurd hd he
        | atom a => exact ⟨_, _, rfl⟩
        | emptyList => exact ⟨_, _, rfl⟩
    obtain ⟨entries, store₂, hentries⟩ := ih hes store₁
    refine ⟨entry :: entries, store₂, ?_⟩
    rw [List.mapM_cons, bind_of_eq_ok hentry, bind_of_eq_ok hentries]
    rfl

/-- A rule set is kept after the lists for the fields that are not given, and then made the owner of
its declarations. -/
theorem node_ruleSet {given : List (Field × Slot)} {declarations : Slot}
    (hgiven : ∀ e ∈ given, e.1 ∈ Kind.ruleSet.contents)
    (hd : given.lookup .declarations = some declarations) (store : Store) :
    ∃ (store₁ : Store) (fields : Record), store.Grows store₁ ∧
      fields.get? .declarations = some declarations ∧
      node .ruleSet given store =
        (do claim (.ref store₁.next) declarations
            return Slot.ref store₁.next : Build Slot) (store₁.insert (.node .ruleSet fields)) := by
  have hdefaults : ∀ e ∈ Kind.ruleSet.schema, e.2 ≠ .required := by decide
  obtain ⟨entries, store₁, hentries⟩ := exists_of_defaults .ruleSet given hdefaults store
  obtain ⟨hgrows, hfills⟩ := fills_of_fields hentries
  have hfield : (Record.mk entries).get? .declarations = some declarations := by
    obtain ⟨s, hs, hgiven | ⟨hnone, -⟩⟩ := hfills .declarations .emptyList rfl
    · rw [hd] at hgiven
      exact hs.trans hgiven.symm
    · rw [hd] at hnone
      cases hnone
  refine ⟨store₁, ⟨entries⟩, hgrows, hfield, ?_⟩
  have htake : takeOver .ruleSet (.ref store₁.next) ⟨entries⟩ =
      claim (.ref store₁.next) declarations := by
    unfold takeOver
    rw [hfield]
  rw [node, bind_of_eq_ok (forM_checkField hgiven), bind_of_eq_ok hentries, ← htake]
  rfl

/-- Building a rule set takes over the items of its declarations, up to the first that refuses. -/
theorem exists_takenOver {given : List (Field × Slot)} {declarations : Slot} {items : List Slot}
    (hgiven : ∀ e ∈ given, e.1 ∈ Kind.ruleSet.contents)
    (hd : given.lookup .declarations = some declarations)
    (hitems : store.items? declarations = some items) (h : ∀ d ∈ items, store.IsItem d) :
    ∃ rule, store.TakenOver declarations items rule (node .ruleSet given store) := by
  obtain ⟨store₁, fields, hgrows, hfield, hnode⟩ := node_ruleSet hgiven hd store
  have hold : ∀ a cell, store.get? a = some cell →
      (store₁.insert (.node .ruleSet fields)).get? a = some cell := fun a cell ha =>
    Store.get?_insert_of_get? (hgrows.get? ha) _
  obtain ⟨hout, hget⟩ := claim_each (Store.items?_mono hold hitems)
    (fun d hmem => Store.refusal?_mono hold (h d hmem) .owner) (.ref store₁.next)
  have hrule : store.get? store₁.next = none := by
    cases ha : store.get? store₁.next with
    | none => rfl
    | some cell => exact absurd (Store.lt_next_of_get? (hgrows.get? ha)) (lt_irrefl _)
  -- What is new is no item, so it is not given an owner.
  have hnew : ∀ a, store.get? a = none →
      (node .ruleSet given store).2.get? a = (store₁.insert (.node .ruleSet fields)).get? a := by
    intro a ha
    have hmem : .ref a ∉ beforeRefusal (store.refusal? .owner) items := by
      intro hmem
      obtain ⟨cell, hcell⟩ := h _ ((List.takeWhile_sublist _).subset hmem)
      rw [ha] at hcell
      cases hcell
    rw [hnode, bind_pure_eq, hget a]
    simp [hmem]
  refine ⟨store₁.next, ?_, fun a cell ha => ?_, ⟨hrule, fields, ?_, hfield⟩,
    fun a cell ha hne hcell => ?_⟩
  · rw [hnode, bind_pure_eq, hout]
    cases items.findSome? (store.refusal? .owner) <;> rfl
  · rw [hnode, bind_pure_eq, hget a, hold a cell ha, Option.map_some]
  · rw [hnew _ hrule]
    exact Store.get?_insert_self _ _
  · rw [hnew a ha, Store.get?_insert, if_neg hne] at hcell
    exact hgrows.eq_of_new ha hcell

end Build

/-- Building a rule set returns it exactly if all its declarations can be given an owner, and
otherwise fails for the first that cannot; either way the objects before that one, and no others,
have the rule set for their owner, and nothing else has changed. Along a run of a session that gives
no owners by itself, what has an owner after some steps has one after all later ones. -/
theorem taken_over_stays_owned :
    (∀ (store : Store) (given : List (Field × Slot)) (declarations : Slot) (items : List Slot),
      (∀ e ∈ given, e.1 ∈ Kind.ruleSet.contents) → given.lookup .declarations = some declarations →
      store.items? declarations = some items → (∀ d ∈ items, store.IsItem d) →
      ∃ rule, store.TakenOver declarations items rule (Build.node .ruleSet given store)) ∧
    ∀ (session : Session) (steps : List Step),
      (∀ s ∈ steps, ∀ target content, s ≠ .assign target .owner content) →
      (session :: (session.run steps).map Prod.snd).Pairwise Session.KeepsOwners :=
  ⟨fun _ _ _ _ => Build.exists_takenOver, fun session _ => session.pairwise_run⟩

/-- A rule set with one declaration twice, one that another rule set owns, and a term among them. -/
theorem taken_over_stays_owned_halfway :
    let term : Cell := .node .ident ⟨[(.value, .atom (.text "z"))]⟩
    let free : Cell := .node .declaration ⟨[(.property, .atom (.text "x"))]⟩
    let owned : Cell := .node .declaration ⟨[(.property, .atom (.text "y")), (.owner, .ref 3)]⟩
    let rule : Cell := .node .ruleSet ⟨[(.declarations, .ref 2)]⟩
    let items : List Slot := [.ref 0, .ref 1, .ref 0, .ref 4, .ref 5]
    let store : Store :=
      ⟨#[free, owned, .list [.ref 1], rule, term, .foreign "f" {}, .list items], 0⟩
    let r := Build.node .ruleSet [(.declarations, .ref 6)] store
    let session : Session := { store := r.2, names := [("d", .ref 1)], layout := .pretty }
    let steps : List Step := [.assign "d" .important (.atom (.bool true)), .render (.named "d"),
      .define "again" (.node .ruleSet [(.declarations, .list [.named "d", .atom .absent])])]
    (∀ d ∈ items, store.IsItem d) ∧ r.1 = .error (.frozen .ident .owner) ∧
      (∃ a, r.2.get? 0 = some (free.put .owner (.ref a)) ∧
        r.2.get? 1 = some (owned.put .owner (.ref a)) ∧ r.2.get? 5 = some (.foreign "f" {})) ∧
      (∀ s ∈ steps, ∀ target content, s ≠ .assign target .owner content) ∧
      (session :: (session.run steps).map Prod.snd).Pairwise Session.KeepsOwners := by
  intro term free owned rule items store r session steps
  have hitems : ∀ d ∈ items, store.IsItem d := by
    simp only [items, List.forall_mem_cons, List.not_mem_nil, false_implies, implies_true, and_true]
    exact ⟨⟨_, rfl⟩, ⟨_, rfl⟩, ⟨_, rfl⟩, ⟨_, rfl⟩, ⟨_, rfl⟩⟩
  have hsteps : ∀ s ∈ steps, ∀ target content, s ≠ .assign target .owner content := by
    simp [steps]
  obtain ⟨a, h⟩ := taken_over_stays_owned.1 store [(.declarations, .ref 6)] (.ref 6) items
    (by decide) rfl rfl hitems
  refine ⟨hitems, h.outcome, ⟨a, ?_, ?_, ?_⟩, hsteps, taken_over_stays_owned.2 session steps hsteps⟩
  · exact h.old 0 free rfl
  · exact h.old 1 owned rfl
  · exact h.old 5 (.foreign "f" {}) rfl

end Stylesheet
