import Stylesheet.Proofs.Bodies
import Stylesheet.Proofs.Grouping
import Stylesheet.Store.Blueprint

/-!
# Which declarations are owned

A rule set takes over the declarations that it is built with, and nothing else does: declarations
that are added to its list later have no owner from it, and a font description takes over none. So
whether a declaration is owned depends on what has been built with it, and not on where it stands.

`Built store claimed` says that a store comes from building declarations, rule sets and font
descriptions and from adding declarations to their lists, in any order and with any sharing, where
`claimed` are the declarations that have been taken over on the way. One lemma for each step
(`Store.Tidy.insert`, `Store.Tidy.claims`, `Store.Tidy.push`) gives what holds in all such stores
(`Built.tidy`): the declarations with an owner are those of `claimed`. From this follows what is
printed for a body, and when it is what it is meant to be (`printed_body_by_owner`).
-/

namespace Stylesheet

namespace Store

variable {store store' : Store} {claimed : List Nat}

/-- Whether a declaration is kept at an address. -/
def IsDeclaration (store : Store) (d : Nat) : Prop :=
  ∃ fields, store.get? d = some (.node .declaration fields)

/-- Whether a slot refers to the list of some declarations. -/
def IsBody (store : Store) (s : Slot) (ds : List Nat) : Prop :=
  ∃ a, s = .ref a ∧ store.get? a = some (.list (ds.map .ref)) ∧ ∀ d ∈ ds, store.IsDeclaration d

theorem lt_next_of_get? {a : Nat} {cell : Cell} (h : store.get? a = some cell) :
    a < store.next := by
  simp only [get?, next] at *
  grind

theorem get?_insert (cell : Cell) (a : Nat) :
    (store.insert cell).get? a = if a = store.next then some cell else store.get? a := by
  simp only [get?, insert, next]
  grind

theorem get?_insert_of_get? {a : Nat} {c : Cell} (h : store.get? a = some c) (cell : Cell) :
    (store.insert cell).get? a = some c := by
  rw [get?_insert_lt _ _ (lt_next_of_get? h), h]

/-- The list that a field of a node refers to. -/
theorem listAt_of_get? {a b : Nat} {kind : Kind} {fields : Record} {f : Field} {items : List Slot}
    (ha : store.get? a = some (.node kind fields))
    (hf : fields.get? (kind.fieldRead f) = some (.ref b))
    (hb : store.get? b = some (.list items)) : store.listAt (.ref a) f = .ok b := by
  simp only [listAt, read, ha, hf, hb, bind, Except.bind]

theorem IsBody.isDeclaration {s : Slot} {ds : List Nat} (h : store.IsBody s ds) :
    ∀ d ∈ ds, store.IsDeclaration d := by
  obtain ⟨-, -, -, hds⟩ := h
  exact hds

/-- A body is still one when objects are kept in addition. -/
theorem IsBody.mono {s : Slot} {ds : List Nat} (h : store.IsBody s ds)
    (hs : ∀ a cell, store.get? a = some cell → store'.get? a = some cell) : store'.IsBody s ds := by
  obtain ⟨a, rfl, ha, hds⟩ := h
  refine ⟨a, rfl, hs a _ ha, fun d hd => ?_⟩
  obtain ⟨fields, hfields⟩ := hds d hd
  exact ⟨fields, hs d _ hfields⟩

/-! ## Invariants -/

/-- What holds of the stores that are built from declarations, rule sets and font descriptions,
where `claimed` are the declarations that have been taken over. -/
structure Tidy (store : Store) (claimed : List Nat) : Prop where
  /-- There are no documents. -/
  documents (a : Nat) (kind : Kind) (fields : Record) :
    store.get? a = some (.node kind fields) → kind ≠ .document
  /-- The declarations with an owner are those that have been taken over. -/
  owned (d : Nat) (fields : Record) :
    store.get? d = some (.node .declaration fields) → (isOwned fields = true ↔ d ∈ claimed)
  /-- Rule sets and font descriptions have lists of declarations. -/
  bodies (a : Nat) (kind : Kind) (fields : Record) :
    store.get? a = some (.node kind fields) → kind = .ruleSet ∨ kind = .fontFace →
    ∃ s ds, fields.get? .declarations = some s ∧ store.IsBody s ds
  /-- What has been taken over is kept in the store. -/
  old (d : Nat) : d ∈ claimed → d < store.next

/-- Keeping a new object. -/
theorem Tidy.insert (h : store.Tidy claimed) {cell : Cell} {claimed' : List Nat}
    (hdocument : ∀ kind fields, cell = .node kind fields → kind ≠ .document)
    (hbody : ∀ kind fields, cell = .node kind fields → kind = .ruleSet ∨ kind = .fontFace →
      ∃ s ds, fields.get? .declarations = some s ∧ store.IsBody s ds)
    (hclaimed : ∀ d, d ∈ claimed' ↔ d ∈ claimed ∨
      d = store.next ∧ ∃ fields, cell = .node .declaration fields ∧ isOwned fields = true) :
    (store.insert cell).Tidy claimed' where
  documents a kind fields ha := by
    rw [get?_insert] at ha
    split at ha
    · exact hdocument kind fields (Option.some.inj ha)
    · exact h.documents a kind fields ha
  owned d fields hd := by
    rw [hclaimed]
    rw [get?_insert] at hd
    split at hd
    case isTrue hnew =>
      cases Option.some.inj hd
      constructor
      · intro ho
        exact .inr ⟨hnew, fields, rfl, ho⟩
      · rintro (hmem | ⟨-, _, ⟨⟩, ho⟩)
        · have := h.old d hmem
          omega
        · exact ho
    case isFalse hold =>
      simp [hold, h.owned d fields hd]
  bodies a kind fields ha hk := by
    have hmono : ∀ b c, store.get? b = some c → (store.insert cell).get? b = some c :=
      fun _ _ hb => get?_insert_of_get? hb cell
    rw [get?_insert] at ha
    split at ha
    · obtain ⟨s, ds, hs, hds⟩ := hbody kind fields (Option.some.inj ha) hk
      exact ⟨s, ds, hs, hds.mono hmono⟩
    · obtain ⟨s, ds, hs, hds⟩ := h.bodies a kind fields ha hk
      exact ⟨s, ds, hs, hds.mono hmono⟩
  old d hd := by
    rw [next_insert]
    rcases (hclaimed d).1 hd with hd | ⟨rfl, -⟩
    · exact Nat.lt_succ_of_lt (h.old d hd)
    · exact Nat.lt_succ_self _

/-- Keeping an object that has no part in who owns what. -/
theorem Tidy.insert_plain (h : store.Tidy claimed) {cell : Cell}
    (hcell : ∀ kind fields, cell = .node kind fields → kind.isFrozen = true) :
    (store.insert cell).Tidy claimed := by
  refine h.insert (fun kind fields hc => ?_) (fun kind fields hc hk => ?_) fun d => ?_
  · rintro rfl
    cases hcell _ _ hc
  · rcases hk with rfl | rfl <;> cases hcell _ _ hc
  · refine ⟨.inl, ?_⟩
    rintro (hd | ⟨-, fields, hc, -⟩)
    · exact hd
    · cases hcell _ _ hc

/-- Keeping a rule set or a font description with its list of declarations. -/
theorem Tidy.insert_body (h : store.Tidy claimed) {kind : Kind} {fields : Record} {s : Slot}
    {ds : List Nat} (hk : kind = .ruleSet ∨ kind = .fontFace)
    (hs : fields.get? .declarations = some s) (hds : store.IsBody s ds) :
    (store.insert (.node kind fields)).Tidy claimed := by
  refine h.insert ?_ ?_ fun d => ?_
  · rintro _ _ ⟨⟩
    rcases hk with rfl | rfl <;> nofun
  · rintro _ _ ⟨⟩ _
    exact ⟨s, ds, hs, hds⟩
  · refine ⟨.inl, ?_⟩
    rintro (hd | ⟨-, _, ⟨⟩, -⟩)
    · exact hd
    · rcases hk with hk | hk <;> cases hk

/-- What taking over declarations does to a store: they have an owner then, and nothing else has
changed. -/
structure Claims (store store' : Store) (ds : List Nat) : Prop where
  next : store'.next = store.next
  others (a : Nat) : a ∉ ds → store'.get? a = store.get? a
  owned (d : Nat) : d ∈ ds →
    ∃ fields, store'.get? d = some (.node .declaration fields) ∧ isOwned fields = true

section

variable {ds : List Nat} (hc : store.Claims store' ds) (hds : ∀ d ∈ ds, store.IsDeclaration d)

include hc

/-- All nodes but the declarations are as before. -/
theorem Claims.get?_of_node {a : Nat} {kind : Kind} {fields : Record}
    (ha : store'.get? a = some (.node kind fields)) (hk : kind ≠ .declaration) :
    store.get? a = some (.node kind fields) := by
  by_cases hmem : a ∈ ds
  · obtain ⟨fields', hfields', -⟩ := hc.owned a hmem
    rw [ha] at hfields'
    cases hfields'
    exact absurd rfl hk
  · rw [← hc.others a hmem, ha]

include hds

/-- Lists of declarations are as before, and a declaration is still one. -/
theorem Claims.isBody {s : Slot} {es : List Nat} (h : store.IsBody s es) : store'.IsBody s es := by
  obtain ⟨a, rfl, ha, hes⟩ := h
  refine ⟨a, rfl, ?_, fun d hd => ?_⟩
  · have hmem : a ∉ ds := by
      intro hmem
      obtain ⟨fields, hfields⟩ := hds a hmem
      rw [ha] at hfields
      cases hfields
    rw [hc.others a hmem, ha]
  · by_cases hmem : d ∈ ds
    · obtain ⟨fields, hfields, -⟩ := hc.owned d hmem
      exact ⟨fields, hfields⟩
    · obtain ⟨fields, hfields⟩ := hes d hd
      exact ⟨fields, by rw [hc.others d hmem, hfields]⟩

/-- Taking over declarations. -/
theorem Tidy.claims (h : store.Tidy claimed) : store'.Tidy (ds ++ claimed) where
  documents a kind fields ha := by
    by_cases hk : kind = .declaration
    · subst hk
      nofun
    · exact h.documents a kind fields (hc.get?_of_node ha hk)
  owned d fields hd := by
    rw [List.mem_append]
    by_cases hmem : d ∈ ds
    · obtain ⟨fields', hfields', ho⟩ := hc.owned d hmem
      rw [hd] at hfields'
      cases hfields'
      exact iff_of_true ho (.inl hmem)
    · rw [hc.others d hmem] at hd
      rw [h.owned d fields hd]
      exact ⟨.inr, fun hor => hor.resolve_left hmem⟩
  bodies a kind fields ha hk := by
    have hne : kind ≠ .declaration := by rcases hk with rfl | rfl <;> nofun
    obtain ⟨s, es, hs, hes⟩ := h.bodies a kind fields (hc.get?_of_node ha hne) hk
    exact ⟨s, es, hs, hc.isBody hds hes⟩
  old d hd := by
    rw [hc.next]
    rcases List.mem_append.1 hd with hd | hd
    · obtain ⟨fields, hfields⟩ := hds d hd
      exact lt_next_of_get? hfields
    · exact h.old d hd

end

section

variable {l d : Nat} {ds : List Nat} (hl : store.get? l = some (.list (ds.map .ref)))

include hl

theorem push_eq_update :
    store.push l (.ref d) = store.update l (.list ((ds ++ [d]).map .ref)) := by
  rw [Store.push, hl, List.map_append]
  rfl

theorem get?_push_self :
    (store.push l (.ref d)).get? l = some (.list ((ds ++ [d]).map .ref)) := by
  rw [push_eq_update hl, get?_update_self _ _ (lt_next_of_get? hl)]

theorem get?_push_of_ne {a : Nat} (ha : a ≠ l) :
    (store.push l (.ref d)).get? a = store.get? a := by
  rw [push_eq_update hl, get?_update_of_ne _ _ ha]

/-- The nodes are as before. -/
theorem get?_push_eq_node {a : Nat} {kind : Kind} {fields : Record} :
    (store.push l (.ref d)).get? a = some (.node kind fields) ↔
      store.get? a = some (.node kind fields) := by
  by_cases ha : a = l
  · simp [ha, get?_push_self hl, hl]
  · rw [get?_push_of_ne hl ha]

theorem IsDeclaration.push {e : Nat} (h : store.IsDeclaration e) :
    (store.push l (.ref d)).IsDeclaration e :=
  h.imp fun _ => (get?_push_eq_node hl).2

variable (hd : store.IsDeclaration d) (hds : ∀ e ∈ ds, store.IsDeclaration e)

include hd hds

theorem IsBody.push {s : Slot} {es : List Nat} (h : store.IsBody s es) :
    ∃ es', (store.push l (.ref d)).IsBody s es' := by
  obtain ⟨a, rfl, ha, hes⟩ := h
  by_cases hal : a = l
  · subst hal
    refine ⟨ds ++ [d], a, rfl, get?_push_self hl, fun e he => ?_⟩
    rcases List.mem_append.1 he with he | he
    · exact (hds e he).push hl
    · rw [List.mem_singleton.1 he]
      exact hd.push hl
  · exact ⟨es, a, rfl, by rw [get?_push_of_ne hl hal, ha], fun e he => (hes e he).push hl⟩

/-- Adding a declaration to a list of declarations. -/
theorem Tidy.push (h : store.Tidy claimed) : (store.push l (.ref d)).Tidy claimed where
  documents a kind fields ha := h.documents a kind fields ((get?_push_eq_node hl).1 ha)
  owned e fields he := h.owned e fields ((get?_push_eq_node hl).1 he)
  bodies a kind fields ha hk := by
    obtain ⟨s, es, hs, hes⟩ := h.bodies a kind fields ((get?_push_eq_node hl).1 ha) hk
    obtain ⟨es', hes'⟩ := hes.push hl hd hds
    exact ⟨s, es', hs, hes'⟩
  old e he := by
    rw [push_eq_update hl, next_update]
    exact h.old e he

end

/-- A store to which empty lists have been added. -/
inductive Grows : Store → Store → Prop
  | refl (store : Store) : Grows store store
  | insert {store store' : Store} : Grows (store.insert (.list [])) store' → Grows store store'

theorem Grows.get? (h : store.Grows store') {a : Nat} {cell : Cell}
    (ha : store.get? a = some cell) : store'.get? a = some cell := by
  induction h with
  | refl => exact ha
  | insert _ ih => exact ih (get?_insert_of_get? ha _)

theorem Tidy.grows (h : store.Tidy claimed) (hg : store.Grows store') : store'.Tidy claimed := by
  induction hg with
  | refl => exact h
  | insert _ ih => exact ih (h.insert_plain nofun)

theorem Grows.trans {store₁ store₂ store₃ : Store} (h : store₁.Grows store₂)
    (h' : store₂.Grows store₃) : store₁.Grows store₃ := by
  induction h with
  | refl => exact h'
  | insert _ ih => exact .insert (ih h')

end Store

/-! ## Building nodes -/

namespace Build

variable {store store' : Store}

/-- The second action runs in the store that the first one leaves, if it succeeds. -/
theorem bind_of_eq_ok {α β : Type} {act : Build α} {f : α → Build β} {a : α} {store₁ : Store}
    (h : act store = (.ok a, store₁)) : (act >>= f) store = f a store₁ := by
  simp only [bind, ExceptT.bind, ExceptT.mk, StateT.bind, h]
  rfl

/-- If two actions succeed together, so does each of them. -/
theorem exists_of_bind_eq_ok {α β : Type} {act : Build α} {f : α → Build β} {b : β}
    (h : (act >>= f) store = (.ok b, store')) :
    ∃ a store₁, act store = (.ok a, store₁) ∧ f a store₁ = (.ok b, store') := by
  rcases hact : act store with ⟨_ | a, store₁⟩
  · simp only [bind, ExceptT.bind, ExceptT.mk, StateT.bind, hact] at h
    cases h
  · rw [bind_of_eq_ok hact] at h
    exact ⟨a, store₁, rfl, h⟩

/-- What a field of a new node holds: what is given for it, or else its default. -/
def Fills (given : List (Field × Slot)) (store : Store) (f : Field) (default : Default)
    (s : Slot) : Prop :=
  given.lookup f = some s ∨ given.lookup f = none ∧
    match default with
    | .required => False
    | .atom a => s = .atom a
    | .emptyList => ∃ a, s = .ref a ∧ store.get? a = some (.list [])

theorem Fills.grows {given : List (Field × Slot)} {f : Field} {default : Default} {s : Slot}
    (h : Fills given store f default s) (hg : store.Grows store') :
    Fills given store' f default s := by
  refine h.imp_right fun ⟨hnone, h⟩ => ⟨hnone, ?_⟩
  cases default with
  | required => exact h
  | atom a => exact h
  | emptyList =>
    obtain ⟨a, rfl, ha⟩ := h
    exact ⟨a, rfl, hg.get? ha⟩

theorem fills_of_field {kind : Kind} {given : List (Field × Slot)} {f : Field} {default : Default}
    {e : Field × Slot} (h : field kind given f default store = (.ok e, store')) :
    e.1 = f ∧ store.Grows store' ∧ Fills given store' f default e.2 := by
  unfold field at h
  cases hf : given.lookup f with
  | some s =>
    rw [hf] at h
    cases h
    exact ⟨rfl, .refl _, .inl hf⟩
  | none =>
    rw [hf] at h
    cases default with
    | required => cases h
    | atom a =>
      cases h
      exact ⟨rfl, .refl _, .inr ⟨hf, rfl⟩⟩
    | emptyList =>
      cases h
      exact ⟨rfl, .insert (.refl _), .inr ⟨hf, store.next, rfl, Store.get?_insert_self _ _⟩⟩

/-- The fields of a new node are filled one after another. -/
theorem fills_of_fields {kind : Kind} {given : List (Field × Slot)} {es : List (Field × Default)}
    {entries : List (Field × Slot)}
    (h : (es.mapM fun e => field kind given e.1 e.2) store = (.ok entries, store')) :
    store.Grows store' ∧ ∀ f default, es.lookup f = some default →
      ∃ s, entries.lookup f = some s ∧ Fills given store' f default s := by
  induction es generalizing store entries with
  | nil =>
    cases h
    refine ⟨.refl _, fun f default hf => ?_⟩
    cases hf
  | cons e es ih =>
    rw [List.mapM_cons] at h
    obtain ⟨e', store₁, he, h⟩ := exists_of_bind_eq_ok h
    obtain ⟨rest, store₂, hrest, h⟩ := exists_of_bind_eq_ok h
    cases h
    obtain ⟨hname, hgrows, hfills⟩ := fills_of_field he
    obtain ⟨hgrows', hfills'⟩ := ih hrest
    refine ⟨hgrows.trans hgrows', fun f default hf => ?_⟩
    obtain ⟨g, d⟩ := e
    obtain ⟨g', s⟩ := e'
    cases hname
    rw [List.lookup_cons] at hf ⊢
    cases hg : f == g with
    | true =>
      rw [hg] at hf
      cases hf
      rw [beq_iff_eq.1 hg]
      exact ⟨s, rfl, hfills.grows hgrows'⟩
    | false =>
      rw [hg] at hf
      exact hfills' f default hf

/-- Checking names does not change a store. -/
theorem store_eq_of_forM_checkField {kind : Kind} {given : List (Field × Slot)}
    (h : given.forM (fun e => checkField kind e.1) store = (.ok (), store')) : store' = store := by
  induction given with
  | nil =>
    cases h
    rfl
  | cons e given ih =>
    rw [List.forM] at h
    obtain ⟨⟨⟩, store₁, hcheck, h⟩ := exists_of_bind_eq_ok h
    unfold checkField at hcheck
    split at hcheck
    · cases hcheck
      exact ih h
    · cases hcheck

/-- A new node is kept after the lists of its defaults, and then takes over what it has to. -/
theorem exists_of_node {kind : Kind} {given : List (Field × Slot)} {s : Slot}
    (h : node kind given store = (.ok s, store')) :
    ∃ store₁ fields, store.Grows store₁ ∧ s = .ref store₁.next ∧
      (∀ f default, kind.schema.lookup f = some default →
        ∃ t, fields.get? f = some t ∧ Fills given store₁ f default t) ∧
      takeOver kind s fields (store₁.insert (.node kind fields)) = (.ok (), store') := by
  rw [node] at h
  obtain ⟨⟨⟩, store₀, hcheck, h₀⟩ := exists_of_bind_eq_ok h
  obtain ⟨entries, store₁, hentries, h₁⟩ := exists_of_bind_eq_ok h₀
  obtain ⟨t, store₂, hinsert, h₂⟩ := exists_of_bind_eq_ok h₁
  obtain ⟨⟨⟩, store₃, htake, h₃⟩ := exists_of_bind_eq_ok h₂
  rw [store_eq_of_forM_checkField hcheck] at hentries
  cases hinsert
  cases h₃
  obtain ⟨hgrows, hfills⟩ := fills_of_fields hentries
  exact ⟨store₁, ⟨entries⟩, hgrows, rfl, hfills, htake⟩

theorem change_eq (f : Store → Except Fault Store) (store : Store) :
    change f store = match f store with
      | .ok store' => (.ok (), store')
      | .error e => (.error e, store) := by
  show ((liftM (f store) : Build Store) >>= set) store = _
  cases f store <;> rfl

/-- A declaration is given an owner. -/
theorem change_owner {d owner : Nat} {fields : Record}
    (hd : store.get? d = some (.node .declaration fields)) :
    change (fun store => store.assign (.ref d) .owner (.ref owner)) store =
      (.ok (), store.update d (.node .declaration (fields.put .owner (.ref owner)))) := by
  have hassign : store.assign (.ref d) .owner (.ref owner) =
      .ok (store.update d (.node .declaration (fields.put .owner (.ref owner)))) := by
    simp only [Store.assign, hd]
    rfl
  rw [change_eq, hassign]

/-- Declarations are taken over one after another. -/
theorem claims_of_forM {ds : List Nat} {owner : Nat} (hds : ∀ d ∈ ds, store.IsDeclaration d)
    (h : (ds.map Slot.ref).forM (fun d => change fun store => store.assign d .owner (.ref owner))
      store = (.ok (), store')) : store.Claims store' ds := by
  induction ds generalizing store with
  | nil =>
    cases h
    exact ⟨rfl, fun _ _ => rfl, nofun⟩
  | cons d ds ih =>
    rw [List.map_cons, List.forM] at h
    obtain ⟨⟨fields, hfields⟩, hds⟩ := List.forall_mem_cons.1 hds
    obtain ⟨⟨⟩, store₁, hchange, h⟩ := exists_of_bind_eq_ok h
    rw [change_owner hfields] at hchange
    obtain ⟨-, hstore⟩ := Prod.mk.inj hchange
    have hd := Store.lt_next_of_get? hfields
    have hself : store₁.get? d = some (.node .declaration (fields.put .owner (.ref owner))) := by
      rw [← hstore, Store.get?_update_self _ _ hd]
    have hother : ∀ a, a ≠ d → store₁.get? a = store.get? a := by
      intro a ha
      rw [← hstore, Store.get?_update_of_ne _ _ ha]
    have hds₁ : ∀ e ∈ ds, store₁.IsDeclaration e := by
      intro e he
      by_cases hed : e = d
      · exact ⟨_, hed ▸ hself⟩
      · exact (hds e he).imp fun fields' hfields' => by rw [hother e hed, hfields']
    have hclaims := ih hds₁ h
    refine ⟨?_, fun a ha => ?_, fun e he => ?_⟩
    · rw [hclaims.next, ← hstore, Store.next_update]
    · rw [List.mem_cons, not_or] at ha
      rw [hclaims.others a ha.2, hother a ha.1]
    · by_cases heds : e ∈ ds
      · exact hclaims.owned e heds
      · have hed : e = d := (List.mem_cons.1 he).resolve_right heds
        subst hed
        refine ⟨_, by rw [hclaims.others e heds, hself], ?_⟩
        simp [Store.isOwned]

/-- A new node has an owner if it is given one. -/
theorem isOwned_of_fills {given : List (Field × Slot)} {fields : Record}
    (h : ∃ t, fields.get? .owner = some t ∧ Fills given store .owner (.atom .absent) t) :
    Store.isOwned fields = Store.isOwned ⟨given⟩ := by
  obtain ⟨t, ht, hfills⟩ := h
  have hget : (Record.mk given).get? .owner = given.lookup .owner := rfl
  rw [Store.isOwned, Store.isOwned, ht, hget]
  rcases hfills with hgiven | ⟨hgiven, rfl⟩
  · rw [hgiven]
  · rw [hgiven]
    rfl

theorem items_of_items? {s : Slot} {ss : List Slot} (h : store.items? s = some ss) :
    items s store = (.ok ss, store) := by
  have hget : (get : Build Store) store = (.ok store, store) := rfl
  rw [items, bind_of_eq_ok hget, h]
  rfl

/-- Only a rule set takes anything over: its declarations. -/
theorem claims_of_takeOver {fields : Record} {declarations : Slot} {owner : Nat} {ds : List Nat}
    (hd : fields.get? .declarations = some declarations) (hds : store.IsBody declarations ds)
    (h : takeOver .ruleSet (.ref owner) fields store = (.ok (), store')) :
    store.Claims store' ds := by
  obtain ⟨a, rfl, ha, hds⟩ := hds
  unfold takeOver at h
  rw [hd] at h
  obtain ⟨items, store₁, hitems, h₁⟩ := exists_of_bind_eq_ok h
  have hsome : store.items? (.ref a) = some (ds.map .ref) := by rw [Store.items?, ha]
  rw [items_of_items? hsome] at hitems
  cases hitems
  exact claims_of_forM hds h₁

end Build

/-! ## Stores of declarations, rule sets and font descriptions -/

/-- Whether the declarations given for a new object are a list of declarations. -/
def Store.Supplies (store : Store) (given : List (Field × Slot)) (ds : List Nat) : Prop :=
  match given.lookup .declarations with
  | some s => store.IsBody s ds
  | none => ds = []

theorem Store.supplies_nil {store : Store} {given : List (Field × Slot)}
    (h : given.lookup .declarations = none) : store.Supplies given [] := by
  rw [Supplies, h]

/-- A store that comes from building declarations, rule sets and font descriptions and from adding
declarations to their lists. All other objects stay as they are once they are built. The second
argument are the declarations that have been taken over by a rule set, or have been given an owner
from the start. -/
inductive Built : Store → List Nat → Prop
  | empty : Built {} []
  | plain {store : Store} {claimed : List Nat} {cell : Cell} :
    Built store claimed → (∀ kind fields, cell = .node kind fields → kind.isFrozen = true) →
    Built (store.insert cell) claimed
  | nan {store : Store} {claimed : List Nat} :
    Built store claimed → Built store.freshNan.2 claimed
  | declaration {store store' : Store} {claimed : List Nat} {given : List (Field × Slot)}
    {d : Nat} :
    Built store claimed → Build.node .declaration given store = (.ok (.ref d), store') →
    Built store' (if Store.isOwned ⟨given⟩ then d :: claimed else claimed)
  | ruleSet {store store' : Store} {claimed ds : List Nat} {given : List (Field × Slot)}
    {s : Slot} :
    Built store claimed → store.Supplies given ds →
    Build.node .ruleSet given store = (.ok s, store') → Built store' (ds ++ claimed)
  | fontFace {store store' : Store} {claimed ds : List Nat} {given : List (Field × Slot)}
    {s : Slot} :
    Built store claimed → store.Supplies given ds →
    Build.node .fontFace given store = (.ok s, store') → Built store' claimed
  | append {store : Store} {claimed : List Nat} {a l d : Nat} {kind : Kind} {fields : Record} :
    Built store claimed → store.get? a = some (.node kind fields) →
    kind = .ruleSet ∨ kind = .fontFace → store.listAt (.ref a) .declarations = .ok l →
    store.IsDeclaration d → Built (store.push l (.ref d)) claimed

namespace Built

variable {store : Store} {claimed : List Nat}

theorem list (h : Built store claimed) (items : List Slot) :
    Built (store.insert (.list items)) claimed :=
  h.plain nofun

theorem node (h : Built store claimed) {kind : Kind} (hk : kind.isFrozen = true)
    (fields : Record) : Built (store.insert (.node kind fields)) claimed := by
  refine h.plain ?_
  rintro _ _ ⟨⟩
  exact hk

end Built

/-- The body of a new object, from the declarations given for it. -/
theorem Store.Supplies.exists_isBody {store store₁ : Store} {given : List (Field × Slot)}
    {ds : List Nat} (h : store.Supplies given ds) (hg : store.Grows store₁) {fields : Record}
    (hfields : ∃ t, fields.get? .declarations = some t ∧
      Build.Fills given store₁ .declarations .emptyList t) :
    ∃ t, fields.get? .declarations = some t ∧ store₁.IsBody t ds := by
  obtain ⟨t, ht, hfills⟩ := hfields
  refine ⟨t, ht, ?_⟩
  unfold Store.Supplies at h
  rcases hfills with hgiven | ⟨hgiven, a, rfl, ha⟩
  · rw [hgiven] at h
    exact h.mono fun _ _ => hg.get?
  · rw [hgiven] at h
    subst h
    exact ⟨a, rfl, ha, nofun⟩

/-- Who owns a declaration, and what else holds of the store. -/
theorem Built.tidy {store : Store} {claimed : List Nat} (h : Built store claimed) :
    store.Tidy claimed := by
  induction h with
  | empty => exact ⟨nofun, nofun, nofun, nofun⟩
  | plain _ hcell ih => exact ih.insert_plain hcell
  | nan _ ih => exact ⟨ih.documents, ih.owned, ih.bodies, ih.old⟩
  | @declaration store store' claimed given d _ hnode ih =>
    obtain ⟨store₁, fields, hgrows, hd, hfields, htake⟩ := Build.exists_of_node hnode
    cases hd
    cases htake
    have howned := Build.isOwned_of_fills (hfields .owner (.atom .absent) rfl)
    refine (ih.grows hgrows).insert (by rintro _ _ ⟨⟩; nofun) (by rintro _ _ ⟨⟩; nofun) fun e => ?_
    rw [← howned]
    cases ho : Store.isOwned fields with
    | false => simp [ho]
    | true => simp [ho, or_comm]
  | @ruleSet store store' claimed ds given s _ hsupplies hnode ih =>
    obtain ⟨store₁, fields, hgrows, rfl, hfields, htake⟩ := Build.exists_of_node hnode
    obtain ⟨t, ht, hbody⟩ := hsupplies.exists_isBody hgrows (hfields .declarations .emptyList rfl)
    have hinsert := (ih.grows hgrows).insert_body (.inl rfl) ht hbody
    have hbody' := hbody.mono fun _ _ h => Store.get?_insert_of_get? h (.node .ruleSet fields)
    exact hinsert.claims (Build.claims_of_takeOver ht hbody' htake) hbody'.isDeclaration
  | @fontFace store store' claimed ds given s _ hsupplies hnode ih =>
    obtain ⟨store₁, fields, hgrows, rfl, hfields, htake⟩ := Build.exists_of_node hnode
    obtain ⟨t, ht, hbody⟩ := hsupplies.exists_isBody hgrows (hfields .declarations .emptyList rfl)
    cases htake
    exact (ih.grows hgrows).insert_body (.inr rfl) ht hbody
  | @append store claimed a l d kind fields _ ha hk hl hd ih =>
    obtain ⟨s, ds, hs, b, rfl, hb, hds⟩ := ih.bodies a kind fields ha hk
    have hname : kind.fieldRead .declarations = .declarations := by
      rcases hk with rfl | rfl <;> rfl
    rw [← hname] at hs
    rw [Store.listAt_of_get? ha hs hb] at hl
    cases hl
    exact ih.push hb hd hds

/-! ## What is seen of a store -/

namespace Store

variable {store : Store} {loops around : List Nat} {depth a : Nat}

theorem contents_asObject (key : Option Nat) (added : List (Field × Value)) (v : Value) :
    (asObject key added v).contents = v.contents := by
  unfold asObject
  split <;> rfl

theorem items?_asObject (key : Option Nat) (added : List (Field × Value)) (v : Value) :
    (asObject key added v).items? = v.items? := by
  unfold asObject
  split <;> rfl

theorem everywhere_asObject {p : Node Value → Prop} {key : Option Nat}
    {added : List (Field × Value)} {v : Value} (ha : ∀ e ∈ added, e.2.Everywhere p)
    (hv : v.Everywhere p) : (asObject key added v).Everywhere p := by
  unfold asObject
  split
  · exact hv
  · exact .object ha hv

/-- The value of an object, from the values of the slots in it. -/
def viewCell (key : Option Nat) (look : Slot → Value) : Cell → Value
  | .list items => asObject key [] (.list (items.map look))
  | .tuple items => asObject key [] (.tuple (items.map look))
  | .foreign label fields =>
    asObject key ((fields.added none).map fun e => (e.1, look e.2)) (.foreign label)
  | .node kind fields =>
    asObject key ((fields.added (some kind)).map fun e => (e.1, look e.2))
      (.node (Node.assemble kind (fun f => look ((fields.get? f).getD (.atom .absent)))
        (isOwned fields)))

/-- An object is seen as its cell, unless it lies inside itself too often. -/
theorem viewWithin_eq_viewCell {cell : Cell} (ha : store.get? a = some cell)
    (hcount : around.count a < 3) :
    let key := if loops.contains a then some a else none
    store.viewWithin loops (depth + 1) around (.ref a) =
      viewCell key (store.viewWithin loops depth (key.toList ++ around)) cell := by
  intro key
  rw [viewWithin, if_neg (by omega), ha]
  cases cell <;> rfl

/-- Not far below the start, an object does not lie inside itself too often. -/
theorem exists_viewCell (loops : List Nat) (depth : Nat) {cell : Cell}
    (ha : store.get? a = some cell) (haround : around.length < 3) :
    ∃ key around', around'.length ≤ around.length + 1 ∧
      store.viewWithin loops (depth + 1) around (.ref a) =
        viewCell key (store.viewWithin loops depth around') cell := by
  have hcount : around.count a ≤ around.length := List.count_le_length
  refine ⟨_, _, ?_, viewWithin_eq_viewCell ha (by omega)⟩
  split <;> simp

theorem documentFree_viewCell {key : Option Nat} {look : Slot → Value} {cell : Cell}
    (hlook : ∀ s, (look s).DocumentFree)
    (hcell : ∀ kind fields, cell = .node kind fields → kind ≠ .document) :
    (viewCell key look cell).DocumentFree := by
  have hadded : ∀ es : List (Field × Slot), ∀ e ∈ es.map fun e => (e.1, look e.2),
      e.2.DocumentFree := fun es => List.forall_mem_map.2 fun e _ => hlook e.2
  cases cell with
  | list items =>
    exact everywhere_asObject (hadded []) (.list (List.forall_mem_map.2 fun s _ => hlook s))
  | tuple items =>
    exact everywhere_asObject (hadded []) (.tuple (List.forall_mem_map.2 fun s _ => hlook s))
  | foreign label fields => exact everywhere_asObject (hadded _) (.foreign label)
  | node kind fields =>
    refine everywhere_asObject (hadded _) (.node ?_ ?_)
    · rw [Node.kind_assemble]
      exact hcell kind fields rfl
    · rw [Node.fields, Node.entries_assemble, List.map_map]
      exact List.forall_mem_map.2 fun f _ => hlook _

/-- A store without documents shows none. -/
theorem documentFree_viewWithin
    (h : ∀ a kind fields, store.get? a = some (.node kind fields) → kind ≠ .document) (s : Slot) :
    (store.viewWithin loops depth around s).DocumentFree := by
  induction depth generalizing around s with
  | zero => cases s <;> exact .atom _
  | succ depth ih =>
    cases s with
    | atom a => exact .atom a
    | ref a =>
      by_cases hcount : around.count a < 3
      · cases ha : store.get? a with
        | none =>
          rw [viewWithin, if_neg (by omega), ha]
          exact .atom _
        | some cell =>
          rw [viewWithin_eq_viewCell ha hcount]
          exact documentFree_viewCell (fun s => ih s) fun kind fields hc =>
            h a kind fields (hc ▸ ha)
      · rw [viewWithin, if_pos (by omega)]
        refine .object (fun e he => ?_) (.atom _)
        cases he

/-- A declaration is seen as a declaration, with the owner that it has. -/
theorem contents_declaration {d : Nat} {fields : Record}
    (hd : store.get? d = some (.node .declaration fields)) (haround : around.length < 3) :
    ∃ property expressions important,
      (store.viewWithin loops (depth + 1) around (.ref d)).contents =
        .node (.declaration property expressions important (isOwned fields)) := by
  obtain ⟨key, around', -, hview⟩ := exists_viewCell loops depth hd haround
  rw [hview, viewCell, contents_asObject]
  exact ⟨_, _, _, rfl⟩

/-- A list of declarations is seen as one. -/
theorem items?_body (loops : List Nat) (depth : Nat) {slot : Slot} {ds : List Nat}
    (h : store.IsBody slot ds)
    (haround : around.length < 2) :
    ∃ around', around'.length < 3 ∧
      (store.viewWithin loops (depth + 1) around slot).items? =
        some (ds.map fun d => store.viewWithin loops depth around' (.ref d)) := by
  obtain ⟨l, rfl, hl, -⟩ := h
  have haround₃ : around.length < 3 := by omega
  obtain ⟨key, around', haround', hview⟩ := exists_viewCell loops depth hl haround₃
  refine ⟨around', by omega, ?_⟩
  rw [hview, viewCell, items?_asObject, Value.items?, List.map_map]
  rfl

/-- Rule sets with selectors and font descriptions are seen with their declarations. -/
theorem exists_hasBody {kind : Kind} {fields : Record} {slot : Slot} {ds : List Nat}
    (ha : store.get? a = some (.node kind fields)) (hk : kind = .ruleSet ∨ kind = .fontFace)
    (hslot : fields.get? .declarations = some slot) (hds : store.IsBody slot ds)
    (hselectors : ∀ v, (store.view (.ref a)).field? .selectors = some v → v.isVacant = false) :
    ∃ loops depth around, around.length < 3 ∧ (store.view (.ref a)).HasBody
      (ds.map fun d => store.viewWithin loops (depth + 1) around (.ref d)) kind := by
  have hnext := lt_next_of_get? ha
  -- Three levels are looked at, and there are three for every object.
  obtain ⟨depth, hdepth⟩ : ∃ depth, 3 * store.next + 1 = depth + 1 + 1 + 1 :=
    ⟨3 * store.next - 2, by omega⟩
  obtain ⟨key, around₁, haround₁, hview⟩ :=
    exists_viewCell (store.loops (.ref a)) (depth + 1 + 1) ha (show [].length < 3 by decide)
  rw [← hdepth] at hview
  have haround₂ : around₁.length < 2 := by
    rw [List.length_nil] at haround₁
    omega
  obtain ⟨around, haround, hitems⟩ := items?_body (store.loops (.ref a)) (depth + 1) hds haround₂
  refine ⟨store.loops (.ref a), depth, around, haround, ?_⟩
  have hcontents : (store.view (.ref a)).contents = _ :=
    (congrArg Value.contents hview).trans (contents_asObject _ _ _)
  have hslot' : (fields.get? .declarations).getD (.atom .absent) = slot := by rw [hslot]; rfl
  rw [← hslot'] at hitems
  rcases hk with rfl | rfl
  · refine .ruleSet hcontents (hselectors _ (Value.field?_of_contents ?_)) hitems
    rw [hcontents]
    rfl
  · exact .fontFace hcontents hitems

/-- What the declaration at an address comes to when it is printed at a level of indentation. -/
def IsLineOf (store : Store) (layout : Layout) (level : Int) (d : Nat) (l : DeclarationLine) :
    Prop :=
  ∃ loops depth around, (store.viewWithin loops depth around (.ref d)).IsLine layout level l

end Store

theorem forall_mem_iff_of_forall₂ {α β : Type} {p : α → Prop} {q : β → Prop} {as : List α}
    {bs : List β} (h : List.Forall₂ (fun a b => p a ↔ q b) as bs) :
    (∀ a ∈ as, p a) ↔ ∀ b ∈ bs, q b := by
  induction h with
  | nil => exact iff_of_true nofun nofun
  | cons h _ ih => rw [List.forall_mem_cons, List.forall_mem_cons, h, ih]

/-- What is printed for a rule set with selectors, or for a font description: an entry for each of
its declarations, which depends on whether the declaration has been taken over (`bodyEntry`). All
the entries are lines as they are meant exactly if it is a rule set and all of its declarations have
been taken over, or it is a font description and none has. -/
theorem printed_body_by_owner {store : Store} {claimed : List Nat} (h : Built store claimed)
    {a : Nat} {kind : Kind} {fields : Record} (ha : store.get? a = some (.node kind fields))
    (hk : kind = .ruleSet ∨ kind = .fontFace)
    (hselectors : ∀ v, (store.view (.ref a)).field? .selectors = some v → v.isVacant = false)
    {unit lineBreak : String} {s : PrintState} {text : String}
    (hprint : ((store.view (.ref a)).render.exec (.ofTexts unit lineBreak false) s).1 = .ok text) :
    ∃ slot ds lines head, fields.get? .declarations = some slot ∧ store.IsBody slot ds ∧
      List.Forall₂ (fun d l => (l.owned = true ↔ d ∈ claimed) ∧
        store.IsLineOf (.ofTexts unit lineBreak false) (bodyLevel kind s.level) d l) ds lines ∧
      (store.view (.ref a)).IsHead (.ofTexts unit lineBreak false) s.level head ∧
      text = head ++ lineBreak ++ lineBreak.intercalate (lines.map (bodyEntry kind unit s.level)) ++
        lineBreak ++ indentText unit s.level ++ "\x7d" ∧
      (lineBreak.intercalate (lines.map (bodyEntry kind unit s.level)) =
          lineBreak.intercalate (lines.map (DeclarationLine.entry unit s.level)) ↔
        ∀ d ∈ ds, (d ∈ claimed ↔ kind = .ruleSet)) := by
  have htidy := h.tidy
  obtain ⟨slot, ds, hslot, hds⟩ := htidy.bodies a kind fields ha hk
  obtain ⟨loops, depth, around, haround, hbody⟩ := Store.exists_hasBody ha hk hslot hds hselectors
  have hdeclarations : ∀ v ∈ ds.map fun d => store.viewWithin loops (depth + 1) around (.ref d),
      v.IsDeclaration := by
    refine List.forall_mem_map.2 fun d hd => ?_
    obtain ⟨fd, hfd⟩ := hds.isDeclaration d hd
    obtain ⟨property, expressions, important, hcontents⟩ := Store.contents_declaration hfd haround
    exact ⟨property, expressions, important, _, hcontents⟩
  obtain ⟨head, lines, hhead, hlines, htext⟩ :=
    hbody.exists_lines (Store.documentFree_viewWithin htidy.documents _) hdeclarations hprint
  rw [List.forall₂_map_left_iff] at hlines
  -- The owner that a declaration shows is the one that it has in the store.
  have howned : List.Forall₂ (fun d l => (l.owned = true ↔ d ∈ claimed) ∧
      store.IsLineOf (.ofTexts unit lineBreak false) (bodyLevel kind s.level) d l) ds lines := by
    refine ((List.forall₂_and_left _ _).2 ⟨hds.isDeclaration, hlines⟩).imp ?_
    rintro d l ⟨⟨fd, hfd⟩, hl⟩
    refine ⟨?_, _, _, _, hl⟩
    obtain ⟨_, _, _, hline, -⟩ := hl
    obtain ⟨_, _, _, hcontents⟩ := Store.contents_declaration hfd haround
    rw [hline, Value.node.injEq, Node.declaration.injEq] at hcontents
    rw [hcontents.2.2.2, htidy.owned d fd hfd]
  refine ⟨slot, ds, lines, head, hslot, hds, howned, hhead, htext, ?_⟩
  rw [intercalate_bodyEntry_eq_iff]
  exact (forall_mem_iff_of_forall₂ (howned.imp fun d l hl => by rw [hl.1])).symm

/-- A font description to which a declaration has been added. -/
theorem printed_body_of_fontFace :
    let ident : Cell := .node .ident ⟨[(.value, .atom (.text "y")), (.operator, .atom .absent)]⟩
    let declaration : Cell := .node .declaration ⟨[(.property, .atom (.text "x")),
      (.expressions, .ref 1), (.important, .atom (.bool false)), (.owner, .atom .absent)]⟩
    let font : Cell := .node .fontFace ⟨[(.declarations, .ref 3)]⟩
    let store : Store := ⟨#[ident, .list [.ref 0], declaration, .list [.ref 2], font], 0⟩
    ∃ text ds lines head,
      ((store.view (.ref 4)).render.exec .pretty {}).1 = .ok text ∧ store.IsBody (.ref 3) ds ∧
      List.Forall₂ (fun d l => (l.owned = true ↔ d ∈ []) ∧ store.IsLineOf .pretty 1 d l) ds lines ∧
      (store.view (.ref 4)).IsHead .pretty 0 head ∧
      text = head ++ "\n" ++ "\n".intercalate (lines.map (DeclarationLine.entry "  " 0)) ++ "\n" ++
        indentText "  " 0 ++ "\x7d" := by
  intro ident declaration font store
  have hstore : Built store [] := by
    have hvalues : Built ⟨#[ident, .list [.ref 0]], 0⟩ [] := (Built.empty.node rfl _).list _
    have hnode : Build.node .declaration [(.property, .atom (.text "x")), (.expressions, .ref 1)]
        ⟨#[ident, .list [.ref 0]], 0⟩ =
      (.ok (.ref 2), ⟨#[ident, .list [.ref 0], declaration], 0⟩) := rfl
    have hfont : Build.node .fontFace [] ⟨#[ident, .list [.ref 0], declaration], 0⟩ =
      (.ok (.ref 4), ⟨#[ident, .list [.ref 0], declaration, .list [], font], 0⟩) := rfl
    have hempty : Built _ [] :=
      .fontFace (.declaration hvalues hnode) (Store.supplies_nil rfl) hfont
    exact hempty.append (a := 4) (l := 3) (d := 2) rfl (.inr rfl) rfl ⟨_, rfl⟩
  have hfont : store.get? 4 = some font := rfl
  have hloops : store.loops (.ref 4) = [] := by decide +kernel
  have hview : store.view (.ref 4) = .node (.fontFace (.list [.node (.declaration (.text "x")
      (.list [.node (.ident (.text "y") .absent)]) (.atom (.bool false)) false)])) := by
    rw [Store.view, hloops]
    rfl
  have hprint : ((store.view (.ref 4)).render.exec .pretty {}).1 =
      .ok "@font-face \x7b\n  x: y;\n\x7d" := by
    rw [hview]
    rfl
  -- The rest does not depend on what is in the store.
  clear_value store
  obtain ⟨slot, ds, lines, head, hslot, hds, hlines, hhead, htext, hiff⟩ :=
    printed_body_by_owner hstore hfont (.inr rfl) (by rw [hview]; nofun) hprint
  cases hslot
  rw [hiff.2 fun d _ => by simp] at htext
  exact ⟨_, ds, lines, head, hprint, hds, hlines, hhead, htext⟩

/-- A declaration that is added to a rule set after it has been built is printed without its
indentation and its semicolon. -/
theorem appended_declaration_is_no_line :
    let ident : Cell := .node .ident ⟨[(.value, .atom (.text "y")), (.operator, .atom .absent)]⟩
    let declaration : Cell := .node .declaration ⟨[(.property, .atom (.text "x")),
      (.expressions, .ref 1), (.important, .atom (.bool false)), (.owner, .atom .absent)]⟩
    let element : Cell := .node .typeSelector ⟨[(.name, .atom (.text "a")),
      (.combinator, .atom .absent), (.qualifiers, .ref 3)]⟩
    let selector : Cell := .node .selector ⟨[(.simples, .ref 5)]⟩
    let rule : Cell := .node .ruleSet ⟨[(.selectors, .ref 7), (.declarations, .ref 8),
      (.parent, .atom .absent)]⟩
    let store : Store := ⟨#[ident, .list [.ref 0], declaration, .list [], element, .list [.ref 4],
      selector, .list [.ref 6], .list [.ref 2], rule], 0⟩
    let line : DeclarationLine := ⟨"x", "y", false, false⟩
    Built store [] ∧ store.get? 9 = some rule ∧ store.IsBody (.ref 8) [2] ∧
      store.IsLineOf .pretty 0 2 line ∧
      ((store.view (.ref 9)).render.exec .pretty {}).1 = .ok "a \x7b\nx: y\n\x7d" ∧
      "a \x7b\nx: y\n\x7d" ≠ "a \x7b\n" ++ line.entry "  " 0 ++ "\n\x7d" := by
  intro ident declaration element selector rule store line
  have hstore : Built store [] := by
    have hvalues : Built ⟨#[ident, .list [.ref 0]], 0⟩ [] := (Built.empty.node rfl _).list _
    have hnode : Build.node .declaration [(.property, .atom (.text "x")), (.expressions, .ref 1)]
        ⟨#[ident, .list [.ref 0]], 0⟩ =
      (.ok (.ref 2), ⟨#[ident, .list [.ref 0], declaration], 0⟩) := rfl
    have hselector : Built ⟨#[ident, .list [.ref 0], declaration, .list [], element,
        .list [.ref 4], selector, .list [.ref 6]], 0⟩ [] :=
      (((((Built.declaration hvalues hnode).list _).node rfl _).list _).node rfl _).list _
    have hrule : Build.node .ruleSet [(.selectors, .ref 7)] ⟨#[ident, .list [.ref 0], declaration,
        .list [], element, .list [.ref 4], selector, .list [.ref 6]], 0⟩ =
      (.ok (.ref 9), ⟨#[ident, .list [.ref 0], declaration, .list [], element, .list [.ref 4],
        selector, .list [.ref 6], .list [], rule], 0⟩) := rfl
    have hempty : Built _ [] := .ruleSet hselector (Store.supplies_nil rfl) hrule
    exact hempty.append (a := 9) (l := 8) (d := 2) rfl (.inl rfl) rfl ⟨_, rfl⟩
  have hloops : store.loops (.ref 9) = [] := by decide +kernel
  let values : Value := .list [.node (.ident (.text "y") .absent)]
  let seen : Value := .node (.declaration (.text "x") values (.atom (.bool false)) false)
  have hview : store.view (.ref 9) = .node (.ruleSet
      (.list [.node (.selector (.list [.node (.simple .typed (.text "a") .absent (.list []))]))])
      (.list [seen]) .absent) := by
    rw [Store.view, hloops]
    rfl
  have hseen : store.viewWithin [] 3 [] (.ref 2) = seen := rfl
  have hline : store.IsLineOf .pretty 0 2 line := by
    refine ⟨[], 3, [], .text "x", values, .atom (.bool false), ?_, rfl, rfl, rfl⟩
    rw [hseen]
    rfl
  have hbody : store.IsBody (.ref 8) [2] := ⟨8, rfl, rfl, List.forall_mem_singleton.2 ⟨_, rfl⟩⟩
  refine ⟨hstore, rfl, hbody, hline, ?_, by decide⟩
  rw [hview]
  rfl

end Stylesheet
