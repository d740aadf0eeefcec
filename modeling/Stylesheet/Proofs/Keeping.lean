import Stylesheet.Proofs.Ownership
import Stylesheet.Session

/-!
# Owners stay

An object that has an owner keeps having one, unless it is given the field anew: other objects are
kept under other addresses, a rule set that takes it over leaves it with an owner, and a change of
another field leaves that field alone (`Store.KeepsOwners`). What giving a field can do is said once
(`Store.assign_cases`).

An action follows this relation if it leads nowhere else, be it that it returns or that it fails
(`Follows`); so building anything does (`Blueprint.follows_build`), so does every step of a session
but the one that gives an owner (`Session.follows_perform`), and along a whole run of such steps
every session is related to all later ones (`Session.pairwise_run`).
-/

namespace Stylesheet

/-! ## Following a relation -/

section

variable {σ α β : Type}

/-- An action that leads from a state only to states related to it, whether it returns or fails. -/
def Follows (R : σ → σ → Prop) (act : ExceptT Fault (StateM σ) α) : Prop := ∀ s, R s (act s).2

namespace Follows

variable {R : σ → σ → Prop}

theorem modify {f : σ → σ} (h : ∀ s, R s (f s)) :
    Follows R (modify f : ExceptT Fault (StateM σ) PUnit) := h

/-- The second action starts where the first one has led, if that one returns at all. -/
theorem bind [IsTrans σ R] {act : ExceptT Fault (StateM σ) α}
    {f : α → ExceptT Fault (StateM σ) β} (h : Follows R act) (hf : ∀ a, Follows R (f a)) :
    Follows R (act >>= f) := by
  intro s
  have hs := h s
  simp only [Bind.bind, ExceptT.bind, ExceptT.mk, StateT.bind]
  generalize act s = r at hs ⊢
  obtain ⟨e | a, t⟩ := r
  · exact hs
  · exact IsTrans.trans _ _ _ hs (hf a t)

variable [Std.Refl R]

theorem pure (a : α) : Follows R (Pure.pure a) := fun s => Std.Refl.refl s

theorem throw (e : Fault) : Follows R (throw e : ExceptT Fault (StateM σ) α) :=
  fun s => Std.Refl.refl s

theorem get : Follows R (MonadState.get : ExceptT Fault (StateM σ) σ) := fun s => Std.Refl.refl s

theorem lift (x : Except Fault α) : Follows R (liftM x : ExceptT Fault (StateM σ) α) := by
  cases x with
  | error e => exact throw e
  | ok a => exact pure a

variable [IsTrans σ R]

theorem forM {xs : List α} {f : α → ExceptT Fault (StateM σ) PUnit}
    (h : ∀ x ∈ xs, Follows R (f x)) : Follows R (xs.forM f) := by
  induction xs with
  | nil => exact pure _
  | cons x xs ih =>
    obtain ⟨hx, hxs⟩ := List.forall_mem_cons.1 h
    exact bind hx fun _ => ih hxs

theorem mapM {xs : List α} {f : α → ExceptT Fault (StateM σ) β} (h : ∀ x ∈ xs, Follows R (f x)) :
    Follows R (xs.mapM f) := by
  induction xs with
  | nil => exact pure _
  | cons x xs ih =>
    obtain ⟨hx, hxs⟩ := List.forall_mem_cons.1 h
    rw [List.mapM_cons]
    exact bind hx fun _ => bind (ih hxs) fun _ => pure _

end Follows

end

/-! ## Giving a field -/

/-- Giving a field the same content twice is giving it once. -/
theorem Record.put_put_self (r : Record) (f : Field) (s : Slot) :
    (r.put f s).put f s = r.put f s := by
  simp [Record.put]

namespace Cell

/-- An object that has been given a field. Sequences have no fields. -/
def put (f : Field) (s : Slot) : Cell → Cell
  | node kind fields => node kind (fields.put f s)
  | foreign label fields => foreign label (fields.put f s)
  | list items => list items
  | tuple items => tuple items

/-- The fault with which an object refuses a field: frozen nodes and sequences do, nodes of the four
other kinds and foreign objects do not. -/
def refusal? (f : Field) : Cell → Option Fault
  | node kind _ => if kind.isFrozen then some (.frozen kind f) else none
  | foreign _ _ => none
  | list _ => some (.notAnObject f)
  | tuple _ => some (.notAnObject f)

@[simp] theorem put_put_self (f : Field) (s : Slot) (cell : Cell) :
    (cell.put f s).put f s = cell.put f s := by
  cases cell <;> simp [put, Record.put_put_self]

@[simp] theorem refusal?_put (f g : Field) (s : Slot) (cell : Cell) :
    (cell.put f s).refusal? g = cell.refusal? g := by
  cases cell <;> rfl

end Cell

namespace Store

variable {store store' : Store}

/-- The fault with which what is behind a slot refuses a field. An atom is no object. -/
def refusal? (store : Store) (f : Field) : Slot → Option Fault
  | .atom _ => some (.notAnObject f)
  | .ref a =>
    match store.get? a with
    | some cell => cell.refusal? f
    | none => some (.notAnObject f)

/-- A field is refused, or else it is given to an object and nothing else changes. -/
theorem assign_cases (store : Store) (target : Slot) (f : Field) (s : Slot) :
    (∃ e, store.refusal? f target = some e ∧ store.assign target f s = .error e) ∨
    ∃ a cell, target = .ref a ∧ store.get? a = some cell ∧ store.refusal? f target = none ∧
      store.assign target f s = .ok (store.update a (cell.put f s)) := by
  cases target with
  | atom a => exact .inl ⟨_, rfl, rfl⟩
  | ref a =>
    simp only [refusal?, assign]
    cases ha : store.get? a with
    | none => exact .inl ⟨_, rfl, rfl⟩
    | some cell =>
      cases cell with
      | list items => exact .inl ⟨_, rfl, rfl⟩
      | tuple items => exact .inl ⟨_, rfl, rfl⟩
      | foreign label fields => exact .inr ⟨a, _, rfl, ha, rfl, rfl⟩
      | node kind fields =>
        simp only [Cell.refusal?]
        cases kind.isFrozen with
        | true => exact .inl ⟨_, rfl, rfl⟩
        | false => exact .inr ⟨a, _, rfl, ha, rfl, rfl⟩

/-! ## Stores -/

/-- Every node of the first store is still kept in the second one, and with an owner if it had
one. -/
def KeepsOwners (store store' : Store) : Prop :=
  ∀ a kind fields, store.get? a = some (.node kind fields) →
    ∃ fields', store'.get? a = some (.node kind fields') ∧
      (isOwned fields = true → isOwned fields' = true)

instance : Std.Refl KeepsOwners := ⟨fun _ _ _ fields h => ⟨fields, h, id⟩⟩

instance : IsTrans Store KeepsOwners where
  trans store₁ store₂ store₃ h h' a kind fields ha := by
    obtain ⟨fields', ha', ho⟩ := h a kind fields ha
    obtain ⟨fields'', ha'', ho'⟩ := h' a kind fields' ha'
    exact ⟨fields'', ha'', ho' ∘ ho⟩

/-- What leaves all nodes as they are leaves them their owners. -/
theorem keepsOwners_of_get? (h : ∀ a kind fields, store.get? a = some (.node kind fields) →
    store'.get? a = some (.node kind fields)) : store.KeepsOwners store' :=
  fun a kind fields ha => ⟨fields, h a kind fields ha, id⟩

theorem keepsOwners_insert (store : Store) (cell : Cell) : store.KeepsOwners (store.insert cell) :=
  keepsOwners_of_get? fun _ _ _ ha => get?_insert_of_get? ha cell

theorem keepsOwners_freshNan (store : Store) : store.KeepsOwners store.freshNan.2 :=
  keepsOwners_of_get? fun _ _ _ => id

/-- Adding an item changes a list, and no node. -/
theorem keepsOwners_push (store : Store) (l : Nat) (s : Slot) :
    store.KeepsOwners (store.push l s) := by
  apply keepsOwners_of_get?
  intro a kind fields ha
  unfold push
  split
  case h_1 items hl =>
    have hal : a ≠ l := by
      rintro rfl
      rw [ha] at hl
      cases hl
    rw [get?_update_of_ne _ _ hal, ha]
  case h_2 => exact ha

theorem isOwned_put {fields : Record} {f : Field} {s : Slot} (h : isOwned fields = true)
    (hs : f = .owner → s ≠ .atom .absent) : isOwned (fields.put f s) = true := by
  unfold isOwned at h ⊢
  by_cases hf : f = .owner
  · subst hf
    rw [Record.get?_put_self]
    simpa using hs rfl
  · rw [Record.get?_put_of_ne _ _ (Ne.symm hf)]
    exact h

/-- Giving a field takes no owner away, unless it is the owner that is given, and nothing for it. -/
theorem keepsOwners_assign {target s : Slot} {f : Field} (hs : f = .owner → s ≠ .atom .absent)
    (h : store.assign target f s = .ok store') : store.KeepsOwners store' := by
  rcases assign_cases store target f s with ⟨e, -, he⟩ | ⟨b, cell, rfl, hb, -, hok⟩
  · rw [he] at h
    cases h
  · rw [hok] at h
    cases h
    intro a kind fields ha
    by_cases hab : a = b
    · subst hab
      rw [hb] at ha
      cases ha
      exact ⟨fields.put f s, get?_update_self _ _ (lt_next_of_get? hb), fun ho => isOwned_put ho hs⟩
    · exact ⟨fields, by rw [get?_update_of_ne _ _ hab, ha], id⟩

end Store

/-! ## Building -/

namespace Build

open Store (KeepsOwners)

theorem follows_insert (cell : Cell) : Follows KeepsOwners (insert cell) :=
  fun store => store.keepsOwners_insert cell

theorem follows_atom (a : Atom) : Follows KeepsOwners (atom a) := by
  unfold atom
  split
  · exact fun store => store.keepsOwners_freshNan
  · exact .pure _

theorem follows_assign {target s : Slot} {f : Field} (hs : f = .owner → s ≠ .atom .absent) :
    Follows KeepsOwners (change fun store => store.assign target f s) := by
  intro store
  rw [change_eq]
  cases h : store.assign target f s with
  | error e => exact Std.Refl.refl store
  | ok store' => exact Store.keepsOwners_assign hs h

theorem follows_items (s : Slot) : Follows KeepsOwners (items s) := by
  refine .bind .get fun store => ?_
  split
  · exact .pure _
  · exact .throw _

/-- What takes declarations over is an object, so they have an owner then. -/
theorem follows_claim (owner : Nat) (declarations : Slot) :
    Follows KeepsOwners (claim (.ref owner) declarations) :=
  .bind (follows_items declarations) fun _ => .forM fun _ _ => follows_assign nofun

theorem follows_takeOver (kind : Kind) (a : Nat) (fields : Record) :
    Follows KeepsOwners (takeOver kind (.ref a) fields) := by
  unfold takeOver
  split
  · exact follows_claim a _
  · exact .pure _

theorem follows_field (kind : Kind) (given : List (Field × Slot)) (f : Field) (default : Default) :
    Follows KeepsOwners (field kind given f default) := by
  unfold field
  split
  · exact .pure _
  · cases default with
    | required => exact .throw _
    | atom a => exact .pure _
    | emptyList => exact .bind (follows_insert _) fun _ => .pure _

theorem follows_node (kind : Kind) (given : List (Field × Slot)) :
    Follows KeepsOwners (node kind given) := by
  have hcheck (f : Field) : Follows KeepsOwners (checkField kind f) := by
    unfold checkField
    split
    · exact .pure _
    · exact .throw _
  refine .bind (.forM fun e _ => hcheck e.1) fun _ => ?_
  refine .bind (.mapM fun e _ => follows_field kind given e.1 e.2) fun entries => ?_
  -- What the node takes over is given the address of the node for its owner.
  intro store
  have hnode := store.keepsOwners_insert (.node kind ⟨entries⟩)
  have htake : Follows KeepsOwners (do
      takeOver kind (.ref store.next) ⟨entries⟩
      return Slot.ref store.next) :=
    .bind (follows_takeOver kind store.next ⟨entries⟩) fun _ => .pure _
  exact IsTrans.trans _ _ _ hnode (htake _)

theorem follows_named (names : Names) (name : String) : Follows KeepsOwners (named names name) := by
  unfold named
  split
  · exact .pure _
  · exact .throw _

end Build

namespace Blueprint

open Store (KeepsOwners)

variable (names : Names)

mutual

/-- Building leaves every object that has an owner with one, also if it fails. -/
theorem follows_build : ∀ b : Blueprint, Follows KeepsOwners (b.build names)
  | .atom a => by
    rw [build]
    exact Build.follows_atom a
  | .foreign label => by
    rw [build]
    exact Build.follows_insert _
  | .list items => by
    rw [build]
    exact .bind (follows_buildItems items) fun _ => Build.follows_insert _
  | .tuple items => by
    rw [build]
    exact .bind (follows_buildItems items) fun _ => Build.follows_insert _
  | .node kind given => by
    rw [build]
    exact .bind (follows_buildFields given) fun _ => Build.follows_node kind _
  | .named name => by
    rw [build]
    exact Build.follows_named names name

theorem follows_buildItems : ∀ bs : List Blueprint, Follows KeepsOwners (buildItems names bs)
  | [] => by
    rw [buildItems]
    exact .pure _
  | b :: bs => by
    rw [buildItems]
    exact .bind (follows_build b) fun _ => .bind (follows_buildItems bs) fun _ => .pure _

theorem follows_buildFields :
    ∀ bs : List (Field × Blueprint), Follows KeepsOwners (buildFields names bs)
  | [] => by
    rw [buildFields]
    exact .pure _
  | (f, b) :: bs => by
    rw [buildFields]
    exact .bind (follows_build b) fun _ => .bind (follows_buildFields bs) fun _ => .pure _

end

theorem follows_compare (a b : Blueprint) : Follows KeepsOwners (compare names a b) :=
  .bind (follows_build names a) fun _ => .bind (follows_build names b) fun _ =>
    .bind .get fun _ => .pure _

end Blueprint

/-! ## Sessions -/

namespace Session

/-- The objects of the first session that have an owner have one in the second session too. -/
def KeepsOwners (session session' : Session) : Prop := session.store.KeepsOwners session'.store

instance : Std.Refl KeepsOwners := ⟨fun session => Std.Refl.refl session.store⟩

instance : IsTrans Session KeepsOwners where
  trans session _ _ h h' := IsTrans.trans session.store _ _ h h'

theorem follows_of_build {α : Type} {act : Names → Build α}
    (h : ∀ names, Follows Store.KeepsOwners (act names)) : Follows KeepsOwners (build act) :=
  fun session => h session.names session.store

theorem follows_print (act : Print String) : Follows KeepsOwners (print act) :=
  fun session => Std.Refl.refl session.store

theorem follows_value (b : Blueprint) : Follows KeepsOwners (value b) :=
  .bind (follows_of_build fun names => b.follows_build names) fun _ => .bind .get fun _ => .pure _

/-- A step leaves every object that has an owner with one, unless it gives the owner. -/
theorem follows_perform {s : Step} (hs : ∀ target content, s ≠ .assign target .owner content) :
    Follows KeepsOwners (perform s) := by
  have hnamed (name : String) :
      Follows KeepsOwners (build fun names => Build.named names name) :=
    follows_of_build fun names => Build.follows_named names name
  cases s with
  | define name b =>
    refine .bind (follows_of_build fun names => b.follows_build names) fun _ => ?_
    exact .bind (.modify fun session => Std.Refl.refl session.store) fun _ => .pure _
  | render b =>
    exact .bind (follows_value b) fun _ => .bind (follows_print _) fun _ => .pure _
  | printDocument b =>
    exact .bind (follows_value b) fun _ => .bind (follows_print _) fun _ => .pure _
  | setLayout request =>
    refine .bind (.lift _) fun _ => ?_
    exact .bind (.modify fun session => Std.Refl.refl session.store) fun _ => .pure _
  | append target field item =>
    refine .bind (hnamed target) fun _ => .bind .get fun _ => .bind (.lift _) fun a => ?_
    refine .bind (follows_of_build fun names => item.follows_build names) fun s => ?_
    exact .bind (.modify fun session => session.store.keepsOwners_push a s) fun _ => .pure _
  | assign target field content =>
    have hf : field ≠ .owner := by
      rintro rfl
      exact hs target content rfl
    refine .bind (follows_of_build fun names => content.follows_build names) fun _ => ?_
    refine .bind (follows_of_build fun names => ?_) fun _ => .pure _
    exact .bind (Build.follows_named names target) fun _ =>
      Build.follows_assign fun h => absurd h hf
  | isOwned target =>
    exact .bind (hnamed target) fun _ => .bind .get fun _ => .bind (.lift _) fun _ => .pure _
  | same a b =>
    exact .bind (follows_of_build fun names => Blueprint.follows_compare names a b) fun _ => .pure _

/-- Along a run, what has an owner in one session has one in all later ones. -/
theorem pairwise_run (session : Session) {steps : List Step}
    (h : ∀ s ∈ steps, ∀ target content, s ≠ .assign target .owner content) :
    (session :: (session.run steps).map Prod.snd).Pairwise KeepsOwners := by
  induction steps generalizing session with
  | nil => simp [run]
  | cons s steps ih =>
    obtain ⟨hs, hsteps⟩ := List.forall_mem_cons.1 h
    have hstep : session.KeepsOwners (session.step s).2 := follows_perform hs session
    have hrest := ih (session.step s).2 hsteps
    show (session :: (session.step s).2 :: _).Pairwise KeepsOwners
    refine List.pairwise_cons.2 ⟨fun later hlater => ?_, hrest⟩
    rcases List.mem_cons.1 hlater with rfl | hlater
    · exact hstep
    · exact IsTrans.trans _ _ _ hstep ((List.pairwise_cons.1 hrest).1 later hlater)

end Session

end Stylesheet
