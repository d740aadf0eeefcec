import Stylesheet.Layout

/-!
# The store of objects

Lists, tuples, nodes and foreign objects have an identity: they are kept in a store under an address
and referred to from fields and items, so that a change to one of them shows wherever it is referred
to. Nodes of the kinds that are not frozen, and foreign objects, can be given fields; lists can be
added to. Of the atoms only nans have an identity; the store counts them, so that each can be given
a payload of its own (`Store.freshNan`).

What an operation does shows in `Store.get?` (`get?_insert_self`, `get?_insert_lt`,
`get?_update_self`, `get?_update_of_ne`) and in the fields of a record (`Record.get?_put_self`,
`Record.get?_put_of_ne`).
-/

namespace Stylesheet

/-- What a field or an item holds: an atom, or a reference to an object. -/
inductive Slot where
  | atom (a : Atom)
  | ref (address : Nat)
deriving DecidableEq

/-- The fields of an object, each once. -/
structure Record where
  entries : List (Field × Slot) := []
deriving DecidableEq

namespace Record

/-- What a field holds. -/
def get? (r : Record) (f : Field) : Option Slot := r.entries.lookup f

/-- Gives a field a new content. -/
def put (r : Record) (f : Field) (s : Slot) : Record :=
  ⟨(f, s) :: r.entries.filter fun e => e.1 ≠ f⟩

@[simp] theorem get?_put_self (r : Record) (f : Field) (s : Slot) :
    (r.put f s).get? f = some s := by
  simp [get?, put]

theorem lookup_filter_ne {es : List (Field × Slot)} {f g : Field} (h : g ≠ f) :
    (es.filter fun e => e.1 ≠ f).lookup g = es.lookup g := by
  induction es with
  | nil => rfl
  | cons e es ih =>
    obtain ⟨k, s⟩ := e
    by_cases hk : k = f
    · subst hk
      have hg : (g == k) = false := by simp [h]
      rw [List.filter_cons_of_neg (by simp), ih, List.lookup_cons, hg]
    · simp only [ne_eq, hk, not_false_eq_true, decide_true, List.filter_cons_of_pos,
        List.lookup_cons]
      split <;> simp_all

theorem get?_put_of_ne (r : Record) {f g : Field} (s : Slot) (h : g ≠ f) :
    (r.put f s).get? g = r.get? g := by
  have hg : (g == f) = false := by simp [h]
  rw [get?, get?, put, List.lookup_cons, hg]
  exact lookup_filter_ne h

end Record

/-- An object. -/
inductive Cell where
  | list (items : List Slot)
  | tuple (items : List Slot)
  | node (kind : Kind) (fields : Record)
  | foreign (label : String) (fields : Record)
deriving DecidableEq

/-- The objects built so far, by address, and the number of nans made so far. -/
structure Store where
  cells : Array Cell := #[]
  nans : Nat := 0

namespace Store

/-- The object at an address. -/
def get? (store : Store) (address : Nat) : Option Cell := store.cells[address]?

/-- The address that the next object is kept under. -/
def next (store : Store) : Nat := store.cells.size

/-- Keeps a new object. -/
def insert (store : Store) (cell : Cell) : Store := { store with cells := store.cells.push cell }

/-- Replaces the object at an address. -/
def update (store : Store) (address : Nat) (cell : Cell) : Store :=
  { store with cells := store.cells.setIfInBounds address cell }

/-- A nan that is not one of those before it. -/
def freshNan (store : Store) : Atom × Store :=
  (.float (.nan store.nans), { store with nans := store.nans + 1 })

theorem get?_insert_lt (store : Store) (cell : Cell) {a : Nat} (h : a < store.next) :
    (store.insert cell).get? a = store.get? a := by
  simp only [get?, insert, next] at *
  grind

@[simp] theorem get?_insert_self (store : Store) (cell : Cell) :
    (store.insert cell).get? store.next = some cell := by
  simp [get?, insert, next]

@[simp] theorem next_insert (store : Store) (cell : Cell) :
    (store.insert cell).next = store.next + 1 := by
  simp [insert, next]

@[simp] theorem next_update (store : Store) (a : Nat) (cell : Cell) :
    (store.update a cell).next = store.next := by
  simp [update, next]

theorem get?_update_self (store : Store) (cell : Cell) {a : Nat} (h : a < store.next) :
    (store.update a cell).get? a = some cell := by
  simp only [get?, update, next] at *
  grind

theorem get?_update_of_ne (store : Store) (cell : Cell) {a b : Nat} (h : b ≠ a) :
    (store.update a cell).get? b = store.get? b := by
  simp only [get?, update]
  grind

/-- What a field of an object holds. -/
def read (store : Store) (target : Slot) (f : Field) : Except Fault Slot :=
  let held := match target with
    | .atom _ => none
    | .ref a =>
      match store.get? a with
      | some (.node kind fields) => fields.get? (kind.fieldRead f)
      | some (.foreign _ fields) => fields.get? f
      | _ => none
  match held with
  | some s => .ok s
  | none => .error (.noSuchField f)

/-- The items of a sequence; those of a text are its characters. -/
def items? (store : Store) (s : Slot) : Option (List Slot) :=
  match s with
  | .atom a => a.chars?.map (List.map .atom)
  | .ref a =>
    match store.get? a with
    | some (.list items) => some items
    | some (.tuple items) => some items
    | _ => none

/-- Gives a field of an object a new content. Frozen nodes and plain values have no field that can
change. In the program that is modelled a keyword does take fields, like a foreign object; the store
keeps fields of objects only and refuses keywords as it does other atoms, so what holds of owners is
stated without keywords (`Store.IsItem`). -/
def assign (store : Store) (target : Slot) (f : Field) (s : Slot) : Except Fault Store :=
  match target with
  | .atom _ => .error (.notAnObject f)
  | .ref a =>
    match store.get? a with
    | some (.node kind fields) =>
      if kind.isFrozen then .error (.frozen kind f)
      else .ok (store.update a (.node kind (fields.put f s)))
    | some (.foreign label fields) => .ok (store.update a (.foreign label (fields.put f s)))
    | _ => .error (.notAnObject f)

/-- The address of the list that a field of an object holds. -/
def listAt (store : Store) (target : Slot) (f : Field) : Except Fault Nat := do
  let held ← store.read target f
  match held with
  | .atom _ => .error (.notAList f)
  | .ref a =>
    match store.get? a with
    | some (.list _) => .ok a
    | _ => .error (.notAList f)

/-- Adds an item to the list at an address. -/
def push (store : Store) (a : Nat) (s : Slot) : Store :=
  match store.get? a with
  | some (.list items) => store.update a (.list (items ++ [s]))
  | _ => store

end Store

end Stylesheet
