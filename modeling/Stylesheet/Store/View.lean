import Stylesheet.Store.Basic

/-!
# The tree behind a reference

`Store.view` follows references and gives the value that an object is at the moment. A declaration
counts as owned if its owner field holds anything; the owner itself is not part of the tree, so the
tree of a declaration does not lead back to its rule set.

Objects may contain themselves all the same (`Store.loops`). Printing meets such an object at most
three times on one way down, in the place of a document, for the group it belongs to and for its
text, before it would have to go on forever; so this is how often it is unfolded, and its address is
the key by which its occurrences are known. Since no other object occurs twice on one way down,
three times as many levels as there are objects are enough for all of it.
-/

namespace Stylesheet

/-- The fields that an object has been given, besides those of `kind`, and that printing looks
for. -/
def Record.added (fields : Record) (kind : Option Kind) : List (Field × Slot) :=
  let own := (kind.map Kind.contents).getD []
  (Field.sought.filter fun f => !own.contains f).filterMap fun f =>
    (fields.get? f).map fun s => (f, s)

/-- What an object refers to, its owner apart. -/
def Cell.slots : Cell → List Slot
  | list items => items
  | tuple items => items
  | node kind fields =>
    kind.contents.filterMap fields.get? ++ (fields.added (some kind)).map Prod.snd
  | foreign _ fields => (fields.added none).map Prod.snd

namespace Store

/-- The addresses among slots. -/
def addresses (slots : List Slot) : List Nat :=
  slots.filterMap fun
    | .atom _ => none
    | .ref a => some a

/-- The addresses that the object at an address refers to. -/
def neighbours (store : Store) (a : Nat) : List Nat :=
  match store.get? a with
  | some cell => addresses cell.slots
  | none => []

/-- The addresses that can be reached from those of `border` in a number of steps, together with
those of `met`. -/
def reachWithin (store : Store) : Nat → List Nat → List Nat → List Nat
  | 0, _, met => met
  | steps + 1, border, met =>
    let fresh := ((border.flatMap store.neighbours).filter fun a => !met.contains a).eraseDups
    if fresh.isEmpty then met else store.reachWithin steps fresh (fresh ++ met)

/-- The addresses that can be reached from some addresses, those included. -/
def reach (store : Store) (start : List Nat) : List Nat :=
  store.reachWithin store.next start.eraseDups start.eraseDups

/-- The objects behind a slot that contain themselves. An object is built after what it holds, so
there are none unless a reference leads to an address that is not smaller. -/
def loops (store : Store) (s : Slot) : List Nat :=
  let met := store.reach (addresses [s])
  if met.any fun a => (store.neighbours a).any fun b => a ≤ b then
    met.filter fun a => (store.reach (store.neighbours a)).contains a
  else []

/-- Whether an object with these fields has an owner. -/
def isOwned (fields : Record) : Bool :=
  match fields.get? .owner with
  | none => false
  | some s => s ≠ .atom .absent

/-- A value as an object, if it has a key or has been given fields. -/
def asObject (key : Option Nat) (added : List (Field × Value)) (v : Value) : Value :=
  if key.isNone && added.isEmpty then v else .object key added v

/-- The value of a slot, where references are followed at most `depth` deep. Of the objects in
`loops`, the slot lies inside those of `around`, as often as they occur there. -/
def viewWithin (store : Store) (loops : List Nat) (depth : Nat) (around : List Nat) (s : Slot) :
    Value :=
  match depth, s with
  | _, .atom a => .atom a
  | 0, .ref _ => .absent
  | depth + 1, .ref a =>
    let key := if loops.contains a then some a else none
    if 3 ≤ around.count a then .object key [] .absent
    else
      let look := store.viewWithin loops depth (key.toList ++ around)
      let given (fields : List (Field × Slot)) := fields.map fun e => (e.1, look e.2)
      match store.get? a with
      | none => .absent
      | some (.list items) => asObject key [] (.list (items.map look))
      | some (.tuple items) => asObject key [] (.tuple (items.map look))
      | some (.foreign label fields) => asObject key (given (fields.added none)) (.foreign label)
      | some (.node kind fields) =>
        asObject key (given (fields.added (some kind)))
          (.node (Node.assemble kind (fun f => look ((fields.get? f).getD (.atom .absent)))
            (isOwned fields)))

/-- The value of a slot. -/
def view (store : Store) (s : Slot) : Value :=
  store.viewWithin (store.loops s) (3 * store.next + 1) [] s

@[simp] theorem view_atom (store : Store) (a : Atom) : store.view (.atom a) = .atom a := rfl

end Store

end Stylesheet
