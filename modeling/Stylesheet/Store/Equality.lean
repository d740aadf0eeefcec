import Stylesheet.Store.Basic

/-!
# Sameness in a store

Two references are the same if they lead to one object, or to two objects with the same contents:
sequences of the same form with like items, nodes of the same kind with like fields, foreign objects
with the same text. What leads to one object needs no comparison, which is what ends the comparison
of objects that contain themselves: a pair of objects is not met again inside itself, so there are
at most as many levels as pairs. A nan inside an object needs none either: it is like itself, though
it is not the same as itself where it stands alone.
-/

namespace Stylesheet.Store

/-- Whether two lists are equally long and `p` holds of the elements at each place. -/
def pairwise (p : Slot → Slot → Bool) : List Slot → List Slot → Bool
  | [], [] => true
  | s :: ss, t :: ts => p s t && pairwise p ss ts
  | _, _ => false

/-- The contents of a node, field by field. -/
def contents (kind : Kind) (fields : Record) : List Slot :=
  kind.contents.map fun f => (fields.get? f).getD (.atom .absent)

/-- Whether two objects have the same contents, where `p` compares what they refer to. -/
def sameCells (p : Slot → Slot → Bool) : Cell → Cell → Bool
  | .list ss, .list ts => pairwise p ss ts
  | .tuple ss, .tuple ts => pairwise p ss ts
  | .foreign s _, .foreign t _ => s == t
  | .node k ss, .node l ts => k == l && pairwise p (contents k ss) (contents l ts)
  | _, _ => false

/-- Whether two slots hold the same, as far as it shows within a number of levels. Atoms outside
objects are compared by `p`. -/
def sameWithin (store : Store) (p : Atom → Atom → Bool) : Nat → Slot → Slot → Bool
  | _, .atom a, .atom b => p a b
  | levels + 1, .ref a, .ref b =>
    a == b ||
      match store.get? a, store.get? b with
      | some c, some d => sameCells (store.sameWithin Atom.alike levels) c d
      | _, _ => false
  | _, _, _ => false

/-- Whether two slots hold the same. -/
def same (store : Store) (s t : Slot) : Bool :=
  store.sameWithin Atom.same (store.next * store.next + 1) s t

@[simp] theorem same_atom (store : Store) (a b : Atom) :
    store.same (.atom a) (.atom b) = a.same b := rfl

/-- Every object is the same as itself. -/
@[simp] theorem same_ref_self (store : Store) (a : Nat) : store.same (.ref a) (.ref a) = true := by
  simp [same, sameWithin]

end Stylesheet.Store
