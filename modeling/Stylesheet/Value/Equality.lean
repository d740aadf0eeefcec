import Stylesheet.Value.Basic

/-!
# Sameness of values

Two values are the same (`Value.same`) if they are atoms that stand for the same thing, foreign
objects with the same text, sequences of the same form with like items, or nodes of the same kind
with like fields (`same_node`). The owner of a declaration and the fields that an object has been
given do not count.

Being alike (`Value.alike`) differs from being the same for nans only. A nan is not the same as
itself, but like itself, wherever it is met; so every value is like itself (`alike_self`), and only
a nan that stands alone is not the same as itself. An object that contains itself is known by its
key, and is both.
-/

namespace Stylesheet.Value

/-- The key of an object that contains itself. -/
def key? : Value → Option Nat
  | object key _ _ => key
  | _ => none

/-- The contents of an object. -/
def contents : Value → Value
  | object _ _ v => v.contents
  | v => v

/-- Whether there are as many tests as values and each value passes the test at its place. -/
def passAll : List (Value → Bool) → List Value → Bool
  | [], [] => true
  | p :: ps, v :: vs => p v && passAll ps vs
  | _, _ => false

/-- The test for holding the same as a value, from the tests for its parts. How atoms compare is
given for the value itself; its items and fields have to be alike. -/
def sameTest : Fold ((Atom → Atom → Bool) → Value → Bool) where
  atom a p w := match w.contents with
    | atom b => p a b
    | _ => false
  foreign label _ w := match w.contents with
    | foreign label' => label == label'
    | _ => false
  list tests _ w := match w.contents with
    | list ws => passAll (tests.map (· Atom.alike)) ws
    | _ => false
  tuple tests _ w := match w.contents with
    | tuple ws => passAll (tests.map (· Atom.alike)) ws
    | _ => false
  node n _ w := match w.contents with
    | node m => n.kind == m.kind && passAll (n.fields.map (· Atom.alike)) m.fields
    | _ => false
  object key test p w := Atom.agree key w.key? || test p w

/-- Whether two values are the same. -/
def same (v : Value) : Value → Bool := v.fold sameTest Atom.same

/-- Whether two values are one and the same, or hold the same. -/
def alike (v : Value) : Value → Bool := v.fold sameTest Atom.alike

/-- Whether two sequences have like items. -/
def alikeItems (vs ws : List Value) : Bool := passAll (vs.map alike) ws

@[simp] theorem alikeItems_nil : alikeItems [] [] = true := rfl

@[simp] theorem alikeItems_cons (v w : Value) (vs ws : List Value) :
    alikeItems (v :: vs) (w :: ws) = (alike v w && alikeItems vs ws) := rfl

/-! ## By the form of the values -/

section

variable (p : Atom → Atom → Bool)

theorem map_fold_sameTest (vs : List Value) :
    (vs.map (fold sameTest)).map (· Atom.alike) = vs.map alike := by
  simp [alike, Function.comp_def]

theorem fold_sameTest_atom (a : Atom) (w : Value) :
    (atom a).fold sameTest p w =
      match w.contents with
      | atom b => p a b
      | _ => false := rfl

theorem fold_sameTest_foreign (label : String) (w : Value) :
    (foreign label).fold sameTest p w =
      match w.contents with
      | foreign label' => label == label'
      | _ => false := rfl

theorem fold_sameTest_list (vs : List Value) (w : Value) :
    (list vs).fold sameTest p w =
      match w.contents with
      | list ws => alikeItems vs ws
      | _ => false := by
  simp only [alikeItems, ← map_fold_sameTest]
  rw [fold_list]; rfl

theorem fold_sameTest_tuple (vs : List Value) (w : Value) :
    (tuple vs).fold sameTest p w =
      match w.contents with
      | tuple ws => alikeItems vs ws
      | _ => false := by
  simp only [alikeItems, ← map_fold_sameTest]
  rw [fold_tuple]; rfl

theorem fold_sameTest_node (n : Node Value) (w : Value) :
    (node n).fold sameTest p w =
      match w.contents with
      | node m => n.kind == m.kind && alikeItems n.fields m.fields
      | _ => false := by
  rw [fold_node]
  simp only [alikeItems, ← map_fold_sameTest]
  rw [← Node.fields_map, ← Node.kind_map (fold sameTest) n]; rfl

end

@[simp] theorem same_atom (a b : Atom) : same (atom a) (atom b) = a.same b := rfl

@[simp] theorem alike_atom (a b : Atom) : alike (atom a) (atom b) = a.alike b := rfl

@[simp] theorem same_foreign (s t : String) : same (foreign s) (foreign t) = (s == t) := rfl

@[simp] theorem alike_foreign (s t : String) : alike (foreign s) (foreign t) = (s == t) := rfl

@[simp] theorem same_list (vs ws : List Value) : same (list vs) (list ws) = alikeItems vs ws := by
  rw [same, fold_sameTest_list]; rfl

@[simp] theorem alike_list (vs ws : List Value) : alike (list vs) (list ws) = alikeItems vs ws := by
  rw [alike, fold_sameTest_list]; rfl

@[simp] theorem same_tuple (vs ws : List Value) :
    same (tuple vs) (tuple ws) = alikeItems vs ws := by
  rw [same, fold_sameTest_tuple]; rfl

@[simp] theorem alike_tuple (vs ws : List Value) :
    alike (tuple vs) (tuple ws) = alikeItems vs ws := by
  rw [alike, fold_sameTest_tuple]; rfl

@[simp] theorem same_node (m n : Node Value) :
    same (node m) (node n) = (m.kind == n.kind && alikeItems m.fields n.fields) := by
  rw [same, fold_sameTest_node]; rfl

@[simp] theorem alike_node (m n : Node Value) :
    alike (node m) (node n) = (m.kind == n.kind && alikeItems m.fields n.fields) := by
  rw [alike, fold_sameTest_node]; rfl

/-- Two objects with one key are the same. -/
theorem same_object_of_key (key : Nat) (as bs : List (Field × Value)) (v w : Value) :
    same (object (some key) as v) (object (some key) bs w) = true := by
  rw [same, fold_object]
  simp [sameTest, key?, Atom.agree]

/-- The fields that an object has been given do not count. -/
@[simp] theorem same_object_none (as : List (Field × Value)) (v w : Value) :
    same (object none as v) w = same v w := by
  rw [same, fold_object]
  simp [sameTest, Atom.agree, same]

/-! ## Values and themselves -/

theorem alikeItems_self {vs : List Value} (h : ∀ v ∈ vs, alike v v = true) :
    alikeItems vs vs = true := by
  induction vs with
  | nil => rfl
  | cons v vs ih => simp_all

/-- A value is like every object that has its contents. -/
theorem alike_of_contents_eq (v w : Value) (h : w.contents = v.contents) : alike v w = true := by
  match v with
  | atom a =>
    rw [alike, fold_sameTest_atom, h]
    exact a.alike_self
  | foreign label =>
    rw [alike, fold_sameTest_foreign, h]
    exact beq_self_eq_true label
  | list vs =>
    rw [alike, fold_sameTest_list, h]
    exact alikeItems_self fun v hv =>
      have := List.sizeOf_lt_of_mem hv
      alike_of_contents_eq v v rfl
  | tuple vs =>
    rw [alike, fold_sameTest_tuple, h]
    exact alikeItems_self fun v hv =>
      have := List.sizeOf_lt_of_mem hv
      alike_of_contents_eq v v rfl
  | node n =>
    rw [alike, fold_sameTest_node, h]
    have hn : alikeItems n.fields n.fields = true := alikeItems_self fun v hv =>
      have := sizeOf_lt_of_mem_fields hv
      alike_of_contents_eq v v rfl
    exact Bool.and_eq_true_iff.mpr ⟨beq_self_eq_true n.kind, hn⟩
  | object key as v =>
    have ih : alike v w = true := alike_of_contents_eq v w h
    rw [alike, fold_object]
    exact (Bool.or_eq_true _ _).mpr (.inr ih)
termination_by sizeOf v
decreasing_by
  all_goals
    simp only [list.sizeOf_spec, tuple.sizeOf_spec, node.sizeOf_spec, object.sizeOf_spec]
    omega

/-- Every value is like itself. -/
@[simp] theorem alike_self (v : Value) : alike v v = true := alike_of_contents_eq v v rfl

end Stylesheet.Value
