import Mathlib.Data.List.Forall2
import Stylesheet.Proofs.Everywhere

/-!
# The plainest form of a value

Values that are the same need not be equal: a whole double is the same as an integer, a keyword the
same as its text, and the owner of a declaration does not count. `Value.normal` writes every atom of
a value in the plainest way. It keeps all that printing asks of a value but the type of an atom
(`text?_normal`, `isVacant_normal`, `same_normal`), and two values that are alike and whose
declarations have owners in the same places have one plainest form (`normal_eq_of_alike`).

That two doubles with the same value are one, the zeros apart, rests on the stored form of their
magnitudes (`Magnitude.toRat_injective`).
-/

namespace Stylesheet

namespace Number

/-- Magnitudes with the same value are one: a smaller exponent would need more than 53 bits of
significand. -/
theorem Magnitude.eq_of_exponent_le {x y : Magnitude} (hle : x.exponent ≤ y.exponent)
    (h : x.toRat = y.toRat) : x = y := by
  obtain ⟨k, hk⟩ := Int.le.dest hle
  have hsignificand : x.significand = y.significand * 2 ^ k := by
    have hvalue : (x.significand : Rat) * 2 ^ x.exponent =
        (y.significand * 2 ^ k : Rat) * 2 ^ x.exponent := by
      calc (x.significand : Rat) * 2 ^ x.exponent = y.significand * 2 ^ (x.exponent + k) := by
            rw [hk]; exact h
        _ = y.significand * 2 ^ k * 2 ^ x.exponent := by
            rw [Rat.zpow_add (by decide), Rat.zpow_natCast, Rat.mul_comm (2 ^ x.exponent),
              Rat.mul_assoc]
    have hcast : (x.significand : Rat) = (y.significand * 2 ^ k : Nat) := by
      have hne : (2 : Rat) ^ x.exponent ≠ 0 := Rat.ne_of_gt (Rat.zpow_pos (by decide))
      have hcancel := congrArg (· / (2 : Rat) ^ x.exponent) hvalue
      simpa [Rat.div_def, Rat.mul_assoc, Rat.mul_inv_cancel _ hne] using hcancel
    exact_mod_cast hcast
  cases k with
  | zero =>
    obtain ⟨m, e, hm⟩ := x
    obtain ⟨m', e', hm'⟩ := y
    simp_all
  | succ k =>
    -- The last of 53 bits of the smaller exponent would have to be set.
    have hx := x.canonical
    have hy := y.canonical
    unfold IsCanonical at hx hy
    have hpow : Nat.pow 2 53 = 2 * Nat.pow 2 52 := by decide
    have hgrow : 2 * y.significand ≤ x.significand := by
      have hscale : y.significand ≤ y.significand * 2 ^ k :=
        Nat.le_mul_of_pos_right _ (Nat.two_pow_pos k)
      rw [hsignificand, Nat.pow_succ, ← Nat.mul_assoc]
      omega
    omega


/-- Magnitudes with the same value are one. -/
theorem Magnitude.toRat_injective {x y : Magnitude} (h : x.toRat = y.toRat) : x = y := by
  rcases Int.le_total x.exponent y.exponent with hle | hle
  · exact eq_of_exponent_le hle h
  · exact (eq_of_exponent_le hle h.symm).symm

theorem Magnitude.toRat_nonneg (x : Magnitude) : 0 ≤ x.toRat :=
  Rat.mul_nonneg (by exact_mod_cast Nat.zero_le _) (Rat.le_of_lt (Rat.zpow_pos (by decide)))

/-- Of the doubles with one value only the two zeros differ. -/
theorem Double.eq_of_toRat? {x y : Double} {r : Rat} (hx : x.toRat? = some r)
    (hy : y.toRat? = some r) (hr : r ≠ 0) : x = y := by
  cases x with
  | infinite | nan => cases hx
  | finite negative m =>
    cases y with
    | infinite | nan => cases hy
    | finite negative' m' =>
      have hm := m.toRat_nonneg
      have hm' := m'.toRat_nonneg
      simp only [toRat?, Option.some.injEq] at hx hy
      -- Opposite signs would make both values zero.
      have hsign : negative = negative' := by grind
      subst hsign
      have hvalue : m.toRat = m'.toRat := by grind
      rw [Magnitude.toRat_injective hvalue]

end Number

open Number

namespace Atom

/-- The plainest atom that stands for the same: an integer rather than a truth value or a double, a
text rather than a keyword. -/
def normal : Atom → Atom
  | absent => absent
  | bool b => int (if b then 1 else 0)
  | int n => int n
  | float x =>
    match x.toInt? with
    | some n => int n
    | none => float x
  | text s => text s
  | keyword k => text k.text

@[simp] theorem text?_normal (a : Atom) : a.normal.text? = a.text? := by
  cases a with
  | float x => simp only [normal]; split <;> rfl
  | _ => rfl

theorem quantity?_float (x : Double) (r : Rat) :
    quantity? (float x) = some (.finite r) ↔ x.toRat? = some r := by
  cases x <;> simp [quantity?, Double.toRat?]

@[simp] theorem quantity?_normal (a : Atom) : a.normal.quantity? = a.quantity? := by
  cases a with
  | float x =>
    simp only [normal]
    split
    case h_1 n hn => exact ((quantity?_float x n).2 (Double.toInt?_eq_some_iff.1 hn)).symm
    case h_2 => rfl
  | bool b => cases b <;> rfl
  | _ => rfl

theorem normal_eq_absent_iff {a : Atom} : a.normal = absent ↔ a = absent := by
  cases a with
  | float x => simp only [normal]; split <;> simp
  | _ => simp [normal]

theorem normal_eq_nan_iff {a : Atom} {payload : Nat} :
    a.normal = float (.nan payload) ↔ a = float (.nan payload) := by
  cases a with
  | float x =>
    simp only [normal]
    split
    case h_1 n hn =>
      have := Double.toInt?_eq_some_iff.1 hn
      cases x <;> simp_all [Double.toRat?]
    case h_2 => rfl
  | _ => simp [normal]

/-- Being the same is being the same in the plainest form. -/
@[simp] theorem same_normal (a b : Atom) : same a.normal b.normal = same a b := by
  have habsent (a : Atom) : (a.normal == absent) = (a == absent) := by
    rw [Bool.eq_iff_iff, beq_iff_eq, beq_iff_eq, normal_eq_absent_iff]
  rw [same, same, text?_normal, text?_normal, quantity?_normal, quantity?_normal, habsent, habsent]

theorem normal_of_quantity?_eq_int {a : Atom} {n : Int} (h : a.quantity? = some (.finite n)) :
    a.normal = int n := by
  cases a with
  | bool b =>
    simp only [quantity?, Option.some.injEq, Quantity.finite.injEq] at h
    have : ((if b then 1 else 0 : Int) : Rat) = n := by rw [← h]; cases b <;> rfl
    exact congrArg int (by exact_mod_cast this)
  | int m =>
    simp only [quantity?, Option.some.injEq, Quantity.finite.injEq] at h
    exact congrArg int (by exact_mod_cast h)
  | float x =>
    rw [quantity?_float] at h
    rw [normal, Double.toInt?_eq_some_iff.2 h]
  | _ => cases h

theorem exists_float_of_quantity? {a : Atom} {q : Quantity} (h : a.quantity? = some q)
    (hq : ∀ n : Int, q ≠ .finite n) : ∃ x, a = float x := by
  cases a with
  | bool b =>
    cases b with
    | false => exact absurd (Option.some.inj h).symm (hq 0)
    | true => exact absurd (Option.some.inj h).symm (hq 1)
  | int n => exact absurd (Option.some.inj h).symm (hq n)
  | float x => exact ⟨x, rfl⟩
  | _ => cases h

/-- Atoms that stand for the same number have the same plainest form. -/
theorem normal_eq_of_quantity? {a b : Atom} {q : Quantity} (ha : a.quantity? = some q)
    (hb : b.quantity? = some q) : a.normal = b.normal := by
  by_cases hq : ∃ n : Int, q = .finite n
  · obtain ⟨n, rfl⟩ := hq
    rw [normal_of_quantity?_eq_int ha, normal_of_quantity?_eq_int hb]
  · rw [not_exists] at hq
    obtain ⟨x, rfl⟩ := exists_float_of_quantity? ha hq
    obtain ⟨y, rfl⟩ := exists_float_of_quantity? hb hq
    suffices x = y by rw [this]
    cases q with
    | finite r =>
      have hr : r ≠ 0 := fun hr => hq 0 (hr ▸ rfl)
      exact Double.eq_of_toRat? ((quantity?_float x r).1 ha) ((quantity?_float y r).1 hb) hr
    | infinite negative => cases x <;> cases y <;> simp_all [quantity?]

theorem normal_of_text? {a : Atom} {s : String} (h : a.text? = some s) : a.normal = text s := by
  cases a with
  | text | keyword => exact congrArg text (Option.some.inj h)
  | _ => cases h

theorem agree_eq_true_iff {α : Type} [DecidableEq α] {x y : Option α} :
    agree x y = true ↔ ∃ a, x = some a ∧ y = some a := by
  cases x <;> cases y <;> simp [agree, eq_comm]

/-- Atoms are alike if and only if they have the same plainest form. -/
theorem alike_iff_normal_eq {a b : Atom} : alike a b = true ↔ a.normal = b.normal := by
  constructor
  · intro h
    rw [alike, Bool.or_eq_true, beq_iff_eq] at h
    rcases h with rfl | h
    · rfl
    · simp only [same, Bool.or_eq_true, Bool.and_eq_true, beq_iff_eq, agree_eq_true_iff] at h
      rcases h with (⟨rfl, rfl⟩ | ⟨q, ha, hb⟩) | ⟨s, ha, hb⟩
      · rfl
      · exact normal_eq_of_quantity? ha hb
      · rw [normal_of_text? ha, normal_of_text? hb]
  · intro h
    by_cases hnan : ∃ payload, a.normal = float (.nan payload)
    · obtain ⟨payload, ha⟩ := hnan
      rw [normal_eq_nan_iff.1 ha, normal_eq_nan_iff.1 (h.symm.trans ha)]
      exact alike_self _
    · rw [not_exists] at hnan
      rw [alike, ← same_normal, ← h, same_self hnan, Bool.or_true]

theorem normal_normal (a : Atom) : a.normal.normal = a.normal := by
  cases a with
  | float x => cases h : x.toInt? <;> simp [normal, h]
  | _ => rfl

@[simp] theorem alike_normal (a b : Atom) : alike a.normal b.normal = alike a b := by
  rw [Bool.eq_iff_iff, alike_iff_normal_eq, alike_iff_normal_eq, normal_normal, normal_normal]

theorem isZero_iff {x : Double} : x.isZero = true ↔ x.toInt? = some 0 := by
  rw [Double.toInt?_eq_some_iff]
  cases x with
  | finite negative m =>
    have hm : m.toRat = 0 ↔ m.significand = 0 := by
      have hne : (2 : Rat) ^ m.exponent ≠ 0 := Rat.ne_of_gt (Rat.zpow_pos (by decide))
      rw [Magnitude.toRat, Rat.mul_eq_zero]
      simp [hne]
    have hneg : -m.toRat = 0 ↔ m.toRat = 0 := by grind
    cases negative <;> simp [Double.isZero, Double.toRat?, hm, hneg]
  | _ => simp [Double.isZero, Double.toRat?]

@[simp] theorem isVacant_normal (a : Atom) : a.normal.isVacant = a.isVacant := by
  cases a with
  | bool b => cases b <;> rfl
  | float x =>
    cases h : x.toInt? with
    | none => simp [normal, h]
    | some n =>
      rw [Bool.eq_iff_iff]
      simp [normal, h, isVacant, isZero_iff]
  | keyword k =>
    have htexts : ∀ k ∈ Keyword.all, (text k.text).isVacant = false := by decide
    exact htexts k k.mem_all
  | _ => rfl

end Atom

namespace Value

/-- The plainest form of a value, from those of its parts. -/
def plainest : Fold Value where
  atom a := atom a.normal
  foreign label := foreign label
  list vs := list vs
  tuple vs := tuple vs
  node n := node n
  object key v := object key [] v

/-- A value with all its atoms in their plainest form, and without the fields that objects have been
given. -/
def normal (v : Value) : Value := v.fold plainest

@[simp] theorem normal_atom (a : Atom) : (atom a).normal = atom a.normal := rfl

@[simp] theorem normal_foreign (label : String) : (foreign label).normal = foreign label := rfl

@[simp] theorem normal_list (vs : List Value) : (list vs).normal = list (vs.map normal) := by
  rw [normal, fold_list]
  rfl

@[simp] theorem normal_tuple (vs : List Value) : (tuple vs).normal = tuple (vs.map normal) := by
  rw [normal, fold_tuple]
  rfl

@[simp] theorem normal_node (n : Node Value) : (node n).normal = node (n.map normal) := by
  rw [normal, fold_node]
  rfl

@[simp] theorem normal_object (key : Option Nat) (added : List (Field × Value)) (v : Value) :
    (object key added v).normal = object key [] v.normal := by
  rw [normal, fold_object]
  rfl

/-! ## What the plainest form keeps -/

@[simp] theorem text?_normal (v : Value) : v.normal.text? = v.text? := by
  cases v with
  | atom a => exact a.text?_normal
  | _ => simp [text?]

@[simp] theorem isAbsent_normal (v : Value) : v.normal.isAbsent = v.isAbsent := by
  cases v with
  | atom a =>
    rw [Bool.eq_iff_iff]
    cases a with
    | float x => cases h : x.toInt? <;> simp [isAbsent, Atom.normal, h]
    | _ => rfl
  | _ => simp [isAbsent]

@[simp] theorem isVacant_normal (v : Value) : v.normal.isVacant = v.isVacant := by
  fun_induction isVacant v with
  | case1 a => exact a.isVacant_normal
  | case6 key added v ih => rw [normal_object, isVacant, ih]
  | _ => simp [isVacant]

theorem contents_normal (v : Value) : v.normal.contents = v.contents.normal := by
  fun_induction contents v with
  | case1 key added v ih => rw [normal_object, contents, ih]
  | case2 v hv =>
    cases v with
    | object key added v => exact absurd rfl (hv key added v)
    | _ => simp [contents]

theorem key?_normal (v : Value) : v.normal.key? = v.key? := by
  cases v <;> simp [key?]

theorem alikeItems_map_normal {vs ws : List Value}
    (h : ∀ v ∈ vs, ∀ w, alike v.normal w.normal = alike v w) :
    alikeItems (vs.map normal) (ws.map normal) = alikeItems vs ws := by
  induction vs generalizing ws with
  | nil => cases ws <;> rfl
  | cons v vs ih =>
    obtain ⟨hv, hvs⟩ := List.forall_mem_cons.1 h
    cases ws with
    | nil => rfl
    | cons w ws => simp [hv, ih hvs]

/-- However atoms are compared, as long as it depends on their plainest form only: the plainest
forms of two values compare as the values do. -/
theorem fold_sameTest_normal {p : Atom → Atom → Bool} (hp : ∀ a b, p a.normal b.normal = p a b)
    (v w : Value) : v.normal.fold sameTest p w.normal = v.fold sameTest p w := by
  match v with
  | atom a =>
    rw [normal_atom, fold_sameTest_atom, fold_sameTest_atom, contents_normal]
    cases w.contents <;> simp [hp]
  | foreign label =>
    rw [normal_foreign, fold_sameTest_foreign, fold_sameTest_foreign, contents_normal]
    cases w.contents <;> simp
  | list vs =>
    have hvs (ws : List Value) : alikeItems (vs.map normal) (ws.map normal) = alikeItems vs ws :=
      alikeItems_map_normal fun v hv w =>
        have := List.sizeOf_lt_of_mem hv
        fold_sameTest_normal Atom.alike_normal v w
    rw [normal_list, fold_sameTest_list, fold_sameTest_list, contents_normal]
    cases w.contents <;> simp [hvs]
  | tuple vs =>
    have hvs (ws : List Value) : alikeItems (vs.map normal) (ws.map normal) = alikeItems vs ws :=
      alikeItems_map_normal fun v hv w =>
        have := List.sizeOf_lt_of_mem hv
        fold_sameTest_normal Atom.alike_normal v w
    rw [normal_tuple, fold_sameTest_tuple, fold_sameTest_tuple, contents_normal]
    cases w.contents <;> simp [hvs]
  | node n =>
    have hn (ws : List Value) :
        alikeItems (n.fields.map normal) (ws.map normal) = alikeItems n.fields ws :=
      alikeItems_map_normal fun v hv w =>
        have := sizeOf_lt_of_mem_fields hv
        fold_sameTest_normal Atom.alike_normal v w
    rw [normal_node, fold_sameTest_node, fold_sameTest_node, contents_normal]
    cases w.contents <;> simp [hn]
  | object key added v =>
    rw [normal_object, fold_object, fold_object]
    show (Atom.agree key w.normal.key? || v.normal.fold sameTest p w.normal) =
      (Atom.agree key w.key? || v.fold sameTest p w)
    rw [key?_normal, fold_sameTest_normal hp v w]
termination_by sizeOf v
decreasing_by
  all_goals
    simp only [list.sizeOf_spec, tuple.sizeOf_spec, node.sizeOf_spec, object.sizeOf_spec]
    omega

@[simp] theorem same_normal (v w : Value) : same v.normal w.normal = same v w :=
  fold_sameTest_normal Atom.same_normal v w

/-- Values with one plainest form are alike. -/
theorem alike_of_normal_eq {v w : Value} (h : v.normal = w.normal) : alike v w = true := by
  have hnormal : alike v.normal w.normal = alike v w := fold_sameTest_normal Atom.alike_normal v w
  rw [← hnormal, h, alike_self]

end Value

/-! ## Values that are alike -/

/-- Values that are the same are alike. -/
theorem Value.alike_of_same {v w : Value} (h : same v w = true) : alike v w = true := by
  fun_induction contents v with
  | case1 key added v ih =>
    rw [same, fold_object] at h
    rw [alike, fold_object]
    show (Atom.agree key w.key? || alike v w) = true
    have h : (Atom.agree key w.key? || same v w) = true := h
    rw [Bool.or_eq_true] at h ⊢
    exact h.imp_right ih
  | case2 v hv =>
    cases v with
    | atom a =>
      rw [same, fold_sameTest_atom] at h
      rw [alike, fold_sameTest_atom]
      cases hw : w.contents with
      | atom b =>
        rw [hw] at h
        exact Bool.or_eq_true_iff.2 (.inr h)
      | _ => simp [hw] at h
    | object key added v => exact absurd rfl (hv key added v)
    | _ => exact h

/-- Whether a declaration is owned; other nodes are no declarations. -/
def Node.owned? {α : Type} : Node α → Option Bool
  | .declaration _ _ _ owned => some owned
  | _ => none

theorem Node.owned?_map {α β : Type} (f : α → β) (n : Node α) : (n.map f).owned? = n.owned? := by
  cases n <;> rfl

/-- A node is known by its kind, its fields and its owner. -/
theorem Node.eq_of_fields {m n : Node Value} (hk : m.kind = n.kind) (ho : m.owned? = n.owned?)
    (hf : m.fields = n.fields) : m = n := by
  have hentries (n : Node Value) : n.entries = n.kind.contents.zip n.fields := by
    cases n with
    | simple form => cases form <;> rfl
    | _ => rfl
  have hassemble (n : Node Value) :
      n = assemble n.kind (fun f => ((n.kind.contents.zip n.fields).lookup f).getD .absent)
        (n.owned?.getD false) := by
    rw [← hentries]
    cases n with
    | simple form => cases form <;> rfl
    | _ => rfl
  rw [hassemble m, hassemble n, hk, ho, hf]

namespace Value

/-- The owners in a value, from those in its parts. -/
def owners : Fold (List Bool) where
  atom _ := []
  foreign _ := []
  list oss := oss.flatten
  tuple oss := oss.flatten
  node n := n.owned?.toList ++ n.fields.flatten
  object _ os := os

/-- Which of the declarations in a value are owned, in the order in which they lie in it. -/
def ownership (v : Value) : List Bool := v.fold owners

@[simp] theorem ownership_list (vs : List Value) :
    (list vs).ownership = (vs.map ownership).flatten := by
  rw [ownership, fold_list]
  rfl

@[simp] theorem ownership_tuple (vs : List Value) :
    (tuple vs).ownership = (vs.map ownership).flatten := by
  rw [ownership, fold_tuple]
  rfl

@[simp] theorem ownership_node (n : Node Value) :
    (node n).ownership = n.owned?.toList ++ (n.fields.map ownership).flatten := by
  rw [ownership, fold_node]
  show (n.map (fold owners)).owned?.toList ++ (n.map (fold owners)).fields.flatten = _
  rw [Node.owned?_map, Node.fields_map]
  rfl

/-- Whether no part of a value is an object with a key or with given fields, from the same for its
parts. -/
def bareTest : Fold Bool where
  atom _ := true
  foreign _ := true
  list bs := bs.all id
  tuple bs := bs.all id
  node n := n.fields.all id
  object _ _ := false

/-- Whether a value is a tree of nodes with no fields but those of their kinds. -/
def isBare (v : Value) : Bool := v.fold bareTest

@[simp] theorem isBare_list (vs : List Value) :
    (list vs).isBare = true ↔ ∀ v ∈ vs, v.isBare = true := by
  rw [isBare, fold_list]
  simp [bareTest, isBare]

@[simp] theorem isBare_tuple (vs : List Value) :
    (tuple vs).isBare = true ↔ ∀ v ∈ vs, v.isBare = true := by
  rw [isBare, fold_tuple]
  simp [bareTest, isBare]

@[simp] theorem isBare_node (n : Node Value) :
    (node n).isBare = true ↔ ∀ v ∈ n.fields, v.isBare = true := by
  rw [isBare, fold_node]
  simp [bareTest, isBare]

/-- Two values have as many declarations, and one plainest form if the same of them are owned. -/
def Corresponds (v w : Value) : Prop :=
  v.ownership.length = w.ownership.length ∧ (v.ownership = w.ownership → v.normal = w.normal)

/-- Items that correspond one by one have as many declarations, and the same plainest forms if the
same of them are owned. -/
theorem corresponds_items {vs ws : List Value} (h : List.Forall₂ Corresponds vs ws) :
    (vs.map ownership).flatten.length = (ws.map ownership).flatten.length ∧
      ((vs.map ownership).flatten = (ws.map ownership).flatten →
        vs.map normal = ws.map normal) := by
  induction h with
  | nil => exact ⟨rfl, fun _ => rfl⟩
  | @cons v w vs ws hvw _ ih =>
    simp only [List.map_cons, List.flatten_cons, List.length_append]
    refine ⟨by rw [hvw.1, ih.1], fun howned => ?_⟩
    obtain ⟨hhead, htail⟩ := List.append_inj howned hvw.1
    rw [hvw.2 hhead, ih.2 htail]

theorem forall₂_of_alikeItems {R : Value → Value → Prop} {vs ws : List Value}
    (h : alikeItems vs ws = true) (hR : ∀ v ∈ vs, ∀ w ∈ ws, alike v w = true → R v w) :
    List.Forall₂ R vs ws := by
  induction vs generalizing ws with
  | nil =>
    cases ws with
    | nil => exact .nil
    | cons => cases h
  | cons v vs ih =>
    cases ws with
    | nil => cases h
    | cons w ws =>
      obtain ⟨hvw, hrest⟩ := Bool.and_eq_true_iff.1 h
      refine .cons (hR v List.mem_cons_self w List.mem_cons_self hvw) (ih hrest fun x hx y hy => ?_)
      exact hR x (List.mem_cons_of_mem v hx) y (List.mem_cons_of_mem w hy)

theorem corresponds_list {vs ws : List Value} (h : List.Forall₂ Corresponds vs ws) :
    Corresponds (list vs) (list ws) := by
  obtain ⟨hlength, hnormal⟩ := corresponds_items h
  rw [Corresponds, ownership_list, ownership_list, normal_list, normal_list]
  exact ⟨hlength, fun ho => by rw [hnormal ho]⟩

theorem corresponds_tuple {vs ws : List Value} (h : List.Forall₂ Corresponds vs ws) :
    Corresponds (tuple vs) (tuple ws) := by
  obtain ⟨hlength, hnormal⟩ := corresponds_items h
  rw [Corresponds, ownership_tuple, ownership_tuple, normal_tuple, normal_tuple]
  exact ⟨hlength, fun ho => by rw [hnormal ho]⟩

/-- Nodes of one kind whose fields correspond, correspond: both or neither are declarations. -/
theorem corresponds_node {m n : Node Value} (hk : m.kind = n.kind)
    (h : List.Forall₂ Corresponds m.fields n.fields) : Corresponds (node m) (node n) := by
  have howned (n : Node Value) :
      n.owned?.toList.length = if n.kind = .declaration then 1 else 0 := by
    cases n with
    | simple form => cases form <;> rfl
    | _ => rfl
  have hlength : m.owned?.toList.length = n.owned?.toList.length := by rw [howned, howned, hk]
  obtain ⟨hfields, hnormal⟩ := corresponds_items h
  rw [Corresponds, ownership_node, ownership_node, List.length_append, List.length_append, hlength,
    hfields]
  refine ⟨rfl, fun ho => ?_⟩
  obtain ⟨hhead, htail⟩ := List.append_inj ho hlength
  rw [normal_node, normal_node]
  refine congrArg node (Node.eq_of_fields ?_ ?_ ?_)
  · rw [Node.kind_map, Node.kind_map, hk]
  · rw [Node.owned?_map, Node.owned?_map]
    simpa using congrArg List.head? hhead
  · rw [Node.fields_map, Node.fields_map, hnormal htail]

/-- Trees that are alike correspond, by induction on one of them. -/
theorem corresponds_of_alike {v w : Value} (hv : v.isBare = true) (hw : w.isBare = true)
    (h : alike v w = true) : Corresponds v w := by
  match v with
  | atom a =>
    cases w with
    | atom b => exact ⟨rfl, fun _ => congrArg atom (Atom.alike_iff_normal_eq.1 h)⟩
    | object => cases hw
    | _ => cases h
  | foreign label =>
    cases w with
    | foreign label' => exact ⟨rfl, fun _ => congrArg foreign (eq_of_beq h)⟩
    | object => cases hw
    | _ => cases h
  | list vs =>
    cases w with
    | list ws =>
      rw [isBare_list] at hv hw
      rw [alike_list] at h
      have hitems : List.Forall₂ Corresponds vs ws := forall₂_of_alikeItems h fun x hx y hy hxy =>
        have := List.sizeOf_lt_of_mem hx
        corresponds_of_alike (hv x hx) (hw y hy) hxy
      exact corresponds_list hitems
    | object => cases hw
    | _ => cases h
  | tuple vs =>
    cases w with
    | tuple ws =>
      rw [isBare_tuple] at hv hw
      rw [alike_tuple] at h
      have hitems : List.Forall₂ Corresponds vs ws := forall₂_of_alikeItems h fun x hx y hy hxy =>
        have := List.sizeOf_lt_of_mem hx
        corresponds_of_alike (hv x hx) (hw y hy) hxy
      exact corresponds_tuple hitems
    | object => cases hw
    | _ => cases h
  | node m =>
    cases w with
    | node n =>
      rw [isBare_node] at hv hw
      rw [alike_node, Bool.and_eq_true, beq_iff_eq] at h
      obtain ⟨hkind, hfields⟩ := h
      have hitems : List.Forall₂ Corresponds m.fields n.fields :=
        forall₂_of_alikeItems hfields fun x hx y hy hxy =>
          have := sizeOf_lt_of_mem_fields hx
          corresponds_of_alike (hv x hx) (hw y hy) hxy
      exact corresponds_node hkind hitems
    | object => cases hw
    | _ => cases h
  | object .. => cases hv
termination_by sizeOf v
decreasing_by
  all_goals
    simp only [list.sizeOf_spec, tuple.sizeOf_spec, node.sizeOf_spec]
    omega

/-- Trees that are alike and whose declarations are owned in the same places have one plainest
form. -/
theorem normal_eq_of_alike {v w : Value} (hv : v.isBare = true) (hw : w.isBare = true)
    (h : alike v w = true) (ho : v.ownership = w.ownership) : v.normal = w.normal :=
  (corresponds_of_alike hv hw h).2 ho

end Value

end Stylesheet
