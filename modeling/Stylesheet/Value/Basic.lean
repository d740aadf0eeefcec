import Stylesheet.Node.Basic

/-!
# Values

What a field of a node holds is a value: an atom, a sequence, a node, or a foreign object, of which
only its text is known. Any value may stand in any field; which ones can be printed there is for
printing to find out.

Two things about an object are more than its contents (`Value.object`). It may have been given
fields besides those of its kind: they take part neither in comparisons nor in texts, but printing
finds them where it looks for a field (`Value.field?`). And it may contain itself: then it is
unfolded as far as printing looks, and has a key by which its occurrences are known to be one and
the same.

`Value.fold` computes a result bottom-up from the contents; its equations (`fold_list`,
`fold_tuple`, `fold_node`) speak of the parts through `map`. Induction over values goes by size: the
items of a sequence and the fields of a node are smaller (`sizeOf_lt_of_mem_fields`).
-/

namespace Stylesheet

/-- A value in a stylesheet tree. -/
inductive Value where
  /-- A value without parts. -/
  | atom (a : Atom)
  /-- Something that is known by its text only. -/
  | foreign (label : String)
  /-- A sequence of the kind that can grow. -/
  | list (items : List Value)
  /-- A sequence of the kind that stays as it is. -/
  | tuple (items : List Value)
  /-- A node. -/
  | node (n : Node Value)
  /-- An object with its key, if it contains itself, and with the fields that it has been given. -/
  | object (key : Option Nat) (added : List (Field × Value)) (contents : Value)

namespace Value

/-- A text as a value. -/
abbrev text (s : String) : Value := atom (.text s)

/-- The value of a field that holds nothing. -/
abbrev absent : Value := atom .absent

/-- One step of a bottom-up computation for each form of value. -/
structure Fold (β : Type) where
  atom : Atom → β
  foreign : String → β
  list : List β → β
  tuple : List β → β
  node : Node β → β
  object : Option Nat → β → β

variable {β : Type}

mutual

/-- Computes a result from the results for the parts. -/
def fold (φ : Fold β) : Value → β
  | atom a => φ.atom a
  | foreign label => φ.foreign label
  | list items => φ.list (foldItems φ items)
  | tuple items => φ.tuple (foldItems φ items)
  | node n => φ.node (foldFields φ n)
  | object key _ contents => φ.object key (fold φ contents)

/-- The results for the items of a sequence. -/
def foldItems (φ : Fold β) : List Value → List β
  | [] => []
  | v :: vs => fold φ v :: foldItems φ vs

/-- The results for the fields of a node. -/
def foldFields (φ : Fold β) : Node Value → Node β
  | .document charsets imports fontFaces ruleSets =>
    .document (fold φ charsets) (fold φ imports) (fold φ fontFaces) (fold φ ruleSets)
  | .ruleSet selectors declarations parent =>
    .ruleSet (fold φ selectors) (fold φ declarations) (fold φ parent)
  | .declaration property expressions important owned =>
    .declaration (fold φ property) (fold φ expressions) (fold φ important) owned
  | .fontFace declarations => .fontFace (fold φ declarations)
  | .mediaType name => .mediaType (fold φ name)
  | .mediaFeature property value => .mediaFeature (fold φ property) (fold φ value)
  | .mediaQuery expression conjuncts modifier =>
    .mediaQuery (fold φ expression) (fold φ conjuncts) (fold φ modifier)
  | .mediaQueryList queries => .mediaQueryList (fold φ queries)
  | .charset name => .charset (fold φ name)
  | .importRule target media => .importRule (fold φ target) (fold φ media)
  | .namespaceRule target shorthand => .namespaceRule (fold φ target) (fold φ shorthand)
  | .documentQuery functions => .documentQuery (fold φ functions)
  | .ident value operator => .ident (fold φ value) (fold φ operator)
  | .hash value operator => .hash (fold φ value) (fold φ operator)
  | .uri value operator => .uri (fold φ value) (fold φ operator)
  | .string value operator => .string (fold φ value) (fold φ operator)
  | .number value dimension sign operator =>
    .number (fold φ value) (fold φ dimension) (fold φ sign) (fold φ operator)
  | .resolution amount unit operator =>
    .resolution (fold φ amount) (fold φ unit) (fold φ operator)
  | .rgb red green blue operator =>
    .rgb (fold φ red) (fold φ green) (fold φ blue) (fold φ operator)
  | .function name params operator => .function (fold φ name) (fold φ params) (fold φ operator)
  | .idSelector name => .idSelector (fold φ name)
  | .classSelector name => .classSelector (fold φ name)
  | .pseudoClass name argument => .pseudoClass (fold φ name) (fold φ argument)
  | .pseudoElement name legacy => .pseudoElement (fold φ name) (fold φ legacy)
  | .attributeSelector name test value =>
    .attributeSelector (fold φ name) (fold φ test) (fold φ value)
  | .simple form name combinator qualifiers =>
    .simple form (fold φ name) (fold φ combinator) (fold φ qualifiers)
  | .selector simples => .selector (fold φ simples)
  | .nodeSelector => .nodeSelector
  | .elementSelector localName => .elementSelector (fold φ localName)
  | .conditionalSelector base condition => .conditionalSelector (fold φ base) (fold φ condition)

end

theorem foldItems_eq_map (φ : Fold β) (vs : List Value) : foldItems φ vs = vs.map (fold φ) := by
  induction vs with
  | nil => rfl
  | cons v vs ih => simp [foldItems, ih]

theorem foldFields_eq_map (φ : Fold β) (n : Node Value) : foldFields φ n = n.map (fold φ) := by
  cases n <;> rfl

@[simp] theorem fold_atom (φ : Fold β) (a : Atom) : fold φ (atom a) = φ.atom a := rfl

@[simp] theorem fold_foreign (φ : Fold β) (label : String) :
    fold φ (foreign label) = φ.foreign label := rfl

@[simp] theorem fold_list (φ : Fold β) (vs : List Value) :
    fold φ (list vs) = φ.list (vs.map (fold φ)) := by
  rw [fold, foldItems_eq_map]

@[simp] theorem fold_tuple (φ : Fold β) (vs : List Value) :
    fold φ (tuple vs) = φ.tuple (vs.map (fold φ)) := by
  rw [fold, foldItems_eq_map]

@[simp] theorem fold_node (φ : Fold β) (n : Node Value) :
    fold φ (node n) = φ.node (n.map (fold φ)) := by
  rw [fold, foldFields_eq_map]

@[simp] theorem fold_object (φ : Fold β) (key : Option Nat) (added : List (Field × Value))
    (v : Value) : fold φ (object key added v) = φ.object key (fold φ v) := by
  rw [fold]

/-- The fields of a node are smaller than the node. -/
theorem sizeOf_lt_of_mem_fields {n : Node Value} {v : Value} (h : v ∈ n.fields) :
    sizeOf v < sizeOf n := by
  cases n <;> simp only [Node.fields, Node.entries, List.map_cons, List.map_nil] at h <;> grind

/-! ## Views -/

/-- The text that a value stands for. -/
def text? : Value → Option String
  | atom a => a.text?
  | _ => none

/-- Whether a value is nothing. -/
def isAbsent : Value → Bool
  | atom .absent => true
  | _ => false

theorem isAbsent_of_text? {v : Value} {s : String} (h : v.text? = some s) : v.isAbsent = false := by
  unfold isAbsent
  split
  · cases h
  · rfl

/-- The items of a sequence; those of a text are its characters. -/
def items? : Value → Option (List Value)
  | list vs => some vs
  | tuple vs => some vs
  | atom a => a.chars?.map (List.map atom)
  | foreign _ => none
  | node _ => none
  | object _ _ v => v.items?

/-- Whether a value counts as left out: a vacant atom or an empty sequence. -/
def isVacant : Value → Bool
  | atom a => a.isVacant
  | list vs => vs.isEmpty
  | tuple vs => vs.isEmpty
  | foreign _ => false
  | node _ => false
  | object _ _ v => v.isVacant

/-- What a field of a value holds: one of its kind, or one that it has been given. -/
def field? (f : Field) : Value → Option Value
  | node n => n.field? f
  | object _ added v => (v.field? f).or (added.lookup f)
  | atom _ => none
  | foreign _ => none
  | list _ => none
  | tuple _ => none

/-- The operator that joins a value to the term before it. -/
def operator? (v : Value) : Option Value := v.field? .operator

/-- The name that a value goes by; that of a keyword is its name in the vocabulary. -/
def name? (v : Value) : Option Value :=
  match v with
  | atom (.keyword k) => some (text k.name)
  | v => v.field? .name

/-- The name of a value's type in messages. -/
def typeName : Value → String
  | atom a => a.typeName
  | foreign _ => "Opaque"
  | list _ => "list"
  | tuple _ => "tuple"
  | node n => n.kind.name
  | object _ _ v => v.typeName

/-- A value so many times: a number is multiplied, a text or a sequence repeated. Fractions and all
other values cannot be taken so many times. -/
def times? (count : Int) : Value → Option Value
  | atom (.int n) => some (atom (.int (n * count)))
  | atom (.bool b) => some (atom (.int (if b then count else 0)))
  | atom a => a.text?.map fun s => text (String.join (List.replicate count.toNat s))
  | list vs => some (list (List.replicate count.toNat vs).flatten)
  | tuple vs => some (tuple (List.replicate count.toNat vs).flatten)
  | foreign _ => none
  | node _ => none
  | object _ _ v => v.times? count

/-- Whether a value can be looked up in a table, from the same question about its parts. -/
def keyTest : Fold Bool where
  atom _ := true
  foreign _ := false
  list _ := false
  tuple parts := parts.all id
  node n := n.kind.isFrozen && n.fields.all id
  object _ contents := contents

/-- Whether a value can be looked up in a table: it has no part that can still change. Lists,
foreign objects and nodes that are not frozen can. -/
def isKey (v : Value) : Bool := v.fold keyTest

end Value

end Stylesheet
