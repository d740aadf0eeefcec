import Stylesheet.Store.Equality
import Stylesheet.Store.View

/-!
# Building objects

A blueprint describes a value to be built: sequences, nodes with the fields given for them, and
references to objects that have a name. Building proceeds from the parts to the whole and keeps what
it has built also if it fails later. Every nan in a blueprint is built as a new one.

A new rule set takes its declarations over, one after another (`Build.claim`): each becomes owned by
it, up to the first one that cannot be changed.

A blueprint without names gives a value on its own (`Blueprint.value`).
-/

namespace Stylesheet

/-- The description of a value. -/
inductive Blueprint where
  | atom (a : Atom)
  | foreign (label : String)
  | list (items : List Blueprint)
  | tuple (items : List Blueprint)
  | node (kind : Kind) (given : List (Field × Blueprint))
  | named (name : String)

/-- The objects that have a name, the latest first. -/
abbrev Names := List (String × Slot)

/-- An action that builds objects. -/
abbrev Build := ExceptT Fault (StateM Store)

namespace Build

/-- Keeps a new object and refers to it. -/
def insert (cell : Cell) : Build Slot := do
  let store ← get
  set (store.insert cell)
  return .ref store.next

/-- An atom as the content of a slot; a nan becomes a new one. -/
def atom : Atom → Build Slot
  | .float (.nan _) => do
    let store ← get
    let (a, store) := store.freshNan
    set store
    return .atom a
  | a => return .atom a

/-- Performs a change that may fail. -/
def change (f : Store → Except Fault Store) : Build Unit := do
  let store ← get
  let store ← f store
  set store

/-- The items of a slot in the place of a sequence. -/
def items (s : Slot) : Build (List Slot) := do
  let store ← get
  match store.items? s with
  | some items => return items
  | none => throw (.notASequence (store.view s))

/-- Makes `owner` the owner of the declarations. -/
def claim (owner declarations : Slot) : Build Unit := do
  let ds ← items declarations
  ds.forM fun d => change fun store => store.assign d .owner owner

/-- What a field of a new node holds: what is given for it, or its default. -/
def field (kind : Kind) (given : List (Field × Slot)) (f : Field) (default : Default) :
    Build (Field × Slot) :=
  match given.lookup f with
  | some s => return (f, s)
  | none =>
    match default with
    | .required => throw (.missingArgument kind f)
    | .atom a => return (f, .atom a)
    | .emptyList => do
      let s ← insert (.list [])
      return (f, s)

/-- Refuses a field that a kind does not have. -/
def checkField (kind : Kind) (f : Field) : Build Unit :=
  if kind.schema.any fun e => e.1 = f then pure () else throw (.unknownArgument kind f)

/-- What a new node does to the objects in its fields: a rule set takes its declarations over. -/
def takeOver (kind : Kind) (s : Slot) (fields : Record) : Build Unit :=
  match kind, fields.get? .declarations with
  | .ruleSet, some declarations => claim s declarations
  | _, _ => pure ()

/-- Builds a node from the fields given for it. -/
def node (kind : Kind) (given : List (Field × Slot)) : Build Slot := do
  given.forM fun e => checkField kind e.1
  let entries ← kind.schema.mapM fun e => field kind given e.1 e.2
  let s ← insert (.node kind ⟨entries⟩)
  takeOver kind s ⟨entries⟩
  return s

/-- The object with a name. -/
def named (names : Names) (name : String) : Build Slot :=
  match names.lookup name with
  | some s => return s
  | none => throw (.unknownName name)

end Build

namespace Blueprint

mutual

/-- Builds the value that a blueprint describes. -/
def build (names : Names) : Blueprint → Build Slot
  | atom a => Build.atom a
  | foreign label => Build.insert (.foreign label {})
  | list items => do
    let ss ← buildItems names items
    Build.insert (.list ss)
  | tuple items => do
    let ss ← buildItems names items
    Build.insert (.tuple ss)
  | node kind given => do
    let fields ← buildFields names given
    Build.node kind fields
  | named name => Build.named names name

/-- Builds the items of a sequence, in order. -/
def buildItems (names : Names) : List Blueprint → Build (List Slot)
  | [] => return []
  | b :: bs => do
    let s ← build names b
    let ss ← buildItems names bs
    return s :: ss

/-- Builds the fields of a node, in order. -/
def buildFields (names : Names) : List (Field × Blueprint) → Build (List (Field × Slot))
  | [] => return []
  | (f, b) :: bs => do
    let s ← build names b
    let ss ← buildFields names bs
    return (f, s) :: ss

end

/-- The value that a blueprint without names describes. -/
def value (b : Blueprint) : Except Fault Value :=
  match b.build [] {} with
  | (.ok s, store) => .ok (store.view s)
  | (.error e, _) => .error e

/-- Builds two values, one after the other, and tells whether they are the same. -/
def compare (names : Names) (a b : Blueprint) : Build Bool := do
  let s ← a.build names
  let t ← b.build names
  let store ← get
  return store.same s t

end Blueprint

end Stylesheet
