import Stylesheet.Printing

/-!
# Sessions

A session is one printer used over and over, together with the objects that have been built and
named along the way. Each step answers or fails, and the session goes on from the state that it left
behind (`Session.run`).
-/

namespace Stylesheet

/-- What one session holds. -/
structure Session where
  store : Store := {}
  names : Names := []
  layout : Layout
  state : PrintState := {}

/-- What can be asked of a session. -/
inductive Step where
  /-- Builds an object and gives it a name. -/
  | define (name : String) (b : Blueprint)
  /-- Prints a value. -/
  | render (b : Blueprint)
  /-- Prints a document. -/
  | printDocument (b : Blueprint)
  /-- Changes the layout. -/
  | setLayout (request : Layout.Request)
  /-- Adds an item to a list that a field of a named object holds. The list is found before the item
  is built. -/
  | append (target : String) (field : Field) (item : Blueprint)
  /-- Gives a field of a named object a new content. -/
  | assign (target : String) (field : Field) (content : Blueprint)
  /-- Asks whether a named object has an owner. -/
  | isOwned (target : String)
  /-- Asks whether two values are the same. -/
  | same (a b : Blueprint)

/-- What a step answers. -/
inductive Answer where
  | done
  | text (s : String)
  | owned (b : Bool)
  | equal (b : Bool)
deriving DecidableEq

/-- An action of a session. A failure keeps what was done before it. -/
abbrev SessionM := ExceptT Fault (StateM Session)

namespace Session

/-- Builds with the names of the session. -/
def build {α : Type} (act : Names → Build α) : SessionM α := fun session =>
  let r := act session.names session.store
  (r.1, { session with store := r.2 })

/-- Prints with the printer of the session. -/
def print (act : Print String) : SessionM String := fun session =>
  let r := act.exec session.layout session.state
  (r.1, { session with state := r.2 })

/-- Builds a value and looks at it. -/
def value (b : Blueprint) : SessionM Value := do
  let s ← build fun names => b.build names
  let session ← get
  return session.store.view s

/-- Performs one step. -/
def perform : Step → SessionM Answer
  | .define name b => do
    let s ← build fun names => b.build names
    modify fun session => { session with names := (name, s) :: session.names }
    return .done
  | .render b => do
    let v ← value b
    let t ← print v.render
    return .text t
  | .printDocument b => do
    let v ← value b
    let t ← print v.printDocument
    return .text t
  | .setLayout request => do
    let layout ← Layout.ofRequest request
    modify fun session => { session with layout }
    return .done
  | .append target field item => do
    let t ← build fun names => Build.named names target
    let session ← get
    let a ← session.store.listAt t field
    let s ← build fun names => item.build names
    modify fun session => { session with store := session.store.push a s }
    return .done
  | .assign target field content => do
    let s ← build fun names => content.build names
    build fun names => do
      let t ← Build.named names target
      Build.change fun store => store.assign t field s
    return .done
  | .isOwned target => do
    let t ← build fun names => Build.named names target
    let session ← get
    let owner ← session.store.read t .owner
    return .owned (owner ≠ .atom .absent)
  | .same a b => do
    let same ← build fun names => a.compare names b
    return .equal same

/-- A new session under the layout that is asked for. -/
def start (request : Layout.Request) : Except Fault Session := do
  let layout ← Layout.ofRequest request
  return { layout }

/-- The outcome of a step and the session after it. -/
def step (session : Session) (s : Step) : Except Fault Answer × Session := perform s session

/-- The outcomes of steps taken one after another, each with the session after it. -/
def run (session : Session) : List Step → List (Except Fault Answer × Session)
  | [] => []
  | s :: steps =>
    let r := session.step s
    r :: r.2.run steps

/-- Every step has an outcome. -/
@[simp] theorem length_run (session : Session) (steps : List Step) :
    (session.run steps).length = steps.length := by
  induction steps generalizing session with
  | nil => rfl
  | cons s steps ih => simp [run, ih]

end Session

end Stylesheet
