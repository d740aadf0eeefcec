import Stylesheet.Escape.Identifier
import Stylesheet.Escape.Quoted
import Stylesheet.Layout

/-!
# Printing actions

Printing runs under a layout, may fail with a fault, and carries a state: the level of indentation
and the notes taken so far. A failure keeps the state it happened in. `indented` and `keepingLevel`
are the two ways in which a construct leaves the level as it should be, also on failure: the first
goes back by as much as it went forward, the second to where it started.
-/

namespace Stylesheet

/-- What a printer carries along. -/
structure PrintState where
  /-- How many constructs enclose the current line. -/
  level : Int := 0
  /-- What could not be printed faithfully, oldest first. -/
  notes : List String := []
deriving DecidableEq

/-- An action that prints under a layout. -/
abbrev Print := ReaderT Layout (ExceptT Fault (StateM PrintState))

namespace Print

variable {α β : Type}

/-- The outcome of an action and the state after it. -/
def exec (act : Print α) (layout : Layout) (s : PrintState) : Except Fault α × PrintState :=
  act layout s

/-- Changes the level. -/
def shift (d : Int) : Print Unit := modify fun s => { s with level := s.level + d }

/-- Takes a note. -/
def note (message : String) : Print Unit := modify fun s => { s with notes := s.notes ++ [message] }

/-- Starts anew: no note, the outermost level. -/
def reset : Print Unit := set ({} : PrintState)

/-- The indentation of a line at the current level. -/
def indentation : Print String := fun layout s => (layout.indentation s.level, s)

/-- What stands between two lines. -/
def lineBreak : Print String := fun layout s => (layout.joint, s)

/-- Whether rule sets are written on one line. -/
def isCompact : Print Bool := fun layout s => (.ok layout.isCompact, s)

/-- Runs an action one level further in. -/
def indented (act : Print α) : Print α := fun layout s =>
  let r := act layout { s with level := s.level + 1 }
  (r.1, { r.2 with level := r.2.level - 1 })

/-- Runs an action and goes back to the level before it. -/
def keepingLevel (act : Print α) : Print α := fun layout s =>
  let r := act layout s
  (r.1, { r.2 with level := s.level })

/-- A value written as an identifier. -/
def identifier (v : Value) : Print String :=
  match v.text? with
  | some s => pure (Escape.Identifier.escape s)
  | none => throw (.identifierNotText v)

/-- A value written between double quotes. -/
def quoted (v : Value) : Print String :=
  match v.text? with
  | some s => pure ("\"" ++ Escape.Quoted.escape s ++ "\"")
  | none => throw (.stringNotText v)

/-! ## What actions do -/

theorem identifier_of_text? {v : Value} {s : String} (h : v.text? = some s) :
    identifier v = pure (Escape.Identifier.escape s) := by
  rw [identifier, h]

@[simp] theorem exec_pure (a : α) (layout : Layout) (s : PrintState) :
    (pure a : Print α).exec layout s = (.ok a, s) := rfl

@[simp] theorem exec_throw (e : Fault) (layout : Layout) (s : PrintState) :
    (throw e : Print α).exec layout s = (.error e, s) := rfl

/-- The second action runs where the first one has succeeded, in the state that it left. -/
theorem exec_bind (act : Print α) (f : α → Print β) (layout : Layout) (s : PrintState) :
    (act >>= f).exec layout s =
      match act.exec layout s with
      | (.ok a, t) => (f a).exec layout t
      | (.error e, t) => (.error e, t) := by
  simp only [exec, bind, ReaderT.bind, ExceptT.bind, ExceptT.mk, StateT.bind]
  rcases act layout s with ⟨_ | _, _⟩ <;> rfl

@[simp] theorem exec_liftM (x : Except Fault α) (layout : Layout) (s : PrintState) :
    (liftM x : Print α).exec layout s = (x, s) := by
  cases x <;> rfl

@[simp] theorem exec_shift (d : Int) (layout : Layout) (s : PrintState) :
    (shift d).exec layout s = (.ok (), { s with level := s.level + d }) := rfl

@[simp] theorem exec_note (message : String) (layout : Layout) (s : PrintState) :
    (note message).exec layout s = (.ok (), { s with notes := s.notes ++ [message] }) := rfl

@[simp] theorem exec_reset (layout : Layout) (s : PrintState) :
    reset.exec layout s = (.ok (), {}) := rfl

@[simp] theorem exec_indentation (layout : Layout) (s : PrintState) :
    indentation.exec layout s = (layout.indentation s.level, s) := rfl

@[simp] theorem exec_lineBreak (layout : Layout) (s : PrintState) :
    lineBreak.exec layout s = (layout.joint, s) := rfl

@[simp] theorem exec_isCompact (layout : Layout) (s : PrintState) :
    isCompact.exec layout s = (.ok layout.isCompact, s) := rfl

theorem exec_indented (act : Print α) (layout : Layout) (s : PrintState) :
    (indented act).exec layout s =
      let r := act.exec layout { s with level := s.level + 1 }
      (r.1, { r.2 with level := r.2.level - 1 }) := rfl

theorem exec_keepingLevel (act : Print α) (layout : Layout) (s : PrintState) :
    (keepingLevel act).exec layout s =
      let r := act.exec layout s
      (r.1, { r.2 with level := s.level }) := rfl

/-- An action that keeps the level goes back to it whatever happens inside. -/
@[simp] theorem level_exec_keepingLevel (act : Print α) (layout : Layout) (s : PrintState) :
    ((keepingLevel act).exec layout s).2.level = s.level := rfl

end Print

/-- The text of a value that may be left out. -/
def Value.orEmpty (v : Value) : String := if v.isVacant then "" else v.display

end Stylesheet
