import Stylesheet.Proofs.Reuse

/-!
# Outcomes at a level

`Print.Gives layout act n x m` says all about an action but its notes: at level `n` its outcome is
`x`, whatever notes have been taken, and if it succeeds it leaves the level `m`. Outcomes of actions
put together are those of their parts put together (`Gives.bind`, `Gives.mapM`), so that printing
can be computed without a state. Steady actions give what a new printer gives at their level
(`Print.Steady.gives`).

`Print.Yields layout act p` says less: the action never fails, and what it returns satisfies `p`,
whatever state it starts in. `Print.Ensures layout act p` says only the latter: the action may fail.
-/

namespace Stylesheet

/-- The text of a value at a level of indentation, or the fault that a new printer finds in it. -/
def Value.textAt (layout : Layout) (level : Int) (v : Value) : Except Fault String :=
  (v.render.exec layout { level }).1

namespace Print

variable {α β : Type}

/-- At level `n` an action has the outcome `x`, and a success leaves the level `m`. -/
def Gives (layout : Layout) (act : Print α) (n : Int) (x : Except Fault α) (m : Int) : Prop :=
  ∀ s : PrintState, s.level = n →
    (act.exec layout s).1 = x ∧ ∀ a, x = .ok a → (act.exec layout s).2.level = m

variable {layout : Layout} {n m k : Int}

theorem Gives.pure (a : α) : Gives layout (pure a) n (.ok a) n := fun _ hs => ⟨rfl, fun _ _ => hs⟩

/-- The outcome of a sequence of actions. -/
theorem Gives.bind {act : Print α} {f : α → Print β} {x : Except Fault α} {y : α → Except Fault β}
    (h : Gives layout act n x m) (hf : ∀ a, x = .ok a → Gives layout (f a) m (y a) k) :
    Gives layout (act >>= f) n (x >>= y) k := by
  intro s hs
  obtain ⟨hx, hm⟩ := h s hs
  rw [exec_bind]
  revert hx hm
  rcases act.exec layout s with ⟨_ | a, t⟩
  · rintro rfl -
    exact ⟨rfl, nofun⟩
  · rintro rfl hm
    exact hf a rfl t (hm a rfl)

theorem Gives.mapM {ps : List α} {f : α → Print β} {y : α → Except Fault β}
    (h : ∀ p ∈ ps, Gives layout (f p) n (y p) n) : Gives layout (ps.mapM f) n (ps.mapM y) n := by
  induction ps with
  | nil => exact Gives.pure []
  | cons p ps ih =>
    rw [List.mapM_cons, List.mapM_cons]
    refine Gives.bind (h p List.mem_cons_self) fun b _ => ?_
    refine Gives.bind (ih fun q hq => h q (List.mem_cons_of_mem p hq)) fun bs _ => ?_
    exact Gives.pure _

theorem Gives.shift (d : Int) : Gives layout (shift d) n (.ok ()) (n + d) := by
  rintro s rfl
  exact ⟨rfl, fun _ _ => rfl⟩

theorem Gives.indentation : Gives layout indentation n (layout.indentation n) n := by
  rintro s rfl
  exact ⟨rfl, fun _ _ => rfl⟩

theorem Gives.lineBreak : Gives layout lineBreak n layout.joint n := by
  rintro s rfl
  exact ⟨rfl, fun _ _ => rfl⟩

theorem Gives.reset : Gives layout reset n (.ok ()) 0 := fun _ _ => ⟨rfl, fun _ _ => rfl⟩

/-- Whatever level an action ends at, a success ends at the level of the start if that is kept. -/
theorem Gives.keepingLevel {act : Print α} {x : Except Fault α} (h : Gives layout act n x m) :
    Gives layout (keepingLevel act) n x n :=
  fun s hs => ⟨(h s hs).1, fun _ _ => hs⟩

theorem Steady.gives {act : Print α} (h : act.Steady layout) :
    Gives layout act n (act.exec layout { level := n }).1 n := by
  rintro s rfl
  rw [h s]
  exact ⟨rfl, fun _ _ => rfl⟩

/-! ## Actions that succeed -/

/-- An action succeeds in every state, and its results satisfy `p`. -/
def Yields (layout : Layout) (act : Print α) (p : α → Prop) : Prop :=
  ∀ s : PrintState, ∃ a, (act.exec layout s).1 = .ok a ∧ p a

variable {p : α → Prop} {q : β → Prop}

theorem Yields.pure {a : α} (h : p a) : Yields layout (pure a) p := fun _ => ⟨a, rfl, h⟩

theorem Yields.mono {act : Print α} {p' : α → Prop} (h : Yields layout act p)
    (hp : ∀ a, p a → p' a) : Yields layout act p' := by
  intro s
  obtain ⟨a, ha, hpa⟩ := h s
  exact ⟨a, ha, hp a hpa⟩

theorem Yields.bind {act : Print α} {f : α → Print β} (h : Yields layout act p)
    (hf : ∀ a, p a → Yields layout (f a) q) : Yields layout (act >>= f) q := by
  intro s
  obtain ⟨a, ha, hpa⟩ := h s
  obtain ⟨b, hb, hqb⟩ := hf a hpa (act.exec layout s).2
  refine ⟨b, ?_, hqb⟩
  rw [exec_bind]
  revert ha hb
  rcases act.exec layout s with ⟨_ | _, t⟩ <;> rintro ⟨⟩ hb
  exact hb

/-- Items that all succeed are printed one after another. -/
theorem Yields.mapM {ps : List α} {f : α → Print β} (h : ∀ a ∈ ps, Yields layout (f a) q) :
    Yields layout (ps.mapM f) fun bs => ∀ b ∈ bs, q b := by
  induction ps with
  | nil => exact Yields.pure nofun
  | cons a ps ih =>
    rw [List.mapM_cons]
    refine Yields.bind (h a List.mem_cons_self) fun b hb => ?_
    refine Yields.bind (ih fun c hc => h c (List.mem_cons_of_mem a hc)) fun bs hbs => ?_
    exact Yields.pure (List.forall_mem_cons.2 ⟨hb, hbs⟩)

theorem Yields.indented {act : Print α} (h : Yields layout act p) :
    Yields layout (indented act) p := fun s => h { s with level := s.level + 1 }

/-! ## Actions that may fail -/

/-- Whatever an action returns satisfies `p`. -/
def Ensures (layout : Layout) (act : Print α) (p : α → Prop) : Prop :=
  ∀ s a s', act.exec layout s = (.ok a, s') → p a

theorem Ensures.pure {a : α} (h : p a) : Ensures layout (pure a) p := by
  rintro s _ _ ⟨⟩
  exact h

theorem Ensures.throw (e : Fault) : Ensures layout (throw e) p := nofun

theorem Ensures.bind {act : Print α} {f : α → Print β} (h : Ensures layout act p)
    (hf : ∀ a, p a → Ensures layout (f a) q) : Ensures layout (act >>= f) q := by
  intro s b s' hs
  rw [exec_bind] at hs
  cases hact : act.exec layout s with
  | mk x r =>
    rw [hact] at hs
    cases x with
    | error e => cases hs
    | ok a => exact hf a (h s a r hact) r b s' hs

/-- An action whose result does not matter, and what follows it. -/
theorem Ensures.after {act : Print α} {f : α → Print β} (hf : ∀ a, Ensures layout (f a) q) :
    Ensures layout (act >>= f) q :=
  Ensures.bind (p := fun _ => True) (fun _ _ _ _ => trivial) fun a _ => hf a

theorem Ensures.lift (x : Except Fault α) {f : α → Print β}
    (h : ∀ a, x = .ok a → Ensures layout (f a) q) : Ensures layout (liftM x >>= f) q := by
  cases x with
  | error e => exact Ensures.throw e
  | ok a => exact h a rfl

theorem Ensures.indented {act : Print α} (h : Ensures layout act p) :
    Ensures layout (indented act) p := by
  intro s a s' hs
  rw [exec_indented] at hs
  obtain ⟨hx, -⟩ := Prod.mk.inj hs
  exact h _ a _ (Prod.ext hx rfl)

theorem Ensures.keepingLevel {act : Print α} (h : Ensures layout act p) :
    Ensures layout (keepingLevel act) p := by
  intro s a s' hs
  rw [exec_keepingLevel] at hs
  obtain ⟨hx, -⟩ := Prod.mk.inj hs
  exact h s a _ (Prod.ext hx rfl)

end Print

theorem Value.exists_textAt {layout : Layout} {v : Value} {p : String → Prop}
    (h : Print.Yields layout v.render p) (n : Int) : ∃ t, v.textAt layout n = .ok t ∧ p t :=
  h { level := n }

/-- A tree without documents has the same text at a level whatever notes have been taken. -/
theorem Value.DocumentFree.gives {layout : Layout} {n : Int} {v : Value} (h : v.DocumentFree) :
    Print.Gives layout v.render n (v.textAt layout n) n := h.steady.gives

end Stylesheet
