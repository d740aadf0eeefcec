import Stylesheet.Proofs.Reuse

/-!
# Levels after printing

A document that lies inside a construct starts anew at the outermost level, while the constructs
around it still go back by as much as they went forward. So a level is not always restored, and it
can fall below the outermost one. It does not rise: whatever is printed, and whether that succeeds
or fails, the level afterwards is the one before or not above the outermost (`Settles`).

This is an invariant of single steps: going in and out again keeps it from whatever level a
construct is entered at, and so does going back to a level that was recorded (`lays_atLevels`).
The rest is the comparison of a printer with itself.
-/

namespace Stylesheet

/-- Whether printing that started at a level may end at another: the same one, or one that is not
above the outermost. -/
def Settles (start level : Int) : Prop := level = start ∨ level ≤ 0

/-- The comparison of a printer with itself, where the level may be known to have settled since some
start. -/
def atLevels (layout : Layout) : Comparison (Option Int) where
  left := layout
  right := layout
  States start s t := s = t ∧ ∀ n ∈ start, Settles n s.level
  Texts := Eq
  refl _ := rfl
  append := (notesComparison layout []).append

variable {layout : Layout}

theorem lays_atLevels : (atLevels layout).Lays := by
  refine Comparison.Lays.of_sameLayout rfl id (fun h => congrArg PrintState.level h.1)
    (fun message start s t h => ?_) (fun {start s t} h => ?_) (fun {start s t} h => ?_)
  · obtain ⟨rfl, hs⟩ := h
    exact .ok rfl ⟨rfl, hs⟩
  · obtain ⟨rfl, hs⟩ := h
    -- What counts inside is the level where the construct is entered, not the one known outside.
    refine ⟨some (s.level + 1), ⟨rfl, ?_⟩, ?_⟩
    · rintro n ⟨⟩
      exact .inl rfl
    · rintro s' _ ⟨rfl, hs'⟩
      refine ⟨rfl, fun n hn => ?_⟩
      have houter : s.level = n ∨ s.level ≤ 0 := hs n hn
      have hinner : s'.level = s.level + 1 ∨ s'.level ≤ 0 := hs' _ rfl
      show s'.level - 1 = n ∨ s'.level - 1 ≤ 0
      omega
  · obtain ⟨rfl, hs⟩ := h
    refine ⟨none, ?_, ⟨rfl, nofun⟩, ?_⟩
    · rintro d s' _ ⟨rfl, -⟩
      exact ⟨rfl, nofun⟩
    · rintro s' _ ⟨rfl, -⟩
      exact ⟨rfl, hs⟩

theorem resets_atLevels : (atLevels layout).Resets := by
  intro start s t _
  refine .ok rfl ⟨rfl, fun n _ => ?_⟩
  exact .inr (Int.le_refl 0)

/-- What agrees with itself under the comparison settles wherever it is started. -/
theorem settles_of_prints {act : Print String} (h : (atLevels layout).Prints act) (s : PrintState) :
    Settles s.level (act.exec layout s).2.level := by
  have hs : (atLevels layout).States (some s.level) s s := by
    refine ⟨rfl, ?_⟩
    rintro n ⟨⟩
    exact .inl rfl
  have hagree : (atLevels layout).Agree (some s.level) Eq (act.exec layout s)
      (act.exec layout s) := h (some s.level) s s hs
  revert hagree
  generalize act.exec layout s = r
  intro hagree
  cases hagree with
  | ok _ ht => exact ht.2 _ rfl
  | error e ht => exact ht.2 _ rfl

theorem sound_atLevels (v : Value) :
    v.part.Sound (atLevels layout).Prints ∧ v.parts.Sound (atLevels layout).Prints :=
  Comparison.sound_part (Value.everywhere_of_forall
    (fun _ => ⟨fun _ => lays_atLevels, fun _ => resets_atLevels⟩) v)

/-- One call settles the level, whether it returns or fails. -/
theorem Call.settles (c : Call) (s : PrintState) :
    Settles s.level (c.action.exec layout s).2.level := by
  cases c with
  | render v => exact settles_of_prints (sound_atLevels v).1.text s
  | printDocument v =>
    exact settles_of_prints (Comparison.prints_printDocument lays_atLevels resets_atLevels
      fun _ w _ => (sound_atLevels w).2) s

/-- Calls leave a printer that is not above the outermost level there, by induction on them. -/
theorem Call.level_foldl_nonpos (calls : List Call) {s : PrintState} (hs : s.level ≤ 0) :
    (calls.foldl (fun s c => (c.action.exec layout s).2) s).level ≤ 0 := by
  induction calls generalizing s with
  | nil => exact hs
  | cons c calls ih =>
    rw [List.foldl_cons]
    apply ih
    have hc : (c.action.exec layout s).2.level = s.level ∨ (c.action.exec layout s).2.level ≤ 0 :=
      c.settles s
    omega

/-- Whatever value is printed, documents inside documents included, and whether printing succeeds or
fails: the level afterwards is the one before, or not above the outermost. So a new printer is not
above the outermost level after any calls. -/
theorem level_never_rises (layout : Layout) :
    (∀ (v : Value) (s : PrintState),
      (v.render.exec layout s).2.level = s.level ∨ (v.render.exec layout s).2.level ≤ 0) ∧
    ∀ calls : List Call, (Call.stateAfter layout calls).level ≤ 0 :=
  ⟨fun v s => (Call.render v).settles s, fun calls =>
    Call.level_foldl_nonpos calls (Int.le_refl 0)⟩

/-- A level may be lost: a font description goes back by one from where a document inside it has
started anew. -/
example :
    let inner : Value := .node (.document (.list []) (.list []) (.list []) (.list []))
    ((Value.node (.fontFace (.list [inner]))).render.exec .pretty { level := 3 }).2.level = -1 :=
  rfl

end Stylesheet
