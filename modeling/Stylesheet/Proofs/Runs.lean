import Mathlib.Data.List.Chain

/-!
# Runs of a list

A list is split into runs (`IsRunSplit`) if its blocks are not empty, if every later element of a
block is the same as the first one, and if the first element of each block differs from the first
element of the block before it. Being the same is any test of two elements: it need not be
transitive, and an element need not be the same as itself. Every list has one such split and no
other (`existsUnique_isRunSplit`); `runs` computes it.
-/

namespace Stylesheet

variable {α : Type}

/-- A split of a list into runs. -/
structure IsRunSplit (same : α → α → Bool) (xs : List α) (blocks : List (List α)) : Prop where
  flatten : blocks.flatten = xs
  ne_nil : [] ∉ blocks
  /-- Every later element of a block is the same as its first. -/
  later (x : α) (ys : List α) : x :: ys ∈ blocks → ∀ y ∈ ys, same y x = true
  /-- The first elements of two consecutive blocks differ. -/
  change : blocks.IsChain fun b c => ∀ x ∈ b.head?, ∀ y ∈ c.head?, same y x = false

/-- The runs of a list. -/
def runs (same : α → α → Bool) : List α → List (List α)
  | [] => []
  | x :: xs => (x :: xs.takeWhile (same · x)) :: runs same (xs.dropWhile (same · x))
termination_by xs => xs.length
decreasing_by
  have := (List.dropWhile_sublist (l := xs) (same · x)).length_le
  simp only [List.length_cons]
  omega

variable {same : α → α → Bool}

/-- The first element of the first run is that of the list. -/
theorem head?_runs (xs : List α) : ∀ b ∈ (runs same xs).head?, b.head? = xs.head? := by
  intro b hb
  cases xs with
  | nil => simp [runs] at hb
  | cons x xs =>
    rw [runs] at hb
    cases hb
    rfl

theorem isRunSplit_runs (xs : List α) : IsRunSplit same xs (runs same xs) := by
  fun_induction runs same xs with
  | case1 => exact ⟨rfl, by simp, by simp, .nil⟩
  | case2 x xs ih =>
    refine ⟨?_, ?_, ?_, ?_⟩
    · rw [List.flatten_cons, ih.flatten, List.cons_append, List.takeWhile_append_dropWhile]
    · simpa using ih.ne_nil
    · intro z ys hz y hy
      rcases List.mem_cons.1 hz with h | h
      · cases h
        exact List.all_eq_true.1 (List.all_takeWhile (p := (same · x))) y hy
      · exact ih.later z ys h y hy
    · refine ih.change.cons fun b hb z hz y hy => ?_
      cases hz
      rw [head?_runs _ b hb] at hy
      have hd := List.head?_dropWhile_not (same · x) xs
      rwa [hy] at hd

/-- The first element behind the first block is not the same as the first element of the block. -/
theorem IsRunSplit.head?_flatten {x : α} {xs ys : List α} {blocks : List (List α)}
    (h : IsRunSplit same xs ((x :: ys) :: blocks)) :
    ∀ y ∈ blocks.flatten.head?, same y x = false := by
  intro y hy
  cases blocks with
  | nil => cases hy
  | cons c blocks =>
    cases c with
    | nil => exact absurd (by simp) h.ne_nil
    | cons z zs =>
      cases hy
      exact (List.isChain_cons_cons.1 h.change).1 x rfl y rfl

theorem IsRunSplit.tail {b xs : List α} {blocks : List (List α)}
    (h : IsRunSplit same xs (b :: blocks)) : IsRunSplit same blocks.flatten blocks :=
  ⟨rfl, fun hb => h.ne_nil (List.mem_cons_of_mem b hb),
    fun x ys hx => h.later x ys (List.mem_cons_of_mem b hx), h.change.tail⟩

/-- There is no other split than the one computed, by induction on it. -/
theorem IsRunSplit.eq_runs {xs : List α} {blocks : List (List α)}
    (h : IsRunSplit same xs blocks) : blocks = runs same xs := by
  fun_induction runs same xs generalizing blocks with
  | case1 =>
    cases blocks with
    | nil => rfl
    | cons b blocks =>
      obtain ⟨rfl, -⟩ := List.append_eq_nil_iff.1 h.flatten
      exact absurd List.mem_cons_self h.ne_nil
  | case2 x xs ih =>
    rcases blocks with _ | ⟨_ | ⟨z, ys⟩, blocks⟩
    · cases h.flatten
    · exact absurd List.mem_cons_self h.ne_nil
    have hf := h.flatten
    rw [List.flatten_cons, List.cons_append, List.cons.injEq] at hf
    obtain ⟨rfl, rfl⟩ := hf
    have hys := h.later z ys List.mem_cons_self
    have htake : blocks.flatten.takeWhile (same · z) = [] ∧
        blocks.flatten.dropWhile (same · z) = blocks.flatten := by
      cases hfl : blocks.flatten with
      | nil => exact ⟨rfl, rfl⟩
      | cons w ws =>
        have hw := h.head?_flatten w (by rw [hfl]; rfl)
        simp [hw]
    rw [List.dropWhile_append_of_pos hys, htake.2] at ih
    rw [List.takeWhile_append_of_pos hys, List.dropWhile_append_of_pos hys, htake.1, htake.2,
      List.append_nil, ← ih h.tail]

/-- Every list has exactly one split into runs. -/
theorem existsUnique_isRunSplit (same : α → α → Bool) (xs : List α) :
    ∃! blocks, IsRunSplit same xs blocks :=
  ⟨runs same xs, isRunSplit_runs xs, fun _ h => h.eq_runs⟩

end Stylesheet
