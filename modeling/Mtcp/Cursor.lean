import Mathlib.Logic.Relation
import Mathlib.Tactic

namespace Mtcp.Cursor

open List

/-! Loops that move a cursor forwards through a stretch of numbers. -/

variable {next : Nat → Option Nat} {n : Nat}

def Visits (next : Nat → Option Nat) : Nat → Nat → Prop :=
  Relation.ReflTransGen fun i j => next i = some j

def halts (next : Nat → Option Nat) : Nat → Nat → Bool
  | 0, _ => false
  | fuel + 1, i =>
    match next i with
    | none => true
    | some j => halts next fuel j

def collect {α : Type} (next : Nat → Option Nat) (found : Nat → List α) : Nat → Nat → List α
  | 0, _ => []
  | fuel + 1, i => found i ++
    match next i with
    | none => []
    | some j => collect next found fuel j

theorem not_halts_of_fixed {i : Nat} (h : next i = some i) (fuel : Nat) :
    halts next fuel i = false := by
  induction fuel with
  | zero => rfl
  | succ fuel ih =>
    rw [halts, h]
    exact ih

theorem not_halts_of_visits {i j : Nat} (hv : Visits next i j) (h : next j = some j) (fuel : Nat) :
    halts next fuel i = false := by
  induction hv using Relation.ReflTransGen.head_induction_on generalizing fuel with
  | refl => exact not_halts_of_fixed h fuel
  | head hstep _ ih =>
    cases fuel with
    | zero => rfl
    | succ fuel =>
      rw [halts, hstep]
      exact ih fuel

theorem halts_of_moves (hmono : ∀ i j, next i = some j → i ≤ j) (hend : ∀ i, n ≤ i → next i = none)
    (fuel i : Nat) (hfuel : n - i < fuel) (hmoves : ∀ j, Visits next i j → next j ≠ some j) :
    halts next fuel i := by
  induction fuel generalizing i with
  | zero => exact absurd hfuel (Nat.not_lt_zero _)
  | succ fuel ih =>
    rw [halts]
    cases hj : next i with
    | none => rfl
    | some j =>
      have hle := hmono i j hj
      have hne : j ≠ i := by
        rintro rfl
        exact hmoves j .refl hj
      have hin : i < n := by
        by_contra hout
        rw [hend i (not_lt.mp hout)] at hj
        cases hj
      exact ih j (by omega) fun k hk => hmoves k (.head hj hk)

/-- A loop whose cursor never goes backwards ends exactly if the cursor never stands still. -/
theorem halts_iff (hmono : ∀ i j, next i = some j → i ≤ j) (hend : ∀ i, n ≤ i → next i = none)
    (i : Nat) : (∃ fuel, halts next fuel i) ↔ ∀ j, Visits next i j → next j ≠ some j := by
  refine ⟨fun ⟨fuel, h⟩ j hv hj => ?_, fun h => ?_⟩
  · rw [not_halts_of_visits hv hj] at h
    cases h
  · exact ⟨n - i + 1, halts_of_moves hmono hend _ i (Nat.lt_succ_self _) h⟩

theorem forall_mem_collect {α : Type} {found : Nat → List α} {p : α → Prop} (i : Nat) :
    (∀ fuel, ∀ x ∈ collect next found fuel i, p x) ↔ ∀ j, Visits next i j → ∀ x ∈ found j, p x := by
  constructor
  · intro h j hv
    induction hv using Relation.ReflTransGen.head_induction_on with
    | refl =>
      intro x hx
      exact h 1 x (mem_append_left _ hx)
    | head hstep _ ih =>
      refine ih fun fuel x hx => h (fuel + 1) x (mem_append_right _ ?_)
      rw [hstep]
      exact hx
  · intro h fuel
    induction fuel generalizing i with
    | zero => exact fun x hx => absurd hx not_mem_nil
    | succ fuel ih =>
      intro x hx
      rw [collect] at hx
      obtain hx | hx := mem_append.mp hx
      · exact h i .refl x hx
      · cases hj : next i with
        | none =>
          rw [hj] at hx
          exact absurd hx not_mem_nil
        | some j =>
          rw [hj] at hx
          exact ih j (fun k hk => h k (.head hj hk)) x hx

end Mtcp.Cursor
