import Mathlib.Logic.Function.Basic

/-!
# Two walks that take turns

A walk takes steps until it ends with a result (`Ends`).  Two of them that take turns, one step each, end with the
first of the two that ends (`Race`).

* `Ends.race`: each walk on its own ends after some number of steps; the one that goes first wins when it needs no
  more steps than the other.
-/

namespace InTurn

variable {ι σ ρ : Type*}

/-- The walk `w` from `s` takes `n` steps and ends with `r`. -/
inductive Ends (w : σ → σ ⊕ ρ) : σ → Nat → ρ → Prop
  | now {s : σ} {r : ρ} : w s = .inr r → Ends w s 0 r
  | later {s t : σ} {n : Nat} {r : ρ} : w s = .inl t → Ends w t n r → Ends w s (n + 1) r

variable [DecidableEq ι]

/-- The walks take turns, `i` being next; one of them ends after `n` steps, with `r`. -/
inductive Race (w : ι → σ → σ ⊕ ρ) (other : ι → ι) : ι → (ι → σ) → Nat → ρ → Prop
  | now {i : ι} {s : ι → σ} {r : ρ} : w i (s i) = .inr r → Race w other i s 0 r
  | later {i : ι} {s : ι → σ} {t : σ} {n : Nat} {r : ρ} : w i (s i) = .inl t →
      Race w other (other i) (Function.update s i t) n r → Race w other i s (n + 1) r

/-- **The first to end wins** -/
theorem Ends.race {w : ι → σ → σ ⊕ ρ} {other : ι → ι} (hne : ∀ i, other i ≠ i) (hback : ∀ i, other (other i) = i)
    {i : ι} {s : ι → σ} {n m : Nat} {r r' : ρ} (h : Ends (w i) (s i) n r)
    (h' : Ends (w (other i)) (s (other i)) m r') :
    ∃ k, Race w other i s k (if n ≤ m then r else r') := by
  -- the two change places with each step, so the sum of their steps falls
  induction hk : n + m generalizing i s n m r r' with
  | zero =>
    obtain rfl : n = 0 := by omega
    cases h with
    | now hr =>
      rw [if_pos (Nat.zero_le m)]
      exact ⟨0, .now hr⟩
  | succ k ih =>
    cases h with
    | now hr =>
      rw [if_pos (Nat.zero_le m)]
      exact ⟨0, .now hr⟩
    | @later _ t n _ ht hlater =>
      have hnext : Ends (w (other i)) (Function.update s i t (other i)) m r' := by
        rw [Function.update_of_ne (hne i)]
        exact h'
      have hmine : Ends (w (other (other i))) (Function.update s i t (other (other i))) n r := by
        rw [hback, Function.update_self]
        exact hlater
      obtain ⟨j, hrace⟩ := ih hnext hmine (by omega)
      have hr : (if m ≤ n then r' else r) = if n + 1 ≤ m then r else r' := by
        by_cases hmn : m ≤ n
        · rw [if_pos hmn, if_neg (by omega)]
        · rw [if_neg hmn, if_pos (by omega)]
      rw [hr] at hrace
      exact ⟨j + 1, .later ht hrace⟩

end InTurn
