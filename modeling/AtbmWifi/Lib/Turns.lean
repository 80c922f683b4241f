import Mathlib.Data.BitVec
import Mathlib.Logic.Relation

/-!
# Loops that may fault or hang

A turn of a loop faults (`none`), leaves it with a result, or goes on in another state.  `run` takes as many turns as
it has fuel.

`run_iff`: let `step` be the way the loop is meant to go.  If a turn in a state that fits leaves with a result as
wanted, or goes where `step` leads and comes closer to an end, and if a turn in any other state faults, stays where it
is, or leaves with a result that is not wanted, then the loop ends as wanted exactly when every state that `step` leads
to fits.
-/

namespace Turns

open Relation

variable {σ ρ : Type}

/-- The result, if the loop is left within the fuel. -/
def run (turn : σ → Option (σ ⊕ ρ)) : Nat → σ → Option ρ
  | 0, _ => none
  | fuel + 1, s =>
    match turn s with
    | none => none
    | some (.inr r) => some r
    | some (.inl t) => run turn fuel t

variable {turn : σ → Option (σ ⊕ ρ)} {s t : σ} {r : ρ} {fuel : Nat}

theorem run_fault (h : turn s = none) : run turn fuel s = none := by
  cases fuel with
  | zero => rfl
  | succ fuel =>
    unfold run
    rw [h]

theorem run_leave (h : turn s = some (.inr r)) : run turn (fuel + 1) s = some r := by
  unfold run
  rw [h]

theorem run_next (h : turn s = some (.inl t)) : run turn (fuel + 1) s = run turn fuel t := by
  rw [run, h]

theorem run_stuck (h : turn s = some (.inl s)) : run turn fuel s = none := by
  induction fuel with
  | zero => rfl
  | succ fuel ih => rw [run_next h, ih]

theorem run_mono (h : run turn fuel s = some r) {fuel' : Nat} (hle : fuel ≤ fuel') : run turn fuel' s = some r := by
  induction fuel generalizing s fuel' with
  | zero => cases h
  | succ fuel ih =>
    obtain ⟨k, rfl⟩ := Nat.exists_eq_succ_of_ne_zero (show fuel' ≠ 0 by omega)
    unfold run at h ⊢
    split at h
    · cases h
    · exact h
    · exact ih h (by omega)

theorem run_det {r' : ρ} {fuel' : Nat} (h : run turn fuel s = some r) (h' : run turn fuel' s = some r') : r = r' := by
  rcases Nat.le_total fuel fuel' with hle | hle
  · exact Option.some.inj ((run_mono h hle).symm.trans h')
  · exact Option.some.inj (h.symm.trans (run_mono h' hle))

/-- A result is one that the last turn leaves with. -/
theorem run_last (h : run turn fuel s = some r) :
    ∃ t, ReflTransGen (fun a b => turn a = some (.inl b)) s t ∧ turn t = some (.inr r) := by
  induction fuel generalizing s with
  | zero => cases h
  | succ fuel ih =>
    unfold run at h
    split at h
    · cases h
    · rename_i r' hr'
      obtain rfl := Option.some.inj h
      exact ⟨s, .refl, hr'⟩
    · rename_i t ht
      obtain ⟨u, hu, hr⟩ := ih h
      exact ⟨u, .head ht hu, hr⟩

section

variable {step : σ → σ → Prop} {Fits : σ → Prop} {Q : ρ → Prop}

theorem run_iff (μ : σ → Nat)
    (fits : ∀ s, Fits s → (∃ r, turn s = some (.inr r) ∧ Q r ∧ ∀ t, ¬ step s t) ∨
      ∃ t, turn s = some (.inl t) ∧ μ t < μ s ∧ ∀ u, step s u ↔ u = t)
    (breaks : ∀ s, ¬ Fits s → turn s = none ∨ turn s = some (.inl s) ∨ ∃ r, turn s = some (.inr r) ∧ ¬ Q r) (s : σ) :
    (∃ fuel r, run turn fuel s = some r ∧ Q r) ↔ ∀ t, ReflTransGen step s t → Fits t := by
  induction hn : μ s using Nat.strongRecOn generalizing s with
  | ind n ih =>
    by_cases hs : Fits s
    · rcases fits s hs with ⟨r, hr, hQ, hend⟩ | ⟨t, ht, hμ, honly⟩
      · constructor
        · intro _ t hst
          rcases ReflTransGen.cases_head hst with rfl | ⟨u, hu, -⟩
          · exact hs
          · exact absurd hu (hend u)
        · exact fun _ => ⟨1, r, run_leave hr, hQ⟩
      · have hrest := ih (μ t) (hn ▸ hμ) t rfl
        constructor
        · rintro ⟨fuel, r, hr, hQ⟩ u hsu
          rcases ReflTransGen.cases_head hsu with rfl | ⟨v, hv, hvu⟩
          · exact hs
          · obtain rfl := (honly v).mp hv
            cases fuel with
            | zero => cases hr
            | succ fuel =>
              rw [run_next ht] at hr
              exact hrest.mp ⟨fuel, r, hr, hQ⟩ u hvu
        · intro hall
          have hstep : step s t := (honly t).mpr rfl
          obtain ⟨fuel, r, hr, hQ⟩ := hrest.mpr fun u hu => hall u (.head hstep hu)
          exact ⟨fuel + 1, r, (run_next ht).trans hr, hQ⟩
    · have hno : ¬ ∃ fuel r, run turn fuel s = some r ∧ Q r := by
        rintro ⟨fuel, r, hr, hQ⟩
        rcases breaks s hs with hfault | hstay | ⟨r', hr', hQ'⟩
        · rw [run_fault hfault] at hr
          cases hr
        · rw [run_stuck hstay] at hr
          cases hr
        · have hleave : run turn 1 s = some r' := run_leave hr'
          exact hQ' (run_det hr hleave ▸ hQ)
      exact ⟨fun h => absurd h hno, fun h => absurd (h s .refl) hs⟩

end

end Turns
