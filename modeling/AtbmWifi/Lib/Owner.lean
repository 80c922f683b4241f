import Mathlib.Data.List.Perm.Basic
import Mathlib.Data.List.Nodup
import Mathlib.Logic.Function.Basic

/-!
# Things with one owner

Things are in bags or in slots.  `OneOwner L slot` says that nothing is in two places: `L` is
what the bags hold together, in any order, and `slot i` what slot `i` holds.

* `OneOwner.perm`: things go from one bag to another.
* `OneOwner.take`, `OneOwner.give`: a thing goes from a slot to a bag and back.
* `OneOwner.add`: a new thing comes into a bag.
-/

variable {ι α : Type}

/-- Nothing is in two bags, two slots, or a bag and a slot. -/
structure OneOwner (L : List α) (slot : ι → Option α) : Prop where
  nodup : L.Nodup
  apart : ∀ i x, slot i = some x → x ∉ L
  once : ∀ i j x, slot i = some x → slot j = some x → i = j

namespace OneOwner

variable {L L' : List α} {slot : ι → Option α}

theorem perm (h : OneOwner L slot) (hp : L'.Perm L) : OneOwner L' slot where
  nodup := hp.nodup_iff.mpr h.nodup
  apart i x hx hm := h.apart i x hx (hp.mem_iff.mp hm)
  once := h.once

theorem add (h : OneOwner L slot) {x : α} (hL : x ∉ L) (hs : ∀ i, slot i ≠ some x) : OneOwner (x :: L) slot where
  nodup := List.nodup_cons.mpr ⟨hL, h.nodup⟩
  apart i y hy hm := by
    rcases List.mem_cons.mp hm with rfl | hm
    · exact hs i hy
    · exact h.apart i y hy hm
  once := h.once

variable [DecidableEq ι]

theorem take (h : OneOwner L slot) {i : ι} {x : α} (hx : slot i = some x) :
    OneOwner (x :: L) (Function.update slot i none) where
  nodup := List.nodup_cons.mpr ⟨h.apart i x hx, h.nodup⟩
  apart j y hy hm := by
    by_cases hj : j = i
    · rw [hj, Function.update_self] at hy
      cases hy
    · rw [Function.update_of_ne hj] at hy
      rcases List.mem_cons.mp hm with rfl | hm
      · exact hj (h.once j i y hy hx)
      · exact h.apart j y hy hm
  once j k y hj hk := by
    by_cases hji : j = i
    · rw [hji, Function.update_self] at hj
      cases hj
    by_cases hki : k = i
    · rw [hki, Function.update_self] at hk
      cases hk
    rw [Function.update_of_ne hji] at hj
    rw [Function.update_of_ne hki] at hk
    exact h.once j k y hj hk

theorem give {i : ι} {x : α} (h : OneOwner (x :: L) slot) :
    OneOwner L (Function.update slot i (some x)) := by
  obtain ⟨hx, hnd⟩ := List.nodup_cons.mp h.nodup
  have hfree : ∀ j y, Function.update slot i (some x) j = some y → j = i ∧ y = x ∨ j ≠ i ∧ slot j = some y := by
    intro j y hy
    by_cases hj : j = i
    · rw [hj, Function.update_self] at hy
      exact .inl ⟨hj, (Option.some.inj hy).symm⟩
    · rw [Function.update_of_ne hj] at hy
      exact .inr ⟨hj, hy⟩
  refine ⟨hnd, fun j y hy hm => ?_, fun j k y hj hk => ?_⟩
  · rcases hfree j y hy with ⟨-, rfl⟩ | ⟨-, hy⟩
    · exact hx hm
    · exact h.apart j y hy (List.mem_cons_of_mem _ hm)
  · rcases hfree j y hj with ⟨rfl, rfl⟩ | ⟨-, hj'⟩
    · rcases hfree k y hk with ⟨rfl, -⟩ | ⟨-, hk'⟩
      · rfl
      · exact absurd List.mem_cons_self (h.apart k y hk')
    · rcases hfree k y hk with ⟨rfl, rfl⟩ | ⟨-, hk'⟩
      · exact absurd List.mem_cons_self (h.apart j y hj')
      · exact h.once j k y hj' hk'

end OneOwner
