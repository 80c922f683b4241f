import Mathlib.Data.BitVec
import Mathlib.Data.List.Basic
import Mathlib.Data.List.Perm.Basic

/-!
# What the parties of a list hold

`l.flatMap f` is what the parties `l` hold together, `f x` what party `x` holds.  A step
replaces one party.

* `sum_map_set`, `count_flatMap_set`: what the others hold stays.
* `flatMap_set_same`: a step that leaves the holdings of its party leaves them all.
* `flatMap_set_alone`: if no other party holds anything, all is with the one.
-/

variable {α β : Type} {f : β → List α} {l : List β} {i : Nat} {x y : β}

theorem sum_map_set {x : β} (g : β → Nat) (hx : l[i]? = some x) (y : β) :
    ((l.set i y).map g).sum + g x = (l.map g).sum + g y := by
  induction l generalizing i with
  | nil => cases hx
  | cons z l ih =>
    cases i with
    | zero =>
      obtain rfl : z = x := Option.some.inj hx
      simp only [List.set_cons_zero, List.map_cons, List.sum_cons]
      omega
    | succ i =>
      have := ih (i := i) hx
      simp only [List.set_cons_succ, List.map_cons, List.sum_cons]
      omega

theorem count_flatMap_set [DecidableEq α] (f : β → List α) (hx : l[i]? = some x) (y : β) (a : α) :
    ((l.set i y).flatMap f).count a + (f x).count a = (l.flatMap f).count a + (f y).count a := by
  rw [List.count_flatMap, List.count_flatMap]
  exact sum_map_set (fun z => (f z).count a) hx y

theorem flatMap_set_same (hx : l[i]? = some x) (hf : f y = f x) : (l.set i y).flatMap f = l.flatMap f := by
  induction l generalizing i with
  | nil => rfl
  | cons z l ih =>
    cases i with
    | zero =>
      obtain rfl : z = x := Option.some.inj hx
      rw [List.set_cons_zero, List.flatMap_cons, List.flatMap_cons, hf]
    | succ i => rw [List.set_cons_succ, List.flatMap_cons, List.flatMap_cons, ih hx]

theorem flatMap_alone (hx : l[i]? = some x) (ho : ∀ j z, j ≠ i → l[j]? = some z → f z = []) :
    l.flatMap f = f x := by
  induction l generalizing i with
  | nil => cases hx
  | cons z l ih =>
    rw [List.flatMap_cons]
    cases i with
    | zero =>
      obtain rfl : z = x := Option.some.inj hx
      have hrest : l.flatMap f = [] := by
        rw [List.flatMap_eq_nil_iff]
        intro w hw
        obtain ⟨j, hj⟩ := List.mem_iff_getElem?.mp hw
        exact ho (j + 1) w (by omega) hj
      rw [hrest, List.append_nil]
    | succ i =>
      rw [ho 0 z (by omega) rfl, List.nil_append]
      apply ih hx
      intro j w hj hw
      exact ho (j + 1) w (by omega) hw

theorem flatMap_set_alone (hi : i < l.length) (ho : ∀ j z, j ≠ i → l[j]? = some z → f z = []) :
    (l.set i y).flatMap f = f y := by
  apply flatMap_alone (i := i) (List.getElem?_set_self hi)
  intro j z hj hz
  rw [List.getElem?_set_ne (Ne.symm hj)] at hz
  exact ho j z hj hz
