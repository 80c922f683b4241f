import Mathlib.Data.BitVec

/-!
# Labelled transition systems, invariants and guarded runs

A system is a set of start states and a labelled step relation.  `Reach` is
the set of states of its runs, `Path` a single run with the state before and
the label of every step.

* `Reach.invariant`: what the start states satisfy and every step keeps holds
  in every reachable state; `invariant_of` when the step uses another
  invariant already known.
* `restrict`: the runs all of whose steps meet a condition.
* `Path.keep`, `Path.invariant`: the same rule along a single run.
* `Path.exact`: if a step keeps `P` exactly when it meets `C`, then along a run
  `P` holds in every state exactly when every step meets `C`; `Path.exactSteps`
  when something is wanted of the steps as well.
* `Sys.ofNext`: the system of a guard and a next-state function; its runs on a
  given list of actions can be evaluated (`Fires`).
-/

namespace Transition

/-- Start states and labelled steps. -/
structure Sys (σ α : Type) where
  init : σ → Prop
  step : σ → α → σ → Prop

variable {σ α : Type}

/-- States of the runs of `T`. -/
inductive Reach (T : Sys σ α) : σ → Prop
  | init {s : σ} : T.init s → Reach T s
  | step {s t : σ} {a : α} : Reach T s → T.step s a t → Reach T t

/-- A run from `s` to `t`, with the state before and the label of each step. -/
inductive Path (T : Sys σ α) : σ → List (σ × α) → σ → Prop
  | nil (s : σ) : Path T s [] s
  | cons {s t u : σ} {a : α} {l : List (σ × α)} :
      T.step s a t → Path T t l u → Path T s ((s, a) :: l) u

/-- The runs of `T` whose steps all meet `C`. -/
def Sys.restrict (T : Sys σ α) (C : σ → α → Prop) : Sys σ α where
  init := T.init
  step s a t := C s a ∧ T.step s a t

variable {I : σ → Prop} {T : Sys σ α} {s t : σ} {C : σ → α → Prop} {l : List (σ × α)}

theorem Reach.invariant (h0 : ∀ s, T.init s → I s) (hs : ∀ s a t, I s → T.step s a t → I t) (h : Reach T s) : I s := by
  induction h with
  | init h => exact h0 _ h
  | step _ ht ih => exact hs _ _ _ ih ht

/-- Induction with an invariant `J` that is already known of every reachable state. -/
theorem Reach.invariant_of {J : σ → Prop} (hJ : ∀ s, Reach T s → J s)
    (h0 : ∀ s, T.init s → I s) (hs : ∀ s a t, J s → I s → T.step s a t → I t)
    (h : Reach T s) : I s := by
  induction h with
  | init h => exact h0 _ h
  | step hr ht ih => exact hs _ _ _ (hJ _ hr) ih ht

theorem Reach.of_restrict (h : Reach (T.restrict C) s) : Reach T s := by
  induction h with
  | init h => exact .init h
  | step _ ht ih => exact .step ih ht.2

theorem Path.keep (hs : ∀ s a t, I s → T.step s a t → C s a → I t) (h : Path T s l t)
    (hC : ∀ p ∈ l, C p.1 p.2) (h0 : I s) : I t := by
  induction h with
  | nil => exact h0
  | @cons s t u a l ht _ ih =>
    apply ih
    · intro p hp
      exact hC p (List.mem_cons_of_mem _ hp)
    · exact hs s a t h0 ht (hC (s, a) List.mem_cons_self)

theorem Path.invariant (hs : ∀ s a t, I s → T.step s a t → I t) (h : Path T s l t) (h0 : I s) : I t :=
  h.keep (C := fun _ _ => True) (fun s a t hI ht _ => hs s a t hI ht) (fun _ _ => trivial) h0

theorem Path.reach (h : Path T s l t) (hs : Reach T s) : Reach T t := by
  induction h with
  | nil => exact hs
  | cons ht _ ih => exact ih (.step hs ht)

/-- **Exact runs.**  `I` is what the steps meeting `C` keep, `P` what is wanted of the states of a run
and `Q` what is wanted of its steps.  If a step taken with `I` and `P` gives `Q` and keeps `I` and `P`
when it meets `C`, and loses `P` or `Q` when it does not, then a run has `P` in every state and `Q`
in every step iff every step meets `C`. -/
theorem Path.exactSteps {P : σ → Prop} {Q : σ → α → Prop}
    (keep : ∀ s a t, I s → P s → T.step s a t → C s a → I t ∧ P t ∧ Q s a)
    (lose : ∀ s a t, I s → P s → T.step s a t → P t → Q s a → C s a)
    (h : Path T s l t) (hI : I s) (hP : P s) :
    ((∀ p ∈ l, P p.1 ∧ Q p.1 p.2) ∧ P t) ↔ ∀ p ∈ l, C p.1 p.2 := by
  induction h with
  | nil s => simp [hP]
  | @cons s t u a l hst hp ih =>
    constructor
    · rintro ⟨h1, h2⟩
      have ht : P t := by
        cases hp with
        | nil => exact h2
        | cons => exact (h1 (t, _) (List.mem_cons_of_mem _ List.mem_cons_self)).1
      have hC := lose _ _ _ hI hP hst ht (h1 (s, a) List.mem_cons_self).2
      have hIt := (keep _ _ _ hI hP hst hC).1
      intro p hpl
      rcases List.mem_cons.mp hpl with rfl | hpl
      · exact hC
      · exact (ih hIt ht).mp ⟨fun p hp => h1 p (List.mem_cons_of_mem _ hp), h2⟩ p hpl
    · intro hC
      obtain ⟨hIt, ht, hQ⟩ := keep _ _ _ hI hP hst (hC (s, a) List.mem_cons_self)
      obtain ⟨h1, h2⟩ := (ih hIt ht).mpr fun p hp => hC p (List.mem_cons_of_mem _ hp)
      refine ⟨fun p hpl => ?_, h2⟩
      rcases List.mem_cons.mp hpl with rfl | hpl
      · exact ⟨hP, hQ⟩
      · exact h1 p hpl

/-- `Path.exactSteps` where nothing is wanted of the steps. -/
theorem Path.exact {P : σ → Prop} (keep : ∀ s a t, I s → P s → T.step s a t → C s a → I t ∧ P t)
    (lose : ∀ s a t, I s → P s → T.step s a t → P t → C s a)
    (h : Path T s l t) (hI : I s) (hP : P s) :
    ((∀ p ∈ l, P p.1) ∧ P t) ↔ ∀ p ∈ l, C p.1 p.2 := by
  have := h.exactSteps (Q := fun _ _ => True)
    (fun s a t hI hP ht hC => ⟨(keep s a t hI hP ht hC).1, (keep s a t hI hP ht hC).2, trivial⟩)
    (fun s a t hI hP ht hPt _ => lose s a t hI hP ht hPt) hI hP
  simpa only [and_true] using this

/-! ## Systems given by a guard and a next-state function -/

section
variable (init : σ → Prop) (enabled : σ → α → Prop) (next : σ → α → σ)

/-- The system whose step `a` needs `enabled` and leads to `next`. -/
def Sys.ofNext : Sys σ α where
  init := init
  step s a t := enabled s a ∧ t = next s a

/-- Every action of the list is enabled when its turn comes. -/
def Fires : σ → List α → Prop
  | _, [] => True
  | s, a :: as => enabled s a ∧ Fires (next s a) as

instance decFires [∀ s a, Decidable (enabled s a)] : ∀ s as, Decidable (Fires enabled next s as)
  | _, [] => inferInstanceAs (Decidable True)
  | s, a :: as =>
    have := decFires (next s a) as
    inferInstanceAs (Decidable (enabled s a ∧ Fires enabled next (next s a) as))

/-- The states before each action, with the action. -/
def trace : σ → List α → List (σ × α)
  | _, [] => []
  | s, a :: as => (s, a) :: trace (next s a) as

variable {init enabled next}

theorem mem_of_mem_trace {l : List α} {s : σ} {p : σ × α} (h : p ∈ trace next s l) : p.2 ∈ l := by
  induction l generalizing s with
  | nil => cases h
  | cons a as ih =>
    rcases List.mem_cons.mp h with rfl | h
    · exact List.mem_cons_self
    · exact List.mem_cons_of_mem _ (ih h)

theorem Reach.fires {l : List α} {s : σ} (hs : Reach (.ofNext init enabled next) s)
    (h : Fires enabled next s l) : Reach (.ofNext init enabled next) (l.foldl next s) := by
  induction l generalizing s with
  | nil => exact hs
  | cons a as ih => exact ih (.step hs ⟨h.1, rfl⟩) h.2

theorem Path.ofFires {l : List α} {s : σ} (h : Fires enabled next s l) :
    Path (.ofNext init enabled next) s (trace next s l) (l.foldl next s) := by
  induction l generalizing s with
  | nil => exact .nil s
  | cons a as ih => exact .cons ⟨h.1, rfl⟩ (ih h.2)

end

end Transition
