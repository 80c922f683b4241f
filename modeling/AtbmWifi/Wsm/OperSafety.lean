import Mathlib.Tactic.Common
import AtbmWifi.Wsm.OperLock

/-!
# Who releases the operation semaphore

* `OperSafe`: every `up()` so far, and every `up()` a thread is about to make,
  releases an acquisition; the count is binary, one operation at most is inside,
  and the suspend count is that of the `wsm_set_pm` not yet completed.

`wsm_set_pm` cancels the timer and releases on an error without looking at
`wsm_pm_running`, which `atbm_pm_timer` or an indication may have cleared.
-/

namespace AtbmWifi

open Transition

structure OperSafe (s : OperState) : Prop where
  matched : s.unmatched = 0
  binary : s.operLock ≤ 1
  exclusive : s.live.length ≤ 1
  suspend : s.suspend = if s.pmBy.isSome then 1 else 0
  leaving : ∀ t op n, s.pc t = .leaving op n → ⟨n, op, t⟩ ∈ s.live

/-- A scan that holds the semaphore and is not on its error path. -/
def scanHolds (s : OperState) : Bool :=
  s.live.any fun x => x.op == .scan && s.pc x.thread != .leaving .scan x.id

/-- `wsm_set_pm` fails while `wsm_pm_running` is the one it set; `wsm_scan` fails before its
completion came; a completion, or a failed stop, finds the scan it is for. -/
def StillHolds (s : OperState) : OperAct → Prop
  | .nomem t .scan n => ⟨n, .scan, t⟩ ∈ s.live
  | .confirm t .scan n false => ⟨n, .scan, t⟩ ∈ s.live
  | .cancel _ n => s.pmBy = some n
  | .scanComplete => scanHolds s = true
  | .stopScanFailed => scanHolds s = true
  | _ => True

instance decStillHolds (s : OperState) : ∀ a, Decidable (StillHolds s a)
  | .nomem t .scan n => inferInstanceAs (Decidable ((⟨n, .scan, t⟩ : Acq) ∈ s.live))
  | .confirm t .scan n false => inferInstanceAs (Decidable ((⟨n, .scan, t⟩ : Acq) ∈ s.live))
  | .cancel _ n => inferInstanceAs (Decidable (s.pmBy = some n))
  | .scanComplete | .stopScanFailed => inferInstanceAs (Decidable (scanHolds s = true))
  | .enter .. | .request .. | .unlock .. | .timerFire | .timerBody | .pmIndication => isTrue trivial
  | .nomem _ .setPm _ | .nomem _ .join _ | .nomem _ .start _ | .nomem _ .setChantype _ => isTrue trivial
  | .confirm _ .setPm _ _ | .confirm _ .join _ _ | .confirm _ .start _ _
  | .confirm _ .setChantype _ _ | .confirm _ .scan _ true => isTrue trivial

def OperPc.inside : OperPc → Option (Nat × Oper)
  | .locked op n => some (n, op)
  | .sending op n => if op = .setPm then none else some (n, op)
  | _ => none

structure OperInv (s : OperState) : Prop where
  single : (s.operLock = 1 ∧ s.live = []) ∨ (s.operLock = 0 ∧ ∃ x, s.live = [x])
  liveLt : ∀ x ∈ s.live, x.id < s.nextAcq
  pcLt : ∀ t n op, (s.pc t).carries = some (n, op) → n < s.nextAcq
  /-- what a thread carries is its own -/
  own : ∀ x ∈ s.live, ∀ t op, (s.pc t).carries = some (x.id, op) → x = ⟨x.id, op, t⟩
  /-- only a scan can lose the semaphore before its command is confirmed, or a `wsm_set_pm`
  during it -/
  hold : ∀ t n op, (s.pc t).inside = some (n, op) → op ≠ .scan → ⟨n, op, t⟩ ∈ s.live
  pmLive : ∀ n, s.pmBy = some n → ∃ t, ⟨n, .setPm, t⟩ ∈ s.live
  livePm : ∀ t n, s.pc t = .sending .setPm n ∨ s.pc t = .failed n → ⟨n, .setPm, t⟩ ∈ s.live →
    s.pmBy = some n
  notPm : ∀ t n, s.pc t = .locked .setPm n ∨ s.pc t = .leaving .setPm n → s.pmBy ≠ some n
  running : s.pmRunning = s.pmBy.isSome
  armed : s.pmBy.isSome → s.pmTimer = true ∨ 0 < s.timerRuns
  releaser : ∀ x ∈ s.live, (s.pc x.thread).carries = some (x.id, x.op) ∨ s.pmBy = some x.id ∨ x.op = .scan

theorem operInv_init : OperInv {} := by
  constructor <;> simp [OperPc.carries, OperPc.inside]

theorem operSafe_init : OperSafe {} := by
  constructor <;> simp

section
variable {s : OperState} (hI : OperInv s)
include hI

theorem live_eq {x : Acq} (hx : x ∈ s.live) : s.operLock = 0 ∧ s.live = [x] := by
  rcases hI.single with ⟨-, h⟩ | ⟨h0, y, hy⟩
  · rw [h] at hx
    cases hx
  · rw [hy, List.mem_singleton] at hx
    exact ⟨h0, by rw [hy, hx]⟩

theorem live_unique {x y : Acq} (hx : x ∈ s.live) (hy : y ∈ s.live) : x = y := by
  rw [(live_eq hI hx).2, List.mem_singleton] at hy
  exact hy.symm

omit hI in
theorem operUnlock_single {x : Acq} (h0 : s.operLock = 0) (hl : s.live = [x]) :
    operUnlock (some x.id) s = { s with operLock := 1, live := [] } := by
  unfold operUnlock
  simp [hl, h0]

theorem pmBy_none_of_free (hl : s.live = []) : s.pmBy = none := by
  cases hp : s.pmBy with
  | none => rfl
  | some n =>
    obtain ⟨t, ht⟩ := hI.pmLive n hp
    rw [hl] at ht
    cases ht

theorem pm_thread {t n : Nat} (hp : s.pmBy = some n) (hc : (s.pc t).carries = some (n, .setPm)) :
    ⟨n, .setPm, t⟩ ∈ s.live := by
  obtain ⟨t', ht'⟩ := hI.pmLive n hp
  rw [← hI.own _ ht' t .setPm hc]
  exact ht'

end

@[simp] theorem goto_pc_self (t : Nat) (p : OperPc) (s : OperState) : (s.goto t p).pc t = p :=
  Function.update_self ..

theorem goto_pc_ne {t t' : Nat} (h : t' ≠ t) (p : OperPc) (s : OperState) :
    (s.goto t p).pc t' = s.pc t' :=
  Function.update_of_ne h ..

/-- The new place `p` of a thread fits the invariant, with `s` otherwise unchanged. -/
structure Fits (s : OperState) (t : Nat) (p : OperPc) : Prop where
  carries : p.carries = (s.pc t).carries ∨ p.carries = none
  hold : ∀ n op, p.inside = some (n, op) → op ≠ .scan → ⟨n, op, t⟩ ∈ s.live
  livePm : ∀ n, p = .sending .setPm n ∨ p = .failed n → ⟨n, .setPm, t⟩ ∈ s.live → s.pmBy = some n
  notPm : ∀ n, p = .locked .setPm n ∨ p = .leaving .setPm n → s.pmBy ≠ some n
  releaser : ∀ x ∈ s.live, (s.pc t).carries = some (x.id, x.op) →
    p.carries = some (x.id, x.op) ∨ s.pmBy = some x.id ∨ x.op = .scan

section
variable {s : OperState} (hI : OperInv s)
include hI

theorem goto_inv {t : Nat} {p : OperPc} (hf : Fits s t p) : OperInv (s.goto t p) where
  single := hI.single
  liveLt := hI.liveLt
  pcLt t' n op h := by
    by_cases ht : t' = t
    · subst ht
      rw [goto_pc_self] at h
      rcases hf.carries with hc | hc
      · exact hI.pcLt t' n op (hc ▸ h)
      · rw [hc] at h
        cases h
    · rw [goto_pc_ne ht] at h
      exact hI.pcLt t' n op h
  own x hx t' op h := by
    by_cases ht : t' = t
    · subst ht
      rw [goto_pc_self] at h
      rcases hf.carries with hc | hc
      · exact hI.own x hx t' op (hc ▸ h)
      · rw [hc] at h
        cases h
    · rw [goto_pc_ne ht] at h
      exact hI.own x hx t' op h
  hold t' n op h hop := by
    by_cases ht : t' = t
    · subst ht
      rw [goto_pc_self] at h
      exact hf.hold n op h hop
    · rw [goto_pc_ne ht] at h
      exact hI.hold t' n op h hop
  pmLive := hI.pmLive
  livePm t' n h hx := by
    by_cases ht : t' = t
    · subst ht
      rw [goto_pc_self] at h
      exact hf.livePm n h hx
    · rw [goto_pc_ne ht] at h
      exact hI.livePm t' n h hx
  notPm t' n h := by
    by_cases ht : t' = t
    · subst ht
      rw [goto_pc_self] at h
      exact hf.notPm n h
    · rw [goto_pc_ne ht] at h
      exact hI.notPm t' n h
  running := hI.running
  armed := hI.armed
  releaser x hx := by
    have h := hI.releaser x hx
    by_cases ht : x.thread = t
    · subst ht
      rw [goto_pc_self]
      rcases h with h | h
      · exact hf.releaser x hx h
      · exact .inr h
    · rw [goto_pc_ne ht]
      exact h

omit hI in
theorem goto_safe (hS : OperSafe s) {t : Nat} {p : OperPc}
    (hp : ∀ op n, p = .leaving op n → ⟨n, op, t⟩ ∈ s.live) : OperSafe (s.goto t p) where
  matched := hS.matched
  binary := hS.binary
  exclusive := hS.exclusive
  suspend := hS.suspend
  leaving t' op n h := by
    by_cases ht : t' = t
    · subst ht
      rw [goto_pc_self] at h
      exact hp op n h
    · rw [goto_pc_ne ht] at h
      exact hS.leaving t' op n h

end

section
variable {s : OperState} (hI : OperInv s) (hS : OperSafe s)
include hI hS

variable {t n : Nat} {op : Oper}

theorem enter_keeps (op : Oper) (ht : s.pc t = .out) (hl : 0 < s.operLock) :
    OperInv (OperAct.next s (.enter t op)) ∧ OperSafe (OperAct.next s (.enter t op)) := by
  obtain ⟨h1, hlive⟩ : s.operLock = 1 ∧ s.live = [] := by
    rcases hI.single with h | ⟨h0, -⟩
    · exact h
    · omega
  have hpm := pmBy_none_of_free hI hlive
  have hlive' : (OperAct.next s (.enter t op)).live = [⟨s.nextAcq, op, t⟩] := by
    simp [OperAct.next, OperState.goto, hlive]
  refine ⟨⟨.inr ⟨?_, _, hlive'⟩, ?_, ?_, ?_, ?_, ?_, ?_, ?_, hI.running, hI.armed, ?_⟩,
    ⟨hS.matched, ?_, ?_, hS.suspend, ?_⟩⟩
  · change s.operLock - 1 = 0
    omega
  · rw [hlive']
    rintro x hx
    rw [List.mem_singleton.mp hx]
    exact Nat.lt_succ_self _
  · intro t' n op' h
    by_cases htt : t' = t
    · subst htt
      obtain ⟨rfl, rfl⟩ : s.nextAcq = n ∧ op = op' := by
        simpa [OperAct.next, OperPc.carries] using h
      exact Nat.lt_succ_self _
    · exact Nat.lt_succ_of_lt (hI.pcLt t' n op' (goto_pc_ne htt .. ▸ h))
  · rw [hlive']
    intro x hx t' op' h
    rw [List.mem_singleton.mp hx] at h ⊢
    by_cases htt : t' = t
    · subst htt
      obtain rfl : op = op' := by simpa [OperAct.next, OperPc.carries] using h
      rfl
    · -- the number is new, no other thread carries it
      have := hI.pcLt t' _ op' (goto_pc_ne htt .. ▸ h)
      simp at this
  · rw [hlive']
    intro t' n op' h hop
    by_cases htt : t' = t
    · subst htt
      obtain ⟨rfl, rfl⟩ : s.nextAcq = n ∧ op = op' := by
        simpa [OperAct.next, OperPc.inside] using h
      exact List.mem_singleton_self _
    · have := hI.hold t' n op' (goto_pc_ne htt .. ▸ h) hop
      rw [hlive] at this
      cases this
  · intro n hn
    change s.pmBy = some n at hn
    rw [hpm] at hn
    cases hn
  · rw [hlive']
    intro t' n h hx
    by_cases htt : t' = t
    · subst htt
      simp [OperAct.next] at h
    · obtain ⟨-, -, rfl⟩ : n = s.nextAcq ∧ .setPm = op ∧ t' = t := by simpa using hx
      exact absurd rfl htt
  · intro t' n _
    change s.pmBy ≠ some n
    simp [hpm]
  · rw [hlive']
    intro x hx
    rw [List.mem_singleton.mp hx]
    left
    simp [OperAct.next, OperPc.carries]
  · change s.operLock - 1 ≤ 1
    omega
  · simp [hlive']
  · intro t' op' n h
    by_cases htt : t' = t
    · subst htt
      simp [OperAct.next] at h
    · have := hS.leaving t' op' n (goto_pc_ne htt .. ▸ h)
      rw [hlive] at this
      cases this

theorem nomem_keeps (hpc : s.pc t = .locked op n) (hC : StillHolds s (.nomem t op n)) :
    OperInv (OperAct.next s (.nomem t op n)) ∧ OperSafe (OperAct.next s (.nomem t op n)) := by
  have hx : ⟨n, op, t⟩ ∈ s.live := by
    by_cases hop : op = .scan
    · subst hop
      exact hC
    · exact hI.hold t n op (by rw [hpc]; rfl) hop
  refine ⟨goto_inv hI ⟨.inl (by rw [hpc]; rfl), by simp [OperPc.inside], by simp, ?_, ?_⟩,
    goto_safe hS ?_⟩
  · rintro n' (h | h)
    · cases h
    · cases h
      exact hI.notPm t _ (.inl hpc)
  · intro x _ h
    rw [hpc] at h
    exact .inl h
  · rintro op' n' h
    cases h
    exact hx

theorem request_keeps (hpc : s.pc t = .locked op n) :
    OperInv (OperAct.next s (.request t op n)) ∧ OperSafe (OperAct.next s (.request t op n)) := by
  have hmem : op ≠ .scan → ⟨n, op, t⟩ ∈ s.live := hI.hold t n op (by rw [hpc]; rfl)
  by_cases hop : op ≠ .setPm
  · simp only [OperAct.next, hop, if_false]
    have hI' : OperInv { s with cmdMux := some t } := ⟨hI.single, hI.liveLt, hI.pcLt, hI.own, hI.hold,
      hI.pmLive, hI.livePm, hI.notPm, hI.running, hI.armed, hI.releaser⟩
    have hS' : OperSafe { s with cmdMux := some t } :=
      ⟨hS.matched, hS.binary, hS.exclusive, hS.suspend, hS.leaving⟩
    refine ⟨goto_inv hI' ⟨.inl (by simp [hpc, OperPc.carries]), ?_, ?_, by simp, ?_⟩,
      goto_safe hS' (by simp)⟩
    · intro n' op' h hne
      obtain ⟨rfl, rfl⟩ : n = n' ∧ op = op' := by simpa [OperPc.inside, hop] using h
      exact hmem hne
    · rintro n' (h | h)
      · cases h
        exact absurd rfl hop
      · cases h
    · intro x _ h
      simp only [hpc] at h
      exact .inl h
  · obtain rfl := Decidable.of_not_not hop
    have hx := hmem (by decide)
    obtain ⟨h0, hlive⟩ := live_eq hI hx
    have hpm : s.pmBy = none := by
      cases hp : s.pmBy with
      | none => rfl
      | some n' =>
        obtain ⟨t', ht'⟩ := hI.pmLive n' hp
        obtain ⟨rfl, -⟩ : n = n' ∧ _ := by simpa using live_unique hI hx ht'
        exact absurd hp (hI.notPm t n (.inl hpc))
    have hcar : ∀ t', t' ≠ t → ∀ op', (s.pc t').carries ≠ some (n, op') := by
      intro t' htt op' h
      have := hI.own _ hx t' op' h
      obtain ⟨-, rfl⟩ : _ ∧ t = t' := by simpa using this
      exact htt rfl
    simp only [OperAct.next, if_true]
    refine ⟨⟨hI.single, hI.liveLt, ?_, ?_, ?_, ?_, ?_, ?_, rfl, fun _ => .inl rfl, ?_⟩,
      ⟨hS.matched, hS.binary, hS.exclusive, ?_, ?_⟩⟩
    · intro t' n' op' h
      by_cases htt : t' = t
      · subst htt
        rw [goto_pc_self] at h
        exact hI.pcLt t' n' op' (by rw [hpc]; exact h)
      · exact hI.pcLt t' n' op' (goto_pc_ne htt .. ▸ h)
    · intro x hx' t' op' h
      by_cases htt : t' = t
      · subst htt
        rw [goto_pc_self] at h
        exact hI.own x hx' t' op' (by rw [hpc]; exact h)
      · exact hI.own x hx' t' op' (goto_pc_ne htt .. ▸ h)
    · intro t' n' op' h hne
      by_cases htt : t' = t
      · subst htt
        rw [goto_pc_self] at h
        simp [OperPc.inside] at h
      · exact hI.hold t' n' op' (goto_pc_ne htt .. ▸ h) hne
    · rintro n' ⟨⟩
      exact ⟨t, hx⟩
    · intro t' n' _ hx'
      obtain ⟨rfl, -⟩ : n = n' ∧ _ := by simpa using live_unique hI hx hx'
      rfl
    · intro t' n' h hp
      obtain rfl : n = n' := by simpa [OperState.goto, atbmPmTimerSetup] using hp
      by_cases htt : t' = t
      · subst htt
        rw [goto_pc_self] at h
        simp at h
      · rw [goto_pc_ne htt] at h
        apply hcar t' htt .setPm
        rcases h with h | h <;> (change s.pc t' = _ at h; rw [h]; rfl)
    · intro x hx'
      rw [← live_unique hI hx hx']
      exact .inr (.inl rfl)
    · have := hS.suspend
      simp only [hpm, Option.isSome_none] at this
      simp [OperState.goto, atbmPmTimerSetup, this]
    · intro t' op' n' h
      by_cases htt : t' = t
      · subst htt
        rw [goto_pc_self] at h
        cases h
      · exact hS.leaving t' op' n' (goto_pc_ne htt .. ▸ h)

theorem confirm_keeps {ok : Bool} (hpc : s.pc t = .sending op n) (hC : StillHolds s (.confirm t op n ok)) :
    OperInv (OperAct.next s (.confirm t op n ok)) ∧ OperSafe (OperAct.next s (.confirm t op n ok)) := by
  have hI' : OperInv { s with cmdMux := none } := ⟨hI.single, hI.liveLt, hI.pcLt, hI.own, hI.hold,
    hI.pmLive, hI.livePm, hI.notPm, hI.running, hI.armed, hI.releaser⟩
  have hS' : OperSafe { s with cmdMux := none } :=
    ⟨hS.matched, hS.binary, hS.exclusive, hS.suspend, hS.leaving⟩
  have hold : op ≠ .scan → op ≠ .setPm → ⟨n, op, t⟩ ∈ s.live := fun h h' =>
    hI.hold t n op (by rw [hpc]; simp [OperPc.inside, h']) h
  have hcar : (s.pc t).carries = some (n, op) := by rw [hpc]; rfl
  -- the thread is through: what it carried is left to the timer or a completion
  have hout : op = .setPm ∨ op = .scan → Fits { s with cmdMux := none } t .out := by
    intro hop
    refine ⟨.inr rfl, by simp [OperPc.inside], by simp, by simp, fun x hx h => .inr ?_⟩
    obtain ⟨rfl, rfl⟩ : n = x.id ∧ op = x.op := by simpa [hcar] using h
    rcases hop with h' | h'
    · left
      refine hI.livePm t _ (.inl (by rw [hpc, h'])) ?_
      rw [← h', ← hI.own x hx t x.op hcar]
      exact hx
    · exact .inr h'
  have hleave : op ≠ .setPm → Fits { s with cmdMux := none } t (.leaving op n) := by
    intro hop
    refine ⟨.inl hcar.symm, by simp [OperPc.inside], by simp, ?_, fun x _ h => .inl (hcar.symm.trans h)⟩
    rintro n' (h | h)
    · cases h
    · cases h
      exact absurd rfl hop
  change OperInv (OperState.goto t (afterConfirm op n ok) _) ∧ OperSafe (OperState.goto t (afterConfirm op n ok) _)
  cases op with
  | setPm =>
    cases ok with
    | true => exact ⟨goto_inv hI' (hout (.inl rfl)), goto_safe hS' (by simp [afterConfirm])⟩
    | false =>
      refine ⟨goto_inv hI' ⟨.inl hcar.symm, by simp [OperPc.inside, afterConfirm], ?_, ?_, ?_⟩,
        goto_safe hS' (by simp [afterConfirm])⟩
      · rintro n' (h | h) hx
        · cases h
        · cases h
          exact hI.livePm t n (.inl hpc) hx
      · simp [afterConfirm]
      · exact fun x _ h => .inl (hcar.symm.trans h)
  | scan =>
    cases ok with
    | true => exact ⟨goto_inv hI' (hout (.inr rfl)), goto_safe hS' (by simp [afterConfirm])⟩
    | false =>
      refine ⟨goto_inv hI' (hleave (by decide)), goto_safe hS' ?_⟩
      rintro op' n' h
      cases h
      exact hC
  | join | start | setChantype =>
    refine ⟨goto_inv hI' (hleave (by decide)), goto_safe hS' ?_⟩
    rintro op' n' h
    cases h
    exact hold (by decide) (by decide)

theorem cancel_keeps (hpc : s.pc t = .failed n) (hC : s.pmBy = some n) :
    OperInv (OperAct.next s (.cancel t n)) ∧ OperSafe (OperAct.next s (.cancel t n)) := by
  have hx : ⟨n, .setPm, t⟩ ∈ s.live := pm_thread hI hC (by rw [hpc]; rfl)
  have hother : ∀ t' n' op, t' ≠ t → ⟨n', op, t'⟩ ∉ s.live := by
    intro t' n' op htt hx'
    obtain ⟨-, -, rfl⟩ : n = n' ∧ .setPm = op ∧ t = t' := by simpa using live_unique hI hx hx'
    exact htt rfl
  refine ⟨⟨hI.single, hI.liveLt, ?_, ?_, ?_, by simp [OperAct.next, OperState.goto, atbmPmTimerCancle],
    ?_, ?_, rfl, by simp [OperAct.next, OperState.goto, atbmPmTimerCancle], ?_⟩,
    ⟨hS.matched, hS.binary, hS.exclusive, ?_, ?_⟩⟩
  · intro t' n' op' h
    by_cases htt : t' = t
    · subst htt
      rw [OperAct.next, goto_pc_self] at h
      exact hI.pcLt t' n' op' (by rw [hpc]; exact h)
    · exact hI.pcLt t' n' op' (goto_pc_ne htt .. ▸ h)
  · intro x hx' t' op' h
    by_cases htt : t' = t
    · subst htt
      rw [OperAct.next, goto_pc_self] at h
      exact hI.own x hx' t' op' (by rw [hpc]; exact h)
    · exact hI.own x hx' t' op' (goto_pc_ne htt .. ▸ h)
  · intro t' n' op' h hne
    by_cases htt : t' = t
    · subst htt
      rw [OperAct.next, goto_pc_self] at h
      simp [OperPc.inside] at h
    · exact hI.hold t' n' op' (goto_pc_ne htt .. ▸ h) hne
  · intro t' n' h hx'
    by_cases htt : t' = t
    · subst htt
      rw [OperAct.next, goto_pc_self] at h
      simp at h
    · exact absurd hx' (hother t' n' _ htt)
  · intro t' n' _
    simp [OperAct.next, OperState.goto, atbmPmTimerCancle]
  · intro x hx'
    rw [← live_unique hI hx hx', OperAct.next, goto_pc_self]
    exact .inl rfl
  · have := hS.suspend
    simp only [hC, Option.isSome_some] at this
    simp [OperAct.next, OperState.goto, atbmPmTimerCancle, this]
  · intro t' op' n' h
    by_cases htt : t' = t
    · subst htt
      rw [OperAct.next, goto_pc_self] at h
      cases h
      exact hx
    · exact hS.leaving t' op' n' (goto_pc_ne htt .. ▸ h)

theorem timerFire_keeps : OperInv (OperAct.next s .timerFire) ∧ OperSafe (OperAct.next s .timerFire) :=
  ⟨⟨hI.single, hI.liveLt, hI.pcLt, hI.own, hI.hold, hI.pmLive, hI.livePm, hI.notPm, hI.running,
    fun _ => .inr (Nat.succ_pos _), hI.releaser⟩,
    ⟨hS.matched, hS.binary, hS.exclusive, hS.suspend, hS.leaving⟩⟩

end

/-- The semaphore is free: no operation but a scan is under way, none is about to release. -/
structure Freed (s : OperState) : Prop where
  count : s.operLock = 1
  live : s.live = []
  matched : s.unmatched = 0
  pmBy : s.pmBy = none
  running : s.pmRunning = false
  suspend : s.suspend = 0
  pcLt : ∀ t n op, (s.pc t).carries = some (n, op) → n < s.nextAcq
  inside : ∀ t n op, (s.pc t).inside = some (n, op) → op = .scan
  leaving : ∀ t op n, s.pc t ≠ .leaving op n

theorem Freed.keeps {s : OperState} (h : Freed s) : OperInv s ∧ OperSafe s := by
  have hnil : ∀ x, x ∉ s.live := by simp [h.live]
  refine ⟨⟨.inl ⟨h.count, h.live⟩, fun x hx => absurd hx (hnil x), h.pcLt, fun x hx => absurd hx (hnil x),
    fun t n op hi hop => absurd (h.inside t n op hi) hop, by simp [h.pmBy], fun _ _ _ hx => absurd hx (hnil _),
    by simp [h.pmBy], by simp [h.running, h.pmBy], by simp [h.pmBy], fun x hx => absurd hx (hnil x)⟩,
    ⟨h.matched, Nat.le_of_eq h.count, by simp [h.live], by simp [h.suspend, h.pmBy],
      fun t op n hl => absurd hl (h.leaving t op n)⟩⟩

section
variable {s : OperState} (hI : OperInv s) (hS : OperSafe s)
include hI hS

theorem unlock_keeps {t n : Nat} {op : Oper} (hpc : s.pc t = .leaving op n) :
    OperInv (OperAct.next s (.unlock t op n)) ∧ OperSafe (OperAct.next s (.unlock t op n)) := by
  have hx := hS.leaving t op n hpc
  obtain ⟨h0, hl⟩ := live_eq hI hx
  have hthread : ∀ t' n' op', ⟨n', op', t'⟩ ∈ s.live → t' = t := by
    intro t' n' op' hx'
    obtain ⟨-, -, rfl⟩ : n = n' ∧ op = op' ∧ t = t' := by simpa using live_unique hI hx hx'
    rfl
  have hpm : s.pmBy = none := by
    cases hp : s.pmBy with
    | none => rfl
    | some n' =>
      obtain ⟨t', ht'⟩ := hI.pmLive n' hp
      obtain ⟨rfl, rfl, -⟩ : n = n' ∧ op = .setPm ∧ t = t' := by simpa using live_unique hI hx ht'
      exact absurd hp (hI.notPm t n (.inr hpc))
  have hsus := hS.suspend
  have hrun := hI.running
  rw [hpm] at hsus hrun
  rw [OperAct.next, operUnlock_single h0 hl]
  apply Freed.keeps
  refine ⟨rfl, rfl, hS.matched, hpm, hrun, hsus, fun t' n' op' h => ?_, fun t' n' op' h => ?_,
    fun t' op' n' h => ?_⟩
  · by_cases htt : t' = t
    · subst htt
      rw [goto_pc_self] at h
      cases h
    · exact hI.pcLt t' n' op' (goto_pc_ne htt .. ▸ h)
  · by_cases htt : t' = t
    · subst htt
      rw [goto_pc_self] at h
      cases h
    · apply Decidable.byContradiction
      intro hop
      exact htt (hthread _ _ _ (hI.hold t' n' op' (goto_pc_ne htt .. ▸ h) hop))
  · by_cases htt : t' = t
    · subst htt
      rw [goto_pc_self] at h
      cases h
    · exact htt (hthread _ _ _ (hS.leaving t' op' n' (goto_pc_ne htt .. ▸ h)))

theorem pmRelease_keeps : OperInv (pmRelease s) ∧ OperSafe (pmRelease s) := by
  unfold pmRelease
  split
  swap
  · exact ⟨hI, hS⟩
  next hrun =>
  rw [hI.running, Option.isSome_iff_exists] at hrun
  obtain ⟨n, hn⟩ := hrun
  obtain ⟨t, hx⟩ := hI.pmLive n hn
  obtain ⟨h0, hl⟩ := live_eq hI hx
  have heq : ∀ t' n' op', ⟨n', op', t'⟩ ∈ s.live → n' = n ∧ op' = .setPm := by
    intro t' n' op' hx'
    obtain ⟨rfl, rfl, -⟩ : n = n' ∧ .setPm = op' ∧ t = t' := by simpa using live_unique hI hx hx'
    exact ⟨rfl, rfl⟩
  have hfree : operUnlock (some n) { s with pmRunning := false, suspend := s.suspend - 1, pmBy := none } =
      { s with operLock := 1, live := [], pmRunning := false, suspend := s.suspend - 1, pmBy := none } :=
    operUnlock_single (x := ⟨n, .setPm, t⟩) h0 hl
  rw [hn, hfree]
  apply Freed.keeps
  refine ⟨rfl, rfl, hS.matched, rfl, rfl, ?_, hI.pcLt, fun t' n' op' h => ?_, fun t' op' n' h => ?_⟩
  · have := hS.suspend
    rw [hn] at this
    simp [this]
  · apply Decidable.byContradiction
    intro hop
    obtain ⟨rfl, rfl⟩ := heq _ _ _ (hI.hold t' n' op' h hop)
    -- a `wsm_set_pm` inside without its timer set up is still before its command
    cases hpc : s.pc t' with
    | locked op m =>
      obtain ⟨rfl, rfl⟩ : m = n' ∧ op = .setPm := by
        rw [hpc] at h
        simpa [OperPc.inside] using h
      exact hI.notPm t' _ (.inl hpc) hn
    | sending op m =>
      rw [hpc] at h
      by_cases hs : op = .setPm <;> simp [OperPc.inside, hs] at h
    | out | failed | leaving =>
      rw [hpc] at h
      cases h
  · obtain ⟨rfl, rfl⟩ := heq _ _ _ (hS.leaving t' op' n' h)
    exact hI.notPm t' _ (.inr h) hn

omit hS in
theorem pmRelease_pmBy : (pmRelease s).pmBy = none := by
  unfold pmRelease
  split
  · rfl
  · next hrun =>
    rw [hI.running] at hrun
    exact Option.not_isSome_iff_eq_none.mp hrun

theorem timers_keep (b : Bool) (k : Nat) (hp : s.pmBy = none) :
    OperInv { s with pmTimer := b, timerRuns := k } ∧ OperSafe { s with pmTimer := b, timerRuns := k } :=
  ⟨⟨hI.single, hI.liveLt, hI.pcLt, hI.own, hI.hold, hI.pmLive, hI.livePm, hI.notPm, hI.running,
    by simp [hp], hI.releaser⟩, ⟨hS.matched, hS.binary, hS.exclusive, hS.suspend, hS.leaving⟩⟩

theorem timerBody_keeps :
    OperInv (OperAct.next s .timerBody) ∧ OperSafe (OperAct.next s .timerBody) := by
  have heq : OperAct.next s .timerBody =
      { pmRelease s with pmTimer := (pmRelease s).pmTimer, timerRuns := s.timerRuns - 1 } := by
    simp only [OperAct.next, pmRelease]
    split <;> rfl
  rw [heq]
  obtain ⟨hI', hS'⟩ := pmRelease_keeps hI hS
  exact timers_keep hI' hS' _ _ (pmRelease_pmBy hI)

theorem pmIndication_keeps : OperInv (wsmSetPmIndication s) ∧ OperSafe (wsmSetPmIndication s) := by
  unfold wsmSetPmIndication
  split
  · have heq : pmRelease { s with pmTimer := false } =
        { pmRelease s with pmTimer := false, timerRuns := (pmRelease s).timerRuns } := by
      simp only [pmRelease]
      split <;> rfl
    rw [heq]
    obtain ⟨hI', hS'⟩ := pmRelease_keeps hI hS
    exact timers_keep hI' hS' _ _ (pmRelease_pmBy hI)
  · exact ⟨hI, hS⟩

theorem scanRelease_keeps (hC : scanHolds s = true) : OperInv (scanRelease s) ∧ OperSafe (scanRelease s) := by
  unfold scanHolds at hC
  rw [List.any_eq_true] at hC
  obtain ⟨x, hx, hC⟩ := hC
  obtain ⟨hop, hpc⟩ : x.op = .scan ∧ s.pc x.thread ≠ .leaving .scan x.id := by simpa using hC
  obtain ⟨h0, hl⟩ := live_eq hI hx
  have hfind : (s.live.find? fun x => x.op == .scan).map Acq.id = some x.id := by simp [hl, hop]
  have hpm : s.pmBy = none := by
    cases hp : s.pmBy with
    | none => rfl
    | some n =>
      obtain ⟨t, ht⟩ := hI.pmLive n hp
      rw [live_unique hI hx ht] at hop
      cases hop
  have hsus := hS.suspend
  have hrun := hI.running
  rw [hpm] at hsus hrun
  unfold scanRelease
  rw [hfind, operUnlock_single h0 hl]
  apply Freed.keeps
  refine ⟨rfl, rfl, hS.matched, hpm, hrun, hsus, hI.pcLt, fun t n op h => ?_, fun t op n h => ?_⟩
  · apply Decidable.byContradiction
    intro hne
    rw [live_unique hI hx (hI.hold t n op h hne)] at hop
    exact hne hop
  · have := live_unique hI hx (hS.leaving t op n h)
    subst this
    simp only at hop hpc
    subst hop
    exact hpc h

end

section
variable {s : OperState} (hI : OperInv s)
include hI

omit hI in
theorem scanRelease_loses (hS : OperSafe s) (ht : OperSafe (scanRelease s)) (hI : OperInv s) :
    scanHolds s = true := by
  have hm := ht.matched
  unfold scanRelease operUnlock at hm
  cases hf : s.live.find? fun x => x.op == .scan with
  | none =>
    simp only [hf] at hm
    simp [hS.matched] at hm
  | some x =>
    have hx := List.mem_of_find?_eq_some hf
    have hop : x.op = .scan := by simpa using List.find?_some hf
    unfold scanHolds
    rw [List.any_eq_true]
    refine ⟨x, hx, ?_⟩
    simp only [hop, beq_self_eq_true, Bool.true_and, bne_iff_ne]
    -- a scan on its error path would release a semaphore that is no longer its own
    intro hpc
    obtain ⟨h0, hl⟩ := live_eq hI hx
    have hmem := ht.leaving x.thread .scan x.id hpc
    unfold scanRelease at hmem
    rw [hf, Option.map_some, operUnlock_single h0 hl] at hmem
    cases hmem

theorem step_loses_hold (hS : OperSafe s) {a : OperAct} (he : a.enabled s) (ht : OperSafe (a.next s)) :
    StillHolds s a := by
  cases a with
  | nomem t op n =>
    cases op with
    | scan => exact ht.leaving t .scan n (goto_pc_self ..)
    | setPm | join | start | setChantype => trivial
  | confirm t op n ok =>
    cases op with
    | scan =>
      cases ok with
      | true => trivial
      | false => exact ht.leaving t .scan n (goto_pc_self ..)
    | setPm | join | start | setChantype => trivial
  | cancel t n => exact hI.livePm t n (.inr he) (ht.leaving t .setPm n (goto_pc_self ..))
  | scanComplete => exact scanRelease_loses hS ht hI
  | stopScanFailed => exact scanRelease_loses hS ht hI
  | enter | request | unlock | timerFire | timerBody | pmIndication => trivial

end

theorem oper_step_keeps {s : OperState} (hI : OperInv s) (hS : OperSafe s) {a : OperAct}
    (he : a.enabled s) (hC : StillHolds s a) : OperInv (a.next s) ∧ OperSafe (a.next s) := by
  cases a with
  | enter t op => exact enter_keeps hI hS op he.1 he.2
  | request t op n => exact request_keeps hI hS he.1
  | nomem t op n => exact nomem_keeps hI hS he.1 hC
  | confirm t op n ok => exact confirm_keeps hI hS he hC
  | cancel t n => exact cancel_keeps hI hS he hC
  | unlock t op n => exact unlock_keeps hI hS he
  | timerFire => exact timerFire_keeps hI hS
  | timerBody => exact timerBody_keeps hI hS
  | pmIndication => exact pmIndication_keeps hI hS
  | scanComplete => exact scanRelease_keeps hI hS hC
  | stopScanFailed => exact scanRelease_keeps hI hS hC

theorem operInv_run {l : List (OperState × OperAct)} {s t : OperState} (hp : Path operations s l t)
    (hC : ∀ p ∈ l, StillHolds p.1 p.2) (hI : OperInv s) (hS : OperSafe s) : OperInv t ∧ OperSafe t := by
  refine hp.keep (I := fun s => OperInv s ∧ OperSafe s) ?_ hC ⟨hI, hS⟩
  rintro s a t ⟨hI, hS⟩ ⟨he, rfl⟩ hC
  exact oper_step_keeps hI hS he hC

/-- **The operation semaphore.**  Along every run, `OperSafe` holds in every state exactly when
every step still holds what it releases; and then an acquisition not yet released is one its
thread carries, one the armed timer will release, or a scan's. -/
theorem operLock_balanced {l : List (OperState × OperAct)} {t : OperState}
    (hp : Path operations {} l t) :
    (((∀ p ∈ l, OperSafe p.1) ∧ OperSafe t) ↔ ∀ p ∈ l, StillHolds p.1 p.2) ∧
    ((∀ p ∈ l, StillHolds p.1 p.2) → ∀ x ∈ t.live,
      (t.pc x.thread).carries = some (x.id, x.op) ∨
      (t.pmBy = some x.id ∧ (t.pmTimer = true ∨ 0 < t.timerRuns)) ∨ x.op = .scan) := by
  refine ⟨Path.exact (I := OperInv) ?_ ?_ hp operInv_init operSafe_init, ?_⟩
  · rintro s a t hI hS ⟨he, rfl⟩ hC
    exact oper_step_keeps hI hS he hC
  · rintro s a t hI hS ⟨he, rfl⟩ ht
    exact step_loses_hold hI hS he ht
  · intro hC x hx
    obtain ⟨hI, -⟩ := operInv_run hp hC operInv_init operSafe_init
    rcases hI.releaser x hx with h | h | h
    · exact .inl h
    · exact .inr (.inl ⟨h, hI.armed (by simp [h])⟩)
    · exact .inr (.inr h)

/-- Power save is confirmed and indicated, a scan starts and completes, a join fails. -/
def operationsInTurn : List OperAct :=
  [.enter 0 .setPm, .request 0 .setPm 0, .confirm 0 .setPm 0 true, .pmIndication,
    .enter 1 .scan, .request 1 .scan 1, .confirm 1 .scan 1 true, .scanComplete,
    .enter 2 .join, .request 2 .join 2, .confirm 2 .join 2 false, .unlock 2 .join 2]

theorem operLock_balanced_inTurn : OperSafe (operationsInTurn.foldl OperAct.next {}) := by
  have hp : Path operations {} (trace OperAct.next {} operationsInTurn)
      (operationsInTurn.foldl OperAct.next {}) := Path.ofFires (by decide +kernel)
  refine ((operLock_balanced hp).1.mpr ?_).2
  simp only [operationsInTurn, trace, List.forall_mem_cons, List.not_mem_nil, false_implies, implies_true,
    and_true]
  decide +kernel

/-- The two seconds pass before `wsm_set_pm` fails; a join enters meanwhile. -/
def setPmFailsLate : List OperAct :=
  [.enter 0 .setPm, .request 0 .setPm 0, .timerFire, .timerBody, .confirm 0 .setPm 0 false, .cancel 0 0,
    .enter 1 .join, .unlock 0 .setPm 0]

/-- **The failing run.**  `wsm_set_pm` releases what its timer already released: the suspend
count is below zero and a second operation enters beside the join; without the join the
semaphore counts two. -/
theorem setPm_releases_twice :
    (∃ s, Reach operations s ∧ s.suspend = -1 ∧ s.unmatched = 1 ∧
      (OperAct.next s (.enter 2 .start)).pc 1 = .locked .join 1 ∧
      (OperAct.next s (.enter 2 .start)).pc 2 = .locked .start 2 ∧ OperAct.enabled s (.enter 2 .start)) ∧
    ∃ s, Reach operations s ∧ s.operLock = 2 := by
  constructor
  · exact ⟨_, Reach.fires (.init rfl) (l := setPmFailsLate) (by decide +kernel), by decide +kernel⟩
  · exact ⟨_, Reach.fires (.init rfl)
      (l := [.enter 0 .setPm, .request 0 .setPm 0, .timerFire, .timerBody, .confirm 0 .setPm 0 false,
        .cancel 0 0, .unlock 0 .setPm 0]) (by decide +kernel), by decide +kernel⟩

end AtbmWifi
