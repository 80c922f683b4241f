import Mathlib.Logic.Function.Basic
import AtbmWifi.Lib.Transition

/-!
# The WSM operation semaphore

`wsm_oper_lock` is a semaphore, so one thread may take it and another context
release it: `wsm_set_pm` leaves that to its timer or to the firmware's
indication, `wsm_scan` to the completion indication, the others release it
themselves.  A step is what one context does between two points where others can
interleave; `pc` says where each thread is.

`live`, `pmBy`, `unmatched`, `suspend` and the numbers of acquisitions are
history.  An `up()` is written with the acquisition its caller means to
release.
-/

namespace AtbmWifi

open Transition

/-- The functions that take `wsm_oper_lock`. -/
inductive Oper
  | setPm
  | scan
  | join
  | start
  | setChantype
  deriving DecidableEq, Repr

/-- Where a thread is; `n` numbers its `down()`. -/
inductive OperPc
  | out
  /-- after `wsm_oper_lock` -/
  | locked (op : Oper) (n : Nat)
  /-- in `wsm_cmd_send`, under `wsm_cmd_mux` -/
  | sending (op : Oper) (n : Nat)
  /-- `wsm_set_pm` with `ret != 0`, before `atbm_pm_timer_cancle` -/
  | failed (n : Nat)
  /-- before `wsm_oper_unlock` -/
  | leaving (op : Oper) (n : Nat)
  deriving DecidableEq, Repr

def OperPc.carries : OperPc → Option (Nat × Oper)
  | .out => none
  | .locked op n => some (n, op)
  | .sending op n => some (n, op)
  | .failed n => some (n, .setPm)
  | .leaving op n => some (n, op)

structure Acq where
  id : Nat
  op : Oper
  thread : Nat
  deriving DecidableEq, Repr

structure OperState where
  /-- the count of `wsm_oper_lock` -/
  operLock : Nat := 1
  /-- the thread that holds `wsm_cmd_mux` -/
  cmdMux : Option Nat := none
  pmRunning : Bool := false
  /-- `wsm_pm_timer` is pending -/
  pmTimer : Bool := false
  /-- calls of `atbm_pm_timer` that wait for `wsm_pm_spin_lock` -/
  timerRuns : Nat := 0
  pc : Nat → OperPc := fun _ => .out
  nextAcq : Nat := 0
  /-- acquisitions not released -/
  live : List Acq := []
  /-- the `wsm_set_pm` that set `wsm_pm_running` -/
  pmBy : Option Nat := none
  /-- `up()`s without an acquisition to release -/
  unmatched : Nat := 0
  /-- `atbm_hold_suspend`s of `wsm_set_pm` less the releases -/
  suspend : Int := 0

def operUnlock (n : Option Nat) (s : OperState) : OperState :=
  { s with
    operLock := s.operLock + 1
    live := s.live.filter fun x => some x.id != n
    unmatched := if s.live.any (fun x => some x.id == n) then s.unmatched else s.unmatched + 1 }

def atbmPmTimerSetup (n : Nat) (s : OperState) : OperState :=
  { s with pmRunning := true, pmTimer := true, suspend := s.suspend + 1, pmBy := some n }

def atbmPmTimerCancle (s : OperState) : OperState :=
  { s with pmRunning := false, pmTimer := false, suspend := s.suspend - 1, pmBy := none }

/-- `if (wsm_pm_running == 1)` in `atbm_pm_timer` and `wsm_set_pm_indication`. -/
def pmRelease (s : OperState) : OperState :=
  if s.pmRunning then
    operUnlock s.pmBy { s with pmRunning := false, suspend := s.suspend - 1, pmBy := none }
  else s

/-- `wsm_set_pm_indication`: the same, and the timer is deleted. -/
def wsmSetPmIndication (s : OperState) : OperState :=
  if s.pmRunning then pmRelease { s with pmTimer := false } else s

/-- The `up()` of `wsm_scan_complete_indication`, and of `atbm_scan_timeout` when
`wsm_stop_scan` fails; it is meant for the scan in progress. -/
def scanRelease (s : OperState) : OperState :=
  operUnlock ((s.live.find? fun x => x.op == .scan).map Acq.id) s

/-- The way out of a function, after `wsm_cmd_unlock`. -/
def afterConfirm (op : Oper) (n : Nat) (ok : Bool) : OperPc :=
  match op, ok with
  | .setPm, true => .out
  | .setPm, false => .failed n
  | .scan, true => .out
  | .scan, false => .leaving .scan n
  | op, _ => .leaving op n

def OperState.goto (t : Nat) (p : OperPc) (s : OperState) : OperState :=
  { s with pc := Function.update s.pc t p }

/-- `wsm_scan` and `wsm_set_chantype_func` return `-EINVAL` on bad arguments before any of this. -/
inductive OperAct
  /-- `down()` succeeds -/
  | enter (t : Nat) (op : Oper)
  /-- `wsm_cmd_lock`, the request is built, `wsm_set_pm` sets its timer up -/
  | request (t : Nat) (op : Oper) (n : Nat)
  /-- `wsm_cmd_lock`, then `nomem` -/
  | nomem (t : Nat) (op : Oper) (n : Nat)
  /-- `wsm_cmd_send` returns, `ok` if 0 -/
  | confirm (t : Nat) (op : Oper) (n : Nat) (ok : Bool)
  | cancel (t : Nat) (n : Nat)
  | unlock (t : Nat) (op : Oper) (n : Nat)
  | timerFire
  | timerBody
  | pmIndication
  | scanComplete
  | stopScanFailed
  deriving DecidableEq, Repr

def OperAct.enabled (s : OperState) : OperAct → Prop
  | .enter t _ => s.pc t = .out ∧ 0 < s.operLock
  | .request t op n => s.pc t = .locked op n ∧ s.cmdMux = none
  | .nomem t op n => s.pc t = .locked op n ∧ s.cmdMux = none
  | .confirm t op n _ => s.pc t = .sending op n
  | .cancel t n => s.pc t = .failed n
  | .unlock t op n => s.pc t = .leaving op n
  | .timerFire => s.pmTimer = true
  | .timerBody => 0 < s.timerRuns
  | .pmIndication | .scanComplete | .stopScanFailed => True

instance decOperEnabled (s : OperState) : ∀ a, Decidable (OperAct.enabled s a)
  | .enter .. | .request .. | .nomem .. => inferInstanceAs (Decidable (_ ∧ _))
  | .confirm .. | .cancel .. | .unlock .. => inferInstanceAs (Decidable (_ = _))
  | .timerFire => inferInstanceAs (Decidable (_ = _))
  | .timerBody => inferInstanceAs (Decidable (_ < _))
  | .pmIndication | .scanComplete | .stopScanFailed => isTrue trivial

def OperAct.next (s : OperState) : OperAct → OperState
  | .enter t op =>
    OperState.goto t (.locked op s.nextAcq)
      { s with operLock := s.operLock - 1, nextAcq := s.nextAcq + 1, live := ⟨s.nextAcq, op, t⟩ :: s.live }
  | .request t op n =>
    let s' := (if op = .setPm then atbmPmTimerSetup n s else s)
    OperState.goto t (.sending op n) { s' with cmdMux := some t }
  | .nomem t op n => s.goto t (.leaving op n)
  | .confirm t op n ok => OperState.goto t (afterConfirm op n ok) { s with cmdMux := none }
  | .cancel t n => (atbmPmTimerCancle s).goto t (.leaving .setPm n)
  | .unlock t _ n => (operUnlock (some n) s).goto t .out
  | .timerFire => { s with pmTimer := false, timerRuns := s.timerRuns + 1 }
  | .timerBody => pmRelease { s with timerRuns := s.timerRuns - 1 }
  | .pmIndication => wsmSetPmIndication s
  | .scanComplete => scanRelease s
  | .stopScanFailed => scanRelease s

def operations : Sys OperState OperAct :=
  .ofNext (· = {}) OperAct.enabled OperAct.next

end AtbmWifi
