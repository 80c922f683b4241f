import AtbmWifi.Lib.Transition
import Mathlib.Logic.Function.Basic

/-!
# The driver's own workqueue

One `atbm_workqueue_struct` and its works (`CONFIG_ATBM_SELF_WORKQUEUE`).  `work->lock` is taken before
`wq->lock`, so a call on a work is one step, except where it comes back to the queue later:
`ieee80211_atbm_flush_delayed_work` and `ieee80211_atbm_cancel_delayed_work_sync` deal with the
timer first and with the queue in a second section, and a call that has put its barrier work on
`wq->works` waits for the worker.

The number in an entry, the calls with `must`, `issued` and `fate` are history: no step looks at them.
-/

namespace AtbmWifi

open Transition

/-- The timer of a delayed work; `firing` until `atbm_delayed_work_timer_fn` has taken `work->lock`. -/
inductive WkTimer
  | idle
  | armed
  | firing
  deriving DecidableEq, Repr

/-- A work with its flags; `timer` and `dworkWq` stay as they are if it is not part of an `atbm_delayed_work`. -/
structure AtbmWork where
  pending : Bool
  delayed : Bool
  running : Bool
  waiting : Bool
  /-- `work->wq` is set -/
  wq : Bool
  /-- `dwork->wq` is set -/
  dworkWq : Bool
  timer : WkTimer
  /-- a call holds `work->lock` between its two sections -/
  locked : Bool
  deriving DecidableEq, Repr

/-- `ieee80211_atbm_init_delay_work` -/
def AtbmWork.init : AtbmWork := ⟨false, false, false, false, false, false, .idle, false⟩

def AtbmWork.busy (x : AtbmWork) : Bool := x.pending || x.delayed || x.running

/-- Entries of `wq->works`. -/
inductive WkEntry (W : Type)
  /-- of a work, for a queue call -/
  | work (w : W) (call : Nat)
  /-- of the barrier work on the stack of a call -/
  | wait (c : Nat)
  deriving DecidableEq, Repr

inductive WkFate
  | run
  | cancelled
  /-- the queue was being destroyed -/
  | destroyed
  | lost
  deriving DecidableEq, Repr

inductive WkOp (W : Type)
  | flushWork (w : W)
  | cancelWorkSync (w : W)
  | flushDelayedWork (w : W)
  | cancelDelayedWorkSync (w : W)
  | flushWorkqueue
  | destroyWorkqueue
  deriving DecidableEq, Repr

inductive WkPhase
  /-- between its two sections, with `work->lock`; a call that runs into a `BUG_ON` stays there -/
  | locked
  /-- waits for the timer, without `work->lock`; `destroyWorkqueue` waits for all timers -/
  | waitTimer
  /-- waits for its barrier work -/
  | barrier
  /-- the barrier flag is cleared -/
  | cleared
  | returned
  deriving DecidableEq, Repr

structure WkCall (W : Type) where
  op : WkOp W
  phase : WkPhase
  ret : Bool
  /-- the queue calls whose executions of the work were running or queued when it was called -/
  must : List Nat
  deriving DecidableEq, Repr

structure AtbmWq (W : Type) where
  /-- `wq->work_thread` -/
  thread : Bool
  works : List (WkEntry W)
  delayWorks : List (W × Nat)
  /-- what the worker runs -/
  current : Option (WkEntry W)
  wk : W → AtbmWork
  calls : List (WkCall W)
  /-- queue calls that returned true -/
  issued : Nat
  fate : List (Nat × WkFate)
  /-- a `BUG_ON` was reached -/
  bug : Bool
  /-- an entry was linked while it was on a list -/
  torn : Bool

namespace WkEntry

variable {W : Type}

def call : WkEntry W → Option Nat
  | work _ k => some k
  | wait _ => none

def isWork [DecidableEq W] (w : W) : WkEntry W → Bool
  | work v _ => v == w
  | wait _ => false

end WkEntry

namespace AtbmWq

variable {W : Type} [DecidableEq W]

def set (w : W) (x : AtbmWork) (s : AtbmWq W) : AtbmWq W := { s with wk := Function.update s.wk w x }

def settle (calls : List Nat) (f : WkFate) (s : AtbmWq W) : AtbmWq W :=
  { s with fate := s.fate ++ calls.map fun k => (k, f) }

def bugOn (b : Bool) (s : AtbmWq W) : AtbmWq W := { s with bug := s.bug || b }

/-- The queue call a delayed work is on `delay_works` for. -/
def delayCall (w : W) (s : AtbmWq W) : Nat := (s.delayWorks.lookup w).getD 0

/-- The queue calls a work is on `works`, on `delay_works` and running for. -/
def pendingCalls (w : W) (s : AtbmWq W) : List Nat := (s.works.filter (WkEntry.isWork w)).filterMap WkEntry.call
def delayedCalls (w : W) (s : AtbmWq W) : List Nat := (s.delayWorks.filter (·.1 == w)).map (·.2)
def runningCalls (w : W) (s : AtbmWq W) : List Nat :=
  (s.current.toList.filter (WkEntry.isWork w)).filterMap WkEntry.call

def linked (w : W) (s : AtbmWq W) : Bool := s.works.any (WkEntry.isWork w) || s.delayWorks.any (·.1 == w)

/-- `list_add_tail(&work->entry, &wq->works)` -/
def addWork (w : W) (k : Nat) (s : AtbmWq W) : AtbmWq W :=
  { s with works := s.works ++ [.work w k], torn := s.torn || s.linked w }

/-- `list_add_tail(&dwork->work.entry, &wq->delay_works)` -/
def addDelay (w : W) (k : Nat) (s : AtbmWq W) : AtbmWq W :=
  { s with delayWorks := s.delayWorks ++ [(w, k)], torn := s.torn || s.linked w }

def queueWork (w : W) (k : Nat) (s : AtbmWq W) : AtbmWq W × Bool :=
  match s.thread with
  | true => ((s.set w { s.wk w with wq := true, pending := true }).addWork w k, true)
  | false => (s.set w { s.wk w with wq := true, pending := false }, false)

/-- `_ieee80211_atbm_clear_pending_work`; the calls are cancelled. -/
def clearPendingWork (w : W) (s : AtbmWq W) : AtbmWq W :=
  { s.set w { s.wk w with pending := false } with works := s.works.filter fun e => !e.isWork w }.settle
    (s.pendingCalls w) .cancelled

def clearDelayWork (w : W) (s : AtbmWq W) : AtbmWq W :=
  { s.set w { s.wk w with delayed := false, waiting := false } with
    delayWorks := s.delayWorks.filter fun p => !(p.1 == w) }

def stopTimer (w : W) (s : AtbmWq W) : AtbmWq W := s.set w { s.wk w with timer := .idle }

/-- A delayed work goes from `delay_works` to `works`, unless it is there already. -/
def promote (w : W) (s : AtbmWq W) : AtbmWq W × Bool :=
  let t := (s.stopTimer w).clearDelayWork w
  if (s.wk w).pending = true then (t.settle [s.delayCall w] .lost, true)
  else
    match t.queueWork w (s.delayCall w) with
    | (t, true) => (t, true)
    | (t, false) => (t.settle [s.delayCall w] .destroyed, false)

def atbmDelayedWorkTimerFn (w : W) (s : AtbmWq W) : AtbmWq W :=
  if (s.wk w).delayed = true then (s.promote w).1 else s.stopTimer w

def ieee80211AtbmQueueWork (w : W) (s : AtbmWq W) : AtbmWq W × Bool :=
  if (s.wk w).pending = true then (s, false)
  else
    match s.queueWork w s.issued with
    | (t, true) => ({ t with issued := s.issued + 1 }, true)
    | (t, false) => (t, false)

def queueDelayedWork (w : W) (s : AtbmWq W) : AtbmWq W × Bool :=
  match s.thread with
  | true =>
    let t := (s.addDelay w s.issued).set w { s.wk w with delayed := true, dworkWq := true, timer := .armed }
    ({ t with issued := s.issued + 1 }, true)
  | false => (s.set w { s.wk w with pending := false }, false)

def ieee80211AtbmQueueDelayedWork (w : W) (delay : Nat) (s : AtbmWq W) : AtbmWq W × Bool :=
  if (s.wk w).pending = true then (s, false)
  else if delay = 0 then s.ieee80211AtbmQueueWork w
  else if (s.wk w).delayed = true then
    match (s.wk w).timer with
    | .armed =>
      let t := (s.stopTimer w).clearDelayWork w
      (t.settle [s.delayCall w] (if s.thread = true then .lost else .destroyed)).queueDelayedWork w
    | .idle | .firing => (s, false)
  else s.queueDelayedWork w

/-- `atbm_workqueue_process_works` takes the first entry. -/
def take (s : AtbmWq W) : AtbmWq W :=
  match s.works with
  | [] => s
  | e :: rest =>
    let t := { s with works := rest, current := some e }
    match e with
    | .work w _ => t.set w { s.wk w with pending := false, running := true }
    | .wait _ => t

def finish (s : AtbmWq W) : AtbmWq W :=
  match s.current with
  | none => s
  | some (.work w k) =>
    { s.set w { s.wk w with running := false } with current := none }.settle [k] .run
  | some (.wait c) =>
    { s with current := none, calls := s.calls.modify c fun x => { x with phase := .cleared } }

def ieee80211AtbmCancelDelayedWork (w : W) (s : AtbmWq W) : AtbmWq W × Bool :=
  let (t, ret) := match (s.wk w).timer with
    | .armed =>
      ((((s.bugOn !(s.wk w).dworkWq).stopTimer w).clearDelayWork w).settle [s.delayCall w] .cancelled, true)
    | .idle | .firing => (s, false)
  if (t.wk w).dworkWq = false then (t, ret)
  else
    let (t, ret) := if (t.wk w).pending = true then (t.clearPendingWork w, true) else (t, ret)
    (t, if (t.wk w).busy = true then false else ret)

/-- `atbm_waitwk_insert`, unless the queue is being destroyed. -/
def atbmWaitwkInsert (works : List (WkEntry W)) (yes no : Bool) (s : AtbmWq W) : AtbmWq W × WkPhase × Bool :=
  match s.thread with
  | true => ({ s with works := works }, .barrier, yes)
  | false => (s, .returned, no)

/-- The entry of `c` right after the one of the work. -/
def insertAfter (w : W) (c : Nat) : List (WkEntry W) → List (WkEntry W)
  | [] => [.wait c]
  | e :: l => if e.isWork w = true then e :: .wait c :: l else e :: insertAfter w c l

def ieee80211AtbmFlushWork (w : W) (c : Nat) (s : AtbmWq W) : AtbmWq W × WkPhase × Bool :=
  let x := s.wk w
  if x.wq = false then (s, .returned, false)
  else if x.busy = false then (s, .returned, false)
  else if x.running = true then s.atbmWaitwkInsert (s.works ++ [.wait c]) true false
  else if x.pending = true then s.atbmWaitwkInsert (insertAfter w c s.works) true false
  else (s.bugOn true, .locked, false)

/-- What both synchronous cancels do with the queue; `ret` so far. -/
def cancelPending (w : W) (c : Nat) (ret : Bool) (s : AtbmWq W) : AtbmWq W × WkPhase × Bool :=
  let (t, ret) := if (s.wk w).pending = true then (s.clearPendingWork w, true) else (s, ret)
  let x := t.wk w
  if x.busy = false then (t, .returned, ret)
  else if x.running = true then t.atbmWaitwkInsert (.wait c :: t.works) false ret
  else (t.bugOn true, .locked, ret)

def ieee80211AtbmCancelWorkSync (w : W) (c : Nat) (s : AtbmWq W) : AtbmWq W × WkPhase × Bool :=
  if (s.wk w).wq = false then (s, .returned, false) else s.cancelPending w c false

/-- The first section of `ieee80211_atbm_flush_delayed_work`. -/
def flushDelayedTimer (w : W) (s : AtbmWq W) : AtbmWq W × WkPhase × Bool :=
  match (s.wk w).timer with
  | .armed =>
    match (s.bugOn !(s.wk w).dworkWq).promote w with
    | (t, true) => (t, .locked, !(s.wk w).pending)
    | (t, false) => (t, .returned, false)
  | .idle | .firing =>
    if (s.wk w).delayed = true then (s.set w { s.wk w with waiting := true }, .waitTimer, false)
    else (s, .locked, false)

def flushDelayedPending (w : W) (c : Nat) (ret : Bool) (s : AtbmWq W) : AtbmWq W × WkPhase × Bool :=
  let x := s.wk w
  if x.dworkWq = false then (s, .returned, false)
  else if x.busy = false then (s, .returned, false)
  else if x.pending = true then s.atbmWaitwkInsert (insertAfter w c s.works) true ret
  else if x.running = true then s.atbmWaitwkInsert (.wait c :: s.works) true ret
  else (s.bugOn true, .locked, ret)

/-- The first section of `ieee80211_atbm_cancel_delayed_work_sync`. -/
def cancelDelayedTimer (w : W) (s : AtbmWq W) : AtbmWq W × WkPhase × Bool :=
  match (s.wk w).timer with
  | .armed =>
    ((((s.bugOn !(s.wk w).dworkWq).stopTimer w).clearDelayWork w).settle [s.delayCall w] .cancelled, .locked, true)
  | .idle | .firing =>
    if (s.wk w).delayed = true then (s.set w { s.wk w with waiting := true }, .waitTimer, true)
    else (s, .locked, false)

def cancelDelayedPending (w : W) (c : Nat) (ret : Bool) (s : AtbmWq W) : AtbmWq W × WkPhase × Bool :=
  if (s.wk w).dworkWq = false then (s, .returned, ret) else s.cancelPending w c ret

def ieee80211AtbmFlushWorkqueue (c : Nat) (s : AtbmWq W) : AtbmWq W × WkPhase × Bool :=
  s.atbmWaitwkInsert (s.works ++ [.wait c]) false false

def enter (op : WkOp W) (c : Nat) (s : AtbmWq W) : AtbmWq W × WkPhase × Bool :=
  match op with
  | .flushWork w => s.ieee80211AtbmFlushWork w c
  | .cancelWorkSync w => s.ieee80211AtbmCancelWorkSync w c
  | .flushDelayedWork w => s.flushDelayedTimer w
  | .cancelDelayedWorkSync w => s.cancelDelayedTimer w
  | .flushWorkqueue => s.ieee80211AtbmFlushWorkqueue c
  -- the loop that takes the timers one by one lets each expire early or waits for it
  | .destroyWorkqueue => ({ s with thread := false }, .waitTimer, false)

def resume (op : WkOp W) (c : Nat) (ret : Bool) (s : AtbmWq W) : AtbmWq W × WkPhase × Bool :=
  match op with
  | .flushDelayedWork w => s.flushDelayedPending w c ret
  | .cancelDelayedWorkSync w => s.cancelDelayedPending w c ret
  | .destroyWorkqueue => ({ s with works := s.works ++ [.wait c] }, .barrier, ret)
  | .flushWork _ | .cancelWorkSync _ | .flushWorkqueue => (s, .locked, ret)

end AtbmWq

def WkOp.work {W : Type} : WkOp W → Option W
  | flushWork w | cancelWorkSync w | flushDelayedWork w | cancelDelayedWorkSync w => some w
  | flushWorkqueue | destroyWorkqueue => none

namespace AtbmWq

variable {W : Type} [DecidableEq W]

/-- `work->lock` of the work is held from now on iff `b`. -/
def lock (w : Option W) (b : Bool) (s : AtbmWq W) : AtbmWq W :=
  match w with
  | some w => s.set w { s.wk w with locked := b }
  | none => s

def mustOf (op : WkOp W) (s : AtbmWq W) : List Nat :=
  match op.work with
  | some w => s.pendingCalls w ++ s.delayedCalls w ++ s.runningCalls w
  | none => []

def call (op : WkOp W) (s : AtbmWq W) : AtbmWq W :=
  let (t, phase, ret) := s.enter op s.calls.length
  { t.lock op.work (phase == .locked) with calls := t.calls ++ [⟨op, phase, ret, s.mustOf op⟩] }

/-- The call `c` goes on to its second part. -/
def second (c : Nat) (x : WkCall W) (s : AtbmWq W) : AtbmWq W :=
  let (t, phase, ret) := s.resume x.op c x.ret
  { t.lock x.op.work false with calls := t.calls.set c { x with phase := phase, ret := ret } }

def unlocked (w : Option W) (s : AtbmWq W) : Prop := ∀ v ∈ w, (s.wk v).locked = false

instance decUnlocked (w : Option W) (s : AtbmWq W) : Decidable (s.unlocked w) :=
  match w with
  | none => isTrue nofun
  | some v => decidable_of_iff ((s.wk v).locked = false) (by simp [unlocked])

def timedOut (op : WkOp W) (s : AtbmWq W) : Prop :=
  match op with
  | .flushDelayedWork w | .cancelDelayedWorkSync w => (s.wk w).waiting = false
  | .destroyWorkqueue => s.delayWorks = []
  | .flushWork _ | .cancelWorkSync _ | .flushWorkqueue => False

instance decTimedOut (op : WkOp W) (s : AtbmWq W) : Decidable (s.timedOut op) := by
  unfold timedOut
  split <;> infer_instance

end AtbmWq

inductive WqAct (W : Type)
  | queueWork (w : W)
  | queueDelayedWork (w : W) (delay : Nat)
  /-- the timer expires, or `ieee80211_atbm_destroy_workqueue` takes it -/
  | expire (w : W)
  | timerFn (w : W)
  | cancelDelayedWork (w : W)
  | take
  | finish
  | call (op : WkOp W)
  | second (c : Nat)
  /-- a call whose barrier flag is cleared returns -/
  | wake (c : Nat)
  deriving DecidableEq, Repr

namespace WqAct

variable {W : Type} [DecidableEq W]

/-- Whether the action can be taken, by those that hold the locks it needs. -/
def Ready (s : AtbmWq W) : WqAct W → Prop
  | queueWork w | queueDelayedWork w _ | cancelDelayedWork w => s.unlocked (some w)
  | expire w => (s.wk w).timer = .armed
  | timerFn w => (s.wk w).timer = .firing ∧ s.unlocked (some w)
  | take => s.current = none ∧ s.works ≠ []
  | finish => s.current ≠ none
  | call op => s.unlocked op.work ∧ (op = .destroyWorkqueue → s.thread = true)
  | second c => ∃ x ∈ s.calls[c]?, x.phase = .locked ∨ (x.phase = .waitTimer ∧ s.timedOut x.op ∧ s.unlocked x.op.work)
  | wake c => ∃ x ∈ s.calls[c]?, x.phase = .cleared

/-- Nothing is said of what comes after a `BUG_ON` or a list entry linked twice. -/
def Enabled (s : AtbmWq W) (a : WqAct W) : Prop := s.bug = false ∧ s.torn = false ∧ a.Ready s

def next (s : AtbmWq W) : WqAct W → AtbmWq W
  | queueWork w => (s.ieee80211AtbmQueueWork w).1
  | queueDelayedWork w delay => (s.ieee80211AtbmQueueDelayedWork w delay).1
  | expire w => s.set w { s.wk w with timer := .firing }
  | timerFn w => s.atbmDelayedWorkTimerFn w
  | cancelDelayedWork w => (s.ieee80211AtbmCancelDelayedWork w).1
  | take => s.take
  | finish => s.finish
  | call op => s.call op
  | second c =>
    match s.calls[c]? with
    | some x => s.second c x
    | none => s
  | wake c => { s with calls := s.calls.modify c fun x => { x with phase := .returned } }

instance decReady (s : AtbmWq W) : (a : WqAct W) → Decidable (a.Ready s)
  | queueWork w | queueDelayedWork w _ | cancelDelayedWork w => AtbmWq.decUnlocked (some w) s
  | expire w => inferInstanceAs (Decidable ((s.wk w).timer = .armed))
  | timerFn w => inferInstanceAs (Decidable ((s.wk w).timer = .firing ∧ s.unlocked (some w)))
  | take => inferInstanceAs (Decidable (s.current = none ∧ s.works ≠ []))
  | finish => inferInstanceAs (Decidable (s.current ≠ none))
  | call op => inferInstanceAs (Decidable (s.unlocked op.work ∧ (op = .destroyWorkqueue → s.thread = true)))
  | second c => by
    unfold Ready
    infer_instance
  | wake c => by
    unfold Ready
    infer_instance

instance decEnabled (s : AtbmWq W) (a : WqAct W) : Decidable (a.Enabled s) := by
  unfold Enabled
  infer_instance

end WqAct

/-- `ieee80211_atbm_alloc_workqueue`, with works that were never queued. -/
def atbmWqStart (W : Type) : AtbmWq W := ⟨true, [], [], none, fun _ => .init, [], 0, [], false, false⟩

def workqueues (W : Type) [DecidableEq W] : Sys (AtbmWq W) (WqAct W) :=
  .ofNext (fun s => s = atbmWqStart W) (fun s a => a.Enabled s) WqAct.next

end AtbmWifi
