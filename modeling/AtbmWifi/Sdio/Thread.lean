import AtbmWifi.Lib.Transition

/-!
# The worker threads of the SDIO bus

A worker loops in `atbm_sdio_wait_action`; `atbm_sdio_thread_wakeup` asks it to work, `atbm_kthread_try_suspend` to park
and `atbm_kthread_resume` to go on, `atbm_sdio_thread_deinit` ends it.  They share four flag bits, a completion and the
state of the task, and no lock: each access to one of these is a step.

`returns` and `timedOut` are history: no step looks at them.
-/

namespace AtbmWifi

open Transition

/-- Where the worker is.  `atbm_kthread_should_stop` is called at the head of the loop, and again before the worker sleeps. -/
inductive SdioWorker
  /-- out of `atbm_sdio_wait_action`, in its work function -/
  | work
  | wake
  /-- `kthread_should_stop` of `atbm_kthread_should_stop` -/
  | shouldStop (head : Bool)
  | setStop (head : Bool)
  | stopTest (head : Bool)
  | stopMark (head : Bool)
  | stopComplete (head : Bool)
  | testWakeup
  | testSuspend
  | period
  | preSched
  | setState
  /-- in `schedule_timeout` -/
  | sleep
  | afterSleep
  /-- `atbm_kthread_into_suspend` -/
  | parkEnter
  | parkTest
  | parkMark
  | parkComplete
  | parkStop
  | parkSetStop
  | parkClear
  /-- in `schedule` -/
  | parkSleep
  | parkState
  | unmark
  | parkExit
  | leave
  | returned
  deriving DecidableEq, Repr

/-- The next statement of whoever suspends, resumes and ends the worker. -/
inductive SdioControl
  /-- resumed -/
  | idle
  /-- `atbm_kthread_try_suspend` -/
  | getThread
  | testStop
  | testSuspened
  | setShould
  | wakeWorker
  | wait
  /-- it has returned -/
  | held
  /-- `atbm_kthread_resume` -/
  | resume
  | clearShould
  | testClear
  | wakeParked
  /-- `atbm_sdio_thread_deinit` -/
  | setStop
  | dropThread
  /-- `kthread_stop` -/
  | stop
  | wakeStopped
  | join
  | ended
  deriving DecidableEq, Repr

structure SdioThread where
  /-- `THREAD_WAKEUP` -/
  wakeup : Bool
  /-- `THREAD_SHOULD_SUSPEND` -/
  shouldSuspend : Bool
  /-- `THREAD_SUSPENED` -/
  suspened : Bool
  /-- `THREAD_SHOULD_STOP` -/
  shouldStop : Bool
  /-- `thread->thread` is set -/
  thread : Bool
  /-- `thread->suspended.done` -/
  done : Nat
  /-- what `kthread_should_stop` tells the worker -/
  kthreadStop : Bool
  /-- the state of its task is `TASK_RUNNING` -/
  running : Bool
  worker : SdioWorker
  /-- `period == 0` -/
  expired : Bool
  /-- callers of `atbm_sdio_thread_wakeup` that have set the bit and will wake the worker -/
  wakers : Nat
  control : SdioControl
  /-- the worker itself is the caller of `atbm_kthread_try_suspend` -/
  bySelf : Bool
  /-- the wait of the last `atbm_kthread_try_suspend` expired -/
  timedOut : Bool
  /-- times the thread function has returned -/
  returns : Nat
  deriving DecidableEq, Repr

namespace SdioThread

/-- After `atbm_kthread_should_stop` has returned: whether the worker stops. -/
def stopped (head : Bool) : Bool → SdioWorker
  | true => if head = true then .leave else .afterSleep
  | false => if head = true then .testWakeup else .sleep

/-- A step of the worker in `atbm_sdio_wait_action`.  `again` is the answer of `period_handle` and of `pre_sched`,
and tells whether a wait that ends has taken its whole time. -/
def atbmSdioWaitAction (again : Bool) (s : SdioThread) : SdioThread :=
  match s.worker with
  | .work => { s with worker := .wake }
  | .wake => { s with running := false, expired := false, worker := .shouldStop true }
  | .shouldStop head => { s with worker := if s.kthreadStop = true then .setStop head else stopped head false }
  | .setStop head => { s with shouldStop := true, worker := .stopTest head }
  | .stopTest head => { s with worker := if s.shouldSuspend = true then .stopMark head else stopped head true }
  | .stopMark head =>
    { s with suspened := true, worker := if s.suspened = true then stopped head true else .stopComplete head }
  | .stopComplete head => { s with done := s.done + 1, worker := stopped head true }
  | .testWakeup =>
    { s with
      wakeup := false
      running := s.wakeup || s.running
      worker := if s.wakeup = true then .work else .testSuspend }
  | .testSuspend => { s with worker := if s.shouldSuspend = true then .parkEnter else .period }
  | .period => { s with worker := if s.expired = true ∧ again = true then .wake else .preSched }
  | .preSched => { s with worker := if again = true then .wake else .setState }
  | .setState => { s with running := false, worker := .shouldStop false }
  | .sleep => { s with running := true, expired := again, worker := .afterSleep }
  | .afterSleep => { s with running := false, worker := .shouldStop true }
  | .parkEnter => { s with running := false, worker := .parkTest }
  | .parkTest => { s with worker := if s.shouldSuspend = true then .parkMark else .unmark }
  | .parkMark => { s with suspened := true, worker := if s.suspened = true then .parkStop else .parkComplete }
  | .parkComplete => { s with done := s.done + 1, worker := .parkStop }
  | .parkStop => { s with worker := if s.kthreadStop = true then .parkSetStop else .parkSleep }
  | .parkSetStop => { s with shouldStop := true, worker := .parkClear }
  | .parkClear => { s with shouldSuspend := false, worker := .unmark }
  | .parkSleep => { s with worker := .parkState }
  | .parkState => { s with running := false, worker := .parkTest }
  | .unmark => { s with suspened := false, worker := .parkExit }
  | .parkExit => { s with running := false, worker := .wake }
  | .leave => { s with running := true, worker := .returned, returns := s.returns + 1 }
  | .returned => s

/-- `wake_up_process` -/
def wakeUp (s : SdioThread) : SdioThread := { s with running := true }

def atbmSdioThreadWakeup (s : SdioThread) : SdioThread :=
  { s with wakeup := true, wakers := if s.wakeup = true then s.wakers else s.wakers + 1 }

def wakeWaker (s : SdioThread) : SdioThread :=
  { s with wakers := s.wakers - 1, running := s.thread || s.running }

/-- A step of the controller; `expired` is whether the wait for the completion times out. -/
def controlStep (expired : Bool) (s : SdioThread) : SdioThread :=
  match s.control with
  | .idle | .held | .ended => s
  | .getThread => { s with control := if s.thread = true then .testStop else .held }
  | .testStop => { s with control := if s.shouldStop = true then .held else .testSuspened }
  | .testSuspened => { s with control := if s.suspened = true then .held else .setShould }
  | .setShould => { s with shouldSuspend := true, control := if s.bySelf = true then .held else .wakeWorker }
  | .wakeWorker => { s.wakeUp with control := .wait }
  | .wait =>
    { s with done := if expired = true then s.done else s.done - 1, timedOut := expired, control := .held }
  | .resume => { s with control := if s.thread = true then .clearShould else .idle }
  | .clearShould => { s with shouldSuspend := false, control := .testClear }
  | .testClear => { s with suspened := false, control := if s.suspened = true then .wakeParked else .idle }
  | .wakeParked => { s.wakeUp with control := .idle }
  | .setStop => { s with shouldStop := true, control := .dropThread }
  | .dropThread => { s with thread := false, control := if s.thread = true then .stop else .ended }
  | .stop => { s with kthreadStop := true, control := .wakeStopped }
  | .wakeStopped => { s.wakeUp with control := .join }
  | .join => { s with control := .ended }

def InOwnCall (s : SdioThread) : Prop :=
  s.bySelf = true ∧
    (s.control = .getThread ∨ s.control = .testStop ∨ s.control = .testSuspened ∨ s.control = .setShould)

instance (s : SdioThread) : Decidable s.InOwnCall := inferInstanceAs (Decidable (_ ∧ _))

end SdioThread

inductive SdioThreadAct
  | worker (again : Bool)
  | wakeup
  | wake
  /-- a call of `atbm_kthread_try_suspend` -/
  | trySuspend (bySelf : Bool)
  | resume
  | deinit
  | control (expired : Bool)
  deriving DecidableEq, Repr

namespace SdioThreadAct

/-- Whether the action can be taken.  A task that is not running sleeps until it is woken, or its time is over. -/
def Enabled (s : SdioThread) : SdioThreadAct → Prop
  | worker again =>
    ¬s.InOwnCall ∧
      match s.worker with
      | .sleep => s.running = true ∨ again = true
      | .parkSleep => s.running = true
      | .returned => False
      | _ => True
  | wakeup => True
  | wake => 0 < s.wakers
  | trySuspend bySelf => s.control = .idle ∧ (bySelf = true → s.worker = .work)
  | resume => s.control = .held
  | deinit => s.control = .idle ∨ s.control = .held
  | control expired =>
    match s.control with
    | .idle | .held | .ended => False
    | .wait => expired = true ↔ s.done = 0
    | .join => s.worker = .returned
    | _ => True

def next (s : SdioThread) : SdioThreadAct → SdioThread
  | worker again => s.atbmSdioWaitAction again
  | wakeup => s.atbmSdioThreadWakeup
  | wake => s.wakeWaker
  | trySuspend bySelf => { s with control := .getThread, bySelf := bySelf, timedOut := false }
  | resume => { s with control := .resume }
  | deinit => { s with control := .setStop }
  | control expired => s.controlStep expired

instance decEnabled (s : SdioThread) (a : SdioThreadAct) : Decidable (a.Enabled s) := by
  unfold Enabled
  split
  · refine @instDecidableAnd _ _ inferInstance ?_
    split <;> infer_instance
  · infer_instance
  · infer_instance
  · infer_instance
  · infer_instance
  · infer_instance
  · split <;> infer_instance

end SdioThreadAct

/-- The worker has been created and woken, as `atbm_sdio_rev_init` does. -/
def sdioThreadStart : SdioThread :=
  { wakeup := false, shouldSuspend := false, suspened := false, shouldStop := false, thread := true, done := 0
    kthreadStop := false, running := true, worker := .wake, expired := false, wakers := 0, control := .idle
    bySelf := false, timedOut := false, returns := 0 }

def sdioThreads : Sys SdioThread SdioThreadAct :=
  .ofNext (fun s => s = sdioThreadStart) (fun s a => a.Enabled s) SdioThreadAct.next

end AtbmWifi
