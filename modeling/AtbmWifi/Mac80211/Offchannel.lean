import AtbmWifi.Lib.Transition

/-!
# Remain-on-channel requests in mac80211 (`CONFIG_ATBM_SUPPORT_P2P`, offloaded to the driver)

A request, to listen or to send a management frame, is on `roc_list`, a dependent of one that is, or in
`roc_pendding` while management work is busy.  The head of the list is at the driver.  The driver reports the
start and the end of a request at any time; both reports queue a work, and the second stores the cookie of the
request in the one `roc_cookie`.

Everything else holds `mtx` from beginning to end and is one step, except `hw_roc_done`, which can be overtaken by
a report of the driver between its test of `roc_cookie` and the write to it; a request that has been taken off
the list is destroyed after the unlock by a thread that alone still knows it, and is destroyed here in the same
step.  What a clock decides is the choice of the environment.
-/

namespace AtbmWifi

open Transition

/-- `struct ieee80211_roc_work`; `id` numbers the requests as they are accepted. -/
structure RocWork where
  id : Nat
  sdata : Nat
  chan : Nat
  duration : Nat
  cookie : Nat
  /-- the address of the frame; 0 for listening -/
  mgmtTxCookie : Nat
  /-- `frame` is not NULL -/
  frame : Bool
  started : Bool
  hwBegun : Bool
  notified : Bool
  deriving DecidableEq, Repr

/-- On `roc_list`, with its `dependents`, which have none themselves. -/
structure RocEntry extends RocWork where
  dependents : List RocWork
  deriving DecidableEq, Repr

/-- What is reported of a request, and the `kfree` of it. -/
inductive RocReport
  /-- `cfg80211_ready_on_channel` -/
  | ready (id : Nat)
  /-- `ieee80211_tx_skb` -/
  | transmitted (id : Nat)
  /-- `cfg80211_mgmt_tx_status` without acknowledgement, and the frame is freed -/
  | failed (id : Nat)
  /-- `cfg80211_remain_on_channel_expired` -/
  | expired (id : Nat)
  | freed (id : Nat) (mgmt : Bool)
  deriving DecidableEq, Repr

namespace RocWork

/-- For the driver: `roc->mgmt_tx_cookie ? roc->mgmt_tx_cookie : roc->cookie`. -/
def key (r : RocWork) : Nat := if r.mgmtTxCookie ≠ 0 then r.mgmtTxCookie else r.cookie

def mgmt (r : RocWork) : Bool := r.mgmtTxCookie != 0

def handleRocStarted (r : RocWork) : RocWork × List RocReport :=
  if r.notified then (r, [])
  else if r.mgmt then
    ({ r with frame := false, notified := true }, if r.frame then [.transmitted r.id] else [])
  else ({ r with notified := true }, [.ready r.id])

/-- The reports of `ieee80211_roc_notify_destroy` on the request itself. -/
def ownReports (r : RocWork) : List RocReport :=
  (if r.frame then [.failed r.id] else []) ++
    (if r.started && !r.notified && !r.mgmt then [.ready r.id] else []) ++
    (if r.mgmt then [] else [.expired r.id])

def notifyDestroy (r : RocWork) : List RocReport := r.ownReports ++ [.freed r.id r.mgmt]

end RocWork

def RocEntry.notifyDestroy (e : RocEntry) : List RocReport :=
  e.ownReports ++ e.dependents.flatMap RocWork.notifyDestroy ++ [.freed e.id e.mgmt]

/-- Where `ieee80211_work_work` is. -/
inductive RocWorker
  | idle
  /-- `local->scanning` was 0 -/
  | tested
  /-- `worker_working` is set -/
  | working
  /-- `worker_working` is clear again, `ieee80211_work_empty_start_pendding` to come -/
  | after
  deriving DecidableEq, Repr

structure Offch where
  rocList : List RocEntry
  rocPendding : Option RocWork
  rocCookieCounter : Nat
  rocCookie : Nat
  scanning : Bool
  worker : RocWorker
  /-- `work_list` is not empty -/
  workList : Bool
  /-- `hw_roc_start` and `hw_roc_done` are queued -/
  startQueued : Bool
  doneQueued : Bool
  /-- `hw_roc_done` has the mutex; whether the head had the cookie -/
  done : Option Bool
  /-- calls of `ieee80211_remain_on_channel_expired` that have stored the cookie and not yet queued the work -/
  notifying : Nat
  /-- what the driver has started and not ended: request and cookie -/
  active : List (Nat × Nat)
  /-- the cookies of requests that were cancelled and whose end the driver has still to report -/
  late : List Nat
  /-- history: the number of requests accepted, and what has been reported -/
  accepted : Nat
  reports : List RocReport
  /-- a `BUG_ON` -/
  bug : Bool
  deriving Repr

/-- A call of `ieee80211_start_roc_work`; `frame`: the address of a management frame. -/
structure RocRequest where
  sdata : Nat
  chan : Nat
  duration : Nat
  frame : Option Nat
  deriving DecidableEq, Repr

/-- What the environment answers to it: the device is suspended, memory, the driver, whether the time left of the
request on the channel is enough, and whether the new one is longer. -/
structure RocStartChoice where
  suspended : Bool
  allocOk : Bool
  drvOk : Bool
  timeLeft : Bool
  longer : Bool
  deriving DecidableEq, Repr

/-- The same for `ieee80211_work_empty_start_pendding`; `left`: what is left of the duration, `durOk`: it is more
than 70. -/
structure RocPendingChoice where
  timeout : Bool
  durOk : Bool
  allocOk : Bool
  drvOk : Bool
  left : Nat
  deriving DecidableEq, Repr

namespace Offch

def workBusy (s : Offch) : Bool := s.worker == .working || s.workList

/-- `ieee80211_mgmt_tx_cookie`: 64 bits, without 0 -/
def nextCookie (c : Nat) : Nat := if (c + 1) % 2 ^ 64 = 0 then 1 else (c + 1) % 2 ^ 64

def report (l : List RocReport) (s : Offch) : Offch := { s with reports := s.reports ++ l }

def remainOnChannelExpired (cookie : Nat) (s : Offch) : Offch := { s with rocCookie := cookie, doneQueued := true }

def drvRemainOnChannel (r : RocWork) (s : Offch) : Offch := { s with active := s.active ++ [(r.id, r.key)] }

/-- `drv_cancel_remain_on_channel`; the driver reports the end at once, or later -/
def drvCancelRemainOnChannel (sync : Bool) (s : Offch) : Offch :=
  match s.active with
  | [] => s
  | a :: rest =>
    if sync then { s with active := rest }.remainOnChannelExpired a.2
    else { s with active := rest, late := s.late ++ [a.2] }

/-- `ieee80211_start_next_roc`; with an empty list it queues `work_work` and may start a scan. -/
def startNextRoc (drvOk : Bool) (s : Offch) : Offch :=
  match s.rocList with
  | [] => s
  | r :: rest =>
    if r.started then s
    else
      let s' := { s with rocList := { r with started := true } :: rest }
      if drvOk then s'.drvRemainOnChannel r.toRocWork else s'.remainOnChannelExpired r.key

/-- The loop at `out_check_combine`: the list with the new request in it, and what is reported. -/
def checkCombine (c : RocStartChoice) (roc : RocWork) : List RocEntry → Option (List RocEntry × List RocReport)
  | [] => none
  | tmp :: rest =>
    if tmp.chan ≠ roc.chan ∨ tmp.sdata ≠ roc.sdata then
      (checkCombine c roc rest).map fun p => (tmp :: p.1, p.2)
    else if !tmp.started then
      let tmp' := { tmp with dependents := tmp.dependents ++ [roc], duration := max tmp.duration roc.duration }
      some (tmp' :: rest, [])
    else if !tmp.hwBegun then some ({ tmp with dependents := tmp.dependents ++ [roc] } :: rest, [])
    else if c.timeLeft then
      let p := roc.handleRocStarted
      if c.longer then some (tmp :: ⟨p.1, []⟩ :: rest, p.2)
      else some ({ tmp with dependents := tmp.dependents ++ [p.1] } :: rest, p.2)
    else none

/-- `ieee80211_start_roc_work`; a request that is not accepted is freed, its frame by the caller. -/
def startRocWork (q : RocRequest) (c : RocStartChoice) (s : Offch) : Offch :=
  if c.suspended || !c.allocOk then s
  else
    let counter := if q.frame.isSome then s.rocCookieCounter else nextCookie s.rocCookieCounter
    let cookie := if q.frame.isSome then 0 else counter
    let roc : RocWork :=
      ⟨s.accepted, q.sdata, q.chan, q.duration, cookie, q.frame.getD 0, q.frame.isSome, false, false, false⟩
    let s1 := { s with rocCookieCounter := counter }
    let s2 := { s1 with accepted := s.accepted + 1 }
    if s.rocList.isEmpty && !s.scanning && !s.workBusy then
      if s.rocPendding.isSome then { s1 with bug := true }
      else if c.drvOk then
        { s2 with rocList := s.rocList ++ [RocEntry.mk { roc with started := true } []] }.drvRemainOnChannel roc
      else s1
    else
      match checkCombine c roc s.rocList with
      | some p => { s2 with rocList := p.1 }.report p.2
      | none =>
        if !s.workBusy then { s2 with rocList := s.rocList ++ [RocEntry.mk roc []] }
        else if s.rocList.isEmpty && s.rocPendding.isNone then { s2 with rocPendding := some roc }
        else s1

/-- The loop of `ieee80211_hw_roc_start` over the dependents of a head of this duration: its new duration, the
dependents that stay, those that are moved to the list behind it, and what is reported. -/
def handleDependents (dur : Nat) : List RocWork → Nat × List RocWork × List RocWork × List RocReport
  | [] => (dur, [], [], [])
  | dep :: deps =>
    let p := dep.handleRocStarted
    if dur < dep.duration then
      let q := handleDependents dep.duration deps
      (q.1, q.2.1, q.2.2.1 ++ [{ p.1 with duration := dep.duration - dur }], p.2 ++ q.2.2.2)
    else
      let q := handleDependents dur deps
      (q.1, p.1 :: q.2.1, q.2.2.1, p.2 ++ q.2.2.2)

def hwRocStart (s : Offch) : Offch :=
  let s := { s with startQueued := false }
  match s.rocList with
  | [] => s
  | roc :: rest =>
    if !roc.started then s
    else
      let p := { roc.toRocWork with hwBegun := true }.handleRocStarted
      let q := handleDependents roc.duration roc.dependents
      let roc' : RocEntry := ⟨{ p.1 with duration := q.1 }, q.2.1⟩
      { s with rocList := roc' :: q.2.2.1.map (⟨·, []⟩) ++ rest }.report (p.2 ++ q.2.2.2)

def hwRocDone (s : Offch) : Offch :=
  let s := { s with doneQueued := false }
  match s.rocList with
  | [] => s
  | roc :: _ => if roc.started then { s with done := some (roc.key == s.rocCookie) } else s

def hwRocDoneRest (drvOk : Bool) (s : Offch) : Offch :=
  let s' := { s with rocCookie := 0, done := none }
  match s.done, s.rocList with
  | some true, roc :: rest => ({ s' with rocList := rest }.report roc.notifyDestroy).startNextRoc drvOk
  | _, _ => s'

/-- What `ieee80211_cancel_roc` finds, and the list without it. -/
inductive Found
  | dependent (dep : RocWork) (l : List RocEntry)
  | entry (roc : RocEntry) (l : List RocEntry)

def findDependent (p : RocWork → Bool) : List RocWork → Option (RocWork × List RocWork)
  | [] => none
  | dep :: deps => if p dep then some (dep, deps) else (findDependent p deps).map fun q => (q.1, dep :: q.2)

/-- The loop of `ieee80211_cancel_roc`. -/
def findRoc (p : RocWork → Bool) : List RocEntry → Option Found
  | [] => none
  | roc :: rest =>
    match findDependent p roc.dependents with
    | some q => some (.dependent q.1 ({ roc with dependents := q.2 } :: rest))
    | none =>
      if p roc.toRocWork then some (.entry roc rest)
      else
        match findRoc p rest with
        | none => none
        | some (.dependent dep l) => some (.dependent dep (roc :: l))
        | some (.entry e l) => some (.entry e (roc :: l))

/-- `ieee80211_cancel_roc`; the driver's `cancel_remain_on_channel` returns 0. -/
def cancelRoc (cookie : Nat) (mgmtTx sync drvOk : Bool) (s : Offch) : Offch :=
  let p := fun r : RocWork => if mgmtTx then r.mgmtTxCookie == cookie else r.cookie == cookie
  match s.rocPendding.filter p with
  | some r => { s with rocPendding := none }.report r.notifyDestroy
  | none =>
    match findRoc p s.rocList with
    | none => s
    | some (.dependent dep l) => { s with rocList := l }.report dep.notifyDestroy
    | some (.entry roc l) =>
      if roc.started then
        ({ s.drvCancelRemainOnChannel sync with rocList := l }.startNextRoc drvOk).report roc.notifyDestroy
      else { s with rocList := l }.report roc.notifyDestroy

def rocPurge (sdata : Nat) (sync : Bool) (s : Offch) : Offch :=
  let removed := s.rocList.filter (·.sdata == sdata)
  let pendding := s.rocPendding.filter (·.sdata == sdata)
  let s' := (removed.filter (·.started)).foldl (fun s _ => s.drvCancelRemainOnChannel sync) s
  { s' with
    rocList := s.rocList.filter fun e => !(e.sdata == sdata)
    rocPendding := s.rocPendding.filter fun r => !(r.sdata == sdata) }.report
      (pendding.toList.flatMap RocWork.notifyDestroy ++ removed.flatMap RocEntry.notifyDestroy)

def startPendding (c : RocPendingChoice) (s : Offch) : Offch :=
  match s.rocPendding with
  | none => s
  | some roc =>
    if c.timeout || !s.workList then
      if s.scanning || !s.rocList.isEmpty then { s with bug := true }
      else if !c.timeout && c.durOk && c.allocOk && c.drvOk then
        { s with
          rocPendding := none
          rocList := s.rocList ++ [RocEntry.mk { roc with duration := c.left, started := true } []] }.drvRemainOnChannel roc
      else
        { s with
          rocPendding := none
          rocList := s.rocList ++ [RocEntry.mk { roc with started := true } []] }.remainOnChannelExpired roc.key
    else s

end Offch

inductive OffchAct
  | startRoc (q : RocRequest) (c : RocStartChoice)
  | cancelRoc (cookie : Nat) (mgmtTx sync drvOk : Bool)
  | rocPurge (sdata : Nat) (sync : Bool)
  /-- the driver: `ieee80211_ready_on_channel` -/
  | ready
  /-- the driver ends what it has started, or reports the end of what was cancelled: stores the cookie -/
  | expired
  | expiredLate
  /-- and queues the work -/
  | queueDone
  | hwRocStart
  | hwRocDone
  | hwRocDoneRest (drvOk : Bool)
  | scanStart
  /-- `__ieee80211_scan_completed` -/
  | scanCompleted (drvOk : Bool)
  /-- `ieee80211_work_work` -/
  | workTest
  | workBegin
  | workLists (nonempty : Bool)
  | workFinish
  | workPendding (c : RocPendingChoice)
  deriving DecidableEq, Repr

namespace Offch

def takesMtx : OffchAct → Bool
  | .startRoc _ _ | .cancelRoc _ _ _ _ | .rocPurge _ _ | .hwRocStart | .hwRocDone | .scanStart | .scanCompleted _
  | .workLists _ | .workPendding _ => true
  | _ => false

def guard (s : Offch) : OffchAct → Prop
  | .startRoc q _ => q.frame ≠ some 0
  | .cancelRoc _ _ _ _ | .rocPurge _ _ | .ready => True
  | .expired => s.active ≠ []
  | .expiredLate => s.late ≠ []
  | .queueDone => 0 < s.notifying
  | .hwRocStart => s.startQueued
  | .hwRocDone => s.doneQueued
  | .hwRocDoneRest _ => s.done.isSome
  | .scanStart => s.rocList = [] ∧ s.scanning = false ∧ s.workBusy = false
  | .scanCompleted _ => s.scanning
  | .workTest => s.worker = .idle ∧ s.scanning = false
  | .workBegin => s.worker = .tested
  | .workLists _ | .workFinish => s.worker = .working
  | .workPendding _ => s.worker = .after

def enabled (s : Offch) (a : OffchAct) : Prop :=
  s.bug = false ∧ (takesMtx a → s.done = none) ∧ s.guard a

instance (s : Offch) (a : OffchAct) : Decidable (s.guard a) := by
  cases a <;> unfold guard <;> infer_instance

instance (s : Offch) (a : OffchAct) : Decidable (s.enabled a) := by
  unfold enabled
  infer_instance

/-- `ieee80211_remain_on_channel_expired`, called by the driver, up to the store of the cookie -/
def notify (cookie : Nat) (s : Offch) : Offch := { s with rocCookie := cookie, notifying := s.notifying + 1 }

def next (s : Offch) : OffchAct → Offch
  | .startRoc q c => s.startRocWork q c
  | .cancelRoc cookie mgmtTx sync drvOk => s.cancelRoc cookie mgmtTx sync drvOk
  | .rocPurge sdata sync => s.rocPurge sdata sync
  | .ready => { s with startQueued := true }
  | .expired =>
    match s.active with
    | [] => s
    | a :: rest => { s with active := rest }.notify a.2
  | .expiredLate =>
    match s.late with
    | [] => s
    | k :: rest => { s with late := rest }.notify k
  | .queueDone => { s with notifying := s.notifying - 1, doneQueued := true }
  | .hwRocStart => s.hwRocStart
  | .hwRocDone => s.hwRocDone
  | .hwRocDoneRest drvOk => s.hwRocDoneRest drvOk
  | .scanStart => { s with scanning := true }
  | .scanCompleted drvOk => { s with scanning := false }.startNextRoc drvOk
  | .workTest => { s with worker := .tested }
  | .workBegin => { s with worker := .working }
  | .workLists b => { s with workList := b }
  | .workFinish => { s with worker := .after }
  | .workPendding c => { s with worker := .idle }.startPendding c

def start : Offch :=
  { rocList := [], rocPendding := none, rocCookieCounter := 0, rocCookie := 0, scanning := false, worker := .idle,
    workList := false, startQueued := false, doneQueued := false, done := none, notifying := 0, active := [],
    late := [], accepted := 0, reports := [], bug := false }

end Offch

def offchSys : Sys Offch OffchAct := .ofNext (· = .start) Offch.enabled Offch.next

end AtbmWifi
