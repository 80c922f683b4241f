import Mathlib
import AtbmWifi.Lib.Transition

/-!
# Scan requests

`atbm_hw_scan` takes `scan.lock`, the TX lock and a suspend hold and leaves them
to the work items of `hw_priv->workqueue`, which runs one item at a time:
`scan.work`, `scan.timeout` and, with `CONFIG_ATBM_SCAN_SPLIT`, `scan.scan_spilt`.
`atbm_scan_work` is run by the first, and called by the other two.  `runner` says
where that item is when it waits; what an item does in between is one step.  A
step of the bus thread is a completion indication.

Each call of `atbm_scan_start` is a batch and gets a number, which neither the
command nor the indication carries; `timeoutFor` and the fields after it are
history.
-/

namespace AtbmWifi

open Transition

def einval : Int := 22
def enomem : Int := 12
def ebusy : Int := 16
def eopnotsupp : Int := 95
def etimedout : Int := 110

def wsmScanMaxNumOfChannels : Nat := 14
def atbmSplitScanMaxChannel : Nat := 2

/-- The work item that calls `atbm_scan_work`. -/
inductive ScanItem
  | work
  | split
  | timeout
  deriving DecidableEq, Repr

/-- The two calls of `atbm_scan_start`: `numOfChannels` channels from `curr` on, or P2P's again. -/
inductive ScanKind
  | batch (numOfChannels : Nat)
  | again
  deriving DecidableEq, Repr

inductive Runner
  | idle
  /-- in `wsm_scan`, before the operation lock -/
  | starting (item : ScanItem) (kind : ScanKind) (batch : Nat)
  /-- in `wsm_scan`, with the command sent -/
  | sent (item : ScanItem) (kind : ScanKind) (batch : Nat)
  /-- in `wsm_stop_scan` -/
  | stopping
  /-- `cancel_delayed_work_sync` of the item that runs it -/
  | stuck
  deriving DecidableEq, Repr

structure ScanState where
  /-- `scan.req` is set -/
  req : Bool := false
  /-- bands of the channels from `scan.curr` to `scan.end` -/
  todo : List Nat := []
  status : Int := 0
  split : Bool := false
  inProgress : Bool := false
  waitComplete : Bool := false
  /-- `scan.work` is queued; and so the other two -/
  work : Bool := false
  splitWork : Bool := false
  timeout : Bool := false
  runner : Runner := .idle
  /-- the count of `scan.lock` -/
  scanLock : Nat := 1
  /-- holders of `scan.lock` other than scans -/
  others : Nat := 0
  /-- what scans have put on `tx_lock` and on the suspend count -/
  txLock : Int := 0
  suspend : Int := 0
  /-- calls of `atbm_hw_scan` that wait for `scan.lock`, and that hold it -/
  waiting : Nat := 0
  settingUp : Nat := 0
  /-- the count of `wsm_oper_lock` -/
  operLock : Nat := 1
  /-- holders of it other than scans -/
  otherOpers : Nat := 0
  /-- `BUG_ON(scan.req)` -/
  bug : Bool := false
  nextBatch : Nat := 0
  /-- batches in the firmware, not indicated -/
  inFlight : List Nat := []
  /-- requests answered with 0 -/
  accepted : Nat := 0
  /-- the `aborted` of each `ieee80211_scan_completed`, newest first -/
  completions : List Bool := []
  /-- the batch that armed `scan.timeout` -/
  timeoutFor : Nat := 0
  /-- batches indicated -/
  delivered : List Nat := []
  /-- `scan.status = 1`: the batch whose timeout was cancelled, and the batch indicated -/
  reports : List (Nat × Nat) := []
  /-- batches `atbm_scan_timeout` took for completed -/
  succeeded : List Nat := []
  deriving DecidableEq, Repr

/-- What `atbm_scan_work` finds: the interface, P2P's condition for another scan, `atbm_kzalloc`. -/
structure WorkEnv where
  vif : Bool
  again : Bool
  alloc : Bool
  deriving DecidableEq, Repr

/-- `it - curr`: at most `max` channels, all of the band of the first. -/
def batchLen (max : Nat) : List Nat → Nat
  | [] => 0
  | band :: l => 1 + ((l.take (max - 1)).takeWhile (· == band)).length

/-- The end of a request; `vif_err` does the same in another order. -/
def scanDone (s : ScanState) : ScanState :=
  { s with
    req := false
    txLock := s.txLock - 1
    completions := decide (s.status ≠ 0) :: s.completions
    scanLock := s.scanLock + 1
    suspend := s.suspend - 1
    runner := .idle }

def scanFail (err : Int) (s : ScanState) : ScanState :=
  { s with status := err, todo := [], work := true, runner := .idle }

/-- `atbm_scan_start` up to `wsm_scan`; an item that is queued is not queued again. -/
def atbmScanStart (item : ScanItem) (kind : ScanKind) (s : ScanState) : ScanState :=
  { s with
    inProgress := true
    timeout := true
    timeoutFor := if s.timeout then s.timeoutFor else s.nextBatch
    waitComplete := true
    runner := .starting item kind s.nextBatch
    nextBatch := s.nextBatch + 1 }

/-- `atbm_scan_start` and its caller, once `wsm_scan` has failed. -/
def scanStartFailed (item : ScanItem) (kind : ScanKind) (err : Int) (s : ScanState) : ScanState :=
  let s := { s with waitComplete := false, inProgress := false, timeout := false }
  if item = .timeout then { s with runner := .stuck }
  else match kind with
    | .batch _ => scanFail err s
    | .again => scanDone s

section
variable (splitCfg : Bool)

def atbmScanWork (item : ScanItem) (env : WorkEnv) (s : ScanState) : ScanState :=
  if env.vif = false then scanDone s
  else if s.req = false ∨ s.todo = [] then
    if env.again && env.alloc then atbmScanStart item .again s else scanDone s
  else if env.alloc = false then scanFail (-enomem) s
  else
    let max := if splitCfg && s.split then atbmSplitScanMaxChannel else wsmScanMaxNumOfChannels
    atbmScanStart item (.batch (batchLen max s.todo)) s

def atbmScanComplete (env : WorkEnv) (s : ScanState) : ScanState :=
  if splitCfg = true ∧ s.todo ≠ [] ∧ s.split = true then
    { s with txLock := s.txLock - 1, splitWork := true, runner := .idle }
  else atbmScanWork splitCfg .timeout env s

def atbmScanTimeout (env : WorkEnv) (s : ScanState) : ScanState :=
  if s.inProgress then
    let s := { s with inProgress := false }
    if 0 < s.status then
      atbmScanComplete splitCfg env { s with status := 0, succeeded := s.timeoutFor :: s.succeeded }
    else if s.status = 0 then { s with status := -etimedout, todo := [], runner := .stopping }
    else atbmScanComplete splitCfg env s
  else s

/-- `atbm_scan_timeout`, once `wsm_stop_scan` has returned. -/
def scanStopped (ok : Bool) (env : WorkEnv) (s : ScanState) : ScanState :=
  let s := if ok then s else { s with waitComplete := false, operLock := s.operLock + 1 }
  atbmScanComplete splitCfg env s

def atbmScanSplitWork (env : WorkEnv) (s : ScanState) : ScanState :=
  atbmScanWork splitCfg .split env { s with txLock := s.txLock + 1 }

end

/-- What `atbm_hw_scan` checks before it holds anything. -/
structure HwScanArg where
  term : Bool
  enabled : Bool
  ap : Bool
  rocIfId : Int
  nSsids : Nat
  firstSsidEmpty : Bool
  maxScanSsids : Nat
  probeReq : Bool
  deriving DecidableEq, Repr

def hwScanCheck (a : HwScanArg) : Int :=
  if a.term then -eopnotsupp
  else if a.enabled = false then -eopnotsupp
  else if a.ap then -eopnotsupp
  else if a.rocIfId ≠ -1 then -ebusy
  else if a.maxScanSsids < (if a.nSsids = 1 ∧ a.firstSsidEmpty = true then 0 else a.nSsids) then -einval
  else if a.probeReq = false then -enomem
  else 0

/-- `atbm_hw_scan` up to `down(&scan.lock)` -/
def hwScanBegin (a : HwScanArg) (s : ScanState) : ScanState :=
  if hwScanCheck a = 0 then { s with suspend := s.suspend + 1, waiting := s.waiting + 1 } else s

def hwScanDown (s : ScanState) : ScanState :=
  { s with waiting := s.waiting - 1, scanLock := s.scanLock - 1, settingUp := s.settingUp + 1 }

/-- `atbm_hw_scan` from `wsm_set_template_frame` on -/
def hwScanSetup (ret : Int) (bands : List Nat) (split : Bool) (s : ScanState) : ScanState :=
  let s := { s with settingUp := s.settingUp - 1 }
  if ret ≠ 0 then { s with scanLock := s.scanLock + 1, suspend := s.suspend - 1 }
  else
    { s with
      txLock := s.txLock + 1
      bug := s.bug || s.req
      req := true
      status := 0
      todo := bands
      split := split
      work := true
      accepted := s.accepted + 1 }

/-- `wsm_scan_complete_indication`; `vif`: the interface is there and not stopped. -/
def scanCompleteIndication (b : Nat) (vif : Bool) (s : ScanState) : ScanState :=
  let s := { s with
    waitComplete := false
    operLock := s.operLock + 1
    inFlight := s.inFlight.erase b
    delivered := b :: s.delivered }
  if vif = true ∧ s.status ≠ -etimedout ∧ s.timeout = true then
    { s with status := 1, reports := (s.timeoutFor, b) :: s.reports }
  else s

/-- `wsm_scan` has returned 0. -/
def scanConfirmed (kind : ScanKind) (s : ScanState) : ScanState :=
  match kind with
  | .batch n => { s with todo := s.todo.drop n, runner := .idle }
  | .again => { s with runner := .idle }

inductive ScanAct
  | hwScan (a : HwScanArg)
  | hwScanDown
  | hwScanSetup (ret : Int) (bands : List Nat) (split : Bool)
  | runWork (env : WorkEnv)
  | runSplit (env : WorkEnv)
  | runTimeout (env : WorkEnv)
  /-- the operation lock is taken, the command is sent -/
  | send (item : ScanItem) (kind : ScanKind) (b : Nat)
  /-- `wsm_scan` returns an error before that -/
  | refuse (item : ScanItem) (kind : ScanKind) (b : Nat) (err : Int)
  /-- `wsm_cmd_send` returns an error -/
  | reject (item : ScanItem) (kind : ScanKind) (b : Nat) (err : Int)
  | confirm (item : ScanItem) (kind : ScanKind) (b : Nat)
  | stopped (ok : Bool) (env : WorkEnv)
  | indicate (b : Nat) (vif : Bool)
  /-- another holder of `scan.lock`, as `atbm_remove_interface` -/
  | otherDown
  | otherUp
  | operDown
  | operUp
  deriving DecidableEq, Repr

def ScanAct.Enabled (s : ScanState) : ScanAct → Prop
  | .hwScan _ => True
  | .hwScanDown => 0 < s.waiting ∧ 0 < s.scanLock
  | .hwScanSetup .. => 0 < s.settingUp
  | .runWork _ => s.runner = .idle ∧ s.work = true
  | .runSplit _ => s.runner = .idle ∧ s.splitWork = true
  | .runTimeout _ => s.runner = .idle ∧ s.timeout = true
  | .send item kind b => s.runner = .starting item kind b ∧ 0 < s.operLock
  | .refuse item kind b err => s.runner = .starting item kind b ∧ err < 0
  | .reject item kind b err => s.runner = .sent item kind b ∧ err < 0 ∧ b ∈ s.inFlight
  | .confirm item kind b => s.runner = .sent item kind b
  | .stopped .. => s.runner = .stopping
  | .indicate b _ => b ∈ s.inFlight
  | .otherDown => 0 < s.scanLock
  | .otherUp => 0 < s.others
  | .operDown => 0 < s.operLock
  | .operUp => 0 < s.otherOpers

instance decScanEnabled (s : ScanState) : ∀ a, Decidable (ScanAct.Enabled s a)
  | .hwScan _ => inferInstanceAs (Decidable True)
  | .hwScanDown => inferInstanceAs (Decidable (0 < s.waiting ∧ 0 < s.scanLock))
  | .hwScanSetup .. => inferInstanceAs (Decidable (0 < s.settingUp))
  | .runWork _ => inferInstanceAs (Decidable (s.runner = .idle ∧ s.work = true))
  | .runSplit _ => inferInstanceAs (Decidable (s.runner = .idle ∧ s.splitWork = true))
  | .runTimeout _ => inferInstanceAs (Decidable (s.runner = .idle ∧ s.timeout = true))
  | .send item kind b => inferInstanceAs (Decidable (s.runner = .starting item kind b ∧ 0 < s.operLock))
  | .refuse item kind b err => inferInstanceAs (Decidable (s.runner = .starting item kind b ∧ err < 0))
  | .reject item kind b err =>
    inferInstanceAs (Decidable (s.runner = .sent item kind b ∧ err < 0 ∧ b ∈ s.inFlight))
  | .confirm item kind b => inferInstanceAs (Decidable (s.runner = .sent item kind b))
  | .stopped .. => inferInstanceAs (Decidable (s.runner = .stopping))
  | .indicate b _ => inferInstanceAs (Decidable (b ∈ s.inFlight))
  | .otherDown => inferInstanceAs (Decidable (0 < s.scanLock))
  | .otherUp => inferInstanceAs (Decidable (0 < s.others))
  | .operDown => inferInstanceAs (Decidable (0 < s.operLock))
  | .operUp => inferInstanceAs (Decidable (0 < s.otherOpers))

def ScanAct.next (splitCfg : Bool) (s : ScanState) : ScanAct → ScanState
  | .hwScan a => hwScanBegin a s
  | .hwScanDown => AtbmWifi.hwScanDown s
  | .hwScanSetup ret bands split => AtbmWifi.hwScanSetup ret bands split s
  | .runWork env => atbmScanWork splitCfg .work env { s with work := false }
  | .runSplit env => atbmScanSplitWork splitCfg env { s with splitWork := false }
  | .runTimeout env => atbmScanTimeout splitCfg env { s with timeout := false }
  | .send item kind b =>
    { s with operLock := s.operLock - 1, inFlight := b :: s.inFlight, runner := .sent item kind b }
  | .refuse item kind _ err => scanStartFailed item kind err s
  | .reject item kind b err =>
    scanStartFailed item kind err { s with operLock := s.operLock + 1, inFlight := s.inFlight.erase b }
  | .confirm _ kind _ => scanConfirmed kind s
  | .stopped ok env => scanStopped splitCfg ok env s
  | .indicate b vif => scanCompleteIndication b vif s
  | .otherDown => { s with scanLock := s.scanLock - 1, others := s.others + 1 }
  | .otherUp => { s with scanLock := s.scanLock + 1, others := s.others - 1 }
  | .operDown => { s with operLock := s.operLock - 1, otherOpers := s.otherOpers + 1 }
  | .operUp => { s with operLock := s.operLock + 1, otherOpers := s.otherOpers - 1 }

def scanning (splitCfg : Bool) : Sys ScanState ScanAct :=
  .ofNext (· = {}) ScanAct.Enabled (ScanAct.next splitCfg)

end AtbmWifi
