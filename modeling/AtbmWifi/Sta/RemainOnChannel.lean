import AtbmWifi.Lib.Transition
import Mathlib.Logic.Function.Basic

/-!
# Remain-on-channel in the driver (`CONFIG_ATBM_SUPPORT_P2P`)

`atbm_remain_on_channel` takes `scan.lock` and arms `rem_chan_timeout`; `atbm_rem_chan_timeout` ends it and gives the
semaphore back.  The timeout function runs as the delayed work, from `atbm_cancel_remain_on_channel`, and from the
terminating bus-handler thread.

mac80211 calls `remain_on_channel` and `cancel_remain_on_channel` under its `mtx`, one at a time, and no interface is
removed during an `atbm_remain_on_channel` on it.  `txLock` is what these functions have added to `tx_lock`; `active`,
`downs`, `ups`, `expired`, `ended`, `early` and `badVif` are history.
-/

namespace AtbmWifi

open Transition

/-- Where `__atbm_flush` is, after its test of the interface. -/
inductive RocFlushPc
  /-- clears the queues, or waits for them to empty -/
  | wait (drop : Bool)
  /-- the wait has expired; TX is locked -/
  | late (drop : Bool)
  | lockTx (drop : Bool)
  /-- tests the queues with TX locked -/
  | check (drop : Bool)
  deriving DecidableEq, Repr

/-- Who runs `atbm_rem_chan_timeout`. -/
inductive RocExec
  | work
  | cancel
  | bh
  deriving DecidableEq, Repr

/-- The next statement of `atbm_rem_chan_timeout`. -/
inductive RocTimeoutPc
  /-- reads `remain_on_channel` -/
  | test
  | expired
  | lock
  | readIf
  | flush (f : RocFlushPc)
  | unlockTx
  | clear
  | unlock
  | up
  deriving DecidableEq, Repr

inductive RocPc
  | idle
  /-- `atbm_remain_on_channel` -/
  | testTerm
  | down
  | lock
  | setIf
  | flush (f : RocFlushPc)
  | unlockTx
  | setRoc
  | arm
  /-- the failure branch -/
  | clear
  | cookie (ok : Bool)
  | unlock (ok : Bool)
  | up
  /-- `atbm_cancel_remain_on_channel` -/
  | test1
  | cancelWork
  | test2
  /-- in `atbm_rem_chan_timeout` -/
  | run
  deriving DecidableEq, Repr

/-- The next statement of `atbm_remove_interface`. -/
inductive RocRemovePc
  | idle
  | down
  | lock
  | clear
  | unlock
  | up
  deriving DecidableEq, Repr

inductive RocParty
  | caller
  | exec (e : RocExec)
  | remover
  | other
  deriving DecidableEq, Repr

namespace RocPc

/-- In `atbm_remain_on_channel`. -/
def remains : RocPc → Bool
  | testTerm | down | lock | setIf | flush _ | unlockTx | setRoc | arm | clear | cookie _ | unlock _ | up => true
  | _ => false

/-- `remain_on_channel` is set and the cookie not stored. -/
def unrecorded : RocPc → Bool
  | arm | cookie true => true
  | _ => false

end RocPc

structure RocDriver where
  /-- the count of `scan.lock` -/
  scanLock : Nat
  /-- the owner of `conf_mutex` -/
  confMutex : Option RocParty
  remainOnChannel : Bool
  /-- `none` is -1 -/
  rocIfId : Option Nat
  rocCookie : Nat
  /-- `rem_chan_timeout` is pending -/
  remChanTimeout : Bool
  txLock : Int
  bhError : Bool
  /-- `bh_thread` is gone, or the device unplugged -/
  bhGone : Bool
  /-- `vif_list[if_id]` is set -/
  vifList : Nat → Bool
  caller : RocPc
  callIf : Nat
  callCookie : Nat
  timeout : RocExec → Option RocTimeoutPc
  remover : RocRemovePc
  removeIf : Nat
  /-- scans that hold `scan.lock` -/
  scans : Nat
  /-- interface and cookie of the successful remain-on-channel that has not ended -/
  active : Option (Nat × Nat)
  /-- times `atbm_remain_on_channel` has taken `scan.lock`, and times it was given back for one -/
  downs : Nat
  ups : Nat
  /-- cookies given to `ieee80211_remain_on_channel_expired` -/
  expired : List Nat
  /-- cookies of the successful ones that have ended -/
  ended : List Nat
  /-- an expiry was reported before the cookie was recorded -/
  early : Bool
  /-- an interface was used that does not exist -/
  badVif : Bool

namespace RocDriver

def bhIsTerm (s : RocDriver) : Bool := s.bhGone || s.bhError

def wsmUnlockTx (s : RocDriver) : RocDriver := if s.bhError = true then s else { s with txLock := s.txLock - 1 }

def wsmVifLockTx (s : RocDriver) : RocDriver := { s with txLock := s.txLock + 1 }

/-- A step of `__atbm_flush` and where it goes, or whether it has returned 0.  `ok` is what it waits for or tests: the queues
are empty, or `hw_bufs_used` is 0. -/
def atbmFlush (ok : Bool) (s : RocDriver) : RocFlushPc → RocDriver × (RocFlushPc ⊕ Bool)
  | .wait drop => if drop = true ∨ ok = true then (s, .inl (.lockTx drop)) else (s.wsmVifLockTx, .inl (.late drop))
  | .late drop => if ok = true then (s.wsmUnlockTx, .inl (.lockTx drop)) else (s.wsmUnlockTx, .inr false)
  | .lockTx drop => (s.wsmVifLockTx, .inl (.check drop))
  | .check drop => if ok = true then (s, .inr true) else (s.wsmUnlockTx, .inl (.wait drop))

/-- A use of interface `i`. -/
def useVif (i : Nat) (s : RocDriver) : RocDriver := { s with badVif := s.badVif || !s.vifList i }

/-- A step of `atbm_rem_chan_timeout` in the hands of `e`, and where it goes. -/
def atbmRemChanTimeout (e : RocExec) (ok : Bool) (s : RocDriver) : RocTimeoutPc → RocDriver × Option RocTimeoutPc
  | .test => (s, if s.remainOnChannel = true then some .expired else none)
  | .expired =>
    ({ s with expired := s.expired ++ [s.rocCookie], early := s.early || s.caller.unrecorded }, some .lock)
  | .lock => ({ s with confMutex := some (.exec e) }, some .readIf)
  | .readIf =>
    match s.rocIfId with
    | none => ({ s with badVif := true }, some .clear)
    | some i =>
      if s.bhIsTerm = true then (s, some .clear)
      -- `__atbm_flush` of an interface that is gone fails
      else if s.vifList i = true then (s, some (.flush (.wait false))) else (s, some .clear)
  | .flush f =>
    match s.atbmFlush ok f with
    | (s', .inl f') => (s', some (.flush f'))
    | (s', .inr true) => (s', some .unlockTx)
    | (s', .inr false) => (s', some .clear)
  -- with `atbm_disable_listening`
  | .unlockTx => ((s.useVif (s.rocIfId.getD 0)).wsmUnlockTx, some .clear)
  | .clear =>
    ({ s with
      remainOnChannel := false
      rocIfId := none
      ended := s.ended ++ s.active.toList.map Prod.snd
      active := none }, some .unlock)
  | .unlock => ({ s with confMutex := none }, some .up)
  | .up => ({ s with scanLock := s.scanLock + 1, ups := s.ups + 1 }, none)

/-- The delayed work, and the call from `e`, end. -/
def timeoutStep (e : RocExec) (ok : Bool) (p : RocTimeoutPc) (s : RocDriver) : RocDriver :=
  let r := s.atbmRemChanTimeout e ok p
  { r.1 with
    timeout := Function.update r.1.timeout e r.2
    caller := if e = .cancel ∧ r.2 = none then .idle else r.1.caller }

/-- A step of `atbm_remain_on_channel` or `atbm_cancel_remain_on_channel`; `ok` is an answer as in `atbmFlush`, or that the
interface is passive. -/
def callStep (ok : Bool) (s : RocDriver) : RocDriver :=
  match s.caller with
  | .idle | .run => s
  | .testTerm => { s with caller := if s.bhIsTerm = true then .idle else .down }
  | .down => { s with scanLock := s.scanLock - 1, downs := s.downs + 1, caller := .lock }
  | .lock => { s with confMutex := some .caller, caller := .setIf }
  | .setIf =>
    let s' := s.useVif s.callIf
    { s' with
      rocIfId := some s.callIf
      caller := if ok = true ∧ s.vifList s.callIf = true then .flush (.wait s.bhIsTerm) else .clear }
  | .flush f =>
    match s.atbmFlush ok f with
    | (s', .inl f') => { s' with caller := .flush f' }
    | (s', .inr true) => { s' with caller := .unlockTx }
    | (s', .inr false) => { s' with caller := .clear }
  -- with `atbm_enable_listening`
  | .unlockTx => { (s.useVif s.callIf).wsmUnlockTx with caller := .setRoc }
  | .setRoc => { s with remainOnChannel := true, active := some (s.callIf, s.callCookie), caller := .arm }
  | .arm => { s with remChanTimeout := true, caller := .cookie true }
  | .clear => { s with rocIfId := none, remainOnChannel := false, caller := .cookie false }
  | .cookie ok => { s with rocCookie := s.callCookie, caller := .unlock ok }
  | .unlock ok => { s with confMutex := none, caller := if ok = true then .idle else .up }
  | .up => { s with scanLock := s.scanLock + 1, ups := s.ups + 1, caller := .idle }
  | .test1 => { s with caller := if s.remainOnChannel = true then .cancelWork else .test2 }
  | .cancelWork => { s with remChanTimeout := false, caller := .test2 }
  | .test2 =>
    if s.remainOnChannel = true then
      { s with timeout := Function.update s.timeout .cancel (some .test), caller := .run }
    else { s with caller := .idle }

/-- A step of `atbm_remove_interface`. -/
def removeStep (s : RocDriver) : RocDriver :=
  match s.remover with
  | .idle => s
  | .down => { s with scanLock := s.scanLock - 1, remover := .lock }
  | .lock => { s with confMutex := some .remover, remover := .clear }
  | .clear => { s with vifList := Function.update s.vifList s.removeIf false, remover := .unlock }
  | .unlock => { s with confMutex := none, remover := .up }
  | .up => { s with scanLock := s.scanLock + 1, remover := .idle }

end RocDriver

inductive RocAct
  | remain (ifId cookie : Nat)
  | cancel
  | call (ok : Bool)
  /-- the delayed work begins -/
  | work
  /-- `atbm_hw_cancel_delayed_work` of the terminating bus-handler thread -/
  | bhTerm
  | timeout (e : RocExec) (ok : Bool)
  | add (ifId : Nat)
  | remove (ifId : Nat)
  | removal
  | scanDown
  | scanUp
  | mutexLock
  | mutexUnlock
  | bhError
  | bhGone
  deriving DecidableEq, Repr

namespace RocAct

def Enabled (s : RocDriver) : RocAct → Prop
  | remain i _ => s.caller = .idle ∧ s.vifList i = true ∧ (s.remover = .idle ∨ s.removeIf ≠ i)
  | cancel => s.caller = .idle
  | call _ =>
    match s.caller with
    | .idle | .run => False
    | .down => 0 < s.scanLock
    | .lock => s.confMutex = none
    -- `cancel_delayed_work_sync` waits for the work
    | .cancelWork => s.timeout .work = none
    | _ => True
  | work => s.remChanTimeout = true ∧ s.timeout .work = none
  | bhTerm => s.timeout .work = none ∧ s.timeout .bh = none
  | timeout e _ =>
    match s.timeout e with
    | none => False
    | some .lock => s.confMutex = none
    | some _ => True
  | add _ => True
  | remove i => s.remover = .idle ∧ s.vifList i = true ∧ (s.caller.remains = false ∨ s.callIf ≠ i)
  | removal =>
    match s.remover with
    | .idle => False
    | .down => 0 < s.scanLock
    | .lock => s.confMutex = none
    | _ => True
  | scanDown => 0 < s.scanLock
  | scanUp => 0 < s.scans
  | mutexLock => s.confMutex = none
  | mutexUnlock => s.confMutex = some .other
  | bhError | bhGone => True

def next (s : RocDriver) : RocAct → RocDriver
  | remain i cookie => { s with caller := .testTerm, callIf := i, callCookie := cookie }
  | cancel => { s with caller := .test1 }
  | call ok => s.callStep ok
  | work => { s with remChanTimeout := false, timeout := Function.update s.timeout .work (some .test) }
  | bhTerm =>
    if s.remChanTimeout = true then
      { s with remChanTimeout := false, timeout := Function.update s.timeout .bh (some .test) }
    else s
  | timeout e ok =>
    match s.timeout e with
    | some p => s.timeoutStep e ok p
    | none => s
  | add i => { s with vifList := Function.update s.vifList i true }
  | remove i => { s with remover := .down, removeIf := i }
  | removal => s.removeStep
  | scanDown => { s with scanLock := s.scanLock - 1, scans := s.scans + 1 }
  | scanUp => { s with scanLock := s.scanLock + 1, scans := s.scans - 1 }
  | mutexLock => { s with confMutex := some .other }
  | mutexUnlock => { s with confMutex := none }
  | bhError => { s with bhError := true }
  | bhGone => { s with bhGone := true }

instance decEnabled (s : RocDriver) (a : RocAct) : Decidable (a.Enabled s) := by
  unfold Enabled
  cases a <;> dsimp only <;> try infer_instance
  all_goals split <;> infer_instance

end RocAct

/-- After `atbm_init_common`. -/
def rocDriverStart : RocDriver where
  scanLock := 1
  confMutex := none
  remainOnChannel := false
  rocIfId := none
  rocCookie := 0
  remChanTimeout := false
  txLock := 0
  bhError := false
  bhGone := false
  vifList _ := false
  caller := .idle
  callIf := 0
  callCookie := 0
  timeout _ := none
  remover := .idle
  removeIf := 0
  scans := 0
  active := none
  downs := 0
  ups := 0
  expired := []
  ended := []
  early := false
  badVif := false

def rocDrivers : Sys RocDriver RocAct :=
  .ofNext (fun s => s = rocDriverStart) (fun s a => a.Enabled s) RocAct.next

end AtbmWifi
