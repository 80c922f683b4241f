import AtbmWifi.Sta.Join

/-!
# Wake-on-WLAN

`_atbm_wow_suspend` takes `conf_mutex`, `scan.lock` and `tx_lock`, suspends the interfaces one after the other, stops
the bus thread and enables the wake interrupt; `atbm_wow_resume` undoes all of it and is also the way back from a late
failure.  The build has `ATBM_SUPPORT_WOW` and `ATBM_APOLLO_SUSPEND_RESUME_FILTER_ENABLE`.

`asked` is what the firmware was last asked for (the source ignores whether it agreed); it, `suspends` and `resumes`
are history.
-/

namespace AtbmWifi

structure WowOpts where
  /-- `CONFIG_TX_NO_CONFIRM` -/
  txNoConfirm : Bool
  /-- `MCAST_FWDING` -/
  mcastFwding : Bool

structure SuspendState where
  bssLossTmo : Int
  connectionLossTmo : Int
  beaconSkipping : Bool
  deriving DecidableEq, Repr

/-- What the firmware was last asked for, of one interface; 0 is off. -/
@[ext]
structure WowAsked where
  udpPortFilters : Nat
  etherTypeFilters : Nat
  keepalive : Bool
  multicastEnable : Nat
  broadcastAction : Nat
  broadcastAddress : Nat
  forwarding : Nat
  /-- `numBeaconPeriods` and `listenInterval` -/
  beaconWakeup : Nat × Nat
  deriving DecidableEq, Repr

/-- `struct atbm_vif`.  A delayed work is the time its timer has left, if it is pending. -/
structure WowVif where
  joinStatus : JoinStatus
  joinDtimPeriod : Nat
  beaconInt : Nat
  hasMulticastSubscription : Bool
  /-- `multicast_filter` -/
  numOfAddresses : Nat
  multicastEnable : Nat
  /-- `broadcast_filter` -/
  actionMode : Nat
  addressMode : Nat
  /-- `rx_filter.keepalive` -/
  keepalive : Bool
  bssLossWork : Option Int
  connectionLossWork : Option Int
  suspendState : Option SuspendState
  asked : WowAsked
  /-- calls of `__atbm_wow_suspend` that returned 0 -/
  suspends : Nat
  /-- calls of `__atbm_wow_resume` -/
  resumes : Nat
  deriving DecidableEq, Repr

def maxBeaconSkipTimeMs : Nat := 1000
def atbmApolloBeaconSkippingMultiplier : Nat := 3

def eBusy : Int := -16
def eAgain : Int := -11

/-- `atbm_suspend_work`; the timeout, and the work that is left. -/
def atbmSuspendWork (work : Option Int) : Int × Option Int :=
  match work with
  | some left => (max left 0, none)
  | none => (-1, none)

def atbmResumeWork (work : Option Int) (tmo : Int) : Option Int := if tmo < 0 then work else some tmo

namespace WowVif

/-- What `wsm_set_beacon_wakeup_period` makes of what was asked. -/
def beaconWakeup (dtimInterval listenInterval : Nat) (asked : Nat × Nat) : Nat × Nat :=
  if 0xFF < dtimInterval ∨ 0xFFFF < listenInterval then asked else (dtimInterval, listenInterval)

def setBeaconWakeupPeriod (v : WowVif) (dtimInterval listenInterval : Nat) : WowVif :=
  { v with asked := { v.asked with
      beaconWakeup := beaconWakeup dtimInterval listenInterval v.asked.beaconWakeup } }

def dtimInterval (v : WowVif) : Nat :=
  if maxBeaconSkipTimeMs < v.beaconInt * v.joinDtimPeriod then 1 else v.joinDtimPeriod

/-- The filters of a suspended interface, as they are set and taken back in three places. -/
def setFilters (o : WowOpts) (on : Bool) (v : WowVif) : WowVif :=
  let ap := v.joinStatus = .ap
  let keepalive := if ap then on else v.keepalive
  let multicastEnable := if v.numOfAddresses ≠ 0 then on.toNat else v.multicastEnable
  let addressMode := if ap then (if on = true then 3 else 0) else v.addressMode
  { v with
    keepalive := keepalive
    multicastEnable := multicastEnable
    actionMode := on.toNat
    addressMode := addressMode
    asked :=
      { v.asked with
        udpPortFilters := if on = true then 2 else 0
        etherTypeFilters := if on = true then 2 else 0
        keepalive := if ap then on else v.asked.keepalive
        multicastEnable := if v.numOfAddresses ≠ 0 then on.toNat else v.asked.multicastEnable
        broadcastAction := on.toNat
        broadcastAddress := addressMode
        forwarding := if o.mcastFwding = true ∧ ap then on.toNat else v.asked.forwarding } }

def suspendWorks (o : WowOpts) (v : WowVif) : SuspendState × WowVif :=
  let bss := if o.txNoConfirm = true then (0, v.bssLossWork) else atbmSuspendWork v.bssLossWork
  let conn := if o.txNoConfirm = true then (0, v.connectionLossWork) else atbmSuspendWork v.connectionLossWork
  (⟨bss.1, conn.1, false⟩, { v with bssLossWork := bss.2, connectionLossWork := conn.2 })

def resumeWorks (o : WowOpts) (state : SuspendState) (v : WowVif) : WowVif :=
  { v with
    bssLossWork := if o.txNoConfirm = true then v.bssLossWork else atbmResumeWork v.bssLossWork state.bssLossTmo
    connectionLossWork :=
      if o.txNoConfirm = true then v.connectionLossWork
      else atbmResumeWork v.connectionLossWork state.connectionLossTmo }

def skipsBeacons (v : WowVif) : Bool :=
  v.joinStatus == .sta && v.joinDtimPeriod != 0 && !v.hasMulticastSubscription

/-- `__atbm_wow_suspend`, but for the `mutex_unlock` of its error path. -/
def wowSuspend (o : WowOpts) (alloc mcastPending : Bool) (v : WowVif) : WowVif × Int :=
  let v := v.setFilters o true
  if alloc = false then (v.setFilters o false, eBusy)
  else
    let (state, v) := v.suspendWorks o
    let state := { state with beaconSkipping := v.skipsBeacons }
    let v :=
      if v.skipsBeacons = true then
        v.setBeaconWakeupPeriod v.joinDtimPeriod (atbmApolloBeaconSkippingMultiplier * v.joinDtimPeriod)
      else v
    if mcastPending = true then ((v.resumeWorks o state).setFilters o false, eBusy)
    else ({ v with suspendState := some state, suspends := v.suspends + 1 }, 0)

/-- `__atbm_wow_resume`; whether it reads through a null pointer. -/
def wowResume (o : WowOpts) (v : WowVif) : WowVif × Bool :=
  match v.suspendState with
  | none => ({ v with resumes := v.resumes + 1 }, true)
  | some state =>
    let v := { v with suspendState := none, resumes := v.resumes + 1 }
    let v := if state.beaconSkipping = true then v.setBeaconWakeupPeriod v.dtimInterval 0 else v
    (((v.setFilters o false).resumeWorks o state), false)

end WowVif

structure WowHw where
  /-- `tx_queue_stats.num_queued` -/
  numQueued : Nat × Nat
  confMutex : Bool
  /-- the count of the semaphore `scan.lock` -/
  scanLock : Nat
  txLock : Nat
  /-- something was unlocked that was not locked -/
  unbalanced : Bool
  /-- the wake interrupt of the bus -/
  irqWake : Bool
  vifList : List (Option WowVif)

structure WowEnv where
  /-- `hw_bufs_used` gets 0 in time -/
  drained : Bool
  /-- `atbm_kzalloc` for the interface of a slot -/
  alloc : Nat → Bool
  /-- `atbm_timer_pending(&priv->mcast_timeout)` for the interface of a slot -/
  mcastPending : Nat → Bool
  /-- `atbm_bh_suspend` returns 0 -/
  bhSuspend : Bool
  /-- what `power_mgmt(true)` returns -/
  powerMgmt : Int
  /-- `bh_rx` -/
  bhRx : Bool
  /-- `bh_error`, when `wsm_unlock_tx` reads it -/
  bhError : Bool

namespace WowHw

def mutexUnlock (s : WowHw) : WowHw :=
  if s.confMutex = true then { s with confMutex := false } else { s with unbalanced := true }

def wsmUnlockTx (bhError : Bool) (s : WowHw) : WowHw :=
  if bhError = true then s
  else if s.txLock = 0 then { s with unbalanced := true }
  else { s with txLock := s.txLock - 1 }

/-- The loop of `_atbm_wow_suspend` over the interfaces, from slot `i`; the slot that failed. -/
def suspendVifs (o : WowOpts) (env : WowEnv) : Nat → List (Option WowVif) → List (Option WowVif) × Option Nat
  | _, [] => ([], none)
  | i, none :: vs =>
    let (vs, failed) := suspendVifs o env (i + 1) vs
    (none :: vs, failed)
  | i, some v :: vs =>
    let (v, ret) := v.wowSuspend o (env.alloc i) (env.mcastPending i)
    if ret ≠ 0 then (some v :: vs, some i)
    else
      let (vs, failed) := suspendVifs o env (i + 1) vs
      (some v :: vs, failed)

def resumeSlot (o : WowOpts) (i : Nat) (vs : List (Option WowVif)) : List (Option WowVif) × Bool :=
  match vs[i]? with
  | some (some v) =>
    let (v, oops) := v.wowResume o
    (vs.set i (some v), oops)
  | _ => (vs, false)

/-- The loop of its error path, down from slot `i`. -/
def resumeDown (o : WowOpts) : Nat → List (Option WowVif) → List (Option WowVif) × Bool
  | 0, vs => resumeSlot o 0 vs
  | i + 1, vs =>
    let (vs, oops) := resumeSlot o (i + 1) vs
    if oops = true then (vs, true) else resumeDown o i vs

/-- The loop of `atbm_wow_resume`. -/
def resumeVifs (o : WowOpts) : List (Option WowVif) → List (Option WowVif) × Bool
  | [] => ([], false)
  | none :: vs =>
    let (vs, oops) := resumeVifs o vs
    (none :: vs, oops)
  | some v :: vs =>
    let (v, oops) := v.wowResume o
    if oops = true then (some v :: vs, true)
    else
      let (vs, oops) := resumeVifs o vs
      (some v :: vs, oops)

/-- `atbm_wow_resume`; an error is a read through a null pointer, and the state it leaves. -/
def atbmWowResume (o : WowOpts) (env : WowEnv) (s : WowHw) : Except WowHw (WowHw × Int) :=
  let s := { s with irqWake := false, scanLock := s.scanLock + 1 }
  -- `atbm_bh_resume` may fail: it is only warned about
  let (vs, oops) := resumeVifs o s.vifList
  let s := { s with vifList := vs }
  if oops = true then .error s else .ok ((s.wsmUnlockTx env.bhError).mutexUnlock, 0)

def revert3 (env : WowEnv) (s : WowHw) : WowHw :=
  let s := s.wsmUnlockTx env.bhError
  let s := { s with scanLock := s.scanLock + 1 }
  s.mutexUnlock

/-- `_atbm_wow_suspend`, after a failure behind the interfaces. -/
def resumeAndReturn (o : WowOpts) (env : WowEnv) (s : WowHw) (ret : Int) : Except WowHw (WowHw × Int) :=
  match s.atbmWowResume o env with
  | .error s => .error s
  | .ok (s, _) => .ok (s, ret)

def atbmWowSuspend (o : WowOpts) (env : WowEnv) (s : WowHw) : Except WowHw (WowHw × Int) :=
  if s.numQueued.1 + s.numQueued.2 ≠ 0 then .ok (s, eBusy)
  -- `mutex_trylock`
  else if s.confMutex = true then .ok (s, eBusy)
  else
    let s := { s with confMutex := true }
    -- `down_trylock`
    if s.scanLock = 0 then .ok (s.mutexUnlock, eBusy)
    else
      let s := { s with scanLock := s.scanLock - 1, txLock := s.txLock + 1 }
      if env.drained = false then .ok (s.revert3 env, eBusy)
      else
        match suspendVifs o env 0 s.vifList with
        | (vs, some i) =>
          -- `revert1` of `__atbm_wow_suspend`
          let s := { s with vifList := vs }.mutexUnlock
          let (vs, oops) := resumeDown o i s.vifList
          let s := { s with vifList := vs }
          if oops = true then .error s else .ok (s.revert3 env, eBusy)
        | (vs, none) =>
          let s := { s with vifList := vs }
          if env.bhSuspend = false then s.resumeAndReturn o env eBusy
          else if env.powerMgmt ≠ 0 then s.resumeAndReturn o env eBusy
          else
            let s := { s with irqWake := true }
            if env.bhRx = true then s.resumeAndReturn o env eAgain else .ok (s, 0)

end WowHw

end AtbmWifi
