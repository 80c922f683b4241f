import AtbmWifi.Lib.Mask
import AtbmWifi.Queue.Model
import AtbmWifi.Sta.Join

/-!
# The stations and the power save of an AP interface

The fields of `atbm_vif` under `ps_state_lock`, and the functions of `ap.c` and
`txrx.c` that write them: `__atbm_sta_notify`, `atbm_suspend_resume`,
`atbm_handle_pspoll`, `atbm_tx_h_pm`, `atbm_tx_h_pm_state`, `atbm_sta_add`,
`atbm_sta_remove` and `atbm_start_ap`.  `priv->mode` is `NL80211_IFTYPE_AP` throughout.

Masks are 32 bits wide, with bit `l` for link id `l`; link ids handed out are those
of `WsmCaps`, at most 14.  `multicastStartWork` and `multicastStopWork` say that the
work item is queued.
-/

namespace AtbmWifi

open Mask

def maxStaInApMode : Nat := 14

def dtimVirtualLinkId : Nat := 15

def uapsdVirtualLinkId : Nat := 16

def maxTid : Nat := 8

def BIT (l : Nat) : BitVec 32 := bit 32 l

/-- What the firmware reports; the driver stops at startup if it is out of these bounds. -/
structure WsmCaps where
  numOfStations : Nat
  pos : 0 < numOfStations
  le : numOfStations ≤ maxStaInApMode

inductive LinkStatus
  | off
  | reserve
  | soft
  | hard
  | reset
  | resetRemap
  deriving DecidableEq, Repr

structure AtbmLinkEntry where
  timestamp : Nat
  status : LinkStatus
  buffered : Nat → UInt8

/-- An entry after `memset`. -/
def AtbmLinkEntry.zero : AtbmLinkEntry := ⟨0, .off, fun _ => 0⟩

structure AtbmVif where
  joinStatus : JoinStatus
  beaconInt : Nat
  linkIdMap : BitVec 32
  linkIdDb : Nat → AtbmLinkEntry
  staAsleepMask : BitVec 32
  pspollMask : BitVec 32
  aid0BitSet : Bool
  bufferedMulticasts : Bool
  txMulticast : Bool
  multicastStartWork : Bool
  multicastStopWork : Bool

def AtbmVif.init : AtbmVif where
  joinStatus := .passive
  beaconInt := 0
  linkIdMap := 0
  linkIdDb _ := .zero
  staAsleepMask := 0
  pspollMask := 0
  aid0BitSet := false
  bufferedMulticasts := false
  txMulticast := false
  multicastStartWork := false
  multicastStopWork := false

def AtbmVif.setLink (v : AtbmVif) (l : Nat) (entry : AtbmLinkEntry) : AtbmVif :=
  { v with linkIdDb := Function.update v.linkIdDb (l - 1) entry }

inductive StaNotifyCmd
  | sleep
  | awake
  deriving DecidableEq, Repr

/-- The links a notification is about; link id zero is for all of them, and only to wake them. -/
def notifyBit (cmd : StaNotifyCmd) (linkId : Nat) (v : AtbmVif) : BitVec 32 :=
  if linkId ≠ 0 then BIT linkId
  else if cmd ≠ .awake then 0
  else v.linkIdMap

def staNotify (cmd : StaNotifyCmd) (linkId : Nat) (v : AtbmVif) : AtbmVif :=
  let bit := notifyBit cmd linkId v
  match cmd with
  | .sleep =>
    if v.staAsleepMask &&& bit = 0 then
      { v with
        multicastStartWork := v.multicastStartWork || (v.bufferedMulticasts && v.staAsleepMask == 0)
        staAsleepMask := v.staAsleepMask ||| bit }
    else v
  | .awake =>
    if v.staAsleepMask &&& bit ≠ 0 then
      { v with
        staAsleepMask := v.staAsleepMask &&& ~~~bit
        pspollMask := v.pspollMask &&& ~~~bit
        multicastStopWork :=
          v.multicastStopWork || (v.txMulticast && linkId != 0 && v.staAsleepMask &&& ~~~bit == 0) }
    else v

/-- `atbm_sta_notify`, for an interface that is enabled and a bus that is alive -/
def atbmStaNotify (cmd : StaNotifyCmd) (linkId : Nat) (alive : Bool) (v : AtbmVif) : AtbmVif :=
  if alive then staNotify cmd linkId v else v

def atbmPsNotify (linkId : Nat) (ps : Bool) (v : AtbmVif) : AtbmVif :=
  if maxStaInApMode < linkId then v else staNotify (if ps then .sleep else .awake) linkId v

structure WsmSuspendResume where
  linkId : Nat
  stop : Bool
  multicast : Bool
  deriving DecidableEq, Repr

/-- `atbm_suspend_resume`; the second part says that `mcast_timeout` is cancelled. -/
def atbmSuspendResume (arg : WsmSuspendResume) (v : AtbmVif) : AtbmVif × Bool :=
  if arg.multicast then
    if arg.stop then ({ v with txMulticast := false }, false)
    else
      ({ v with txMulticast := v.aid0BitSet && v.bufferedMulticasts }, v.aid0BitSet && v.bufferedMulticasts)
  else (atbmPsNotify arg.linkId arg.stop v, false)

/-- `atbm_handle_pspoll`, for a frame with the BSSID of the interface from a station with this link id -/
def atbmHandlePspoll (linkId : Nat) (v : AtbmVif) : AtbmVif :=
  if v.joinStatus ≠ .ap then v
  else if linkId = 0 then v
  else { v with pspollMask := v.pspollMask ||| BIT linkId }

def atbmTxHPm (auth : Bool) (rawLinkId : Nat) (v : AtbmVif) : AtbmVif :=
  if auth then
    { v with
      staAsleepMask := v.staAsleepMask &&& ~~~BIT rawLinkId
      pspollMask := v.pspollMask &&& ~~~BIT rawLinkId }
  else v

/-- `-ENOENT` and the `BUG_ON` of `atbm_sta_add`, or 0 -/
inductive AddRet
  | ok
  | noEnt
  | bug
  deriving DecidableEq, Repr

/-- The station entered under `ps_state_lock`. -/
def staEnter (aid jiffies : Nat) (v : AtbmVif) : AtbmVif :=
  { v.setLink aid { v.linkIdDb (aid - 1) with status := .hard, timestamp := jiffies } with
    staAsleepMask := v.staAsleepMask &&& ~~~BIT aid
    pspollMask := v.pspollMask &&& ~~~BIT aid
    linkIdMap := v.linkIdMap ||| BIT aid }

/-- `atbm_sta_add`, with `term` for `atbm_bh_is_term` and `mapped` when `wsm_map_link` returns 0 -/
def atbmStaAdd (caps : WsmCaps) (aid jiffies : Nat) (term mapped : Bool) (v : AtbmVif) : AtbmVif × AddRet :=
  if term then (v, .noEnt)
  else if aid = 0 ∨ caps.numOfStations < aid then (v, .noEnt)
  else if (v.linkIdDb (aid - 1)).status ≠ .off then (v, .bug)
  else
    let v := staEnter aid jiffies v
    if mapped then (v, .ok)
    else (v.setLink aid { v.linkIdDb (aid - 1) with status := .off }, .noEnt)

/-- `atbm_sta_remove`; what `wsm_map_link` returns is only warned about. -/
def atbmStaRemove (aid : Nat) (term : Bool) (v : AtbmVif) : AtbmVif :=
  if term then v
  else if aid = 0 then v
  else
    { v.setLink aid { v.linkIdDb (aid - 1) with status := .off } with
      linkIdMap := v.linkIdMap &&& ~~~BIT aid
      staAsleepMask := v.staAsleepMask &&& ~~~BIT aid
      pspollMask := v.pspollMask &&& ~~~BIT aid }

/-- What a restart reads of mac80211, with the results of `ieee80211_beacon_get` and `wsm_start`. -/
structure Beaconing where
  beaconInt : Nat
  skb : Bool
  started : Bool
  deriving DecidableEq, Repr

def atbmStartAp (conf : Beaconing) (v : AtbmVif) : AtbmVif :=
  if conf.skb then
    { v with
      beaconInt := conf.beaconInt
      linkIdDb := fun _ => .zero
      joinStatus := if conf.started then .ap else v.joinStatus }
  else v

def restartNeeded (conf : Beaconing) (v : AtbmVif) : Bool :=
  v.joinStatus != .ap || v.beaconInt != conf.beaconInt

def atbmUpdateBeaconing (conf : Beaconing) (v : AtbmVif) : AtbmVif :=
  if restartNeeded conf v then atbmStartAp conf { v with joinStatus := .passive } else v

def AtbmVif.buffered (v : AtbmVif) (l tid : Nat) : UInt8 := (v.linkIdDb (l - 1)).buffered tid

def AtbmVif.setBuffered (v : AtbmVif) (l tid : Nat) (n : UInt8) : AtbmVif :=
  v.setLink l { v.linkIdDb (l - 1) with buffered := Function.update (v.linkIdDb (l - 1)).buffered tid n }

def countedLink (l tid : Nat) : Bool := l != 0 && decide (tid < maxTid)

/-- A frame for the DTIM link is noted, and `multicast_start_work` queued if a station sleeps. -/
def noteMulticast (linkId : Nat) (v : AtbmVif) : AtbmVif :=
  if linkId = dtimVirtualLinkId ∧ v.bufferedMulticasts = false then
    { v with
      bufferedMulticasts := true
      multicastStartWork := v.multicastStartWork || v.staAsleepMask != 0 }
  else v

/-- `atbm_tx_h_pm_state`; true when the frame is the first of its station and tid -/
def atbmTxHPmState (t : AtbmTxpriv) (v : AtbmVif) : AtbmVif × Bool :=
  let v := noteMulticast t.linkId.toNat v
  if countedLink t.rawLinkId.toNat t.tid.toNat then
    let was := v.buffered t.rawLinkId.toNat t.tid.toNat
    (v.setBuffered t.rawLinkId.toNat t.tid.toNat (was + 1), was == 0)
  else (v, false)

/-- The check of `wsm_handle_tx_data` on an AP: the link is known. -/
def linkKnown (v : AtbmVif) (rawLinkId : Nat) : Bool := BIT rawLinkId &&& (BIT 0 ||| v.linkIdMap) != 0

end AtbmWifi
