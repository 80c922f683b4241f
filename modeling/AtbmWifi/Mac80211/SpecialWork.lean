import AtbmWifi.Lib.Memory
import AtbmWifi.Sta.Interface

/-!
# The work for special requests

Six functions put a request for an interface into a buffer on `special_req_list`, and `ieee80211_special_work`
takes them off: it sets the extra IE of a beacon, probe response or probe request, or starts a scan.  The list is
one for all interfaces.  An interface goes by its `sdata`; the work holds the rtnl lock, so
interfaces come and go only while it does not run, but requests are made at any time.
-/

namespace AtbmWifi

open Memory Transition

inductive ExtraKind
  | beacon
  | probrsp
  | probreq
  deriving DecidableEq, Repr

/-- `struct ieee80211_sub_if_data`; `extra` is none where the pointer is NULL. -/
structure SpecialSdata where
  running : Bool
  type : IfType
  /-- `u.ap.beacon` is set. -/
  beacon : Bool
  extra : ExtraKind → Option (List UInt8)

structure ArgBuf where
  given : Bool
  bytes : List UInt8

/-- `(!!ptr) ^ (!!len)` -/
def ArgBuf.torn (a : ArgBuf) : Bool := a.given ^^ !a.bytes.isEmpty

/-- `struct ieee80211_special_work_scan`, with what its pointers point to in the buffer -/
structure SpecialScan where
  channels : List UInt8
  ssid : Option (List UInt8)
  ie : List UInt8
  bssid : Option (Vector UInt8 6)

/-- The `pkt_type` and contents of a buffer; an update without an IE is empty. -/
inductive SpecialRequest
  | update (kind : ExtraKind) (ie : List UInt8)
  | scan (positive : Bool) (scan : SpecialScan)

structure SpecialSkb where
  id : Nat
  sdata : Nat
  request : SpecialRequest

inductive SpecialCall
  | apUpdateSpecialBeacon (ie : ArgBuf)
  | apUpdateSpecialProbeResponse (ie : ArgBuf)
  | apUpdateSpecialProbeRequest (ie : ArgBuf)
  | apUpdateVendorProbeRequest (ie : ArgBuf)
  | staTrigerPassiveScan (channels : ArgBuf)
  | staTrigerPositiveScan (channels ssid ie : ArgBuf) (bssid : Option (Vector UInt8 6))

/-- `ATBM_WLAN_EID_PRIVATE` and `ATBM_WLAN_EID_VENDOR_SPECIFIC` -/
def specialEidPrivate : UInt8 := 233
def specialEidVendor : UInt8 := 221

def updateSpecialIe (kind : ExtraKind) (eid : UInt8) (ie : ArgBuf) : SpecialRequest :=
  if ie.given && !ie.bytes.isEmpty then .update kind (eid :: UInt8.ofNat ie.bytes.length :: ie.bytes)
  else .update kind []

/-- `IEEE80211_ATBM_MAX_SCAN_CHANNEL_INDEX` -/
def specialMaxChannels : Nat := 64

def scanChannelsOk (valid : UInt8 → Bool) (channels : ArgBuf) : Bool :=
  !channels.torn && channels.bytes.length < specialMaxChannels && channels.bytes.all valid

/-- What is put into the buffer, if the call is accepted on this interface; `valid` is `ieee8011_channel_valid`. -/
def SpecialCall.accept (valid : UInt8 → Bool) (f : SpecialSdata) : SpecialCall → Option SpecialRequest
  | .apUpdateSpecialBeacon ie =>
    if f.type = .ap ∧ f.running = true then some (updateSpecialIe .beacon specialEidPrivate ie) else none
  | .apUpdateSpecialProbeResponse ie =>
    if f.type = .ap ∧ f.running = true then some (updateSpecialIe .probrsp specialEidPrivate ie) else none
  | .apUpdateSpecialProbeRequest ie =>
    if f.type = .station ∧ f.running = true then some (updateSpecialIe .probreq specialEidPrivate ie) else none
  | .apUpdateVendorProbeRequest ie =>
    if f.type = .station ∧ f.running = true then some (updateSpecialIe .probreq specialEidVendor ie) else none
  | .staTrigerPassiveScan channels =>
    if f.type = .station ∧ f.running = true ∧ scanChannelsOk valid channels = true then
      some (.scan false ⟨channels.bytes, none, [], none⟩)
    else none
  | .staTrigerPositiveScan channels ssid ie bssid =>
    if f.type = .station ∧ f.running = true ∧ scanChannelsOk valid channels = true ∧ ssid.torn = false ∧
        ssid.bytes.length ≤ 32 ∧ ie.torn = false ∧ ie.bytes.length ≤ 257 then
      some (.scan true ⟨channels.bytes, if ssid.given then some ssid.bytes else none, ie.bytes, bssid⟩)
    else none

structure InternalScanRequest where
  channels : List UInt8
  ies : List UInt8
  ssids : List (List UInt8)
  bssid : Option (Vector UInt8 6)
  reqFlags : Nat

/-- `IEEE80211_INTERNAL_SCAN_FLAGS__PASSAVI_SCAN`, `..._NEED_SKB` and `..._NEED_BSSID` -/
def scanFlagPassive : Nat := 2
def scanFlagNeedSkb : Nat := 4
def scanFlagNeedBssid : Nat := 16

def SpecialScan.internal (s : SpecialScan) (positive : Bool) : InternalScanRequest where
  channels := s.channels
  ies := s.ie
  ssids := s.ssid.toList
  bssid := s.bssid
  -- a passive scan assigns the flags anew
  reqFlags := (if positive then (if s.bssid.isSome then scanFlagNeedBssid else 0) else scanFlagPassive) + scanFlagNeedSkb

/-- The checks of the type and of `u.ap.beacon` -/
def SpecialSdata.takes (f : SpecialSdata) : ExtraKind → Bool
  | .beacon => f.type == .ap && f.beacon
  | .probrsp => f.type == .ap && f.beacon
  | .probreq => f.type == .station

/-- `ieee80211_clear_extra_ie`, with the interface afterwards -/
def clearExtraIe (f : SpecialSdata) (kind : ExtraKind) (alloc : Bool) : Bool × SpecialSdata :=
  if !f.takes kind then (false, f)
  else if !alloc then (false, f)
  else (true, { f with extra := setAt f.extra kind (some []) })

def updataExtraIe (f : SpecialSdata) (kind : ExtraKind) (ie : List UInt8) (alloc : Bool) : Bool × SpecialSdata :=
  if !f.takes kind then (false, f)
  else if !alloc then (false, f)
  else (true, { f with extra := setAt f.extra kind (some ie) })

/-- A request that was processed: the interface it acted on, the one it was made for, and whether that was running -/
structure SpecialAct where
  iface : Nat
  made : Nat
  running : Bool
  deriving DecidableEq, Repr

structure ExtraSet where
  iface : Nat
  kind : ExtraKind
  ie : List UInt8
  deriving DecidableEq, Repr

/-- `work` is none when the work does not run, and else its `sdata`. -/
structure SpecialState where
  ifaces : Nat → Option SpecialSdata
  queue : List SpecialSkb
  work : Option (Option Nat)
  nextId : Nat
  freed : List Nat
  acts : List SpecialAct
  sets : List ExtraSet
  scans : List (Nat × InternalScanRequest)

/-- The walk over `local->interfaces` finds the interface of the request. -/
def SpecialState.found (s : SpecialState) (skb : SpecialSkb) : Bool :=
  match s.ifaces skb.sdata with
  | some f => f.running
  | none => false

/-- The switch on `pkt_type` -/
def actOn (s : SpecialState) (i : Nat) (alloc : Bool) : SpecialRequest → SpecialState
  | .update kind ie =>
    match s.ifaces i with
    | none => s
    | some f =>
      let r := if ie.isEmpty then clearExtraIe f kind alloc else updataExtraIe f kind ie alloc
      { s with
        ifaces := setAt s.ifaces i (some r.2)
        sets := if r.1 then s.sets ++ [⟨i, kind, ie⟩] else s.sets }
  | .scan positive scan => { s with scans := s.scans ++ [(i, scan.internal positive)] }

/-- One turn of the loop of `ieee80211_special_work` -/
def specialWork (s : SpecialState) (alloc : Bool) : SpecialState :=
  match s.queue with
  | [] => { s with work := none }
  | skb :: queue =>
    let sdata := if s.found skb then some skb.sdata else s.work.join
    let s' := { s with queue := queue, work := some sdata, freed := s.freed ++ [skb.id] }
    match sdata with
    | none => s'
    | some i => { actOn s' i alloc skb.request with acts := s.acts ++ [⟨i, skb.sdata, s.found skb⟩] }

/-- What `ieee80211_do_stop` does to the extra IEs -/
def SpecialSdata.stop (f : SpecialSdata) : SpecialSdata :=
  { f with
    running := false
    beacon := if f.type = .ap then false else f.beacon
    extra := fun
      | .beacon => if f.type = .ap then none else f.extra .beacon
      | .probrsp => if f.type = .ap then none else f.extra .probrsp
      | .probreq => if f.type = .station then none else f.extra .probreq }

def SpecialSdata.delBeacon (f : SpecialSdata) : SpecialSdata :=
  { f with beacon := false, extra := setAt f.extra .beacon none }

/-- `ieee80211_setup_sdata` clears the union of the types; `runs` says whether the interface runs afterwards. -/
def SpecialSdata.changeType (type : IfType) (runs : Bool) : SpecialSdata := ⟨runs, type, false, fun _ => none⟩

inductive SpecialAction
  /-- A request for an interface; `alloc` says whether there is a buffer for it. -/
  | request (i : Nat) (call : SpecialCall) (alloc : Bool)
  | start
  | turn (alloc : Bool)
  | up (i : Nat)
  | down (i : Nat)
  | remove (i : Nat)
  | changeType (i : Nat) (type : IfType) (runs : Bool)
  | addBeacon (i : Nat)
  | delBeacon (i : Nat)
  /-- `special_req_list` is purged when the driver goes. -/
  | purge

namespace SpecialAction

/-- What needs the rtnl lock waits for the work. -/
def Enabled (s : SpecialState) : SpecialAction → Prop
  | .request _ _ _ => True
  | .turn _ => s.work.isSome = true
  | _ => s.work = none

instance (s : SpecialState) (a : SpecialAction) : Decidable (Enabled s a) := by
  cases a <;> unfold Enabled <;> infer_instance

def onIface (s : SpecialState) (i : Nat) (g : SpecialSdata → SpecialSdata) : SpecialState :=
  { s with ifaces := setAt s.ifaces i ((s.ifaces i).map g) }

def next (valid : UInt8 → Bool) (s : SpecialState) : SpecialAction → SpecialState
  | .request i call alloc =>
    match (s.ifaces i).bind fun f => call.accept valid f with
    | none => s
    | some r => if alloc then { s with queue := s.queue ++ [⟨s.nextId, i, r⟩], nextId := s.nextId + 1 } else s
  | .start => { s with work := some none }
  | .turn alloc => specialWork s alloc
  | .up i => onIface s i fun f => { f with running := true }
  | .down i => onIface s i .stop
  | .remove i => { s with ifaces := setAt s.ifaces i none }
  | .changeType i type runs => onIface s i fun _ => .changeType type runs
  | .addBeacon i => onIface s i fun f => { f with beacon := true }
  | .delBeacon i => onIface s i .delBeacon
  | .purge => { s with queue := [], freed := s.freed ++ s.queue.map (·.id) }

end SpecialAction

structure SpecialState.Start (s : SpecialState) : Prop where
  extra : ∀ i f, s.ifaces i = some f → ∀ kind, f.extra kind = none
  queue : s.queue = []
  work : s.work = none
  nextId : s.nextId = 0
  freed : s.freed = []
  acts : s.acts = []
  sets : s.sets = []
  scans : s.scans = []

def specialSys (valid : UInt8 → Bool) : Sys SpecialState SpecialAction :=
  .ofNext SpecialState.Start SpecialAction.Enabled (SpecialAction.next valid)

end AtbmWifi
