import AtbmWifi.Ap.Model
import AtbmWifi.Queue.Pool

/-!
# The interfaces of a device

What `struct atbm_common` keeps of its interfaces, and the functions of `sta.c`, `ap.c`
and `util.c` that register them, join, start an AP and share out the queue capacity:
`atbm_add_interface`, `atbm_remove_interface`, `atbm_change_interface`,
`atbm_set_priv_queue_cap`, `atbm_clear_priv_queue_cap`, and the callers of the last two
in `atbm_do_join`, `atbm_do_unjoin` and `atbm_update_beaconing`.

`V` are mac80211's interfaces (`struct ieee80211_vif`); the `struct atbm_vif` of one is
its `priv`.  An interface of any kind is added with the MAC address it has at that
moment, and `atbm_add_interface` takes the slot of the address.
-/

namespace AtbmWifi

open Mask

inductive IfType
  | unspecified
  | adhoc
  | station
  | ap
  | apVlan
  | wds
  | monitor
  | meshPoint
  | p2pClient
  | p2pGo
  deriving DecidableEq, Repr

/-- `key_map` has room for these; `keys` ends with `WSM_KEY_MAX_INDEX`. -/
def wsmKeyMaxIndex : Nat := 10

/-- The union of `struct wsm_add_key`, by the member written; `none` after `memset`. -/
inductive WsmKeyData
  | none
  | wepPairwise (peerAddress : Mac) (keyData : List UInt8) (keyLength : Nat)
  | wepGroup (keyData : List UInt8) (keyLength keyId : Nat)
  | tkipPairwise (peerAddress : Mac) (tkipKeyData txMicKey rxMicKey : List UInt8)
  | tkipGroup (tkipKeyData rxMicKey : List UInt8) (keyId : Nat)
  | aesPairwise (peerAddress : Mac) (aesKeyData : List UInt8)
  | aesGroup (aesKeyData : List UInt8) (keyId : Nat)
  | igtkGroup (igtKeyData : List UInt8) (keyId : Nat)
  | wapiPairwise (peerAddress : Mac) (wapiKeyData micKeyData : List UInt8) (keyId : Nat)
  | wapiGroup (wapiKeyData micKeyData : List UInt8) (keyId : Nat)
  deriving DecidableEq, Repr

structure WsmAddKey where
  type : Nat
  entryIndex : Nat
  data : WsmKeyData
  deriving DecidableEq, Repr

/-- An entry of `keys` after `memset`. -/
def WsmAddKey.zero : WsmAddKey := ⟨0, 0, .none⟩

/-- The fields of `struct atbm_vif` that the functions below use. -/
structure AtbmPriv where
  join : JoinVif
  /-- `priv->hw_priv` is this device -/
  attached : Bool
  ifId : Nat
  mode : IfType
  cipherType : Nat
  queueCap : Nat

def JoinVif.zero : JoinVif where
  enabled := false
  joinStatus := .passive
  joinBssid := 0
  joinDtimPeriod := 0
  beaconInt := 0
  associated := false
  powersaveMode := 0
  firmwarePsMode := 0
  disableBeaconFilter := false
  bug := false
  requests := []
  lastCall := none

/-- A `struct atbm_vif` after `memset`. -/
def AtbmPriv.zero : AtbmPriv := ⟨.zero, false, 0, .unspecified, 0, 0⟩

/-- `join_status > ATBM_APOLLO_JOIN_STATUS_MONITOR` -/
def AtbmPriv.joined (p : AtbmPriv) : Bool := decide (JoinStatus.monitor.toNat < p.join.joinStatus.toNat)

/-- An interface of mac80211; `hwQueue` are its `hw_queue[IEEE80211_NUM_ACS]`. -/
structure Iface where
  type : IfType
  p2p : Bool
  hwQueue : Fin 4 → Nat
  priv : AtbmPriv

/-- The part of `struct atbm_common` about its interfaces and their keys. -/
structure HwPriv (V : Type) where
  addresses : Nat → Mac
  numVifs : Int
  ifIdSlot : BitVec 32
  vifList : Nat → Option V
  macAddr : Mac
  keyMap : BitVec 32
  keys : Nat → WsmAddKey
  vif : V → Iface

namespace HwPriv

variable {V : Type} [DecidableEq V]

def priv (h : HwPriv V) (v : V) : AtbmPriv := (h.vif v).priv

def onPriv (v : V) (f : AtbmPriv → AtbmPriv) (h : HwPriv V) : HwPriv V :=
  { h with vif := Function.update h.vif v { h.vif v with priv := f (h.priv v) } }

def setCap (v : V) (cap : Nat) (h : HwPriv V) : HwPriv V := h.onPriv v fun p => { p with queueCap := cap }

/-- The interface of slot `j`, if it is another than `v` and has joined. -/
def otherJoined (h : HwPriv V) (v : V) (j : Nat) : Option V :=
  (h.vifList j).filter fun w => decide (w ≠ v) && (h.priv w).joined

def setPrivQueueCap (v : V) (h : HwPriv V) : HwPriv V :=
  (List.range maxVifs).foldl (fun h j =>
      match h.otherJoined v j with
      | some w => (h.setCap w atbmQueueCombCap).setCap v atbmQueueCombCap
      | none => h)
    (h.setCap v atbmQueueSingleCap)

/-- `atbm_clear_priv_queue_cap`; the second component is `prev_priv`. -/
def clearPrivQueueCap (v : V) (h : HwPriv V) : HwPriv V :=
  ((List.range maxVifs).foldl (fun (r : HwPriv V × Option V) j =>
      match r.1.otherJoined v j with
      | some w =>
        let h := r.1.setCap w atbmQueueSingleCap
        match r.2 with
        | none => (h, some w)
        | some prev => ((h.setCap prev atbmQueueCombCap).setCap w atbmQueueCombCap, some w)
      | none => r)
    (h.setCap v atbmQueueDefaultCap, none)).1

end HwPriv

def eOpnotsupp : Int := -95

/-- The address of an interface when it is added, `atbm_bh_is_term`, and the results of the firmware:
`wsm_set_edca_params` with `atbm_set_uapsd_param`, and `atbm_setup_mac_pvif`. -/
structure AddEnv where
  addr : Mac
  term : Bool
  edcaOk : Bool
  setupOk : Bool

namespace HwPriv

variable {V : Type} [DecidableEq V]

/-- The first address of the device that is `addr`. -/
def slotOf (h : HwPriv V) (addr : Mac) : Option Nat :=
  (List.range maxVifs).find? fun i => addr == h.addresses i

/-- `atbm_add_interface` before it takes `vif_list_lock`. -/
def disabled (v : V) (h : HwPriv V) : HwPriv V :=
  h.onPriv v fun p => { p with mode := (h.vif v).type, join := { p.join with enabled := false } }

/-- `atbm_add_interface` under `vif_list_lock`, with slot `i`. -/
def register (i : Nat) (v : V) (h : HwPriv V) : HwPriv V :=
  let f := h.vif v
  { h with
    ifIdSlot := h.ifIdSlot ||| BIT i
    numVifs := h.numVifs + 1
    vifList := Function.update h.vifList i (some v)
    vif := Function.update h.vif v { f with
      hwQueue := fun k => 4 * i + k
      priv := { f.priv with
        ifId := i
        attached := true
        queueCap := atbmQueueDefaultCap
        join := { f.priv.join with enabled := true, joinStatus := .passive, associated := false } } } }

/-- `atbm_add_interface` from there on; `atbm_vif_setup` clears the cipher unless it fails before. -/
def setUp (e : AddEnv) (v : V) (h : HwPriv V) : HwPriv V :=
  { h with macAddr := e.addr }.onPriv v fun p => { p with
    join := { p.join with
      joinStatus := if (h.vif v).type = IfType.monitor then .simpleMonitor else p.join.joinStatus }
    cipherType := if e.edcaOk then 0 else p.cipherType }

/-- The result of `WARN_ON` is 0 or 1. -/
def atbmAddInterface (e : AddEnv) (v : V) (h : HwPriv V) : HwPriv V × Int :=
  if (maxVifs : Int) ≤ h.numVifs then (h, eOpnotsupp)
  else if e.term then (h, eOpnotsupp)
  else
    let h := h.disabled v
    if h.numVifs < (maxVifs : Int) then
      match h.slotOf e.addr with
      | none => (h, eInval)
      | some i => ((h.register i v).setUp e v, if e.setupOk then 0 else 1)
    else (h, eOpnotsupp)

def atbmFreeKeys (h : HwPriv V) : HwPriv V := { h with keys := fun _ => .zero, keyMap := 0 }

/-- `atbm_remove_interface` goes past its first test. -/
def removes (v : V) (h : HwPriv V) : Bool := (h.priv v).join.enabled && (h.priv v).attached

/-- `atbm_remove_interface` under `vif_list_lock`. -/
def unregister (i : Nat) (h : HwPriv V) : HwPriv V :=
  let h := { h with
    vifList := Function.update h.vifList i none
    ifIdSlot := h.ifIdSlot &&& ~~~BIT i
    numVifs := h.numVifs - 1 }
  if h.numVifs = 0 then { h.atbmFreeKeys with macAddr := 0 } else h

/-- `atbm_remove_interface` up to `atbm_clear_priv_queue_cap`. -/
def shutDown (v : V) (h : HwPriv V) : HwPriv V :=
  h.onPriv v fun p => { p with join := { p.join with enabled := false, joinStatus := .passive } }

def atbmRemoveInterface (v : V) (h : HwPriv V) : HwPriv V :=
  if h.removes v then
    (((h.shutDown v).clearPrivQueueCap v).unregister (h.priv v).ifId).onPriv v fun _ => .zero
  else h

def changes (v : V) (type : IfType) (p2p : Bool) (h : HwPriv V) : Bool :=
  type != (h.vif v).type || (h.vif v).p2p != p2p

/-- `atbm_change_interface` after its `atbm_remove_interface`. -/
def retyped (v : V) (type : IfType) (p2p : Bool) (h : HwPriv V) : HwPriv V :=
  { h with vif := Function.update h.vif v { h.vif v with type, p2p } }

def atbmChangeInterface (e : AddEnv) (v : V) (type : IfType) (p2p : Bool) (h : HwPriv V) :
    HwPriv V × Int :=
  if h.changes v type p2p then ((h.atbmRemoveInterface v).retyped v type p2p).atbmAddInterface e v
  else (h, 0)

/-- `atbm_do_join` gets to a successful `wsm_join`. -/
def joins (bss : Bss) (joinOk : Bool) (j : JoinVif) : Bool :=
  j.enabled && !(j.joinStatus == .sta && bss.bssid == j.joinBssid) && joinOk

/-- `atbm_do_unjoin` gets to its `wsm_reset`. -/
def unjoins (term : Bool) (bssid : Mac) (j : JoinVif) : Bool :=
  !term && j.joinStatus == .sta && bssid == j.joinBssid

/-- `atbm_do_join` with the capacity; its own unjoin, of another BSS, is refused and changes none. -/
def doJoin (v : V) (bss : Bss) (term joinOk resetOk : Bool) (h : HwPriv V) : HwPriv V :=
  let j := (h.priv v).join
  let h := h.onPriv v fun p => { p with join := (atbmDoJoin bss term joinOk resetOk j).1 }
  if joins bss joinOk j then h.setPrivQueueCap v else h

/-- `atbm_do_unjoin` with the cipher and the capacity. -/
def doUnjoin (v : V) (bssid : Mac) (term resetOk : Bool) (h : HwPriv V) : HwPriv V :=
  let j := (h.priv v).join
  let h := h.onPriv v fun p => { p with
    join := (atbmDoUnjoin term bssid resetOk j).1
    cipherType := if unjoins term bssid j then 0 else p.cipherType }
  if unjoins term bssid j then h.clearPrivQueueCap v else h

/-- `atbm_start_ap`; the capacity is taken whether `wsm_start` succeeded or not. -/
def startAp (v : V) (conf : Beaconing) (dtimPeriod : Nat) (h : HwPriv V) : HwPriv V :=
  if conf.skb then
    (h.onPriv v fun p => { p with join := { p.join with
      beaconInt := conf.beaconInt
      joinDtimPeriod := dtimPeriod
      joinStatus := if conf.started then .ap else p.join.joinStatus } }).setPrivQueueCap v
  else h

/-- `atbm_update_beaconing` restarts the AP. -/
def restarts (v : V) (conf : Beaconing) (h : HwPriv V) : Bool :=
  (h.priv v).mode == .ap &&
    ((h.priv v).join.joinStatus != .ap || (h.priv v).join.beaconInt != conf.beaconInt)

def updateBeaconing (v : V) (term : Bool) (conf : Beaconing) (dtimPeriod : Nat) (h : HwPriv V) : HwPriv V :=
  if term then h
  else if (h.priv v).join.enabled = false then h
  else if h.restarts v conf then
    (h.onPriv v fun p => { p with join := { p.join with joinStatus := .passive } }).startAp v conf dtimPeriod
  else h

end HwPriv

/-- What mac80211 calls; `addr` and the results of the firmware may be different in every call. -/
inductive IfaceAct (V : Type)
  | add (v : V) (e : AddEnv)
  | change (v : V) (type : IfType) (p2p : Bool) (e : AddEnv)
  | remove (v : V)
  | join (v : V) (bss : Bss) (term joinOk resetOk : Bool)
  | unjoin (v : V) (bssid : Mac) (term resetOk : Bool)
  | beaconing (v : V) (term : Bool) (conf : Beaconing) (dtimPeriod : Nat)

variable {V : Type} [DecidableEq V]

def IfaceAct.next (h : HwPriv V) : IfaceAct V → HwPriv V
  | .add v e => (h.atbmAddInterface e v).1
  | .change v type p2p e => (h.atbmChangeInterface e v type p2p).1
  | .remove v => h.atbmRemoveInterface v
  | .join v bss term joinOk resetOk => h.doJoin v bss term joinOk resetOk
  | .unjoin v bssid term resetOk => h.doUnjoin v bssid term resetOk
  | .beaconing v term conf dtimPeriod => h.updateBeaconing v term conf dtimPeriod

/-- A device without interfaces and keys, and interfaces never added; their kinds are any. -/
def HwPriv.Start (h : HwPriv V) : Prop :=
  h.numVifs = 0 ∧ h.ifIdSlot = 0 ∧ (∀ i, h.vifList i = none) ∧ h.keyMap = 0 ∧ (∀ i, h.keys i = .zero) ∧
    ∀ v, h.priv v = .zero

end AtbmWifi
