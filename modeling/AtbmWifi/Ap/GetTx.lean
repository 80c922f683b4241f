import AtbmWifi.Ap.Model
import AtbmWifi.Queue.Driver

/-!
# The frame the bus asks for: `wsm_get_tx`

A call looks at the saved buffer and at the pending command, then takes the
interfaces in turn: the links that may transmit (`wsm_get_tx_queue_and_mask`), the
queue of the best EDCA score (`atbm_get_prio_queue`), the first frame of the queue
that may go, and what `wsm_handle_tx_data` says of it.

The turns of the loop are separate steps, `loop` the locals of a call under way;
within a turn nothing else happens.  `save_buf` only ever holds the firmware check
of `atbm_firmware_init_check`, which is a command.
-/

namespace AtbmWifi

/-- What `atbm_tx_h_calc_link_ids` reads of a frame: the link id of `control.sta` if there is one, the
kind of the frame, and whether the station has the queue under U-APSD. -/
structure TxDest where
  sta : Option UInt8
  multicast : Bool
  mgmt : Bool
  uapsd : Bool
  enableBeacon : Bool
  deriving DecidableEq, Repr

def baseLinkIds (ap : Bool) (d : TxDest) (v : AtbmVif) : Option (UInt8 × UInt8) :=
  if v.joinStatus = .staListen ∨ v.joinStatus = .simpleMonitor then some (0, 0)
  else if d.sta.getD 0 ≠ 0 then some (d.sta.getD 0, d.sta.getD 0)
  else if !ap then some (0, 0)
  else if d.multicast then some (0, if d.enableBeacon then UInt8.ofNat dtimVirtualLinkId else 0)
  else if d.mgmt then some (0, 0)
  else none

def atbmTxHCalcLinkIds (ap : Bool) (d : TxDest) (v : AtbmVif) : Option (UInt8 × UInt8) :=
  (baseLinkIds ap d v).map fun p =>
    if d.sta.isSome && d.uapsd then (p.1, UInt8.ofNat uapsdVirtualLinkId) else p

/-- `struct wsm_edca_queue_params`, with the bounds of an 802.11 EDCA parameter set. -/
structure EdcaQueueParams where
  aifns : Nat
  cwMin : Nat
  cwMax : Nat
  txOpLimit : Nat
  aifns_le : aifns ≤ 255
  cwMin_le : cwMin ≤ cwMax
  cwMax_le : cwMax ≤ 32767

/-- The score of a queue, with `rand` from `prandom_u32`; the lowest wins. -/
def edcaScore (edca : EdcaQueueParams) (rand : Nat) : Nat :=
  ((edca.aifns + edca.cwMin) * 65536 + (edca.cwMax - edca.cwMin) * (rand % 65536)) % 4294967296

def atbmQueueGetNumQueued (ifId mapCapacity : Nat) (linkIdMap : BitVec 32) (q : AtbmQueue) : Int :=
  if linkIdMap = 0 then 0
  else if linkIdMap = BitVec.allOnes 32 then q.numQueuedVif ifId - q.numPendingVif ifId
  else
    ((List.range mapCapacity).map fun i => if linkIdMap.getLsbD i then q.linkMapCache ifId i else 0).sum

/-- The locals of `atbm_get_prio_queue`. -/
structure PrioSearch where
  total : Int
  best : Nat
  winner : Option (Fin 4)

def prioTurn (queued : Fin 4 → Int) (score : Fin 4 → Nat) (p : PrioSearch) (i : Fin 4) : PrioSearch :=
  if queued i = 0 then p
  else if score i < p.best ∧ (p.winner = none ∨ i ≠ 3) then ⟨p.total + queued i, score i, some i⟩
  else { p with total := p.total + queued i }

def prioSearch (queued : Fin 4 → Int) (score : Fin 4 → Nat) : PrioSearch :=
  (List.finRange 4).foldl (prioTurn queued score) ⟨0, 4294967295, none⟩

/-- What a turn of `wsm_get_tx` reads: `vif_list`, the interfaces enabled, whether the device is out of
buffers, the EDCA parameters, `prandom_u32` at the first and second search, and `*burst`.  `other` is what
`wsm_handle_tx_data` says of a frame of an interface that is no AP. -/
structure GetTxEnv where
  q : QEnv
  up : Nat → Bool
  enabled : Nat → Bool
  bufsFull : Bool
  edca : Nat → Fin 4 → EdcaQueueParams
  rand : Bool → Fin 4 → Nat
  burst : Int
  other : Bool

/-- What `atbm_get_prio_queue` reads, of an interface. -/
structure PrioArg where
  ifId : Nat
  mapCapacity : Nat
  txQueue : Fin 4 → AtbmQueue
  score : Fin 4 → Nat
  txBurstIdx : Option (Fin 4)

def PrioArg.queued (a : PrioArg) (linkIdMap : BitVec 32) (c : Fin 4) : Int :=
  atbmQueueGetNumQueued a.ifId a.mapCapacity linkIdMap (a.txQueue c)

def urgent : BitVec 32 := BIT dtimVirtualLinkId ||| BIT uapsdVirtualLinkId

/-- `atbm_get_prio_queue`: the queue, and `*total` from zero -/
def atbmGetPrioQueue (a : PrioArg) (linkIdMap : BitVec 32) : Option (Fin 4) × Int :=
  let p := prioSearch (a.queued linkIdMap) a.score
  match p.winner, a.txBurstIdx with
  | some w, some b =>
    if w ≠ b ∧ a.queued (linkIdMap &&& urgent) w = 0 ∧ a.queued linkIdMap b ≠ 0 then (some b, p.total)
    else (some w, p.total)
  | w, _ => (w, p.total)

def unicastMask (v : AtbmVif) : BitVec 32 :=
  let mask := ~~~v.staAsleepMask ||| BIT uapsdVirtualLinkId
  if v.staAsleepMask ≠ 0 then (mask ||| v.pspollMask) &&& ~~~BIT dtimVirtualLinkId
  else mask ||| BIT dtimVirtualLinkId

/-- `wsm_get_tx_queue_and_mask`: the queue and the links allowed if a queue is found, and `*more`; `arg`
gives the first and the second search their random numbers. -/
def wsmGetTxQueueAndMask (arg : Bool → PrioArg) (v : AtbmVif) (more : Bool) :
    Option (Fin 4 × BitVec 32) × Bool :=
  let unicast := ((atbmGetPrioQueue (arg true) (unicastMask v)).1.map fun c => (c, unicastMask v), more)
  if v.txMulticast then
    match atbmGetPrioQueue (arg false) (BIT dtimVirtualLinkId) with
    | (some c, total) => (some (c, BIT dtimVirtualLinkId), decide (1 < total))
    | (none, _) => unicast
  else unicast

/-- The multicast flags after the search, with `found` when there was a queue. -/
def multicastsSearched (found more : Bool) (v : AtbmVif) : AtbmVif :=
  if v.bufferedMulticasts && (!found || !more) && (v.txMulticast || v.staAsleepMask == 0) then
    { v with
      bufferedMulticasts := false
      txMulticast := false
      multicastStopWork := v.multicastStopWork || v.txMulticast }
  else v

/-- `wsm_handle_tx_data`: the frame is dropped -/
def wsmHandleTxData (ap other : Bool) (v : AtbmVif) (t : AtbmTxpriv) : Bool :=
  if ap then v.joinStatus == .passive || !linkKnown v t.rawLinkId.toNat else other

structure GetTxLoop where
  ifPending : Bool
  more : Bool
  deriving DecidableEq, Repr

/-- What `wsm_get_tx` works on.  `save_buf` is its `save_buf_vif_selected`, `cmd` says that
`wsm_cmd.ptr` is set. -/
structure PsState where
  queues : TxQueues
  vif : Nat → AtbmVif
  mcastTimeout : Nat → Bool
  txLock : Nat
  saveBuf : Option Int
  cmd : Bool
  ifIdSelected : Nat
  txBurstIdx : Option (Fin 4)
  loop : Option GetTxLoop
  crashed : Bool

/-- What the caller of `wsm_get_tx` is handed. -/
inductive TxData
  | saved (vif : Int)
  | cmd
  | frame (ifId : Nat) (t : AtbmTxpriv)
  deriving DecidableEq

def TxData.isData : TxData → Bool
  | .saved vif => vif != -1
  | .cmd => false
  | .frame _ _ => true

def PsState.setVif (s : PsState) (i : Nat) (v : AtbmVif) : PsState := { s with vif := Function.update s.vif i v }

def PsState.prioArg (s : PsState) (e : GetTxEnv) (i : Nat) (second : Bool) : PrioArg where
  ifId := i
  mapCapacity := s.queues.stats.mapCapacity
  txQueue := s.queues.txQueue
  score c := edcaScore (e.edca i c) (e.rand second c)
  txBurstIdx := s.txBurstIdx

/-- `*burst` after a frame of queue `c`. -/
def burstOf (e : GetTxEnv) (i : Nat) (c : Fin 4) (mask : BitVec 32) (s : PsState) : Int :=
  if (e.edca i c).txOpLimit ≠ 0 then
    min e.burst (atbmQueueGetNumQueued i s.queues.stats.mapCapacity mask (s.queues.txQueue c) + 1)
  else 1

/-- The frame at `k` is handed over, after it was moved to the pending list. -/
def handOver (e : GetTxEnv) (i : Nat) (c : Fin 4) (mask : BitVec 32) (t : AtbmTxpriv) (s : PsState) : PsState :=
  { s.setVif i { s.vif i with pspollMask := (s.vif i).pspollMask &&& ~~~BIT t.rawLinkId.toNat } with
    txBurstIdx := if 1 < burstOf e i c mask s then some c else none
    loop := none }

/-- `atbm_queue_get` and what follows it, for the queue and mask that were found. -/
def getTxFrame (ap : Bool) (e : GetTxEnv) (i : Nat) (c : Fin 4) (mask : BitVec 32) (more : Bool) (s : PsState) :
    PsState × Option TxData :=
  let q := s.queues.txQueue c
  let s := { s with queues := s.queues.step ⟨c, e.q, .get i mask.toNat⟩ }
  match selectItem q i mask.toNat with
  | none => ({ s with loop := some ⟨false, more⟩ }, none)
  | some k =>
    let t := (q.pool k).txpriv
    if wsmHandleTxData ap e.other (s.vif i) t then
      if (atbmQueueRemove e.q (issuedId q k) (s.queues.view c)).2 ≠ 0 then ({ s with crashed := true }, none)
      else
        ({ s with queues := s.queues.step ⟨c, e.q, .remove (issuedId q k)⟩, loop := some ⟨false, more⟩ }, none)
    else (handOver e i c mask t s, some (.frame i t))

/-- A turn that ends without a frame: the next one, or the end of the call. -/
def nextTurn (loop : GetTxLoop) (s : PsState) : PsState :=
  { s with loop := if loop.ifPending then some { loop with ifPending := false } else none }

/-- The turn after the search, with what was found and `more`. -/
def afterFound (ap : Bool) (e : GetTxEnv) (i : Nat) (loop : GetTxLoop) (s : PsState) :
    Option (Fin 4 × BitVec 32) × Bool → PsState × Option TxData
  | (none, more) => (nextTurn { loop with more := more } (s.setVif i (multicastsSearched false more (s.vif i))), none)
  | (some (c, mask), more) => getTxFrame ap e i c mask more (s.setVif i (multicastsSearched true more (s.vif i)))

/-- One turn of the loop of `wsm_get_tx`. -/
def getTxTurn (ap : Nat → Bool) (e : GetTxEnv) (loop : GetTxLoop) (s : PsState) : PsState × Option TxData :=
  if s.txLock ≠ 0 ∨ e.bufsFull then ({ s with loop := none }, none)
  else
    let i := s.ifIdSelected
    let s := { s with ifIdSelected := i ^^^ 1 }
    if !e.up i then (nextTurn loop s, none)
    else if !e.enabled i then ({ s with loop := none }, none)
    else afterFound (ap i) e i loop s (wsmGetTxQueueAndMask (s.prioArg e i) (s.vif i) loop.more)

/-- `wsm_get_tx`: a call begins, or goes on -/
def wsmGetTx (ap : Nat → Bool) (e : GetTxEnv) (s : PsState) : PsState × Option TxData :=
  match s.loop with
  | some loop => getTxTurn ap e loop s
  | none =>
    match s.saveBuf with
    | some vif =>
      if vif = -1 ∨ s.txLock = 0 then ({ s with saveBuf := none }, some (.saved vif)) else (s, none)
    | none => if s.cmd then (s, some .cmd) else getTxTurn ap e ⟨true, false⟩ s

end AtbmWifi
