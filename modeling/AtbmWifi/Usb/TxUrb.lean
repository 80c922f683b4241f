import AtbmWifi.Queue.Driver
import AtbmWifi.Usb.DmaRing

/-!
# Transmission by URBs and what a failed one gives back

`atbm_usb_xmit_data` runs under `tx_com_lock`: it takes an URB, puts the messages `wsm_get_tx`
has into its buffer and submits it.  If the submission fails it gives them back at once.  If the URB
completes with an error, its bit stays set and `atbm_usb_release_tx_err_urb`, at the
beginning of a later `atbm_usb_xmit_data`, gives back what it sees of it.

`account`, `failure`, `freed` and `ended` of an URB and `call` and `erred` of `wsm_cmd` are history:
no step looks at them.  `account` adds up how the steps made for an URB change the counters.
-/

namespace AtbmWifi

open Transition

/-- `CONFIG_USB_AGGR_URB_TX` or not; the confirm mode of either. -/
inductive UsbBuild
  | single
  | aggr
  deriving DecidableEq, Repr

def UsbBuild.frames : UsbBuild → Nat
  | single => 1
  | aggr => perBuffAggrNum * totalDmaBufferCnt

/-- What `wsm_get_tx` may have. -/
inductive TxMsg
  /-- a frame got from its queue for an interface, with `vif_selected` -/
  | data (packetID ifId : Nat)
  /-- the buffer of a call of `wsm_cmd_send` -/
  | cmd (call : Nat)
  /-- `save_buf` of `atbm_firmware_init_check`, which no confirmation answers -/
  | firmwareCheck
  deriving DecidableEq, Repr

def wsmFirmwareCheckId : BitVec 16 := 0x0002#16

/-- `WSM_TX_SEQ` -/
def wsmTxSeqBits (seq : BitVec 3) : BitVec 16 := seq.setWidth 16 <<< 13

/-- Whether the path of a failed submission knows a firmware check by its id, which has the sequence number
in it by then.  The ids of all other messages differ in the lower six bits. -/
def UsbBuild.knowsCheck : UsbBuild → BitVec 3 → Bool
  | single, seq => wsmFirmwareCheckId ||| wsmTxSeqBits seq == wsmFirmwareCheckId
  | aggr, seq => (wsmFirmwareCheckId ||| wsmTxSeqBits seq) &&& 0x3F#16 == wsmFirmwareCheckId

def UsbBuild.skips (b : UsbBuild) (seq : BitVec 3) : TxMsg → Bool
  | .firmwareCheck => b.knowsCheck seq
  | .data _ _ | .cmd _ => false

/-- `tx_urb->data` after the message: `wsm_txed` says that it is a command, a firmware check has none. -/
def TxMsg.urbData : TxMsg → Option Nat
  | data packetID _ => some packetID
  | cmd _ | firmwareCheck => none

/-- Buffers it is counted with in `hw_bufs_used`. -/
def TxMsg.bufs : TxMsg → Int
  | data _ _ | cmd _ => 1
  | firmwareCheck => 0

def TxMsg.ofVif (i : Nat) : TxMsg → Bool
  | data _ ifId => ifId == i
  | cmd _ | firmwareCheck => false

@[ext]
structure UsbCounts where
  hwBufsUsed : Int
  hwBufsUsedVif : Nat → Int
  txHwChanId : BitVec 32
  wsmTxSeq : BitVec 3

def UsbCounts.zero : UsbCounts := ⟨0, fun _ => 0, 0, 0⟩

/-- `a` and the difference between two states of the counters. -/
def UsbCounts.shift (a before after : UsbCounts) : UsbCounts where
  hwBufsUsed := a.hwBufsUsed + (after.hwBufsUsed - before.hwBufsUsed)
  hwBufsUsedVif i := a.hwBufsUsedVif i + (after.hwBufsUsedVif i - before.hwBufsUsedVif i)
  txHwChanId := a.txHwChanId + (after.txHwChanId - before.txHwChanId)
  wsmTxSeq := a.wsmTxSeq + (after.wsmTxSeq - before.wsmTxSeq)

inductive UrbPhase
  /-- its bit of `tx_urb_map` is clear -/
  | free
  | building
  /-- its submission failed; messages to give back -/
  | givingBack (rest : List TxMsg)
  | inFlight
  /-- its completion returned early -/
  | kept
  /-- its bit of `tx_err_urb_map` is set -/
  | failed
  deriving DecidableEq, Repr

/-- `tx_com_lock` is held for it. -/
def UrbPhase.locked : UrbPhase → Bool
  | building | givingBack _ => true
  | free | inFlight | kept | failed => false

structure TxUrb where
  phase : UrbPhase
  /-- the packet id `tx_urb->data` points to -/
  data : Option Nat
  /-- what is in its buffer -/
  msgs : List TxMsg
  /-- its submission or its completion failed -/
  failure : Bool
  account : UsbCounts
  /-- packet ids given to `atbm_usb_free_err_data` -/
  freed : List Nat
  /-- calls of `wsm_cmd_send` that `atbm_usb_free_err_cmd` ended -/
  ended : List Nat

def TxUrb.fresh (phase : UrbPhase) : TxUrb := ⟨phase, none, [], false, .zero, [], []⟩

/-- `hw_priv->wsm_cmd` -/
structure UsbCmd where
  /-- `ptr`: the command is not yet taken -/
  pending : Bool
  done : Bool
  ret : Int
  /-- the last call of `wsm_cmd_send` -/
  call : Nat
  /-- calls that ended with an error -/
  erred : List Nat
  deriving DecidableEq, Repr

def UsbCmd.waiting (c : UsbCmd) : Option Nat := if c.done then none else some c.call

def UsbCmd.fail (c : UsbCmd) : UsbCmd :=
  { c with done := true, ret := -1, erred := c.erred ++ c.waiting.toList }

structure UsbTx where
  counts : UsbCounts
  cmd : UsbCmd
  queues : TxQueues
  urbs : List TxUrb
  /-- messages of URBs that completed, not yet confirmed -/
  device : List TxMsg

/-! ## What the functions do to the counters -/

namespace UsbCounts

/-- `wsm_alloc_tx_buffer_NoLock`, with the release of a firmware check, and `hw_bufs_used_vif[vif_selected]++`. -/
def alloc (m : TxMsg) (c : UsbCounts) : UsbCounts :=
  match m with
  | .data _ ifId => { c with hwBufsUsed := c.hwBufsUsed + 1, hwBufsUsedVif := bump c.hwBufsUsedVif ifId 1 }
  | .cmd _ => { c with hwBufsUsed := c.hwBufsUsed + 1 }
  | .firmwareCheck => { c with hwBufsUsed := c.hwBufsUsed + 1 - 1 }

/-- `wsm_release_tx_buffer_NoLock` -/
def wsmReleaseTxBuffer (count : Int) (c : UsbCounts) : UsbCounts := { c with hwBufsUsed := c.hwBufsUsed - count }

/-- `wsm_release_vif_tx_buffer_Nolock` -/
def wsmReleaseVifTxBuffer (ifId : Nat) (count : Int) (c : UsbCounts) : UsbCounts :=
  let left := c.hwBufsUsedVif ifId - count
  { c with hwBufsUsedVif := Function.update c.hwBufsUsedVif ifId (if left < 0 then 0 else left) }

/-- `tx_hwChanId++` and `wsm_tx_seq + 1` -/
def advance (c : UsbCounts) : UsbCounts := { c with txHwChanId := c.txHwChanId + 1, wsmTxSeq := c.wsmTxSeq + 1 }

/-- `tx_hwChanId--` and `wsm_tx_seq - 1` -/
def rewind (c : UsbCounts) : UsbCounts := { c with txHwChanId := c.txHwChanId - 1, wsmTxSeq := c.wsmTxSeq - 1 }

/-- A message is put into an URB; a single one is sent only when its submission succeeds. -/
def frame (b : UsbBuild) (m : TxMsg) (c : UsbCounts) : UsbCounts :=
  match b with
  | .single => c.alloc m
  | .aggr => (c.alloc m).advance

def submitted (b : UsbBuild) (c : UsbCounts) : UsbCounts :=
  match b with
  | .single => c.advance
  | .aggr => c

def unsent (b : UsbBuild) (c : UsbCounts) : UsbCounts :=
  match b with
  | .single => c
  | .aggr => c.rewind

end UsbCounts

namespace UsbTx

def atbmUsbFreeErrCmd (s : UsbTx) : UsbTx := { s with cmd := s.cmd.fail }

/-- `atbm_queue_get_queue_id`; a `BUG_ON` beyond the four queues. -/
def queueOf (packetID : Nat) : Option (Fin 4) :=
  if h : (atbmQueueParseId packetID).queueId < 4 then some ⟨_, h⟩ else none

def atbmUsbFreeErrData (e : QEnv) (packetID : Nat) (s : UsbTx) : UsbTx :=
  match queueOf packetID with
  | none => s
  | some c =>
    let (v, r) := atbmQueueGetSkb packetID (s.queues.view c)
    let s := { s with queues := s.queues.write c v }
    match r.2 with
    | some (_, txpriv) =>
      { s with
        counts := s.counts.wsmReleaseVifTxBuffer txpriv.ifId.toNat 1
        queues := s.queues.step ⟨c, e, .remove packetID⟩ }
    | none => { s with counts := s.counts.wsmReleaseVifTxBuffer (atbmQueueParseId packetID).ifId 1 }

/-- `atbm_usb_free_err_data` of the frame or, without one, `atbm_usb_free_err_cmd`. -/
def freeErr (e : QEnv) (data : Option Nat) (s : UsbTx) : UsbTx :=
  match data with
  | some packetID => s.atbmUsbFreeErrData e packetID
  | none => s.atbmUsbFreeErrCmd

def wsmReleaseTxBuffer (count : Int) (s : UsbTx) : UsbTx := { s with counts := s.counts.wsmReleaseTxBuffer count }

/-- The URB `u` of `s` becomes `x` and is charged with what has changed since `c`. -/
def charge (u : Nat) (c : UsbCounts) (x : TxUrb) (s : UsbTx) : UsbTx :=
  { s with urbs := s.urbs.set u { x with account := x.account.shift c s.counts } }

/-- A message put into the buffer of `x`. -/
def addFrame (b : UsbBuild) (u : Nat) (x : TxUrb) (m : TxMsg) (s : UsbTx) : UsbTx :=
  { s with counts := s.counts.frame b m }.charge u s.counts { x with data := m.urbData, msgs := x.msgs ++ [m] }

def submitUrb (b : UsbBuild) (u : Nat) (x : TxUrb) (ok : Bool) (s : UsbTx) : UsbTx :=
  match ok with
  | true => { s with counts := s.counts.submitted b }.charge u s.counts { x with phase := .inFlight }
  | false => s.charge u s.counts { x with phase := .givingBack x.msgs, failure := true }

def undo (b : UsbBuild) (e : QEnv) (m : TxMsg) (s : UsbTx) : UsbTx :=
  if b.skips s.counts.wsmTxSeq m = true then s else (s.freeErr e m.urbData).wsmReleaseTxBuffer 1

/-- The calls `s.freeErr` ends. -/
def ends (data : Option Nat) (s : UsbTx) : List Nat :=
  match data with
  | some _ => []
  | none => s.cmd.waiting.toList

/-- One round of the path of a failed submission; after the last one `atbm_usb_urb_put`. -/
def giveBack (b : UsbBuild) (e : QEnv) (u : Nat) (x : TxUrb) (m : TxMsg) (rest : List TxMsg) (s : UsbTx) : UsbTx :=
  let t := { s with counts := s.counts.unsent b }
  (t.undo b e m).charge u s.counts
    { x with
      phase := if rest = [] then .free else .givingBack rest
      data := none
      freed := x.freed ++ m.urbData.toList
      ended := x.ended ++ if b.skips t.counts.wsmTxSeq m = true then [] else s.ends m.urbData }

def releaseTxErrUrb (e : QEnv) (u : Nat) (x : TxUrb) (s : UsbTx) : UsbTx :=
  ({ s with counts := s.counts.rewind }.freeErr e x.data).charge u s.counts
    { x with
      phase := .free
      data := none
      freed := x.freed ++ x.data.toList
      ended := x.ended ++ s.ends x.data }

inductive Completion
  | ok
  /-- with `init_done` clear or `bh_error` set -/
  | early
  | error
  deriving DecidableEq, Repr

/-- `atbm_usb_xmit_data_complete`.  What an URB brought to the device is no longer its own. -/
def complete (u : Nat) (x : TxUrb) (how : Completion) (s : UsbTx) : UsbTx :=
  match how with
  | .ok =>
    { s with
      urbs := s.urbs.set u { x with phase := .free, account := .zero }
      device := s.device ++ x.msgs }
  | .early => s.charge u s.counts { x with phase := .kept }
  | .error => (s.wsmReleaseTxBuffer 1).charge u s.counts { x with phase := .failed, failure := true }

def confirm (m : TxMsg) (s : UsbTx) : UsbTx :=
  let c := s.counts.wsmReleaseTxBuffer m.bufs
  let c := match m with
    | .data _ ifId => c.wsmReleaseVifTxBuffer ifId 1
    | .cmd _ | .firmwareCheck => c
  { s with counts := c, device := s.device.erase m }

/-- The URB `u`. -/
def urb (s : UsbTx) (u : Nat) : TxUrb := (s.urbs[u]?).getD (.fresh .kept)

end UsbTx

inductive UsbAct
  /-- `atbm_usb_urb_get` -/
  | start (u : Nat)
  /-- `wsm_get_tx` has a frame, the save buffer or a command -/
  | frameData (u : Nat) (c : Fin 4) (e : QEnv) (ifId linkIdMap : Nat)
  | frameCheck (u : Nat)
  | frameCmd (u : Nat)
  /-- `wsm_get_tx` has nothing for the URB: `atbm_usb_urb_put` -/
  | leave (u : Nat)
  | submit (u : Nat) (ok : Bool)
  | giveBack (u : Nat) (e : QEnv)
  | release (u : Nat) (e : QEnv)
  | complete (u : Nat) (how : UsbTx.Completion)
  | confirm (m : TxMsg)
  /-- `wsm_cmd_send`, its timeout, and the answer of the firmware -/
  | send
  | timeout
  | answer (ret : Int)
  /-- any operation of the queues -/
  | queue (ev : QEvent)
  /-- other transmissions, such as `__atbm_usb_wsm_send` -/
  | other (bufs : Int) (frames : Nat)

namespace UsbAct

def Enabled (b : UsbBuild) (s : UsbTx) : UsbAct → Prop
  | start u => (∀ x ∈ s.urbs, x.phase.locked = false) ∧ (s.urb u).phase = .free ∧
      s.urbs.findIdx (fun x => x.phase == .free) = u
  | frameData u c _ ifId linkIdMap => (s.urb u).phase = .building ∧ (s.urb u).msgs.length < b.frames ∧
      (selectItem (s.queues.txQueue c) ifId linkIdMap).isSome
  | frameCheck u => (s.urb u).phase = .building ∧ (s.urb u).msgs.length < b.frames
  | frameCmd u => (s.urb u).phase = .building ∧ (s.urb u).msgs.length < b.frames ∧ s.cmd.pending = true
  | leave u => (s.urb u).phase = .building ∧ (s.urb u).msgs = []
  | submit u _ => (s.urb u).phase = .building ∧ (s.urb u).msgs ≠ []
  | giveBack u _ => (s.urb u).phase.locked = true ∧ (s.urb u).phase ≠ .building
  | release u _ => (∀ x ∈ s.urbs, x.phase.locked = false) ∧ (s.urb u).phase = .failed ∧
      s.urbs.findIdx (fun x => x.phase == .failed) = u
  | complete u _ => (s.urb u).phase = .inFlight
  | confirm m => m ∈ s.device ∧ m ≠ .firmwareCheck
  | send => s.cmd.done = true
  | timeout => s.cmd.done = false
  -- the command is with the device
  | answer _ => s.cmd.done = false ∧ s.cmd.pending = false ∧
      ∀ x ∈ s.urbs, x.phase ≠ .free → x.phase ≠ .kept → .cmd s.cmd.call ∉ x.msgs
  | queue ev => Valid s.queues ev ∧ Honest s.queues ev
  | other _ _ => ∀ x ∈ s.urbs, x.phase.locked = false

def next (b : UsbBuild) (s : UsbTx) : UsbAct → UsbTx
  | start u => { s with urbs := s.urbs.set u (.fresh .building) }
  | frameData u c e ifId linkIdMap =>
    match selectItem (s.queues.txQueue c) ifId linkIdMap with
    | some k =>
      { s with queues := s.queues.step ⟨c, e, .get ifId linkIdMap⟩ }.addFrame b u (s.urb u)
        (.data (issuedId (s.queues.txQueue c) k) ifId)
    | none => s
  | frameCheck u => s.addFrame b u (s.urb u) .firmwareCheck
  | frameCmd u => { s with cmd := { s.cmd with pending := false } }.addFrame b u (s.urb u) (.cmd s.cmd.call)
  | leave u => { s with urbs := s.urbs.set u { s.urb u with phase := .free } }
  | submit u ok => s.submitUrb b u (s.urb u) ok
  | giveBack u e =>
    match (s.urb u).phase with
    | .givingBack (m :: rest) => s.giveBack b e u (s.urb u) m rest
    | _ => s
  | release u e => s.releaseTxErrUrb e u (s.urb u)
  | complete u how => s.complete u (s.urb u) how
  | confirm m => s.confirm m
  | send => { s with cmd := { s.cmd with pending := true, done := false, call := s.cmd.call + 1 } }
  | timeout => { s with cmd := { s.cmd.fail with pending := false } }
  | answer ret => { s with cmd := { s.cmd with done := true, ret := ret } }
  | queue ev => { s with queues := s.queues.step ev }
  | other bufs frames =>
    { s with
      counts :=
        { s.counts with
          hwBufsUsed := s.counts.hwBufsUsed + bufs
          txHwChanId := s.counts.txHwChanId + frames
          wsmTxSeq := s.counts.wsmTxSeq + frames } }

instance decEnabled (b : UsbBuild) (s : UsbTx) : (a : UsbAct) → Decidable (a.Enabled b s)
  | start _ | frameData _ _ _ _ _ | frameCheck _ | frameCmd _ | leave _ | submit _ _ | giveBack _ _
  | release _ _ | complete _ _ | confirm _ | send | timeout | answer _ | queue _ | other _ _ => by
    unfold Enabled
    infer_instance

end UsbAct

/-- `n` URBs, before the first transmission. -/
def usbTxStart (n : Nat) (ttl : Fin 4 → Int) : UsbTx where
  counts := .zero
  cmd := ⟨false, true, 0, 0, []⟩
  queues := .start ttl
  urbs := List.replicate n (.fresh .free)
  device := []

/-- All runs with `n` URBs. -/
def usbTxs (b : UsbBuild) (n : Nat) : Sys UsbTx UsbAct :=
  .ofNext (fun s => ∃ ttl, s = usbTxStart n ttl) (fun s a => a.Enabled b s) (UsbAct.next b)

end AtbmWifi
