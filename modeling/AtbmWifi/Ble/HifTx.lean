import AtbmWifi.Lib.Holders
import AtbmWifi.Lib.Transition

/-!
# The transmit queue of the BLE host interface

`ble_hci_trans_hs_cmd_tx` and `ble_hci_trans_hs_acl_tx` link a node to `hif_tx_pkt` and
then run the loop of `atbm_ble_dev_schedule_tx`, which takes the first node, whose ever it
is, copies its packet to `ble_xmit_buff` and writes that to the driver, all under
`sem_ioctl_stat`; the packet and the node are freed after that.  Callers are steps of a
list of calls, each with its own place in the code, interleaved in any way.  A step that
the source takes in `OS_ENTER_CRITICAL` is one step here.

The build is that with `CONFIG_BLE_ADV_CFG=0`.
-/

namespace AtbmWifi

open Transition

/-- `struct os_mbuf`; `omData` are its `om_len` octets, `leadingSpace` is `OS_MBUF_LEADINGSPACE`. -/
structure OsMbuf where
  id : Nat
  omData : List UInt8
  pkthdrLen : Nat
  leadingSpace : Nat
  deriving DecidableEq, Repr

/-- What `os_mbuf_trim_front` leaves of the chain `om :: rest`. -/
structure OsTrimmed where
  /-- the mbufs it has freed -/
  freed : List OsMbuf
  /-- what follows `om` -/
  rest : List OsMbuf
  /-- `om` is among the freed, and its packet header has gone to the next -/
  moved : Bool
  deriving DecidableEq, Repr

/-- The loop of `os_mbuf_trim_front` over the empty mbufs. -/
def osMbufTrimEmpty : List OsMbuf → List OsMbuf × List OsMbuf
  | [] => ([], [])
  | cur :: next =>
    if cur.omData.length = 0 then
      let (freed, rest) := osMbufTrimEmpty next
      (cur :: freed, rest)
    else ([], cur :: next)

def osMbufTrimFront (om : OsMbuf) (rest : List OsMbuf) : OsTrimmed :=
  if om.omData.length ≠ 0 then ⟨[], rest, false⟩
  else
    let (freed, rest) := osMbufTrimEmpty rest
    match rest with
    | [] => ⟨freed, [], false⟩
    | cur :: _ => if om.pkthdrLen ≤ cur.leadingSpace then ⟨freed ++ [om], rest, true⟩ else ⟨freed, rest, false⟩

/-- A command in its buffer of `BLE_HCI_TRANS_CMD_SZ` octets. -/
structure HciCmd where
  buf : Nat
  data : List UInt8
  room : data.length = 260
  deriving DecidableEq, Repr

/-- `data[2] + BLE_HCI_CMD_HDR_LEN` -/
def HciCmd.txLen (cmd : HciCmd) : Nat := (cmd.data.getD 2 0).toNat + 3

inductive HifData
  /-- `BLE_HCI_HIF_CMD` -/
  | cmd (cmd : HciCmd)
  /-- `BLE_HCI_HIF_ACL`: a chain with its packet header in front -/
  | acl (om : OsMbuf) (rest : List OsMbuf)
  deriving DecidableEq, Repr

inductive HifItem
  | cmdBuf (buf : Nat)
  | mbuf (id : Nat)
  deriving DecidableEq, Repr

def OsMbuf.item (om : OsMbuf) : HifItem := .mbuf om.id

namespace HifData

def type : HifData → UInt8
  | .cmd _ => 1
  | .acl _ _ => 2

def bytes : HifData → List UInt8
  | .cmd c => c.data.take c.txLen
  | .acl om rest => (om :: rest).flatMap OsMbuf.omData

def items : HifData → List HifItem
  | .cmd c => [.cmdBuf c.buf]
  | .acl om rest => (om :: rest).map OsMbuf.item

end HifData

structure HifPkt where
  node : Nat
  data : HifData
  deriving DecidableEq, Repr

inductive HifPc
  /-- before `os_memblock_get`; `pktLen` is `OS_MBUF_PKTLEN` of an ACL packet -/
  | enter (data : HifData) (pktLen : Nat)
  /-- before `STAILQ_INSERT_TAIL` -/
  | insert (pkt : HifPkt)
  /-- at `flush` -/
  | wait
  | get
  | clear (pkt : HifPkt)
  | copy (pkt : HifPkt)
  /-- in the loop over the chain -/
  | copyAcl (pkt : HifPkt) (om : List OsMbuf) (putLen txLen : Nat)
  | setLen (pkt : HifPkt) (putLen : Nat)
  | ioctl (pkt : HifPkt)
  | post (pkt : HifPkt)
  | freeData (pkt : HifPkt)
  | freeNode (node : Nat)
  /-- at `pkt_null` -/
  | postNull
  | done (rc : Nat)
  /-- the endless loop of `ATBM_BUG_ON` -/
  | bug (pkt : HifPkt)
  /-- a failed `assert` of `os_memblock_put` -/
  | abort (node : Nat)
  deriving DecidableEq, Repr

structure HifTx where
  /-- free nodes of `ble_hci_hif_pkt_pool` -/
  pool : List Nat
  hifTxPkt : List HifPkt
  /-- who has decremented `sem_ioctl_stat`; its value is 1 when nobody has -/
  sem : Option Nat
  xmitBuff : List UInt8
  calls : List HifPc
  /-- history: what the callers have handed over, and what was given back to the pools -/
  given : List HifItem
  returned : List HifItem
  /-- history: type and octets of what was linked to the queue -/
  accepted : List (List UInt8)
  /-- history: the buffers of the ioctls -/
  written : List (List UInt8)

def bleErrMemCapacity : Nat := 0x07

def hciAclShareSize : Nat := 1538

def xmitBuffSize : Nat := 2048

/-- `memcpy(&buf[off], bs, ..)` -/
def blit (off : Nat) (bs buf : List UInt8) : List UInt8 := buf.take off ++ bs ++ buf.drop (off + bs.length)

/-- A `u16` in the octets of the machine. -/
def u16Octets (n : Nat) : List UInt8 := [UInt8.ofNat n, UInt8.ofNat (n / 256)]

def HifData.body (d : HifData) : List UInt8 := d.type :: d.bytes

def hifFrame (body : List UInt8) : List UInt8 :=
  u16Octets body.length ++ body ++ List.replicate (xmitBuffSize - 2 - body.length) 0

namespace HifTx

def goto (i : Nat) (pc : HifPc) (s : HifTx) : HifTx := { s with calls := s.calls.set i pc }

def free (items : List HifItem) (s : HifTx) : HifTx := { s with returned := s.returned ++ items }

/-- The beginning of `ble_hci_trans_hs_cmd_tx` and, after its test, of `ble_hci_trans_hs_acl_tx`. -/
def osMemblockGet (i : Nat) (d : HifData) (s : HifTx) : HifTx :=
  match s.pool with
  | [] => (s.free d.items).goto i (.done bleErrMemCapacity)
  | node :: pool => { s with pool }.goto i (.insert ⟨node, d⟩)

def enter (i : Nat) (d : HifData) (pktLen : Nat) (s : HifTx) : HifTx :=
  match d with
  | .cmd _ => s.osMemblockGet i d
  | .acl _ _ => if pktLen = 0 then (s.free d.items).goto i (.done 0) else s.osMemblockGet i d

def insertTail (i : Nat) (pkt : HifPkt) (s : HifTx) : HifTx :=
  { s with hifTxPkt := s.hifTxPkt ++ [pkt], accepted := s.accepted ++ [pkt.data.body] }.goto i .wait

def bleHciTransTxPktGet (i : Nat) (s : HifTx) : HifTx :=
  match s.hifTxPkt with
  | [] => s.goto i .postNull
  | pkt :: q => { s with hifTxPkt := q }.goto i (.clear pkt)

/-- `_ble_hci_trans_copy_data` up to the loop over the chain -/
def bleHciTransCopyData (i : Nat) (pkt : HifPkt) (s : HifTx) : HifTx :=
  let s := { s with xmitBuff := blit 2 [pkt.data.type] s.xmitBuff }
  match pkt.data with
  | .cmd c =>
    { s with xmitBuff := blit 3 (c.data.take c.txLen) s.xmitBuff }.goto i (.setLen pkt (1 + c.txLen))
  | .acl om rest =>
    let trimmed := osMbufTrimFront om rest
    -- `tx_pkt->data` still points to `om`, whose `om_next` is what it was linked to last
    let pkt := { pkt with data := .acl om trimmed.rest }
    let om := if trimmed.moved then trimmed.rest else om :: trimmed.rest
    (s.free (trimmed.freed.map OsMbuf.item)).goto i (.copyAcl pkt om 1 0)

/-- One round of the loop of `_ble_hci_trans_copy_data`. -/
def copyMbuf (i : Nat) (pkt : HifPkt) (om : List OsMbuf) (putLen txLen : Nat) (s : HifTx) : HifTx :=
  match om with
  | [] => s.goto i (.setLen pkt putLen)
  | m :: om =>
    if hciAclShareSize < txLen + m.omData.length then s.goto i (.bug pkt)
    else { s with xmitBuff := blit (2 + putLen) m.omData s.xmitBuff }.goto i
      (.copyAcl pkt om (putLen + m.omData.length) (txLen + m.omData.length))

def osMemblockPut (i node : Nat) (s : HifTx) : HifTx :=
  if node ∈ s.pool then s.goto i (.abort node) else { s with pool := node :: s.pool }.goto i .wait

/-- What call `i`, which is at `pc`, does next. -/
def run (i : Nat) (s : HifTx) : HifPc → HifTx
  | .enter d pktLen => s.enter i d pktLen
  | .insert pkt => s.insertTail i pkt
  | .wait => { s with sem := some i }.goto i .get
  | .get => s.bleHciTransTxPktGet i
  | .clear pkt => { s with xmitBuff := List.replicate xmitBuffSize 0 }.goto i (.copy pkt)
  | .copy pkt => s.bleHciTransCopyData i pkt
  | .copyAcl pkt om putLen txLen => s.copyMbuf i pkt om putLen txLen
  | .setLen pkt putLen => { s with xmitBuff := blit 0 (u16Octets putLen) s.xmitBuff }.goto i (.ioctl pkt)
  | .ioctl pkt => { s with written := s.written ++ [s.xmitBuff] }.goto i (.post pkt)
  | .post pkt => { s with sem := none }.goto i (.freeData pkt)
  | .freeData pkt => (s.free pkt.data.items).goto i (.freeNode pkt.node)
  | .freeNode node => s.osMemblockPut i node
  | .postNull => { s with sem := none }.goto i (.done 0)
  | .done _ | .bug _ | .abort _ => s

end HifTx

def HifPc.ready (sem : Option Nat) : HifPc → Bool
  | .wait => sem.isNone
  | .done _ | .bug _ | .abort _ => false
  | _ => true

inductive HifAct
  /-- `ble_hci_trans_hs_cmd_tx`, `ble_hci_trans_hs_acl_tx` -/
  | call (data : HifData) (pktLen : Nat)
  | step (i : Nat)
  deriving DecidableEq, Repr

def HifAct.enabled (s : HifTx) : HifAct → Prop
  | .call _ _ => True
  | .step i => (s.calls[i]?.map (HifPc.ready s.sem)) = some true

def HifAct.next (s : HifTx) : HifAct → HifTx
  | .call d pktLen => { s with calls := s.calls ++ [.enter d pktLen], given := s.given ++ d.items }
  | .step i =>
    match s.calls[i]? with
    | none => s
    | some pc => s.run i pc

instance HifAct.decEnabled (s : HifTx) : ∀ a : HifAct, Decidable (a.enabled s)
  | .call _ _ => inferInstanceAs (Decidable True)
  | .step i => inferInstanceAs (Decidable ((s.calls[i]?.map (HifPc.ready s.sem)) = some true))

/-- After `ble_hci_ram_init` and `hif_ioctl_init`, with the nodes of `ble_hci_hif_pkt_pool`. -/
def hifTxStart (nodes : List Nat) : HifTx where
  pool := nodes
  hifTxPkt := []
  sem := none
  xmitBuff := List.replicate xmitBuffSize 0
  calls := []
  given := []
  returned := []
  accepted := []
  written := []

def hifSending (nodes : List Nat) : Sys HifTx HifAct :=
  .ofNext (fun s => s = hifTxStart nodes) HifAct.enabled HifAct.next

end AtbmWifi
