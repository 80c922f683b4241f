import AtbmWifi.Lib.RingBuf
import AtbmWifi.Lib.Transition

/-!
# The DMA buffers of aggregated transmission

With `CONFIG_USB_AGGR_URB_TX` the frames of an URB are copied one after the other to DMA
buffers of a ring, `PER_BUFF_AGGR_NUM` frames to a buffer.  `atbm_usb_xmit_data` takes the
buffers at `NextAllocPost` as it needs them and submits the URB; its completion, or the
failed submission, gives them back at `NextFreePost`.  `tx_com_lock` lets one caller at a
time into `atbm_usb_xmit_data`; completions come in between its steps.

Buffers are numbered from `tx_dma_addr_buffer` on, and `usb_aggr_buff` counts frames from
there.
-/

namespace AtbmWifi

open Transition RingBuf

def perPacketLen : Nat := 2048

def perBuffAggrNum : Nat := 8

def buffAllocLen : Nat := perBuffAggrNum * perPacketLen

def aggrTxUrbNum : Nat := 4

/-- `total_dma_buffer_cnt` with the lengths of the source -/
def totalDmaBufferCnt : Nat := 2048 * aggrTxUrbNum * 16 / buffAllocLen

/-- What `struct sbus_urb` has of the buffers of an URB. -/
structure DmaUrb where
  /-- `pallocated_buf` -/
  start : Nat
  dmaBuffAlloced : Nat
  frameCnt : Nat
  pallocatedBufLen : Nat
  deriving DecidableEq, Repr

/-- Where `atbm_usb_xmit_data` is. -/
inductive AggrPc
  | idle
  /-- before `wsm_get_tx`, with `usb_aggr_buff` -/
  | fetch (u : DmaUrb) (aggr : Option Nat)
  /-- before `atbm_xmit_linearize` of a frame of `len` octets -/
  | copy (u : DmaUrb) (aggr len : Nat)
  /-- before `atbm_usb_pick_txDMABuf` of the next buffer -/
  | pick (u : DmaUrb)
  | submit (u : DmaUrb)
  deriving DecidableEq, Repr

structure DmaRing where
  nextAlloc : Nat
  nextFree : Nat
  /-- `tx_dma_addr_buffer_full` -/
  full : Bool
  freeDmaBufferCnt : Nat
  /-- URBs whose completion returned early: they are not put and their buffers not given back -/
  kept : List DmaUrb
  /-- submitted URBs, in the order of their submissions -/
  inFlight : List DmaUrb
  pc : AggrPc
  /-- a `BUG_ON` -/
  bug : Bool
  deriving DecidableEq, Repr

namespace DmaRing

def atbmUsbPickTxDMABuf (s : DmaRing) : Option Nat :=
  if s.nextAlloc = s.nextFree ∧ s.full = true then none else some s.nextAlloc

def atbmUsbGetTxDMABuf (n : Nat) (s : DmaRing) : Option Nat × DmaRing :=
  if s.nextAlloc = s.nextFree ∧ s.full = true then (none, s)
  -- `free_dma_buffer_cnt` would get negative
  else if s.freeDmaBufferCnt = 0 then (none, { s with bug := true })
  else
    let next := wrap n (s.nextAlloc + 1)
    (some s.nextAlloc,
      { s with
        freeDmaBufferCnt := s.freeDmaBufferCnt - 1
        nextAlloc := next
        full := s.full || decide (next = s.nextFree) })

def atbmUsbFreeTxDMABuf (n : Nat) (s : DmaRing) : DmaRing :=
  if s.nextAlloc = s.nextFree ∧ s.full = false then s
  else
    let s := if s.nextAlloc = s.nextFree then { s with full := false } else s
    if n < s.freeDmaBufferCnt + 1 then { s with freeDmaBufferCnt := s.freeDmaBufferCnt + 1, bug := true }
    else
      { s with
        freeDmaBufferCnt := s.freeDmaBufferCnt + 1
        nextFree := if s.nextFree + 1 = n then 0 else s.nextFree + 1 }

/-- The loop of `atbm_usb_free_txDMABuf_all`. -/
def freeLoop (n : Nat) : Nat → DmaRing → DmaRing
  | 0, s => s
  | cnt + 1, s => freeLoop n cnt (s.atbmUsbFreeTxDMABuf n)

def atbmUsbFreeTxDMABufAll (n buffer cnt : Nat) (s : DmaRing) : DmaRing :=
  if buffer ≠ s.nextFree then { s with bug := true } else freeLoop n cnt s

def xmitData (s : DmaRing) : DmaRing :=
  -- `atbm_usb_urb_get`
  if aggrTxUrbNum ≤ s.kept.length + s.inFlight.length then s
  else match s.atbmUsbPickTxDMABuf with
    | none => s
    | some buf => { s with pc := .fetch ⟨buf, 0, 0, 0⟩ none }

def leave (u : DmaUrb) (s : DmaRing) : DmaRing :=
  if u.pallocatedBufLen = 0 then { s with pc := .idle } else { s with pc := .submit u }

/-- `wsm_get_tx`, which may have a frame of some length, and `atbm_usb_get_txDMABuf` for the first of a buffer. -/
def getTx (n : Nat) (u : DmaUrb) (aggr frame : Option Nat) (s : DmaRing) : DmaRing :=
  match frame, aggr with
  | none, _ => s.leave u
  | some len, some aggr => { s with pc := .copy u aggr len }
  | some len, none =>
    match s.atbmUsbGetTxDMABuf n with
    | (none, t) => { t with bug := true }
    | (some buf, t) =>
      { t with pc := .copy { u with dmaBuffAlloced := u.dmaBuffAlloced + 1 } (buf * perBuffAggrNum) len }

/-- The rest of a round, with the frame in its place.  `last`: the `break` of the `CONFIG_TX_NO_CONFIRM` build
after a command. -/
def copied (n : Nat) (u : DmaUrb) (aggr : Nat) (last : Bool) (s : DmaRing) : DmaRing :=
  let u := { u with frameCnt := u.frameCnt + 1, pallocatedBufLen := u.pallocatedBufLen + perPacketLen }
  if last then s.leave u
  else if perBuffAggrNum * u.dmaBuffAlloced ≤ u.frameCnt then
    if n * perBuffAggrNum ≤ aggr + 1 then s.leave u else { s with pc := .pick u }
  else { s with pc := .fetch u (some (aggr + 1)) }

def pickNext (u : DmaUrb) (s : DmaRing) : DmaRing :=
  match s.atbmUsbPickTxDMABuf with
  | none => s.leave u
  | some _ => { s with pc := .fetch u none }

def submitUrb (n : Nat) (u : DmaUrb) (ok : Bool) (s : DmaRing) : DmaRing :=
  if ok then { s with inFlight := s.inFlight ++ [u], pc := .idle }
  else { s with pc := .idle }.atbmUsbFreeTxDMABufAll n u.start u.dmaBuffAlloced

def atbmUsbXmitDataComplete (n : Nat) (gives : Bool) (s : DmaRing) : DmaRing :=
  match s.inFlight with
  | [] => s
  | u :: l =>
    if gives then { s with inFlight := l }.atbmUsbFreeTxDMABufAll n u.start u.dmaBuffAlloced
    else { s with inFlight := l, kept := s.kept ++ [u] }

end DmaRing

/-- `atbm_usb_xmit_data_complete` comes to `atbm_usb_free_txDMABuf_all`. -/
def xmitDataGives (hwPriv statusOk initDone bhError : Bool) : Bool :=
  hwPriv && (!statusOk || initDone && !bhError)

inductive DmaAct
  | xmitData
  | getTx (frame : Option Nat)
  | copy (last : Bool)
  | pick
  | submit (ok : Bool)
  | complete (hwPriv statusOk initDone bhError : Bool)
  deriving DecidableEq, Repr

def DmaAct.enabled (s : DmaRing) (a : DmaAct) : Prop :=
  s.bug = false ∧
    match a, s.pc with
    | .xmitData, .idle => True
    | .getTx _, .fetch _ _ => True
    | .copy _, .copy _ _ _ => True
    | .pick, .pick _ => True
    | .submit _, .submit _ => True
    | .complete _ _ _ _, _ => s.inFlight ≠ []
    | _, _ => False

def DmaAct.next (n : Nat) (s : DmaRing) (a : DmaAct) : DmaRing :=
  match a, s.pc with
  | .xmitData, .idle => s.xmitData
  | .getTx frame, .fetch u aggr => s.getTx n u aggr frame
  | .copy last, .copy u aggr _ => s.copied n u aggr last
  | .pick, .pick u => s.pickNext u
  | .submit ok, .submit u => s.submitUrb n u ok
  | .complete hwPriv statusOk initDone bhError, _ =>
    s.atbmUsbXmitDataComplete n (xmitDataGives hwPriv statusOk initDone bhError)
  | _, _ => s

instance DmaAct.decEnabled (s : DmaRing) (a : DmaAct) : Decidable (a.enabled s) := by
  unfold DmaAct.enabled
  exact @instDecidableAnd _ _ _ (by split <;> infer_instance)

/-- After `atbm_usb_urb_malloc` -/
def dmaRingStart (n : Nat) : DmaRing where
  nextAlloc := 0
  nextFree := 0
  full := false
  freeDmaBufferCnt := n
  kept := []
  inFlight := []
  pc := .idle
  bug := false

def dmaRings (n : Nat) : Sys DmaRing DmaAct :=
  .ofNext (fun s => s = dmaRingStart n) DmaAct.enabled (DmaAct.next n)

end AtbmWifi
