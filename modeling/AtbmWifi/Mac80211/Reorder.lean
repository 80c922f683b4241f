import Mathlib.Data.Nat.ModEq
import AtbmWifi.Lib.Transition

/-!
# The receive reorder buffer

In a block-ack session `ieee80211_sta_manage_reorder_buf` keeps the frames that come early in a ring of `buf_size`
slots, the window behind `head_seq_num`; it, and the timer, hand on what is in turn.  The functions run one after
the other, under `reorder_lock`.  `pos` counts how far the head has come since `ssn`, and a stored frame carries its
number on this scale.
-/

namespace AtbmWifi

open Transition

/-- What `rx.c` reads of a QoS data frame of the station and TID. -/
structure AmpduSkb where
  seqCtrl : BitVec 16
  len : Nat
  /-- `ieee80211_frame_eapol` -/
  isEapol : Bool
  /-- `IEEE80211_STYPE_NULLFUNC` -/
  nullfunc : Bool
  /-- `RX_FLAG_QOS_DUP` -/
  qosDup : Bool
  deriving DecidableEq, Repr

namespace AmpduSkb

def seqNum (skb : AmpduSkb) : Nat := skb.seqCtrl.toNat / 16

def fragmented (skb : AmpduSkb) : Bool := skb.seqCtrl.toNat % 16 != 0

end AmpduSkb

def seqModulo : Nat := 0x1000

def seqSub (sq1 sq2 : Nat) : Nat := (((sq1 : Int) - sq2) % seqModulo).toNat

def seqLess (sq1 sq2 : Nat) : Bool := seqModulo / 2 < seqSub sq1 sq2

def seqInc (sq : Nat) : Nat := (sq + 1) % seqModulo

/-- How a frame comes to the handlers. -/
inductive RxRelease
  | inOrder
  /-- the EAPOL frame behind one that is missing -/
  | early
  /-- from before the window -/
  | late
  /-- without a session, or a QoS null frame -/
  | plain
  deriving DecidableEq, Repr

structure RxReorder where
  /-- `tid_rx` is set -/
  session : Bool
  reorderBuf : Nat → Option (Nat × AmpduSkb)
  reorderTime : Nat → Nat
  ssn : Nat
  headSeqNum : Nat
  bufSize : Nat
  storedMpduNum : Nat
  reorderTimer : Option Nat
  staShortTcpRxCnt : Nat
  htRxReorderBufTimeout : Nat
  pos : Nat
  frames : List (RxRelease × Nat × AmpduSkb)
  freed : List AmpduSkb
  /-- the fragments for `sdata->work` -/
  work : List AmpduSkb

namespace RxReorder

def advance (k : Nat) (s : RxReorder) : RxReorder :=
  { s with headSeqNum := (s.headSeqNum + k) % seqModulo, pos := s.pos + k }

def pass (how : RxRelease) (n : Nat) (skb : AmpduSkb) (s : RxReorder) : RxReorder :=
  { s with frames := s.frames ++ [(how, n, skb)] }

def slotOf (sq : Nat) (s : RxReorder) : Nat := seqSub sq s.ssn % s.bufSize

/-- What is stored in a slot, if anything, out of it. -/
def take (index : Nat) (s : RxReorder) : RxReorder :=
  { s with
    storedMpduNum := s.storedMpduNum - (s.reorderBuf index).isSome.toNat
    reorderBuf := Function.update s.reorderBuf index none
    frames := s.frames ++ (s.reorderBuf index).toList.map (RxRelease.inOrder, ·) }

def releaseReorderFrame (index : Nat) (s : RxReorder) : RxReorder := (s.take index).advance 1

def releaseReorderFrames (headSeqNum : Nat) : Nat → RxReorder → RxReorder
  | 0, s => s
  | fuel + 1, s =>
    if seqLess s.headSeqNum headSeqNum then
      releaseReorderFrames headSeqNum fuel (s.releaseReorderFrame (s.slotOf s.headSeqNum))
    else s

/-- The loop over the slots behind an empty head, and the slot the timer is set for when it is left early. -/
def releaseTimedOut (jiffies index : Nat) : Nat → Nat → Nat → RxReorder → RxReorder × Option Nat
  | 0, _, _, s => (s, none)
  | fuel + 1, j, skipped, s =>
    if j = index then (s, none)
    else if (s.reorderBuf j).isNone then
      releaseTimedOut jiffies index fuel ((j + 1) % s.bufSize) (skipped + 1) s
    else if skipped ≠ 0 ∧ ¬s.reorderTime j + s.htRxReorderBufTimeout < jiffies then (s, some j)
    else releaseTimedOut jiffies index fuel ((j + 1) % s.bufSize) 0 ((s.releaseReorderFrame j).advance skipped)

def releaseRun : Nat → RxReorder → RxReorder
  | 0, s => s
  | fuel + 1, s =>
    if (s.reorderBuf (s.slotOf s.headSeqNum)).isSome then
      releaseRun fuel (s.releaseReorderFrame (s.slotOf s.headSeqNum))
    else s

def findStored (stop : Int) : Nat → Nat → RxReorder → Nat
  | 0, j, _ => j
  | fuel + 1, j, s =>
    if (j : Int) = stop ∨ (s.reorderBuf j).isSome then j else findStored stop fuel ((j + 1) % s.bufSize) s

def setReleaseTimer (j : Nat) (s : RxReorder) : RxReorder :=
  { s with reorderTimer := some (s.reorderTime j + 1 + s.htRxReorderBufTimeout) }

def armTimer (s : RxReorder) : RxReorder :=
  if s.storedMpduNum ≠ 0 then
    let index := s.slotOf s.headSeqNum
    s.setReleaseTimer (s.findStored (((index : Int) - 1).tmod s.bufSize) s.bufSize index)
  else { s with reorderTimer := none }

def staReorderRelease (jiffies : Nat) (s : RxReorder) : RxReorder :=
  let index := s.slotOf s.headSeqNum
  if (s.reorderBuf index).isNone ∧ s.storedMpduNum ≠ 0 then
    match s.releaseTimedOut jiffies index s.bufSize ((index + 1) % s.bufSize) 1 with
    | (t, some j) => t.setReleaseTimer j
    | (t, none) => t.armTimer
  else (s.releaseRun s.bufSize).armTimer

def setShort (hz cnt : Nat) (s : RxReorder) : RxReorder :=
  if cnt < 20 then { s with staShortTcpRxCnt := 0, htRxReorderBufTimeout := hz / 2 }
  else { s with staShortTcpRxCnt := cnt }

def countShort (hz : Nat) (skb : AmpduSkb) (s : RxReorder) : RxReorder :=
  if skb.len < 150 then
    if 50 < s.staShortTcpRxCnt + 1 then { s with staShortTcpRxCnt := 50, htRxReorderBufTimeout := hz / 4 }
    else { s with staShortTcpRxCnt := s.staShortTcpRxCnt + 1 }
  else s.setShort hz (if 20 ≤ s.staShortTcpRxCnt then s.staShortTcpRxCnt - 20 else s.staShortTcpRxCnt)

def store (jiffies : Nat) (skb : AmpduSkb) (s : RxReorder) : RxReorder :=
  { s with
    reorderBuf := Function.update s.reorderBuf (s.slotOf skb.seqNum) (some (s.pos + seqSub skb.seqNum s.headSeqNum, skb))
    reorderTime := Function.update s.reorderTime (s.slotOf skb.seqNum) jiffies
    storedMpduNum := s.storedMpduNum + 1 }

/-- Previous frames are released when the frame is beyond the window. -/
def makeRoom (skb : AmpduSkb) (s : RxReorder) : RxReorder :=
  if seqLess skb.seqNum (s.headSeqNum + s.bufSize) then s
  else s.releaseReorderFrames (seqInc (seqSub skb.seqNum s.bufSize)) seqModulo

/-- A frame that is in the window. -/
def insert (jiffies : Nat) (skb : AmpduSkb) (s : RxReorder) : RxReorder :=
  if (s.reorderBuf (s.slotOf skb.seqNum)).isSome then { s with freed := s.freed ++ [skb] }
  else if skb.seqNum = s.headSeqNum ∧ s.storedMpduNum = 0 then (s.pass .inOrder s.pos skb).advance 1
  else if skb.isEapol ∧ skb.seqNum = s.headSeqNum + 1 ∧ s.storedMpduNum = 0 then
    (s.pass .early (s.pos + 1) skb).advance 1
  else (s.store jiffies skb).staReorderRelease jiffies

def staManageReorderBuf (jiffies : Nat) (skb : AmpduSkb) (s : RxReorder) : RxReorder :=
  if seqLess skb.seqNum s.headSeqNum then
    if skb.qosDup then { s with freed := s.freed ++ [skb] } else s.pass .late 0 skb
  else (s.makeRoom skb).insert jiffies skb

def rxReorderAmpdu (hz jiffies : Nat) (skb : AmpduSkb) (s : RxReorder) : RxReorder :=
  if !s.session || skb.nullfunc then s.pass .plain 0 skb
  else if skb.fragmented then { s with work := s.work ++ [skb] }
  else (s.countShort hz skb).staManageReorderBuf jiffies skb

/-- The frames in the ring. -/
def stored (s : RxReorder) : List AmpduSkb := (List.range s.bufSize).filterMap fun i => (s.reorderBuf i).map Prod.snd

end RxReorder

inductive ReorderAct
  | rx (jiffies : Nat) (skb : AmpduSkb)
  /-- `ieee80211_release_reorder_timeout` -/
  | timeout (jiffies : Nat)
  /-- `___ieee80211_stop_rx_ba_session` with `ieee80211_free_tid_rx` -/
  | stop
  deriving DecidableEq, Repr

/-- The frame that arrives. -/
def ReorderAct.frame : ReorderAct → Option AmpduSkb
  | rx _ skb => some skb
  | timeout _ | stop => none

def ReorderAct.next (hz : Nat) (s : RxReorder) : ReorderAct → RxReorder
  | rx jiffies skb => s.rxReorderAmpdu hz jiffies skb
  | timeout jiffies => if s.session then RxReorder.staReorderRelease jiffies { s with reorderTimer := none } else s
  | stop =>
    { s with
      session := false
      freed := s.freed ++ s.stored
      reorderBuf := fun _ => none
      storedMpduNum := 0
      reorderTimer := none }

/-- After `ieee80211_process_addba_request`, with the timeout as it is loaded. -/
def reorderStart (hz ssn bufSize : Nat) : RxReorder where
  session := true
  reorderBuf := fun _ => none
  reorderTime := fun _ => 0
  ssn := ssn
  headSeqNum := ssn
  bufSize := bufSize
  storedMpduNum := 0
  reorderTimer := none
  staShortTcpRxCnt := 0
  htRxReorderBufTimeout := hz / 10
  pos := 0
  frames := []
  freed := []
  work := []

/-- The session of a request with this `ssn` and buffer size. -/
def reorderSys (hz ssn bufSize : Nat) : Sys RxReorder ReorderAct :=
  .ofNext (· = reorderStart hz ssn bufSize) (fun _ _ => True) (ReorderAct.next hz)

end AtbmWifi
