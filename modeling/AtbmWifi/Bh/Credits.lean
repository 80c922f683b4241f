import Mathlib.Data.Multiset.AddSub
import Mathlib.Data.Multiset.Count
import Mathlib.Logic.Function.Basic
import AtbmWifi.Lib.Transition

/-!
# Device buffer credits (SDIO, confirm mode)

The device has `numInpChBufs` input buffers.  `hw_bufs_used` counts messages
handed over, `hw_bufs_free` what the transmit thread believes it may still send;
it is refreshed from the former only when it has run out.  Three threads work on
the two: `atbm_sdio_tx_bh`, the receive thread and the caller of
`wsm_release_buffer_to_fw`.  A step is one section of `tx_com_lock`, an unlocked
read, or a bus write.

`device` is the firmware's side: messages written to it and not yet confirmed.
The bus is not torn down, so writes of `atbm_sdio_tx_bh` succeed.
-/

namespace AtbmWifi

open Transition

inductive HifMsg
  /-- a WSM command, or the firmware check -/
  | cmd
  /-- a data frame, with the interface of its packet id -/
  | data (ifId : Nat)
  /-- `WSM_GIVE_BUFFER_REQ_ID` -/
  | giveBuffer
  deriving DecidableEq, Repr

def HifMsg.vifSelected : HifMsg → Option Nat
  | .data i => some i
  | _ => none

/-- Where `atbm_sdio_tx_bh` is. -/
inductive TxPc
  | idle
  /-- `atbm_sdio_have_enough_space` said yes -/
  | enough
  /-- `wsm_get_tx` chose a message -/
  | got (m : HifMsg)
  /-- after `wsm_alloc_tx_buffer` -/
  | alloced (m : HifMsg)
  /-- after the section that takes the credit -/
  | credited (m : HifMsg)
  deriving DecidableEq, Repr

/-- Where `wsm_release_buffer_to_fw` is: in iteration `i` of `count`. -/
inductive GivePc
  | idle
  | check (i count : Nat)
  | alloc (i count : Nat)
  | write (i count : Nat)
  deriving DecidableEq, Repr

structure BhState where
  numInpChBufs : Nat
  hwBufsUsed : Int
  hwBufsFree : Int
  hwBufsUsedVif : Nat → Int
  tx : TxPc
  give : GivePc
  /-- result of the last `wsm_release_buffer_to_fw` -/
  giveRet : Int
  /-- what the receive thread still has to release for the confirmation in hand: buffers of a
  multi confirmation, and frames of interfaces -/
  rxBuffers : Nat
  rxVifs : List Nat
  device : Multiset HifMsg
  /-- an `ATBM_SDIO_FREE_BUFF_ERR` fired -/
  bug : Bool

/-- `hw_priv->hw_bufs_free >= n_needs`: an `int` against a `u32`. -/
def freeAtLeast (free : Int) (nNeeds : Nat) : Bool := decide (free % 2 ^ 32 ≥ nNeeds)

def haveEnoughSpace (nNeeds : Nat) (s : BhState) : BhState × Bool :=
  if freeAtLeast s.hwBufsFree nNeeds then (s, true)
  else
    let free := s.numInpChBufs - s.hwBufsUsed
    ({ s with hwBufsFree := free }, freeAtLeast free nNeeds)

def wsmAllocTxBuffer (s : BhState) : BhState := { s with hwBufsUsed := s.hwBufsUsed + 1 }

/-- `wsm_release_tx_buffer`, with its result (1 asks to wake the transmit path). -/
def wsmReleaseTxBuffer (count : Nat) (s : BhState) : BhState × Int :=
  if s.hwBufsUsed - count < 0 then ({ s with hwBufsUsed := 0 }, 0)
  else ({ s with hwBufsUsed := s.hwBufsUsed - count },
    if s.hwBufsUsed ≥ (s.numInpChBufs : Int) - 1 then 1 else 0)

def wsmReleaseVifTxBuffer (ifId count : Nat) (s : BhState) : BhState :=
  { s with hwBufsUsedVif := Function.update s.hwBufsUsedVif ifId (max (s.hwBufsUsedVif ifId - count) 0) }

/-- `hw_bufs_used_vif[vif_selected]++` unless `vif_selected == -1` -/
def countVif (m : HifMsg) (s : BhState) : BhState :=
  match m.vifSelected with
  | some i => { s with hwBufsUsedVif := Function.update s.hwBufsUsedVif i (s.hwBufsUsedVif i + 1) }
  | none => s

/-- The section of `atbm_sdio_tx_bh` between its two `ATBM_SDIO_FREE_BUFF_ERR`s. -/
def takeCredit (m : HifMsg) (s : BhState) : BhState :=
  countVif m
    { s with
      bug := s.bug || decide (s.hwBufsFree ≤ 0) || decide (s.hwBufsFree - 1 < 0)
      hwBufsFree := s.hwBufsFree - 1 }

/-- The messages of one confirmation: any single one, or the data frames of a multi
confirmation. -/
def confirmable (msgs : List HifMsg) : Bool :=
  match msgs with
  | [] => false
  | [_] => true
  | msgs => msgs.all fun m => m.vifSelected.isSome

inductive BhAct
  | txSpace
  /-- `wsm_get_tx` returned a message -/
  | txGet (m : HifMsg)
  /-- `wsm_get_tx` returned none -/
  | txNone
  | txAlloc (m : HifMsg)
  | txCredit (m : HifMsg)
  | txWrite (m : HifMsg)
  /-- `atbm_rx_directly`: a confirmation of `msgs`, up to its first release -/
  | rxConfirm (msgs : List HifMsg)
  /-- `wsm_multi_tx_confirm`: `wsm_release_tx_buffer(count - 1)` -/
  | rxMulti
  /-- `wsm_tx_confirm`: `wsm_release_vif_tx_buffer` -/
  | rxVif (i : Nat)
  /-- `wsm_release_buffer_to_fw` of an interface in AP mode -/
  | giveStart (count : Nat)
  /-- the test of the loop and of its body, both unlocked -/
  | giveCheck (i count : Nat)
  | giveAlloc (i count : Nat)
  /-- `atbm_data_write` of a give-back -/
  | giveWrite (i count : Nat) (ok : Bool)
  deriving DecidableEq, Repr

/-- `wsm_get_tx` gives no data frame while `hw_bufs_used >= numInpChBufs`. -/
def BhAct.enabled (s : BhState) : BhAct → Prop
  | .txSpace => s.tx = .idle
  | .txGet m => s.tx = .enough ∧ m ≠ .giveBuffer ∧
      (m.vifSelected.isSome → s.hwBufsUsed < s.numInpChBufs)
  | .txNone => s.tx = .enough
  | .txAlloc m => s.tx = .got m
  | .txCredit m => s.tx = .alloced m
  | .txWrite m => s.tx = .credited m
  | .rxConfirm msgs => s.rxBuffers = 0 ∧ s.rxVifs = [] ∧ confirmable msgs = true ∧ ↑msgs ≤ s.device
  | .rxMulti => 0 < s.rxBuffers
  | .rxVif i => s.rxBuffers = 0 ∧ s.rxVifs.head? = some i
  | .giveStart _ => s.give = .idle
  | .giveCheck i count => s.give = .check i count
  | .giveAlloc i count => s.give = .alloc i count
  | .giveWrite i count _ => s.give = .write i count

instance decBhEnabled (s : BhState) : ∀ a, Decidable (BhAct.enabled s a)
  | .txSpace | .txNone | .txAlloc _ | .txCredit _ | .txWrite _ => inferInstanceAs (Decidable (_ = _))
  | .txGet _ => inferInstanceAs (Decidable (_ ∧ _ ∧ (_ → _)))
  | .rxConfirm _ => inferInstanceAs (Decidable (_ ∧ _ ∧ _ ∧ _))
  | .rxMulti => inferInstanceAs (Decidable (_ < _))
  | .rxVif _ => inferInstanceAs (Decidable (_ ∧ _))
  | .giveStart _ | .giveCheck .. | .giveAlloc .. | .giveWrite .. => inferInstanceAs (Decidable (_ = _))

def BhAct.next (s : BhState) : BhAct → BhState
  | .txSpace => { (haveEnoughSpace 1 s).1 with tx := if (haveEnoughSpace 1 s).2 then .enough else .idle }
  | .txGet m => { s with tx := .got m }
  | .txNone => { s with tx := .idle }
  | .txAlloc m => { wsmAllocTxBuffer s with tx := .alloced m }
  | .txCredit m => { takeCredit m s with tx := .credited m }
  | .txWrite m => { s with tx := .idle, device := m ::ₘ s.device }
  | .rxConfirm msgs =>
    { (wsmReleaseTxBuffer 1 s).1 with
      device := s.device - ↑msgs
      rxBuffers := msgs.length - 1
      rxVifs := msgs.filterMap HifMsg.vifSelected }
  | .rxMulti => { (wsmReleaseTxBuffer s.rxBuffers s).1 with rxBuffers := 0 }
  | .rxVif i => { wsmReleaseVifTxBuffer i 1 s with rxVifs := s.rxVifs.tail }
  | .giveStart count => { s with give := .check 0 count }
  | .giveCheck i count =>
    if i < count ∧ s.hwBufsUsed + 1 < s.numInpChBufs then { s with give := .alloc i count }
    else { s with give := .idle, giveRet := if i = count then 0 else -1 }
  | .giveAlloc i count => { wsmAllocTxBuffer s with give := .write i count }
  | .giveWrite i count ok =>
    if ok then { s with give := .check (i + 1) count, device := .giveBuffer ::ₘ s.device }
    else { s with give := .idle, giveRet := -1 }

/-- After the startup indication: nothing is handed over, all buffers are free. -/
def bhStart (numInpChBufs : Nat) : BhState where
  numInpChBufs
  hwBufsUsed := 0
  hwBufsFree := numInpChBufs
  hwBufsUsedVif _ := 0
  tx := .idle
  give := .idle
  giveRet := 0
  rxBuffers := 0
  rxVifs := []
  device := 0
  bug := false

def bhThreads (numInpChBufs : Nat) : Sys BhState BhAct :=
  .ofNext (· = bhStart numInpChBufs) BhAct.enabled BhAct.next

end AtbmWifi
