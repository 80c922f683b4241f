import AtbmWifi.Wsm.RxFrame

/-!
# `wsm_handle_rx` and the way of a frame to it

`rxKind` is its `if`s and its two `switch`es.  A confirmation of a command is handled when
it answers the command that waits; its handler's result goes to that command, and
`wsm_handle_rx` itself returns 0.  That the command id is invalidated and the command
woken belongs to every confirmation and is no act of its handler.

`rxMessages` is what a frame of the bus becomes: one message, or several behind a
`struct wsm_multi_rx`.  SDIO hands a message over where it lies and copies only the buffer
of a frame in a multi one; USB copies `wsm->len` bytes of whatever carries a frame, however
many were received.
-/

namespace AtbmWifi

open Wire

inductive CnfKind
  | readShmem
  | writeShmem
  | genericReq
  | configuration
  | readMib
  | writeMib
  | join
  | efuse
  | requestBuffer
  | stopScan
  /-- those of `wsm_generic_confirm` -/
  | generic
  /-- `default: return -1` -/
  | unknown
  deriving DecidableEq, Repr

inductive RxKind
  | txConfirm
  | giveBuffer
  | firmwareCheck
  | multiTxConfirm
  | cnf (k : CnfKind)
  | debugPrint
  | startup
  | receive
  | event
  | setPm
  | scanComplete
  | suspendResume
  | debug
  /-- indications without a handler; without `ATBM_SUPPORT_SMARTCONFIG` that of smartconfig reads nothing -/
  | otherInd
  /-- neither a confirmation nor an indication -/
  | bad
  deriving DecidableEq, Repr

def cnfKind (sdio : Bool) (id : BitVec 16) : CnfKind :=
  if id = 0x0400#16 then .readShmem
  else if id = 0x0401#16 then .writeShmem
  else if id = 0x0403#16 then .genericReq
  else if id = 0x0409#16 then .configuration
  else if id = 0x0405#16 then .readMib
  else if id = 0x0406#16 then .writeMib
  else if id = 0x040B#16 then .join
  else if id = 0x0419#16 then .efuse
  else if sdio && id == 0x0423#16 then .requestBuffer
  else if id = 0x0408#16 then .stopScan
  else if [0x0407#16, 0x0424#16, 0x040A#16, 0x040C#16, 0x040D#16, 0x0410#16, 0x0411#16, 0x0412#16, 0x0413#16,
      0x0416#16, 0x0417#16, 0x0418#16, 0x041A#16, 0x041B#16, 0x041C#16, 0x0414#16].contains id then .generic
  else .unknown

def CnfKind.toCase : CnfKind → CnfCase
  | .readShmem | .genericReq | .configuration | .readMib | .join => .fills
  | .writeShmem | .writeMib | .requestBuffer => .reads
  | .efuse | .generic => .plain
  | .stopScan => .stopScan
  | .unknown => .unknown

def cnfIds : List (BitVec 16) :=
  [0x0400#16, 0x0401#16, 0x0403#16, 0x0405#16, 0x0406#16, 0x0407#16, 0x0408#16, 0x0409#16, 0x040A#16, 0x040B#16,
    0x040C#16, 0x040D#16, 0x0410#16, 0x0411#16, 0x0412#16, 0x0413#16, 0x0414#16, 0x0416#16, 0x0417#16, 0x0418#16,
    0x0419#16, 0x041A#16, 0x041B#16, 0x041C#16, 0x0423#16, 0x0424#16]

theorem toCase_cnfKind (id : BitVec 16) : (cnfKind true id).toCase = cnfCase id := by
  by_cases h : id ∈ cnfIds
  · have hids : (cnfIds.all fun id => decide ((cnfKind true id).toCase = cnfCase id)) = true := by decide +kernel
    exact of_decide_eq_true (List.all_eq_true.mp hids id h)
  · have hne : ∀ x, cnfIds.contains x = true → id ≠ x := fun x hx he => h (he ▸ List.contains_iff_mem.mp hx)
    have hno : ∀ l : List (BitVec 16), (l.all fun x => cnfIds.contains x) = true → l.contains id ≠ true :=
      fun l hl hm => h (List.contains_iff_mem.mp (List.all_eq_true.mp hl id (List.contains_iff_mem.mp hm)))
    have hkind : cnfKind true id = .unknown := by
      unfold cnfKind
      rw [if_neg (hne _ (by decide)), if_neg (hne _ (by decide)), if_neg (hne _ (by decide)),
        if_neg (hne _ (by decide)), if_neg (hne _ (by decide)), if_neg (hne _ (by decide)),
        if_neg (hne _ (by decide)), if_neg (hne _ (by decide)), Bool.true_and,
        if_neg fun he => hne _ (by decide) (beq_iff_eq.mp he), if_neg (hne _ (by decide)), if_neg (hno _ (by decide))]
    have hcase : cnfCase id = .unknown := by
      unfold cnfCase
      rw [if_neg (hno _ (by decide)), if_neg (hno _ (by decide)), if_neg (hne _ (by decide)), if_neg (hno _ (by decide))]
    rw [hkind, hcase]
    rfl

def rxKind (sdio : Bool) (id : BitVec 16) : RxKind :=
  if id = 0x0404#16 then .txConfirm
  else if sdio && id == 0x0422#16 then .giveBuffer
  else if id = 0x0402#16 then .firmwareCheck
  else if id = 0x041E#16 then .multiTxConfirm
  else if id &&& wsmCnfBase ≠ 0 then .cnf (cnfKind sdio id)
  else if id &&& 0x0800#16 ≠ 0 then
    if id = 0x0810#16 then .debugPrint
    else if id = 0x0801#16 then .startup
    else if id = 0x0804#16 then .receive
    else if id = 0x0805#16 then .event
    else if id = 0x0809#16 then .setPm
    else if id = 0x0806#16 then .scanComplete
    else if id = 0x080C#16 then .suspendResume
    else if id = 0x080E#16 then .debug
    else .otherInd
  else .bad

structure Handled where
  ret : Int
  /-- the result given to the command that waits -/
  cmdRet : Option Int := none
  /-- its handler took its `underflow` exit -/
  cut : Bool := false
  /-- all reads of the two buffers, that of `wsm->len` first -/
  reads : List RxRead
  acts : List RxAct := []
  deriving Repr

def readLen : RxRead := ⟨.wsm, 0, 2⟩

namespace Handled

def of (m : RxMsg) (p : Parse RxAct Done) : Handled :=
  let r := p.run m.wsmBuf
  let fields := readLen :: r.reads.map fun s => ⟨.wsm, s⟩
  match r.val with
  | none => { ret := eInval, cut := true, reads := fields, acts := r.acts }
  | some d => { ret := d.ret, reads := fields ++ d.reads, acts := r.acts ++ d.acts }

/-- The result goes to the command that waits; that of a stopped scan is dropped. -/
def toCmd (k : CnfKind) (r : Handled) : Handled :=
  { r with ret := 0, cmdRet := some (if k = .stopScan then 0 else r.ret) }

/-- An error came of the message, for the bus or for the command. -/
def Rejected (r : Handled) : Prop := r.ret ≠ 0 ∨ r.cmdRet.any (· ≠ 0) = true

instance (r : Handled) : Decidable r.Rejected := inferInstanceAs (Decidable (_ ∨ _))

end Handled

/-- A handler that is called for a command with an argument only. -/
def withArg (h : RxHost) (f : CmdArg → Parse RxAct Done) : Parse RxAct Done :=
  match h.wsmArg with
  | none => return { ret := 0 }
  | some arg => f arg

open Rx in
def cnfHandler (h : RxHost) : CnfKind → Parse RxAct Done
  | .readShmem => withArg h wsmReadShmemConfirm
  | .writeShmem => withArg h fun _ => wsmGenericConfirm
  | .genericReq => withArg h wsmGenericReqConfirm
  | .configuration => withArg h fun _ => wsmConfigurationConfirm
  | .readMib => withArg h wsmReadMibConfirm
  | .writeMib => withArg h (wsmWriteMibConfirm h)
  | .join => withArg h fun _ => wsmJoinConfirm
  | .efuse => wsmEfuseChangeDataConfirm
  | .requestBuffer => withArg h fun _ => requestBufferLoop h h.apVifs
  | .stopScan => wsmStopScanConfirm
  | .generic => wsmGenericConfirm
  | .unknown => return { ret := -1 }

open Rx in
def rxHandler (b : RxBuild) (h : RxHost) (m : RxMsg) : RxKind → Parse RxAct Done
  | .txConfirm => do
    Rx.wsmTxConfirm
    return { ret := 0 }
  | .giveBuffer => wsmGiveBufferConfirm h
  | .multiTxConfirm => Rx.wsmMultiTxConfirm
  | .debugPrint => wsmDebugPrintIndication
  | .startup => wsmStartupIndication
  | .receive => wsmReceiveIndication b m h
  | .event => wsmEventIndication h m.linkId
  | .setPm => Rx.wsmSetPmIndication h
  | .scanComplete => wsmScanCompleteIndication h
  | .suspendResume => wsmSuspendResumeIndication h m.linkId
  | .debug => wsmDebugIndication
  | .bad => return { ret := eInval }
  | .firmwareCheck | .otherInd | .cnf _ => return { ret := 0 }

def wsmHandleRx (b : RxBuild) (h : RxHost) (m : RxMsg) : Handled :=
  match rxKind b.sdio (stripLinkId m.id) with
  | .cnf k =>
    if !answers m.id h.wsmCmd then { ret := eInval, reads := [readLen] }
    else if k = .unknown then .of m (cnfHandler h k)
    else (Handled.of m (cnfHandler h k)).toCmd k
  | k => .of m (rxHandler b h m k)

/-- A frame of the bus: the bytes received, and the memory from behind them on. -/
structure BusFrame where
  bytes : List UInt8
  behind : Nat → UInt8

namespace BusFrame

def mem (f : BusFrame) (i : Nat) : UInt8 := (f.bytes[i]?).getD (f.behind i)

def len (f : BusFrame) (off : Nat) : Nat := ofBytes [f.mem off, f.mem (off + 1)]

/-- `wsm->id & 0xFFF` of the message at `off` -/
def id (f : BusFrame) (off : Nat) : BitVec 16 :=
  BitVec.ofNat 16 (ofBytes [f.mem (off + 2), f.mem (off + 3)]) &&& 0xFFF#16

def inPlace (f : BusFrame) (skbLen : Nat) : RxMsg where
  id := f.id 0
  mem _ := f.mem
  received _ := f.bytes.length
  skbLen

/-- A copy of the `wsm->len` bytes from `off` on, with what lies behind it. -/
def copied (f : BusFrame) (off : Nat) (behind : Nat → UInt8) (i : Nat) : UInt8 :=
  if i < f.len off then f.mem (off + i) else behind i

/-- The message at `off`, as a copy. -/
def copy (f : BusFrame) (behind : Nat → UInt8) (off : Nat) : RxMsg where
  id := f.id off
  mem _ := f.copied off behind
  received _ := min (f.len off) (f.bytes.length - off)
  skbLen := f.len off

/-- The message at `off` where it lies, with a copy for the buffer. -/
def halfCopy (f : BusFrame) (behind : Nat → UInt8) (off : Nat) : RxMsg where
  id := f.id off
  mem
    | .wsm => fun i => f.mem (off + i)
    | .skb => f.copied off behind
  received
    | .wsm => f.bytes.length - off
    | .skb => min (f.len off) (f.bytes.length - off)
  skbLen := f.len off

/-- `RxFrameNum` of `struct wsm_multi_rx`; the loop runs once at least. -/
def rxFrameNum (f : BusFrame) : Nat := max 1 (f.mem 4).toNat

end BusFrame

/-- The offset from a message to the next: `ALIGN(wsm_len + RX_ALLOC_BUFF_OFFLOAD, 4)` -/
def rxStride (len : Nat) : Nat := (len + 40 + 3) / 4 * 4

/-- The loop over the messages behind a `struct wsm_multi_rx`, `sub` being the message at an offset and `goesOn`
whether the loop outlives it.  `data_len` is signed, but compared with `wsm_len` as an unsigned number. -/
def multiRx (f : BusFrame) (sub : Nat → RxMsg) (goesOn : Nat → RxMsg → Bool) : Nat → Nat → Nat → Int → List RxMsg
  | 0, _, _, _ => []
  | num + 1, i, off, dataLen =>
    if dataLen % 2 ^ 32 < f.len off then []
    else
      let rest := dataLen - rxStride (f.len off)
      sub off ::
        if goesOn i (sub off) && decide (32 < rest) then
          multiRx f sub goesOn num (i + 1) (off + rxStride (f.len off)) rest
        else []

/-- What the bus code and the handlers find when the `i`th message of a frame comes. -/
structure RxEnv where
  host : Nat → RxHost
  /-- the state of the driver and the sequence number let it pass -/
  passes : Nat → Bool
  /-- the memory behind a copy -/
  behind : Nat → UInt8
  /-- the status of the URB is `-EPROTO` or `-EOVERFLOW` -/
  urbError : Bool

/-- `RecvLength` in `atbm_usb_receive_data_complete`: a length that is not that of the header is replaced by it,
unless the device added a byte to a multiple of 512. -/
def usbRecvLength (urbError : Bool) (f : BusFrame) : Nat :=
  let n := f.bytes.length
  if urbError ∨ n = 0 ∨ (f.len 0 % 512 = 0 ∧ f.len 0 + 1 = n) then n else f.len 0

/-- `WSM_MULTI_RECEIVE_INDICATION_ID`, `WSM_SINGLE_CHANNEL_MULTI_RECEIVE_INDICATION_ID` -/
def isMultiRx (id : BitVec 16) : Bool := id == 0x0811#16 || id == 0x0813#16

/-- `atbm_sdio_process_read_data`, `atbm_rx_directly` and `atbm_rx_tasklet` of SDIO: an error of `wsm_handle_rx`
ends the loop, and an exception (`0x0800`) that cannot be parsed comes no further. -/
def sdioMessages (b : RxBuild) (e : RxEnv) (f : BusFrame) : List RxMsg :=
  if f.bytes.length < 4 + 2 ∨ 32758 + 2 < f.bytes.length then []
  else if isMultiRx (f.id 0) then
    multiRx f (f.halfCopy e.behind) (fun i m => (wsmHandleRx b (e.host i) m).ret == 0) f.rxFrameNum 0 8 (f.len 0 - 8)
  else if f.id 0 = 0x0800#16 ∧ e.passes 0 = false then []
  else [f.inPlace (min f.bytes.length (f.len 0))]

/-- `atbm_usb_receive_data_complete` and `atbm_process_ieee80211_frame` or `atbm_process_wsm_cmd_frame` of USB: a
message of another kind in a multi one is a `BUG`, and an exception is handled elsewhere. -/
def usbMessages (e : RxEnv) (f : BusFrame) : List RxMsg :=
  let isReceive (m : RxMsg) : Bool := stripLinkId m.id == 0x0804#16
  let messages :=
    if usbRecvLength e.urbError f < 4 ∨ 16 * 1024 < usbRecvLength e.urbError f then []
    else if isMultiRx (f.id 0) then
      (multiRx f (f.copy e.behind) (fun _ m => isReceive m) f.rxFrameNum 0 8 (f.len 0 - 8)).filter isReceive
    else if stripLinkId (f.id 0) = 0x0804#16 ∨ stripLinkId (f.id 0) = 0x0812#16 then [f.copy e.behind 0]
    else if f.id 0 = 0x0800#16 then []
    else [f.inPlace (f.len 0)]
  (messages.zipIdx.filter fun x => e.passes x.2).map Prod.fst

/-- The messages of a frame that reach `wsm_handle_rx`, each with the state it finds. -/
def rxMessages (b : RxBuild) (e : RxEnv) (f : BusFrame) : List (RxHost × RxMsg) :=
  (if b.sdio then sdioMessages b e f else usbMessages e f).zipIdx.map fun x => (e.host x.2, x.1)

end AtbmWifi
