import Mathlib.Logic.Function.Iterate
import AtbmWifi.Lib.Memory
import AtbmWifi.Lib.Message
import AtbmWifi.Ble.Cdev

/-!
# The data path of the BLE device

A write, a `writev` and the ioctl `ATBM_BLE_HIF_TXDATA` put what the user gives into `ioctl_data` of the file;
from there it is copied into an skb, which goes to the queue of the transmit thread if BLE is started and is freed
if not.  The pointer to the skb stands in front of the place for the payload.  `BLUEDROID` copies as many bytes as
the user said; the default set copies as many as the first two bytes say, to a place of `HCI_ACL_SHARE_SIZE`.
The other way, `ieee80211_ble_dev_recv` copies a message of the device.

The device is locked for each call of a file, so that a call is one step.
-/

namespace AtbmWifi

open Memory Transition

namespace BlePath

def ioctlDataSize : Nat := 2048

def hciAclShareSize : Nat := 512

def skbHeadneed : Nat := 128

/-- `sizeof(struct ieee80211_ble_buff)`, and the offset of `mem` in it -/
def bleBuffSize : Nat := 64

/-- Some bytes of the user: those that can be read from the address on, and how many the user says there are. -/
structure UserBuf where
  readable : List UInt8
  len : Nat
  deriving DecidableEq, Repr

/-- `copy_from_user` fills the destination with zeros from the first byte on that cannot be read. -/
def copyFromUser (buf : List UInt8) (n : Nat) : List UInt8 × Bool :=
  if n ≤ buf.length then (buf.take n, true) else (buf ++ List.replicate (n - buf.length) 0, false)

/-- What a call took from the user: `ioctl_data` after it, and the length for `ops->write` if there was no error. -/
structure Taken where
  data : Nat → UInt8
  len : Option Nat

/-- `ieee80211_ble_ioctl_write` -/
def takeWrite (data : Nat → UInt8) (u : UserBuf) : Taken :=
  if ioctlDataSize < u.len then ⟨data, none⟩
  else
    let (bytes, ok) := copyFromUser u.readable u.len
    ⟨write data 0 bytes, if ok then some u.len else none⟩

def iovLength (iov : List UserBuf) : Nat := (iov.map UserBuf.len).sum

/-- The loop of `ieee80211_ble_ioctl_writev` before Linux 4.0. -/
def copyIov (data : Nat → UInt8) (xmit : Nat) : List UserBuf → (Nat → UInt8) × Bool
  | [] => (data, true)
  | u :: iov =>
    let (bytes, ok) := copyFromUser u.readable u.len
    if ok then copyIov (write data xmit bytes) (xmit + u.len) iov else (write data xmit bytes, false)

/-- What `copy_from_iter` copies: it ends at the first byte that cannot be read. -/
def iterBytes : List UserBuf → List UInt8
  | [] => []
  | u :: iov => if u.len ≤ u.readable.length then u.readable.take u.len ++ iterBytes iov else u.readable

/-- `ieee80211_ble_ioctl_writev`; `iter` from Linux 4.0 on. -/
def takeWritev (iter : Bool) (data : Nat → UInt8) (iov : List UserBuf) : Taken :=
  if ioctlDataSize < iovLength iov then ⟨data, none⟩
  else
    let zeroed := write data 0 (List.replicate ioctlDataSize 0)
    if iter then
      let bytes := iterBytes iov
      -- an error only if nothing was copied
      ⟨write zeroed 0 bytes, if bytes.length = 0 then none else some (iovLength iov)⟩
    else
      let (data, ok) := copyIov zeroed 0 iov
      ⟨data, if ok then some (iovLength iov) else none⟩

inductive IoctlCmd
  | hifTxdata
  /-- the commands that send nothing -/
  | other
  deriving DecidableEq, Repr

/-- `ieee8021_ble_operations_default_ioctl`; the length is that of the command. -/
def takeIoctl (data : Nat → UInt8) (cmd : IoctlCmd) (arg : List UInt8) : Taken :=
  let (bytes, ok) := copyFromUser arg ioctlDataSize
  ⟨write data 0 bytes, if ok = true ∧ cmd = .hifTxdata then some ioctlDataSize else none⟩

/-- What a build and a kernel decide: the set of operations, the version, the order of bytes, pointers as bytes, what is
left in memory, and the room of an skb that is asked for with a length. -/
structure BleHost where
  ops : BleOps
  iter : Bool
  bigEndian : Bool
  ptrSize : Nat
  ptr_fits : ptrSize ≤ bleBuffSize
  /-- the address of the skb with this number -/
  ptr : Nat → List UInt8
  ptr_length : ∀ id, (ptr id).length = ptrSize
  stale : Nat → UInt8
  room : Nat → Nat
  enough : ∀ n, n ≤ room n

/-- `*(u16 *)buf` -/
def BleHost.u16 (h : BleHost) (m : Nat → UInt8) : Nat :=
  if h.bigEndian then (m 0).toNat * 256 + (m 1).toNat else (m 0).toNat + (m 1).toNat * 256

/-- A call of `memcpy` into a transmit buffer of `asked` bytes: `count` bytes from `src` of `ioctl_data` on. -/
structure XmitCopy where
  asked : Nat
  src : Nat
  count : Nat
  deriving DecidableEq, Repr

/-- `ops->write`, with `ieee80211_ble_ioctl_tx` for the default set. -/
def BleHost.copyOf (h : BleHost) (data : Nat → UInt8) (len : Nat) : XmitCopy :=
  match h.ops with
  | .bluedroid => ⟨len, 0, len⟩
  | .default => ⟨hciAclShareSize, 2, h.u16 data⟩

/-- An skb; its memory from where `data` was when it was allocated. -/
structure XmitSkb where
  id : Nat
  room : Nat
  mem : Nat → UInt8
  data : Nat
  len : Nat

def XmitSkb.bytes (k : XmitSkb) : List UInt8 := read k.mem k.data k.len

/-- The length `ieee80211_ble_commb_ble_alloc_xmit` asks for. -/
def skbLength (len : Nat) : Nat := len + skbHeadneed + bleBuffSize

/-- The skb of `ieee80211_ble_commb_ble_alloc_xmit`, with its own pointer in front of the payload. -/
def allocXmit (h : BleHost) (id len : Nat) : XmitSkb :=
  ⟨id, h.room (skbLength len), write h.stale skbHeadneed (h.ptr id), 0, 0⟩

/-- `ble_buff->mem` -/
def xmitBuff : Nat := skbHeadneed + bleBuffSize

def XmitSkb.memcpy (k : XmitSkb) (bytes : List UInt8) : XmitSkb := { k with mem := write k.mem xmitBuff bytes }

/-- `ieee80211_ble_commb_xmit` up to the lock: the skb is looked up in front of the payload.  None where it is another
one, where the `BUG_ON` is reached and where `skb_put` panics. -/
def commbXmit (h : BleHost) (k : XmitSkb) (xmitLen : Nat) : Option XmitSkb :=
  let bleBuff := xmitBuff - bleBuffSize
  if read k.mem bleBuff h.ptrSize ≠ h.ptr k.id then none
  else if k.data + skbHeadneed ≠ bleBuff then none
  else if k.room < k.data + skbHeadneed + bleBuffSize + xmitLen then none
  else some { k with data := k.data + skbHeadneed + bleBuffSize, len := xmitLen }

structure Frame where
  id : Nat
  bytes : List UInt8
  deriving DecidableEq, Repr

/-- `event_buffer` of an skb for the files, and `cb->size`. -/
structure RecvSkb where
  eventBuffer : List UInt8
  size : Nat
  deriving DecidableEq, Repr

/-- Whether the platform device has a driver, and how far its removal is. -/
inductive BlePhase
  | down
  | up
  | stopping
  | stopped
  deriving DecidableEq, Repr

structure BleDev where
  /-- `ioctl_data` of the files, with what stands behind it -/
  files : Nat → Nat → UInt8
  flushed : Nat → Bool
  phase : BlePhase
  /-- `ble_started` -/
  started : Bool
  /-- the threads run -/
  alive : Bool
  /-- `ble_xmit_queue` -/
  xmitQueue : List Frame
  /-- what the transmit thread has taken from the queue -/
  hand : Option Frame
  /-- `ble_recv_queue` -/
  recvQueue : List RecvSkb
  /-- numbers of the skbs freed -/
  freed : List Nat
  /-- skbs allocated to transmit -/
  issued : Nat
  /-- a `BUG_ON` or a panic was reached -/
  panicked : Bool

/-- A call on file `f` has an answer of the allocator with it. -/
inductive BleCall
  | write (f : Nat) (u : UserBuf) (alloc : Bool)
  | writev (f : Nat) (iov : List UserBuf) (alloc : Bool)
  | ioctl (f : Nat) (cmd : IoctlCmd) (arg : List UInt8) (alloc : Bool)
  | flush (f : Nat)
  /-- `ieee80211_ble_dev_recv` with a message of the device -/
  | devRecv (wsm : Nat → UInt8) (len : UInt16) (alloc : Bool)
  /-- the receive thread takes an skb -/
  | recvThread
  /-- the transmit thread takes an skb -/
  | xmitTake
  /-- it has sent the skb and frees it -/
  | xmitDone
  /-- `atbm_ble_platform_probe`: whether each thread and the device could be created -/
  | probe (recv xmit device : Bool)
  /-- `atbm_ble_platform_remove`: `ieee80211_ble_commb_stop` clears `ble_started` -/
  | stop
  /-- it has waited for the threads -/
  | purge
  /-- the device has no driver any more -/
  | unbind

namespace BleDev

/-- The end of `ieee80211_ble_commb_xmit` -/
def queueOrFree (k : XmitSkb) (s : BleDev) : BleDev :=
  if s.started then { s with xmitQueue := s.xmitQueue ++ [⟨k.id, k.bytes⟩], issued := s.issued + 1 }
  else { s with freed := k.id :: s.freed, issued := s.issued + 1 }

/-- A copy to a transmit buffer that could be allocated, and `ieee80211_ble_commb_xmit`. -/
def xmit (h : BleHost) (data : Nat → UInt8) (c : XmitCopy) (s : BleDev) : BleDev :=
  match commbXmit h ((allocXmit h s.issued c.asked).memcpy (read data c.src c.count)) c.count with
  | some k => s.queueOrFree k
  | none => { s with issued := s.issued + 1, panicked := true }

/-- What a call on a file took, and whose `ops->write` was called, if any. -/
def taken (h : BleHost) (s : BleDev) : BleCall → Option (Nat × Taken)
  | .write f u _ => if s.phase = .down then none else some (f, takeWrite (s.files f) u)
  | .writev f iov _ => if s.phase = .down then none else some (f, takeWritev h.iter (s.files f) iov)
  | .ioctl f cmd arg _ =>
    if s.phase = .down ∨ s.flushed f = true ∨ h.ops = .bluedroid then none else some (f, takeIoctl (s.files f) cmd arg)
  | _ => none

def xmitTake (s : BleDev) : BleDev :=
  match s.hand, s.xmitQueue with
  | none, k :: rest => { s with hand := some k, xmitQueue := rest }
  | _, _ => s

/-- `atbm_dev_kfree_skb`, after `do_ble_xmit` -/
def xmitDone (s : BleDev) : BleDev :=
  match s.hand with
  | some k => { s with hand := none, freed := k.id :: s.freed }
  | none => s

def devRecv (h : BleHost) (wsm : Nat → UInt8) (eventLen : UInt16) (s : BleDev) : BleDev :=
  if maxSyncEventBufferLen < eventLen.toNat then { s with panicked := true }
  else if s.started then
    let eventBuffer := write h.stale 0 (read wsm 0 eventLen.toNat)
    { s with recvQueue := s.recvQueue ++ [⟨read eventBuffer 0 maxSyncEventBufferLen, eventLen.toNat⟩] }
  else s

/-- `atbm_ble_platform_probe`, with `ieee80211_ble_commb_start`, which makes the queues anew. -/
def probe (recv xmit device : Bool) (s : BleDev) : BleDev :=
  if recv = false then { s with recvQueue := [] }
  else if xmit = false then { s with recvQueue := [], xmitQueue := [] }
  else
    { s with
      recvQueue := []
      xmitQueue := []
      started := true
      alive := true
      phase := if device then .up else .down }

def purge (s : BleDev) : BleDev :=
  { s with
    freed := s.xmitQueue.map Frame.id ++ s.freed
    xmitQueue := []
    recvQueue := []
    alive := false
    phase := .stopped }

end BleDev

/-- The skb to transmit, or that of the message, can be allocated. -/
def BleCall.alloc : BleCall → Bool
  | .write _ _ b | .writev _ _ b | .ioctl _ _ _ b | .devRecv _ _ b => b
  | _ => true

namespace BleDev

def fileCall (h : BleHost) (f : Nat) (t : Taken) (alloc : Bool) (s : BleDev) : BleDev :=
  let s := { s with files := setAt s.files f t.data }
  match t.len with
  | some len => if alloc then s.xmit h t.data (h.copyOf t.data len) else s
  | none => s

def next (h : BleHost) (s : BleDev) (a : BleCall) : BleDev :=
  match a with
  | .write .. | .writev .. | .ioctl .. =>
    match s.taken h a with
    | some (f, t) => s.fileCall h f t a.alloc
    | none => s
  | .flush f => { s with flushed := setAt s.flushed f true }
  | .devRecv wsm len alloc => if alloc then s.devRecv h wsm len else s
  | .recvThread => { s with recvQueue := s.recvQueue.tail }
  | .xmitTake => s.xmitTake
  | .xmitDone => s.xmitDone
  | .probe recv xmit device => s.probe recv xmit device
  | .stop => { s with started := false, phase := .stopping }
  | .purge => s.purge
  | .unbind => { s with phase := .down }

def enabled (s : BleDev) : BleCall → Prop
  | .recvThread | .xmitTake | .xmitDone => s.alive = true
  | .probe .. => s.phase = .down
  | .stop => s.phase = .up
  | .purge => s.phase = .stopping ∧ s.hand = none
  | .unbind => s.phase = .stopped
  | _ => True

def fresh (s : BleDev) : Prop :=
  s.phase = .down ∧ s.started = false ∧ s.alive = false ∧ s.xmitQueue = [] ∧ s.hand = none ∧ s.recvQueue = [] ∧
    s.freed = [] ∧ s.issued = 0 ∧ s.panicked = false

end BleDev

def bleDataPath (h : BleHost) : Sys BleDev BleCall := .ofNext BleDev.fresh BleDev.enabled (BleDev.next h)

/-- What the user supplied: the bytes up to the first that cannot be read. -/
def BleCall.supplied : BleCall → List UInt8
  | .write _ u _ => u.readable.take u.len
  | .writev _ iov _ => iterBytes iov
  | .ioctl _ _ arg _ => arg.take ioctlDataSize
  | _ => []

namespace BleDev

/-- The skb with these bytes, of a number not used before, was queued, or freed if BLE is not started. -/
def Passed (s t : BleDev) (bytes : List UInt8) : Prop :=
  t.issued = s.issued + 1 ∧
    if s.started then t.xmitQueue = s.xmitQueue ++ [⟨s.issued, bytes⟩] ∧ t.freed = s.freed
    else t.xmitQueue = s.xmitQueue ∧ t.freed = s.issued :: s.freed

/-- What a call copies fits its destination and was supplied, and becomes one skb or one message. -/
structure StepOk (h : BleHost) (s : BleDev) (a : BleCall) : Prop where
  copied : ∀ f t len, s.taken h a = some (f, t) → t.len = some len → a.alloc = true →
    let c := h.copyOf t.data len
    xmitBuff + c.count ≤ h.room (skbLength c.asked) ∧ (Wire.Span.mk c.src c.count).Within a.supplied.length ∧
      s.Passed (s.next h a) ((a.supplied.drop c.src).take c.count)
  received : ∀ wsm len, a = .devRecv wsm len true → len.toNat ≤ maxSyncEventBufferLen ∧
    (s.started = true → ∃ k, (s.next h a).recvQueue = s.recvQueue ++ [k] ∧ k.size = len.toNat ∧
      k.eventBuffer.take k.size = read wsm 0 len.toNat)

def threadTurn (s : BleDev) : BleDev := if s.hand = none then s.xmitTake else s.xmitDone

def drain (s : BleDev) : BleDev := threadTurn^[2 * s.xmitQueue.length + s.hand.toList.length] s

/-- Nothing is freed twice, and all is freed once the thread has had its turns. -/
structure PathOk (s : BleDev) : Prop where
  calm : s.panicked = false
  freed : ∀ x, s.freed.count x ≤ 1
  drained : ∀ x < s.issued, s.drain.freed.count x = 1

/-- What is copied for a length of `len` fits, and `n` bytes of the user hold it. -/
def CopyFits (h : BleHost) (data : Nat → UInt8) (len n : Nat) : Prop :=
  match h.ops with
  | .bluedroid => len ≤ n
  | .default => xmitBuff + h.u16 data ≤ h.room (skbLength hciAclShareSize) ∧ (h.u16 data = 0 ∨ 2 + h.u16 data ≤ n)

/-- The default set: the two bytes at the front of the file say no more than was supplied behind them and fits.
`BLUEDROID`: all that the user said could be read.  A message of the device fits the event buffer. -/
def Meets (h : BleHost) (s : BleDev) (a : BleCall) : Prop :=
  (∀ f t len, s.taken h a = some (f, t) → t.len = some len → a.alloc = true →
    CopyFits h t.data len a.supplied.length) ∧
  ∀ wsm len, a = .devRecv wsm len true → len.toNat ≤ maxSyncEventBufferLen

end BleDev

variable {n x : Nat} {iov : List UserBuf}

theorem copyFromUser_of_le {buf : List UInt8} (h : n ≤ buf.length) : copyFromUser buf n = (buf.take n, true) := if_pos h

theorem copyFromUser_ok {buf : List UInt8} : (copyFromUser buf n).2 = true ↔ n ≤ buf.length := by
  unfold copyFromUser
  split <;> simp_all

theorem copyIov_cons {u : UserBuf} {data : Nat → UInt8} (h : u.len ≤ u.readable.length) :
    copyIov data x (u :: iov) = copyIov (write data x (u.readable.take u.len)) (x + u.len) iov := by
  simp only [copyIov, copyFromUser_of_le h, if_true]

theorem copyIov_cut {u : UserBuf} {data : Nat → UInt8}
    (h : ¬ u.len ≤ u.readable.length) : (copyIov data x (u :: iov)).2 = false := by
  simp only [copyIov, copyFromUser, if_neg h, Bool.false_eq_true, if_false]

theorem copyIov_read {data : Nat → UInt8} (h : (copyIov data x iov).2 = true) :
    (iterBytes iov).length = iovLength iov ∧ read (copyIov data x iov).1 x (iovLength iov) = iterBytes iov ∧
      ∀ y < x, (copyIov data x iov).1 y = data y := by
  induction iov generalizing data x with
  | nil => exact ⟨rfl, rfl, fun _ _ => rfl⟩
  | cons u iov ih =>
    by_cases hn : u.len ≤ u.readable.length
    · rw [copyIov_cons hn] at h ⊢
      obtain ⟨hlen, hread, hfront⟩ := ih h
      have htake : (u.readable.take u.len).length = u.len := by
        rw [List.length_take]
        omega
      have hiter : iterBytes (u :: iov) = u.readable.take u.len ++ iterBytes iov := if_pos hn
      have htotal : iovLength (u :: iov) = u.len + iovLength iov := List.sum_cons
      rw [hiter, htotal]
      refine ⟨by rw [List.length_append, htake, hlen], ?_, ?_⟩
      · rw [read_add, hread]
        congr 1
        have hself := @read_write_self data x (u.readable.take u.len)
        rw [htake] at hself
        refine Eq.trans (read_congr ?_) hself
        intro y _ hy
        exact hfront y hy
      · intro y hy
        rw [hfront y (by omega), write_apart (.inl hy)]
    · rw [copyIov_cut hn] at h
      exact absurd h Bool.false_ne_true

theorem taken_supplied {h : BleHost} {s : BleDev} {a : BleCall} {f len : Nat} {t : Taken}
    (ht : s.taken h a = some (f, t)) (hlen : t.len = some len) :
    read t.data 0 a.supplied.length = a.supplied := by
  cases a with
  | write f u alloc =>
    simp only [BleDev.taken] at ht
    split at ht
    · cases ht
    cases ht
    unfold takeWrite at hlen ⊢
    split at hlen
    · cases hlen
    rename_i hsize
    have hok := copyFromUser_ok.mp (Option.ite_none_right_eq_some.mp hlen).1
    rw [if_neg hsize, copyFromUser_of_le hok]
    exact read_write_self
  | writev f iov alloc =>
    simp only [BleDev.taken] at ht
    split at ht
    · cases ht
    cases ht
    unfold takeWritev at hlen ⊢
    split at hlen
    · cases hlen
    rename_i hsize
    rw [if_neg hsize]
    cases hiter : h.iter with
    | true => exact read_write_self
    | false =>
      rw [hiter] at hlen
      obtain ⟨hcount, hread, -⟩ := copyIov_read (Option.ite_none_right_eq_some.mp hlen).1
      show read (copyIov _ 0 iov).1 0 (iterBytes iov).length = iterBytes iov
      rw [hcount]
      exact hread
  | ioctl f cmd arg alloc =>
    simp only [BleDev.taken] at ht
    split at ht
    · cases ht
    cases ht
    have hok := copyFromUser_ok.mp (Option.ite_none_right_eq_some.mp hlen).1.1
    unfold takeIoctl
    rw [copyFromUser_of_le hok]
    exact read_write_self
  | _ => cases ht

theorem hidden_ptr (h : BleHost) (id len : Nat) (bytes : List UInt8) :
    read ((allocXmit h id len).memcpy bytes).mem skbHeadneed h.ptrSize = h.ptr id := by
  have hfits : skbHeadneed + h.ptrSize ≤ xmitBuff := Nat.add_le_add_left h.ptr_fits _
  have hself := @read_write_self h.stale skbHeadneed (h.ptr id)
  rw [h.ptr_length] at hself
  refine Eq.trans (read_congr ?_) hself
  intro x _ hx
  exact write_apart (.inl (by omega))

theorem commbXmit_eq {h : BleHost} {k : XmitSkb} (hptr : read k.mem skbHeadneed h.ptrSize = h.ptr k.id)
    (hdata : k.data = 0) (hroom : xmitBuff + n ≤ k.room) :
    commbXmit h k n = some { k with data := xmitBuff, len := n } := by
  have hbuff : xmitBuff - bleBuffSize = skbHeadneed := rfl
  have hpanic : ¬ k.room < k.data + skbHeadneed + bleBuffSize + n := by
    unfold xmitBuff at hroom
    omega
  unfold commbXmit
  simp only [hbuff, hptr, hdata, ne_eq, not_true, if_false, Nat.zero_add]
  rw [hdata, Nat.zero_add] at hpanic
  rw [if_neg hpanic]
  rfl

theorem commbXmit_fits {h : BleHost} {id : Nat} {asked : Nat} {bytes : List UInt8}
    (hroom : xmitBuff + bytes.length ≤ h.room (skbLength asked)) :
    ∃ k, commbXmit h ((allocXmit h id asked).memcpy bytes) bytes.length = some k ∧ k.id = id ∧ k.bytes = bytes :=
  ⟨_, commbXmit_eq (hidden_ptr h id asked bytes) rfl hroom, rfl, read_write_self⟩

namespace BleDev

variable {h : BleHost} {s : BleDev} {data : Nat → UInt8} {c : XmitCopy}

theorem xmit_fits (hroom : xmitBuff + c.count ≤ h.room (skbLength c.asked)) :
    s.xmit h data c =
      if s.started then
        { s with xmitQueue := s.xmitQueue ++ [⟨s.issued, read data c.src c.count⟩], issued := s.issued + 1 }
      else { s with freed := s.issued :: s.freed, issued := s.issued + 1 } := by
  have hlen : (read data c.src c.count).length = c.count := length_read _ _ _
  have hfits : xmitBuff + (read data c.src c.count).length ≤ h.room (skbLength c.asked) := by rwa [hlen]
  obtain ⟨k, hk, hid, hbytes⟩ := @commbXmit_fits h s.issued c.asked _ hfits
  rw [hlen] at hk
  unfold xmit queueOrFree
  rw [hk, ← hid, ← hbytes]

theorem xmit_passed (hroom : xmitBuff + c.count ≤ h.room (skbLength c.asked)) :
    s.Passed (s.xmit h data c) (read data c.src c.count) := by
  rw [xmit_fits hroom]
  unfold Passed
  by_cases hstarted : s.started = true
  · simp [hstarted]
  · simp [hstarted]

def held (s : BleDev) : List Nat := s.xmitQueue.map Frame.id ++ s.hand.toList.map Frame.id ++ s.freed

structure Kept (s : BleDev) : Prop where
  /-- each skb is in one place -/
  owned : ∀ x, s.held.count x = if x < s.issued then 1 else 0
  started_alive : s.started = true → s.alive = true
  stopping : s.phase = .stopping ∨ s.phase = .stopped → s.started = false
  stopped : s.phase = .stopped → s.alive = false
  idle : s.phase = .down ∨ s.alive = false → s.xmitQueue = [] ∧ s.hand = none

theorem kept_fresh (hs : s.fresh) : s.Kept := by
  obtain ⟨hphase, hstarted, halive, hqueue, hhand, -, hfreed, hissued, -⟩ := hs
  refine ⟨?_, ?_, ?_, ?_, fun _ => ⟨hqueue, hhand⟩⟩
  · intro x
    simp [held, hqueue, hhand, hfreed, hissued]
  · simp [hstarted]
  · simp [hstarted]
  · simp [hphase]

theorem count_held_xmitTake (s : BleDev) (x : Nat) : s.xmitTake.held.count x = s.held.count x := by
  unfold xmitTake held
  split
  · rename_i k rest hhand hqueue
    simp only [hhand, hqueue, List.map_cons, Option.toList_some, Option.toList_none, List.map_nil, List.count_append,
      List.count_cons, List.count_nil]
    omega
  · rfl

theorem count_held_xmitDone (s : BleDev) (x : Nat) : s.xmitDone.held.count x = s.held.count x := by
  unfold xmitDone held
  split
  · rename_i k hhand
    simp only [hhand, List.map_cons, Option.toList_some, Option.toList_none, List.map_nil, List.count_append,
      List.count_cons, List.count_nil]
    omega
  · rfl

theorem count_held_purge (s : BleDev) (hhand : s.hand = none) (x : Nat) : s.purge.held.count x = s.held.count x := by
  unfold purge held
  simp only [hhand, Option.toList_none, List.map_nil, List.count_append, List.count_nil]
  omega

theorem xmitTake_idle (hs : s.xmitQueue = [] ∧ s.hand = none) : s.xmitTake = s := by
  unfold xmitTake
  rw [hs.1, hs.2]

theorem xmitDone_idle (hs : s.xmitQueue = [] ∧ s.hand = none) : s.xmitDone = s := by
  unfold xmitDone
  rw [hs.2]

theorem xmitTake_frame (s : BleDev) :
    s.xmitTake.issued = s.issued ∧ s.xmitTake.started = s.started ∧ s.xmitTake.alive = s.alive ∧
      s.xmitTake.phase = s.phase ∧ s.xmitTake.panicked = s.panicked := by
  unfold xmitTake
  split <;> exact ⟨rfl, rfl, rfl, rfl, rfl⟩

theorem xmitDone_frame (s : BleDev) :
    s.xmitDone.issued = s.issued ∧ s.xmitDone.started = s.started ∧ s.xmitDone.alive = s.alive ∧
      s.xmitDone.phase = s.phase ∧ s.xmitDone.panicked = s.panicked := by
  unfold xmitDone
  split <;> exact ⟨rfl, rfl, rfl, rfl, rfl⟩

theorem Kept.turn {t : BleDev} (hk : s.Kept) (hheld : ∀ x, t.held.count x = s.held.count x)
    (hframe : t.issued = s.issued ∧ t.started = s.started ∧ t.alive = s.alive ∧ t.phase = s.phase ∧
      t.panicked = s.panicked) (hidle : s.xmitQueue = [] ∧ s.hand = none → t = s) : t.Kept := by
  obtain ⟨hissued, hstarted, halive, hphase, -⟩ := hframe
  refine ⟨?_, ?_, ?_, ?_, ?_⟩
  · intro x
    rw [hheld, hissued]
    exact hk.owned x
  · rw [hstarted, halive]
    exact hk.started_alive
  · rw [hphase, hstarted]
    exact hk.stopping
  · rw [hphase, halive]
    exact hk.stopped
  · rw [hphase, halive]
    intro hd
    rw [hidle (hk.idle hd)]
    exact hk.idle hd

theorem kept_xmit (hk : s.Kept) (hup : s.phase ≠ .down)
    (hroom : xmitBuff + c.count ≤ h.room (skbLength c.asked)) : (s.xmit h data c).Kept := by
  rw [xmit_fits hroom]
  by_cases hstarted : s.started = true
  · rw [if_pos hstarted]
    refine ⟨?_, hk.started_alive, hk.stopping, hk.stopped, ?_⟩
    · intro x
      have hx := hk.owned x
      simp only [held, List.map_append, List.map_cons, List.map_nil, List.count_append, List.count_cons,
        List.count_nil, beq_iff_eq] at hx ⊢
      split_ifs at hx ⊢ <;> omega
    · rintro (hdown | halive)
      · exact absurd hdown hup
      · have halive' : s.alive = true := hk.started_alive hstarted
        exact absurd (halive.symm.trans halive') (by decide)
  · rw [if_neg hstarted]
    refine ⟨?_, hk.started_alive, hk.stopping, hk.stopped, hk.idle⟩
    intro x
    have hx := hk.owned x
    simp only [held, List.count_append, List.count_cons, beq_iff_eq] at hx ⊢
    split_ifs at hx ⊢ <;> omega

theorem kept_probe (hk : s.Kept) (hdown : s.phase = .down) (recv xmit device : Bool) :
    (s.probe recv xmit device).Kept := by
  have hidle := hk.idle (.inl hdown)
  unfold probe
  split
  · exact ⟨hk.owned, hk.started_alive, hk.stopping, hk.stopped, hk.idle⟩
  have howned : ∀ x, (held { s with xmitQueue := [] }).count x = if x < s.issued then 1 else 0 := by
    intro x
    rw [← hk.owned x]
    unfold held
    rw [hidle.1]
  split
  · exact ⟨howned, hk.started_alive, hk.stopping, hk.stopped, fun _ => ⟨rfl, hidle.2⟩⟩
  · refine ⟨howned, fun _ => rfl, ?_, ?_, fun _ => ⟨rfl, hidle.2⟩⟩
    · cases device <;> simp
    · cases device <;> simp

theorem kept_purge (hk : s.Kept) (hphase : s.phase = .stopping) (hhand : s.hand = none) : s.purge.Kept := by
  have hstarted : s.started = false := hk.stopping (.inl hphase)
  refine ⟨?_, ?_, fun _ => hstarted, fun _ => rfl, fun _ => ⟨rfl, hhand⟩⟩
  · intro x
    rw [count_held_purge s hhand]
    exact hk.owned x
  · intro h
    exact absurd (hstarted.symm.trans h) (by decide)

def left (s : BleDev) : Nat := 2 * s.xmitQueue.length + s.hand.toList.length

theorem left_threadTurn (s : BleDev) : s.threadTurn.left = s.left - 1 := by
  unfold threadTurn left
  split
  · rename_i hhand
    unfold xmitTake
    cases hqueue : s.xmitQueue with
    | nil => simp [hhand, hqueue]
    | cons k rest =>
      simp only [hhand, List.length_cons, Option.toList_some, Option.toList_none, List.length_nil]
      omega
  · rename_i hhand
    obtain ⟨k, hk⟩ := Option.ne_none_iff_exists'.mp hhand
    simp only [xmitDone, hk, Option.toList_some, Option.toList_none, List.length_cons, List.length_nil]
    omega

theorem count_held_threadTurn (s : BleDev) (x : Nat) : s.threadTurn.held.count x = s.held.count x := by
  unfold threadTurn
  split
  · exact count_held_xmitTake s x
  · exact count_held_xmitDone s x

theorem turns_spec (n : Nat) (s : BleDev) (hn : s.left = n) :
    (threadTurn^[n] s).left = 0 ∧ ∀ x, (threadTurn^[n] s).held.count x = s.held.count x := by
  induction n generalizing s with
  | zero => exact ⟨hn, fun _ => rfl⟩
  | succ n ih =>
    have hturn : s.threadTurn.left = n := by
      rw [left_threadTurn]
      omega
    obtain ⟨hleft, hheld⟩ := ih s.threadTurn hturn
    refine ⟨hleft, fun x => ?_⟩
    rw [← count_held_threadTurn s x]
    exact hheld x

theorem freed_drain (s : BleDev) (x : Nat) : s.drain.freed.count x = s.held.count x := by
  obtain ⟨hleft, hheld⟩ := turns_spec s.left s rfl
  rw [← hheld x]
  have hzero : s.drain.left = 0 := hleft
  have hqueue : s.drain.xmitQueue = [] := List.length_eq_zero_iff.mp (by unfold left at hzero; omega)
  have hhand : s.drain.hand.toList = [] := List.length_eq_zero_iff.mp (by unfold left at hzero; omega)
  show s.drain.freed.count x = s.drain.held.count x
  simp only [held, hqueue, hhand, List.map_nil, List.nil_append]

theorem Kept.pathOk (hk : s.Kept) (hcalm : s.panicked = false) : s.PathOk := by
  refine ⟨hcalm, ?_, ?_⟩
  · intro x
    have hx := hk.owned x
    have hle : s.freed.count x ≤ s.held.count x := by
      unfold held
      rw [List.count_append]
      exact Nat.le_add_left _ _
    split at hx <;> omega
  · intro x hx
    rw [freed_drain, hk.owned x, if_pos hx]

theorem copyFits_iff {len n : Nat} :
    CopyFits h data len n ↔
      xmitBuff + (h.copyOf data len).count ≤ h.room (skbLength (h.copyOf data len).asked) ∧
        (Wire.Span.mk (h.copyOf data len).src (h.copyOf data len).count).Within n := by
  unfold CopyFits BleHost.copyOf
  rw [Wire.Span.within_iff]
  cases h.ops with
  | default => exact Iff.rfl
  | bluedroid =>
    have hroom := h.enough (skbLength len)
    unfold skbLength at hroom
    show len ≤ n ↔ xmitBuff + len ≤ h.room (skbLength len) ∧ (len = 0 ∨ 0 + len ≤ n)
    unfold xmitBuff skbLength
    omega

variable {a : BleCall} {f : Nat} {t : Taken}

theorem up_of_taken {p : Nat × Taken} (ht : s.taken h a = some p) : s.phase ≠ .down := by
  intro hdown
  cases a <;> simp [taken, hdown] at ht

theorem next_fileCall (ht : s.taken h a = some (f, t)) : s.next h a = s.fileCall h f t a.alloc := by
  cases a <;> first | cases ht | (simp only [next, ht])

theorem kept_fileCall (hk : s.Kept) (ht : s.taken h a = some (f, t)) (hm : Meets h s a) :
    (s.fileCall h f t a.alloc).Kept ∧ (s.fileCall h f t a.alloc).panicked = s.panicked := by
  have hk' : Kept { s with files := setAt s.files f t.data } :=
    ⟨hk.owned, hk.started_alive, hk.stopping, hk.stopped, hk.idle⟩
  unfold fileCall
  cases hlen : t.len with
  | none => exact ⟨hk', rfl⟩
  | some len =>
    cases halloc : a.alloc with
    | false => exact ⟨hk', rfl⟩
    | true =>
      have hroom := (copyFits_iff.mp (hm.1 f t len ht hlen halloc)).1
      have hup := up_of_taken ht
      refine ⟨kept_xmit hk' hup hroom, ?_⟩
      show (xmit h t.data (h.copyOf t.data len) { s with files := setAt s.files f t.data }).panicked = s.panicked
      rw [xmit_fits hroom]
      split <;> rfl

theorem passed_fileCall {len : Nat} (ht : s.taken h a = some (f, t))
    (hlen : t.len = some len) (halloc : a.alloc = true) (hm : Meets h s a) :
    s.Passed (s.next h a)
      ((a.supplied.drop (h.copyOf t.data len).src).take (h.copyOf t.data len).count) := by
  obtain ⟨hroom, hwithin⟩ := copyFits_iff.mp (hm.1 f t len ht hlen halloc)
  have hbytes : (a.supplied.drop (h.copyOf t.data len).src).take (h.copyOf t.data len).count =
      read t.data (h.copyOf t.data len).src (h.copyOf t.data len).count := by
    rcases Wire.Span.within_iff.mp hwithin with hzero | hle
    · have hzero' : (h.copyOf t.data len).count = 0 := hzero
      rw [hzero', List.take_zero]
      rfl
    · have hpart : ((read t.data 0 a.supplied.length).drop _).take _ = _ := take_drop_read hle
      rwa [taken_supplied ht hlen, Nat.zero_add] at hpart
  rw [next_fileCall ht, hbytes]
  unfold fileCall
  simp only [hlen, halloc, if_true]
  exact xmit_passed hroom

theorem devRecv_received {wsm : Nat → UInt8} {len : UInt16} (hlen : len.toNat ≤ maxSyncEventBufferLen)
    (hstarted : s.started = true) :
    ∃ k, (s.devRecv h wsm len).recvQueue = s.recvQueue ++ [k] ∧ k.size = len.toNat ∧
      k.eventBuffer.take k.size = read wsm 0 len.toNat := by
  unfold devRecv
  rw [if_neg (by omega), if_pos hstarted]
  refine ⟨_, rfl, rfl, ?_⟩
  have hself := @read_write_self h.stale 0 (read wsm 0 len.toNat)
  rw [length_read] at hself
  dsimp only
  rw [take_read hlen, hself]

theorem stepOk_of_meets (hm : Meets h s a) : StepOk h s a := by
  refine ⟨?_, ?_⟩
  · intro f t len ht hlen halloc
    obtain ⟨hroom, hwithin⟩ := copyFits_iff.mp (hm.1 f t len ht hlen halloc)
    exact ⟨hroom, hwithin, passed_fileCall ht hlen halloc hm⟩
  · rintro wsm len rfl
    exact ⟨hm.2 wsm len rfl, devRecv_received (hm.2 wsm len rfl)⟩

theorem meets_of_stepOk (h' : StepOk h s a) : Meets h s a := by
  refine ⟨?_, fun wsm len ha => (h'.received wsm len ha).1⟩
  intro f t len ht hlen halloc
  obtain ⟨hroom, hwithin, -⟩ := h'.copied f t len ht hlen halloc
  exact copyFits_iff.mpr ⟨hroom, hwithin⟩

theorem kept_next (hk : s.Kept) (hcalm : s.panicked = false) (hen : s.enabled a) (hm : Meets h s a) :
    (s.next h a).Kept ∧ (s.next h a).panicked = false := by
  cases ht : s.taken h a with
  | some p =>
    obtain ⟨f, t⟩ := p
    rw [next_fileCall ht]
    obtain ⟨hkept, hsame⟩ := kept_fileCall hk ht hm
    exact ⟨hkept, hsame.trans hcalm⟩
  | none =>
    have hsame : Kept s ∧ s.panicked = false := ⟨hk, hcalm⟩
    cases a with
    | write f u alloc =>
      simp only [next, ht]
      exact hsame
    | writev f iov alloc =>
      simp only [next, ht]
      exact hsame
    | ioctl f cmd arg alloc =>
      simp only [next, ht]
      exact hsame
    | flush f => exact ⟨⟨hk.owned, hk.started_alive, hk.stopping, hk.stopped, hk.idle⟩, hcalm⟩
    | devRecv wsm len alloc =>
      cases alloc with
      | false => exact hsame
      | true =>
        have hlen := hm.2 wsm len rfl
        show (s.devRecv h wsm len).Kept ∧ (s.devRecv h wsm len).panicked = false
        unfold devRecv
        rw [if_neg (by omega)]
        split
        · exact ⟨⟨hk.owned, hk.started_alive, hk.stopping, hk.stopped, hk.idle⟩, hcalm⟩
        · exact hsame
    | recvThread => exact ⟨⟨hk.owned, hk.started_alive, hk.stopping, hk.stopped, hk.idle⟩, hcalm⟩
    | xmitTake =>
      obtain ⟨-, -, -, -, hpanicked⟩ := s.xmitTake_frame
      exact ⟨hk.turn (count_held_xmitTake s) s.xmitTake_frame xmitTake_idle, hpanicked.trans hcalm⟩
    | xmitDone =>
      obtain ⟨-, -, -, -, hpanicked⟩ := s.xmitDone_frame
      exact ⟨hk.turn (count_held_xmitDone s) s.xmitDone_frame xmitDone_idle, hpanicked.trans hcalm⟩
    | probe recv xmit device =>
      refine ⟨kept_probe hk hen recv xmit device, ?_⟩
      show (s.probe recv xmit device).panicked = false
      unfold probe
      split
      · exact hcalm
      · split <;> exact hcalm
    | stop =>
      have hup : s.phase = .up := hen
      refine ⟨⟨hk.owned, nofun, fun _ => rfl, nofun, ?_⟩, hcalm⟩
      rintro (hdown | halive)
      · exact absurd hdown nofun
      · exact hk.idle (.inr halive)
    | purge => exact ⟨kept_purge hk hen.1 hen.2, hcalm⟩
    | unbind =>
      have hstopped : s.phase = .stopped := hen
      have hstarted := hk.stopping (.inr hstopped)
      have halive := hk.stopped hstopped
      refine ⟨⟨hk.owned, hk.started_alive, ?_, ?_, fun _ => hk.idle (.inr halive)⟩, hcalm⟩
      · exact fun _ => hstarted
      · exact fun _ => halive

/-- **The data path is bounded.**  Along every run, every copy fits its buffer and what was supplied, every
message fits the event buffer, each skb is of just the bytes that were copied, and all of them are freed exactly once,
exactly when every call meets its condition. -/
theorem data_path_iff {h : BleHost} {s t : BleDev} {l : List (BleDev × BleCall)} (hs : s.fresh)
    (hp : Path (bleDataPath h) s l t) :
    ((∀ p ∈ l, PathOk p.1 ∧ StepOk h p.1 p.2) ∧ PathOk t) ↔ ∀ p ∈ l, Meets h p.1 p.2 := by
  have hk := kept_fresh hs
  have hcalm : s.panicked = false := hs.2.2.2.2.2.2.2.2
  refine Path.exactSteps (I := Kept) ?_ ?_ hp hk (hk.pathOk hcalm)
  · rintro u a v hku hok ⟨hen, rfl⟩ hm
    obtain ⟨hkept, hcalm'⟩ := kept_next hku hok.calm hen hm
    exact ⟨hkept, hkept.pathOk hcalm', stepOk_of_meets hm⟩
  · rintro u a v - - - - hstep
    exact meets_of_stepOk hstep

theorem meets_quiet (ht : s.taken h a = none) (hr : ∀ wsm len, a ≠ .devRecv wsm len true) : Meets h s a := by
  refine ⟨?_, fun wsm len ha => absurd ha (hr wsm len)⟩
  intro f t len hsome
  rw [ht] at hsome
  cases hsome

def defaultHost : BleHost :=
  { ops := .default
    iter := true
    bigEndian := false
    ptrSize := 4
    ptr_fits := by decide
    ptr := fun id => [UInt8.ofNat id, 0, 0, 0xc0]
    ptr_length := fun _ => rfl
    stale := fun _ => 0
    room := id
    enough := fun _ => Nat.le_refl _ }

def freshDev : BleDev :=
  { files := fun _ _ => 0
    flushed := fun _ => false
    phase := .down
    started := false
    alive := false
    xmitQueue := []
    hand := none
    recvQueue := []
    freed := []
    issued := 0
    panicked := false }

theorem freshDev_fresh : freshDev.fresh := ⟨rfl, rfl, rfl, rfl, rfl, rfl, rfl, rfl, rfl⟩

def oneWrite : List BleCall :=
  [.probe true true true, .write 0 ⟨[3, 0, 1, 2, 3], 5⟩ true, .xmitTake, .xmitDone, .stop, .purge]

theorem data_path_iff_oneWrite : PathOk (oneWrite.foldl (next defaultHost) freshDev) := by
  have hp : Path (bleDataPath defaultHost) freshDev (trace (next defaultHost) freshDev oneWrite)
      (oneWrite.foldl (next defaultHost) freshDev) :=
    Path.ofFires ⟨rfl, trivial, rfl, rfl, rfl, ⟨rfl, rfl⟩, trivial⟩
  refine ((data_path_iff freshDev_fresh hp).mpr ?_).2
  intro p hp
  simp only [oneWrite, trace, List.mem_cons, List.not_mem_nil, or_false] at hp
  rcases hp with rfl | rfl | rfl | rfl | rfl | rfl
  · exact meets_quiet rfl nofun
  · refine ⟨?_, nofun⟩
    intro f t len ht hlen _
    cases ht
    exact (by decide +kernel : xmitBuff + 3 ≤ 704 ∧ (3 = 0 ∨ 2 + 3 ≤ 5))
  · exact meets_quiet rfl nofun
  · exact meets_quiet rfl nofun
  · exact meets_quiet rfl nofun
  · exact meets_quiet rfl nofun

def longWrite : BleCall := .write 0 ⟨[0x58, 0x02] ++ List.replicate 600 7, 602⟩ true

/-- A write of the default set goes beyond its buffer and panics, and so does a message of 513 bytes. -/
theorem data_path_panics :
    ∃ s, Reach (bleDataPath defaultHost) s ∧ ¬ StepOk defaultHost s longWrite ∧
      (s.next defaultHost longWrite).panicked = true ∧
      (s.next defaultHost (.devRecv (fun _ => 0) 513 true)).panicked = true := by
  have hen : freshDev.enabled (.probe true true true) := rfl
  refine ⟨freshDev.next defaultHost (.probe true true true), .step (.init freshDev_fresh) ⟨hen, rfl⟩, ?_,
    by decide +kernel, by decide +kernel⟩
  intro h
  have hfits := (meets_of_stepOk h).1 0 _ 602 rfl (by decide +kernel) rfl
  exact absurd hfits.1 (by decide +kernel)

end BleDev

end BlePath

end AtbmWifi
