import AtbmWifi.Lib.Transition

/-!
# The BLE character device

`ieee80211_ble_cdev_rx` submits each message of the device to every open file, `ieee80211_ble_read` hands
them out.  A read holds the lock of the device; it takes the whole queue of the file, looks at the first
skb and puts what is left in front of what has come in the meantime.  The build has one of two
sets of operations.

`queued` and `delivered` of a file and the numbers of the skbs are history: no step looks at them.
-/

namespace AtbmWifi

open Transition

/-- The operation sets, `ieee880211_ble_ops` with and without `BLUEDROID`. -/
inductive BleOps
  | default
  | bluedroid
  deriving DecidableEq, Repr

def BleOps.cacheLimit : BleOps → Nat
  | default => 32
  | bluedroid => 128

def maxSyncEventBufferLen : Nat := 512

/-- `offsetof(struct ioctl_status_async, event_buffer)` -/
def eventBufferOffset : Nat := 3

/-- `sizeof(struct ioctl_status_async)` -/
def sizeofIoctlStatusAsync : Nat := eventBufferOffset + maxSyncEventBufferLen

/-- `cb->hw_hdr_size`, which is `sizeof(struct wsm_hdr)` -/
def bleHwHdrSize : Nat := 4

/-- A message of the device, as `ieee80211_ble_dev_recv` puts it into an skb. -/
structure BleMsg where
  type : UInt8
  driverMode : UInt8
  eventBuffer : List UInt8
  /-- `cb->size`, the length of the event -/
  size : BitVec 64
  full : eventBuffer.length = maxSyncEventBufferLen

/-- `struct ioctl_status_async` with a value of `list_empty` -/
def BleMsg.bytes (m : BleMsg) (listEmpty : Bool) : List UInt8 :=
  [m.type, m.driverMode, if listEmpty then 1 else 0] ++ m.eventBuffer

structure BleSkb where
  id : Nat
  data : List UInt8
  size : BitVec 64
  /-- `cb->nr` -/
  nr : Nat
  deriving DecidableEq, Repr

def BleMsg.skb (m : BleMsg) (id : Nat) : BleSkb := ⟨id, m.bytes false, m.size, 0⟩

structure BleFile where
  recvQueue : List BleSkb
  /-- the list on the stack of a read in progress -/
  list : Option (List BleSkb)
  /-- messages queued for it -/
  queued : List BleMsg
  /-- bytes of its successful reads -/
  delivered : List UInt8

def BleFile.skbs (f : BleFile) : List BleSkb := f.list.getD [] ++ f.recvQueue

structure BleCdev where
  files : List BleFile
  freed : List Nat
  /-- skbs allocated -/
  issued : Nat
  /-- `BUG_ON(cb->nr != 0)` -/
  bug : Bool

/-- `ieee80211_ble_file_submit_skb`; whether the skb is queued. -/
def ieee80211BleFileSubmitSkb (ops : BleOps) (m : BleMsg) (id : Nat) (f : BleFile) : BleFile × Bool :=
  if f.recvQueue.length < ops.cacheLimit then
    ({ f with recvQueue := f.recvQueue ++ [m.skb id], queued := f.queued ++ [m] }, true)
  else (f, false)

/-- The loop of `ieee80211_ble_cdev_rx` over the files: all but the last get a copy, if it can be allocated; the
last one gets the skb, which the receive thread frees if that returns an error or there is no file.
The files, the skbs freed and the number of the next copy. -/
def bleCdevRx (ops : BleOps) (m : BleMsg) (id : Nat) : List BleFile → List Bool → Nat → List BleFile × List Nat × Nat
  | [], _, next => ([], [id], next)
  | [f], _, next =>
    let (f, queued) := ieee80211BleFileSubmitSkb ops m id f
    ([f], if queued = true then [] else [id], next)
  | f :: g :: fs, copies, next =>
    match copies.headD true with
    | true =>
      let (f, queued) := ieee80211BleFileSubmitSkb ops m next f
      let (fs, freed, last) := bleCdevRx ops m id (g :: fs) copies.tail (next + 1)
      (f :: fs, (if queued = true then [] else [next]) ++ freed, last)
    | false =>
      let (fs, freed, last) := bleCdevRx ops m id (g :: fs) copies.tail next
      (f :: fs, freed, last)

/-- What `ops->read` of `BLUEDROID` does to an skb it has not seen before. -/
def BleSkb.strip (k : BleSkb) : BleSkb :=
  let size := k.size - BitVec.ofNat 64 bleHwHdrSize
  -- `atbm_skb_trim` takes an `unsigned int`
  { k with data := ((k.data.drop eventBufferOffset).drop bleHwHdrSize).take (size.setWidth 32).toNat, size := size }

def ieee8021BleOperationsBluedriodRead (k : BleSkb) (len : Nat) (copied : Bool) : BleSkb × Int :=
  let k := if k.nr = 0 then k.strip else k
  (k, if copied = true then (min len k.data.length : Nat) else -1)

def ieee8021BleOperationsDefaultRead (k : BleSkb) (len : Nat) (copied : Bool) : BleSkb × Int :=
  (k, if copied = true then (min len sizeofIoctlStatusAsync : Nat) else -1)

def BleOps.read : BleOps → BleSkb → Nat → Bool → BleSkb × Int
  | bluedroid => ieee8021BleOperationsBluedriodRead
  | default => ieee8021BleOperationsDefaultRead

/-- `status->list_empty` of an skb that is read for the first time. -/
def BleSkb.setListEmpty (k : BleSkb) (waiting : Nat) : BleSkb :=
  if k.nr = 0 then { k with data := k.data.set 2 (if 2 ≤ waiting then 0 else 1) } else k

/-- What becomes of the first skb after `ops->read`: what stays on the list and what is freed.  The comparison is one
of an `int` with an `unsigned int`. -/
def BleSkb.consume (k : BleSkb) (ret : Int) : List BleSkb × List Nat :=
  if k.data.length ≤ (BitVec.ofInt 32 ret).toNat then ([], [k.id])
  else if 0 < ret then ([{ k with nr := k.nr + 1, data := k.data.drop ret.toNat }], [])
  else ([k], [])

/-- `ieee80211_ble_read`, from the look at the first skb to the end; the skbs freed. -/
def BleFile.finishRead (ops : BleOps) (len : Nat) (copied : Bool) (f : BleFile) : BleFile × List Nat :=
  match f.list with
  | some (k :: rest) =>
    let (k, ret) := ops.read (k.setListEmpty (rest.length + 1)) len copied
    let (left, freed) := k.consume ret
    ({ f with
        recvQueue := left ++ rest ++ f.recvQueue
        list := none
        delivered := f.delivered ++ k.data.take ret.toNat }, freed)
  | some [] | none => (f, [])

def BleFile.first (f : BleFile) : Option BleSkb := f.list.bind List.head?

inductive BleAct
  | openFile
  /-- the last `close` of the file -/
  | release (i : Nat)
  | receive (m : BleMsg) (copies : List Bool)
  /-- a read has the lock of the device and takes the queue of the file -/
  | splice (i : Nat)
  /-- and goes on, with its buffer length and whether `copy_to_user` succeeds -/
  | read (i : Nat) (len : Nat) (copied : Bool)

namespace BleAct

/-- Whether the action can be taken; a copy of no bytes does not fail. -/
def Enabled (ops : BleOps) (s : BleCdev) (a : BleAct) : Prop :=
  s.bug = false ∧
    match a with
    | openFile | receive _ _ => True
    | release i => i < s.files.length ∧ ∀ f ∈ s.files, f.list = none
    | splice i => (∀ f ∈ s.files, f.list = none) ∧ ∃ f ∈ s.files[i]?, f.recvQueue ≠ []
    | read i len copied => 0 < len ∧ ∃ f ∈ s.files[i]?, ∃ k ∈ f.first,
        copied = false → (ops.read k len true).2 ≠ 0

def next (ops : BleOps) (s : BleCdev) : BleAct → BleCdev
  | openFile => { s with files := s.files ++ [⟨[], none, [], []⟩] }
  | release i =>
    { s with
      files := s.files.eraseIdx i
      freed := s.freed ++ ((s.files[i]?.map BleFile.skbs).getD []).map BleSkb.id }
  | receive m copies =>
    let (files, freed, last) := bleCdevRx ops m s.issued s.files copies (s.issued + 1)
    { s with files := files, freed := s.freed ++ freed, issued := last }
  | splice i =>
    match s.files[i]? with
    | some f => { s with files := s.files.set i { f with recvQueue := [], list := some f.recvQueue } }
    | none => s
  | read i len copied =>
    match s.files[i]? with
    | some f =>
      let (g, freed) := f.finishRead ops len copied
      { s with
        files := s.files.set i g
        freed := s.freed ++ freed
        bug := s.bug || (ops == .default && f.first.any fun k => k.nr != 0) }
    | none => s

instance decEnabled (ops : BleOps) (s : BleCdev) (a : BleAct) : Decidable (a.Enabled ops s) := by
  unfold Enabled
  cases a <;> infer_instance

end BleAct

def bleCdevs (ops : BleOps) : Sys BleCdev BleAct :=
  .ofNext (fun s => s = ⟨[], [], 0, false⟩) (fun s a => a.Enabled ops s) (BleAct.next ops)

end AtbmWifi
