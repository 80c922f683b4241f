import AtbmWifi.Lib.Memory
import AtbmWifi.Lib.Message
import AtbmWifi.Ble.Cdev

/-!
# The HCI packets of the controller

`fs_read_func` of the BLE host reads a message of the driver into `event_buffer` and gives what stands behind the
`wsm_hdr` to `ble_hci_trans_hs_rx`, which copies one HCI packet to a buffer of the host.  How long the packet is it takes
from the packet; how much was delivered it does not look at.  An event is held against the size of its
buffer by an `assert`.  An ACL packet is held against the size of the block, of which the headers of the mbuf
take a part: `hsRx_safe_iff` says which messages are handled as they should be.
-/

namespace AtbmWifi

namespace HciRx

open Memory Wire

def hifAcl : UInt8 := 0x02

def hifEvt : UInt8 := 0x04

def evtBufSize : Nat := 70

def eventHdrLen : Nat := 2

def dataHdrSz : Nat := 4

def getLe16 (m : Nat → UInt8) (a : Nat) : Nat := (m a).toNat + (m (a + 1)).toNat * 256

/-- `event_buffer`.  Its `wsm_hdr` says how many bytes the driver delivered; at a longer message the driver stops. -/
structure EventBuffer where
  mem : Nat → UInt8
  fits : getLe16 mem 0 ≤ maxSyncEventBufferLen

namespace EventBuffer

def id (b : EventBuffer) : Nat := getLe16 b.mem 2

/-- `(unsigned char *)(wsm + 1)` -/
def data (b : EventBuffer) : Nat → UInt8 := fun i => b.mem (bleHwHdrSize + i)

/-- How many bytes of `data` were delivered. -/
def avail (b : EventBuffer) : Nat := getLe16 b.mem 0 - bleHwHdrSize

end EventBuffer

def osAlign (n a : Nat) : Nat := if n % a = 0 then n else n + (a - n % a)

/-- The sizes of the structures in front of the data of an mbuf, and `OS_ALIGNMENT`. -/
structure Layout where
  align : Nat
  osMbuf : Nat
  osMbufPkthdr : Nat
  bleMbufHdr : Nat
  word : align = 4 ∨ align = 8
  short : bleMbufHdr + osMbufPkthdr ≤ 255

namespace Layout

def pkthdrLen (y : Layout) : Nat := y.bleMbufHdr + y.osMbufPkthdr

def aclBlockSize (y : Layout) : Nat := osAlign (255 + (y.osMbuf + y.pkthdrLen) + dataHdrSz) y.align

def databufLen (y : Layout) : Nat := y.aclBlockSize - y.osMbuf

/-- Where `om_data` points to in the block. -/
def omData (y : Layout) : Nat := y.osMbuf + y.pkthdrLen

end Layout

/-- `mp_num_free` of the pools -/
structure HciPools where
  cmd : Nat
  evtHi : Nat
  evtLo : Nat
  acl : Nat
  deriving DecidableEq, Repr

def osMemblockGet (numFree : Nat) : Option Nat := if numFree = 0 then none else some (numFree - 1)

inductive TransBuf
  | cmd
  | evtHi
  | evtLo
  deriving DecidableEq, Repr

def HciPools.evtLoGet (p : HciPools) : Option HciPools := (osMemblockGet p.evtLo).map ({ p with evtLo := · })

def bleHciTransBufAlloc (p : HciPools) : TransBuf → Option HciPools
  | .cmd => (osMemblockGet p.cmd).map ({ p with cmd := · })
  | .evtHi =>
    match osMemblockGet p.evtHi with
    | some n => some { p with evtHi := n }
    -- no high-priority buffer remains: a low-priority one
    | none => p.evtLoGet
  | .evtLo => p.evtLoGet

/-- `os_mbuf_get_pkthdr` on the pool of the mbufs -/
def bleHciTransAclBufAlloc (y : Layout) (p : HciPools) : Option HciPools :=
  if y.databufLen < y.pkthdrLen ∨ 255 < y.pkthdrLen then none
  else (osMemblockGet p.acl).map ({ p with acl := · })

structure AclMbuf where
  block : Nat → UInt8
  omData : Nat
  omLen : Nat
  pktLen : Nat

inductive Upper
  | event (evtbuf : Nat → UInt8)
  | acl (om : AclMbuf)

/-- The bytes of a block of `size` bytes that a `memcpy` writes. -/
structure Copy where
  dst : Span
  size : Nat
  deriving DecidableEq, Repr

/-- What a call did; `ret` is none where an `assert` failed. -/
structure Rx where
  ret : Option Int
  pools : HciPools
  reads : List Span
  copies : List Copy
  up : Option Upper

def evtType (ack : Bool) : TransBuf := if ack then .evtHi else .evtLo

/-- `case BLE_HCI_HIF_EVT`; `old` is what the block held. -/
def rxEvt (p : HciPools) (old : Nat → UInt8) (ack : Bool) (data : Nat → UInt8) : Rx :=
  let len := (data 2).toNat + eventHdrLen
  if evtBufSize < len then ⟨none, p, [⟨0, 1⟩, ⟨2, 1⟩], [], none⟩
  else
    match bleHciTransBufAlloc p (evtType ack) with
    | none => ⟨some (-1), p, [⟨0, 1⟩, ⟨2, 1⟩], [], none⟩
    | some p' =>
      ⟨some 0, p', [⟨0, 1⟩, ⟨2, 1⟩, ⟨1, len⟩], [⟨⟨0, len⟩, evtBufSize⟩],
        some (.event (write old 0 (read data 1 len)))⟩

/-- `case BLE_HCI_HIF_ACL` -/
def rxAcl (y : Layout) (p : HciPools) (old : Nat → UInt8) (data : Nat → UInt8) : Rx :=
  let len := getLe16 data 3 + dataHdrSz
  if y.aclBlockSize < len then ⟨none, p, [⟨0, 1⟩, ⟨3, 2⟩], [], none⟩
  else
    match bleHciTransAclBufAlloc y p with
    | none => ⟨some (-1), p, [⟨0, 1⟩, ⟨3, 2⟩], [], none⟩
    | some p' =>
      ⟨some 0, p', [⟨0, 1⟩, ⟨3, 2⟩, ⟨1, len⟩], [⟨⟨y.omData, len⟩, y.aclBlockSize⟩],
        some (.acl ⟨write old y.omData (read data 1 len), y.omData, len, len⟩)⟩

/-- `ble_hci_trans_hs_rx`; `data_len` it does not use.  The callbacks are set before the first message is read. -/
def hsRx (y : Layout) (p : HciPools) (old : Nat → UInt8) (ack : Bool) (data : Nat → UInt8) : Rx :=
  if data 0 = hifEvt then rxEvt p old ack data
  else if data 0 = hifAcl then rxAcl y p old data
  else ⟨some (-1), p, [⟨0, 1⟩], [], none⟩

/-- `fs_read_func` on one message: `BLE_MSG_TYPE_ACK`, `BLE_MSG_TYPE_EVT`, and others, which it drops. -/
def fsRead (y : Layout) (p : HciPools) (old : Nat → UInt8) (b : EventBuffer) : Option Rx :=
  if b.id = 1 then some (hsRx y p old true b.data)
  else if b.id = 2 then some (hsRx y p old false b.data)
  else none

inductive HciPacket
  | event (code : UInt8) (params : List UInt8) (fits : params.length < 256)
  | acl (handle : UInt8 × UInt8) (len : UInt8 × UInt8) (payload : List UInt8)
      (counts : payload.length = len.1.toNat + len.2.toNat * 256)

namespace HciPacket

def type : HciPacket → UInt8
  | .event .. => hifEvt
  | .acl .. => hifAcl

def bytes : HciPacket → List UInt8
  | .event code params _ => code :: UInt8.ofNat params.length :: params
  | .acl handle len payload _ => handle.1 :: handle.2 :: len.1 :: len.2 :: payload

end HciPacket

/-- The callback finds the packet in its buffer: an event by its own length, an ACL packet by that of the mbuf. -/
def Upper.Holds : Upper → HciPacket → Prop
  | .event evtbuf, .event code params fits =>
    read evtbuf 0 ((evtbuf 1).toNat + eventHdrLen) = (HciPacket.event code params fits).bytes
  | .acl om, .acl handle len payload counts =>
    om.pktLen = om.omLen ∧ read om.block om.omData om.omLen = (HciPacket.acl handle len payload counts).bytes
  | _, _ => False

/-- The message was rejected with nothing kept, or its packet was passed up, within all bounds. -/
structure Safe (b : EventBuffer) (p : HciPools) (r : Rx) : Prop where
  no_assert : r.ret ≠ none
  reads : ∀ s ∈ r.reads, s.Within b.avail
  copies : ∀ c ∈ r.copies, c.dst.Within c.size
  settled : (∃ e < 0, r.ret = some e ∧ r.pools = p ∧ r.up = none) ∨
    r.ret = some 0 ∧ ∃ u pkt, r.up = some u ∧ u.Holds pkt ∧ pkt.type :: pkt.bytes <+: read b.data 0 b.avail

def evtFree (ack : Bool) (p : HciPools) : Nat := if ack then p.evtHi + p.evtLo else p.evtLo

structure EvtFits (p : HciPools) (ack : Bool) (b : EventBuffer) : Prop where
  header : 3 ≤ b.avail
  size : (b.data 2).toNat + eventHdrLen ≤ evtBufSize
  delivered : 0 < evtFree ack p → 1 + (b.data 2).toNat + eventHdrLen ≤ b.avail

/-- The ACL packet was delivered, and fits behind the headers of the mbuf. -/
structure AclFits (y : Layout) (p : HciPools) (b : EventBuffer) : Prop where
  header : 5 ≤ b.avail
  size : getLe16 b.data 3 + dataHdrSz ≤ y.aclBlockSize
  room : 0 < p.acl → y.omData + (getLe16 b.data 3 + dataHdrSz) ≤ y.aclBlockSize
  delivered : 0 < p.acl → 1 + getLe16 b.data 3 + dataHdrSz ≤ b.avail

/-- The message has a type, and what the type announces was delivered and fits. -/
structure Fits (y : Layout) (p : HciPools) (ack : Bool) (b : EventBuffer) : Prop where
  type : 1 ≤ b.avail
  evt : b.data 0 = hifEvt → EvtFits p ack b
  acl : b.data 0 = hifAcl → AclFits y p b

theorem osMemblockGet_none {n : Nat} : osMemblockGet n = none ↔ n = 0 := by
  unfold osMemblockGet
  split <;> simp_all

theorem evtLoGet_none {p : HciPools} : p.evtLoGet = none ↔ p.evtLo = 0 := by
  unfold HciPools.evtLoGet
  rw [Option.map_eq_none_iff, osMemblockGet_none]

theorem bufAlloc_none {p : HciPools} {ack : Bool} :
    bleHciTransBufAlloc p (evtType ack) = none ↔ evtFree ack p = 0 := by
  cases ack with
  | false => exact evtLoGet_none
  | true =>
    show bleHciTransBufAlloc p .evtHi = none ↔ p.evtHi + p.evtLo = 0
    simp only [bleHciTransBufAlloc]
    cases h : osMemblockGet p.evtHi with
    | none =>
      have hi := osMemblockGet_none.mp h
      have hlo := @evtLoGet_none p
      simp only [hi, Nat.zero_add]
      exact hlo
    | some n =>
      have hi : p.evtHi ≠ 0 := fun h0 => by
        have := osMemblockGet_none.mpr h0
        simp [h] at this
      simp only [reduceCtorEq, false_iff]
      omega

theorem le_osAlign (n a : Nat) : n ≤ osAlign n a := by
  unfold osAlign
  split
  · exact Nat.le_refl n
  · exact Nat.le_add_right _ _

theorem omData_le (y : Layout) : y.omData + (255 + dataHdrSz) ≤ y.aclBlockSize := by
  have := le_osAlign (255 + (y.osMbuf + y.pkthdrLen) + dataHdrSz) y.align
  unfold Layout.omData Layout.aclBlockSize
  omega

theorem aclBufAlloc_none {y : Layout} {p : HciPools} : bleHciTransAclBufAlloc y p = none ↔ p.acl = 0 := by
  have hroom := omData_le y
  have hshort : y.pkthdrLen ≤ 255 := y.short
  have hfits : ¬ (y.databufLen < y.pkthdrLen ∨ 255 < y.pkthdrLen) := by
    unfold Layout.databufLen
    unfold Layout.omData at hroom
    omega
  unfold bleHciTransAclBufAlloc
  rw [if_neg hfits, Option.map_eq_none_iff, osMemblockGet_none]

def eventAt (b : EventBuffer) : HciPacket :=
  .event (b.data 1) (read b.data 3 (b.data 2).toNat) (by rw [length_read]; exact (b.data 2).toNat_lt)

theorem eventAt_bytes (b : EventBuffer) :
    (eventAt b).bytes = read b.data 1 ((b.data 2).toNat + eventHdrLen) := by
  show b.data 1 :: UInt8.ofNat (read b.data 3 (b.data 2).toNat).length :: read b.data 3 (b.data 2).toNat = _
  rw [length_read, UInt8.ofNat_toNat]
  have h : read b.data 1 ((b.data 2).toNat + eventHdrLen) = _ := read_succ _ _ _
  rw [h, read_succ]

def aclAt (b : EventBuffer) : HciPacket :=
  .acl (b.data 1, b.data 2) (b.data 3, b.data 4) (read b.data 5 (getLe16 b.data 3)) (length_read _ _ _)

theorem aclAt_bytes (b : EventBuffer) : (aclAt b).bytes = read b.data 1 (getLe16 b.data 3 + dataHdrSz) := by
  show b.data 1 :: b.data 2 :: b.data 3 :: b.data 4 :: read b.data 5 (getLe16 b.data 3) = _
  have h : read b.data 1 (getLe16 b.data 3 + dataHdrSz) = _ := read_succ _ _ _
  rw [h, read_succ, read_succ, read_succ]

theorem prefix_delivered {b : EventBuffer} {t : UInt8} {n : Nat} (ht : b.data 0 = t) (h : 1 + n ≤ b.avail) :
    t :: read b.data 1 n <+: read b.data 0 b.avail := by
  have hs : read b.data 0 (n + 1) = b.data 0 :: read b.data 1 n := read_succ _ _ _
  rw [← ht, ← hs]
  exact read_prefix (by omega)

section

variable {y : Layout} {p p' : HciPools} {old : Nat → UInt8} {ack : Bool} {b : EventBuffer}

theorem asserted_not_safe {reads : List Span} : ¬ Safe b p ⟨none, p, reads, [], none⟩ := fun h => h.no_assert rfl

theorem rejected_safe_iff {reads : List Span} :
    Safe b p ⟨some (-1), p, reads, [], none⟩ ↔ ∀ s ∈ reads, s.Within b.avail := by
  constructor
  · intro h
    exact h.reads
  · intro h
    exact ⟨by simp, h, by simp, .inl ⟨-1, by decide, rfl, rfl, rfl⟩⟩

theorem passed_safe_iff {header : Span} {n dst size : Nat} {u : Upper} {pkt : HciPacket} (hpos : 0 < n)
    (hheader : header.Within (1 + n)) (hheld : u.Holds pkt) (htype : b.data 0 = pkt.type)
    (hbytes : pkt.bytes = read b.data 1 n) :
    Safe b p ⟨some 0, p', [⟨0, 1⟩, header, ⟨1, n⟩], [⟨⟨dst, n⟩, size⟩], some u⟩ ↔
      1 + n ≤ b.avail ∧ dst + n ≤ size := by
  constructor
  · intro h
    have hread : (Span.mk 1 n).Within b.avail := h.reads _ (by simp)
    have hcopy : (Span.mk dst n).Within size := h.copies _ (List.mem_singleton_self _)
    exact ⟨(Span.within_of_pos hpos).mp hread, (Span.within_of_pos hpos).mp hcopy⟩
  · rintro ⟨hdelivered, hroom⟩
    refine ⟨by simp, ?_, ?_, .inr ⟨rfl, u, pkt, rfl, hheld, ?_⟩⟩
    · intro s hs
      simp only [List.mem_cons, List.not_mem_nil, or_false] at hs
      rcases hs with rfl | rfl | rfl
      · rw [Span.within_of_pos Nat.one_pos]
        omega
      · exact hheader.mono hdelivered
      · rwa [Span.within_of_pos hpos]
    · intro c hc
      rw [List.mem_singleton.mp hc]
      exact (Span.within_of_pos hpos).mpr hroom
    · rw [hbytes]
      exact prefix_delivered htype hdelivered

theorem within_pair {s : Span} {n : Nat} :
    (∀ x ∈ [⟨0, 1⟩, s], x.Within n) ↔ (Span.mk 0 1).Within n ∧ s.Within n := by
  simp only [List.mem_cons, List.not_mem_nil, or_false, forall_eq_or_imp, forall_eq]

theorem eventAt_held (old : Nat → UInt8) (b : EventBuffer) :
    (Upper.event (write old 0 (read b.data 1 ((b.data 2).toNat + eventHdrLen)))).Holds (eventAt b) := by
  have hat : 1 < (b.data 2).toNat + eventHdrLen := by
    unfold eventHdrLen
    omega
  have hlen : (write old 0 (read b.data 1 ((b.data 2).toNat + eventHdrLen))) 1 = b.data 2 := by
    rw [show (1 : Nat) = 0 + 1 from rfl, write_at (by rwa [length_read]), getD_read hat]
  have hself := @read_write_self old 0 (read b.data 1 ((b.data 2).toNat + eventHdrLen))
  rw [length_read] at hself
  show read _ 0 (((write old 0 _) 1).toNat + eventHdrLen) = (eventAt b).bytes
  rw [hlen, eventAt_bytes, hself]

theorem rxEvt_safe_iff (ht : b.data 0 = hifEvt) : Safe b p (rxEvt p old ack b.data) ↔ EvtFits p ack b := by
  have hpos : 0 < (b.data 2).toNat + eventHdrLen := by
    unfold eventHdrLen
    omega
  unfold rxEvt
  by_cases hsize : evtBufSize < (b.data 2).toNat + eventHdrLen
  · rw [if_pos hsize]
    exact iff_of_false asserted_not_safe fun h => absurd h.size (by omega)
  · rw [if_neg hsize]
    have hnone := @bufAlloc_none p ack
    cases halloc : bleHciTransBufAlloc p (evtType ack) with
    | none =>
      have hfree : evtFree ack p = 0 := hnone.mp halloc
      show Safe b p ⟨some (-1), p, _, [], none⟩ ↔ _
      rw [rejected_safe_iff, within_pair, Span.within_of_pos Nat.one_pos, Span.within_of_pos Nat.one_pos]
      constructor
      · rintro ⟨_, hheader⟩
        exact ⟨hheader, by omega, fun h0 => by omega⟩
      · intro h
        have := h.header
        omega
    | some p' =>
      have hfree : evtFree ack p ≠ 0 := fun h0 => by simp [hnone.mpr h0] at halloc
      have hheader : (Span.mk 2 1).Within (1 + ((b.data 2).toNat + eventHdrLen)) := by
        rw [Span.within_of_pos Nat.one_pos]
        unfold eventHdrLen
        omega
      show Safe b p ⟨some 0, p', _, _, some _⟩ ↔ _
      rw [passed_safe_iff hpos hheader (eventAt_held old b) ht (eventAt_bytes b)]
      constructor
      · rintro ⟨hdelivered, _⟩
        refine ⟨?_, by omega, fun _ => by omega⟩
        unfold eventHdrLen at hdelivered
        omega
      · intro h
        have := h.delivered (by omega)
        omega

theorem aclAt_held (y : Layout) (old : Nat → UInt8) (b : EventBuffer) :
    let len := getLe16 b.data 3 + dataHdrSz
    (Upper.acl ⟨write old y.omData (read b.data 1 len), y.omData, len, len⟩).Holds (aclAt b) := by
  intro len
  have hself := @read_write_self old y.omData (read b.data 1 len)
  rw [length_read] at hself
  refine ⟨rfl, ?_⟩
  show read (write old y.omData (read b.data 1 len)) y.omData len = (aclAt b).bytes
  rw [hself, aclAt_bytes]

theorem rxAcl_safe_iff (ht : b.data 0 = hifAcl) : Safe b p (rxAcl y p old b.data) ↔ AclFits y p b := by
  have hpos : 0 < getLe16 b.data 3 + dataHdrSz := by
    unfold dataHdrSz
    omega
  unfold rxAcl
  by_cases hsize : y.aclBlockSize < getLe16 b.data 3 + dataHdrSz
  · rw [if_pos hsize]
    exact iff_of_false asserted_not_safe fun h => absurd h.size (by omega)
  · rw [if_neg hsize]
    have hnone := @aclBufAlloc_none y p
    cases halloc : bleHciTransAclBufAlloc y p with
    | none =>
      have hfree : p.acl = 0 := hnone.mp halloc
      show Safe b p ⟨some (-1), p, _, [], none⟩ ↔ _
      rw [rejected_safe_iff, within_pair, Span.within_of_pos Nat.one_pos, Span.within_of_pos Nat.two_pos]
      constructor
      · rintro ⟨_, hheader⟩
        exact ⟨hheader, by omega, fun h0 => by omega, fun h0 => by omega⟩
      · intro h
        have := h.header
        omega
    | some p' =>
      have hfree : p.acl ≠ 0 := fun h0 => by simp [hnone.mpr h0] at halloc
      have hheader : (Span.mk 3 2).Within (1 + (getLe16 b.data 3 + dataHdrSz)) := by
        rw [Span.within_of_pos Nat.two_pos]
        unfold dataHdrSz
        omega
      show Safe b p ⟨some 0, p', _, _, some _⟩ ↔ _
      rw [passed_safe_iff hpos hheader (aclAt_held y old b) ht (aclAt_bytes b)]
      constructor
      · rintro ⟨hdelivered, hroom⟩
        refine ⟨?_, by omega, fun _ => hroom, fun _ => by omega⟩
        unfold dataHdrSz at hdelivered
        omega
      · intro h
        have hdelivered := h.delivered (by omega)
        have hroom := h.room (by omega)
        omega

end

/-- A message is handled as it should be exactly when its type was delivered and what it announces was delivered
and fits: an event its buffer, an ACL packet what the headers leave of the block. -/
theorem hsRx_safe_iff (y : Layout) (p : HciPools) (old : Nat → UInt8) (ack : Bool) (b : EventBuffer) :
    Safe b p (hsRx y p old ack b.data) ↔ Fits y p ack b := by
  unfold hsRx
  by_cases hevt : b.data 0 = hifEvt
  · have hacl : b.data 0 ≠ hifAcl := by
      rw [hevt]
      decide
    rw [if_pos hevt, rxEvt_safe_iff hevt]
    constructor
    · intro h
      have := h.header
      exact ⟨by omega, fun _ => h, fun h0 => absurd h0 hacl⟩
    · intro h
      exact h.evt hevt
  · rw [if_neg hevt]
    by_cases hacl : b.data 0 = hifAcl
    · rw [if_pos hacl, rxAcl_safe_iff hacl]
      constructor
      · intro h
        have := h.header
        exact ⟨by omega, fun h0 => absurd h0 hevt, fun _ => h⟩
      · intro h
        exact h.acl hacl
    · rw [if_neg hacl, rejected_safe_iff, List.forall_mem_singleton, Span.within_of_pos Nat.one_pos]
      constructor
      · intro h
        exact ⟨h, fun h0 => absurd h0 hevt, fun h0 => absurd h0 hacl⟩
      · intro h
        exact h.type

def layout32 : Layout := ⟨4, 16, 8, 20, .inl rfl, by decide⟩

/-- A message with an ACL packet of 300 bytes, and an event with 69 bytes of parameters. -/
def longAcl : EventBuffer :=
  ⟨fun i => [0x35, 0x01, 2, 0, 2, 0, 0, 0x2c, 0x01].getD i 0, by decide⟩

def longEvent : EventBuffer := ⟨fun i => [76, 0, 2, 0, 4, 0x3e, 69].getD i 0, by decide⟩

/-- An ACL packet that was delivered goes beyond its block, and an event that was delivered fails an `assert`. -/
theorem hsRx_unsafe :
    ¬ Safe longAcl ⟨1, 2, 8, 4⟩ (hsRx layout32 ⟨1, 2, 8, 4⟩ (fun _ => 0) false longAcl.data) ∧
      ¬ Safe longEvent ⟨1, 2, 8, 4⟩ (hsRx layout32 ⟨1, 2, 8, 4⟩ (fun _ => 0) false longEvent.data) := by
  constructor
  · intro h
    have hcopy := h.copies ⟨⟨44, 304⟩, 304⟩ (by decide +kernel)
    exact absurd hcopy (by rw [Span.within_of_pos (by decide)]; decide)
  · intro h
    exact h.no_assert (by decide +kernel)

theorem fsRead_safe_iff (y : Layout) (p : HciPools) (old : Nat → UInt8) (b : EventBuffer) :
    (∀ r ∈ fsRead y p old b, Safe b p r) ↔ (b.id = 1 → Fits y p true b) ∧ (b.id = 2 → Fits y p false b) := by
  unfold fsRead
  by_cases hack : b.id = 1
  · rw [if_pos hack]
    constructor
    · intro h
      exact ⟨fun _ => (hsRx_safe_iff y p old true b).mp (h _ rfl), fun hevt => by omega⟩
    · rintro ⟨h, _⟩ r hr
      cases hr
      exact (hsRx_safe_iff y p old true b).mpr (h hack)
  · rw [if_neg hack]
    by_cases hevt : b.id = 2
    · rw [if_pos hevt]
      constructor
      · intro h
        exact ⟨fun h0 => absurd h0 hack, fun _ => (hsRx_safe_iff y p old false b).mp (h _ rfl)⟩
      · rintro ⟨_, h⟩ r hr
        cases hr
        exact (hsRx_safe_iff y p old false b).mpr (h hevt)
    · rw [if_neg hevt]
      simp [hack, hevt]

end HciRx

end AtbmWifi
