import AtbmWifi.Mac80211.SpecialFilter

/-!
# The handlers of special frames

A copy that was queued goes to `ieee80211_special_filter_rx_package_handle`; a frame that is received while the
interface listens goes to `ieee80211_sta_rx_queued_mgmt_special`.  Both have the frame parsed and copy its SSID to a
buffer of 32 bytes, as many bytes as the element has.  The first takes a frame for whole that is shorter than its
fixed part, and has a probe request parsed from where the elements of a beacon are.  The second writes a zero
behind the private element.
-/

namespace AtbmWifi

namespace SpecialFilter

open Memory Wire Tlv

/-- What is used of `struct ieee802_atbm_11_elems`, and every span that was read. -/
structure Elems where
  ssid : Option Span
  dsParams : Option Span
  reads : List Span

/-- `memset(elems, 0, sizeof(*elems))` -/
def Elems.zero : Elems := ⟨none, none, []⟩

/-- How much of an element `ieee802_11_parse_vendor_specific` looks at. -/
def vendorRead (m : Nat → UInt8) (pos elen : Nat) : Nat :=
  if elen < 4 then 0
  else if read m pos 3 = [0x00, 0x50, 0xf2] then if m (pos + 3) = 2 ∧ 5 ≤ elen then 5 else 4
  else if read m pos 3 = [0x50, 0x6f, 0x9a] then 4
  else 3

/-- The `switch` on the id of an element. -/
def Elems.put (m : Nat → UInt8) (pos : Nat) (r : Elems) : Elems :=
  let elen := (m (pos + 1)).toNat
  if m pos = 0 then { r with ssid := some ⟨pos + 2, elen⟩ }
  else if m pos = 3 then { r with dsParams := some ⟨pos + 2, elen⟩ }
  else if m pos = 221 then { r with reads := ⟨pos + 2, vendorRead m (pos + 2) elen⟩ :: r.reads }
  else r

/-- The loop of `atbm_ieee802_11_parse_elems_crc`. -/
def parseLoop (m : Nat → UInt8) (pos left : Nat) (r : Elems) : Elems :=
  if left < 2 then r
  else
    let r := { r with reads := ⟨pos, 2⟩ :: r.reads }
    if left - 2 < (m (pos + 1)).toNat then r
    else parseLoop m (pos + ((m (pos + 1)).toNat + 2)) (left - ((m (pos + 1)).toNat + 2)) (r.put m pos)
termination_by left
decreasing_by omega

def parseElems (m : Nat → UInt8) (start len : Nat) : Elems := parseLoop m start len .zero

structure ElemOf (m : Nat → UInt8) (id : UInt8) (e p q : Nat) : Prop where
  visits : Visits m 2 e p q
  whole : q + ((m (q + 1)).toNat + 2) ≤ e
  id : m q = id

def LastOf (m : Nat → UInt8) (id : UInt8) (e p q : Nat) : Prop := ElemOf m id e p q ∧ ∀ q', ElemOf m id e p q' → q' ≤ q

/-- What is read on the way: the header of each element, and the front of those of a vendor. -/
def ParseReads (m : Nat → UInt8) (e p : Nat) (s : Span) : Prop :=
  ∃ q, Visits m 2 e p q ∧
    (s = ⟨q, 2⟩ ∨
      q + ((m (q + 1)).toNat + 2) ≤ e ∧ m q = 221 ∧ s = ⟨q + 2, vendorRead m (q + 2) (m (q + 1)).toNat⟩)

variable {m : Nat → UInt8} {id : UInt8} {e p q left : Nat} {r : Elems} {s : Span}

theorem vendorRead_le (m : Nat → UInt8) (pos elen : Nat) : vendorRead m pos elen ≤ elen := by
  unfold vendorRead
  split_ifs <;> omega

theorem mem_reads_put :
    s ∈ (r.put m p).reads ↔ s ∈ r.reads ∨ m p = 221 ∧ s = ⟨p + 2, vendorRead m (p + 2) (m (p + 1)).toNat⟩ := by
  unfold Elems.put
  split_ifs with h0 h3 h221
  · simp [h0]
  · simp [h3]
  · simp only [List.mem_cons, h221, true_and]
    exact or_comm
  · simp [h221]

theorem parseReads_next (hp : p + 2 ≤ e) :
    ParseReads m e p s ↔
      s = ⟨p, 2⟩ ∨
        p + ((m (p + 1)).toNat + 2) ≤ e ∧ m p = 221 ∧ s = ⟨p + 2, vendorRead m (p + 2) (m (p + 1)).toNat⟩ ∨
        ParseReads m e (p + ((m (p + 1)).toNat + 2)) s := by
  constructor
  · rintro ⟨q, hv, hs⟩
    rcases (visits_iff.mp hv).2 with rfl | hv
    · rcases hs with hs | hs
      · exact .inl hs
      · exact .inr (.inl hs)
    · exact .inr (.inr ⟨q, hv, hs⟩)
  · rintro (hs | hs | ⟨q, hv, hs⟩)
    · exact ⟨p, .here hp, .inl hs⟩
    · exact ⟨p, .here hp, .inr hs⟩
    · exact ⟨q, .next hp hv, hs⟩

theorem not_parseReads_of_lt (hp : e < p + 2) : ¬ ParseReads m e p s := by
  rintro ⟨q, hv, -⟩
  have := hv.left
  omega

theorem mem_reads_parseLoop (he : p + left = e) :
    s ∈ (parseLoop m p left r).reads ↔ s ∈ r.reads ∨ ParseReads m e p s := by
  fun_induction parseLoop m p left r with
  | case1 p left r h =>
    have hno : ¬ ParseReads m e p s := not_parseReads_of_lt (by omega)
    exact (or_iff_left hno).symm
  | case2 p left r h r' hcut =>
    have hnext : ¬ ParseReads m e (p + ((m (p + 1)).toNat + 2)) s := not_parseReads_of_lt (by omega)
    have hwhole : ¬ p + ((m (p + 1)).toNat + 2) ≤ e := by omega
    rw [parseReads_next (by omega)]
    simp only [hnext, hwhole, false_and, or_false]
    show s ∈ _ :: r.reads ↔ _
    rw [List.mem_cons]
    exact or_comm
  | case3 p left r h r' hcut ih =>
    have hwhole : p + ((m (p + 1)).toNat + 2) ≤ e := by omega
    have hstep := @parseReads_next m e p s (by omega)
    simp only [hwhole, true_and] at hstep
    have hmem : s ∈ r'.reads ↔ s = ⟨p, 2⟩ ∨ s ∈ r.reads := List.mem_cons
    rw [ih (by omega), mem_reads_put, hmem, hstep, or_assoc, or_assoc, or_left_comm]

theorem ParseReads.within (h : ParseReads m e p s) : s.Within e := by
  obtain ⟨q, hv, rfl | ⟨hwhole, -, rfl⟩⟩ := h
  · rw [Span.within_of_pos Nat.two_pos]
    exact hv.left_at
  · have hle := vendorRead_le m (q + 2) (m (q + 1)).toNat
    rw [Span.within_iff]
    right
    show q + 2 + vendorRead m (q + 2) (m (q + 1)).toNat ≤ e
    omega

def Elems.ptr (r : Elems) (id : UInt8) : Option Span := if id = 0 then r.ssid else r.dsParams

theorem ptr_put (hid : id = 0 ∨ id = 3) :
    (r.put m p).ptr id = if m p = id then some ⟨p + 2, (m (p + 1)).toNat⟩ else r.ptr id := by
  unfold Elems.put Elems.ptr
  rcases hid with rfl | rfl <;> split_ifs <;> simp_all

theorem elemOf_next (hp : p + 2 ≤ e) :
    ElemOf m id e p q ↔
      (q = p ∧ p + ((m (p + 1)).toNat + 2) ≤ e ∧ m p = id) ∨ ElemOf m id e (p + ((m (p + 1)).toNat + 2)) q := by
  constructor
  · rintro ⟨hv, hwhole, hid⟩
    rcases (visits_iff.mp hv).2 with rfl | hv
    · exact .inl ⟨rfl, hwhole, hid⟩
    · exact .inr ⟨hv, hwhole, hid⟩
  · rintro (⟨rfl, hwhole, hid⟩ | ⟨hv, hwhole, hid⟩)
    · exact ⟨.here hp, hwhole, hid⟩
    · exact ⟨.next hp hv, hwhole, hid⟩

theorem not_elemOf_of_lt (hp : e < p + 2) : ¬ ElemOf m id e p q := by
  intro h
  have := h.visits.left
  omega

theorem lastOf_next (hp : p + 2 ≤ e) (hwhole : p + ((m (p + 1)).toNat + 2) ≤ e) :
    LastOf m id e p q ↔
      LastOf m id e (p + ((m (p + 1)).toNat + 2)) q ∨
        q = p ∧ m p = id ∧ ∀ q', ¬ ElemOf m id e (p + ((m (p + 1)).toNat + 2)) q' := by
  constructor
  · rintro ⟨hq, hlast⟩
    rcases (elemOf_next hp).mp hq with ⟨rfl, -, hid⟩ | hq
    · refine .inr ⟨rfl, hid, fun q' hq' => ?_⟩
      have hle := hlast q' ((elemOf_next hp).mpr (.inr hq'))
      have := hq'.visits.le
      omega
    · exact .inl ⟨hq, fun q' hq' => hlast q' ((elemOf_next hp).mpr (.inr hq'))⟩
  · rintro (⟨hq, hlast⟩ | ⟨rfl, hid, hnone⟩)
    · refine ⟨(elemOf_next hp).mpr (.inr hq), fun q' hq' => ?_⟩
      rcases (elemOf_next hp).mp hq' with ⟨rfl, -, -⟩ | hq'
      · have := hq.visits.le
        omega
      · exact hlast q' hq'
    · refine ⟨(elemOf_next hp).mpr (.inl ⟨rfl, hwhole, hid⟩), fun q' hq' => ?_⟩
      rcases (elemOf_next hp).mp hq' with ⟨rfl, -, -⟩ | hq'
      · exact Nat.le_refl _
      · exact absurd hq' (hnone q')

theorem ptr_parseLoop (hid : id = 0 ∨ id = 3) (he : p + left = e) :
    (parseLoop m p left r).ptr id = some s ↔
      (∃ q, LastOf m id e p q ∧ s = ⟨q + 2, (m (q + 1)).toNat⟩) ∨
        (∀ q, ¬ ElemOf m id e p q) ∧ r.ptr id = some s := by
  fun_induction parseLoop m p left r with
  | case1 p left r h =>
    have hno : ∀ q, ¬ ElemOf m id e p q := fun q => not_elemOf_of_lt (by omega)
    constructor
    · intro hs
      exact .inr ⟨hno, hs⟩
    · rintro (⟨q, hq, -⟩ | ⟨-, hs⟩)
      · exact absurd hq.1 (hno q)
      · exact hs
  | case2 p left r h r' hcut =>
    have hno : ∀ q, ¬ ElemOf m id e p q := by
      intro q hq
      rcases (elemOf_next (by omega)).mp hq with ⟨-, hwhole, -⟩ | hq
      · omega
      · exact not_elemOf_of_lt (by omega) hq
    constructor
    · intro hs
      exact .inr ⟨hno, hs⟩
    · rintro (⟨q, hq, -⟩ | ⟨-, hs⟩)
      · exact absurd hq.1 (hno q)
      · exact hs
  | case3 p left r h r' hcut ih =>
    have hp : p + 2 ≤ e := by omega
    have hwhole : p + ((m (p + 1)).toNat + 2) ≤ e := by omega
    have hnext := fun q => @elemOf_next m id e p q hp
    have hlast := fun q => @lastOf_next m id e p q hp hwhole
    have hsame : r'.ptr id = r.ptr id := rfl
    rw [ih (by omega), ptr_put hid, hsame]
    simp only [hlast, hnext]
    by_cases heq : m p = id
    · rw [if_pos heq]
      constructor
      · rintro (⟨q, hq, rfl⟩ | ⟨hnone, hs⟩)
        · exact .inl ⟨q, .inl hq, rfl⟩
        · exact .inl ⟨p, .inr ⟨rfl, heq, hnone⟩, (Option.some.inj hs).symm⟩
      · rintro (⟨q, hq | ⟨rfl, -, hnone⟩, rfl⟩ | ⟨hnone, -⟩)
        · exact .inl ⟨q, hq, rfl⟩
        · exact .inr ⟨hnone, rfl⟩
        · exact absurd (.inl ⟨rfl, hwhole, heq⟩) (hnone p)
    · rw [if_neg heq]
      constructor
      · rintro (⟨q, hq, rfl⟩ | ⟨hnone, hs⟩)
        · exact .inl ⟨q, .inl hq, rfl⟩
        · refine .inr ⟨fun q => ?_, hs⟩
          rintro (⟨-, -, h0⟩ | hq)
          · exact heq h0
          · exact hnone q hq
      · rintro (⟨q, hq | ⟨-, h0, -⟩, rfl⟩ | ⟨hnone, hs⟩)
        · exact .inl ⟨q, hq, rfl⟩
        · exact absurd h0 heq
        · exact .inr ⟨fun q hq => hnone q (.inr hq), hs⟩

theorem mem_reads_parseElems {start len : Nat} :
    s ∈ (parseElems m start len).reads ↔ ParseReads m (start + len) start s := by
  unfold parseElems
  rw [mem_reads_parseLoop rfl]
  exact or_iff_right List.not_mem_nil

theorem ptr_parseElems {start len : Nat} (hid : id = 0 ∨ id = 3) :
    (parseElems m start len).ptr id = some s ↔
      ∃ q, LastOf m id (start + len) start q ∧ s = ⟨q + 2, (m (q + 1)).toNat⟩ := by
  have hzero : Elems.zero.ptr id = none := by
    rcases hid with rfl | rfl <;> rfl
  unfold parseElems
  rw [ptr_parseLoop hid rfl, hzero]
  simp only [reduceCtorEq, and_false, or_false]

/-- What a handler reads and writes of the frame, and what it writes to a buffer of its own, with the size of that. -/
structure Handled where
  reads : List Span
  writes : List Span
  copies : List (Span × Nat)

/-- `skb->len - baselen` of two unsigned numbers -/
def MgmtFrame.lenFrom (fr : MgmtFrame) (baselen : Nat) : Nat :=
  if baselen ≤ fr.len then fr.len - baselen else 2 ^ 32 + fr.len - baselen

/-- `elems.ds_params[0]`, if there is one byte -/
def Elems.dsRead (r : Elems) : List Span := r.dsParams.toList.filterMap fun s => if s.size = 1 then some s else none

/-- `memcpy(ssid, elems.ssid, elems.ssid_len)` -/
def Elems.ssidCopy (r : Elems) : List (Span × Nat) := r.ssid.toList.map fun s => (⟨0, s.size⟩, 32)

def eidPrivate : UInt8 := 233

def rxPackageHandle (fr : MgmtFrame) : Handled :=
  if fr.isBeacon then
    -- `baselen > skb->len` is only printed
    let elems := parseElems fr.mem 36 (fr.lenFrom 36)
    let ie := findIe fr.mem eidPrivate 36 ((fr.len : Int) - 36)
    { reads := ⟨0, 2⟩ :: ⟨16, 6⟩ :: elems.reads ++ elems.dsRead ++ elems.ssid.toList ++ ie.reads ++
        ie.target.toList.map fun t => ⟨t, (fr.mem (t + 1)).toNat + 2⟩
      writes := []
      copies := elems.ssidCopy ++ ie.target.toList.map fun t => (⟨0, (fr.mem (t + 1)).toNat⟩, 255) }
  else if fr.isProbeReq then
    -- the elements of a beacon, and the length of those of a probe request
    let elems := parseElems fr.mem 36 (fr.lenFrom 24)
    let ie := findIe fr.mem eidPrivate 24 ((fr.len : Int) - 24)
    { reads := ⟨0, 2⟩ :: ⟨10, 6⟩ :: elems.reads ++ elems.dsRead ++ ie.reads ++
        ie.target.toList.map fun t => ⟨t, (fr.mem (t + 1)).toNat + 2⟩
      writes := []
      copies := ie.target.toList.map fun t => (⟨0, (fr.mem (t + 1)).toNat⟩, 255) }
  else ⟨[⟨0, 2⟩, ⟨10, 6⟩], [], []⟩

def recvProbeReq : List UInt8 := [82, 69, 67, 86, 95, 80, 82, 79, 66, 69, 95, 82, 69, 81]

/-- `ieee80211_sta_rx_queued_mgmt_special`.  `%s` reads up to the zero that was written behind the element. -/
def staRxQueuedMgmtSpecial (fr : MgmtFrame) : Handled :=
  let elems := parseElems fr.mem 36 (fr.len - 36)
  let ie := findIe fr.mem eidPrivate 36 ((fr.len : Int) - 36)
  if fr.len < 24 then ⟨[], [], []⟩
  else if fr.isProbeResp then
    if fr.len < 36 then ⟨[⟨0, 2⟩], [], []⟩
    else
      { reads := ⟨0, 2⟩ :: elems.reads ++ elems.dsRead ++ ie.reads ++
          ie.target.toList.flatMap fun t =>
            [⟨10, 6⟩, ⟨t, 2⟩, ⟨t + 2, (fr.mem (t + 1)).toNat + 1⟩, ⟨t + 2, 14⟩, ⟨4, 6⟩]
        writes := ie.target.toList.map fun t => ⟨t + 2 + (fr.mem (t + 1)).toNat, 1⟩
        copies := ie.target.toList.filterMap fun t =>
          if read (write fr.mem (t + 2 + (fr.mem (t + 1)).toNat) [0]) (t + 2) 14 = recvProbeReq
          then some (⟨0, 15⟩, 255) else none }
  else if fr.isBeacon then
    if fr.len < 36 then ⟨[⟨0, 2⟩], [], []⟩
    else
      { reads := ⟨0, 2⟩ :: ⟨16, 6⟩ :: elems.reads ++ elems.dsRead ++ elems.ssid.toList ++ ie.reads ++
          ie.target.toList.flatMap fun t => [⟨t, 2⟩, ⟨t + 2, (fr.mem (t + 1)).toNat + 1⟩]
        writes := ie.target.toList.map fun t => ⟨t + 2 + (fr.mem (t + 1)).toNat, 1⟩
        copies := elems.ssidCopy ++ ie.target.toList.map fun _ => (⟨0, 11⟩, 255) }
  else ⟨[⟨0, 2⟩], [], []⟩

/-- Nothing outside the frame is read or written, and nothing outside the buffers is written. -/
structure Handled.Safe (h : Handled) (len : Nat) : Prop where
  reads : ∀ s ∈ h.reads, s.Within len
  writes : ∀ s ∈ h.writes, s.Within len
  copies : ∀ c ∈ h.copies, c.1.Within c.2

/-- The beacon has its fixed part, and its last SSID is not longer than an SSID may be. -/
structure BeaconFits (fr : MgmtFrame) : Prop where
  whole : 36 ≤ fr.len
  ssid : ∀ q, LastOf fr.mem 0 fr.len 36 q → (fr.mem (q + 1)).toNat ≤ 32

/-- The walk from twelve bytes behind the elements of a probe request ends in the frame. -/
structure ProbeFits (fr : MgmtFrame) : Prop where
  whole : 24 ≤ fr.len
  inside : ∀ s, ParseReads fr.mem (fr.len + 12) 36 s → s.Within fr.len
  channel : ∀ q, LastOf fr.mem 3 (fr.len + 12) 36 q → (fr.mem (q + 1)).toNat = 1 → q + 2 < fr.len

/-- The SSID of the beacon is not longer than an SSID may be, and its private element is not the last. -/
structure ListenFits (fr : MgmtFrame) : Prop where
  ssid : ∀ q, LastOf fr.mem 0 fr.len 36 q → (fr.mem (q + 1)).toNat ≤ 32
  behind : ∀ t, Returned fr.mem eidPrivate fr.len 36 t → (∀ q, Returned fr.mem eidPrivate fr.len 36 q → t ≤ q) →
    t + 2 + (fr.mem (t + 1)).toNat < fr.len

variable {fr : MgmtFrame}

theorem mem_dsRead : s ∈ r.dsRead ↔ r.ptr 3 = some s ∧ s.size = 1 := by
  unfold Elems.dsRead
  rw [List.mem_filterMap]
  constructor
  · rintro ⟨d, hd, h⟩
    split at h
    · cases h
      exact ⟨Option.mem_toList.mp hd, ‹_›⟩
    · cases h
  · rintro ⟨hd, hone⟩
    exact ⟨s, Option.mem_toList.mpr hd, if_pos hone⟩

theorem parse_within {start len : Nat} (he : start + len = e) :
    (∀ s ∈ (parseElems m start len).reads, s.Within e) ∧ (∀ s ∈ (parseElems m start len).dsRead, s.Within e) ∧
      ∀ s ∈ (parseElems m start len).ssid.toList, s.Within e := by
  have hptr : ∀ id, id = 0 ∨ id = 3 → ∀ s, (parseElems m start len).ptr id = some s → s.Within e := by
    intro id hid s hs
    obtain ⟨q, hq, rfl⟩ := (ptr_parseElems hid).mp hs
    have hwhole := hq.1.whole
    rw [Span.within_iff]
    right
    show q + 2 + (m (q + 1)).toNat ≤ e
    omega
  refine ⟨?_, ?_, ?_⟩
  · intro s hs
    rw [mem_reads_parseElems, he] at hs
    exact hs.within
  · intro s hs
    exact hptr 3 (.inr rfl) s (mem_dsRead.mp hs).1
  · intro s hs
    exact hptr 0 (.inl rfl) s (Option.mem_toList.mp hs)

theorem ssidCopy_within {start len : Nat} :
    (∀ c ∈ (parseElems m start len).ssidCopy, c.1.Within c.2) ↔
      ∀ q, LastOf m 0 (start + len) start q → (m (q + 1)).toNat ≤ 32 := by
  have hptr := fun s => @ptr_parseElems m 0 s start len (.inl rfl)
  unfold Elems.ssidCopy
  constructor
  · intro h q hq
    have hs : (⟨q + 2, (m (q + 1)).toNat⟩ : Span) ∈ (parseElems m start len).ssid.toList :=
      Option.mem_toList.mpr ((hptr _).mpr ⟨q, hq, rfl⟩)
    have hc := h _ (List.mem_map_of_mem hs)
    rcases Span.within_iff.mp hc with hzero | hle
    · have hzero' : (m (q + 1)).toNat = 0 := hzero
      omega
    · have hle' : 0 + (m (q + 1)).toNat ≤ 32 := hle
      omega
  · intro h c hc
    obtain ⟨s, hs, rfl⟩ := List.mem_map.mp hc
    obtain ⟨q, hq, rfl⟩ := (hptr s).mp (Option.mem_toList.mp hs)
    have := h q hq
    rw [Span.within_iff]
    right
    show 0 + (m (q + 1)).toNat ≤ 32
    omega

theorem found_within {base : Nat} :
    let ie := findIe fr.mem eidPrivate base ((fr.len : Int) - base)
    (∀ s ∈ ie.reads, s.Within fr.len) ∧
      (∀ s ∈ ie.target.toList.map fun t => (⟨t, (fr.mem (t + 1)).toNat + 2⟩ : Span), s.Within fr.len) ∧
      ∀ c ∈ ie.target.toList.map fun t => ((⟨0, (fr.mem (t + 1)).toNat⟩, 255) : Span × Nat), c.1.Within c.2 := by
  intro ie
  have he : (base : Int) + ((fr.len : Int) - base) = fr.len := by omega
  refine ⟨findIe_reads he, ?_, ?_⟩
  · intro s hs
    obtain ⟨t, ht, rfl⟩ := List.mem_map.mp hs
    have hwhole := (findIe_some he (Option.mem_toList.mp ht)).1.whole
    rw [Span.within_iff]
    exact .inr hwhole
  · intro c hc
    obtain ⟨t, -, rfl⟩ := List.mem_map.mp hc
    have hlt := (fr.mem (t + 1)).toNat_lt
    rw [Span.within_iff]
    right
    show 0 + (fr.mem (t + 1)).toNat ≤ 255
    omega

theorem control_within (fr : MgmtFrame) : (Span.mk 0 2).Within fr.len :=
  (Span.within_of_pos Nat.two_pos).mpr (by have := fr.control; omega)

theorem parse_short {start base : Nat} (hb : fr.len < base) (hstart : base ≤ start) (hsmall : base < 2 ^ 31) :
    ¬ ∀ s ∈ (parseElems fr.mem start (fr.lenFrom base)).reads, s.Within fr.len := by
  intro h
  have hlen : fr.lenFrom base = 2 ^ 32 + fr.len - base := if_neg (by omega)
  have hvisit : Visits fr.mem 2 (start + fr.lenFrom base) start start := .here (by omega)
  have hread : (⟨start, 2⟩ : Span) ∈ (parseElems fr.mem start (fr.lenFrom base)).reads :=
    mem_reads_parseElems.mpr ⟨start, hvisit, .inl rfl⟩
  have hwithin := (Span.within_of_pos Nat.two_pos).mp (h _ hread)
  omega

theorem rxPackageHandle_beacon (hb : fr.isBeacon = true) :
    (rxPackageHandle fr).Safe fr.len ↔ BeaconFits fr := by
  obtain ⟨hie, hdata, hbuf⟩ := @found_within fr 36
  unfold rxPackageHandle
  rw [if_pos hb]
  by_cases hwhole : 36 ≤ fr.len
  · have hlen : fr.lenFrom 36 = fr.len - 36 := if_pos hwhole
    have he : 36 + (fr.len - 36) = fr.len := by omega
    obtain ⟨hreads, hds, hssid⟩ := @parse_within fr.mem fr.len 36 (fr.len - 36) he
    have hcopy := @ssidCopy_within fr.mem 36 (fr.len - 36)
    rw [he] at hcopy
    rw [hlen]
    constructor
    · intro h
      exact ⟨hwhole, hcopy.mp fun c hc => h.copies c (List.mem_append_left _ hc)⟩
    · intro h
      have hprint : (Span.mk 16 6).Within fr.len := (Span.within_of_pos (by decide)).mpr (by omega)
      refine ⟨?_, nofun, List.forall_mem_append.mpr ⟨hcopy.mpr h.ssid, hbuf⟩⟩
      simp only [List.forall_mem_append, List.forall_mem_cons]
      exact ⟨⟨⟨⟨⟨control_within fr, hprint, hreads⟩, hds⟩, hssid⟩, hie⟩, hdata⟩
  · refine iff_of_false (fun h => ?_) fun h => hwhole h.whole
    refine parse_short (Nat.lt_of_not_le hwhole) (Nat.le_refl 36) (by decide) fun s hs => h.reads s ?_
    simp [hs]

theorem rxPackageHandle_probe (hb : fr.isBeacon = false) (hp : fr.isProbeReq = true) :
    (rxPackageHandle fr).Safe fr.len ↔ ProbeFits fr := by
  obtain ⟨hie, hdata, hbuf⟩ := @found_within fr 24
  unfold rxPackageHandle
  rw [if_neg (by simp [hb]), if_pos hp]
  by_cases hwhole : 24 ≤ fr.len
  · have hlen : fr.lenFrom 24 = fr.len - 24 := if_pos hwhole
    have he : 36 + (fr.len - 24) = fr.len + 12 := by omega
    have hread := fun s => @mem_reads_parseElems fr.mem s 36 (fr.len - 24)
    have hptr := fun s => @ptr_parseElems fr.mem 3 s 36 (fr.len - 24) (.inr rfl)
    simp only [he] at hread hptr
    rw [hlen]
    constructor
    · intro h
      refine ⟨hwhole, fun s hs => h.reads s ?_, fun q hq hone => ?_⟩
      · have := (hread s).mpr hs
        simp [this]
      · have hs : (⟨q + 2, 1⟩ : Span) ∈ (parseElems fr.mem 36 (fr.len - 24)).dsRead :=
          mem_dsRead.mpr ⟨(hptr _).mpr ⟨q, hq, by rw [hone]⟩, rfl⟩
        have hwithin := h.reads ⟨q + 2, 1⟩ (by simp [hs])
        have := (Span.within_of_pos Nat.one_pos).mp hwithin
        omega
    · intro h
      have hprint : (Span.mk 10 6).Within fr.len := (Span.within_of_pos (by decide)).mpr (by omega)
      have hreads : ∀ s ∈ (parseElems fr.mem 36 (fr.len - 24)).reads, s.Within fr.len :=
        fun s hs => h.inside s ((hread s).mp hs)
      have hds : ∀ s ∈ (parseElems fr.mem 36 (fr.len - 24)).dsRead, s.Within fr.len := by
        intro s hs
        obtain ⟨hs, hone⟩ := mem_dsRead.mp hs
        obtain ⟨q, hq, rfl⟩ := (hptr s).mp hs
        have hone' : (fr.mem (q + 1)).toNat = 1 := hone
        have hlt := h.channel q hq hone'
        rw [hone', Span.within_of_pos Nat.one_pos]
        omega
      refine ⟨?_, nofun, hbuf⟩
      simp only [List.forall_mem_append, List.forall_mem_cons]
      exact ⟨⟨⟨⟨control_within fr, hprint, hreads⟩, hds⟩, hie⟩, hdata⟩
  · refine iff_of_false (fun h => ?_) fun h => hwhole h.whole
    refine parse_short (Nat.lt_of_not_le hwhole) (by decide : 24 ≤ 36) (by decide) fun s hs => h.reads s ?_
    simp [hs]

theorem staRxQueuedMgmtSpecial_iff (hk : fr.isBeacon = true ∨ fr.isProbeReq = true) :
    (staRxQueuedMgmtSpecial fr).Safe fr.len ↔ (fr.isBeacon = true → 36 ≤ fr.len → ListenFits fr) := by
  obtain ⟨hresp, -⟩ := type_of_kind hk
  have hcontrol : ∀ s ∈ [(⟨0, 2⟩ : Span)], s.Within fr.len := by
    intro s hs
    rw [List.mem_singleton.mp hs]
    exact control_within fr
  unfold staRxQueuedMgmtSpecial
  by_cases hhdr : fr.len < 24
  · rw [if_pos hhdr]
    exact iff_of_true ⟨nofun, nofun, nofun⟩ fun _ hwhole => by omega
  rw [if_neg hhdr, if_neg (by simp [hresp])]
  by_cases hb : fr.isBeacon = true
  · rw [if_pos hb]
    by_cases hwhole : fr.len < 36
    · rw [if_pos hwhole]
      exact iff_of_true ⟨hcontrol, nofun, nofun⟩ fun _ h => by omega
    · rw [if_neg hwhole]
      have he : 36 + (fr.len - 36) = fr.len := by omega
      have hend : ((36 : Nat) : Int) + ((fr.len : Int) - 36) = fr.len := by omega
      obtain ⟨hie, hdata, -⟩ := @found_within fr 36
      obtain ⟨hreads, hds, hssid⟩ := @parse_within fr.mem fr.len 36 (fr.len - 36) he
      have hcopy := @ssidCopy_within fr.mem 36 (fr.len - 36)
      have htarget := fun t => @findIe_eq_some fr.mem eidPrivate fr.len 36 t ((fr.len : Int) - 36) hend
      rw [he] at hcopy
      constructor
      · intro h _ _
        refine ⟨hcopy.mp fun c hc => h.copies c (List.mem_append_left _ hc), fun t ht hfirst => ?_⟩
        have hmem := Option.mem_toList.mpr ((htarget t).mpr ⟨ht, hfirst⟩)
        have hwrite := h.writes _ (List.mem_map_of_mem hmem)
        have := (Span.within_of_pos Nat.one_pos).mp hwrite
        omega
      · intro h
        have hfits := h hb (by omega)
        have hprint : (Span.mk 16 6).Within fr.len := (Span.within_of_pos (by decide)).mpr (by omega)
        have hbehind : ∀ t ∈ (findIe fr.mem eidPrivate 36 ((fr.len : Int) - 36)).target.toList,
            t + 2 + (fr.mem (t + 1)).toNat < fr.len := by
          intro t ht
          obtain ⟨ht, hfirst⟩ := (htarget t).mp (Option.mem_toList.mp ht)
          exact hfits.behind t ht hfirst
        refine ⟨?_, ?_, List.forall_mem_append.mpr ⟨hcopy.mpr hfits.ssid, ?_⟩⟩
        · simp only [List.forall_mem_append, List.forall_mem_cons, List.forall_mem_flatMap]
          refine ⟨⟨⟨⟨⟨control_within fr, hprint, hreads⟩, hds⟩, hssid⟩, hie⟩, fun t ht => ?_⟩
          have hlt := hbehind t ht
          refine ⟨(Span.within_of_pos Nat.two_pos).mpr (by omega), ?_, nofun⟩
          exact (Span.within_of_pos (Nat.succ_pos _)).mpr (by omega)
        · intro s hs
          obtain ⟨t, ht, rfl⟩ := List.mem_map.mp hs
          have hlt := hbehind t ht
          exact (Span.within_of_pos Nat.one_pos).mpr (by omega)
        · intro c hc
          obtain ⟨t, -, rfl⟩ := List.mem_map.mp hc
          exact (Span.within_of_pos (by decide)).mpr (by decide)
  · rw [if_neg hb]
    exact iff_of_true ⟨hcontrol, nofun, nofun⟩ fun h => absurd h hb

/-- A copy of the frame, with what stands behind it in the memory. -/
def MgmtFrame.copied (fr : MgmtFrame) (behind : Nat → UInt8) : MgmtFrame :=
  { fr with mem := fun i => if i < fr.len then fr.mem i else behind i }

theorem type_copied (fr : MgmtFrame) (behind : Nat → UInt8) : (fr.copied behind).type = fr.type := by
  have hlt : 0 < fr.len := Nat.lt_of_lt_of_le Nat.two_pos fr.control
  unfold MgmtFrame.type MgmtFrame.copied
  simp only [if_pos hlt]

/-- Each interface gets a copy exactly when one of its filters matches, and no function leaves the frame or its
buffers; the first handler takes the copies. -/
structure FrameOk (fr : MgmtFrame) (behind : Nat → UInt8) (ifaces : List Iface) : Prop where
  right : ∀ i ∈ ifaces, i.Right fr (i.checked fr).queue
  inside : ∀ s ∈ (specialCheckPackage fr ifaces).2, s.Within fr.len
  handled : (∃ i ∈ ifaces, (i.checked fr).queue ≠ i.queue) → (rxPackageHandle (fr.copied behind)).Safe fr.len
  listened : (staRxQueuedMgmtSpecial fr).Safe fr.len

/-- Some interface has a filter that is satisfied, and memory for a copy. -/
def Queued (fr : MgmtFrame) (ifaces : List Iface) : Prop :=
  ∃ i ∈ ifaces, i.running = true ∧ i.canCopy = true ∧ ∃ f ∈ i.filterList, Keeps fr f

/-- The filters are satisfied for a reason, and a frame that is passed on is one for its handlers. -/
structure FrameFits (fr : MgmtFrame) (behind : Nat → UInt8) (ifaces : List Iface) : Prop where
  filters : ∀ i ∈ ifaces, i.running = true → i.Fits fr
  beacon : Queued fr ifaces → fr.isBeacon = true → BeaconFits (fr.copied behind)
  probe : Queued fr ifaces → fr.isProbeReq = true → ProbeFits (fr.copied behind)
  listen : fr.isBeacon = true → 36 ≤ fr.len → ListenFits fr

theorem queued_iff (hk : fr.isBeacon = true ∨ fr.isProbeReq = true) (ifaces : List Iface) :
    (∃ i ∈ ifaces, (i.checked fr).queue ≠ i.queue) ↔ Queued fr ifaces := by
  have hne : ∀ i : Iface, i.queue ++ [fr.bytes] ≠ i.queue := by simp
  constructor
  · rintro ⟨i, hi, h⟩
    rw [queue_checked] at h
    by_cases hq : (i.check fr).keep = true ∧ i.canCopy = true ∧ i.running = true
    · exact ⟨i, hi, hq.2.2, hq.2.1, ((check_spec hk).1.mp hq.1).2⟩
    · exact absurd (if_neg hq) h
  · rintro ⟨i, hi, hrun, hcopy, hf⟩
    refine ⟨i, hi, ?_⟩
    rw [queue_checked, if_pos ⟨(check_spec hk).1.mpr ⟨hrun, hf⟩, hcopy, hrun⟩]
    exact hne i

theorem handled_iff (hk : fr.isBeacon = true ∨ fr.isProbeReq = true) (behind : Nat → UInt8) :
    (rxPackageHandle (fr.copied behind)).Safe fr.len ↔
      (fr.isBeacon = true → BeaconFits (fr.copied behind)) ∧
        (fr.isProbeReq = true → ProbeFits (fr.copied behind)) := by
  have htype := type_copied fr behind
  have hbeacon : (fr.copied behind).isBeacon = fr.isBeacon := congrArg (· == 0x80) htype
  have hprobe : (fr.copied behind).isProbeReq = fr.isProbeReq := congrArg (· == 0x40) htype
  have hsafe := @rxPackageHandle_beacon (fr.copied behind)
  have hsafe' := @rxPackageHandle_probe (fr.copied behind)
  rw [hbeacon] at hsafe hsafe'
  rw [hprobe] at hsafe'
  cases hb : fr.isBeacon with
  | true =>
    have hp : fr.isProbeReq = false := by
      have htyp : fr.type = 0x80 := beq_iff_eq.mp hb
      unfold MgmtFrame.isProbeReq
      rw [htyp]
      decide
    refine (hsafe hb).trans ⟨fun h => ⟨fun _ => h, fun h' => ?_⟩, fun h => h.1 rfl⟩
    exact absurd (hp.symm.trans h') Bool.false_ne_true
  | false =>
    have hp : fr.isProbeReq = true := hk.resolve_left (by simp [hb])
    refine (hsafe' hb hp).trans ⟨fun h => ⟨fun h' => ?_, fun _ => h⟩, fun h => h.2 hp⟩
    exact absurd h' Bool.false_ne_true

/-- **The filter for special frames.**  A beacon or a probe request is queued for just the interfaces it is for,
and nothing outside the frame or the buffers is touched, exactly when the frame and the filters fit. -/
theorem special_frame_iff (fr : MgmtFrame) (behind : Nat → UInt8) (ifaces : List Iface)
    (hk : fr.isBeacon = true ∨ fr.isProbeReq = true) : FrameOk fr behind ifaces ↔ FrameFits fr behind ifaces := by
  have hmatch := specialCheckPackage_iff hk ifaces
  have hqueued := queued_iff hk ifaces
  have hhandled := handled_iff hk behind
  have hlistened := staRxQueuedMgmtSpecial_iff hk
  constructor
  · intro h
    refine ⟨hmatch.mp ⟨h.right, h.inside⟩, fun hq => ?_, fun hq => ?_, hlistened.mp h.listened⟩
    · exact (hhandled.mp (h.handled (hqueued.mpr hq))).1
    · exact (hhandled.mp (h.handled (hqueued.mpr hq))).2
  · intro h
    obtain ⟨hright, hinside⟩ := hmatch.mpr h.filters
    refine ⟨hright, hinside, fun hq => ?_, hlistened.mpr h.listen⟩
    exact hhandled.mpr ⟨h.beacon (hqueued.mp hq), h.probe (hqueued.mp hq)⟩

def beaconOf (ies : List UInt8) (h : ies.length < 2 ^ 16) : MgmtFrame where
  mem i := if i = 0 then 0x80 else if i < 36 then 0 else ies.getD (i - 36) 0
  len := 36 + ies.length
  control := by omega
  short := by omega

def ifaceWith (f : Filter) : Iface := ⟨true, [f], [], true⟩

theorem special_frame_iff_beacon :
    FrameOk (beaconOf [0, 2, 97, 98] (by decide)) (fun _ => 0) [ifaceWith ⟨0x80, (0, 0, 0), 1⟩] := by
  have hwalk : ∀ m q, m 37 = (2 : UInt8) → Visits m 2 40 36 q → q = 36 := by
    intro m q hm hv
    rcases (visits_iff.mp hv).2 with rfl | hv
    · rfl
    · rw [hm] at hv
      exact absurd hv.left (by decide)
  refine (special_frame_iff _ _ _ (.inl (by decide))).mpr ⟨?_, fun _ _ => ⟨by decide, ?_⟩, ?_, fun _ _ => ⟨?_, ?_⟩⟩
  · intro i hi _
    rw [List.mem_singleton.mp hi]
    refine ⟨fun _ f hf hkeeps => ⟨f, hf, ?_⟩, ?_⟩
    · rw [List.mem_singleton.mp hf]
      exact .inl ⟨by decide, rfl⟩
    · rintro f q ⟨before, rest, hsplit, -, htype, -⟩
      have hf : f ∈ [(⟨0x80, (0, 0, 0), 1⟩ : Filter)] := by
        show f ∈ (ifaceWith ⟨0x80, (0, 0, 0), 1⟩).filterList
        rw [hsplit]
        simp
      rw [List.mem_singleton.mp hf] at htype
      exact absurd htype (by decide)
  · intro q hq
    rw [hwalk _ q rfl hq.1.visits]
    decide
  · intro _ hprobe
    exact absurd hprobe (by decide)
  · intro q hq
    rw [hwalk _ q rfl hq.1.visits]
    decide
  · intro t ht _
    have hid := ht.id
    rw [hwalk _ t rfl ht.visits] at hid
    exact absurd hid (by decide)

/-- A beacon with an SSID of 33 bytes for a filter on beacons, one that ends with an empty element for a filter on
another id, and one that ends with an empty element of a vendor for a filter on an OUI. -/
theorem special_frame_fails :
    ¬ FrameOk (beaconOf ([0, 33] ++ List.replicate 33 97) (by decide)) (fun _ => 0) [ifaceWith ⟨0x80, (0, 0, 0), 1⟩] ∧
      ¬ FrameOk (beaconOf [5, 0] (by decide)) (fun _ => 0) [ifaceWith ⟨7, (0, 0, 0), 4⟩] ∧
      ¬ FrameOk (beaconOf [221, 0] (by decide)) (fun _ => 0) [ifaceWith ⟨221, (0, 0x50, 0xf2), 6⟩] := by
  refine ⟨fun h => ?_, fun h => ?_, fun h => ?_⟩
  · -- the SSID goes beyond its buffer
    have hsafe := h.handled ⟨_, List.mem_singleton_self _, by decide⟩
    have hfits := (rxPackageHandle_beacon (by decide)).mp hsafe
    have hlast :
        LastOf ((beaconOf ([0, 33] ++ List.replicate 33 97) (by decide)).copied fun _ => 0).mem 0 71 36 36 := by
      refine ⟨⟨.here (by decide), by decide, by decide⟩, fun q hq => ?_⟩
      rcases (visits_iff.mp hq.visits).2 with rfl | hv
      · exact Nat.le_refl _
      · exact absurd hv.left (by decide)
    exact absurd (hfits.ssid 36 hlast) (by decide)
  · -- the empty element is taken for one of the other id
    have hkeeps : Keeps (beaconOf [5, 0] (by decide)) ⟨7, (0, 0, 0), 4⟩ :=
      ⟨36, ⟨.here (by decide), by decide, .inr (by decide)⟩, nofun⟩
    obtain ⟨g, hg, hm⟩ := (right_iff (.inl (by decide))).mp (h.right _ (List.mem_singleton_self _)) rfl rfl _
      (List.mem_singleton_self _) hkeeps
    rw [List.mem_singleton.mp hg] at hm
    obtain ⟨q, hq, hid, -⟩ := hm
    rcases (visits_iff.mp hq.visits).2 with rfl | hv
    · exact absurd hid (by decide)
    · exact absurd hv.left (by decide)
  · -- the OUI is looked for behind the frame
    have hfits := (specialCheckPackage_iff (.inl (by decide)) _).mp ⟨h.right, h.inside⟩ _
      (List.mem_singleton_self _) rfl
    have hcmp : ComparedIn (beaconOf [221, 0] (by decide)) [⟨221, (0, 0x50, 0xf2), 6⟩]
        ⟨221, (0, 0x50, 0xf2), 6⟩ 36 := by
      refine ⟨[], [], rfl, nofun, by decide, by decide, ⟨.here (by decide), by decide, .inl (by decide)⟩, ?_⟩
      intro q hlt hq
      exact absurd hq.1.visits.le (Nat.not_le.mpr hlt)
    exact absurd (hfits.inside _ 36 hcmp) (by decide)

end SpecialFilter

end AtbmWifi
