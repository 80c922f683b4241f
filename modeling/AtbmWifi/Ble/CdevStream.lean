import AtbmWifi.Ble.Cdev
import AtbmWifi.Lib.Holders
import Mathlib.Data.List.Forall2

/-!
# What is read from the BLE character device

* `BleFile.Streams`: what a file has delivered and still has is what was queued for it.
* `BleAct.Whole`: the user's copy succeeds and, with the default operations, has room for a message.
-/

namespace AtbmWifi

open Transition

/-- What a reader is to get of a message: the structure, or the event without the header of the device. -/
def BleOps.payload (ops : BleOps) (m : BleMsg) (listEmpty : Bool) : List UInt8 :=
  match ops with
  | default => m.bytes listEmpty
  | bluedroid => (m.eventBuffer.drop bleHwHdrSize).take ((m.size - BitVec.ofNat 64 bleHwHdrSize).setWidth 32).toNat

/-- The bytes are the payloads of the messages, one after the other. -/
def BleOps.Carries (ops : BleOps) : List BleMsg → List UInt8 → Prop
  | [], bytes => bytes = []
  | m :: ms, bytes => ∃ e rest, bytes = ops.payload m e ++ rest ∧ ops.Carries ms rest

def BleSkb.rest (ops : BleOps) (k : BleSkb) : List UInt8 :=
  match ops with
  | .default => k.data
  | .bluedroid => if k.nr = 0 then k.strip.data else k.data

def BleFile.Streams (ops : BleOps) (f : BleFile) : Prop :=
  ops.Carries f.queued (f.delivered ++ f.skbs.flatMap (BleSkb.rest ops))

def BleCdev.held (s : BleCdev) : List Nat := s.files.flatMap fun f => f.skbs.map BleSkb.id

structure BleCdev.Lossless (ops : BleOps) (s : BleCdev) : Prop where
  streams : ∀ f ∈ s.files, f.Streams ops
  /-- each skb is on one queue or was freed once -/
  skbs : ∀ n, (s.held ++ s.freed).count n = if n < s.issued then 1 else 0
  /-- no read runs into the `BUG_ON` or would do so now -/
  bug : s.bug = false ∧ (ops = .default → ∀ f ∈ s.files, ∀ k ∈ f.skbs, k.nr = 0)

namespace BleAct

/-- A message is queued at every file with room for it, unless its copy could not be allocated. -/
def Queues (ops : BleOps) (s : BleCdev) (a : BleAct) : Prop :=
  match a with
  | receive m copies => ∀ i f, s.files[i]? = some f → f.skbs.length < ops.cacheLimit →
      (i + 1 = s.files.length ∨ (copies[i]?).getD true = true) →
      ∃ g, (a.next ops s).files[i]? = some g ∧ g.queued = f.queued ++ [m]
  | _ => True

def Whole (ops : BleOps) : BleAct → Prop
  | read _ len copied => copied = true ∧ (ops = .default → sizeofIoctlStatusAsync ≤ len)
  | _ => True

instance decWhole (ops : BleOps) (a : BleAct) : Decidable (a.Whole ops) :=
  match a with
  | read _ _ _ => inferInstanceAs (Decidable (_ ∧ (_ → _)))
  | openFile | release _ | receive .. | splice _ => .isTrue trivial

end BleAct

namespace BleOps

variable {ops : BleOps}

theorem length_payload (m : BleMsg) (e d : Bool) : (ops.payload m e).length = (ops.payload m d).length := by
  cases ops with
  | default => rfl
  | bluedroid => rfl

theorem Carries.length_eq {ms : List BleMsg} {xs ys : List UInt8} (hx : ops.Carries ms xs) (hy : ops.Carries ms ys) :
    xs.length = ys.length := by
  induction ms generalizing xs ys with
  | nil =>
    have hx : xs = [] := hx
    have hy : ys = [] := hy
    rw [hx, hy]
  | cons m ms ih =>
    obtain ⟨e, r, rfl, hr⟩ := hx
    obtain ⟨d, q, rfl, hq⟩ := hy
    rw [List.length_append, List.length_append, length_payload m e d, ih hr hq]

theorem Carries.append {ms ns : List BleMsg} {xs ys : List UInt8} (hx : ops.Carries ms xs) (hy : ops.Carries ns ys) :
    ops.Carries (ms ++ ns) (xs ++ ys) := by
  induction ms generalizing xs with
  | nil =>
    have hx : xs = [] := hx
    rw [hx]
    exact hy
  | cons m ms ih =>
    obtain ⟨e, r, rfl, hr⟩ := hx
    exact ⟨e, r ++ ys, List.append_assoc _ _ _, ih hr⟩

theorem carries_one (m : BleMsg) (e : Bool) : ops.Carries [m] (ops.payload m e) :=
  ⟨e, [], (List.append_nil _).symm, rfl⟩

end BleOps

/-- The skb carries the message and was not read yet. -/
def BleSkb.Fresh (m : BleMsg) (k : BleSkb) : Prop := k.nr = 0 ∧ k.size = m.size ∧ ∃ e, k.data = m.bytes e

namespace BleSkb

variable {ops : BleOps} {m : BleMsg} {k : BleSkb}

theorem strip_data (m : BleMsg) (e : Bool) (h : k.data = m.bytes e) (hs : k.size = m.size) :
    k.strip.data = BleOps.payload .bluedroid m e := by
  unfold strip BleOps.payload
  rw [h, hs]
  rfl

variable (ops) in
theorem Fresh.rest_eq (h : k.Fresh m) : ∃ e, k.rest ops = ops.payload m e := by
  obtain ⟨hnr, hsize, e, hdata⟩ := h
  refine ⟨e, ?_⟩
  cases ops with
  | default => exact hdata
  | bluedroid =>
    unfold rest
    simp only [hnr, if_true]
    exact strip_data m e hdata hsize

theorem fresh_skb (m : BleMsg) (id : Nat) : (m.skb id).Fresh m := ⟨rfl, rfl, false, rfl⟩

theorem Fresh.setListEmpty (h : k.Fresh m) (n : Nat) : (k.setListEmpty n).Fresh m := by
  obtain ⟨hnr, hsize, e, hdata⟩ := h
  unfold BleSkb.setListEmpty
  rw [if_pos hnr]
  refine ⟨hnr, hsize, decide (¬2 ≤ n), ?_⟩
  show k.data.set 2 _ = _
  rw [hdata]
  unfold BleMsg.bytes
  by_cases hn : 2 ≤ n
  · simp [hn]
  · simp [hn]

theorem Fresh.length_eq (h : k.Fresh m) : k.data.length = sizeofIoctlStatusAsync := by
  obtain ⟨-, -, e, hdata⟩ := h
  rw [hdata]
  unfold BleMsg.bytes
  rw [List.length_append, m.full]
  rfl

end BleSkb

/-- What is still to be read of the messages, of the first of which `part` was delivered. -/
def BleOps.Held (ops : BleOps) : List BleMsg → List BleSkb → List UInt8 → Prop
  | [], [], part => part = []
  | m :: ms, k :: ks, part =>
    ((k.Fresh m ∧ part = []) ∨ (ops = .bluedroid ∧ k.nr ≠ 0 ∧ ∃ e, part ++ k.data = ops.payload m e)) ∧
      List.Forall₂ BleSkb.Fresh ms ks
  | _, _, _ => False

/-- The invariant of a file, as long as its reads are whole. -/
def BleFile.Inv (ops : BleOps) (f : BleFile) : Prop :=
  ∃ done todo before part, f.queued = done ++ todo ∧ f.delivered = before ++ part ∧ ops.Carries done before ∧
    ops.Held todo f.skbs part

namespace BleOps

variable {ops : BleOps}

variable {ks : List BleSkb} {ms : List BleMsg} {part : List UInt8}

variable (ops) in
theorem carries_fresh (h : List.Forall₂ BleSkb.Fresh ms ks) : ops.Carries ms (ks.flatMap (BleSkb.rest ops)) := by
  induction h with
  | nil => rfl
  | cons hk _ ih =>
    obtain ⟨e, he⟩ := hk.rest_eq ops
    exact ⟨e, _, by rw [List.flatMap_cons, he], ih⟩

theorem Held.carries (h : ops.Held ms ks part) : ops.Carries ms (part ++ ks.flatMap (BleSkb.rest ops)) := by
  cases ms with
  | nil =>
    cases ks with
    | nil =>
      have h : part = [] := h
      rw [h]
      rfl
    | cons k ks => exact h.elim
  | cons m ms =>
    cases ks with
    | nil => exact h.elim
    | cons k ks =>
      obtain ⟨hk, htail⟩ := h
      have htail := carries_fresh ops htail
      rcases hk with ⟨hk, rfl⟩ | ⟨rfl, hnr, e, he⟩
      · obtain ⟨e, he⟩ := hk.rest_eq ops
        exact ⟨e, _, by rw [List.flatMap_cons, he]; rfl, htail⟩
      · refine ⟨e, _, ?_, htail⟩
        have hrest : k.rest .bluedroid = k.data := if_neg hnr
        rw [List.flatMap_cons, hrest, ← he, List.append_assoc]

theorem held_fresh (h : List.Forall₂ BleSkb.Fresh ms ks) : ops.Held ms ks [] := by
  cases h with
  | nil => rfl
  | cons hk htail => exact ⟨.inl ⟨hk, rfl⟩, htail⟩

theorem Held.submit (h : ops.Held ms ks part) (m : BleMsg)
    (id : Nat) : ops.Held (ms ++ [m]) (ks ++ [m.skb id]) part := by
  have hlast : List.Forall₂ BleSkb.Fresh [m] [m.skb id] := .cons (BleSkb.fresh_skb m id) .nil
  cases ms with
  | nil =>
    cases ks with
    | nil => exact ⟨.inl ⟨BleSkb.fresh_skb m id, h⟩, .nil⟩
    | cons k ks => exact h.elim
  | cons n ms =>
    cases ks with
    | nil => exact h.elim
    | cons k ks => exact ⟨h.1, List.rel_append h.2 hlast⟩

theorem Held.unread (h : ops.Held ms ks part) (hops : ops = .default) : ∀ k ∈ ks, k.nr = 0 := by
  cases ms with
  | nil =>
    cases ks with
    | nil => nofun
    | cons k ks => exact h.elim
  | cons m ms =>
    cases ks with
    | nil => exact h.elim
    | cons k ks =>
      obtain ⟨hk, htail⟩ := h
      intro j hj
      rcases List.mem_cons.mp hj with rfl | hj
      · rcases hk with ⟨hk, -⟩ | ⟨hb, -⟩
        · exact hk.1
        · rw [hops] at hb
          cases hb
      · clear hk
        induction htail with
        | nil => cases hj
        | cons hk _ ih =>
          rcases List.mem_cons.mp hj with rfl | hj
          · exact hk.1
          · exact ih (List.mem_cons_of_mem _ hj) hj

end BleOps

namespace BleFile

variable {ops : BleOps} {f : BleFile}

theorem Inv.streams (h : f.Inv ops) : f.Streams ops := by
  obtain ⟨done, todo, before, part, hq, hd, hdone, hheld⟩ := h
  unfold Streams
  rw [hq, hd, List.append_assoc]
  exact hdone.append hheld.carries

theorem Inv.unread (h : f.Inv ops) (hops : ops = .default) : ∀ k ∈ f.skbs, k.nr = 0 := by
  obtain ⟨_, _, _, _, _, _, _, hheld⟩ := h
  exact hheld.unread hops

theorem Inv.submit (h : f.Inv ops) (m : BleMsg) (id : Nat) : (ieee80211BleFileSubmitSkb ops m id f).1.Inv ops := by
  unfold ieee80211BleFileSubmitSkb
  split
  · obtain ⟨done, todo, before, part, hq, hd, hdone, hheld⟩ := h
    refine ⟨done, todo ++ [m], before, part, ?_, hd, hdone, ?_⟩
    · rw [← List.append_assoc, ← hq]
    · show ops.Held _ (f.list.getD [] ++ (f.recvQueue ++ [m.skb id])) _
      rw [← List.append_assoc]
      exact hheld.submit m id
  · exact h

theorem read_spec {m : BleMsg} {k : BleSkb} {part : List UInt8}
    (h : (k.Fresh m ∧ part = []) ∨ (ops = .bluedroid ∧ k.nr ≠ 0 ∧ ∃ e, part ++ k.data = ops.payload m e))
    (n len : Nat) (copied : Bool) :
    (∃ e, part ++ (ops.read (k.setListEmpty n) len copied).1.data = ops.payload m e) ∧
      (ops.read (k.setListEmpty n) len copied).1.id = k.id ∧
      (ops.read (k.setListEmpty n) len copied).2 =
        if copied = true then ((min len (ops.read (k.setListEmpty n) len copied).1.data.length : Nat) : Int) else -1 := by
  have hid : (k.setListEmpty n).id = k.id := by
    unfold BleSkb.setListEmpty
    split
    · rfl
    · rfl
  cases ops with
  | default =>
    rcases h with ⟨hk, rfl⟩ | ⟨hno, -⟩
    · have hfresh := hk.setListEmpty n
      have hlength := hfresh.length_eq
      obtain ⟨-, -, e, he⟩ := hfresh
      refine ⟨⟨e, he⟩, hid, ?_⟩
      show (if copied = true then ((min len sizeofIoctlStatusAsync : Nat) : Int) else -1) = _
      show _ = if copied = true then ((min len (k.setListEmpty n).data.length : Nat) : Int) else -1
      rw [hlength]
    · cases hno
  | bluedroid =>
    rcases h with ⟨hk, rfl⟩ | ⟨-, hnr, he⟩
    · have hfresh := hk.setListEmpty n
      have hread : ∀ c, (ieee8021BleOperationsBluedriodRead (k.setListEmpty n) len c).1 = (k.setListEmpty n).strip := by
        intro c
        exact if_pos hfresh.1
      obtain ⟨-, hsize, e, he⟩ := hfresh
      refine ⟨⟨e, ?_⟩, ?_, rfl⟩
      · show [] ++ (ieee8021BleOperationsBluedriodRead (k.setListEmpty n) len copied).1.data = _
        rw [hread, List.nil_append]
        exact BleSkb.strip_data m e he hsize
      · show (ieee8021BleOperationsBluedriodRead (k.setListEmpty n) len copied).1.id = _
        rw [hread]
        exact hid
    · have hsame : k.setListEmpty n = k := if_neg hnr
      have hread : ∀ c, (ieee8021BleOperationsBluedriodRead k len c).1 = k := fun c => if_neg hnr
      rw [hsame]
      refine ⟨?_, ?_, rfl⟩
      · show ∃ e, part ++ (ieee8021BleOperationsBluedriodRead k len copied).1.data = _
        rw [hread]
        exact he
      · show (ieee8021BleOperationsBluedriodRead k len copied).1.id = _
        rw [hread]

variable (ops) in
theorem length_payload_le (m : BleMsg) (e : Bool) : (ops.payload m e).length ≤ sizeofIoctlStatusAsync := by
  cases ops with
  | default =>
    unfold BleOps.payload BleMsg.bytes
    rw [List.length_append, m.full]
    exact Nat.le_refl _
  | bluedroid =>
    unfold BleOps.payload
    rw [List.length_take, List.length_drop, m.full]
    exact Nat.le_trans (Nat.min_le_right _ _) (by decide)

theorem ofInt_toNat {n : Nat} (h : n ≤ sizeofIoctlStatusAsync) : (BitVec.ofInt 32 (n : Int)).toNat = n := by
  have hn : sizeofIoctlStatusAsync = 515 := rfl
  rw [BitVec.ofInt_natCast, BitVec.toNat_ofNat]
  omega

theorem consume_whole {m : BleMsg} {k : BleSkb} {part : List UInt8} {len : Nat} (hlen : 0 < len)
    (hroom : ops = .default → sizeofIoctlStatusAsync ≤ len) (hpart : ∃ e, part ++ k.data = ops.payload m e)
    (hdefault : ops = .default → k.data.length = sizeofIoctlStatusAsync) :
    ((k.consume (min len k.data.length : Nat)).1 = [] ∧
        ∃ e, part ++ k.data.take (min len k.data.length) = ops.payload m e) ∨
      (ops = .bluedroid ∧ ∃ j, (k.consume (min len k.data.length : Nat)).1 = [j] ∧ j.nr ≠ 0 ∧
        ∃ e, part ++ k.data.take (min len k.data.length) ++ j.data = ops.payload m e) := by
  obtain ⟨e, he⟩ := hpart
  have hle : k.data.length ≤ sizeofIoctlStatusAsync := by
    have := length_payload_le ops m e
    rw [← he, List.length_append] at this
    omega
  have hint := ofInt_toNat (n := min len k.data.length) (by omega)
  unfold BleSkb.consume
  rw [hint]
  by_cases hall : k.data.length ≤ len
  · left
    rw [Nat.min_eq_right hall, if_pos (Nat.le_refl _), List.take_length]
    exact ⟨rfl, e, he⟩
  · right
    have hmin : min len k.data.length = len := Nat.min_eq_left (by omega)
    have hops : ops = .bluedroid := by
      cases ops with
      | bluedroid => rfl
      | default =>
        have := hroom rfl
        have := hdefault rfl
        omega
    rw [hmin, if_neg (by omega), if_pos (by omega)]
    refine ⟨hops, _, rfl, Nat.succ_ne_zero _, e, ?_⟩
    show part ++ k.data.take len ++ k.data.drop (len : Int).toNat = _
    rw [Int.toNat_natCast, List.append_assoc, List.take_append_drop, he]

theorem first_eq {k : BleSkb} (h : f.first = some k) : ∃ rest, f.list = some (k :: rest) := by
  unfold first at h
  cases hl : f.list with
  | none =>
    rw [hl] at h
    cases h
  | some l =>
    rw [hl] at h
    cases l with
    | nil => cases h
    | cons j rest =>
      cases h
      exact ⟨rest, rfl⟩

theorem Inv.finishRead (h : f.Inv ops) {k : BleSkb} (hk : f.first = some k) {len : Nat} (hlen : 0 < len)
    (hroom : ops = .default → sizeofIoctlStatusAsync ≤ len) : (f.finishRead ops len true).1.Inv ops := by
  obtain ⟨rest, hlist⟩ := first_eq hk
  obtain ⟨done, todo, before, part, hq, hd, hdone, hheld⟩ := h
  have hskbs : f.skbs = k :: (rest ++ f.recvQueue) := by
    unfold skbs
    rw [hlist]
    rfl
  rw [hskbs] at hheld
  cases todo with
  | nil => exact hheld.elim
  | cons m ms =>
    obtain ⟨hfirst, htail⟩ := hheld
    obtain ⟨hpart, -, hret⟩ := read_spec hfirst (rest.length + 1) len true
    rw [if_pos rfl] at hret
    have hdefault : ops = .default →
        (ops.read (k.setListEmpty (rest.length + 1)) len true).1.data.length = sizeofIoctlStatusAsync := by
      rintro rfl
      rcases hfirst with ⟨hfresh, -⟩ | ⟨hno, -⟩
      · exact (hfresh.setListEmpty _).length_eq
      · cases hno
    have hconsume := consume_whole hlen hroom hpart hdefault
    unfold BleFile.finishRead
    rw [hlist]
    dsimp only
    rw [hret]
    rcases hconsume with ⟨hleft, e, he⟩ | ⟨hops, j, hleft, hnr, he⟩
    · refine ⟨done ++ [m], ms, before ++ ops.payload m e, [], ?_, ?_, hdone.append (BleOps.carries_one m e), ?_⟩
      · show f.queued = done ++ [m] ++ ms
        rw [hq, List.append_assoc]
        rfl
      · show f.delivered ++ _ = _
        rw [hd, ← he, Int.toNat_natCast, List.append_nil, List.append_assoc]
      · show ops.Held ms ([] ++ ((_ : List BleSkb) ++ rest ++ f.recvQueue)) []
        rw [hleft]
        exact BleOps.held_fresh htail
    · refine ⟨done, m :: ms, before, part ++ (ops.read (k.setListEmpty (rest.length + 1)) len true).1.data.take
        (min len (ops.read (k.setListEmpty (rest.length + 1)) len true).1.data.length), hq, ?_, hdone, ?_⟩
      · show f.delivered ++ _ = _
        rw [hd, Int.toNat_natCast, List.append_assoc]
      · show ops.Held (m :: ms) ([] ++ ((_ : List BleSkb) ++ rest ++ f.recvQueue)) _
        rw [hleft]
        exact ⟨.inr ⟨hops, hnr, he⟩, htail⟩

theorem rest_ne_nil {k : BleSkb} {len : Nat} (hd : ops = .default → k.data.length = sizeofIoctlStatusAsync)
    (h : (ops.read k len true).2 ≠ 0) : 0 < (k.rest ops).length := by
  cases ops with
  | default =>
    show 0 < k.data.length
    rw [hd rfl]
    decide
  | bluedroid =>
    have hrest : k.rest .bluedroid = (if k.nr = 0 then k.strip else k).data := by
      unfold BleSkb.rest
      dsimp only
      split
      · rfl
      · rfl
    have h : ((min len (if k.nr = 0 then k.strip else k).data.length : Nat) : Int) ≠ 0 := h
    rw [hrest]
    omega

theorem Inv.lose (h : f.Inv ops) {k : BleSkb} (hk : f.first = some k) {len : Nat} {copied : Bool} (hlen : 0 < len)
    (hfail : copied = false → (ops.read k len true).2 ≠ 0)
    (hS : (f.finishRead ops len copied).1.Streams ops)
    (hN : ops = .default → ∀ k ∈ (f.finishRead ops len copied).1.skbs, k.nr = 0) :
    copied = true ∧ (ops = .default → sizeofIoctlStatusAsync ≤ len) := by
  obtain ⟨rest, hlist⟩ := first_eq hk
  have hstreams := h.streams
  obtain ⟨done, todo, before, part, hq, hd, hdone, hheld⟩ := h
  have hskbs : f.skbs = k :: (rest ++ f.recvQueue) := by
    unfold skbs
    rw [hlist]
    rfl
  rw [hskbs] at hheld
  cases todo with
  | nil => exact hheld.elim
  | cons m ms =>
    obtain ⟨hfirst, htail⟩ := hheld
    obtain ⟨⟨e, he⟩, -, hret⟩ := read_spec hfirst (rest.length + 1) len copied
    have hdefault : ops = .default → k.Fresh m := by
      rintro rfl
      rcases hfirst with ⟨hfresh, -⟩ | ⟨hno, -⟩
      · exact hfresh
      · cases hno
    have hle : (ops.read (k.setListEmpty (rest.length + 1)) len copied).1.data.length ≤ sizeofIoctlStatusAsync := by
      have := length_payload_le ops m e
      rw [← he, List.length_append] at this
      omega
    unfold BleFile.finishRead at hS hN
    rw [hlist] at hS hN
    dsimp only at hS hN
    cases hcopied : copied with
    | false =>
      -- the skb is freed: -1 is taken for a large number
      subst hcopied
      exfalso
      have hrest := rest_ne_nil (fun hops => (hdefault hops).length_eq) (hfail rfl)
      rw [hret] at hS
      have hneg : (BitVec.ofInt 32 (-1)).toNat = 4294967295 := rfl
      have hn : sizeofIoctlStatusAsync = 515 := rfl
      have hconsume : ((ops.read (k.setListEmpty (rest.length + 1)) len false).1.consume (-1)).1 = [] := by
        unfold BleSkb.consume
        rw [if_pos (by omega)]
      have hlength := hstreams.length_eq hS
      rw [List.length_append, List.length_append] at hlength
      rw [if_neg (by simp)] at hlength
      have hafter : ({ f with
          recvQueue := ((ops.read (k.setListEmpty (rest.length + 1)) len false).1.consume (-1)).1 ++ rest ++ f.recvQueue
          list := none
          delivered := f.delivered ++ (ops.read (k.setListEmpty (rest.length + 1)) len false).1.data.take (-1 : Int).toNat
            } : BleFile).skbs = rest ++ f.recvQueue := by
        unfold skbs
        rw [hconsume]
        rfl
      rw [hafter, hskbs, List.flatMap_cons, List.length_append] at hlength
      have htake : (f.delivered ++
          (ops.read (k.setListEmpty (rest.length + 1)) len false).1.data.take (-1 : Int).toNat).length =
          f.delivered.length := by
        rw [show (-1 : Int).toNat = 0 from rfl, List.take_zero, List.append_nil]
      rw [htake] at hlength
      omega
    | true =>
      subst hcopied
      refine ⟨rfl, ?_⟩
      rintro rfl
      have hfresh := (hdefault rfl).setListEmpty (rest.length + 1)
      by_contra hshort
      have hdata : (BleOps.read .default (k.setListEmpty (rest.length + 1)) len true).1.data.length =
          sizeofIoctlStatusAsync := hfresh.length_eq
      rw [if_pos rfl, hdata, Nat.min_eq_left (by omega)] at hret
      rw [hret] at hN
      have hint := ofInt_toNat (n := len) (by omega)
      have hconsume : ∃ j, ((BleOps.read .default (k.setListEmpty (rest.length + 1)) len true).1.consume (len : Int)).1 =
          [j] ∧ j.nr ≠ 0 := by
        unfold BleSkb.consume
        rw [hint, hdata, if_neg (by omega), if_pos (by omega)]
        exact ⟨_, rfl, Nat.succ_ne_zero _⟩
      obtain ⟨j, hj, hnr⟩ := hconsume
      apply hnr
      apply hN rfl
      unfold skbs
      rw [hj]
      exact List.mem_cons_self

end BleFile

def BleFile.ids (f : BleFile) : List Nat := f.skbs.map BleSkb.id

section
variable {ops : BleOps} {m : BleMsg} {id : Nat}

theorem count_one (j n : Nat) : [j].count n = if j = n then 1 else 0 := by
  rw [List.count_singleton]
  by_cases hn : j = n
  · rw [if_pos hn, if_pos (by simpa using hn)]
  · rw [if_neg hn, if_neg (by simpa using hn)]

variable (ops) in
theorem submit_ids (m : BleMsg) (id : Nat) (f : BleFile) (n : Nat) :
    (ieee80211BleFileSubmitSkb ops m id f).1.ids.count n +
        (if (ieee80211BleFileSubmitSkb ops m id f).2 = true then [] else [id]).count n =
      f.ids.count n + if id = n then 1 else 0 := by
  have hone := count_one id n
  unfold ieee80211BleFileSubmitSkb
  split
  · have hskbs : ({ f with recvQueue := f.recvQueue ++ [m.skb id], queued := f.queued ++ [m] } : BleFile).skbs =
        f.skbs ++ [m.skb id] := (List.append_assoc _ _ _).symm
    show (({ f with recvQueue := f.recvQueue ++ [m.skb id], queued := f.queued ++ [m] } : BleFile).skbs.map
      BleSkb.id).count n + _ = _
    rw [hskbs, List.map_append, List.count_append, if_pos rfl, ← hone]
    rfl
  · rw [if_neg nofun, hone]

theorem rx_queues (files : List BleFile) (copies : List Bool) (next i : Nat) (f : BleFile) (hf : files[i]? = some f)
    (hroom : f.recvQueue.length < ops.cacheLimit)
    (hcopy : i + 1 = files.length ∨ (copies[i]?).getD true = true) :
    ∃ g, (bleCdevRx ops m id files copies next).1[i]? = some g ∧ g.queued = f.queued ++ [m] := by
  have hsubmit : ∀ j, (ieee80211BleFileSubmitSkb ops m j f).1.queued = f.queued ++ [m] := by
    intro j
    unfold ieee80211BleFileSubmitSkb
    rw [if_pos hroom]
  induction files generalizing copies next i with
  | nil => cases hf
  | cons h fs ih =>
    cases fs with
    | nil =>
      cases i with
      | zero =>
        cases hf
        exact ⟨_, rfl, hsubmit id⟩
      | succ i => cases hf
    | cons g fs =>
      cases i with
      | zero =>
        cases hf
        have hhead : copies.headD true = true := by
          rcases hcopy with hno | hcopy
          · simp only [List.length_cons] at hno
            omega
          · cases copies with
            | nil => rfl
            | cons c cs => exact hcopy
        unfold bleCdevRx
        rw [hhead]
        exact ⟨_, rfl, hsubmit next⟩
      | succ i =>
        have hcopy : i + 1 = (g :: fs).length ∨ (copies.tail[i]?).getD true = true := by
          rcases hcopy with hlast | hcopy
          · left
            simp only [List.length_cons] at hlast ⊢
            omega
          · right
            cases copies with
            | nil => rfl
            | cons c cs => exact hcopy
        unfold bleCdevRx
        split
        · exact ih copies.tail (next + 1) i hf hcopy
        · exact ih copies.tail next i hf hcopy

theorem rx_mem (files : List BleFile) (copies : List Bool) (next : Nat) (g : BleFile)
    (hg : g ∈ (bleCdevRx ops m id files copies next).1) :
    ∃ f ∈ files, g = f ∨ ∃ j, g = (ieee80211BleFileSubmitSkb ops m j f).1 := by
  induction files generalizing copies next with
  | nil => cases hg
  | cons f fs ih =>
    cases fs with
    | nil =>
      rw [List.mem_singleton.mp hg]
      exact ⟨f, List.mem_cons_self, .inr ⟨id, rfl⟩⟩
    | cons h fs =>
      unfold bleCdevRx at hg
      split at hg
      · rcases List.mem_cons.mp hg with rfl | hg
        · exact ⟨f, List.mem_cons_self, .inr ⟨next, rfl⟩⟩
        · obtain ⟨f', hf', hw⟩ := ih _ _ hg
          exact ⟨f', List.mem_cons_of_mem _ hf', hw⟩
      · rcases List.mem_cons.mp hg with rfl | hg
        · exact ⟨g, List.mem_cons_self, .inl rfl⟩
        · obtain ⟨f', hf', hw⟩ := ih _ _ hg
          exact ⟨f', List.mem_cons_of_mem _ hf', hw⟩

variable (ops m id) in
theorem rx_ids (files : List BleFile) (copies : List Bool) (next : Nat) :
    next ≤ (bleCdevRx ops m id files copies next).2.2 ∧
      ∀ n, ((bleCdevRx ops m id files copies next).1.flatMap BleFile.ids).count n +
          (bleCdevRx ops m id files copies next).2.1.count n =
        (files.flatMap BleFile.ids).count n + (if id = n then 1 else 0) +
          if next ≤ n ∧ n < (bleCdevRx ops m id files copies next).2.2 then 1 else 0 := by
  induction files generalizing copies next with
  | nil =>
    refine ⟨Nat.le_refl _, fun n => ?_⟩
    show 0 + [id].count n = 0 + _ + if next ≤ n ∧ n < next then 1 else 0
    rw [count_one, if_neg (c := next ≤ n ∧ n < next) (by omega)]
    omega
  | cons f fs ih =>
    cases fs with
    | nil =>
      refine ⟨Nat.le_refl _, fun n => ?_⟩
      have hsubmit := submit_ids ops m id f n
      show ([(ieee80211BleFileSubmitSkb ops m id f).1].flatMap BleFile.ids).count n +
        (if (ieee80211BleFileSubmitSkb ops m id f).2 = true then [] else [id]).count n =
          ([f].flatMap BleFile.ids).count n + _ + if next ≤ n ∧ n < next then 1 else 0
      rw [if_neg (by omega : ¬(next ≤ n ∧ n < next)), List.flatMap_singleton, List.flatMap_singleton]
      exact hsubmit
    | cons g fs =>
      unfold bleCdevRx
      split
      · obtain ⟨hle, hcount⟩ := ih copies.tail (next + 1)
        refine ⟨Nat.le_of_succ_le hle, fun n => ?_⟩
        have hsubmit := submit_ids ops m next f n
        have hrest := hcount n
        show (((ieee80211BleFileSubmitSkb ops m next f).1 ::
            (bleCdevRx ops m id (g :: fs) copies.tail (next + 1)).1).flatMap BleFile.ids).count n +
          ((if (ieee80211BleFileSubmitSkb ops m next f).2 = true then [] else [next]) ++
            (bleCdevRx ops m id (g :: fs) copies.tail (next + 1)).2.1).count n = _ + _ +
              if next ≤ n ∧ n < (bleCdevRx ops m id (g :: fs) copies.tail (next + 1)).2.2 then 1 else 0
        rw [List.flatMap_cons, List.count_append, List.count_append, List.flatMap_cons (x := f), List.count_append]
        have hspan : (if next ≤ n ∧ n < (bleCdevRx ops m id (g :: fs) copies.tail (next + 1)).2.2 then 1 else 0) =
            (if next = n then 1 else 0) +
              if next + 1 ≤ n ∧ n < (bleCdevRx ops m id (g :: fs) copies.tail (next + 1)).2.2 then 1 else 0 := by
          split
          · split
            · rw [if_neg (by omega)]
            · rw [if_pos (by omega)]
          · rw [if_neg (by omega), if_neg (by omega)]
        rw [hspan]
        omega
      · obtain ⟨hle, hcount⟩ := ih copies.tail next
        refine ⟨hle, fun n => ?_⟩
        have hrest := hcount n
        show ((f :: (bleCdevRx ops m id (g :: fs) copies.tail next).1).flatMap BleFile.ids).count n +
          (bleCdevRx ops m id (g :: fs) copies.tail next).2.1.count n = _ + _ +
            if next ≤ n ∧ n < (bleCdevRx ops m id (g :: fs) copies.tail next).2.2 then 1 else 0
        rw [List.flatMap_cons, List.count_append, List.flatMap_cons (x := f), List.count_append]
        omega

end

namespace BleCdev

variable {ops : BleOps} {s : BleCdev}

def Inv (ops : BleOps) (s : BleCdev) : Prop := ∀ f ∈ s.files, f.Inv ops

theorem held_eq (s : BleCdev) : s.held = s.files.flatMap BleFile.ids := rfl

theorem consume_ids (k : BleSkb) (ret : Int) :
    ((k.consume ret).1.map BleSkb.id) ++ (k.consume ret).2 = [k.id] := by
  unfold BleSkb.consume
  split
  · rfl
  · split
    · rfl
    · rfl

theorem finishRead_ids (f : BleFile) (len : Nat) (copied : Bool)
    (hid : ∀ k n, f.first = some k → (ops.read (k.setListEmpty n) len copied).1.id = k.id) :
    ((f.finishRead ops len copied).1.ids ++ (f.finishRead ops len copied).2).Perm f.ids := by
  unfold BleFile.finishRead
  split
  · next k rest hlist =>
    have hfirst : f.first = some k := by
      unfold BleFile.first
      rw [hlist]
      rfl
    have hk := hid k (rest.length + 1) hfirst
    have hconsume := consume_ids (ops.read (k.setListEmpty (rest.length + 1)) len copied).1
      (ops.read (k.setListEmpty (rest.length + 1)) len copied).2
    rw [hk] at hconsume
    have hids : f.ids = [k.id] ++ (rest ++ f.recvQueue).map BleSkb.id := by
      unfold BleFile.ids BleFile.skbs
      rw [hlist]
      rfl
    rw [hids, ← hconsume]
    dsimp only
    unfold BleFile.ids BleFile.skbs
    dsimp only [Option.getD_none]
    rw [List.nil_append, List.append_assoc, List.map_append, List.append_assoc, List.append_assoc]
    exact List.Perm.append_left _ List.perm_append_comm
  · rw [List.append_nil]
  · rw [List.append_nil]

variable {i : Nat} {a : BleAct}

theorem Inv.read_id (h : s.Inv ops) {f : BleFile} (hf : s.files[i]? = some f) (len : Nat) (copied : Bool)
    (k : BleSkb) (n : Nat) (hk : f.first = some k) : (ops.read (k.setListEmpty n) len copied).1.id = k.id := by
  obtain ⟨rest, hlist⟩ := BleFile.first_eq hk
  obtain ⟨done, todo, before, part, hq, hd, hdone, hheld⟩ := h f (List.mem_of_getElem? hf)
  have hskbs : f.skbs = k :: (rest ++ f.recvQueue) := by
    unfold BleFile.skbs
    rw [hlist]
    rfl
  rw [hskbs] at hheld
  cases todo with
  | nil => exact hheld.elim
  | cons m ms => exact (BleFile.read_spec hheld.1 n len copied).2.1

theorem next_splice {f : BleFile} (hf : s.files[i]? = some f) : (BleAct.splice i).next ops s =
      { s with files := s.files.set i { f with recvQueue := [], list := some f.recvQueue } } := by
  unfold BleAct.next
  dsimp only
  rw [hf]

theorem next_read {f : BleFile} (hf : s.files[i]? = some f) (len : Nat) (copied : Bool) :
    (BleAct.read i len copied).next ops s =
      { s with
        files := s.files.set i (f.finishRead ops len copied).1
        freed := s.freed ++ (f.finishRead ops len copied).2
        bug := s.bug || (ops == .default && f.first.any fun k => k.nr != 0) } := by
  unfold BleAct.next
  dsimp only
  rw [hf]

/-- Each skb is on one queue or was freed once: no step changes that. -/
def Counted (s : BleCdev) : Prop := ∀ n, (s.held ++ s.freed).count n = if n < s.issued then 1 else 0

theorem Counted.step (h : s.Counted) (hI : s.Inv ops) (ha : a.Enabled ops s) : (a.next ops s).Counted := by
  intro n
  have hn := h n
  rw [List.count_append] at hn ⊢
  cases a with
  | openFile =>
    have hnew : (BleAct.openFile.next ops s).held = s.held := by
      unfold held BleAct.next
      rw [List.flatMap_append]
      exact List.append_nil _
    rw [hnew]
    exact hn
  | release i =>
    obtain ⟨hi, -⟩ := ha.2
    show ((s.files.eraseIdx i).flatMap BleFile.ids).count n +
      (s.freed ++ ((s.files[i]?.map BleFile.skbs).getD []).map BleSkb.id).count n = if n < s.issued then 1 else 0
    have hperm := (List.getElem_cons_eraseIdx_perm hi).flatMap_right BleFile.ids
    have hcount := hperm.count_eq n
    rw [List.flatMap_cons, List.count_append] at hcount
    rw [List.getElem?_eq_getElem hi, List.count_append]
    show _ + (_ + s.files[i].ids.count n) = _
    rw [held_eq] at hn
    omega
  | receive m copies =>
    obtain ⟨hle, hcount⟩ := rx_ids ops m s.issued s.files copies (s.issued + 1)
    have := hcount n
    show ((bleCdevRx ops m s.issued s.files copies (s.issued + 1)).1.flatMap BleFile.ids).count n +
      (s.freed ++ (bleCdevRx ops m s.issued s.files copies (s.issued + 1)).2.1).count n =
        if n < (bleCdevRx ops m s.issued s.files copies (s.issued + 1)).2.2 then 1 else 0
    rw [List.count_append]
    rw [held_eq] at hn
    have hspan : (if n < (bleCdevRx ops m s.issued s.files copies (s.issued + 1)).2.2 then 1 else 0) =
        (if n < s.issued then 1 else 0) + (if s.issued = n then 1 else 0) +
          if s.issued + 1 ≤ n ∧ n < (bleCdevRx ops m s.issued s.files copies (s.issued + 1)).2.2 then 1 else 0 := by
      split
      · rcases Nat.lt_trichotomy n s.issued with hlt | heq | hgt
        · rw [if_pos hlt, if_neg (by omega), if_neg (by omega)]
        · rw [if_neg (by omega), if_pos heq.symm, if_neg (by omega)]
        · rw [if_neg (by omega), if_neg (by omega), if_pos (by omega)]
      · rw [if_neg (by omega), if_neg (by omega), if_neg (by omega)]
    rw [hspan]
    omega
  | splice i =>
    obtain ⟨hnone, f, hf, -⟩ := ha.2
    have hf : s.files[i]? = some f := hf
    have hids : BleFile.ids { f with recvQueue := [], list := some f.recvQueue } = f.ids := by
      unfold BleFile.ids BleFile.skbs
      rw [hnone f (List.mem_of_getElem? hf)]
      exact congrArg _ (List.append_nil _)
    have hsame := flatMap_set_same (f := BleFile.ids) hf hids
    rw [next_splice hf]
    show ((s.files.set i { f with recvQueue := [], list := some f.recvQueue }).flatMap BleFile.ids).count n + _ = _
    rw [hsame]
    exact hn
  | read i len copied =>
    obtain ⟨-, f, hf, -⟩ := ha.2
    have hf : s.files[i]? = some f := hf
    have hperm := (finishRead_ids f len copied fun k m hk => hI.read_id hf len copied k m hk).count_eq n
    have hset := count_flatMap_set BleFile.ids hf (f.finishRead ops len copied).1 n
    rw [next_read hf]
    show ((s.files.set i (f.finishRead ops len copied).1).flatMap BleFile.ids).count n +
      (s.freed ++ (f.finishRead ops len copied).2).count n = if n < s.issued then 1 else 0
    rw [List.count_append] at hperm ⊢
    rw [held_eq] at hn
    omega

theorem Inv.step (h : s.Inv ops) (ha : a.Enabled ops s) (hC : a.Whole ops) : (a.next ops s).Inv ops := by
  cases a with
  | openFile =>
    intro f hf
    rcases List.mem_append.mp hf with hf | hf
    · exact h f hf
    · rw [List.mem_singleton.mp hf]
      exact ⟨[], [], [], [], rfl, rfl, rfl, rfl⟩
  | release i => exact fun f hf => h f (List.mem_of_mem_eraseIdx hf)
  | receive m copies =>
    intro g hg
    obtain ⟨f, hf, rfl | ⟨j, rfl⟩⟩ := rx_mem _ _ _ g hg
    · exact h g hf
    · exact (h f hf).submit m j
  | splice i =>
    obtain ⟨hnone, f, hf, -⟩ := ha.2
    have hf : s.files[i]? = some f := hf
    rw [next_splice hf]
    intro g hg
    rcases List.mem_or_eq_of_mem_set hg with hg | rfl
    · exact h g hg
    · obtain ⟨done, todo, before, part, hq, hd, hdone, hheld⟩ := h f (List.mem_of_getElem? hf)
      refine ⟨done, todo, before, part, hq, hd, hdone, ?_⟩
      unfold BleFile.skbs at hheld
      rw [hnone f (List.mem_of_getElem? hf)] at hheld
      show ops.Held todo (f.recvQueue ++ []) part
      rw [List.append_nil]
      exact hheld
  | read i len copied =>
    obtain ⟨hlen, f, hf, k, hk, -⟩ := ha.2
    have hf : s.files[i]? = some f := hf
    obtain ⟨rfl, hroom⟩ := hC
    rw [next_read hf]
    intro g hg
    rcases List.mem_or_eq_of_mem_set hg with hg | rfl
    · exact h g hg
    · exact (h f (List.mem_of_getElem? hf)).finishRead hk hlen hroom

theorem Inv.bug (h : s.Inv ops) (ha : a.Enabled ops s) : (a.next ops s).bug = false := by
  cases a with
  | read i len copied =>
    obtain ⟨-, f, hf, k, hk, -⟩ := ha.2
    have hf : s.files[i]? = some f := hf
    have hk : f.first = some k := hk
    rw [next_read hf]
    show (s.bug || (ops == .default && f.first.any fun k => k.nr != 0)) = false
    rw [ha.1, hk]
    cases ops with
    | bluedroid => rfl
    | default =>
      obtain ⟨rest, hlist⟩ := BleFile.first_eq hk
      have hnr := (h f (List.mem_of_getElem? hf)).unread rfl k (by
        unfold BleFile.skbs
        rw [hlist]
        exact List.mem_cons_self)
      simp [hnr]
  | splice i =>
    obtain ⟨-, f, hf, -⟩ := ha.2
    have hf : s.files[i]? = some f := hf
    rw [next_splice hf]
    exact ha.1
  | openFile => exact ha.1
  | release i => exact ha.1
  | receive m copies => exact ha.1

theorem Inv.lossless (h : s.Inv ops) (hc : s.Counted) (hb : s.bug = false) : s.Lossless ops :=
  ⟨fun f hf => (h f hf).streams, hc, hb, fun hops f hf => (h f hf).unread hops⟩

theorem queues (ops : BleOps) (s : BleCdev) (a : BleAct) : a.Queues ops s := by
  cases a with
  | receive m copies =>
    intro i f hf hroom hcopy
    refine rx_queues s.files copies _ i f hf ?_ hcopy
    refine Nat.lt_of_le_of_lt ?_ hroom
    unfold BleFile.skbs
    rw [List.length_append]
    exact Nat.le_add_left _ _
  | _ => trivial

theorem Inv.whole (h : s.Inv ops) (ha : a.Enabled ops s) (hP : (a.next ops s).Lossless ops) : a.Whole ops := by
  cases a with
  | read i len copied =>
    obtain ⟨hlen, f, hf, k, hk, hfail⟩ := ha.2
    have hf : s.files[i]? = some f := hf
    unfold BleAct.next at hP
    dsimp only at hP
    rw [hf] at hP
    have hmem : (f.finishRead ops len copied).1 ∈ s.files.set i (f.finishRead ops len copied).1 := by
      rw [List.mem_iff_getElem?]
      exact ⟨i, List.getElem?_set_self (List.getElem?_eq_some_iff.mp hf).1⟩
    exact (h f (List.mem_of_getElem? hf)).lose hk hlen hfail (hP.streams _ hmem) fun hops => hP.bug.2 hops _ hmem
  | _ => trivial

end BleCdev

/-- A message whose event has the length `size`. -/
def bleEvent (size : BitVec 64) : BleMsg :=
  ⟨7, 0, List.replicate maxSyncEventBufferLen 0, size, List.length_replicate⟩

end AtbmWifi
