import AtbmWifi.Queue.Shape
import Mathlib.Algebra.Order.BigOperators.Group.Finset

/-!
# The ledger of one queue

`Counted`: the counters of a queue (`num_queued`, `num_pending`), of each of its
interfaces (`num_queued_vif`, `num_pending_vif`) and links (`link_map_cache`)
count its items.  `Shares D N`: the statistics it shares exceed its own
contribution by `D` and `N`, the part of the other queues.

`Ledger` is both; here it is kept by every move but the clears.
-/

namespace AtbmWifi

open Relation

/-- The item at `k` is of interface `i`. -/
def ofVif (q : AtbmQueue) (i k : Nat) : Bool := (q.pool k).txpriv.ifId.toNat == i

/-- The item at `k` is of interface `i` and link `l`. -/
def ofLink (q : AtbmQueue) (i l k : Nat) : Bool :=
  ofVif q i k && (q.pool k).txpriv.linkId.toNat == l

def NamesPending (q : AtbmQueue) (p : ParsedId) : Prop :=
  ∃ k ∈ q.pending, ∃ b, (q.pool k).skb = some b ∧ p = atbmQueueParseId b.packetID

/-- The id names an item pending on the queue, under the item's interface. -/
def NamesOwn (q : AtbmQueue) (p : ParsedId) : Prop :=
  p.itemId ∈ q.pending ∧ p.ifId = (q.pool p.itemId).txpriv.ifId.toNat

/-- `num_queued_vif` counts the items of each interface. -/
structure VifCounted (c : Fin 4) (s : TxQ) : Prop extends Shape c s where
  numQueuedVif : ∀ i, s.q.numQueuedVif i =
    s.q.queue.countP (ofVif s.q i) + s.q.pending.countP (ofVif s.q i)

structure Counted (c : Fin 4) (s : TxQ) : Prop extends VifCounted c s where
  numQueued : s.q.numQueued = s.q.queue.length + s.q.pending.length
  numPending : s.q.numPending = s.q.pending.length
  numPendingVif : ∀ i, s.q.numPendingVif i = s.q.pending.countP (ofVif s.q i)
  linkMapCache : ∀ i l, s.q.linkMapCache i l = s.q.queue.countP (ofLink s.q i l)
  idVif : ∀ k, Busy s.q k →
    (atbmQueueParseId (s.q.pool k).packetID).ifId = (s.q.pool k).txpriv.ifId.toNat
  busySkb : ∀ k, Busy s.q k → (s.q.pool k).skb.isSome
  traps : ∀ t ∈ s.traps, t.counter = false

/-- The shared statistics are `D` and `N` plus what this queue contributes. -/
structure Shares (D : Nat → Nat → Int) (N : Nat → Int) (s : TxQ) : Prop where
  sharedLinkMap : ∀ i l, s.stats.linkMapCache i l = D i l + s.q.linkMapCache i l
  sharedQueued : ∀ i, s.stats.numQueued i = N i + s.q.queue.countP (ofVif s.q i)

variable {it : AtbmQueueItem} {k : Nat} {q q' : AtbmQueue}

theorem ofVif_update
    (hp : q'.pool = Function.update q.pool k it) (hi : it.txpriv.ifId = (q.pool k).txpriv.ifId) (i : Nat) :
    ofVif q' i = ofVif q i := by
  funext j
  unfold ofVif
  rw [hp]
  by_cases hj : j = k
  · subst hj; simp [hi]
  · simp [hj]

theorem ofLink_update (hp : q'.pool = Function.update q.pool k it) (hi : it.txpriv.ifId = (q.pool k).txpriv.ifId)
    (hl : it.txpriv.linkId = (q.pool k).txpriv.linkId) (i l : Nat) : ofLink q' i l = ofLink q i l := by
  funext j
  unfold ofLink
  rw [ofVif_update hp hi, hp]
  by_cases hj : j = k
  · subst hj; simp [hl]
  · simp [hj]

theorem ofVif_update_of_ne (hp : q'.pool = Function.update q.pool k it) (i : Nat) {j : Nat} (hj : j ≠ k) :
    ofVif q' i j = ofVif q i j := by
  unfold ofVif
  rw [hp]
  simp [hj]

theorem ofLink_update_of_ne (hp : q'.pool = Function.update q.pool k it) (i l : Nat) {j : Nat} (hj : j ≠ k) :
    ofLink q' i l j = ofLink q i l j := by
  unfold ofLink
  rw [ofVif_update_of_ne hp i hj, hp]
  simp [hj]

theorem countP_congr_mem {l : List Nat} {p p' : Nat → Bool} (h : ∀ j ∈ l, p j = p' j) :
    l.countP p = l.countP p' :=
  List.countP_congr fun j hj => by rw [h j hj]

namespace Shape

variable {c : Fin 4} {s : TxQ} (h : Shape c s)
include h

theorem length_le : s.q.queue.length + s.q.pending.length ≤ 256 := by
  have := h.slots.length_add
  unfold maxQueueSz at this
  omega

theorem countP_le (p : Nat → Bool) : s.q.queue.countP p + s.q.pending.countP p ≤ 256 := by
  have := h.length_le
  have := List.countP_le_length (p := p) (l := s.q.queue)
  have := List.countP_le_length (p := p) (l := s.q.pending)
  omega

end Shape

namespace VifCounted

variable {c : Fin 4} {s : TxQ} (h : VifCounted c s)
include h

theorem flow {s' : TxQ} (hf : FlowOnly s s') : VifCounted c s' := by
  obtain ⟨l, o, g, b, hq⟩ := hf.fields
  refine ⟨h.toShape.flow hf, ?_⟩
  rw [hq]
  exact h.numQueuedVif

theorem put (e : QEnv) (skb : SkBuff) (t : AtbmTxpriv) {k : Nat} (hk : k ∈ s.q.freePool)
    (hl : t.linkId.toNat < s.stats.mapCapacity) (hi : t.ifId.toNat < maxVifs) :
    VifCounted c (putItem e skb t k s) := by
  have hfree := h.not_busy_of_free hk
  have hne : ∀ j, Busy s.q j → j ≠ k := fun j hj hjk => hfree (hjk ▸ hj)
  have hpool : (putItem e skb t k s).q.pool = Function.update s.q.pool k _ := rfl
  have hkv : ∀ i, ofVif (putItem e skb t k s).q i k = (t.ifId.toNat == i) := by
    intro i
    simp [ofVif, putItem]
  have hq : ∀ i, (s.q.queue ++ [k]).countP (ofVif (putItem e skb t k s).q i) =
      s.q.queue.countP (ofVif s.q i) + if t.ifId.toNat = i then 1 else 0 := by
    intro i
    rw [List.countP_append, List.countP_singleton, hkv,
      countP_congr_mem fun j hj => ofVif_update_of_ne hpool i (hne j (.inl hj))]
    simp
  have hp : ∀ i, s.q.pending.countP (ofVif (putItem e skb t k s).q i) = s.q.pending.countP (ofVif s.q i) :=
    fun i => countP_congr_mem fun j hj => ofVif_update_of_ne hpool i (hne j (.inr hj))
  have hv := h.numQueuedVif t.ifId.toNat
  have hvle := h.countP_le (ofVif s.q t.ifId.toNat)
  refine ⟨h.toShape.put e skb t hk hl hi, fun i => ?_⟩
  show bump32 s.q.numQueuedVif t.ifId.toNat 1 i =
    ((s.q.queue ++ [k]).countP (ofVif (putItem e skb t k s).q i) : Int) +
      (s.q.pending.countP (ofVif (putItem e skb t k s).q i) : Int)
  rw [bump32_apply (by omega) (by omega), h.numQueuedVif i, hq, hp]
  split <;> omega

theorem get (e : QEnv) {k : Nat} (hk : k ∈ s.q.queue) : VifCounted c (getItem e k s) := by
  have hpool : (getItem e k s).q.pool = Function.update s.q.pool k _ := rfl
  have hq : (getItem e k s).q.queue = s.q.queue.erase k := rfl
  have hp : (getItem e k s).q.pending = s.q.pending ++ [k] := rfl
  refine ⟨h.toShape.get e hk, fun i => ?_⟩
  have := Slots.countP_erase_add (ofVif s.q i) hk
  show s.q.numQueuedVif i = _
  rw [h.numQueuedVif, hq, hp, ofVif_update hpool rfl i, List.countP_append, List.countP_singleton]
  omega

theorem countP_unlink {k : Nat} (hk : Busy s.q k) (i : Nat) :
    (s.q.queue.erase k).countP (ofVif s.q i) + (s.q.pending.erase k).countP (ofVif s.q i) +
      (if ofVif s.q i k = true then 1 else 0) =
    s.q.queue.countP (ofVif s.q i) + s.q.pending.countP (ofVif s.q i) := by
  rcases hk with hk | hk
  · have := Slots.countP_erase_add (ofVif s.q i) hk
    rw [List.erase_of_not_mem (h.slots.not_mem_third_of_second hk)]
    omega
  · have := Slots.countP_erase_add (ofVif s.q i) hk
    rw [List.erase_of_not_mem fun hq => h.slots.not_mem_third_of_second hq hk]
    omega

theorem free {p : ParsedId} (hc : checkId s.q p = none) (hk : Busy s.q p.itemId)
    (hi : p.ifId = (s.q.pool p.itemId).txpriv.ifId.toNat) : VifCounted c (freeItem p s) := by
  have hpool : (freeItem p s).q.pool = Function.update s.q.pool p.itemId _ := rfl
  have hself : ofVif s.q p.ifId p.itemId = true := by simp [ofVif, hi]
  have hone := h.countP_unlink hk p.ifId
  rw [if_pos hself] at hone
  have hple := h.countP_le (ofVif s.q p.ifId)
  have hnqv := h.numQueuedVif p.ifId
  refine ⟨h.toShape.free hc, fun i => ?_⟩
  show bump32 s.q.numQueuedVif p.ifId (-1) i =
    ((s.q.queue.erase p.itemId).countP (ofVif (freeItem p s).q i) : Int) +
      ((s.q.pending.erase p.itemId).countP (ofVif (freeItem p s).q i) : Int)
  rw [bump32_apply (by omega) (by omega), h.numQueuedVif, ofVif_update hpool rfl i]
  have := h.countP_unlink hk i
  simp only [ofVif, ← hi, beq_iff_eq] at this ⊢
  split at this <;> simp_all
  · omega
  · omega

theorem mark (k : Nat) : VifCounted c (markGeneric k s) := by
  have hpool : (markGeneric k s).q.pool = Function.update s.q.pool k _ := rfl
  refine ⟨h.toShape.mark k, fun i => ?_⟩
  rw [ofVif_update hpool rfl i]
  exact h.numQueuedVif i

theorem requeue {p : ParsedId} (hc : checkId s.q p = none) (hqid : p.queueId = s.q.queueId)
    (hi16 : p.ifId < 16) (hk : Busy s.q p.itemId) : VifCounted c (requeueItem p s) := by
  have hpool : (requeueItem p s).q.pool = Function.update s.q.pool p.itemId _ := rfl
  have hq : (requeueItem p s).q.queue = p.itemId :: s.q.queue.erase p.itemId := rfl
  have hp : (requeueItem p s).q.pending = s.q.pending.erase p.itemId := rfl
  refine ⟨h.toShape.requeue hc hqid hi16, fun i => ?_⟩
  have := h.countP_unlink hk i
  show s.q.numQueuedVif i = _
  rw [h.numQueuedVif, hq, hp, ofVif_update hpool rfl i, List.countP_cons]
  omega

theorem expire {k : Nat} (hk : k ∈ s.q.queue) : VifCounted c (gcItem k s) := by
  have hpool : (gcItem k s).q.pool = Function.update s.q.pool k _ := rfl
  have hself : ofVif s.q (s.q.pool k).txpriv.ifId.toNat k = true := by simp [ofVif]
  have hone := Slots.countP_erase_add (ofVif s.q (s.q.pool k).txpriv.ifId.toNat) hk
  rw [if_pos hself] at hone
  have hple := h.countP_le (ofVif s.q (s.q.pool k).txpriv.ifId.toNat)
  have hnqv := h.numQueuedVif (s.q.pool k).txpriv.ifId.toNat
  refine ⟨h.toShape.expire hk, fun i => ?_⟩
  show bump32 s.q.numQueuedVif (s.q.pool k).txpriv.ifId.toNat (-1) i =
    ((s.q.queue.erase k).countP (ofVif (gcItem k s).q i) : Int) +
      (s.q.pending.countP (ofVif (gcItem k s).q i) : Int)
  rw [bump32_apply (by omega) (by omega), h.numQueuedVif, ofVif_update hpool rfl i]
  have := Slots.countP_erase_add (ofVif s.q i) hk
  simp only [ofVif, beq_iff_eq] at this ⊢
  split at this <;> simp_all
  omega

end VifCounted

namespace Counted

variable {c : Fin 4} {s : TxQ} {D : Nat → Nat → Int} {N : Nat → Int} (h : Counted c s)
include h

theorem namesPending {p : ParsedId} (hp : NamesPending s.q p) : NamesOwn s.q p := by
  obtain ⟨k, hk, b, hb, rfl⟩ := hp
  have hid := h.id k (.inr hk)
  unfold NamesOwn
  rw [h.frame k hk b hb, hid.itemId]
  exact ⟨hk, h.idVif k (.inr hk)⟩

theorem items_update {q' : AtbmQueue} {k : Nat} {it : AtbmQueueItem} (hpool : q'.pool = Function.update s.q.pool k it)
    (hbusy : ∀ j, Busy q' j → j ≠ k → Busy s.q j)
    (hk : Busy q' k → (atbmQueueParseId it.packetID).ifId = it.txpriv.ifId.toNat ∧ it.skb.isSome) (j : Nat)
    (hj : Busy q' j) :
    (atbmQueueParseId (q'.pool j).packetID).ifId = (q'.pool j).txpriv.ifId.toNat ∧ (q'.pool j).skb.isSome := by
  rw [hpool]
  by_cases hjk : j = k
  · subst hjk
    rw [Function.update_self]
    exact hk hj
  · rw [Function.update_of_ne hjk]
    exact ⟨h.idVif j (hbusy j hj hjk), h.busySkb j (hbusy j hj hjk)⟩

theorem pendingVif_erase {k i0 : Nat} (hk : k ∈ s.q.pending) (hi : i0 = (s.q.pool k).txpriv.ifId.toNat) (i : Nat) :
    bump32 s.q.numPendingVif i0 (-1) i = ((s.q.pending.erase k).countP (ofVif s.q i) : Int) := by
  have hself : ofVif s.q i0 k = true := by simp [ofVif, hi]
  have hone := Slots.countP_erase_add (ofVif s.q i0) hk
  rw [if_pos hself] at hone
  have hple := h.countP_le (ofVif s.q i0)
  have hnpv := h.numPendingVif i0
  rw [bump32_apply (by omega) (by omega), h.numPendingVif]
  have := Slots.countP_erase_add (ofVif s.q i) hk
  simp only [ofVif, ← hi, beq_iff_eq] at this ⊢
  split at this <;> simp_all
  omega

theorem linkMap_erase {k : Nat} (hk : k ∈ s.q.queue) (i l : Nat) :
    bump2 s.q.linkMapCache (s.q.pool k).txpriv.ifId.toNat (s.q.pool k).txpriv.linkId.toNat (-1) i l =
      ((s.q.queue.erase k).countP (ofLink s.q i l) : Int) := by
  rw [bump2_apply, h.linkMapCache]
  have := Slots.countP_erase_add (ofLink s.q i l) hk
  simp only [ofLink, ofVif, Bool.and_eq_true, beq_iff_eq] at this ⊢
  split at this <;> simp_all
  omega

end Counted

namespace Shares

variable {s : TxQ} {D : Nat → Nat → Int} {N : Nat → Int} (h : Shares D N s)
include h

theorem linkMap_bump (a b : Nat) (d : Int) (i l : Nat) :
    bump2 s.stats.linkMapCache a b d i l = D i l + bump2 s.q.linkMapCache a b d i l := by
  rw [bump2_apply, bump2_apply, h.sharedLinkMap]
  omega

theorem queued_erase {k : Nat} (hk : k ∈ s.q.queue) (i : Nat) :
    bump s.stats.numQueued (s.q.pool k).txpriv.ifId.toNat (-1) i =
      N i + ((s.q.queue.erase k).countP (ofVif s.q i) : Int) := by
  rw [bump_apply, h.sharedQueued]
  have := Slots.countP_erase_add (ofVif s.q i) hk
  simp only [ofVif, beq_iff_eq] at this ⊢
  split at this <;> simp_all
  omega

end Shares

/-- `Counted` and what the shared statistics hold of the other queues. -/
structure Ledger (D : Nat → Nat → Int) (N : Nat → Int) (c : Fin 4) (s : TxQ) : Prop extends
  Counted c s, Shares D N s

namespace Ledger

variable {c : Fin 4} {s : TxQ} {D : Nat → Nat → Int} {N : Nat → Int} (h : Ledger D N c s)
include h

theorem flow {s' : TxQ} (hf : FlowOnly s s') : Ledger D N c s' := by
  have hS := h.toVifCounted.flow hf
  obtain ⟨l, o, g, b, hq⟩ := hf.fields
  refine ⟨⟨hS, ?_, ?_, ?_, ?_, ?_, ?_, ?traps⟩, ⟨?_, ?_⟩⟩
  case traps =>
    intro t ht'
    cases hc : t.counter
    · rfl
    · rw [h.traps t (hf.traps t ht' hc)] at hc
      cases hc
  all_goals simp only [hq, hf.stats]
  exacts [h.numQueued, h.numPending, h.numPendingVif, h.linkMapCache, h.idVif,
    h.busySkb, h.sharedLinkMap, h.sharedQueued]

theorem put (e : QEnv) (skb : SkBuff) (t : AtbmTxpriv) {k : Nat} (hk : k ∈ s.q.freePool)
    (hl : t.linkId.toNat < s.stats.mapCapacity) (hi : t.ifId.toNat < maxVifs) :
    Ledger D N c (putItem e skb t k s) := by
  have hS := h.toVifCounted.put e skb t hk hl hi
  have hfree := h.not_busy_of_free hk
  have hne : ∀ j, Busy s.q j → j ≠ k := fun j hj hjk => hfree (hjk ▸ hj)
  have hpool : (putItem e skb t k s).q.pool = Function.update s.q.pool k _ := rfl
  have hqueue : (putItem e skb t k s).q.queue = s.q.queue ++ [k] := rfl
  have hkv : ∀ i, ofVif (putItem e skb t k s).q i k = (t.ifId.toNat == i) := by
    intro i
    simp [ofVif, putItem]
  have hkl : ∀ i l, ofLink (putItem e skb t k s).q i l k = (t.ifId.toNat == i && t.linkId.toNat == l) := by
    intro i l
    rw [ofLink, hkv]
    simp [putItem]
  have hq : ∀ i, (s.q.queue ++ [k]).countP (ofVif (putItem e skb t k s).q i) =
      s.q.queue.countP (ofVif s.q i) + if t.ifId.toNat = i then 1 else 0 := by
    intro i
    rw [List.countP_append, List.countP_singleton, hkv,
      countP_congr_mem fun j hj => ofVif_update_of_ne hpool i (hne j (.inl hj))]
    simp
  have hp : ∀ i, s.q.pending.countP (ofVif (putItem e skb t k s).q i) = s.q.pending.countP (ofVif s.q i) :=
    fun i => countP_congr_mem fun j hj => ofVif_update_of_ne hpool i (hne j (.inr hj))
  have hL : ∀ i l, (s.q.queue ++ [k]).countP (ofLink (putItem e skb t k s).q i l) =
      s.q.queue.countP (ofLink s.q i l) + if t.ifId.toNat = i ∧ t.linkId.toNat = l then 1 else 0 := by
    intro i l
    rw [List.countP_append, List.countP_singleton, hkl,
      countP_congr_mem fun j hj => ofLink_update_of_ne hpool i l (hne j (.inl hj))]
    simp
  have hklt : k < 2 ^ 8 := h.slots.lt_of_mem (.inl hk)
  have hqid : s.q.queueId < 2 ^ 4 := by have := c.isLt; rw [h.queueId]; omega
  have hlen := h.length_le
  have hitems := h.items_update hpool
    (fun j hj hjk => hj.imp_left fun hj => by simpa [hqueue, hjk] using hj)
    fun _ => ⟨(parse_make s.q.generation s.q.queueId 0 k t.ifId.toNat t.rawLinkId.toNat (by omega) hklt hqid
      (by unfold maxVifs at hi; omega)).2.2.2, rfl⟩
  refine ⟨⟨hS, ?numQueued, ?numPending, ?numPendingVif, ?linkMapCache, ?idVif, ?busySkb, ?traps⟩, ⟨?sharedLinkMap, ?sharedQueued⟩⟩
  case numQueued =>
    show u32 (s.q.numQueued + 1) = ((s.q.queue ++ [k]).length : Int) + s.q.pending.length
    rw [h.numQueued, u32_of_lt (by omega) (by omega), List.length_append, List.length_singleton]
    omega
  case numPending => exact h.numPending
  case numPendingVif =>
    intro i
    exact (h.numPendingVif i).trans (by exact_mod_cast (hp i).symm)
  case linkMapCache =>
    intro i l
    show bump2 s.q.linkMapCache t.ifId.toNat t.linkId.toNat 1 i l = _
    rw [bump2_apply, h.linkMapCache i l, hqueue, hL]
    split <;> omega
  case idVif => exact fun j hj => (hitems j hj).1
  case busySkb => exact fun j hj => (hitems j hj).2
  case traps => exact h.traps
  case sharedLinkMap =>
    intro i l
    exact h.linkMap_bump _ _ 1 i l
  case sharedQueued =>
    intro i
    show bump s.stats.numQueued t.ifId.toNat 1 i = _
    rw [bump_apply, h.sharedQueued, hqueue, hq]
    split <;> omega

theorem get (e : QEnv) {k : Nat} (hk : k ∈ s.q.queue) : Ledger D N c (getItem e k s) := by
  have hS := h.toVifCounted.get e hk
  have hpool : (getItem e k s).q.pool = Function.update s.q.pool k _ := rfl
  have hq : (getItem e k s).q.queue = s.q.queue.erase k := rfl
  have hp : (getItem e k s).q.pending = s.q.pending ++ [k] := rfl
  have hV : ∀ i, ofVif (getItem e k s).q i = ofVif s.q i := fun i => ofVif_update hpool rfl i
  have hL : ∀ i l, ofLink (getItem e k s).q i l = ofLink s.q i l := fun i l => ofLink_update hpool rfl rfl i l
  have hitems := h.items_update hpool
    (fun j hj hjk => hj.imp List.mem_of_mem_erase fun hj => by simpa [hp, hjk] using hj) fun _ => by
      refine ⟨Eq.trans ?_ (h.idVif k (.inl hk)), by simpa using h.busySkb k (.inl hk)⟩
      show (atbmQueueParseId (issuedId s.q k)).ifId = _
      unfold issuedId
      split
      · rfl
      · rw [parse_setGeneration]
  have hlen := h.length_le
  have hlk := List.length_erase_of_mem hk
  have hpos := List.length_pos_of_mem hk
  have hple := h.countP_le (ofVif s.q (s.q.pool k).txpriv.ifId.toNat)
  have hnp := h.numPending
  have hnv := h.numPendingVif (s.q.pool k).txpriv.ifId.toNat
  refine ⟨⟨hS, ?numQueued, ?numPending, ?numPendingVif, ?linkMapCache, ?idVif, ?busySkb, ?traps⟩, ⟨?sharedLinkMap, ?sharedQueued⟩⟩
  case numQueued =>
    have : (getItem e k s).q.numQueued = s.q.numQueued := by simp [getItem]
    rw [this, h.numQueued, hq, hp, List.length_append, List.length_singleton, hlk]
    omega
  case numPending =>
    have : (getItem e k s).q.numPending = u32 (s.q.numPending + 1) := by simp [getItem]
    rw [this, u32_of_lt (by omega) (by omega), h.numPending, hp, List.length_append]
    simp
  case numPendingVif =>
    intro i
    have : (getItem e k s).q.numPendingVif = bump32 s.q.numPendingVif (s.q.pool k).txpriv.ifId.toNat 1 := by
      simp [getItem]
    rw [this, bump32_apply (by omega) (by omega), h.numPendingVif, hp, hV, List.countP_append,
      List.countP_singleton]
    simp [ofVif]
  case linkMapCache =>
    intro i l
    have : (getItem e k s).q.linkMapCache = bump2 s.q.linkMapCache (s.q.pool k).txpriv.ifId.toNat
      (s.q.pool k).txpriv.linkId.toNat (-1) := by simp [getItem]
    rw [this, h.linkMap_erase hk, hq, hL]
  case idVif => exact fun j hj => (hitems j hj).1
  case busySkb => exact fun j hj => (hitems j hj).2
  case traps => exact h.traps
  case sharedLinkMap =>
    intro i l
    exact h.linkMap_bump _ _ (-1) i l
  case sharedQueued =>
    intro i
    show bump s.stats.numQueued (s.q.pool k).txpriv.ifId.toNat (-1) i = _
    rw [h.queued_erase hk, hq, hV]

theorem free {p : ParsedId} (hc : checkId s.q p = none) (hp : NamesOwn s.q p) :
    Ledger D N c (freeItem p s) := by
  obtain ⟨hk, hi⟩ := hp
  have hS := h.toVifCounted.free hc (.inr hk) hi
  have hkq : p.itemId ∉ s.q.queue := fun hq => h.slots.not_mem_third_of_second hq hk
  have hpool : (freeItem p s).q.pool = Function.update s.q.pool p.itemId _ := rfl
  have hq : (freeItem p s).q.queue = s.q.queue := List.erase_of_not_mem hkq
  have hp : (freeItem p s).q.pending = s.q.pending.erase p.itemId := rfl
  have hV : ∀ i, ofVif (freeItem p s).q i = ofVif s.q i := fun i => ofVif_update hpool rfl i
  have hL : ∀ i l, ofLink (freeItem p s).q i l = ofLink s.q i l := fun i l => ofLink_update hpool rfl rfl i l
  have hitems := h.items_update hpool
    (fun j hj _ => hj.imp (fun hj => by rwa [hq] at hj) List.mem_of_mem_erase) fun hb => by
      rcases hb with hb | hb
      · exact absurd (hq ▸ hb) hkq
      · exact absurd hb h.slots.nodup_third.not_mem_erase
  have hlen := h.length_le
  have hlk := List.length_erase_of_mem hk
  have hpos := List.length_pos_of_mem hk
  have hnq := h.numQueued
  have hnp := h.numPending
  refine ⟨⟨hS, ?numQueued, ?numPending, ?numPendingVif, ?linkMapCache, ?idVif, ?busySkb, ?traps⟩, ⟨?sharedLinkMap, ?sharedQueued⟩⟩
  case numQueued =>
    show u32 (s.q.numQueued - 1) = _
    rw [u32_of_lt (by omega) (by omega), hnq, hq, hp, hlk]
    omega
  case numPending =>
    show u32 (s.q.numPending - 1) = _
    rw [u32_of_lt (by omega) (by omega), hnp, hp, hlk]
    omega
  case numPendingVif =>
    intro i
    show bump32 s.q.numPendingVif p.ifId (-1) i = _
    rw [h.pendingVif_erase hk hi, hp, hV]
  case linkMapCache =>
    intro i l
    rw [hq, hL]
    exact h.linkMapCache i l
  case idVif => exact fun j hj => (hitems j hj).1
  case busySkb => exact fun j hj => (hitems j hj).2
  case traps => exact h.traps
  case sharedLinkMap => exact h.sharedLinkMap
  case sharedQueued =>
    intro i
    rw [hq, hV]
    exact h.sharedQueued i

theorem mark (k : Nat) : Ledger D N c (markGeneric k s) := by
  have hS := h.toVifCounted.mark k
  have hpool : (markGeneric k s).q.pool = Function.update s.q.pool k _ := rfl
  have hV : ∀ i, ofVif (markGeneric k s).q i = ofVif s.q i := fun i => ofVif_update hpool rfl i
  have hL : ∀ i l, ofLink (markGeneric k s).q i l = ofLink s.q i l := fun i l =>
    ofLink_update hpool rfl rfl i l
  have hitems := h.items_update hpool (fun j hj _ => hj) fun hk => ⟨h.idVif k hk, h.busySkb k hk⟩
  refine ⟨⟨hS, h.numQueued, h.numPending, ?numPendingVif, ?linkMapCache, ?idVif, ?busySkb, h.traps⟩, ⟨h.sharedLinkMap, ?sharedQueued⟩⟩
  case numPendingVif =>
    intro i
    rw [hV]
    exact h.numPendingVif i
  case linkMapCache =>
    intro i l
    rw [hL]
    exact h.linkMapCache i l
  case idVif => exact fun j hj => (hitems j hj).1
  case busySkb => exact fun j hj => (hitems j hj).2
  case sharedQueued =>
    intro i
    rw [hV]
    exact h.sharedQueued i

theorem requeue {p : ParsedId} (hc : checkId s.q p = none) (hqid : p.queueId = s.q.queueId)
    (hi16 : p.ifId < 16) (hk : p.itemId ∈ s.q.pending)
    (hi : p.ifId = (s.q.pool p.itemId).txpriv.ifId.toNat) : Ledger D N c (requeueItem p s) := by
  have hS := h.toVifCounted.requeue hc hqid hi16 (.inr hk)
  have hkq : p.itemId ∉ s.q.queue := fun hq => h.slots.not_mem_third_of_second hq hk
  have hpool : (requeueItem p s).q.pool = Function.update s.q.pool p.itemId _ := rfl
  have hq : (requeueItem p s).q.queue = p.itemId :: s.q.queue := by
    show p.itemId :: s.q.queue.erase p.itemId = _
    rw [List.erase_of_not_mem hkq]
  have hp : (requeueItem p s).q.pending = s.q.pending.erase p.itemId := rfl
  have hV : ∀ i, ofVif (requeueItem p s).q i = ofVif s.q i := fun i => ofVif_update hpool rfl i
  have hL : ∀ i l, ofLink (requeueItem p s).q i l = ofLink s.q i l := fun i l =>
    ofLink_update hpool rfl rfl i l
  have hlt := h.itemId_lt hc
  have hitems := h.items_update hpool
    (fun j hj hjk => hj.imp (fun hj => by simpa [hq, hjk] using hj) List.mem_of_mem_erase) fun _ =>
      ⟨(parse_make p.queueGeneration p.queueId (UInt8.ofNat (p.itemGeneration + 1)).toNat p.itemId p.ifId p.linkId
        (UInt8.toNat_lt _) hlt (by have := c.isLt; rw [hqid, h.queueId]; omega) hi16).2.2.2.trans hi,
        h.busySkb p.itemId (.inr hk)⟩
  have hlen := h.length_le
  have hlk := List.length_erase_of_mem hk
  have hpos := List.length_pos_of_mem hk
  have hnp := h.numPending
  refine ⟨⟨hS, ?numQueued, ?numPending, ?numPendingVif, ?linkMapCache, ?idVif, ?busySkb, ?traps⟩, ⟨?sharedLinkMap, ?sharedQueued⟩⟩
  case numQueued =>
    show s.q.numQueued = _
    rw [h.numQueued, hq, hp, hlk, List.length_cons]
    omega
  case numPending =>
    show u32 (s.q.numPending - 1) = _
    rw [u32_of_lt (by omega) (by omega), hnp, hp, hlk]
    omega
  case numPendingVif =>
    intro i
    show bump32 s.q.numPendingVif p.ifId (-1) i = _
    rw [h.pendingVif_erase hk hi, hp, hV]
  case linkMapCache =>
    intro i l
    show bump2 s.q.linkMapCache p.ifId (s.q.pool p.itemId).txpriv.linkId.toNat 1 i l = _
    rw [bump2_apply, h.linkMapCache, hq, hL, List.countP_cons]
    simp [ofLink, ofVif, ← hi]
  case idVif => exact fun j hj => (hitems j hj).1
  case busySkb => exact fun j hj => (hitems j hj).2
  case traps => exact h.traps
  case sharedLinkMap =>
    intro i l
    exact h.linkMap_bump _ _ 1 i l
  case sharedQueued =>
    intro i
    show bump s.stats.numQueued (s.q.pool p.itemId).txpriv.ifId.toNat 1 i = _
    rw [bump_apply, h.sharedQueued, hq, hV, List.countP_cons]
    simp [ofVif]
    omega

theorem expire {k : Nat} (hk : k ∈ s.q.queue) : Ledger D N c (gcItem k s) := by
  have hS := h.toVifCounted.expire hk
  have hpool : (gcItem k s).q.pool = Function.update s.q.pool k _ := rfl
  have hq : (gcItem k s).q.queue = s.q.queue.erase k := rfl
  have hV : ∀ i, ofVif (gcItem k s).q i = ofVif s.q i := fun i => ofVif_update hpool rfl i
  have hL : ∀ i l, ofLink (gcItem k s).q i l = ofLink s.q i l := fun i l => ofLink_update hpool rfl rfl i l
  have hitems := h.items_update hpool (fun j hj _ => hj.imp_left List.mem_of_mem_erase) fun hb => by
    rcases hb with hb | hb
    · exact absurd hb h.slots.nodup_second.not_mem_erase
    · exact absurd hb (h.slots.not_mem_third_of_second hk)
  have hlen := h.length_le
  have hlk := List.length_erase_of_mem hk
  have hpos := List.length_pos_of_mem hk
  have hnq := h.numQueued
  refine ⟨⟨hS, ?numQueued, h.numPending, ?numPendingVif, ?linkMapCache, ?idVif, ?busySkb, ?traps⟩, ⟨?sharedLinkMap, ?sharedQueued⟩⟩
  case numQueued =>
    show u32 (s.q.numQueued - 1) = _
    rw [u32_of_lt (by omega) (by omega), hnq, hq, hlk]
    show _ = _ + (s.q.pending.length : Int)
    omega
  case numPendingVif =>
    intro i
    rw [hV]
    exact h.numPendingVif i
  case linkMapCache =>
    intro i l
    show bump2 s.q.linkMapCache (s.q.pool k).txpriv.ifId.toNat (s.q.pool k).txpriv.linkId.toNat (-1) i l = _
    rw [h.linkMap_erase hk, hq, hL]
  case idVif => exact fun j hj => (hitems j hj).1
  case busySkb => exact fun j hj => (hitems j hj).2
  case traps => exact h.traps
  case sharedLinkMap =>
    intro i l
    exact h.linkMap_bump _ _ (-1) i l
  case sharedQueued =>
    intro i
    show bump s.stats.numQueued (s.q.pool k).txpriv.ifId.toNat (-1) i = _
    rw [h.queued_erase hk, hq, hV]

end Ledger

end AtbmWifi
