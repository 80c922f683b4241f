import AtbmWifi.Queue.Ledger

/-!
# What a clear leaves

`atbm_queue_clear` filters the two busy lists and rebuilds the counters: the
totals by subtraction, the per-interface ones by zeroing, the shared ones by
taking out the link map.  `ClearedBy V` says what is left when the interfaces
in `V` are cleared; one interface (`clearedBy_vif`) and all of them
(`clearedBy_all`) are instances, and the ledger survives both
(`ClearedBy.ledger`).
-/

namespace AtbmWifi

/-- What `atbm_queue_clear` leaves of the items, `V` the interfaces it clears. -/
structure ClearedBy (V : Nat → Bool) (s s' : TxQ) : Prop where
  queue : s'.q.queue = s.q.queue.filter fun k => !V (s.q.pool k).txpriv.ifId.toNat
  pending : s'.q.pending = s.q.pending.filter fun k => !V (s.q.pool k).txpriv.ifId.toNat
  txpriv : ∀ k, (s'.q.pool k).txpriv = (s.q.pool k).txpriv
  kept : ∀ k, Busy s'.q k → s'.q.pool k = s.q.pool k
  numQueued : s'.q.numQueued = u32 (s.q.numQueued -
    ((s.q.pending.countP fun k => V (s.q.pool k).txpriv.ifId.toNat) +
      (s.q.queue.countP fun k => V (s.q.pool k).txpriv.ifId.toNat) : Nat))
  numPending : s'.q.numPending = u32 (s.q.numPending -
    (s.q.pending.countP fun k => V (s.q.pool k).txpriv.ifId.toNat : Nat))
  numQueuedVif : ∀ i, s'.q.numQueuedVif i = if V i then 0 else s.q.numQueuedVif i
  numPendingVif : ∀ i, s'.q.numPendingVif i = if V i then 0 else s.q.numPendingVif i
  linkMapCache : ∀ i l, s'.q.linkMapCache i l =
    if V i ∧ l < s.stats.mapCapacity then 0 else s.q.linkMapCache i l
  sharedLinkMap : ∀ i l, s'.stats.linkMapCache i l - s'.q.linkMapCache i l =
    s.stats.linkMapCache i l - s.q.linkMapCache i l
  sharedQueued : ∀ i, s'.stats.numQueued i = s.stats.numQueued i -
    if V i then ((List.range s.stats.mapCapacity).map (s.q.linkMapCache i)).sum else 0
  traps : ∀ t ∈ s'.traps, t.counter = true → t ∈ s.traps ∨
    s.q.numPending < (s.q.pending.countP fun k => V (s.q.pool k).txpriv.ifId.toNat) ∨
    s.q.numQueued < (s.q.pending.countP fun k => V (s.q.pool k).txpriv.ifId.toNat) +
      (s.q.queue.countP fun k => V (s.q.pool k).txpriv.ifId.toNat)

theorem clearLists_kept (ifId : Int) (s : TxQ) (k : Nat) (hk : Busy (clearLists ifId s).q k) :
    (clearLists ifId s).q.pool k = s.q.pool k := by
  have hn : cleared s.q ifId k = false := by
    rcases hk with hk | hk <;> simpa using (List.mem_filter.mp hk).2
  show (if k ∈ _ then _ else _) = _
  rw [if_neg]
  intro hm
  rcases List.mem_append.mp hm with hm | hm
  · rw [(List.mem_filter.mp hm).2] at hn
    cases hn
  · rw [(List.mem_filter.mp hm).2] at hn
    cases hn

theorem clearLists_txpriv (ifId : Int) (s : TxQ) (k : Nat) :
    ((clearLists ifId s).q.pool k).txpriv = (s.q.pool k).txpriv := by
  show (if k ∈ _ then _ else _ : AtbmQueueItem).txpriv = _
  split <;> rfl

theorem clearLists_traps (ifId : Int) (s : TxQ) : ∀ t ∈ (clearLists ifId s).traps, t.counter = true →
    t ∈ s.traps ∨ s.q.numPending < (s.q.pending.countP (cleared s.q ifId) : Nat) ∨
    s.q.numQueued < (s.q.pending.countP (cleared s.q ifId) : Nat) + (s.q.queue.countP (cleared s.q ifId) : Nat) := by
  intro t ht _
  unfold clearLists at ht
  simp only [mem_trapIf_traps, decide_eq_true_eq, ← List.countP_eq_length_filter] at ht
  rcases ht with ⟨hlt, -⟩ | ⟨hlt, -⟩ | ht
  · exact .inr (.inr (by omega))
  · exact .inr (.inl (by omega))
  · exact .inl ht

theorem cleared_vif (q : AtbmQueue) (i k : Nat) :
    cleared q i k = ((q.pool k).txpriv.ifId.toNat == i) := by
  have h1 : ((i : Int) == allIfs) = false := by
    simp [allIfs]
  rw [cleared, h1, Bool.false_or, Bool.eq_iff_iff, beq_iff_eq, beq_iff_eq]
  omega

section
variable {V : Nat → Bool} {ifId : Int} {s s' : TxQ}

theorem clearedBy_of (hV : ∀ k, cleared s.q ifId k = V (s.q.pool k).txpriv.ifId.toNat)
    (hs : s'.q = { (clearLists ifId s).q with
      numQueuedVif := s'.q.numQueuedVif, numPendingVif := s'.q.numPendingVif
      linkMapCache := s'.q.linkMapCache })
    (ht : s'.traps = (clearLists ifId s).traps)
    (hqv : ∀ i, s'.q.numQueuedVif i = if V i then 0 else s.q.numQueuedVif i)
    (hpv : ∀ i, s'.q.numPendingVif i = if V i then 0 else s.q.numPendingVif i)
    (hl : ∀ i l, s'.q.linkMapCache i l =
      if V i ∧ l < s.stats.mapCapacity then 0 else s.q.linkMapCache i l)
    (hsl : ∀ i l, s'.stats.linkMapCache i l - s'.q.linkMapCache i l =
      s.stats.linkMapCache i l - s.q.linkMapCache i l)
    (hsq : ∀ i, s'.stats.numQueued i = s.stats.numQueued i -
      if V i then ((List.range s.stats.mapCapacity).map (s.q.linkMapCache i)).sum else 0) :
    ClearedBy V s s' := by
  have hc : cleared s.q ifId = fun k => V (s.q.pool k).txpriv.ifId.toNat := funext hV
  have hpool : s'.q.pool = (clearLists ifId s).q.pool := by rw [hs]
  have hqueue : s'.q.queue = (clearLists ifId s).q.queue := by rw [hs]
  have hpending : s'.q.pending = (clearLists ifId s).q.pending := by rw [hs]
  refine ⟨?_, ?_, ?_, ?_, ?_, ?_, hqv, hpv, hl, hsl, hsq, ?_⟩
  · rw [hqueue]
    show s.q.queue.filter (fun k => !cleared s.q ifId k) = _
    rw [hc]
  · rw [hpending]
    show s.q.pending.filter (fun k => !cleared s.q ifId k) = _
    rw [hc]
  · intro k
    rw [hpool, clearLists_txpriv]
  · intro k hk
    rw [hpool]
    exact clearLists_kept ifId s k (by rwa [Busy, hqueue, hpending] at hk)
  · rw [hs, ← hc, List.countP_eq_length_filter, List.countP_eq_length_filter]
    rfl
  · rw [hs, ← hc, List.countP_eq_length_filter]
    rfl
  · intro t htt hct
    rw [ht] at htt
    have := clearLists_traps ifId s t htt hct
    rwa [hc] at this

theorem clearedBy_vif (s : TxQ) (i : Nat) : ClearedBy (· == i) s (clearVif i (clearLists i s)) := by
  have hL : (clearLists i s).q.linkMapCache = s.q.linkMapCache := rfl
  have hst : (clearLists i s).stats = s.stats := by simp [clearLists]
  refine clearedBy_of (cleared_vif s.q i) rfl rfl ?_ ?_ ?_ ?_ ?_
  · intro j
    by_cases hj : j = i
    · simp [clearVif, hj]
    · simp [clearVif, hj]
      rfl
  · intro j
    by_cases hj : j = i
    · simp [clearVif, hj]
    · simp [clearVif, hj]
      rfl
  · intro j l
    by_cases hj : j = i
    · simp [clearVif, hj, hst, hL]
    · simp [clearVif, hj, hL]
  · intro j l
    by_cases hj : j = i
    · subst hj
      simp only [clearVif, hst, hL, Function.update_self]
      split <;> omega
    · simp [clearVif, hj, hst, hL]
  · intro j
    by_cases hj : j = i
    · simp [clearVif, hj, hst, hL]
    · simp [clearVif, hj, hst]

theorem clearedBy_all (s : TxQ) (hv : ∀ k, (s.q.pool k).txpriv.ifId.toNat < maxVifs) :
    ClearedBy (fun i => decide (i < maxVifs)) s (clearVif 1 (clearVif 0 (clearLists allIfs s))) := by
  have hL : (clearLists allIfs s).q.linkMapCache = s.q.linkMapCache := rfl
  have hst : (clearLists allIfs s).stats = s.stats := by simp [clearLists]
  have h01 : ∀ j, j ≠ 0 → j ≠ 1 → ¬ j < 2 := by omega
  refine clearedBy_of (fun k => by simp [cleared, hv k]) rfl rfl ?_ ?_ ?_ ?_ ?_
  · intro j
    by_cases h0 : j = 0
    · simp [clearVif, h0, maxVifs]
    by_cases h1 : j = 1
    · simp [clearVif, h1, maxVifs]
    · simp [clearVif, h0, h1, maxVifs, h01 j h0 h1]
      rfl
  · intro j
    by_cases h0 : j = 0
    · simp [clearVif, h0, maxVifs]
    by_cases h1 : j = 1
    · simp [clearVif, h1, maxVifs]
    · simp [clearVif, h0, h1, maxVifs, h01 j h0 h1]
      rfl
  · intro j l
    by_cases h0 : j = 0
    · simp [clearVif, h0, hst, hL, maxVifs]
    by_cases h1 : j = 1
    · simp [clearVif, h1, hst, hL, maxVifs]
    · simp [clearVif, h0, h1, hL, maxVifs, h01 j h0 h1]
  · intro j l
    by_cases h0 : j = 0
    · simp only [clearVif, h0, hst, hL, Function.update_self, ne_eq, zero_ne_one, not_false_eq_true,
        Function.update_of_ne]
      split <;> omega
    by_cases h1 : j = 1
    · simp only [clearVif, h1, hst, hL, Function.update_self, ne_eq, one_ne_zero, not_false_eq_true,
        Function.update_of_ne]
      split <;> omega
    · simp [clearVif, h0, h1, hst, hL]
  · intro j
    by_cases h0 : j = 0
    · simp [clearVif, h0, hst, hL, maxVifs]
    by_cases h1 : j = 1
    · simp [clearVif, h1, hst, hL, maxVifs]
    · simp [clearVif, h0, h1, hst, maxVifs, h01 j h0 h1]

end

theorem countP_filter_vif (q : AtbmQueue) (V : Nat → Bool) (i : Nat) (p : Nat → Bool) (hp : ∀ k, p k = true → ofVif q i k = true)
    (l : List Nat) : (l.filter fun k => !V (q.pool k).txpriv.ifId.toNat).countP p =
      if V i then 0 else l.countP p := by
  rw [List.countP_filter]
  have hi : ∀ k, p k = true → (q.pool k).txpriv.ifId.toNat = i := fun k hk => by
    simpa [ofVif] using hp k hk
  split
  · rename_i hV
    rw [List.countP_eq_zero]
    intro k _
    simp only [Bool.and_eq_true, Bool.not_eq_true', not_and, Bool.not_eq_false]
    intro hk
    rw [hi k hk, hV]
  · rename_i hV
    refine List.countP_congr fun k _ => ?_
    simp only [Bool.and_eq_true, Bool.not_eq_true']
    exact ⟨And.left, fun hk => ⟨hk, by rw [hi k hk]; simpa using hV⟩⟩

theorem length_filter_vif (q : AtbmQueue) (V : Nat → Bool) (l : List Nat) :
    (l.filter fun k => !V (q.pool k).txpriv.ifId.toNat).length =
      l.length - l.countP fun k => V (q.pool k).txpriv.ifId.toNat := by
  have := List.length_eq_countP_add_countP (fun k => V (q.pool k).txpriv.ifId.toNat) (l := l)
  rw [← List.countP_eq_length_filter]
  simp only [Bool.not_eq_true, Bool.decide_eq_false] at this
  omega

namespace ClearedBy

variable {V : Nat → Bool} {c : Fin 4} {s s' : TxQ} {D : Nat → Nat → Int} {N : Nat → Int}
  (hc : ClearedBy V s s')
include hc

theorem ofVif_eq (i : Nat) : ofVif s'.q i = ofVif s.q i := by
  funext k
  rw [ofVif, ofVif, hc.txpriv]

theorem ofLink_eq (i l : Nat) : ofLink s'.q i l = ofLink s.q i l := by
  funext k
  rw [ofLink, ofLink, hc.ofVif_eq, hc.txpriv]

theorem busy {k : Nat} (hk : Busy s'.q k) : Busy s.q k := by
  unfold Busy at hk
  rw [hc.queue, hc.pending] at hk
  exact hk.imp List.mem_of_mem_filter List.mem_of_mem_filter

theorem vifCounted (h : VifCounted c s) (hS : Shape c s') : VifCounted c s' := by
  refine ⟨hS, fun i => ?_⟩
  rw [hc.numQueuedVif, hc.queue, hc.pending, hc.ofVif_eq, countP_filter_vif s.q V i _ fun _ h => h,
    countP_filter_vif s.q V i _ fun _ h => h, h.numQueuedVif]
  split <;> rfl

theorem ledger (h : Ledger D N c s) (hS : Shape c s') : Ledger D N c s' := by
  have hlen := h.length_le
  have hp := List.countP_le_length (p := fun k => V (s.q.pool k).txpriv.ifId.toNat) (l := s.q.pending)
  have hq := List.countP_le_length (p := fun k => V (s.q.pool k).txpriv.ifId.toNat) (l := s.q.queue)
  have hnq := h.numQueued
  have hnp := h.numPending
  refine ⟨⟨hc.vifCounted h.toVifCounted hS, ?numQueued, ?numPending, ?numPendingVif, ?linkMapCache,
    ?idVif, ?busySkb, ?traps⟩, ⟨?sharedLinkMap, ?sharedQueued⟩⟩
  case numQueued =>
    rw [hc.numQueued, hc.queue, hc.pending, length_filter_vif, length_filter_vif,
      u32_of_lt (by omega) (by omega)]
    omega
  case numPending =>
    rw [hc.numPending, hc.pending, length_filter_vif, u32_of_lt (by omega) (by omega)]
    omega
  case numPendingVif =>
    intro i
    rw [hc.numPendingVif, hc.pending, hc.ofVif_eq, countP_filter_vif s.q V i _ fun _ h => h, h.numPendingVif]
    split <;> rfl
  case linkMapCache =>
    intro i l
    rw [hc.linkMapCache, hc.queue, hc.ofLink_eq,
      countP_filter_vif s.q V i (ofLink s.q i l) fun k hk => (Bool.and_eq_true_iff.mp hk).1, h.linkMapCache]
    -- links from the map's capacity on have no items
    have hbig : ¬ l < s.stats.mapCapacity → s.q.queue.countP (ofLink s.q i l) = 0 := by
      intro hl
      rw [List.countP_eq_zero]
      intro k _ hk
      have hkl := (Bool.and_eq_true_iff.mp hk).2
      rw [beq_iff_eq] at hkl
      have := h.link k
      rw [h.mapCapacity] at hl
      omega
    by_cases hV : V i = true
    · by_cases hl : l < s.stats.mapCapacity
      · simp [hV, hl]
      · simp [hV, hl, hbig hl]
    · simp [hV]
  case idVif =>
    intro k hk
    rw [hc.kept k hk]
    exact h.idVif k (hc.busy hk)
  case busySkb =>
    intro k hk
    rw [hc.kept k hk]
    exact h.busySkb k (hc.busy hk)
  case traps =>
    intro t ht
    cases hct : t.counter
    · rfl
    · rcases hc.traps t ht hct with h1 | h1 | h1
      · rw [h.traps t h1] at hct
        cases hct
      · omega
      · omega
  case sharedLinkMap =>
    intro i l
    have := hc.sharedLinkMap i l
    rw [h.sharedLinkMap] at this
    omega
  case sharedQueued =>
    intro i
    -- the links of an interface make up its items
    have hsum : ((List.range s.stats.mapCapacity).map (s.q.linkMapCache i)).sum =
        s.q.queue.countP (ofVif s.q i) := by
      have hs := Slots.sum_countP_eq s.stats.mapCapacity s.q.queue (ofVif s.q i)
        (fun k => (s.q.pool k).txpriv.linkId.toNat) fun k _ => by rw [h.mapCapacity]; exact h.link k
      rw [← hs, Nat.cast_list_sum, List.map_map]
      congr 1
      refine List.map_congr_left fun l _ => ?_
      exact h.linkMapCache i l
    rw [hc.sharedQueued, hsum, h.sharedQueued, hc.queue, hc.ofVif_eq, countP_filter_vif s.q V i _ fun _ h => h]
    split <;> omega

end ClearedBy

end AtbmWifi
