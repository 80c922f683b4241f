import AtbmWifi.Queue.Clear

/-!
# TX queue accounting

The ledgers of the four queues add up: in every state of an honest run the
counters of each queue count its items and the shared statistics are the sums
over the queues (`txQueue_accounting`).  A step moves one queue; the others'
contributions to the shared statistics are the `D` and `N` of its ledger.
-/

namespace AtbmWifi

variable {c : Fin 4} {ev : QEvent} {s : TxQueues}

/-- **Every move keeps the ledger**, when accepted ids name pending items of their own interface. -/
theorem Ledger.move {s s' : TxQ} {D : Nat → Nat → Int} {N : Nat → Int} {e : QEnv}
    (h : Ledger D N c s) (hm : Move NamesOwn True e s s') : Ledger D N c s' := by
  have hS := h.toShape.move hm
  cases hm with
  | flow hf => exact h.flow hf
  | put skb t k hk hl hi => exact h.put e skb t hk hl hi
  | get k hk => exact h.get e hk
  | free p hc hp => exact h.free hc hp
  | mark k => exact h.mark k
  | requeue p check hc hq hi hp =>
    obtain ⟨hk, hpi⟩ := hp
    cases check with
    | true => exact h.requeue hc hq hi hk hpi
    | false =>
      refine (h.mark p.itemId).requeue ((markGeneric_checkId _ _ _).trans hc) hq hi hk ?_
      simpa [markGeneric, setItem] using hpi
  | expire k hk => exact h.expire hk
  | clear i _ _ => exact (clearedBy_vif s i).ledger h hS
  | clearAll _ => exact (clearedBy_all s h.vif).ledger h hS

structure Accounted (s : TxQueues) : Prop where
  counted : ∀ c, Counted c (s.view c)
  sharedLinkMap : ∀ i l, s.stats.linkMapCache i l = ∑ c, (s.txQueue c).linkMapCache i l
  sharedQueued : ∀ i, s.stats.numQueued i =
    ∑ c, ((s.txQueue c).queue.countP (ofVif (s.txQueue c) i) : Int)

theorem accounted_start (ttl : Fin 4 → Int) : Accounted (TxQueues.start ttl) where
  counted c :=
    { shape_init c ttl with
      numQueued := rfl
      numPending := rfl
      numQueuedVif := fun _ => rfl
      numPendingVif := fun _ => rfl
      linkMapCache := fun _ _ => rfl
      idVif := fun k hk => by rcases hk with hk | hk <;> cases hk
      busySkb := fun k hk => by rcases hk with hk | hk <;> cases hk
      traps := fun t ht => by cases ht }
  sharedLinkMap i l := by simp [TxQueues.start, atbmQueueStatsInit, atbmQueueInit]
  sharedQueued i := by simp [TxQueues.start, atbmQueueStatsInit, atbmQueueInit]

/-- Every id the queue accepts names a pending item, under the item's interface. -/
def OwnIds (s : TxQueues) (ev : QEvent) : Prop :=
  ∀ p ∈ ev.op.id, checkId (s.txQueue ev.c) (atbmQueueParseId p) = none →
    NamesOwn (s.txQueue ev.c) (atbmQueueParseId p)

theorem ownIds_of_honest (h : Accounted s) (hh : Honest s ev) : OwnIds s ev := by
  intro p hp _
  obtain ⟨k, hk, b, hb, rfl⟩ := hh p hp
  exact (h.counted ev.c).namesPending ⟨k, hk, b, hb, rfl⟩

theorem accounted_ownIds (hv : Valid s ev) (ha : OwnIds s ev) (h : Accounted s) : Accounted (s.step ev) := by
  let D := fun i l => ∑ c ∈ Finset.univ.erase ev.c, (s.txQueue c).linkMapCache i l
  let N := fun i => ∑ c ∈ Finset.univ.erase ev.c, ((s.txQueue c).queue.countP (ofVif (s.txQueue c) i) : Int)
  have hself := s.step_txQueue_self ev
  have hother := fun c (hc : c ≠ ev.c) => s.step_txQueue_other ev hc
  have before : Ledger D N ev.c (s.view ev.c) := by
    refine ⟨h.counted ev.c, fun i l => ?_, fun i => ?_⟩
    · have := Finset.add_sum_erase Finset.univ (fun c => (s.txQueue c).linkMapCache i l)
        (Finset.mem_univ ev.c)
      show s.stats.linkMapCache i l = D i l + (s.txQueue ev.c).linkMapCache i l
      rw [h.sharedLinkMap, ← this]
      exact Int.add_comm _ _
    · have := Finset.add_sum_erase Finset.univ
        (fun c => ((s.txQueue c).queue.countP (ofVif (s.txQueue c) i) : Int)) (Finset.mem_univ ev.c)
      show s.stats.numQueued i = N i + ((s.txQueue ev.c).queue.countP (ofVif (s.txQueue ev.c) i) : Int)
      rw [h.sharedQueued, ← this]
      exact Int.add_comm _ _
  have after : Ledger D N ev.c (ev.op.run ev.env (s.view ev.c)) := by
    exact TxQueues.run_invariant before.toShape hv ha (fun _ _ => trivial) (fun _ _ h hm => h.move hm) before
  refine ⟨fun c => ?_, fun i l => ?_, fun i => ?_⟩
  · by_cases hc : c = ev.c
    · subst hc
      have : (s.step ev).view ev.c = ev.op.run ev.env (s.view ev.c) := by
        simp [TxQueues.view, TxQueues.step, TxQueues.write]
      rw [this]
      exact after.toCounted
    · have hS := shape_step hv (fun c => (h.counted c).toShape) c
      have hq : ((s.step ev).view c).q = s.txQueue c := hother c hc
      have hC := h.counted c
      refine ⟨⟨hS, ?_⟩, ?_, ?_, ?_, ?_, ?_, ?_, after.traps⟩ <;> rw [hq]
      exacts [hC.numQueuedVif, hC.numQueued, hC.numPending, hC.numPendingVif, hC.linkMapCache, hC.idVif,
        hC.busySkb]
  · rw [← Finset.add_sum_erase Finset.univ _ (Finset.mem_univ ev.c), hself, s.step_stats,
      after.sharedLinkMap, Int.add_comm]
    congr 1
    refine Finset.sum_congr rfl fun c hc => ?_
    rw [hother c (Finset.ne_of_mem_erase hc)]
  · rw [← Finset.add_sum_erase Finset.univ _ (Finset.mem_univ ev.c), hself, s.step_stats,
      after.sharedQueued, Int.add_comm]
    congr 1
    refine Finset.sum_congr rfl fun c hc => ?_
    rw [hother c (Finset.ne_of_mem_erase hc)]

theorem accounted_step (hv : Valid s ev) (hh : Honest s ev) (h : Accounted s) : Accounted (s.step ev) :=
  accounted_ownIds hv (ownIds_of_honest h hh) h

theorem valid_outstanding (h : Accounted s) (e : QEnv) {p : Nat}
    (hp : Outstanding (s.txQueue c) p) : Valid s ⟨c, e, .remove p⟩ := by
  obtain ⟨k, hk, b, hb, rfl⟩ := hp
  have hC := h.counted c
  have hid : b.packetID = ((s.txQueue c).pool k).packetID := hC.frame k hk b hb
  have hvif : (atbmQueueParseId b.packetID).ifId = ((s.txQueue c).pool k).txpriv.ifId.toNat := by
    rw [hid]
    exact hC.idVif k (.inr hk)
  apply valid_remove
  · rw [hid]
    exact (hC.id k (.inr hk)).queueId
  · rw [hvif]
    exact hC.vif k

theorem accounted_remove (h : Accounted s) (e : QEnv) {p : Nat}
    (hp : Outstanding (s.txQueue c) p) : Accounted (s.step ⟨c, e, .remove p⟩) := by
  refine accounted_step (valid_outstanding h e hp) ?_ h
  rintro p' ⟨⟩
  exact hp

theorem accounted_get (h : Accounted s) (c : Fin 4) (e : QEnv) (i m : Nat) : Accounted (s.step ⟨c, e, .get i m⟩) :=
  accounted_step (valid_of_vif trivial rfl nofun) (honest_of_noId rfl) h

theorem outstanding_get (h : Accounted s) (e : QEnv) {i m k : Nat} (hsel : selectItem (s.txQueue c) i m = some k) :
    Outstanding ((s.step ⟨c, e, .get i m⟩).txQueue c) (issuedId (s.txQueue c) k) := by
  have hq : (s.step ⟨c, e, .get i m⟩).txQueue c = (getItem e k (s.view c)).q := by
    rw [s.step_txQueue_self ⟨c, e, .get i m⟩]
    show (atbmQueueGet e i m (s.view c)).1.q = _
    unfold atbmQueueGet
    simp only [TxQueues.view_q, hsel]
    exact wakeIf_q _ _
  obtain ⟨b, hb⟩ := Option.isSome_iff_exists.mp ((h.counted c).busySkb k (.inl (selectItem_mem hsel)))
  have hb : ((s.txQueue c).pool k).skb = some b := hb
  rw [hq]
  refine ⟨k, by simp [getItem], { b with packetID := issuedId (s.txQueue c) k }, ?_, rfl⟩
  simp [getItem, hb]

theorem accounted_reach (h : Transition.Reach (queues.restrict Honest) s) : Accounted s := by
  refine h.invariant ?_ ?_
  · rintro s ⟨ttl, rfl⟩
    exact accounted_start ttl
  · rintro s ev t hs ⟨hh, hv, rfl⟩
    exact accounted_step hv hh hs

theorem accounted_reach_ownIds (h : Transition.Reach (queues.restrict OwnIds) s) : Accounted s := by
  refine h.invariant ?_ ?_
  · rintro s ⟨ttl, rfl⟩
    exact accounted_start ttl
  · rintro s ev t hs ⟨ha, hv, rfl⟩
    exact accounted_ownIds hv ha hs

structure QueueCounts (q : AtbmQueue) : Prop where
  oneList : ∀ k, q.freePool.count k + q.queue.count k + q.pending.count k = if k < q.capacity then 1 else 0
  numQueued : q.numQueued = q.queue.length + q.pending.length
  numPending : q.numPending = q.pending.length
  numQueuedVif : ∀ i, q.numQueuedVif i = q.queue.countP (ofVif q i) + q.pending.countP (ofVif q i)
  numPendingVif : ∀ i, q.numPendingVif i = q.pending.countP (ofVif q i)
  linkMapCache : ∀ i l, q.linkMapCache i l = q.queue.countP (ofLink q i l)

theorem Counted.counts {s : TxQ} (h : Counted c s) : QueueCounts s.q where
  oneList k := by
    rw [h.slots k, h.capacity]
  numQueued := h.numQueued
  numPending := h.numPending
  numQueuedVif := h.numQueuedVif
  numPendingVif := h.numPendingVif
  linkMapCache := h.linkMapCache

theorem QueueCounts.nonneg {q : AtbmQueue} (h : QueueCounts q) : 0 ≤ q.numQueued ∧ 0 ≤ q.numPending ∧
    ∀ i, 0 ≤ q.numQueuedVif i ∧ 0 ≤ q.numPendingVif i ∧ ∀ l, 0 ≤ q.linkMapCache i l := by
  refine ⟨?_, ?_, fun i => ⟨?_, ?_, fun l => ?_⟩⟩
  · rw [h.numQueued]; omega
  · rw [h.numPending]; omega
  · rw [h.numQueuedVif]; omega
  · rw [h.numPendingVif]; omega
  · rw [h.linkMapCache]; omega

/-- **TX queue accounting.**  In every state of an honest run each queue's
counters count its items, the shared statistics are the sums over the four
queues, nothing is below zero and `atbm_queue_clear` never complains. -/
theorem txQueue_accounting {s : TxQueues} (h : Transition.Reach (queues.restrict Honest) s) :
    (∀ c, QueueCounts (s.txQueue c)) ∧
    (∀ i l, s.stats.linkMapCache i l = ∑ c, (s.txQueue c).linkMapCache i l) ∧
    (∀ i, s.stats.numQueued i = ∑ c, ((s.txQueue c).queue.countP (ofVif (s.txQueue c) i) : Int)) ∧
    (∀ i, s.stats.numQueued i = ∑ c, ((s.txQueue c).numQueuedVif i - (s.txQueue c).numPendingVif i)) ∧
    (∀ c, 0 ≤ (s.txQueue c).numQueued ∧ 0 ≤ (s.txQueue c).numPending ∧
      ∀ i, 0 ≤ (s.txQueue c).numQueuedVif i ∧ 0 ≤ (s.txQueue c).numPendingVif i ∧
        ∀ l, 0 ≤ (s.txQueue c).linkMapCache i l) ∧
    (∀ i, 0 ≤ s.stats.numQueued i ∧ ∀ l, 0 ≤ s.stats.linkMapCache i l) ∧
    Trap.clearPending ∉ s.traps ∧ Trap.clearQueued ∉ s.traps := by
  have hA := accounted_reach h
  have hC : ∀ c, QueueCounts (s.txQueue c) := fun c => (hA.counted c).counts
  have hT := (hA.counted 0).traps
  refine ⟨hC, hA.sharedLinkMap, hA.sharedQueued, fun i => ?_, fun c => (hC c).nonneg,
    fun i => ⟨?_, fun l => ?_⟩, fun ht => ?_, fun ht => ?_⟩
  · rw [hA.sharedQueued]
    refine Finset.sum_congr rfl fun c _ => ?_
    rw [(hC c).numQueuedVif, (hC c).numPendingVif]
    omega
  · rw [hA.sharedQueued]
    exact Finset.sum_nonneg fun c _ => by omega
  · rw [hA.sharedLinkMap]
    exact Finset.sum_nonneg fun c _ => ((hC c).nonneg.2.2 i).2.2 l
  · cases hT _ ht
  · cases hT _ ht

theorem follows_confirmed : Follows Honest (TxQueues.start fun _ => 1000)
    [samplePut 7 0, samplePut 8 1, sampleGet 0, sampleRemove 0x01000000] := by
  refine ⟨⟨honest_of_noId rfl, valid_of_vif (by decide) rfl (by simp)⟩,
    ⟨honest_of_noId rfl, valid_of_vif (by decide) rfl (by simp)⟩,
    ⟨honest_of_noId rfl, valid_of_vif trivial rfl (by simp)⟩, ⟨?_, ?_⟩, trivial⟩
  · rintro p ⟨⟩
    exact ⟨0, by decide +kernel, ⟨7, 0x01000000⟩, by decide +kernel, rfl⟩
  · exact valid_remove (by decide) (by decide)

theorem txQueue_accounting_confirmed : QueueCounts (((TxQueues.start fun _ => 1000).run
    [samplePut 7 0, samplePut 8 1, sampleGet 0, sampleRemove 0x01000000]).txQueue 0) :=
  (txQueue_accounting follows_confirmed.reach_start).1 0

end AtbmWifi
