import AtbmWifi.Queue.Moves

/-!
# What holds of a queue whatever the firmware confirms

`Shape` is kept by every move (`Shape.move`), so it holds in every reachable
state of every queue (`shape_reach`), for arbitrary packet ids:

* each slot is on exactly one of `free_pool`, `queue`, `pending`;
* the id stored in a busy slot names that slot, its generation and its queue;
* the frame of a pending slot carries the stored id.
-/

namespace AtbmWifi

open Relation

/-- `k` is queued or pending. -/
def Busy (q : AtbmQueue) (k : Nat) : Prop := k ∈ q.queue ∨ k ∈ q.pending

/-- The id stored in the item at slot `k` of queue `c` names the item. -/
structure IdNames (c : Fin 4) (k : Nat) (it : AtbmQueueItem) : Prop where
  itemId : (atbmQueueParseId it.packetID).itemId = k
  itemGeneration : (atbmQueueParseId it.packetID).itemGeneration = it.generation.toNat
  queueId : (atbmQueueParseId it.packetID).queueId = c

structure Shape (c : Fin 4) (s : TxQ) : Prop where
  capacity : s.q.capacity = maxQueueSz
  queueId : s.q.queueId = c
  generation : s.q.generation < 16
  mapCapacity : s.stats.mapCapacity = wlanLinkIdMax
  slots : Slots.Partition maxQueueSz s.q.freePool s.q.queue s.q.pending
  vif : ∀ k, (s.q.pool k).txpriv.ifId.toNat < maxVifs
  link : ∀ k, (s.q.pool k).txpriv.linkId.toNat < wlanLinkIdMax
  id : ∀ k, Busy s.q k → IdNames c k (s.q.pool k)
  frame : ∀ k ∈ s.q.pending, ∀ b, (s.q.pool k).skb = some b → b.packetID = (s.q.pool k).packetID

namespace Shape

variable {c : Fin 4} {s : TxQ} (h : Shape c s)
include h

variable {k : Nat} {p : ParsedId}

theorem lt_of_busy (hk : Busy s.q k) : k < maxQueueSz :=
  h.slots.lt_of_mem (.inr hk)

theorem not_busy_of_free (hk : k ∈ s.q.freePool) : ¬ Busy s.q k := by
  rintro (hq | hp)
  · exact h.slots.not_mem_second_of_first hk hq
  · exact h.slots.not_mem_third_of_first hk hp

theorem itemId_lt (hc : checkId s.q p = none) : p.itemId < maxQueueSz := by
  unfold checkId at hc
  rw [h.capacity] at hc
  by_contra hge
  split at hc
  · cases hc
  rw [if_pos (Nat.le_of_not_lt hge)] at hc
  cases hc

theorem flow {s' : TxQ} (hf : FlowOnly s s') : Shape c s' := by
  obtain ⟨hq, hs⟩ := hf
  constructor <;> first | rw [hq] | rw [hs]
  exacts [h.capacity, h.queueId, h.generation, h.mapCapacity, h.slots, h.vif, h.link, h.id, h.frame]

theorem vif_update {it : AtbmQueueItem} (hi : it.txpriv.ifId = (s.q.pool k).txpriv.ifId) (j : Nat) :
    (Function.update s.q.pool k it j).txpriv.ifId.toNat < maxVifs := by
  by_cases hjk : j = k
  · subst hjk
    simpa [hi] using h.vif j
  · simpa [hjk] using h.vif j

theorem link_update {it : AtbmQueueItem} (hl : it.txpriv.linkId = (s.q.pool k).txpriv.linkId) (j : Nat) :
    (Function.update s.q.pool k it j).txpriv.linkId.toNat < wlanLinkIdMax := by
  by_cases hjk : j = k
  · subst hjk
    simpa [hl] using h.link j
  · simpa [hjk] using h.link j

theorem put (e : QEnv) (skb : SkBuff) (t : AtbmTxpriv) (hk : k ∈ s.q.freePool)
    (hl : t.linkId.toNat < s.stats.mapCapacity) (hi : t.ifId.toNat < maxVifs) :
    Shape c (putItem e skb t k s) := by
  have hlt : k < maxQueueSz := h.slots.lt_of_mem (.inl hk)
  have hfree := h.not_busy_of_free hk
  have hp := parse_make s.q.generation s.q.queueId 0 k t.ifId.toNat t.rawLinkId.toNat (by omega) (by unfold maxQueueSz at hlt; omega)
    (by have := c.isLt; rw [h.queueId]; omega) (by unfold maxVifs at hi; omega)
  constructor
  case capacity => exact h.capacity
  case queueId => exact h.queueId
  case generation => exact h.generation
  case mapCapacity => exact h.mapCapacity
  case slots => exact h.slots.first_to_second hk
  case vif =>
    intro j
    by_cases hjk : j = k
    · simpa [putItem, hjk] using hi
    · simpa [putItem, hjk] using h.vif j
  case link =>
    intro j
    by_cases hjk : j = k
    · simpa [putItem, hjk, h.mapCapacity] using hl
    · simpa [putItem, hjk] using h.link j
  case id =>
    intro j hj
    by_cases hjk : j = k
    · subst hjk
      refine ⟨?_, ?_, ?_⟩
      · simpa [putItem] using hp.1
      · simpa [putItem] using hp.2.1
      · simpa [putItem] using hp.2.2.1.trans h.queueId
    · have hb : Busy s.q j := by
        rcases hj with hj | hj
        · exact .inl (by simpa [putItem, hjk] using hj)
        · exact .inr hj
      simpa [putItem, hjk] using h.id j hb
  case frame =>
    intro j hj b hb
    have hjk : j ≠ k := fun hjk => hfree (.inr (hjk ▸ hj))
    simp only [putItem, ne_eq, hjk, not_false_eq_true, Function.update_of_ne] at hb ⊢
    exact h.frame j hj b hb

theorem issuedId_names (hk : Busy s.q k) : (atbmQueueParseId (issuedId s.q k)).itemId = k ∧
    (atbmQueueParseId (issuedId s.q k)).itemGeneration = (s.q.pool k).generation.toNat ∧
    (atbmQueueParseId (issuedId s.q k)).queueId = c := by
  have := h.id k hk
  unfold issuedId
  split
  · exact ⟨this.itemId, this.itemGeneration, this.queueId⟩
  · rw [parse_setGeneration]
    exact ⟨this.itemId, this.itemGeneration, this.queueId⟩

theorem get (e : QEnv) (hk : k ∈ s.q.queue) : Shape c (getItem e k s) := by
  have hid := h.issuedId_names (.inl hk)
  unfold getItem
  constructor
  case capacity => exact h.capacity
  case queueId => exact h.queueId
  case generation => exact h.generation
  case mapCapacity => exact h.mapCapacity
  case slots => exact h.slots.second_to_third hk
  case vif => exact h.vif_update rfl
  case link => exact h.link_update rfl
  case id =>
    intro j hj
    by_cases hjk : j = k
    · subst hjk
      simpa using ⟨hid.1, hid.2.1, hid.2.2⟩
    · have hb : Busy s.q j := by
        rcases hj with hj | hj
        · exact .inl (List.mem_of_mem_erase hj)
        · exact .inr (by simpa [hjk] using hj)
      simpa [hjk] using h.id j hb
  case frame =>
    intro j hj b hb
    by_cases hjk : j = k
    · subst hjk
      simp only [Function.update_self, Option.map_eq_some_iff] at hb ⊢
      obtain ⟨b', -, rfl⟩ := hb
      rfl
    · simp only [ne_eq, hjk, not_false_eq_true, Function.update_of_ne] at hb ⊢
      exact h.frame j (by simpa [hjk] using hj) b hb

theorem free (hc : checkId s.q p = none) : Shape c (freeItem p s) := by
  have hlt := h.itemId_lt hc
  unfold freeItem unlinkItem
  constructor
  case capacity => exact h.capacity
  case queueId => exact h.queueId
  case generation => exact h.generation
  case mapCapacity => exact h.mapCapacity
  case slots => exact h.slots.to_first hlt
  case vif => exact h.vif_update rfl
  case link => exact h.link_update rfl
  case id =>
    intro j hj
    have hb : Busy s.q j := hj.imp List.mem_of_mem_erase List.mem_of_mem_erase
    have hjk : j ≠ p.itemId := by
      rintro rfl
      rcases hj with hj | hj
      · exact h.slots.nodup_second.not_mem_erase hj
      · exact h.slots.nodup_third.not_mem_erase hj
    simpa [hjk] using h.id j hb
  case frame =>
    intro j hj b hb
    have hjk : j ≠ p.itemId := by
      rintro rfl
      exact h.slots.nodup_third.not_mem_erase hj
    simp only [ne_eq, hjk, not_false_eq_true, Function.update_of_ne] at hb ⊢
    exact h.frame j (List.mem_of_mem_erase hj) b hb

theorem mark (k : Nat) : Shape c (markGeneric k s) := by
  unfold markGeneric setItem
  constructor
  case capacity => exact h.capacity
  case queueId => exact h.queueId
  case generation => exact h.generation
  case mapCapacity => exact h.mapCapacity
  case slots => exact h.slots
  case vif => exact h.vif_update rfl
  case link => exact h.link_update rfl
  case id =>
    intro j hj
    by_cases hjk : j = k
    · subst hjk
      have := h.id j hj
      simpa using ⟨this.itemId, this.itemGeneration, this.queueId⟩
    · simpa [hjk] using h.id j hj
  case frame =>
    intro j hj b hb
    by_cases hjk : j = k
    · subst hjk
      simp only [Function.update_self] at hb ⊢
      exact h.frame j hj b hb
    · simp only [ne_eq, hjk, not_false_eq_true, Function.update_of_ne] at hb ⊢
      exact h.frame j hj b hb

theorem requeue (hc : checkId s.q p = none) (hq : p.queueId = s.q.queueId)
    (hi : p.ifId < 16) : Shape c (requeueItem p s) := by
  have hlt := h.itemId_lt hc
  have hp := parse_make p.queueGeneration p.queueId (UInt8.ofNat (p.itemGeneration + 1)).toNat
    p.itemId p.ifId p.linkId (UInt8.toNat_lt _) (by unfold maxQueueSz at hlt; omega)
    (by have := c.isLt; rw [hq, h.queueId]; omega) hi
  unfold requeueItem unlinkItem
  constructor
  case capacity => exact h.capacity
  case queueId => exact h.queueId
  case generation => exact h.generation
  case mapCapacity => exact h.mapCapacity
  case slots => exact h.slots.to_second hlt
  case vif => exact h.vif_update rfl
  case link => exact h.link_update rfl
  case id =>
    intro j hj
    by_cases hjk : j = p.itemId
    · subst hjk
      refine ⟨?_, ?_, ?_⟩
      · simpa using hp.1
      · simpa using hp.2.1
      · simpa using hp.2.2.1.trans (hq.trans h.queueId)
    · have hb : Busy s.q j := by
        rcases hj with hj | hj
        · exact .inl (by simpa [hjk] using hj)
        · exact .inr (List.mem_of_mem_erase hj)
      simpa [hjk] using h.id j hb
  case frame =>
    intro j hj b hb
    have hjk : j ≠ p.itemId := by
      rintro rfl
      exact h.slots.nodup_third.not_mem_erase hj
    simp only [ne_eq, hjk, not_false_eq_true, Function.update_of_ne] at hb ⊢
    exact h.frame j (List.mem_of_mem_erase hj) b hb

theorem expire (hk : k ∈ s.q.queue) : Shape c (gcItem k s) := by
  unfold gcItem
  constructor
  case capacity => exact h.capacity
  case queueId => exact h.queueId
  case generation => exact h.generation
  case mapCapacity => exact h.mapCapacity
  case slots => exact h.slots.second_to_first hk
  case vif => exact h.vif_update rfl
  case link => exact h.link_update rfl
  case id =>
    intro j hj
    have hb : Busy s.q j := hj.imp_left List.mem_of_mem_erase
    have hjk : j ≠ k := by
      rintro rfl
      rcases hj with hj | hj
      · exact h.slots.nodup_second.not_mem_erase hj
      · exact h.slots.not_mem_third_of_second hk hj
    simpa [hjk] using h.id j hb
  case frame =>
    intro j hj b hb
    have hjk : j ≠ k := fun hjk => h.slots.not_mem_third_of_second hk (hjk ▸ hj)
    simp only [ne_eq, hjk, not_false_eq_true, Function.update_of_ne] at hb ⊢
    exact h.frame j hj b hb

theorem clearLists (ifId : Int) : Shape c (clearLists ifId s) := by
  have kept : ∀ j, (j ∈ s.q.queue.filter fun k => !cleared s.q ifId k) ∨
      (j ∈ s.q.pending.filter fun k => !cleared s.q ifId k) →
      Busy s.q j ∧
      j ∉ s.q.pending.filter (cleared s.q ifId) ++ s.q.queue.filter (cleared s.q ifId) := by
    intro j hj
    simp only [List.mem_filter, Bool.not_eq_true', List.mem_append] at hj ⊢
    refine ⟨hj.imp And.left And.left, ?_⟩
    rintro (⟨-, hc⟩ | ⟨-, hc⟩) <;> rcases hj with ⟨-, hn⟩ | ⟨-, hn⟩ <;> rw [hn] at hc <;> cases hc
  unfold AtbmWifi.clearLists
  constructor <;> simp only [trapIf_stats]
  case capacity => exact h.capacity
  case queueId => exact h.queueId
  case generation => exact Nat.and_lt_two_pow (n := 4) _ (by omega)
  case mapCapacity => exact h.mapCapacity
  case slots => exact h.slots.filter_to_first _
  case vif =>
    intro j
    split
    · exact h.vif j
    · exact h.vif j
  case link =>
    intro j
    split
    · exact h.link j
    · exact h.link j
  case id =>
    intro j hj
    obtain ⟨hb, hn⟩ := kept j hj
    rw [if_neg hn]
    exact h.id j hb
  case frame =>
    intro j hj b hb
    rw [if_neg (kept j (.inr hj)).2] at hb ⊢
    exact h.frame j (List.mem_of_mem_filter hj) b hb

theorem clearVif (i : Nat) : Shape c (clearVif i s) :=
  ⟨h.capacity, h.queueId, h.generation, h.mapCapacity, h.slots, h.vif, h.link, h.id, h.frame⟩

theorem move {A : AtbmQueue → ParsedId → Prop} {B : Prop} {e : QEnv} {s' : TxQ} (hm : Move A B e s s') :
    Shape c s' := by
  cases hm with
  | flow hf => exact h.flow hf
  | put skb t k hk hl hi => exact h.put e skb t hk hl hi
  | get k hk => exact h.get e hk
  | free p hc _ => exact h.free hc
  | mark k => exact h.mark k
  | requeue p check hc hq hi _ =>
    cases check with
    | true => exact h.requeue hc hq hi
    | false => exact (h.mark p.itemId).requeue ((markGeneric_checkId _ _ _).trans hc) hq hi
  | expire k hk => exact h.expire hk
  | clear i _ _ => exact (h.clearLists i).clearVif i
  | clearAll _ => exact ((h.clearLists allIfs).clearVif 0).clearVif 1

end Shape

theorem shape_init (c : Fin 4) (ttl : Fin 4 → Int) : Shape c ((TxQueues.start ttl).view c) where
  capacity := rfl
  queueId := rfl
  generation := show (0 : Nat) < 16 by decide
  mapCapacity := rfl
  slots := by
    simp only [TxQueues.view, TxQueues.start, atbmQueueInit]
    exact Slots.Partition.start maxQueueSz
  vif := fun _ => show (0 : Nat) < 2 by decide
  link := fun _ => show (0 : Nat) < 17 by decide
  id := fun k hk => by rcases hk with hk | hk <;> cases hk
  frame := fun k hk => by cases hk

section
variable {A : AtbmQueue → ParsedId → Prop} {B : Prop} {s : TxQueues} {ev : QEvent}

theorem TxQueues.run_invariant {I : TxQ → Prop} (hs : Shape ev.c (s.view ev.c)) (hv : Valid s ev)
    (hA : ∀ p ∈ ev.op.id, checkId (s.txQueue ev.c) (atbmQueueParseId p) = none →
      A (s.txQueue ev.c) (atbmQueueParseId p))
    (hB : ∀ i, ev.op = .clear i → B) (hI : ∀ s s', I s → Move A B ev.env s s' → I s') (h : I (s.view ev.c)) :
    I (ev.op.run ev.env (s.view ev.c)) :=
  QOp.run_invariant hI ev.op _ hv.vif (fun p hp => (hv.queueId p hp).trans hs.queueId.symm)
    hs.slots.nodup_second hA hB h

theorem shape_step (hv : Valid s ev) (h : ∀ c, Shape c (s.view c)) (c : Fin 4) :
    Shape c ((s.step ev).view c) := by
  have key : Shape ev.c (ev.op.run ev.env (s.view ev.c)) :=
    TxQueues.run_invariant (A := fun _ _ => True) (B := True) (h ev.c) hv (fun _ _ _ => trivial)
      (fun _ _ => trivial) (fun _ _ h hm => h.move hm) (h ev.c)
  by_cases hc : c = ev.c
  · subst hc
    have hq := s.step_txQueue_self ev
    refine ⟨?_, ?_, ?_, key.mapCapacity, ?_, ?_, ?_, ?_, ?_⟩ <;> rw [TxQueues.view_q, hq]
    exacts [key.capacity, key.queueId, key.generation, key.slots, key.vif, key.link, key.id, key.frame]
  · have hq := s.step_txQueue_other ev hc
    have h := h c
    refine ⟨?_, ?_, ?_, key.mapCapacity, ?_, ?_, ?_, ?_, ?_⟩ <;> rw [TxQueues.view_q, hq]
    exacts [h.capacity, h.queueId, h.generation, h.slots, h.vif, h.link, h.id, h.frame]

end

/-- **Every reachable queue is well formed**, whatever ids were confirmed. -/
theorem shape_reach {s : TxQueues} (h : Transition.Reach queues s) (c : Fin 4) : Shape c (s.view c) := by
  have all : ∀ c, Shape c (s.view c) := by
    refine h.invariant (I := fun s => ∀ c, Shape c (s.view c)) ?_ ?_
    · rintro s ⟨ttl, rfl⟩ c
      exact shape_init c ttl
    · rintro s ev t hs ⟨hv, rfl⟩ c
      exact shape_step hv hs c
  exact all c

end AtbmWifi
