import AtbmWifi.Queue.Clear

/-!
# Clearing one interface and the frames of the other

`atbm_queue_clear` raises the generation of the whole queue, and every
confirmation is checked against it, also for items of interfaces that were not
cleared.  An item of another interface stays pending with its frame
(`parked_clear`), but its confirmation is accepted afterwards exactly when the
generation its id was issued under is the one the clear has moved to
(`clear_isolation_iff`): after sixteen clears, not after one.

The item is followed through any later run that neither clears its queue again
nor has an id naming its slot accepted (`Spares`, `parked_later`).
-/

namespace AtbmWifi

open Transition

/-- The item at `k` is pending with frame `b`. -/
structure Parked (k : Nat) (b : SkBuff) (q : AtbmQueue) : Prop where
  pending : k ∈ q.pending
  skb : (q.pool k).skb = some b

/-- The steps that leave the pending item at `k` of queue `c` to its own confirmation. -/
def Spares (c : Fin 4) (k : Nat) (s : TxQueues) (ev : QEvent) : Prop :=
  ev.c = c → (∀ i, ev.op ≠ .clear i) ∧
    ∀ p ∈ ev.op.id, (atbmQueueParseId p).itemId = k → checkId (s.txQueue c) (atbmQueueParseId p) ≠ none

/-- `atbm_queue_get_skb` hands out frame `b` for the id, `atbm_queue_remove`
returns 0 and frees the item at `k` and nothing else. -/
structure Confirms (e : QEnv) (packetID k : Nat) (b : SkBuff) (s : TxQ) : Prop where
  getSkb : (atbmQueueGetSkb packetID s).2 = (0, some (some b, (s.q.pool k).txpriv))
  ret : (atbmQueueRemove e packetID s).2 = 0
  pending : (atbmQueueRemove e packetID s).1.q.pending = s.q.pending.erase k
  queue : (atbmQueueRemove e packetID s).1.q.queue = s.q.queue
  freePool : (atbmQueueRemove e packetID s).1.q.freePool = k :: s.q.freePool
  pool : ∀ j ≠ k, (atbmQueueRemove e packetID s).1.q.pool j = s.q.pool j
  skb : ((atbmQueueRemove e packetID s).1.q.pool k).skb = none
  dtor : (atbmQueueRemove e packetID s).1.dtor = s.dtor ++ [(some b, (s.q.pool k).txpriv)]

/-- In every later state the item is pending with its frame, and its confirmation frees it. -/
def StaysConfirmable (c : Fin 4) (k : Nat) (b : SkBuff) (s : TxQueues) : Prop :=
  ∀ l t, Path (queues.restrict (Spares c k)) s l t →
    Parked k b (t.txQueue c) ∧ ∀ e, Confirms e b.packetID k b (t.view c)

structure ParkedAt (c : Fin 4) (k : Nat) (b : SkBuff) (g : Nat) (s : TxQ) : Prop extends
  Shape c s, Parked k b s.q where
  atGeneration : s.q.generation = g

namespace ParkedAt

variable {c : Fin 4} {k g : Nat} {b : SkBuff} {s : TxQ} (h : ParkedAt c k b g s)
include h

theorem ne_of_free {j : Nat} (hj : j ∈ s.q.freePool) : k ≠ j := fun hkj =>
  h.slots.not_mem_third_of_first hj (hkj ▸ h.pending)

theorem ne_of_queue {j : Nat} (hj : j ∈ s.q.queue) : k ≠ j := fun hkj =>
  h.slots.not_mem_third_of_second hj (hkj ▸ h.pending)

theorem move {e : QEnv} {s' : TxQ} (hm : Move (fun _ p => p.itemId ≠ k) False e s s') :
    ParkedAt c k b g s' := by
  have hS := h.toShape.move hm
  refine ⟨hS, ?_, ?_⟩
  · cases hm with
    | flow hf =>
      obtain ⟨l, o, gc, sk, hq⟩ := hf.fields
      rw [hq]
      exact ⟨h.pending, h.skb⟩
    | put skb t j hj _ _ => exact ⟨h.pending, by simpa [putItem, h.ne_of_free hj] using h.skb⟩
    | get j hj =>
      exact ⟨List.mem_append_left _ h.pending, by simpa [getItem, h.ne_of_queue hj] using h.skb⟩
    | free p _ hp =>
      exact ⟨(List.mem_erase_of_ne hp.symm).mpr h.pending, by simpa [freeItem, hp.symm] using h.skb⟩
    | mark j =>
      refine ⟨h.pending, ?_⟩
      by_cases hkj : k = j
      · subst hkj
        simpa [markGeneric, setItem] using h.skb
      · simpa [markGeneric, setItem, hkj] using h.skb
    | requeue p check _ _ _ hp =>
      cases check
      · refine ⟨(List.mem_erase_of_ne hp.symm).mpr h.pending, ?_⟩
        simpa [requeueItem, markGeneric, setItem, hp.symm] using h.skb
      · exact ⟨(List.mem_erase_of_ne hp.symm).mpr h.pending, by simpa [requeueItem, hp.symm] using h.skb⟩
    | expire j hj => exact ⟨h.pending, by simpa [gcItem, h.ne_of_queue hj] using h.skb⟩
    | clear i hB _ => exact hB.elim
    | clearAll hB => exact hB.elim
  · cases hm with
    | flow hf =>
      obtain ⟨l, o, gc, sk, hq⟩ := hf.fields
      rw [hq]
      exact h.atGeneration
    | requeue p check _ _ _ _ => cases check <;> exact h.atGeneration
    | clear i hB _ => exact hB.elim
    | clearAll hB => exact hB.elim
    | put _ _ _ _ _ _ => exact h.atGeneration
    | get _ _ => exact h.atGeneration
    | free _ _ _ => exact h.atGeneration
    | mark _ => exact h.atGeneration
    | expire _ _ => exact h.atGeneration

theorem checkId_eq_none : checkId s.q (atbmQueueParseId b.packetID) = none ↔
    (atbmQueueParseId b.packetID).queueGeneration = g := by
  have hid := h.id k (.inr h.pending)
  have hb := h.frame k h.pending b h.skb
  have hlt := h.lt_of_busy (.inr h.pending)
  unfold checkId
  rw [h.atGeneration, hb, hid.itemId, hid.itemGeneration, h.capacity]
  by_cases hg : (atbmQueueParseId (s.q.pool k).packetID).queueGeneration = g
  · simp [hg, Nat.not_le_of_lt hlt]
  · simp [hg]

theorem confirms (hg : (atbmQueueParseId b.packetID).queueGeneration = g) (e : QEnv) :
    Confirms e b.packetID k b s := by
  have hc := h.checkId_eq_none.mpr hg
  have hid := h.id k (.inr h.pending)
  have hb := h.frame k h.pending b h.skb
  have hk : (atbmQueueParseId b.packetID).itemId = k := by rw [hb, hid.itemId]
  have hkq : k ∉ s.q.queue := fun hq => h.slots.not_mem_third_of_second hq h.pending
  have hkf : k ∉ s.q.freePool := fun hf => h.slots.not_mem_third_of_first hf h.pending
  have hget : (atbmQueueGetSkb b.packetID s).2 = (0, some (some b, (s.q.pool k).txpriv)) := by
    simp [atbmQueueGetSkb, hc, hk, h.skb]
  obtain ⟨v, hv, hvq⟩ : ∃ v, atbmQueueRemove e b.packetID s = (v, 0) ∧
      v = destroySkb (s.q.pool k) (releaseOverfull e (atbmQueueParseId b.packetID).ifId
        (freeItem (atbmQueueParseId b.packetID)
          (trapIf ((atbmQueueParseId b.packetID).queueId != s.q.queueId) .queueId s))) := by
    refine ⟨_, ?_, rfl⟩
    simp [atbmQueueRemove, hc, hk]
  obtain ⟨l, o, gc, sk, hq⟩ := ((flowOnly_releaseOverfull e (atbmQueueParseId b.packetID).ifId
    (freeItem (atbmQueueParseId b.packetID)
      (trapIf ((atbmQueueParseId b.packetID).queueId != s.q.queueId) .queueId s))).trans
    (flowOnly_destroySkb (s.q.pool k) _)).fields
  rw [← hvq] at hq
  refine ⟨hget, ?_, ?_, ?_, ?_, fun j hj => ?_, ?_, ?_⟩ <;> rw [hv]
  · rw [hq]
    simp [freeItem, unlinkItem, hk]
  · rw [hq]
    simp [freeItem, unlinkItem, hk, List.erase_of_not_mem hkq]
  · rw [hq]
    simp [freeItem, unlinkItem, hk, List.erase_of_not_mem hkf]
  · rw [hq]
    simp [freeItem, hk, hj]
  · rw [hq]
    simp [freeItem, hk]
  · rw [hvq, destroySkb, h.skb]
    simp only [releaseOverfull_dtor]
    simp [freeItem]

end ParkedAt

/-- **A parked item stays parked**, its generation the queue's, through a run that spares it. -/
theorem parked_later {c : Fin 4} {k g : Nat} {b : SkBuff} {s t : TxQueues} {l : List (TxQueues × QEvent)}
    (hp : Path (queues.restrict (Spares c k)) s l t) (hs : ∀ c, Shape c (s.view c))
    (h : ParkedAt c k b g (s.view c)) : ParkedAt c k b g (t.view c) := by
  have step : ∀ u ev v, (∀ c, Shape c (u.view c)) ∧ ParkedAt c k b g (u.view c) →
      (queues.restrict (Spares c k)).step u ev v →
      (∀ c, Shape c (v.view c)) ∧ ParkedAt c k b g (v.view c) := by
    rintro u ev v ⟨hu, hpk⟩ ⟨hsp, hv, rfl⟩
    have hS := shape_step hv hu
    refine ⟨hS, ?_⟩
    by_cases hc : ev.c = c
    · subst hc
      have run : ParkedAt ev.c k b g (ev.op.run ev.env (u.view ev.c)) :=
        TxQueues.run_invariant (A := fun _ p => p.itemId ≠ k) (B := False) (hu ev.c) hv
          (fun p hp hcp hk => (hsp rfl).2 p hp hk hcp) (fun i hi => (hsp rfl).1 i hi)
          (fun _ _ h hm => h.move hm) hpk
      have hq : ((u.step ev).view ev.c).q = (ev.op.run ev.env (u.view ev.c)).q := u.step_txQueue_self ev
      refine ⟨hS ev.c, ?_, ?_⟩ <;> rw [hq]
      exacts [run.toParked, run.atGeneration]
    · have hq : ((u.step ev).view c).q = (u.view c).q := u.step_txQueue_other ev (Ne.symm hc)
      refine ⟨hS c, ?_, ?_⟩ <;> rw [hq]
      exacts [hpk.toParked, hpk.atGeneration]
  exact (hp.invariant step ⟨hs, h⟩).2

theorem parked_clear {s : TxQ} {c : Fin 4} {i k : Nat} {b : SkBuff} (h : Shape c s)
    (hp : Parked k b s.q) (hv : (s.q.pool k).txpriv.ifId.toNat ≠ i) :
    ParkedAt c k b ((s.q.generation + 1) &&& 0xf) (atbmQueueClear i s).1 := by
  have hne : (i : Int) ≠ allIfs := by unfold allIfs; omega
  have hf : FlowOnly (clearVif i (clearLists i s)) (atbmQueueClear i s).1 := by
    unfold atbmQueueClear
    simp only [if_neg hne, Int.toNat_natCast]
    exact (flowOnly_clearOverfullIf i _).trans (flowOnly_wakeIf true _)
  have hS : Shape c (atbmQueueClear i s).1 := ((h.clearLists i).clearVif i).flow hf
  have hc := clearedBy_vif s i
  have hk : k ∈ (clearVif i (clearLists i s)).q.pending := by
    rw [hc.pending]
    exact List.mem_filter.mpr ⟨hp.pending, by simpa using hv⟩
  have hg : (clearVif i (clearLists i s)).q.generation = (s.q.generation + 1) &&& 0xf := by
    show (s.q.generation + 1) % 256 &&& 0xf = _
    rw [Nat.mod_eq_of_lt (by have := h.generation; omega)]
  obtain ⟨l, o, gc, sk, hq⟩ := hf.fields
  refine ⟨hS, ⟨?_, ?_⟩, ?_⟩ <;> rw [hq]
  · exact hk
  · show ((clearVif i (clearLists i s)).q.pool k).skb = _
    rw [hc.kept k (.inr hk)]
    exact hp.skb
  · exact hg

/-- **Isolation of a clear, exactly.**  In every reachable state, an item of
another interface stays pending with its frame, and keeps being confirmable by
the id in that frame, iff the queue generation in the id is the one the clear
moves to. -/
theorem clear_isolation_iff {s : TxQueues} (hr : Reach queues s) (c : Fin 4) (e : QEnv) {i k : Nat}
    {b : SkBuff} (hi : i < maxVifs) (hp : Parked k b (s.txQueue c))
    (hv : ((s.txQueue c).pool k).txpriv.ifId.toNat ≠ i) :
    StaysConfirmable c k b (s.step ⟨c, e, .clear i⟩) ↔
      (atbmQueueParseId b.packetID).queueGeneration = ((s.txQueue c).generation + 1) &&& 0xf := by
  have hsh := shape_reach hr
  have hvalid : Valid s ⟨c, e, .clear i⟩ := by
    refine valid_of_vif ?_ rfl (by simp)
    unfold maxVifs at hi
    show (i : Int) = allIfs ∨ (i : Int) = 0 ∨ (i : Int) = 1
    omega
  have hS := shape_step hvalid hsh
  have hpc := parked_clear (hsh c) hp hv
  have hq : ((s.step ⟨c, e, .clear i⟩).view c).q = (atbmQueueClear i (s.view c)).1.q :=
    s.step_txQueue_self ⟨c, e, .clear i⟩
  have hpk : ParkedAt c k b (((s.txQueue c).generation + 1) &&& 0xf) ((s.step ⟨c, e, .clear i⟩).view c) := by
    refine ⟨hS c, ?_, ?_⟩ <;> rw [hq]
    exacts [hpc.toParked, hpc.atGeneration]
  constructor
  · intro h
    have hc := ((h [] _ (.nil _)).2 e).getSkb
    refine hpk.checkId_eq_none.mp ?_
    unfold atbmQueueGetSkb at hc
    simp only [trapIf_q] at hc
    split at hc
    · simp at hc
    · assumption
  · intro hg l t hl
    have ht := parked_later hl hS hpk
    exact ⟨ht.toParked, fun e => ht.confirms hg e⟩

def inFlight : TxQueues := (TxQueues.start fun _ => 1000).run [samplePut 7 0, sampleGet 0]

theorem inFlight_reach : Reach (queues.restrict Honest) inFlight := by
  refine Follows.reach_start ⟨⟨honest_of_noId rfl, ?_⟩, ⟨honest_of_noId rfl, ?_⟩, trivial⟩
  · exact valid_of_vif (by decide) rfl (by simp)
  · exact valid_of_vif trivial rfl (by simp)

theorem inFlight_parked : Parked 0 ⟨7, 0x01000000⟩ (inFlight.txQueue 0) :=
  ⟨by decide +kernel, by decide +kernel⟩

/-- **The frame is stranded by a clear of interface 1**: its confirmation is refused. -/
theorem clear_strands_other_vif :
    Reach (queues.restrict Honest) inFlight ∧ Parked 0 ⟨7, 0x01000000⟩ (inFlight.txQueue 0) ∧
    ((inFlight.txQueue 0).pool 0).txpriv.ifId.toNat = 0 ∧
    (atbmQueueGetSkb 0x01000000 ((inFlight.step (sampleClear 1)).view 0)).2 = (eNoEnt, none) ∧
    (atbmQueueRemove sampleEnv 0x01000000 ((inFlight.step (sampleClear 1)).view 0)).2 = eNoEnt ∧
    ¬ StaysConfirmable 0 0 ⟨7, 0x01000000⟩ (inFlight.step (sampleClear 1)) := by
  have hret : (atbmQueueRemove sampleEnv 0x01000000 ((inFlight.step (sampleClear 1)).view 0)).2 = eNoEnt := by
    decide +kernel
  refine ⟨inFlight_reach, inFlight_parked, by decide +kernel, by decide +kernel, hret, fun h => ?_⟩
  have := ((h [] _ (.nil _)).2 sampleEnv).ret
  rw [hret] at this
  cases this

/-- Fifteen clears later the generation is back: the sixteenth leaves the frame confirmable. -/
def sixteenClears : TxQueues := inFlight.run (List.replicate 15 (sampleClear 1))

theorem sixteenClears_reach : Reach queues sixteenClears := by
  have clear : ∀ n s, Reach queues s → Reach queues (s.run (List.replicate n (sampleClear 1))) := by
    intro n
    induction n with
    | zero => exact fun _ h => h
    | succ n ih => exact fun s h => ih _ (.step h ⟨valid_of_vif (by decide) rfl (by simp), rfl⟩)
  exact clear 15 _ inFlight_reach.of_restrict

theorem clear_isolation_sixteen : StaysConfirmable 0 0 ⟨7, 0x01000000⟩ (sixteenClears.step (sampleClear 1)) :=
  (clear_isolation_iff sixteenClears_reach 0 sampleEnv (by decide) ⟨by decide +kernel, by decide +kernel⟩
    (by decide +kernel)).mpr (by decide +kernel)

end AtbmWifi
