import AtbmWifi.Queue.Isolation

/-!
# Packet ids that name no pending item

A packet id is stale when it is not the id of an item on the pending list: a
second confirmation, a frame already removed or expired, a slot put again, an
item still waiting.  The code does not look at the lists; it compares the queue
generation and the item generation in the id with the queue's and the slot's.
In every reachable state a stale id is refused by `atbm_queue_remove`,
`atbm_queue_requeue` and `atbm_queue_get_skb` exactly when one of the two
differs and the slot is not marked for the generic interface
(`stale_rejected_iff`); `atbm_queue_put` sets the item generation back to 0, so
an old id of a reused slot can match.  `failed_atomic_iff`: what the three
entries have changed when they return an error.
-/

namespace AtbmWifi

open Transition

/-- The id is not the one last issued for an item that is pending. -/
def Stale (q : AtbmQueue) (packetID : Nat) : Prop := ∀ k ∈ q.pending, (q.pool k).packetID ≠ packetID

structure SameFrames (s s' : TxQ) : Prop where
  freePool : s'.q.freePool = s.q.freePool
  queue : s'.q.queue = s.q.queue
  pending : s'.q.pending = s.q.pending
  skb : ∀ k, (s'.q.pool k).skb = (s.q.pool k).skb
  dtor : s'.dtor = s.dtor

/-- The three confirmation entries refuse the id and touch no frame. -/
structure Rejects (e : QEnv) (packetID : Nat) (s : TxQ) : Prop where
  getSkb : (atbmQueueGetSkb packetID s).2.1 ≠ 0 ∧ (atbmQueueGetSkb packetID s).2.2 = none
  getSkb_frames : SameFrames s (atbmQueueGetSkb packetID s).1
  remove : (atbmQueueRemove e packetID s).2 ≠ 0 ∧ SameFrames s (atbmQueueRemove e packetID s).1
  requeue : ∀ check, (atbmQueueRequeue e packetID check s).2 ≠ 0 ∧
    SameFrames s (atbmQueueRequeue e packetID check s).1

/-- One of the two generations in the id is not the current one. -/
def GenerationDiffers (q : AtbmQueue) (packetID : Nat) : Prop :=
  (atbmQueueParseId packetID).queueGeneration ≠ q.generation ∨
  (atbmQueueParseId packetID).itemGeneration ≠
    (q.pool (atbmQueueParseId packetID).itemId).generation.toNat

theorem SameFrames.of_q {s s' : TxQ} (hq : s'.q = s.q) (hd : s'.dtor = s.dtor) : SameFrames s s' :=
  ⟨by rw [hq], by rw [hq], by rw [hq], fun k => by rw [hq], hd⟩

theorem markGeneric_sameFrames (k : Nat) (s : TxQ) : SameFrames s (markGeneric k s) := by
  refine ⟨rfl, rfl, rfl, fun j => ?_, rfl⟩
  by_cases hj : j = k
  · subst hj
    simp [markGeneric, setItem]
  · simp [markGeneric, setItem, hj]

section
variable {q : AtbmQueue} {p : ParsedId} {ret : Int} {t : Option Trap}

theorem checkId_ret_ne (h : checkId q p = some (ret, t)) : ret ≠ 0 := by
  unfold checkId at h
  split at h
  · cases h
    decide
  split at h
  · cases h
    decide
  split at h
  · cases h
    decide
  · cases h

theorem checkId_ne_none_iff {packetID : Nat} (hcap : q.capacity = maxQueueSz) :
    checkId q (atbmQueueParseId packetID) ≠ none ↔ GenerationDiffers q packetID := by
  have hlt : ¬ q.capacity ≤ (atbmQueueParseId packetID).itemId := by
    have := field_lt 0 8 packetID
    rw [hcap]
    exact Nat.not_le_of_lt this
  unfold checkId GenerationDiffers
  rw [if_neg hlt]
  constructor
  · intro h
    by_contra hn
    rw [not_or, not_not, not_not] at hn
    exact h (by rw [if_neg (not_not.mpr hn.1), if_neg (not_not.mpr hn.2.symm)])
  · rintro (h | h)
    · rw [if_pos h]
      exact Option.some_ne_none _
    · split
      · exact Option.some_ne_none _
      · rw [if_pos h.symm]
        exact Option.some_ne_none _

end

section
variable {s : TxQ} {packetID : Nat} {ret : Int} {t : Option Trap}
  (h : checkId s.q (atbmQueueParseId packetID) = some (ret, t))
include h

theorem getSkb_rejected : (atbmQueueGetSkb packetID s).2 = (ret, none) ∧
    SameFrames s (atbmQueueGetSkb packetID s).1 := by
  unfold atbmQueueGetSkb
  simp only [trapIf_q, h]
  exact ⟨trivial, .of_q (by simp) (by simp)⟩

theorem remove_rejected (e : QEnv) : (atbmQueueRemove e packetID s).2 = ret ∧
    SameFrames s (atbmQueueRemove e packetID s).1 := by
  unfold atbmQueueRemove
  simp only [trapIf_q, h]
  exact ⟨trivial, .of_q (by simp) (by simp)⟩

theorem requeue_rejected (e : QEnv) (check : Bool) :
    (atbmQueueRequeue e packetID check s).2 = (if check = true ∧
      (s.q.pool (atbmQueueParseId packetID).itemId).txpriv.offchannelIfId = genericIfId then 0 else ret) ∧
    SameFrames s (atbmQueueRequeue e packetID check s).1 := by
  unfold atbmQueueRequeue
  simp only
  split
  · exact ⟨rfl, (remove_rejected h e).2⟩
  · cases check
    · simp only [Bool.false_eq_true, if_false, trapIf_q, markGeneric_checkId, h]
      have hm := markGeneric_sameFrames (atbmQueueParseId packetID).itemId s
      exact ⟨trivial, ⟨by simpa using hm.freePool, by simpa using hm.queue, by simpa using hm.pending,
        fun k => by simpa using hm.skb k, by simpa using hm.dtor⟩⟩
    · simp only [if_true, trapIf_q, h]
      exact ⟨trivial, .of_q (by simp) (by simp)⟩

end

/-- **Refused ids, exactly.**  In every reachable state the three confirmation
entries refuse an id, stale or not, and touch no frame iff a generation in the
id differs from the current one and the slot is not marked generic. -/
theorem stale_rejected_iff {s : TxQueues} (hr : Reach queues s) (c : Fin 4) (e : QEnv) (packetID : Nat) :
    Rejects e packetID (s.view c) ↔ GenerationDiffers (s.txQueue c) packetID ∧
      ((s.txQueue c).pool (atbmQueueParseId packetID).itemId).txpriv.offchannelIfId ≠ genericIfId := by
  have hcap : (s.txQueue c).capacity = maxQueueSz := (shape_reach hr c).capacity
  rw [← checkId_ne_none_iff hcap]
  constructor
  · intro hrej
    have hc : checkId (s.view c).q (atbmQueueParseId packetID) ≠ none := by
      intro hn
      refine hrej.getSkb.1 ?_
      unfold atbmQueueGetSkb
      simp only [trapIf_q, hn]
    refine ⟨hc, fun hg => ?_⟩
    obtain ⟨⟨ret, t⟩, hsome⟩ := Option.ne_none_iff_exists'.mp hc
    have := (requeue_rejected hsome e true).1
    rw [if_pos ⟨rfl, hg⟩] at this
    exact (hrej.requeue true).1 this
  · rintro ⟨hc, hg⟩
    obtain ⟨⟨ret, t⟩, hsome⟩ := Option.ne_none_iff_exists'.mp hc
    have hret := checkId_ret_ne hsome
    have hskb := getSkb_rejected (s := s.view c) hsome
    have hrem := remove_rejected (s := s.view c) hsome e
    refine ⟨⟨?_, ?_⟩, hskb.2, ⟨?_, hrem.2⟩, fun check => ?_⟩
    · rw [hskb.1]
      exact hret
    · rw [hskb.1]
    · rw [hrem.1]
      exact hret
    · have hreq := requeue_rejected (s := s.view c) hsome e check
      refine ⟨?_, hreq.2⟩
      rw [hreq.1, if_neg fun h => hg h.2]
      exact hret

/-- The frame of `inFlight` confirmed, and another put into its slot. -/
def reusedSlot : TxQueues := inFlight.run [sampleRemove 0x01000000, samplePut 8 0]

theorem reusedSlot_reach : Reach (queues.restrict Honest) reusedSlot := by
  refine Follows.reach ⟨⟨?_, ?_⟩, ⟨honest_of_noId rfl, ?_⟩, trivial⟩ inFlight_reach
  · rintro p ⟨⟩
    exact ⟨0, inFlight_parked.pending, _, inFlight_parked.skb, rfl⟩
  · exact valid_remove (by decide) (by decide)
  · exact valid_of_vif (by decide) rfl (by simp)

/-- **A second confirmation of the first frame frees the second one**, which was never sent. -/
theorem stale_id_accepted :
    Reach (queues.restrict Honest) reusedSlot ∧ Stale (reusedSlot.txQueue 0) 0x01000000 ∧
    (reusedSlot.txQueue 0).queue = [0] ∧ ((reusedSlot.txQueue 0).pool 0).skb = some ⟨8, 0⟩ ∧
    (atbmQueueRemove sampleEnv 0x01000000 (reusedSlot.view 0)).2 = 0 ∧
    (atbmQueueRemove sampleEnv 0x01000000 (reusedSlot.view 0)).1.q.queue = [] ∧
    ¬ Rejects sampleEnv 0x01000000 (reusedSlot.view 0) := by
  have hret : (atbmQueueRemove sampleEnv 0x01000000 (reusedSlot.view 0)).2 = 0 := by decide +kernel
  have hp : (reusedSlot.txQueue 0).pending = [] := by decide +kernel
  refine ⟨reusedSlot_reach, ?_, by decide +kernel, by decide +kernel, hret, by decide +kernel,
    fun h => h.remove.1 hret⟩
  intro k hk
  rw [hp] at hk
  cases hk

/-- Right after the removal the slot's generation is 1: the id of the frame is refused. -/
theorem stale_rejected_removed :
    Rejects sampleEnv 0x01000000 ((inFlight.step (sampleRemove 0x01000000)).view 0) := by
  have hv : Valid inFlight (sampleRemove 0x01000000) := valid_remove (by decide) (by decide)
  exact (stale_rejected_iff (.step inFlight_reach.of_restrict ⟨hv, rfl⟩) 0 sampleEnv _).mpr
    ⟨.inr (by decide +kernel), by decide +kernel⟩

/-- The queue and the shared statistics are what they were. -/
def Untouched (s s' : TxQ) : Prop := s'.q = s.q ∧ s'.stats = s.stats

/-- Each of the three entries, when it returns an error, has changed nothing. -/
structure FailsAtomically (e : QEnv) (packetID : Nat) (check : Bool) (s : TxQ) : Prop where
  requeue : (atbmQueueRequeue e packetID check s).2 ≠ 0 → Untouched s (atbmQueueRequeue e packetID check s).1
  remove : (atbmQueueRemove e packetID s).2 ≠ 0 → Untouched s (atbmQueueRemove e packetID s).1
  getSkb : (atbmQueueGetSkb packetID s).2.1 ≠ 0 → Untouched s (atbmQueueGetSkb packetID s).1

def Refused (q : AtbmQueue) (packetID : Nat) : Prop :=
  let p := atbmQueueParseId packetID
  p.queueGeneration ≠ q.generation ∨ q.capacity ≤ p.itemId ∨ p.itemGeneration ≠ (q.pool p.itemId).generation.toNat

@[simp] theorem trapOpt_stats (t : Option Trap) (s : TxQ) : (trapOpt t s).stats = s.stats := by
  cases t <;> simp [trapOpt]

theorem Untouched.trap (b : Bool) (x : Trap) (t : Option Trap) (s : TxQ) : Untouched s (trapOpt t (trapIf b x s)) :=
  ⟨by simp, by simp⟩

theorem refused_iff {q : AtbmQueue} {packetID : Nat} :
    Refused q packetID ↔ ∃ ret t, checkId q (atbmQueueParseId packetID) = some (ret, t) := by
  unfold Refused checkId
  dsimp only
  constructor
  · rintro (h | h | h)
    · exact ⟨_, _, if_pos h⟩
    · rw [if_pos h]
      split <;> exact ⟨_, _, rfl⟩
    · rw [if_pos h.symm]
      split
      · exact ⟨_, _, rfl⟩
      · split <;> exact ⟨_, _, rfl⟩
  · rintro ⟨ret, t, h⟩
    by_cases hg : (atbmQueueParseId packetID).queueGeneration = q.generation
    · by_cases hc : q.capacity ≤ (atbmQueueParseId packetID).itemId
      · exact .inr (.inl hc)
      · refine .inr (.inr fun hi => ?_)
        rw [if_neg (not_not.mpr hg), if_neg hc, if_neg (not_not.mpr hi.symm)] at h
        cases h
    · exact .inl hg

theorem remove_atomic (e : QEnv) {packetID : Nat} {s : TxQ} (h : (atbmQueueRemove e packetID s).2 ≠ 0) :
    Untouched s (atbmQueueRemove e packetID s).1 := by
  unfold atbmQueueRemove at h ⊢
  cases hc : checkId s.q (atbmQueueParseId packetID) with
  | none =>
    simp only [trapIf_q, hc] at h
    exact absurd rfl h
  | some r =>
    simp only [trapIf_q, hc]
    exact .trap _ _ _ s

theorem getSkb_atomic {packetID : Nat} {s : TxQ} (h : (atbmQueueGetSkb packetID s).2.1 ≠ 0) :
    Untouched s (atbmQueueGetSkb packetID s).1 := by
  unfold atbmQueueGetSkb at h ⊢
  cases hc : checkId s.q (atbmQueueParseId packetID) with
  | none =>
    simp only [trapIf_q, hc] at h
    exact absurd rfl h
  | some r =>
    simp only [trapIf_q, hc]
    exact .trap _ _ _ s

theorem requeue_check_atomic (e : QEnv) {packetID : Nat} {s : TxQ} (h : (atbmQueueRequeue e packetID true s).2 ≠ 0) :
    Untouched s (atbmQueueRequeue e packetID true s).1 := by
  unfold atbmQueueRequeue at h ⊢
  dsimp only at h ⊢
  split at h
  · exact absurd rfl h
  · next hg =>
    rw [if_neg hg]
    cases hc : checkId s.q (atbmQueueParseId packetID) with
    | none =>
      simp only [if_true, trapIf_q, hc] at h
      exact absurd rfl h
    | some r =>
      simp only [if_true, trapIf_q, hc]
      exact .trap _ _ _ s

theorem markGeneric_eq {k : Nat} {s : TxQ} (h : (s.q.pool k).txpriv.offchannelIfId = genericIfId) :
    markGeneric k s = s := by
  have hit : { s.q.pool k with txpriv := { (s.q.pool k).txpriv with offchannelIfId := genericIfId } } = s.q.pool k := by
    rw [← h]
  unfold markGeneric setItem
  dsimp only
  rw [hit, Function.update_eq_self]

theorem requeue_mark {packetID : Nat} {s : TxQ} {ret : Int} {t : Option Trap} (e : QEnv)
    (h : checkId s.q (atbmQueueParseId packetID) = some (ret, t)) :
    (atbmQueueRequeue e packetID false s).2 = ret ∧
      (atbmQueueRequeue e packetID false s).1.q = (markGeneric (atbmQueueParseId packetID).itemId s).q ∧
      (atbmQueueRequeue e packetID false s).1.stats = s.stats := by
  unfold atbmQueueRequeue
  simp only [Bool.false_eq_true, false_and, if_false, trapIf_q, markGeneric_checkId, h]
  exact ⟨trivial, by simp, by simp [markGeneric]⟩

/-- **Failed id operations, exactly.**  They change nothing, but that `atbm_queue_requeue` without `check` has
marked the slot of a refused id for the generic interface, if it was not so marked. -/
theorem failed_atomic_iff (e : QEnv) (packetID : Nat) (check : Bool) (s : TxQ) :
    FailsAtomically e packetID check s ↔
      (check = false → Refused s.q packetID →
        (s.q.pool (atbmQueueParseId packetID).itemId).txpriv.offchannelIfId = genericIfId) := by
  constructor
  · rintro h rfl hr
    obtain ⟨ret, t, hc⟩ := refused_iff.mp hr
    obtain ⟨hret, hq, -⟩ := requeue_mark e hc
    have hsame := (h.requeue (by rw [hret]; exact checkId_ret_ne hc)).1
    rw [hq] at hsame
    have hpool := congrArg (fun q => (q.pool (atbmQueueParseId packetID).itemId).txpriv.offchannelIfId) hsame
    simpa [markGeneric, setItem] using hpool.symm
  · intro h
    refine ⟨fun hret => ?_, remove_atomic e, getSkb_atomic⟩
    cases check with
    | true => exact requeue_check_atomic e hret
    | false =>
      by_cases hr : Refused s.q packetID
      · obtain ⟨ret, t, hc⟩ := refused_iff.mp hr
        obtain ⟨-, hq, hs⟩ := requeue_mark e hc
        rw [markGeneric_eq (h rfl hr)] at hq
        exact ⟨hq, hs⟩
      · -- an accepted id is no failure
        refine absurd ?_ hret
        have hc : checkId s.q (atbmQueueParseId packetID) = none := by
          cases hc : checkId s.q (atbmQueueParseId packetID) with
          | none => rfl
          | some r => exact absurd (refused_iff.mpr ⟨r.1, r.2, hc⟩) hr
        unfold atbmQueueRequeue
        simp only [Bool.false_eq_true, false_and, if_false, trapIf_q, markGeneric_checkId, hc]

/-- **An id of another generation of the slot, requeued without `check`**: refused, and the frame that has the
slot now, which waits, is marked. -/
theorem refused_requeue_marks :
    (atbmQueueParseId 0x01000100).queueId = (reusedSlot.txQueue 0).queueId ∧
    (atbmQueueRequeue sampleEnv 0x01000100 false (reusedSlot.view 0)).2 = eNoEnt ∧
    ((reusedSlot.txQueue 0).pool 0).txpriv.offchannelIfId = 0 ∧
    ((atbmQueueRequeue sampleEnv 0x01000100 false (reusedSlot.view 0)).1.q.pool 0).txpriv.offchannelIfId = genericIfId ∧
    ¬ FailsAtomically sampleEnv 0x01000100 false (reusedSlot.view 0) := by
  have hq : (atbmQueueParseId 0x01000100).queueId = (reusedSlot.txQueue 0).queueId := by decide +kernel
  have hret : (atbmQueueRequeue sampleEnv 0x01000100 false (reusedSlot.view 0)).2 = eNoEnt := by decide +kernel
  have hwas : ((reusedSlot.txQueue 0).pool 0).txpriv.offchannelIfId = 0 := by decide +kernel
  have his : ((atbmQueueRequeue sampleEnv 0x01000100 false (reusedSlot.view 0)).1.q.pool 0).txpriv.offchannelIfId =
      genericIfId := by decide +kernel
  refine ⟨hq, hret, hwas, his, fun h => ?_⟩
  have hsame := (h.requeue (by rw [hret]; decide)).1
  rw [hsame] at his
  have hwas' : (((reusedSlot.view 0).q).pool 0).txpriv.offchannelIfId = 0 := hwas
  rw [hwas'] at his
  exact absurd his (by decide)

end AtbmWifi
