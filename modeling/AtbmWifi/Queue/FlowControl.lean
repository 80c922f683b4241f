import AtbmWifi.Queue.StaleId

/-!
# Stopping and waking an interface

`tx_locked_cnt[i]` counts the external locks of an interface and its own
overfull lock; the mac80211 queue is stopped while it is positive.

An id accepted under another interface counts that interface's frames down past
zero; they can then reach zero with the flag set and the timer disarmed
(`overfull_lost`).
-/

namespace AtbmWifi

open Relation Transition

/-- `s'` differs from `s` in nothing the locks look at. -/
structure FlowSame (s s' : TxQ) : Prop where
  cnt : s'.q.txLockedCnt = s.q.txLockedCnt
  overfull : s'.q.overfull = s.q.overfull
  queueId : s'.q.queueId = s.q.queueId
  stopped : s'.driverStopped = s.driverStopped
  bugs : ∀ t ∈ s'.traps, t.lock = true → t ∈ s.traps

theorem FlowSame.refl (s : TxQ) : FlowSame s s := ⟨rfl, rfl, rfl, rfl, fun _ h _ => h⟩

theorem FlowSame.trans {s t u : TxQ} (h : FlowSame s t) (h' : FlowSame t u) : FlowSame s u :=
  ⟨h'.cnt.trans h.cnt, h'.overfull.trans h.overfull, h'.queueId.trans h.queueId,
    h'.stopped.trans h.stopped, fun x hx hl => h.bugs x (h'.bugs x hx hl) hl⟩

theorem flowSame_trap (b : Bool) {t : Trap} (ht : t.lock = false) (s : TxQ) :
    FlowSame s (trapIf b t s) := by
  refine ⟨by simp, by simp, by simp, ?_, fun x hx hl => ?_⟩
  · unfold trapIf
    split <;> rfl
  · rcases (mem_trapIf_traps b t x s).mp hx with ⟨-, rfl⟩ | hx
    · rw [ht] at hl
      cases hl
    · exact hx

theorem flowSame_trapOpt {q : AtbmQueue} {p : ParsedId} {ret : Int} {t : Option Trap}
    (h : checkId q p = some (ret, t)) (s : TxQ) : FlowSame s (trapOpt t s) := by
  cases t with
  | none => exact .refl s
  | some x =>
    refine flowSame_trap true ?_ s
    unfold checkId at h
    split at h
    · cases h
    split at h
    · cases h; rfl
    split at h
    · cases h; rfl
    · cases h

theorem flowSame_wakeIf (b : Bool) (s : TxQ) : FlowSame s (wakeIf b s) := by
  unfold wakeIf
  split
  · exact ⟨rfl, rfl, rfl, rfl, fun _ h _ => h⟩
  · exact .refl s

theorem flowSame_destroySkb (it : AtbmQueueItem) (s : TxQ) : FlowSame s (destroySkb it s) := by
  unfold destroySkb
  split
  · exact ⟨rfl, rfl, rfl, rfl, fun _ h _ => h⟩
  · exact .refl s

theorem flowSame_setGc (i : Nat) (tmo : Option Int) (s : TxQ) : FlowSame s (setGc i tmo s) :=
  ⟨rfl, rfl, rfl, rfl, fun _ h _ => h⟩

theorem flowSame_gcItem (k : Nat) (s : TxQ) : FlowSame s (gcItem k s) :=
  ⟨rfl, rfl, rfl, rfl, fun _ h _ => h⟩

theorem flowSame_gcLoop (e : QEnv) (i : Nat) (ks : List Nat) (loop : Nat) (wake : Bool) (s : TxQ) :
    FlowSame s (gcLoop e i ks loop wake s).1 := by
  induction ks generalizing loop wake s with
  | nil => exact .refl s
  | cons k ks ih =>
    have h1 := flowSame_trap (decide (loop + 1 > 300)) (t := .gcLoop) rfl s
    unfold gcLoop
    simp only
    split
    · exact h1.trans (ih _ _ _)
    split
    · exact h1
    · exact (h1.trans (flowSame_gcItem k _)).trans (ih _ _ _)

theorem flowSame_clearLists (ifId : Int) (s : TxQ) : FlowSame s (clearLists ifId s) := by
  have h1 := (flowSame_trap (decide (((s.q.pending.filter (cleared s.q ifId)).length : Int) > s.q.numPending))
    (t := .clearPending) rfl s).trans (flowSame_trap (decide ((((s.q.pending.filter
      (cleared s.q ifId)).length + (s.q.queue.filter (cleared s.q ifId)).length : Nat) : Int) > s.q.numQueued))
      (t := .clearQueued) rfl _)
  exact ⟨rfl, rfl, rfl, h1.stopped, h1.bugs⟩

theorem flowSame_clearVif (i : Nat) (s : TxQ) : FlowSame s (clearVif i s) :=
  ⟨rfl, rfl, rfl, rfl, fun _ h _ => h⟩

/-- mac80211 is stopped for an interface of queue `c` exactly when its count is
positive; the other queues' stops are as in `O`. -/
structure Stops (O : Nat → Bool) (c : Fin 4) (s : TxQ) : Prop where
  queueId : s.q.queueId = c
  nonneg : ∀ i, 0 ≤ s.q.txLockedCnt i
  stopped : ∀ i, i < maxVifs → (s.driverStopped (c + 4 * i) = true ↔ 0 < s.q.txLockedCnt i)
  elsewhere : ∀ c' : Fin 4, c' ≠ c → ∀ i, s.driverStopped (c' + 4 * i) = O (c' + 4 * i)
  bugs : ∀ t ∈ s.traps, t.lock = false

/-- `Stops`, the count being `ext` external locks and the overfull flag. -/
structure Balanced (O : Nat → Bool) (c : Fin 4) (ext : Nat → Nat) (s : TxQ) : Prop extends Stops O c s where
  cnt : ∀ i, s.q.txLockedCnt i = ext i + if s.q.overfull i = true then 1 else 0

section
variable {O : Nat → Bool} {c : Fin 4} {ext : Nat → Nat} {s s' : TxQ}

theorem Stops.same (h : Stops O c s) (hs : FlowSame s s') : Stops O c s' := by
  refine ⟨hs.queueId.trans h.queueId, ?_, ?_, ?_, fun t ht => ?_⟩
  · rw [hs.cnt]
    exact h.nonneg
  · rw [hs.cnt, hs.stopped]
    exact h.stopped
  · rw [hs.stopped]
    exact h.elsewhere
  · cases hl : t.lock
    · rfl
    · rw [h.bugs t (hs.bugs t ht hl)] at hl
      cases hl

theorem Balanced.same (h : Balanced O c ext s) (hs : FlowSame s s') : Balanced O c ext s' :=
  ⟨h.toStops.same hs, by rw [hs.cnt, hs.overfull]; exact h.cnt⟩

theorem stopIndex_ne {c c' : Fin 4} (h : c' ≠ c) (i j : Nat) : (c' : Nat) + 4 * i ≠ c + 4 * j := by
  have := c.isLt
  have := c'.isLt
  have : (c' : Nat) ≠ c := fun hc => h (Fin.ext hc)
  omega

variable {i : Nat}

theorem stopIndex_lt (hi : i < maxVifs) : ¬ (c : Nat) + 4 * i ≥ hwQueues := by
  have := c.isLt
  unfold maxVifs at hi
  unfold hwQueues
  omega

theorem lock_spec (e : QEnv) (hi : i < maxVifs) (h : Stops O c s) : Stops O c (atbmQueueLockCore e i s) ∧
    (atbmQueueLockCore e i s).q.txLockedCnt = bump s.q.txLockedCnt i 1 ∧
    (atbmQueueLockCore e i s).q.overfull = s.q.overfull := by
  have hlt := stopIndex_lt (c := c) hi
  have hnn : ∀ j, 0 ≤ bump s.q.txLockedCnt i 1 j := by
    intro j
    rw [bump_apply]
    have := h.nonneg j
    split <;> omega
  unfold atbmQueueLockCore
  rw [h.queueId]
  split
  · rename_i h0
    unfold ieee80211StopQueue
    rw [if_neg hlt]
    refine ⟨⟨h.queueId, hnn, fun j hj => ?_, fun c' hc j => ?_, h.bugs⟩, rfl, rfl⟩
    case refine_2 => exact (Function.update_of_ne (stopIndex_ne hc j i) _ _).trans (h.elsewhere c' hc j)
    show Function.update s.driverStopped _ true _ = true ↔ 0 < bump s.q.txLockedCnt i 1 j
    rw [bump_apply]
    by_cases hij : i = j
    · subst hij
      have := h.nonneg i
      simp
      omega
    · have hne : (c : Nat) + 4 * j ≠ c + 4 * i := by omega
      rw [Function.update_of_ne hne, h.stopped j hj]
      simp [hij]
  · rename_i h0
    have hstop : s.driverStopped (c + 4 * i) = true := by
      rw [h.stopped i hi]
      have := h.nonneg i
      omega
    have hq : ieee80211QueueStopped e
        { s with q := { s.q with txLockedCnt := bump s.q.txLockedCnt i 1 } } (c + 4 * i) = true := by
      unfold ieee80211QueueStopped
      rw [if_neg hlt]
      simp [hstop]
    unfold trapIf
    simp only [hq, Bool.not_true, Bool.false_eq_true, if_false]
    refine ⟨⟨h.queueId, hnn, fun j hj => ?_, h.elsewhere, h.bugs⟩, trivial, trivial⟩
    show s.driverStopped _ = true ↔ 0 < bump s.q.txLockedCnt i 1 j
    rw [bump_apply, h.stopped j hj]
    have := h.nonneg j
    by_cases hij : i = j
    · subst hij
      simp
      omega
    · simp [hij]

theorem unlock_spec (hi : i < maxVifs) (h : Stops O c s) (hpos : 0 < s.q.txLockedCnt i) :
    Stops O c (atbmQueueUnlockCore i s) ∧
    (atbmQueueUnlockCore i s).q.txLockedCnt = bump s.q.txLockedCnt i (-1) ∧
    (atbmQueueUnlockCore i s).q.overfull = s.q.overfull := by
  have hlt := stopIndex_lt (c := c) hi
  have hz : (s.q.txLockedCnt i == 0) = false := by simpa using hpos.ne'
  have hnn : ∀ j, 0 ≤ bump s.q.txLockedCnt i (-1) j := by
    intro j
    rw [bump_apply]
    have := h.nonneg j
    split
    · rename_i hij
      subst hij
      omega
    · omega
  unfold atbmQueueUnlockCore trapIf
  simp only [hz, Bool.false_eq_true, if_false, h.queueId]
  split
  · rename_i h0
    unfold ieee80211WakeQueue
    rw [if_neg hlt]
    refine ⟨⟨rfl, hnn, fun j hj => ?_, fun c' hc j => ?_, h.bugs⟩, rfl, rfl⟩
    case refine_2 => exact (Function.update_of_ne (stopIndex_ne hc j i) _ _).trans (h.elsewhere c' hc j)
    show Function.update s.driverStopped _ false _ = true ↔ 0 < bump s.q.txLockedCnt i (-1) j
    by_cases hij : i = j
    · subst hij
      simp [h0]
    · have hne : (c : Nat) + 4 * j ≠ c + 4 * i := by omega
      rw [Function.update_of_ne hne, h.stopped j hj, bump_apply]
      simp [hij]
  · rename_i h0
    refine ⟨⟨rfl, hnn, fun j hj => ?_, h.elsewhere, h.bugs⟩, rfl, rfl⟩
    show s.driverStopped _ = true ↔ 0 < bump s.q.txLockedCnt i (-1) j
    rw [h.stopped j hj]
    by_cases hij : i = j
    · subst hij
      have := hnn i
      omega
    · simp [bump_apply, hij]

theorem Balanced.lock (e : QEnv) (hi : i < maxVifs) (h : Balanced O c ext s) :
    Balanced O c (Function.update ext i (ext i + 1)) (atbmQueueLockCore e i s) := by
  obtain ⟨hS, hc, ho⟩ := lock_spec e hi h.toStops
  refine ⟨hS, fun j => ?_⟩
  rw [hc, ho, bump_apply, h.cnt j]
  by_cases hij : i = j
  · subst hij
    simp
    omega
  · simp [hij, Ne.symm hij]

theorem Balanced.unlock (hi : i < maxVifs) (hpos : 0 < ext i) (h : Balanced O c ext s) :
    Balanced O c (Function.update ext i (ext i - 1)) (atbmQueueUnlockCore i s) := by
  have hci := h.cnt i
  have hp : 0 < s.q.txLockedCnt i := by
    rw [hci]
    split <;> omega
  obtain ⟨hS, hc, ho⟩ := unlock_spec hi h.toStops hp
  refine ⟨hS, fun j => ?_⟩
  rw [hc, ho, bump_apply, h.cnt j]
  by_cases hij : i = j
  · subst hij
    simp
    omega
  · simp [hij, Ne.symm hij]

theorem Balanced.clearOverfull (hi : i < maxVifs) (ho : s.q.overfull i = true)
    (h : Balanced O c ext s) : Balanced O c ext (clearOverfull i s) := by
  have hS : Stops O c (setOverfull i false s) := ⟨h.queueId, h.nonneg, h.stopped, h.elsewhere, h.bugs⟩
  have hp : 0 < (setOverfull i false s).q.txLockedCnt i := by
    show 0 < s.q.txLockedCnt i
    rw [h.cnt i, if_pos ho]
    omega
  obtain ⟨hS', hc, ho'⟩ := unlock_spec hi hS hp
  refine ⟨hS', fun j => ?_⟩
  show (atbmQueueUnlockCore i (setOverfull i false s)).q.txLockedCnt j =
    ext j + if (atbmQueueUnlockCore i (setOverfull i false s)).q.overfull j = true then 1 else 0
  rw [hc, ho', bump_apply]
  show s.q.txLockedCnt j + _ = ext j + if Function.update s.q.overfull i false j = true then 1 else 0
  rw [h.cnt j]
  by_cases hij : i = j
  · subst hij
    simp [ho]
  · simp [hij, Ne.symm hij]

theorem Balanced.releaseOverfull (e : QEnv) (hi : i < maxVifs) (h : Balanced O c ext s) :
    Balanced O c ext (releaseOverfull e i s) := by
  unfold AtbmWifi.releaseOverfull
  split
  · rename_i ho
    exact h.clearOverfull hi ho.1
  · exact h

theorem Balanced.clearOverfullIf (hi : i < maxVifs) (h : Balanced O c ext s) :
    Balanced O c ext (clearOverfullIf i s) := by
  unfold AtbmWifi.clearOverfullIf
  split
  · exact h.clearOverfull hi ‹_›
  · exact h

theorem Balanced.putOverfull (e : QEnv) (hi : i < maxVifs) (h : Balanced O c ext s) :
    Balanced O c ext (putOverfull e i s) := by
  unfold AtbmWifi.putOverfull
  split
  · rename_i ho
    have hS : Stops O c (setOverfull i true s) := ⟨h.queueId, h.nonneg, h.stopped, h.elsewhere, h.bugs⟩
    obtain ⟨hS', hc, ho'⟩ := lock_spec e hi hS
    have hB : Balanced O c ext (atbmQueueLockCore e i (setOverfull i true s)) := by
      refine ⟨hS', fun j => ?_⟩
      rw [hc, ho', bump_apply]
      show s.q.txLockedCnt j + _ = ext j + if Function.update s.q.overfull i true j = true then 1 else 0
      rw [h.cnt j]
      by_cases hij : i = j
      · subst hij
        simp [ho.1]
      · simp [hij, Ne.symm hij]
    exact hB.same (flowSame_setGc i _ _)
  · exact h

theorem Balanced.put (e : QEnv) (skb : SkBuff) {t : AtbmTxpriv} (ht : t.ifId.toNat < maxVifs)
    (h : Balanced O c ext s) : Balanced O c ext (atbmQueuePut e skb t s).1 := by
  unfold atbmQueuePut
  split
  · exact h
  split
  · exact h.same (flowSame_trap true (t := .freePoolEmpty) rfl s)
  · rename_i k _ _
    have h1 := h.same (flowSame_trap (s.q.pool k).skb.isSome (t := .itemSkb) rfl s)
    have h2 : Balanced O c ext (putItem e skb t k (trapIf (s.q.pool k).skb.isSome .itemSkb s)) :=
      h1.same ⟨rfl, rfl, rfl, rfl, fun _ h _ => h⟩
    exact h2.putOverfull e ht

theorem Balanced.get (e : QEnv) (ifId linkIdMap : Nat) (h : Balanced O c ext s) :
    Balanced O c ext (atbmQueueGet e ifId linkIdMap s).1 := by
  unfold atbmQueueGet
  split
  · exact h.same (flowSame_trap true (t := .getNone) rfl s)
  · rename_i k _
    have h1 : Balanced O c ext (getItem e k s) := h.same ⟨rfl, rfl, rfl, rfl, fun _ h _ => h⟩
    exact h1.same (flowSame_wakeIf _ _)

theorem Balanced.remove (e : QEnv) {packetID : Nat} (hi : (atbmQueueParseId packetID).ifId < maxVifs)
    (h : Balanced O c ext s) : Balanced O c ext (atbmQueueRemove e packetID s).1 := by
  have h1 := h.same (flowSame_trap ((atbmQueueParseId packetID).queueId != s.q.queueId) (t := .queueId) rfl s)
  unfold atbmQueueRemove
  simp only
  split
  · exact h1.same (flowSame_trapOpt ‹_› _)
  · have h2 : Balanced O c ext (freeItem (atbmQueueParseId packetID)
        (trapIf ((atbmQueueParseId packetID).queueId != s.q.queueId) .queueId s)) :=
      h1.same ⟨rfl, rfl, rfl, rfl, fun _ h _ => h⟩
    exact (h2.releaseOverfull e hi).same (flowSame_destroySkb _ _)

theorem Balanced.requeue (e : QEnv) {packetID : Nat} (check : Bool)
    (hi : (atbmQueueParseId packetID).ifId < maxVifs) (h : Balanced O c ext s) :
    Balanced O c ext (atbmQueueRequeue e packetID check s).1 := by
  unfold atbmQueueRequeue
  simp only
  split
  · exact h.remove e hi
  · have h1 : Balanced O c ext (if check then s else markGeneric (atbmQueueParseId packetID).itemId s) := by
      cases check
      · exact h.same ⟨rfl, rfl, rfl, rfl, fun _ h _ => h⟩
      · exact h
    have h2 := h1.same (flowSame_trap ((atbmQueueParseId packetID).queueId !=
      (if check then s else markGeneric (atbmQueueParseId packetID).itemId s).q.queueId) (t := .queueId) rfl _)
    split
    · exact h2.same (flowSame_trapOpt ‹_› _)
    · exact h2.same ⟨rfl, rfl, rfl, rfl, fun _ h _ => h⟩

theorem Balanced.gc (e : QEnv) (hi : i < maxVifs) (h : Balanced O c ext s) : Balanced O c ext (atbmQueueGc e i s) := by
  unfold atbmQueueGc atbmQueueGcCore
  simp only
  have h1 := h.same (flowSame_setGc i none s)
  have h2 := h1.same (flowSame_gcLoop e i (setGc i none s).q.queue 0 false _)
  have h3 := h2.same (flowSame_wakeIf (gcLoop e i (setGc i none s).q.queue 0 false (setGc i none s)).2.1 _)
  split
  · rename_i ho
    split
    · exact h3.clearOverfull hi ho
    · split
      · exact h3.same (flowSame_setGc _ _ _)
      · exact h3
  · exact h3

theorem Balanced.clear {ifId : Int} (hi : ifId = allIfs ∨ ifId = 0 ∨ ifId = 1) (h : Balanced O c ext s) :
    Balanced O c ext (atbmQueueClear ifId s).1 := by
  have h1 := h.same (flowSame_clearLists ifId s)
  unfold atbmQueueClear
  simp only
  refine Balanced.same ?_ (flowSame_wakeIf true _)
  rcases hi with rfl | rfl | rfl
  · rw [if_pos rfl]
    have h2 := (h1.same (flowSame_clearVif 0 _)).same (flowSame_clearVif 1 _)
    exact (h2.clearOverfullIf (i := 0) (by decide)).clearOverfullIf (i := 1) (by decide)
  · rw [if_neg (by decide)]
    exact (h1.same (flowSame_clearVif 0 _)).clearOverfullIf (by decide)
  · rw [if_neg (by decide)]
    exact (h1.same (flowSame_clearVif 1 _)).clearOverfullIf (by decide)

theorem Balanced.run (e : QEnv) (op : QOp) (hv : op.vifOk)
    (hid : ∀ p ∈ op.id, (atbmQueueParseId p).ifId < maxVifs) (hu : ∀ i, op = .unlock i → 0 < ext i)
    (h : Balanced O c ext s) : Balanced O c (op.locks ext) (op.run e s) := by
  cases op with
  | put skb t => exact h.put e skb hv
  | get ifId m => exact h.get e ifId m
  | requeue p check => exact h.requeue e check (hid p rfl)
  | remove p => exact h.remove e (hid p rfl)
  | gc i => exact h.gc e hv
  | clear i => exact h.clear hv
  | lock i => exact h.lock e hv
  | unlock i => exact h.unlock hv (hu i rfl)

end

structure FlowBalanced (s : TxQueues) : Prop where
  cnt : ∀ c i, (s.txQueue c).txLockedCnt i =
    s.extLocks c i + if (s.txQueue c).overfull i = true then 1 else 0
  stopped : ∀ (c : Fin 4) i, i < maxVifs →
    (s.driverStopped (c + 4 * i) = true ↔ 0 < (s.txQueue c).txLockedCnt i)
  bugs : ∀ t ∈ s.traps, t.lock = false

theorem FlowBalanced.step {s : TxQueues} {ev : QEvent} (hs : ∀ c, Shape c (s.view c)) (hv : Valid s ev)
    (h : FlowBalanced s) : FlowBalanced (s.step ev) := by
  have before : Balanced s.driverStopped ev.c (s.extLocks ev.c) (s.view ev.c) := by
    refine ⟨⟨(hs ev.c).queueId, fun i => ?_, h.stopped ev.c, fun _ _ _ => rfl, h.bugs⟩, h.cnt ev.c⟩
    rw [TxQueues.view_q, h.cnt]
    split <;> omega
  have after := before.run ev.env ev.op hv.vif hv.idVif hv.unlock
  have hself := s.step_txQueue_self ev
  have hext : (s.step ev).extLocks ev.c = ev.op.locks (s.extLocks ev.c) := by simp [TxQueues.step]
  refine ⟨fun c i => ?_, fun c i hi => ?_, after.bugs⟩
  · by_cases hc : c = ev.c
    · subst hc
      rw [hself, hext]
      exact after.cnt i
    · have : (s.step ev).extLocks c = s.extLocks c := by simp [TxQueues.step, hc]
      rw [s.step_txQueue_other ev hc, this]
      exact h.cnt c i
  · by_cases hc : c = ev.c
    · subst hc
      rw [hself]
      exact after.stopped i hi
    · have hstop : (s.step ev).driverStopped (c + 4 * i) = s.driverStopped (c + 4 * i) :=
        after.elsewhere c hc i
      rw [s.step_txQueue_other ev hc, hstop]
      exact h.stopped c i hi

/-- **Locks balance**, whatever ids were confirmed. -/
theorem flow_balance {s : TxQueues} (h : Reach queues s) : FlowBalanced s := by
  refine h.invariant_of (J := fun s => ∀ c, Shape c (s.view c)) (fun s hs => shape_reach hs) ?_ ?_
  · rintro s ⟨ttl, rfl⟩
    refine ⟨fun c i => rfl, fun c i _ => ?_, fun t ht => by cases ht⟩
    simp [TxQueues.start, atbmQueueInit]
  · rintro s ev t hs h ⟨hv, rfl⟩
    exact h.step hs hv

/-- The id names an item the queue holds, under the item's interface. -/
def NamesBusy (q : AtbmQueue) (p : ParsedId) : Prop :=
  Busy q p.itemId ∧ p.ifId = (q.pool p.itemId).txpriv.ifId.toNat

/-- Every id the queue accepts names an item it holds, under the item's interface. -/
def Tracks (s : TxQueues) (ev : QEvent) : Prop :=
  ∀ p ∈ ev.op.id, checkId (s.txQueue ev.c) (atbmQueueParseId p) = none →
    NamesBusy (s.txQueue ev.c) (atbmQueueParseId p)

theorem VifCounted.move {c : Fin 4} {s s' : TxQ} {e : QEnv} (h : VifCounted c s)
    (hm : Move NamesBusy True e s s') : VifCounted c s' := by
  have hS := h.toShape.move hm
  cases hm with
  | flow hf => exact h.flow hf
  | put skb t k hk hl hi => exact h.put e skb t hk hl hi
  | get k hk => exact h.get e hk
  | free p hc hp => exact h.free hc hp.1 hp.2
  | mark k => exact h.mark k
  | requeue p check hc hq hi hp =>
    cases check with
    | true => exact h.requeue hc hq hi hp.1
    | false => exact (h.mark p.itemId).requeue ((markGeneric_checkId _ _ _).trans hc) hq hi hp.1
  | expire k hk => exact h.expire hk
  | clear i _ _ => exact (clearedBy_vif s i).vifCounted h hS
  | clearAll _ => exact (clearedBy_all s h.vif).vifCounted h hS

/-- Interfaces other than those in `V`, if overfull, have frames counted. -/
def LiveBut (V : Nat → Prop) (s : TxQ) : Prop :=
  ∀ i, ¬ V i → s.q.overfull i = true → 0 < s.q.numQueuedVif i

/-- Every overfull interface has frames counted. -/
def Live (s : TxQ) : Prop := ∀ i, s.q.overfull i = true → 0 < s.q.numQueuedVif i

section
variable {s s' : TxQ} {V : Nat → Prop}

theorem lock_overfull (e : QEnv) (i : Nat) (s : TxQ) : (atbmQueueLockCore e i s).q.overfull = s.q.overfull := by
  unfold atbmQueueLockCore
  split <;> simp

theorem unlock_overfull (i : Nat) (s : TxQ) : (atbmQueueUnlockCore i s).q.overfull = s.q.overfull := by
  unfold atbmQueueUnlockCore
  simp only
  split <;> simp

theorem FlowOnly.numQueuedVif (h : FlowOnly s s') : s'.q.numQueuedVif = s.q.numQueuedVif := by
  obtain ⟨l, o, g, b, hq⟩ := h.fields
  rw [hq]

theorem clearOverfull_overfull (i : Nat) (s : TxQ) :
    (clearOverfull i s).q.overfull = Function.update s.q.overfull i false := by
  unfold clearOverfull
  rw [unlock_overfull]
  rfl

theorem Live.but (h : Live s) (ho : s'.q.overfull = s.q.overfull)
    (hn : ∀ i, ¬ V i → s'.q.numQueuedVif i = s.q.numQueuedVif i) : LiveBut V s' := by
  intro i hi hov
  rw [hn i hi]
  exact h i (ho ▸ hov)

theorem LiveBut.live (h : LiveBut V s) (hV : ∀ i, ¬ V i) : Live s := fun i hi => h i (hV i) hi

theorem LiveBut.clearOverfullIf (i : Nat) (h : LiveBut V s) :
    LiveBut (fun j => V j ∧ j ≠ i) (clearOverfullIf i s) := by
  have hn := (flowOnly_clearOverfullIf i s).numQueuedVif
  intro j hVj hj
  rw [hn]
  unfold AtbmWifi.clearOverfullIf at hj
  split at hj
  · rw [clearOverfull_overfull] at hj
    have hji : j ≠ i := by
      rintro rfl
      simp at hj
    rw [Function.update_of_ne hji] at hj
    exact h j (fun hv => hVj ⟨hv, hji⟩) hj
  · rename_i ho
    have hji : j ≠ i := by
      rintro rfl
      exact ho hj
    exact h j (fun hv => hVj ⟨hv, hji⟩) hj

theorem releaseLevel_nonneg (e : QEnv) (q : AtbmQueue) (i : Nat) : 0 ≤ releaseLevel e q i := by
  unfold releaseLevel
  split <;> omega

theorem LiveBut.releaseOverfull (e : QEnv) {i : Nat} (h : LiveBut (· = i) s) :
    Live (releaseOverfull e i s) := by
  have hn := (flowOnly_releaseOverfull e i s).numQueuedVif
  have hl := releaseLevel_nonneg e s.q i
  intro j hj
  rw [hn]
  unfold AtbmWifi.releaseOverfull at hj
  split at hj
  · rw [clearOverfull_overfull] at hj
    have hji : j ≠ i := by
      rintro rfl
      simp at hj
    rw [Function.update_of_ne hji] at hj
    exact h j hji hj
  · rename_i hnot
    by_cases hji : j = i
    · subst hji
      have : ¬ s.q.numQueuedVif j ≤ releaseLevel e s.q j := fun hle => hnot ⟨hj, hle⟩
      omega
    · exact h j hji hj

theorem Live.same (h : Live s) (ho : s'.q.overfull = s.q.overfull)
    (hn : s'.q.numQueuedVif = s.q.numQueuedVif) : Live s' := by
  intro i hi
  rw [hn]
  exact h i (ho ▸ hi)

theorem LiveBut.putOverfull (e : QEnv) {i : Nat} (h : LiveBut (· = i) s) (hi : 0 < s.q.numQueuedVif i) :
    Live (putOverfull e i s) := by
  have hn := (flowOnly_putOverfull e i s).numQueuedVif
  intro j hj
  rw [hn]
  by_cases hji : j = i
  · rw [hji]
    exact hi
  · refine h j hji ?_
    unfold AtbmWifi.putOverfull at hj
    split at hj
    · have hov : (setGc i (some e.jiffies) (atbmQueueLockCore e i (setOverfull i true s))).q.overfull =
          Function.update s.q.overfull i true := lock_overfull e i _
      rwa [hov, Function.update_of_ne hji] at hj
    · exact hj

theorem Live.put {c : Fin 4} (e : QEnv) (skb : SkBuff) (t : AtbmTxpriv) (hc : VifCounted c s) (h : Live s) :
    Live (atbmQueuePut e skb t s).1 := by
  unfold atbmQueuePut
  split
  · exact h
  split
  · exact h.same (by simp) (by simp)
  · rename_i k _ _
    have hle := hc.countP_le (ofVif s.q t.ifId.toNat)
    have hcnt := hc.numQueuedVif t.ifId.toNat
    have hput : (putItem e skb t k (trapIf (s.q.pool k).skb.isSome .itemSkb s)).q.numQueuedVif =
        bump32 s.q.numQueuedVif t.ifId.toNat 1 := by simp [putItem]
    refine LiveBut.putOverfull e (h.but (by simp [putItem]) fun i hi => ?_) ?_
    · rw [hput, bump32_apply (by omega) (by omega), if_neg (Ne.symm hi)]
      omega
    · rw [hput, bump32_apply (by omega) (by omega), if_pos rfl]
      omega

theorem Live.get (e : QEnv) (ifId linkIdMap : Nat) (h : Live s) : Live (atbmQueueGet e ifId linkIdMap s).1 := by
  unfold atbmQueueGet
  split
  · exact h.same (by simp) (by simp)
  · exact h.same (by simp [getItem]) (by simp [getItem])

theorem Live.remove (e : QEnv) (packetID : Nat) (h : Live s) : Live (atbmQueueRemove e packetID s).1 := by
  unfold atbmQueueRemove
  simp only
  split
  · exact h.same (by simp) (by simp)
  · have hb : LiveBut (· = (atbmQueueParseId packetID).ifId) (freeItem (atbmQueueParseId packetID)
        (trapIf ((atbmQueueParseId packetID).queueId != s.q.queueId) .queueId s)) := by
      refine h.but (by simp [freeItem, unlinkItem]) fun i hi => ?_
      simp [freeItem, bump32, hi]
    exact (hb.releaseOverfull e).same (flowSame_destroySkb _ _).overfull (flowOnly_destroySkb _ _).numQueuedVif

theorem Live.requeue (e : QEnv) (packetID : Nat) (check : Bool) (h : Live s) :
    Live (atbmQueueRequeue e packetID check s).1 := by
  unfold atbmQueueRequeue
  simp only
  split
  · exact h.remove e packetID
  · have hm : Live (if check then s else markGeneric (atbmQueueParseId packetID).itemId s) := by
      cases check
      · exact h.same rfl rfl
      · exact h
    split
    · exact hm.same (by simp) (by simp)
    · exact hm.same (by simp [requeueItem, unlinkItem]) (by simp [requeueItem, unlinkItem])

theorem gcLoop_numQueuedVif (e : QEnv) (i : Nat) (ks : List Nat) (loop : Nat) (wake : Bool) (s : TxQ) {j : Nat}
    (hj : j ≠ i) : (gcLoop e i ks loop wake s).1.q.numQueuedVif j = s.q.numQueuedVif j := by
  induction ks generalizing loop wake s with
  | nil => rfl
  | cons k ks ih =>
    unfold gcLoop
    simp only
    split
    · rw [ih]
      simp
    split
    · simp
    · rename_i hk _
      rw [ih]
      simp only [trapIf_q, ne_eq, Decidable.not_not] at hk
      simp [gcItem, bump32, hk, hj]

theorem Live.gc (e : QEnv) (i : Nat) (h : Live s) : Live (atbmQueueGc e i s) := by
  unfold atbmQueueGc atbmQueueGcCore
  simp only
  have hb : LiveBut (· = i) (wakeIf (gcLoop e i (setGc i none s).q.queue 0 false (setGc i none s)).2.1
      (gcLoop e i (setGc i none s).q.queue 0 false (setGc i none s)).1) := by
    refine h.but ?_ fun j hj => ?_
    · rw [wakeIf_q, (flowSame_gcLoop e i _ 0 false _).overfull]
      rfl
    · rw [wakeIf_q, gcLoop_numQueuedVif e i _ 0 false _ hj]
      rfl
  have hl := releaseLevel_nonneg e (wakeIf (gcLoop e i (setGc i none s).q.queue 0 false (setGc i none s)).2.1
      (gcLoop e i (setGc i none s).q.queue 0 false (setGc i none s)).1).q i
  split
  · rename_i ho
    split
    · have := (hb.clearOverfullIf i).live fun j hj => hj.2 hj.1
      rwa [AtbmWifi.clearOverfullIf, if_pos ho] at this
    · rename_i hgt
      have hlive : Live (wakeIf (gcLoop e i (setGc i none s).q.queue 0 false (setGc i none s)).2.1
          (gcLoop e i (setGc i none s).q.queue 0 false (setGc i none s)).1) := by
        intro j hj
        by_cases hji : j = i
        · subst hji
          omega
        · exact hb j hji hj
      split
      · exact hlive.same rfl rfl
      · exact hlive
  · rename_i ho
    intro j hj
    refine hb j ?_ hj
    rintro rfl
    exact ho hj

theorem Live.clear {ifId : Int} (hi : ifId = allIfs ∨ ifId = 0 ∨ ifId = 1) (h : Live s) :
    Live (atbmQueueClear ifId s).1 := by
  have hw : ∀ t : TxQ, Live t → Live (wakeIf true t) := fun t ht => ht.same (by simp) (by simp)
  have one : ∀ i (V : Nat → Prop) (t : TxQ), LiveBut V t → LiveBut (fun j => V j ∨ j = i) (clearVif i t) := by
    intro i V t ht j hj hov
    rw [not_or] at hj
    show 0 < Function.update t.q.numQueuedVif i 0 j
    rw [Function.update_of_ne hj.2]
    exact ht j hj.1 hov
  have lists : LiveBut (fun _ => False) (clearLists ifId s) := h.but rfl fun _ _ => rfl
  unfold atbmQueueClear
  simp only
  refine hw _ ?_
  rcases hi with rfl | rfl | rfl
  · rw [if_pos rfl]
    refine (((one 1 _ _ (one 0 _ _ lists)).clearOverfullIf 0).clearOverfullIf 1).live ?_
    rintro j ⟨⟨(hj | hj) | hj, h0⟩, h1⟩
    · exact hj
    · exact h0 hj
    · exact h1 hj
  · rw [if_neg (by decide)]
    refine ((one 0 _ _ lists).clearOverfullIf 0).live ?_
    rintro j ⟨hj | hj, h0⟩
    · exact hj
    · exact h0 hj
  · rw [if_neg (by decide)]
    refine ((one 1 _ _ lists).clearOverfullIf 1).live ?_
    rintro j ⟨hj | hj, h0⟩
    · exact hj
    · exact h0 hj

theorem Live.run {c : Fin 4} (e : QEnv) (op : QOp) (hv : op.vifOk) (hc : VifCounted c s) (h : Live s) :
    Live (op.run e s) := by
  cases op with
  | put skb t => exact h.put e skb t hc
  | get ifId m => exact h.get e ifId m
  | requeue p check => exact h.requeue e p check
  | remove p => exact h.remove e p
  | gc i => exact h.gc e i
  | clear i => exact h.clear hv
  | lock i => exact h.same (lock_overfull e i s) (flowOnly_lock e i s).numQueuedVif
  | unlock i => exact h.same (unlock_overfull i s) (flowOnly_unlock i s).numQueuedVif

end

/-- **An overfull interface has frames counted**, as long as accepted ids name
items the queue holds. -/
theorem overfull_live {s : TxQueues} (h : Reach (queues.restrict Tracks) s) (c : Fin 4) :
    VifCounted c (s.view c) ∧ Live (s.view c) := by
  have all : ∀ c, VifCounted c (s.view c) ∧ Live (s.view c) := by
    refine h.invariant (I := fun s => ∀ c, VifCounted c (s.view c) ∧ Live (s.view c)) ?_ ?_
    · rintro s ⟨ttl, rfl⟩ c
      exact ⟨⟨shape_init c ttl, fun i => rfl⟩, fun i hi => by cases hi⟩
    · rintro s ev t hs ⟨ht, hv, rfl⟩ c
      have hS := shape_step hv (fun c => (hs c).1.toShape)
      by_cases hc : c = ev.c
      · subst hc
        have hq : ((s.step ev).view ev.c).q = (ev.op.run ev.env (s.view ev.c)).q := s.step_txQueue_self ev
        have hC : VifCounted ev.c (ev.op.run ev.env (s.view ev.c)) :=
          TxQueues.run_invariant (hs ev.c).1.toShape hv ht (fun _ _ => trivial)
            (fun _ _ h hm => h.move hm) (hs ev.c).1
        refine ⟨⟨hS ev.c, ?_⟩, ((hs ev.c).2.run ev.env ev.op hv.vif (hs ev.c).1).same ?_ ?_⟩
        · rw [hq]
          exact hC.numQueuedVif
        · rw [hq]
        · rw [hq]
      · have hq : ((s.step ev).view c).q = (s.view c).q := s.step_txQueue_other ev hc
        refine ⟨⟨hS c, ?_⟩, (hs c).2.same ?_ ?_⟩
        · rw [hq]
          exact (hs c).1.numQueuedVif
        · rw [hq]
        · rw [hq]
  exact all c

/-- **Flow control of every interface.**  The locks balance in every reachable
state; while accepted ids name held items, an overfull interface has its timer
armed or frames counted. -/
theorem txQueue_flow_control (c : Fin 4) (i : Nat) (hi : i < maxVifs) :
    (∀ s, Reach queues s →
      (s.txQueue c).txLockedCnt i = s.extLocks c i + (if (s.txQueue c).overfull i = true then 1 else 0) ∧
      (s.driverStopped (c + 4 * i) = true ↔ 0 < (s.txQueue c).txLockedCnt i) ∧
      Trap.lockNotStopped ∉ s.traps ∧ Trap.unlockZero ∉ s.traps) ∧
    (∀ s, Reach (queues.restrict Tracks) s → (s.txQueue c).overfull i = true →
      (s.txQueue c).gc i ≠ none ∨ 0 < (s.txQueue c).numQueuedVif i) := by
  refine ⟨fun s hs => ?_, fun s hs ho => .inr ((overfull_live hs c).2 i ho)⟩
  have h := flow_balance hs
  refine ⟨h.cnt c i, h.stopped c i hi, fun ht => ?_, fun ht => ?_⟩
  · cases h.bugs _ ht
  · cases h.bugs _ ht

def fullPut : QEvent := ⟨0, { sampleEnv with queueCap := fun _ => some 4 }, .put ⟨7, 0⟩ (sampleTxpriv 0)⟩

theorem fullPut_reach : Reach (queues.restrict Tracks) ((TxQueues.start fun _ => 1000).run [fullPut]) := by
  refine Follows.reach_start ⟨⟨?_, valid_of_vif (by decide) rfl (by simp)⟩, trivial⟩
  rintro p ⟨⟩

theorem txQueue_flow_control_fullPut :
    ((TxQueues.start fun _ => 1000).run [fullPut]).driverStopped 0 = true ∧
    ((((TxQueues.start fun _ => 1000).run [fullPut]).txQueue 0).gc 0 ≠ none ∨
      0 < (((TxQueues.start fun _ => 1000).run [fullPut]).txQueue 0).numQueuedVif 0) :=
  ⟨((txQueue_flow_control 0 0 (by decide)).1 _ fullPut_reach.of_restrict).2.1.mpr (by decide +kernel),
    (txQueue_flow_control 0 0 (by decide)).2 _ fullPut_reach (by decide +kernel)⟩

/-- **The slots of a queue**, whatever ids are confirmed or requeued. -/
theorem txQueue_slots {s : TxQueues} (h : Reach queues s) (c : Fin 4) :
    Slots.Partition maxQueueSz (s.txQueue c).freePool (s.txQueue c).queue (s.txQueue c).pending ∧
      (∀ k, Busy (s.txQueue c) k → IdNames c k ((s.txQueue c).pool k)) ∧
      ∀ k ∈ (s.txQueue c).pending, ∀ b, ((s.txQueue c).pool k).skb = some b →
        b.packetID = ((s.txQueue c).pool k).packetID := by
  have hs := shape_reach h c
  exact ⟨hs.slots, hs.id, hs.frame⟩

theorem txQueue_slots_fullPut : Slots.Partition maxQueueSz
    (((TxQueues.start fun _ => 1000).run [fullPut]).txQueue 0).freePool
    (((TxQueues.start fun _ => 1000).run [fullPut]).txQueue 0).queue
    (((TxQueues.start fun _ => 1000).run [fullPut]).txQueue 0).pending :=
  (txQueue_slots fullPut_reach.of_restrict 0).1

/-- A frame of interface 1 confirmed three times over, its slot reused by interface 0
in between; then two more frames of interface 1, the collector running between them. -/
def confirmedTwice : List QEvent :=
  [samplePut 7 1, sampleGet 1, sampleRemove 0x01100000, samplePut 8 0, sampleRemove 0x01100000,
    samplePut 9 0, sampleRemove 0x01100000, samplePut 10 1, sampleGet 1, ⟨0, sampleEnv, .gc 1⟩, samplePut 11 1]

/-- **The flag is lost**: no frame counted, the timer disarmed, interface 1 stopped. -/
theorem overfull_lost :
    Reach queues ((TxQueues.start fun _ => 1000).run confirmedTwice) ∧
    (((TxQueues.start fun _ => 1000).run confirmedTwice).txQueue 0).overfull 1 = true ∧
    (((TxQueues.start fun _ => 1000).run confirmedTwice).txQueue 0).gc 1 = none ∧
    (((TxQueues.start fun _ => 1000).run confirmedTwice).txQueue 0).numQueuedVif 1 = 0 ∧
    ((TxQueues.start fun _ => 1000).run confirmedTwice).driverStopped 4 = true := by
  have put : ∀ s f i, i < 2 → Valid s (samplePut f (UInt8.ofNat i)) := by
    intro s f i hi
    refine valid_of_vif ?_ rfl (by simp)
    show (UInt8.ofNat i).toNat < 2
    simp
    omega
  have follows : Follows (fun _ _ => True) (TxQueues.start fun _ => 1000) confirmedTwice := by
    have rm : ∀ s, Valid s (sampleRemove 0x01100000) := fun s => valid_remove (by decide) (by decide)
    have get : ∀ s, Valid s (sampleGet 1) := fun s => valid_of_vif trivial rfl (by simp)
    exact ⟨⟨trivial, put _ 7 1 (by decide)⟩, ⟨trivial, get _⟩, ⟨trivial, rm _⟩, ⟨trivial, put _ 8 0 (by decide)⟩,
      ⟨trivial, rm _⟩, ⟨trivial, put _ 9 0 (by decide)⟩, ⟨trivial, rm _⟩, ⟨trivial, put _ 10 1 (by decide)⟩,
      ⟨trivial, get _⟩, ⟨trivial, valid_of_vif (by decide) rfl (by simp)⟩,
      ⟨trivial, put _ 11 1 (by decide)⟩, trivial⟩
  exact ⟨follows.reach_start.of_restrict, by decide +kernel, by decide +kernel, by decide +kernel,
    by decide +kernel⟩

end AtbmWifi
