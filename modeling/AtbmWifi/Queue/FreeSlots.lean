import AtbmWifi.Queue.FlowControl

/-!
# Free slots and the lock count, call by call

What a call of the queue API leaves of `free_pool` and of `tx_locked_cnt`, read
off the state before it and for any packet id.

-/

namespace AtbmWifi

/-- How many items of the list the gc of interface `i` takes. -/
def expired (e : QEnv) (q : AtbmQueue) (i : Nat) : List Nat → Nat
  | [] => 0
  | k :: ks =>
    if (q.pool k).txpriv.ifId.toNat ≠ i then expired e q i ks
    else if ulong (e.jiffies - (q.pool k).queueTimestamp) < q.ttl then 0
    else expired e q i ks + 1

/-- `num_queued_vif[i]` once `m` frames of the interface are counted out. -/
def vifAfter (q : AtbmQueue) (i m : Nat) : Int :=
  if m = 0 then q.numQueuedVif i else u32 (q.numQueuedVif i - m)

/-- `m` frames fewer release the overfull interface. -/
def ReleasedBy (e : QEnv) (q : AtbmQueue) (i m : Nat) : Prop :=
  q.overfull i = true ∧ vifAfter q i m ≤ releaseLevel e q i

def Accepts (q : AtbmQueue) (packetID : Nat) : Prop := checkId q (atbmQueueParseId packetID) = none

/-- `atbm_queue_requeue` drops the frame: its interface went off channel. -/
def DropsBack (q : AtbmQueue) (packetID : Nat) (check : Bool) : Prop :=
  check = true ∧ (q.pool (atbmQueueParseId packetID).itemId).txpriv.offchannelIfId = genericIfId

instance (e : QEnv) (q : AtbmQueue) (i m : Nat) : Decidable (ReleasedBy e q i m) :=
  inferInstanceAs (Decidable (_ ∧ _))

instance (q : AtbmQueue) (packetID : Nat) : Decidable (Accepts q packetID) :=
  inferInstanceAs (Decidable (_ = none))

instance (q : AtbmQueue) (packetID : Nat) (check : Bool) : Decidable (DropsBack q packetID check) :=
  inferInstanceAs (Decidable (_ ∧ _))

def QOp.freeAfter (e : QEnv) (q : AtbmQueue) : QOp → Nat
  | remove p =>
    if Accepts q p then (q.freePool.erase (atbmQueueParseId p).itemId).length + 1 else q.freePool.length
  | requeue p check =>
    if Accepts q p then
      (q.freePool.erase (atbmQueueParseId p).itemId).length + if DropsBack q p check then 1 else 0
    else q.freePool.length
  | gc i => q.freePool.length + expired e q i q.queue
  | clear ifId => q.freePool.length + (q.pending.countP (cleared q ifId) + q.queue.countP (cleared q ifId))
  | _ => q.freePool.length

/-- The call takes one lock of interface `i` off. -/
def QOp.lifts (e : QEnv) (q : AtbmQueue) (i : Nat) : QOp → Prop
  | remove p => Accepts q p ∧ (atbmQueueParseId p).ifId = i ∧ ReleasedBy e q i 1
  | requeue p check =>
    DropsBack q p check ∧ Accepts q p ∧ (atbmQueueParseId p).ifId = i ∧ ReleasedBy e q i 1
  | gc j => j = i ∧ ReleasedBy e q i (expired e q i q.queue)
  | clear ifId => (ifId = allIfs ∨ ifId = i) ∧ q.overfull i = true
  | unlock j => j = i
  | _ => False

instance decLifts (e : QEnv) (q : AtbmQueue) (i : Nat) : (op : QOp) → Decidable (op.lifts e q i)
  | .remove p => inferInstanceAs (Decidable (Accepts q p ∧ (atbmQueueParseId p).ifId = i ∧ ReleasedBy e q i 1))
  | .requeue p check => inferInstanceAs (Decidable (DropsBack q p check ∧ Accepts q p ∧
      (atbmQueueParseId p).ifId = i ∧ ReleasedBy e q i 1))
  | .gc j => inferInstanceAs (Decidable (j = i ∧ ReleasedBy e q i (expired e q i q.queue)))
  | .clear ifId => inferInstanceAs (Decidable ((ifId = allIfs ∨ ifId = i) ∧ q.overfull i = true))
  | .unlock j => inferInstanceAs (Decidable (j = i))
  | .put _ _ | .get _ _ | .lock _ => inferInstanceAs (Decidable False)

/-- The call locks interface `i` from outside. -/
def QOp.locksVif (i : Nat) : QOp → Bool
  | lock j => decide (j = i)
  | _ => false

/-- A put for interface `i` finds the interface or the pool full. -/
def putOverflows (e : QEnv) (q : AtbmQueue) (i : Nat) : Bool :=
  queueOverflow e
    { q with numQueued := u32 (q.numQueued + 1), numQueuedVif := bump32 q.numQueuedVif i 1 } i

section
variable {e : QEnv} {s s' : TxQ}

theorem FlowOnly.freePool (h : FlowOnly s s') : s'.q.freePool = s.q.freePool := by
  obtain ⟨l, o, g, b, hq⟩ := h.fields
  rw [hq]

theorem lock_txLockedCnt (e : QEnv) (i : Nat) (s : TxQ) :
    (atbmQueueLockCore e i s).q.txLockedCnt = bump s.q.txLockedCnt i 1 := by
  unfold atbmQueueLockCore
  split <;> simp

theorem unlock_txLockedCnt (i : Nat) (s : TxQ) :
    (atbmQueueUnlockCore i s).q.txLockedCnt = bump s.q.txLockedCnt i (-1) := by
  unfold atbmQueueUnlockCore
  simp only
  split <;> simp

theorem clearOverfull_txLockedCnt (i : Nat) (s : TxQ) :
    (clearOverfull i s).q.txLockedCnt = bump s.q.txLockedCnt i (-1) :=
  unlock_txLockedCnt i (setOverfull i false s)

theorem clearOverfullIf_txLockedCnt (i : Nat) (s : TxQ) (j : Nat) :
    (clearOverfullIf i s).q.txLockedCnt j =
      s.q.txLockedCnt j - if i = j ∧ s.q.overfull j = true then 1 else 0 := by
  unfold clearOverfullIf
  split
  · rename_i ho
    rw [clearOverfull_txLockedCnt, bump_apply]
    by_cases hij : i = j
    · subst hij
      simp [ho]
      omega
    · simp [hij]
  · rename_i ho
    have : ¬(i = j ∧ s.q.overfull j = true) := by
      rintro ⟨rfl, hj⟩
      exact ho hj
    simp [this]

theorem clearOverfullIf_overfull_ne (s : TxQ) {i j : Nat} (h : j ≠ i) :
    (clearOverfullIf i s).q.overfull j = s.q.overfull j := by
  unfold clearOverfullIf
  split
  · rw [clearOverfull_overfull, Function.update_of_ne h]
  · rfl

theorem releaseOverfull_txLockedCnt (e : QEnv) (i : Nat) (s : TxQ) (j : Nat) :
    (releaseOverfull e i s).q.txLockedCnt j = s.q.txLockedCnt j -
      if i = j ∧ s.q.overfull j = true ∧ s.q.numQueuedVif j ≤ releaseLevel e s.q j then 1 else 0 := by
  unfold releaseOverfull
  split
  · rename_i ho
    rw [clearOverfull_txLockedCnt, bump_apply]
    by_cases hij : i = j
    · subst hij
      simp [ho]
      omega
    · simp [hij]
  · rename_i ho
    have : ¬(i = j ∧ s.q.overfull j = true ∧ s.q.numQueuedVif j ≤ releaseLevel e s.q j) := by
      rintro ⟨rfl, hj⟩
      exact ho hj
    simp [this]

/-- The loop tells items by their interface and their time, which it does not write. -/
def SameItems (q : AtbmQueue) (s : TxQ) : Prop :=
  s.q.ttl = q.ttl ∧ ∀ k, (s.q.pool k).txpriv = (q.pool k).txpriv ∧
    (s.q.pool k).queueTimestamp = (q.pool k).queueTimestamp

theorem SameItems.gcItem {q : AtbmQueue} (h : SameItems q s) (k : Nat) : SameItems q (gcItem k s) := by
  refine ⟨h.1, fun j => ?_⟩
  by_cases hjk : j = k
  · subst hjk
    simpa [AtbmWifi.gcItem] using h.2 j
  · simpa [AtbmWifi.gcItem, hjk] using h.2 j

theorem vifAfter_gcItem (k m : Nat) (s : TxQ) :
    vifAfter (gcItem k s).q (s.q.pool k).txpriv.ifId.toNat m =
      vifAfter s.q (s.q.pool k).txpriv.ifId.toNat (m + 1) := by
  have h1 : (gcItem k s).q.numQueuedVif (s.q.pool k).txpriv.ifId.toNat =
      u32 (s.q.numQueuedVif (s.q.pool k).txpriv.ifId.toNat - 1) := by
    simp only [gcItem, bump32, Function.update_self]
    rfl
  unfold vifAfter
  rw [h1, if_neg (Nat.succ_ne_zero m)]
  unfold u32
  split
  · subst_vars
    rfl
  · push_cast
    omega

theorem gcLoop_counts {q : AtbmQueue} (i : Nat) (ks : List Nat) (loop : Nat) (wake : Bool)
    (h : SameItems q s) :
    (gcLoop e i ks loop wake s).1.q.freePool.length = s.q.freePool.length + expired e q i ks ∧
    (gcLoop e i ks loop wake s).1.q.numQueuedVif i = vifAfter s.q i (expired e q i ks) := by
  induction ks generalizing loop wake s with
  | nil => simp [gcLoop, expired, vifAfter]
  | cons k ks ih =>
    have h1 : SameItems q (trapIf (decide (loop + 1 > 300)) .gcLoop s) := by
      unfold SameItems
      rw [trapIf_q]
      exact h
    have hv : (s.q.pool k).txpriv.ifId.toNat = (q.pool k).txpriv.ifId.toNat := by rw [(h.2 k).1]
    unfold gcLoop expired
    simp only [trapIf_q, hv, (h.2 k).2, h.1]
    split
    · have := ih (loop + 1) wake h1
      rwa [trapIf_q] at this
    split
    · simp [vifAfter]
    · rename_i hk _
      have := ih (loop + 1) (wake || linkEmpty k (gcItem k (trapIf (decide (loop + 1 > 300)) .gcLoop s)))
        (h1.gcItem k)
      refine ⟨this.1.trans ?_, this.2.trans ?_⟩
      · simp only [gcItem, trapIf_q, List.length_append, List.length_singleton]
        omega
      · have hki : i = ((trapIf (decide (loop + 1 > 300)) .gcLoop s).q.pool k).txpriv.ifId.toNat := by
          rw [trapIf_q, hv]
          exact (Decidable.not_not.mp hk).symm
        conv => lhs; rw [hki]
        rw [vifAfter_gcItem, ← hki]
        unfold vifAfter
        rw [trapIf_q]

theorem gcLoop_capacity (e : QEnv) (i : Nat) (ks : List Nat) (loop : Nat) (wake : Bool) (s : TxQ) :
    (gcLoop e i ks loop wake s).1.q.capacity = s.q.capacity := by
  induction ks generalizing loop wake s with
  | nil => rfl
  | cons k ks ih =>
    unfold gcLoop
    simp only
    split
    · rw [ih, trapIf_q]
    split
    · rw [trapIf_q]
    · rw [ih]
      simp [gcItem]

theorem remove_spec (e : QEnv) (p : Nat) (s : TxQ) :
    (atbmQueueRemove e p s).1.q.freePool.length = (QOp.remove p).freeAfter e s.q ∧
    ∀ i, (atbmQueueRemove e p s).1.q.txLockedCnt i =
      s.q.txLockedCnt i - if (QOp.remove p).lifts e s.q i then 1 else 0 := by
  unfold atbmQueueRemove QOp.freeAfter QOp.lifts
  simp only
  split
  · rename_i hc
    rw [trapIf_q] at hc
    have hno : ¬Accepts s.q p := by
      intro h
      rw [Accepts, hc] at h
      cases h
    simp [hno]
  · rename_i hc
    rw [trapIf_q] at hc
    have hyes : Accepts s.q p := hc
    refine ⟨?_, fun i => ?_⟩
    · rw [(flowOnly_destroySkb _ _).freePool, (flowOnly_releaseOverfull e _ _).freePool]
      simp [hyes, freeItem, unlinkItem]
    · rw [(flowSame_destroySkb _ _).cnt, releaseOverfull_txLockedCnt]
      have hcnt : ∀ t : TxQ, (freeItem (atbmQueueParseId p) t).q.txLockedCnt = t.q.txLockedCnt := fun _ => rfl
      have hov : ∀ t : TxQ, (freeItem (atbmQueueParseId p) t).q.overfull = t.q.overfull := fun _ => rfl
      have hvif : ∀ t : TxQ, (freeItem (atbmQueueParseId p) t).q.numQueuedVif (atbmQueueParseId p).ifId =
          vifAfter t.q (atbmQueueParseId p).ifId 1 := by
        intro t
        simp [freeItem, bump32, vifAfter]
        rfl
      have hlvl : ∀ t : TxQ, releaseLevel e (freeItem (atbmQueueParseId p) t).q = releaseLevel e t.q :=
        fun _ => rfl
      rw [hcnt, hov, hlvl, trapIf_q]
      congr 1
      by_cases hi : (atbmQueueParseId p).ifId = i
      · subst hi
        rw [hvif, trapIf_q]
        simp [hyes, ReleasedBy]
      · simp [hi]

theorem requeue_spec (e : QEnv) (p : Nat) (check : Bool) (s : TxQ) :
    (atbmQueueRequeue e p check s).1.q.freePool.length = (QOp.requeue p check).freeAfter e s.q ∧
    ∀ i, (atbmQueueRequeue e p check s).1.q.txLockedCnt i =
      s.q.txLockedCnt i - if (QOp.requeue p check).lifts e s.q i then 1 else 0 := by
  unfold atbmQueueRequeue QOp.freeAfter QOp.lifts
  simp only
  split
  · rename_i hd
    have hd' : DropsBack s.q p check := hd
    obtain ⟨hf, hl⟩ := remove_spec e p s
    refine ⟨?_, fun i => ?_⟩
    · rw [hf]
      simp [QOp.freeAfter, hd']
    · rw [hl i]
      congr 1
      exact if_congr (by simp [QOp.lifts, hd']) rfl rfl
  · rename_i hd
    have hd' : ¬DropsBack s.q p check := hd
    have hm : ∀ f : AtbmQueue → List Nat, (∀ t : TxQ, f (markGeneric (atbmQueueParseId p).itemId t).q = f t.q) →
        f (if check then s else markGeneric (atbmQueueParseId p).itemId s).q = f s.q := by
      intro f hf
      split
      · rfl
      · exact hf s
    have hcnt : (if check then s else markGeneric (atbmQueueParseId p).itemId s).q.txLockedCnt =
        s.q.txLockedCnt := by split <;> rfl
    have hfree := hm AtbmQueue.freePool fun _ => rfl
    have hacc : checkId (if check then s else markGeneric (atbmQueueParseId p).itemId s).q (atbmQueueParseId p) =
        checkId s.q (atbmQueueParseId p) := by
      split
      · rfl
      · exact markGeneric_checkId _ _ _
    split
    · rename_i hc
      rw [trapIf_q, hacc] at hc
      have hno : ¬Accepts s.q p := by
        intro h
        rw [Accepts, hc] at h
        cases h
      simp [hno, hfree, hcnt]
    · rename_i hc
      rw [trapIf_q, hacc] at hc
      have hyes : Accepts s.q p := hc
      refine ⟨?_, fun i => ?_⟩
      · simp [hyes, hd', requeueItem, unlinkItem, hfree]
      · simp [hd', requeueItem, unlinkItem, hcnt]

theorem gc_spec (e : QEnv) (j : Nat) (s : TxQ) :
    (atbmQueueGc e j s).q.freePool.length = (QOp.gc j).freeAfter e s.q ∧
    ∀ i, (atbmQueueGc e j s).q.txLockedCnt i =
      s.q.txLockedCnt i - if (QOp.gc j).lifts e s.q i then 1 else 0 := by
  have hsame : SameItems s.q (setGc j none s) := ⟨rfl, fun _ => ⟨rfl, rfl⟩⟩
  obtain ⟨hfree, hvif⟩ := gcLoop_counts (e := e) j s.q.queue 0 false hsame
  have hf := flowSame_gcLoop e j s.q.queue 0 false (setGc j none s)
  have hlvl : releaseLevel e (gcLoop e j s.q.queue 0 false (setGc j none s)).1.q j = releaseLevel e s.q j := by
    unfold releaseLevel
    rw [gcLoop_capacity]
    rfl
  have hov : (gcLoop e j s.q.queue 0 false (setGc j none s)).1.q.overfull = s.q.overfull := hf.overfull
  have hcnt : (gcLoop e j s.q.queue 0 false (setGc j none s)).1.q.txLockedCnt = s.q.txLockedCnt := hf.cnt
  have hq : (setGc j none s).q.queue = s.q.queue := rfl
  have hvif' : (gcLoop e j s.q.queue 0 false (setGc j none s)).1.q.numQueuedVif j =
      vifAfter s.q j (expired e s.q j s.q.queue) := hvif
  have hfree' : (gcLoop e j s.q.queue 0 false (setGc j none s)).1.q.freePool.length =
      s.q.freePool.length + expired e s.q j s.q.queue := hfree
  unfold atbmQueueGc atbmQueueGcCore QOp.freeAfter QOp.lifts
  simp only [hq, wakeIf_q, hov, hvif', hlvl]
  split
  · rename_i ho
    split
    · rename_i hle
      refine ⟨?_, fun i => ?_⟩
      · rw [(flowOnly_clearOverfull j _).freePool, wakeIf_q, hfree']
      · rw [clearOverfull_txLockedCnt, bump_apply, wakeIf_q, hcnt]
        by_cases hij : j = i
        · subst hij
          simp [ReleasedBy, ho, hle]
          omega
        · simp [hij]
    · rename_i hle
      have hno : ∀ i, ¬(j = i ∧ ReleasedBy e s.q i (expired e s.q i s.q.queue)) := by
        rintro i ⟨rfl, -, h⟩
        exact hle h
      split
      · have hset : ∀ tmo (t : TxQ), (setGc j tmo t).q.freePool = t.q.freePool ∧
            (setGc j tmo t).q.txLockedCnt = t.q.txLockedCnt := fun _ _ => ⟨rfl, rfl⟩
        simp [hno, hset, hfree', hcnt]
      · simp [hno, hfree', hcnt]
  · rename_i ho
    have hno : ∀ i, ¬(j = i ∧ ReleasedBy e s.q i (expired e s.q i s.q.queue)) := by
      rintro i ⟨rfl, h, -⟩
      exact ho h
    simp [hno, hfree', hcnt]

theorem clearVif_counts (i : Nat) (s : TxQ) : (clearVif i s).q.freePool = s.q.freePool ∧
    (clearVif i s).q.txLockedCnt = s.q.txLockedCnt ∧ (clearVif i s).q.overfull = s.q.overfull :=
  ⟨rfl, rfl, rfl⟩

theorem clear_spec (e : QEnv) {ifId : Int} (hi : ifId = allIfs ∨ ifId = 0 ∨ ifId = 1) (s : TxQ) :
    (atbmQueueClear ifId s).1.q.freePool.length = (QOp.clear ifId).freeAfter e s.q ∧
    ∀ i, i < maxVifs → (atbmQueueClear ifId s).1.q.txLockedCnt i =
      s.q.txLockedCnt i - if (QOp.clear ifId).lifts e s.q i then 1 else 0 := by
  have hf := flowSame_clearLists ifId s
  have hlen : (clearLists ifId s).q.freePool.length = (QOp.clear ifId).freeAfter e s.q := by
    simp only [clearLists, QOp.freeAfter, List.length_append, List.countP_eq_length_filter]
    omega
  unfold atbmQueueClear QOp.lifts
  simp only [wakeIf_q]
  split
  · rename_i ha
    refine ⟨?_, fun i hlt => ?_⟩
    · rw [(flowOnly_clearOverfullIf 1 _).freePool, (flowOnly_clearOverfullIf 0 _).freePool,
        (clearVif_counts 1 _).1, (clearVif_counts 0 _).1, hlen]
    · rw [clearOverfullIf_txLockedCnt, clearOverfullIf_txLockedCnt, (clearVif_counts 1 _).2.1,
        (clearVif_counts 0 _).2.1, hf.cnt]
      by_cases h1 : 1 = i
      · subst h1
        rw [clearOverfullIf_overfull_ne _ (by decide), (clearVif_counts 1 _).2.2, (clearVif_counts 0 _).2.2,
          hf.overfull]
        simp [ha]
      · have h0 : 0 = i := by
          unfold maxVifs at hlt
          omega
        subst h0
        rw [(clearVif_counts 1 _).2.2, (clearVif_counts 0 _).2.2, hf.overfull]
        simp [ha]
  · rename_i ha
    refine ⟨?_, fun i _ => ?_⟩
    · rw [(flowOnly_clearOverfullIf _ _).freePool, (clearVif_counts _ _).1, hlen]
    · rw [clearOverfullIf_txLockedCnt, (clearVif_counts _ _).2.1, (clearVif_counts _ _).2.2, hf.cnt, hf.overfull]
      have hnn : ifId.toNat = i ↔ ifId = i := by
        rcases hi with hi | rfl | rfl
        · exact absurd hi ha
        · simp
          omega
        · simp
          omega
      simp [ha, hnn]

theorem QOp.run_spec (e : QEnv) (op : QOp) (s : TxQ) (hv : op.vifOk) (hput : op.isPut = false) :
    (op.run e s).q.freePool.length = op.freeAfter e s.q ∧
    ∀ i, i < maxVifs → (op.run e s).q.txLockedCnt i =
      s.q.txLockedCnt i + (if op.locksVif i = true then 1 else 0) - if op.lifts e s.q i then 1 else 0 := by
  cases op with
  | put skb t => cases hput
  | get ifId m =>
    show (atbmQueueGet e ifId m s).1.q.freePool.length = s.q.freePool.length ∧ ∀ i, i < maxVifs →
      (atbmQueueGet e ifId m s).1.q.txLockedCnt i = _
    unfold atbmQueueGet
    split <;> simp [getItem, QOp.lifts, QOp.locksVif]
  | requeue p check =>
    obtain ⟨hf, hl⟩ := requeue_spec e p check s
    exact ⟨hf, fun i _ => by simpa [QOp.locksVif, QOp.run] using hl i⟩
  | remove p =>
    obtain ⟨hf, hl⟩ := remove_spec e p s
    exact ⟨hf, fun i _ => by simpa [QOp.locksVif, QOp.run] using hl i⟩
  | gc j =>
    obtain ⟨hf, hl⟩ := gc_spec e j s
    exact ⟨hf, fun i _ => by simpa [QOp.locksVif, QOp.run] using hl i⟩
  | clear ifId =>
    obtain ⟨hf, hl⟩ := clear_spec e hv s
    exact ⟨hf, fun i hi => by simpa [QOp.locksVif, QOp.run] using hl i hi⟩
  | lock j =>
    have hfree : (atbmQueueLock e j s).q.freePool = s.q.freePool := (flowOnly_lock e j s).freePool
    have hcnt : (atbmQueueLock e j s).q.txLockedCnt = bump s.q.txLockedCnt j 1 := lock_txLockedCnt e j s
    refine ⟨congrArg List.length hfree, fun i _ => ?_⟩
    show (atbmQueueLock e j s).q.txLockedCnt i = _
    rw [hcnt, bump_apply]
    simp [QOp.lifts, QOp.locksVif]
  | unlock j =>
    have hfree : (atbmQueueUnlock j s).q.freePool = s.q.freePool := (flowOnly_unlock j s).freePool
    have hcnt : (atbmQueueUnlock j s).q.txLockedCnt = bump s.q.txLockedCnt j (-1) := unlock_txLockedCnt j s
    refine ⟨congrArg List.length hfree, fun i _ => ?_⟩
    show (atbmQueueUnlock j s).q.txLockedCnt i = _
    rw [hcnt, bump_apply]
    by_cases hij : j = i
    · simp [QOp.lifts, QOp.locksVif, hij]
      rfl
    · simp [QOp.lifts, QOp.locksVif, hij]

/-- A put with a slot free takes it, and stops an interface that is not overfull when it or the pool
is full. -/
theorem put_spec (e : QEnv) (skb : SkBuff) {t : AtbmTxpriv} (s : TxQ)
    (ht : t.linkId.toNat < s.stats.mapCapacity) (hk : s.q.freePool ≠ []) :
    (atbmQueuePut e skb t s).2 = 0 ∧
    (atbmQueuePut e skb t s).1.q.freePool.length + 1 = s.q.freePool.length ∧
    ∀ i, (atbmQueuePut e skb t s).1.q.txLockedCnt i = s.q.txLockedCnt i +
      if t.ifId.toNat = i ∧ s.q.overfull i = false ∧ putOverflows e s.q i = true then 1 else 0 := by
  unfold atbmQueuePut
  rw [if_neg (Nat.not_le.mpr ht)]
  split
  · exact absurd ‹_› hk
  · rename_i k rest hf
    refine ⟨rfl, ?_, fun i => ?_⟩
    · show (putOverfull e _ _).q.freePool.length + 1 = _
      rw [(flowOnly_putOverfull e _ _).freePool]
      simp [putItem, hf]
    · show (putOverfull e _ _).q.txLockedCnt i = _
      have hover : queueOverflow e (putItem e skb t k (trapIf (s.q.pool k).skb.isSome .itemSkb s)).q t.ifId.toNat =
          putOverflows e s.q t.ifId.toNat := by
        unfold putOverflows queueOverflow putItem
        simp only [trapIf_q]
      have hov : (putItem e skb t k (trapIf (s.q.pool k).skb.isSome .itemSkb s)).q.overfull = s.q.overfull := by
        simp [putItem]
      have hcnt : (putItem e skb t k (trapIf (s.q.pool k).skb.isSome .itemSkb s)).q.txLockedCnt =
          s.q.txLockedCnt := by
        simp [putItem]
      unfold putOverfull
      rw [hover, hov]
      split
      · rename_i ho
        show (atbmQueueLockCore e t.ifId.toNat (setOverfull t.ifId.toNat true _)).q.txLockedCnt i = _
        rw [lock_txLockedCnt, bump_apply]
        have hset : ∀ t' : TxQ, (setOverfull t.ifId.toNat true t').q.txLockedCnt = t'.q.txLockedCnt :=
          fun _ => rfl
        rw [hset, hcnt]
        by_cases hi : t.ifId.toNat = i
        · subst hi
          simp [ho]
        · simp [hi]
      · rename_i ho
        rw [hcnt]
        have : ¬(t.ifId.toNat = i ∧ s.q.overfull i = false ∧ putOverflows e s.q i = true) := by
          rintro ⟨rfl, h⟩
          exact ho h
        simp [this]

theorem put_empty (e : QEnv) (skb : SkBuff) {t : AtbmTxpriv} (s : TxQ)
    (ht : t.linkId.toNat < s.stats.mapCapacity) (hk : s.q.freePool = []) :
    (atbmQueuePut e skb t s).2 = eNoEnt := by
  unfold atbmQueuePut
  rw [if_neg (Nat.not_le.mpr ht), hk]

end

end AtbmWifi
