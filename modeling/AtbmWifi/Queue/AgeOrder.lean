import AtbmWifi.Queue.StaleId
import AtbmWifi.Queue.Waiting

/-!
# The age of the waiting frames

`atbm_queue_put` appends, `atbm_queue_requeue` puts back at the head whatever the age, and `__atbm_queue_gc` stops
at the first frame of its interface that is young enough.

`AgedQueues` adds to the queues the clock and the number of the put each slot was filled by.  `LinkOrder`: the
frames of a link wait in the order of their puts.  `Collects`: what the collector has to do.
-/

namespace AtbmWifi

open Transition

/-! ## A sweep that stops at the first young item -/

/-- What is left of a list: the items of `P` that are due go, up to the first one that is not. -/
def sweep (P due : Nat → Bool) : List Nat → List Nat
  | [] => []
  | k :: l => if !P k then k :: sweep P due l else if due k then sweep P due l else k :: l

theorem sweep_due (P due : Nat → Bool) {l : List Nat} {k : Nat} (hk : k ∈ l) (hn : k ∉ sweep P due l) :
    P k = true ∧ due k = true := by
  induction l with
  | nil => cases hk
  | cons j l ih =>
    unfold sweep at hn
    cases hP : P j with
    | false =>
      rw [hP, Bool.not_false, if_pos rfl, List.mem_cons, not_or] at hn
      exact ih ((List.mem_cons.mp hk).resolve_left hn.1) hn.2
    | true =>
      rw [hP, Bool.not_true, if_neg Bool.false_ne_true] at hn
      cases hd : due j with
      | false =>
        rw [hd, if_neg Bool.false_ne_true] at hn
        exact absurd hk hn
      | true =>
        rw [hd, if_pos rfl] at hn
        rcases List.mem_cons.mp hk with rfl | hk
        · exact ⟨hP, hd⟩
        · exact ih hk hn

theorem sweep_complete_iff (P due : Nat → Bool) (l : List Nat) :
    (∀ k ∈ sweep P due l, P k = true → due k = false) ↔
      l.Pairwise fun j k => P j = true → P k = true → due k = true → due j = true := by
  induction l with
  | nil => exact iff_of_true nofun .nil
  | cons j l ih =>
    rw [List.pairwise_cons]
    unfold sweep
    cases hP : P j with
    | false =>
      rw [Bool.not_false, if_pos rfl, List.forall_mem_cons, ih]
      exact ⟨fun h => ⟨fun _ _ => nofun, h.2⟩, fun h => ⟨fun h' => absurd (hP.symm.trans h') Bool.false_ne_true, h.2⟩⟩
    | true =>
      rw [Bool.not_true, if_neg Bool.false_ne_true]
      cases hd : due j with
      | true =>
        rw [if_pos rfl, ih]
        exact ⟨fun h => ⟨fun _ _ _ _ _ => rfl, h⟩, fun h => h.2⟩
      | false =>
        rw [if_neg Bool.false_ne_true, List.forall_mem_cons]
        have hyoung : (∀ k ∈ l, P k = true → due k = false) ↔
            ∀ k ∈ l, true = true → P k = true → due k = true → false = true := by
          refine forall₂_congr fun k _ => ⟨fun h _ hp hdk => ?_, fun h hp => ?_⟩
          · exact absurd (hdk.symm.trans (h hp)) Bool.false_ne_true.symm
          · by_contra hdk
            exact Bool.false_ne_true (h rfl hp (Bool.eq_true_of_not_eq_false hdk))
        constructor
        · intro h
          refine ⟨hyoung.mp h.2, ?_⟩
          apply List.Pairwise.imp_mem.mpr
          apply List.pairwise_of_forall
          intro a b _ hb _ hpb hdb
          exact absurd (hdb.symm.trans (h.2 b hb hpb)) Bool.false_ne_true.symm
        · intro h
          exact ⟨fun _ => hd, hyoung.mpr h.1⟩

/-! ## What the operations leave of an item -/

def AtbmQueueItem.key (it : AtbmQueueItem) : UInt8 × UInt8 × Int := (it.txpriv.ifId, it.txpriv.linkId, it.queueTimestamp)

structure SameKeys (s s' : TxQ) : Prop where
  key : ∀ k, (s'.q.pool k).key = (s.q.pool k).key
  ttl : s'.q.ttl = s.q.ttl

namespace SameKeys

theorem refl (s : TxQ) : SameKeys s s := ⟨fun _ => rfl, rfl⟩

theorem trans {s t u : TxQ} (h : SameKeys s t) (h' : SameKeys t u) : SameKeys s u :=
  ⟨fun k => (h'.key k).trans (h.key k), h'.ttl.trans h.ttl⟩

theorem of_update {s s' : TxQ} {k : Nat} {it : AtbmQueueItem} (hp : s'.q.pool = Function.update s.q.pool k it)
    (hk : it.key = (s.q.pool k).key) (ht : s'.q.ttl = s.q.ttl) : SameKeys s s' := by
  refine ⟨fun j => ?_, ht⟩
  rw [hp]
  by_cases hj : j = k
  · subst hj
    rw [Function.update_self, hk]
  · rw [Function.update_of_ne hj]

theorem flow {s s' : TxQ} (h : FlowOnly s s') : SameKeys s s' := by
  obtain ⟨l, o, g, b, hq⟩ := h.fields
  exact ⟨fun k => by rw [hq], by rw [hq]⟩

theorem get (e : QEnv) (i m : Nat) (s : TxQ) : SameKeys s (atbmQueueGet e i m s).1 := by
  unfold atbmQueueGet
  split
  · exact .flow (flowOnly_trap true (t := .getNone) rfl s)
  · next k hk =>
    have h1 : SameKeys s (getItem e k s) := of_update rfl rfl rfl
    exact h1.trans (.flow (flowOnly_wakeIf _ _))

theorem remove (e : QEnv) (packetID : Nat) (s : TxQ) : SameKeys s (atbmQueueRemove e packetID s).1 := by
  unfold atbmQueueRemove
  have h1 : SameKeys s (trapIf ((atbmQueueParseId packetID).queueId != s.q.queueId) .queueId s) :=
    .flow (flowOnly_trap _ rfl s)
  dsimp only
  split
  · next hc => exact h1.trans (.flow (flowOnly_trapOpt (checkId_trap hc) _))
  · refine h1.trans ?_
    have h2 : ∀ t : TxQ, SameKeys t (freeItem (atbmQueueParseId packetID) t) := fun t => of_update rfl rfl rfl
    refine (h2 _).trans ?_
    exact (SameKeys.flow (flowOnly_releaseOverfull e _ _)).trans (.flow (flowOnly_destroySkb _ _))

theorem gcItem (k : Nat) (s : TxQ) : SameKeys s (gcItem k s) := of_update rfl rfl rfl

theorem gcLoop (e : QEnv) (i : Nat) (ks : List Nat) (loop : Nat) (wake : Bool) (s : TxQ) :
    SameKeys s (gcLoop e i ks loop wake s).1 := by
  induction ks generalizing loop wake s with
  | nil => exact .refl s
  | cons k ks ih =>
    unfold AtbmWifi.gcLoop
    have h1 : SameKeys s (trapIf (decide (loop + 1 > 300)) .gcLoop s) := .flow (flowOnly_trap _ rfl s)
    dsimp only
    split
    · exact h1.trans (ih _ _ _)
    · split
      · exact h1
      · exact (h1.trans (.gcItem k _)).trans (ih _ _ _)

theorem clearLists (i : Int) (s : TxQ) : SameKeys s (clearLists i s) := by
  refine ⟨fun k => ?_, by simp [AtbmWifi.clearLists]⟩
  show (if _ then { s.q.pool k with skb := none } else s.q.pool k : AtbmQueueItem).key = _
  split <;> rfl

theorem clear (i : Int) (s : TxQ) : SameKeys s (atbmQueueClear i s).1 := by
  unfold atbmQueueClear
  have hvif : ∀ j (t : TxQ), SameKeys t (clearVif j t) := fun j t => ⟨fun _ => rfl, rfl⟩
  have h1 := clearLists i s
  dsimp only
  split
  · have h2 := (h1.trans (hvif 0 _)).trans (hvif 1 _)
    have h3 := (h2.trans (.flow (flowOnly_clearOverfullIf 0 _))).trans (.flow (flowOnly_clearOverfullIf 1 _))
    exact h3.trans (.flow (flowOnly_wakeIf true _))
  · have h2 := (h1.trans (hvif i.toNat _)).trans (.flow (flowOnly_clearOverfullIf i.toNat _))
    exact h2.trans (.flow (flowOnly_wakeIf true _))

end SameKeys

theorem gc_flow (e : QEnv) (i : Nat) (s : TxQ) :
    FlowOnly (gcLoop e i s.q.queue 0 false (setGc i none s)).1 (atbmQueueGc e i s) := by
  unfold atbmQueueGc atbmQueueGcCore
  have h1 := flowOnly_wakeIf (gcLoop e i s.q.queue 0 false (setGc i none s)).2.1
    (gcLoop e i s.q.queue 0 false (setGc i none s)).1
  dsimp only
  refine h1.trans ?_
  split
  · split
    · exact flowOnly_clearOverfull i _
    · split
      · exact flowOnly_setGc i _ _
      · exact .refl _
  · exact .refl _

theorem SameKeys.gc (e : QEnv) (i : Nat) (s : TxQ) : SameKeys s (atbmQueueGc e i s) :=
  ((SameKeys.flow (flowOnly_setGc i none s)).trans (.gcLoop e i _ 0 false _)).trans (.flow (gc_flow e i s))

/-- The id is accepted, and the frame is not dropped for the generic interface. -/
def Requeues (q : AtbmQueue) (packetID : Nat) (check : Bool) : Prop :=
  ¬(check = true ∧ (q.pool (atbmQueueParseId packetID).itemId).txpriv.offchannelIfId = genericIfId) ∧
    checkId q (atbmQueueParseId packetID) = none

instance (q : AtbmQueue) (packetID : Nat) (check : Bool) : Decidable (Requeues q packetID check) :=
  inferInstanceAs (Decidable (_ ∧ _))

theorem SameKeys.mark (k : Nat) (s : TxQ) : SameKeys s (markGeneric k s) := of_update rfl rfl rfl

theorem SameKeys.requeue (e : QEnv) (packetID : Nat) (check : Bool) (s : TxQ) :
    SameKeys s (atbmQueueRequeue e packetID check s).1 := by
  unfold atbmQueueRequeue
  dsimp only
  split
  · exact .remove e packetID s
  · have h1 : SameKeys s (if check = true then s else markGeneric (atbmQueueParseId packetID).itemId s) := by
      cases check
      · exact .mark _ s
      · exact .refl s
    have h2 : ∀ t : TxQ, SameKeys t (trapIf ((atbmQueueParseId packetID).queueId != t.q.queueId) .queueId t) :=
      fun t => .flow (flowOnly_trap _ rfl t)
    split
    · next hc => exact (h1.trans (h2 _)).trans (.flow (flowOnly_trapOpt (checkId_trap hc) _))
    · have h3 : ∀ t : TxQ, SameKeys t (requeueItem (atbmQueueParseId packetID) t) := fun t => of_update rfl rfl rfl
      exact (h1.trans (h2 _)).trans (h3 _)

theorem requeue_queue (e : QEnv) (packetID : Nat) (check : Bool) (s : TxQ) :
    (Requeues s.q packetID check ∧ (atbmQueueRequeue e packetID check s).1.q.queue =
        (atbmQueueParseId packetID).itemId :: s.q.queue.erase (atbmQueueParseId packetID).itemId) ∨
      (¬ Requeues s.q packetID check ∧ (atbmQueueRequeue e packetID check s).1.q.queue.Sublist s.q.queue) := by
  unfold atbmQueueRequeue Requeues
  dsimp only
  split
  · next hg => exact .inr ⟨fun h => h.1 hg, (drains_remove e packetID s).queue⟩
  · next hg =>
    have hq : (if check = true then s else markGeneric (atbmQueueParseId packetID).itemId s).q.queue = s.q.queue := by
      cases check <;> rfl
    have hc : checkId (if check = true then s else markGeneric (atbmQueueParseId packetID).itemId s).q
        (atbmQueueParseId packetID) = checkId s.q (atbmQueueParseId packetID) := by
      cases check
      · exact markGeneric_checkId _ _ _
      · rfl
    rw [trapIf_q, hc]
    cases hid : checkId s.q (atbmQueueParseId packetID) with
    | some r =>
      refine .inr ⟨fun h => ?_, ?_⟩
      · cases h.2
      · rw [trapOpt_q, trapIf_q, hq]
    | none =>
      refine .inl ⟨⟨hg, rfl⟩, ?_⟩
      show _ :: (trapIf _ _ _).q.queue.erase _ = _
      rw [trapIf_q, hq]

/-- `jiffies - item->queue_timestamp >= queue->ttl` -/
def overdue (q : AtbmQueue) (jiffies : Int) (k : Nat) : Bool :=
  decide (q.ttl ≤ ulong (jiffies - (q.pool k).queueTimestamp))

theorem SameKeys.ofVif_eq {s s' : TxQ} (h : SameKeys s s') (i : Nat) : ofVif s'.q i = ofVif s.q i := by
  funext k
  have hk : (s'.q.pool k).txpriv.ifId = (s.q.pool k).txpriv.ifId := congrArg Prod.fst (h.key k)
  unfold ofVif
  rw [hk]

theorem SameKeys.overdue_eq {s s' : TxQ} (h : SameKeys s s') (now : Int) : overdue s'.q now = overdue s.q now := by
  funext k
  have hk : (s'.q.pool k).queueTimestamp = (s.q.pool k).queueTimestamp := congrArg (·.2.2) (h.key k)
  unfold overdue
  rw [hk, h.ttl]

theorem gcLoop_queue (e : QEnv) (i : Nat) (ks : List Nat) (loop : Nat) (wake : Bool) (s : TxQ) {pre : List Nat}
    (hq : s.q.queue = pre ++ ks) (hn : s.q.queue.Nodup) :
    (gcLoop e i ks loop wake s).1.q.queue = pre ++ sweep (ofVif s.q i) (overdue s.q e.jiffies) ks := by
  induction ks generalizing pre loop wake s with
  | nil => exact hq
  | cons k ks ih =>
    unfold gcLoop sweep
    dsimp only
    have hsplit : pre ++ k :: ks = (pre ++ [k]) ++ ks := by rw [List.append_assoc, List.singleton_append]
    by_cases hv : (s.q.pool k).txpriv.ifId.toNat = i
    · have hP : ofVif s.q i k = true := beq_iff_eq.mpr hv
      rw [hP, Bool.not_true, if_neg Bool.false_ne_true, trapIf_q, if_neg (not_not.mpr hv)]
      by_cases hd : ulong (e.jiffies - (s.q.pool k).queueTimestamp) < s.q.ttl
      · have hE : overdue s.q e.jiffies k = false := decide_eq_false (Int.not_le.mpr hd)
        rw [if_pos hd, hE, if_neg Bool.false_ne_true, trapIf_q]
        exact hq
      · have hE : overdue s.q e.jiffies k = true := decide_eq_true (Int.not_lt.mp hd)
        rw [if_neg hd, hE, if_pos rfl]
        have hkey := (SameKeys.flow (flowOnly_trap (decide (loop + 1 > 300)) (t := .gcLoop) rfl s)).trans
          (.gcItem k (trapIf (decide (loop + 1 > 300)) .gcLoop s))
        have hnk : k ∉ pre := by
          rw [hq] at hn
          intro hk
          exact (List.nodup_append.mp hn).2.2 k hk k List.mem_cons_self rfl
        have hq' : (gcItem k (trapIf (decide (loop + 1 > 300)) .gcLoop s)).q.queue = pre ++ ks := by
          rw [gcItem_queue, trapIf_q, hq, List.erase_append_right _ hnk, List.erase_cons_head]
        have hn' : (gcItem k (trapIf (decide (loop + 1 > 300)) .gcLoop s)).q.queue.Nodup := by
          rw [gcItem_queue, trapIf_q]
          exact hn.erase k
        rw [ih _ _ _ hq' hn', hkey.ofVif_eq, hkey.overdue_eq]
    · have hP : ofVif s.q i k = false := beq_eq_false_iff_ne.mpr hv
      have hkey := SameKeys.flow (flowOnly_trap (decide (loop + 1 > 300)) (t := .gcLoop) rfl s)
      rw [hP, Bool.not_false, if_pos rfl, trapIf_q, if_pos hv,
        ih _ _ (trapIf (decide (loop + 1 > 300)) .gcLoop s) (by rw [trapIf_q, hq, hsplit]) (by rwa [trapIf_q]),
        hkey.ofVif_eq, hkey.overdue_eq, List.append_assoc, List.singleton_append]

theorem gc_queue (e : QEnv) (i : Nat) {s : TxQ} (hn : s.q.queue.Nodup) :
    (atbmQueueGc e i s).q.queue = sweep (ofVif s.q i) (overdue s.q e.jiffies) s.q.queue := by
  obtain ⟨l, o, g, b, hq⟩ := (gc_flow e i s).fields
  have hkey : SameKeys s (setGc i none s) := .flow (flowOnly_setGc i none s)
  have hnil : (setGc i none s).q.queue = [] ++ s.q.queue := rfl
  have hloop := gcLoop_queue e i s.q.queue 0 false (setGc i none s) hnil hn
  rw [hq]
  show (gcLoop e i s.q.queue 0 false (setGc i none s)).1.q.queue = _
  rw [hloop, hkey.ofVif_eq, hkey.overdue_eq, List.nil_append]

/-- The queues, `jiffies` at the last step, the steps so far, and the step at which each slot was last filled. -/
structure AgedQueues where
  queues : TxQueues
  clock : Int
  steps : Nat
  putNo : Fin 4 → Nat → Nat

def putSlot (s : TxQ) : QOp → Option Nat
  | .put _ t => if s.stats.mapCapacity ≤ t.linkId.toNat then none else s.q.freePool.head?
  | _ => none

namespace AgedQueues

/-- `jiffies` is an `unsigned long` and does not go backwards. -/
def enabled (a : AgedQueues) (ev : QEvent) : Prop :=
  Valid a.queues ev ∧ a.clock ≤ ev.env.jiffies ∧ ev.env.jiffies < 18446744073709551616

instance (a : AgedQueues) (ev : QEvent) : Decidable (a.enabled ev) := inferInstanceAs (Decidable (_ ∧ _ ∧ _))

def next (a : AgedQueues) (ev : QEvent) : AgedQueues where
  queues := a.queues.step ev
  clock := ev.env.jiffies
  steps := a.steps + 1
  putNo :=
    match putSlot (a.queues.view ev.c) ev.op with
    | none => a.putNo
    | some k => Function.update a.putNo ev.c (Function.update (a.putNo ev.c) k (a.steps + 1))

def start (ttl : Fin 4 → Int) (clock : Int) : AgedQueues := ⟨TxQueues.start ttl, clock, 0, fun _ _ => 0⟩

/-- The waiting frames with one value of `g` are in the order of their puts. -/
def InOrder {β : Type} (g : UInt8 × UInt8 × Int → β) (a : AgedQueues) : Prop :=
  ∀ c, (a.queues.txQueue c).queue.Pairwise fun j k =>
    g ((a.queues.txQueue c).pool j).key = g ((a.queues.txQueue c).pool k).key → a.putNo c j < a.putNo c k

def linkOf (key : UInt8 × UInt8 × Int) : UInt8 × UInt8 := (key.1, key.2.1)

/-- **The frames of a link wait in the order of their puts.** -/
def LinkOrder (a : AgedQueues) : Prop := a.InOrder linkOf

/-- **What a run of the collector has to do**: no frame of its interface is left that is due, and it takes none
but those. -/
def Collects (a : AgedQueues) (ev : QEvent) : Prop :=
  ∀ i, ev.op = .gc i →
    (∀ k ∈ ((a.next ev).queues.txQueue ev.c).queue, ofVif ((a.next ev).queues.txQueue ev.c) i k = true →
      overdue ((a.next ev).queues.txQueue ev.c) ev.env.jiffies k = false) ∧
    ∀ k ∈ (a.queues.txQueue ev.c).queue, k ∉ ((a.next ev).queues.txQueue ev.c).queue →
      ofVif (a.queues.txQueue ev.c) i k = true ∧ overdue (a.queues.txQueue ev.c) ev.env.jiffies k = true

/-- A frame that is put back is older than those that wait with the same `g`. -/
def PutsBack {β : Type} (g : UInt8 × UInt8 × Int → β) (a : AgedQueues) (ev : QEvent) : Prop :=
  match ev.op with
  | .requeue packetID check =>
    let q := a.queues.txQueue ev.c
    let k := (atbmQueueParseId packetID).itemId
    Requeues q packetID check → ∀ j ∈ q.queue, j ≠ k → g (q.pool j).key = g (q.pool k).key →
      a.putNo ev.c k < a.putNo ev.c j
  | _ => True

/-- The condition on a collector: none of its frames that is due waits behind a young one of another link. -/
def NoneBlocked (a : AgedQueues) (c : Fin 4) (now : Int) (i : Nat) : Prop :=
  let q := a.queues.txQueue c
  q.queue.Pairwise fun j k => ofVif q i j = true → ofVif q i k = true →
    linkOf (q.pool j).key ≠ linkOf (q.pool k).key → overdue q now k = true → overdue q now j = true

instance (a : AgedQueues) (c : Fin 4) (now : Int) (i : Nat) : Decidable (a.NoneBlocked c now i) :=
  inferInstanceAs (Decidable (List.Pairwise _ _))

/-- The condition on a step: a frame put back is older than those of its link that wait, and no collector finds a
frame of its interface that is due behind a young one of another link. -/
def Orderly (a : AgedQueues) (ev : QEvent) : Prop :=
  a.PutsBack linkOf ev ∧
    match ev.op with
    | .gc i => a.NoneBlocked ev.c ev.env.jiffies i
    | _ => True

instance {β : Type} [DecidableEq β] (g : UInt8 × UInt8 × Int → β) (a : AgedQueues) (ev : QEvent) :
    Decidable (a.PutsBack g ev) := by
  unfold PutsBack
  split <;> infer_instance

instance (a : AgedQueues) (ev : QEvent) : Decidable (a.Orderly ev) := by
  unfold Orderly
  split <;> infer_instance

end AgedQueues

def agedQueues : Sys AgedQueues QEvent :=
  .ofNext (fun a => ∃ ttl clock, 0 ≤ clock ∧ a = .start ttl clock) AgedQueues.enabled AgedQueues.next

variable {s : TxQ} {op : QOp}

theorem put_none {e : QEnv} {skb : SkBuff} {t : AtbmTxpriv} (h : putSlot s (.put skb t) = none) :
    SameKeys s (atbmQueuePut e skb t s).1 ∧ (atbmQueuePut e skb t s).1.q.queue = s.q.queue := by
  unfold putSlot at h
  dsimp only at h
  unfold atbmQueuePut
  split
  · exact ⟨.refl s, rfl⟩
  · next hl =>
    rw [if_neg hl, List.head?_eq_none_iff] at h
    rw [h]
    exact ⟨.flow (flowOnly_trap true (t := .freePoolEmpty) rfl s), by rw [trapIf_q]⟩

theorem put_some {e : QEnv} {skb : SkBuff} {t : AtbmTxpriv} {k : Nat} (h : putSlot s (.put skb t) = some k) :
    (atbmQueuePut e skb t s).1.q.queue = s.q.queue ++ [k] ∧ k ∈ s.q.freePool ∧
      (∀ j, j ≠ k → ((atbmQueuePut e skb t s).1.q.pool j).key = (s.q.pool j).key) ∧
      ((atbmQueuePut e skb t s).1.q.pool k).key = (t.ifId, t.linkId, e.jiffies) := by
  unfold putSlot at h
  dsimp only at h
  unfold atbmQueuePut
  split
  · next hl =>
    rw [if_pos hl] at h
    cases h
  · next hl =>
    rw [if_neg hl] at h
    cases hf : s.q.freePool with
    | nil =>
      rw [hf] at h
      cases h
    | cons k' rest =>
      rw [hf, List.head?_cons, Option.some.injEq] at h
      subst h
      have hflow := flowOnly_putOverfull e t.ifId.toNat
        (putItem e skb t k' (trapIf (s.q.pool k').skb.isSome .itemSkb s))
      obtain ⟨l, o, g, b, hq⟩ := hflow.fields
      dsimp only
      rw [hq]
      refine ⟨?_, List.mem_cons_self, fun j hj => ?_, ?_⟩
      · show (trapIf _ _ s).q.queue ++ [k'] = _
        rw [trapIf_q]
      · show (Function.update (trapIf _ _ s).q.pool k' _ j).key = _
        rw [Function.update_of_ne hj, trapIf_q]
      · show (Function.update (trapIf _ _ s).q.pool k' _ k').key = _
        rw [Function.update_self]
        rfl

theorem QOp.sameKeys (h : op.isPut = false) (e : QEnv) (s : TxQ) : SameKeys s (op.run e s) := by
  cases op with
  | put skb t => cases h
  | get i m => exact .get e i m s
  | requeue p check => exact .requeue e p check s
  | remove p => exact .remove e p s
  | gc i => exact .gc e i s
  | clear i => exact .clear i s
  | lock i => exact .flow (flowOnly_lock e i s)
  | unlock i => exact .flow (flowOnly_unlock i s)

theorem putSlot_isPut {k : Nat} (h : putSlot s op = some k) : op.isPut = true := by
  cases op <;> first | rfl | cases h

theorem QOp.sameKeys_of_none (h : putSlot s op = none) (e : QEnv) : SameKeys s (op.run e s) := by
  cases hop : op.isPut with
  | false => exact QOp.sameKeys hop e s
  | true =>
    cases op with
    | put skb t => exact (put_none h).1
    | _ => cases hop

namespace AgedQueues

def Fills (a : AgedQueues) (ev : QEvent) (c : Fin 4) (k : Nat) : Prop :=
  c = ev.c ∧ putSlot (a.queues.view ev.c) ev.op = some k

def putTime (a : AgedQueues) (c : Fin 4) (k : Nat) : Int := ((a.queues.txQueue c).pool k).queueTimestamp

section
variable (a : AgedQueues) (ev : QEvent)

theorem next_other {c : Fin 4} (hc : c ≠ ev.c) : (a.next ev).queues.txQueue c = a.queues.txQueue c :=
  a.queues.step_txQueue_other ev hc

theorem next_self : (a.next ev).queues.txQueue ev.c = (ev.op.run ev.env (a.queues.view ev.c)).q :=
  a.queues.step_txQueue_self ev

variable {a ev} {c : Fin 4} {k : Nat}

theorem key_of_not_fills (h : ¬ a.Fills ev c k) :
    (((a.next ev).queues.txQueue c).pool k).key = ((a.queues.txQueue c).pool k).key := by
  by_cases hc : c = ev.c
  · subst hc
    rw [next_self]
    cases hp : putSlot (a.queues.view ev.c) ev.op with
    | none => exact (QOp.sameKeys_of_none hp ev.env).key k
    | some k' =>
      have hk : k ≠ k' := by
        rintro rfl
        exact h ⟨rfl, hp⟩
      obtain ⟨c, e, op⟩ := ev
      cases op with
      | put skb t => exact (put_some hp).2.2.1 k hk
      | _ => cases hp
  · rw [next_other a ev hc]

theorem putNo_of_not_fills (h : ¬ a.Fills ev c k) : (a.next ev).putNo c k = a.putNo c k := by
  unfold next
  cases hp : putSlot (a.queues.view ev.c) ev.op with
  | none => rfl
  | some k' =>
    dsimp only
    by_cases hc : c = ev.c
    · subst hc
      have hk : k ≠ k' := by
        rintro rfl
        exact h ⟨rfl, hp⟩
      rw [Function.update_self, Function.update_of_ne hk]
    · rw [Function.update_of_ne hc]

theorem putTime_of_not_fills (h : ¬ a.Fills ev c k) : (a.next ev).putTime c k = a.putTime c k :=
  congrArg (·.2.2) (key_of_not_fills h)

theorem putTime_of_fills (h : a.Fills ev c k) : (a.next ev).putTime c k = ev.env.jiffies := by
  obtain ⟨rfl, hp⟩ := h
  unfold putTime
  rw [next_self]
  obtain ⟨c, e, op⟩ := ev
  cases op with
  | put skb t => exact congrArg (·.2.2) (put_some hp).2.2.2
  | _ => cases hp

theorem putNo_of_fills (h : a.Fills ev c k) : (a.next ev).putNo c k = a.steps + 1 := by
  obtain ⟨rfl, hp⟩ := h
  unfold next
  rw [hp]
  dsimp only
  rw [Function.update_self, Function.update_self]

end

/-- What a run keeps: no slot is dated later than now, and of two the one filled later is not dated earlier. -/
structure Dated (a : AgedQueues) : Prop where
  shape : ∀ c, Shape c (a.queues.view c)
  putNo : ∀ c k, a.putNo c k ≤ a.steps
  nonneg : ∀ c k, 0 ≤ a.putTime c k
  past : ∀ c k, a.putTime c k ≤ a.clock
  mono : ∀ c j k, a.putNo c j < a.putNo c k → a.putTime c j ≤ a.putTime c k

theorem dated_start (ttl : Fin 4 → Int) {clock : Int} (h : 0 ≤ clock) : Dated (.start ttl clock) where
  shape := fun c => shape_init c ttl
  putNo := fun _ _ => Nat.le_refl 0
  nonneg := fun _ _ => Int.le_refl 0
  past := fun _ _ => h
  mono := fun _ _ _ h => absurd h (Nat.lt_irrefl 0)

theorem Dated.next {a : AgedQueues} {ev : QEvent} (h : Dated a) (he : a.enabled ev) : Dated (a.next ev) := by
  obtain ⟨hv, hclock, -⟩ := he
  have hback : ∀ c k, a.putTime c k ≤ ev.env.jiffies := fun c k => (h.past c k).trans hclock
  refine ⟨fun c => shape_step hv h.shape c, fun c k => ?_, fun c k => ?_, fun c k => ?_, fun c j k hjk => ?_⟩
  · by_cases hf : a.Fills ev c k
    · exact Nat.le_of_eq (putNo_of_fills hf)
    · rw [putNo_of_not_fills hf]
      exact (h.putNo c k).trans (Nat.le_succ _)
  · by_cases hf : a.Fills ev c k
    · rw [putTime_of_fills hf]
      exact (h.nonneg c k).trans (hback c k)
    · rw [putTime_of_not_fills hf]
      exact h.nonneg c k
  · show _ ≤ ev.env.jiffies
    by_cases hf : a.Fills ev c k
    · exact Int.le_of_eq (putTime_of_fills hf)
    · rw [putTime_of_not_fills hf]
      exact hback c k
  · by_cases hk : a.Fills ev c k
    · rw [putTime_of_fills hk]
      by_cases hj : a.Fills ev c j
      · exact Int.le_of_eq (putTime_of_fills hj)
      · rw [putTime_of_not_fills hj]
        exact hback c j
    · by_cases hj : a.Fills ev c j
      · rw [putNo_of_fills hj, putNo_of_not_fills hk] at hjk
        exact absurd hjk (by have := h.putNo c k; omega)
      · rw [putNo_of_not_fills hj, putNo_of_not_fills hk] at hjk
        rw [putTime_of_not_fills hj, putTime_of_not_fills hk]
        exact h.mono c j k hjk

section
variable {β : Type} {g : UInt8 × UInt8 × Int → β} {a : AgedQueues} {ev : QEvent}

def Sorted (g : UInt8 × UInt8 × Int → β) (a : AgedQueues) (c : Fin 4) (l : List Nat) : Prop :=
  l.Pairwise fun j k =>
    g ((a.queues.txQueue c).pool j).key = g ((a.queues.txQueue c).pool k).key → a.putNo c j < a.putNo c k

theorem sorted_next_iff {c : Fin 4} {l : List Nat} (h : ∀ k ∈ l, ¬ a.Fills ev c k) :
    Sorted g (a.next ev) c l ↔ Sorted g a c l := by
  refine List.Pairwise.iff_of_mem fun {j k} hj hk => ?_
  rw [key_of_not_fills (h j hj), key_of_not_fills (h k hk), putNo_of_not_fills (h j hj), putNo_of_not_fills (h k hk)]

theorem not_fills_of_isPut (h : ev.op.isPut = false) (c : Fin 4) (k : Nat) : ¬ a.Fills ev c k := by
  rintro ⟨-, hp⟩
  rw [putSlot_isPut hp] at h
  cases h

theorem not_fills_of_queue (hd : Dated a) {c : Fin 4} {k : Nat} (hk : k ∈ (a.queues.txQueue c).queue) :
    ¬ a.Fills ev c k := by
  rintro ⟨rfl, hp⟩
  obtain ⟨c, e, op⟩ := ev
  cases op with
  | put skb t => exact (hd.shape c).not_busy_of_free (put_some (e := e) hp).2.1 (.inl hk)
  | _ => cases hp

theorem sorted_put (hd : Dated a) {c : Fin 4} {e : QEnv} {skb : SkBuff} {t : AtbmTxpriv}
    (h : Sorted g a c (a.queues.txQueue c).queue) :
    Sorted g (a.next ⟨c, e, .put skb t⟩) c ((a.next ⟨c, e, .put skb t⟩).queues.txQueue c).queue := by
  have hold : Sorted g (a.next ⟨c, e, .put skb t⟩) c (a.queues.txQueue c).queue :=
    (sorted_next_iff fun k hk => not_fills_of_queue hd hk).mpr h
  have hnext : (a.next ⟨c, e, .put skb t⟩).queues.txQueue c = (atbmQueuePut e skb t (a.queues.view c)).1.q :=
    next_self a ⟨c, e, .put skb t⟩
  cases hp : putSlot (a.queues.view c) (.put skb t) with
  | none =>
    rw [hnext, (put_none hp).2]
    exact hold
  | some k =>
    rw [hnext, (put_some hp).1]
    refine List.pairwise_append.mpr ⟨hold, List.pairwise_singleton _ _, fun j hj i hi _ => ?_⟩
    rw [List.mem_singleton.mp hi, putNo_of_not_fills (not_fills_of_queue hd hj), putNo_of_fills ⟨rfl, hp⟩]
    exact Nat.lt_succ_of_le (hd.putNo c j)

theorem sorted_requeue_iff (hd : Dated a) {c : Fin 4} {e : QEnv} {packetID : Nat} {check : Bool}
    (h : Sorted g a c (a.queues.txQueue c).queue) :
    Sorted g (a.next ⟨c, e, .requeue packetID check⟩) c
        ((a.next ⟨c, e, .requeue packetID check⟩).queues.txQueue c).queue ↔
      a.PutsBack g ⟨c, e, .requeue packetID check⟩ := by
  rw [sorted_next_iff fun k _ => not_fills_of_isPut rfl c k]
  have hnext : (a.next ⟨c, e, .requeue packetID check⟩).queues.txQueue c =
      (atbmQueueRequeue e packetID check (a.queues.view c)).1.q := next_self a ⟨c, e, .requeue packetID check⟩
  rw [hnext]
  show _ ↔ (Requeues (a.queues.txQueue c) packetID check → _)
  obtain ⟨hr, hq⟩ | ⟨hr, hq⟩ := requeue_queue e packetID check (a.queues.view c)
  · rw [hq]
    refine Iff.trans ?_ (imp_iff_right hr).symm
    have hnodup : (a.queues.txQueue c).queue.Nodup := (hd.shape c).slots.nodup_second
    have hrest : Sorted g a c ((a.queues.txQueue c).queue.erase (atbmQueueParseId packetID).itemId) :=
      h.sublist List.erase_sublist
    refine List.pairwise_cons.trans ((and_iff_left hrest).trans ?_)
    constructor
    · intro ho j hj hne hg
      exact ho j (hnodup.mem_erase_iff.mpr ⟨hne, hj⟩) hg.symm
    · intro ho j hj hg
      obtain ⟨hne, hj⟩ := hnodup.mem_erase_iff.mp hj
      exact ho j hj hne hg.symm
  · exact iff_of_true (h.sublist hq) fun hr' => absurd hr' hr

theorem inOrder_next_iff (hd : Dated a) (h : a.InOrder g) : (a.next ev).InOrder g ↔ a.PutsBack g ev := by
  have hall : (a.next ev).InOrder g ↔ Sorted g (a.next ev) ev.c ((a.next ev).queues.txQueue ev.c).queue := by
    refine ⟨fun ho => ho ev.c, fun ho c => ?_⟩
    by_cases hc : c = ev.c
    · exact hc ▸ ho
    · rw [next_other a ev hc]
      have hsame : Sorted g (a.next ev) c (a.queues.txQueue c).queue :=
        (sorted_next_iff fun k hk => not_fills_of_queue hd hk).mpr (h c)
      unfold Sorted at hsame
      rwa [next_other a ev hc] at hsame
  rw [hall]
  obtain ⟨c, e, op⟩ := ev
  have hdrains : op.drainsOnly = true → op.isPut = false →
      Sorted g (a.next ⟨c, e, op⟩) c ((a.next ⟨c, e, op⟩).queues.txQueue c).queue := by
    intro h1 h2
    have hsub := (QOp.drains h1 e (a.queues.view c)).queue
    rw [next_self a ⟨c, e, op⟩]
    exact (sorted_next_iff fun k _ => not_fills_of_isPut h2 c k).mpr ((h c).sublist hsub)
  cases op with
  | put skb t => exact iff_of_true (sorted_put hd (h c)) trivial
  | requeue packetID check => exact sorted_requeue_iff hd (h c)
  | _ => exact iff_of_true (hdrains rfl rfl) trivial

end

section
variable {a : AgedQueues} {ev : QEvent}

theorem overdue_mono (h : Dated a) (he : a.enabled ev) {c : Fin 4} {j k : Nat} (hjk : a.putTime c j ≤ a.putTime c k)
    (hk : overdue (a.queues.txQueue c) ev.env.jiffies k = true) :
    overdue (a.queues.txQueue c) ev.env.jiffies j = true := by
  have hage : ∀ k, ulong (ev.env.jiffies - a.putTime c k) = ev.env.jiffies - a.putTime c k := by
    intro k
    have h0 := h.nonneg c k
    have h1 := (h.past c k).trans he.2.1
    have h2 := he.2.2
    unfold ulong
    exact Int.emod_eq_of_lt (by omega) (by omega)
  have hk := of_decide_eq_true hk
  apply decide_eq_true
  have hj : ulong (ev.env.jiffies - ((a.queues.txQueue c).pool j).queueTimestamp) = _ := hage j
  have hk' : ulong (ev.env.jiffies - ((a.queues.txQueue c).pool k).queueTimestamp) = _ := hage k
  rw [hj]
  rw [hk'] at hk
  omega

theorem noneBlocked_iff (hd : Dated a) (he : a.enabled ev) (ho : a.LinkOrder) (c : Fin 4) (i : Nat) :
    a.NoneBlocked c ev.env.jiffies i ↔
      (a.queues.txQueue c).queue.Pairwise fun j k => ofVif (a.queues.txQueue c) i j = true →
        ofVif (a.queues.txQueue c) i k = true → overdue (a.queues.txQueue c) ev.env.jiffies k = true →
        overdue (a.queues.txQueue c) ev.env.jiffies j = true := by
  constructor
  · intro h
    refine (h.and (ho c)).imp fun {j k} hjk hj hk hdue => ?_
    by_cases hl : linkOf ((a.queues.txQueue c).pool j).key = linkOf ((a.queues.txQueue c).pool k).key
    · exact overdue_mono hd he (hd.mono c j k (hjk.2 hl)) hdue
    · exact hjk.1 hj hk hl hdue
  · intro h
    exact h.imp fun {j k} hjk hj hk _ hdue => hjk hj hk hdue

theorem collects_gc_iff (hd : Dated a) {c : Fin 4} {e : QEnv} {i : Nat} (he : a.enabled ⟨c, e, .gc i⟩)
    (ho : a.LinkOrder) : a.Collects ⟨c, e, .gc i⟩ ↔ a.NoneBlocked c e.jiffies i := by
  have hnext : (a.next ⟨c, e, .gc i⟩).queues.txQueue c = (atbmQueueGc e i (a.queues.view c)).q :=
    next_self a ⟨c, e, .gc i⟩
  have hnodup : (a.queues.view c).q.queue.Nodup := (hd.shape c).slots.nodup_second
  have hkeys := SameKeys.gc e i (a.queues.view c)
  refine Iff.trans ?_ (noneBlocked_iff hd he ho c i).symm
  rw [← sweep_complete_iff]
  unfold Collects
  dsimp only
  rw [hnext, gc_queue e i hnodup]
  constructor
  · intro h k hk hP
    have h1 := (h i rfl).1 k hk
    rw [hkeys.ofVif_eq, hkeys.overdue_eq] at h1
    exact h1 hP
  · rintro h i' hi
    obtain rfl : i = i' := QOp.gc.inj hi
    refine ⟨fun k hk hP => ?_, fun k hk hn => sweep_due _ _ hk hn⟩
    rw [hkeys.ofVif_eq] at hP
    rw [hkeys.overdue_eq]
    exact h k hk hP

end

theorem orderly_iff {a : AgedQueues} {ev : QEvent} (hd : Dated a) (he : a.enabled ev) (ho : a.LinkOrder) :
    a.Orderly ev ↔ (a.next ev).LinkOrder ∧ a.Collects ev := by
  unfold Orderly LinkOrder
  rw [inOrder_next_iff hd ho]
  obtain ⟨c, e, op⟩ := ev
  cases op with
  | gc i => exact and_congr_right fun _ => (collects_gc_iff hd he ho).symm
  | _ => exact and_congr_right fun _ => iff_of_true trivial fun i hi => nomatch hi

end AgedQueues

open AgedQueues

/-- **Every run keeps each link in the order of its puts and lets the collector take all that is due iff its steps
are orderly.** -/
theorem age_order_iff {s t : AgedQueues} {l : List (AgedQueues × QEvent)} (hs : agedQueues.init s)
    (h : Path agedQueues s l t) :
    ((∀ p ∈ l, p.1.LinkOrder ∧ p.1.Collects p.2) ∧ t.LinkOrder) ↔ ∀ p ∈ l, p.1.Orderly p.2 := by
  obtain ⟨ttl, clock, hclock, rfl⟩ := hs
  refine h.exactSteps (I := Dated) (P := LinkOrder) (Q := Collects) ?_ ?_ (dated_start ttl hclock) fun c => .nil
  · rintro a ev b hd ho ⟨he, rfl⟩ hev
    obtain ⟨h1, h2⟩ := (orderly_iff hd he ho).mp hev
    exact ⟨hd.next he, h1, h2⟩
  · rintro a ev b hd ho ⟨he, rfl⟩ h1 h2
    exact (orderly_iff hd he ho).mpr ⟨h1, h2⟩

def sampleAt (now : Int) (op : QOp) : QEvent := ⟨0, { sampleEnv with jiffies := now }, op⟩

def agedStart : AgedQueues := .start (fun _ => 1000) 0

/-- Two frames of a link, put at 0 and at 5, are taken for the firmware and put back in the order given; the
collector runs when the first is due and the second is not. -/
def putBackBoth (first second : Nat) : List QEvent :=
  [sampleAt 0 (.put ⟨7, 0⟩ (sampleTxpriv 0)), sampleAt 5 (.put ⟨8, 0⟩ (sampleTxpriv 0)),
    sampleAt 5 (.get 0 0xffffffff), sampleAt 5 (.get 0 0xffffffff),
    sampleAt 6 (.requeue first true), sampleAt 6 (.requeue second true), sampleAt 1002 (.gc 0)]

theorem age_order_youngest_first :
    (∀ p ∈ trace AgedQueues.next agedStart (putBackBoth 0x01000001 0x01000000), p.1.LinkOrder ∧ p.1.Collects p.2) ∧
    ((putBackBoth 0x01000001 0x01000000).foldl AgedQueues.next agedStart).LinkOrder :=
  (age_order_iff (s := agedStart) (l := trace AgedQueues.next agedStart (putBackBoth 0x01000001 0x01000000))
    ⟨_, _, Int.le_refl 0, rfl⟩ (.ofFires (by decide +kernel))).mpr (by decide +kernel)

/-- **The older frame goes back first**: it waits behind the younger one, and the collector leaves it though it
is due. -/
theorem age_order_oldest_first :
    ∃ t, Path agedQueues agedStart (trace AgedQueues.next agedStart (putBackBoth 0x01000000 0x01000001)) t ∧
      (t.queues.txQueue 0).queue = [1, 0] ∧ t.putNo 0 0 < t.putNo 0 1 ∧ ¬ t.LinkOrder ∧
      overdue (t.queues.txQueue 0) t.clock 0 = true ∧ ofVif (t.queues.txQueue 0) 0 0 = true := by
  refine ⟨_, .ofFires (by decide +kernel), by decide +kernel, by decide +kernel, fun h => ?_, by decide +kernel,
    by decide +kernel⟩
  have hq : (((putBackBoth 0x01000000 0x01000001).foldl AgedQueues.next agedStart).queues.txQueue 0).queue = [1, 0] := by
    decide +kernel
  have h0 := h 0
  rw [hq] at h0
  exact absurd (List.rel_of_pairwise_cons h0 List.mem_cons_self) (by decide +kernel)

theorem AgedQueues.PutsBack.link {a : AgedQueues} {ev : QEvent} (h : a.PutsBack Prod.fst ev) : a.PutsBack linkOf ev := by
  obtain ⟨c, e, op⟩ := ev
  cases op with
  | requeue packetID check => exact fun hr j hj hne hl => h hr j hj hne (Prod.mk.inj hl).1
  | _ => trivial

end AtbmWifi
