import AtbmWifi.Queue.Shape

/-!
# The frames that wait

Only a put and a requeue make a frame wait: every other operation takes frames off
the queue and leaves the `txpriv` of each slot as it was (`QOp.drains`).  `waiting`
counts the frames that wait, by a property of their `txpriv`.
-/

namespace AtbmWifi

structure Drains (s s' : TxQ) : Prop where
  queue : s'.q.queue.Sublist s.q.queue
  txpriv : ∀ k, (s'.q.pool k).txpriv = (s.q.pool k).txpriv

namespace Drains

theorem refl (s : TxQ) : Drains s s := ⟨List.Sublist.refl _, fun _ => rfl⟩

theorem trans {s t u : TxQ} (h : Drains s t) (h' : Drains t u) : Drains s u :=
  ⟨h'.queue.trans h.queue, fun k => (h'.txpriv k).trans (h.txpriv k)⟩

theorem of_update {s s' : TxQ} {k : Nat} {it : AtbmQueueItem} (hq : s'.q.queue.Sublist s.q.queue)
    (hp : s'.q.pool = Function.update s.q.pool k it) (ht : it.txpriv = (s.q.pool k).txpriv) : Drains s s' := by
  refine ⟨hq, ?_⟩
  intro j
  rw [hp]
  by_cases hj : j = k
  · subst hj
    rw [Function.update_self, ht]
  · rw [Function.update_of_ne hj]

theorem flow {s s' : TxQ} (h : FlowOnly s s') : Drains s s' := by
  obtain ⟨l, o, g, b, hq⟩ := h.fields
  constructor
  · rw [hq]
  · intro k
    rw [hq]

theorem get (e : QEnv) (k : Nat) (s : TxQ) : Drains s (getItem e k s) :=
  of_update List.erase_sublist rfl rfl

theorem free (p : ParsedId) (s : TxQ) : Drains s (freeItem p s) :=
  of_update List.erase_sublist rfl rfl

theorem expire (k : Nat) (s : TxQ) : Drains s (gcItem k s) :=
  of_update List.erase_sublist rfl rfl

theorem clearLists (i : Int) (s : TxQ) : Drains s (clearLists i s) := by
  constructor
  · exact List.filter_sublist
  · intro k
    show (if _ then { s.q.pool k with skb := none } else s.q.pool k : AtbmQueueItem).txpriv = _
    split <;> rfl

theorem clearVif (i : Nat) (s : TxQ) : Drains s (clearVif i s) := ⟨List.Sublist.refl _, fun _ => rfl⟩

end Drains

theorem drains_get (e : QEnv) (ifId linkIdMap : Nat) (s : TxQ) : Drains s (atbmQueueGet e ifId linkIdMap s).1 := by
  unfold atbmQueueGet
  split
  · exact .flow (flowOnly_trap true (t := .getNone) rfl s)
  · next k hk => exact (Drains.get e k s).trans (.flow (flowOnly_wakeIf _ _))

theorem drains_remove (e : QEnv) (packetID : Nat) (s : TxQ) : Drains s (atbmQueueRemove e packetID s).1 := by
  unfold atbmQueueRemove
  have h1 : Drains s (trapIf ((atbmQueueParseId packetID).queueId != s.q.queueId) .queueId s) :=
    .flow (flowOnly_trap _ rfl s)
  simp only
  split
  · next ret t hc =>
    exact h1.trans (.flow (flowOnly_trapOpt (checkId_trap hc) _))
  · refine h1.trans ?_
    refine (Drains.free (atbmQueueParseId packetID) _).trans ?_
    exact (Drains.flow (flowOnly_releaseOverfull e _ _)).trans (.flow (flowOnly_destroySkb _ _))

theorem drains_gcLoop (e : QEnv) (i : Nat) (ks : List Nat) (loop : Nat) (wake : Bool) (s : TxQ) :
    Drains s (gcLoop e i ks loop wake s).1 := by
  induction ks generalizing loop wake s with
  | nil => exact .refl s
  | cons k ks ih =>
    unfold gcLoop
    have h1 : Drains s (trapIf (decide (loop + 1 > 300)) .gcLoop s) := .flow (flowOnly_trap _ rfl s)
    simp only
    split
    · exact h1.trans (ih _ _ _)
    · split
      · exact h1
      · exact (h1.trans (.expire k _)).trans (ih _ _ _)

theorem drains_gc (e : QEnv) (i : Nat) (s : TxQ) : Drains s (atbmQueueGc e i s) := by
  unfold atbmQueueGc atbmQueueGcCore
  have h1 : Drains s (setGc i none s) := .flow (flowOnly_setGc i none s)
  have h2 := h1.trans (drains_gcLoop e i s.q.queue 0 false (setGc i none s))
  have h3 := h2.trans (.flow (flowOnly_wakeIf (gcLoop e i s.q.queue 0 false (setGc i none s)).2.1 _))
  simp only
  refine h3.trans ?_
  split
  · split
    · exact .flow (flowOnly_clearOverfull i _)
    · split
      · exact .flow (flowOnly_setGc i _ _)
      · exact .refl _
  · exact .refl _

theorem drains_clear (ifId : Int) (s : TxQ) : Drains s (atbmQueueClear ifId s).1 := by
  unfold atbmQueueClear
  have h1 := Drains.clearLists ifId s
  simp only
  split
  · have h2 := (h1.trans (.clearVif 0 _)).trans (.clearVif 1 _)
    have h3 := (h2.trans (.flow (flowOnly_clearOverfullIf 0 _))).trans (.flow (flowOnly_clearOverfullIf 1 _))
    exact h3.trans (.flow (flowOnly_wakeIf true _))
  · have h2 := (h1.trans (.clearVif ifId.toNat _)).trans (.flow (flowOnly_clearOverfullIf ifId.toNat _))
    exact h2.trans (.flow (flowOnly_wakeIf true _))

def QOp.drainsOnly : QOp → Bool
  | .put _ _ | .requeue _ _ => false
  | _ => true

theorem QOp.drains {op : QOp} (h : op.drainsOnly = true) (e : QEnv) (s : TxQ) : Drains s (op.run e s) := by
  cases op with
  | put skb t => cases h
  | get ifId m => exact drains_get e ifId m s
  | requeue p check => cases h
  | remove p => exact drains_remove e p s
  | gc i => exact drains_gc e i s
  | clear i => exact drains_clear i s
  | lock i => exact .flow (flowOnly_lock e i s)
  | unlock i => exact .flow (flowOnly_unlock i s)

/-- Frames waiting whose `txpriv` is one of `F`. -/
def waiting (F : AtbmTxpriv → Bool) (q : AtbmQueue) : Nat := q.queue.countP fun k => F (q.pool k).txpriv

def waitingAll (F : AtbmTxpriv → Bool) (s : TxQueues) : Nat := ∑ c, waiting F (s.txQueue c)

theorem Drains.waiting_le {s s' : TxQ} (h : Drains s s') (F : AtbmTxpriv → Bool) : waiting F s'.q ≤ waiting F s.q := by
  unfold waiting
  have hF : (fun k => F (s'.q.pool k).txpriv) = fun k => F (s.q.pool k).txpriv := by
    funext k
    rw [h.txpriv k]
  rw [hF]
  exact h.queue.countP_le

theorem waiting_get (F : AtbmTxpriv → Bool) (e : QEnv) {ifId linkIdMap k : Nat} {s : TxQ}
    (h : selectItem s.q ifId linkIdMap = some k) :
    waiting F (atbmQueueGet e ifId linkIdMap s).1.q + (if F (s.q.pool k).txpriv = true then 1 else 0) =
      waiting F s.q := by
  unfold atbmQueueGet
  rw [h]
  have hF : (fun j => F ((getItem e k s).q.pool j).txpriv) = fun j => F (s.q.pool j).txpriv := by
    funext j
    rw [(Drains.get e k s).txpriv j]
  show waiting F (wakeIf _ (getItem e k s)).q + _ = _
  rw [wakeIf_q, waiting, hF]
  exact Slots.countP_erase_add (fun j => F (s.q.pool j).txpriv) (selectItem_mem h)

theorem waiting_put (F : AtbmTxpriv → Bool) {c : Fin 4} {e : QEnv} {skb : SkBuff} {t : AtbmTxpriv} {s : TxQ}
    (h : Shape c s) (hret : (atbmQueuePut e skb t s).2 = 0) :
    waiting F (atbmQueuePut e skb t s).1.q = waiting F s.q + (if F t = true then 1 else 0) := by
  unfold atbmQueuePut at hret ⊢
  split at hret
  · cases hret
  · next hl =>
    rw [if_neg hl]
    split at hret
    · cases hret
    · next k rest hf =>
      have hfree := h.not_busy_of_free (k := k) (by simp [hf])
      have hflow := flowOnly_putOverfull e t.ifId.toNat
        (putItem e skb t k (trapIf (s.q.pool k).skb.isSome .itemSkb s))
      obtain ⟨l, o, g, b, hq⟩ := hflow.fields
      have hold : s.q.queue.countP (fun j => F (Function.update s.q.pool k
          { s.q.pool k with
            skb := some skb, txpriv := t, generation := 0, queueTimestamp := e.jiffies
            packetID := atbmQueueMakePacketId s.q.generation s.q.queueId 0 k t.ifId.toNat t.rawLinkId.toNat } j).txpriv) =
          waiting F s.q := by
        apply List.countP_congr
        intro j hj
        have hjk : j ≠ k := fun hjk => hfree (.inl (hjk ▸ hj))
        rw [Function.update_of_ne hjk]
      show waiting F (putOverfull e t.ifId.toNat (putItem e skb t k _)).q = _
      rw [hq]
      unfold waiting putItem
      simp only [trapIf_q, List.countP_append, List.countP_singleton, Function.update_self]
      rw [hold]
      rfl

section
variable (F : AtbmTxpriv → Bool) (s : TxQueues) (ev : QEvent)

theorem waitingAll_step : waitingAll F (s.step ev) + waiting F (s.txQueue ev.c) =
    waitingAll F s + waiting F (ev.op.run ev.env (s.view ev.c)).q := s.sum_step ev (waiting F)

theorem waitingAll_drains (h : ev.op.drainsOnly = true) : waitingAll F (s.step ev) ≤ waitingAll F s := by
  have hstep := waitingAll_step F s ev
  have hle := (QOp.drains h ev.env (s.view ev.c)).waiting_le F
  rw [TxQueues.view_q] at hle
  omega

variable {F s} in
theorem waitingAll_put {c : Fin 4} {e : QEnv} {skb : SkBuff} {t : AtbmTxpriv} (h : Shape c (s.view c))
    (hret : (atbmQueuePut e skb t (s.view c)).2 = 0) :
    waitingAll F (s.step ⟨c, e, .put skb t⟩) = waitingAll F s + if F t = true then 1 else 0 := by
  have hstep := waitingAll_step F s ⟨c, e, .put skb t⟩
  have hput := waiting_put F h hret
  rw [TxQueues.view_q] at hput
  show waitingAll F (s.step ⟨c, e, .put skb t⟩) = _
  change _ + waiting F (s.txQueue c) = _ + waiting F (atbmQueuePut e skb t (s.view c)).1.q at hstep
  omega

variable {F s} in
theorem waitingAll_get {c : Fin 4} {e : QEnv} {i m k : Nat} (h : selectItem (s.txQueue c) i m = some k) :
    waitingAll F (s.step ⟨c, e, .get i m⟩) + (if F ((s.txQueue c).pool k).txpriv = true then 1 else 0) =
      waitingAll F s := by
  have hstep := waitingAll_step F s ⟨c, e, .get i m⟩
  have hget := waiting_get F e (s := s.view c) h
  rw [TxQueues.view_q] at hget
  change _ + waiting F (s.txQueue c) = _ + waiting F (atbmQueueGet e i m (s.view c)).1.q at hstep
  omega

theorem TxQueues.step_txpriv (h : ev.op.drainsOnly = true) (c : Fin 4) (k : Nat) :
    (((s.step ev).txQueue c).pool k).txpriv = ((s.txQueue c).pool k).txpriv := by
  by_cases hc : c = ev.c
  · subst hc
    rw [s.step_txQueue_self ev]
    exact (QOp.drains h ev.env (s.view ev.c)).txpriv k
  · rw [s.step_txQueue_other ev hc]

end

end AtbmWifi
