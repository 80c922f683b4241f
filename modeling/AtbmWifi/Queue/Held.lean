import AtbmWifi.Queue.Clear

/-!
# No frame is lost or destroyed twice

Whatever packet ids come back, a frame that was put is held by its queue until it
is handed to `skb_dtor`, once (`QOp.keeps`): for each kind of frame, the number held
and the number destroyed add up to the same before and after every operation but a
put, which adds its frame (`held_put`).  `kind` is what the destructor looks at.
-/

namespace AtbmWifi

/-- What `atbm_skb_dtor` reads of a `txpriv`. -/
structure FrameKind where
  ifId : UInt8
  rawLinkId : UInt8
  tid : UInt8
  rateId : UInt8
  deriving DecidableEq, Repr

def AtbmTxpriv.kind (t : AtbmTxpriv) : FrameKind := ⟨t.ifId, t.rawLinkId, t.tid, t.rateId⟩

/-- The item at `k` has a frame of the kinds `F`. -/
def live (F : FrameKind → Bool) (q : AtbmQueue) (k : Nat) : Bool :=
  (q.pool k).skb.isSome && F (q.pool k).txpriv.kind

/-- Frames of the kinds `F` waiting or pending. -/
def held (F : FrameKind → Bool) (q : AtbmQueue) : Nat :=
  q.queue.countP (live F q) + q.pending.countP (live F q)

/-- Frames of the kinds `F` handed to `skb_dtor`. -/
def destroyed (F : FrameKind → Bool) (l : List (Option SkBuff × AtbmTxpriv)) : Nat :=
  l.countP fun d => d.1.isSome && F d.2.kind

/-- `Shape`, and no frame is left in a free slot. -/
structure Stored (c : Fin 4) (s : TxQ) : Prop extends Shape c s where
  free : ∀ k ∈ s.q.freePool, (s.q.pool k).skb = none

/-- The frames are all there, held or destroyed, and the destroyed ones stay so. -/
structure Keeps (c : Fin 4) (s s' : TxQ) : Prop where
  stored : Stored c s'
  total : ∀ F, held F s'.q + destroyed F s'.dtor = held F s.q + destroyed F s.dtor
  dtor : s.dtor <+: s'.dtor

theorem Keeps.refl {c : Fin 4} {s : TxQ} (h : Stored c s) : Keeps c s s := ⟨h, fun _ => rfl, List.prefix_rfl⟩

theorem Keeps.trans {c : Fin 4} {s t u : TxQ} (h : Keeps c s t) (h' : Keeps c t u) : Keeps c s u :=
  ⟨h'.stored, fun F => (h'.total F).trans (h.total F), h.dtor.trans h'.dtor⟩

theorem destroyed_append (F : FrameKind → Bool) (l l' : List (Option SkBuff × AtbmTxpriv)) :
    destroyed F (l ++ l') = destroyed F l + destroyed F l' := List.countP_append

variable {F : FrameKind → Bool} {it : AtbmQueueItem} {k : Nat} {q q' : AtbmQueue}

theorem live_update (hp : q'.pool = Function.update q.pool k it) (hs : it.skb.isSome = (q.pool k).skb.isSome)
    (hk : it.txpriv.kind = (q.pool k).txpriv.kind) : live F q' = live F q := by
  funext j
  unfold live
  rw [hp]
  by_cases hj : j = k
  · subst hj
    simp [hs, hk]
  · simp [hj]

theorem live_update_of_ne
    (hp : q'.pool = Function.update q.pool k it) {j : Nat} (hj : j ≠ k) : live F q' j = live F q j := by
  unfold live
  rw [hp, Function.update_of_ne hj]

theorem countP_live_of_ne (hp : q'.pool = Function.update q.pool k it) {l : List Nat} (hl : k ∉ l) :
    l.countP (live F q') = l.countP (live F q) := by
  apply List.countP_congr
  intro j hj
  rw [live_update_of_ne hp fun hjk => hl (hjk ▸ hj)]

theorem countP_filter_add (l : List Nat) (p q : Nat → Bool) :
    (l.filter q).countP p + (l.filter fun k => !q k).countP p = l.countP p :=
  (List.countP_eq_countP_filter_add l p q).symm

namespace Stored

variable {c : Fin 4} {s : TxQ} (h : Stored c s)
include h

theorem free_of_not_busy {k : Nat} (hk : k < maxQueueSz) (hb : ¬Busy s.q k) : k ∈ s.q.freePool := by
  have hcount := h.slots k
  rw [if_pos hk, List.count_eq_zero_of_not_mem fun hq => hb (.inl hq),
    List.count_eq_zero_of_not_mem fun hp => hb (.inr hp)] at hcount
  exact List.count_pos_iff.mp (by omega)

theorem held_erase {F : FrameKind → Bool} {q' : AtbmQueue} {k : Nat} {it : AtbmQueueItem}
    (hk : k < maxQueueSz) (hp : q'.pool = Function.update s.q.pool k it)
    (hq : q'.queue = s.q.queue.erase k) (hpe : q'.pending = s.q.pending.erase k) :
    held F q' + (if live F s.q k = true then 1 else 0) = held F s.q := by
  unfold held
  have hnq : k ∉ s.q.queue.erase k := h.slots.nodup_second.not_mem_erase
  have hnp : k ∉ s.q.pending.erase k := h.slots.nodup_third.not_mem_erase
  rw [hq, hpe, countP_live_of_ne hp hnq, countP_live_of_ne hp hnp]
  by_cases hqk : k ∈ s.q.queue
  · have hpk := h.slots.not_mem_third_of_second hqk
    have hone := Slots.countP_erase_add (live F s.q) hqk
    rw [List.erase_of_not_mem hpk]
    omega
  · by_cases hpk : k ∈ s.q.pending
    · have hone := Slots.countP_erase_add (live F s.q) hpk
      rw [List.erase_of_not_mem hqk]
      omega
    · -- a free slot has no frame
      have hfree := h.free k (h.free_of_not_busy hk fun hb => hb.elim hqk hpk)
      have hlive : live F s.q k = false := by simp [live, hfree]
      rw [List.erase_of_not_mem hqk, List.erase_of_not_mem hpk, hlive]
      simp

theorem flow {s' : TxQ} (hf : FlowOnly s s') (hd : s'.dtor = s.dtor) : Keeps c s s' := by
  obtain ⟨l, o, g, b, hq⟩ := hf.fields
  have hheld : ∀ F, held F s'.q = held F s.q := by
    intro F
    rw [hq]
    rfl
  refine ⟨⟨h.toShape.flow hf, ?_⟩, ?_, ?_⟩
  · rw [hq]
    exact h.free
  · intro F
    rw [hheld, hd]
  · exact hd ▸ List.prefix_rfl

theorem get (e : QEnv) {k : Nat} (hk : k ∈ s.q.queue) : Keeps c s (getItem e k s) := by
  have hpool : (getItem e k s).q.pool = Function.update s.q.pool k _ := rfl
  have hlive : ∀ F, live F (getItem e k s).q = live F s.q :=
    fun F => live_update hpool Option.isSome_map rfl
  refine ⟨⟨h.toShape.get e hk, ?_⟩, ?_, List.prefix_rfl⟩
  · intro j hj
    have hjk : j ≠ k := fun hjk => h.slots.not_mem_second_of_first hj (hjk ▸ hk)
    rw [hpool, Function.update_of_ne hjk]
    exact h.free j hj
  · intro F
    have hone := Slots.countP_erase_add (live F s.q) hk
    show (s.q.queue.erase k).countP (live F (getItem e k s).q) +
      (s.q.pending ++ [k]).countP (live F (getItem e k s).q) + destroyed F s.dtor = _
    rw [hlive, List.countP_append, List.countP_singleton, held]
    omega

theorem free_cons {k : Nat} {it : AtbmQueueItem} (hit : it.skb = none) {l : List Nat}
    (hl : ∀ j ∈ l, j ≠ k → j ∈ s.q.freePool) : ∀ j ∈ l, (Function.update s.q.pool k it j).skb = none := by
  intro j hj
  by_cases hjk : j = k
  · rw [hjk, Function.update_self]
    exact hit
  · rw [Function.update_of_ne hjk]
    exact h.free j (hl j hj hjk)

theorem remove (e : QEnv) {p : ParsedId} (hc : checkId s.q p = none) :
    Keeps c s (destroySkb (s.q.pool p.itemId) (releaseOverfull e p.ifId (freeItem p s))) := by
  have hlt := h.itemId_lt hc
  have hfree : Stored c (freeItem p s) := by
    refine ⟨h.toShape.free hc, ?_⟩
    show ∀ j ∈ p.itemId :: s.q.freePool.erase p.itemId, (Function.update s.q.pool p.itemId _ j).skb = none
    apply h.free_cons rfl
    intro j hj hne
    exact List.mem_of_mem_erase ((List.mem_cons.mp hj).resolve_left hne)
  have hrel : FlowOnly (freeItem p s) (releaseOverfull e p.ifId (freeItem p s)) := flowOnly_releaseOverfull ..
  have hstored := (hfree.flow hrel (releaseOverfull_dtor ..)).stored
  have hflow := flowOnly_destroySkb (s.q.pool p.itemId) (releaseOverfull e p.ifId (freeItem p s))
  obtain ⟨l, o, g, b, hq⟩ := (hrel.trans hflow).fields
  have hheld : ∀ F, held F (destroySkb (s.q.pool p.itemId) (releaseOverfull e p.ifId (freeItem p s))).q +
      (if live F s.q p.itemId = true then 1 else 0) = held F s.q := by
    intro F
    rw [hq]
    exact h.held_erase hlt rfl rfl rfl
  have hdtor : (releaseOverfull e p.ifId (freeItem p s)).dtor = s.dtor := releaseOverfull_dtor ..
  refine ⟨⟨hstored.toShape.flow hflow, ?_⟩, ?_, ?_⟩
  · obtain ⟨l, o, g, b, hq⟩ := hflow.fields
    rw [hq]
    exact hstored.free
  · intro F
    have hF := hheld F
    cases hskb : (s.q.pool p.itemId).skb with
    | none =>
      have hlive : live F s.q p.itemId = false := by simp [live, hskb]
      rw [hlive] at hF
      simp only [destroySkb, hskb, hdtor] at hF ⊢
      simpa using hF
    | some b =>
      have hlive : live F s.q p.itemId = F (s.q.pool p.itemId).txpriv.kind := by simp [live, hskb]
      rw [hlive] at hF
      simp only [destroySkb, hskb, hdtor, destroyed_append] at hF ⊢
      simp only [destroyed, List.countP_singleton, Option.isSome_some, Bool.true_and] at hF ⊢
      omega
  · unfold destroySkb
    cases hskb : (s.q.pool p.itemId).skb with
    | none =>
      simp only [hdtor]
      exact List.prefix_rfl
    | some b =>
      simp only [hdtor]
      exact List.prefix_append ..

theorem mark (k : Nat) : Keeps c s (markGeneric k s) := by
  have hpool : (markGeneric k s).q.pool = Function.update s.q.pool k _ := rfl
  have hlive : ∀ F, live F (markGeneric k s).q = live F s.q := fun F => live_update hpool rfl rfl
  refine ⟨⟨h.toShape.mark k, ?_⟩, ?_, List.prefix_rfl⟩
  · intro j hj
    rw [hpool]
    by_cases hjk : j = k
    · subst hjk
      rw [Function.update_self]
      exact h.free j hj
    · rw [Function.update_of_ne hjk]
      exact h.free j hj
  · intro F
    show s.q.queue.countP (live F (markGeneric k s).q) + s.q.pending.countP (live F (markGeneric k s).q) +
      destroyed F s.dtor = _
    rw [hlive, held]

theorem requeue {p : ParsedId} (hc : checkId s.q p = none) (hq : p.queueId = s.q.queueId)
    (hi : p.ifId < 16) : Keeps c s (requeueItem p s) := by
  have hlt := h.itemId_lt hc
  have hpool : (requeueItem p s).q.pool = Function.update s.q.pool p.itemId _ := rfl
  have hlive : ∀ F, live F (requeueItem p s).q = live F s.q := fun F => live_update hpool rfl rfl
  refine ⟨⟨h.toShape.requeue hc hq hi, ?_⟩, ?_, List.prefix_rfl⟩
  · intro j hj
    have hj : j ∈ s.q.freePool.erase p.itemId := hj
    rw [hpool]
    by_cases hjk : j = p.itemId
    · rw [hjk, Function.update_self]
      exact h.free p.itemId (hjk ▸ List.mem_of_mem_erase hj)
    · rw [Function.update_of_ne hjk]
      exact h.free j (List.mem_of_mem_erase hj)
  · intro F
    have hone : (s.q.queue.erase p.itemId).countP (live F s.q) + (s.q.pending.erase p.itemId).countP (live F s.q) +
        (if live F s.q p.itemId = true then 1 else 0) = held F s.q :=
      by
        have hpool : (unlinkItem s.q p.itemId).pool = Function.update s.q.pool p.itemId (s.q.pool p.itemId) :=
          (Function.update_eq_self ..).symm
        exact h.held_erase hlt hpool rfl rfl
    show (p.itemId :: s.q.queue.erase p.itemId).countP (live F (requeueItem p s).q) +
      (s.q.pending.erase p.itemId).countP (live F (requeueItem p s).q) + destroyed F s.dtor = _
    rw [hlive, List.countP_cons]
    omega

theorem expire {k : Nat} (hk : k ∈ s.q.queue) : Keeps c s (gcItem k s) := by
  have hlt := h.lt_of_busy (.inl hk)
  refine ⟨⟨h.toShape.expire hk, ?_⟩, ?_, List.prefix_append ..⟩
  · show ∀ j ∈ s.q.freePool ++ [k], (Function.update s.q.pool k _ j).skb = none
    apply h.free_cons rfl
    intro j hj hne
    exact (List.mem_append.mp hj).resolve_right fun hjk => hne (List.mem_singleton.mp hjk)
  · intro F
    have hpend : s.q.pending = s.q.pending.erase k :=
      (List.erase_of_not_mem (h.slots.not_mem_third_of_second hk)).symm
    have hone : held F (gcItem k s).q + (if live F s.q k = true then 1 else 0) = held F s.q :=
      h.held_erase hlt rfl rfl hpend
    have hd : destroyed F [((s.q.pool k).skb, (s.q.pool k).txpriv)] = if live F s.q k = true then 1 else 0 :=
      List.countP_singleton ..
    show held F (gcItem k s).q + destroyed F (s.dtor ++ [((s.q.pool k).skb, (s.q.pool k).txpriv)]) = _
    rw [destroyed_append, hd]
    omega

theorem clearLists (ifId : Int) : Keeps c s (clearLists ifId s) := by
  refine ⟨⟨h.toShape.clearLists ifId, ?_⟩, ?_, ?_⟩
  · intro j hj
    show ((if j ∈ s.q.pending.filter (cleared s.q ifId) ++ s.q.queue.filter (cleared s.q ifId) then
      { s.q.pool j with skb := none } else s.q.pool j : AtbmQueueItem)).skb = none
    split
    · rfl
    · next hn =>
      have hj : j ∈ s.q.freePool ++ s.q.pending.filter (cleared s.q ifId) ++
        s.q.queue.filter (cleared s.q ifId) := hj
      rw [List.append_assoc] at hj
      exact h.free j ((List.mem_append.mp hj).resolve_right hn)
  · intro F
    have hkept : ∀ l : List Nat, (∀ k ∈ l, Busy (AtbmWifi.clearLists ifId s).q k) →
        l.countP (live F (AtbmWifi.clearLists ifId s).q) = l.countP (live F s.q) := by
      intro l hl
      apply List.countP_congr
      intro k hk
      rw [live, clearLists_kept ifId s k (hl k hk), live]
    have hdtor : (AtbmWifi.clearLists ifId s).dtor = s.dtor ++
        (s.q.pending.filter (cleared s.q ifId) ++ s.q.queue.filter (cleared s.q ifId)).map fun k =>
          ((s.q.pool k).skb, (s.q.pool k).txpriv) := by
      simp [AtbmWifi.clearLists]
    have hdest : ∀ l : List Nat, destroyed F (l.map fun k => ((s.q.pool k).skb, (s.q.pool k).txpriv)) =
        l.countP (live F s.q) := fun l => List.countP_map
    have hq := countP_filter_add s.q.queue (live F s.q) (cleared s.q ifId)
    have hp := countP_filter_add s.q.pending (live F s.q) (cleared s.q ifId)
    have hqueue : (AtbmWifi.clearLists ifId s).q.queue = s.q.queue.filter fun k => !cleared s.q ifId k := rfl
    have hpending : (AtbmWifi.clearLists ifId s).q.pending = s.q.pending.filter fun k => !cleared s.q ifId k := rfl
    rw [held, hkept _ fun k hk => .inl hk, hkept _ fun k hk => .inr hk, hqueue, hpending, hdtor,
      destroyed_append, hdest, List.countP_append, held]
    omega
  · simp [AtbmWifi.clearLists]

theorem clearVif (i : Nat) : Keeps c s (clearVif i s) :=
  ⟨⟨h.toShape.clearVif i, h.free⟩, fun _ => rfl, List.prefix_rfl⟩

end Stored

@[simp] theorem wakeIf_dtor (b : Bool) (s : TxQ) : (wakeIf b s).dtor = s.dtor := by
  unfold wakeIf
  split <;> rfl

@[simp] theorem clearOverfull_dtor (i : Nat) (s : TxQ) : (clearOverfull i s).dtor = s.dtor := by
  unfold clearOverfull atbmQueueUnlockCore ieee80211WakeQueue
  simp only
  split
  · split <;> simp [setOverfull]
  · simp [setOverfull]

@[simp] theorem atbmQueueUnlockCore_dtor (i : Nat) (s : TxQ) : (atbmQueueUnlockCore i s).dtor = s.dtor := by
  unfold atbmQueueUnlockCore ieee80211WakeQueue
  simp only
  split
  · split <;> simp
  · simp

@[simp] theorem clearOverfullIf_dtor (i : Nat) (s : TxQ) : (clearOverfullIf i s).dtor = s.dtor := by
  unfold clearOverfullIf
  split
  · exact clearOverfull_dtor i s
  · rfl

@[simp] theorem atbmQueueLockCore_dtor (e : QEnv) (i : Nat) (s : TxQ) :
    (atbmQueueLockCore e i s).dtor = s.dtor := by
  unfold atbmQueueLockCore ieee80211StopQueue
  simp only
  split
  · split <;> rfl
  · simp

@[simp] theorem putOverfull_dtor (e : QEnv) (i : Nat) (s : TxQ) : (putOverfull e i s).dtor = s.dtor := by
  unfold putOverfull
  split
  · simp [setGc, setOverfull]
  · rfl

section
variable {c : Fin 4} {s : TxQ}

theorem keeps_get (h : Stored c s) (e : QEnv) (ifId linkIdMap : Nat) :
    Keeps c s (atbmQueueGet e ifId linkIdMap s).1 := by
  unfold atbmQueueGet
  split
  · exact h.flow (flowOnly_trap true (t := .getNone) rfl s) (trapIf_dtor ..)
  · next k hk =>
    have hget := h.get e (selectItem_mem hk)
    exact hget.trans (hget.stored.flow (flowOnly_wakeIf _ _) (wakeIf_dtor ..))

theorem keeps_remove (h : Stored c s) (e : QEnv) (packetID : Nat) :
    Keeps c s (atbmQueueRemove e packetID s).1 := by
  unfold atbmQueueRemove
  simp only
  have h1 := h.flow (flowOnly_trap ((atbmQueueParseId packetID).queueId != s.q.queueId) (t := .queueId) rfl s)
    (trapIf_dtor ..)
  split
  · exact h1.trans (h1.stored.flow (flowOnly_trapOpt (checkId_trap ‹_›) _) (trapOpt_dtor ..))
  · exact h1.trans (h1.stored.remove e ‹_›)

theorem keeps_requeue (h : Stored c s) (e : QEnv) (packetID : Nat) (check : Bool)
    (hid : (atbmQueueParseId packetID).queueId = s.q.queueId) :
    Keeps c s (atbmQueueRequeue e packetID check s).1 := by
  unfold atbmQueueRequeue
  simp only
  split
  · exact keeps_remove h e packetID
  · have h1 : Keeps c s (if check then s else markGeneric (atbmQueueParseId packetID).itemId s) := by
      cases check with
      | true => exact .refl h
      | false => exact h.mark _
    have hq : (if check then s else markGeneric (atbmQueueParseId packetID).itemId s).q.queueId =
        s.q.queueId := by cases check <;> rfl
    have ht : ∀ t : TxQ, t.q.queueId = s.q.queueId →
        trapIf ((atbmQueueParseId packetID).queueId != t.q.queueId) .queueId t = t := by
      intro t h
      simp [trapIf, h, hid]
    rw [ht _ hq]
    split
    · exact h1.trans (h1.stored.flow (flowOnly_trapOpt (checkId_trap ‹_›) _) (trapOpt_dtor ..))
    · exact h1.trans (h1.stored.requeue ‹_› (hid.trans hq.symm) (parse_ifId_lt _))

theorem keeps_gcLoop (h : Stored c s) (e : QEnv) (i : Nat) (ks : List Nat) (loop : Nat) (wake : Bool)
    (hn : ks.Nodup) (hk : ∀ k ∈ ks, k ∈ s.q.queue) : Keeps c s (gcLoop e i ks loop wake s).1 := by
  induction ks generalizing loop wake s with
  | nil => exact .refl h
  | cons k ks ih =>
    have hn' := List.nodup_cons.mp hn
    unfold gcLoop
    simp only
    have h1 : Keeps c s (trapIf (decide (loop + 1 > 300)) .gcLoop s) :=
      h.flow (flowOnly_trap _ rfl s) (trapIf_dtor ..)
    split
    · apply h1.trans (ih h1.stored _ _ hn'.2 _)
      intro j hj
      rw [trapIf_q]
      exact hk j (List.mem_cons_of_mem _ hj)
    · split
      · exact h1
      · have h2 := h1.trans (h1.stored.expire (k := k) (by rw [trapIf_q]; exact hk k List.mem_cons_self))
        apply h2.trans (ih h2.stored _ _ hn'.2 _)
        intro j hj
        have hjk : j ≠ k := fun h => hn'.1 (h ▸ hj)
        rw [gcItem_queue, trapIf_q, List.mem_erase_of_ne hjk]
        exact hk j (List.mem_cons_of_mem _ hj)

theorem keeps_gc (h : Stored c s) (e : QEnv) (i : Nat) : Keeps c s (atbmQueueGc e i s) := by
  unfold atbmQueueGc atbmQueueGcCore
  simp only
  have h1 : Keeps c s (setGc i none s) := h.flow (flowOnly_setGc i none s) rfl
  have h2 := h1.trans (keeps_gcLoop h1.stored e i s.q.queue 0 false h.slots.nodup_second fun k hk => hk)
  have h3 := h2.trans (h2.stored.flow
    (flowOnly_wakeIf (gcLoop e i s.q.queue 0 false (setGc i none s)).2.1 _) (wakeIf_dtor ..))
  refine h3.trans ?_
  split
  · split
    · exact h3.stored.flow (flowOnly_clearOverfull i _) (clearOverfull_dtor ..)
    · split
      · exact h3.stored.flow (flowOnly_setGc i _ _) rfl
      · exact .refl h3.stored
  · exact .refl h3.stored

theorem keeps_clear (h : Stored c s) (ifId : Int) : Keeps c s (atbmQueueClear ifId s).1 := by
  unfold atbmQueueClear
  simp only
  have h1 := h.clearLists ifId
  split
  · have h2 := h1.trans (h1.stored.clearVif 0)
    have h3 := h2.trans (h2.stored.clearVif 1)
    have h4 := h3.trans (h3.stored.flow (flowOnly_clearOverfullIf 0 _) (clearOverfullIf_dtor ..))
    have h5 := h4.trans (h4.stored.flow (flowOnly_clearOverfullIf 1 _) (clearOverfullIf_dtor ..))
    exact h5.trans (h5.stored.flow (flowOnly_wakeIf true _) (wakeIf_dtor ..))
  · have h2 := h1.trans (h1.stored.clearVif ifId.toNat)
    have h3 := h2.trans (h2.stored.flow (flowOnly_clearOverfullIf ifId.toNat _) (clearOverfullIf_dtor ..))
    exact h3.trans (h3.stored.flow (flowOnly_wakeIf true _) (wakeIf_dtor ..))

/-- **Every operation but a put keeps the frames**, held or destroyed. -/
theorem QOp.keeps {op : QOp} (h : Stored c s) (e : QEnv) (hput : ∀ skb t, op ≠ .put skb t)
    (hid : ∀ p ∈ op.id, (atbmQueueParseId p).queueId = s.q.queueId) : Keeps c s (op.run e s) := by
  cases op with
  | put skb t => exact absurd rfl (hput skb t)
  | get ifId m => exact keeps_get h e ifId m
  | requeue p check => exact keeps_requeue h e p check (hid p rfl)
  | remove p => exact keeps_remove h e p
  | gc i => exact keeps_gc h e i
  | clear i => exact keeps_clear h i
  | lock i => exact h.flow (flowOnly_lock e i s) (atbmQueueLockCore_dtor ..)
  | unlock i => exact h.flow (flowOnly_unlock i s) (atbmQueueUnlockCore_dtor ..)

theorem held_put (h : Stored c s) {e : QEnv} {skb : SkBuff} {t : AtbmTxpriv} (hi : t.ifId.toNat < maxVifs)
    (hret : (atbmQueuePut e skb t s).2 = 0) : Stored c (atbmQueuePut e skb t s).1 ∧
      (∀ F, held F (atbmQueuePut e skb t s).1.q = held F s.q + if F t.kind = true then 1 else 0) ∧
      (atbmQueuePut e skb t s).1.dtor = s.dtor := by
  unfold atbmQueuePut at hret ⊢
  split at hret
  · cases hret
  · next hl =>
    rw [if_neg hl]
    split at hret
    · cases hret
    · next k rest hf =>
      have hk : k ∈ s.q.freePool := by simp [hf]
      have htrap : trapIf (s.q.pool k).skb.isSome .itemSkb s = s := by simp [trapIf, h.free k hk]
      have hfree := h.not_busy_of_free hk
      have hpool : (putItem e skb t k s).q.pool = Function.update s.q.pool k _ := rfl
      have hputs : Stored c (putItem e skb t k s) := by
        refine ⟨h.toShape.put e skb t hk (Nat.lt_of_not_le hl) hi, ?_⟩
        intro j hj
        have hj : j ∈ s.q.freePool.erase k := hj
        have hjk : j ≠ k := by
          rintro rfl
          have hcount := h.slots.count_le_one (k := j)
          have hone := List.count_pos_iff.mpr hj
          rw [List.count_erase_self] at hone
          omega
        rw [hpool, Function.update_of_ne hjk]
        exact h.free j (List.mem_of_mem_erase hj)
      have hflow := hputs.flow (flowOnly_putOverfull e t.ifId.toNat _) (putOverfull_dtor ..)
      rw [htrap]
      refine ⟨hflow.stored, ?_, putOverfull_dtor ..⟩
      intro F
      obtain ⟨l, o, g, b, hq⟩ := (flowOnly_putOverfull e t.ifId.toNat (putItem e skb t k s)).fields
      rw [hq]
      show (s.q.queue ++ [k]).countP (live F (putItem e skb t k s).q) +
        s.q.pending.countP (live F (putItem e skb t k s).q) = _
      have hlive : live F (putItem e skb t k s).q k = F t.kind := by simp [live, putItem]
      rw [List.countP_append, List.countP_singleton, hlive, countP_live_of_ne hpool fun hb => hfree (.inl hb),
        countP_live_of_ne hpool fun hb => hfree (.inr hb), held]
      omega

end

/-- Frames of the kinds `F` on the four queues. -/
def heldAll (F : FrameKind → Bool) (q : TxQueues) : Nat := ∑ c, held F (q.txQueue c)

theorem stored_start (ttl : Fin 4 → Int) (c : Fin 4) : Stored c ((TxQueues.start ttl).view c) :=
  ⟨shape_init c ttl, fun _ _ => rfl⟩

theorem stored_step {s : TxQueues} {ev : QEvent} (hv : Valid s ev) (h : ∀ c, Stored c (s.view c))
    (hev : Stored ev.c (ev.op.run ev.env (s.view ev.c))) (c : Fin 4) : Stored c ((s.step ev).view c) := by
  refine ⟨shape_step hv (fun c => (h c).toShape) c, ?_⟩
  rw [TxQueues.view_q]
  by_cases hc : c = ev.c
  · subst hc
    rw [s.step_txQueue_self ev]
    exact hev.free
  · rw [s.step_txQueue_other ev hc]
    exact (h c).free

theorem heldAll_step (F : FrameKind → Bool) (s : TxQueues) (ev : QEvent) :
    heldAll F (s.step ev) + held F (s.txQueue ev.c) =
      heldAll F s + held F (ev.op.run ev.env (s.view ev.c)).q := s.sum_step ev (held F)

theorem heldAll_eq_zero_iff {F : FrameKind → Bool} {s : TxQueues} :
    heldAll F s = 0 ↔ ∀ c k, Busy (s.txQueue c) k → live F (s.txQueue c) k = false := by
  unfold heldAll held
  simp only [Finset.sum_eq_zero_iff, Finset.mem_univ, true_imp_iff, Nat.add_eq_zero_iff, List.countP_eq_zero,
    Bool.not_eq_true]
  constructor
  · rintro h c k (hk | hk)
    · exact (h c).1 k hk
    · exact (h c).2 k hk
  · intro h c
    exact ⟨fun k hk => h c k (.inl hk), fun k hk => h c k (.inr hk)⟩

theorem TxQueues.step_keeps {s : TxQueues} {ev : QEvent} (hv : Valid s ev) (hput : ev.op.isPut = false)
    (h : ∀ c, Stored c (s.view c)) :
    (∀ c, Stored c ((s.step ev).view c)) ∧
      (∀ F, heldAll F (s.step ev) + destroyed F (s.step ev).dtor = heldAll F s + destroyed F s.dtor) ∧
      s.dtor <+: (s.step ev).dtor := by
  have hkeep : Keeps ev.c (s.view ev.c) (ev.op.run ev.env (s.view ev.c)) := by
    apply QOp.keeps (h ev.c)
    · rintro skb t heq
      rw [heq] at hput
      cases hput
    · intro p hp
      exact (hv.queueId p hp).trans (h ev.c).queueId.symm
  refine ⟨stored_step hv h hkeep.stored, ?_, hkeep.dtor⟩
  intro F
  have htotal := hkeep.total F
  have hstep := heldAll_step F s ev
  have hd : (s.step ev).dtor = (ev.op.run ev.env (s.view ev.c)).dtor := rfl
  have hs : (s.view ev.c).dtor = s.dtor := rfl
  rw [TxQueues.view_q, hs] at htotal
  rw [hd]
  omega

theorem TxQueues.step_put {s : TxQueues} {c : Fin 4} {e : QEnv} {skb : SkBuff} {t : AtbmTxpriv}
    (h : ∀ c, Stored c (s.view c)) (hi : t.ifId.toNat < maxVifs)
    (hret : (atbmQueuePut e skb t (s.view c)).2 = 0) :
    (∀ c', Stored c' ((s.step ⟨c, e, .put skb t⟩).view c')) ∧
      ∀ F, heldAll F (s.step ⟨c, e, .put skb t⟩) = heldAll F s + if F t.kind = true then 1 else 0 := by
  obtain ⟨hstored, hheld, -⟩ := held_put (h c) hi hret
  have hv : Valid s ⟨c, e, .put skb t⟩ := valid_of_vif hi rfl fun i hi => nomatch hi
  refine ⟨stored_step hv h hstored, ?_⟩
  intro F
  have hstep := heldAll_step F s ⟨c, e, .put skb t⟩
  have hF := hheld F
  simp only [QOp.run, TxQueues.view_q] at hstep hF
  omega

end AtbmWifi
