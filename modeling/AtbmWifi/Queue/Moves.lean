import AtbmWifi.Queue.Driver
import Mathlib.Logic.Relation

/-!
# What an operation does to the items

Apart from flow control (`FlowOnly`: locks, flags, timers, complaints,
wake-ups) an operation is a sequence of a few kinds of change to the items and
their counters (`Move`, `QOp.moves`).  Invariants on items and counters are
proved move by move and lifted to operations by `QOp.run_invariant`.

`Shape` is the invariant that holds whatever packet ids the firmware sends:
every slot is on exactly one list, the id stored in a busy slot names the
slot, its generation and its queue, and the frame of a pending slot carries
that id.
-/

namespace AtbmWifi

open Relation

/-- `s'` differs from `s` at most in flow control, wake-ups and complaints,
and complains of no counter. -/
structure FlowOnly (s s' : TxQ) : Prop where
  q : s'.q = { s.q with
    txLockedCnt := s'.q.txLockedCnt, overfull := s'.q.overfull, gc := s'.q.gc, skbLast := s'.q.skbLast }
  stats : s'.stats = s.stats
  traps : ∀ t ∈ s'.traps, t.counter = true → t ∈ s.traps

theorem FlowOnly.fields {s s' : TxQ} (h : FlowOnly s s') : ∃ l o g b,
    s'.q = { s.q with txLockedCnt := l, overfull := o, gc := g, skbLast := b } :=
  ⟨_, _, _, _, h.q⟩

theorem FlowOnly.refl (s : TxQ) : FlowOnly s s := ⟨rfl, rfl, fun _ h _ => h⟩

theorem FlowOnly.trans {s t u : TxQ} (h : FlowOnly s t) (h' : FlowOnly t u) : FlowOnly s u :=
  ⟨by rw [h'.q, h.q], h'.stats.trans h.stats, fun x hx hc => h.traps x (h'.traps x hx hc) hc⟩

@[simp] theorem trapIf_q (b : Bool) (t : Trap) (s : TxQ) : (trapIf b t s).q = s.q := by
  unfold trapIf
  split <;> rfl

@[simp] theorem trapIf_stats (b : Bool) (t : Trap) (s : TxQ) : (trapIf b t s).stats = s.stats := by
  unfold trapIf
  split <;> rfl

@[simp] theorem trapIf_dtor (b : Bool) (t : Trap) (s : TxQ) : (trapIf b t s).dtor = s.dtor := by
  unfold trapIf
  split <;> rfl

@[simp] theorem mem_trapIf_traps (b : Bool) (t x : Trap) (s : TxQ) :
    x ∈ (trapIf b t s).traps ↔ (b = true ∧ x = t) ∨ x ∈ s.traps := by
  unfold trapIf
  split <;> simp_all

@[simp] theorem trapOpt_q (t : Option Trap) (s : TxQ) : (trapOpt t s).q = s.q := by
  cases t <;> simp [trapOpt]

@[simp] theorem trapOpt_dtor (t : Option Trap) (s : TxQ) : (trapOpt t s).dtor = s.dtor := by
  cases t <;> simp [trapOpt]

@[simp] theorem wakeIf_q (b : Bool) (s : TxQ) : (wakeIf b s).q = s.q := by
  unfold wakeIf
  split <;> rfl

@[simp] theorem wakeIf_stats (b : Bool) (s : TxQ) : (wakeIf b s).stats = s.stats := by
  unfold wakeIf
  split <;> rfl

@[simp] theorem wakeIf_traps (b : Bool) (s : TxQ) : (wakeIf b s).traps = s.traps := by
  unfold wakeIf
  split <;> rfl

theorem flowOnly_trap (b : Bool) {t : Trap} (ht : t.counter = false) (s : TxQ) :
    FlowOnly s (trapIf b t s) := by
  refine ⟨by simp, by simp, fun x hx hc => ?_⟩
  rcases (mem_trapIf_traps b t x s).mp hx with ⟨-, rfl⟩ | hx
  · rw [ht] at hc
    cases hc
  · exact hx

theorem checkId_trap {q : AtbmQueue} {p : ParsedId} {ret : Int} {t : Option Trap}
    (h : checkId q p = some (ret, t)) : ∀ x, t = some x → x.counter = false := by
  unfold checkId at h
  split at h
  · cases h; intro x hx; cases hx
  split at h
  · cases h; intro x hx; cases hx; rfl
  split at h
  · cases h; intro x hx; cases hx; rfl
  · cases h

theorem flowOnly_trapOpt {t : Option Trap} (ht : ∀ x, t = some x → x.counter = false) (s : TxQ) :
    FlowOnly s (trapOpt t s) := by
  cases t with
  | none => exact .refl s
  | some x => exact flowOnly_trap true (ht x rfl) s

theorem flowOnly_wakeIf (b : Bool) (s : TxQ) : FlowOnly s (wakeIf b s) :=
  ⟨by simp, by simp, fun x hx _ => by simpa using hx⟩

@[simp] theorem ieee80211StopQueue_q (n : Nat) (s : TxQ) : (ieee80211StopQueue n s).q = s.q := by
  unfold ieee80211StopQueue
  split <;> rfl

@[simp] theorem ieee80211WakeQueue_q (n : Nat) (s : TxQ) : (ieee80211WakeQueue n s).q = s.q := by
  unfold ieee80211WakeQueue
  split <;> rfl

theorem flowOnly_stopQueue (n : Nat) (s : TxQ) : FlowOnly s (ieee80211StopQueue n s) := by
  unfold ieee80211StopQueue
  split
  · exact .refl s
  · exact ⟨rfl, rfl, fun _ h _ => h⟩

theorem flowOnly_wakeQueue (n : Nat) (s : TxQ) : FlowOnly s (ieee80211WakeQueue n s) := by
  unfold ieee80211WakeQueue
  split
  · exact .refl s
  · exact ⟨rfl, rfl, fun _ h _ => h⟩

theorem flowOnly_destroySkb (it : AtbmQueueItem) (s : TxQ) : FlowOnly s (destroySkb it s) := by
  unfold destroySkb
  split
  · exact ⟨rfl, rfl, fun _ h _ => h⟩
  · exact .refl s

theorem flowOnly_lock (e : QEnv) (i : Nat) (s : TxQ) : FlowOnly s (atbmQueueLockCore e i s) := by
  have h1 : FlowOnly s { s with q := { s.q with txLockedCnt := bump s.q.txLockedCnt i 1 } } :=
    ⟨rfl, rfl, fun _ h _ => h⟩
  unfold atbmQueueLockCore
  split
  · exact h1.trans (flowOnly_stopQueue _ _)
  · exact h1.trans (flowOnly_trap _ rfl _)

theorem flowOnly_unlock (i : Nat) (s : TxQ) : FlowOnly s (atbmQueueUnlockCore i s) := by
  have h1 : ∀ t : TxQ, FlowOnly t { t with q := { t.q with txLockedCnt := bump t.q.txLockedCnt i (-1) } } :=
    fun t => ⟨rfl, rfl, fun _ h _ => h⟩
  unfold atbmQueueUnlockCore
  simp only
  have h2 := (flowOnly_trap (s.q.txLockedCnt i == 0) (t := .unlockZero) rfl s).trans (h1 _)
  split
  · exact h2.trans (flowOnly_wakeQueue _ _)
  · exact h2

theorem flowOnly_setOverfull (i : Nat) (b : Bool) (s : TxQ) : FlowOnly s (setOverfull i b s) :=
  ⟨rfl, rfl, fun _ h _ => h⟩

theorem flowOnly_setGc (i : Nat) (tmo : Option Int) (s : TxQ) : FlowOnly s (setGc i tmo s) :=
  ⟨rfl, rfl, fun _ h _ => h⟩

theorem flowOnly_clearOverfull (i : Nat) (s : TxQ) : FlowOnly s (clearOverfull i s) :=
  (flowOnly_setOverfull i false s).trans (flowOnly_unlock i _)

theorem flowOnly_releaseOverfull (e : QEnv) (i : Nat) (s : TxQ) :
    FlowOnly s (releaseOverfull e i s) := by
  unfold releaseOverfull
  split
  · exact flowOnly_clearOverfull i s
  · exact .refl s

@[simp] theorem releaseOverfull_dtor (e : QEnv) (i : Nat) (s : TxQ) :
    (releaseOverfull e i s).dtor = s.dtor := by
  unfold releaseOverfull clearOverfull atbmQueueUnlockCore ieee80211WakeQueue
  split
  · simp only
    split
    · split <;> simp [setOverfull]
    · simp [setOverfull]
  · rfl

theorem flowOnly_clearOverfullIf (i : Nat) (s : TxQ) : FlowOnly s (clearOverfullIf i s) := by
  unfold clearOverfullIf
  split
  · exact flowOnly_clearOverfull i s
  · exact .refl s

theorem flowOnly_putOverfull (e : QEnv) (i : Nat) (s : TxQ) : FlowOnly s (putOverfull e i s) := by
  unfold putOverfull
  split
  · exact ((flowOnly_setOverfull i true s).trans (flowOnly_lock e i _)).trans (flowOnly_setGc i _ _)
  · exact .refl s

/-- One change of the items and their counters.  `A` is what is known of an
accepted packet id when it takes effect, `B` of a clear. -/
inductive Move (A : AtbmQueue → ParsedId → Prop) (B : Prop) (e : QEnv) : TxQ → TxQ → Prop
  | flow {s s' : TxQ} : FlowOnly s s' → Move A B e s s'
  | put {s : TxQ} (skb : SkBuff) (t : AtbmTxpriv) (k : Nat) : k ∈ s.q.freePool →
      t.linkId.toNat < s.stats.mapCapacity → t.ifId.toNat < maxVifs → Move A B e s (putItem e skb t k s)
  | get {s : TxQ} (k : Nat) : k ∈ s.q.queue → Move A B e s (getItem e k s)
  | free {s : TxQ} (p : ParsedId) : checkId s.q p = none → A s.q p → Move A B e s (freeItem p s)
  | mark {s : TxQ} (k : Nat) : Move A B e s (markGeneric k s)
  | requeue {s : TxQ} (p : ParsedId) (check : Bool) : checkId s.q p = none → p.queueId = s.q.queueId →
      p.ifId < 16 → A s.q p →
      Move A B e s (requeueItem p (if check then s else markGeneric p.itemId s))
  | expire {s : TxQ} (k : Nat) : k ∈ s.q.queue → Move A B e s (gcItem k s)
  | clear {s : TxQ} (i : Nat) : B → i < maxVifs → Move A B e s (clearVif i (clearLists i s))
  | clearAll {s : TxQ} : B → Move A B e s (clearVif 1 (clearVif 0 (clearLists allIfs s)))

section
variable {A : AtbmQueue → ParsedId → Prop} {B : Prop} {e : QEnv}

theorem moves_flow {s s' : TxQ} (h : FlowOnly s s') : ReflTransGen (Move A B e) s s' :=
  .single (.flow h)

theorem moves_put (skb : SkBuff) (t : AtbmTxpriv) (s : TxQ) (ht : t.ifId.toNat < maxVifs) :
    ReflTransGen (Move A B e) s (atbmQueuePut e skb t s).1 := by
  unfold atbmQueuePut
  split
  · exact .refl
  rename_i hl
  split
  · exact moves_flow (flowOnly_trap true (t := .freePoolEmpty) rfl s)
  · rename_i k rest hf
    have h1 : ReflTransGen (Move A B e) s (trapIf (s.q.pool k).skb.isSome .itemSkb s) :=
      moves_flow (flowOnly_trap _ rfl s)
    refine (h1.tail (.put skb t k ?_ ?_ ht)).tail (.flow (flowOnly_putOverfull e _ _))
    · simp [hf]
    · simpa using Nat.lt_of_not_le hl

theorem selectItem_mem {q : AtbmQueue} {ifId linkIdMap k : Nat} (h : selectItem q ifId linkIdMap = some k) :
    k ∈ q.queue :=
  List.mem_of_find?_eq_some h

theorem moves_get (ifId linkIdMap : Nat) (s : TxQ) :
    ReflTransGen (Move A B e) s (atbmQueueGet e ifId linkIdMap s).1 := by
  unfold atbmQueueGet
  split
  · exact moves_flow (flowOnly_trap true (t := .getNone) rfl s)
  · rename_i k hk
    exact (ReflTransGen.single (.get k (selectItem_mem hk))).tail (.flow (flowOnly_wakeIf _ _))

theorem moves_remove (packetID : Nat) (s : TxQ)
    (hA : checkId s.q (atbmQueueParseId packetID) = none → A s.q (atbmQueueParseId packetID)) :
    ReflTransGen (Move A B e) s (atbmQueueRemove e packetID s).1 := by
  unfold atbmQueueRemove
  simp only
  have h1 : ReflTransGen (Move A B e) s
      (trapIf ((atbmQueueParseId packetID).queueId != s.q.queueId) .queueId s) :=
    moves_flow (flowOnly_trap _ rfl s)
  split
  · exact h1.tail (.flow (flowOnly_trapOpt (checkId_trap ‹_›) _))
  · rename_i hc
    rw [trapIf_q] at hc
    have h2 := h1.tail (.free _ (by simpa using hc) (by simpa using hA hc))
    have h3 := h2.tail (.flow (flowOnly_releaseOverfull e (atbmQueueParseId packetID).ifId _))
    exact h3.tail (.flow (flowOnly_destroySkb _ _))

theorem markGeneric_checkId (k : Nat) (s : TxQ) (p : ParsedId) :
    checkId (markGeneric k s).q p = checkId s.q p := by
  unfold checkId markGeneric setItem
  have : (Function.update s.q.pool k { s.q.pool k with
      txpriv := { (s.q.pool k).txpriv with offchannelIfId := genericIfId } } p.itemId).generation =
      (s.q.pool p.itemId).generation := by
    by_cases h : p.itemId = k
    · subst h; simp
    · simp [h]
  simp only [this]

theorem moves_requeue (packetID : Nat) (check : Bool) (s : TxQ)
    (hid : (atbmQueueParseId packetID).queueId = s.q.queueId)
    (hA : checkId s.q (atbmQueueParseId packetID) = none → A s.q (atbmQueueParseId packetID)) :
    ReflTransGen (Move A B e) s (atbmQueueRequeue e packetID check s).1 := by
  unfold atbmQueueRequeue
  simp only
  split
  · exact moves_remove packetID s hA
  · have hq : (if check then s else markGeneric (atbmQueueParseId packetID).itemId s).q.queueId =
        s.q.queueId := by cases check <;> rfl
    have ht : ∀ t : TxQ, t.q.queueId = s.q.queueId →
        trapIf ((atbmQueueParseId packetID).queueId != t.q.queueId) .queueId t = t := by
      intro t h
      simp [trapIf, h, hid]
    rw [ht _ hq]
    have hc' : checkId (if check then s else markGeneric (atbmQueueParseId packetID).itemId s).q
        (atbmQueueParseId packetID) = checkId s.q (atbmQueueParseId packetID) := by
      cases check
      · exact markGeneric_checkId _ _ _
      · rfl
    split
    · -- rejected: the flag may have been written all the same
      have h1 : ReflTransGen (Move A B e) s
          (if check then s else markGeneric (atbmQueueParseId packetID).itemId s) := by
        cases check
        · exact .single (.mark _)
        · exact .refl
      exact h1.tail (.flow (flowOnly_trapOpt (checkId_trap ‹_›) _))
    · rename_i hc
      rw [hc'] at hc
      exact .single (.requeue _ check hc hid (parse_ifId_lt _) (hA hc))

@[simp] theorem gcItem_queue (k : Nat) (s : TxQ) : (gcItem k s).q.queue = s.q.queue.erase k := rfl

theorem moves_gcLoop (i : Nat) (ks : List Nat) (loop : Nat) (wake : Bool) (s : TxQ) (hn : ks.Nodup)
    (hk : ∀ k ∈ ks, k ∈ s.q.queue) : ReflTransGen (Move A B e) s (gcLoop e i ks loop wake s).1 := by
  induction ks generalizing loop wake s with
  | nil => exact .refl
  | cons k ks ih =>
    have hn' := List.nodup_cons.mp hn
    unfold gcLoop
    simp only
    have h1 : ReflTransGen (Move A B e) s (trapIf (decide (loop + 1 > 300)) .gcLoop s) :=
      moves_flow (flowOnly_trap _ rfl s)
    split
    · exact h1.trans (ih _ _ _ hn'.2 fun j hj => by simpa using hk j (List.mem_cons_of_mem _ hj))
    split
    · exact h1
    · refine (h1.tail (.expire k (by simpa using hk k List.mem_cons_self))).trans (ih _ _ _ hn'.2 ?_)
      intro j hj
      have hjk : j ≠ k := fun h => hn'.1 (h ▸ hj)
      simpa [List.mem_erase_of_ne hjk] using hk j (List.mem_cons_of_mem _ hj)

theorem moves_gc (i : Nat) (s : TxQ) (hn : s.q.queue.Nodup) :
    ReflTransGen (Move A B e) s (atbmQueueGc e i s) := by
  unfold atbmQueueGc atbmQueueGcCore
  simp only
  have h1 : ReflTransGen (Move A B e) s (setGc i none s) := moves_flow (flowOnly_setGc i none s)
  refine (h1.trans (moves_gcLoop i s.q.queue 0 false _ hn fun k hk => hk)).trans ?_
  split
  · split
    · exact moves_flow ((flowOnly_wakeIf _ _).trans (flowOnly_clearOverfull i _))
    · split
      · exact moves_flow ((flowOnly_wakeIf _ _).trans (flowOnly_setGc i _ _))
      · exact moves_flow (flowOnly_wakeIf _ _)
  · exact moves_flow (flowOnly_wakeIf _ _)

theorem moves_clear (hB : B) (ifId : Int) (s : TxQ) (hi : ifId = allIfs ∨ ifId = 0 ∨ ifId = 1) :
    ReflTransGen (Move A B e) s (atbmQueueClear ifId s).1 := by
  unfold atbmQueueClear
  simp only
  rcases hi with rfl | rfl | rfl
  · rw [if_pos rfl]
    exact (ReflTransGen.single (.clearAll hB)).tail (.flow
      (((flowOnly_clearOverfullIf 0 _).trans (flowOnly_clearOverfullIf 1 _)).trans (flowOnly_wakeIf _ _)))
  · rw [if_neg (by decide)]
    exact (ReflTransGen.single (.clear 0 hB (by decide))).tail
      (.flow ((flowOnly_clearOverfullIf 0 _).trans (flowOnly_wakeIf _ _)))
  · rw [if_neg (by decide)]
    exact (ReflTransGen.single (.clear 1 hB (by decide))).tail
      (.flow ((flowOnly_clearOverfullIf 1 _).trans (flowOnly_wakeIf _ _)))

/-- **Every operation is a sequence of moves.** -/
theorem QOp.moves (op : QOp) (s : TxQ) (hv : op.vifOk)
    (hid : ∀ p ∈ op.id, (atbmQueueParseId p).queueId = s.q.queueId) (hn : s.q.queue.Nodup)
    (hA : ∀ p ∈ op.id, checkId s.q (atbmQueueParseId p) = none → A s.q (atbmQueueParseId p))
    (hB : ∀ i, op = .clear i → B) : ReflTransGen (Move A B e) s (op.run e s) := by
  cases op with
  | put skb t => exact moves_put skb t s hv
  | get ifId m => exact moves_get ifId m s
  | requeue p check => exact moves_requeue p check s (hid p rfl) (hA p rfl)
  | remove p => exact moves_remove p s (hA p rfl)
  | gc i => exact moves_gc i s hn
  | clear i => exact moves_clear (hB i rfl) i s hv
  | lock i => exact moves_flow (flowOnly_lock e i s)
  | unlock i => exact moves_flow (flowOnly_unlock i s)

theorem QOp.run_invariant {I : TxQ → Prop} (hI : ∀ s s', I s → Move A B e s s' → I s') (op : QOp)
    (s : TxQ) (hv : op.vifOk) (hid : ∀ p ∈ op.id, (atbmQueueParseId p).queueId = s.q.queueId)
    (hn : s.q.queue.Nodup)
    (hA : ∀ p ∈ op.id, checkId s.q (atbmQueueParseId p) = none → A s.q (atbmQueueParseId p))
    (hB : ∀ i, op = .clear i → B) (h : I s) : I (op.run e s) := by
  have all : ∀ t, ReflTransGen (Move A B e) s t → I t := by
    intro t ht
    induction ht with
    | refl => exact h
    | tail _ hm ih => exact hI _ _ ih hm
  exact all _ (op.moves s hv hid hn hA hB)

end

end AtbmWifi
