import AtbmWifi.Queue.Model
import AtbmWifi.Lib.Slots
import Mathlib.Algebra.BigOperators.Fin

/-!
# The four TX queues of a driver

`main.c` creates queues 0..3 of `ATBM_WIFI_MAX_QUEUE_SZ` items each over one
`atbm_queue_stats` of `WLAN_LINK_ID_MAX` links.  A step runs one operation on
one queue; the clock, the interface capacities, the number of CPUs and
mac80211's own stop reasons are arbitrary at each step (`QEnv`).

`Valid` is what the callers promise: interfaces below `ATBM_WIFI_MAX_VIFS`, a
packet id handed to the queue its queue id names and dropped when its interface
is not registered (`atbm_tx_confirm_cb`), an unlock only after a lock.  It says
nothing else of a packet id.  `Honest` is the stronger guard of a firmware that confirms what
is in flight.
-/

namespace AtbmWifi

/-- `hw_priv->tx_queue`, `tx_queue_stats` and the mac80211 stop reasons.
`extLocks` is a ghost: `atbm_queue_lock` calls without their unlock. -/
structure TxQueues where
  txQueue : Fin 4 → AtbmQueue
  stats : AtbmQueueStats
  driverStopped : Nat → Bool
  wakes : Nat
  traps : List Trap
  dtor : List (Option SkBuff × AtbmTxpriv)
  extLocks : Fin 4 → Nat → Nat

/-- What an operation on queue `c` touches. -/
def TxQueues.view (s : TxQueues) (c : Fin 4) : TxQ where
  q := s.txQueue c
  stats := s.stats
  driverStopped := s.driverStopped
  wakes := s.wakes
  traps := s.traps
  dtor := s.dtor

/-- The state after an operation on queue `c` left `v`. -/
def TxQueues.write (s : TxQueues) (c : Fin 4) (v : TxQ) : TxQueues where
  txQueue := Function.update s.txQueue c v.q
  stats := v.stats
  driverStopped := v.driverStopped
  wakes := v.wakes
  traps := v.traps
  dtor := v.dtor
  extLocks := s.extLocks

inductive QOp
  | put (skb : SkBuff) (t : AtbmTxpriv)
  | get (ifId linkIdMap : Nat)
  | requeue (packetID : Nat) (check : Bool)
  | remove (packetID : Nat)
  | gc (ifId : Nat)
  | clear (ifId : Int)
  | lock (ifId : Nat)
  | unlock (ifId : Nat)

def QOp.run (e : QEnv) (s : TxQ) : QOp → TxQ
  | put skb t => (atbmQueuePut e skb t s).1
  | get ifId linkIdMap => (atbmQueueGet e ifId linkIdMap s).1
  | requeue packetID check => (atbmQueueRequeue e packetID check s).1
  | remove packetID => (atbmQueueRemove e packetID s).1
  | gc ifId => atbmQueueGc e ifId s
  | clear ifId => (atbmQueueClear ifId s).1
  | lock ifId => atbmQueueLock e ifId s
  | unlock ifId => atbmQueueUnlock ifId s

def QOp.locks (f : Nat → Nat) : QOp → Nat → Nat
  | lock ifId => Function.update f ifId (f ifId + 1)
  | unlock ifId => Function.update f ifId (f ifId - 1)
  | _ => f

def QOp.isPut : QOp → Bool
  | .put _ _ => true
  | _ => false

def QOp.id : QOp → Option Nat
  | requeue packetID _ => some packetID
  | remove packetID => some packetID
  | _ => none

def QOp.vifOk : QOp → Prop
  | put _ t => t.ifId.toNat < maxVifs
  | gc ifId | lock ifId | unlock ifId => ifId < maxVifs
  | clear ifId => ifId = allIfs ∨ ifId = 0 ∨ ifId = 1
  | _ => True

instance : (op : QOp) → Decidable op.vifOk
  | .put _ t => inferInstanceAs (Decidable (t.ifId.toNat < maxVifs))
  | .gc i | .lock i | .unlock i => inferInstanceAs (Decidable (i < maxVifs))
  | .clear i => inferInstanceAs (Decidable (i = allIfs ∨ i = 0 ∨ i = 1))
  | .get _ _ | .requeue _ _ | .remove _ => inferInstanceAs (Decidable True)

structure QEvent where
  c : Fin 4
  env : QEnv
  op : QOp

def TxQueues.step (s : TxQueues) (ev : QEvent) : TxQueues :=
  { s.write ev.c (ev.op.run ev.env (s.view ev.c)) with
    extLocks := Function.update s.extLocks ev.c (ev.op.locks (s.extLocks ev.c)) }

/-- What the callers promise of an operation on queue `c`. -/
structure Valid (s : TxQueues) (ev : QEvent) : Prop where
  vif : ev.op.vifOk
  queueId : ∀ p ∈ ev.op.id, (atbmQueueParseId p).queueId = ev.c
  idVif : ∀ p ∈ ev.op.id, (atbmQueueParseId p).ifId < maxVifs
  unlock : ∀ i, ev.op = .unlock i → 0 < s.extLocks ev.c i

def QOp.unlocks (f : Nat → Nat) : QOp → Bool
  | unlock i => decide (0 < f i)
  | _ => true

theorem QOp.unlocks_iff {f : Nat → Nat} {op : QOp} : op.unlocks f = true ↔ ∀ i, op = .unlock i → 0 < f i := by
  cases op <;> simp [QOp.unlocks]

instance decValid (s : TxQueues) (ev : QEvent) : Decidable (Valid s ev) :=
  decidable_of_iff (ev.op.vifOk ∧ (∀ p ∈ ev.op.id, (atbmQueueParseId p).queueId = ev.c) ∧
      (∀ p ∈ ev.op.id, (atbmQueueParseId p).ifId < maxVifs) ∧ ev.op.unlocks (s.extLocks ev.c) = true)
    ⟨fun ⟨h1, h2, h3, h4⟩ => ⟨h1, h2, h3, QOp.unlocks_iff.mp h4⟩,
      fun h => ⟨h.vif, h.queueId, h.idVif, QOp.unlocks_iff.mpr h.unlock⟩⟩

/-- The id in the frame of an item pending on `q`: what `atbm_queue_get` last wrote there. -/
def Outstanding (q : AtbmQueue) (packetID : Nat) : Prop :=
  ∃ k ∈ q.pending, ∃ b, (q.pool k).skb = some b ∧ b.packetID = packetID

instance decOutstanding (q : AtbmQueue) (packetID : Nat) : Decidable (Outstanding q packetID) :=
  decidable_of_iff (∃ k ∈ q.pending, (q.pool k).skb.map SkBuff.packetID = some packetID) <| by
    simp only [Outstanding, Option.map_eq_some_iff]

/-- Every id handed to the queue is outstanding. -/
def Honest (s : TxQueues) (ev : QEvent) : Prop := ∀ p ∈ ev.op.id, Outstanding (s.txQueue ev.c) p

instance decHonest (s : TxQueues) (ev : QEvent) : Decidable (Honest s ev) :=
  inferInstanceAs (Decidable (∀ p ∈ ev.op.id, Outstanding (s.txQueue ev.c) p))

def TxQueues.start (ttl : Fin 4 → Int) : TxQueues where
  txQueue c := atbmQueueInit c maxQueueSz (ttl c)
  stats := atbmQueueStatsInit wlanLinkIdMax
  driverStopped _ := false
  wakes := 0
  traps := []
  dtor := []
  extLocks _ _ := 0

def queues : Transition.Sys TxQueues QEvent where
  init s := ∃ ttl, s = TxQueues.start ttl
  step s ev t := Valid s ev ∧ t = s.step ev

def TxQueues.run (s : TxQueues) (l : List QEvent) : TxQueues := l.foldl TxQueues.step s

/-- Every event of the run is valid and meets `C` where it happens. -/
def Follows (C : TxQueues → QEvent → Prop) : TxQueues → List QEvent → Prop
  | _, [] => True
  | s, ev :: l => (C s ev ∧ Valid s ev) ∧ Follows C (s.step ev) l

variable {s : TxQueues} {c : Fin 4}

theorem Follows.reach {C : TxQueues → QEvent → Prop} {l : List QEvent}
    (h : Follows C s l) (hs : Transition.Reach (queues.restrict C) s) :
    Transition.Reach (queues.restrict C) (s.run l) := by
  induction l generalizing s with
  | nil => exact hs
  | cons ev l ih => exact ih h.2 (.step hs ⟨h.1.1, h.1.2, rfl⟩)

theorem Follows.reach_start {C : TxQueues → QEvent → Prop} {ttl : Fin 4 → Int} {l : List QEvent}
    (h : Follows C (TxQueues.start ttl) l) :
    Transition.Reach (queues.restrict C) ((TxQueues.start ttl).run l) :=
  h.reach (.init ⟨ttl, rfl⟩)

theorem valid_of_vif {e : QEnv} {op : QOp} (hv : op.vifOk)
    (hid : op.id = none) (hu : ∀ i, op ≠ .unlock i) : Valid s ⟨c, e, op⟩ := by
  refine ⟨hv, fun p hp => ?_, fun p hp => ?_, fun i hi => absurd hi (hu i)⟩
  · rw [hid] at hp
    cases hp
  · rw [hid] at hp
    cases hp

theorem valid_remove {e : QEnv} {packetID : Nat}
    (hq : (atbmQueueParseId packetID).queueId = c) (hi : (atbmQueueParseId packetID).ifId < maxVifs) :
    Valid s ⟨c, e, .remove packetID⟩ := by
  refine ⟨trivial, ?_, ?_, ?_⟩
  · rintro p ⟨⟩
    exact hq
  · rintro p ⟨⟩
    exact hi
  · rintro i ⟨⟩

theorem honest_of_noId {ev : QEvent} (h : ev.op.id = none) : Honest s ev := by
  intro p hp
  rw [h] at hp
  cases hp

def sampleEnv : QEnv where
  jiffies := 0
  numPresentCpus := 4
  queueCap _ := some 200
  otherStopped _ := false

def sampleTxpriv (ifId : UInt8) : AtbmTxpriv where
  linkId := 1
  rawLinkId := 1
  tid := 0
  rateId := 0
  offset := 0
  ifId := ifId
  offchannelIfId := ifId

def samplePut (frame : Nat) (ifId : UInt8) : QEvent := ⟨0, sampleEnv, .put ⟨frame, 0⟩ (sampleTxpriv ifId)⟩
def sampleGet (ifId : Nat) : QEvent := ⟨0, sampleEnv, .get ifId 0xffffffff⟩
def sampleClear (ifId : Int) : QEvent := ⟨0, sampleEnv, .clear ifId⟩
def sampleRemove (packetID : Nat) : QEvent := ⟨0, sampleEnv, .remove packetID⟩

@[simp] theorem TxQueues.view_q (s : TxQueues) (c : Fin 4) : (s.view c).q = s.txQueue c := rfl
@[simp] theorem TxQueues.step_stats (s : TxQueues) (ev : QEvent) :
    (s.step ev).stats = (ev.op.run ev.env (s.view ev.c)).stats := rfl

theorem TxQueues.step_txQueue_self (s : TxQueues) (ev : QEvent) :
    (s.step ev).txQueue ev.c = (ev.op.run ev.env (s.view ev.c)).q := by
  simp [TxQueues.step, TxQueues.write]

theorem TxQueues.step_txQueue_other (s : TxQueues) (ev : QEvent) (h : c ≠ ev.c) :
    (s.step ev).txQueue c = s.txQueue c := by
  simp [TxQueues.step, TxQueues.write, h]

theorem TxQueues.sum_step (s : TxQueues) (ev : QEvent) (f : AtbmQueue → Nat) :
    ∑ c, f ((s.step ev).txQueue c) + f (s.txQueue ev.c) =
      ∑ c, f (s.txQueue c) + f (ev.op.run ev.env (s.view ev.c)).q := by
  have hother : ∑ c ∈ Finset.univ.erase ev.c, f ((s.step ev).txQueue c) =
      ∑ c ∈ Finset.univ.erase ev.c, f (s.txQueue c) := by
    apply Finset.sum_congr rfl
    intro c hc
    rw [s.step_txQueue_other ev (Finset.ne_of_mem_erase hc)]
  have hnew := Finset.add_sum_erase Finset.univ (fun c => f ((s.step ev).txQueue c)) (Finset.mem_univ ev.c)
  have hold := Finset.add_sum_erase Finset.univ (fun c => f (s.txQueue c)) (Finset.mem_univ ev.c)
  simp only [s.step_txQueue_self ev] at hnew
  omega

end AtbmWifi
