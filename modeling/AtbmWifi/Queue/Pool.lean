import AtbmWifi.Queue.FreeSlots

/-!
# Can the item pool run out?

`atbm_tx` puts a frame under `BUG_ON(atbm_queue_put(...))`.  mac80211 sends for
a queue and interface while `tx_locked_cnt` is zero, and at most
`num_present_cpus()` frames more that were in flight when it was stopped.  The
caps of the interfaces move with joins and leaves (`util.c`).

Put, against its comment "Leave extra queue slots so we don't overflow", stops
only the interface that sent, and gc and remove wake one on its own count, so
two interfaces can spend the same extra slots.  A run stays clear of the
`BUG_ON` exactly when every step `PoolFits` (`pool_exhaustion`); `poolRun` does not
(`pool_exhausted`).
-/

namespace AtbmWifi

open Transition

def atbmQueueDefaultCap : Nat := maxQueueSz >>> 4
def atbmQueueSingleCap : Nat := maxQueueSz * 7 / 8
def atbmQueueCombCap : Nat := maxQueueSz / 2 - 8

/-- `queue_cap` of a registered interface, and `join_status > ATBM_APOLLO_JOIN_STATUS_MONITOR`. -/
structure VifCap where
  queueCap : Nat
  joined : Bool

def setCap (vif : Nat → Option VifCap) (i cap : Nat) : Nat → Option VifCap :=
  Function.update vif i ((vif i).map fun v => { v with queueCap := cap })

/-- A registered interface other than `i` that has joined. -/
def otherJoined (vif : Nat → Option VifCap) (i j : Nat) : Bool :=
  match vif j with
  | some v => decide (j ≠ i) && v.joined
  | none => false

def atbmSetPrivQueueCap (i : Nat) (vif : Nat → Option VifCap) : Nat → Option VifCap :=
  (List.range maxVifs).foldl (fun vif j =>
      if otherJoined vif i j then setCap (setCap vif j atbmQueueCombCap) i atbmQueueCombCap else vif)
    (setCap vif i atbmQueueSingleCap)

/-- `atbm_clear_priv_queue_cap`; the second component is `prev_priv`. -/
def atbmClearPrivQueueCap (i : Nat) (vif : Nat → Option VifCap) : Nat → Option VifCap :=
  ((List.range maxVifs).foldl (fun (r : (Nat → Option VifCap) × Option Nat) j =>
      if otherJoined r.1 i j then
        let vif := setCap r.1 j atbmQueueSingleCap
        match r.2 with
        | none => (vif, some j)
        | some prev => (setCap (setCap vif prev atbmQueueCombCap) j atbmQueueCombCap, some j)
      else r)
    (setCap vif i atbmQueueDefaultCap, none)).1

structure PoolState where
  txq : TxQueues
  vif : Nat → Option VifCap
  /-- frames of queue `c` and interface `i` sent since the interface was stopped -/
  late : Fin 4 → Nat → Nat
  /-- the `BUG_ON` in `atbm_tx` fired -/
  bugOn : Bool

inductive PoolAct
  /-- `atbm_tx` reaches its put -/
  | tx (c : Fin 4) (skb : SkBuff) (t : AtbmTxpriv) (jiffies : Int) (other : Nat → Bool)
  /-- any other call on a queue: confirmations, gc timers, flushes, locks -/
  | call (c : Fin 4) (op : QOp) (jiffies : Int) (other : Nat → Bool)
  | addInterface (i : Nat)
  | removeInterface (i : Nat)
  | joinStatus (i : Nat) (joined : Bool)
  | setQueueCap (i : Nat)
  | clearQueueCap (i : Nat)

namespace PoolState

def env (n : Nat) (s : PoolState) (jiffies : Int) (other : Nat → Bool) : QEnv where
  jiffies := jiffies
  numPresentCpus := n
  queueCap i := (s.vif i).map VifCap.queueCap
  otherStopped := other

def cnt (s : PoolState) (c : Fin 4) (i : Nat) : Int := (s.txq.txQueue c).txLockedCnt i

/-- Slots of queue `c` on `free_pool`. -/
def free (s : PoolState) (c : Fin 4) : Nat := (s.txq.txQueue c).freePool.length

/-- Frames mac80211 may still send for an interface before and after the next put stops it. -/
def reserve (n : Nat) (s : PoolState) (c : Fin 4) (i : Nat) : Nat :=
  if s.cnt c i = 0 then n + 1 else n - s.late c i

/-- Frames the interfaces may still send if every put stops its interface. -/
def mayCome (n : Nat) (s : PoolState) (c : Fin 4) : Nat := s.reserve n c 0 + s.reserve n c 1

/-- The queues after a call, a frame of interface `sent` counted as late unless the stop is new. -/
def after (s : PoolState) (ev : QEvent) (sent : Option Nat) : PoolState :=
  { s with
    txq := s.txq.step ev
    late := fun c i =>
      if s.cnt c i = 0 ∨ ((s.txq.step ev).txQueue c).txLockedCnt i = 0 then 0
      else s.late c i + if c = ev.c ∧ sent = some i then 1 else 0 }

def enabled (n : Nat) (s : PoolState) : PoolAct → Prop
  | .tx c _ t _ _ => t.ifId.toNat < maxVifs ∧ t.linkId.toNat < wlanLinkIdMax ∧
      (s.cnt c t.ifId.toNat = 0 ∨ s.late c t.ifId.toNat < n)
  | .call c op jiffies other => op.isPut = false ∧ Valid s.txq ⟨c, s.env n jiffies other, op⟩
  | .addInterface i | .removeInterface i | .joinStatus i _ | .setQueueCap i | .clearQueueCap i => i < maxVifs

instance decEnabled (n : Nat) (s : PoolState) : (a : PoolAct) → Decidable (enabled n s a)
  | .tx c _ t _ _ => inferInstanceAs (Decidable (t.ifId.toNat < maxVifs ∧ t.linkId.toNat < wlanLinkIdMax ∧
      (s.cnt c t.ifId.toNat = 0 ∨ s.late c t.ifId.toNat < n)))
  | .call c op jiffies other =>
    inferInstanceAs (Decidable (op.isPut = false ∧ Valid s.txq ⟨c, s.env n jiffies other, op⟩))
  | .addInterface i | .removeInterface i | .joinStatus i _ | .setQueueCap i | .clearQueueCap i =>
    inferInstanceAs (Decidable (i < maxVifs))

def next (n : Nat) (s : PoolState) : PoolAct → PoolState
  | .tx c skb t jiffies other =>
    { s.after ⟨c, s.env n jiffies other, .put skb t⟩ (some t.ifId.toNat) with
      bugOn := s.bugOn || decide ((atbmQueuePut (s.env n jiffies other) skb t (s.txq.view c)).2 ≠ 0) }
  | .call c op jiffies other => s.after ⟨c, s.env n jiffies other, op⟩ none
  | .addInterface i => { s with vif := Function.update s.vif i (some ⟨atbmQueueDefaultCap, false⟩) }
  | .removeInterface i => { s with vif := Function.update s.vif i none }
  | .joinStatus i b =>
    { s with vif := Function.update s.vif i ((s.vif i).map fun v => { v with joined := b }) }
  | .setQueueCap i => { s with vif := atbmSetPrivQueueCap i s.vif }
  | .clearQueueCap i => { s with vif := atbmClearPrivQueueCap i s.vif }

def start (ttl : Fin 4 → Int) : PoolState where
  txq := TxQueues.start ttl
  vif _ := none
  late _ _ := 0
  bugOn := false

end PoolState

/-- The runs in which mac80211 honours flow control, `n` CPUs present. -/
def pool (n : Nat) : Sys PoolState PoolAct :=
  .ofNext (fun s => ∃ ttl, s = PoolState.start ttl) (PoolState.enabled n) (PoolState.next n)

/-- The frame is sent for queue `c`. -/
def PoolAct.sends (c : Fin 4) : PoolAct → Prop
  | tx c' _ _ _ _ => c' = c
  | _ => False

/-- Whatever mac80211 may now send for queue `c`, no put fails. -/
def Absorbs (n : Nat) (s : PoolState) (c : Fin 4) : Prop :=
  ∀ l : List PoolAct, (∀ a ∈ l, a.sends c) → Fires (PoolState.enabled n) (PoolState.next n) s l →
    (l.foldl (PoolState.next n) s).bugOn = false

/-- No put has failed, and a queue down to its extra slots, one for each CPU, absorbs what may come. -/
def Unexhausted (n : Nat) (s : PoolState) : Prop :=
  s.bugOn = false ∧ ∀ c, s.free c ≤ n → Absorbs n s c

/-- The step leaves a queue that is down to its extra slots with as many as frames may come:

* a put that takes the queue there finds a slot for every frame that may come, its own included, and
  stops its interface;
* any other call wakes no interface there and takes no slot that a frame may need. -/
def PoolFits (n : Nat) (s : PoolState) : PoolAct → Prop
  | .tx c _ t jiffies other =>
    s.free c ≤ n + 1 → s.mayCome n c ≤ s.free c ∧
      (s.cnt c t.ifId.toNat = 0 →
        putOverflows (s.env n jiffies other) (s.txq.txQueue c) t.ifId.toNat = true)
  | .call c op jiffies other =>
    op.freeAfter (s.env n jiffies other) (s.txq.txQueue c) ≤ n →
      s.mayCome n c ≤ op.freeAfter (s.env n jiffies other) (s.txq.txQueue c) ∧
      ∀ i < maxVifs, s.cnt c i = 1 → ¬op.lifts (s.env n jiffies other) (s.txq.txQueue c) i
  | _ => True

instance decPoolFits (n : Nat) (s : PoolState) : (a : PoolAct) → Decidable (PoolFits n s a)
  | .tx c _ t jiffies other => inferInstanceAs (Decidable (s.free c ≤ n + 1 → s.mayCome n c ≤ s.free c ∧
      (s.cnt c t.ifId.toNat = 0 →
        putOverflows (s.env n jiffies other) (s.txq.txQueue c) t.ifId.toNat = true)))
  | .call c op jiffies other =>
    inferInstanceAs (Decidable (op.freeAfter (s.env n jiffies other) (s.txq.txQueue c) ≤ n →
      s.mayCome n c ≤ op.freeAfter (s.env n jiffies other) (s.txq.txQueue c) ∧
      ∀ i < maxVifs, s.cnt c i = 1 → ¬op.lifts (s.env n jiffies other) (s.txq.txQueue c) i))
  | .addInterface _ | .removeInterface _ | .joinStatus _ _ | .setQueueCap _ | .clearQueueCap _ =>
    inferInstanceAs (Decidable True)

namespace PoolState

variable {n : Nat} {s : PoolState}

structure Ok (s : PoolState) : Prop where
  shape : ∀ c, Shape c (s.txq.view c)
  flow : FlowBalanced s.txq

theorem ok_start (ttl : Fin 4 → Int) : (start ttl).Ok := by
  refine ⟨fun c => shape_init c ttl, flow_balance (.init ⟨ttl, rfl⟩)⟩

theorem Ok.after (h : s.Ok) {ev : QEvent} (hv : Valid s.txq ev) (sent : Option Nat) : (s.after ev sent).Ok :=
  ⟨shape_step hv h.shape, h.flow.step h.shape hv⟩

variable {c : Fin 4} {skb : SkBuff} {t : AtbmTxpriv} {a : PoolAct} {i : Nat} {jiffies : Int} {other : Nat → Bool}

theorem valid_tx {e : QEnv} (ht : t.ifId.toNat < maxVifs) : Valid s.txq ⟨c, e, .put skb t⟩ :=
  valid_of_vif ht rfl nofun

theorem Ok.next (h : s.Ok) (ha : enabled n s a) : (next n s a).Ok := by
  cases a with
  | tx c skb t jiffies other =>
    obtain ⟨hS, hF⟩ := h.after (valid_tx ha.1) (some t.ifId.toNat)
    exact ⟨hS, hF⟩
  | call c op jiffies other => exact h.after ha.2 none
  | addInterface i => exact ⟨h.shape, h.flow⟩
  | removeInterface i => exact ⟨h.shape, h.flow⟩
  | joinStatus i b => exact ⟨h.shape, h.flow⟩
  | setQueueCap i => exact ⟨h.shape, h.flow⟩
  | clearQueueCap i => exact ⟨h.shape, h.flow⟩

theorem Ok.cnt_nonneg (h : s.Ok) (c : Fin 4) (i : Nat) : 0 ≤ s.cnt c i := by
  unfold cnt
  rw [h.flow.cnt]
  split <;> omega

theorem mayCome_eq (c : Fin 4) (hi : i < maxVifs) : s.mayCome n c = s.reserve n c i + s.reserve n c (1 - i) := by
  unfold maxVifs at hi
  have : i = 0 ∨ i = 1 := by omega
  rcases this with rfl | rfl
  · rfl
  · exact Nat.add_comm _ _

theorem reserve_le_mayCome (c : Fin 4) (hi : i < maxVifs) : s.reserve n c i ≤ s.mayCome n c := by
  rw [mayCome_eq c hi]
  omega

theorem reserve_pos : 0 < s.reserve n c i ↔ s.cnt c i = 0 ∨ s.late c i < n := by
  unfold reserve
  split
  · simp [*]
  · simp only [*, false_or]
    omega

/-! A call touches its own queue. -/

theorem after_free_self (ev : QEvent) (sent : Option Nat) :
    (s.after ev sent).free ev.c = (ev.op.run ev.env (s.txq.view ev.c)).q.freePool.length :=
  congrArg (fun q => q.freePool.length) (s.txq.step_txQueue_self ev)

theorem after_cnt_self (ev : QEvent) (sent : Option Nat) (i : Nat) :
    (s.after ev sent).cnt ev.c i = (ev.op.run ev.env (s.txq.view ev.c)).q.txLockedCnt i :=
  congrArg (fun q => q.txLockedCnt i) (s.txq.step_txQueue_self ev)

theorem after_other {ev : QEvent} {sent : Option Nat} (hc : c ≠ ev.c) :
    (s.after ev sent).free c = s.free c ∧ (s.after ev sent).mayCome n c = s.mayCome n c := by
  have hq : (s.txq.step ev).txQueue c = s.txq.txQueue c := s.txq.step_txQueue_other ev hc
  refine ⟨congrArg (fun q => q.freePool.length) hq, ?_⟩
  have hr : ∀ i, (s.after ev sent).reserve n c i = s.reserve n c i := by
    intro i
    unfold reserve after cnt
    simp only [hq, hc]
    split <;> simp [*]
  unfold mayCome
  rw [hr, hr]

theorem after_reserve (ev : QEvent) (sent : Option Nat) (i : Nat) :
    (s.after ev sent).reserve n ev.c i =
      if (s.after ev sent).cnt ev.c i = 0 then n + 1
      else if s.cnt ev.c i = 0 then n
      else s.reserve n ev.c i - if sent = some i then 1 else 0 := by
  have hcnt : ((s.txq.step ev).txQueue ev.c).txLockedCnt i = (s.after ev sent).cnt ev.c i := rfl
  have hlate : (s.after ev sent).late ev.c i =
      if s.cnt ev.c i = 0 ∨ (s.after ev sent).cnt ev.c i = 0 then 0
      else s.late ev.c i + if sent = some i then 1 else 0 := by
    unfold after
    simp only [hcnt, true_and]
    rfl
  unfold reserve
  rw [hlate]
  by_cases h0 : (s.after ev sent).cnt ev.c i = 0
  · rw [if_pos h0, if_pos h0]
  · rw [if_neg h0, if_neg h0]
    by_cases h1 : s.cnt ev.c i = 0
    · rw [if_pos (.inl h1), if_pos h1]
      omega
    · rw [if_neg (not_or.mpr ⟨h1, h0⟩), if_neg h1, if_neg h1]
      omega

/-- The interface runs and the put does not stop it. -/
def RunsOn (n : Nat) (s : PoolState) (c : Fin 4) (t : AtbmTxpriv) (jiffies : Int) (other : Nat → Bool) : Prop :=
  s.cnt c t.ifId.toNat = 0 ∧
    putOverflows (s.env n jiffies other) (s.txq.txQueue c) t.ifId.toNat = false

instance (c : Fin 4) (t : AtbmTxpriv) (jiffies : Int) (other : Nat → Bool) :
    Decidable (RunsOn n s c t jiffies other) :=
  inferInstanceAs (Decidable (_ ∧ _))

theorem tx_spec (h : s.Ok) (ha : enabled n s (.tx c skb t jiffies other)) (hf : 0 < s.free c) :
    (next n s (.tx c skb t jiffies other)).bugOn = s.bugOn ∧
    (next n s (.tx c skb t jiffies other)).free c + 1 = s.free c ∧
    (next n s (.tx c skb t jiffies other)).mayCome n c + (if RunsOn n s c t jiffies other then 0 else 1) =
      s.mayCome n c ∧
    ∀ c' ≠ c, (next n s (.tx c skb t jiffies other)).free c' = s.free c' ∧
      (next n s (.tx c skb t jiffies other)).mayCome n c' = s.mayCome n c' := by
  obtain ⟨hi, hl, hr⟩ := ha
  let ev : QEvent := ⟨c, s.env n jiffies other, .put skb t⟩
  have hk : (s.txq.view c).q.freePool ≠ [] := List.ne_nil_of_length_pos hf
  have hlink : t.linkId.toNat < (s.txq.view c).stats.mapCapacity := by
    rw [(h.shape c).mapCapacity]
    exact hl
  obtain ⟨hret, hfree, hcnt⟩ := put_spec (s.env n jiffies other) skb (s.txq.view c) hlink hk
  have hfree' : (s.after ev (some t.ifId.toNat)).free c + 1 = s.free c := by
    rw [show c = ev.c from rfl, after_free_self]
    exact hfree
  have hcnt' : ∀ i, (s.after ev (some t.ifId.toNat)).cnt c i = s.cnt c i +
      if t.ifId.toNat = i ∧ (s.txq.txQueue c).overfull i = false ∧
        putOverflows (s.env n jiffies other) (s.txq.txQueue c) i = true then 1 else 0 := by
    intro i
    rw [show c = ev.c from rfl, after_cnt_self]
    exact hcnt i
  have hres : ∀ i, (s.after ev (some t.ifId.toNat)).reserve n c i =
      if (s.after ev (some t.ifId.toNat)).cnt c i = 0 then n + 1
      else if s.cnt c i = 0 then n else s.reserve n c i - if some t.ifId.toNat = some i then 1 else 0 :=
    fun i => after_reserve ev (some t.ifId.toNat) i
  -- the interface that did not send
  have hother : ∀ i, i ≠ t.ifId.toNat →
      (s.after ev (some t.ifId.toNat)).reserve n c i = s.reserve n c i := by
    intro i hne
    have hne' := Ne.symm hne
    rw [hres, hcnt']
    simp only [hne', false_and, if_false, Int.add_zero, Option.some.injEq, Nat.sub_zero]
    unfold reserve
    split <;> rfl
  -- the interface that sent
  have hself : (s.after ev (some t.ifId.toNat)).reserve n c t.ifId.toNat +
      (if RunsOn n s c t jiffies other then 0 else 1) = s.reserve n c t.ifId.toNat := by
    have hpos := reserve_pos.mpr hr
    have hnn := h.cnt_nonneg c t.ifId.toNat
    have hov := h.flow.cnt c t.ifId.toNat
    rw [hres, hcnt', if_pos (rfl : some t.ifId.toNat = some t.ifId.toNat)]
    by_cases h0 : s.cnt c t.ifId.toNat = 0
    · have hover : (s.txq.txQueue c).overfull t.ifId.toNat = false := by
        unfold cnt at h0
        rw [h0] at hov
        by_contra ho
        rw [if_pos (by simpa using ho)] at hov
        omega
      have hfull : s.reserve n c t.ifId.toNat = n + 1 := if_pos h0
      rw [h0, hfull]
      cases hp : putOverflows (s.env n jiffies other) (s.txq.txQueue c) t.ifId.toNat
      · simp [RunsOn, h0, hp]
      · simp [RunsOn, h0, hp, hover]
    · have hne : ∀ b : Prop, [Decidable b] → s.cnt c t.ifId.toNat + (if b then 1 else 0) ≠ 0 := by
        intro b _
        split <;> omega
      rw [if_neg (hne _), if_neg h0, if_neg fun hb => h0 hb.1]
      omega
  refine ⟨?_, hfree', ?_, fun c' hc => after_other hc⟩
  · show (s.bugOn || decide ((atbmQueuePut (s.env n jiffies other) skb t (s.txq.view c)).2 ≠ 0)) = s.bugOn
    rw [hret]
    simp
  · show (s.after ev (some t.ifId.toNat)).mayCome n c + _ = _
    rw [mayCome_eq c hi, mayCome_eq c hi, hother (1 - t.ifId.toNat) (by omega)]
    omega

theorem tx_empty (h : s.Ok) (ha : enabled n s (.tx c skb t jiffies other)) (hf : s.free c = 0) :
    (next n s (.tx c skb t jiffies other)).bugOn = true := by
  have hlink : t.linkId.toNat < (s.txq.view c).stats.mapCapacity := by
    rw [(h.shape c).mapCapacity]
    exact ha.2.1
  have hret := put_empty (s.env n jiffies other) skb (s.txq.view c) hlink (List.length_eq_zero_iff.mp hf)
  show (s.bugOn || decide ((atbmQueuePut (s.env n jiffies other) skb t (s.txq.view c)).2 ≠ 0)) = true
  rw [hret]
  cases s.bugOn <;> rfl

theorem call_spec (h : s.Ok) {op : QOp} (ha : enabled n s (.call c op jiffies other)) :
    (next n s (.call c op jiffies other)).free c = op.freeAfter (s.env n jiffies other) (s.txq.txQueue c) ∧
    (∀ i < maxVifs, (s.cnt c i = 1 → ¬op.lifts (s.env n jiffies other) (s.txq.txQueue c) i) →
      (next n s (.call c op jiffies other)).reserve n c i ≤ s.reserve n c i) ∧
    (∀ i < maxVifs, s.cnt c i = 1 → op.lifts (s.env n jiffies other) (s.txq.txQueue c) i →
      (next n s (.call c op jiffies other)).reserve n c i = n + 1) ∧
    (∀ i < maxVifs, op.locksVif i = false → s.reserve n c i ≤ (next n s (.call c op jiffies other)).reserve n c i) ∧
    ∀ c' ≠ c, (next n s (.call c op jiffies other)).free c' = s.free c' ∧
      (next n s (.call c op jiffies other)).mayCome n c' = s.mayCome n c' := by
  obtain ⟨hput, hv⟩ := ha
  let ev : QEvent := ⟨c, s.env n jiffies other, op⟩
  obtain ⟨hfree, hcnt⟩ := op.run_spec (s.env n jiffies other) (s.txq.view c) hv.vif hput
  have hcnt' : ∀ i < maxVifs, (s.after ev none).cnt c i = s.cnt c i + (if op.locksVif i = true then 1 else 0) -
      if op.lifts (s.env n jiffies other) (s.txq.txQueue c) i then 1 else 0 := by
    intro i hi
    rw [show c = ev.c from rfl, after_cnt_self]
    exact hcnt i hi
  have hnn : ∀ i, 0 ≤ (s.after ev none).cnt c i := (h.after hv none).cnt_nonneg c
  have hres : ∀ i, (s.after ev none).reserve n c i =
      if (s.after ev none).cnt c i = 0 then n + 1
      else if s.cnt c i = 0 then n else s.reserve n c i - if (none : Option Nat) = some i then 1 else 0 :=
    fun i => after_reserve ev none i
  have hle : ∀ i, s.reserve n c i ≤ n + 1 := by
    intro i
    unfold reserve
    split <;> omega
  have hrun : ∀ i, s.cnt c i = 0 → s.reserve n c i = n + 1 := fun i h0 => if_pos h0
  refine ⟨?_, fun i hi hw => ?_, fun i hi h1 hl => ?_, fun i hi hlock => ?_, fun c' hc => after_other hc⟩
  · show (s.after ev none).free c = _
    rw [show c = ev.c from rfl, after_free_self]
    exact hfree
  · show (s.after ev none).reserve n c i ≤ _
    have h0 := h.cnt_nonneg c i
    have ht := hcnt' i hi
    rw [hres]
    by_cases hz : s.cnt c i = 0
    · rw [hrun i hz]
      split <;> omega
    · have hpos : (s.after ev none).cnt c i ≠ 0 := by
        by_cases hl : op.lifts (s.env n jiffies other) (s.txq.txQueue c) i
        · have : s.cnt c i ≠ 1 := fun h1 => hw h1 hl
          rw [if_pos hl] at ht
          split at ht <;> omega
        · rw [if_neg hl] at ht
          split at ht <;> omega
      rw [if_neg hpos, if_neg hz]
      simp
  · show (s.after ev none).reserve n c i = _
    have hlock : op.locksVif i = false := by
      cases op <;> first | rfl | exact hl.elim
    have ht := hcnt' i hi
    rw [h1, if_pos hl, hlock] at ht
    rw [hres, if_pos (by simpa using ht)]
  · show _ ≤ (s.after ev none).reserve n c i
    have h0 := h.cnt_nonneg c i
    have ht := hcnt' i hi
    have hn := hnn i
    rw [hlock] at ht
    rw [hres]
    split
    · exact hle i
    · rename_i hpos
      have hz : s.cnt c i ≠ 0 := by
        intro hz
        rw [hz] at ht
        simp only [Bool.false_eq_true, if_false] at ht
        split at ht <;> omega
      rw [if_neg hz]
      simp

/-- A frame of interface `i` on queue `c`. -/
def frameOn (c : Fin 4) (i : Nat) : PoolAct :=
  .tx c ⟨0, 0⟩ (sampleTxpriv (UInt8.ofNat i)) 0 fun _ => false

theorem enabled_frameOn (hi : i < maxVifs) (hr : 0 < s.reserve n c i) : enabled n s (frameOn c i) := by
  have hto : (UInt8.ofNat i).toNat = i := by
    unfold maxVifs at hi
    simp
    omega
  have hr := reserve_pos.mp hr
  refine ⟨?_, show (1 : Nat) < 17 by decide, ?_⟩
  · show (UInt8.ofNat i).toNat < maxVifs
    omega
  · show s.cnt c (UInt8.ofNat i).toNat = 0 ∨ s.late c (UInt8.ofNat i).toNat < n
    rwa [hto]

theorem frameOn_spec (h : s.Ok) (ha : enabled n s (frameOn c i)) (hf : 0 < s.free c) :
    (next n s (frameOn c i)).free c + 1 = s.free c ∧
    s.mayCome n c ≤ (next n s (frameOn c i)).mayCome n c + 1 := by
  obtain ⟨-, hfree, hcome, -⟩ := tx_spec h ha hf
  refine ⟨hfree, hcome.symm.le.trans (Nat.add_le_add_left ?_ _)⟩
  split <;> decide

theorem exists_sender (hm : 0 < s.mayCome n c) : ∃ i < maxVifs, enabled n s (frameOn c i) := by
  unfold mayCome at hm
  by_cases h0 : 0 < s.reserve n c 0
  · exact ⟨0, by decide, enabled_frameOn (by decide) h0⟩
  · exact ⟨1, by decide, enabled_frameOn (by decide) (by omega)⟩

theorem not_absorbs (h : s.Ok) (hc : s.free c < s.mayCome n c) : ¬Absorbs n s c := by
  intro habs
  have burst : ∀ m, ∀ s : PoolState, s.Ok → s.free c = m → m < s.mayCome n c →
      ∃ l : List PoolAct, (∀ a ∈ l, a.sends c) ∧ Fires (enabled n) (next n) s l ∧
        (l.foldl (next n) s).bugOn = true := by
    intro m
    induction m with
    | zero =>
      intro s h hf hm
      obtain ⟨i, hi, ha⟩ := exists_sender (Nat.zero_lt_of_lt hm)
      refine ⟨[frameOn c i], ?_, ⟨ha, trivial⟩, tx_empty h ha hf⟩
      intro a ha
      rw [List.mem_singleton.mp ha]
      exact (rfl : c = c)
    | succ m ih =>
      intro s h hf hm
      obtain ⟨i, hi, ha⟩ := exists_sender (Nat.zero_lt_of_lt hm)
      obtain ⟨hfree, hcome⟩ := frameOn_spec h ha (by omega)
      obtain ⟨l, hl, hfire, hbug⟩ := ih (next n s (frameOn c i)) (h.next ha) (by omega) (by omega)
      refine ⟨frameOn c i :: l, ?_, ⟨ha, hfire⟩, hbug⟩
      intro a ha
      rcases List.mem_cons.mp ha with rfl | ha
      · exact (rfl : c = c)
      · exact hl a ha
  obtain ⟨l, hl, hfire, hbug⟩ := burst _ s h rfl hc
  rw [habs l hl hfire] at hbug
  cases hbug

theorem absorbs (h : s.Ok) (hb : s.bugOn = false) (hn : s.free c ≤ n)
    (hc : s.mayCome n c ≤ s.free c) : Absorbs n s c := by
  intro l
  induction l generalizing s with
  | nil => exact fun _ _ => hb
  | cons a l ih =>
    intro hl hfire
    have hsend := hl a List.mem_cons_self
    cases a with
    | tx c' skb t jiffies other =>
      obtain rfl : c' = c := hsend
      obtain ⟨ha, hfire⟩ := hfire
      have hr := reserve_pos.mpr ha.2.2
      have hle := reserve_le_mayCome (n := n) (s := s) c' ha.1
      obtain ⟨hb', hfree, hcome, -⟩ := tx_spec h ha (by omega)
      have hno : ¬RunsOn n s c' t jiffies other := by
        rintro ⟨h0, -⟩
        have : s.reserve n c' t.ifId.toNat = n + 1 := if_pos h0
        omega
      rw [if_neg hno] at hcome
      exact ih (h.next ha) (hb'.trans hb) (by omega) (by omega)
        (fun a ha => hl a (List.mem_cons_of_mem _ ha)) hfire
    | call => exact hsend.elim
    | addInterface => exact hsend.elim
    | removeInterface => exact hsend.elim
    | joinStatus => exact hsend.elim
    | setQueueCap => exact hsend.elim
    | clearQueueCap => exact hsend.elim

/-- `Unexhausted` by counting. -/
structure Spare (n : Nat) (s : PoolState) : Prop where
  bugOn : s.bugOn = false
  room : ∀ c, s.free c ≤ n → s.mayCome n c ≤ s.free c

theorem spare_iff (h : s.Ok) : Spare n s ↔ Unexhausted n s := by
  constructor
  · intro hs
    exact ⟨hs.bugOn, fun c hc => absorbs h hs.bugOn hc (hs.room c hc)⟩
  · rintro ⟨hb, hs⟩
    refine ⟨hb, fun c hc => ?_⟩
    by_contra hlt
    exact not_absorbs h (by omega) (hs c hc)

theorem Spare.next (h : s.Ok) (hs : Spare n s) (ha : enabled n s a) (hfit : PoolFits n s a) : Spare n (next n s a) := by
  cases a with
  | tx c skb t jiffies other =>
    have hr := reserve_pos.mpr ha.2.2
    have hle := reserve_le_mayCome (n := n) (s := s) c ha.1
    have hpos : 0 < s.free c := by
      by_contra h0
      have := hs.room c (by omega)
      omega
    obtain ⟨hb, hfree, hcome, hoth⟩ := tx_spec h ha hpos
    refine ⟨hb.trans hs.bugOn, fun c' hc' => ?_⟩
    by_cases hc : c' = c
    · subst hc
      obtain ⟨hroom, hstop⟩ := hfit (by omega)
      have hno : ¬RunsOn n s c' t jiffies other := by
        rintro ⟨h0, hp⟩
        rw [hstop h0] at hp
        cases hp
      rw [if_neg hno] at hcome
      omega
    · obtain ⟨hf', hm'⟩ := hoth c' hc
      rw [hf'] at hc' ⊢
      rw [hm']
      exact hs.room c' hc'
  | call c op jiffies other =>
    obtain ⟨hfree, hkeep, -, -, hoth⟩ := call_spec h ha
    refine ⟨hs.bugOn, fun c' hc' => ?_⟩
    by_cases hc : c' = c
    · subst hc
      rw [hfree] at hc' ⊢
      obtain ⟨hroom, hwake⟩ := hfit hc'
      have h0 := hkeep 0 (by decide) (hwake 0 (by decide))
      have h1 := hkeep 1 (by decide) (hwake 1 (by decide))
      unfold mayCome at hroom ⊢
      omega
    · obtain ⟨hf', hm'⟩ := hoth c' hc
      rw [hf'] at hc' ⊢
      rw [hm']
      exact hs.room c' hc'
  | addInterface i => exact ⟨hs.bugOn, hs.room⟩
  | removeInterface i => exact ⟨hs.bugOn, hs.room⟩
  | joinStatus i b => exact ⟨hs.bugOn, hs.room⟩
  | setQueueCap i => exact ⟨hs.bugOn, hs.room⟩
  | clearQueueCap i => exact ⟨hs.bugOn, hs.room⟩

theorem fits_of_spare (h : s.Ok) (hs : Spare n s) (ha : enabled n s a)
    (ht : Spare n (next n s a)) : PoolFits n s a := by
  cases a with
  | tx c skb t jiffies other =>
    intro hle
    have hpos : 0 < s.free c := by
      by_contra h0
      have := tx_empty h ha (by omega)
      rw [ht.bugOn] at this
      cases this
    obtain ⟨-, hfree, hcome, -⟩ := tx_spec h ha hpos
    have hroom := ht.room c (by omega)
    have hno : ¬RunsOn n s c t jiffies other := by
      intro hrun
      have hfull : s.reserve n c t.ifId.toNat = n + 1 := if_pos hrun.1
      have := reserve_le_mayCome (n := n) (s := s) c ha.1
      rw [if_pos hrun] at hcome
      omega
    rw [if_neg hno] at hcome
    refine ⟨by omega, fun h0 => ?_⟩
    by_contra hp
    exact hno ⟨h0, by simpa using hp⟩
  | call c op jiffies other =>
    obtain ⟨hfree, hkeep, hwake, hlose, -⟩ := call_spec h ha
    intro hle
    have hroom := ht.room c (by omega)
    rw [hfree] at hroom
    refine ⟨?_, fun i hi h1 hl => ?_⟩
    · by_cases hlock : ∃ i < maxVifs, op.locksVif i = true
      · obtain ⟨i, -, hlock⟩ := hlock
        have hsame : op.freeAfter (s.env n jiffies other) (s.txq.txQueue c) = s.free c := by
          cases op <;> first | rfl | cases hlock
        rw [hsame] at hle ⊢
        exact hs.room c hle
      · have hno : ∀ i < maxVifs, op.locksVif i = false := by
          intro i hi
          by_contra hb
          exact hlock ⟨i, hi, by simpa using hb⟩
        have h0 := hlose 0 (by decide) (hno 0 (by decide))
        have h1 := hlose 1 (by decide) (hno 1 (by decide))
        unfold mayCome at hroom ⊢
        omega
    · have := hwake i hi h1 hl
      have := reserve_le_mayCome (n := n) (s := PoolState.next n s (.call c op jiffies other)) c hi
      omega
  | addInterface i => trivial
  | removeInterface i => trivial
  | joinStatus i b => trivial
  | setQueueCap i => trivial
  | clearQueueCap i => trivial

theorem spare_start (n : Nat) (ttl : Fin 4 → Int) : Spare n (start ttl) ↔ n < maxQueueSz := by
  have hfree : ∀ c, (start ttl).free c = maxQueueSz := by
    intro c
    have := ((ok_start ttl).shape c).slots.length_add
    have hq : ((start ttl).txq.txQueue c).queue = [] := rfl
    have hp : ((start ttl).txq.txQueue c).pending = [] := rfl
    rw [TxQueues.view_q, hq, hp, List.length_nil, Nat.add_zero] at this
    exact this
  have hcome : ∀ c, (start ttl).mayCome n c = (n + 1) + (n + 1) := by
    intro c
    have hr : ∀ i, (start ttl).reserve n c i = n + 1 := fun i => if_pos rfl
    unfold mayCome
    rw [hr, hr]
  constructor
  · intro hs
    by_contra hn
    have := hs.room 0 (by rw [hfree]; omega)
    rw [hfree, hcome] at this
    omega
  · intro hn
    refine ⟨rfl, fun c hc => ?_⟩
    rw [hfree] at hc
    omega

end PoolState

/-- **When the pool cannot run out.**  Along a run of `n` CPUs no put fails, and a queue down to its
extra slots absorbs whatever mac80211 may still send, exactly when the CPUs are fewer than the slots
and every step fits. -/
theorem pool_exhaustion {n : Nat} {ttl : Fin 4 → Int} {l : List (PoolState × PoolAct)} {t : PoolState}
    (h : Path (pool n) (PoolState.start ttl) l t) :
    ((∀ p ∈ l, Unexhausted n p.1) ∧ Unexhausted n t) ↔
      n < maxQueueSz ∧ ∀ p ∈ l, PoolFits n p.1 p.2 := by
  have hok := PoolState.ok_start ttl
  have exact' : Unexhausted n (PoolState.start ttl) →
      (((∀ p ∈ l, Unexhausted n p.1) ∧ Unexhausted n t) ↔ ∀ p ∈ l, PoolFits n p.1 p.2) := by
    refine h.exact (I := PoolState.Ok) ?_ ?_ hok
    · rintro s a t hI hP ⟨ha, rfl⟩ hfit
      have hnext := hI.next ha
      exact ⟨hnext, (PoolState.spare_iff hnext).mp (((PoolState.spare_iff hI).mpr hP).next hI ha hfit)⟩
    · rintro s a t hI hP ⟨ha, rfl⟩ ht
      have hnext := hI.next ha
      exact PoolState.fits_of_spare hI ((PoolState.spare_iff hI).mpr hP) ha ((PoolState.spare_iff hnext).mpr ht)
  have hstart : Unexhausted n (PoolState.start ttl) ↔ n < maxQueueSz :=
    (PoolState.spare_iff hok).symm.trans (PoolState.spare_start n ttl)
  constructor
  · intro hall
    have h0 : Unexhausted n (PoolState.start ttl) := by
      cases h with
      | nil => exact hall.2
      | cons hst hp => exact hall.1 _ List.mem_cons_self
    exact ⟨hstart.mp h0, (exact' h0).mp hall⟩
  · rintro ⟨hn, hfit⟩
    exact (exact' (hstart.mpr hn)).mpr hfit

/-- A run that fits: an interface joins and sends, its gc timer fires. -/
def joinRun : List PoolAct :=
  [.addInterface 0, .joinStatus 0 true, .setQueueCap 0, PoolState.frameOn 0 0, .call 0 (.gc 0) 5 fun _ => false]

theorem pool_exhaustion_joinRun :
    Unexhausted 4 (joinRun.foldl (PoolState.next 4) (PoolState.start fun _ => 1000)) := by
  have hrun : Path (pool 4) (PoolState.start fun _ => 1000) _ _ :=
    Path.ofFires (show Fires (PoolState.enabled 4) (PoolState.next 4) _ joinRun by decide +kernel)
  exact ((pool_exhaustion hrun).mpr ⟨by decide, by decide +kernel⟩).2

/-- Four CPUs, two interfaces.  Interface 0 joins alone and fills its cap of 224; interface 1 joins and
takes the pool to its extra slots; its gc timer fires and finds it under its own cap. -/
def poolRun : List PoolAct :=
  [.addInterface 0, .addInterface 1, .joinStatus 0 true, .setQueueCap 0] ++
    List.replicate 224 (PoolState.frameOn 0 0) ++ [.joinStatus 1 true, .setQueueCap 1] ++
    List.replicate 28 (PoolState.frameOn 0 1) ++ [.call 0 (.gc 1) 0 fun _ => false] ++
    List.replicate 5 (PoolState.frameOn 0 1)

/-- **The pool runs out** though mac80211 honours every stop. -/
theorem pool_exhausted : ¬∀ n s, Reach (pool n) s → s.bugOn = false := by
  intro hsafe
  have hrun : Fires (PoolState.enabled 4) (PoolState.next 4) (PoolState.start fun _ => 1000) poolRun ∧
      (poolRun.foldl (PoolState.next 4) (PoolState.start fun _ => 1000)).bugOn = true := by
    decide +kernel
  have hs : Reach (pool 4) (PoolState.start fun _ => 1000) := .init ⟨_, rfl⟩
  have hbug := hsafe 4 _ (Reach.fires hs hrun.1)
  rw [hrun.2] at hbug
  cases hbug

end AtbmWifi
