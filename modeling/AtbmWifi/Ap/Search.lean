import AtbmWifi.Ap.Occupancy

/-!
# A call of `wsm_get_tx`, and what its turns find

A call is a run of turns; it returns with the first that does not go on (`CallReturns`).

What a turn finds depends on the frames that wait for the interface in turn (`backlog`), its masks and the random
numbers: `nextFrame` is the search over these frames alone.

* `nextFrame_eq_none_iff`, `nextFrame_spec`: a frame is found as long as one may go, and it is one that may.
* `backlog_dropped`: a frame that is got, and removed again, is gone from its backlog, and nothing else is.
-/

namespace AtbmWifi

open Transition Mask

/-- The state before turn `n` of the call that begins in `s`; `env n` is what the turn reads. -/
def beforeTurn (ap : Nat → Bool) (env : Nat → GetTxEnv) (s : PsState) : Nat → PsState
  | 0 => s
  | n + 1 => (wsmGetTx ap (env n) (beforeTurn ap env s n)).1

def turnOn (ap : Nat → Bool) (e : GetTxEnv) (s : PsState) : Bool :=
  (wsmGetTx ap e s).2.isNone && (wsmGetTx ap e s).1.loop.isSome && !(wsmGetTx ap e s).1.crashed

/-- The call returns with turn `n`; `d` is what its caller is handed. -/
structure CallReturns (ap : Nat → Bool) (env : Nat → GetTxEnv) (s : PsState) (n : Nat) (d : Option TxData) : Prop where
  on : ∀ m < n, turnOn ap (env m) (beforeTurn ap env s m) = true
  last : turnOn ap (env n) (beforeTurn ap env s n) = false
  data : (wsmGetTx ap (env n) (beforeTurn ap env s n)).2 = d

theorem CallReturns.unique {ap : Nat → Bool} {env : Nat → GetTxEnv} {s : PsState} {n n' : Nat} {d d' : Option TxData}
    (h : CallReturns ap env s n d) (h' : CallReturns ap env s n' d') : n = n' ∧ d = d' := by
  rcases Nat.lt_trichotomy n n' with hlt | rfl | hlt
  · exact absurd (h.last.symm.trans (h'.on n hlt)) Bool.false_ne_true
  · exact ⟨rfl, h.data.symm.trans h'.data⟩
  · exact absurd (h'.last.symm.trans (h.on n' hlt)) Bool.false_ne_true

/-- A call begins: nothing is saved, no command is pending and TX is not locked. -/
structure Begins (s : PsState) : Prop where
  loop : s.loop = none
  saveBuf : s.saveBuf = none
  cmd : s.cmd = false
  lock : s.txLock = 0
  crashed : s.crashed = false

/-- The frames of an interface that wait, queue by queue. -/
abbrev Backlog := Fin 4 → List AtbmTxpriv

def backlog (i : Nat) (s : TxQueues) : Backlog := fun c =>
  ((s.txQueue c).queue.map fun k => ((s.txQueue c).pool k).txpriv).filter fun t => t.ifId.toNat == i

def onMask (mask : BitVec 32) (t : AtbmTxpriv) : Bool := mask.getLsbD t.linkId.toNat

/-- The frames of queue `c` on the links of a mask. -/
def countOn (b : Backlog) (mask : BitVec 32) (c : Fin 4) : Int := (b c).countP (onMask mask)

/-- The queue that `atbm_get_prio_queue` picks, from the frames. -/
def pickQueue (score : Fin 4 → Nat) (burst : Option (Fin 4)) (b : Backlog) (mask : BitVec 32) : Option (Fin 4) :=
  match (prioSearch (countOn b mask) score).winner, burst with
  | some w, some k =>
    if w ≠ k ∧ countOn b (mask &&& urgent) w = 0 ∧ countOn b mask k ≠ 0 then some k else some w
  | w, _ => w

/-- The two searches of `wsm_get_tx_queue_and_mask`. -/
def searchBacklog (score : Bool → Fin 4 → Nat) (burst : Option (Fin 4)) (v : AtbmVif) (b : Backlog) :
    Option (Fin 4 × BitVec 32) :=
  match (if v.txMulticast then pickQueue (score false) burst b (BIT dtimVirtualLinkId) else none) with
  | some c => some (c, BIT dtimVirtualLinkId)
  | none => (pickQueue (score true) burst b (unicastMask v)).map fun c => (c, unicastMask v)

/-- The frames without the first of queue `c` on the mask. -/
def takenFrom (b : Backlog) (c : Fin 4) (mask : BitVec 32) : Backlog :=
  Function.update b c ((b c).eraseP (onMask mask))

def nextFrame (score : Bool → Fin 4 → Nat) (burst : Option (Fin 4)) (v : AtbmVif) (b : Backlog) :
    Option (AtbmTxpriv × Backlog) :=
  (searchBacklog score burst v b).bind fun p => ((b p.1).find? (onMask p.2)).map fun t => (t, takenFrom b p.1 p.2)

def mayGo (v : AtbmVif) (t : AtbmTxpriv) : Bool :=
  onMask (unicastMask v) t || (v.txMulticast && onMask (BIT dtimVirtualLinkId) t)

/-- The scores of the queues of interface `i`. -/
def scores (e : GetTxEnv) (i : Nat) (second : Bool) (c : Fin 4) : Nat := edcaScore (e.edca i c) (e.rand second c)

section
variable {score : Bool → Fin 4 → Nat} {burst : Option (Fin 4)} {v : AtbmVif} {b : Backlog} {mask : BitVec 32}

theorem countOn_ne_zero_iff {c : Fin 4} : countOn b mask c ≠ 0 ↔ ∃ t ∈ b c, onMask mask t = true := by
  unfold countOn
  rw [Int.natCast_ne_zero, Nat.ne_zero_iff_zero_lt, List.countP_pos_iff]

theorem pickQueue_spec {score : Fin 4 → Nat} (hscore : ∀ c, score c < 4294967295) :
    (pickQueue score burst b mask = none → ∀ c, countOn b mask c = 0) ∧
      ∀ c, pickQueue score burst b mask = some c → countOn b mask c ≠ 0 := by
  obtain ⟨-, h2, h3⟩ := prioTurns (countOn b mask) hscore (List.finRange 4) ⟨0, 4294967295, none⟩ (fun _ => rfl)
  have hnone : (prioSearch (countOn b mask) score).winner = none → ∀ c, countOn b mask c = 0 :=
    fun h c => (h2 h).2 c (List.mem_finRange c)
  have hsome : ∀ w, (prioSearch (countOn b mask) score).winner = some w → countOn b mask w ≠ 0 :=
    fun w hw => (h3 w hw).resolve_left nofun
  unfold pickQueue
  split
  · next w k hw =>
    split
    · next hburst =>
      refine ⟨nofun, ?_⟩
      rintro c ⟨⟩
      exact hburst.2.2
    · refine ⟨nofun, ?_⟩
      rintro c ⟨⟩
      exact hsome w hw
  · exact ⟨hnone, hsome⟩

variable (burst) in
theorem pickQueue_eq_none_iff {score : Fin 4 → Nat} (hscore : ∀ c, score c < 4294967295) :
    pickQueue score burst b mask = none ↔ ∀ c, ∀ t ∈ b c, onMask mask t = false := by
  have hzero : ∀ c, countOn b mask c = 0 ↔ ∀ t ∈ b c, onMask mask t = false := by
    intro c
    unfold countOn
    rw [Int.natCast_eq_zero, List.countP_eq_zero]
    simp only [Bool.not_eq_true]
  simp only [← hzero]
  constructor
  · exact (pickQueue_spec hscore).1
  · intro h
    cases hp : pickQueue score burst b mask with
    | none => rfl
    | some c => exact absurd (h c) ((pickQueue_spec hscore).2 c hp)

theorem searchBacklog_spec (hscore : ∀ second c, score second c < 4294967295) {c : Fin 4}
    (h : searchBacklog score burst v b = some (c, mask)) :
    countOn b mask c ≠ 0 ∧ ∀ t, onMask mask t = true → mayGo v t = true := by
  unfold searchBacklog at h
  split at h
  · next c' hc =>
    rw [Option.some.injEq, Prod.mk.injEq] at h
    obtain ⟨rfl, rfl⟩ := h
    by_cases htx : v.txMulticast = true
    · rw [if_pos htx] at hc
      refine ⟨(pickQueue_spec (hscore false)).2 c' hc, fun t ht => ?_⟩
      unfold mayGo
      rw [htx, ht, Bool.and_true, Bool.or_true]
    · rw [if_neg htx] at hc
      cases hc
  · rw [Option.map_eq_some_iff] at h
    obtain ⟨c', hc, h⟩ := h
    rw [Prod.mk.injEq] at h
    obtain ⟨rfl, rfl⟩ := h
    refine ⟨(pickQueue_spec (hscore true)).2 c' hc, fun t ht => ?_⟩
    unfold mayGo
    rw [ht, Bool.true_or]

variable (burst) in
theorem searchBacklog_eq_none_iff (hscore : ∀ second c, score second c < 4294967295) :
    searchBacklog score burst v b = none ↔ ∀ c, ∀ t ∈ b c, mayGo v t = false := by
  have hsplit : (∀ c, ∀ t ∈ b c, mayGo v t = false) ↔
      (v.txMulticast = true → ∀ c, ∀ t ∈ b c, onMask (BIT dtimVirtualLinkId) t = false) ∧
        ∀ c, ∀ t ∈ b c, onMask (unicastMask v) t = false := by
    unfold mayGo
    simp only [Bool.or_eq_false_iff, Bool.and_eq_false_imp]
    exact ⟨fun h => ⟨fun htx c t ht => (h c t ht).2 htx, fun c t ht => (h c t ht).1⟩,
      fun h c t ht => ⟨h.2 c t ht, fun htx => h.1 htx c t ht⟩⟩
  rw [hsplit, ← pickQueue_eq_none_iff burst (hscore false), ← pickQueue_eq_none_iff burst (hscore true)]
  unfold searchBacklog
  by_cases htx : v.txMulticast = true
  · rw [if_pos htx]
    cases pickQueue (score false) burst b (BIT dtimVirtualLinkId) with
    | some c => simp [htx]
    | none => simp [htx]
  · rw [if_neg htx]
    simp [htx]

theorem searchBacklog_txMulticast (hscore : ∀ second c, score second c < 4294967295)
    (hno : ∀ c, ∀ t ∈ b c, onMask (BIT dtimVirtualLinkId) t = false) (tx : Bool) :
    searchBacklog score burst { v with txMulticast := tx } b = searchBacklog score burst v b := by
  have hnone := (pickQueue_eq_none_iff burst (hscore false)).mpr hno
  have hmask : unicastMask { v with txMulticast := tx } = unicastMask v := rfl
  unfold searchBacklog
  rw [hnone, ite_self, ite_self, hmask]

theorem perm_eraseP {α : Type*} {p : α → Bool} {l : List α} {a : α} (h : l.find? p = some a) :
    l.Perm (a :: l.eraseP p) := by
  induction l with
  | nil => cases h
  | cons x l ih =>
    rw [List.find?_cons] at h
    cases hx : p x with
    | true =>
      rw [hx] at h
      cases h
      rw [List.eraseP_cons_of_pos hx]
    | false =>
      rw [hx] at h
      rw [List.eraseP_cons_of_neg (by simp [hx])]
      exact ((ih h).cons x).trans (.swap a x _)

theorem nextFrame_eq_none_iff (hscore : ∀ second c, score second c < 4294967295) :
    nextFrame score burst v b = none ↔ ∀ c, ∀ t ∈ b c, mayGo v t = false := by
  rw [← searchBacklog_eq_none_iff burst hscore]
  unfold nextFrame
  cases hs : searchBacklog score burst v b with
  | none => simp
  | some p =>
    obtain ⟨c, mask⟩ := p
    obtain ⟨t, ht, hm⟩ := countOn_ne_zero_iff.mp (searchBacklog_spec hscore hs).1
    have hfind : (b c).find? (onMask mask) ≠ none := fun h => List.find?_eq_none.mp h t ht hm
    simp [hfind]

theorem nextFrame_spec (hscore : ∀ second c, score second c < 4294967295) {t : AtbmTxpriv} {b' : Backlog}
    (h : nextFrame score burst v b = some (t, b')) :
    mayGo v t = true ∧ ∃ c, (b c).Perm (t :: b' c) ∧ ∀ c' ≠ c, b' c' = b c' := by
  unfold nextFrame at h
  rw [Option.bind_eq_some_iff] at h
  obtain ⟨⟨c, mask⟩, hs, h⟩ := h
  rw [Option.map_eq_some_iff] at h
  obtain ⟨t', ht, h⟩ := h
  rw [Prod.mk.injEq] at h
  obtain ⟨rfl, rfl⟩ := h
  refine ⟨(searchBacklog_spec hscore hs).2 t' (List.find?_some ht), c, ?_, fun c' hc => ?_⟩
  · unfold takenFrom
    rw [Function.update_self]
    exact perm_eraseP ht
  · unfold takenFrom
    rw [Function.update_of_ne hc]

end

/-! ## The counters find what the frames show -/

theorem waiting_backlog (i : Nat) (mask : BitVec 32) (s : TxQueues) (c : Fin 4) :
    (waiting (onLinks i mask) (s.txQueue c) : Int) = countOn (backlog i s) mask c := by
  unfold waiting countOn backlog
  rw [List.countP_filter, List.countP_map]
  congr 1
  apply List.countP_congr
  intro k _
  simp only [onLinks, onMask, Function.comp_apply, Bool.and_comm]

section
variable {s : PsState}

theorem queued_backlog (h : Accounted s.queues) (e : GetTxEnv) (i : Nat) (second : Bool) (mask : BitVec 32) :
    (s.prioArg e i second).queued mask = countOn (backlog i s.queues) mask := by
  funext c
  rw [← waiting_backlog, ← TxQueues.view_q]
  exact numQueued_eq (h.counted c) i mask

theorem prioQueue_backlog (h : Accounted s.queues) (e : GetTxEnv) (i : Nat) (second : Bool) (mask : BitVec 32) :
    (atbmGetPrioQueue (s.prioArg e i second) mask).1 =
      pickQueue (scores e i second) s.txBurstIdx (backlog i s.queues) mask := by
  unfold atbmGetPrioQueue pickQueue
  simp only [queued_backlog h]
  split
  · next w k hw hk =>
    have hw' : (prioSearch (countOn (backlog i s.queues) mask) (scores e i second)).winner = some w := hw
    have hk' : s.txBurstIdx = some k := hk
    rw [hw', hk']
    dsimp only
    split <;> rfl
  · next hno =>
    split
    · next w k hw hk => exact (hno w k hw hk).elim
    · rfl

/-- **The search finds what the frames show.** -/
theorem found_eq (h : Accounted s.queues) (e : GetTxEnv) (more : Bool) :
    (s.found e more).1 = searchBacklog (scores e s.ifIdSelected) s.txBurstIdx (s.vif s.ifIdSelected)
      (backlog s.ifIdSelected s.queues) := by
  unfold PsState.found wsmGetTxQueueAndMask searchBacklog
  have hpick := fun second mask => prioQueue_backlog h e s.ifIdSelected second mask
  dsimp only
  by_cases htx : (s.vif s.ifIdSelected).txMulticast = true
  · rw [if_pos htx, if_pos htx, ← hpick, ← hpick]
    rcases atbmGetPrioQueue (s.prioArg e s.ifIdSelected false) (BIT dtimVirtualLinkId) with ⟨_ | c, total⟩
    · rfl
    · rfl
  · rw [if_neg htx, if_neg htx, ← hpick]

end

theorem erase_find {p : Nat → Bool} {l : List Nat} {k : Nat} (h : l.find? p = some k) : l.erase k = l.eraseP p := by
  induction l with
  | nil => cases h
  | cons j l ih =>
    rw [List.find?_cons] at h
    cases hj : p j with
    | true =>
      rw [hj] at h
      cases h
      rw [List.erase_cons_head, List.eraseP_cons_of_pos hj]
    | false =>
      rw [hj] at h
      have hne : j ≠ k := fun hjk => Bool.false_ne_true ((hjk ▸ hj).symm.trans (List.find?_some h))
      rw [List.erase_cons_tail (by simpa using hne), List.eraseP_cons_of_neg (by simp [hj]), ih h]

section
variable {s : TxQueues} {c : Fin 4} {e : QEnv} {i k : Nat} {mask : BitVec 32}

theorem select_backlog (s : TxQueues) (c : Fin 4) (i : Nat) (mask : BitVec 32) :
    (backlog i s c).find? (onMask mask) =
      (selectItem (s.txQueue c) i mask.toNat).map fun k => ((s.txQueue c).pool k).txpriv := by
  unfold backlog selectItem
  rw [List.find?_filter, List.find?_map]
  congr 1
  apply congrArg (fun p => List.find? p _)
  funext k
  simp only [Function.comp_apply, linkAllowed, BitVec.testBit_toNat]
  rw [Bool.eq_iff_iff, decide_eq_true_iff, Bool.and_eq_true]
  rfl

theorem get_queue (h : selectItem (s.txQueue c) i mask.toNat = some k) :
    ((s.step ⟨c, e, .get i mask.toNat⟩).txQueue c).queue = (s.txQueue c).queue.erase k := by
  rw [s.step_txQueue_self ⟨c, e, .get i mask.toNat⟩]
  show (atbmQueueGet e i mask.toNat (s.view c)).1.q.queue = _
  unfold atbmQueueGet
  simp only [TxQueues.view_q, h, wakeIf_q]
  rfl

theorem backlog_get (h : selectItem (s.txQueue c) i mask.toNat = some k) (j : Nat) :
    backlog j (s.step ⟨c, e, .get i mask.toNat⟩) =
      if j = i then takenFrom (backlog i s) c mask else backlog j s := by
  have hpool : ∀ c', (fun k => (((s.step ⟨c, e, .get i mask.toNat⟩).txQueue c').pool k).txpriv) =
      fun k => ((s.txQueue c').pool k).txpriv := by
    intro c'
    funext k
    exact s.step_txpriv ⟨c, e, .get i mask.toNat⟩ rfl c' k
  have hother : ∀ c' ≠ c, backlog j (s.step ⟨c, e, .get i mask.toNat⟩) c' = backlog j s c' := by
    intro c' hc
    unfold backlog
    rw [hpool, s.step_txQueue_other ⟨c, e, .get i mask.toNat⟩ hc]
  have hself : backlog j (s.step ⟨c, e, .get i mask.toNat⟩) c =
      if j = i then (backlog i s c).eraseP (onMask mask) else backlog j s c := by
    unfold backlog
    rw [hpool, get_queue h, erase_find h]
    split
    · next hj =>
      subst hj
      rw [List.eraseP_filter, List.eraseP_map]
      congr 2
      apply congrArg (fun p => List.eraseP p _)
      funext k
      simp only [Function.comp_apply, onMask, linkAllowed, BitVec.testBit_toNat, Bool.and_comm]
    · next hj =>
      -- the frame that goes is none of interface `j`
      have hgone : ∀ (t : AtbmTxpriv), t.ifId.toNat = i → (t.ifId.toNat == j) = false := by
        intro t ht
        rw [ht]
        exact beq_eq_false_iff_ne.mpr (Ne.symm hj)
      rw [← erase_find h]
      obtain ⟨l, l', hl, herase⟩ := List.exists_erase_eq (selectItem_mem h)
      rw [herase.2, herase.1]
      simp only [List.map_append, List.map_cons, List.filter_append, List.filter_cons,
        hgone _ (selectItem_spec h).1, Bool.false_eq_true, if_false]
  funext c'
  by_cases hc : c' = c
  · subst hc
    rw [hself]
    split
    · unfold takenFrom
      rw [Function.update_self]
    · rfl
  · rw [hother c' hc]
    split
    · next hj =>
      subst hj
      unfold takenFrom
      rw [Function.update_of_ne hc]
    · rfl

theorem backlog_missed (h : selectItem (s.txQueue c) i mask.toNat = none) (j : Nat) :
    backlog j (s.step ⟨c, e, .get i mask.toNat⟩) = backlog j s := by
  have hq : (s.step ⟨c, e, .get i mask.toNat⟩).txQueue c = s.txQueue c := by
    rw [s.step_txQueue_self ⟨c, e, .get i mask.toNat⟩]
    show (atbmQueueGet e i mask.toNat (s.view c)).1.q = _
    unfold atbmQueueGet
    simp only [TxQueues.view_q, h, trapIf_q]
  funext c'
  unfold backlog
  by_cases hc : c' = c
  · subst hc
    rw [hq]
  · rw [s.step_txQueue_other ⟨c, e, .get i mask.toNat⟩ hc]

theorem backlog_remove (h : Accounted s) {p : Nat} (hp : Outstanding (s.txQueue c) p) (j : Nat) :
    backlog j (s.step ⟨c, e, .remove p⟩) = backlog j s := by
  obtain ⟨k, hk, b, hb, rfl⟩ := hp
  have hC := h.counted c
  have hid : (atbmQueueParseId b.packetID).itemId = k := by
    rw [hC.frame k hk b hb]
    exact (hC.id k (.inr hk)).itemId
  have hnot : k ∉ (s.txQueue c).queue := fun hq => hC.slots.not_mem_third_of_second hq hk
  have hqueue : ((s.step ⟨c, e, .remove b.packetID⟩).txQueue c).queue = (s.txQueue c).queue := by
    rw [s.step_txQueue_self ⟨c, e, .remove b.packetID⟩]
    show (atbmQueueRemove e b.packetID (s.view c)).1.q.queue = _
    unfold atbmQueueRemove
    simp only [trapIf_q, TxQueues.view_q]
    split
    · next hc => rw [trapOpt_q, trapIf_q, TxQueues.view_q]
    · obtain ⟨l, o, g, sk, hq⟩ := ((flowOnly_releaseOverfull e (atbmQueueParseId b.packetID).ifId
        (freeItem (atbmQueueParseId b.packetID)
          (trapIf ((atbmQueueParseId b.packetID).queueId != (s.txQueue c).queueId) .queueId (s.view c)))).trans
        (flowOnly_destroySkb ((s.txQueue c).pool (atbmQueueParseId b.packetID).itemId) _)).fields
      rw [hq]
      simp only [freeItem, unlinkItem, trapIf_q, TxQueues.view_q, hid]
      exact List.erase_of_not_mem hnot
  funext c'
  unfold backlog
  have hpool : (fun k => (((s.step ⟨c, e, .remove b.packetID⟩).txQueue c').pool k).txpriv) =
      fun k => ((s.txQueue c').pool k).txpriv := by
    funext k
    exact s.step_txpriv ⟨c, e, .remove b.packetID⟩ rfl c' k
  rw [hpool]
  by_cases hc : c' = c
  · subst hc
    rw [hqueue]
  · rw [s.step_txQueue_other ⟨c, e, .remove b.packetID⟩ hc]

theorem remove_got (h : Accounted s) (hsel : selectItem (s.txQueue c) i mask.toNat = some k) :
    (atbmQueueRemove e (issuedId (s.txQueue c) k) ((s.step ⟨c, e, .get i mask.toNat⟩).view c)).2 = 0 := by
  have hC := h.counted c
  have hk := selectItem_mem hsel
  obtain ⟨hitem, hgen, -⟩ := hC.issuedId_names (.inl hk)
  have hlt := hC.lt_of_busy (.inl hk)
  have hq : ((s.step ⟨c, e, .get i mask.toNat⟩).view c).q = (getItem e k (s.view c)).q := by
    rw [TxQueues.view_q, s.step_txQueue_self ⟨c, e, .get i mask.toNat⟩]
    show (atbmQueueGet e i mask.toNat (s.view c)).1.q = _
    unfold atbmQueueGet
    simp only [TxQueues.view_q, hsel]
    exact wakeIf_q _ _
  have hlow : (s.txQueue c).generation &&& 0xF = (s.txQueue c).generation := by
    have hg : (s.txQueue c).generation < 16 := hC.generation
    rw [show (0xF : Nat) = 2 ^ 4 - 1 from rfl, Nat.and_two_pow_sub_one_eq_mod]
    exact Nat.mod_eq_of_lt hg
  have hqgen : (atbmQueueParseId (issuedId (s.txQueue c) k)).queueGeneration = (s.txQueue c).generation := by
    unfold issuedId
    split
    · next hsame => rw [hsame, hlow]
    · rw [parse_setGeneration, hlow]
  have hcheck : checkId (getItem e k (s.view c)).q (atbmQueueParseId (issuedId (s.txQueue c) k)) = none := by
    have hcap : (s.txQueue c).capacity = maxQueueSz := hC.capacity
    have hpool : ((getItem e k (s.view c)).q.pool k).generation = ((s.txQueue c).pool k).generation := by
      simp [getItem]
    rw [TxQueues.view_q] at hitem hgen
    unfold checkId
    rw [hqgen, hitem, hpool, hgen, if_neg (fun hne => hne rfl), if_neg, if_neg (fun hne => hne rfl)]
    show ¬(s.txQueue c).capacity ≤ k
    omega
  unfold atbmQueueRemove
  simp only [trapIf_q, hq, hcheck]

theorem backlog_dropped (h : Accounted s) (hsel : selectItem (s.txQueue c) i mask.toNat = some k) (e' : QEnv) (j : Nat) :
    backlog j ((s.step ⟨c, e, .get i mask.toNat⟩).step ⟨c, e', .remove (issuedId (s.txQueue c) k)⟩) =
      if j = i then takenFrom (backlog i s) c mask else backlog j s := by
  rw [backlog_remove (accounted_get h ..) (outstanding_get h e hsel), backlog_get hsel]

end

end AtbmWifi
