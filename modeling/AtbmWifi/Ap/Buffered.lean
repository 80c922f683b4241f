import AtbmWifi.Ap.Stations
import AtbmWifi.Queue.Held
import AtbmWifi.Tx.PolicyCache

/-!
# The frames buffered for a station

`atbm_tx_h_pm_state` counts a frame for its station and tid just before it is put
on a queue, `atbm_skb_dtor` counts it out, and mac80211 is told when the count
leaves or reaches zero (`calls`).  `moves` is history: the changes of the number of
frames the four queues really hold, from zero and to zero, as far as the station is
there to be told.

`hw` is the `CONFIG_RATE_HW_CONTROL` build.  An operation that reaches a slot
without a frame, and a put that fails, stop the machine (`crashed`).

* `BufferedOk`: the counters are the numbers of frames held, no `WARN_ON` was met,
  and mac80211 was told exactly of the changes.
* `buffered_counts`: along every run, `BufferedOk` holds in every state exactly when
  no counted frame is dropped by `atbm_tx` where the destructor counts it out, no
  station and tid has 255 frames when one more is put, and the AP restarts only
  without counted frames.
-/

namespace AtbmWifi

open Transition

/-- A frame from mac80211 with the results of the helpers of `atbm_tx`; `link` is the raw link id and
the link id of `atbm_tx_h_calc_link_ids`, `rateId` that of `atbm_tx_h_rate_policy`, `none` for an error. -/
structure TxCall where
  skb : SkBuff
  enabled : Bool
  ifId : UInt8
  queue : Nat
  link : Option (UInt8 × UInt8)
  tid : UInt8
  crypt : Bool
  align : Bool
  wsm : Bool
  offset : UInt8
  rateId : Option UInt8
  pad : Bool
  deriving DecidableEq

/-- The `txpriv` that `atbm_tx` starts with. -/
def txprivStart : AtbmTxpriv where
  linkId := 0
  rawLinkId := 0
  tid := UInt8.ofNat maxTid
  rateId := UInt8.ofNat invalidRateId
  offset := 0
  ifId := 0
  offchannelIfId := 0

/-- The `txpriv` at the end of the helpers, or at the `goto drop` that is taken (false). -/
def atbmTxPrepare (a : TxCall) : AtbmTxpriv × Bool :=
  if !a.enabled then (txprivStart, false)
  else
    let t := { txprivStart with ifId := a.ifId }
    if 4 ≤ a.queue then (t, false)
    else
      match a.link with
      | none => (t, false)
      | some (raw, link) =>
        let t := { t with rawLinkId := raw, linkId := link, tid := a.tid }
        if !a.crypt || !a.align || !a.wsm then (t, false)
        else
          let t := { t with offset := a.offset }
          match a.rateId with
          | none => (t, false)
          | some rateId => ({ t with rateId := rateId }, a.pad)

structure BufferedState where
  queues : TxQueues
  vif : Nat → AtbmVif
  warned : Bool
  calls : Nat → Nat → Nat → List Bool
  moves : Nat → Nat → Nat → List Bool
  crashed : Bool

def pushAt (f : Nat → Nat → Nat → List Bool) (i l t : Nat) (b : Bool) : Nat → Nat → Nat → List Bool :=
  Function.update f i (Function.update (f i) l (Function.update (f i l) t (f i l t ++ [b])))

def atbmNotifyBufferedTx (found : Nat → Nat → Bool) (i l tid : Nat) (s : BufferedState) : BufferedState :=
  if countedLink l tid then
    let n := (s.vif i).buffered l tid
    let s :=
      if n = 0 then { s with warned := true }
      else { s with vif := Function.update s.vif i ((s.vif i).setBuffered l tid (n - 1)) }
    if (n = 0 ∨ n - 1 = 0) ∧ found i l = true then { s with calls := pushAt s.calls i l tid false } else s
  else s

def countsOut (hw : Bool) (rateId : UInt8) : Bool := hw || rateId != UInt8.ofNat invalidRateId

def atbmSkbDtor (hw : Bool) (found : Nat → Nat → Bool) (s : BufferedState) (t : AtbmTxpriv) : BufferedState :=
  if countsOut hw t.rateId then
    atbmNotifyBufferedTx found t.ifId.toNat t.rawLinkId.toNat t.tid.toNat s
  else s

def ofTid (i l t : Nat) (k : FrameKind) : Bool :=
  k.ifId.toNat == i && k.rawLinkId.toNat == l && k.tid.toNat == t

def recordMoves (found : Nat → Nat → Bool) (q q' : TxQueues) (moves : Nat → Nat → Nat → List Bool) :
    Nat → Nat → Nat → List Bool := fun i l t =>
  moves i l t ++
    if heldAll (ofTid i l t) q = 0 ∧ 0 < heldAll (ofTid i l t) q' then [true]
    else if 0 < heldAll (ofTid i l t) q ∧ heldAll (ofTid i l t) q' = 0 ∧ found i l = true then [false]
    else []

/-- The end of `atbm_tx`, under `ps_state_lock`. -/
def atbmTxPut (e : QEnv) (skb : SkBuff) (t : AtbmTxpriv) (c : Fin 4) (s : BufferedState) : BufferedState :=
  if (atbmQueuePut e skb t (s.queues.view c)).2 ≠ 0 then { s with crashed := true }
  else
    let i := t.ifId.toNat
    let (v, tidUpdate) := atbmTxHPmState t (s.vif i)
    let q := s.queues.step ⟨c, e, .put skb t⟩
    { s with
      queues := q
      vif := Function.update s.vif i v
      moves := recordMoves (fun _ _ => true) s.queues q s.moves
      calls := if tidUpdate then pushAt s.calls i t.rawLinkId.toNat t.tid.toNat true else s.calls }

def atbmTx (hw : Bool) (found : Nat → Nat → Bool) (e : QEnv) (a : TxCall) (s : BufferedState) : BufferedState :=
  match atbmTxPrepare a with
  | (t, true) => atbmTxPut e a.skb t (Fin.ofNat 4 a.queue) s
  | (t, false) => atbmSkbDtor hw found s t

/-- An operation on a queue, and the destructor on the frames it lets go. -/
def queueOp (hw : Bool) (found : Nat → Nat → Bool) (ev : QEvent) (s : BufferedState) : BufferedState :=
  let q := s.queues.step ev
  let gone := q.dtor.drop s.queues.dtor.length
  if gone.any fun d => d.1.isNone then { s with crashed := true }
  else
    (gone.map Prod.snd).foldl (atbmSkbDtor hw found)
      { s with queues := q, moves := recordMoves found s.queues q s.moves }

inductive BufferedAct
  | tx (found : Nat → Nat → Bool) (e : QEnv) (a : TxCall)
  | queue (found : Nat → Nat → Bool) (ev : QEvent)
  | add (i aid jiffies : Nat) (term mapped : Bool)
  | remove (i aid : Nat) (term : Bool)
  | beaconing (i : Nat) (conf : Beaconing)

def BufferedState.onVif (s : BufferedState) (i : Nat) (f : AtbmVif → AtbmVif) : BufferedState :=
  { s with vif := Function.update s.vif i (f (s.vif i)) }

def BufferedAct.next (hw : Bool) (caps : WsmCaps) (s : BufferedState) : BufferedAct → BufferedState
  | .tx found e a => atbmTx hw found e a s
  | .queue found ev => queueOp hw found ev s
  | .add i aid jiffies term mapped => s.onVif i fun v => (atbmStaAdd caps aid jiffies term mapped v).1
  | .remove i aid term => s.onVif i (atbmStaRemove aid term)
  | .beaconing i conf => s.onVif i (atbmUpdateBeaconing conf)

/-- What mac80211 and the helpers promise of a frame: an interface and link ids within their arrays, and
a rate id from `atbm_tx_h_rate_policy`, which is valid without hardware rate control. -/
structure TxValid (hw : Bool) (a : TxCall) : Prop where
  ifId : a.ifId.toNat < maxVifs
  link : ∀ p ∈ a.link, p.1.toNat ≤ maxStaInApMode ∧ p.2.toNat < wlanLinkIdMax
  rateId : ∀ r ∈ a.rateId, countsOut hw r = true

instance decTxValid (hw : Bool) (a : TxCall) : Decidable (TxValid hw a) :=
  -- by `Option.all`: `infer_instance` may decide the quantifiers by running through all bytes
  decidable_of_iff (a.ifId.toNat < maxVifs ∧
      (a.link.all fun p => decide (p.1.toNat ≤ maxStaInApMode) && decide (p.2.toNat < wlanLinkIdMax)) = true ∧
      a.rateId.all (countsOut hw) = true) (by
    simp only [Option.all_eq_true, Bool.and_eq_true, decide_eq_true_eq]
    exact ⟨fun ⟨h1, h2, h3⟩ => ⟨h1, h2, h3⟩, fun h => ⟨h.ifId, h.link, h.rateId⟩⟩)

def BufferedAct.enabled (hw : Bool) (s : BufferedState) : BufferedAct → Prop
  | .tx _ _ a => s.crashed = false ∧ TxValid hw a
  | .queue _ ev => s.crashed = false ∧ Valid s.queues ev ∧ ev.op.isPut = false
  | .add _ _ _ _ _ => s.crashed = false
  | .remove _ _ _ => s.crashed = false
  | .beaconing _ _ => s.crashed = false

instance decBufferedEnabled (hw : Bool) (s : BufferedState) (a : BufferedAct) : Decidable (a.enabled hw s) := by
  cases a <;> unfold BufferedAct.enabled <;> infer_instance

def bufferedStart (ttl : Fin 4 → Int) : BufferedState :=
  ⟨.start ttl, fun _ => .init, false, fun _ _ _ => [], fun _ _ _ => [], false⟩

def bufferedFrames (hw : Bool) (caps : WsmCaps) : Sys BufferedState BufferedAct :=
  .ofNext (fun s => ∃ ttl, s = bufferedStart ttl) (BufferedAct.enabled hw) (BufferedAct.next hw caps)

structure BufferedOk (s : BufferedState) : Prop where
  count : ∀ i l t, countedLink l t = true →
    ((s.vif i).buffered l t).toNat = heldAll (ofTid i l t) s.queues
  warned : s.warned = false
  calls : ∀ i l t, countedLink l t = true → s.calls i l t = s.moves i l t

def ofCounted (i : Nat) (k : FrameKind) : Bool :=
  k.ifId.toNat == i && countedLink k.rawLinkId.toNat k.tid.toNat

/-- A counted frame is put on queue `c` below the range of its counter, or dropped without being counted out. -/
def TxCountedOnce (hw : Bool) (s : BufferedState) (c : Fin 4) : AtbmTxpriv × Bool → Prop
  | (t, true) =>
    countedLink t.rawLinkId.toNat t.tid.toNat = true → (s.queues.txQueue c).freePool ≠ [] →
      heldAll (ofTid t.ifId.toNat t.rawLinkId.toNat t.tid.toNat) s.queues < 255
  | (t, false) => countedLink t.rawLinkId.toNat t.tid.toNat = true → countsOut hw t.rateId = false

instance decTxCountedOnce (hw : Bool) (s : BufferedState) (c : Fin 4) :
    (p : AtbmTxpriv × Bool) → Decidable (TxCountedOnce hw s c p)
  | (t, true) => inferInstanceAs (Decidable (countedLink t.rawLinkId.toNat t.tid.toNat = true →
      (s.queues.txQueue c).freePool ≠ [] →
        heldAll (ofTid t.ifId.toNat t.rawLinkId.toNat t.tid.toNat) s.queues < 255))
  | (t, false) => inferInstanceAs (Decidable (countedLink t.rawLinkId.toNat t.tid.toNat = true →
      countsOut hw t.rateId = false))

def CountedOnce (hw : Bool) (s : BufferedState) : BufferedAct → Prop
  | .tx _ _ a => TxCountedOnce hw s (Fin.ofNat 4 a.queue) (atbmTxPrepare a)
  | .beaconing i conf =>
    restartNeeded conf (s.vif i) = true → conf.skb = true → heldAll (ofCounted i) s.queues = 0
  | _ => True

instance decCountedOnce (hw : Bool) (s : BufferedState) (a : BufferedAct) : Decidable (CountedOnce hw s a) := by
  cases a <;> unfold CountedOnce <;> infer_instance

theorem buffered_setBuffered (v : AtbmVif) {l l' : Nat} (tid tid' : Nat) (n : UInt8) (hl : l ≠ 0) (hl' : l' ≠ 0) :
    (v.setBuffered l tid n).buffered l' tid' = if l' = l ∧ tid' = tid then n else v.buffered l' tid' := by
  unfold AtbmVif.setBuffered AtbmVif.setLink AtbmVif.buffered
  by_cases hll : l' = l
  · subst hll
    by_cases ht : tid' = tid
    · subst ht
      simp
    · simp [ht]
  · have hne : l' - 1 ≠ l - 1 := by omega
    simp [hll, hne]

theorem pushAt_apply (f : Nat → Nat → Nat → List Bool) (i l t : Nat) (b : Bool) (i' l' t' : Nat) :
    pushAt f i l t b i' l' t' = f i' l' t' ++ if i' = i ∧ l' = l ∧ t' = t then [b] else [] := by
  unfold pushAt
  by_cases hi : i' = i
  · subst hi
    by_cases hl : l' = l
    · subst hl
      by_cases ht : t' = t
      · subst ht
        simp
      · simp [ht]
    · simp [hl]
  · simp [hi]

theorem ofTid_iff {i l t : Nat} {k : FrameKind} :
    ofTid i l t k = true ↔ i = k.ifId.toNat ∧ l = k.rawLinkId.toNat ∧ t = k.tid.toNat := by
  unfold ofTid
  simp only [Bool.and_eq_true, beq_iff_eq]
  constructor
  · rintro ⟨⟨h1, h2⟩, h3⟩
    exact ⟨h1.symm, h2.symm, h3.symm⟩
  · rintro ⟨h1, h2, h3⟩
    exact ⟨⟨h1.symm, h2.symm⟩, h3.symm⟩

theorem ofTid_kind {i l tid : Nat} {t : AtbmTxpriv} :
    ofTid i l tid t.kind = true ↔ i = t.ifId.toNat ∧ l = t.rawLinkId.toNat ∧ tid = t.tid.toNat := ofTid_iff

theorem countedLink_ne_zero {l t : Nat} (h : countedLink l t = true) : l ≠ 0 := by
  unfold countedLink at h
  rw [Bool.and_eq_true] at h
  simpa using h.1

theorem toNat_pred {n : UInt8} (h : n ≠ 0) : (n - 1).toNat = n.toNat - 1 ∧ 0 < n.toNat := by
  have hpos : 0 < n.toNat := by
    apply Nat.pos_of_ne_zero
    intro h0
    exact h (UInt8.toNat_inj.mp h0)
  have hle : (1 : UInt8) ≤ n := UInt8.le_iff_toNat_le.mpr hpos
  refine ⟨?_, hpos⟩
  rw [UInt8.toNat_sub_of_le n 1 hle]
  rfl

section
variable (hw : Bool) (found : Nat → Nat → Bool)

theorem skbDtor_frame (s : BufferedState) (t : AtbmTxpriv) :
    (atbmSkbDtor hw found s t).queues = s.queues ∧ (atbmSkbDtor hw found s t).moves = s.moves ∧
      (atbmSkbDtor hw found s t).crashed = s.crashed := by
  unfold atbmSkbDtor atbmNotifyBufferedTx
  split
  · split
    · simp only
      split
      · split <;> exact ⟨rfl, rfl, rfl⟩
      · split <;> exact ⟨rfl, rfl, rfl⟩
    · exact ⟨rfl, rfl, rfl⟩
  · exact ⟨rfl, rfl, rfl⟩

theorem foldl_skbDtor_frame (l : List AtbmTxpriv) (s : BufferedState) :
    (l.foldl (atbmSkbDtor hw found) s).queues = s.queues ∧ (l.foldl (atbmSkbDtor hw found) s).moves = s.moves ∧
      (l.foldl (atbmSkbDtor hw found) s).crashed = s.crashed := by
  induction l generalizing s with
  | nil => exact ⟨rfl, rfl, rfl⟩
  | cons t l ih =>
    obtain ⟨h1, h2, h3⟩ := skbDtor_frame hw found s t
    rw [List.foldl_cons, (ih _).1, (ih _).2.1, (ih _).2.2, h1, h2, h3]
    exact ⟨rfl, rfl, rfl⟩

theorem skbDtor_skip {s : BufferedState} {t : AtbmTxpriv}
    (h : countedLink t.rawLinkId.toNat t.tid.toNat = true → countsOut hw t.rateId = false) :
    atbmSkbDtor hw found s t = s := by
  unfold atbmSkbDtor atbmNotifyBufferedTx
  by_cases hc : countsOut hw t.rateId = true
  · have hl : countedLink t.rawLinkId.toNat t.tid.toNat = false := by
      by_contra hl
      have := h (by simpa using hl)
      rw [this] at hc
      cases hc
    simp [hl]
  · simp [hc]

theorem skbDtor_counts {s : BufferedState} {t : AtbmTxpriv} (hc : countsOut hw t.rateId = true)
    (hpos : countedLink t.rawLinkId.toNat t.tid.toNat = true →
      (s.vif t.ifId.toNat).buffered t.rawLinkId.toNat t.tid.toNat ≠ 0) :
    (atbmSkbDtor hw found s t).warned = s.warned ∧
      ∀ i l tid, countedLink l tid = true →
        (((atbmSkbDtor hw found s t).vif i).buffered l tid).toNat =
            ((s.vif i).buffered l tid).toNat - (if ofTid i l tid t.kind = true then 1 else 0) ∧
          (atbmSkbDtor hw found s t).calls i l tid = s.calls i l tid ++
            if ofTid i l tid t.kind = true ∧ ((s.vif i).buffered l tid).toNat = 1 ∧ found i l = true then
              [false] else [] := by
  by_cases hl : countedLink t.rawLinkId.toNat t.tid.toNat = true
  · have hne := hpos hl
    obtain ⟨hpred, hgt⟩ := toNat_pred hne
    have hone : (s.vif t.ifId.toNat).buffered t.rawLinkId.toNat t.tid.toNat - 1 = 0 ↔
        ((s.vif t.ifId.toNat).buffered t.rawLinkId.toNat t.tid.toNat).toNat = 1 := by
      rw [← UInt8.toNat_inj, hpred]
      simp only [UInt8.toNat_zero]
      omega
    unfold atbmSkbDtor atbmNotifyBufferedTx
    simp only [hc, hl, hne, if_true, if_false, false_or, hone]
    refine ⟨by split <;> rfl, ?_⟩
    intro i l tid hlt
    have hvif : ∀ s' : BufferedState, s'.vif = Function.update s.vif t.ifId.toNat
          ((s.vif t.ifId.toNat).setBuffered t.rawLinkId.toNat t.tid.toNat
            ((s.vif t.ifId.toNat).buffered t.rawLinkId.toNat t.tid.toNat - 1)) →
        ((s'.vif i).buffered l tid).toNat =
          ((s.vif i).buffered l tid).toNat - (if ofTid i l tid t.kind = true then 1 else 0) := by
      intro s' hs'
      rw [hs']
      by_cases hi : i = t.ifId.toNat
      · subst hi
        rw [Function.update_self, buffered_setBuffered _ _ _ _ (countedLink_ne_zero hl) (countedLink_ne_zero hlt)]
        by_cases hk : l = t.rawLinkId.toNat ∧ tid = t.tid.toNat
        · obtain ⟨rfl, rfl⟩ := hk
          rw [if_pos ⟨rfl, rfl⟩, hpred, if_pos (ofTid_kind.mpr ⟨rfl, rfl, rfl⟩)]
        · rw [if_neg hk, if_neg fun h => hk (ofTid_kind.mp h).2, Nat.sub_zero]
      · rw [Function.update_of_ne hi, if_neg fun h => hi (ofTid_kind.mp h).1, Nat.sub_zero]
    split
    · next hcall =>
      refine ⟨hvif _ rfl, ?_⟩
      show pushAt s.calls t.ifId.toNat t.rawLinkId.toNat t.tid.toNat false i l tid = _
      rw [pushAt_apply]
      by_cases hk : ofTid i l tid t.kind = true
      · obtain ⟨rfl, rfl, rfl⟩ := ofTid_kind.mp hk
        rw [if_pos ⟨rfl, rfl, rfl⟩, if_pos ⟨hk, hcall⟩]
      · rw [if_neg fun h => hk (ofTid_kind.mpr h), if_neg fun h => hk h.1]
    · next hcall =>
      refine ⟨hvif _ rfl, ?_⟩
      rw [if_neg, List.append_nil]
      rintro ⟨hk, h1, h2⟩
      obtain ⟨rfl, rfl, rfl⟩ := ofTid_kind.mp hk
      exact hcall ⟨h1, h2⟩
  · rw [skbDtor_skip hw found fun h => absurd h hl]
    refine ⟨rfl, ?_⟩
    intro i l tid hlt
    have hk : ¬ofTid i l tid t.kind = true := by
      intro hk
      obtain ⟨rfl, rfl, rfl⟩ := ofTid_kind.mp hk
      exact hl hlt
    simp [hk]

theorem foldl_skbDtor_counts {l : List AtbmTxpriv} {s : BufferedState}
    (hc : ∀ t ∈ l, countsOut hw t.rateId = true)
    (hle : ∀ i k tid, countedLink k tid = true →
      l.countP (fun t => ofTid i k tid t.kind) ≤ ((s.vif i).buffered k tid).toNat) :
    (l.foldl (atbmSkbDtor hw found) s).warned = s.warned ∧
      ∀ i k tid, countedLink k tid = true →
        (((l.foldl (atbmSkbDtor hw found) s).vif i).buffered k tid).toNat =
            ((s.vif i).buffered k tid).toNat - l.countP (fun t => ofTid i k tid t.kind) ∧
          (l.foldl (atbmSkbDtor hw found) s).calls i k tid = s.calls i k tid ++
            if 0 < l.countP (fun t => ofTid i k tid t.kind) ∧
                ((s.vif i).buffered k tid).toNat = l.countP (fun t => ofTid i k tid t.kind) ∧
                found i k = true then [false] else [] := by
  induction l generalizing s with
  | nil => simp
  | cons t l ih =>
    have hpos : countedLink t.rawLinkId.toNat t.tid.toNat = true →
        (s.vif t.ifId.toNat).buffered t.rawLinkId.toNat t.tid.toNat ≠ 0 := by
      intro hl h0
      have hle := hle t.ifId.toNat _ _ hl
      have hself : ofTid t.ifId.toNat t.rawLinkId.toNat t.tid.toNat t.kind = true := ofTid_iff.mpr ⟨rfl, rfl, rfl⟩
      rw [h0, List.countP_cons, if_pos hself] at hle
      exact Nat.not_succ_le_zero _ hle
    obtain ⟨hwarn, hone⟩ := skbDtor_counts hw found (hc t List.mem_cons_self) hpos
    have hle' : ∀ i k tid, countedLink k tid = true → l.countP (fun t => ofTid i k tid t.kind) ≤
        (((atbmSkbDtor hw found s t).vif i).buffered k tid).toNat := by
      intro i k tid hk
      have hle := hle i k tid hk
      rw [(hone i k tid hk).1]
      rw [List.countP_cons] at hle
      omega
    obtain ⟨hwarn', hrest⟩ := ih (fun t ht => hc t (List.mem_cons_of_mem _ ht)) hle'
    rw [List.foldl_cons]
    refine ⟨hwarn'.trans hwarn, ?_⟩
    intro i k tid hk
    obtain ⟨hb, hcalls⟩ := hone i k tid hk
    obtain ⟨hb', hcalls'⟩ := hrest i k tid hk
    have hle := hle i k tid hk
    rw [hb', hcalls', hb, hcalls, List.append_assoc, List.countP_cons]
    rw [List.countP_cons] at hle
    refine ⟨by omega, ?_⟩
    congr 1
    by_cases hkt : ofTid i k tid t.kind = true
    · simp only [hkt, if_true] at hle ⊢
      by_cases h1 : ((s.vif i).buffered k tid).toNat = 1
      · have h0 : l.countP (fun t => ofTid i k tid t.kind) = 0 := by omega
        simp [h1, h0]
      · by_cases hn : 0 < l.countP (fun t => ofTid i k tid t.kind)
        · have heq : ((s.vif i).buffered k tid).toNat - 1 = l.countP (fun t => ofTid i k tid t.kind) ↔
              ((s.vif i).buffered k tid).toNat = l.countP (fun t => ofTid i k tid t.kind) + 1 := by omega
          simp [h1, hn, heq]
        · have h0 : l.countP (fun t => ofTid i k tid t.kind) = 0 := by omega
          simp [h1, h0]
    · simp [hkt]

end

/-- What the queues always satisfy: no frame is stored that the destructor would pass over. -/
structure BufferedInv (hw : Bool) (s : BufferedState) : Prop where
  stored : ∀ c, Stored c (s.queues.view c)
  counted : heldAll (fun k => !countsOut hw k.rateId) s.queues = 0

theorem ofCounted_iff {i : Nat} {k : FrameKind} :
    ofCounted i k = true ↔ ∃ l t, countedLink l t = true ∧ ofTid i l t k = true := by
  unfold ofCounted
  simp only [Bool.and_eq_true, beq_iff_eq, ofTid_iff]
  constructor
  · rintro ⟨hi, hc⟩
    exact ⟨_, _, hc, hi.symm, rfl, rfl⟩
  · rintro ⟨l, t, hc, rfl, rfl, rfl⟩
    exact ⟨rfl, hc⟩

theorem heldAll_ofCounted {i : Nat} {q : TxQueues} :
    heldAll (ofCounted i) q = 0 ↔ ∀ l t, countedLink l t = true → heldAll (ofTid i l t) q = 0 := by
  simp only [heldAll_eq_zero_iff, live, Bool.and_eq_false_iff]
  constructor
  · intro h l t hc c k hk
    refine (h c k hk).imp_right fun hF => ?_
    by_contra hT
    rw [ofCounted_iff.mpr ⟨l, t, hc, by simpa using hT⟩] at hF
    cases hF
  · intro h c k hk
    by_cases hskb : ((q.txQueue c).pool k).skb.isSome = false
    · exact .inl hskb
    · right
      by_contra hF
      obtain ⟨l, t, hc, hT⟩ := ofCounted_iff.mp (by simpa using hF)
      rcases h l t hc c k hk with h | h
      · exact hskb h
      · rw [hT] at h
        cases h

theorem BufferedOk.of_eq {s s' : BufferedState} (h : BufferedOk s) (hq : s'.queues = s.queues)
    (hv : ∀ i l t, countedLink l t = true → (s'.vif i).buffered l t = (s.vif i).buffered l t)
    (hw : s'.warned = s.warned) (hc : s'.calls = s.calls) (hm : s'.moves = s.moves) : BufferedOk s' := by
  refine ⟨?_, hw.trans h.warned, ?_⟩
  · intro i l t hl
    rw [hv i l t hl, hq]
    exact h.count i l t hl
  · rw [hc, hm]
    exact h.calls

theorem recordMoves_gone (found : Nat → Nat → Bool) (moves : Nat → Nat → Nat → List Bool) {q q' : TxQueues}
    {i l t n : Nat} (h : heldAll (ofTid i l t) q' + n = heldAll (ofTid i l t) q) :
    recordMoves found q q' moves i l t = moves i l t ++
      if 0 < n ∧ heldAll (ofTid i l t) q = n ∧ found i l = true then [false] else [] := by
  unfold recordMoves
  congr 1
  rw [if_neg (by omega)]
  apply if_congr _ rfl rfl
  constructor
  · rintro ⟨h1, h2, h3⟩
    exact ⟨by omega, by omega, h3⟩
  · rintro ⟨h1, h2, h3⟩
    exact ⟨by omega, by omega, h3⟩

theorem recordMoves_put (found : Nat → Nat → Bool) (moves : Nat → Nat → Nat → List Bool) {q q' : TxQueues}
    {i l t n : Nat} (h : heldAll (ofTid i l t) q' = heldAll (ofTid i l t) q + n) :
    recordMoves found q q' moves i l t = moves i l t ++
      if 0 < n ∧ heldAll (ofTid i l t) q = 0 then [true] else [] := by
  unfold recordMoves
  congr 1
  rw [if_neg (c := 0 < _ ∧ _) (by omega)]
  apply if_congr _ rfl rfl
  omega

section
variable {hw : Bool} {found : Nat → Nat → Bool} {s : BufferedState}

theorem queueOp_ok {ev : QEvent} (hI : BufferedInv hw s) (hP : BufferedOk s) (hv : Valid s.queues ev)
    (hput : ev.op.isPut = false) :
    BufferedInv hw (queueOp hw found ev s) ∧ BufferedOk (queueOp hw found ev s) := by
  obtain ⟨hstored, htotal, hpre⟩ := TxQueues.step_keeps hv hput hI.stored
  obtain ⟨gone, hgone⟩ := hpre
  have hdrop : (s.queues.step ev).dtor.drop s.queues.dtor.length = gone := by
    rw [← hgone, List.drop_left]
  have hsum : ∀ F, heldAll F (s.queues.step ev) + destroyed F gone = heldAll F s.queues := by
    intro F
    have htotal := htotal F
    rw [← hgone, destroyed_append] at htotal
    omega
  unfold queueOp
  simp only [hdrop]
  split
  · exact ⟨⟨hI.stored, hI.counted⟩, hP.of_eq rfl (fun _ _ _ _ => rfl) rfl rfl rfl⟩
  · next hany =>
    have hsome : ∀ d ∈ gone, d.1.isSome = true := by
      intro d hd
      by_contra hd1
      exact hany (List.any_eq_true.mpr ⟨d, hd, by simpa using hd1⟩)
    have hcount : ∀ F, (gone.map Prod.snd).countP (fun t => F t.kind) = destroyed F gone := by
      intro F
      rw [List.countP_map]
      apply List.countP_congr
      intro d hd
      simp [hsome d hd]
    have hout : ∀ t ∈ gone.map Prod.snd, countsOut hw t.rateId = true := by
      intro t ht
      have hzero := hsum fun k => !countsOut hw k.rateId
      rw [hI.counted, ← hcount] at hzero
      have hzero : (gone.map Prod.snd).countP (fun t => !countsOut hw t.kind.rateId) = 0 := by omega
      have hnone := List.countP_eq_zero.mp hzero t ht
      simpa [AtbmTxpriv.kind] using hnone
    let s1 : BufferedState :=
      { s with queues := s.queues.step ev, moves := recordMoves found s.queues (s.queues.step ev) s.moves }
    have hle : ∀ i l t, countedLink l t = true →
        (gone.map Prod.snd).countP (fun x => ofTid i l t x.kind) ≤ ((s1.vif i).buffered l t).toNat := by
      intro i l t hl
      have hcnt := hP.count i l t hl
      have hs := hsum (ofTid i l t)
      rw [hcount]
      show _ ≤ ((s.vif i).buffered l t).toNat
      omega
    obtain ⟨hwarn, hkeys⟩ := foldl_skbDtor_counts hw found hout hle
    obtain ⟨hq, hm, -⟩ := foldl_skbDtor_frame hw found (gone.map Prod.snd) s1
    have hinv : BufferedInv hw s1 := by
      refine ⟨hstored, ?_⟩
      have hzero := hsum fun k => !countsOut hw k.rateId
      rw [hI.counted] at hzero
      show heldAll _ (s.queues.step ev) = 0
      omega
    refine ⟨⟨hq ▸ hinv.stored, hq ▸ hinv.counted⟩, ?_, hwarn.trans hP.warned, ?_⟩
    · intro i l t hl
      rw [(hkeys i l t hl).1, hq, hcount]
      have hcnt := hP.count i l t hl
      have hs := hsum (ofTid i l t)
      show ((s.vif i).buffered l t).toNat - _ = heldAll _ (s.queues.step ev)
      omega
    · intro i l t hl
      rw [(hkeys i l t hl).2, hm, hcount]
      show s.calls i l t ++ _ = recordMoves found s.queues (s.queues.step ev) s.moves i l t
      rw [recordMoves_gone found s.moves (hsum (ofTid i l t)), hP.calls i l t hl]
      show s.moves i l t ++ (if _ ∧ ((s.vif i).buffered l t).toNat = _ ∧ _ then [false] else []) = _
      rw [hP.count i l t hl]

theorem buffered_noteMulticast (l : Nat) (v : AtbmVif) : (noteMulticast l v).buffered = v.buffered := by
  unfold noteMulticast
  split <;> rfl

theorem atbmTxHPmState_buffered (t : AtbmTxpriv) (v : AtbmVif) {l tid : Nat} (hl : countedLink l tid = true) :
    (atbmTxHPmState t v).1.buffered l tid =
      v.buffered l tid + if l = t.rawLinkId.toNat ∧ tid = t.tid.toNat then 1 else 0 := by
  unfold atbmTxHPmState
  simp only [buffered_noteMulticast]
  split
  · next hc =>
    rw [buffered_setBuffered _ _ _ _ (countedLink_ne_zero hc) (countedLink_ne_zero hl), buffered_noteMulticast]
    split
    · next hk => rw [hk.1, hk.2]
    · rw [UInt8.add_zero]
  · next hc =>
    rw [buffered_noteMulticast, if_neg, UInt8.add_zero]
    rintro ⟨rfl, rfl⟩
    exact hc hl

theorem atbmTxHPmState_first (t : AtbmTxpriv) (v : AtbmVif) :
    (atbmTxHPmState t v).2 = true ↔
      countedLink t.rawLinkId.toNat t.tid.toNat = true ∧ v.buffered t.rawLinkId.toNat t.tid.toNat = 0 := by
  unfold atbmTxHPmState
  simp only [buffered_noteMulticast]
  by_cases hc : countedLink t.rawLinkId.toNat t.tid.toNat = true <;> simp [hc]

variable {t : AtbmTxpriv} {c : Fin 4} {e : QEnv} {skb : SkBuff}

theorem atbmTxPrepare_put {a : TxCall} (h : atbmTxPrepare a = (t, true)) :
    t.ifId = a.ifId ∧ a.link = some (t.rawLinkId, t.linkId) ∧ a.rateId = some t.rateId := by
  unfold atbmTxPrepare at h
  split at h
  · cases h
  · simp only at h
    split at h
    · cases h
    · split at h
      · cases h
      · next raw link hlink =>
        split at h
        · cases h
        · split at h
          · cases h
          · next r hr =>
            rw [Prod.mk.injEq] at h
            obtain ⟨rfl, -⟩ := h
            exact ⟨rfl, hlink, hr⟩

theorem toNat_succ {n : UInt8} (h : n.toNat < 255) : (n + 1).toNat = n.toNat + 1 := by
  rw [UInt8.toNat_add]
  exact Nat.mod_eq_of_lt (by show n.toNat + 1 < 256; omega)

theorem atbmTxPut_accept (hret : (atbmQueuePut e skb t (s.queues.view c)).2 = 0) : atbmTxPut e skb t c s = { s with
        queues := s.queues.step ⟨c, e, .put skb t⟩
        vif := Function.update s.vif t.ifId.toNat (atbmTxHPmState t (s.vif t.ifId.toNat)).1
        moves := recordMoves (fun _ _ => true) s.queues (s.queues.step ⟨c, e, .put skb t⟩) s.moves
        calls :=
          if (atbmTxHPmState t (s.vif t.ifId.toNat)).2 then
            pushAt s.calls t.ifId.toNat t.rawLinkId.toNat t.tid.toNat true
          else s.calls } := by
  unfold atbmTxPut
  rw [if_neg (not_not.mpr hret)]

theorem atbmTxPut_ok (hI : BufferedInv hw s)
    (hP : BufferedOk s) (hi : t.ifId.toNat < maxVifs) (hr : countsOut hw t.rateId = true)
    (hfull : countedLink t.rawLinkId.toNat t.tid.toNat = true → (s.queues.txQueue c).freePool ≠ [] →
      heldAll (ofTid t.ifId.toNat t.rawLinkId.toNat t.tid.toNat) s.queues < 255) :
    BufferedInv hw (atbmTxPut e skb t c s) ∧ BufferedOk (atbmTxPut e skb t c s) := by
  by_cases hret : (atbmQueuePut e skb t (s.queues.view c)).2 = 0
  swap
  · unfold atbmTxPut
    rw [if_pos hret]
    exact ⟨⟨hI.stored, hI.counted⟩, hP.of_eq rfl (fun _ _ _ _ => rfl) rfl rfl rfl⟩
  · rw [atbmTxPut_accept hret]
    have hpool : (s.queues.txQueue c).freePool ≠ [] := by
      intro hempty
      unfold atbmQueuePut at hret
      rw [TxQueues.view_q, hempty] at hret
      split at hret <;> cases hret
    obtain ⟨hstored, hheld⟩ := TxQueues.step_put hI.stored hi hret
    refine ⟨⟨hstored, ?_⟩, ?_, hP.warned, ?_⟩
    · show heldAll _ (s.queues.step ⟨c, e, .put skb t⟩) = 0
      rw [hheld, hI.counted]
      simp [AtbmTxpriv.kind, hr]
    · intro i l tid hl
      show ((Function.update s.vif t.ifId.toNat (atbmTxHPmState t (s.vif t.ifId.toNat)).1 i).buffered l tid).toNat =
        heldAll (ofTid i l tid) (s.queues.step ⟨c, e, .put skb t⟩)
      rw [hheld]
      have hcount := hP.count i l tid hl
      by_cases hk : ofTid i l tid t.kind = true
      · obtain ⟨rfl, rfl, rfl⟩ := ofTid_kind.mp hk
        have hlt := hfull hl hpool
        rw [if_pos hk]
        rw [Function.update_self, atbmTxHPmState_buffered t _ hl, if_pos ⟨rfl, rfl⟩, toNat_succ]
        · rw [hcount]
        · rw [hcount]
          exact hlt
      · rw [if_neg hk, Nat.add_zero]
        by_cases hit : i = t.ifId.toNat
        · subst hit
          rw [Function.update_self, atbmTxHPmState_buffered t _ hl, if_neg, UInt8.add_zero]
          · exact hcount
          · exact fun h => hk (ofTid_kind.mpr ⟨rfl, h⟩)
        · rw [Function.update_of_ne hit]
          exact hcount
    · intro i l tid hl
      show (if (atbmTxHPmState t (s.vif t.ifId.toNat)).2 = true then
          pushAt s.calls t.ifId.toNat t.rawLinkId.toNat t.tid.toNat true else s.calls) i l tid =
        recordMoves (fun _ _ => true) s.queues (s.queues.step ⟨c, e, .put skb t⟩) s.moves i l tid
      rw [recordMoves_put _ s.moves (hheld (ofTid i l tid)), ← hP.calls i l tid hl]
      by_cases hk : ofTid i l tid t.kind = true
      · obtain ⟨hi', hl', ht'⟩ := ofTid_kind.mp hk
        have hzero : (s.vif i).buffered l tid = 0 ↔ heldAll (ofTid i l tid) s.queues = 0 := by
          rw [← hP.count i l tid hl, ← UInt8.toNat_inj]
          rfl
        have hfirst : (atbmTxHPmState t (s.vif t.ifId.toNat)).2 = true ↔
            heldAll (ofTid i l tid) s.queues = 0 := by
          rw [atbmTxHPmState_first, ← hzero, hi', hl', ht']
          show countedLink t.rawLinkId.toNat t.tid.toNat = true ∧ _ ↔ _
          have hl : countedLink t.rawLinkId.toNat t.tid.toNat = true := by
            rw [hl', ht'] at hl
            exact hl
          exact and_iff_right hl
        rw [if_pos hk]
        by_cases h0 : heldAll (ofTid i l tid) s.queues = 0
        · rw [if_pos (hfirst.mpr h0), if_pos ⟨Nat.one_pos, h0⟩, pushAt_apply]
          exact congrArg _ (if_pos ⟨hi', hl', ht'⟩)
        · rw [if_neg fun h => h0 (hfirst.mp h), if_neg fun h => h0 h.2, List.append_nil]
      · have hnone : ¬(0 < 0 ∧ heldAll (ofTid i l tid) s.queues = 0) := fun h => absurd h.1 (Nat.lt_irrefl 0)
        rw [if_neg hk, if_neg hnone, List.append_nil]
        split
        · rw [pushAt_apply, if_neg, List.append_nil]
          exact fun h => hk (ofTid_kind.mpr h)
        · rfl

theorem atbmTxPut_full (hI : BufferedInv hw s) (hi : t.ifId.toNat < maxVifs) (hlink : t.linkId.toNat < wlanLinkIdMax)
    (hP' : BufferedOk (atbmTxPut e skb t c s)) (hc : countedLink t.rawLinkId.toNat t.tid.toNat = true)
    (hpool : (s.queues.txQueue c).freePool ≠ []) :
    heldAll (ofTid t.ifId.toNat t.rawLinkId.toNat t.tid.toNat) s.queues < 255 := by
  have hret : (atbmQueuePut e skb t (s.queues.view c)).2 = 0 := by
    unfold atbmQueuePut
    rw [if_neg (by rw [(hI.stored c).mapCapacity]; omega)]
    cases hf : (s.queues.view c).q.freePool with
    | nil => exact absurd hf hpool
    | cons k rest => rfl
  obtain ⟨-, hheld⟩ := TxQueues.step_put hI.stored hi hret
  have hbound := ((atbmTxPut e skb t c s).vif t.ifId.toNat |>.buffered t.rawLinkId.toNat t.tid.toNat).toNat_lt
  rw [hP'.count _ _ _ hc] at hbound
  have hq : (atbmTxPut e skb t c s).queues = s.queues.step ⟨c, e, .put skb t⟩ := by
    rw [atbmTxPut_accept hret]
  have hself : ofTid t.ifId.toNat t.rawLinkId.toNat t.tid.toNat t.kind = true := ofTid_kind.mpr ⟨rfl, rfl, rfl⟩
  rw [hq, hheld, if_pos hself] at hbound
  omega

theorem skbDtor_lost (hP : BufferedOk s) (hP' : BufferedOk (atbmSkbDtor hw found s t))
    (hl : countedLink t.rawLinkId.toNat t.tid.toNat = true) : countsOut hw t.rateId = false := by
  by_contra hc
  have hc : countsOut hw t.rateId = true := by simpa using hc
  by_cases h0 : (s.vif t.ifId.toNat).buffered t.rawLinkId.toNat t.tid.toNat = 0
  · have hwarn : (atbmSkbDtor hw found s t).warned = true := by
      unfold atbmSkbDtor atbmNotifyBufferedTx
      simp only [hc, hl, h0, if_true]
      split <;> rfl
    rw [hP'.warned] at hwarn
    cases hwarn
  · obtain ⟨-, hkeys⟩ := skbDtor_counts hw found hc fun _ => h0
    have hone := (hkeys t.ifId.toNat _ _ hl).1
    have hself : ofTid t.ifId.toNat t.rawLinkId.toNat t.tid.toNat t.kind = true := ofTid_kind.mpr ⟨rfl, rfl, rfl⟩
    rw [hP'.count _ _ _ hl, (skbDtor_frame hw found s t).1, if_pos hself, ← hP.count _ _ _ hl] at hone
    have hpos := (toNat_pred h0).2
    omega

theorem buffered_setLink {v : AtbmVif} {aid : Nat} {entry : AtbmLinkEntry}
    (h : entry.buffered = (v.linkIdDb (aid - 1)).buffered) (l : Nat) :
    (v.setLink aid entry).buffered l = v.buffered l := by
  unfold AtbmVif.setLink AtbmVif.buffered
  by_cases hl : l - 1 = aid - 1
  · simp [hl, h]
  · simp [hl]

theorem buffered_staAdd (caps : WsmCaps) (aid jiffies : Nat) (term mapped : Bool) (v : AtbmVif) (l : Nat) :
    (atbmStaAdd caps aid jiffies term mapped v).1.buffered l = v.buffered l := by
  have henter : (staEnter aid jiffies v).buffered l = v.buffered l := by
    show (v.setLink aid { v.linkIdDb (aid - 1) with status := .hard, timestamp := jiffies }).buffered l = _
    apply buffered_setLink
    rfl
  obtain ⟨-, h⟩ | ⟨-, -, -, -, h⟩ | ⟨-, -, -, -, -, h⟩ | ⟨-, -, -, -, -, h⟩ :=
    atbmStaAdd_cases caps aid jiffies term mapped v
  · rw [h]
  · rw [h]
  · rw [h]
    exact henter
  · rw [h]
    refine Eq.trans ?_ henter
    apply buffered_setLink
    rfl

theorem buffered_staRemove (aid : Nat) (term : Bool) (v : AtbmVif) (l : Nat) :
    (atbmStaRemove aid term v).buffered l = v.buffered l := by
  unfold atbmStaRemove
  split
  · rfl
  · split
    · rfl
    · show (v.setLink aid { v.linkIdDb (aid - 1) with status := .off }).buffered l = _
      apply buffered_setLink
      rfl

theorem BufferedOk.onVif {i : Nat} {f : AtbmVif → AtbmVif} (hP : BufferedOk s)
    (hf : ∀ l t, countedLink l t = true → ((f (s.vif i)).buffered l t) = (s.vif i).buffered l t) :
    BufferedOk (s.onVif i f) := by
  refine hP.of_eq rfl ?_ rfl rfl rfl
  intro j l t hl
  show (Function.update s.vif i (f (s.vif i)) j).buffered l t = _
  by_cases hj : j = i
  · subst hj
    rw [Function.update_self]
    exact hf l t hl
  · rw [Function.update_of_ne hj]

theorem beaconing_ok_iff {i : Nat} {conf : Beaconing} (hP : BufferedOk s) :
    BufferedOk (s.onVif i (atbmUpdateBeaconing conf)) ↔
      (restartNeeded conf (s.vif i) = true → conf.skb = true → heldAll (ofCounted i) s.queues = 0) := by
  obtain ⟨hr, hs, hdb⟩ | ⟨hn, hdb⟩ := atbmUpdateBeaconing_cases conf (s.vif i)
  · have hzero : ∀ l t, (atbmUpdateBeaconing conf (s.vif i)).buffered l t = 0 := by
      intro l t
      unfold AtbmVif.buffered
      rw [hdb]
      rfl
    constructor
    · intro hP' _ _
      rw [heldAll_ofCounted]
      intro l t hl
      have hcount := hP'.count i l t hl
      have hvif : (s.onVif i (atbmUpdateBeaconing conf)).vif i = atbmUpdateBeaconing conf (s.vif i) :=
        Function.update_self ..
      rw [hvif, hzero] at hcount
      exact hcount.symm
    · intro hC
      apply hP.onVif
      intro l t hl
      have hheld := (heldAll_ofCounted.mp (hC hr hs)) l t hl
      rw [← hP.count i l t hl] at hheld
      rw [hzero]
      exact UInt8.toNat_inj.mp hheld.symm
  · refine ⟨fun _ hr hs => absurd ⟨hr, hs⟩ hn, fun _ => hP.onVif ?_⟩
    intro l t _
    unfold AtbmVif.buffered
    rw [hdb]

end

theorem bufferedStart_inv (hw : Bool) (ttl : Fin 4 → Int) : BufferedInv hw (bufferedStart ttl) := by
  refine ⟨stored_start ttl, ?_⟩
  rw [heldAll_eq_zero_iff]
  rintro c k (hk | hk) <;> cases hk

theorem bufferedStart_ok (ttl : Fin 4 → Int) : BufferedOk (bufferedStart ttl) := by
  refine ⟨?_, rfl, fun _ _ _ _ => rfl⟩
  intro i l t _
  have h : heldAll (ofTid i l t) (bufferedStart ttl).queues = 0 := by
    rw [heldAll_eq_zero_iff]
    rintro c k (hk | hk) <;> cases hk
  rw [h]
  rfl

theorem buffered_keep {hw : Bool} {caps : WsmCaps} {s : BufferedState} {a : BufferedAct} (hI : BufferedInv hw s)
    (hP : BufferedOk s) (he : a.enabled hw s) (hC : CountedOnce hw s a) :
    BufferedInv hw (a.next hw caps s) ∧ BufferedOk (a.next hw caps s) := by
  cases a with
  | tx found e a =>
    obtain ⟨-, hv⟩ := he
    simp only [BufferedAct.next, atbmTx, CountedOnce] at hC ⊢
    rcases hprep : atbmTxPrepare a with ⟨t, _ | _⟩
    rotate_left
    · rw [hprep] at hC
      obtain ⟨hid, -, hr⟩ := atbmTxPrepare_put hprep
      exact atbmTxPut_ok hI hP (hid ▸ hv.ifId) (hv.rateId _ hr) hC
    · rw [hprep] at hC
      show BufferedInv hw (atbmSkbDtor hw found s t) ∧ BufferedOk (atbmSkbDtor hw found s t)
      rw [skbDtor_skip hw found hC]
      exact ⟨hI, hP⟩
  | queue found ev => exact queueOp_ok hI hP he.2.1 he.2.2
  | add i aid jiffies term mapped =>
    refine ⟨⟨hI.stored, hI.counted⟩, ?_⟩
    show BufferedOk (s.onVif i fun v => (atbmStaAdd caps aid jiffies term mapped v).1)
    exact hP.onVif fun l t _ => congrFun (buffered_staAdd caps aid jiffies term mapped (s.vif i) l) t
  | remove i aid term =>
    refine ⟨⟨hI.stored, hI.counted⟩, ?_⟩
    show BufferedOk (s.onVif i (atbmStaRemove aid term))
    exact hP.onVif fun l t _ => congrFun (buffered_staRemove aid term (s.vif i) l) t
  | beaconing i conf => exact ⟨⟨hI.stored, hI.counted⟩, (beaconing_ok_iff hP).mpr hC⟩

theorem buffered_lose {hw : Bool} {caps : WsmCaps} {s : BufferedState} {a : BufferedAct} (hI : BufferedInv hw s)
    (hP : BufferedOk s) (he : a.enabled hw s) (hP' : BufferedOk (a.next hw caps s)) : CountedOnce hw s a := by
  cases a with
  | tx found e a =>
    obtain ⟨-, hv⟩ := he
    simp only [BufferedAct.next, atbmTx, CountedOnce] at hP' ⊢
    rcases hprep : atbmTxPrepare a with ⟨t, _ | _⟩
    rotate_left
    · rw [hprep] at hP'
      obtain ⟨hid, hlink, -⟩ := atbmTxPrepare_put hprep
      exact atbmTxPut_full hI (hid ▸ hv.ifId) (hv.link _ hlink).2 hP'
    · rw [hprep] at hP'
      exact skbDtor_lost hP hP'
  | queue found ev => trivial
  | add i aid jiffies term mapped => trivial
  | remove i aid term => trivial
  | beaconing i conf => exact (beaconing_ok_iff hP).mp hP'

/-- **The counters are the frames the queues hold** -/
theorem buffered_counts {hw : Bool} {caps : WsmCaps} {ttl : Fin 4 → Int} {s : BufferedState}
    {l : List (BufferedState × BufferedAct)} (h : Path (bufferedFrames hw caps) (bufferedStart ttl) l s) :
    ((∀ p ∈ l, BufferedOk p.1) ∧ BufferedOk s) ↔ ∀ p ∈ l, CountedOnce hw p.1 p.2 := by
  refine Path.exact (I := BufferedInv hw) ?_ ?_ h (bufferedStart_inv hw ttl) (bufferedStart_ok ttl)
  · rintro s a t hI hP ⟨he, rfl⟩ hC
    exact buffered_keep hI hP he hC
  · rintro s a t hI hP ⟨he, rfl⟩ hP'
    exact buffered_lose hI hP he hP'

def stationFrame (crypt : Bool) : TxCall where
  skb := ⟨7, 0⟩
  enabled := true
  ifId := 0
  queue := 0
  link := some (1, 1)
  tid := 0
  crypt := crypt
  align := true
  wsm := true
  offset := 0
  rateId := some 0
  pad := true

def stationUp : List BufferedAct :=
  [.beaconing 0 ⟨100, true, true⟩, .add 0 1 0 false true, .tx (fun _ _ => true) sampleEnv (stationFrame true)]

def stationRun : List BufferedAct := stationUp ++
  [.queue (fun _ _ => true) (sampleGet 0), .queue (fun _ _ => true) (sampleRemove 0x100000)]

theorem buffered_counts_confirmed :
    BufferedOk (stationRun.foldl (BufferedAct.next false sampleCaps) (bufferedStart fun _ => 1000)) :=
  ((buffered_counts (Path.ofFires (l := stationRun) (by decide +kernel))).mpr (by decide +kernel)).2

/-- With hardware rate control a frame that `atbm_tx_h_crypt` drops is counted out without having been
counted in; and whatever the build, an AP that restarts forgets a frame that is still queued. -/
theorem buffered_miscounted :
    (∃ s, Reach (bufferedFrames true sampleCaps) s ∧ s.warned = true) ∧
      ∃ s, Reach (bufferedFrames false sampleCaps) s ∧ (s.vif 0).buffered 1 0 = 0 ∧
        heldAll (ofTid 0 1 0) s.queues = 1 :=
  ⟨⟨_, Reach.fires (.init ⟨fun _ => 1000, rfl⟩)
      (l := [.beaconing 0 ⟨100, true, true⟩, .add 0 1 0 false true,
        .tx (fun _ _ => true) sampleEnv (stationFrame false)]) (by decide +kernel), by decide +kernel⟩,
    ⟨_, Reach.fires (.init ⟨fun _ => 1000, rfl⟩)
      (l := stationUp ++ [.beaconing 0 ⟨200, true, true⟩]) (by decide +kernel), by decide +kernel⟩⟩

end AtbmWifi
