import AtbmWifi.Ap.PowerSave
import AtbmWifi.Queue.Waiting

/-!
# What the power save of the stations lets through

`wsm_get_tx` hands over a frame of a link only when the link may transmit: no frame
while TX is locked, none of a station that sleeps without a PS-Poll, no multicast
while a station sleeps and no delivery is announced (`Gated`).  A frame that goes
to a sleeping station uses its PS-Poll up: its link id is the raw link id
(`LinkOk`), under which the PS-Poll is taken back.

`powerSave_gates`: in every run each frame is `Gated`, and while a station sleeps
and does not poll at most one frame of it is handed over.
-/

namespace AtbmWifi

open Transition Mask

/-- What is found at state `s`. -/
def PsState.found (s : PsState) (e : GetTxEnv) (more : Bool) : Option (Fin 4 × BitVec 32) × Bool :=
  wsmGetTxQueueAndMask (s.prioArg e s.ifIdSelected) (s.vif s.ifIdSelected) more

def PsState.searched (s : PsState) (found more : Bool) : AtbmVif :=
  multicastsSearched found more (s.vif s.ifIdSelected)

/-- The state after `atbm_queue_get` on queue `c`. -/
def PsState.got (s : PsState) (e : GetTxEnv) (c : Fin 4) (mask : BitVec 32) : TxQueues :=
  s.queues.step ⟨c, e.q, .get s.ifIdSelected mask.toNat⟩

inductive Turned (e : GetTxEnv) (s s' : PsState) : Option TxData → Prop
  | idle {d : Option TxData} : s'.queues = s.queues → s'.vif = s.vif → s'.crashed = s.crashed →
      (∀ i t, d ≠ some (.frame i t)) → Turned e s s' d
  | empty {m more : Bool} : s.found e m = (none, more) → s'.queues = s.queues → s'.crashed = s.crashed →
      s'.vif = Function.update s.vif s.ifIdSelected (s.searched false more) → Turned e s s' none
  | missed {m more : Bool} {c : Fin 4} {mask : BitVec 32} : s.found e m = (some (c, mask), more) →
      selectItem (s.queues.txQueue c) s.ifIdSelected mask.toNat = none →
      s'.queues = s.got e c mask →
      s'.vif = Function.update s.vif s.ifIdSelected (s.searched true more) → Turned e s s' none
  | dropped {m more : Bool} {c : Fin 4} {mask : BitVec 32} {k : Nat} : s.found e m = (some (c, mask), more) →
      selectItem (s.queues.txQueue c) s.ifIdSelected mask.toNat = some k →
      (s'.queues = s.got e c mask ∨
        s'.queues = (s.got e c mask).step ⟨c, e.q, .remove (issuedId (s.queues.txQueue c) k)⟩) →
      s'.vif = Function.update s.vif s.ifIdSelected (s.searched true more) → Turned e s s' none
  | handed {m more : Bool} {c : Fin 4} {mask : BitVec 32} {k : Nat} {t : AtbmTxpriv} : s.txLock = 0 →
      s.found e m = (some (c, mask), more) →
      selectItem (s.queues.txQueue c) s.ifIdSelected mask.toNat = some k →
      t = ((s.queues.txQueue c).pool k).txpriv →
      s'.queues = s.got e c mask →
      s'.vif = Function.update s.vif s.ifIdSelected
        { s.searched true more with
          pspollMask := (s.searched true more).pspollMask &&& ~~~BIT t.rawLinkId.toNat } →
      Turned e s s' (some (.frame s.ifIdSelected t))

def PsState.inTurn (s : PsState) : PsState := { s with ifIdSelected := s.ifIdSelected ^^^ 1 }

variable {e : GetTxEnv} {mask : BitVec 32} {v : AtbmVif}

theorem getTxTurn_search {ap : Nat → Bool} {loop : GetTxLoop} {s : PsState} (hlock : s.txLock = 0)
    (hbufs : e.bufsFull = false) (hup : e.up s.ifIdSelected = true) (hen : e.enabled s.ifIdSelected = true) :
    getTxTurn ap e loop s =
      afterFound (ap s.ifIdSelected) e s.ifIdSelected loop s.inTurn (s.found e loop.more) := by
  have hgo : ¬(s.txLock ≠ 0 ∨ e.bufsFull = true) := by simp [hlock, hbufs]
  unfold getTxTurn
  rw [if_neg hgo]
  show (if (!e.up s.ifIdSelected) = true then _ else if (!e.enabled s.ifIdSelected) = true then _ else
    afterFound (ap s.ifIdSelected) e s.ifIdSelected loop s.inTurn (s.found e loop.more)) = _
  rw [if_neg (by simp [hup]), if_neg (by simp [hen])]

theorem getTxFrame_turned {ap : Bool} {loop : GetTxLoop} {m more : Bool} {c : Fin 4} {s : PsState}
    (hlock : s.txLock = 0) (hfound : s.found e m = (some (c, mask), more)) :
    Turned e s (afterFound ap e s.ifIdSelected loop s.inTurn (some (c, mask), more)).1
      (afterFound ap e s.ifIdSelected loop s.inTurn (some (c, mask), more)).2 := by
  unfold afterFound getTxFrame
  simp only
  split
  · next hsel => exact .missed hfound hsel rfl rfl
  · next k hsel =>
    split
    · split
      · exact .dropped hfound hsel (.inl rfl) rfl
      · exact .dropped hfound hsel (.inr rfl) rfl
    · refine .handed hlock hfound hsel rfl rfl ?_
      show Function.update (Function.update s.vif s.ifIdSelected _) s.ifIdSelected _ = _
      rw [Function.update_idem]
      congr 1
      simp only [PsState.inTurn, PsState.setVif, Function.update_self]
      rfl

theorem getTxTurn_turned (ap : Nat → Bool) (e : GetTxEnv) (loop : GetTxLoop) (s : PsState) :
    Turned e s (getTxTurn ap e loop s).1 (getTxTurn ap e loop s).2 := by
  by_cases hstop : s.txLock ≠ 0 ∨ e.bufsFull = true
  · unfold getTxTurn
    rw [if_pos hstop]
    exact .idle rfl rfl rfl nofun
  by_cases hup : e.up s.ifIdSelected = true
  swap
  · unfold getTxTurn
    simp only [if_neg hstop, Bool.not_eq_true] at hup ⊢
    simp only [hup]
    exact .idle rfl rfl rfl nofun
  by_cases hen : e.enabled s.ifIdSelected = true
  swap
  · unfold getTxTurn
    simp only [if_neg hstop, Bool.not_eq_true] at hen ⊢
    simp only [hup, hen]
    exact .idle rfl rfl rfl nofun
  · rw [not_or, not_not, Bool.not_eq_true] at hstop
    rw [getTxTurn_search hstop.1 hstop.2 hup hen]
    rcases hfound : s.found e loop.more with ⟨_ | ⟨c, mask⟩, more⟩
    · exact .empty hfound rfl rfl rfl
    · exact getTxFrame_turned hstop.1 hfound

/-- **What a turn of `wsm_get_tx` can do.** -/
theorem wsmGetTx_turned (ap : Nat → Bool) (e : GetTxEnv) (s : PsState) :
    Turned e s (wsmGetTx ap e s).1 (wsmGetTx ap e s).2 := by
  unfold wsmGetTx
  split
  · exact getTxTurn_turned ap e _ s
  · split
    · split
      · exact .idle rfl rfl rfl nofun
      · exact .idle rfl rfl rfl nofun
    · split
      · exact .idle rfl rfl rfl nofun
      · exact getTxTurn_turned ap e _ s

theorem bit_dtim_iff (l : Nat) : (BIT dtimVirtualLinkId).getLsbD l = true ↔ l = dtimVirtualLinkId := by
  unfold BIT dtimVirtualLinkId
  rw [getLsbD_bit, Bool.and_eq_true, decide_eq_true_eq, decide_eq_true_eq]
  omega

theorem unicastMask_asleep {l : Nat} (h : (unicastMask v).getLsbD l = true)
    (hasleep : v.staAsleepMask.getLsbD l = true) (hl : l ≠ uapsdVirtualLinkId) : v.pspollMask.getLsbD l = true := by
  have hne : v.staAsleepMask ≠ 0 := by
    intro h0
    rw [h0] at hasleep
    exact absurd hasleep (by simp)
  unfold unicastMask BIT at h
  simp only [if_pos hne] at h
  rw [getLsbD_erase, BitVec.getLsbD_or, getLsbD_insert, BitVec.getLsbD_not, hasleep] at h
  have hbit : v.pspollMask.getLsbD l = true ∧ ¬dtimVirtualLinkId = l := by simpa [Ne.symm hl] using h
  exact hbit.1

theorem unicastMask_dtim (h : (unicastMask v).getLsbD dtimVirtualLinkId = true) : v.staAsleepMask = 0 := by
  by_contra hne
  unfold unicastMask BIT at h
  simp only [if_pos hne] at h
  rw [getLsbD_erase] at h
  simp at h

theorem found_mask {arg : Bool → PrioArg} {m more : Bool} {c : Fin 4}
    (h : wsmGetTxQueueAndMask arg v m = (some (c, mask), more)) :
    (v.txMulticast = true ∧ mask = BIT dtimVirtualLinkId) ∨ mask = unicastMask v := by
  have hunicast : ∀ {o : Option (Fin 4)}, (o.map fun c => (c, unicastMask v), m) = (some (c, mask), more) →
      mask = unicastMask v := by
    intro o ho
    rw [Prod.mk.injEq, Option.map_eq_some_iff] at ho
    obtain ⟨⟨c', -, hc⟩, -⟩ := ho
    exact (congrArg Prod.snd hc).symm
  unfold wsmGetTxQueueAndMask at h
  simp only at h
  split at h
  · next htx =>
    split at h
    · rw [Prod.mk.injEq, Option.some.injEq, Prod.mk.injEq] at h
      exact .inl ⟨htx, h.1.2.symm⟩
    · exact .inr (hunicast h)
  · exact .inr (hunicast h)

theorem selectItem_spec {q : AtbmQueue} {i k : Nat} (h : selectItem q i mask.toNat = some k) :
    (q.pool k).txpriv.ifId.toNat = i ∧ mask.getLsbD (q.pool k).txpriv.linkId.toNat = true := by
  have hk := List.find?_some h
  simp only [Bool.and_eq_true, beq_iff_eq, linkAllowed, BitVec.testBit_toNat] at hk
  exact hk

/-- What is required of the hand-over of a frame of interface `i`. -/
structure Gated (s : PsState) (i : Nat) (t : AtbmTxpriv) : Prop where
  lock : s.txLock = 0
  asleep : (s.vif i).staAsleepMask.getLsbD t.linkId.toNat = true → t.linkId.toNat ≠ uapsdVirtualLinkId →
    (s.vif i).pspollMask.getLsbD t.linkId.toNat = true
  multicast : t.linkId.toNat = dtimVirtualLinkId → (s.vif i).staAsleepMask = 0 ∨ (s.vif i).txMulticast = true

theorem wsmGetTx_gated {ap : Nat → Bool} {s : PsState} {i : Nat} {t : AtbmTxpriv}
    (hap : ¬(s.vif i).staAsleepMask.getLsbD dtimVirtualLinkId = true)
    (h : (wsmGetTx ap e s).2 = some (.frame i t)) : Gated s i t := by
  have hturn := wsmGetTx_turned ap e s
  rw [h] at hturn
  generalize hs' : (wsmGetTx ap e s).1 = s' at hturn
  clear hs' h
  cases hturn with
  | idle _ _ _ hd => exact absurd rfl (hd i t)
  | handed hlock hfound hsel ht _ _ =>
    subst ht
    obtain ⟨-, hbit⟩ := selectItem_spec hsel
    refine ⟨hlock, ?_, ?_⟩
    · intro hasleep hne
      rcases found_mask hfound with ⟨-, hmask⟩ | hmask
      · rw [hmask, bit_dtim_iff] at hbit
        rw [hbit] at hasleep
        exact absurd hasleep hap
      · rw [hmask] at hbit
        exact unicastMask_asleep hbit hasleep hne
    · intro hdtim
      rcases found_mask hfound with ⟨htx, -⟩ | hmask
      · exact .inr htx
      · rw [hmask, hdtim] at hbit
        exact .inl (unicastMask_dtim hbit)

theorem wsmGetTx_unlocked {ap : Nat → Bool} {s : PsState} {d : TxData}
    (h : (wsmGetTx ap e s).2 = some d) (hd : d.isData = true) : s.txLock = 0 := by
  have turn : ∀ loop, (getTxTurn ap e loop s).2 = some d → s.txLock = 0 := by
    intro loop h
    by_contra hlock
    unfold getTxTurn at h
    rw [if_pos (.inl hlock)] at h
    cases h
  unfold wsmGetTx at h
  split at h
  · exact turn _ h
  · split at h
    · next vif _ =>
      split at h
      · next hc =>
        cases h
        rcases hc with rfl | hc
        · cases hd
        · exact hc
      · cases h
    · split at h
      · cases h
        cases hd
      · exact turn _ h

/-- No bit is added to `sta_asleep_mask` and `pspoll_mask`. -/
structure MasksShrink (v v' : AtbmVif) : Prop where
  asleep : Sub v'.staAsleepMask v.staAsleepMask
  pspoll : Sub v'.pspollMask v.pspollMask

namespace MasksShrink

theorem of_eq {v v' : AtbmVif} (ha : v'.staAsleepMask = v.staAsleepMask) (hp : v'.pspollMask = v.pspollMask) :
    MasksShrink v v' := ⟨ha ▸ .refl _, hp ▸ .refl _⟩

theorem of_and {v v' : AtbmVif} {m : BitVec 32} (ha : v'.staAsleepMask = v.staAsleepMask &&& m)
    (hp : v'.pspollMask = v.pspollMask &&& m) : MasksShrink v v' :=
  ⟨ha ▸ (Sub.refl _).and_left m, hp ▸ (Sub.refl _).and_left m⟩

theorem trans {u v w : AtbmVif} (h : MasksShrink u v) (h' : MasksShrink v w) : MasksShrink u w :=
  ⟨fun l hl => h.asleep l (h'.asleep l hl), fun l hl => h.pspoll l (h'.pspoll l hl)⟩

theorem txHPm (auth : Bool) (l : Nat) (v : AtbmVif) : MasksShrink v (atbmTxHPm auth l v) := by
  unfold atbmTxHPm
  split
  · exact of_and rfl rfl
  · exact of_eq rfl rfl

theorem txHPmState (t : AtbmTxpriv) (v : AtbmVif) : MasksShrink v (atbmTxHPmState t v).1 := by
  have hnote : MasksShrink v (noteMulticast t.linkId.toNat v) := by
    unfold noteMulticast
    split <;> exact of_eq rfl rfl
  unfold atbmTxHPmState
  simp only
  split
  · exact hnote.trans (of_eq rfl rfl)
  · exact hnote

theorem staAdd (caps : WsmCaps) (aid jiffies : Nat) (term mapped : Bool) (v : AtbmVif) :
    MasksShrink v (atbmStaAdd caps aid jiffies term mapped v).1 := by
  have henter : MasksShrink v (staEnter aid jiffies v) := of_and rfl rfl
  obtain ⟨-, h⟩ | ⟨-, -, -, -, h⟩ | ⟨-, -, -, -, -, h⟩ | ⟨-, -, -, -, -, h⟩ :=
    atbmStaAdd_cases caps aid jiffies term mapped v
  · rw [h]
    exact of_eq rfl rfl
  · rw [h]
    exact of_eq rfl rfl
  · rw [h]
    exact henter
  · rw [h]
    exact henter.trans (of_eq rfl rfl)

theorem staRemove (aid : Nat) (term : Bool) (v : AtbmVif) : MasksShrink v (atbmStaRemove aid term v) := by
  unfold atbmStaRemove
  split
  · exact of_eq rfl rfl
  · split
    · exact of_eq rfl rfl
    · exact of_and rfl rfl

theorem beaconing (conf : Beaconing) (v : AtbmVif) : MasksShrink v (atbmUpdateBeaconing conf v) := by
  obtain ⟨-, ha, hp⟩ := atbmUpdateBeaconing_masks conf v
  exact of_eq ha hp

theorem searched (found more : Bool) (v : AtbmVif) : MasksShrink v (multicastsSearched found more v) := by
  unfold multicastsSearched
  split <;> exact of_eq rfl rfl

end MasksShrink

theorem staNotify_adds (cmd : StaNotifyCmd) (l : Nat) (v : AtbmVif) :
    Sub (staNotify cmd l v).pspollMask v.pspollMask ∧
      ∀ l', (staNotify cmd l v).staAsleepMask.getLsbD l' = true →
        v.staAsleepMask.getLsbD l' = true ∨ (l ≠ 0 ∧ l' = l) := by
  cases cmd with
  | sleep =>
    simp only [staNotify]
    split
    · refine ⟨.refl _, ?_⟩
      intro l' hl'
      unfold notifyBit at hl'
      by_cases h0 : l = 0
      · subst h0
        left
        simpa using hl'
      · rw [if_pos h0] at hl'
        change (v.staAsleepMask ||| bit 32 l).getLsbD l' = true at hl'
        rw [getLsbD_insert, Bool.or_eq_true, Bool.and_eq_true, decide_eq_true_eq, decide_eq_true_eq] at hl'
        exact hl'.imp_right fun h => ⟨h0, h.2.symm⟩
    · exact ⟨.refl _, fun l' h => .inl h⟩
  | awake =>
    simp only [staNotify]
    split
    · exact ⟨(Sub.refl _).and_left _, fun l' h => .inl ((Sub.refl _).and_left _ l' h)⟩
    · exact ⟨.refl _, fun l' h => .inl h⟩

theorem psNotify_adds (l : Nat) (ps : Bool) (v : AtbmVif) :
    Sub (atbmPsNotify l ps v).pspollMask v.pspollMask ∧
      ∀ l', (atbmPsNotify l ps v).staAsleepMask.getLsbD l' = true →
        v.staAsleepMask.getLsbD l' = true ∨ IsSta l' := by
  unfold atbmPsNotify
  split
  · exact ⟨.refl _, fun l' h => .inl h⟩
  · next hle =>
    obtain ⟨hp, ha⟩ := staNotify_adds (if ps = true then .sleep else .awake) l v
    refine ⟨hp, ?_⟩
    intro l' hl'
    exact (ha l' hl').imp_right fun h => ⟨by omega, by omega⟩

/-- The link id of a frame is its raw one, or a virtual one. -/
def LinkOk (t : AtbmTxpriv) : Prop :=
  t.linkId = t.rawLinkId ∨ t.linkId.toNat = dtimVirtualLinkId ∨ t.linkId.toNat = uapsdVirtualLinkId

theorem baseLinkIds_ok {ap : Bool} {d : TxDest} {v : AtbmVif} {p : UInt8 × UInt8}
    (h : baseLinkIds ap d v = some p) : p.2 = p.1 ∨ p.2.toNat = dtimVirtualLinkId := by
  unfold baseLinkIds at h
  split at h
  · cases h
    exact .inl rfl
  split at h
  · cases h
    exact .inl rfl
  split at h
  · cases h
    exact .inl rfl
  split at h
  · cases h
    by_cases hb : d.enableBeacon = true
    · exact .inr (by simp [hb, dtimVirtualLinkId])
    · exact .inl (by simp [hb])
  split at h
  · cases h
    exact .inl rfl
  · cases h

theorem calcLinkIds_ok {ap : Bool} {d : TxDest} {v : AtbmVif} {p : UInt8 × UInt8}
    (h : atbmTxHCalcLinkIds ap d v = some p) :
    p.2 = p.1 ∨ p.2.toNat = dtimVirtualLinkId ∨ p.2.toNat = uapsdVirtualLinkId := by
  unfold atbmTxHCalcLinkIds at h
  rw [Option.map_eq_some_iff] at h
  obtain ⟨p', hbase, hp⟩ := h
  split at hp
  · rw [← hp]
    exact .inr (.inr rfl)
  · rw [← hp]
    exact (baseLinkIds_ok hbase).imp_right .inl

/-- What `atbm_tx` can do: nothing but to wake the station for an authentication, or a put. -/
inductive TxSent (a : TxCall) (s s' : PsState) : Prop
  | dropped (auth : Bool) (raw : Nat) : s'.saveBuf = s.saveBuf → s'.queues = s.queues →
      s'.vif = Function.update s.vif a.ifId.toNat (atbmTxHPm auth raw (s.vif a.ifId.toNat)) → TxSent a s s'
  | put (auth : Bool) (raw : Nat) (e : QEnv) (c : Fin 4) (skb : SkBuff) (t : AtbmTxpriv) : s'.saveBuf = s.saveBuf →
      t.ifId = a.ifId → LinkOk t → (atbmQueuePut e skb t (s.queues.view c)).2 = 0 →
      s'.queues = s.queues.step ⟨c, e, .put skb t⟩ →
      s'.vif = Function.update s.vif a.ifId.toNat
        (atbmTxHPmState t (atbmTxHPm auth raw (s.vif a.ifId.toNat))).1 → TxSent a s s'

theorem psTx_sent (ap : Nat → Bool) (e : QEnv) (a : TxCall) (d : TxDest) (auth : Bool) (s : PsState) :
    TxSent a s (psTx ap e a d auth s) := by
  unfold psTx
  simp only
  have hself : Function.update s.vif a.ifId.toNat (atbmTxHPm false 0 (s.vif a.ifId.toNat)) = s.vif :=
    Function.update_eq_self ..
  rcases hlink : atbmTxHCalcLinkIds (ap a.ifId.toNat) d (s.vif a.ifId.toNat) with _ | ⟨raw, link⟩
  · -- no link id: nothing is put
    rcases hprep : atbmTxPrepare { a with link := none } with ⟨t, _ | _⟩
    · exact .dropped false 0 rfl rfl hself.symm
    · obtain ⟨-, h, -⟩ := atbmTxPrepare_put hprep
      cases h
  · have hok : ∀ t, atbmTxPrepare { a with link := some (raw, link) } = (t, true) →
        t.ifId = a.ifId ∧ LinkOk t := by
      intro t hprep
      obtain ⟨hid, h, -⟩ := atbmTxPrepare_put hprep
      refine ⟨hid, ?_⟩
      rw [Option.some.injEq, Prod.mk.injEq] at h
      obtain ⟨rfl, rfl⟩ := h
      exact calcLinkIds_ok hlink
    by_cases hpm : (a.enabled && decide (a.queue < 4)) = true
    · simp only [hpm, if_true]
      rcases hprep : atbmTxPrepare { a with link := some (raw, link) } with ⟨t, _ | _⟩
      · exact .dropped auth raw.toNat rfl rfl rfl
      · obtain ⟨hid, hl⟩ := hok t hprep
        simp only
        split
        · exact .dropped auth raw.toNat rfl rfl rfl
        · next hret =>
          refine .put auth raw.toNat e _ a.skb t rfl hid hl (not_not.mp hret) rfl ?_
          simp only [PsState.setVif, Function.update_idem, Function.update_self]
    · -- the frame does not get as far as `atbm_tx_h_pm`
      have hdrop : (atbmTxPrepare { a with link := some (raw, link) }).2 = false := by
        unfold atbmTxPrepare
        by_cases hen : a.enabled = true
        · have hq : 4 ≤ a.queue := by
            by_contra hq
            exact hpm (by simp [hen]; omega)
          simp [hen, hq]
        · simp [hen]
      simp only [hpm]
      rcases hprep : atbmTxPrepare { a with link := some (raw, link) } with ⟨t, _ | _⟩
      · exact .dropped false 0 rfl rfl hself.symm
      · rw [hprep] at hdrop
        cases hdrop

structure MasksStep (i : Nat) (a : PsAct) (v v' : AtbmVif) : Prop where
  pspoll : ∀ l, v'.pspollMask.getLsbD l = true → v.pspollMask.getLsbD l = true ∨ a = .pspoll i l
  asleep : ∀ l, v'.staAsleepMask.getLsbD l = true → v.staAsleepMask.getLsbD l = true ∨ IsSta l

theorem MasksShrink.step {i : Nat} {a : PsAct} {v v' : AtbmVif} (h : MasksShrink v v') : MasksStep i a v v' :=
  ⟨fun l hl => .inl (h.pspoll l hl), fun l hl => .inl (h.asleep l hl)⟩

theorem MasksShrink.update {i j : Nat} {f : Nat → AtbmVif} {v : AtbmVif} (h : MasksShrink (f j) v) :
    MasksShrink (f i) (Function.update f j v i) := by
  by_cases hij : i = j
  · subst hij
    rw [Function.update_self]
    exact h
  · rw [Function.update_of_ne hij]
    exact .of_eq rfl rfl

theorem Turned.masks {e : GetTxEnv} {s s' : PsState} {d : Option TxData} (h : Turned e s s' d) (i : Nat) :
    MasksShrink (s.vif i) (s'.vif i) := by
  have hsearch : ∀ found more, MasksShrink (s.vif s.ifIdSelected) (s.searched found more) :=
    fun found more => .searched found more _
  cases h with
  | idle _ hv _ _ =>
    rw [hv]
    exact .of_eq rfl rfl
  | empty _ _ _ hv =>
    rw [hv]
    exact (hsearch false _).update
  | missed _ _ _ hv =>
    rw [hv]
    exact (hsearch true _).update
  | dropped _ _ _ hv =>
    rw [hv]
    exact (hsearch true _).update
  | handed _ _ _ _ _ hv =>
    rw [hv]
    refine MasksShrink.update ((hsearch true _).trans ⟨.refl _, ?_⟩)
    exact (Sub.refl _).and_left _

theorem TxSent.masks {a : TxCall} {s s' : PsState} (h : TxSent a s s') (i : Nat) :
    MasksShrink (s.vif i) (s'.vif i) := by
  cases h with
  | dropped auth raw _ _ hv =>
    rw [hv]
    exact (MasksShrink.txHPm auth raw _).update
  | put auth raw e c skb t _ _ _ _ _ hv =>
    rw [hv]
    exact ((MasksShrink.txHPm auth raw _).trans (.txHPmState t _)).update

section
variable {ap : Nat → Bool} {caps : WsmCaps} {s : PsState}

theorem next_masks {a : PsAct} (he : a.enabled ap s) {i : Nat} (hap : ap i = true) :
    MasksStep i a (s.vif i) ((a.next ap caps s).vif i) := by
  have onVif : ∀ j f, a.vifStep caps = some (j, f) → (i = j → MasksStep i a (s.vif i) (f (s.vif i))) →
      MasksStep i a (s.vif i) ((a.next ap caps s).vif i) := by
    intro j f hf hstep
    rw [(next_vifStep ap hf).1]
    by_cases hij : i = j
    · subst hij
      rw [Function.update_self]
      exact hstep rfl
    · rw [Function.update_of_ne hij]
      exact (MasksShrink.of_eq rfl rfl).step
  have same : (a.next ap caps s).vif = s.vif → MasksStep i a (s.vif i) ((a.next ap caps s).vif i) := by
    intro h
    rw [h]
    exact (MasksShrink.of_eq rfl rfl).step
  obtain ⟨-, he⟩ := he
  cases a with
  | tx e a d auth => exact ((psTx_sent ap e a d auth s).masks i).step
  | getTx e => exact ((wsmGetTx_turned ap e s).masks i).step
  | pspoll j l =>
    refine onVif j _ rfl ?_
    rintro rfl
    unfold atbmHandlePspoll
    split
    · exact (MasksShrink.of_eq rfl rfl).step
    · split
      · exact (MasksShrink.of_eq rfl rfl).step
      · refine ⟨?_, fun l' h => .inl h⟩
        intro l' hl'
        change ((s.vif i).pspollMask ||| bit 32 l).getLsbD l' = true at hl'
        rw [getLsbD_insert, Bool.or_eq_true, Bool.and_eq_true, decide_eq_true_eq, decide_eq_true_eq] at hl'
        refine hl'.imp_right ?_
        rintro ⟨-, rfl⟩
        rfl
  | notify j cmd l alive =>
    refine onVif j _ rfl ?_
    rintro rfl
    unfold atbmStaNotify
    split
    · obtain ⟨hp, ha⟩ := staNotify_adds cmd l (s.vif i)
      refine ⟨fun l' h => .inl (hp l' h), ?_⟩
      intro l' hl'
      refine (ha l' hl').imp_right ?_
      rintro ⟨-, rfl⟩
      exact he.2
    · exact (MasksShrink.of_eq rfl rfl).step
  | suspendResume j arg =>
    refine onVif j _ rfl ?_
    rintro rfl
    unfold atbmSuspendResume
    by_cases hm : arg.multicast = true
    · rw [if_pos hm]
      refine MasksShrink.step ?_
      split <;> exact .of_eq rfl rfl
    · rw [if_neg hm]
      obtain ⟨hp, ha⟩ := psNotify_adds arg.linkId arg.stop (s.vif i)
      exact ⟨fun l' h => .inl (hp l' h), ha⟩
  | add j aid jiffies term mapped =>
    refine onVif j _ rfl ?_
    rintro rfl
    exact (MasksShrink.staAdd caps aid jiffies term mapped (s.vif i)).step
  | remove j aid term =>
    refine onVif j _ rfl ?_
    rintro rfl
    exact (MasksShrink.staRemove aid term (s.vif i)).step
  | beaconing j conf =>
    refine onVif j _ rfl ?_
    rintro rfl
    exact (MasksShrink.beaconing conf (s.vif i)).step
  | startWork j =>
    refine onVif j _ rfl ?_
    rintro rfl
    exact MasksShrink.step (.of_eq rfl rfl)
  | stopWork j =>
    refine onVif j _ rfl ?_
    rintro rfl
    exact MasksShrink.step (.of_eq rfl rfl)
  | mcastTimeout j =>
    refine onVif j _ rfl ?_
    rintro rfl
    exact MasksShrink.step (.of_eq rfl rfl)
  | other j v =>
    refine onVif j _ rfl ?_
    rintro rfl
    exact absurd (hap.symm.trans he) (by decide)
  | lockTx => exact same rfl
  | unlockTx => exact same rfl
  | wsmCmd b => exact same rfl
  | firmwareCheck b => exact same rfl
  | queue ev => exact same rfl

end

/-- What holds of the saved buffer, the queues and the masks in every state. -/
structure GateInv (ap : Nat → Bool) (s : PsState) : Prop where
  saveBuf : ∀ vif ∈ s.saveBuf, vif = -1
  links : ∀ c k, LinkOk ((s.queues.txQueue c).pool k).txpriv
  sleepers : ∀ i, ap i = true → ∀ l, (s.vif i).staAsleepMask.getLsbD l = true → IsSta l

theorem gateInv_start (ap : Nat → Bool) (ttl : Fin 4 → Int) : GateInv ap (psStart ttl) := by
  refine ⟨nofun, fun _ _ => .inl rfl, ?_⟩
  intro i _ l hl
  change (0#32).getLsbD l = true at hl
  rw [BitVec.getLsbD_zero] at hl
  cases hl

theorem put_txpriv (e : QEnv) (skb : SkBuff) (t : AtbmTxpriv) (s : TxQ) (k : Nat) :
    ((atbmQueuePut e skb t s).1.q.pool k).txpriv = t ∨
      ((atbmQueuePut e skb t s).1.q.pool k).txpriv = (s.q.pool k).txpriv := by
  unfold atbmQueuePut
  split
  · exact .inr rfl
  · split
    · exact .inr rfl
    · next k' rest hf =>
      obtain ⟨l, o, g, b, hq⟩ := (flowOnly_putOverfull e t.ifId.toNat
        (putItem e skb t k' (trapIf (s.q.pool k').skb.isSome .itemSkb s))).fields
      simp only [hq]
      by_cases hk : k = k'
      · subst hk
        exact .inl (by simp [putItem])
      · exact .inr (by simp [putItem, hk])

theorem links_drains {s : TxQueues} {ev : QEvent} (h : ∀ c k, LinkOk ((s.txQueue c).pool k).txpriv)
    (hd : ev.op.drainsOnly = true) (c : Fin 4) (k : Nat) : LinkOk (((s.step ev).txQueue c).pool k).txpriv := by
  rw [s.step_txpriv ev hd]
  exact h c k

theorem Turned.links {e : GetTxEnv} {s s' : PsState} {d : Option TxData} (h : Turned e s s' d)
    (hl : ∀ c k, LinkOk ((s.queues.txQueue c).pool k).txpriv) (c : Fin 4) (k : Nat) :
    LinkOk ((s'.queues.txQueue c).pool k).txpriv := by
  cases h with
  | idle hq _ _ _ => rw [hq]; exact hl c k
  | empty _ hq _ _ => rw [hq]; exact hl c k
  | missed _ _ hq _ => rw [hq]; exact links_drains hl rfl c k
  | handed _ _ _ _ hq _ => rw [hq]; exact links_drains hl rfl c k
  | dropped _ _ hq _ =>
    rcases hq with hq | hq
    · rw [hq]
      exact links_drains hl rfl c k
    · rw [hq]
      exact links_drains (links_drains hl rfl) rfl c k

theorem TxSent.links {a : TxCall} {s s' : PsState} (h : TxSent a s s')
    (hl : ∀ c k, LinkOk ((s.queues.txQueue c).pool k).txpriv) (c : Fin 4) (k : Nat) :
    LinkOk ((s'.queues.txQueue c).pool k).txpriv := by
  cases h with
  | dropped auth raw _ hq _ => rw [hq]; exact hl c k
  | put auth raw e c' skb t _ _ hok _ hq _ =>
    rw [hq]
    by_cases hc : c = c'
    · subst hc
      rw [s.queues.step_txQueue_self ⟨c, e, .put skb t⟩]
      rcases put_txpriv e skb t (s.queues.view c) k with h | h
      · exact h.symm ▸ hok
      · exact h.symm ▸ hl c k
    · rw [s.queues.step_txQueue_other ⟨c', e, .put skb t⟩ hc]
      exact hl c k

section
variable {ap : Nat → Bool} {caps : WsmCaps} {s : PsState}

variable {a : PsAct} {i l : Nat}

theorem next_links (he : a.enabled ap s) (hl : ∀ c k, LinkOk ((s.queues.txQueue c).pool k).txpriv)
    (c : Fin 4) (k : Nat) : LinkOk (((a.next ap caps s).queues.txQueue c).pool k).txpriv := by
  rcases hf : a.vifStep caps with _ | ⟨j, f⟩
  · cases a with
    | tx e a d auth => exact (psTx_sent ap e a d auth s).links hl c k
    | getTx e => exact (wsmGetTx_turned ap e s).links hl c k
    | queue ev =>
      refine links_drains hl ?_ c k
      have hin : ev.op.inRuns = true := he.2.2.2
      cases hop : ev.op <;> rw [hop] at hin <;> first | rfl | cases hin
    | lockTx => exact hl c k
    | unlockTx => exact hl c k
    | wsmCmd b => exact hl c k
    | firmwareCheck b => exact hl c k
    | _ => cases hf
  · rw [(next_vifStep ap hf).2]
    exact hl c k

theorem getTxTurn_saveBuf (e : GetTxEnv) (loop : GetTxLoop) : (getTxTurn ap e loop s).1.saveBuf = s.saveBuf ∧
    ∀ vif, (getTxTurn ap e loop s).2 ≠ some (.saved vif) := by
  unfold getTxTurn
  split
  · exact ⟨rfl, nofun⟩
  · simp only
    split
    · exact ⟨rfl, nofun⟩
    · split
      · exact ⟨rfl, nofun⟩
      · unfold afterFound
        split
        · exact ⟨rfl, nofun⟩
        · unfold getTxFrame
          simp only
          split
          · exact ⟨rfl, nofun⟩
          · split
            · split <;> exact ⟨rfl, nofun⟩
            · exact ⟨rfl, nofun⟩

theorem wsmGetTx_saveBuf (e : GetTxEnv) (h : ∀ vif ∈ s.saveBuf, vif = -1) :
    (∀ vif ∈ (wsmGetTx ap e s).1.saveBuf, vif = -1) ∧ ∀ vif, (wsmGetTx ap e s).2 = some (.saved vif) → vif = -1 := by
  have turn : ∀ loop, (∀ vif ∈ (getTxTurn ap e loop s).1.saveBuf, vif = -1) ∧
      ∀ vif, (getTxTurn ap e loop s).2 = some (.saved vif) → vif = -1 := by
    intro loop
    obtain ⟨h1, h2⟩ := @getTxTurn_saveBuf ap s e loop
    rw [h1]
    exact ⟨h, fun vif hv => absurd hv (h2 vif)⟩
  unfold wsmGetTx
  split
  · exact turn _
  · split
    · next vif hsaved =>
      split
      · refine ⟨nofun, ?_⟩
        rintro vif' ⟨⟩
        exact h vif hsaved
      · exact ⟨h, nofun⟩
    · split
      · exact ⟨h, nofun⟩
      · exact turn _

theorem next_saveBuf (h : ∀ vif ∈ s.saveBuf, vif = -1) : ∀ vif ∈ (a.next ap caps s).saveBuf, vif = -1 := by
  cases a with
  | getTx e => exact (wsmGetTx_saveBuf e h).1
  | firmwareCheck b =>
    cases b with
    | true =>
      rintro vif ⟨⟩
      rfl
    | false => exact nofun
  | tx e a d auth =>
    have hsame : (psTx ap e a d auth s).saveBuf = s.saveBuf := by
      cases psTx_sent ap e a d auth s with
      | dropped _ _ hb _ _ => exact hb
      | put _ _ _ _ _ _ hb _ _ _ _ _ => exact hb
    show ∀ vif ∈ (psTx ap e a d auth s).saveBuf, vif = -1
    rw [hsame]
    exact h
  | startWork i =>
    simp only [PsAct.next, atbmMulticastStartWork]
    split <;> exact h
  | stopWork i =>
    simp only [PsAct.next, atbmMulticastStopWork]
    split <;> exact h
  | _ => exact h

theorem gateInv_step (h : GateInv ap s) (he : a.enabled ap s) : GateInv ap (a.next ap caps s) := by
  refine ⟨next_saveBuf h.saveBuf, next_links he h.links, ?_⟩
  intro i hap l hl
  exact ((next_masks he hap).asleep l hl).elim (h.sleepers i hap l) id

theorem gateInv_reach (h : Reach (powerSave ap caps) s) : GateInv ap s := by
  refine h.invariant ?_ ?_
  · rintro s ⟨ttl, rfl⟩
    exact gateInv_start ap ttl
  · rintro s a t hs ⟨he, rfl⟩
    exact gateInv_step hs he

/-- The step hands over a frame of interface `i` queued for link `l`. -/
def hands (ap : Nat → Bool) (i l : Nat) (p : PsState × PsAct) : Bool :=
  match p.2 with
  | .getTx e =>
    match (wsmGetTx ap e p.1).2 with
    | some (.frame j t) => j == i && t.linkId.toNat == l
    | _ => false
  | _ => false

theorem hands_iff : hands ap i l (s, a) = true ↔
    ∃ e t, a = .getTx e ∧ (wsmGetTx ap e s).2 = some (.frame i t) ∧ t.linkId.toNat = l := by
  unfold hands
  constructor
  · intro h
    split at h
    · next e ha =>
      split at h
      · next j t hd =>
        simp only [Bool.and_eq_true, beq_iff_eq] at h
        obtain ⟨rfl, rfl⟩ := h
        exact ⟨e, t, ha, hd, rfl⟩
      · cases h
    · cases h
  · rintro ⟨e, t, rfl, hd, rfl⟩
    simp [hd]

theorem hands_pspoll (h : GateInv ap s) (hap : ap i = true)
    (hasleep : (s.vif i).staAsleepMask.getLsbD l = true) (hh : hands ap i l (s, a) = true) :
    (s.vif i).pspollMask.getLsbD l = true := by
  obtain ⟨e, t, -, hd, rfl⟩ := hands_iff.mp hh
  have hsta := h.sleepers i hap _ hasleep
  unfold IsSta maxStaInApMode at hsta
  refine (wsmGetTx_gated ?_ hd).asleep hasleep (by unfold uapsdVirtualLinkId; omega)
  intro h15
  have := (h.sleepers i hap _ h15).2
  unfold maxStaInApMode dtimVirtualLinkId at this
  omega

theorem hands_clears (h : GateInv ap s) (hap : ap i = true)
    (hasleep : (s.vif i).staAsleepMask.getLsbD l = true) (hh : hands ap i l (s, a) = true) :
    ((a.next ap caps s).vif i).pspollMask.getLsbD l = false := by
  obtain ⟨e, t, rfl, hd, rfl⟩ := hands_iff.mp hh
  have hsta := h.sleepers i hap _ hasleep
  have hturn := wsmGetTx_turned ap e s
  rw [hd] at hturn
  show ((wsmGetTx ap e s).1.vif i).pspollMask.getLsbD _ = false
  generalize (wsmGetTx ap e s).1 = s' at hturn
  cases hturn with
  | idle _ _ _ hno => exact absurd rfl (hno i t)
  | handed _ _ _ ht _ hv =>
    -- the link id is that of a station, so it is the raw one
    have hraw : t.linkId = t.rawLinkId := by
      have hok : LinkOk t := ht ▸ h.links _ _
      unfold IsSta maxStaInApMode at hsta
      unfold LinkOk dtimVirtualLinkId uapsdVirtualLinkId at hok
      rcases hok with hok | hok | hok
      · exact hok
      · omega
      · omega
    rw [hv, Function.update_self]
    show (_ &&& ~~~bit 32 t.rawLinkId.toNat).getLsbD t.linkId.toNat = false
    rw [getLsbD_erase, hraw, decide_eq_true rfl, Bool.not_true, Bool.and_false]

def polls (i l : Nat) : PsAct → Bool
  | .pspoll j l' => j == i && l' == l
  | _ => false

def Quiet (i l : Nat) (p : PsState × PsAct) : Prop :=
  (p.1.vif i).staAsleepMask.getLsbD l = true ∧ polls i l p.2 = false

instance decQuiet (i l : Nat) (p : PsState × PsAct) : Decidable (Quiet i l p) := inferInstanceAs (Decidable (_ ∧ _))

theorem hands_none {t : PsState} {steps : List (PsState × PsAct)}
    (hp : Path (powerSave ap caps) s steps t) (hI : GateInv ap s) (hap : ap i = true)
    (hquiet : ∀ p ∈ steps, Quiet i l p) (hpoll : (s.vif i).pspollMask.getLsbD l = false) :
    steps.countP (hands ap i l) = 0 := by
  induction hp with
  | nil => rfl
  | @cons s s' u a steps hstep _ ih =>
    obtain ⟨he, rfl⟩ := hstep
    obtain ⟨hasleep, hne⟩ := hquiet _ List.mem_cons_self
    have hno : ¬hands ap i l (s, a) = true := by
      intro hh
      rw [hands_pspoll hI hap hasleep hh] at hpoll
      cases hpoll
    rw [List.countP_cons_of_neg hno]
    apply ih (gateInv_step hI he) (fun p hp => hquiet p (List.mem_cons_of_mem _ hp))
    by_contra hset
    have hmasks : MasksStep i a (s.vif i) ((a.next ap caps s).vif i) := next_masks he hap
    rcases hmasks.pspoll l (by simpa using hset) with h | h
    · rw [hpoll] at h
      cases h
    · rw [h] at hne
      simp [polls] at hne

theorem hands_le_one {t : PsState} {steps : List (PsState × PsAct)}
    (hp : Path (powerSave ap caps) s steps t) (hI : GateInv ap s) (hap : ap i = true)
    (hquiet : ∀ p ∈ steps, Quiet i l p) : steps.countP (hands ap i l) ≤ 1 := by
  induction hp with
  | nil => exact Nat.zero_le 1
  | @cons s s' u a steps hstep hrest ih =>
    obtain ⟨he, rfl⟩ := hstep
    have hasleep := (hquiet _ List.mem_cons_self).1
    have hquiet' : ∀ p ∈ steps, Quiet i l p := fun p hp => hquiet p (List.mem_cons_of_mem _ hp)
    have hI' : GateInv ap (a.next ap caps s) := gateInv_step hI he
    by_cases hh : hands ap i l (s, a) = true
    · rw [List.countP_cons_of_pos hh, hands_none hrest hI' hap hquiet' (hands_clears hI hap hasleep hh)]
    · rw [List.countP_cons_of_neg hh]
      exact ih hI' hquiet'

end

/-- **Power-save gating.**  In every state of every run `wsm_get_tx` hands over data only while TX is not
locked, a frame to a sleeping link only for its PS-Poll, and a multicast frame only while no station sleeps
or `tx_multicast` is set; and while a station sleeps and does not poll it is handed one frame at most. -/
theorem powerSave_gates {ap : Nat → Bool} {caps : WsmCaps} {s : PsState} (hr : Reach (powerSave ap caps) s)
    {i : Nat} (hap : ap i = true) :
    (∀ e d, (wsmGetTx ap e s).2 = some d → d.isData = true → s.txLock = 0 ∧ ∃ j t, d = .frame j t) ∧
    (∀ e t, (wsmGetTx ap e s).2 = some (.frame i t) → Gated s i t) ∧
    ∀ l steps t, Path (powerSave ap caps) s steps t → (∀ p ∈ steps, Quiet i l p) →
      steps.countP (hands ap i l) ≤ 1 := by
  have hI := gateInv_reach hr
  refine ⟨?_, ?_, ?_⟩
  · intro e d hd hdata
    refine ⟨wsmGetTx_unlocked hd hdata, ?_⟩
    cases d with
    | saved vif =>
      rw [(wsmGetTx_saveBuf e hI.saveBuf).2 vif hd] at hdata
      cases hdata
    | cmd => cases hdata
    | frame j t => exact ⟨j, t, rfl⟩
  · intro e t hd
    refine wsmGetTx_gated ?_ hd
    intro h15
    have hle := (hI.sleepers i hap _ h15).2
    unfold maxStaInApMode dtimVirtualLinkId at hle
    omega
  · intro l steps t hp hquiet
    exact hands_le_one hp hI hap hquiet

def polled : PsState :=
  (apUp ++ [.notify 0 .sleep 1 true, unicastFrame, unicastFrame, .pspoll 0 1]).foldl
    (PsAct.next (fun _ => true) sampleCaps) (psStart fun _ => 1000)

theorem powerSave_gates_polled :
    Gated polled 0 { txprivStart with linkId := 1, rawLinkId := 1, tid := 0, rateId := 0 } ∧
      (trace (PsAct.next (fun _ => true) sampleCaps) polled
        [.getTx sampleGetTx, .getTx sampleGetTx, .getTx sampleGetTx]).countP (hands (fun _ => true) 0 1) ≤ 1 := by
  have hr : Reach (powerSave (fun _ => true) sampleCaps) polled :=
    Reach.fires (.init ⟨fun _ => 1000, rfl⟩) (by decide +kernel)
  obtain ⟨-, h2, h3⟩ := powerSave_gates hr (i := 0) rfl
  exact ⟨h2 sampleGetTx _ (by decide +kernel),
    h3 1 _ _ (Path.ofFires (by decide +kernel)) (by decide +kernel)⟩

end AtbmWifi
