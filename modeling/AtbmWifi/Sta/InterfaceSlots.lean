import AtbmWifi.Sta.Interface

/-!
# The slots of the interfaces

`num_vifs`, `if_id_slot` and `vif_list` say one thing three times.

* `SlotsOk`: they agree, and interfaces that are up have different `if_id`s and no
  mac80211 queue in common.
* `SlotFits`: an interface that gets to its slot finds it free, and is set up.
* `interfaces_accounted`: along every run, `SlotsOk` holds in every state and `undone`
  of every call exactly when every call is `SlotFits`.

The slot of an address is taken whether it is free or not, and the last call that may
fail, to `atbm_setup_mac_pvif`, comes after the registration.
-/

namespace AtbmWifi

open Mask Transition

variable {V : Type}

/-- `priv->enabled`: added and not removed since -/
def HwPriv.up (h : HwPriv V) (v : V) : Prop := (h.priv v).join.enabled = true

structure SlotsOk (h : HwPriv V) : Prop where
  slots : h.numVifs = card h.ifIdSlot
  listed : h.numVifs = (List.range maxVifs).countP fun i => (h.vifList i).isSome
  ids : ∀ v w, h.up v → h.up w → v ≠ w →
    (h.priv v).ifId ≠ (h.priv w).ifId ∧ ∀ j k, (h.vif v).hwQueue j ≠ (h.vif w).hwQueue k

section
variable [DecidableEq V]

/-- If the call fails, it leaves the three as they were. -/
def HwPriv.AddUndone (e : AddEnv) (v : V) (h : HwPriv V) : Prop :=
  (h.atbmAddInterface e v).2 ≠ 0 →
    (h.atbmAddInterface e v).1.numVifs = h.numVifs ∧ (h.atbmAddInterface e v).1.ifIdSlot = h.ifIdSlot ∧
      (h.atbmAddInterface e v).1.vifList = h.vifList

/-- What is wanted of the `atbm_add_interface` in a call. -/
def IfaceAct.undone (h : HwPriv V) : IfaceAct V → Prop
  | .add v e => h.AddUndone e v
  | .change v type p2p e =>
    h.changes v type p2p = true → ((h.atbmRemoveInterface v).retyped v type p2p).AddUndone e v
  | _ => True

/-- If the interface gets to a slot, the slot is free and the interface is set up. -/
def HwPriv.AddFits (e : AddEnv) (h : HwPriv V) : Prop :=
  h.numVifs < (maxVifs : Int) → e.term = false →
    ∀ i ∈ h.slotOf e.addr, h.vifList i = none ∧ e.setupOk = true

def SlotFits (h : HwPriv V) : IfaceAct V → Prop
  | .add _ e => h.AddFits e
  | .change v type p2p e =>
    h.changes v type p2p = true → ((h.atbmRemoveInterface v).retyped v type p2p).AddFits e
  | _ => True

instance decAddFits (e : AddEnv) (h : HwPriv V) : Decidable (h.AddFits e) :=
  inferInstanceAs (Decidable (_ → _ → ∀ i ∈ _, _))

instance decSlotFits (h : HwPriv V) : (a : IfaceAct V) → Decidable (SlotFits h a)
  | .add _ e => decAddFits e h
  | .change v type p2p e =>
    inferInstanceAs (Decidable (h.changes v type p2p = true →
      ((h.atbmRemoveInterface v).retyped v type p2p).AddFits e))
  | .remove _ | .join .. | .unjoin .. | .beaconing .. => inferInstanceAs (Decidable True)

def ifaces (V : Type) [DecidableEq V] : Sys (HwPriv V) (IfaceAct V) :=
  .ofNext HwPriv.Start (fun _ _ => True) IfaceAct.next

end

/-- Slot `i` is in the mask when it is listed; an interface that is up is listed at its own slot. -/
structure SlotInv (h : HwPriv V) : Prop where
  taken : ∀ i, h.ifIdSlot.getLsbD i = (h.vifList i).isSome
  small : ∀ i, maxVifs ≤ i → h.vifList i = none
  own : ∀ v, h.up v → h.vifList (h.priv v).ifId = some v ∧ (h.priv v).attached = true ∧
    ∀ k, (h.vif v).hwQueue k = 4 * (h.priv v).ifId + k

theorem slotInv_start {h : HwPriv V} (hs : h.Start) : SlotInv h := by
  obtain ⟨-, hslot, hlist, -, -, hpriv⟩ := hs
  constructor
  · intro i
    rw [hslot, hlist i]
    simp
  · intro i _
    exact hlist i
  · intro v hv
    unfold HwPriv.up at hv
    rw [hpriv v] at hv
    cases hv

theorem slotsOk_start {h : HwPriv V} (hs : h.Start) : SlotsOk h := by
  obtain ⟨hnum, hslot, hlist, -, -, hpriv⟩ := hs
  constructor
  · rw [hnum, hslot]
    rfl
  · rw [hnum]
    simp [hlist]
  · intro v w hv
    unfold HwPriv.up at hv
    rw [hpriv v] at hv
    cases hv

theorem SlotInv.ids {h : HwPriv V} (hI : SlotInv h) (v w : V) (hv : h.up v) (hw : h.up w) (hne : v ≠ w) :
    (h.priv v).ifId ≠ (h.priv w).ifId ∧ ∀ j k, (h.vif v).hwQueue j ≠ (h.vif w).hwQueue k := by
  obtain ⟨hlv, -, hqv⟩ := hI.own v hv
  obtain ⟨hlw, -, hqw⟩ := hI.own w hw
  have hid : (h.priv v).ifId ≠ (h.priv w).ifId := by
    intro heq
    rw [heq, hlw] at hlv
    exact hne (Option.some.inj hlv).symm
  refine ⟨hid, fun j k => ?_⟩
  rw [hqv j, hqw k]
  omega

namespace HwPriv

def withCaps (q : V → Nat) (h : HwPriv V) : HwPriv V :=
  { h with vif := fun v => { h.vif v with priv := { h.priv v with queueCap := q v } } }

theorem setCap_withCaps [DecidableEq V] (q : V → Nat) (v : V) (c : Nat) (h : HwPriv V) :
    (h.withCaps q).setCap v c = h.withCaps (Function.update q v c) := by
  unfold withCaps setCap onPriv
  congr 1
  funext w
  by_cases hw : w = v
  · subst hw
    simp [priv]
  · simp [hw, priv]

theorem setPrivQueueCap_caps [DecidableEq V] (v : V) (h : HwPriv V) : ∃ q, h.setPrivQueueCap v = h.withCaps q := by
  unfold setPrivQueueCap
  refine List.foldlRecOn (motive := fun h' : HwPriv V => ∃ q, h' = h.withCaps q) _ _ ?_ ?_
  · exact ⟨_, setCap_withCaps (fun v => (h.priv v).queueCap) v _ h⟩
  · rintro _ ⟨q, rfl⟩ j -
    cases (h.withCaps q).otherJoined v j with
    | none => exact ⟨q, rfl⟩
    | some w =>
      show ∃ q', ((h.withCaps q).setCap w atbmQueueCombCap).setCap v atbmQueueCombCap = h.withCaps q'
      rw [setCap_withCaps, setCap_withCaps]
      exact ⟨_, rfl⟩

theorem clearPrivQueueCap_caps [DecidableEq V] (v : V) (h : HwPriv V) : ∃ q, h.clearPrivQueueCap v = h.withCaps q := by
  unfold clearPrivQueueCap
  refine List.foldlRecOn (motive := fun r : HwPriv V × Option V => ∃ q, r.1 = h.withCaps q) _ _ ?_ ?_
  · exact ⟨_, setCap_withCaps (fun v => (h.priv v).queueCap) v _ h⟩
  · rintro ⟨_, prev⟩ ⟨q, rfl⟩ j -
    show ∃ q', _ = h.withCaps q'
    cases (h.withCaps q).otherJoined v j with
    | none => exact ⟨q, rfl⟩
    | some w =>
      cases prev with
      | none => exact ⟨_, setCap_withCaps q w _ h⟩
      | some u =>
        show ∃ q', (((h.withCaps q).setCap w atbmQueueSingleCap).setCap u atbmQueueCombCap).setCap w
          atbmQueueCombCap = h.withCaps q'
        rw [setCap_withCaps, setCap_withCaps, setCap_withCaps]
        exact ⟨_, rfl⟩

structure SameSlots (h h' : HwPriv V) : Prop where
  numVifs : h'.numVifs = h.numVifs
  ifIdSlot : h'.ifIdSlot = h.ifIdSlot
  vifList : h'.vifList = h.vifList
  enabled : ∀ v, (h'.priv v).join.enabled = (h.priv v).join.enabled
  own : ∀ v, (h'.priv v).attached = (h.priv v).attached ∧ (h'.priv v).ifId = (h.priv v).ifId ∧
    (h'.vif v).hwQueue = (h.vif v).hwQueue

theorem SameSlots.refl (h : HwPriv V) : h.SameSlots h :=
  ⟨rfl, rfl, rfl, fun _ => rfl, fun _ => ⟨rfl, rfl, rfl⟩⟩

theorem SameSlots.trans {h h' h'' : HwPriv V} (a : h.SameSlots h') (b : h'.SameSlots h'') : h.SameSlots h'' where
  numVifs := b.numVifs.trans a.numVifs
  ifIdSlot := b.ifIdSlot.trans a.ifIdSlot
  vifList := b.vifList.trans a.vifList
  enabled v := (b.enabled v).trans (a.enabled v)
  own v := ⟨(b.own v).1.trans (a.own v).1, (b.own v).2.1.trans (a.own v).2.1, (b.own v).2.2.trans (a.own v).2.2⟩

theorem SameSlots.inv {h h' : HwPriv V} (a : h.SameSlots h') (hI : SlotInv h) : SlotInv h' := by
  constructor
  · intro i
    rw [a.ifIdSlot, a.vifList]
    exact hI.taken i
  · intro i hi
    rw [a.vifList]
    exact hI.small i hi
  · intro v hv
    unfold up at hv
    rw [a.enabled v] at hv
    obtain ⟨hatt, hid, hq⟩ := a.own v
    rw [a.vifList, hid, hatt, hq]
    exact hI.own v hv

theorem SameSlots.ok {h h' : HwPriv V} (a : h.SameSlots h') (hI : SlotInv h) (hP : SlotsOk h) : SlotsOk h' where
  slots := by rw [a.numVifs, a.ifIdSlot]; exact hP.slots
  listed := by rw [a.numVifs, a.vifList]; exact hP.listed
  ids := (a.inv hI).ids

theorem sameSlots_withCaps (q : V → Nat) (h : HwPriv V) : h.SameSlots (h.withCaps q) :=
  ⟨rfl, rfl, rfl, fun _ => rfl, fun _ => ⟨rfl, rfl, rfl⟩⟩

theorem sameSlots_setPrivQueueCap [DecidableEq V] (v : V) (h : HwPriv V) : h.SameSlots (h.setPrivQueueCap v) := by
  obtain ⟨q, hq⟩ := h.setPrivQueueCap_caps v
  rw [hq]
  exact h.sameSlots_withCaps q

theorem sameSlots_clearPrivQueueCap [DecidableEq V] (v : V) (h : HwPriv V) : h.SameSlots (h.clearPrivQueueCap v) := by
  obtain ⟨q, hq⟩ := h.clearPrivQueueCap_caps v
  rw [hq]
  exact h.sameSlots_withCaps q

variable [DecidableEq V]

theorem sameSlots_onPriv (v : V) (f : AtbmPriv → AtbmPriv) (h : HwPriv V)
    (hf : (f (h.priv v)).join.enabled = (h.priv v).join.enabled ∧ (f (h.priv v)).attached = (h.priv v).attached ∧
      (f (h.priv v)).ifId = (h.priv v).ifId) : h.SameSlots (h.onPriv v f) := by
  have hvif : ∀ w, (h.onPriv v f).vif w = if w = v then { h.vif v with priv := f (h.priv v) } else h.vif w := by
    intro w
    simp only [onPriv, Function.update_apply]
  refine ⟨rfl, rfl, rfl, fun w => ?_, fun w => ?_⟩
  · unfold priv
    rw [hvif w]
    split
    · next hw => subst hw; exact hf.1
    · rfl
  · unfold priv
    rw [hvif w]
    split
    · next hw => subst hw; exact ⟨hf.2.1, hf.2.2, rfl⟩
    · exact ⟨rfl, rfl, rfl⟩

end HwPriv

section
variable [DecidableEq V]

theorem enabled_doUnjoin (term : Bool) (bssid : Mac) (resetOk : Bool) (j : JoinVif) :
    (atbmDoUnjoin term bssid resetOk j).1.enabled = j.enabled := by
  unfold atbmDoUnjoin
  split
  · rfl
  split
  · rfl
  split
  · rfl
  split
  · rfl
  · exact (unjoinReset_fields resetOk j).1

theorem enabled_doJoin (bss : Bss) (term joinOk resetOk : Bool) (j : JoinVif) :
    (atbmDoJoin bss term joinOk resetOk j).1.enabled = j.enabled := by
  have hfin : ∀ s : JoinVif, (joinFinish bss joinOk (joinPrepare bss s)).1.enabled = s.enabled := by
    intro s
    rw [← (joinPrepare_fields bss s).1]
    cases joinOk with
    | true => exact (joinFinish_true bss _).2.1
    | false => exact (joinFinish_false bss _).2.1
  simp only [atbmDoJoin]
  split
  · rfl
  split
  · rfl
  · rw [hfin]
    split
    · exact enabled_doUnjoin term bss.bssid resetOk j
    · rfl

namespace HwPriv

theorem sameSlots_doJoin (v : V) (bss : Bss) (term joinOk resetOk : Bool) (h : HwPriv V) :
    h.SameSlots (h.doJoin v bss term joinOk resetOk) := by
  have hj : h.SameSlots (h.onPriv v fun p => { p with
      join := (atbmDoJoin bss term joinOk resetOk (h.priv v).join).1 }) :=
    h.sameSlots_onPriv v _ ⟨enabled_doJoin bss term joinOk resetOk _, rfl, rfl⟩
  simp only [doJoin]
  split
  · exact hj.trans (sameSlots_setPrivQueueCap v _)
  · exact hj

theorem sameSlots_doUnjoin (v : V) (bssid : Mac) (term resetOk : Bool) (h : HwPriv V) :
    h.SameSlots (h.doUnjoin v bssid term resetOk) := by
  have hj : ∀ c : AtbmPriv → Nat, h.SameSlots (h.onPriv v fun p => { p with
      join := (atbmDoUnjoin term bssid resetOk (h.priv v).join).1, cipherType := c p }) :=
    fun c => h.sameSlots_onPriv v _ ⟨enabled_doUnjoin term bssid resetOk _, rfl, rfl⟩
  simp only [doUnjoin]
  cases unjoins term bssid (h.priv v).join with
  | true => exact (hj _).trans (sameSlots_clearPrivQueueCap v _)
  | false => exact hj fun p => p.cipherType

theorem sameSlots_startAp (v : V) (conf : Beaconing) (dtimPeriod : Nat) (h : HwPriv V) :
    h.SameSlots (h.startAp v conf dtimPeriod) := by
  unfold startAp
  split
  · exact (h.sameSlots_onPriv v _ ⟨rfl, rfl, rfl⟩).trans (sameSlots_setPrivQueueCap v _)
  · exact .refl h

theorem sameSlots_updateBeaconing (v : V) (term : Bool) (conf : Beaconing) (dtimPeriod : Nat) (h : HwPriv V) :
    h.SameSlots (h.updateBeaconing v term conf dtimPeriod) := by
  unfold updateBeaconing
  split
  · exact .refl h
  split
  · exact .refl h
  split
  · exact (h.sameSlots_onPriv v _ ⟨rfl, rfl, rfl⟩).trans (sameSlots_startAp v conf dtimPeriod _)
  · exact .refl h

theorem atbmAddInterface_cases (e : AddEnv) (v : V) (h : HwPriv V) :
    (h.atbmAddInterface e v = (h, eOpnotsupp) ∧ ¬(h.numVifs < (maxVifs : Int) ∧ e.term = false)) ∨
    (h.atbmAddInterface e v = (h.disabled v, eInval) ∧ h.slotOf e.addr = none) ∨
    ∃ i, h.numVifs < (maxVifs : Int) ∧ e.term = false ∧ h.slotOf e.addr = some i ∧
      h.atbmAddInterface e v = (((h.disabled v).register i v).setUp e v, if e.setupOk then 0 else 1) := by
  simp only [atbmAddInterface]
  split
  · next hfull => exact .inl ⟨rfl, fun hlt => by omega⟩
  split
  · next hterm => exact .inl ⟨rfl, fun ⟨_, h0⟩ => by rw [hterm] at h0; cases h0⟩
  next hfull hterm =>
  have hlt : (h.disabled v).numVifs < (maxVifs : Int) := by
    show h.numVifs < (maxVifs : Int)
    omega
  rw [if_pos hlt]
  show _ ∨ _ ∨ _
  cases hslot : h.slotOf e.addr with
  | none =>
    have hs : (h.disabled v).slotOf e.addr = none := hslot
    rw [hs]
    exact .inr (.inl ⟨rfl, rfl⟩)
  | some i =>
    have hs : (h.disabled v).slotOf e.addr = some i := hslot
    rw [hs]
    exact .inr (.inr ⟨i, hlt, by simpa using hterm, rfl, rfl⟩)

variable {h : HwPriv V} {v : V}

omit [DecidableEq V] in
theorem slotOf_lt {addr : Mac} {i : Nat} (hi : h.slotOf addr = some i) : i < maxVifs :=
  List.mem_range.mp (List.mem_of_find?_eq_some hi)

theorem disabled_vif (v : V) (h : HwPriv V) {w : V} (hw : w ≠ v) : (h.disabled v).vif w = h.vif w := by
  simp [disabled, onPriv, hw]

theorem not_up_disabled (v : V) (h : HwPriv V) : ¬ (h.disabled v).up v := by
  simp [disabled, onPriv, up, priv]

theorem disabled_keeps (v : V) (hI : SlotInv h) (hP : SlotsOk h) : SlotInv (h.disabled v) ∧ SlotsOk (h.disabled v) := by
  have hI' : SlotInv (h.disabled v) := by
    refine ⟨hI.taken, hI.small, fun w hw => ?_⟩
    have hne : w ≠ v := by
      rintro rfl
      exact not_up_disabled w h hw
    unfold up priv at hw
    rw [disabled_vif v h hne] at hw
    unfold priv
    rw [disabled_vif v h hne]
    exact hI.own w hw
  exact ⟨hI', hP.slots, hP.listed, hI'.ids⟩

theorem register_vif (i : Nat) (e : AddEnv) (v : V) (h : HwPriv V) {w : V} (hw : w ≠ v) :
    ((h.register i v).setUp e v).vif w = h.vif w := by
  simp [register, setUp, onPriv, hw]

theorem register_own (i : Nat) (e : AddEnv) (v : V) (h : HwPriv V) :
    (((h.register i v).setUp e v).priv v).join.enabled = true ∧
    (((h.register i v).setUp e v).priv v).attached = true ∧
    (((h.register i v).setUp e v).priv v).ifId = i ∧
    ∀ k, (((h.register i v).setUp e v).vif v).hwQueue k = 4 * i + k := by
  simp [register, setUp, onPriv, priv]

theorem register_keeps {i : Nat} (hi : i < maxVifs) (e : AddEnv) (v : V) (hI : SlotInv h)
    (hP : SlotsOk h) (hfree : h.vifList i = none) :
    SlotInv ((h.register i v).setUp e v) ∧ SlotsOk ((h.register i v).setUp e v) := by
  have h32 : i < 32 := by
    have : maxVifs = 2 := rfl
    omega
  have hbit : h.ifIdSlot.getLsbD i = false := by
    rw [hI.taken i, hfree]
    rfl
  obtain ⟨hen, hatt, hid, hq⟩ := register_own i e v h
  have hI' : SlotInv ((h.register i v).setUp e v) := by
    constructor
    · intro j
      show (h.ifIdSlot ||| bit 32 i).getLsbD j = (Function.update h.vifList i (some v) j).isSome
      rw [getLsbD_insert, hI.taken j, Function.update_apply]
      by_cases hj : j = i
      · subst hj
        simp [h32]
      · simp [hj, Ne.symm hj]
    · intro j hj
      show Function.update h.vifList i (some v) j = none
      rw [Function.update_of_ne (by omega)]
      exact hI.small j hj
    · intro w hw
      show Function.update h.vifList i (some v) _ = some w ∧ _
      by_cases hwv : w = v
      · subst hwv
        rw [hid]
        exact ⟨Function.update_self .., hatt, hq⟩
      · unfold up priv at hw
        rw [register_vif i e v h hwv] at hw
        unfold priv
        rw [register_vif i e v h hwv]
        obtain ⟨hl, hrest⟩ := hI.own w hw
        refine ⟨?_, hrest⟩
        rw [Function.update_of_ne]
        · exact hl
        · intro heq
          unfold priv at hl
          rw [heq, hfree] at hl
          cases hl
  refine ⟨hI', ?_, ?_, hI'.ids⟩
  · show h.numVifs + 1 = (card (h.ifIdSlot ||| bit 32 i) : Int)
    rw [card_insert h32 hbit, hP.slots]
    rfl
  · show h.numVifs + 1 = ((List.range maxVifs).countP fun j => (Function.update h.vifList i (some v) j).isSome : Int)
    rw [countP_range_insert (p := fun j => (h.vifList j).isSome) hi, hP.listed]
    · rfl
    · rw [hfree]; rfl
    · rw [Function.update_self]; rfl
    · intro j hj
      rw [Function.update_of_ne hj]

theorem add_keeps {e : AddEnv} (v : V) (hI : SlotInv h) (hP : SlotsOk h) (hC : h.AddFits e) :
    SlotInv (h.atbmAddInterface e v).1 ∧ SlotsOk (h.atbmAddInterface e v).1 ∧ h.AddUndone e v := by
  unfold AddUndone
  rcases atbmAddInterface_cases e v h with ⟨heq, -⟩ | ⟨heq, -⟩ | ⟨i, hlt, hterm, hslot, heq⟩
  · rw [heq]
    exact ⟨hI, hP, fun _ => ⟨rfl, rfl, rfl⟩⟩
  · rw [heq]
    obtain ⟨h1, h2⟩ := disabled_keeps v hI hP
    exact ⟨h1, h2, fun _ => ⟨rfl, rfl, rfl⟩⟩
  · obtain ⟨hfree, hok⟩ := hC hlt hterm i hslot
    obtain ⟨hI1, hP1⟩ := disabled_keeps v hI hP
    obtain ⟨h1, h2⟩ := register_keeps (slotOf_lt hslot) e v hI1 hP1 hfree
    rw [heq, hok]
    exact ⟨h1, h2, fun hne => absurd rfl hne⟩

theorem add_loses {e : AddEnv} (hI : SlotInv h) (hP : SlotsOk h)
    (hPt : SlotsOk (h.atbmAddInterface e v).1) (hQ : h.AddUndone e v) : h.AddFits e := by
  intro hlt hterm i hslot
  unfold AddUndone at hQ
  rcases atbmAddInterface_cases e v h with ⟨-, hno⟩ | ⟨-, hnone⟩ | ⟨i', -, -, hslot', heq⟩
  · exact absurd ⟨hlt, hterm⟩ hno
  · rw [hslot] at hnone
    cases hnone
  · obtain rfl : i = i' := Option.some.inj (hslot.symm.trans hslot')
    rw [heq] at hPt hQ
    constructor
    · by_contra hused
      have hbit : h.ifIdSlot.getLsbD i = true := by
        rw [hI.taken i]
        exact Option.isSome_iff_ne_none.mpr hused
      have hsame : h.ifIdSlot ||| BIT i = h.ifIdSlot := by
        apply BitVec.eq_of_getLsbD_eq
        intro j hj
        show (h.ifIdSlot ||| bit 32 i).getLsbD j = _
        rw [getLsbD_insert]
        by_cases hij : i = j
        · subst hij
          rw [hbit]
          rfl
        · simp [hij]
      have hcount : h.numVifs + 1 = (card (h.ifIdSlot ||| BIT i) : Int) := hPt.slots
      rw [hsame, ← hP.slots] at hcount
      omega
    · by_contra hok
      have hfail : e.setupOk = false := by simpa using hok
      rw [hfail] at hQ
      have hnum : h.numVifs + 1 = h.numVifs := (hQ Int.one_ne_zero).1
      omega

theorem atbmRemoveInterface_eq (hr : h.removes v = true) : ∃ q, h.atbmRemoveInterface v =
      (((h.shutDown v).withCaps q).unregister (h.priv v).ifId).onPriv v fun _ => .zero := by
  obtain ⟨q, hq⟩ := (h.shutDown v).clearPrivQueueCap_caps v
  refine ⟨q, ?_⟩
  unfold atbmRemoveInterface
  rw [if_pos hr, hq]

omit [DecidableEq V] in
theorem unregister_fields (i : Nat) (h : HwPriv V) :
    (h.unregister i).numVifs = h.numVifs - 1 ∧ (h.unregister i).ifIdSlot = h.ifIdSlot &&& ~~~BIT i ∧
    (h.unregister i).vifList = Function.update h.vifList i none ∧ (h.unregister i).vif = h.vif := by
  simp only [unregister]
  split <;> exact ⟨rfl, rfl, rfl, rfl⟩

theorem remove_fields (hr : h.removes v = true) : (h.atbmRemoveInterface v).numVifs = h.numVifs - 1 ∧
    (h.atbmRemoveInterface v).ifIdSlot = h.ifIdSlot &&& ~~~BIT (h.priv v).ifId ∧
    (h.atbmRemoveInterface v).vifList = Function.update h.vifList (h.priv v).ifId none ∧
    (h.atbmRemoveInterface v).priv v = .zero ∧
    ∀ w, w ≠ v → ((h.atbmRemoveInterface v).priv w).join = (h.priv w).join ∧
      ((h.atbmRemoveInterface v).priv w).attached = (h.priv w).attached ∧
      ((h.atbmRemoveInterface v).priv w).ifId = (h.priv w).ifId ∧
      ((h.atbmRemoveInterface v).vif w).hwQueue = (h.vif w).hwQueue := by
  obtain ⟨q, hq⟩ := atbmRemoveInterface_eq hr
  rw [hq]
  generalize hh : (h.shutDown v).withCaps q = g
  obtain ⟨hnum, hslot, hlist, hvif⟩ := unregister_fields (h.priv v).ifId g
  refine ⟨?_, ?_, ?_, by simp [onPriv, priv], fun w hw => ?_⟩
  · show (g.unregister _).numVifs = _
    rw [hnum, ← hh]
    rfl
  · show (g.unregister _).ifIdSlot = _
    rw [hslot, ← hh]
    rfl
  · show (g.unregister _).vifList = _
    rw [hlist, ← hh]
    rfl
  · have hw' : ((g.unregister (h.priv v).ifId).onPriv v fun _ => .zero).vif w = g.vif w := by
      simp [onPriv, hw, hvif]
    have hp' : ((g.unregister (h.priv v).ifId).onPriv v fun _ => .zero).priv w = g.priv w :=
      congrArg Iface.priv hw'
    rw [hp', hw', ← hh]
    simp [withCaps, shutDown, onPriv, priv, hw]

theorem remove_keeps (v : V) (hI : SlotInv h) (hP : SlotsOk h) :
    SlotInv (h.atbmRemoveInterface v) ∧ SlotsOk (h.atbmRemoveInterface v) := by
  cases hr : h.removes v with
  | false =>
    have hsame : h.atbmRemoveInterface v = h := by
      simp [atbmRemoveInterface, hr]
    rw [hsame]
    exact ⟨hI, hP⟩
  | true =>
    obtain ⟨hnum, hslot, hlist, hzero, hother⟩ := remove_fields hr
    have hup : h.up v := by
      unfold removes at hr
      exact (Bool.and_eq_true_iff.mp hr).1
    obtain ⟨hown, -, -⟩ := hI.own v hup
    have hi : (h.priv v).ifId < maxVifs := by
      by_contra hge
      rw [hI.small _ (by omega)] at hown
      cases hown
    have h32 : (h.priv v).ifId < 32 := by
      have : maxVifs = 2 := rfl
      omega
    have hbit : h.ifIdSlot.getLsbD (h.priv v).ifId = true := by
      rw [hI.taken, hown]
      rfl
    have hI' : SlotInv (h.atbmRemoveInterface v) := by
      constructor
      · intro j
        rw [hslot, hlist]
        show (h.ifIdSlot &&& ~~~bit 32 _).getLsbD j = _
        rw [getLsbD_erase, hI.taken j, Function.update_apply]
        by_cases hj : j = (h.priv v).ifId
        · simp [hj]
        · simp [hj, Ne.symm hj]
      · intro j hj
        rw [hlist, Function.update_of_ne (by omega)]
        exact hI.small j hj
      · intro w hw
        have hwv : w ≠ v := by
          rintro rfl
          unfold up at hw
          rw [hzero] at hw
          cases hw
        obtain ⟨hjoin, hatt, hid, hq⟩ := hother w hwv
        unfold up at hw
        rw [hjoin] at hw
        obtain ⟨hl, ha, hqw⟩ := hI.own w hw
        rw [hid, hatt, hq, hlist]
        refine ⟨?_, ha, hqw⟩
        rw [Function.update_of_ne]
        · exact hl
        · intro heq
          rw [heq, hown] at hl
          exact hwv (Option.some.inj hl).symm
    refine ⟨hI', ?_, ?_, hI'.ids⟩
    · rw [hnum, hslot]
      have hcard : card h.ifIdSlot = card (h.ifIdSlot &&& ~~~BIT (h.priv v).ifId) + 1 := card_erase h32 hbit
      rw [hP.slots, hcard]
      omega
    · rw [hnum, hlist]
      have hcount := countP_range_insert
        (p := fun j => (Function.update h.vifList (h.priv v).ifId none j).isSome)
        (q := fun j => (h.vifList j).isSome) hi
        (by rw [Function.update_self]; rfl) (by rw [hown]; rfl) (fun j hj => by rw [Function.update_of_ne hj])
      rw [hP.listed, hcount]
      omega

theorem priv_retyped (v w : V) (type : IfType) (p2p : Bool) (h : HwPriv V) :
    (h.retyped v type p2p).priv w = h.priv w := by
  unfold priv retyped
  by_cases hw : w = v
  · subst hw
    simp
  · simp [hw]

theorem sameSlots_retyped (v : V) (type : IfType) (p2p : Bool) (h : HwPriv V) :
    h.SameSlots (h.retyped v type p2p) := by
  have hq : ∀ w, ((h.retyped v type p2p).vif w).hwQueue = (h.vif w).hwQueue := by
    intro w
    unfold retyped
    by_cases hw : w = v
    · subst hw
      simp
    · simp [hw]
  refine ⟨rfl, rfl, rfl, fun w => ?_, fun w => ?_⟩
  · rw [priv_retyped]
  · rw [priv_retyped, hq w]
    exact ⟨rfl, rfl, rfl⟩

theorem retyped_keeps (v : V) (type : IfType) (p2p : Bool) (hI : SlotInv h) (hP : SlotsOk h) :
    SlotInv ((h.atbmRemoveInterface v).retyped v type p2p) ∧
      SlotsOk ((h.atbmRemoveInterface v).retyped v type p2p) := by
  obtain ⟨hI1, hP1⟩ := remove_keeps v hI hP
  have hs := (h.atbmRemoveInterface v).sameSlots_retyped v type p2p
  exact ⟨hs.inv hI1, hs.ok hI1 hP1⟩

end HwPriv

theorem ifaces_keep (h : HwPriv V) (a : IfaceAct V) (h' : HwPriv V) (hI : SlotInv h) (hP : SlotsOk h)
    (hst : (ifaces V).step h a h') (hC : SlotFits h a) : SlotInv h' ∧ SlotsOk h' ∧ a.undone h := by
  obtain ⟨-, rfl⟩ := hst
  have hsame : ∀ {g : HwPriv V}, h.SameSlots g → SlotInv g ∧ SlotsOk g :=
    fun hs => ⟨hs.inv hI, hs.ok hI hP⟩
  cases a with
  | add v e => exact HwPriv.add_keeps v hI hP hC
  | change v type p2p e =>
    show SlotInv (h.atbmChangeInterface e v type p2p).1 ∧ SlotsOk (h.atbmChangeInterface e v type p2p).1 ∧ _
    simp only [HwPriv.atbmChangeInterface]
    split
    · next hch =>
      obtain ⟨hI1, hP1⟩ := HwPriv.retyped_keeps v type p2p hI hP
      obtain ⟨h1, h2, h3⟩ := HwPriv.add_keeps v hI1 hP1 (hC hch)
      exact ⟨h1, h2, fun _ => h3⟩
    · next hch => exact ⟨hI, hP, fun h1 => absurd h1 hch⟩
  | remove v =>
    obtain ⟨h1, h2⟩ := HwPriv.remove_keeps v hI hP
    exact ⟨h1, h2, trivial⟩
  | join v bss term joinOk resetOk =>
    obtain ⟨h1, h2⟩ := hsame (h.sameSlots_doJoin v bss term joinOk resetOk)
    exact ⟨h1, h2, trivial⟩
  | unjoin v bssid term resetOk =>
    obtain ⟨h1, h2⟩ := hsame (h.sameSlots_doUnjoin v bssid term resetOk)
    exact ⟨h1, h2, trivial⟩
  | beaconing v term conf dtimPeriod =>
    obtain ⟨h1, h2⟩ := hsame (h.sameSlots_updateBeaconing v term conf dtimPeriod)
    exact ⟨h1, h2, trivial⟩

theorem ifaces_lose (h : HwPriv V) (a : IfaceAct V) (h' : HwPriv V) (hI : SlotInv h) (hP : SlotsOk h)
    (hst : (ifaces V).step h a h') (hPt : SlotsOk h') (hQ : a.undone h) : SlotFits h a := by
  obtain ⟨-, rfl⟩ := hst
  cases a with
  | add v e => exact HwPriv.add_loses hI hP hPt hQ
  | change v type p2p e =>
    intro hch
    obtain ⟨hI1, hP1⟩ := HwPriv.retyped_keeps v type p2p hI hP
    have hPt' : SlotsOk (h.atbmChangeInterface e v type p2p).1 := hPt
    rw [HwPriv.atbmChangeInterface, if_pos hch] at hPt'
    exact HwPriv.add_loses hI1 hP1 hPt' (hQ hch)
  | remove | join | unjoin | beaconing => trivial

/-- **The three accounts of the interfaces agree, and failed additions leave nothing** -/
theorem interfaces_accounted {s t : HwPriv V} {l : List (HwPriv V × IfaceAct V)} (h : Path (ifaces V) s l t)
    (hs : s.Start) :
    ((∀ p ∈ l, SlotsOk p.1 ∧ p.2.undone p.1) ∧ SlotsOk t) ↔ ∀ p ∈ l, SlotFits p.1 p.2 :=
  h.exactSteps ifaces_keep ifaces_lose (slotInv_start hs) (slotsOk_start hs)

end

/-- A device with the addresses 2 and 3, and interfaces of a kind. -/
def sampleHw (type : IfType) : HwPriv Bool where
  addresses i := BitVec.ofNat 48 (2 + i)
  numVifs := 0
  ifIdSlot := 0
  vifList _ := none
  macAddr := 0
  keyMap := 0
  keys _ := .zero
  vif _ := ⟨type, false, fun _ => 0, .zero⟩

theorem sampleHw_start (type : IfType) : (sampleHw type).Start :=
  ⟨rfl, rfl, fun _ => rfl, rfl, fun _ => rfl, fun _ => rfl⟩

def sampleAdd (addr : Mac) (setupOk : Bool) : AddEnv := ⟨addr, false, true, setupOk⟩

theorem interfaces_accounted_two :
    SlotsOk ([IfaceAct.add false (sampleAdd 2 true), .add true (sampleAdd 3 true), .remove false].foldl
      IfaceAct.next (sampleHw .station)) :=
  have h : Fires (fun _ _ => True) IfaceAct.next (sampleHw .station)
      [.add false (sampleAdd 2 true), .add true (sampleAdd 3 true), .remove false] := ⟨trivial, trivial, trivial, trivial⟩
  ((interfaces_accounted (Path.ofFires h) (sampleHw_start .station)).mpr (by decide +kernel)).2

/-- Two interfaces with one address are two in one slot; and an interface that could not be set up stays. -/
theorem interfaces_miscounted :
    (∃ s, Reach (ifaces Bool) s ∧ s.numVifs = 2 ∧ card s.ifIdSlot = 1) ∧
      ∃ s e, Reach (ifaces Bool) s ∧ s.numVifs = 0 ∧ (s.atbmAddInterface e false).2 = 1 ∧
        (s.atbmAddInterface e false).1.numVifs = 1 :=
  ⟨⟨_, Reach.fires (.init (sampleHw_start .station))
      (l := [.add false (sampleAdd 2 true), .add true (sampleAdd 2 true)]) ⟨trivial, trivial, trivial⟩,
      by decide +kernel⟩,
    _, sampleAdd 2 false, .init (sampleHw_start .station), by decide +kernel⟩

end AtbmWifi
