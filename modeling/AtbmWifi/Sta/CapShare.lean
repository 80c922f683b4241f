import AtbmWifi.Sta.QueueCap

/-!
# The capacities never exceed the pool

* `CapFits`: who takes a capacity finds the other interface joined or with no more than
  16; an AP does not fail to start while the other has joined; and a monitor is not
  the only one that has joined.
* `capacities_shared`: along every run of two interfaces, `CapsOk` holds in every state
  exactly when every call is `CapFits`.

`atbm_start_ap` takes the capacity whether it succeeds or not.
-/

namespace AtbmWifi

open Transition

variable {V : Type}

structure CapInv (h : HwPriv V) : Prop where
  listed : h.Listed
  small : ∀ i, maxVifs ≤ i → h.vifList i = none
  own : ∀ v, h.up v → h.vifList (h.priv v).ifId = some v
  idle : ∀ v, (h.priv v).joined = true → ∃ i, h.vifList i = some v
  bound : ∀ i, capOf (h.caps i) ≤ atbmQueueSingleCap

theorem CapInv.lt {h : HwPriv V} (hI : CapInv h) {i : Nat} {v : V} (hv : h.vifList i = some v) : i < maxVifs := by
  by_contra hge
  rw [hI.small i (by omega)] at hv
  cases hv

theorem capInv_start {h : HwPriv V} (hs : h.Start) : CapInv h := by
  obtain ⟨-, -, hlist, -, -, hpriv⟩ := hs
  constructor
  · intro i j v hv
    rw [hlist i] at hv
    cases hv
  · intro i _
    exact hlist i
  · intro v hv
    unfold HwPriv.up at hv
    rw [hpriv v] at hv
    cases hv
  · intro v hv
    rw [hpriv v] at hv
    cases hv
  · intro i
    unfold HwPriv.caps
    rw [hlist i]
    exact Nat.zero_le _

theorem capsOk_start {h : HwPriv V} (hs : h.Start) : CapsOk h.caps := by
  have hnone : h.caps = fun _ => none := by
    funext i
    unfold HwPriv.caps
    rw [hs.2.2.1 i]
    rfl
  rw [hnone]
  exact ⟨by decide, fun _ _ _ _ _ hj => by cases hj⟩

theorem CapInv.keep {h h' : HwPriv V} (hI : CapInv h) (hs : h.SameSlots h')
    (hidle : ∀ w, (h'.priv w).joined = true → ∃ i, h.vifList i = some w)
    (hb : ∀ j, capOf (h'.caps j) ≤ atbmQueueSingleCap) : CapInv h' := by
  constructor
  · intro j k w
    rw [hs.vifList]
    exact hI.listed j k w
  · intro j hge
    rw [hs.vifList]
    exact hI.small j hge
  · intro w hw
    unfold HwPriv.up at hw
    rw [hs.enabled w] at hw
    rw [hs.vifList, (hs.own w).2.1]
    exact hI.own w hw
  · rw [hs.vifList]
    exact hidle
  · exact hb

theorem CapInv.same {h h' : HwPriv V} (hI : CapInv h) (hs : h.SameSlots h')
    (hc : ∀ v, (h'.priv v).queueCap = (h.priv v).queueCap ∧ (h'.priv v).joined = (h.priv v).joined) :
    CapInv h' ∧ h'.caps = h.caps := by
  have hcaps : h'.caps = h.caps := by
    funext j
    unfold HwPriv.caps
    rw [hs.vifList]
    cases h.vifList j with
    | none => rfl
    | some w => rw [Option.map_some, Option.map_some, (hc w).1, (hc w).2]
  refine ⟨hI.keep hs (fun w hw => ?_) ?_, hcaps⟩
  · rw [(hc w).2] at hw
    exact hI.idle w hw
  · rw [hcaps]
    exact hI.bound

section
variable [DecidableEq V]

namespace HwPriv

theorem joined_setPrivQueueCap (v w : V) (h : HwPriv V) :
    ((h.setPrivQueueCap v).priv w).joined = (h.priv w).joined := by
  obtain ⟨q, hq⟩ := h.setPrivQueueCap_caps v
  rw [hq]
  rfl

theorem joined_clearPrivQueueCap (v w : V) (h : HwPriv V) :
    ((h.clearPrivQueueCap v).priv w).joined = (h.priv w).joined := by
  obtain ⟨q, hq⟩ := h.clearPrivQueueCap_caps v
  rw [hq]
  rfl

/-- The interface changes its part of the record, but not its slot and capacity. -/
def KeepsSlot (h : HwPriv V) (v : V) (f : AtbmPriv → AtbmPriv) : Prop :=
  (f (h.priv v)).join.enabled = (h.priv v).join.enabled ∧ (f (h.priv v)).attached = (h.priv v).attached ∧
    (f (h.priv v)).ifId = (h.priv v).ifId ∧ (f (h.priv v)).queueCap = (h.priv v).queueCap

variable {f : AtbmPriv → AtbmPriv} {h : HwPriv V} {v : V} {i : Nat}

theorem KeepsSlot.sameSlots (hf : h.KeepsSlot v f) : h.SameSlots (h.onPriv v f) :=
  h.sameSlots_onPriv v f ⟨hf.1, hf.2.1, hf.2.2.1⟩

theorem idle_onPriv {h' : HwPriv V} (hI : CapInv h) (hv : h.vifList i = some v)
    (hj : ∀ w, (h'.priv w).joined = ((h.onPriv v f).priv w).joined) :
    ∀ w, (h'.priv w).joined = true → ∃ i, h.vifList i = some w := by
  intro w hw
  by_cases hwv : w = v
  · exact ⟨i, hwv ▸ hv⟩
  · rw [hj w, priv_onPriv, if_neg hwv] at hw
    exact hI.idle w hw

omit [DecidableEq V] in
theorem bound_pair (hsmall : ∀ i, maxVifs ≤ i → h.vifList i = none) (hi : i < maxVifs)
    (h1 : capOf (h.caps i) ≤ atbmQueueSingleCap) (h2 : capOf (h.caps (1 - i)) ≤ atbmQueueSingleCap) (j : Nat) :
    capOf (h.caps j) ≤ atbmQueueSingleCap := by
  have hmax : maxVifs = 2 := rfl
  by_cases hji : j = i
  · rwa [hji]
  by_cases hjo : j = 1 - i
  · rwa [hjo]
  · have hnone : h.caps j = none := by
      unfold caps
      rw [hsmall j (by omega)]
      rfl
    rw [hnone]
    exact Nat.zero_le _

theorem raise_iff (hI : CapInv h) (hv : h.vifList i = some v) (hf : h.KeepsSlot v f) :
    CapInv ((h.onPriv v f).setPrivQueueCap v) ∧
    (CapsOk ((h.onPriv v f).setPrivQueueCap v).caps ↔
      LeavesRoom (h.caps (1 - i)) ∧ (hasJoined (h.caps (1 - i)) = true → (f (h.priv v)).joined = true)) := by
  have hi := hI.lt hv
  have hcaps : ((h.onPriv v f).setPrivQueueCap v).caps = atbmSetPrivQueueCap i (h.onPriv v f).caps :=
    caps_setPrivQueueCap (h := h.onPriv v f) hI.listed hv
  have hself : (h.onPriv v f).caps i = some ⟨(h.priv v).queueCap, (f (h.priv v)).joined⟩ := by
    rw [caps_onPriv hI.listed hv f, Function.update_self, hf.2.2.2]
  have hother : (h.onPriv v f).caps (1 - i) = h.caps (1 - i) := by
    have : maxVifs = 2 := rfl
    rw [caps_onPriv hI.listed hv f, Function.update_of_ne (by omega)]
  obtain ⟨h1, h2⟩ := setPriv_pair hi hself
  rw [hother] at h1 h2
  have hs := hf.sameSlots.trans (sameSlots_setPrivQueueCap v (h.onPriv v f))
  have hsmall : ∀ j, maxVifs ≤ j → ((h.onPriv v f).setPrivQueueCap v).vifList j = none := by
    intro j hj
    rw [hs.vifList]
    exact hI.small j hj
  refine ⟨hI.keep hs (idle_onPriv hI hv (joined_setPrivQueueCap v · _)) (bound_pair hsmall hi ?_ ?_), ?_⟩
  · rw [hcaps, h1]
    show (if hasJoined (h.caps (1 - i)) then atbmQueueCombCap else atbmQueueSingleCap) ≤ _
    split <;> decide
  · rw [hcaps, h2]
    exact capOf_map_le (by decide) (hI.bound (1 - i))
  · rw [capsOk_iff hi, hcaps, h1, h2]
    exact pairOk_raise ⟨_, _⟩ _

theorem lower_caps (hI : CapInv h) (hv : h.vifList i = some v) (hcap : (f (h.priv v)).queueCap = (h.priv v).queueCap)
    (hleft : (f (h.priv v)).joined = false) :
    ((h.onPriv v f).clearPrivQueueCap v).caps i = some ⟨atbmQueueDefaultCap, false⟩ ∧
    (∀ x, hasJoined x = false → capOf x ≤ atbmQueueDefaultCap →
      PairOk x (((h.onPriv v f).clearPrivQueueCap v).caps (1 - i))) ∧
    ∀ j, capOf (((h.onPriv v f).clearPrivQueueCap v).caps j) ≤ atbmQueueSingleCap := by
  have hi := hI.lt hv
  have hcaps : ((h.onPriv v f).clearPrivQueueCap v).caps = atbmClearPrivQueueCap i (h.onPriv v f).caps :=
    caps_clearPrivQueueCap (h := h.onPriv v f) hI.listed hv
  have hself : (h.onPriv v f).caps i = some ⟨(h.priv v).queueCap, false⟩ := by
    rw [caps_onPriv hI.listed hv f, Function.update_self, hcap, hleft]
  have hother : (h.onPriv v f).caps (1 - i) = h.caps (1 - i) := by
    have : maxVifs = 2 := rfl
    rw [caps_onPriv hI.listed hv f, Function.update_of_ne (by omega)]
  obtain ⟨h1, h2⟩ := clearPriv_pair hi hself
  rw [hother] at h2
  have hsmall : ∀ j, maxVifs ≤ j → ((h.onPriv v f).clearPrivQueueCap v).vifList j = none := by
    intro j hj
    rw [(sameSlots_clearPrivQueueCap v _).vifList]
    exact hI.small j hj
  refine ⟨by rw [hcaps, h1], fun x hx hcap => ?_, bound_pair hsmall hi ?_ ?_⟩
  · rw [hcaps, h2]
    exact pairOk_lower hx hcap (hI.bound (1 - i))
  · rw [hcaps, h1]
    show atbmQueueDefaultCap ≤ _
    decide
  · rw [hcaps, h2]
    exact capOf_map_le (Nat.le_refl _) (hI.bound (1 - i))

theorem joinStatus_doUnjoin (term : Bool) (bssid : Mac) (resetOk : Bool) (j : JoinVif) :
    (atbmDoUnjoin term bssid resetOk j).1.joinStatus =
      if unjoins term bssid j then .passive else j.joinStatus := by
  unfold atbmDoUnjoin unjoins
  split
  · next ht => simp [ht]
  next ht =>
  split
  · next hlt =>
    have hne : j.joinStatus ≠ .sta := by
      rintro heq
      rw [heq] at hlt
      omega
    simp [hne]
  split
  · next hne => simp [hne]
  next hst =>
  split
  · next hb => simp [hb]
  · next hb =>
    have hu : (unjoinReset resetOk j).joinStatus = .passive := (unjoinReset_fields resetOk j).2.2.1
    simp only [Decidable.not_not] at hst hb
    simp [ht, hst, hb, hu]

theorem joinStatus_doJoin (bss : Bss) (term joinOk resetOk : Bool) (j : JoinVif) :
    (atbmDoJoin bss term joinOk resetOk j).1.joinStatus = if joins bss joinOk j then .sta else j.joinStatus := by
  have hfin : ∀ s : JoinVif, (joinFinish bss joinOk (joinPrepare bss s)).1.joinStatus =
      if joinOk then .sta else s.joinStatus := by
    intro s
    cases joinOk with
    | true => exact (joinFinish_true bss _).2.2.2.1
    | false =>
      have := (joinFinish_false bss (joinPrepare bss s)).2.2.2.1
      rw [this, (joinPrepare_fields bss s).2.2.1]
      rfl
  simp only [atbmDoJoin]
  split
  · next he => simp [joins, he]
  next he =>
  have hen : j.enabled = true := by simpa using he
  split
  · next hin => simp [joins, hin.1, hin.2]
  next hnot =>
  -- the unjoin of another BSS is refused
  have hinner : (if j.joinStatus = .sta then (atbmDoUnjoin term bss.bssid resetOk j).1 else j).joinStatus =
      j.joinStatus := by
    split
    · next hst =>
      have hb : bss.bssid ≠ j.joinBssid := fun hb => hnot ⟨hst, hb⟩
      rw [joinStatus_doUnjoin]
      simp [unjoins, hb]
    · rfl
  have hj : joins bss joinOk j = joinOk := by
    have : (j.joinStatus == .sta && bss.bssid == j.joinBssid) = false := by
      rw [Bool.eq_false_iff]
      intro h
      rw [Bool.and_eq_true, beq_iff_eq, beq_iff_eq] at h
      exact hnot h
    simp [joins, hen, this]
  rw [hfin, hinner, hj]

theorem joined_of_status {p q : AtbmPriv} (h : p.join.joinStatus = q.join.joinStatus) : p.joined = q.joined := by
  unfold AtbmPriv.joined
  rw [h]

theorem same_onPriv (hI : CapInv h) (hf : h.KeepsSlot v f)
    (hj : (f (h.priv v)).joined = (h.priv v).joined) : CapInv (h.onPriv v f) ∧ (h.onPriv v f).caps = h.caps := by
  apply hI.same hf.sameSlots
  intro w
  rw [priv_onPriv]
  split
  · next hw =>
    subst hw
    exact ⟨hf.2.2.2, hj⟩
  · exact ⟨rfl, rfl⟩

/-- The slot beside that of `v`. -/
def otherCap (v : V) (h : HwPriv V) : Option VifCap := h.caps (1 - (h.priv v).ifId)

theorem doJoin_iff (hI : CapInv h) (hP : CapsOk h.caps) (v : V) (bss : Bss) (term joinOk resetOk : Bool) :
    CapInv (h.doJoin v bss term joinOk resetOk) ∧ (CapsOk (h.doJoin v bss term joinOk resetOk).caps ↔
      (joins bss joinOk (h.priv v).join = true → LeavesRoom (h.otherCap v))) := by
  have hf : h.KeepsSlot v fun p => { p with join := (atbmDoJoin bss term joinOk resetOk (h.priv v).join).1 } :=
    ⟨enabled_doJoin bss term joinOk resetOk _, rfl, rfl, rfl⟩
  have hst := joinStatus_doJoin bss term joinOk resetOk (h.priv v).join
  simp only [doJoin]
  cases hj : joins bss joinOk (h.priv v).join with
  | true =>
    rw [hj, if_pos rfl] at hst
    have hup : h.up v := by
      simp only [joins, Bool.and_eq_true] at hj
      exact hj.1.1
    obtain ⟨h1, h2⟩ := raise_iff hI (hI.own v hup) hf
    have hjoined : AtbmPriv.joined { h.priv v with
        join := (atbmDoJoin bss term joinOk resetOk (h.priv v).join).1 } = true := by
      unfold AtbmPriv.joined
      rw [hst]
      rfl
    exact ⟨h1, h2.trans ⟨fun h _ => h.1, fun h => ⟨h rfl, fun _ => hjoined⟩⟩⟩
  | false =>
    rw [hj, if_neg (by decide)] at hst
    obtain ⟨h1, h2⟩ := same_onPriv hI hf (joined_of_status hst)
    refine ⟨h1, ?_⟩
    rw [if_neg (by decide), h2]
    exact iff_of_true hP fun hno => by cases hno

theorem doUnjoin_caps (hI : CapInv h) (hP : CapsOk h.caps) (v : V) (bssid : Mac) (term resetOk : Bool) :
    CapInv (h.doUnjoin v bssid term resetOk) ∧ CapsOk (h.doUnjoin v bssid term resetOk).caps := by
  have hf : ∀ c : AtbmPriv → Nat, h.KeepsSlot v fun p => { p with
      join := (atbmDoUnjoin term bssid resetOk (h.priv v).join).1, cipherType := c p } :=
    fun c => ⟨enabled_doUnjoin term bssid resetOk _, rfl, rfl, rfl⟩
  have hst := joinStatus_doUnjoin term bssid resetOk (h.priv v).join
  simp only [doUnjoin]
  cases hu : unjoins term bssid (h.priv v).join with
  | true =>
    rw [hu, if_pos rfl] at hst
    have hjoined : (h.priv v).joined = true := by
      simp only [unjoins, Bool.and_eq_true, beq_iff_eq] at hu
      unfold AtbmPriv.joined
      rw [hu.1.2]
      rfl
    obtain ⟨i, hv⟩ := hI.idle v hjoined
    have hs := (hf fun _ => 0).sameSlots.trans (sameSlots_clearPrivQueueCap v _)
    obtain ⟨h2, h3, h4⟩ := lower_caps hI hv (f := fun p => { p with
      join := (atbmDoUnjoin term bssid resetOk (h.priv v).join).1, cipherType := 0 }) rfl
      (by unfold AtbmPriv.joined; rw [hst]; rfl)
    refine ⟨hI.keep hs (idle_onPriv hI hv (joined_clearPrivQueueCap v · _)) h4, (capsOk_iff (hI.lt hv)).mpr ?_⟩
    have hpair := h3 (some ⟨atbmQueueDefaultCap, false⟩) rfl (Nat.le_refl _)
    rw [← h2] at hpair
    exact hpair
  | false =>
    rw [hu, if_neg (by decide)] at hst
    obtain ⟨h1, h2⟩ := same_onPriv hI (hf fun p => p.cipherType) (joined_of_status hst)
    exact ⟨h1, h2 ▸ hP⟩

/-- What an AP that restarts needs of the other interface. -/
def StartFits (conf : Beaconing) (b : Option VifCap) : Prop :=
  if conf.skb then LeavesRoom b ∧ (hasJoined b = true → conf.started = true) else AloneOk b none

theorem updateBeaconing_iff (hI : CapInv h) (hP : CapsOk h.caps) (v : V) (term : Bool)
    (conf : Beaconing) (dtimPeriod : Nat) :
    CapInv (h.updateBeaconing v term conf dtimPeriod) ∧
    (CapsOk (h.updateBeaconing v term conf dtimPeriod).caps ↔
      (term = false → h.up v → h.restarts v conf = true → StartFits conf (h.otherCap v))) := by
  unfold updateBeaconing
  split
  · next ht => exact ⟨hI, iff_of_true hP fun hno => absurd ht (by simp [hno])⟩
  next ht =>
  split
  · next hen => exact ⟨hI, iff_of_true hP fun _ hup => absurd hup (by simp [up, hen])⟩
  next hen =>
  split
  case isFalse hr => exact ⟨hI, iff_of_true hP fun _ _ h1 => absurd h1 hr⟩
  next hr =>
  have hup : h.up v := by
    unfold up
    simpa using hen
  have hterm : term = false := by simpa using ht
  have hv := hI.own v hup
  unfold startAp StartFits
  cases conf.skb with
  | true =>
    rw [if_pos rfl, if_pos rfl, onPriv_onPriv]
    obtain ⟨h1, h2⟩ := raise_iff hI hv (f := fun p => { p with join := { p.join with
      joinStatus := if conf.started then .ap else .passive
      beaconInt := conf.beaconInt
      joinDtimPeriod := dtimPeriod } }) ⟨rfl, rfl, rfl, rfl⟩
    have hjoined : AtbmPriv.joined { h.priv v with join := { (h.priv v).join with
        joinStatus := if conf.started then .ap else .passive
        beaconInt := conf.beaconInt
        joinDtimPeriod := dtimPeriod } } = conf.started := by
      unfold AtbmPriv.joined
      cases conf.started <;> rfl
    rw [hjoined] at h2
    exact ⟨h1, h2.trans ⟨fun h _ _ _ => h, fun h => h hterm hup hr⟩⟩
  | false =>
    rw [if_neg (by decide), if_neg (by decide)]
    have hf : h.KeepsSlot v fun p => { p with join := { p.join with joinStatus := .passive } } :=
      ⟨rfl, rfl, rfl, rfl⟩
    have hi := hI.lt hv
    have hcaps := caps_onPriv hI.listed hv fun p => { p with join := { p.join with joinStatus := .passive } }
    have hself := caps_of_listed hv
    have hsum := ((capsOk_iff hi).mp hP).sum
    rw [hself] at hsum
    constructor
    · refine hI.keep hf.sameSlots (idle_onPriv hI hv fun _ => rfl) fun j => ?_
      rw [hcaps]
      by_cases hj : j = (h.priv v).ifId
      · have := hI.bound (h.priv v).ifId
        rw [hself] at this
        rw [hj, Function.update_self]
        exact this
      · rw [Function.update_of_ne hj]
        exact hI.bound j
    · have hne : 1 - (h.priv v).ifId ≠ (h.priv v).ifId := by omega
      have hset := pairOk_set (x := ⟨(h.priv v).queueCap, false⟩) hsum
      rw [capsOk_iff hi, hcaps, Function.update_self, Function.update_of_ne hne]
      exact hset.trans ⟨fun h _ _ _ => h.2 rfl, fun h => ⟨fun hno => (by cases hno), fun _ => h hterm hup hr⟩⟩

theorem caps_gone {g : HwPriv V} (hinj : g.Listed) (hv : g.vifList i = some v) :
    ((g.unregister i).onPriv v fun _ => .zero).caps = Function.update g.caps i none := by
  obtain ⟨-, -, hlist, hvif⟩ := unregister_fields i g
  funext j
  show ((g.unregister i).vifList j).map (fun w => (⟨(((g.unregister i).onPriv v fun _ => .zero).priv w).queueCap,
    (((g.unregister i).onPriv v fun _ => .zero).priv w).joined⟩ : VifCap)) = _
  rw [hlist]
  by_cases hj : j = i
  · subst hj
    rw [Function.update_self, Function.update_self]
    rfl
  · rw [Function.update_of_ne hj, Function.update_of_ne hj]
    unfold caps
    cases hw : g.vifList j with
    | none => rfl
    | some w =>
      have hne : w ≠ v := by
        rintro rfl
        exact hj (hinj _ _ _ hw hv)
      rw [Option.map_some, Option.map_some, priv_onPriv, if_neg hne]
      unfold priv
      rw [hvif]

theorem remove_caps (hI : CapInv h) (hP : CapsOk h.caps) (v : V) :
    CapInv (h.atbmRemoveInterface v) ∧ CapsOk (h.atbmRemoveInterface v).caps := by
  cases hr : h.removes v with
  | false =>
    have hsame : h.atbmRemoveInterface v = h := by
      simp [atbmRemoveInterface, hr]
    rw [hsame]
    exact ⟨hI, hP⟩
  | true =>
    obtain ⟨-, -, hlist, hzero, hother⟩ := remove_fields hr
    have hup : h.up v := by
      unfold removes at hr
      exact (Bool.and_eq_true_iff.mp hr).1
    have hv := hI.own v hup
    have hi := hI.lt hv
    have hlist' : ((h.shutDown v).clearPrivQueueCap v).vifList = h.vifList :=
      (sameSlots_clearPrivQueueCap v (h.shutDown v)).vifList
    obtain ⟨-, h3, h4⟩ := lower_caps hI hv (f := fun p => { p with
      join := { p.join with enabled := false, joinStatus := .passive } }) rfl rfl
    have hcaps : (h.atbmRemoveInterface v).caps =
        Function.update ((h.shutDown v).clearPrivQueueCap v).caps (h.priv v).ifId none := by
      rw [← caps_gone (v := v) (by intro i j w; rw [hlist']; exact hI.listed i j w) (by rw [hlist']; exact hv)]
      unfold atbmRemoveInterface
      rw [if_pos hr]
    have hne : 1 - (h.priv v).ifId ≠ (h.priv v).ifId := by omega
    constructor
    · constructor
      · intro i j w hw hw'
        rw [hlist] at hw hw'
        have hin : ∀ k, Function.update h.vifList (h.priv v).ifId none k = some w → h.vifList k = some w := by
          intro k hk
          rw [Function.update_apply] at hk
          split at hk
          · cases hk
          · exact hk
        exact hI.listed i j w (hin i hw) (hin j hw')
      · intro j hj
        rw [hlist, Function.update_of_ne (by omega)]
        exact hI.small j hj
      · intro w hw
        have hwv : w ≠ v := by
          rintro rfl
          unfold up at hw
          rw [hzero] at hw
          cases hw
        obtain ⟨hjoin, -, hid, -⟩ := hother w hwv
        unfold up at hw
        rw [hjoin] at hw
        have hlw := hI.own w hw
        rw [hid, hlist, Function.update_of_ne]
        · exact hlw
        · intro heq
          rw [heq, hv] at hlw
          exact hwv (Option.some.inj hlw).symm
      · intro w hw
        have hwv : w ≠ v := by
          rintro rfl
          rw [hzero] at hw
          cases hw
        obtain ⟨hjoin, -, -, -⟩ := hother w hwv
        rw [joined_of_status (congrArg JoinVif.joinStatus hjoin)] at hw
        obtain ⟨k, hk⟩ := hI.idle w hw
        refine ⟨k, ?_⟩
        rw [hlist, Function.update_of_ne]
        · exact hk
        · rintro rfl
          rw [hv] at hk
          exact hwv (Option.some.inj hk).symm
      · intro j
        rw [hcaps]
        by_cases hj : j = (h.priv v).ifId
        · rw [hj, Function.update_self]
          exact Nat.zero_le _
        · rw [Function.update_of_ne hj]
          exact h4 j
    · rw [capsOk_iff hi, hcaps, Function.update_self, Function.update_of_ne hne]
      exact h3 none rfl (Nat.zero_le _)

theorem retyped_caps (v : V) (type : IfType) (p2p : Bool) (hI : CapInv h) (hP : CapsOk h.caps) :
    CapInv (h.retyped v type p2p) ∧ CapsOk (h.retyped v type p2p).caps := by
  obtain ⟨h1, h2⟩ := hI.same (h.sameSlots_retyped v type p2p) fun w => by rw [priv_retyped]; exact ⟨rfl, rfl⟩
  exact ⟨h1, h2 ▸ hP⟩

/-- mac80211's two interfaces have different addresses: nobody else has the slot, nor `v` another. -/
def AddsOwn (e : AddEnv) (v : V) (h : HwPriv V) : Prop :=
  ∀ i ∈ h.slotOf e.addr, ∀ j, j < maxVifs → ∀ w ∈ h.vifList j, (w = v ↔ j = i)

/-- `NewFits` of the interface that gets to a slot. -/
def AddCapFits (e : AddEnv) (v : V) (h : HwPriv V) : Prop :=
  h.numVifs < (maxVifs : Int) → e.term = false →
    ∀ i ∈ h.slotOf e.addr, NewFits (h.vif v).type (h.caps (1 - i))

theorem caps_register (i : Nat) (e : AddEnv) (v : V) (h : HwPriv V)
    (hown : ∀ j w, h.vifList j = some w → (w = v ↔ j = i)) :
    ((h.register i v).setUp e v).caps = Function.update h.caps i
      (some ⟨atbmQueueDefaultCap, decide ((h.vif v).type = IfType.monitor)⟩) := by
  funext j
  show (Function.update h.vifList i (some v) j).map (fun w =>
    (⟨(((h.register i v).setUp e v).priv w).queueCap, (((h.register i v).setUp e v).priv w).joined⟩ : VifCap)) = _
  by_cases hj : j = i
  · subst hj
    rw [Function.update_self, Function.update_self, Option.map_some]
    by_cases hm : (h.vif v).type = IfType.monitor
    · simp [register, setUp, onPriv, priv, AtbmPriv.joined, hm, JoinStatus.toNat]
    · simp [register, setUp, onPriv, priv, AtbmPriv.joined, hm, JoinStatus.toNat]
  · rw [Function.update_of_ne hj, Function.update_of_ne hj]
    unfold caps
    cases hw : h.vifList j with
    | none => rfl
    | some w =>
      have hne : w ≠ v := fun hwv => hj ((hown j w hw).mp hwv)
      rw [Option.map_some, Option.map_some]
      unfold priv
      rw [register_vif i e v h hne]

theorem disabled_caps (v : V) (hI : CapInv h) : CapInv (h.disabled v) ∧ (h.disabled v).caps = h.caps := by
  have hdis : ∀ w, ((h.disabled v).priv w).queueCap = (h.priv w).queueCap ∧
      ((h.disabled v).priv w).joined = (h.priv w).joined ∧ ((h.disabled v).priv w).ifId = (h.priv w).ifId := by
    intro w
    unfold disabled
    rw [priv_onPriv]
    split
    · next hw =>
      subst hw
      exact ⟨rfl, rfl, rfl⟩
    · exact ⟨rfl, rfl, rfl⟩
  have hcaps : (h.disabled v).caps = h.caps := by
    funext j
    show (h.vifList j).map (fun w =>
      (⟨((h.disabled v).priv w).queueCap, ((h.disabled v).priv w).joined⟩ : VifCap)) = _
    unfold caps
    cases h.vifList j with
    | none => rfl
    | some w => rw [Option.map_some, Option.map_some, (hdis w).1, (hdis w).2.1]
  refine ⟨⟨hI.listed, hI.small, fun w hw => ?_, fun w hw => ?_, ?_⟩, hcaps⟩
  · have hne : w ≠ v := by
      rintro rfl
      exact not_up_disabled w h hw
    unfold up priv at hw
    rw [disabled_vif v h hne] at hw
    rw [(hdis w).2.2]
    exact hI.own w hw
  · rw [(hdis w).2.1] at hw
    exact hI.idle w hw
  · rw [hcaps]
    exact hI.bound

omit [DecidableEq V] in
theorem listed_register {j : Nat} {w : V} (hown : ∀ j w, h.vifList j = some w → (w = v ↔ j = i)) :
    Function.update h.vifList i (some v) j = some w ↔
      (w = v ∧ j = i) ∨ (w ≠ v ∧ j ≠ i ∧ h.vifList j = some w) := by
  by_cases hj : j = i
  · subst hj
    rw [Function.update_self]
    constructor
    · intro hw
      exact .inl ⟨(Option.some.inj hw).symm, rfl⟩
    · rintro (⟨rfl, -⟩ | ⟨-, hno, -⟩)
      · rfl
      · exact absurd rfl hno
  · rw [Function.update_of_ne hj]
    constructor
    · intro hw
      exact .inr ⟨fun hwv => hj ((hown j w hw).mp hwv), hj, hw⟩
    · rintro (⟨-, hno⟩ | ⟨-, -, hw⟩)
      · exact absurd hno hj
      · exact hw

theorem register_capInv (hi : i < maxVifs) (e : AddEnv) (v : V) (hI : CapInv h)
    (hown : ∀ j w, h.vifList j = some w → (w = v ↔ j = i)) : CapInv ((h.register i v).setUp e v) := by
  have hlist : ((h.register i v).setUp e v).vifList = Function.update h.vifList i (some v) := rfl
  have hkept : ∀ j w, w ≠ v → h.vifList j = some w → Function.update h.vifList i (some v) j = some w :=
    fun j w hwv hw => (listed_register hown).mpr (.inr ⟨hwv, fun hj => hwv ((hown j w hw).mpr hj), hw⟩)
  constructor
  · intro j k w hw hw'
    rw [hlist, listed_register hown] at hw hw'
    rcases hw with ⟨hwv, hj⟩ | ⟨hwv, -, hw⟩
    · rcases hw' with ⟨-, hk⟩ | ⟨hno, -, -⟩
      · rw [hj, hk]
      · exact absurd hwv hno
    · rcases hw' with ⟨hno, -⟩ | ⟨-, -, hw'⟩
      · exact absurd hno hwv
      · exact hI.listed j k w hw hw'
  · intro j hj
    rw [hlist, Function.update_of_ne (by omega)]
    exact hI.small j hj
  · intro w hw
    rw [hlist]
    by_cases hwv : w = v
    · subst hwv
      rw [(register_own i e w h).2.2.1, Function.update_self]
    · unfold up priv at hw
      rw [register_vif i e v _ hwv] at hw
      unfold priv
      rw [register_vif i e v _ hwv]
      exact hkept _ w hwv (hI.own w hw)
  · intro w hw
    rw [hlist]
    by_cases hwv : w = v
    · exact ⟨i, hwv ▸ Function.update_self ..⟩
    · unfold priv at hw
      rw [register_vif i e v _ hwv] at hw
      obtain ⟨k, hk⟩ := hI.idle w hw
      exact ⟨k, hkept k w hwv hk⟩
  · intro j
    rw [caps_register i e v h hown]
    by_cases hj : j = i
    · rw [hj, Function.update_self]
      show atbmQueueDefaultCap ≤ _
      decide
    · rw [Function.update_of_ne hj]
      exact hI.bound j

theorem add_iff (e : AddEnv) (v : V) (hI : CapInv h) (hP : CapsOk h.caps) (hown : h.AddsOwn e v) :
    CapInv (h.atbmAddInterface e v).1 ∧ (CapsOk (h.atbmAddInterface e v).1.caps ↔ h.AddCapFits e v) := by
  obtain ⟨hI1, hcaps⟩ := disabled_caps v hI
  unfold AddCapFits
  rcases atbmAddInterface_cases e v h with ⟨heq, hno⟩ | ⟨heq, hnone⟩ | ⟨i, hlt, hterm, hslot, heq⟩
  · rw [heq]
    exact ⟨hI, iff_of_true hP fun h1 h2 => absurd ⟨h1, h2⟩ hno⟩
  · rw [heq, hnone]
    refine ⟨hI1, ?_⟩
    rw [hcaps]
    exact iff_of_true hP fun _ _ i hi => by cases hi
  · have hi := slotOf_lt hslot
    have hown' : ∀ j w, h.vifList j = some w → (w = v ↔ j = i) :=
      fun j w hw => hown i hslot j (hI.lt hw) w hw
    have htype : ((h.disabled v).vif v).type = (h.vif v).type := by
      simp [disabled, onPriv]
    have hne : 1 - i ≠ i := by omega
    have hmem : (∀ k ∈ h.slotOf e.addr, NewFits (h.vif v).type (h.caps (1 - k))) ↔
        NewFits (h.vif v).type (h.caps (1 - i)) := by
      rw [hslot]
      exact ⟨fun h => h i rfl, fun h k hk => by cases hk; exact h⟩
    rw [heq, hmem]
    refine ⟨register_capInv hi e v hI1 hown', ?_⟩
    rw [capsOk_iff hi, caps_register i e v (h.disabled v) hown', hcaps, htype, Function.update_self,
      Function.update_of_ne hne, pairOk_new _ (hI.bound (1 - i))]
    exact ⟨fun h _ _ => h, fun h => h hlt hterm⟩

end HwPriv

def IfaceAct.ownSlot (h : HwPriv V) : IfaceAct V → Prop
  | .add v e => h.AddsOwn e v
  | .change v type p2p e =>
    h.changes v type p2p = true → ((h.atbmRemoveInterface v).retyped v type p2p).AddsOwn e v
  | _ => True

def CapFits (h : HwPriv V) : IfaceAct V → Prop
  | .add v e => h.AddCapFits e v
  | .change v type p2p e =>
    h.changes v type p2p = true → ((h.atbmRemoveInterface v).retyped v type p2p).AddCapFits e v
  | .remove _ | .unjoin .. => True
  | .join v bss _ joinOk _ => HwPriv.joins bss joinOk (h.priv v).join = true → LeavesRoom (h.otherCap v)
  | .beaconing v term conf _ =>
    term = false → h.up v → h.restarts v conf = true → HwPriv.StartFits conf (h.otherCap v)

section
instance decAloneOk (a b : Option VifCap) : Decidable (AloneOk a b) := inferInstanceAs (Decidable (_ → _ → _))

instance decLeavesRoom (b : Option VifCap) : Decidable (LeavesRoom b) := inferInstanceAs (Decidable (_ ∨ _))

instance decNewFits (type : IfType) (b : Option VifCap) : Decidable (NewFits type b) :=
  inferInstanceAs (Decidable (if type = IfType.monitor then hasJoined b = true else AloneOk b none))

instance decStartFits (conf : Beaconing) (b : Option VifCap) : Decidable (HwPriv.StartFits conf b) :=
  inferInstanceAs (Decidable
    (if conf.skb then LeavesRoom b ∧ (hasJoined b = true → conf.started = true) else AloneOk b none))

instance decAddCapFits (e : AddEnv) (v : V) (h : HwPriv V) : Decidable (h.AddCapFits e v) :=
  inferInstanceAs (Decidable (_ → _ → ∀ i ∈ _, _))

instance decAddsOwn (e : AddEnv) (v : V) (h : HwPriv V) : Decidable (h.AddsOwn e v) :=
  inferInstanceAs (Decidable (∀ i ∈ _, ∀ j, j < _ → ∀ w ∈ _, _))

instance decUp (h : HwPriv V) (v : V) : Decidable (h.up v) := inferInstanceAs (Decidable (_ = true))

instance decOwnSlot (h : HwPriv V) : (a : IfaceAct V) → Decidable (a.ownSlot h)
  | .add v e => decAddsOwn e v h
  | .change v _ _ e => inferInstanceAs (Decidable (_ → HwPriv.AddsOwn e v _))
  | .remove _ | .join .. | .unjoin .. | .beaconing .. => inferInstanceAs (Decidable True)

instance decCapFits (h : HwPriv V) : (a : IfaceAct V) → Decidable (CapFits h a)
  | .add v e => decAddCapFits e v h
  | .change v _ _ e => inferInstanceAs (Decidable (_ → HwPriv.AddCapFits e v _))
  | .join .. => inferInstanceAs (Decidable (_ → LeavesRoom _))
  | .beaconing .. => inferInstanceAs (Decidable (_ → _ → _ → HwPriv.StartFits _ _))
  | .remove _ | .unjoin .. => inferInstanceAs (Decidable True)
end

def twoIfaces (V : Type) [DecidableEq V] : Sys (HwPriv V) (IfaceAct V) :=
  .ofNext HwPriv.Start IfaceAct.ownSlot IfaceAct.next

theorem caps_step {h h' : HwPriv V} {a : IfaceAct V} (hI : CapInv h) (hP : CapsOk h.caps)
    (hst : (twoIfaces V).step h a h') : CapInv h' ∧ (CapsOk h'.caps ↔ CapFits h a) := by
  obtain ⟨hown, rfl⟩ := hst
  cases a with
  | add v e => exact HwPriv.add_iff e v hI hP hown
  | change v type p2p e =>
    show CapInv (h.atbmChangeInterface e v type p2p).1 ∧ (CapsOk (h.atbmChangeInterface e v type p2p).1.caps ↔ _)
    simp only [HwPriv.atbmChangeInterface]
    split
    · next hch =>
      obtain ⟨hI1, hP1⟩ := HwPriv.remove_caps hI hP v
      obtain ⟨hI2, hP2⟩ := HwPriv.retyped_caps v type p2p hI1 hP1
      obtain ⟨h1, h2⟩ := HwPriv.add_iff e v hI2 hP2 (hown hch)
      exact ⟨h1, h2.trans ⟨fun h _ => h, fun h => h hch⟩⟩
    · next hch => exact ⟨hI, iff_of_true hP fun h1 => absurd h1 hch⟩
  | remove v =>
    obtain ⟨h1, h2⟩ := HwPriv.remove_caps hI hP v
    exact ⟨h1, iff_of_true h2 trivial⟩
  | join v bss term joinOk resetOk => exact HwPriv.doJoin_iff hI hP v bss term joinOk resetOk
  | unjoin v bssid term resetOk =>
    obtain ⟨h1, h2⟩ := HwPriv.doUnjoin_caps hI hP v bssid term resetOk
    exact ⟨h1, iff_of_true h2 trivial⟩
  | beaconing v term conf dtimPeriod => exact HwPriv.updateBeaconing_iff hI hP v term conf dtimPeriod

/-- **The pool is never promised twice** -/
theorem capacities_shared {s t : HwPriv V} {l : List (HwPriv V × IfaceAct V)} (h : Path (twoIfaces V) s l t)
    (hs : s.Start) : ((∀ p ∈ l, CapsOk p.1.caps) ∧ CapsOk t.caps) ↔ ∀ p ∈ l, CapFits p.1 p.2 :=
  h.exact (P := fun s => CapsOk s.caps)
    (fun _ _ _ hI hP hst hC => ⟨(caps_step hI hP hst).1, (caps_step hI hP hst).2.mpr hC⟩)
    (fun _ _ _ hI hP hst hPt => (caps_step hI hP hst).2.mp hPt) (capInv_start hs) (capsOk_start hs)

end

/-- An AP and a station come up one after the other, the AP restarts, and the station leaves. -/
def sharedRun : List (IfaceAct Bool) :=
  [.add false (sampleAdd 2 true), .beaconing false false ⟨100, true, true⟩ 1,
    .change true .station true (sampleAdd 3 true), .join true (sampleBss 1) false true true,
    .beaconing false false ⟨200, true, true⟩ 1, .unjoin true 1 false true]

theorem capacities_shared_two : CapsOk (sharedRun.foldl IfaceAct.next (sampleHw .ap)).caps :=
  have h : Fires IfaceAct.ownSlot IfaceAct.next (sampleHw .ap) sharedRun := by decide +kernel
  ((capacities_shared (Path.ofFires h) (sampleHw_start .ap)).mpr (by decide +kernel)).2

/-- An AP that could not be started keeps 224 while the other interface joins and gets 224 too. -/
theorem capacities_exceeded : ∃ s, Reach (twoIfaces Bool) s ∧
    ((List.range maxVifs).map fun i => capOf (s.caps i)).sum = 448 :=
  ⟨_, Reach.fires (.init (sampleHw_start .ap))
    (l := [.add false (sampleAdd 2 true), .add true (sampleAdd 3 true), .beaconing false false ⟨100, true, false⟩ 1,
      .join true (sampleBss 1) false true true]) (by decide +kernel), by decide +kernel⟩

end AtbmWifi
