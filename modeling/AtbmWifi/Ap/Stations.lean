import AtbmWifi.Ap.Model

/-!
# The station set of an AP interface

`link_id_map`, the status in `link_id_db`, `sta_asleep_mask` and `pspoll_mask` are
four records of the stations that mac80211 has added.  `stas` is mac80211's side:
it adds an aid that is not there and removes one that is.  `skipped` is history, the
aids removed while the bus was terminated, when `atbm_sta_remove` does nothing.

* `StationsOk`: the records agree, no `BUG_ON` was met, and each `atbm_sta_add` that
  failed left everything as it was.
* `stations_agree`: along every run, `StationsOk` holds in every state exactly when
  no link is refused by the firmware, the AP restarts only without stations, a link
  the firmware suspends is known, and no removal was skipped before the aid is added
  again.
* `linkKnown_iff`: then `wsm_handle_tx_data` drops exactly the frames of links that are off.
-/

namespace AtbmWifi

open Transition Mask

structure StaState where
  vif : AtbmVif
  stas : List Nat
  skipped : List Nat
  bug : Bool
  /-- before and after each `atbm_sta_add` that failed -/
  failed : List (AtbmVif × AtbmVif)

inductive StaAct
  | add (aid jiffies : Nat) (term mapped : Bool)
  | remove (aid : Nat) (term : Bool)
  | notify (cmd : StaNotifyCmd) (aid : Nat) (alive : Bool)
  | suspendResume (arg : WsmSuspendResume)
  | pspoll (aid : Nat)
  | txAuth (rawLinkId : Nat)
  | beaconing (conf : Beaconing)
  deriving DecidableEq, Repr

def StaAct.enabled (s : StaState) : StaAct → Prop
  | .add aid _ _ _ => s.bug = false ∧ aid ∉ s.stas
  | .remove aid _ => s.bug = false ∧ aid ∈ s.stas
  | .notify _ aid _ => s.bug = false ∧ aid ∈ s.stas
  | .pspoll aid => s.bug = false ∧ aid ∈ s.stas
  | .suspendResume _ => s.bug = false
  | .txAuth _ => s.bug = false
  | .beaconing _ => s.bug = false

instance decStaEnabled (s : StaState) (a : StaAct) : Decidable (a.enabled s) := by
  cases a <;> unfold StaAct.enabled <;> infer_instance

/-- mac80211 on the return of `atbm_sta_add`. -/
def afterAdd (aid : Nat) (s : StaState) : AtbmVif × AddRet → StaState
  | (v, .ok) => { s with vif := v, stas := aid :: s.stas }
  | (v, .noEnt) => { s with vif := v, failed := (s.vif, v) :: s.failed }
  | (v, .bug) => { s with vif := v, bug := true }

def StaAct.next (caps : WsmCaps) (s : StaState) : StaAct → StaState
  | .add aid jiffies term mapped => afterAdd aid s (atbmStaAdd caps aid jiffies term mapped s.vif)
  | .remove aid term =>
    { s with
      vif := atbmStaRemove aid term s.vif
      stas := s.stas.erase aid
      skipped := if term then aid :: s.skipped else s.skipped }
  | .notify cmd aid alive => { s with vif := atbmStaNotify cmd aid alive s.vif }
  | .suspendResume arg => { s with vif := (atbmSuspendResume arg s.vif).1 }
  | .pspoll aid => { s with vif := atbmHandlePspoll aid s.vif }
  | .txAuth rawLinkId => { s with vif := atbmTxHPm true rawLinkId s.vif }
  | .beaconing conf => { s with vif := atbmUpdateBeaconing conf s.vif }

def staStart : StaState := ⟨.init, [], [], false, []⟩

def stations (caps : WsmCaps) : Sys StaState StaAct :=
  .ofNext (fun s => s = staStart) (fun s a => a.enabled s) (StaAct.next caps)

structure StationsOk (s : StaState) : Prop where
  map : ∀ l, 0 < l → l ≤ maxStaInApMode →
    (s.vif.linkIdMap.getLsbD l = true ↔ (s.vif.linkIdDb (l - 1)).status = .hard)
  asleep : Sub s.vif.staAsleepMask s.vif.linkIdMap
  pspoll : Sub s.vif.pspollMask s.vif.linkIdMap
  noBug : s.bug = false
  failed : ∀ p ∈ s.failed, p.1 = p.2

def Known (caps : WsmCaps) (s : StaState) : StaAct → Prop
  | .add aid _ term mapped =>
    term = true ∨ aid = 0 ∨ caps.numOfStations < aid ∨ aid ∉ s.skipped ∧ mapped = true
  | .suspendResume arg =>
    arg.multicast = true ∨ arg.stop = false ∨ arg.linkId = 0 ∨ maxStaInApMode < arg.linkId ∨
      s.vif.linkIdMap.getLsbD arg.linkId = true
  | .beaconing conf => restartNeeded conf s.vif = true → conf.skb = true → s.vif.linkIdMap = 0
  | _ => True

instance decKnown (caps : WsmCaps) (s : StaState) (a : StaAct) : Decidable (Known caps s a) := by
  cases a <;> unfold Known <;> infer_instance

/-! ## What the functions leave of the station set -/

@[simp] theorem linkIdMap_staNotify (cmd : StaNotifyCmd) (l : Nat) (v : AtbmVif) :
    (staNotify cmd l v).linkIdMap = v.linkIdMap := by
  cases cmd <;> simp only [staNotify] <;> split <;> rfl

@[simp] theorem linkIdDb_staNotify (cmd : StaNotifyCmd) (l : Nat) (v : AtbmVif) :
    (staNotify cmd l v).linkIdDb = v.linkIdDb := by
  cases cmd <;> simp only [staNotify] <;> split <;> rfl

/-- `sta_asleep_mask` and `pspoll_mask` are subsets of `link_id_map`. -/
structure MasksOk (v : AtbmVif) : Prop where
  asleep : Sub v.staAsleepMask v.linkIdMap
  pspoll : Sub v.pspollMask v.linkIdMap

variable {l aid jiffies : Nat} {v : AtbmVif} {s : StaState} {entry : AtbmLinkEntry}

theorem staNotify_masks {cmd : StaNotifyCmd} (h : MasksOk v)
    (hl : cmd = .sleep → l ≠ 0 → v.linkIdMap.getLsbD l = true) : MasksOk (staNotify cmd l v) := by
  cases cmd with
  | sleep =>
    have hbit : Sub (v.staAsleepMask ||| notifyBit .sleep l v) v.linkIdMap := by
      unfold notifyBit
      by_cases h0 : l = 0
      · simpa [h0] using h.asleep
      · rw [if_pos h0]
        exact h.asleep.insert (hl rfl h0)
    simp only [staNotify]
    split
    · exact ⟨hbit, h.pspoll⟩
    · exact h
  | awake =>
    simp only [staNotify]
    split
    · exact ⟨h.asleep.and_left _, h.pspoll.and_left _⟩
    · exact h

theorem staNotify_sleeps (h0 : l ≠ 0) (hl : l < 32) : (staNotify .sleep l v).staAsleepMask.getLsbD l = true := by
  simp only [staNotify, notifyBit, if_pos h0, BIT]
  split
  · rw [getLsbD_insert, decide_eq_true hl, decide_eq_true rfl, Bool.and_true, Bool.or_true]
  · next h =>
    by_contra hbit
    exact h ((and_bit_eq_zero _ hl).mpr (by simpa using hbit))

theorem handlePspoll_masks (h : MasksOk v) (hl : v.linkIdMap.getLsbD l = true) : MasksOk (atbmHandlePspoll l v) := by
  unfold atbmHandlePspoll
  split
  · exact h
  · split
    · exact h
    · exact ⟨h.asleep, h.pspoll.insert hl⟩

theorem txHPm_masks {auth : Bool} (h : MasksOk v) : MasksOk (atbmTxHPm auth l v) := by
  unfold atbmTxHPm
  split
  · exact ⟨h.asleep.and_left _, h.pspoll.and_left _⟩
  · exact h

theorem suspendResume_masks {arg : WsmSuspendResume} (h : MasksOk v)
    (hl : arg.multicast = true ∨ arg.stop = false ∨ arg.linkId = 0 ∨ maxStaInApMode < arg.linkId ∨
      v.linkIdMap.getLsbD arg.linkId = true) : MasksOk (atbmSuspendResume arg v).1 := by
  unfold atbmSuspendResume
  by_cases hm : arg.multicast = true
  · rw [if_pos hm]
    split
    · exact ⟨h.asleep, h.pspoll⟩
    · exact ⟨h.asleep, h.pspoll⟩
  · rw [if_neg hm]
    show MasksOk (atbmPsNotify arg.linkId arg.stop v)
    unfold atbmPsNotify
    split
    · exact h
    · next hle =>
      apply staNotify_masks h
      intro hcmd h0
      rcases hl with hl | hl | hl | hl | hl
      · exact absurd hl hm
      · rw [hl] at hcmd
        cases hcmd
      · exact absurd hl h0
      · exact absurd hl hle
      · exact hl

theorem suspendResume_frame (arg : WsmSuspendResume) (v : AtbmVif) :
    (atbmSuspendResume arg v).1.linkIdMap = v.linkIdMap ∧
      (atbmSuspendResume arg v).1.linkIdDb = v.linkIdDb := by
  unfold atbmSuspendResume atbmPsNotify
  by_cases hm : arg.multicast = true
  · by_cases hs : arg.stop = true <;> simp [hm, hs]
  · by_cases hl : maxStaInApMode < arg.linkId <;> simp [hm, hl]

theorem handlePspoll_frame (l : Nat) (v : AtbmVif) :
    (atbmHandlePspoll l v).linkIdMap = v.linkIdMap ∧ (atbmHandlePspoll l v).linkIdDb = v.linkIdDb := by
  unfold atbmHandlePspoll
  by_cases hj : v.joinStatus = .ap
  · by_cases h0 : l = 0 <;> simp [hj, h0]
  · simp [hj]

theorem atbmStaAdd_cases (caps : WsmCaps) (aid jiffies : Nat) (term mapped : Bool) (v : AtbmVif) :
    ((term = true ∨ aid = 0 ∨ caps.numOfStations < aid) ∧
      atbmStaAdd caps aid jiffies term mapped v = (v, .noEnt)) ∨
    (0 < aid ∧ aid ≤ caps.numOfStations ∧ term = false ∧ (v.linkIdDb (aid - 1)).status ≠ .off ∧
      atbmStaAdd caps aid jiffies term mapped v = (v, .bug)) ∨
    (0 < aid ∧ aid ≤ caps.numOfStations ∧ term = false ∧ (v.linkIdDb (aid - 1)).status = .off ∧
      mapped = true ∧ atbmStaAdd caps aid jiffies term mapped v = (staEnter aid jiffies v, .ok)) ∨
    (0 < aid ∧ aid ≤ caps.numOfStations ∧ term = false ∧ (v.linkIdDb (aid - 1)).status = .off ∧
      mapped = false ∧ atbmStaAdd caps aid jiffies term mapped v =
        ((staEnter aid jiffies v).setLink aid
          { (staEnter aid jiffies v).linkIdDb (aid - 1) with status := .off }, .noEnt)) := by
  unfold atbmStaAdd
  by_cases ht : term = true
  · exact .inl ⟨.inl ht, if_pos ht⟩
  · rw [if_neg ht]
    by_cases hr : aid = 0 ∨ caps.numOfStations < aid
    · exact .inl ⟨.inr hr, if_pos hr⟩
    · rw [if_neg hr]
      have hpos : 0 < aid := by omega
      have hle : aid ≤ caps.numOfStations := by omega
      have hterm : term = false := by simpa using ht
      by_cases hs : (v.linkIdDb (aid - 1)).status = .off
      · rw [if_neg (not_not.mpr hs)]
        cases mapped with
        | true => exact .inr (.inr (.inl ⟨hpos, hle, hterm, hs, rfl, rfl⟩))
        | false => exact .inr (.inr (.inr ⟨hpos, hle, hterm, hs, rfl, rfl⟩))
      · exact .inr (.inl ⟨hpos, hle, hterm, hs, if_pos hs⟩)

theorem atbmUpdateBeaconing_cases (conf : Beaconing) (v : AtbmVif) :
    (restartNeeded conf v = true ∧ conf.skb = true ∧
      (atbmUpdateBeaconing conf v).linkIdDb = fun _ => .zero) ∨
    (¬(restartNeeded conf v = true ∧ conf.skb = true) ∧
      (atbmUpdateBeaconing conf v).linkIdDb = v.linkIdDb) := by
  unfold atbmUpdateBeaconing atbmStartAp
  by_cases hr : restartNeeded conf v = true
  · by_cases hs : conf.skb = true
    · exact .inl ⟨hr, hs, by simp [hr, hs]⟩
    · exact .inr ⟨by simp [hs], by simp [hr, hs]⟩
  · exact .inr ⟨by simp [hr], by simp [hr]⟩

theorem atbmUpdateBeaconing_masks (conf : Beaconing) (v : AtbmVif) :
    (atbmUpdateBeaconing conf v).linkIdMap = v.linkIdMap ∧
      (atbmUpdateBeaconing conf v).staAsleepMask = v.staAsleepMask ∧
      (atbmUpdateBeaconing conf v).pspollMask = v.pspollMask := by
  unfold atbmUpdateBeaconing atbmStartAp
  by_cases hr : restartNeeded conf v = true
  · by_cases hs : conf.skb = true <;> simp [hr, hs]
  · simp [hr]

/-- An entry is in use for the stations mac80211 has, and for those whose removal was skipped. -/
structure StaInv (s : StaState) : Prop where
  status : ∀ i, (s.vif.linkIdDb i).status = .off ∨ (s.vif.linkIdDb i).status = .hard
  hard : ∀ l, 0 < l → l ≤ maxStaInApMode →
    ((s.vif.linkIdDb (l - 1)).status = .hard ↔ l ∈ s.stas ∨ l ∈ s.skipped)
  stas : ∀ l ∈ s.stas, 0 < l ∧ l ≤ maxStaInApMode ∧ l ∉ s.skipped
  nodup : s.stas.Nodup
  bits : ∀ l, s.vif.linkIdMap.getLsbD l = true → 0 < l ∧ l ≤ maxStaInApMode

theorem staInv_start : StaInv staStart := by
  constructor
  · exact fun _ => .inl rfl
  · intro l _ _
    simp [staStart, AtbmVif.init, AtbmLinkEntry.zero]
  · exact fun l hl => nomatch hl
  · exact List.nodup_nil
  · intro l hl
    rw [show staStart.vif.linkIdMap = 0#32 from rfl, BitVec.getLsbD_zero] at hl
    cases hl

theorem stationsOk_start : StationsOk staStart := by
  constructor
  · intro l _ _
    rw [show staStart.vif.linkIdMap = 0#32 from rfl, BitVec.getLsbD_zero]
    simp [staStart, AtbmVif.init, AtbmLinkEntry.zero]
  · exact Sub.zero _
  · exact Sub.zero _
  · rfl
  · exact fun p hp => nomatch hp

theorem StationsOk.masks (h : StationsOk s) : MasksOk s.vif := ⟨h.asleep, h.pspoll⟩

theorem keep_of_frame (hI : StaInv s) (hs : StationsOk s)
    (hmap : v.linkIdMap = s.vif.linkIdMap) (hdb : v.linkIdDb = s.vif.linkIdDb) (hm : MasksOk v) :
    StaInv { s with vif := v } ∧ StationsOk { s with vif := v } := by
  constructor
  · constructor
    · simpa only [hdb] using hI.status
    · simpa only [hdb] using hI.hard
    · exact hI.stas
    · exact hI.nodup
    · simpa only [hmap] using hI.bits
  · constructor
    · simpa only [hdb, hmap] using hs.map
    · exact hm.asleep
    · exact hm.pspoll
    · exact hs.noBug
    · exact hs.failed

theorem linkIdMap_of_mem (hI : StaInv s) (hs : StationsOk s) (hl : l ∈ s.stas) : s.vif.linkIdMap.getLsbD l = true := by
  obtain ⟨h0, hle, -⟩ := hI.stas l hl
  rw [hs.map l h0 hle, hI.hard l h0 hle]
  exact .inl hl

theorem setLink_other (hl : 0 < l) (ha : 0 < aid)
    (hne : l ≠ aid) : (v.setLink aid entry).linkIdDb (l - 1) = v.linkIdDb (l - 1) := by
  have : l - 1 ≠ aid - 1 := by omega
  simp [AtbmVif.setLink, this]

@[simp] theorem setLink_self (v : AtbmVif) (aid : Nat) (entry : AtbmLinkEntry) :
    (v.setLink aid entry).linkIdDb (aid - 1) = entry := by
  simp [AtbmVif.setLink]

theorem setLink_status {i : Nat} (h : (v.linkIdDb i).status = .off ∨ (v.linkIdDb i).status = .hard)
    (he : entry.status = .off ∨ entry.status = .hard) :
    ((v.setLink aid entry).linkIdDb i).status = .off ∨ ((v.setLink aid entry).linkIdDb i).status = .hard := by
  by_cases hi : i = aid - 1
  · subst hi
    simpa using he
  · simpa [AtbmVif.setLink, hi] using h

theorem linkIdMap_staEnter (ha : aid < 32) :
    (staEnter aid jiffies v).linkIdMap.getLsbD l = true ↔ v.linkIdMap.getLsbD l = true ∨ l = aid := by
  show (v.linkIdMap ||| BIT aid).getLsbD l = true ↔ _
  rw [BIT, getLsbD_insert, Bool.or_eq_true, Bool.and_eq_true, decide_eq_true_eq, decide_eq_true_eq]
  constructor
  · rintro (h | ⟨-, h⟩)
    · exact .inl h
    · exact .inr h.symm
  · rintro (h | rfl)
    · exact .inl h
    · exact .inr ⟨ha, rfl⟩

theorem add_keeps (hI : StaInv s) (hs : StationsOk s) (h0 : 0 < aid)
    (hle : aid ≤ maxStaInApMode) (hn : aid ∉ s.stas) (hk : aid ∉ s.skipped) :
    StaInv (afterAdd aid s (staEnter aid jiffies s.vif, .ok)) ∧
      StationsOk (afterAdd aid s (staEnter aid jiffies s.vif, .ok)) := by
  have hmax : maxStaInApMode = 14 := rfl
  have hdb : ∀ l, 0 < l → l ≠ aid → (staEnter aid jiffies s.vif).linkIdDb (l - 1) = s.vif.linkIdDb (l - 1) :=
    fun l hl hne => setLink_other hl h0 hne
  have hself : ((staEnter aid jiffies s.vif).linkIdDb (aid - 1)).status = .hard := by
    show ((s.vif.setLink aid _).linkIdDb (aid - 1)).status = .hard
    rw [setLink_self]
  have hhard : ∀ l, 0 < l → l ≤ maxStaInApMode →
      (((staEnter aid jiffies s.vif).linkIdDb (l - 1)).status = .hard ↔ l ∈ aid :: s.stas ∨ l ∈ s.skipped) := by
    intro l hl hlm
    by_cases hla : l = aid
    · subst hla
      simp [hself]
    · rw [hdb l hl hla, hI.hard l hl hlm, List.mem_cons]
      simp [hla]
  constructor
  · constructor
    · intro i
      exact setLink_status (hI.status i) (.inr rfl)
    · exact hhard
    · intro l hl
      rcases List.mem_cons.mp hl with rfl | hl
      · exact ⟨h0, hle, hk⟩
      · exact hI.stas l hl
    · exact List.nodup_cons.mpr ⟨hn, hI.nodup⟩
    · intro l hl
      rcases (linkIdMap_staEnter (by omega)).mp hl with hl | rfl
      · exact hI.bits l hl
      · exact ⟨h0, hle⟩
  · constructor
    · intro l hl hlm
      show (staEnter aid jiffies s.vif).linkIdMap.getLsbD l = true ↔ _
      rw [linkIdMap_staEnter (by omega)]
      by_cases hla : l = aid
      · subst hla
        exact iff_of_true (.inr rfl) hself
      · show _ ↔ ((staEnter aid jiffies s.vif).linkIdDb (l - 1)).status = .hard
        rw [hdb l hl hla, ← hs.map l hl hlm]
        simp [hla]
    · exact (hs.asleep.and_left _).or_right _
    · exact (hs.pspoll.and_left _).or_right _
    · exact hs.noBug
    · exact hs.failed

theorem add_refused (h0 : 0 < aid) (hle : aid ≤ maxStaInApMode) (he : entry.status = .off)
    (ht : StationsOk (afterAdd aid s ((staEnter aid jiffies s.vif).setLink aid entry, .noEnt))) : False := by
  have hmax : maxStaInApMode = 14 := rfl
  have hbit : (staEnter aid jiffies s.vif).linkIdMap.getLsbD aid = true :=
    (linkIdMap_staEnter (by omega)).mpr (.inr rfl)
  have hhard := (ht.map aid h0 hle).mp hbit
  have hoff : (((staEnter aid jiffies s.vif).setLink aid entry).linkIdDb (aid - 1)).status = .off := by
    rw [setLink_self, he]
  exact absurd (hoff.symm.trans hhard) (by decide)

theorem remove_keeps (hI : StaInv s) (hs : StationsOk s) (hmem : aid ∈ s.stas)
    (term : Bool) (caps : WsmCaps) : StaInv (StaAct.next caps s (.remove aid term)) ∧
      StationsOk (StaAct.next caps s (.remove aid term)) := by
  obtain ⟨h0, hle, hnk⟩ := hI.stas aid hmem
  have herase : ∀ l, l ∈ s.stas.erase aid ↔ l ≠ aid ∧ l ∈ s.stas := fun l => hI.nodup.mem_erase_iff
  cases term with
  | true =>
    constructor
    · constructor
      · exact hI.status
      · intro l hl hlm
        show (s.vif.linkIdDb (l - 1)).status = .hard ↔ l ∈ s.stas.erase aid ∨ l ∈ aid :: s.skipped
        rw [hI.hard l hl hlm, herase, List.mem_cons]
        by_cases hla : l = aid
        · subst hla
          simp [hmem]
        · simp [hla]
      · intro l hl
        obtain ⟨hne, hl⟩ := (herase l).mp hl
        obtain ⟨h1, h2, h3⟩ := hI.stas l hl
        exact ⟨h1, h2, List.not_mem_cons_of_ne_of_not_mem hne h3⟩
      · exact hI.nodup.erase aid
      · exact hI.bits
    · exact ⟨hs.map, hs.asleep, hs.pspoll, hs.noBug, hs.failed⟩
  | false =>
    have hv : atbmStaRemove aid false s.vif =
        { s.vif.setLink aid { s.vif.linkIdDb (aid - 1) with status := .off } with
          linkIdMap := s.vif.linkIdMap &&& ~~~BIT aid
          staAsleepMask := s.vif.staAsleepMask &&& ~~~BIT aid
          pspollMask := s.vif.pspollMask &&& ~~~BIT aid } := by
      have hne : aid ≠ 0 := by omega
      simp [atbmStaRemove, hne]
    have hself : ((atbmStaRemove aid false s.vif).linkIdDb (aid - 1)).status = .off := by
      rw [hv]
      show ((s.vif.setLink aid _).linkIdDb (aid - 1)).status = .off
      rw [setLink_self]
    have hdb : ∀ l, 0 < l → l ≠ aid →
        (atbmStaRemove aid false s.vif).linkIdDb (l - 1) = s.vif.linkIdDb (l - 1) := by
      intro l hl hne
      rw [hv]
      exact setLink_other hl h0 hne
    have hbit : ∀ l, (atbmStaRemove aid false s.vif).linkIdMap.getLsbD l = true ↔
        s.vif.linkIdMap.getLsbD l = true ∧ l ≠ aid := by
      intro l
      rw [hv]
      show (s.vif.linkIdMap &&& ~~~BIT aid).getLsbD l = true ↔ _
      rw [BIT, getLsbD_erase, Bool.and_eq_true, Bool.not_eq_true', decide_eq_false_iff_not]
      exact and_congr_right fun _ => ne_comm
    constructor
    · constructor
      · intro i
        show ((atbmStaRemove aid false s.vif).linkIdDb i).status = .off ∨
          ((atbmStaRemove aid false s.vif).linkIdDb i).status = .hard
        rw [hv]
        have hoff : ({ s.vif.linkIdDb (aid - 1) with status := .off } : AtbmLinkEntry).status = .off := rfl
        exact setLink_status (hI.status i) (.inl hoff)
      · intro l hl hlm
        show ((atbmStaRemove aid false s.vif).linkIdDb (l - 1)).status = .hard ↔
          l ∈ s.stas.erase aid ∨ l ∈ s.skipped
        rw [herase]
        by_cases hla : l = aid
        · subst hla
          simp [hself, hnk]
        · rw [hdb l hl hla, hI.hard l hl hlm]
          simp [hla]
      · intro l hl
        exact hI.stas l ((herase l).mp hl).2
      · exact hI.nodup.erase aid
      · intro l hl
        exact hI.bits l ((hbit l).mp hl).1
    · constructor
      · intro l hl hlm
        show (atbmStaRemove aid false s.vif).linkIdMap.getLsbD l = true ↔
          ((atbmStaRemove aid false s.vif).linkIdDb (l - 1)).status = .hard
        rw [hbit]
        by_cases hla : l = aid
        · subst hla
          simp [hself]
        · rw [hdb l hl hla, ← hs.map l hl hlm]
          simp [hla]
      · show Sub (atbmStaRemove aid false s.vif).staAsleepMask (atbmStaRemove aid false s.vif).linkIdMap
        rw [hv]
        exact hs.asleep.erase aid
      · show Sub (atbmStaRemove aid false s.vif).pspollMask (atbmStaRemove aid false s.vif).linkIdMap
        rw [hv]
        exact hs.pspoll.erase aid
      · exact hs.noBug
      · exact hs.failed

theorem beaconing_keeps {conf : Beaconing} (hI : StaInv s) (hs : StationsOk s)
    (hC : restartNeeded conf s.vif = true → conf.skb = true → s.vif.linkIdMap = 0) :
    StaInv { s with vif := atbmUpdateBeaconing conf s.vif } ∧
      StationsOk { s with vif := atbmUpdateBeaconing conf s.vif } := by
  obtain ⟨hmap, hasleep, hpspoll⟩ := atbmUpdateBeaconing_masks conf s.vif
  have hmasks : MasksOk (atbmUpdateBeaconing conf s.vif) := by
    constructor
    · rw [hasleep, hmap]
      exact hs.asleep
    · rw [hpspoll, hmap]
      exact hs.pspoll
  rcases atbmUpdateBeaconing_cases conf s.vif with ⟨hr, hskb, hdb⟩ | ⟨-, hdb⟩
  · have hzero := hC hr hskb
    have hnone : ∀ l, s.vif.linkIdMap.getLsbD l = false := (eq_zero_iff _).mp hzero
    constructor
    · constructor
      · intro i
        simp only [hdb]
        exact .inl rfl
      · -- no station is there, for the map is empty
        intro l hl hlm
        simp only [hdb]
        rw [← hI.hard l hl hlm, ← hs.map l hl hlm, hnone]
        simp [AtbmLinkEntry.zero]
      · exact hI.stas
      · exact hI.nodup
      · simpa only [hmap] using hI.bits
    · constructor
      · intro l hl hlm
        simp only [hdb, hmap]
        rw [hnone]
        simp [AtbmLinkEntry.zero]
      · exact hmasks.asleep
      · exact hmasks.pspoll
      · exact hs.noBug
      · exact hs.failed
  · exact keep_of_frame hI hs hmap hdb hmasks

theorem beaconing_loses {conf : Beaconing} (hI : StaInv s)
    (ht : StationsOk { s with vif := atbmUpdateBeaconing conf s.vif }) :
    restartNeeded conf s.vif = true → conf.skb = true → s.vif.linkIdMap = 0 := by
  intro hr hskb
  rcases atbmUpdateBeaconing_cases conf s.vif with ⟨-, -, hdb⟩ | ⟨hno, -⟩
  · rw [show (0 : BitVec 32) = 0#32 from rfl, eq_zero_iff]
    intro l
    by_contra hl
    have hbit : s.vif.linkIdMap.getLsbD l = true := Bool.not_eq_false _ |>.mp hl
    obtain ⟨h0, hle⟩ := hI.bits l hbit
    have hmap := (atbmUpdateBeaconing_masks conf s.vif).1
    have hhard := (ht.map l h0 hle).mp (by simpa only [hmap] using hbit)
    simp only [hdb] at hhard
    exact absurd hhard (by decide)
  · exact absurd ⟨hr, hskb⟩ hno

theorem sta_step_keeps {caps : WsmCaps} {a : StaAct} (hI : StaInv s) (hs : StationsOk s)
    (he : a.enabled s) (hC : Known caps s a) : StaInv (a.next caps s) ∧ StationsOk (a.next caps s) := by
  cases a with
  | add aid jiffies term mapped =>
    simp only [StaAct.next]
    rcases atbmStaAdd_cases caps aid jiffies term mapped s.vif with
      ⟨-, hadd⟩ | ⟨h0, hle, hterm, hon, hadd⟩ | ⟨h0, hle, hterm, hoff, -, hadd⟩ | ⟨h0, hle, hterm, -, hm, hadd⟩
    · rw [hadd]
      refine ⟨⟨hI.status, hI.hard, hI.stas, hI.nodup, hI.bits⟩, hs.map, hs.asleep, hs.pspoll, hs.noBug, ?_⟩
      intro p hp
      rcases List.mem_cons.mp hp with rfl | hp
      · rfl
      · exact hs.failed p hp
    · exfalso
      have hhard := (hI.status (aid - 1)).resolve_left hon
      rw [hI.hard aid h0 (Nat.le_trans hle caps.le)] at hhard
      rcases hC with hC | hC | hC | ⟨hC, -⟩
      · rw [hterm] at hC
        cases hC
      · omega
      · omega
      · exact hhard.elim he.2 hC
    · rw [hadd]
      have hk : aid ∉ s.skipped := by
        intro hmem
        have hhard := (hI.hard aid h0 (Nat.le_trans hle caps.le)).mpr (.inr hmem)
        exact absurd (hoff.symm.trans hhard) (by decide)
      exact add_keeps hI hs h0 (Nat.le_trans hle caps.le) he.2 hk
    · exfalso
      rcases hC with hC | hC | hC | ⟨-, hC⟩
      · rw [hterm] at hC
        cases hC
      · omega
      · omega
      · rw [hm] at hC
        cases hC
  | remove aid term => exact remove_keeps hI hs he.2 term caps
  | notify cmd aid alive =>
    simp only [StaAct.next, atbmStaNotify]
    cases alive with
    | true =>
      exact keep_of_frame hI hs (linkIdMap_staNotify ..) (linkIdDb_staNotify ..)
        (staNotify_masks hs.masks fun _ _ => linkIdMap_of_mem hI hs he.2)
    | false => exact keep_of_frame hI hs rfl rfl hs.masks
  | suspendResume arg =>
    obtain ⟨hmap, hdb⟩ := suspendResume_frame arg s.vif
    exact keep_of_frame hI hs hmap hdb (suspendResume_masks hs.masks hC)
  | pspoll aid =>
    obtain ⟨hmap, hdb⟩ := handlePspoll_frame aid s.vif
    exact keep_of_frame hI hs hmap hdb (handlePspoll_masks hs.masks (linkIdMap_of_mem hI hs he.2))
  | txAuth rawLinkId => exact keep_of_frame hI hs rfl rfl (txHPm_masks hs.masks)
  | beaconing conf => exact beaconing_keeps hI hs hC

theorem sta_step_loses {caps : WsmCaps} {a : StaAct} (hI : StaInv s)
    (ht : StationsOk (a.next caps s)) : Known caps s a := by
  cases a with
  | add aid jiffies term mapped =>
    simp only [StaAct.next] at ht
    rcases atbmStaAdd_cases caps aid jiffies term mapped s.vif with
      ⟨hfail, -⟩ | ⟨-, -, -, -, hadd⟩ | ⟨h0, hle, -, hoff, hm, -⟩ | ⟨h0, hle, -, -, -, hadd⟩
    · rcases hfail with h | h | h
      · exact .inl h
      · exact .inr (.inl h)
      · exact .inr (.inr (.inl h))
    · rw [hadd] at ht
      exact absurd ht.noBug (by simp [afterAdd])
    · refine .inr (.inr (.inr ⟨?_, hm⟩))
      intro hmem
      have hhard := (hI.hard aid h0 (Nat.le_trans hle caps.le)).mpr (.inr hmem)
      exact absurd (hoff.symm.trans hhard) (by decide)
    · rw [hadd] at ht
      exact (add_refused h0 (Nat.le_trans hle caps.le) rfl ht).elim
  | suspendResume arg =>
    by_contra hC
    unfold Known at hC
    push Not at hC
    obtain ⟨hm, hstop, h0, hle, hbit⟩ := hC
    have hmax : maxStaInApMode = 14 := rfl
    have hv : (atbmSuspendResume arg s.vif).1 = staNotify .sleep arg.linkId s.vif := by
      have hst : arg.stop = true := by simpa using hstop
      simp [atbmSuspendResume, hm, atbmPsNotify, hle, hst]
    have hsub := ht.asleep arg.linkId
    simp only [StaAct.next, hv, linkIdMap_staNotify] at hsub
    exact hbit (hsub (staNotify_sleeps h0 (by omega)))
  | beaconing conf => exact beaconing_loses hI ht
  | remove aid term => trivial
  | notify cmd aid alive => trivial
  | pspoll aid => trivial
  | txAuth rawLinkId => trivial

/-- **The stations of a run.** -/
theorem stations_agree {caps : WsmCaps} {l : List (StaState × StaAct)} {t : StaState}
    (hp : Path (stations caps) staStart l t) :
    ((∀ p ∈ l, StationsOk p.1) ∧ StationsOk t) ↔ ∀ p ∈ l, Known caps p.1 p.2 := by
  apply Path.exact (I := StaInv) (P := StationsOk) _ _ hp staInv_start stationsOk_start
  · rintro s a t hI hs ⟨he, rfl⟩ hC
    exact sta_step_keeps hI hs he hC
  · rintro s a t hI - ⟨-, rfl⟩ ht
    exact sta_step_loses hI ht

theorem linkKnown_iff (hs : StationsOk s) (h0 : 0 < l) (hle : l ≤ maxStaInApMode) :
    linkKnown s.vif l = true ↔ (s.vif.linkIdDb (l - 1)).status = .hard := by
  have hmax : maxStaInApMode = 14 := rfl
  have hcomm : BIT l &&& (BIT 0 ||| s.vif.linkIdMap) = (BIT 0 ||| s.vif.linkIdMap) &&& bit 32 l := by
    exact BitVec.and_comm ..
  have hne : ¬0 = l := by omega
  rw [← hs.map l h0 hle, linkKnown, hcomm, bne_iff_ne, Ne, show (0 : BitVec 32) = 0#32 from rfl,
    and_bit_eq_zero _ (by omega), BitVec.getLsbD_or, BIT, getLsbD_bit, decide_eq_false hne, Bool.and_false,
    Bool.false_or]
  simp

def sampleCaps : WsmCaps := ⟨8, by decide, by decide⟩

/-- An AP is started, two stations come, one sleeps and polls, one leaves and comes again. -/
def twoStations : List StaAct :=
  [.beaconing ⟨100, true, true⟩, .add 1 10 false true, .add 2 20 false true, .notify .sleep 1 true, .pspoll 1,
    .suspendResume ⟨1, true, false⟩, .txAuth 1, .remove 2 false, .add 2 30 false true, .add 9 40 false true]

theorem stations_agree_two : StationsOk (twoStations.foldl (StaAct.next sampleCaps) staStart) := by
  have hp : Path (stations sampleCaps) staStart (trace (StaAct.next sampleCaps) staStart twoStations)
      (twoStations.foldl (StaAct.next sampleCaps) staStart) := Path.ofFires (by decide +kernel)
  exact ((stations_agree hp).mpr (by decide +kernel)).2

/-- **The failing runs.**  A refused link stays in the map; so do the stations of an AP that restarts;
a link that nobody has is put to sleep; and a removal with the bus terminated leads to the `BUG_ON`. -/
theorem stations_disagree :
    (∃ s, Reach (stations sampleCaps) s ∧ s.stas = [] ∧ s.vif.linkIdMap = BIT 1 ∧
      (s.vif.linkIdDb 0).status = .off ∧ ∃ p ∈ s.failed, p.1.linkIdMap ≠ p.2.linkIdMap) ∧
    (∃ s, Reach (stations sampleCaps) s ∧ s.stas = [1] ∧ s.vif.linkIdMap = BIT 1 ∧
      (s.vif.linkIdDb 0).status = .off) ∧
    (∃ s, Reach (stations sampleCaps) s ∧ s.vif.linkIdMap = 0 ∧ s.vif.staAsleepMask = BIT 1) ∧
    ∃ s, Reach (stations sampleCaps) s ∧ s.bug = true := by
  refine ⟨?_, ?_, ?_, ?_⟩
  · exact ⟨_, Reach.fires (.init rfl) (l := [.add 1 10 false false]) (by decide +kernel), by decide +kernel,
      by decide +kernel, by decide +kernel, _, List.mem_cons_self, by decide +kernel⟩
  · exact ⟨_, Reach.fires (.init rfl)
      (l := [.beaconing ⟨100, true, true⟩, .add 1 10 false true, .beaconing ⟨200, true, true⟩])
      (by decide +kernel), by decide +kernel, by decide +kernel, by decide +kernel⟩
  · exact ⟨_, Reach.fires (.init rfl) (l := [.suspendResume ⟨1, true, false⟩]) (by decide +kernel),
      by decide +kernel, by decide +kernel⟩
  · exact ⟨_, Reach.fires (.init rfl)
      (l := [.add 1 10 false true, .remove 1 true, .add 1 20 false true]) (by decide +kernel),
      by decide +kernel⟩

end AtbmWifi
