import AtbmWifi.Pm.Wow
import Mathlib.Data.List.Forall2

/-!
# Suspending is undone
-/

namespace AtbmWifi

/-- The interface is not suspended, and the firmware was last asked for no filter and for the usual beacons. -/
structure WowVif.Awake (v : WowVif) : Prop where
  suspendState : v.suspendState = none
  filters : v.asked.udpPortFilters = 0 ∧ v.asked.etherTypeFilters = 0 ∧ v.asked.keepalive = false ∧
    v.asked.multicastEnable = 0 ∧ v.asked.broadcastAction = 0 ∧ v.asked.forwarding = 0
  own : v.keepalive = false ∧ v.actionMode = 0
  /-- a period above 255 is not asked for -/
  beacons : v.skipsBeacons = true → v.dtimInterval ≤ 0xFF → v.asked.beaconWakeup = (v.dtimInterval, 0)

/-- The work is as it was, or was stopped and started with the time it had left. -/
def Rearmed (work work' : Option Int) : Prop := work' = work ∨ work' = work.map fun left => max left 0

/-- The interface is as it was before, and was resumed as often as it was suspended.  `enable` of the multicast filter
and the address mode of the broadcast filter may differ: they are set anew for each suspend. -/
structure WowVif.Restored (v v' : WowVif) : Prop where
  same : v'.joinStatus = v.joinStatus ∧ v'.joinDtimPeriod = v.joinDtimPeriod ∧ v'.beaconInt = v.beaconInt ∧
    v'.hasMulticastSubscription = v.hasMulticastSubscription ∧ v'.numOfAddresses = v.numOfAddresses
  suspendState : v'.suspendState = v.suspendState
  own : v'.keepalive = v.keepalive ∧ v'.actionMode = v.actionMode
  asked : v'.asked = { v.asked with broadcastAddress := v'.asked.broadcastAddress }
  works : Rearmed v.bssLossWork v'.bssLossWork ∧ Rearmed v.connectionLossWork v'.connectionLossWork
  once : v'.resumes + v.suspends = v.resumes + v'.suspends ∧ v'.suspends ≤ v.suspends + 1

structure WowHw.Undone (s t : WowHw) : Prop where
  confMutex : t.confMutex = s.confMutex
  scanLock : t.scanLock = s.scanLock
  txLock : t.txLock = s.txLock
  unbalanced : t.unbalanced = s.unbalanced
  vifs : List.Forall₂ (Option.Rel WowVif.Restored) s.vifList t.vifList

structure WowHw.Holds (s t : WowHw) : Prop where
  confMutex : s.confMutex = false ∧ t.confMutex = true
  scanLock : t.scanLock + 1 = s.scanLock
  txLock : t.txLock = s.txLock + 1
  unbalanced : t.unbalanced = s.unbalanced

namespace WowHw

/-- The call returns.  If it fails, it leaves nothing behind; else it holds the locks, and the resume that follows returns
and undoes it. -/
def AllOrNothing (o : WowOpts) (env : WowEnv) (s : WowHw) : Prop :=
  ∃ t ret, s.atbmWowSuspend o env = .ok (t, ret) ∧ (ret ≠ 0 → s.Undone t) ∧
    (ret = 0 → s.Holds t ∧ ∃ u ret', t.atbmWowResume o env = .ok (u, ret') ∧ s.Undone u)

def Reaches (s : WowHw) : Prop := s.numQueued.1 + s.numQueued.2 = 0 ∧ s.confMutex = false ∧ s.scanLock ≠ 0

/-- The interface of slot `i` can be suspended. -/
def VifOk (env : WowEnv) (i : Nat) : Option WowVif → Prop
  | none => True
  | some _ => env.alloc i = true ∧ env.mcastPending i = false

def Undoable (env : WowEnv) (s : WowHw) : Prop :=
  s.Reaches → env.bhError = false ∧ (env.drained = true → ∀ i, VifOk env i ((s.vifList[i]?).getD none))

end WowHw

namespace WowVif

variable {o : WowOpts} {v : WowVif} {alloc mcastPending : Bool}

def suspended (o : WowOpts) (v : WowVif) : WowVif :=
  let w := v.setFilters o true
  let works := w.suspendWorks o
  let beacons :=
    if v.skipsBeacons = true then beaconWakeup v.joinDtimPeriod (3 * v.joinDtimPeriod) v.asked.beaconWakeup
    else v.asked.beaconWakeup
  { works.2 with
    asked := { w.asked with beaconWakeup := beacons }
    suspendState := some { works.1 with beaconSkipping := v.skipsBeacons }
    suspends := v.suspends + 1 }

theorem wowSuspend_ok : v.wowSuspend o true false = (v.suspended o, 0) := by
  have hskips : ((v.setFilters o true).suspendWorks o).2.skipsBeacons = v.skipsBeacons := rfl
  unfold wowSuspend suspended
  dsimp only
  rw [if_neg (by decide), if_neg (by decide), hskips]
  cases v.skipsBeacons with
  | false => rfl
  | true => rfl

theorem wowSuspend_fails (h : ¬(alloc = true ∧ mcastPending = false)) :
    (v.wowSuspend o alloc mcastPending).2 = eBusy ∧
      (v.wowSuspend o alloc mcastPending).1.suspendState = v.suspendState := by
  unfold wowSuspend
  dsimp only
  split
  · exact ⟨rfl, rfl⟩
  · next halloc =>
    have hpending : mcastPending = true := by
      cases alloc with
      | false => exact absurd rfl halloc
      | true =>
        cases mcastPending with
        | false => exact absurd ⟨rfl, rfl⟩ h
        | true => rfl
    rw [if_pos hpending]
    refine ⟨rfl, ?_⟩
    split <;> rfl

theorem rearmed_suspendWork (work : Option Int) :
    Rearmed work (atbmResumeWork (atbmSuspendWork work).2 (atbmSuspendWork work).1) := by
  cases work with
  | none => exact .inl rfl
  | some left =>
    refine .inr ?_
    unfold atbmSuspendWork atbmResumeWork
    dsimp only
    rw [if_neg (by omega)]
    rfl

theorem beaconWakeup_restored (h : v.Awake) (hskip : v.skipsBeacons = true) :
    beaconWakeup v.dtimInterval 0 (beaconWakeup v.joinDtimPeriod (3 * v.joinDtimPeriod) v.asked.beaconWakeup) =
      v.asked.beaconWakeup := by
  unfold beaconWakeup
  by_cases hfits : v.dtimInterval ≤ 0xFF
  · rw [if_neg (by omega)]
    exact (h.beacons hskip hfits).symm
  · -- then it is the period of the DTIM, which was not asked for either
    have hdtim : v.dtimInterval = v.joinDtimPeriod := by
      unfold dtimInterval at hfits ⊢
      split at hfits
      · omega
      · next hle => rw [if_neg hle]
    rw [if_pos (by omega), if_pos (by omega)]

theorem asked_restored (h : v.Awake) {w : WowVif} (hjoin : w.joinStatus = v.joinStatus)
    (hnum : w.numOfAddresses = v.numOfAddresses)
    (hasked : w.asked = { (v.setFilters o true).asked with beaconWakeup := v.asked.beaconWakeup }) :
    (w.setFilters o false).asked = { v.asked with broadcastAddress := (w.setFilters o false).asked.broadcastAddress } := by
  obtain ⟨hu, he, hk, hm, hb, hf⟩ := h.filters
  have hkeep : (w.setFilters o false).asked.keepalive = v.asked.keepalive := by
    show (if w.joinStatus = .ap then false else w.asked.keepalive) = v.asked.keepalive
    rw [hasked, hjoin]
    show (if v.joinStatus = .ap then false else if v.joinStatus = .ap then true else v.asked.keepalive) = _
    split
    · exact hk.symm
    · rfl
  have hmulticast : (w.setFilters o false).asked.multicastEnable = v.asked.multicastEnable := by
    show (if w.numOfAddresses ≠ 0 then 0 else w.asked.multicastEnable) = v.asked.multicastEnable
    rw [hasked, hnum]
    show (if v.numOfAddresses ≠ 0 then 0 else if v.numOfAddresses ≠ 0 then 1 else v.asked.multicastEnable) = _
    split
    · exact hm.symm
    · rfl
  have hforward : (w.setFilters o false).asked.forwarding = v.asked.forwarding := by
    show (if o.mcastFwding = true ∧ w.joinStatus = .ap then 0 else w.asked.forwarding) = v.asked.forwarding
    rw [hasked, hjoin]
    show (if o.mcastFwding = true ∧ v.joinStatus = .ap then 0
      else if o.mcastFwding = true ∧ v.joinStatus = .ap then 1 else v.asked.forwarding) = _
    split
    · exact hf.symm
    · rfl
  have hbeacons : (w.setFilters o false).asked.beaconWakeup = v.asked.beaconWakeup := by
    show w.asked.beaconWakeup = _
    rw [hasked]
  exact WowAsked.ext hu.symm he.symm hkeep hmulticast hb.symm rfl hforward hbeacons

/-- The interface in `__atbm_wow_resume`, once the usual beacons are asked for. -/
def resuming (o : WowOpts) (v : WowVif) : WowVif :=
  { v.suspended o with
    asked := { (v.setFilters o true).asked with beaconWakeup := v.asked.beaconWakeup }
    suspendState := none
    resumes := v.resumes + 1 }

theorem wowResume_eq (h : v.Awake) : (v.suspended o).wowResume o =
    (((v.resuming o).setFilters o false).resumeWorks o
      { (v.suspendWorks o).1 with beaconSkipping := v.skipsBeacons }, false) := by
  cases hskip : v.skipsBeacons with
  | true =>
    have hbeacons := beaconWakeup_restored h hskip
    unfold resuming
    rw [← hbeacons]
    unfold wowResume suspended
    dsimp only
    rw [hskip]
    rfl
  | false =>
    unfold resuming wowResume suspended
    dsimp only
    rw [hskip]
    rfl

theorem wowResume_suspended (h : v.Awake) : ∃ v', (v.suspended o).wowResume o = (v', false) ∧ v.Restored v' := by
  refine ⟨_, wowResume_eq h, ?_⟩
  have hworks : ∀ work : Option Int, Rearmed work (if o.txNoConfirm = true then
      (if o.txNoConfirm = true then (0, work) else atbmSuspendWork work).2
    else atbmResumeWork (if o.txNoConfirm = true then (0, work) else atbmSuspendWork work).2
      (if o.txNoConfirm = true then (0, work) else atbmSuspendWork work).1) := by
    intro work
    cases o.txNoConfirm with
    | true => exact .inl rfl
    | false => exact rearmed_suspendWork work
  constructor
  · dsimp only [resumeWorks, setFilters, resuming, suspended, suspendWorks]
    exact ⟨rfl, rfl, rfl, rfl, rfl⟩
  · dsimp only [resumeWorks, setFilters, resuming]
    exact h.suspendState.symm
  · dsimp only [resumeWorks, setFilters, resuming, suspended, suspendWorks]
    refine ⟨?_, h.own.2.symm⟩
    split
    · exact h.own.1.symm
    · rfl
  · have hjoin : (v.resuming o).joinStatus = v.joinStatus := by dsimp only [resuming, suspended, suspendWorks, setFilters]
    have hnum : (v.resuming o).numOfAddresses = v.numOfAddresses := by
      dsimp only [resuming, suspended, suspendWorks, setFilters]
    have hasked := asked_restored (o := o) h hjoin hnum (by dsimp only [resuming])
    dsimp only [resumeWorks]
    exact hasked
  · dsimp only [resumeWorks, setFilters, resuming, suspended, suspendWorks]
    exact ⟨hworks v.bssLossWork, hworks v.connectionLossWork⟩
  · dsimp only [resumeWorks, setFilters, resuming, suspended, suspendWorks]
    exact ⟨by omega, Nat.le_refl _⟩

end WowVif

theorem WowVif.Restored.refl (v : WowVif) : v.Restored v :=
  ⟨⟨rfl, rfl, rfl, rfl, rfl⟩, rfl, ⟨rfl, rfl⟩, rfl, ⟨.inl rfl, .inl rfl⟩, rfl, Nat.le_succ _⟩

namespace WowHw

variable {o : WowOpts} {env : WowEnv} {vs : List (Option WowVif)}

theorem restored_refl (vs : List (Option WowVif)) : List.Forall₂ (Option.Rel WowVif.Restored) vs vs := by
  refine List.forall₂_same.mpr fun v _ => ?_
  cases v with
  | none => exact .none
  | some v => exact .some (.refl v)

variable {i : Nat} {s t : WowHw}

theorem suspendVifs_ok (h : ∀ j, VifOk env (i + j) ((vs[j]?).getD none)) :
    suspendVifs o env i vs = (vs.map (Option.map (WowVif.suspended o)), none) := by
  induction vs generalizing i with
  | nil => rfl
  | cons slot vs ih =>
    have hrest := ih (i := i + 1) fun j => by
      have := h (j + 1)
      rw [List.getElem?_cons_succ] at this
      rwa [Nat.add_assoc, Nat.add_comm 1 j]
    cases slot with
    | none =>
      unfold suspendVifs
      rw [hrest]
      rfl
    | some v =>
      have hok : env.alloc i = true ∧ env.mcastPending i = false := h 0
      unfold suspendVifs
      rw [hok.1, hok.2, WowVif.wowSuspend_ok, hrest]
      rfl

theorem suspendVifs_fails {j : Nat} (hawake : ∀ v, some v ∈ vs → v.suspendState = none)
    (h : ¬VifOk env (i + j) ((vs[j]?).getD none)) : ∃ us k v, suspendVifs o env i vs = (us, some (i + k)) ∧
      us[k]? = some (some v) ∧ v.suspendState = none := by
  induction vs generalizing i j with
  | nil => exact absurd trivial h
  | cons slot vs ih =>
    have hrest : ∀ v, some v ∈ vs → v.suspendState = none := fun v hv => hawake v (List.mem_cons_of_mem _ hv)
    cases slot with
    | none =>
      cases j with
      | zero => exact absurd trivial h
      | succ j =>
        obtain ⟨us, k, v, hsus, hk, hv⟩ := ih (i := i + 1) (j := j) hrest (by
          rw [Nat.add_assoc, Nat.add_comm 1 j]
          exact h)
        refine ⟨none :: us, k + 1, v, ?_, hk, hv⟩
        unfold suspendVifs
        rw [hsus, Nat.add_assoc, Nat.add_comm 1 k]
    | some w =>
      by_cases hok : env.alloc i = true ∧ env.mcastPending i = false
      · cases j with
        | zero => exact absurd hok h
        | succ j =>
          obtain ⟨us, k, v, hsus, hk, hv⟩ := ih (i := i + 1) (j := j) hrest (by
            rw [Nat.add_assoc, Nat.add_comm 1 j]
            exact h)
          refine ⟨some (w.suspended o) :: us, k + 1, v, ?_, hk, hv⟩
          unfold suspendVifs
          rw [hok.1, hok.2, WowVif.wowSuspend_ok, hsus, Nat.add_assoc, Nat.add_comm 1 k]
          rfl
      · obtain ⟨hret, hstate⟩ := WowVif.wowSuspend_fails (o := o) (v := w) hok
        refine ⟨some (w.wowSuspend o (env.alloc i) (env.mcastPending i)).1 :: vs, 0, _, ?_, rfl,
          hstate.trans (hawake w List.mem_cons_self)⟩
        unfold suspendVifs
        dsimp only
        rw [hret]
        rfl

theorem resumeDown_oops {k : Nat} {v : WowVif} (hk : vs[k]? = some (some v)) (hv : v.suspendState = none) :
    (resumeDown o k vs).2 = true := by
  have hslot : (resumeSlot o k vs).2 = true := by
    unfold resumeSlot
    rw [hk]
    unfold WowVif.wowResume
    dsimp only
    rw [hv]
  cases k with
  | zero => exact hslot
  | succ k =>
    unfold resumeDown
    dsimp only
    rw [if_pos hslot]

theorem resumeVifs_suspended (hawake : ∀ v, some v ∈ vs → v.Awake) :
    ∃ us, resumeVifs o (vs.map (Option.map (WowVif.suspended o))) = (us, false) ∧
      List.Forall₂ (Option.Rel WowVif.Restored) vs us := by
  induction vs with
  | nil => exact ⟨[], rfl, .nil⟩
  | cons slot vs ih =>
    obtain ⟨us, hus, hrest⟩ := ih fun v hv => hawake v (List.mem_cons_of_mem _ hv)
    cases slot with
    | none =>
      refine ⟨none :: us, ?_, .cons .none hrest⟩
      rw [List.map_cons, Option.map_none]
      unfold resumeVifs
      rw [hus]
    | some v =>
      obtain ⟨v', hv', hrestored⟩ := WowVif.wowResume_suspended (o := o) (hawake v List.mem_cons_self)
      refine ⟨some v' :: us, ?_, .cons (.some hrestored) hrest⟩
      rw [List.map_cons, Option.map_some]
      unfold resumeVifs
      rw [hv', hus]
      rfl

def locked (s : WowHw) : WowHw := { s with confMutex := true, scanLock := s.scanLock - 1, txLock := s.txLock + 1 }

theorem locked_holds (h : s.Reaches) (ht : t = { s.locked with irqWake := t.irqWake, vifList := t.vifList }) :
    s.Holds t := by
  obtain ⟨-, hconf, hscan⟩ := h
  rw [ht]
  refine ⟨⟨hconf, rfl⟩, ?_, rfl, rfl⟩
  show s.scanLock - 1 + 1 = s.scanLock
  omega

theorem unlock_eq (henv : env.bhError = false) (hconf : t.confMutex = true) (htx : t.txLock ≠ 0) :
    (t.wsmUnlockTx env.bhError).mutexUnlock = { t with confMutex := false, txLock := t.txLock - 1 } := by
  unfold wsmUnlockTx
  rw [henv, if_neg (by decide), if_neg htx]
  unfold mutexUnlock
  rw [if_pos hconf]

theorem unlock_error (t : WowHw) (henv : env.bhError = true) :
    (t.wsmUnlockTx env.bhError).mutexUnlock.txLock = t.txLock := by
  unfold wsmUnlockTx
  rw [if_pos henv]
  unfold mutexUnlock
  split <;> rfl

variable (env) in
theorem revert3_locked (h : s.Reaches) : (env.bhError = false → s.Undone (s.locked.revert3 env)) ∧
      (env.bhError = true → (s.locked.revert3 env).txLock = s.txLock + 1) := by
  obtain ⟨-, hconf, hscan⟩ := h
  constructor
  · intro henv
    unfold revert3 wsmUnlockTx
    rw [henv]
    refine ⟨hconf.symm, ?_, rfl, rfl, restored_refl _⟩
    show s.scanLock - 1 + 1 = s.scanLock
    omega
  · intro henv
    unfold revert3 wsmUnlockTx
    rw [henv]
    rfl

variable (o env) in
theorem atbmWowResume_locked (h : s.Reaches) (hawake : ∀ v, some v ∈ s.vifList → v.Awake)
    (ht : t = { s.locked with irqWake := t.irqWake, vifList := s.vifList.map (Option.map (WowVif.suspended o)) }) :
    ∃ u, t.atbmWowResume o env = .ok (u, 0) ∧ (env.bhError = false → s.Undone u) ∧
      (env.bhError = true → u.txLock = s.txLock + 1) := by
  obtain ⟨-, hconf, hscan⟩ := h
  obtain ⟨us, hus, hrestored⟩ := resumeVifs_suspended (o := o) hawake
  rw [ht]
  unfold atbmWowResume
  dsimp only
  rw [hus]
  refine ⟨_, rfl, fun henv => ?_, fun henv => ?_⟩
  · rw [unlock_eq henv rfl (Nat.succ_ne_zero _)]
    refine ⟨hconf.symm, ?_, rfl, rfl, hrestored⟩
    show s.scanLock - 1 + 1 = s.scanLock
    omega
  · rw [unlock_error _ henv]
    rfl

theorem atbmWowSuspend_early (h : ¬s.Reaches) : s.AllOrNothing o env := by
  have hsame : ∃ t, s.atbmWowSuspend o env = .ok (t, eBusy) ∧ s.Undone t := by
    unfold atbmWowSuspend
    by_cases hqueued : s.numQueued.1 + s.numQueued.2 ≠ 0
    · rw [if_pos hqueued]
      exact ⟨s, rfl, rfl, rfl, rfl, rfl, restored_refl _⟩
    · rw [if_neg hqueued]
      by_cases hconf : s.confMutex = true
      · rw [if_pos hconf]
        exact ⟨s, rfl, rfl, rfl, rfl, rfl, restored_refl _⟩
      · have hscan : s.scanLock = 0 := by
          by_contra hscan
          exact h ⟨not_not.mp hqueued, Bool.eq_false_iff.mpr hconf, hscan⟩
        rw [if_neg hconf]
        dsimp only
        rw [if_pos hscan]
        exact ⟨_, rfl, (Bool.eq_false_iff.mpr hconf).symm, rfl, rfl, rfl, restored_refl _⟩
  obtain ⟨t, heq, hundone⟩ := hsame
  exact ⟨t, eBusy, heq, fun _ => hundone, fun h => absurd h (by decide)⟩

theorem allOrNothing_fail {ret : Int} (heq : s.atbmWowSuspend o env = .ok (t, ret)) (hret : ret ≠ 0)
    (hgood : env.bhError = false → s.Undone t) (hbad : env.bhError = true → t.txLock = s.txLock + 1) :
    s.AllOrNothing o env ↔ env.bhError = false := by
  constructor
  · rintro ⟨t', ret', heq', hfail, -⟩
    cases heq.symm.trans heq'
    by_contra herr
    have hkept := (hfail hret).txLock
    rw [hbad (Bool.not_eq_false _ |>.mp herr)] at hkept
    omega
  · intro henv
    exact ⟨t, ret, heq, fun _ => hgood henv, fun h => absurd h hret⟩

theorem allOrNothing_late {ret : Int} (h : s.Reaches) (hawake : ∀ v, some v ∈ s.vifList → v.Awake)
    (ht : t = { s.locked with irqWake := t.irqWake, vifList := s.vifList.map (Option.map (WowVif.suspended o)) })
    (heq : s.atbmWowSuspend o env = t.resumeAndReturn o env ret) (hret : ret ≠ 0) :
    s.AllOrNothing o env ↔ env.bhError = false := by
  obtain ⟨u, hu, hgood, hbad⟩ := atbmWowResume_locked _ env h hawake ht
  refine allOrNothing_fail (t := u) ?_ hret hgood hbad
  rw [heq]
  unfold resumeAndReturn
  rw [hu]

theorem atbmWowSuspend_locked (h : s.Reaches) (hdrained : env.drained = true) :
    s.atbmWowSuspend o env = match suspendVifs o env 0 s.vifList with
      | (vs, some i) =>
        let t := { s.locked with vifList := vs }.mutexUnlock
        let (vs, oops) := resumeDown o i t.vifList
        let t := { t with vifList := vs }
        if oops = true then .error t else .ok (t.revert3 env, eBusy)
      | (vs, none) =>
        let t := { s.locked with vifList := vs }
        if env.bhSuspend = false then t.resumeAndReturn o env eBusy
        else if env.powerMgmt ≠ 0 then t.resumeAndReturn o env eBusy
        else
          let t := { t with irqWake := true }
          if env.bhRx = true then t.resumeAndReturn o env eAgain else .ok (t, 0) := by
  obtain ⟨hqueued, hconf, hscan⟩ := h
  unfold atbmWowSuspend
  rw [if_neg (not_not.mpr hqueued), if_neg (Bool.eq_false_iff.mp hconf)]
  dsimp only
  rw [if_neg hscan, hdrained, if_neg (by decide)]
  rfl

theorem allOrNothing_drained (h : s.Reaches) (hdrained : env.drained = true)
    (hawake : ∀ v, some v ∈ s.vifList → v.Awake) (hok : ∀ i, VifOk env i ((s.vifList[i]?).getD none)) :
    s.AllOrNothing o env ↔ env.bhError = false := by
  have hcall := atbmWowSuspend_locked (o := o) h hdrained
  rw [suspendVifs_ok fun j => by rw [Nat.zero_add]; exact hok j] at hcall
  dsimp only at hcall
  by_cases hbh : env.bhSuspend = false
  · rw [if_pos hbh] at hcall
    exact allOrNothing_late h hawake rfl hcall (by decide)
  · rw [if_neg hbh] at hcall
    by_cases hpower : env.powerMgmt ≠ 0
    · rw [if_pos hpower] at hcall
      exact allOrNothing_late h hawake rfl hcall (by decide)
    · rw [if_neg hpower] at hcall
      by_cases hrx : env.bhRx = true
      · rw [if_pos hrx] at hcall
        exact allOrNothing_late h hawake rfl hcall (by decide)
      · -- suspended: the locks are given back by the resume
        rw [if_neg hrx] at hcall
        obtain ⟨u, hu, hgood, hbad⟩ := atbmWowResume_locked o env
          (t := { s.locked with irqWake := true, vifList := s.vifList.map (Option.map (WowVif.suspended o)) }) h hawake rfl
        constructor
        · rintro ⟨t, ret, heq, -, hdone⟩
          cases hcall.symm.trans heq
          obtain ⟨-, u', ret', hu', hundone⟩ := hdone rfl
          cases hu.symm.trans hu'
          by_contra herr
          have hkept := hundone.txLock
          rw [hbad (Bool.not_eq_false _ |>.mp herr)] at hkept
          omega
        · intro henv
          exact ⟨_, 0, hcall, fun h => absurd rfl h, fun _ => ⟨locked_holds h rfl, u, 0, hu, hgood henv⟩⟩

theorem not_allOrNothing (h : s.Reaches) (hdrained : env.drained = true)
    (hawake : ∀ v, some v ∈ s.vifList → v.Awake) (hfail : ¬VifOk env i ((s.vifList[i]?).getD none)) :
    ¬s.AllOrNothing o env := by
  rintro ⟨t, ret, heq, -⟩
  obtain ⟨us, k, v, hsus, hk, hv⟩ := suspendVifs_fails (o := o) (i := 0) (j := i) (fun v hv => (hawake v hv).suspendState)
    (by rw [Nat.zero_add]; exact hfail)
  rw [atbmWowSuspend_locked h hdrained, hsus] at heq
  have hunlock : ({ s.locked with vifList := us }.mutexUnlock).vifList = us := rfl
  dsimp only at heq
  rw [hunlock, Nat.zero_add, if_pos (resumeDown_oops hk hv)] at heq
  cases heq

end WowHw

/-- A call of `_atbm_wow_suspend` while no interface is suspended, with the resume that follows if it succeeds, is all
or nothing iff, where it gets the locks, `bh_error` is not set when it gives back the TX lock, and no interface
fails to suspend. -/
theorem wow_allOrNothing {o : WowOpts} {env : WowEnv} {s : WowHw} (hawake : ∀ v, some v ∈ s.vifList → v.Awake) :
    s.AllOrNothing o env ↔ s.Undoable env := by
  by_cases hreach : s.Reaches
  · cases hdrained : env.drained with
    | false =>
      have hcall : s.atbmWowSuspend o env = .ok (s.locked.revert3 env, eBusy) := by
        obtain ⟨hqueued, hconf, hscan⟩ := hreach
        unfold WowHw.atbmWowSuspend
        rw [if_neg (not_not.mpr hqueued), if_neg (Bool.eq_false_iff.mp hconf)]
        dsimp only
        rw [if_neg hscan, hdrained, if_pos rfl]
        rfl
      obtain ⟨hgood, hbad⟩ := WowHw.revert3_locked env hreach
      rw [WowHw.allOrNothing_fail hcall (by decide) hgood hbad]
      constructor
      · intro henv _
        exact ⟨henv, fun h => by rw [hdrained] at h; cases h⟩
      · intro h
        exact (h hreach).1
    | true =>
      by_cases hok : ∀ i, WowHw.VifOk env i ((s.vifList[i]?).getD none)
      · rw [WowHw.allOrNothing_drained hreach hdrained hawake hok]
        exact ⟨fun henv _ => ⟨henv, fun _ => hok⟩, fun h => (h hreach).1⟩
      · obtain ⟨i, hfail⟩ := not_forall.mp hok
        constructor
        · intro h
          exact absurd h (WowHw.not_allOrNothing hreach hdrained hawake hfail)
        · intro h
          exact absurd ((h hreach).2 hdrained) hok
  · exact ⟨fun _ h => absurd h hreach, fun _ => WowHw.atbmWowSuspend_early hreach⟩

/-- An interface that is joined with a DTIM period of 2, or an AP. -/
def wowVif (joinStatus : JoinStatus) : WowVif where
  joinStatus := joinStatus
  joinDtimPeriod := 2
  beaconInt := 100
  hasMulticastSubscription := false
  numOfAddresses := 1
  multicastEnable := 1
  actionMode := 0
  addressMode := 1
  keepalive := false
  bssLossWork := some 7
  connectionLossWork := none
  suspendState := none
  asked := ⟨0, 0, false, 0, 0, 1, 0, (2, 0)⟩
  suspends := 0
  resumes := 0

def wowHw (vifs : List (Option WowVif)) : WowHw := ⟨(0, 0), false, 1, 0, false, false, vifs⟩

theorem wowVif_awake (joinStatus : JoinStatus) : (wowVif joinStatus).Awake :=
  ⟨rfl, ⟨rfl, rfl, rfl, rfl, rfl, rfl⟩, ⟨rfl, rfl⟩, fun _ _ => rfl⟩

def wowBoth : WowHw := wowHw [some (wowVif .sta), none, some (wowVif .ap)]

theorem wow_allOrNothing_both :
    wowBoth.AllOrNothing ⟨false, true⟩ ⟨true, fun _ => true, fun _ => false, true, 0, false, false⟩ ∧
      wowBoth.AllOrNothing ⟨false, true⟩ ⟨true, fun _ => true, fun _ => false, true, -5, false, false⟩ := by
  have hawake : ∀ v, some v ∈ wowBoth.vifList → v.Awake := by
    intro v hv
    rcases List.mem_cons.mp hv with h | hv
    · cases h
      exact wowVif_awake _
    · rcases List.mem_cons.mp hv with h | hv
      · cases h
      · cases List.mem_singleton.mp hv
        exact wowVif_awake _
  have hundoable : ∀ powerMgmt, wowBoth.Undoable ⟨true, fun _ => true, fun _ => false, true, powerMgmt, false, false⟩ := by
    refine fun _ _ => ⟨rfl, fun _ i => ?_⟩
    cases (wowBoth.vifList[i]?).getD none with
    | none => trivial
    | some => exact ⟨rfl, rfl⟩
  exact ⟨(wow_allOrNothing hawake).mpr (hundoable 0), (wow_allOrNothing hawake).mpr (hundoable (-5))⟩

/-- Without memory for the state of the only interface, `conf_mutex` is given back before the way back resumes it, through
a null pointer. -/
theorem wow_not_undone :
    let env : WowEnv := ⟨true, fun _ => false, fun _ => false, true, 0, false, false⟩
    ∃ t, (wowHw [some (wowVif .sta)]).atbmWowSuspend ⟨false, false⟩ env = .error t ∧
      (t.confMutex, t.scanLock, t.txLock) = (false, 0, 1) ∧
      t.vifList.map (Option.map fun v => (v.suspends, v.resumes)) = [some (0, 1)] ∧
      ¬(wowHw [some (wowVif .sta)]).AllOrNothing ⟨false, false⟩ env := by
  intro env
  refine ⟨_, rfl, by decide, by decide, ?_⟩
  rintro ⟨t, ret, heq, -⟩
  cases heq

end AtbmWifi
