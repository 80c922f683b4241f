import AtbmWifi.Ap.Gating

/-!
# Multicast frames while stations sleep

`buffered_multicasts` stands for the frames of the DTIM link that wait.  With a
station asleep it is to be set, and their delivery under way (`MulticastOk`).

`wsm_get_tx` clears the flag with the last frame of a delivery, which `total`
counts (`found_dtim`); but with no station asleep it clears it with any frame it
finds, or none, and what is left is forgotten if a station then falls asleep.

* `multicasts_delivered`: along every run, `MulticastOk` holds in every state exactly
  when no station falls asleep as the first one with frames left and the flag clear.
-/

namespace AtbmWifi

open Transition Mask

/-- The frames of interface `i` on the DTIM link. -/
def dtimOf (i : Nat) (t : AtbmTxpriv) : Bool := t.ifId.toNat == i && t.linkId.toNat == dtimVirtualLinkId

def dtimFrames (s : PsState) (i : Nat) : Nat := waitingAll (dtimOf i) s.queues

/-- A DTIM indication of the firmware would set `tx_multicast`. -/
def resumes (v : AtbmVif) : Bool := (atbmSuspendResume ⟨0, false, true⟩ v).1.txMulticast

def MulticastOk (ap : Nat → Bool) (s : PsState) : Prop :=
  ∀ i, ap i = true → dtimFrames s i ≠ 0 → (s.vif i).staAsleepMask ≠ 0 →
    (s.vif i).bufferedMulticasts = true ∧
      ((s.vif i).multicastStartWork = true ∨
        (s.vif i).aid0BitSet = true ∧
          ((s.vif i).txMulticast = true ∨ s.mcastTimeout i = true ∨ resumes (s.vif i) = true))

def PsAct.sleeps : PsAct → Option Nat
  | .notify i .sleep _ true => some i
  | .suspendResume i arg => if !arg.multicast && arg.stop && decide (IsSta arg.linkId) then some i else none
  | _ => none

def NotedBeforeSleep (ap : Nat → Bool) (s : PsState) (a : PsAct) : Prop :=
  ∀ i ∈ a.sleeps, ap i = true → (s.vif i).staAsleepMask = 0 → dtimFrames s i ≠ 0 →
    (s.vif i).bufferedMulticasts = true

instance decNotedBeforeSleep (ap : Nat → Bool) (s : PsState) (a : PsAct) : Decidable (NotedBeforeSleep ap s a) :=
  inferInstanceAs (Decidable (∀ i ∈ a.sleeps, _))

theorem edcaScore_lt (edca : EdcaQueueParams) (rand : Nat) : edcaScore edca rand < 4294967295 := by
  have hmul : (edca.cwMax - edca.cwMin) * (rand % 65536) ≤ (edca.cwMax - edca.cwMin) * 65535 :=
    Nat.mul_le_mul_left _ (by omega)
  have h1 := edca.aifns_le
  have h2 := edca.cwMin_le
  have h3 := edca.cwMax_le
  have hlt : (edca.aifns + edca.cwMin) * 65536 + (edca.cwMax - edca.cwMin) * (rand % 65536) < 4294967295 := by
    omega
  unfold edcaScore
  omega

theorem prioTurns (queued : Fin 4 → Int) {score : Fin 4 → Nat} (hscore : ∀ c, score c < 4294967295)
    (l : List (Fin 4)) (p : PrioSearch) (hbest : p.winner = none → p.best = 4294967295) :
    (l.foldl (prioTurn queued score) p).total = p.total + (l.map queued).sum ∧
      ((l.foldl (prioTurn queued score) p).winner = none → p.winner = none ∧ ∀ c ∈ l, queued c = 0) ∧
      ∀ w, (l.foldl (prioTurn queued score) p).winner = some w → p.winner = some w ∨ queued w ≠ 0 := by
  induction l generalizing p with
  | nil => exact ⟨(Int.add_zero _).symm, fun h => ⟨h, nofun⟩, fun w hw => .inl hw⟩
  | cons c l ih =>
    simp only [List.foldl_cons, List.map_cons, List.sum_cons, List.forall_mem_cons]
    by_cases hc : queued c = 0
    · have hturn : prioTurn queued score p c = p := by
        unfold prioTurn
        rw [if_pos hc]
      rw [hturn, hc]
      obtain ⟨h1, h2, h3⟩ := ih p hbest
      refine ⟨by rw [h1]; omega, ?_, h3⟩
      intro h
      exact ⟨(h2 h).1, rfl, (h2 h).2⟩
    · have htotal : (prioTurn queued score p c).total = p.total + queued c := by
        unfold prioTurn
        rw [if_neg hc]
        split <;> rfl
      have hsome : (prioTurn queued score p c).winner ≠ none := by
        unfold prioTurn
        rw [if_neg hc]
        split
        · exact Option.some_ne_none _
        · next hno =>
          intro hnone
          have hwin : p.winner = none := hnone
          apply hno
          rw [hbest hwin]
          exact ⟨hscore c, .inl hwin⟩
      have hwinner : ∀ w, (prioTurn queued score p c).winner = some w → p.winner = some w ∨ queued w ≠ 0 := by
        intro w
        unfold prioTurn
        rw [if_neg hc]
        split
        · rintro ⟨⟩
          exact .inr hc
        · exact .inl
      obtain ⟨h1, h2, h3⟩ := ih (prioTurn queued score p c) (fun h => absurd h hsome)
      refine ⟨by rw [h1, htotal]; omega, fun h => absurd (h2 h).1 hsome, ?_⟩
      intro w hw
      exact (h3 w hw).elim (hwinner w) .inr

theorem atbmGetPrioQueue_spec {a : PrioArg} (hscore : ∀ c, a.score c < 4294967295) (mask : BitVec 32) :
    (atbmGetPrioQueue a mask).2 = ∑ c, a.queued mask c ∧
      ((atbmGetPrioQueue a mask).1 = none → ∀ c, a.queued mask c = 0) ∧
      ∀ c, (atbmGetPrioQueue a mask).1 = some c → a.queued mask c ≠ 0 := by
  obtain ⟨h1, h2, h3⟩ := prioTurns (a.queued mask) hscore (List.finRange 4) ⟨0, 4294967295, none⟩
    (fun _ => rfl)
  have htotal : (prioSearch (a.queued mask) a.score).total = ∑ c, a.queued mask c := by
    rw [Fin.sum_univ_def, ← Int.zero_add (List.sum _)]
    exact h1
  have hnone : (prioSearch (a.queued mask) a.score).winner = none → ∀ c, a.queued mask c = 0 :=
    fun h c => (h2 h).2 c (List.mem_finRange c)
  have hsome : ∀ w, (prioSearch (a.queued mask) a.score).winner = some w → a.queued mask w ≠ 0 :=
    fun w hw => (h3 w hw).resolve_left nofun
  unfold atbmGetPrioQueue
  simp only
  split
  · next w b hw hb =>
    split
    · next hburst =>
      refine ⟨htotal, nofun, ?_⟩
      rintro c ⟨⟩
      exact hburst.2.2
    · refine ⟨htotal, nofun, ?_⟩
      rintro c ⟨⟩
      exact hsome w hw
  · exact ⟨htotal, hnone, hsome⟩

theorem numQueued_bit {i m l : Nat} (q : AtbmQueue) (hl : l < m) (hm : m < 32) :
    atbmQueueGetNumQueued i m (BIT l) q = q.linkMapCache i l := by
  have h0 : BIT l ≠ 0 := by
    intro h
    have := (eq_zero_iff _).mp h l
    rw [BIT, getLsbD_bit] at this
    simp at this
    omega
  have h1 : BIT l ≠ BitVec.allOnes 32 := by
    intro h
    have hbit := congrArg (fun b => b.getLsbD (if l = 0 then 1 else 0)) h
    simp only [BIT, getLsbD_bit, BitVec.getLsbD_allOnes] at hbit
    split at hbit
    · simp at hbit
      omega
    · simp at hbit
      omega
  unfold atbmQueueGetNumQueued
  rw [if_neg h0, if_neg h1]
  show ∑ j ∈ Finset.range m, (if (BIT l).getLsbD j = true then q.linkMapCache i j else 0) = _
  have hterm : ∀ j ∈ Finset.range m, (if (BIT l).getLsbD j = true then q.linkMapCache i j else 0) =
      if l = j then q.linkMapCache i j else 0 := by
    intro j hj
    have hlt : j < 32 := Nat.lt_trans (Finset.mem_range.mp hj) hm
    rw [BIT, getLsbD_bit, decide_eq_true hlt, Bool.true_and]
    simp only [decide_eq_true_eq]
  rw [Finset.sum_congr rfl hterm, Finset.sum_ite_eq, if_pos (Finset.mem_range.mpr hl)]

/-- What holds in every state: the counters are right, and the works keep up with the flag. -/
def WorkInv (v : AtbmVif) : Prop :=
  v.staAsleepMask ≠ 0 → v.bufferedMulticasts = true →
    v.multicastStartWork = true ∨ v.aid0BitSet = true ∧ v.multicastStopWork = false

structure MulticastInv (ap : Nat → Bool) (s : PsState) : Prop where
  accounted : Accounted s.queues
  work : ∀ i, ap i = true → WorkInv (s.vif i)

section
variable {s : PsState}

theorem waiting_dtim (h : Accounted s.queues) (i : Nat) (c : Fin 4) :
    ((s.queues.txQueue c).linkMapCache i dtimVirtualLinkId : Int) = waiting (dtimOf i) (s.queues.txQueue c) :=
  (h.counted c).linkMapCache i dtimVirtualLinkId

theorem queued_dtim (h : Accounted s.queues) (e : GetTxEnv) (i : Nat) (second : Bool) (c : Fin 4) :
    (s.prioArg e i second).queued (BIT dtimVirtualLinkId) c = waiting (dtimOf i) (s.queues.txQueue c) := by
  have hcap : s.queues.stats.mapCapacity = wlanLinkIdMax := (h.counted c).mapCapacity
  show atbmQueueGetNumQueued i s.queues.stats.mapCapacity _ _ = _
  rw [hcap, numQueued_bit _ (by decide) (by decide)]
  exact waiting_dtim h i c

/-- While a delivery is announced, a frame of the DTIM link is found as long as there is one, and `more`
says whether there are others. -/
theorem found_dtim (h : Accounted s.queues) (e : GetTxEnv) (m : Bool)
    (htx : (s.vif s.ifIdSelected).txMulticast = true) (hd : dtimFrames s s.ifIdSelected ≠ 0) :
    ∃ c, s.found e m = (some (c, BIT dtimVirtualLinkId), decide (1 < dtimFrames s s.ifIdSelected)) ∧
      waiting (dtimOf s.ifIdSelected) (s.queues.txQueue c) ≠ 0 := by
  obtain ⟨htotal, hnone, hsome⟩ := atbmGetPrioQueue_spec (a := s.prioArg e s.ifIdSelected false)
    (fun c => edcaScore_lt _ _) (BIT dtimVirtualLinkId)
  simp only [queued_dtim h] at htotal hnone hsome
  have hsum : (atbmGetPrioQueue (s.prioArg e s.ifIdSelected false) (BIT dtimVirtualLinkId)).2 =
      (dtimFrames s s.ifIdSelected : Int) := by
    rw [htotal, dtimFrames, waitingAll, Nat.cast_sum]
  unfold PsState.found wsmGetTxQueueAndMask
  simp only [htx, if_true]
  rcases hq : atbmGetPrioQueue (s.prioArg e s.ifIdSelected false) (BIT dtimVirtualLinkId) with ⟨_ | c, total⟩
  · exfalso
    apply hd
    rw [hq] at hnone
    unfold dtimFrames waitingAll
    apply Finset.sum_eq_zero
    intro c _
    exact Int.natCast_eq_zero.mp (hnone rfl c)
  · rw [hq] at hsum hsome
    refine ⟨c, ?_, ?_⟩
    · have hsum : total = (dtimFrames s s.ifIdSelected : Int) := hsum
      have hmore : decide (1 < total) = decide (1 < dtimFrames s s.ifIdSelected) := by
        rw [decide_eq_decide, hsum]
        omega
      show (some (c, BIT dtimVirtualLinkId), decide (1 < total)) = _
      rw [hmore]
    · intro h0
      exact hsome c rfl (by rw [h0]; rfl)

theorem select_dtim {q : AtbmQueue} {i : Nat} (h : waiting (dtimOf i) q ≠ 0) :
    selectItem q i (BIT dtimVirtualLinkId).toNat ≠ none := by
  intro hnone
  apply h
  unfold waiting
  rw [List.countP_eq_zero]
  intro k hk hd
  have hno := List.find?_eq_none.mp hnone k hk
  unfold dtimOf at hd
  rw [Bool.and_eq_true, beq_iff_eq, beq_iff_eq] at hd
  apply hno
  simp only [Bool.and_eq_true, beq_iff_eq, linkAllowed, BitVec.testBit_toNat]
  exact ⟨hd.1, (bit_dtim_iff _).mpr hd.2⟩

end

def Noted (s : PsState) (i : Nat) : Prop :=
  dtimFrames s i ≠ 0 → (s.vif i).staAsleepMask ≠ 0 → (s.vif i).bufferedMulticasts = true

theorem multicastOk_iff {ap : Nat → Bool} {s : PsState} (h : ∀ i, ap i = true → WorkInv (s.vif i)) :
    MulticastOk ap s ↔ ∀ i, ap i = true → Noted s i := by
  constructor
  · intro hok i hap hd ha
    exact (hok i hap hd ha).1
  · intro hn i hap hd ha
    have hb := hn i hap hd ha
    refine ⟨hb, (h i hap ha hb).imp_right ?_⟩
    rintro ⟨haid, -⟩
    exact ⟨haid, .inr (.inr (by simp [resumes, atbmSuspendResume, haid, hb]))⟩

theorem multicastsSearched_work {found more : Bool} {v : AtbmVif} (h : WorkInv v) :
    WorkInv (multicastsSearched found more v) := by
  unfold multicastsSearched
  split
  · intro _ hb
    cases hb
  · exact h

theorem multicastsSearched_clears {found more : Bool} {v : AtbmVif} (hb : v.bufferedMulticasts = true)
    (ha : v.staAsleepMask ≠ 0) (hc : (multicastsSearched found more v).bufferedMulticasts ≠ true) :
    v.txMulticast = true ∧ (found = false ∨ more = false) := by
  unfold multicastsSearched at hc
  by_cases htx : v.txMulticast = true
  · refine ⟨htx, ?_⟩
    by_contra hno
    rw [not_or, Bool.not_eq_false, Bool.not_eq_false] at hno
    simp [hno.1, hno.2, hb] at hc
  · have hno : ¬v.staAsleepMask = 0#32 := ha
    simp [htx, hno, hb] at hc

theorem staNotify_work {cmd : StaNotifyCmd} {l : Nat} {v : AtbmVif} (h : WorkInv v) : WorkInv (staNotify cmd l v) := by
  cases cmd with
  | sleep =>
    simp only [staNotify]
    split
    · intro _ hb
      have hb : v.bufferedMulticasts = true := hb
      by_cases ha : v.staAsleepMask = 0
      · left
        simp [hb, ha]
      · refine (h ha hb).imp_left fun hs => ?_
        simp [hs]
    · exact h
  | awake =>
    simp only [staNotify]
    split
    · intro ha hb
      have ha : v.staAsleepMask &&& ~~~notifyBit .awake l v ≠ 0 := ha
      have hold : v.staAsleepMask ≠ 0 := by
        intro h0
        apply ha
        rw [h0]
        simp
      refine (h hold hb).imp_right ?_
      rintro ⟨haid, hstop⟩
      have hsome : (v.staAsleepMask &&& ~~~notifyBit .awake l v == 0) = false := beq_false_of_ne ha
      refine ⟨haid, ?_⟩
      rw [hstop, hsome, Bool.and_false]
      rfl
    · exact h

theorem asleep_of_sub {v v' : AtbmVif} (hm : Sub v'.staAsleepMask v.staAsleepMask) (ha : v'.staAsleepMask ≠ 0) :
    v.staAsleepMask ≠ 0 := by
  intro h0
  apply ha
  rw [h0] at hm
  exact Sub.eq_zero hm

/-- What a step does to the flag and the works of an AP, when it is a step on one interface. -/
structure VifKeeps (i : Nat) (a : PsAct) (v v' : AtbmVif) : Prop where
  work : WorkInv v → WorkInv v'
  buffered : v'.bufferedMulticasts = v.bufferedMulticasts
  asleep : v'.staAsleepMask ≠ 0 → v.staAsleepMask ≠ 0 ∨ a.sleeps = some i

theorem VifKeeps.of_sub {i : Nat} {a : PsAct} {v v' : AtbmVif} (hm : Sub v'.staAsleepMask v.staAsleepMask)
    (hb : v'.bufferedMulticasts = v.bufferedMulticasts) (hs : v'.multicastStartWork = v.multicastStartWork)
    (haid : v'.aid0BitSet = v.aid0BitSet) (hw : v'.multicastStopWork = v.multicastStopWork) : VifKeeps i a v v' := by
  refine ⟨?_, hb, fun ha => .inl (asleep_of_sub hm ha)⟩
  intro h ha hb'
  rw [hs, haid, hw]
  rw [hb] at hb'
  exact h (asleep_of_sub hm ha) hb'

theorem VifKeeps.refl (i : Nat) (a : PsAct) (v : AtbmVif) : VifKeeps i a v v :=
  .of_sub (.refl _) rfl rfl rfl rfl

theorem staNotify_buffered (cmd : StaNotifyCmd) (l : Nat) (v : AtbmVif) :
    (staNotify cmd l v).bufferedMulticasts = v.bufferedMulticasts := by
  cases cmd <;> simp only [staNotify] <;> split <;> rfl

theorem staNotify_asleep {cmd : StaNotifyCmd} {l : Nat} {v : AtbmVif} (h : (staNotify cmd l v).staAsleepMask ≠ 0) :
    v.staAsleepMask ≠ 0 ∨ (cmd = .sleep ∧ l ≠ 0) := by
  by_contra hno
  rw [not_or, not_not] at hno
  apply h
  rw [show (0 : BitVec 32) = 0#32 from rfl, eq_zero_iff]
  intro l'
  by_contra hl'
  rcases (staNotify_adds cmd l v).2 l' (by simpa using hl') with hold | ⟨h0, -⟩
  · rw [hno.1] at hold
    exact absurd hold (by simp)
  · cases cmd with
    | sleep => exact hno.2 ⟨rfl, h0⟩
    | awake =>
      have hz : (staNotify .awake l v).staAsleepMask = 0 := by
        simp only [staNotify]
        split
        · simp [hno.1]
        · exact hno.1
      exact h hz

section
variable {ap : Nat → Bool} {caps : WsmCaps} {s : PsState}

variable {a : PsAct} {i : Nat} {v : AtbmVif}

theorem staNotify_keeps {cmd : StaNotifyCmd} {l : Nat}
    (hs : cmd = .sleep → l ≠ 0 → a.sleeps = some i) : VifKeeps i a v (staNotify cmd l v) :=
  ⟨staNotify_work, staNotify_buffered cmd l v, fun h => (staNotify_asleep h).imp_right fun h => hs h.1 h.2⟩

theorem suspendResume_keeps {arg : WsmSuspendResume} :
    VifKeeps i (.suspendResume i arg) v (atbmSuspendResume arg v).1 := by
  unfold atbmSuspendResume
  by_cases hm : arg.multicast = true
  · rw [if_pos hm]
    split <;> exact .of_sub (.refl _) rfl rfl rfl rfl
  · rw [if_neg hm]
    show VifKeeps _ _ _ (atbmPsNotify arg.linkId arg.stop v)
    unfold atbmPsNotify
    split
    · exact .refl ..
    · next hle =>
      apply staNotify_keeps
      intro hcmd h0
      have hstop : arg.stop = true := by
        by_contra hno
        rw [if_neg hno] at hcmd
        cases hcmd
      have hsta : IsSta arg.linkId := ⟨by omega, by omega⟩
      simp [PsAct.sleeps, hm, hstop, hsta]

theorem staAdd_keeps {aid jiffies : Nat} {term mapped : Bool} :
    VifKeeps i a v (atbmStaAdd caps aid jiffies term mapped v).1 := by
  have hm := (MasksShrink.staAdd caps aid jiffies term mapped v).asleep
  obtain ⟨-, h⟩ | ⟨-, -, -, -, h⟩ | ⟨-, -, -, -, -, h⟩ | ⟨-, -, -, -, -, h⟩ :=
    atbmStaAdd_cases caps aid jiffies term mapped v
  all_goals
    rw [h] at hm ⊢
    exact .of_sub hm rfl rfl rfl rfl

theorem beaconing_keeps_vif {conf : Beaconing} : VifKeeps i a v (atbmUpdateBeaconing conf v) := by
  have hm := (MasksShrink.beaconing conf v).asleep
  unfold atbmUpdateBeaconing atbmStartAp at hm ⊢
  by_cases hr : restartNeeded conf v = true
  · by_cases hs : conf.skb = true
    · simp only [hr, hs, if_true] at hm ⊢
      exact .of_sub hm rfl rfl rfl rfl
    · simp only [hr, hs, if_true] at hm ⊢
      exact .of_sub hm rfl rfl rfl rfl
  · simp only [hr] at hm ⊢
    exact .refl ..

theorem stopped_keeps (hw : v.multicastStopWork = true) : VifKeeps i a v (stoppedVif v) := by
  refine ⟨?_, rfl, .inl⟩
  intro h ha hb
  rcases h ha hb with hs | ⟨-, hno⟩
  · exact .inl hs
  · rw [hw] at hno
    cases hno

theorem timedOut_keeps : VifKeeps i a v (timedOutVif v) := by
  refine ⟨?_, rfl, .inl⟩
  intro h ha hb
  have hb : v.bufferedMulticasts = true := hb
  refine (h ha hb).imp_right ?_
  rintro ⟨haid, hstop⟩
  exact ⟨haid, by simp [timedOutVif, hb, hstop]⟩

theorem vifStep_keeps (he : a.enabled ap s) (hap : ap i = true) {f : AtbmVif → AtbmVif}
    (hf : a.vifStep caps = some (i, f)) : VifKeeps i a (s.vif i) (f (s.vif i)) := by
  obtain ⟨-, he⟩ := he
  cases a with
  | pspoll j l =>
    cases hf
    unfold atbmHandlePspoll
    split
    · exact .refl ..
    · split
      · exact .refl ..
      · exact .of_sub (.refl _) rfl rfl rfl rfl
  | notify j cmd l alive =>
    cases hf
    unfold atbmStaNotify
    split
    · next halive =>
      apply staNotify_keeps
      rintro rfl -
      rw [halive]
      rfl
    · exact .refl ..
  | suspendResume j arg =>
    cases hf
    exact suspendResume_keeps
  | add j aid jiffies term mapped =>
    cases hf
    exact staAdd_keeps
  | remove j aid term =>
    cases hf
    have hm := (MasksShrink.staRemove aid term (s.vif i)).asleep
    unfold atbmStaRemove at hm ⊢
    by_cases ht : term = true
    · simp only [ht, if_true]
      exact .refl ..
    · by_cases h0 : aid = 0
      · simp only [h0, if_true]
        split <;> exact .refl ..
      · simp only [ht, h0] at hm ⊢
        exact .of_sub hm rfl rfl rfl rfl
  | beaconing j conf =>
    cases hf
    exact beaconing_keeps_vif
  | startWork j =>
    cases hf
    exact ⟨fun _ _ _ => .inr ⟨rfl, rfl⟩, rfl, .inl⟩
  | stopWork j =>
    cases hf
    exact stopped_keeps he
  | mcastTimeout j =>
    cases hf
    exact timedOut_keeps
  | other j v =>
    cases hf
    exact absurd (hap.symm.trans he) (by decide)
  | tx e a d auth => cases hf
  | getTx e => cases hf
  | lockTx => cases hf
  | unlockTx => cases hf
  | wsmCmd b => cases hf
  | firmwareCheck b => cases hf
  | queue ev => cases hf

theorem vifStep_next (h : MulticastInv ap s) (he : a.enabled ap s) {j : Nat} {f : AtbmVif → AtbmVif}
    (hf : a.vifStep caps = some (j, f)) (hn : ∀ i, ap i = true → Noted s i) (hC : NotedBeforeSleep ap s a) :
    MulticastInv ap (a.next ap caps s) ∧ ∀ i, ap i = true → Noted (a.next ap caps s) i := by
  obtain ⟨hv, hq⟩ := next_vifStep ap hf
  have hother : ∀ i, i ≠ j → (a.next ap caps s).vif i = s.vif i := by
    intro i hij
    rw [hv, Function.update_of_ne hij]
  have hself : (a.next ap caps s).vif j = f (s.vif j) := by
    rw [hv, Function.update_self]
  have hframes : ∀ i, dtimFrames (a.next ap caps s) i = dtimFrames s i := by
    intro i
    unfold dtimFrames
    rw [hq]
  refine ⟨⟨by rw [hq]; exact h.accounted, ?_⟩, ?_⟩
  · intro i hap
    by_cases hij : i = j
    · subst hij
      rw [hself]
      exact (vifStep_keeps he hap hf).work (h.work i hap)
    · rw [hother i hij]
      exact h.work i hap
  · intro i hap hd ha
    rw [hframes] at hd
    by_cases hij : i = j
    · subst hij
      have hk := vifStep_keeps he hap hf
      rw [hself] at ha ⊢
      rw [hk.buffered]
      by_cases h0 : (s.vif i).staAsleepMask = 0
      · -- the first station that sleeps
        have hsleep := (hk.asleep ha).resolve_left (not_not.mpr h0)
        exact hC i hsleep hap h0 hd
      · exact hn i hap hd h0
    · rw [hother i hij] at ha ⊢
      exact hn i hap hd ha

theorem sleeps_vifStep (he : a.enabled ap s) (hi : a.sleeps = some i) :
    ∃ l f, IsSta l ∧ a.vifStep caps = some (i, f) ∧ f (s.vif i) = staNotify .sleep l (s.vif i) := by
  obtain ⟨-, he⟩ := he
  cases a with
  | notify j cmd l alive =>
    cases cmd with
    | awake => cases hi
    | sleep =>
      cases alive with
      | false => cases hi
      | true =>
        cases hi
        exact ⟨l, _, he.2, rfl, rfl⟩
  | suspendResume j arg =>
    simp only [PsAct.sleeps] at hi
    split at hi
    · next h =>
      cases hi
      simp only [Bool.and_eq_true, Bool.not_eq_true', decide_eq_true_eq] at h
      obtain ⟨⟨hm, hstop⟩, hsta⟩ := h
      refine ⟨arg.linkId, _, hsta, rfl, ?_⟩
      unfold IsSta at hsta
      simp [atbmSuspendResume, hm, atbmPsNotify, hstop, Nat.not_lt.mpr hsta.2]
    · cases hi
  | _ => cases hi

theorem sleeps_next (he : a.enabled ap s) (hi : a.sleeps = some i) :
    (a.next ap caps s).queues = s.queues ∧ ((a.next ap caps s).vif i).staAsleepMask ≠ 0 ∧
      ((a.next ap caps s).vif i).bufferedMulticasts = (s.vif i).bufferedMulticasts := by
  obtain ⟨l, f, hl, hf, hnotify⟩ := sleeps_vifStep he hi
  obtain ⟨hv, hq⟩ := next_vifStep ap hf
  rw [hv, Function.update_self, hnotify]
  refine ⟨hq, ?_, staNotify_buffered .sleep l _⟩
  intro h0
  unfold IsSta maxStaInApMode at hl
  have hset := staNotify_sleeps (l := l) (v := s.vif i) (by omega) (by omega)
  rw [h0] at hset
  simp at hset

end

theorem TxSent.accounted {a : TxCall} {s s' : PsState} (h : TxSent a s s') (hacc : Accounted s.queues)
    (hi : a.ifId.toNat < maxVifs) : Accounted s'.queues := by
  cases h with
  | dropped _ _ _ hq _ =>
    rw [hq]
    exact hacc
  | put auth raw e c skb t _ hid _ _ hq _ =>
    rw [hq]
    refine accounted_step (valid_of_vif ?_ rfl nofun) (honest_of_noId rfl) hacc
    show t.ifId.toNat < maxVifs
    rw [hid]
    exact hi

theorem Turned.accounted {e : GetTxEnv} {s s' : PsState} {d : Option TxData} (h : Turned e s s' d)
    (hacc : Accounted s.queues) : Accounted s'.queues := by
  cases h with
  | idle hq _ _ _ => rw [hq]; exact hacc
  | empty _ hq _ _ => rw [hq]; exact hacc
  | missed _ _ hq _ => rw [hq]; exact accounted_get hacc ..
  | handed _ _ _ _ hq _ => rw [hq]; exact accounted_get hacc ..
  | dropped _ hsel hq _ =>
    rcases hq with hq | hq
    · rw [hq]
      exact accounted_get hacc ..
    · rw [hq]
      exact accounted_remove (accounted_get hacc ..) e.q (outstanding_get hacc e.q hsel)

theorem atbmTxHPm_work {auth : Bool} {raw : Nat} {v : AtbmVif} (h : WorkInv v) : WorkInv (atbmTxHPm auth raw v) := by
  intro ha hb
  have hm := (MasksShrink.txHPm auth raw v).asleep
  unfold atbmTxHPm at ha hb hm ⊢
  split at ha
  · next hauth =>
    rw [if_pos hauth] at hb hm ⊢
    exact h (asleep_of_sub hm ha) hb
  · next hauth =>
    rw [if_neg hauth] at hb ⊢
    exact h ha hb

theorem atbmTxHPmState_work {t : AtbmTxpriv} {v : AtbmVif} (h : WorkInv v) :
    WorkInv (atbmTxHPmState t v).1 ∧
      (t.linkId.toNat = dtimVirtualLinkId ∨ v.bufferedMulticasts = true →
        (atbmTxHPmState t v).1.bufferedMulticasts = true) := by
  have hnote : WorkInv (noteMulticast t.linkId.toNat v) ∧
      (t.linkId.toNat = dtimVirtualLinkId ∨ v.bufferedMulticasts = true →
        (noteMulticast t.linkId.toNat v).bufferedMulticasts = true) := by
    unfold noteMulticast
    split
    · refine ⟨?_, fun _ => rfl⟩
      intro ha _
      left
      have ha : v.staAsleepMask ≠ 0#32 := ha
      simp [ha]
    · next hno =>
      refine ⟨h, ?_⟩
      rintro (hl | hb)
      · by_contra hb
        exact hno ⟨hl, by simpa using hb⟩
      · exact hb
  unfold atbmTxHPmState
  simp only
  split
  · exact hnote
  · exact hnote

section
variable {ap : Nat → Bool} {caps : WsmCaps} {s : PsState}

variable {s' : PsState} {e : GetTxEnv} {d : Option TxData}

theorem tx_next {a : TxCall} (h : MulticastInv ap s) (hsent : TxSent a s s')
    (hi : a.ifId.toNat < maxVifs) (hn : ∀ i, ap i = true → Noted s i) :
    MulticastInv ap s' ∧ ∀ i, ap i = true → Noted s' i := by
  have hacc := hsent.accounted h.accounted hi
  have hmasks := hsent.masks
  cases hsent with
  | dropped auth raw _ hq hv =>
    have hb : ∀ i, (s'.vif i).bufferedMulticasts = (s.vif i).bufferedMulticasts := by
      intro i
      rw [hv]
      by_cases hij : i = a.ifId.toNat
      · subst hij
        rw [Function.update_self]
        unfold atbmTxHPm
        split <;> rfl
      · rw [Function.update_of_ne hij]
    refine ⟨⟨hacc, ?_⟩, ?_⟩
    · intro i hap
      rw [hv]
      by_cases hij : i = a.ifId.toNat
      · subst hij
        rw [Function.update_self]
        exact atbmTxHPm_work (h.work _ hap)
      · rw [Function.update_of_ne hij]
        exact h.work i hap
    · intro i hap hd ha
      rw [hb]
      unfold dtimFrames at hd
      rw [hq] at hd
      exact hn i hap hd (asleep_of_sub (hmasks i).asleep ha)
  | put auth raw e c skb t _ hid _ hret hq hv =>
    have hstate : ∀ v, WorkInv v → WorkInv (atbmTxHPmState t (atbmTxHPm auth raw v)).1 ∧
        (t.linkId.toNat = dtimVirtualLinkId ∨ v.bufferedMulticasts = true →
          (atbmTxHPmState t (atbmTxHPm auth raw v)).1.bufferedMulticasts = true) := by
      intro v hw
      have hb : (atbmTxHPm auth raw v).bufferedMulticasts = v.bufferedMulticasts := by
        unfold atbmTxHPm
        split <;> rfl
      rw [← hb]
      exact atbmTxHPmState_work (atbmTxHPm_work hw)
    refine ⟨⟨hacc, ?_⟩, ?_⟩
    · intro i hap
      rw [hv]
      by_cases hij : i = a.ifId.toNat
      · subst hij
        rw [Function.update_self]
        exact (hstate _ (h.work _ hap)).1
      · rw [Function.update_of_ne hij]
        exact h.work i hap
    · intro i hap hd ha
      have hold := asleep_of_sub (hmasks i).asleep ha
      rw [show dtimFrames s' i = dtimFrames s i + if dtimOf i t = true then 1 else 0 from
        (congrArg _ hq).trans (waitingAll_put (h.accounted.counted c).toShape hret)] at hd
      have hnoted : dtimOf i t = true ∨ (s.vif i).bufferedMulticasts = true := by
        by_cases ht : dtimOf i t = true
        · exact .inl ht
        · rw [if_neg ht, Nat.add_zero] at hd
          exact .inr (hn i hap hd hold)
      rw [hv]
      by_cases hij : i = a.ifId.toNat
      · subst hij
        rw [Function.update_self]
        apply (hstate _ (h.work _ hap)).2
        refine hnoted.imp_left fun ht => ?_
        simp only [dtimOf, Bool.and_eq_true, beq_iff_eq] at ht
        exact ht.2
      · rw [Function.update_of_ne hij]
        refine hnoted.resolve_left fun ht => hij ?_
        simp only [dtimOf, Bool.and_eq_true, beq_iff_eq] at ht
        rw [← ht.1, hid]

theorem searched_last {m more : Bool} {o : Option (Fin 4 × BitVec 32)} (h : Accounted s.queues)
    (hfound : s.found e m = (o, more)) (hd : dtimFrames s s.ifIdSelected ≠ 0)
    (ha : (s.vif s.ifIdSelected).staAsleepMask ≠ 0) (hb : (s.vif s.ifIdSelected).bufferedMulticasts = true)
    (hc : (s.searched o.isSome more).bufferedMulticasts ≠ true) :
    dtimFrames s s.ifIdSelected = 1 ∧
      ∃ c, o = some (c, BIT dtimVirtualLinkId) ∧ waiting (dtimOf s.ifIdSelected) (s.queues.txQueue c) ≠ 0 := by
  obtain ⟨htx, hlast⟩ := multicastsSearched_clears hb ha hc
  obtain ⟨c, hdtim, hw⟩ := found_dtim h e m htx hd
  rw [hfound, Prod.mk.injEq] at hdtim
  obtain ⟨rfl, rfl⟩ := hdtim
  refine ⟨?_, c, rfl, hw⟩
  rcases hlast with hlast | hlast
  · cases hlast
  · rw [decide_eq_false_iff_not] at hlast
    omega

theorem Turned.frames_le (h : Turned e s s' d) (i : Nat) : dtimFrames s' i ≤ dtimFrames s i := by
  unfold dtimFrames
  cases h with
  | idle hq _ _ _ => rw [hq]
  | empty _ hq _ _ => rw [hq]
  | missed _ _ hq _ => rw [hq]; exact waitingAll_drains _ _ _ rfl
  | handed _ _ _ _ hq _ => rw [hq]; exact waitingAll_drains _ _ _ rfl
  | dropped _ _ hq _ =>
    rcases hq with hq | hq
    · rw [hq]
      exact waitingAll_drains _ _ _ rfl
    · rw [hq]
      exact (waitingAll_drains _ _ _ rfl).trans (waitingAll_drains _ _ _ rfl)

theorem got_count {c : Fin 4} {k : Nat}
    (hsel : selectItem (s.queues.txQueue c) s.ifIdSelected (BIT dtimVirtualLinkId).toNat = some k) :
    waitingAll (dtimOf s.ifIdSelected) (s.got e c (BIT dtimVirtualLinkId)) + 1 = dtimFrames s s.ifIdSelected := by
  obtain ⟨hi, hl⟩ := selectItem_spec hsel
  have hF : dtimOf s.ifIdSelected ((s.queues.txQueue c).pool k).txpriv = true := by
    unfold dtimOf
    rw [Bool.and_eq_true, beq_iff_eq, beq_iff_eq]
    exact ⟨hi, (bit_dtim_iff _).mp hl⟩
  have hget := waitingAll_get (F := dtimOf s.ifIdSelected) (e := e.q) hsel
  rw [if_pos hF] at hget
  exact hget

theorem got_last {c : Fin 4} {k : Nat} (hd : dtimFrames s s.ifIdSelected = 1)
    (hsel : selectItem (s.queues.txQueue c) s.ifIdSelected (BIT dtimVirtualLinkId).toNat = some k) :
    waitingAll (dtimOf s.ifIdSelected) (s.got e c (BIT dtimVirtualLinkId)) = 0 := by
  have hcount := got_count (e := e) hsel
  omega

theorem Turned.noted (h : Turned e s s' d) (hacc : Accounted s.queues) {i : Nat} (hn : Noted s i) : Noted s' i := by
  intro hd ha
  have hold : dtimFrames s i ≠ 0 := by
    have hle := h.frames_le i
    omega
  have hb := hn hold (asleep_of_sub (h.masks i).asleep ha)
  have ha := asleep_of_sub (h.masks i).asleep ha
  by_contra hc
  by_cases hi : i = s.ifIdSelected
  · subst hi
    cases h with
    | idle _ hv _ _ =>
      rw [hv] at hc
      exact hc hb
    | empty hfound hq _ hv =>
      rw [hv, Function.update_self] at hc
      obtain ⟨-, c, hnone, -⟩ := searched_last hacc hfound hold ha hb hc
      cases hnone
    | missed hfound hsel _ hv =>
      rw [hv, Function.update_self] at hc
      obtain ⟨-, c, hsome, hw⟩ := searched_last hacc hfound hold ha hb hc
      cases hsome
      exact select_dtim hw hsel
    | @dropped _ _ c _ k hfound hsel hq hv =>
      rw [hv, Function.update_self] at hc
      obtain ⟨hone, c', hsome, -⟩ := searched_last hacc hfound hold ha hb hc
      rw [Option.some.injEq, Prod.mk.injEq] at hsome
      obtain ⟨-, rfl⟩ := hsome
      have hgot := got_last (e := e) hone hsel
      unfold dtimFrames at hd
      rcases hq with hq | hq
      · rw [hq] at hd
        exact hd hgot
      · rw [hq] at hd
        have hle := waitingAll_drains (dtimOf s.ifIdSelected) (s.got e c (BIT dtimVirtualLinkId))
          ⟨c, e.q, .remove (issuedId (s.queues.txQueue c) k)⟩ rfl
        omega
    | handed _ hfound hsel _ hq hv =>
      rw [hv, Function.update_self] at hc
      obtain ⟨hone, c, hsome, -⟩ := searched_last hacc hfound hold ha hb hc
      cases hsome
      unfold dtimFrames at hd
      rw [hq] at hd
      exact hd (got_last hone hsel)
  · have hsame : s'.vif i = s.vif i := by
      cases h with
      | idle _ hv _ _ => rw [hv]
      | empty _ _ _ hv => rw [hv, Function.update_of_ne hi]
      | missed _ _ _ hv => rw [hv, Function.update_of_ne hi]
      | dropped _ _ _ hv => rw [hv, Function.update_of_ne hi]
      | handed _ _ _ _ _ hv => rw [hv, Function.update_of_ne hi]
    rw [hsame] at hc
    exact hc hb

theorem Turned.work (h : Turned e s s' d) {i : Nat} (hw : WorkInv (s.vif i)) : WorkInv (s'.vif i) := by
  have hupdate : ∀ {v}, s'.vif = Function.update s.vif s.ifIdSelected v →
      (WorkInv (s.vif s.ifIdSelected) → WorkInv v) → WorkInv (s'.vif i) := by
    intro v hv hstep
    rw [hv]
    by_cases hi : i = s.ifIdSelected
    · subst hi
      rw [Function.update_self]
      exact hstep hw
    · rw [Function.update_of_ne hi]
      exact hw
  cases h with
  | idle _ hv _ _ => rw [hv]; exact hw
  | empty _ _ _ hv => exact hupdate hv multicastsSearched_work
  | missed _ _ _ hv => exact hupdate hv multicastsSearched_work
  | dropped _ _ _ hv => exact hupdate hv multicastsSearched_work
  | handed _ _ _ _ _ hv => exact hupdate hv fun h => multicastsSearched_work h

theorem multicast_keep {a : PsAct} (h : MulticastInv ap s) (hn : ∀ i, ap i = true → Noted s i)
    (he : a.enabled ap s) (hC : NotedBeforeSleep ap s a) :
    MulticastInv ap (a.next ap caps s) ∧ ∀ i, ap i = true → Noted (a.next ap caps s) i := by
  rcases hf : a.vifStep caps with _ | ⟨j, f⟩
  · cases a with
    | tx e a d auth => exact tx_next h (psTx_sent ap e a d auth s) he.2.ifId hn
    | getTx e =>
      have hturn := wsmGetTx_turned ap e s
      exact ⟨⟨hturn.accounted h.accounted, fun i hap => hturn.work (h.work i hap)⟩,
        fun i hap => hturn.noted h.accounted (hn i hap)⟩
    | queue ev =>
      obtain ⟨-, hv, hh, hin⟩ := he
      refine ⟨⟨accounted_step hv hh h.accounted, h.work⟩, ?_⟩
      intro i hap hd ha
      refine hn i hap ?_ ha
      have hdrains : ev.op.drainsOnly = true := by
        cases hop : ev.op <;> rw [hop] at hin <;> first | rfl | cases hin
      have hle := waitingAll_drains (dtimOf i) s.queues ev hdrains
      change waitingAll (dtimOf i) (s.queues.step ev) ≠ 0 at hd
      unfold dtimFrames
      omega
    | lockTx => exact ⟨⟨h.accounted, h.work⟩, hn⟩
    | unlockTx => exact ⟨⟨h.accounted, h.work⟩, hn⟩
    | wsmCmd b => exact ⟨⟨h.accounted, h.work⟩, hn⟩
    | firmwareCheck b => exact ⟨⟨h.accounted, h.work⟩, hn⟩
    | _ => cases hf
  · exact vifStep_next h he hf hn hC

theorem multicast_lose {a : PsAct} (he : a.enabled ap s) (hP' : MulticastOk ap (a.next ap caps s)) :
    NotedBeforeSleep ap s a := by
  intro i hi hap _ hd
  obtain ⟨hq, ha, hb⟩ := sleeps_next he hi
  rw [← hb]
  refine (hP' i hap ?_ ha).1
  unfold dtimFrames at hd ⊢
  rw [hq]
  exact hd

end

theorem multicastInv_start (ap : Nat → Bool) (ttl : Fin 4 → Int) : MulticastInv ap (psStart ttl) :=
  ⟨accounted_start ttl, fun _ _ ha => absurd rfl ha⟩

/-- **No multicast is stranded** -/
theorem multicasts_delivered {ap : Nat → Bool} {caps : WsmCaps} {ttl : Fin 4 → Int} {s : PsState}
    {l : List (PsState × PsAct)} (h : Path (powerSave ap caps) (psStart ttl) l s) :
    ((∀ p ∈ l, MulticastOk ap p.1) ∧ MulticastOk ap s) ↔ ∀ p ∈ l, NotedBeforeSleep ap p.1 p.2 := by
  refine Path.exact (I := MulticastInv ap) ?_ ?_ h (multicastInv_start ap ttl) ?_
  · rintro s a t hI hP ⟨he, rfl⟩ hC
    obtain ⟨hI', hn⟩ := multicast_keep hI ((multicastOk_iff hI.work).mp hP) he hC
    exact ⟨hI', (multicastOk_iff hI'.work).mpr hn⟩
  · rintro s a t - - ⟨he, rfl⟩ hP'
    exact multicast_lose he hP'
  · intro i _ _ ha
    exact absurd rfl ha

/-- A station falls asleep, a multicast frame is queued, announced and delivered. -/
def dtimRun : List PsAct :=
  apUp ++ [.notify 0 .sleep 1 true, multicastFrame, .startWork 0, .suspendResume 0 ⟨0, false, true⟩, .getTx sampleGetTx]

theorem multicasts_delivered_announced :
    MulticastOk (fun _ => true) (dtimRun.foldl (PsAct.next (fun _ => true) sampleCaps) (psStart fun _ => 1000)) :=
  ((multicasts_delivered (Path.ofFires (l := dtimRun) (by decide +kernel))).mpr (by decide +kernel)).2

/-- Two multicast frames are queued while nobody sleeps, and one is sent; then a station falls asleep. -/
theorem multicast_stranded :
    ∃ s, Reach (powerSave (fun _ => true) sampleCaps) s ∧ dtimFrames s 0 = 1 ∧ (s.vif 0).staAsleepMask ≠ 0 ∧
      (s.vif 0).bufferedMulticasts = false ∧ (s.vif 0).multicastStartWork = false ∧
      (s.vif 0).aid0BitSet = false ∧ (s.vif 0).txMulticast = false ∧ s.mcastTimeout 0 = false :=
  ⟨_, Reach.fires (.init ⟨fun _ => 1000, rfl⟩)
    (l := apUp ++ [multicastFrame, multicastFrame, .getTx sampleGetTx, .notify 0 .sleep 1 true]) (by decide +kernel),
    by decide +kernel⟩

end AtbmWifi
