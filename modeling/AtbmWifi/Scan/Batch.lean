import AtbmWifi.Scan.Finish

/-!
# A batch and its completion indication

* `LateHarmless`: an indication of an earlier batch comes when no scan is in
  progress, or the one in progress has timed out, or the interface is gone.
* `batch_ended_by_own`: along every run, `BatchOk` holds in every state exactly when
  every step is `LateHarmless`.

`scan.status` is `-ETIMEDOUT` until the next request is accepted, and the batch of that
arms its timeout before `wsm_scan` waits for the operation lock of the earlier one.
-/

namespace AtbmWifi

open Transition

structure BatchOk (s : ScanState) : Prop where
  reports : ∀ r ∈ s.reports, r.1 = r.2
  succeeded : ∀ b ∈ s.succeeded, b ∈ s.delivered

def LateHarmless (s : ScanState) : ScanAct → Prop
  | .indicate b vif =>
    b + 1 < s.nextBatch → vif = false ∨ s.inProgress = false ∨ s.status = -etimedout
  | _ => True

instance decLateHarmless (s : ScanState) : ∀ a, Decidable (LateHarmless s a)
  | .indicate b vif => inferInstanceAs
      (Decidable (b + 1 < s.nextBatch → vif = false ∨ s.inProgress = false ∨ s.status = -etimedout))
  | .hwScan _ | .hwScanDown | .hwScanSetup _ _ _ | .runWork _ | .runSplit _ | .runTimeout _ | .send _ _ _
  | .refuse _ _ _ _ | .reject _ _ _ _ | .confirm _ _ _ | .stopped _ _ | .otherDown | .otherUp | .operDown
  | .operUp => inferInstanceAs (Decidable True)

def Runner.batch : Runner → Option Nat
  | .starting _ _ b | .sent _ _ b => some b
  | _ => none

structure BatchInv (s : ScanState) : Prop where
  armed : s.timeout = true → s.timeoutFor + 1 = s.nextBatch
  inFlight : ∀ b ∈ s.inFlight, b < s.nextBatch
  runner : ∀ b, s.runner.batch = some b → b < s.nextBatch
  credited : 0 < s.status → s.timeout = true → s.timeoutFor ∈ s.delivered
  quiet : s.timeout = false → s.req = true → s.runner ≠ .stuck → s.status ≤ 0

theorem batchInv_init : BatchInv {} where
  armed := by simp
  inFlight := by simp
  runner := by simp [Runner.batch]
  credited := by simp
  quiet := by simp

def ScanState.told (s : ScanState) : List Nat × List (Nat × Nat) × List Nat :=
  (s.delivered, s.reports, s.succeeded)

structure Silent (s t : ScanState) : Prop where
  inv : BatchInv t
  told : t.told = s.told

variable {s : ScanState}

theorem Silent.batchOk {t : ScanState} (h : Silent s t) (hs : BatchOk s) : BatchOk t := by
  obtain ⟨hd, hr, hk⟩ : t.delivered = s.delivered ∧ t.reports = s.reports ∧ t.succeeded = s.succeeded := by
    simpa [ScanState.told] using h.told
  exact ⟨by rw [hr]; exact hs.reports, by rw [hk, hd]; exact hs.succeeded⟩

structure Unarmed (s : ScanState) : Prop where
  timeout : s.timeout = false
  status : s.status ≤ 0
  inFlight : ∀ b ∈ s.inFlight, b < s.nextBatch

theorem Unarmed.silent {t : ScanState} (h : Unarmed s) (ht : t.timeout = false)
    (hf : t.inFlight = s.inFlight) (hn : t.nextBatch = s.nextBatch) (hr : t.runner.batch = none)
    (hst : t.req = true → t.status ≤ 0) (told : t.told = s.told) : Silent s t where
  inv :=
    { armed := fun h => by rw [ht] at h; exact nomatch h
      inFlight := by rw [hf, hn]; exact h.inFlight
      runner := fun b hb => by rw [hr] at hb; exact nomatch hb
      credited := fun _ h => by rw [ht] at h; exact nomatch h
      quiet := fun _ hq _ => hst hq }
  told := told

theorem atbmScanStart_silent (h : Unarmed s) (item : ScanItem) (kind : ScanKind) :
    Silent s (atbmScanStart item kind s) where
  inv :=
    { armed := fun _ => by simp [atbmScanStart, h.timeout]
      inFlight := fun b hb => Nat.lt_succ_of_lt (h.inFlight b hb)
      runner := fun b hb => by
        obtain rfl := Option.some.inj hb
        exact Nat.lt_succ_self _
      credited := fun hst _ => absurd hst (Int.not_lt.mpr h.status)
      quiet := fun ht => nomatch ht }
  told := rfl

theorem scanDone_silent (h : Unarmed s) : Silent s (scanDone s) :=
  h.silent h.timeout rfl rfl rfl (fun hq => nomatch hq) rfl

theorem scanFail_silent (h : Unarmed s) {err : Int} (he : err ≤ 0) : Silent s (scanFail err s) :=
  h.silent h.timeout rfl rfl rfl (fun _ => he) rfl

theorem atbmScanWork_silent (h : Unarmed s) (splitCfg : Bool) (item : ScanItem)
    (env : WorkEnv) : Silent s (atbmScanWork splitCfg item env s) := by
  unfold atbmScanWork
  split
  · exact scanDone_silent h
  · split
    · split
      · exact atbmScanStart_silent h item .again
      · exact scanDone_silent h
    · split
      · exact scanFail_silent h (by decide)
      · exact atbmScanStart_silent h item _

theorem atbmScanComplete_silent (h : Unarmed s) (splitCfg : Bool) (env : WorkEnv) :
    Silent s (atbmScanComplete splitCfg env s) := by
  unfold atbmScanComplete
  split
  · exact h.silent h.timeout rfl rfl rfl (fun _ => h.status) rfl
  · exact atbmScanWork_silent h splitCfg .timeout env

theorem scanStartFailed_silent (h : BatchInv s) (item : ScanItem) (kind : ScanKind)
    {err : Int} (he : err < 0) : Silent s (scanStartFailed item kind err s) := by
  simp only [scanStartFailed]
  split
  · refine ⟨⟨by rintro ⟨⟩, h.inFlight, by rintro _ ⟨⟩, by rintro _ ⟨⟩, ?_⟩, rfl⟩
    exact fun _ _ hr => absurd rfl hr
  · cases kind with
    | batch n =>
      refine ⟨⟨by rintro ⟨⟩, h.inFlight, by rintro _ ⟨⟩, by rintro _ ⟨⟩, ?_⟩, rfl⟩
      exact fun _ _ _ => Int.le_of_lt he
    | again =>
      refine ⟨⟨by rintro ⟨⟩, h.inFlight, by rintro _ ⟨⟩, by rintro _ ⟨⟩, ?_⟩, rfl⟩
      rintro _ ⟨⟩

theorem atbmScanTimeout_keeps (h : BatchInv s) (hS : ScanInv s) (hP : BatchOk s)
    (ht : s.timeout = true) (splitCfg : Bool) (env : WorkEnv) :
    BatchInv (atbmScanTimeout splitCfg env { s with timeout := false }) ∧
    BatchOk (atbmScanTimeout splitCfg env { s with timeout := false }) := by
  have hp : s.inProgress = true := by rw [← hS.timeout, ht]
  simp only [atbmScanTimeout, hp, if_true]
  split
  · next hst =>
    have hu : Unarmed { s with
        status := 0, timeout := false, inProgress := false, succeeded := s.timeoutFor :: s.succeeded } :=
      ⟨rfl, Int.le_refl 0, h.inFlight⟩
    have hout := atbmScanComplete_silent hu splitCfg env
    refine ⟨hout.inv, hout.batchOk ⟨hP.reports, fun b hb => ?_⟩⟩
    rcases List.mem_cons.mp hb with rfl | hb
    · exact h.credited hst ht
    · exact hP.succeeded b hb
  · next hst =>
    have hle : s.status ≤ 0 := Int.not_lt.mp hst
    have hu : Unarmed { s with timeout := false, inProgress := false } := ⟨rfl, hle, h.inFlight⟩
    split
    · have hout : Silent { s with timeout := false, inProgress := false } { s with
          status := -etimedout, todo := [], timeout := false, inProgress := false, runner := .stopping } :=
        hu.silent rfl rfl rfl rfl (fun _ => by simp [etimedout]) rfl
      exact ⟨hout.inv, hout.batchOk ⟨hP.reports, hP.succeeded⟩⟩
    · have hout := atbmScanComplete_silent hu splitCfg env
      exact ⟨hout.inv, hout.batchOk ⟨hP.reports, hP.succeeded⟩⟩

theorem indicate_keeps (h : BatchInv s) (hS : ScanInv s) (hP : BatchOk s) {b : Nat}
    {vif : Bool} (hb : b ∈ s.inFlight) (hC : LateHarmless s (.indicate b vif)) :
    BatchInv (scanCompleteIndication b vif s) ∧ BatchOk (scanCompleteIndication b vif s) := by
  have hfl : ∀ x ∈ s.inFlight.erase b, x < s.nextBatch := fun x hx => h.inFlight x (List.mem_of_mem_erase hx)
  have hsucc : ∀ x ∈ s.succeeded, x ∈ b :: s.delivered :=
    fun x hx => List.mem_cons_of_mem b (hP.succeeded x hx)
  simp only [scanCompleteIndication]
  split
  · next hfire =>
    obtain ⟨hvif, hst, ht⟩ := hfire
    have hown : s.timeoutFor = b := by
      have ha := h.armed ht
      have hlt := h.inFlight b hb
      by_contra hne
      have hlate : b + 1 < s.nextBatch := by omega
      rcases hC hlate with hv | hp | hs
      · rw [hvif] at hv
        cases hv
      · rw [← hS.timeout, ht] at hp
        cases hp
      · exact hst hs
    refine ⟨⟨h.armed, hfl, h.runner, fun _ _ => ?_, fun hf => ?_⟩, ⟨fun r hr => ?_, hsucc⟩⟩
    · simp [hown]
    · rw [ht] at hf
      cases hf
    · rcases List.mem_cons.mp hr with rfl | hr
      · exact hown
      · exact hP.reports r hr
  · exact ⟨⟨h.armed, hfl, h.runner, fun hst ht => List.mem_cons_of_mem b (h.credited hst ht), h.quiet⟩,
      ⟨hP.reports, hsucc⟩⟩

theorem indicate_loses (h : BatchInv s) (hS : ScanInv s) {b : Nat} {vif : Bool}
    (ht : BatchOk (scanCompleteIndication b vif s)) : LateHarmless s (.indicate b vif) := by
  intro hlate
  by_contra hne
  obtain ⟨hvif, hp, hst⟩ : vif = true ∧ s.timeout = true ∧ s.status ≠ -etimedout := by
    simpa [hS.timeout] using hne
  have hr := ht.reports (s.timeoutFor, b) (by simp [scanCompleteIndication, hvif, hp, hst])
  have ha := h.armed hp
  have hown : s.timeoutFor = b := hr
  omega

theorem batch_step {splitCfg : Bool} (hS : ScanInv s) (h : BatchInv s) (hP : BatchOk s)
    {a : ScanAct} (he : a.Enabled s) (hC : LateHarmless s a) :
    BatchInv (a.next splitCfg s) ∧ BatchOk (a.next splitCfg s) := by
  have silent : ∀ {t : ScanState}, Silent s t → BatchInv t ∧ BatchOk t := fun o => ⟨o.inv, o.batchOk hP⟩
  cases a with
  | hwScan arg =>
    refine silent ?_
    simp only [ScanAct.next, hwScanBegin]
    split
    · exact ⟨⟨h.armed, h.inFlight, h.runner, h.credited, h.quiet⟩, rfl⟩
    · exact ⟨h, rfl⟩
  | hwScanDown | otherDown | otherUp | operDown | operUp =>
    exact silent ⟨⟨h.armed, h.inFlight, h.runner, h.credited, h.quiet⟩, rfl⟩
  | hwScanSetup ret bands split =>
    refine silent ?_
    simp only [ScanAct.next, hwScanSetup]
    split
    · exact ⟨⟨h.armed, h.inFlight, h.runner, h.credited, h.quiet⟩, rfl⟩
    · exact ⟨⟨h.armed, h.inFlight, h.runner, fun hst => absurd hst (Int.lt_irrefl 0),
        fun _ _ _ => Int.le_refl 0⟩, rfl⟩
  | runWork env =>
    obtain ⟨hq, -, ht⟩ := hS.mark.2.1 he.1 he.2
    have hu : Unarmed { s with work := false } := ⟨ht, h.quiet ht hq (by simp [he.1]), h.inFlight⟩
    have o := atbmScanWork_silent hu splitCfg .work env
    exact silent ⟨o.inv, o.told⟩
  | runSplit env =>
    obtain ⟨hq, -, ht⟩ := hS.mark.2.2.1 he.1 he.2
    have hu : Unarmed { s with splitWork := false, txLock := s.txLock + 1 } :=
      ⟨ht, h.quiet ht hq (by simp [he.1]), h.inFlight⟩
    have o := atbmScanWork_silent hu splitCfg .split env
    exact silent ⟨o.inv, o.told⟩
  | runTimeout env => exact atbmScanTimeout_keeps h hS hP he.2 splitCfg env
  | send item kind b =>
    have hb : b < s.nextBatch := h.runner b (by rw [he.1]; rfl)
    refine silent ⟨⟨h.armed, fun x hx => ?_, fun x hx => ?_, h.credited, fun ht hq _ => ?_⟩, rfl⟩
    · rcases List.mem_cons.mp hx with rfl | hx
      · exact hb
      · exact h.inFlight x hx
    · obtain rfl := Option.some.inj hx
      exact hb
    · exact h.quiet ht hq (by simp [he.1])
  | refuse item kind b err => exact silent (scanStartFailed_silent h item kind he.2)
  | reject item kind b err =>
    have h' : BatchInv { s with operLock := s.operLock + 1, inFlight := s.inFlight.erase b } :=
      ⟨h.armed, fun x hx => h.inFlight x (List.mem_of_mem_erase hx), h.runner, h.credited, h.quiet⟩
    have o := scanStartFailed_silent h' item kind he.2.1
    exact silent ⟨o.inv, o.told⟩
  | confirm item kind b =>
    have hr : s.runner = .sent item kind b := he
    have hquiet : s.timeout = false → s.req = true → Runner.idle ≠ .stuck → s.status ≤ 0 :=
      fun ht hq _ => h.quiet ht hq (by simp [hr])
    cases kind with
    | batch n => exact silent ⟨⟨h.armed, h.inFlight, by rintro _ ⟨⟩, h.credited, hquiet⟩, rfl⟩
    | again => exact silent ⟨⟨h.armed, h.inFlight, by rintro _ ⟨⟩, h.credited, hquiet⟩, rfl⟩
  | stopped ok env =>
    have hr : s.runner = .stopping := he
    have hne : s.runner ≠ .idle := by simp [hr]
    have ht : s.timeout = false := by rw [hS.armed hne, hr]; rfl
    have hst := h.quiet ht (hS.mark.1 hne).1 (by simp [hr])
    cases ok with
    | true =>
      have hu : Unarmed s := ⟨ht, hst, h.inFlight⟩
      exact silent (atbmScanComplete_silent hu splitCfg env)
    | false =>
      have hu : Unarmed { s with waitComplete := false, operLock := s.operLock + 1 } := ⟨ht, hst, h.inFlight⟩
      have o := atbmScanComplete_silent hu splitCfg env
      exact silent ⟨o.inv, o.told⟩
  | indicate b vif => exact indicate_keeps h hS hP he hC

/-- **A batch is ended by its own indication.** -/
theorem batch_ended_by_own {splitCfg : Bool} {t : ScanState} {l : List (ScanState × ScanAct)}
    (hp : Path (scanning splitCfg) {} l t) :
    ((∀ p ∈ l, BatchOk p.1) ∧ BatchOk t) ↔ ∀ p ∈ l, LateHarmless p.1 p.2 := by
  refine Path.exact (I := fun s => ScanInv s ∧ BatchInv s) ?_ ?_ hp ⟨scanInv_init, batchInv_init⟩
    ⟨by simp, by simp⟩
  · rintro s a t ⟨hS, hB⟩ hP ⟨he, rfl⟩ hC
    obtain ⟨hB', hP'⟩ := batch_step hS hB hP he hC
    exact ⟨⟨(scan_step splitCfg hS he).1, hB'⟩, hP'⟩
  · rintro s a t ⟨hS, hB⟩ - ⟨-, rfl⟩ ht
    cases a with
    | indicate b vif => exact indicate_loses hB hS ht
    | hwScan | hwScanDown | hwScanSetup | runWork | runSplit | runTimeout | send | refuse | reject | confirm
    | stopped | otherDown | otherUp | operDown | operUp => trivial

def oneChannel (b : Nat) : List ScanAct :=
  [.hwScan scanArg, .hwScanDown, .hwScanSetup 0 [0] false, .runWork plainEnv, .send .work (.batch 1) b,
    .confirm .work (.batch 1) b]

/-- The batch times out and is indicated while the next request waits for `scan.work`. -/
def lateInTime : List ScanAct :=
  oneChannel 0 ++ [.runTimeout plainEnv, .stopped true plainEnv, .indicate 0 true] ++ oneChannel 1 ++
    [.indicate 1 true, .runTimeout plainEnv]

theorem batch_ended_by_own_lateInTime :
    BatchOk (lateInTime.foldl (ScanAct.next false) {}) ∧
    (lateInTime.foldl (ScanAct.next false) {}).succeeded = [1] :=
  ⟨((batch_ended_by_own (Path.ofFires (l := lateInTime) (by decide +kernel))).mpr (by decide +kernel)).2,
    by decide +kernel⟩

/-- The batch of the second request waits for the operation lock when the first is indicated. -/
def lateIndication : List ScanAct :=
  oneChannel 0 ++ [.runTimeout plainEnv, .stopped true plainEnv] ++ (oneChannel 1).take 4 ++
    [.indicate 0 true, .send .work (.batch 1) 1, .confirm .work (.batch 1) 1, .runTimeout plainEnv]

/-- **The failing run.**  The indication of a batch that timed out cancels the timeout of the next
request's batch; the request is completed, not aborted, with its batch still in the firmware. -/
theorem late_indication_taken :
    ∃ s, Reach (scanning false) s ∧ s.reports = [(1, 0)] ∧ s.succeeded = [1] ∧ s.delivered = [0] ∧
      s.inFlight = [1] ∧ s.completions = [false, true] ∧ ¬ BatchOk s := by
  refine ⟨lateIndication.foldl (ScanAct.next false) {}, Reach.fires (.init rfl) (by decide +kernel),
    by decide +kernel, by decide +kernel, by decide +kernel, by decide +kernel, by decide +kernel, ?_⟩
  intro h
  exact absurd (h.reports (1, 0) (by decide +kernel)) (by decide)

end AtbmWifi
