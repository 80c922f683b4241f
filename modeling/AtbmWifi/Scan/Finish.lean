import AtbmWifi.Scan.Model

/-!
# Every accepted scan finishes once

* `ScanInv`: holds of every reachable state.  An accepted request has one mark, on
  a queued item or on the item that runs (`token`), and `scan.lock`, the TX lock, the
  suspend holds and the completions are what the request and the other holders
  account for.

`atbm_scan_start` cancels `scan.timeout` and waits for it, and all batches after the
first of a request that is not split are started by `scan.timeout`.
-/

namespace AtbmWifi

open Transition

def ScanState.token (s : ScanState) : Nat :=
  s.work.toNat + s.splitWork.toNat + if s.runner = .idle then s.timeout.toNat else 1

/-- The runner waits in a batch that `atbm_scan_start` has armed the timeout for. -/
def Runner.inBatch : Runner → Bool
  | .starting .. | .sent .. => true
  | _ => false

def Runner.numOfChannels : Runner → Option Nat
  | .starting _ (.batch n) _ | .sent _ (.batch n) _ => some n
  | _ => none

structure ScanInv (s : ScanState) : Prop where
  token : s.token = s.req.toNat
  timeout : s.timeout = s.inProgress
  armed : s.runner ≠ .idle → s.timeout = s.runner.inBatch
  batch : ∀ n, s.runner.numOfChannels = some n → 0 < n ∧ n ≤ s.todo.length
  noBug : s.bug = false
  lock : s.scanLock + s.req.toNat + s.others + s.settingUp = 1
  tx : s.txLock + s.splitWork.toNat = s.req.toNat
  suspend : s.suspend = s.req.toNat + s.waiting + s.settingUp
  once : s.accepted = s.completions.length + s.req.toNat

/-- An item is queued, or runs and does not wait for itself. -/
def ScanState.OnItsWay (s : ScanState) : Prop :=
  s.work = true ∨ s.splitWork = true ∨ (s.runner = .idle ∧ s.timeout = true ∧ s.inProgress = true) ∨
    s.runner.inBatch = true ∨ s.runner = .stopping

structure ScanOk (s : ScanState) : Prop where
  noBug : s.bug = false
  lock : s.scanLock + s.req.toNat + s.others + s.settingUp = 1
  tx : s.txLock + s.splitWork.toNat = s.req.toNat
  suspend : s.suspend = s.req.toNat + s.waiting + s.settingUp
  once : s.accepted = s.completions.length + s.req.toNat
  onItsWay : s.req = true → s.OnItsWay

variable {s t : ScanState} {a : ScanAct} {splitCfg : Bool} {env : WorkEnv}

theorem ScanInv.onItsWay_iff (h : ScanInv s) : (s.req = true → s.OnItsWay) ↔ s.runner ≠ .stuck := by
  have ht := h.token
  have hp := h.timeout
  unfold ScanState.token at ht
  unfold ScanState.OnItsWay
  cases hr : s.runner <;> cases hw : s.work <;> cases hs : s.splitWork <;> cases hq : s.req <;>
    simp_all [Runner.inBatch]

theorem ScanInv.ok (h : ScanInv s) (hr : s.runner ≠ .stuck) : ScanOk s :=
  ⟨h.noBug, h.lock, h.tx, h.suspend, h.once, h.onItsWay_iff.mpr hr⟩

theorem scanInv_init : ScanInv {} where
  token := rfl
  timeout := rfl
  armed := fun h => absurd rfl h
  batch := fun _ h => nomatch h
  noBug := rfl
  lock := rfl
  tx := rfl
  suspend := rfl
  once := rfl

/-- What a request and its calls hold, with the TX lock a split batch will take back. -/
def ScanState.held (s : ScanState) : Bool × Bool × Nat × Nat × Nat × Nat × Int × Int × Nat × Nat :=
  (s.req, s.bug, s.scanLock, s.others, s.settingUp, s.waiting, s.suspend, s.txLock + s.splitWork.toNat,
    s.accepted, s.completions.length)

/-- Inside a step: the item has its mark off the queue, and the request is accounted for. -/
structure Running (s : ScanState) : Prop where
  req : s.req = true
  work : s.work = false
  splitWork : s.splitWork = false
  timeout : s.timeout = false
  inProgress : s.inProgress = false
  noBug : s.bug = false
  lock : s.scanLock + 1 + s.others + s.settingUp = 1
  tx : s.txLock = 1
  suspend : s.suspend = 1 + s.waiting + s.settingUp
  once : s.accepted = s.completions.length + 1

def ScanState.calls (s : ScanState) : Nat × Nat × Nat × Nat :=
  (s.accepted, s.others, s.waiting, s.settingUp)

structure Outcome (s t : ScanState) : Prop where
  inv : ScanInv t
  calls : t.calls = s.calls

theorem ScanInv.running (h : ScanInv s) (hq : s.req = true) (hh : t.held = s.held)
    (work : t.work = false) (splitWork : t.splitWork = false) (timeout : t.timeout = false)
    (inProgress : t.inProgress = false) : Running t := by
  simp only [ScanState.held, splitWork, Prod.mk.injEq] at hh
  obtain ⟨hreq, hbug, hlock, hothers, hset, hwait, hsus, htx, hacc, hcomp⟩ := hh
  have l := h.lock
  have x := h.tx
  have u := h.suspend
  have o := h.once
  rw [hq] at l x u o
  refine ⟨hreq.trans hq, work, splitWork, timeout, inProgress, hbug.trans h.noBug, ?_, ?_, ?_, ?_⟩
  · simpa [hlock, hothers, hset] using l
  · simpa [← htx] using x
  · simpa [hsus, hwait, hset] using u
  · simpa [hacc, hcomp] using o

theorem ScanInv.mark (h : ScanInv s) : (s.runner ≠ .idle → s.req = true ∧ s.work = false ∧ s.splitWork = false) ∧
    (s.runner = .idle → s.work = true → s.req = true ∧ s.splitWork = false ∧ s.timeout = false) ∧
    (s.runner = .idle → s.splitWork = true → s.req = true ∧ s.work = false ∧ s.timeout = false) ∧
    (s.runner = .idle → s.timeout = true → s.req = true ∧ s.work = false ∧ s.splitWork = false) := by
  have ht := h.token
  unfold ScanState.token at ht
  cases hw : s.work <;> cases hs : s.splitWork <;> cases hq : s.req <;> cases hp : s.timeout <;>
    by_cases hr : s.runner = .idle <;> simp_all

theorem scanDone_outcome (h : Running s) : Outcome s (scanDone s) where
  inv := by
    refine ⟨?_, ?_, ?_, ?_, h.noBug, ?_, ?_, ?_, ?_⟩
    · simp [ScanState.token, scanDone, h.work, h.splitWork, h.timeout]
    · simp [scanDone, h.timeout, h.inProgress]
    · simp [scanDone]
    · simp [scanDone, Runner.numOfChannels]
    · have := h.lock
      simp only [scanDone, Bool.toNat_false]
      omega
    · simp [scanDone, h.tx, h.splitWork]
    · simp [scanDone, h.suspend]
      omega
    · simp [scanDone, h.once]
  calls := rfl

theorem Running.outcome (h : Running s) (token : t.token = 1)
    (timeout : t.timeout = t.inProgress) (armed : t.runner ≠ .idle → t.timeout = t.runner.inBatch)
    (batch : ∀ n, t.runner.numOfChannels = some n → 0 < n ∧ n ≤ t.todo.length) (hh : t.held = s.held) :
    Outcome s t := by
  simp only [ScanState.held, h.splitWork, h.req, Prod.mk.injEq] at hh
  obtain ⟨hreq, hbug, hlock, hothers, hset, hwait, hsus, htx, hacc, hcomp⟩ := hh
  refine ⟨⟨by simp [token, hreq], timeout, armed, batch, hbug.trans h.noBug, ?_, ?_, ?_, ?_⟩,
    by simp [ScanState.calls, hacc, hothers, hwait, hset]⟩
  · simp [hreq, hlock, hothers, hset, h.lock]
  · simp [hreq, htx, h.tx]
  · simp [hreq, hsus, hwait, hset, h.suspend]
  · simp [hreq, hacc, hcomp, h.once]

theorem Running.waits (h : Running s) {r : Runner} (hr : r ≠ .idle) (hb : r.inBatch = false)
    (hn : r.numOfChannels = none) (status : Int) (todo : List Nat) :
    Outcome s { s with status, todo, runner := r } := by
  refine h.outcome ?_ ?_ (fun _ => ?_) (fun n h => ?_) rfl
  · simp [ScanState.token, h.work, h.splitWork, hr]
  · simp [h.timeout, h.inProgress]
  · simp [h.timeout, hb]
  · simp [hn] at h

theorem scanFail_outcome (h : Running s) (err : Int) : Outcome s (scanFail err s) := by
  refine h.outcome ?_ ?_ (fun hr => absurd rfl hr) (fun _ hn => nomatch hn) rfl
  · simp [ScanState.token, scanFail, h.splitWork, h.timeout]
  · simp [scanFail, h.timeout, h.inProgress]

theorem atbmScanStart_outcome (h : Running s) (item : ScanItem) {kind : ScanKind}
    (hk : ∀ n, kind = .batch n → 0 < n ∧ n ≤ s.todo.length) :
    Outcome s (atbmScanStart item kind s) := by
  refine h.outcome ?_ rfl (fun _ => rfl) ?_ rfl
  · simp [ScanState.token, atbmScanStart, h.work, h.splitWork]
  · intro n hn
    cases kind with
    | again => exact nomatch hn
    | batch m => exact hk n (congrArg ScanKind.batch (Option.some.inj hn))

theorem batchLen_bounds (max : Nat) {l : List Nat} (hl : l ≠ []) :
    0 < batchLen max l ∧ batchLen max l ≤ l.length := by
  cases l with
  | nil => exact absurd rfl hl
  | cons band l =>
    have h1 : ((l.take (max - 1)).takeWhile (· == band)).length ≤ (l.take (max - 1)).length :=
      (List.takeWhile_sublist _).length_le
    have h2 : (l.take (max - 1)).length ≤ l.length := List.length_take_le' ..
    simp only [batchLen, List.length_cons]
    omega

theorem atbmScanWork_outcome (h : Running s) (splitCfg : Bool) (item : ScanItem)
    (env : WorkEnv) : Outcome s (atbmScanWork splitCfg item env s) := by
  unfold atbmScanWork
  split
  · exact scanDone_outcome h
  · split
    · split
      · exact atbmScanStart_outcome h item (fun _ hk => nomatch hk)
      · exact scanDone_outcome h
    · next htodo =>
      split
      · exact scanFail_outcome h _
      · refine atbmScanStart_outcome h item fun n hn => ?_
        obtain rfl := ScanKind.batch.inj hn
        exact batchLen_bounds _ fun h0 => htodo (Or.inr h0)

theorem atbmScanComplete_outcome (h : Running s) (splitCfg : Bool) (env : WorkEnv) :
    Outcome s (atbmScanComplete splitCfg env s) := by
  unfold atbmScanComplete
  split
  · refine h.outcome ?_ ?_ (fun hr => absurd rfl hr) (fun _ hn => nomatch hn) ?_
    · simp [ScanState.token, h.work, h.timeout]
    · simp [h.timeout, h.inProgress]
    · simp [ScanState.held, h.splitWork]
  · exact atbmScanWork_outcome h splitCfg _ env

theorem scanStartFailed_outcome (h : ScanInv s) (hr : s.runner.inBatch = true) (item : ScanItem)
    (kind : ScanKind) (err : Int) : Outcome s (scanStartFailed item kind err s) := by
  have hne : s.runner ≠ .idle := fun h0 => by simp [h0, Runner.inBatch] at hr
  obtain ⟨hq, hw, hs⟩ := h.mark.1 hne
  have hrun : Running { s with waitComplete := false, inProgress := false, timeout := false } :=
    h.running hq rfl hw hs rfl rfl
  simp only [scanStartFailed]
  split
  · have o := hrun.waits (r := .stuck) (by simp) rfl rfl s.status s.todo
    exact ⟨o.inv, o.calls⟩
  · cases kind with
    | batch n =>
      have o := scanFail_outcome hrun err
      exact ⟨o.inv, o.calls⟩
    | again =>
      have o := scanDone_outcome hrun
      exact ⟨o.inv, o.calls⟩

theorem atbmScanTimeout_outcome (h : ScanInv s) (hr : s.runner = .idle)
    (ht : s.timeout = true) (splitCfg : Bool) (env : WorkEnv) :
    Outcome s (atbmScanTimeout splitCfg env { s with timeout := false }) := by
  obtain ⟨hq, hw, hs⟩ := h.mark.2.2.2 hr ht
  have hp : s.inProgress = true := by rw [← h.timeout, ht]
  have hrun : ∀ status succeeded, Running { s with status, succeeded, timeout := false, inProgress := false } :=
    fun _ _ => h.running hq rfl hw hs rfl rfl
  simp only [atbmScanTimeout, hp, if_true]
  split
  · have o := atbmScanComplete_outcome (hrun 0 (s.timeoutFor :: s.succeeded)) splitCfg env
    exact ⟨o.inv, o.calls⟩
  · split
    · have o := (hrun s.status s.succeeded).waits (r := .stopping) (by simp) rfl rfl (-etimedout) []
      exact ⟨o.inv, o.calls⟩
    · have o := atbmScanComplete_outcome (hrun s.status s.succeeded) splitCfg env
      exact ⟨o.inv, o.calls⟩

theorem scanStopped_outcome (h : ScanInv s) (hr : s.runner = .stopping) (splitCfg ok : Bool)
    (env : WorkEnv) : Outcome s (scanStopped splitCfg ok env s) := by
  have hne : s.runner ≠ .idle := by simp [hr]
  obtain ⟨hq, hw, hs⟩ := h.mark.1 hne
  have ht : s.timeout = false := by rw [h.armed hne, hr]; rfl
  have hp : s.inProgress = false := by rw [← h.timeout, ht]
  cases ok with
  | true => exact atbmScanComplete_outcome (h.running hq rfl hw hs ht hp) splitCfg env
  | false =>
    have hrun : Running { s with waitComplete := false, operLock := s.operLock + 1 } :=
      h.running hq rfl hw hs ht hp
    have o := atbmScanComplete_outcome hrun splitCfg env
    exact ⟨o.inv, o.calls⟩

/-- A step that ends the request completes it and gives its three holds back; no other completes. -/
structure EndsOnce (s t : ScanState) : Prop where
  ended : s.req = true → t.req = false →
    t.completions.length = s.completions.length + 1 ∧ t.scanLock = s.scanLock + 1 ∧
      t.txLock = s.txLock + s.splitWork.toNat - 1 ∧ t.suspend = s.suspend - 1
  kept : ¬ (s.req = true ∧ t.req = false) → t.completions.length = s.completions.length

theorem Outcome.endsOnce (hs : ScanInv s) (hq : s.req = true) (o : Outcome s t) : EndsOnce s t := by
  have l := hs.lock
  have x := hs.tx
  have u := hs.suspend
  have n := hs.once
  have l' := o.inv.lock
  have x' := o.inv.tx
  have u' := o.inv.suspend
  have n' := o.inv.once
  obtain ⟨hacc, hothers, hwait, hset⟩ : t.accepted = s.accepted ∧ t.others = s.others ∧
      t.waiting = s.waiting ∧ t.settingUp = s.settingUp := by simpa [ScanState.calls] using o.calls
  rw [hothers, hset] at l'
  rw [hwait, hset] at u'
  rw [hacc] at n'
  rw [hq] at l x u n
  simp only [Bool.toNat_true] at l x u n
  refine ⟨fun _ ht => ?_, fun ht => ?_⟩
  · have hsplit : t.splitWork.toNat = 0 := by
      have := o.inv.token
      rw [ht] at this
      simp only [ScanState.token, Bool.toNat_false] at this
      omega
    rw [ht] at l' x' u' n'
    simp only [hsplit, Bool.toNat_false] at l' x' u' n'
    refine ⟨?_, ?_, ?_, ?_⟩ <;> omega
  · have ht : t.req = true := by simpa [hq] using ht
    rw [ht] at n'
    simp only [Bool.toNat_true] at n'
    omega

theorem endsOnce_of_kept (hreq : s.req = true → t.req = true) (hc : t.completions = s.completions) : EndsOnce s t :=
  ⟨fun hs ht => by simp [hreq hs] at ht, fun _ => by rw [hc]⟩

theorem hwScanSetup_keeps (h : ScanInv s) (hu : 0 < s.settingUp) (ret : Int)
    (bands : List Nat) (split : Bool) : ScanInv (hwScanSetup ret bands split s) := by
  have hl := h.lock
  have hq : s.req = false := by
    cases hq : s.req with
    | false => rfl
    | true =>
      rw [hq, Bool.toNat_true] at hl
      omega
  rw [hq, Bool.toNat_false] at hl
  have hu' := h.suspend
  have hx := h.tx
  have ho := h.once
  rw [hq] at hu' hx ho
  simp only [Bool.toNat_false] at hu' hx ho
  simp only [hwScanSetup]
  split
  · refine ⟨h.token, h.timeout, h.armed, h.batch, h.noBug, ?_, h.tx, ?_, h.once⟩
    · simp only [hq, Bool.toNat_false]
      omega
    · simp only [hq, Bool.toNat_false]
      omega
  · have htok := h.token
    rw [hq, ScanState.token] at htok
    simp only [Bool.toNat_false] at htok
    have hidle : s.runner = .idle := by
      by_contra hne
      simp [hne] at htok
    rw [if_pos hidle] at htok
    have hs : s.splitWork.toNat = 0 := by omega
    refine ⟨?_, h.timeout, h.armed, ?_, ?_, ?_, ?_, ?_, ?_⟩
    · simp only [ScanState.token, hidle, if_true, Bool.toNat_true]
      omega
    · simp [hidle, Runner.numOfChannels]
    · simp [h.noBug, hq]
    · simp only [Bool.toNat_true]
      omega
    · simp only [Bool.toNat_true]
      omega
    · simp only [Bool.toNat_true]
      omega
    · simp only [Bool.toNat_true]
      omega

theorem scanConfirmed_keeps (h : ScanInv s) {item : ScanItem} {kind : ScanKind} {b : Nat}
    (hr : s.runner = .sent item kind b) : ScanInv (scanConfirmed kind s) := by
  have hne : s.runner ≠ .idle := by simp [hr]
  obtain ⟨hq, hw, hs⟩ := h.mark.1 hne
  have ht : s.timeout = true := by rw [h.armed hne, hr]; rfl
  have htok : ∀ todo, ScanState.token { s with todo, runner := .idle } = s.req.toNat := by
    intro todo
    simp [ScanState.token, hq, hw, hs, ht]
  cases kind with
  | batch n =>
    exact ⟨htok _, h.timeout, fun h0 => absurd rfl h0, (fun _ hn => nomatch hn), h.noBug, h.lock, h.tx,
      h.suspend, h.once⟩
  | again =>
    exact ⟨htok _, h.timeout, fun h0 => absurd rfl h0, (fun _ hn => nomatch hn), h.noBug, h.lock, h.tx,
      h.suspend, h.once⟩

theorem ScanInv.indicated (h : ScanInv s) (b : Nat) (vif : Bool) : ScanInv (scanCompleteIndication b vif s) := by
  simp only [scanCompleteIndication]
  split <;> exact ⟨h.token, h.timeout, h.armed, h.batch, h.noBug, h.lock, h.tx, h.suspend, h.once⟩

theorem scan_step (splitCfg : Bool) (h : ScanInv s) (he : a.Enabled s) :
    ScanInv (a.next splitCfg s) ∧ EndsOnce s (a.next splitCfg s) := by
  have hl := h.lock
  have hu := h.suspend
  cases a with
  | hwScan arg =>
    simp only [ScanAct.next, hwScanBegin]
    split
    · refine ⟨⟨h.token, h.timeout, h.armed, h.batch, h.noBug, h.lock, h.tx, ?_, h.once⟩,
        endsOnce_of_kept (fun hq => hq) rfl⟩
      simp only
      omega
    · exact ⟨h, endsOnce_of_kept (fun hq => hq) rfl⟩
  | hwScanDown =>
    obtain ⟨hw, hk⟩ := he
    refine ⟨⟨h.token, h.timeout, h.armed, h.batch, h.noBug, ?_, h.tx, ?_, h.once⟩,
      endsOnce_of_kept (fun hq => hq) rfl⟩
    · simp only [ScanAct.next, AtbmWifi.hwScanDown]
      omega
    · simp only [ScanAct.next, AtbmWifi.hwScanDown]
      omega
  | hwScanSetup ret bands split =>
    refine ⟨hwScanSetup_keeps h he ret bands split, ?_⟩
    simp only [ScanAct.next, AtbmWifi.hwScanSetup]
    split
    · exact endsOnce_of_kept (fun hq => hq) rfl
    · exact endsOnce_of_kept (fun _ => rfl) rfl
  | runWork env =>
    obtain ⟨hr, hw⟩ := he
    obtain ⟨hq, hs, ht⟩ := h.mark.2.1 hr hw
    have hrun : Running { s with work := false } :=
      h.running hq rfl rfl hs ht (h.timeout.symm.trans ht)
    have o := atbmScanWork_outcome hrun splitCfg .work env
    have o : Outcome s _ := ⟨o.inv, o.calls⟩
    exact ⟨o.inv, o.endsOnce h hq⟩
  | runSplit env =>
    obtain ⟨hr, hw⟩ := he
    obtain ⟨hq, hs, ht⟩ := h.mark.2.2.1 hr hw
    have hrun : Running { s with splitWork := false, txLock := s.txLock + 1 } := by
      refine h.running hq ?_ hs rfl ht (h.timeout.symm.trans ht)
      simp [ScanState.held, hw]
    have o := atbmScanWork_outcome hrun splitCfg .split env
    have o : Outcome s _ := ⟨o.inv, o.calls⟩
    exact ⟨o.inv, o.endsOnce h hq⟩
  | runTimeout env =>
    have o := atbmScanTimeout_outcome h he.1 he.2 splitCfg env
    exact ⟨o.inv, o.endsOnce h (h.mark.2.2.2 he.1 he.2).1⟩
  | send item kind b =>
    obtain ⟨hr, -⟩ := he
    have hne : s.runner ≠ .idle := by simp [hr]
    have ht := h.token
    have ha := h.armed hne
    have hb := h.batch
    rw [ScanState.token, if_neg hne] at ht
    rw [hr] at ha hb
    refine ⟨⟨?_, h.timeout, fun _ => ha, ?_, h.noBug, h.lock, h.tx, h.suspend, h.once⟩,
      endsOnce_of_kept (fun hq => hq) rfl⟩
    · simpa [ScanState.token, ScanAct.next] using ht
    · cases kind with
      | batch n => exact hb
      | again => exact fun _ hn => nomatch hn
  | refuse item kind b err =>
    have hb : s.runner.inBatch = true := by rw [he.1]; rfl
    have o := scanStartFailed_outcome h hb item kind err
    exact ⟨o.inv, o.endsOnce h (h.mark.1 (by simp [he.1])).1⟩
  | reject item kind b err =>
    have hb : s.runner.inBatch = true := by rw [he.1]; rfl
    have h' : ScanInv { s with operLock := s.operLock + 1, inFlight := s.inFlight.erase b } :=
      ⟨h.token, h.timeout, h.armed, h.batch, h.noBug, h.lock, h.tx, h.suspend, h.once⟩
    have o := scanStartFailed_outcome h' hb item kind err
    have o : Outcome s _ := ⟨o.inv, o.calls⟩
    exact ⟨o.inv, o.endsOnce h (h.mark.1 (by simp [he.1])).1⟩
  | confirm item kind b =>
    refine ⟨scanConfirmed_keeps h he, ?_⟩
    cases kind with
    | batch => exact endsOnce_of_kept (fun hq => hq) rfl
    | again => exact endsOnce_of_kept (fun hq => hq) rfl
  | stopped ok env =>
    have hr : s.runner = .stopping := he
    have o := scanStopped_outcome h hr splitCfg ok env
    exact ⟨o.inv, o.endsOnce h (h.mark.1 (by simp [hr])).1⟩
  | indicate b vif =>
    refine ⟨h.indicated b vif, ?_⟩
    simp only [ScanAct.next, scanCompleteIndication]
    split <;> exact endsOnce_of_kept (fun hq => hq) rfl
  | otherDown =>
    have hk : 0 < s.scanLock := he
    refine ⟨⟨h.token, h.timeout, h.armed, h.batch, h.noBug, ?_, h.tx, h.suspend, h.once⟩,
      endsOnce_of_kept (fun hq => hq) rfl⟩
    simp only [ScanAct.next]
    omega
  | otherUp =>
    have hk : 0 < s.others := he
    refine ⟨⟨h.token, h.timeout, h.armed, h.batch, h.noBug, ?_, h.tx, h.suspend, h.once⟩,
      endsOnce_of_kept (fun hq => hq) rfl⟩
    simp only [ScanAct.next]
    omega
  | operDown | operUp =>
    exact ⟨⟨h.token, h.timeout, h.armed, h.batch, h.noBug, h.lock, h.tx, h.suspend, h.once⟩,
      endsOnce_of_kept (fun hq => hq) rfl⟩

theorem scanInv_path {l : List (ScanState × ScanAct)}
    (hp : Path (scanning splitCfg) s l t) (hs : ScanInv s) : ScanInv t := by
  refine hp.invariant ?_ hs
  rintro s a t h ⟨he, rfl⟩
  exact (scan_step splitCfg h he).1

/-- No batch fails to start that `scan.timeout` has started. -/
def NotFromTimeout (_ : ScanState) : ScanAct → Prop
  | .refuse item _ _ _ | .reject item _ _ _ => item ≠ .timeout
  | _ => True

instance decNotFromTimeout (s : ScanState) : ∀ a, Decidable (NotFromTimeout s a)
  | .refuse item _ _ _ => inferInstanceAs (Decidable (item ≠ .timeout))
  | .reject item _ _ _ => inferInstanceAs (Decidable (item ≠ .timeout))
  | .hwScan _ | .hwScanDown | .hwScanSetup _ _ _ | .runWork _ | .runSplit _ | .runTimeout _ | .send _ _ _
  | .confirm _ _ _ | .stopped _ _ | .indicate _ _ | .otherDown | .otherUp | .operDown | .operUp =>
    inferInstanceAs (Decidable True)

theorem scanWork_not_stuck (splitCfg : Bool) (item : ScanItem) (env : WorkEnv) (s : ScanState) :
    (atbmScanWork splitCfg item env s).runner ≠ .stuck := by
  unfold atbmScanWork
  split
  · simp [scanDone]
  · split
    · split
      · simp [atbmScanStart]
      · simp [scanDone]
    · split
      · simp [scanFail]
      · simp [atbmScanStart]

theorem scanComplete_not_stuck (splitCfg : Bool) (env : WorkEnv) (s : ScanState) :
    (atbmScanComplete splitCfg env s).runner ≠ .stuck := by
  unfold atbmScanComplete
  split
  · simp
  · exact scanWork_not_stuck splitCfg .timeout env s

theorem scanTimeout_not_stuck (splitCfg : Bool) (env : WorkEnv) (hs : s.runner ≠ .stuck) :
    (atbmScanTimeout splitCfg env s).runner ≠ .stuck := by
  simp only [atbmScanTimeout]
  split
  · split
    · exact scanComplete_not_stuck splitCfg env _
    · split
      · simp
      · exact scanComplete_not_stuck splitCfg env _
  · exact hs

theorem scanStartFailed_stuck (item : ScanItem) (kind : ScanKind) (err : Int) (s : ScanState) :
    (scanStartFailed item kind err s).runner = .stuck ↔ item = .timeout := by
  unfold scanStartFailed
  split
  · next h => simp [h]
  · next h => cases kind <;> simp [h, scanFail, scanDone]

theorem next_not_stuck (hs : s.runner ≠ .stuck) (a : ScanAct) :
    (a.next splitCfg s).runner ≠ .stuck ↔ NotFromTimeout s a := by
  have hset : ∀ {t : ScanState}, t.runner = s.runner → (t.runner ≠ .stuck ↔ True) := by
    intro t ht
    simp [ht, hs]
  cases a with
  | hwScan arg =>
    refine hset ?_
    simp only [ScanAct.next, hwScanBegin]
    split <;> rfl
  | hwScanSetup ret bands split =>
    refine hset ?_
    simp only [ScanAct.next, hwScanSetup]
    split <;> rfl
  | runWork env => simp [NotFromTimeout, ScanAct.next, scanWork_not_stuck]
  | runSplit env => simp [NotFromTimeout, ScanAct.next, atbmScanSplitWork, scanWork_not_stuck]
  | runTimeout env =>
    have : (atbmScanTimeout splitCfg env { s with timeout := false }).runner ≠ .stuck :=
      scanTimeout_not_stuck splitCfg env hs
    simp [NotFromTimeout, ScanAct.next, this]
  | send => simp [NotFromTimeout, ScanAct.next]
  | refuse item kind b err | reject item kind b err => exact not_congr (scanStartFailed_stuck ..)
  | confirm item kind b => cases kind <;> simp [NotFromTimeout, ScanAct.next, scanConfirmed]
  | stopped ok env => simp [NotFromTimeout, ScanAct.next, scanStopped, scanComplete_not_stuck]
  | indicate b vif =>
    refine hset ?_
    simp only [ScanAct.next, scanCompleteIndication]
    split <;> rfl
  | hwScanDown | otherDown | otherUp | operDown | operUp => exact hset rfl

/-- The steps of `hw_priv->workqueue`. -/
def ScanAct.ofItem : ScanAct → Bool
  | .runWork _ | .runSplit _ | .runTimeout _ | .send .. | .refuse .. | .reject .. | .confirm ..
  | .stopped .. => true
  | _ => false

def ScanAct.again : ScanAct → Bool
  | .runWork env | .runSplit env | .runTimeout env | .stopped _ env => env.again
  | _ => false

/-- Where the runner is in a batch, and a batch for each channel at most. -/
def ScanState.workLeft (s : ScanState) : Nat :=
  8 * s.todo.length + match s.runner with
    | .idle => if s.timeout then 5 else 3
    | .starting _ (.batch _) _ => 2
    | .sent _ (.batch _) _ => 1
    | .starting _ .again _ => 7
    | .sent _ .again _ => 6
    | .stopping => 4
    | .stuck => 0

theorem workLeft_idle (hr : s.runner = .idle) : s.workLeft ≤ 8 * s.todo.length + 5 := by
  unfold ScanState.workLeft
  rw [hr]
  cases s.timeout <;> simp

/-- The request has ended, or less than `n` is left. -/
def ScanState.Below (n : Nat) (t : ScanState) : Prop := t.req = false ∨ t.workLeft < n

theorem ScanState.Below.mono {m n : Nat} (h : t.Below m) (hmn : m ≤ n) : t.Below n :=
  h.imp_right fun h => Nat.lt_of_lt_of_le h hmn

theorem scanWork_below (splitCfg : Bool) (item : ScanItem) (ht : s.timeout = false) (ha : env.again = false) :
    (atbmScanWork splitCfg item env s).Below (8 * s.todo.length + 3) := by
  unfold atbmScanWork
  split
  · exact .inl rfl
  · split
    · simp only [ha, Bool.false_and]
      exact .inl rfl
    · next htodo =>
      have hpos : 0 < s.todo.length := List.length_pos_iff.mpr fun h0 => htodo (Or.inr h0)
      split
      · right
        simp only [ScanState.workLeft, scanFail, ht, List.length_nil]
        simp
        omega
      · right
        simp only [ScanState.workLeft, atbmScanStart]
        omega

theorem scanComplete_below (splitCfg : Bool) (ht : s.timeout = false)
    (ha : env.again = false) : (atbmScanComplete splitCfg env s).Below (8 * s.todo.length + 4) := by
  unfold atbmScanComplete
  split
  · right
    simp [ScanState.workLeft, ht]
  · exact (scanWork_below splitCfg .timeout ht ha).mono (by omega)

theorem scanTimeout_below (splitCfg : Bool) (hp : s.inProgress = true)
    (ht : s.timeout = false) (ha : env.again = false) :
    (atbmScanTimeout splitCfg env s).Below (8 * s.todo.length + 5) := by
  simp only [atbmScanTimeout, hp, if_true]
  split
  · have hb := scanComplete_below splitCfg ht ha
      (s := { s with inProgress := false, status := 0, succeeded := s.timeoutFor :: s.succeeded })
    exact hb.mono (Nat.le_succ _)
  · split
    · right
      simp only [ScanState.workLeft, List.length_nil]
      omega
    · have hb := scanComplete_below splitCfg ht ha (s := { s with inProgress := false })
      exact hb.mono (Nat.le_succ _)

theorem scanStartFailed_below (item : ScanItem) (kind : ScanKind) (err : Int)
    (hk : ∀ n, kind = .batch n → 0 < s.todo.length) :
    (scanStartFailed item kind err s).Below (8 * s.todo.length + 1) := by
  unfold scanStartFailed
  split
  · right
    simp [ScanState.workLeft]
  · cases kind with
    | again => exact .inl rfl
    | batch n =>
      have := hk n rfl
      right
      simp [ScanState.workLeft, scanFail]
      omega

theorem workLeft_lt (h : ScanInv s) (he : a.Enabled s) (ha : a.again = false) (hi : a.ofItem = true) :
    (a.next splitCfg s).Below s.workLeft := by
  have hbatch := h.batch
  cases a with
  | runWork env =>
    have ht := (h.mark.2.1 he.1 he.2).2.2
    have hw : s.workLeft = 8 * s.todo.length + 3 := by simp [ScanState.workLeft, he.1, ht]
    rw [hw]
    exact scanWork_below (s := { s with work := false }) splitCfg .work ht ha
  | runSplit env =>
    have ht := (h.mark.2.2.1 he.1 he.2).2.2
    have hw : s.workLeft = 8 * s.todo.length + 3 := by simp [ScanState.workLeft, he.1, ht]
    rw [hw]
    exact scanWork_below (s := { s with splitWork := false, txLock := s.txLock + 1 }) splitCfg .split ht ha
  | runTimeout env =>
    have hw : s.workLeft = 8 * s.todo.length + 5 := by simp [ScanState.workLeft, he.1, he.2]
    rw [hw]
    exact scanTimeout_below (s := { s with timeout := false }) splitCfg (by rw [← h.timeout, he.2]) rfl ha
  | stopped ok env =>
    have hr : s.runner = .stopping := he
    have ht : s.timeout = false := by rw [h.armed (by simp [hr]), hr]; rfl
    have hw : s.workLeft = 8 * s.todo.length + 4 := by simp [ScanState.workLeft, hr]
    rw [hw]
    cases ok with
    | true => exact scanComplete_below splitCfg ht ha
    | false =>
      exact scanComplete_below (s := { s with waitComplete := false, operLock := s.operLock + 1 })
        splitCfg ht ha
  | send item kind b =>
    right
    cases kind <;> simp [ScanState.workLeft, ScanAct.next, he.1]
  | refuse item kind b err =>
    obtain ⟨hr, -⟩ := he
    rw [hr] at hbatch
    have hb := scanStartFailed_below item kind err (s := s) fun n hn => by
      obtain ⟨hn, hle⟩ := hbatch n (by rw [hn]; rfl)
      omega
    refine hb.mono ?_
    cases kind <;> simp [ScanState.workLeft, hr]
  | reject item kind b err =>
    obtain ⟨hr, -⟩ := he
    rw [hr] at hbatch
    have hb := scanStartFailed_below item kind err
      (s := { s with operLock := s.operLock + 1, inFlight := s.inFlight.erase b }) fun n hn => by
        obtain ⟨hn, hle⟩ := hbatch n (by rw [hn]; rfl)
        exact Nat.lt_of_lt_of_le hn hle
    refine hb.mono ?_
    cases kind <;> simp [ScanState.workLeft, hr]
  | confirm item kind b =>
    have hr : s.runner = .sent item kind b := he
    rw [hr] at hbatch
    right
    cases kind with
    | batch n =>
      obtain ⟨hn, hle⟩ := hbatch n rfl
      have hleft := workLeft_idle (s := { s with todo := s.todo.drop n, runner := .idle }) rfl
      have hw : s.workLeft = 8 * s.todo.length + 1 := by simp [ScanState.workLeft, hr]
      simp only [List.length_drop] at hleft
      simp only [ScanAct.next, scanConfirmed]
      omega
    | again =>
      have hleft : ScanState.workLeft { s with runner := .idle } ≤ 8 * s.todo.length + 5 := workLeft_idle rfl
      have hw : s.workLeft = 8 * s.todo.length + 6 := by simp [ScanState.workLeft, hr]
      simp only [ScanAct.next, scanConfirmed]
      omega
  | hwScan | hwScanDown | hwScanSetup | indicate | otherDown | otherUp | operDown | operUp =>
    exact absurd hi (by simp [ScanAct.ofItem])

theorem workLeft_other (h : ScanInv s) (hq : s.req = true)
    (he : a.Enabled s) (hi : a.ofItem = false) : (a.next splitCfg s).workLeft = s.workLeft := by
  cases a with
  | hwScan arg =>
    simp only [ScanAct.next, hwScanBegin]
    split <;> rfl
  | hwScanSetup ret bands split =>
    have hl := h.lock
    have hu : 0 < s.settingUp := he
    rw [hq, Bool.toNat_true] at hl
    omega
  | indicate b vif =>
    simp only [ScanAct.next, scanCompleteIndication]
    split <;> rfl
  | hwScanDown | otherDown | otherUp | operDown | operUp => rfl
  | runWork | runSplit | runTimeout | send | refuse | reject | confirm | stopped =>
    exact absurd hi (by simp [ScanAct.ofItem])

theorem workLeft_path {l : List (ScanState × ScanAct)} (hp : Path (scanning splitCfg) s l t) (hs : ScanInv s)
    (hl : ∀ p ∈ l, p.1.req = true ∧ p.2.again = false) (ht : t.req = true) :
    l.countP (fun p => p.2.ofItem) + t.workLeft ≤ s.workLeft := by
  induction hp with
  | nil => simp
  | @cons s t u a l hst hp ih =>
    obtain ⟨he, rfl⟩ := hst
    obtain ⟨hq, ha⟩ := hl (s, a) List.mem_cons_self
    have hl' : ∀ p ∈ l, p.1.req = true ∧ p.2.again = false :=
      fun p hp => hl p (List.mem_cons_of_mem _ hp)
    have hreq : (a.next splitCfg s).req = true := by
      cases hp with
      | nil => exact ht
      | cons => exact (hl' (_, _) List.mem_cons_self).1
    have hrest := ih (scan_step splitCfg hs he).1 hl' ht
    rw [List.countP_cons]
    cases hi : a.ofItem with
    | true =>
      rcases workLeft_lt hs he ha hi with h | h
      · rw [hreq] at h
        exact nomatch h
      · simp only [if_true]
        omega
    | false =>
      rw [workLeft_other hs hq he hi] at hrest
      simpa using hrest

/-- A call that `atbm_hw_scan` refuses, before or after it holds `scan.lock`, changes nothing. -/
def RefusedUnchanged (splitCfg : Bool) (s : ScanState) : Prop :=
  ∀ arg ret bands split,
    (hwScanCheck arg ≠ 0 → ScanAct.next splitCfg s (.hwScan arg) = s) ∧
    (ret ≠ 0 → hwScanCheck arg = 0 → 0 < s.scanLock →
      [ScanAct.hwScan arg, .hwScanDown, .hwScanSetup ret bands split].foldl (ScanAct.next splitCfg) s = s)

theorem refused_unchanged (splitCfg : Bool) (s : ScanState) : RefusedUnchanged splitCfg s := by
  intro arg ret bands split
  refine ⟨fun h => by simp [ScanAct.next, hwScanBegin, h], fun hret hc hl => ?_⟩
  simp [ScanAct.next, hwScanBegin, hwScanDown, hwScanSetup, hret, hc, Nat.sub_add_cancel hl]

/-- **Every accepted scan finishes once.**  Along every run, `ScanOk` holds in every state exactly
when every step is `NotFromTimeout`.  In every run, a step ends the request exactly when it
completes it and gives back the lock, the TX lock and the suspend hold; a refused call changes
nothing; and a request that goes on without P2P's scan again has a bounded number of steps. -/
theorem scan_finishes {splitCfg : Bool} {t : ScanState} {l : List (ScanState × ScanAct)}
    (hp : Path (scanning splitCfg) {} l t) :
    (((∀ p ∈ l, ScanOk p.1) ∧ ScanOk t) ↔ ∀ p ∈ l, NotFromTimeout p.1 p.2) ∧
    (∀ a u, (scanning splitCfg).step t a u → EndsOnce t u) ∧ RefusedUnchanged splitCfg t ∧
    (∀ m u, Path (scanning splitCfg) t m u → u.req = true →
      (∀ p ∈ m, p.1.req = true ∧ p.2.again = false) →
      m.countP (fun p => p.2.ofItem) ≤ t.workLeft) := by
  have ht := scanInv_path hp scanInv_init
  refine ⟨?_, ?_, refused_unchanged splitCfg t, ?_⟩
  · refine Path.exact (I := ScanInv) ?_ ?_ hp scanInv_init (scanInv_init.ok (by simp))
    · rintro s a t hI hP ⟨he, rfl⟩ hC
      have hI' := (scan_step splitCfg hI he).1
      exact ⟨hI', hI'.ok ((next_not_stuck (hI.onItsWay_iff.mp hP.onItsWay) a).mpr hC)⟩
    · rintro s a t hI hP ⟨he, rfl⟩ ht
      have hI' := (scan_step splitCfg hI he).1
      exact (next_not_stuck (hI.onItsWay_iff.mp hP.onItsWay) a).mp (hI'.onItsWay_iff.mp ht.onItsWay)
  · rintro a u ⟨he, rfl⟩
    exact (scan_step splitCfg ht he).2
  · intro m u hm hu hl
    have := workLeft_path hm ht hl hu
    omega

def scanArg : HwScanArg where
  term := false
  enabled := true
  ap := false
  rocIfId := -1
  nSsids := 0
  firstSsidEmpty := false
  maxScanSsids := 2
  probeReq := true

def plainEnv : WorkEnv := ⟨true, false, true⟩

/-- A request for two bands, up to the timeout item of the first batch. -/
def firstBatch : List ScanAct :=
  [.hwScan scanArg, .hwScanDown, .hwScanSetup 0 [0, 1] false, .runWork plainEnv, .send .work (.batch 1) 0,
    .confirm .work (.batch 1) 0, .indicate 0 true, .runTimeout plainEnv]

def bothBatches : List ScanAct :=
  firstBatch ++ [.send .timeout (.batch 1) 1, .confirm .timeout (.batch 1) 1, .indicate 1 true,
    .runTimeout plainEnv]

theorem scan_finishes_bothBatches :
    ScanOk (bothBatches.foldl (ScanAct.next false) {}) ∧
    (bothBatches.foldl (ScanAct.next false) {}).completions = [false] :=
  ⟨((scan_finishes (Path.ofFires (l := bothBatches) (by decide +kernel))).1.mpr (by decide +kernel)).2,
    by decide +kernel⟩

/-- **The books of a scan**, also where the runner waits for itself. -/
theorem scan_balanced {l : List (ScanState × ScanAct)} (h : Path (scanning splitCfg) {} l t) :
    t.bug = false ∧ t.scanLock + t.req.toNat + t.others + t.settingUp = 1 ∧
      t.txLock + t.splitWork.toNat = t.req.toNat ∧ t.suspend = t.req.toNat + t.waiting + t.settingUp ∧
      t.accepted = t.completions.length + t.req.toNat := by
  have hi := scanInv_path h scanInv_init
  exact ⟨hi.noBug, hi.lock, hi.tx, hi.suspend, hi.once⟩

theorem scan_balanced_bothBatches :
    (bothBatches.foldl (ScanAct.next false) {}).accepted =
      (bothBatches.foldl (ScanAct.next false) {}).completions.length +
        (bothBatches.foldl (ScanAct.next false) {}).req.toNat :=
  (scan_balanced (Path.ofFires (l := bothBatches) (by decide +kernel))).2.2.2.2

/-- The runner waits for itself with a request and `scan.lock`. -/
structure StuckScan (s : ScanState) : Prop where
  runner : s.runner = .stuck
  req : s.req = true
  scanLock : s.scanLock = 0
  others : s.others = 0
  settingUp : s.settingUp = 0
  completions : s.completions = []

theorem stuckScan_step (h : StuckScan s) (hst : (scanning splitCfg).step s a t) : StuckScan t := by
  obtain ⟨he, rfl⟩ := hst
  cases a with
  | hwScan arg =>
    simp only [ScanAct.next, hwScanBegin]
    split <;> exact ⟨h.runner, h.req, h.scanLock, h.others, h.settingUp, h.completions⟩
  | indicate b vif =>
    simp only [ScanAct.next, scanCompleteIndication]
    split <;> exact ⟨h.runner, h.req, h.scanLock, h.others, h.settingUp, h.completions⟩
  | operDown | operUp => exact ⟨h.runner, h.req, h.scanLock, h.others, h.settingUp, h.completions⟩
  | hwScanDown | hwScanSetup | runWork | runSplit | runTimeout | send | refuse | reject | confirm | stopped
  | otherDown | otherUp =>
    simp [ScanAct.Enabled, h.runner, h.scanLock, h.others, h.settingUp] at he

/-- **The failing run.**  The second batch of a request fails to start: `atbm_scan_timeout` waits for
itself to end, and the accepted request is not completed, nor `scan.lock` released, ever. -/
theorem scan_waits_for_itself :
    ∃ s, Reach (scanning false) s ∧ s.accepted = 1 ∧ ¬ ScanOk s ∧
      ∀ l t, Path (scanning false) s l t → t.req = true ∧ t.completions = [] ∧ t.scanLock = 0 := by
  refine ⟨(firstBatch ++ [ScanAct.refuse .timeout (.batch 1) 1 (-enomem)]).foldl (ScanAct.next false) {},
    Reach.fires (.init rfl) (by decide +kernel), by decide +kernel, ?_, ?_⟩
  · intro h
    have := h.onItsWay (by decide +kernel)
    revert this
    unfold ScanState.OnItsWay
    decide +kernel
  · intro l t hp
    have hs : StuckScan t := by
      refine hp.invariant (fun s a t h hst => stuckScan_step h hst) ?_
      exact ⟨by decide +kernel, by decide +kernel, by decide +kernel, by decide +kernel, by decide +kernel,
        by decide +kernel⟩
    exact ⟨hs.req, hs.completions, hs.scanLock⟩

end AtbmWifi
