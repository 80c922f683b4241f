import AtbmWifi.Wsm.TxLock

/-!
# The TX lock is balanced

* `TxInv`: the lock is what the threads and the scans hold, and the unlocks that were
  skipped.  It is an invariant (`txInv_step`), so no `BUG_ON` is reached.
* `txLock_balanced`: a call that returns 0 has raised the lock by one and found no frame
  of its interface; one that does not has left it as it was; both but for the unlocks it
  skipped.  With nothing in progress the lock is at the number of unlocks skipped, and none
  is skipped while `bh_error` is not set.
-/

namespace AtbmWifi

open Transition

/-- What is left of a function gives back `n` locks, when `__atbm_flush` returned 0 or not. -/
def Returns : Nat → Bool → List TxInstr → Prop
  | n, _, [] => n = 0
  | n, flushed, .wsmLockTx :: l => Returns (n + 1) flushed l
  | n, flushed, .wsmLockTxAsync :: l => Returns (n + 1) flushed l
  | n, flushed, .wsmFlushTxUnlessTerm :: l => 0 < n ∧ Returns n flushed l
  | n, _, .atbmFlush _ :: l => Returns (n + 1) true l ∧ Returns n false l
  | n, flushed, .wsmUnlockTxIfFlushed :: l =>
    (flushed = true → 0 < n ∧ Returns (n - 1) flushed l) ∧ (flushed = false → Returns n flushed l)
  | n, flushed, .wsmUnlockTx :: l => 0 < n ∧ Returns (n - 1) flushed l
  | n, flushed, .clearVif :: l => Returns n flushed l

theorem PortCall.returns (c : PortCall) (term flushed : Bool) : Returns 0 flushed (c.script term) := by
  cases c with
  | atbmFlush inSlot drop => cases inSlot <;> simp [script, Returns]
  | atbmRemainOnChannel passive => cases passive <;> cases term <;> simp [script, Returns]
  | atbmRemChanTimeout remaining => cases remaining <;> cases term <;> simp [script, Returns]
  | atbmRemoveInterface enabled => cases enabled <;> simp [script, Returns]
  | atbmMulticastStartWork aid0BitSet => cases aid0BitSet <;> cases term <;> simp [script, Returns]
  | atbmMulticastStopWork aid0BitSet => cases aid0BitSet <;> cases term <;> simp [script, Returns]

def FlushPc.entered : FlushPc → Bool
  | .enter _ => false
  | _ => true

structure TxThread.Ok (t : TxThread) : Prop where
  flushing : t.flushing = true → 0 < t.held
  outside : t.pc = none → Returns t.held (decide (t.ret = 0)) t.script
  inside : ∀ pc, t.pc = some pc → pc.held ≤ t.held ∧ (pc.entered = true → t.ifId < maxVifs) ∧
    Returns (t.held - pc.held + 1) true t.script ∧ Returns (t.held - pc.held) false t.script

/-- What an access of a thread does, but for its place in the function. -/
structure Access (p : TxPort) (held : Nat) (p' : TxPort) (held' : Nat) : Prop where
  share : p'.txLock - p'.skipped - held' = p.txLock - p.skipped - held
  scan : p'.scan = p.scan
  bug : p'.bug = false
  queues : Accounted p'.queues
  vif : ∀ i, p'.vif i = true → i < maxVifs

/-- What is known of the port when a thread that holds `held` goes on. -/
structure TxPort.Good (p : TxPort) (held : Nat) : Prop where
  share : (held : Int) + p.skipped ≤ p.txLock
  bug : p.bug = false
  queues : Accounted p.queues
  vif : ∀ i, p.vif i = true → i < maxVifs

namespace TxPort.Good

variable {p : TxPort} {held : Nat}

theorem same (h : p.Good held) : Access p held p held := ⟨rfl, rfl, h.bug, h.queues, h.vif⟩

theorem lock (h : p.Good held) : Access p held p.wsmLockTxAsync (held + 1) := by
  refine ⟨?_, rfl, h.bug, h.queues, h.vif⟩
  show p.txLock + 1 - p.skipped - ((held + 1 : Nat) : Int) = _
  omega

theorem flush (h : p.Good held) (hpos : 0 < held) : Access p held p.wsmFlushTx held := by
  refine ⟨rfl, rfl, ?_, h.queues, h.vif⟩
  have hs := h.share
  have hne : p.txLock ≠ 0 := by omega
  show (p.bug || decide (p.txLock = 0)) = false
  rw [h.bug, decide_eq_false hne]
  rfl

theorem unlock (h : p.Good held) (hpos : 0 < held) : Access p held p.wsmUnlockTx (held - 1) := by
  have hs := h.share
  unfold wsmUnlockTx
  split
  · refine ⟨?_, rfl, h.bug, h.queues, h.vif⟩
    show p.txLock - ((p.skipped + 1 : Nat) : Int) - ((held - 1 : Nat) : Int) = _
    omega
  · refine ⟨?_, rfl, ?_, h.queues, h.vif⟩
    · show p.txLock - 1 - p.skipped - ((held - 1 : Nat) : Int) = _
      omega
    · have hno : ¬ p.txLock - 1 < 0 := by omega
      show (p.bug || decide (p.txLock - 1 < 0)) = false
      rw [h.bug, decide_eq_false hno]
      rfl

theorem clear (h : p.Good held) (e : QEnv) (c : Fin 4) {i : Nat} (hi : i < maxVifs) :
    Access p held (p.atbmQueueClear e c i) held := by
  refine ⟨rfl, rfl, h.bug, ?_, h.vif⟩
  have hvif : (QOp.clear i).vifOk := by
    show (i : Int) = allIfs ∨ (i : Int) = 0 ∨ (i : Int) = 1
    have : maxVifs = 2 := rfl
    omega
  exact accounted_step (valid_of_vif hvif rfl nofun) (honest_of_noId rfl) h.queues

end TxPort.Good

def FlushNext.held : FlushNext → Nat
  | .go pc _ => pc.held
  | .ret r => if r = 0 then 1 else 0

theorem flushNext_access {p : TxPort} {pc : FlushPc} {i n : Nat} (hi : pc.entered = true → i < maxVifs)
    (h : p.Good (n + pc.held)) (e : QEnv) :
    let r := atbmFlushNext i e p pc
    Access p (n + pc.held) r.1 (n + r.2.held) ∧
      ∀ pc' flushing, r.2 = .go pc' flushing →
        (flushing = true → 0 < pc'.held) ∧ (pc'.entered = true → i < maxVifs) := by
  have go : ∀ {q : TxPort} {pc' : FlushPc} {fl : Bool}, Access p (n + pc.held) q (n + pc'.held) →
      (fl = true → 0 < pc'.held) → i < maxVifs →
      Access p (n + pc.held) q (n + (FlushNext.go pc' fl).held) ∧
        ∀ pc'' flushing, FlushNext.go pc' fl = .go pc'' flushing →
          (flushing = true → 0 < pc''.held) ∧ (pc''.entered = true → i < maxVifs) := by
    rintro q pc' fl h1 h2 h3
    refine ⟨h1, ?_⟩
    rintro pc'' flushing ⟨⟩
    exact ⟨h2, fun _ => h3⟩
  have hno : ∀ {b : Bool} {k : Nat}, b = false → b = true → 0 < k := fun h1 h2 => absurd (h1.symm.trans h2) (by decide)
  cases pc with
  | enter drop =>
    simp only [atbmFlushNext]
    split
    · next hv => exact go h.same (hno rfl) (h.vif i hv)
    · exact ⟨h.same, fun _ _ h' => nomatch h'⟩
  | loop drop =>
    have hi := hi rfl
    simp only [atbmFlushNext]
    split
    · exact go h.same (hno rfl) hi
    split
    · exact go h.same (hno rfl) hi
    · exact go h.same (hno rfl) hi
  | timedOut => exact go h.lock (fun _ => Nat.one_pos) (hi rfl)
  | look =>
    simp only [atbmFlushNext]
    split
    · exact go h.same (hno rfl) (hi rfl)
    · exact go h.same (hno rfl) (hi rfl)
  | giveUp => exact ⟨h.unlock (Nat.succ_pos n), fun _ _ h' => nomatch h'⟩
  | clearing drop k locked =>
    simp only [atbmFlushNext]
    split
    · next hk => exact go (h.clear e ⟨k, hk⟩ (hi rfl)) (hno rfl) (hi rfl)
    · cases locked with
      | true => exact go (h.unlock (Nat.succ_pos n)) (hno rfl) (hi rfl)
      | false => exact go h.same (hno rfl) (hi rfl)
  | relock drop => exact go h.lock (fun _ => Nat.one_pos) (hi rfl)
  | test drop =>
    simp only [atbmFlushNext]
    split
    · exact ⟨h.same, fun _ _ h' => nomatch h'⟩
    · exact go h.same (hno rfl) (hi rfl)
  | again drop => exact go (h.unlock (Nat.succ_pos n)) (hno rfl) (hi rfl)

namespace TxThread

variable {t : TxThread} {p : TxPort}

theorem ok_outside {t : TxThread} (hf : t.flushing = true → 0 < t.held) (hpc : t.pc = none)
    (h : Returns t.held (decide (t.ret = 0)) t.script) : t.Ok :=
  ⟨hf, fun _ => h, fun _ h' => absurd (hpc.symm.trans h') nofun⟩

theorem instr_access (hf : t.flushing = false) (hpc : t.pc = none) (h : p.Good t.held) {i : TxInstr}
    (hr : Returns t.held (decide (t.ret = 0)) (i :: t.script)) :
    Access p t.held (t.instr p i).1 (t.instr p i).2.held ∧ (t.instr p i).2.Ok := by
  have hno : t.flushing = true → 0 < t.held := fun h' => absurd (hf.symm.trans h') (by decide)
  cases i with
  | wsmLockTx => exact ⟨h.lock, ok_outside (fun _ => Nat.succ_pos t.held) hpc hr⟩
  | wsmLockTxAsync => exact ⟨h.lock, ok_outside (fun _ => Nat.succ_pos t.held) hpc hr⟩
  | wsmFlushTxUnlessTerm =>
    refine ⟨?_, ok_outside hno hpc hr.2⟩
    show Access p t.held (if p.atbmBhIsTerm then p else p.wsmFlushTx) t.held
    split
    · exact h.same
    · exact h.flush hr.1
  | atbmFlush drop =>
    refine ⟨h.same, hno, fun h' => (nomatch h'), ?_⟩
    rintro pc ⟨⟩
    exact ⟨Nat.zero_le _, (nomatch ·), hr⟩
  | wsmUnlockTxIfFlushed =>
    simp only [instr]
    split
    · next h0 =>
      obtain ⟨hpos, hrest⟩ := hr.1 (decide_eq_true h0)
      refine ⟨h.unlock hpos, ok_outside (fun h' => absurd (hf.symm.trans h') (by decide)) hpc ?_⟩
      show Returns (t.held - 1) (decide (t.ret = 0)) t.script
      rw [decide_eq_true h0] at hrest ⊢
      exact hrest
    · next h0 => exact ⟨h.same, ok_outside hno hpc (hr.2 (decide_eq_false h0))⟩
  | wsmUnlockTx =>
    exact ⟨h.unlock hr.1, ok_outside (fun h' => absurd (hf.symm.trans h') (by decide)) hpc hr.2⟩
  | clearVif =>
    refine ⟨⟨rfl, rfl, h.bug, h.queues, fun j hj => h.vif j ?_⟩, ok_outside hno hpc hr⟩
    change Function.update p.vif t.ifId false j = true at hj
    by_cases hji : j = t.ifId
    · rw [hji, Function.update_self] at hj
      cases hj
    · rwa [Function.update_of_ne hji] at hj

theorem run_access (hok : t.Ok) (h : p.Good t.held) (e : QEnv) :
    Access p t.held (t.run e p).1 (t.run e p).2.held ∧ (t.run e p).2.Ok := by
  unfold run
  split
  · next hf => exact ⟨h.flush (hok.flushing hf), nofun, hok.outside, hok.inside⟩
  next hf =>
  have hf : t.flushing = false := by simpa using hf
  cases hpc : t.pc with
  | some pc =>
    obtain ⟨hle, hi, hflushed, hfailed⟩ := hok.inside pc hpc
    obtain ⟨n, hn⟩ : ∃ n, t.held = n + pc.held := ⟨t.held - pc.held, by omega⟩
    have hrest : t.held - pc.held = n := by omega
    rw [hrest] at hflushed hfailed
    have hg : p.Good (n + pc.held) := hn ▸ h
    obtain ⟨hacc, hgo⟩ := flushNext_access hi hg e
    simp only
    generalize hr : atbmFlushNext t.ifId e p pc = r at hacc hgo
    obtain ⟨q, next⟩ := r
    cases next with
    | go pc' flushing =>
      obtain ⟨hpos, hi'⟩ := hgo pc' flushing rfl
      have hheld : t.held + pc'.held - pc.held = n + pc'.held := by omega
      simp only [hheld]
      refine ⟨hn ▸ hacc, fun hfl => Nat.lt_add_left n (hpos hfl), nofun, ?_⟩
      rintro pc'' ⟨⟩
      have hsub : n + pc'.held - pc'.held = n := by omega
      show pc'.held ≤ n + pc'.held ∧ _ ∧ Returns (n + pc'.held - pc'.held + 1) _ _ ∧
        Returns (n + pc'.held - pc'.held) _ _
      rw [hsub]
      exact ⟨Nat.le_add_left .., hi', hflushed, hfailed⟩
    | ret r =>
      have hheld : t.held + (if r = 0 then 1 else 0) - pc.held = n + (if r = 0 then 1 else 0) := by omega
      simp only [hheld]
      refine ⟨hn ▸ hacc, ok_outside (fun h' => absurd (hf.symm.trans h') (by decide)) rfl ?_⟩
      show Returns (n + if r = 0 then 1 else 0) (decide (r = 0)) t.script
      by_cases h0 : r = 0
      · rw [if_pos h0, decide_eq_true h0]
        exact hflushed
      · rw [if_neg h0, decide_eq_false h0]
        exact hfailed
  | none =>
    have hr := hok.outside hpc
    simp only
    cases hs : t.script with
    | nil => exact ⟨h.same, hok⟩
    | cons i l =>
      rw [hs] at hr
      exact instr_access (t := { t with script := l, pc := none }) hf rfl h hr

end TxThread

section
variable (splitCfg : Bool)

theorem txLock_scanWork (item : ScanItem) (env : WorkEnv) (s : ScanState) :
    (atbmScanWork splitCfg item env s).txLock ≤ s.txLock := by
  unfold atbmScanWork
  repeat' split
  all_goals simp [scanDone, atbmScanStart, scanFail]

theorem txLock_scanComplete (env : WorkEnv) (s : ScanState) :
    (atbmScanComplete splitCfg env s).txLock ≤ s.txLock := by
  unfold atbmScanComplete
  split
  · simp
  · exact txLock_scanWork splitCfg .timeout env s

theorem txLock_scanTimeout (env : WorkEnv) (s : ScanState) :
    (atbmScanTimeout splitCfg env s).txLock ≤ s.txLock := by
  unfold atbmScanTimeout
  split
  · simp only
    split
    · exact txLock_scanComplete splitCfg env _
    split
    · simp
    · exact txLock_scanComplete splitCfg env _
  · exact Int.le_refl _

theorem txLock_startFailed (item : ScanItem) (kind : ScanKind) (err : Int) (s : ScanState) :
    (scanStartFailed item kind err s).txLock ≤ s.txLock := by
  unfold scanStartFailed
  simp only
  split
  · simp
  · cases kind <;> simp [scanFail, scanDone]

theorem txLock_scanNext (s : ScanState) (a : ScanAct) : (a.next splitCfg s).txLock ≤ s.txLock + a.txLocks := by
  have h0 : s.txLock ≤ s.txLock + a.txLocks := by omega
  cases a with
  | hwScan arg =>
    simp only [ScanAct.next, hwScanBegin]
    split <;> exact h0
  | hwScanSetup ret bands split =>
    simp only [ScanAct.next, hwScanSetup, ScanAct.txLocks]
    by_cases hret : ret = 0 <;> simp [hret]
  | runWork env => exact (txLock_scanWork splitCfg .work env _).trans h0
  | runSplit env => exact txLock_scanWork splitCfg .split env _
  | runTimeout env => exact (txLock_scanTimeout splitCfg env _).trans h0
  | refuse item kind b err => exact (txLock_startFailed item kind err s).trans h0
  | reject item kind b err => exact (txLock_startFailed item kind err _).trans h0
  | confirm item kind b =>
    cases kind <;> exact h0
  | stopped ok env =>
    refine (txLock_scanComplete splitCfg env _).trans ?_
    cases ok <;> exact h0
  | indicate b vif =>
    simp only [ScanAct.next, scanCompleteIndication]
    split <;> exact h0
  | hwScanDown | send | otherDown | otherUp | operDown | operUp => exact h0

end

/-- The scans hold the lock once or not at all, and a request that waits for its next batch does not. -/
theorem ScanInv.txLock_cases {s : ScanState} (h : ScanInv s) :
    0 ≤ s.txLock ∧ s.txLock ≤ 1 ∧ (s.splitWork = true → s.txLock = 0) ∧ (s.req = false → s.txLock = 0) := by
  have ht := h.token
  have hx := h.tx
  unfold ScanState.token at ht
  cases hs : s.splitWork <;> cases hq : s.req <;> simp only [hs, hq, Bool.toNat_true, Bool.toNat_false] at ht hx <;>
    refine ⟨?_, ?_, fun h' => ?_, fun h' => ?_⟩ <;> first | omega | cases h'

theorem txUnlocks_cases (splitCfg : Bool) {s : ScanState} (h : ScanInv s) {a : ScanAct} (he : a.Enabled s) :
    a.txUnlocks splitCfg s = 0 ∨ a.txUnlocks splitCfg s = 1 := by
  have hle := txLock_scanNext splitCfg s a
  obtain ⟨h1, h2, -, -⟩ := (scan_step splitCfg h he).1.txLock_cases
  obtain ⟨h3, h4, h5, -⟩ := h.txLock_cases
  unfold ScanAct.txUnlocks
  have hlocks : s.txLock + a.txLocks ≤ 1 := by
    cases a with
    | runSplit env =>
      have := h5 he.2
      simp [ScanAct.txLocks, this]
    | hwScanSetup ret bands split =>
      have h6 : (ScanAct.next splitCfg s (.hwScanSetup ret bands split)).txLock =
          s.txLock + (ScanAct.hwScanSetup ret bands split).txLocks := by
        simp only [ScanAct.next, hwScanSetup, ScanAct.txLocks]
        by_cases hret : ret = 0 <;> simp [hret]
      omega
    | _ => simpa [ScanAct.txLocks] using h4
  omega

section
variable {T : Type} [DecidableEq T] [Fintype T] {splitCfg : Bool}

def TxState.held (s : TxState T) : Nat := ∑ t, (s.thread t).held

structure TxInv (s : TxState T) : Prop where
  bug : s.port.bug = false
  sum : s.port.txLock = s.held + s.port.scan.txLock + s.port.skipped
  scan : ScanInv s.port.scan
  queues : Accounted s.port.queues
  vif : ∀ i, s.port.vif i = true → i < maxVifs
  thread : ∀ t, (s.thread t).Ok

theorem held_update (s : TxState T) (p : TxPort) (t : T) (x : TxThread) :
    TxState.held ⟨p, Function.update s.thread t x⟩ + (s.thread t).held = s.held + x.held := by
  have h1 := Finset.add_sum_erase Finset.univ (fun u => (Function.update s.thread t x u).held) (Finset.mem_univ t)
  have h2 := Finset.add_sum_erase Finset.univ (fun u => (s.thread u).held) (Finset.mem_univ t)
  have h3 : ∑ u ∈ Finset.univ.erase t, (Function.update s.thread t x u).held =
      ∑ u ∈ Finset.univ.erase t, (s.thread u).held := by
    apply Finset.sum_congr rfl
    intro u hu
    rw [Function.update_of_ne (Finset.ne_of_mem_erase hu)]
  simp only [Function.update_self] at h1
  show ∑ u, (Function.update s.thread t x u).held + (s.thread t).held = ∑ u, (s.thread u).held + x.held
  omega

namespace TxInv

variable {s : TxState T}

omit [DecidableEq T] in
theorem start (h : s.Start) : TxInv s := by
  obtain ⟨ttl, hq⟩ := h.queues
  refine ⟨h.bug, ?_, ?_, ?_, fun i hi => ?_, fun t => ?_⟩
  · have hheld : s.held = 0 := Finset.sum_eq_zero fun t _ => by rw [h.thread t]; rfl
    rw [h.txLock, h.skipped, h.scan, hheld]
    rfl
  · rw [h.scan]
    exact scanInv_init
  · rw [hq]
    exact accounted_start ttl
  · rw [h.vif i] at hi
    cases hi
  · rw [h.thread t]
    exact TxThread.ok_outside nofun rfl rfl

omit [DecidableEq T] in
theorem good (h : TxInv s) (t : T) : s.port.Good (s.thread t).held := by
  refine ⟨?_, h.bug, h.queues, h.vif⟩
  have hle : (s.thread t).held ≤ s.held :=
    Finset.single_le_sum (f := fun u => (s.thread u).held) (fun _ _ => Nat.zero_le _) (Finset.mem_univ t)
  have hs := h.sum
  have := h.scan.txLock_cases.1
  omega

omit [DecidableEq T] in
theorem waiting_none (h : TxInv s) {i : Nat} (he : s.port.atbmQueueStatsIsEmpty i = true) (c : Fin 4) :
    ∀ k ∈ (s.port.queues.txQueue c).queue, ofVif (s.port.queues.txQueue c) i k = false := by
  have h0 : s.port.queues.stats.numQueued i = 0 := of_decide_eq_true he
  rw [h.queues.sharedQueued, Finset.sum_eq_zero_iff_of_nonneg fun _ _ => by omega] at h0
  have hc := h0 c (Finset.mem_univ c)
  have hcount : (s.port.queues.txQueue c).queue.countP (ofVif (s.port.queues.txQueue c) i) = 0 := by omega
  intro k hk
  simpa using List.countP_eq_zero.mp hcount k hk

theorem run (h : TxInv s) (t : T) (e : QEnv) : TxInv (TxAct.next splitCfg s (.run t e)) := by
  obtain ⟨hacc, hok⟩ := (s.thread t).run_access (h.thread t) (h.good t) e
  have hsum := held_update s ((s.thread t).run e s.port).1 t ((s.thread t).run e s.port).2
  have hs := h.sum
  have hshare := hacc.share
  refine ⟨hacc.bug, ?_, ?_, hacc.queues, hacc.vif, fun u => ?_⟩
  · show ((s.thread t).run e s.port).1.txLock = ((TxState.held ⟨_, _⟩ : Nat) : Int) +
      ((s.thread t).run e s.port).1.scan.txLock + _
    rw [hacc.scan]
    show _ = _ + _ + (((s.thread t).run e s.port).1.skipped : Int)
    omega
  · show ScanInv ((s.thread t).run e s.port).1.scan
    rw [hacc.scan]
    exact h.scan
  · show (Function.update s.thread t _ u).Ok
    by_cases hu : u = t
    · rw [hu, Function.update_self]
      exact hok
    · rw [Function.update_of_ne hu]
      exact h.thread u

theorem call (h : TxInv s) {t : T} (hd : (s.thread t).Done) (ifId : Nat) (c : PortCall) :
    TxInv (TxAct.next splitCfg s (.call t ifId c)) := by
  obtain ⟨hscript, hpc, hfl⟩ := hd
  have hzero : (s.thread t).held = 0 := by
    have := (h.thread t).outside hpc
    rwa [hscript] at this
  have hsum : TxState.held (TxAct.next splitCfg s (.call t ifId c)) + (s.thread t).held =
      s.held + (s.thread t).held := held_update s s.port t _
  have hs := h.sum
  refine ⟨h.bug, ?_, h.scan, h.queues, h.vif, fun u => ?_⟩
  · show s.port.txLock = TxState.held (TxAct.next splitCfg s (.call t ifId c)) + s.port.scan.txLock +
      (s.port.skipped : Int)
    omega
  · show (Function.update s.thread t _ u).Ok
    by_cases hu : u = t
    · rw [hu, Function.update_self]
      refine TxThread.ok_outside (fun h' => absurd (hfl.symm.trans h') (by decide)) hpc ?_
      show Returns (s.thread t).held _ (c.script _)
      rw [hzero]
      exact c.returns _ _
    · rw [Function.update_of_ne hu]
      exact h.thread u

theorem scanned (h : TxInv s) {a : ScanAct} (he : a.Enabled s.port.scan) :
    TxInv (TxAct.next splitCfg s (.scan a)) := by
  have hscan := (scan_step splitCfg h.scan he).1
  have hs := h.sum
  have hx := h.scan.txLock_cases.1
  have hx' := hscan.txLock_cases.1
  have hno : ¬ (0 < a.txLocks ∧ s.port.txLock + a.txLocks = 0) := by omega
  have hb : (s.port.bug || decide (0 < a.txLocks ∧ s.port.txLock + a.txLocks = 0)) = false := by
    rw [h.bug, decide_eq_false hno]
    rfl
  have hcases := txUnlocks_cases splitCfg h.scan he
  unfold ScanAct.txUnlocks at hcases
  suffices hport : ∀ p, s.port.scanStep splitCfg a = p → TxInv (⟨p, s.thread⟩ : TxState T) from hport _ rfl
  intro p hp
  unfold TxPort.scanStep ScanAct.txUnlocks at hp
  simp only [hb] at hp
  split at hp
  · next hpos =>
    unfold TxPort.wsmUnlockTx at hp
    split at hp
    · rw [← hp]
      refine ⟨rfl, ?_, hscan, h.queues, h.vif, h.thread⟩
      show s.port.txLock + a.txLocks = (s.held : Int) + (a.next splitCfg s.port.scan).txLock +
        ((s.port.skipped + 1 : Nat) : Int)
      omega
    · rw [← hp]
      refine ⟨?_, ?_, hscan, h.queues, h.vif, h.thread⟩
      · show (false || decide (s.port.txLock + a.txLocks - 1 < 0)) = false
        have hno' : ¬ s.port.txLock + a.txLocks - 1 < 0 := by omega
        rw [decide_eq_false hno']
        rfl
      · show s.port.txLock + a.txLocks - 1 = (s.held : Int) + (a.next splitCfg s.port.scan).txLock + _
        show _ = _ + (s.port.skipped : Int)
        omega
  · next hneg =>
    rw [← hp]
    refine ⟨rfl, ?_, hscan, h.queues, h.vif, h.thread⟩
    show s.port.txLock + a.txLocks = (s.held : Int) + (a.next splitCfg s.port.scan).txLock + (s.port.skipped : Int)
    omega

theorem step (h : TxInv s) {a : TxAct T} (he : a.enabled s) : TxInv (a.next splitCfg s) := by
  cases a with
  | call t ifId c => exact h.call he ifId c
  | run t e => exact h.run t e
  | scan a => exact h.scanned he
  | queue ev => exact ⟨h.bug, h.sum, h.scan, accounted_step he.1 he.2 h.queues, h.vif, h.thread⟩
  | addVif i =>
    refine ⟨h.bug, h.sum, h.scan, h.queues, fun j hj => ?_, h.thread⟩
    change Function.update s.port.vif i true j = true at hj
    by_cases hji : j = i
    · rw [hji]
      exact he
    · rw [Function.update_of_ne hji] at hj
      exact h.vif j hj
  | hwBufs | bhError | alive => exact ⟨h.bug, h.sum, h.scan, h.queues, h.vif, h.thread⟩

theorem reach (h : Reach (txLocking splitCfg T) s) : TxInv s := by
  refine h.invariant (I := TxInv) (fun _ h0 => TxInv.start h0) ?_
  rintro s a s' hI ⟨he, rfl⟩
  exact hI.step he

end TxInv

def TxAct.aloneOf (t : T) : TxAct T → Prop
  | .run u _ => u = t
  | .call .. | .scan _ => False
  | _ => True

/-- The steps `l` lead from the entry of `__atbm_flush` in thread `t` to its return. -/
structure FlushCall (splitCfg : Bool) (t : T) (s : TxState T) (l : List (TxState T × TxAct T)) (s' : TxState T) :
    Prop where
  path : Path (txLocking splitCfg T) s l s'
  enter : ∃ drop, (s.thread t).pc = some (.enter drop)
  inside : ∀ p ∈ l, (p.1.thread t).pc ≠ none
  returned : (s'.thread t).pc = none
  alone : ∀ p ∈ l, p.2.aloneOf t

/-- Frames of interface `i` wait on a queue. -/
def TxQueues.Waits (q : TxQueues) (i : Nat) : Prop := ∃ c, ∃ k ∈ (q.txQueue c).queue, ofVif (q.txQueue c) i k = true

/-- What a call returned, what it did to the lock, and what it left on the queues. -/
structure FlushResult (t : T) (s s' : TxState T) : Prop where
  flushed : (s'.thread t).ret = 0 → s'.port.txLock = s.port.txLock + 1 + (s'.port.skipped - s.port.skipped) ∧
    ¬ s'.port.queues.Waits (s.thread t).ifId
  failed : (s'.thread t).ret ≠ 0 → s'.port.txLock = s.port.txLock + (s'.port.skipped - s.port.skipped)

variable {pc : FlushPc} {s' : TxState T} {l : List (TxState T × TxAct T)}

theorem flushNext_ret {p q : TxPort} {i : Nat} {e : QEnv}
    (h : atbmFlushNext i e p pc = (q, .ret 0)) : q.atbmQueueStatsIsEmpty i = true := by
  cases pc with
  | test drop =>
    simp only [atbmFlushNext] at h
    split at h
    · next he =>
      cases h
      exact he
    · cases h
  | enter drop =>
    simp only [atbmFlushNext] at h
    split at h <;> cases h
  | loop drop =>
    simp only [atbmFlushNext] at h
    repeat' split at h
    all_goals cases h
  | clearing drop n locked =>
    simp only [atbmFlushNext] at h
    split at h <;> cases h
  | timedOut | look | giveUp | relock | again => cases h

theorem TxThread.run_inside {t : TxThread} (hpc : t.pc = some pc) (hle : pc.held ≤ t.held) (e : QEnv) (p : TxPort) :
    (t.run e p).2.ifId = t.ifId ∧
    ((∃ pc', (t.run e p).2.pc = some pc' ∧ (t.run e p).2.held + pc.held = t.held + pc'.held) ∨
      (t.run e p).2.pc = none ∧ (t.run e p).2.held + pc.held = t.held + (if (t.run e p).2.ret = 0 then 1 else 0) ∧
        ((t.run e p).2.ret = 0 → (t.run e p).1.atbmQueueStatsIsEmpty t.ifId = true)) := by
  by_cases hf : t.flushing = true
  · have heq : t.run e p = (p.wsmFlushTx, { t with flushing := false }) := if_pos hf
    rw [heq]
    exact ⟨rfl, .inl ⟨pc, hpc, rfl⟩⟩
  · rcases hr : atbmFlushNext t.ifId e p pc with ⟨q, pc' | r⟩
    · next flushing =>
      have heq : t.run e p = (q, { t with pc := some pc', flushing, held := t.held + pc'.held - pc.held }) := by
        rw [run, if_neg hf, hpc]
        simp only [hr]
      rw [heq]
      refine ⟨rfl, .inl ⟨pc', rfl, ?_⟩⟩
      show t.held + pc'.held - pc.held + pc.held = _
      omega
    · have heq : t.run e p =
          (q, { t with pc := none, ret := r, held := t.held + (if r = 0 then 1 else 0) - pc.held }) := by
        rw [run, if_neg hf, hpc]
        simp only [hr]
      rw [heq]
      refine ⟨rfl, .inr ⟨rfl, ?_, fun h0 => ?_⟩⟩
      · show t.held + (if r = 0 then 1 else 0) - pc.held + pc.held = t.held + (if r = 0 then 1 else 0)
        omega
      · obtain rfl : r = 0 := h0
        exact flushNext_ret hr

theorem inside_step {t : T} {s : TxState T} {a : TxAct T} (hst : (txLocking splitCfg T).step s a s')
    (ha : a.aloneOf t) (hI : TxInv s) (hpc : (s.thread t).pc = some pc) :
    (s'.thread t).ifId = (s.thread t).ifId ∧
    ((∃ pc', (s'.thread t).pc = some pc' ∧
        s'.port.txLock - s'.port.skipped - pc'.held = s.port.txLock - s.port.skipped - pc.held) ∨
      (s'.thread t).pc = none ∧
        s'.port.txLock - s'.port.skipped - ((if (s'.thread t).ret = 0 then 1 else 0 : Nat) : Int) =
          s.port.txLock - s.port.skipped - pc.held ∧
        ((s'.thread t).ret = 0 → s'.port.atbmQueueStatsIsEmpty (s.thread t).ifId = true)) := by
  obtain ⟨he, rfl⟩ := hst
  cases a with
  | call => exact ha.elim
  | scan => exact ha.elim
  | queue | hwBufs | bhError | alive | addVif => exact ⟨rfl, .inl ⟨pc, hpc, rfl⟩⟩
  | run u e =>
    obtain rfl : u = t := ha
    obtain ⟨hacc, -⟩ := (s.thread u).run_access (hI.thread u) (hI.good u) e
    have hshare := hacc.share
    obtain ⟨hif, hcase⟩ := TxThread.run_inside hpc ((hI.thread u).inside pc hpc).1 e s.port
    have hthread : (TxAct.next splitCfg s (.run u e)).thread u = ((s.thread u).run e s.port).2 :=
      Function.update_self ..
    rw [hthread]
    show _ ∧ ((∃ pc', _ ∧ ((s.thread u).run e s.port).1.txLock - ((s.thread u).run e s.port).1.skipped - _ = _) ∨
      _ ∧ ((s.thread u).run e s.port).1.txLock - ((s.thread u).run e s.port).1.skipped - _ = _ ∧ _)
    refine ⟨hif, ?_⟩
    rcases hcase with ⟨pc', h1, h2⟩ | ⟨h1, h2, h3⟩
    · exact .inl ⟨pc', h1, by omega⟩
    · exact .inr ⟨h1, by omega, h3⟩

theorem inside_path {t : T} {s : TxState T}
    (hp : Path (txLocking splitCfg T) s l s') (hin : ∀ p ∈ l, (p.1.thread t).pc ≠ none)
    (halone : ∀ p ∈ l, p.2.aloneOf t) (hret : (s'.thread t).pc = none) (hI : TxInv s)
    (hpc : (s.thread t).pc = some pc) :
    s'.port.txLock - s'.port.skipped - ((if (s'.thread t).ret = 0 then 1 else 0 : Nat) : Int) =
        s.port.txLock - s.port.skipped - pc.held ∧
      ((s'.thread t).ret = 0 → ¬ s'.port.queues.Waits (s.thread t).ifId) := by
  induction hp generalizing pc with
  | nil s => exact absurd (hret.symm.trans hpc) nofun
  | @cons s u s' a l hst hp ih =>
    have hIu : TxInv u := by
      obtain ⟨he, rfl⟩ := hst
      exact hI.step he
    obtain ⟨hif, hcase⟩ := inside_step hst (halone (s, a) List.mem_cons_self) hI hpc
    rcases hcase with ⟨pc', hpc', heq⟩ | ⟨hnone, heq, hempty⟩
    · obtain ⟨h1, h2⟩ := ih (fun p hp => hin p (List.mem_cons_of_mem _ hp))
        (fun p hp => halone p (List.mem_cons_of_mem _ hp)) hret hIu hpc'
      rw [hif] at h2
      exact ⟨h1.trans heq, h2⟩
    · -- the call has returned, so this was the last step
      cases hp with
      | cons hst' _ => exact absurd hnone (hin (u, _) (List.mem_cons_of_mem _ List.mem_cons_self))
      | nil =>
        refine ⟨heq, fun h0 => ?_⟩
        rintro ⟨c, k, hk, hvif⟩
        rw [hIu.waiting_none (hempty h0) c k hk] at hvif
        cases hvif

theorem FlushCall.result {t : T} {s : TxState T}
    (h : FlushCall splitCfg t s l s') (hI : TxInv s) : FlushResult t s s' := by
  obtain ⟨drop, hpc⟩ := h.enter
  obtain ⟨hlock, hwait⟩ := inside_path h.path h.inside h.alone h.returned hI hpc
  have hheld : (FlushPc.enter drop).held = 0 := rfl
  constructor
  · intro h0
    rw [if_pos h0, hheld] at hlock
    exact ⟨by omega, hwait h0⟩
  · intro h0
    rw [if_neg h0, hheld] at hlock
    omega

def TxState.Idle (s : TxState T) : Prop := (∀ t, (s.thread t).Done) ∧ s.port.scan.req = false

omit [DecidableEq T] in
theorem TxInv.idle {s : TxState T} (h : TxInv s) (hi : s.Idle) : s.port.txLock = s.port.skipped := by
  have hheld : s.held = 0 := by
    refine Finset.sum_eq_zero fun t _ => ?_
    obtain ⟨hscript, hpc, -⟩ := hi.1 t
    have := (h.thread t).outside hpc
    rwa [hscript] at this
  have hscan := h.scan.txLock_cases.2.2.2 hi.2
  have hs := h.sum
  omega

theorem TxPort.unlock_skipped {p : TxPort} (h : p.bhError = false) : p.wsmUnlockTx.skipped = p.skipped := by
  simp [wsmUnlockTx, h]

theorem flushNext_skipped {p : TxPort} (h : p.bhError = false) (i : Nat) (e : QEnv) (pc : FlushPc) :
    (atbmFlushNext i e p pc).1.skipped = p.skipped := by
  cases pc with
  | giveUp | again => exact TxPort.unlock_skipped h
  | timedOut | look | relock => rfl
  | clearing drop n locked =>
    simp only [atbmFlushNext]
    split
    · rfl
    · cases locked with
      | true => exact TxPort.unlock_skipped h
      | false => rfl
  | enter drop | test drop =>
    simp only [atbmFlushNext]
    split <;> rfl
  | loop drop =>
    simp only [atbmFlushNext]
    repeat' split
    all_goals rfl

theorem TxThread.run_skipped {p : TxPort} (h : p.bhError = false) (e : QEnv) (t : TxThread) :
    (t.run e p).1.skipped = p.skipped := by
  unfold run
  split
  · rfl
  split
  · next pc _ =>
    have := flushNext_skipped h t.ifId e pc
    split
    · next hr =>
      rw [hr] at this
      exact this
    · next hr =>
      rw [hr] at this
      exact this
  · split
    · rfl
    · next i l _ =>
      cases i with
      | wsmUnlockTx => exact TxPort.unlock_skipped h
      | wsmUnlockTxIfFlushed =>
        simp only [instr]
        split
        · exact TxPort.unlock_skipped h
        · rfl
      | wsmFlushTxUnlessTerm =>
        simp only [instr]
        split <;> rfl
      | wsmLockTx | wsmLockTxAsync | atbmFlush | clearVif => rfl

omit [Fintype T] in
theorem skipped_step {s : TxState T} {a : TxAct T} (hst : (txLocking splitCfg T).step s a s')
    (h : s.port.bhError = false) : s'.port.skipped = s.port.skipped := by
  obtain ⟨-, rfl⟩ := hst
  cases a with
  | run t e => exact (s.thread t).run_skipped h e
  | scan a =>
    show (s.port.scanStep splitCfg a).skipped = _
    simp only [TxPort.scanStep]
    split
    · exact TxPort.unlock_skipped h
    · rfl
  | call | queue | hwBufs | bhError | alive | addVif => rfl

omit [Fintype T] in
theorem skipped_path {s : TxState T} (hp : Path (txLocking splitCfg T) s l s')
    (h : ∀ p ∈ l, p.1.port.bhError = false) : s'.port.skipped = s.port.skipped := by
  induction hp with
  | nil => rfl
  | @cons s u s' a l hst hp ih =>
    exact (ih fun p hp => h p (List.mem_cons_of_mem _ hp)).trans (skipped_step hst (h (s, a) List.mem_cons_self))

/-- **The TX lock is balanced** -/
theorem txLock_balanced {s : TxState T} (h : Reach (txLocking splitCfg T) s) :
    (s.port.bug = false ∧ 0 ≤ s.port.txLock ∧ (s.Idle → s.port.txLock = s.port.skipped)) ∧
    (∀ t l s', FlushCall splitCfg t s l s' → FlushResult t s s') ∧
    ∀ l s', Path (txLocking splitCfg T) s l s' → (∀ p ∈ l, p.1.port.bhError = false) →
      s'.port.skipped = s.port.skipped := by
  have hI := TxInv.reach h
  have hs := hI.sum
  have hscan := hI.scan.txLock_cases.1
  exact ⟨⟨hI.bug, by omega, hI.idle⟩, fun t l s' hc => hc.result hI, fun l s' => skipped_path⟩

end

section

instance decTxEnabled {T : Type} (s : TxState T) : (a : TxAct T) → Decidable (a.enabled s)
  | .call t _ _ => inferInstanceAs (Decidable (s.thread t).Done)
  | .scan a => inferInstanceAs (Decidable (a.Enabled s.port.scan))
  | .queue ev => inferInstanceAs (Decidable (Valid s.port.queues ev ∧ Honest s.port.queues ev))
  | .addVif i => inferInstanceAs (Decidable (i < maxVifs))
  | .run .. | .hwBufs _ | .bhError _ | .alive _ => .isTrue trivial

def sampleTx : TxState Unit where
  port := ⟨0, false, true, fun _ => false, TxQueues.start fun _ => 1000, 0, {}, false, 0⟩
  thread _ := .idle

theorem sampleTx_start : sampleTx.Start := ⟨rfl, rfl, rfl, fun _ => rfl, ⟨_, rfl⟩, rfl, fun _ => rfl⟩

/-- `atbm_flush` without drop. -/
def flushRun : List (TxAct Unit) :=
  [.addVif 0, .call () 0 (.atbmFlush true false)] ++ List.replicate 7 (.run () sampleEnv)

theorem txLock_balanced_flush :
    (flushRun.foldl (TxAct.next false) sampleTx).port.txLock =
      (flushRun.foldl (TxAct.next false) sampleTx).port.skipped :=
  have h : Reach (txLocking false Unit) (flushRun.foldl (TxAct.next false) sampleTx) :=
    Reach.fires (.init sampleTx_start) (by decide +kernel)
  (txLock_balanced h).1.2.2 ⟨fun () => by decide +kernel, by decide +kernel⟩

/-- A frame comes between the clearing of the queues and the test, and `bh_error` before the unlock. -/
def flushRunFault : List (TxAct Unit) :=
  [.addVif 0, .call () 0 (.atbmFlush true true)] ++ List.replicate 9 (.run () sampleEnv) ++
    [.queue (samplePut 7 0), .run () sampleEnv, .bhError true] ++ List.replicate 10 (.run () sampleEnv)

/-- The call returns 0 with the lock raised by two, and with nothing in progress the lock is held twice. -/
theorem txLock_raised_twice :
    (∃ s, Reach (txLocking false Unit) s ∧ (s.thread ()).script = [.wsmUnlockTxIfFlushed] ∧
      (s.thread ()).pc = none ∧ (s.thread ()).ret = 0 ∧ s.port.txLock = 2) ∧
    ∃ s, Reach (txLocking false Unit) s ∧ (s.thread ()).Done ∧ s.port.scan.req = false ∧ s.port.txLock = 2 := by
  have h0 : Reach (txLocking false Unit) sampleTx := .init sampleTx_start
  exact ⟨⟨_, h0.fires (l := flushRunFault) (by decide +kernel), by decide +kernel⟩,
    _, h0.fires (l := flushRunFault ++ [.run () sampleEnv]) (by decide +kernel), by decide +kernel⟩

end

end AtbmWifi
