import AtbmWifi.Queue.Held
import AtbmWifi.Queue.FlowControl
import AtbmWifi.Wsm.Command
import AtbmWifi.Wsm.TxLock

/-!
# The restart of the firmware

`__atbm_sdio_lmac_restart` locks the TX path, stops the two worker threads, ends the command that is out, empties
the TX queues, resets the CPU and the counters of the bus, and starts all of it again.  The bus thread runs it, and
nothing here runs beside it: the workers are stopped and the queues locked.

The calls into other components (`OutsideCall`) may set `bh_error`; they leave the transmit path as they find it.
-/

namespace AtbmWifi

open Transition

structure SdioRestart where
  /-- `tx_lock`, `bh_error`, `hw_bufs_used` and the TX queues -/
  port : TxPort
  cmd : CmdState
  /-- `bh_thread` is set -/
  bhThread : Bool
  rtnl : Bool
  irqSubscribed : Bool
  xmitThread : Bool
  revThread : Bool
  rxFrameQueue : List Nat
  initDone : Bool
  wsmTxSeq : Nat
  wsmRxSeq : Nat
  bufIdTx : Nat
  bufIdRx : Nat
  saveBuf : Option Nat
  saveBufLen : Nat
  saveBufVifSelected : Int
  nXmits : Int
  hwXmits : Int
  hwBufsFree : Int
  hwBufsFreeInit : Int
  hwBufsUsedVif : Nat → Nat

/-- A call into another component: what it returns, and whether it flags a fatal error. -/
structure OutsideCall where
  ret : Int
  bhError : Bool
  deriving DecidableEq, Repr

structure RestartEnv where
  env : QEnv
  /-- `atbm_destroy_wsm_cmd` -/
  destroy : OutsideCall
  /-- `ieee80211_pre_restart_hw_sync` -/
  preRestart : OutsideCall
  /-- `atbm_reset_lmc_cpu` -/
  resetCpu : Int
  destroyAgain : OutsideCall
  /-- `sbus_xmit_func_init`: its thread is created, its buffer allocated -/
  xmitThread : Bool
  xmitBuff : Bool
  /-- `sbus_rev_func_init` -/
  revThread : Bool
  /-- `atbm_reinit_firmware` -/
  reinit : OutsideCall
  /-- `ieee80211_restart_hw_sync` -/
  restart : OutsideCall

def queueVifs : List (Fin 4 × Nat) :=
  (List.range maxVifs).flatMap fun ifId => (List.finRange 4).map fun c => (c, ifId)

def atbmTxQueuesLock (e : QEnv) (q : TxQueues) : TxQueues := q.run (queueVifs.map fun p => ⟨p.1, e, .lock p.2⟩)

def atbmTxQueuesUnlock (e : QEnv) (q : TxQueues) : TxQueues := q.run (queueVifs.map fun p => ⟨p.1, e, .unlock p.2⟩)

/-- `atbm_queue_clear` of every interface, on the four queues -/
def clearQueues (e : QEnv) (q : TxQueues) : TxQueues :=
  q.run ((List.finRange 4).map fun c => ⟨c, e, .clear allIfs⟩)

namespace SdioRestart

def call (c : OutsideCall) (s : SdioRestart) : SdioRestart :=
  { s with port := { s.port with bhError := s.port.bhError || c.bhError } }

/-- `atbm_sdio_xmit_deinit`: the worker ends the command on its way out. -/
def atbmSdioXmitDeinit (s : SdioRestart) : SdioRestart :=
  { s with cmd := if s.xmitThread then sdioReleaseErrCmd s.cmd else s.cmd, xmitThread := false }

/-- `atbm_sdio_rev_deinit`: the worker is let finish the message it is at. -/
def atbmSdioRevDeinit (s : SdioRestart) : SdioRestart :=
  { s with cmd := if s.revThread then handleRxFinish s.cmd else s.cmd, revThread := false }

def shutdown (e : RestartEnv) (s : SdioRestart) : SdioRestart :=
  let s := { s with port := s.port.wsmLockTxAsync }
  let s := { s with port := { s.port with queues := atbmTxQueuesLock e.env s.port.queues } }
  let s := { s with irqSubscribed := false }
  let s := s.atbmSdioXmitDeinit.atbmSdioRevDeinit
  let s := { s with cmd := sdioReleaseErrCmd s.cmd }
  let s := s.call e.destroy
  let s := { s with port := { s.port with queues := clearQueues e.env s.port.queues } }
  let s := { s with rtnl := true }
  let s := s.call e.preRestart
  { s with initDone := false }

def resetCounters (s : SdioRestart) : SdioRestart :=
  { s with
    port := { s.port with bhError := false, hwBufsUsed := 0, alive := s.bhThread }
    wsmTxSeq := 0
    bufIdTx := 0
    wsmRxSeq := 0
    saveBuf := none
    saveBufLen := 0
    saveBufVifSelected := -1
    bufIdRx := 0
    nXmits := 0
    hwXmits := 0
    hwBufsFree := 0
    hwBufsFreeInit := 0
    hwBufsUsedVif := fun i => if i < maxVifs then 0 else s.hwBufsUsedVif i }

def restartExit (e : RestartEnv) (s : SdioRestart) : SdioRestart :=
  let s := { s with port := { s.port with queues := atbmTxQueuesUnlock e.env s.port.queues } }
  let s := { s with port := s.port.wsmUnlockTx }
  { s with rtnl := false }

/-- What a restart has done and returns when it comes to its label `exit`. -/
def restartBody (e : RestartEnv) (s : SdioRestart) : SdioRestart × Int :=
  let s := s.shutdown e
  if e.resetCpu ≠ 0 then (s, e.resetCpu)
  else
    let s := { s with rxFrameQueue := [] }
    let s := (s.call e.destroyAgain).resetCounters
    let s := { s with xmitThread := e.xmitThread, revThread := e.revThread }
    if !(e.xmitThread && e.xmitBuff) || !e.revThread then (s, -1)
    else
      let s := s.call e.reinit
      if e.reinit.ret ≠ 0 then (s, e.reinit.ret)
      else (s.call e.restart, e.restart.ret)

def atbmSdioLmacRestart (e : RestartEnv) (s : SdioRestart) : SdioRestart × Int :=
  ((s.restartBody e).1.restartExit e, (s.restartBody e).2)

end SdioRestart

/-- The frames a queue holds, as they are handed to `skb_dtor`. -/
def AtbmQueue.frames (q : AtbmQueue) : List (Option SkBuff × AtbmTxpriv) :=
  (q.pending ++ q.queue).map fun k => ((q.pool k).skb, (q.pool k).txpriv)

theorem queueVifs_nodup : queueVifs.Nodup := by decide

theorem mem_queueVifs {c : Fin 4} {i : Nat} : (c, i) ∈ queueVifs ↔ i < maxVifs := by
  simp [queueVifs]

theorem clearOverfullIf_spec (i : Nat) (s : TxQ) :
    ((clearOverfullIf i s).q.queue, (clearOverfullIf i s).q.pending, (clearOverfullIf i s).dtor) =
      (s.q.queue, s.q.pending, s.dtor) ∧ (clearOverfullIf i s).q.overfull i = false ∧
      ∀ j, j ≠ i → (clearOverfullIf i s).q.overfull j = s.q.overfull j := by
  unfold clearOverfullIf
  split
  · have hall : ∀ u : TxQ, ((atbmQueueUnlockCore i u).q.queue, (atbmQueueUnlockCore i u).q.pending,
        (atbmQueueUnlockCore i u).dtor, (atbmQueueUnlockCore i u).q.overfull) =
          (u.q.queue, u.q.pending, u.dtor, u.q.overfull) := by
      intro u
      simp only [atbmQueueUnlockCore, ieee80211WakeQueue, trapIf]
      repeat' split
      all_goals rfl
    have h := hall (setOverfull i false s)
    simp only [Prod.mk.injEq] at h
    obtain ⟨h1, h2, h3, h4⟩ := h
    unfold clearOverfull
    rw [h1, h2, h3, h4]
    refine ⟨rfl, Function.update_self .., fun j hj => Function.update_of_ne hj ..⟩
  · next ho => exact ⟨rfl, by simpa using ho, fun _ _ => rfl⟩

theorem clear_all (s : TxQ) :
    (atbmQueueClear allIfs s).1.q.queue = [] ∧ (atbmQueueClear allIfs s).1.q.pending = [] ∧
      (atbmQueueClear allIfs s).1.dtor = s.dtor ++ s.q.frames ∧
      ∀ i < maxVifs, (atbmQueueClear allIfs s).1.q.overfull i = false := by
  have hc : cleared s.q allIfs = fun _ => true := by
    funext k
    simp [cleared]
  have hl : (clearLists allIfs s).q.queue = [] ∧ (clearLists allIfs s).q.pending = [] ∧
      (clearLists allIfs s).dtor = s.dtor ++ s.q.frames := by
    simp [clearLists, hc, trapIf, AtbmQueue.frames]
    repeat' split
    all_goals simp
  obtain ⟨h0, ho0, -⟩ := clearOverfullIf_spec 0 (clearVif 1 (clearVif 0 (clearLists allIfs s)))
  obtain ⟨h1, ho1, hj1⟩ := clearOverfullIf_spec 1 (clearOverfullIf 0 (clearVif 1 (clearVif 0 (clearLists allIfs s))))
  simp only [Prod.mk.injEq] at h0 h1
  refine ⟨h1.1.trans (h0.1.trans hl.1), h1.2.1.trans (h0.2.1.trans hl.2.1), h1.2.2.trans (h0.2.2.trans hl.2.2), ?_⟩
  intro i hi
  have hcases : i = 0 ∨ i = 1 := by
    unfold maxVifs at hi
    omega
  rcases hcases with rfl | rfl
  · exact (hj1 0 (by decide)).trans ho0
  · exact ho1

structure FramesKept (s t : TxQueues) : Prop where
  lists : ∀ c, ((t.txQueue c).queue, (t.txQueue c).pending, (t.txQueue c).pool, (t.txQueue c).overfull) =
    ((s.txQueue c).queue, (s.txQueue c).pending, (s.txQueue c).pool, (s.txQueue c).overfull)
  dtor : t.dtor = s.dtor

theorem FramesKept.refl (s : TxQueues) : FramesKept s s := ⟨fun _ => rfl, rfl⟩

theorem FramesKept.trans {s t u : TxQueues} (h : FramesKept s t) (h' : FramesKept t u) : FramesKept s u :=
  ⟨fun c => (h'.lists c).trans (h.lists c), h'.dtor.trans h.dtor⟩

theorem framesKept_step {s : TxQueues} {ev : QEvent}
    (h : let t := ev.op.run ev.env (s.view ev.c)
      (t.q.queue, t.q.pending, t.q.pool, t.q.overfull) =
        ((s.txQueue ev.c).queue, (s.txQueue ev.c).pending, (s.txQueue ev.c).pool, (s.txQueue ev.c).overfull) ∧
      t.dtor = s.dtor) : FramesKept s (s.step ev) := by
  refine ⟨fun c => ?_, h.2⟩
  by_cases hc : c = ev.c
  · subst hc
    rw [s.step_txQueue_self ev]
    exact h.1
  · rw [s.step_txQueue_other ev hc]

theorem framesKept_lock (s : TxQueues) (c : Fin 4) (e : QEnv) (i : Nat) : FramesKept s (s.step ⟨c, e, .lock i⟩) := by
  apply framesKept_step
  simp only [QOp.run, atbmQueueLock, atbmQueueLockCore, ieee80211StopQueue, trapIf]
  repeat' split
  all_goals exact ⟨rfl, rfl⟩

theorem framesKept_unlock (s : TxQueues) (c : Fin 4) (e : QEnv) (i : Nat) :
    FramesKept s (s.step ⟨c, e, .unlock i⟩) := by
  apply framesKept_step
  simp only [QOp.run, atbmQueueUnlock, atbmQueueUnlockCore, ieee80211WakeQueue, trapIf]
  repeat' split
  all_goals exact ⟨rfl, rfl⟩

theorem step_extLocks (s : TxQueues) (c : Fin 4) (e : QEnv) (op : QOp) (c' : Fin 4) (i : Nat) :
    (s.step ⟨c, e, op⟩).extLocks c' i = if c' = c then op.locks (s.extLocks c) i else s.extLocks c' i := by
  show Function.update s.extLocks c _ c' i = _
  by_cases hc : c' = c
  · subst hc
    rw [Function.update_self, if_pos rfl]
  · rw [Function.update_of_ne hc, if_neg hc]

theorem lock_run (e : QEnv) {l : List (Fin 4 × Nat)} {s : TxQueues} (hs : Reach queues s) (hl : l.Nodup)
    (hv : ∀ p ∈ l, p.2 < maxVifs) :
    let t := s.run (l.map fun p => ⟨p.1, e, .lock p.2⟩)
    Reach queues t ∧ FramesKept s t ∧ ∀ c i, t.extLocks c i = s.extLocks c i + if (c, i) ∈ l then 1 else 0 := by
  induction l generalizing s with
  | nil => exact ⟨hs, .refl s, fun c i => rfl⟩
  | cons p l ih =>
    obtain ⟨hp, hnd⟩ := List.nodup_cons.mp hl
    obtain ⟨c₀, i₀⟩ := p
    have hi₀ : i₀ < maxVifs := hv _ List.mem_cons_self
    have hval : Valid s ⟨c₀, e, .lock i₀⟩ := valid_of_vif hi₀ rfl nofun
    have hstep : Reach queues (s.step ⟨c₀, e, .lock i₀⟩) := .step hs ⟨hval, rfl⟩
    obtain ⟨hr, hf, hx⟩ := ih hstep hnd fun q hq => hv q (List.mem_cons_of_mem _ hq)
    refine ⟨hr, (framesKept_lock s c₀ e i₀).trans hf, fun c i => ?_⟩
    refine (hx c i).trans ?_
    rw [step_extLocks]
    by_cases hc : c = c₀
    · subst hc
      rw [if_pos rfl]
      by_cases hi : i = i₀
      · subst hi
        simp [QOp.locks, hp]
      · simp [QOp.locks, hi]
    · simp [hc]

theorem unlock_run (e : QEnv) {l : List (Fin 4 × Nat)} {s : TxQueues} (hs : Reach queues s) (hl : l.Nodup)
    (hv : ∀ p ∈ l, p.2 < maxVifs) (hpos : ∀ p ∈ l, 0 < s.extLocks p.1 p.2) :
    let t := s.run (l.map fun p => ⟨p.1, e, .unlock p.2⟩)
    Reach queues t ∧ FramesKept s t ∧ ∀ c i, t.extLocks c i = s.extLocks c i - if (c, i) ∈ l then 1 else 0 := by
  induction l generalizing s with
  | nil => exact ⟨hs, .refl s, fun c i => rfl⟩
  | cons p l ih =>
    obtain ⟨hp, hnd⟩ := List.nodup_cons.mp hl
    obtain ⟨c₀, i₀⟩ := p
    have hval : Valid s ⟨c₀, e, .unlock i₀⟩ := by
      refine ⟨hv _ List.mem_cons_self, nofun, nofun, fun i hi => ?_⟩
      cases hi
      exact hpos _ List.mem_cons_self
    have hrest : ∀ q ∈ l, 0 < (s.step ⟨c₀, e, .unlock i₀⟩).extLocks q.1 q.2 := by
      rintro ⟨c, i⟩ hq
      have hne : ¬(c = c₀ ∧ i = i₀) := by
        rintro ⟨rfl, rfl⟩
        exact hp hq
      have hold := hpos (c, i) (List.mem_cons_of_mem _ hq)
      rw [step_extLocks]
      by_cases hc : c = c₀
      · subst hc
        have hi : i ≠ i₀ := fun hi => hne ⟨rfl, hi⟩
        simpa [QOp.locks, hi] using hold
      · simpa [hc] using hold
    obtain ⟨hr, hf, hx⟩ := ih (.step hs ⟨hval, rfl⟩) hnd (fun q hq => hv q (List.mem_cons_of_mem _ hq)) hrest
    refine ⟨hr, (framesKept_unlock s c₀ e i₀).trans hf, fun c i => ?_⟩
    refine (hx c i).trans ?_
    rw [step_extLocks]
    by_cases hc : c = c₀
    · subst hc
      rw [if_pos rfl]
      by_cases hi : i = i₀
      · subst hi
        simp [QOp.locks, hp]
      · simp [QOp.locks, hi]
    · simp [hc]

structure AtbmQueue.Empty (q : AtbmQueue) : Prop where
  queue : q.queue = []
  pending : q.pending = []
  overfull : ∀ i < maxVifs, q.overfull i = false

theorem clear_run (e : QEnv) {l : List (Fin 4)} {s : TxQueues} (hs : Reach queues s) (hl : l.Nodup) :
    let t := s.run (l.map fun c => ⟨c, e, .clear allIfs⟩)
    Reach queues t ∧ t.extLocks = s.extLocks ∧ t.dtor = s.dtor ++ (l.flatMap fun c => (s.txQueue c).frames) ∧
      (∀ c, c ∉ l → t.txQueue c = s.txQueue c) ∧ ∀ c ∈ l, (t.txQueue c).Empty := by
  induction l generalizing s with
  | nil => exact ⟨hs, rfl, by simp [TxQueues.run], fun _ _ => rfl, nofun⟩
  | cons c₀ l ih =>
    obtain ⟨hc₀, hnd⟩ := List.nodup_cons.mp hl
    have hval : Valid s ⟨c₀, e, .clear allIfs⟩ := valid_of_vif (.inl rfl) rfl nofun
    obtain ⟨hr, hx, hd, ho, hem⟩ := ih (.step hs ⟨hval, rfl⟩) hnd
    obtain ⟨hq, hp, hcd, hov⟩ := clear_all (s.view c₀)
    have hself : (s.step ⟨c₀, e, .clear allIfs⟩).txQueue c₀ = (atbmQueueClear allIfs (s.view c₀)).1.q :=
      s.step_txQueue_self ⟨c₀, e, .clear allIfs⟩
    have hother : ∀ c, c ≠ c₀ → (s.step ⟨c₀, e, .clear allIfs⟩).txQueue c = s.txQueue c := fun c hc =>
      s.step_txQueue_other ⟨c₀, e, .clear allIfs⟩ hc
    refine ⟨hr, hx.trans ?_, hd.trans ?_, fun c hc => ?_, fun c hc => ?_⟩
    · funext c i
      rw [step_extLocks]
      split
      · next h => rw [h]; rfl
      · rfl
    · have hrest : (l.flatMap fun c => ((s.step ⟨c₀, e, .clear allIfs⟩).txQueue c).frames) =
          l.flatMap fun c => (s.txQueue c).frames := by
        apply List.flatMap_congr
        intro c hc
        rw [hother c fun h => hc₀ (h ▸ hc)]
      rw [hrest, List.flatMap_cons, ← List.append_assoc]
      congr 1
    · exact (ho c fun h => hc (List.mem_cons_of_mem _ h)).trans (hother c fun h => hc (h ▸ List.mem_cons_self))
    · rcases List.mem_cons.mp hc with rfl | hc
      · show (TxQueues.txQueue _ c).Empty
        have hsame := (ho c hc₀).trans hself
        exact hsame ▸ ⟨hq, hp, hov⟩
      · exact hem c hc

namespace SdioRestart

structure CmdEnded (s t : CmdState) : Prop where
  done : t.wsmCmd.done = true
  ptr : t.wsmCmd.ptr = none
  arg : t.wsmCmd.arg = none
  cmd : t.wsmCmd.cmd = wsmCmdIdle
  /-- with an error, unless the receive thread was at an older confirmation -/
  ret : s.handler = none → t.wsmCmd.ret = -1

structure CleanTx (s : SdioRestart) : Prop where
  queues : ∀ c, (s.port.queues.txQueue c).Empty
  hwBufsUsed : s.port.hwBufsUsed = 0
  hwBufsUsedVif : ∀ i < maxVifs, s.hwBufsUsedVif i = 0
  nXmits : s.nXmits = 0
  seqs : s.wsmTxSeq = 0 ∧ s.wsmRxSeq = 0
  bufIds : s.bufIdTx = 0 ∧ s.bufIdRx = 0
  saveBuf : s.saveBuf = none ∧ s.saveBufLen = 0

theorem cmd_released (s : CmdState) (h : s.wsmCmd.cmd ≠ wsmCmdIdle) : CmdEnded s (sdioReleaseErrCmd s) := by
  unfold sdioReleaseErrCmd
  rw [if_pos h]
  exact ⟨rfl, rfl, rfl, rfl, fun _ => rfl⟩

theorem CmdEnded.finish {s t : CmdState} (h : CmdEnded s t) (hh : t.handler = s.handler) :
    CmdEnded s (handleRxFinish t) := by
  unfold handleRxFinish
  split
  · exact h
  · next x hx =>
    have hno : s.handler ≠ none := by
      rw [← hh, hx]
      nofun
    split
    · exact ⟨h.done, h.ptr, h.arg, h.cmd, fun h0 => absurd h0 hno⟩
    · exact ⟨rfl, h.ptr, h.arg, h.cmd, fun h0 => absurd h0 hno⟩

theorem CmdEnded.again {s t : CmdState} (h : CmdEnded s t) : CmdEnded s (sdioReleaseErrCmd t) := by
  unfold sdioReleaseErrCmd
  rw [if_neg (not_not.mpr h.cmd)]
  exact h

theorem shutdown_cmd (e : RestartEnv) {s : SdioRestart} (h : s.cmd.wsmCmd.cmd ≠ wsmCmdIdle) :
    CmdEnded s.cmd (s.shutdown e).cmd := by
  have hcmd : (s.shutdown e).cmd = sdioReleaseErrCmd (s.atbmSdioXmitDeinit.atbmSdioRevDeinit).cmd := rfl
  rw [hcmd]
  by_cases hx : s.xmitThread = true
  · have h1 := cmd_released s.cmd h
    have hhand : (sdioReleaseErrCmd s.cmd).handler = s.cmd.handler := by
      unfold sdioReleaseErrCmd
      rw [if_pos h]
    apply CmdEnded.again
    simp only [atbmSdioRevDeinit, atbmSdioXmitDeinit, hx, if_true]
    split
    · exact h1.finish hhand
    · exact h1
  · have hne : (s.atbmSdioXmitDeinit.atbmSdioRevDeinit).cmd.wsmCmd.cmd ≠ wsmCmdIdle := by
      simp only [atbmSdioRevDeinit, atbmSdioXmitDeinit, hx, Bool.false_eq_true, if_false]
      split
      · unfold handleRxFinish
        split
        · exact h
        split
        · exact h
        · exact h
      · exact h
    have h1 := cmd_released _ hne
    exact ⟨h1.done, h1.ptr, h1.arg, h1.cmd, fun _ => by unfold sdioReleaseErrCmd; rw [if_pos hne]⟩

/-- What holds from the shutdown to the label `exit`. -/
structure Down (s t : SdioRestart) : Prop where
  txLock : t.port.txLock = s.port.txLock + 1
  bug : t.port.bug = s.port.bug
  reach : Reach queues t.port.queues
  extLocks : ∀ c i, t.port.queues.extLocks c i = s.port.queues.extLocks c i + if i < maxVifs then 1 else 0
  empty : ∀ c, (t.port.queues.txQueue c).Empty
  dtor : t.port.queues.dtor =
    s.port.queues.dtor ++ (List.finRange 4).flatMap fun c => (s.port.queues.txQueue c).frames
  cmd : s.cmd.wsmCmd.cmd ≠ wsmCmdIdle → CmdEnded s.cmd t.cmd

theorem down_shutdown (e : RestartEnv) {s : SdioRestart} (hq : Reach queues s.port.queues) : Down s (s.shutdown e) := by
  obtain ⟨hr, hf, hx⟩ := lock_run e.env hq queueVifs_nodup fun p hp => mem_queueVifs.mp hp
  obtain ⟨hr', hx', hd, -, hem⟩ := clear_run e.env hr (List.nodup_finRange 4)
  refine ⟨rfl, rfl, hr', fun c i => ?_, fun c => hem c (List.mem_finRange c), ?_, shutdown_cmd e⟩
  · refine (congrFun (congrFun hx' c) i).trans ((hx c i).trans ?_)
    simp only [mem_queueVifs]
  · refine hd.trans ?_
    rw [hf.dtor]
    congr 1
    apply List.flatMap_congr
    intro c _
    have hl := hf.lists c
    simp only [Prod.mk.injEq] at hl
    obtain ⟨h1, h2, h3, -⟩ := hl
    simp only [AtbmQueue.frames, h1, h2, h3]

theorem Down.later {s t u : SdioRestart} (h : Down s t)
    (hp : (u.port.txLock, u.port.bug, u.port.queues, u.cmd) = (t.port.txLock, t.port.bug, t.port.queues, t.cmd)) :
    Down s u := by
  simp only [Prod.mk.injEq] at hp
  obtain ⟨h1, h2, h3, h4⟩ := hp
  exact ⟨h1.trans h.txLock, h2.trans h.bug, h3 ▸ h.reach, h3 ▸ h.extLocks, h3 ▸ h.empty, h3 ▸ h.dtor, h4 ▸ h.cmd⟩

theorem down_body (e : RestartEnv) {s : SdioRestart} (hq : Reach queues s.port.queues) :
    Down s (s.restartBody e).1 ∧ ((s.restartBody e).2 = 0 → CleanTx (s.restartBody e).1) := by
  have hd := down_shutdown e hq
  unfold restartBody
  split
  · next h => exact ⟨hd, fun h0 => absurd h0 h⟩
  simp only
  split
  · exact ⟨hd.later rfl, nofun⟩
  split
  · next h => exact ⟨hd.later rfl, fun h0 => absurd h0 h⟩
  · refine ⟨hd.later rfl, fun _ => ⟨hd.empty, rfl, fun i hi => ?_, rfl, ⟨rfl, rfl⟩, ⟨rfl, rfl⟩, ⟨rfl, rfl⟩⟩⟩
    exact if_pos hi

end SdioRestart

namespace SdioRestart

theorem exit_queues (e : RestartEnv) (u : SdioRestart) :
    (u.restartExit e).port.queues = atbmTxQueuesUnlock e.env u.port.queues := by
  simp only [restartExit, TxPort.wsmUnlockTx]
  split
  · rfl
  · rfl

theorem exit_hwBufsUsed (e : RestartEnv) (u : SdioRestart) :
    (u.restartExit e).port.hwBufsUsed = u.port.hwBufsUsed := by
  simp only [restartExit, TxPort.wsmUnlockTx]
  split
  · rfl
  · rfl

theorem exit_txLock (e : RestartEnv) (u : SdioRestart) :
    (u.restartExit e).port.bhError = u.port.bhError ∧
      (u.restartExit e).port.txLock = u.port.txLock - (if u.port.bhError = true then 0 else 1) ∧
      (0 < u.port.txLock → (u.restartExit e).port.bug = u.port.bug) := by
  simp only [restartExit, TxPort.wsmUnlockTx]
  by_cases hb : u.port.bhError = true
  · simp only [hb, if_true]
    exact ⟨trivial, by omega, fun _ => trivial⟩
  · simp only [hb, Bool.false_eq_true, if_false]
    refine ⟨trivial, trivial, fun hpos => ?_⟩
    have hno : ¬u.port.txLock - 1 < 0 := by omega
    simp [hno]

end SdioRestart

/-- All calls succeed; `reinitError`: the reload flags an error all the same. -/
def sampleRestartEnv (reinitError : Bool) : RestartEnv where
  env := sampleEnv
  destroy := ⟨0, false⟩
  preRestart := ⟨0, false⟩
  resetCpu := 0
  destroyAgain := ⟨0, false⟩
  xmitThread := true
  xmitBuff := true
  revThread := true
  reinit := ⟨0, reinitError⟩
  restart := ⟨0, false⟩

def sampleRestart (cmd : CmdState) : SdioRestart where
  port :=
    { txLock := 1, bhError := false, alive := true, vif := fun _ => true
      queues := (TxQueues.start fun _ => 1000).run [samplePut 7 0, samplePut 8 0, sampleGet 0]
      hwBufsUsed := 1, scan := {}, bug := false, skipped := 0 }
  cmd := cmd
  bhThread := true
  rtnl := false
  irqSubscribed := true
  xmitThread := true
  revThread := true
  rxFrameQueue := [3]
  initDone := true
  wsmTxSeq := 5
  wsmRxSeq := 2
  bufIdTx := 1
  bufIdRx := 1
  saveBuf := none
  saveBufLen := 0
  saveBufVifSelected := -1
  nXmits := 9
  hwXmits := 8
  hwBufsFree := 3
  hwBufsFreeInit := 4
  hwBufsUsedVif := fun i => if i = 0 then 1 else 0

theorem sampleRestart_reach (cmd : CmdState) : Reach queues (sampleRestart cmd).port.queues := by
  have h : Follows (fun _ _ => True) (TxQueues.start fun _ => 1000) [samplePut 7 0, samplePut 8 0, sampleGet 0] :=
    ⟨⟨trivial, valid_of_vif (by decide) rfl nofun⟩, ⟨trivial, valid_of_vif (by decide) rfl nofun⟩,
      ⟨trivial, valid_of_vif trivial rfl nofun⟩, trivial⟩
  exact h.reach_start.of_restrict

def sampleTaken : List CmdAct := [.send 1 16 (some 7) 0x0009#16 true, .receive ⟨0x0406#16, 0, none⟩]

/-- A command that is out while the confirmation of one that timed out is handled. -/
def sampleLate : List CmdAct :=
  [.send 1 16 none 0x0009#16 true, .receive ⟨0x0409#16, 0, none⟩, .timeout, .send 2 16 (some 7) 0x0009#16 true]

end AtbmWifi
