import AtbmWifi.Sdio.Thread

/-!
# What becomes of a worker's wake-ups and suspends
-/

namespace AtbmWifi

open Transition

namespace SdioWorker

/-- It tests `THREAD_WAKEUP` before it sleeps, unless it parks. -/
def testsWakeup : SdioWorker → Bool
  | work | wake | shouldStop true | testWakeup | afterSleep | parkEnter | parkTest | parkState | unmark | parkExit => true
  | _ => false

/-- It has tested `THREAD_WAKEUP` and sleeps next. -/
def window : SdioWorker → Bool
  | testSuspend | period | preSched | setState | shouldStop false | sleep => true
  | _ => false

/-- In the loop of `atbm_kthread_into_suspend`. -/
def parked : SdioWorker → Bool
  | parkTest | parkMark | parkComplete | parkStop | parkSleep | parkState => true
  | _ => false

def marked : SdioWorker → Bool
  | parkComplete | parkStop | parkSleep => true
  | _ => false

/-- It has seen `kthread_should_stop`. -/
def stops : SdioWorker → Bool
  | setStop _ | stopTest _ | stopMark _ | stopComplete _ | parkSetStop | parkClear | leave | returned => true
  | _ => false

def waits : SdioWorker → Bool
  | sleep | parkSleep => true
  | _ => false

def stepsLeft : SdioWorker → Nat
  | returned => 0
  | leave => 1
  | stopComplete true => 2
  | stopMark true => 3
  | stopTest true => 4
  | setStop true => 5
  | shouldStop true => 6
  | wake | afterSleep => 7
  | work | parkExit | sleep => 8
  | stopComplete false => 8
  | stopMark false | unmark => 9
  | stopTest false | parkClear => 10
  | setStop false | parkSetStop => 11
  | shouldStop false | parkStop => 12
  | setState | parkComplete => 13
  | preSched | parkMark => 14
  | period | parkTest => 15
  | parkEnter | parkState => 16
  | testSuspend | parkSleep => 17
  | testWakeup => 18

end SdioWorker

namespace SdioControl

/-- In `atbm_sdio_thread_deinit`. -/
def stopping : SdioControl → Bool
  | setStop | dropThread | stop | wakeStopped | join | ended => true
  | _ => false

/-- `THREAD_SHOULD_SUSPEND` is not set yet. -/
def before : SdioControl → Bool
  | idle | getThread | testStop | testSuspened | setShould => true
  | _ => false

/-- `THREAD_SHOULD_SUSPEND` is set. -/
def suspends : SdioControl → Bool
  | wakeWorker | wait | held | resume | clearShould => true
  | _ => false

end SdioControl

namespace SdioThread

structure Served (s : SdioThread) : Prop where
  /-- with no suspend in force, a worker with a wake-up runs, tests it before it sleeps or is about to be woken -/
  notLost : s.control = .idle → s.wakeup = true →
    s.running = true ∨ s.worker.testsWakeup = true ∨ 0 < s.wakers
  /-- a suspend that returned in time to another caller has parked the worker -/
  parked : s.control = .held → s.bySelf = false → s.timedOut = false →
    s.worker.parked = true ∧ s.shouldSuspend = true
  /-- a resumed worker leaves the loop without another wake-up -/
  released : s.control = .idle → s.shouldSuspend = false ∧ s.suspened = false ∧ s.worker ≠ .parkMark ∧
    (s.worker.marked = true → s.running = true)
  /-- a worker that was stopped waits no more -/
  awake : s.control = .join → s.kthreadStop = true ∧ (s.worker.waits = true → s.running = true)
  once : s.returns = if s.worker = .returned then 1 else 0

end SdioThread

namespace SdioThreadAct

def InOrder (s : SdioThread) : SdioThreadAct → Prop
  | worker _ => s.worker = .setState → s.wakeup = true → s.control.stopping = true
  | control _ => (s.control = .testClear → s.worker ≠ .parkMark) ∧
      (s.control = .setShould → s.bySelf = false → s.done = 0)
  | _ => True

instance decInOrder (s : SdioThread) (a : SdioThreadAct) : Decidable (a.InOrder s) :=
  match a with
  | worker _ => inferInstanceAs (Decidable (_ → _ → _))
  | control _ => inferInstanceAs (Decidable ((_ → _) ∧ (_ → _ → _)))
  | wakeup | wake | trySuspend _ | resume | deinit => .isTrue trivial

end SdioThreadAct

namespace SdioThread

structure Flags (s : SdioThread) : Prop where
  alive : s.control.stopping = false → s.thread = true ∧ s.shouldStop = false ∧ s.kthreadStop = false
  stopped : s.control = .wakeStopped ∨ s.control = .join → s.kthreadStop = true
  before : s.control.before = true → s.shouldSuspend = false ∧ s.suspened = false
  suspends : s.control.suspends = true → s.shouldSuspend = true
  cleared : s.control = .testClear → s.shouldSuspend = false
  taken : s.control = .wakeParked → s.shouldSuspend = false ∧ s.suspened = false

structure Place (s : SdioThread) : Prop where
  stops : s.worker.stops = true → s.kthreadStop = true
  window : s.wakeup = true → s.worker.window = true → s.running = true ∨ 0 < s.wakers ∨ s.control.stopping = true
  marked : s.worker.marked = true → s.suspened = true ∨ s.running = true ∨ s.control = .wakeParked
  mark : s.worker = .parkMark → s.shouldSuspend = true ∨ s.control = .testClear
  waits : s.control = .wakeWorker ∨ s.control = .wait → s.bySelf = false ∧ (0 < s.done → s.worker.parked = true)
  held : s.control = .held → s.bySelf = false → s.timedOut = false → s.worker.parked = true
  awake : s.control = .join → s.worker.waits = true → s.running = true
  once : s.returns = if s.worker = .returned then 1 else 0

structure Inv (s : SdioThread) : Prop where
  flags : s.Flags
  place : s.Place

variable {s : SdioThread}

theorem worker_kinds (w : SdioWorker) :
    w.testsWakeup = true ∨ w.window = true ∨ w.marked = true ∨ w = .parkMark ∨ w.stops = true := by
  cases w with
  | shouldStop head => cases head <;> decide
  | setStop | stopTest | stopMark | stopComplete => simp [SdioWorker.stops]
  | _ => decide

theorem Inv.served (h : s.Inv) : s.Served where
  notLost hidle hwakeup := by
    have halive := (h.flags.alive (by rw [hidle]; rfl)).2.2
    rcases worker_kinds s.worker with hw | hw | hw | hw | hw
    · exact .inr (.inl hw)
    · rcases h.place.window hwakeup hw with hr | hr | hr
      · exact .inl hr
      · exact .inr (.inr hr)
      · rw [hidle] at hr
        cases hr
    · rcases h.place.marked hw with hm | hm | hm
      · rw [(h.flags.before (by rw [hidle]; rfl)).2] at hm
        cases hm
      · exact .inl hm
      · rw [hidle] at hm
        cases hm
    · rcases h.place.mark hw with hm | hm
      · rw [(h.flags.before (by rw [hidle]; rfl)).1] at hm
        cases hm
      · rw [hidle] at hm
        cases hm
    · rw [h.place.stops hw] at halive
      cases halive
  parked hheld hself htime := ⟨h.place.held hheld hself htime, h.flags.suspends (by rw [hheld]; rfl)⟩
  released hidle := by
    obtain ⟨hshould, hsuspened⟩ := h.flags.before (by rw [hidle]; rfl)
    refine ⟨hshould, hsuspened, fun hw => ?_, fun hw => ?_⟩
    · rcases h.place.mark hw with hm | hm
      · rw [hshould] at hm
        cases hm
      · rw [hidle] at hm
        cases hm
    · rcases h.place.marked hw with hm | hm | hm
      · rw [hsuspened] at hm
        cases hm
      · exact hm
      · rw [hidle] at hm
        cases hm
  awake hjoin := ⟨h.flags.stopped (.inr hjoin), h.place.awake hjoin⟩
  once := h.place.once

def Alive (s : SdioThread) : Prop := s.thread = true ∧ s.shouldStop = false ∧ s.kthreadStop = false

theorem before_apart {c : SdioControl} (h : c.before = true) : c.suspends = false ∧ c.stopping = false := by
  revert h
  cases c <;> decide

theorem suspends_apart {c : SdioControl} (h : c.suspends = true) : c.before = false ∧ c.stopping = false := by
  revert h
  cases c <;> decide

theorem stopping_apart {c : SdioControl} (h : c.stopping = true) : c.before = false ∧ c.suspends = false := by
  revert h
  cases c <;> decide

section Controller

variable {u : SdioThread}

theorem Flags.of_before (hc : u.control.before = true) (ha : u.Alive)
    (hu : u.shouldSuspend = false ∧ u.suspened = false) : u.Flags := by
  refine ⟨fun _ => ha, fun h => ?_, fun _ => hu, fun h => ?_, fun _ => hu.1, fun _ => hu⟩
  · rcases h with h | h <;> rw [h] at hc <;> cases hc
  · rw [(before_apart hc).1] at h
    cases h

theorem Flags.of_suspends (hc : u.control.suspends = true) (ha : u.Alive) (hu : u.shouldSuspend = true) : u.Flags := by
  refine ⟨fun _ => ha, fun h => ?_, fun h => ?_, fun _ => hu, fun h => ?_, fun h => ?_⟩
  · rcases h with h | h <;> rw [h] at hc <;> cases hc
  · rw [(suspends_apart hc).1] at h
    cases h
  · rw [h] at hc
    cases hc
  · rw [h] at hc
    cases hc

theorem Flags.of_stopping (hc : u.control.stopping = true)
    (hstop : u.control = .wakeStopped ∨ u.control = .join → u.kthreadStop = true) : u.Flags := by
  refine ⟨fun h => ?_, hstop, fun h => ?_, fun h => ?_, fun h => ?_, fun h => ?_⟩
  · rw [hc] at h
    cases h
  · rw [(stopping_apart hc).1] at h
    cases h
  · rw [(stopping_apart hc).2] at h
    cases h
  · rw [h] at hc
    cases hc
  · rw [h] at hc
    cases hc

end Controller

theorem Flags.control {expired : Bool} (h : s.Flags) : (s.controlStep expired).Flags := by
  have halive : s.control.stopping = false → s.Alive := h.alive
  have hbefore := h.before
  have hsuspends := h.suspends
  unfold controlStep
  cases hc : s.control with
  | idle | held | ended => exact h
  | getThread =>
    rw [hc] at halive hbefore
    dsimp only
    rw [if_pos (halive rfl).1]
    exact .of_before rfl (halive rfl) (hbefore rfl)
  | testStop =>
    rw [hc] at halive hbefore
    dsimp only
    rw [if_neg (Bool.eq_false_iff.mp (halive rfl).2.1)]
    exact .of_before rfl (halive rfl) (hbefore rfl)
  | testSuspened =>
    rw [hc] at halive hbefore
    dsimp only
    rw [if_neg (Bool.eq_false_iff.mp (hbefore rfl).2)]
    exact .of_before rfl (halive rfl) (hbefore rfl)
  | setShould =>
    rw [hc] at halive
    refine .of_suspends ?_ (halive rfl) rfl
    dsimp only
    split <;> rfl
  | wakeWorker | wait =>
    rw [hc] at halive hsuspends
    exact .of_suspends rfl (halive rfl) (hsuspends rfl)
  | resume =>
    rw [hc] at halive hsuspends
    dsimp only
    rw [if_pos (halive rfl).1]
    exact .of_suspends rfl (halive rfl) (hsuspends rfl)
  | clearShould =>
    rw [hc] at halive
    exact ⟨fun _ => halive rfl, (by rintro (h | h) <;> cases h), nofun, nofun, fun _ => rfl, nofun⟩
  | testClear =>
    have hcleared := h.cleared hc
    rw [hc] at halive
    dsimp only
    split
    · exact ⟨fun _ => halive rfl, (by rintro (h | h) <;> cases h), nofun, nofun, nofun, fun _ => ⟨hcleared, rfl⟩⟩
    · exact .of_before rfl (halive rfl) ⟨hcleared, rfl⟩
  | wakeParked =>
    have htaken := h.taken hc
    rw [hc] at halive
    exact .of_before rfl (halive rfl) htaken
  | setStop => exact .of_stopping rfl (by rintro (h | h) <;> cases h)
  | dropThread =>
    dsimp only
    split
    · exact .of_stopping rfl (by rintro (h | h) <;> cases h)
    · exact .of_stopping rfl (by rintro (h | h) <;> cases h)
  | stop => exact .of_stopping rfl (fun _ => rfl)
  | wakeStopped => exact .of_stopping rfl (fun _ => h.stopped (.inl hc))
  | join => exact .of_stopping rfl (by rintro (h | h) <;> cases h)

section Steps

variable {expired : Bool}

theorem control_same (expired : Bool) :
    (s.controlStep expired).worker = s.worker ∧ (s.controlStep expired).returns = s.returns ∧
      (s.controlStep expired).wakeup = s.wakeup ∧ (s.controlStep expired).wakers = s.wakers ∧
      (s.controlStep expired).bySelf = s.bySelf := by
  unfold controlStep
  split <;> exact ⟨rfl, rfl, rfl, rfl, rfl⟩

theorem control_stop (h : s.kthreadStop = true) : (s.controlStep expired).kthreadStop = true := by
  unfold controlStep
  split <;> first | exact h | rfl

theorem control_running (h : s.running = true) : (s.controlStep expired).running = true := by
  unfold controlStep
  split <;> first | exact h | rfl

theorem control_stopping (h : s.control.stopping = true) : (s.controlStep expired).control.stopping = true := by
  unfold controlStep
  cases hc : s.control with
  | setStop | stop | wakeStopped | join => rfl
  | dropThread =>
    dsimp only
    split <;> rfl
  | ended => exact h
  | _ =>
    rw [hc] at h
    cases h

theorem control_suspened (h : s.suspened = true ∨ s.control = .wakeParked) :
    (s.controlStep expired).suspened = true ∨ (s.controlStep expired).running = true ∨
      (s.controlStep expired).control = .wakeParked := by
  unfold controlStep
  cases hc : s.control with
  | testClear =>
    rcases h with h | h
    · exact .inr (.inr (if_pos h))
    · rw [hc] at h
      cases h
  | wakeParked => exact .inr (.inl rfl)
  | _ =>
    rcases h with h | h
    · exact .inl h
    · rw [hc] at h
      cases h

theorem control_should (h : s.shouldSuspend = true) :
    (s.controlStep expired).shouldSuspend = true ∨ (s.controlStep expired).control = .testClear := by
  unfold controlStep
  cases hc : s.control with
  | clearShould => exact .inr rfl
  | setShould => exact .inl rfl
  | _ => exact .inl h

end Steps

theorem Place.controlled {u : SdioThread} (h : s.Place)
    (hsame : u.worker = s.worker ∧ u.returns = s.returns ∧ u.wakeup = s.wakeup ∧ u.wakers = s.wakers)
    (hstop : s.kthreadStop = true → u.kthreadStop = true) (hrunning : s.running = true → u.running = true)
    (hstopping : s.control.stopping = true → u.control.stopping = true)
    (hmarked : s.suspened = true ∨ s.control = .wakeParked →
      u.suspened = true ∨ u.running = true ∨ u.control = .wakeParked)
    (hmark : s.worker = .parkMark → u.shouldSuspend = true ∨ u.control = .testClear)
    (hwaits : u.control = .wakeWorker ∨ u.control = .wait →
      u.bySelf = false ∧ (0 < u.done → s.worker.parked = true))
    (hheld : u.control = .held → u.bySelf = false → u.timedOut = false → s.worker.parked = true)
    (hawake : u.control = .join → u.running = true) : u.Place := by
  obtain ⟨hworker, hreturns, hwakeup, hwakers⟩ := hsame
  refine ⟨?_, ?_, ?_, ?_, ?_, ?_, fun hj _ => hawake hj, ?_⟩ <;> rw [hworker]
  · exact fun hw => hstop (h.stops hw)
  · rw [hwakeup, hwakers]
    exact fun hk hw => (h.window hk hw).imp hrunning (Or.imp id hstopping)
  · intro hw
    rcases h.marked hw with hm | hm | hm
    · exact hmarked (.inl hm)
    · exact .inr (.inl (hrunning hm))
    · exact hmarked (.inr hm)
  · exact hmark
  · exact hwaits
  · exact hheld
  · rw [hreturns]
    exact h.once

theorem Place.control {expired : Bool} (h : s.Place) (hf : s.Flags)
    (hen : (SdioThreadAct.control expired).Enabled s) (hC : (SdioThreadAct.control expired).InOrder s) :
    (s.controlStep expired).Place := by
  obtain ⟨hworker, hreturns, hwakeup, hwakers, hbySelf⟩ := s.control_same expired
  have halive : s.control.stopping = false → s.Alive := hf.alive
  have hbefore := hf.before
  unfold SdioThreadAct.Enabled at hen
  refine h.controlled ⟨hworker, hreturns, hwakeup, hwakers⟩ control_stop control_running control_stopping
    control_suspened (fun hw => ?_) (fun hc => ?_) (fun hc hself htime => ?_) (fun hc => ?_)
  · rcases h.mark hw with hs | hc
    · exact control_should hs
    · exact absurd hw (hC.1 hc)
  · rw [hbySelf]
    unfold controlStep at hc ⊢
    cases hs : s.control with
    | idle | held | ended => rw [hs] at hen; exact hen.elim
    | setShould =>
      -- no completion is left over
      rw [hs] at hc
      cases hself : s.bySelf with
      | true =>
        rw [hself] at hc
        rcases hc with hc | hc <;> cases hc
      | false => exact ⟨rfl, fun hd => absurd (hC.2 hs hself) (Nat.ne_of_gt hd)⟩
    | wakeWorker => exact h.waits (.inl hs)
    | getThread | testStop | testSuspened | resume | testClear | dropThread =>
      rw [hs] at hc
      dsimp only at hc
      split at hc <;> rcases hc with hc | hc <;> cases hc
    | _ =>
      rw [hs] at hc
      rcases hc with hc | hc <;> cases hc
  · rw [hbySelf] at hself
    unfold controlStep at hc htime
    cases hs : s.control with
    | idle | held | ended => rw [hs] at hen; exact hen.elim
    | getThread =>
      rw [hs] at hc halive
      dsimp only at hc
      rw [if_pos (halive rfl).1] at hc
      cases hc
    | testStop =>
      rw [hs] at hc halive
      dsimp only at hc
      rw [if_neg (Bool.eq_false_iff.mp (halive rfl).2.1)] at hc
      cases hc
    | testSuspened =>
      rw [hs] at hc hbefore
      dsimp only at hc
      rw [if_neg (Bool.eq_false_iff.mp (hbefore rfl).2)] at hc
      cases hc
    | setShould =>
      rw [hs, hself] at hc
      cases hc
    | wait =>
      -- the completion that ends the wait is one of this suspend
      rw [hs] at hen htime
      refine (h.waits (.inr hs)).2 (Nat.pos_of_ne_zero fun hdone => ?_)
      rw [show expired = false from htime] at hen
      cases hen.mpr hdone
    | resume | testClear | dropThread =>
      rw [hs] at hc
      dsimp only at hc
      split at hc <;> cases hc
    | _ =>
      rw [hs] at hc
      cases hc
  · unfold controlStep at hc ⊢
    cases hs : s.control with
    | idle | held | ended => rw [hs] at hen; exact hen.elim
    | wakeStopped => rfl
    | getThread | testStop | testSuspened | setShould | resume | testClear | dropThread =>
      rw [hs] at hc
      dsimp only at hc
      split at hc <;> cases hc
    | _ =>
      rw [hs] at hc
      cases hc

theorem Flags.worker {again : Bool} (h : s.Flags) (hp : s.Place) : (s.atbmSdioWaitAction again).Flags := by
  -- a worker that has seen `kthread_should_stop` is being stopped
  have hstop : s.worker.stops = true → s.control.stopping = true := by
    intro hw
    cases hc : s.control.stopping with
    | true => rfl
    | false =>
      have halive := (h.alive hc).2.2
      rw [hp.stops hw] at halive
      cases halive
  obtain ⟨halive, hstopped, hbefore, hsuspends, hcleared, htaken⟩ := h
  unfold atbmSdioWaitAction
  cases hw : s.worker with
  | parkMark =>
    have hmark := hp.mark hw
    refine ⟨halive, hstopped, fun hc => ?_, hsuspends, hcleared, fun hc => ?_⟩
    · rcases hmark with hm | hm
      · rw [(hbefore hc).1] at hm
        cases hm
      · rw [hm] at hc
        cases hc
    · rcases hmark with hm | hm
      · rw [(htaken hc).1] at hm
        cases hm
      · rw [hm] at hc
        cases hc
  | setStop head | stopMark head | parkSetStop | parkClear =>
    exact .of_stopping (hstop (by rw [hw]; rfl)) hstopped
  | unmark =>
    exact ⟨halive, hstopped, fun hc => ⟨(hbefore hc).1, rfl⟩, hsuspends, hcleared, fun hc => ⟨(htaken hc).1, rfl⟩⟩
  | _ => exact ⟨halive, hstopped, hbefore, hsuspends, hcleared, htaken⟩

/-- No suspend waits for the worker or is held. -/
def NoSuspend (s : SdioThread) : Prop :=
  ¬(s.control = .wakeWorker ∨ s.control = .wait) ∧ s.control ≠ .held

theorem Flags.noSuspend (h : s.Flags) (hw : s.kthreadStop = true ∨ s.shouldSuspend = false) : s.NoSuspend := by
  have hsuspends : s.control.suspends = true → False := by
    intro hc
    rcases hw with hw | hw
    · have hstopping : s.control.stopping = false := by
        cases hs : s.control with
        | wakeWorker | wait | held | resume | clearShould => rfl
        | _ => rw [hs] at hc; cases hc
      rw [(h.alive hstopping).2.2] at hw
      cases hw
    · rw [h.suspends hc] at hw
      cases hw
  refine ⟨fun hc => ?_, fun hc => hsuspends (by rw [hc]; rfl)⟩
  rcases hc with hc | hc <;> exact hsuspends (by rw [hc]; rfl)

structure SameCall (s u : SdioThread) : Prop where
  control : u.control = s.control
  kthreadStop : u.kthreadStop = s.kthreadStop
  wakers : u.wakers = s.wakers
  bySelf : u.bySelf = s.bySelf
  timedOut : u.timedOut = s.timedOut

/-- The worker leaves the loop in which it is parked only when no suspend needs it there. -/
def StaysParked (s u : SdioThread) : Prop :=
  u.worker.parked = true ∨ s.worker.parked = false ∧ u.done = s.done ∨ s.NoSuspend

section Moves

variable {u : SdioThread}

theorem Place.suspends (h : s.Place) (hcall : s.SameCall u) (hp : s.StaysParked u) :
    (u.control = .wakeWorker ∨ u.control = .wait → u.bySelf = false ∧ (0 < u.done → u.worker.parked = true)) ∧
      (u.control = .held → u.bySelf = false → u.timedOut = false → u.worker.parked = true) := by
  rw [hcall.control, hcall.bySelf, hcall.timedOut]
  rcases hp with hp | ⟨hp, hdone⟩ | hno
  · exact ⟨fun hc => ⟨(h.waits hc).1, fun _ => hp⟩, fun _ _ _ => hp⟩
  · refine ⟨fun hc => ⟨(h.waits hc).1, fun hd => ?_⟩, fun hc hself htime => ?_⟩
    · rw [hdone] at hd
      rw [(h.waits hc).2 hd] at hp
      cases hp
    · rw [h.held hc hself htime] at hp
      cases hp
  · exact ⟨fun hc => absurd hc hno.1, fun hc => absurd hc hno.2⟩

theorem Place.none_returned (h : s.Place) (hs : s.worker ≠ .returned) : s.returns = 0 := by
  rw [h.once, if_neg hs]

theorem Place.quiet (h : s.Place) (hcall : s.SameCall u) (hs : s.worker ≠ .returned) (hr : u.returns = s.returns)
    (hu : u.worker.testsWakeup = true) (hp : s.StaysParked u) : u.Place := by
  have hkinds : u.worker.stops = false ∧ u.worker.window = false ∧ u.worker.marked = false ∧ u.worker ≠ .parkMark ∧
      u.worker.waits = false ∧ u.worker ≠ .returned := by
    revert hu
    cases u.worker with
    | shouldStop head => cases head <;> decide
    | setStop | stopTest | stopMark | stopComplete => exact nofun
    | _ => decide
  obtain ⟨hstops, hwindow, hmarked, hmark, hwaits, hreturned⟩ := hkinds
  obtain ⟨hwait, hheld⟩ := h.suspends hcall hp
  refine ⟨fun hw => ?_, fun _ hw => ?_, fun hw => ?_, fun hw => absurd hw hmark, hwait, hheld, fun _ hw => ?_, ?_⟩
  · rw [hstops] at hw
    cases hw
  · rw [hwindow] at hw
    cases hw
  · rw [hmarked] at hw
    cases hw
  · rw [hwaits] at hw
    cases hw
  · rw [hr, if_neg hreturned]
    exact h.none_returned hs

theorem Place.stopping (h : s.Place) (hcall : s.SameCall u) (hno : s.NoSuspend) (hstop : s.kthreadStop = true)
    (hu : u.worker.stops = true) (hr : u.returns = if u.worker = .returned then 1 else 0) : u.Place := by
  have hkinds : u.worker.window = false ∧ u.worker.marked = false ∧ u.worker ≠ .parkMark ∧
      u.worker.waits = false := by
    revert hu
    cases u.worker with
    | shouldStop head => exact nofun
    | setStop | stopTest | stopMark | stopComplete => simp [SdioWorker.window, SdioWorker.marked, SdioWorker.waits]
    | _ => decide
  obtain ⟨hwindow, hmarked, hmark, hwaits⟩ := hkinds
  obtain ⟨hwait, hheld⟩ := h.suspends hcall (.inr (.inr hno))
  refine ⟨fun _ => hcall.kthreadStop.trans hstop, fun _ hw => ?_, fun hw => ?_, fun hw => absurd hw hmark, hwait, hheld,
    fun _ hw => ?_, hr⟩
  · rw [hwindow] at hw
    cases hw
  · rw [hmarked] at hw
    cases hw
  · rw [hwaits] at hw
    cases hw

theorem Place.windowed (h : s.Place) (hcall : s.SameCall u) (hs : s.worker ≠ .returned) (hr : u.returns = s.returns)
    (hu : u.worker.window = true) (hp : s.StaysParked u)
    (hwindow : u.wakeup = true → u.running = true ∨ 0 < s.wakers ∨ s.control.stopping = true)
    (hwaits : u.worker.waits = true → s.control ≠ .join) : u.Place := by
  have hkinds : u.worker.stops = false ∧ u.worker.marked = false ∧ u.worker ≠ .parkMark ∧ u.worker ≠ .returned := by
    revert hu
    cases u.worker with
    | shouldStop head => cases head <;> decide
    | setStop | stopTest | stopMark | stopComplete => exact nofun
    | _ => decide
  obtain ⟨hstops, hmarked, hmark, hreturned⟩ := hkinds
  obtain ⟨hwait, hheld⟩ := h.suspends hcall hp
  refine ⟨fun hw => ?_, fun hwakeup _ => ?_, fun hw => ?_, fun hw => absurd hw hmark, hwait, hheld, fun hj hw => ?_, ?_⟩
  · rw [hstops] at hw
    cases hw
  · rw [hcall.wakers, hcall.control]
    exact hwindow hwakeup
  · rw [hmarked] at hw
    cases hw
  · rw [hcall.control] at hj
    exact absurd hj (hwaits hw)
  · rw [hr, if_neg hreturned]
    exact h.none_returned hs

theorem Place.parks (h : s.Place) (hcall : s.SameCall u) (hs : s.worker ≠ .returned) (hr : u.returns = s.returns)
    (hu : u.worker = .parkMark ∨ u.worker.marked = true)
    (hmarked : u.worker.marked = true → u.suspened = true ∨ u.running = true ∨ s.control = .wakeParked)
    (hmark : u.worker = .parkMark → u.shouldSuspend = true)
    (hwaits : u.worker.waits = true → s.control ≠ .join) : u.Place := by
  have hkinds : u.worker.stops = false ∧ u.worker.window = false ∧ u.worker.parked = true ∧ u.worker ≠ .returned := by
    rcases hu with hu | hu
    · rw [hu]
      decide
    · revert hu
      cases u.worker with
      | shouldStop | setStop | stopTest | stopMark | stopComplete => exact nofun
      | _ => decide
  obtain ⟨hstops, hwindow, hparked, hreturned⟩ := hkinds
  obtain ⟨hwait, hheld⟩ := h.suspends hcall (.inl hparked)
  refine ⟨fun hw => ?_, fun _ hw => ?_, fun hw => ?_, fun hw => .inl (hmark hw), hwait, hheld, fun hj hw => ?_, ?_⟩
  · rw [hstops] at hw
    cases hw
  · rw [hwindow] at hw
    cases hw
  · rw [hcall.control]
    exact hmarked hw
  · rw [hcall.control] at hj
    exact absurd hj (hwaits hw)
  · rw [hr, if_neg hreturned]
    exact h.none_returned hs

end Moves

theorem Place.stopped {u : SdioThread} (head : Bool) (h : s.Place) (hcall : s.SameCall u) (hno : s.NoSuspend)
    (hstop : s.kthreadStop = true) (hs : s.worker ≠ .returned) (hr : u.returns = s.returns)
    (hu : u.worker = SdioThread.stopped head true) : u.Place := by
  cases head with
  | true =>
    refine h.stopping hcall hno hstop (by rw [hu]; rfl) ?_
    rw [hr, h.none_returned hs, hu]
    rfl
  | false => exact h.quiet hcall hs hr (by rw [hu]; rfl) (.inr (.inr hno))

theorem Place.worker {again : Bool} (h : s.Place) (hf : s.Flags)
    (hen : (SdioThreadAct.worker again).Enabled s) (hC : (SdioThreadAct.worker again).InOrder s) :
    (s.atbmSdioWaitAction again).Place := by
  have hs : s.worker ≠ .returned := by
    intro hw
    have := hen.2
    rw [hw] at this
    exact this
  have hzero := h.none_returned hs
  have hno : s.kthreadStop = true → s.NoSuspend := fun hstop => hf.noSuspend (.inl hstop)
  have hjoin : s.kthreadStop = false → s.control ≠ .join := by
    intro hstop hc
    rw [hf.stopped (.inr hc)] at hstop
    cases hstop
  unfold SdioThreadAct.InOrder at hC
  have hstops := h.stops
  have hwindow := h.window
  have hmarked := h.marked
  unfold atbmSdioWaitAction
  cases hw : s.worker with
  | returned => exact absurd hw hs
  | work | wake | sleep | afterSleep | unmark | parkExit =>
    exact h.quiet ⟨rfl, rfl, rfl, rfl, rfl⟩ hs rfl rfl (.inr (.inl ⟨by rw [hw]; rfl, rfl⟩))
  | parkEnter | parkSleep | parkState => exact h.quiet ⟨rfl, rfl, rfl, rfl, rfl⟩ hs rfl rfl (.inl rfl)
  | shouldStop head =>
    dsimp only
    split
    · next hstop => exact h.stopping ⟨rfl, rfl, rfl, rfl, rfl⟩ (hno hstop) hstop rfl hzero
    · next hstop =>
      cases head with
      | true => exact h.quiet ⟨rfl, rfl, rfl, rfl, rfl⟩ hs rfl rfl (.inr (.inl ⟨by rw [hw]; rfl, rfl⟩))
      | false =>
        exact h.windowed ⟨rfl, rfl, rfl, rfl, rfl⟩ hs rfl rfl (.inr (.inl ⟨by rw [hw]; rfl, rfl⟩))
          (fun hwakeup => hwindow hwakeup (by rw [hw]; rfl)) (fun _ => hjoin (Bool.eq_false_iff.mpr hstop))
  | setStop head =>
    have hstop := hstops (by rw [hw]; rfl)
    exact h.stopping ⟨rfl, rfl, rfl, rfl, rfl⟩ (hno hstop) hstop rfl hzero
  | stopTest head =>
    have hstop := hstops (by rw [hw]; rfl)
    cases hshould : s.shouldSuspend with
    | true => exact h.stopping ⟨rfl, rfl, rfl, rfl, rfl⟩ (hno hstop) hstop rfl hzero
    | false => exact h.stopped head ⟨rfl, rfl, rfl, rfl, rfl⟩ (hno hstop) hstop hs rfl rfl
  | stopMark head =>
    have hstop := hstops (by rw [hw]; rfl)
    cases hsuspened : s.suspened with
    | true => exact h.stopped head ⟨rfl, rfl, rfl, rfl, rfl⟩ (hno hstop) hstop hs rfl rfl
    | false => exact h.stopping ⟨rfl, rfl, rfl, rfl, rfl⟩ (hno hstop) hstop rfl hzero
  | stopComplete head =>
    have hstop := hstops (by rw [hw]; rfl)
    exact h.stopped head ⟨rfl, rfl, rfl, rfl, rfl⟩ (hno hstop) hstop hs rfl rfl
  | testWakeup =>
    cases hwakeup : s.wakeup with
    | true => exact h.quiet ⟨rfl, rfl, rfl, rfl, rfl⟩ hs rfl rfl (.inr (.inl ⟨by rw [hw]; rfl, rfl⟩))
    | false =>
      exact h.windowed ⟨rfl, rfl, rfl, rfl, rfl⟩ hs rfl rfl (.inr (.inl ⟨by rw [hw]; rfl, rfl⟩)) nofun nofun
  | testSuspend =>
    cases hshould : s.shouldSuspend with
    | true => exact h.quiet ⟨rfl, rfl, rfl, rfl, rfl⟩ hs rfl rfl (.inr (.inl ⟨by rw [hw]; rfl, rfl⟩))
    | false =>
      exact h.windowed ⟨rfl, rfl, rfl, rfl, rfl⟩ hs rfl rfl (.inr (.inl ⟨by rw [hw]; rfl, rfl⟩))
        (fun hwakeup => hwindow hwakeup (by rw [hw]; rfl)) nofun
  | period =>
    dsimp only
    split
    · exact h.quiet ⟨rfl, rfl, rfl, rfl, rfl⟩ hs rfl rfl (.inr (.inl ⟨by rw [hw]; rfl, rfl⟩))
    · exact h.windowed ⟨rfl, rfl, rfl, rfl, rfl⟩ hs rfl rfl (.inr (.inl ⟨by rw [hw]; rfl, rfl⟩))
        (fun hwakeup => hwindow hwakeup (by rw [hw]; rfl)) nofun
  | preSched =>
    dsimp only
    split
    · exact h.quiet ⟨rfl, rfl, rfl, rfl, rfl⟩ hs rfl rfl (.inr (.inl ⟨by rw [hw]; rfl, rfl⟩))
    · exact h.windowed ⟨rfl, rfl, rfl, rfl, rfl⟩ hs rfl rfl (.inr (.inl ⟨by rw [hw]; rfl, rfl⟩))
        (fun hwakeup => hwindow hwakeup (by rw [hw]; rfl)) nofun
  | setState =>
    -- a wake-up that came after the test is missed unless the worker is being stopped
    exact h.windowed ⟨rfl, rfl, rfl, rfl, rfl⟩ hs rfl rfl (.inr (.inl ⟨by rw [hw]; rfl, rfl⟩))
      (fun hwakeup => .inr (.inr (hC hw hwakeup))) nofun
  | parkTest =>
    cases hshould : s.shouldSuspend with
    | true => exact h.parks ⟨rfl, rfl, rfl, rfl, rfl⟩ hs rfl (.inl rfl) nofun (fun _ => rfl) nofun
    | false => exact h.quiet ⟨rfl, rfl, rfl, rfl, rfl⟩ hs rfl rfl (.inr (.inr (hf.noSuspend (.inr hshould))))
  | parkMark =>
    dsimp only
    split
    · exact h.parks ⟨rfl, rfl, rfl, rfl, rfl⟩ hs rfl (.inr rfl) (fun _ => .inl rfl) nofun nofun
    · exact h.parks ⟨rfl, rfl, rfl, rfl, rfl⟩ hs rfl (.inr rfl) (fun _ => .inl rfl) nofun nofun
  | parkComplete =>
    exact h.parks ⟨rfl, rfl, rfl, rfl, rfl⟩ hs rfl (.inr rfl) (fun _ => hmarked (by rw [hw]; rfl)) nofun nofun
  | parkStop =>
    dsimp only
    split
    · next hstop => exact h.stopping ⟨rfl, rfl, rfl, rfl, rfl⟩ (hno hstop) hstop rfl hzero
    · next hstop =>
      exact h.parks ⟨rfl, rfl, rfl, rfl, rfl⟩ hs rfl (.inr rfl) (fun _ => hmarked (by rw [hw]; rfl)) nofun
        (fun _ => hjoin (Bool.eq_false_iff.mpr hstop))
  | parkSetStop =>
    have hstop := hstops (by rw [hw]; rfl)
    exact h.stopping ⟨rfl, rfl, rfl, rfl, rfl⟩ (hno hstop) hstop rfl hzero
  | parkClear =>
    have hstop := hstops (by rw [hw]; rfl)
    exact h.quiet ⟨rfl, rfl, rfl, rfl, rfl⟩ hs rfl rfl (.inr (.inr (hno hstop)))
  | leave =>
    have hstop := hstops (by rw [hw]; rfl)
    exact h.stopping ⟨rfl, rfl, rfl, rfl, rfl⟩ (hno hstop) hstop rfl (congrArg (· + 1) hzero)

theorem Inv.wakeup (h : s.Inv) : s.atbmSdioThreadWakeup.Inv := by
  refine ⟨⟨h.flags.alive, h.flags.stopped, h.flags.before, h.flags.suspends, h.flags.cleared, h.flags.taken⟩, ?_⟩
  refine ⟨h.place.stops, fun _ hw => ?_, h.place.marked, h.place.mark, h.place.waits, h.place.held, h.place.awake,
    h.place.once⟩
  show s.running = true ∨ 0 < (if s.wakeup = true then s.wakers else s.wakers + 1) ∨ s.control.stopping = true
  cases hwakeup : s.wakeup with
  | true => exact h.place.window hwakeup hw
  | false => exact .inr (.inl (Nat.succ_pos _))

theorem Inv.wake (h : s.Inv) : s.wakeWaker.Inv := by
  have hrun : ∀ {P : Prop}, s.running = true ∨ P → s.wakeWaker.running = true ∨ P := by
    rintro P (hr | hp)
    · refine .inl ?_
      show (s.thread || s.running) = true
      rw [hr, Bool.or_true]
    · exact .inr hp
  refine ⟨⟨h.flags.alive, h.flags.stopped, h.flags.before, h.flags.suspends, h.flags.cleared, h.flags.taken⟩, ?_⟩
  refine ⟨h.place.stops, fun _ _ => ?_, fun hw => ?_, h.place.mark, h.place.waits, h.place.held, fun hj hw => ?_,
    h.place.once⟩
  · -- without a thread to wake, the worker is being stopped
    cases hs : s.control.stopping with
    | true => exact .inr (.inr hs)
    | false =>
      refine .inl ?_
      show (s.thread || s.running) = true
      rw [(h.flags.alive hs).1]
      rfl
  · rcases h.place.marked hw with hm | hm
    · exact .inl hm
    · exact .inr (hrun hm)
  · show (s.thread || s.running) = true
    rw [h.place.awake hj hw, Bool.or_true]

theorem Inv.call {c : SdioControl} {bySelf timedOut : Bool} (h : s.Inv) (hc : s.control = .idle ∨ s.control = .held)
    (hcall : c = .getThread ∧ s.control = .idle ∨ c = .resume ∧ s.control = .held ∨ c = .setStop) :
    ({ s with control := c, bySelf := bySelf, timedOut := timedOut } : SdioThread).Inv := by
  have halive : s.Alive := h.flags.alive (by rcases hc with hc | hc <;> rw [hc] <;> rfl)
  have hcalled : c = .getThread ∨ c = .resume ∨ c = .setStop := hcall.imp And.left (Or.imp And.left id)
  refine ⟨?_, h.place.controlled ⟨rfl, rfl, rfl, rfl⟩ id id ?_ ?_ (fun hw => ?_) ?_ ?_ ?_⟩
  · rcases hcall with ⟨rfl, hidle⟩ | ⟨rfl, hheld⟩ | rfl
    · exact .of_before rfl halive (h.flags.before (by rw [hidle]; rfl))
    · exact .of_suspends rfl halive (h.flags.suspends (by rw [hheld]; rfl))
    · exact .of_stopping rfl (by rintro (h | h) <;> cases h)
  · intro hs
    rcases hc with hc | hc <;> rw [hc] at hs <;> cases hs
  · rintro (hs | hs)
    · exact .inl hs
    · rcases hc with hc | hc <;> rw [hc] at hs <;> cases hs
  · rcases h.place.mark hw with hs | hs
    · exact .inl hs
    · rcases hc with hc | hc <;> rw [hc] at hs <;> cases hs
  all_goals
    intro hu
    rcases hcalled with rfl | rfl | rfl
  · rcases hu with hu | hu <;> cases hu
  · rcases hu with hu | hu <;> cases hu
  · rcases hu with hu | hu <;> cases hu
  all_goals cases hu

theorem Inv.step {a : SdioThreadAct} (h : s.Inv) (hen : a.Enabled s) (hC : a.InOrder s) : (a.next s).Inv := by
  cases a with
  | worker again => exact ⟨h.flags.worker h.place, h.place.worker h.flags hen hC⟩
  | wakeup => exact h.wakeup
  | wake => exact h.wake
  | trySuspend bySelf => exact h.call (.inl hen.1) (.inl ⟨rfl, hen.1⟩)
  | resume => exact h.call (.inr hen) (.inr (.inl ⟨rfl, hen⟩))
  | deinit => exact h.call hen (.inr (.inr rfl))
  | control expired => exact ⟨h.flags.control, h.place.control h.flags hen hC⟩

theorem Inv.start : sdioThreadStart.Inv := by
  constructor <;> constructor <;> decide

/-- `kthread_stop` has woken the worker. -/
structure Stopping (s : SdioThread) : Prop where
  control : s.control = .join ∨ s.control = .ended
  stop : s.kthreadStop = true
  awake : s.worker.waits = true → s.running = true

theorem stepsLeft_stopped (head : Bool) :
    (stopped head true).waits = false ∧ (stopped head true).stepsLeft < (SdioWorker.stopComplete head).stepsLeft := by
  cases head <;> decide

theorem Stopping.worker (again : Bool) (h : s.Stopping) (hw : s.worker ≠ .returned) :
    (s.atbmSdioWaitAction again).Stopping ∧
      (s.atbmSdioWaitAction again).worker.stepsLeft < s.worker.stepsLeft := by
  obtain ⟨hcontrol, hstop, hawake⟩ := h
  have move : ∀ {u : SdioThread}, u.control = s.control → u.kthreadStop = s.kthreadStop → u.worker.waits = false →
      u.Stopping := by
    intro u hc hs hwaits
    refine ⟨by rw [hc]; exact hcontrol, by rw [hs]; exact hstop, fun hu => ?_⟩
    rw [hwaits] at hu
    cases hu
  unfold atbmSdioWaitAction
  cases hworker : s.worker with
  | returned => exact absurd hworker hw
  | shouldStop head =>
    dsimp only
    rw [if_pos hstop]
    exact ⟨move rfl rfl rfl, by cases head <;> decide⟩
  | setStop head =>
    dsimp only
    exact ⟨move rfl rfl rfl, by cases head <;> decide⟩
  | stopTest head =>
    dsimp only
    split
    · exact ⟨move rfl rfl rfl, by cases head <;> decide⟩
    · exact ⟨move rfl rfl (stepsLeft_stopped head).1, by cases head <;> decide⟩
  | stopMark head =>
    dsimp only
    split
    · exact ⟨move rfl rfl (stepsLeft_stopped head).1, by cases head <;> decide⟩
    · exact ⟨move rfl rfl rfl, by cases head <;> decide⟩
  | stopComplete head => exact ⟨move rfl rfl (stepsLeft_stopped head).1, (stepsLeft_stopped head).2⟩
  | parkStop =>
    dsimp only
    rw [if_pos hstop]
    exact ⟨move rfl rfl rfl, by decide⟩
  | testWakeup | testSuspend | period | preSched | parkTest | parkMark =>
    dsimp only
    split
    · exact ⟨move rfl rfl rfl, by decide⟩
    · exact ⟨move rfl rfl rfl, by decide⟩
  | _ =>
    dsimp only
    exact ⟨move rfl rfl rfl, by decide⟩

theorem Stopping.step {a : SdioThreadAct} (h : s.Stopping) (hen : a.Enabled s) : (a.next s).Stopping := by
  obtain ⟨hcontrol, hstop, hawake⟩ := h
  cases a with
  | worker again =>
    have hw : s.worker ≠ .returned := by
      intro hw
      have := hen.2
      rw [hw] at this
      exact this
    exact (Stopping.worker again ⟨hcontrol, hstop, hawake⟩ hw).1
  | wakeup => exact ⟨hcontrol, hstop, hawake⟩
  | wake =>
    refine ⟨hcontrol, hstop, fun hw => ?_⟩
    show (s.thread || s.running) = true
    rw [hawake hw, Bool.or_true]
  | trySuspend bySelf => rcases hcontrol with hc | hc <;> exact absurd (hen.1.symm.trans hc) (by decide)
  | resume => rcases hcontrol with hc | hc <;> exact absurd (Eq.trans (Eq.symm hen) hc) (by decide)
  | deinit =>
    rcases hcontrol with hc | hc <;> rcases hen with he | he <;> exact absurd (he.symm.trans hc) (by decide)
  | control expired =>
    rcases hcontrol with hc | hc
    · simp only [SdioThreadAct.next, controlStep, hc]
      exact ⟨.inr rfl, hstop, hawake⟩
    · simp only [SdioThreadAct.Enabled, hc] at hen

theorem worker_next {a : SdioThreadAct} (ha : ∀ again, a ≠ .worker again) : (a.next s).worker = s.worker := by
  cases a with
  | worker again => exact absurd rfl (ha again)
  | control expired =>
    show (s.controlStep expired).worker = s.worker
    unfold controlStep
    split <;> rfl
  | _ => rfl

def workerSteps (l : List (SdioThread × SdioThreadAct)) : Nat :=
  l.countP fun p => match p.2 with | .worker _ => true | _ => false

/-- The worker is never held up again, and returns after at most `stepsLeft` of its steps. -/
def Ends (s : SdioThread) : Prop :=
  ∀ l u, Path sdioThreads s l u →
    workerSteps l + u.worker.stepsLeft ≤ s.worker.stepsLeft ∧
      (u.worker ≠ .returned → ∀ again, (SdioThreadAct.worker again).Enabled u)

theorem Stopping.ends (h : s.Stopping) : s.Ends := by
  intro l u hpath
  induction hpath with
  | nil s =>
    refine ⟨Nat.le_of_eq (Nat.zero_add _), fun hw again => ⟨?_, ?_⟩⟩
    · rintro ⟨-, hc | hc | hc | hc⟩ <;> rcases h.control with hj | hj <;> exact absurd (hc.symm.trans hj) (by decide)
    · split
      · next hs => exact .inl (h.awake (by rw [hs]; rfl))
      · next hs => exact h.awake (by rw [hs]; rfl)
      · next hs => exact hw hs
      · trivial
  | @cons s t u a l hst _ ih =>
    obtain ⟨hen, rfl⟩ := hst
    obtain ⟨hsteps, hgo⟩ := ih (h.step hen)
    refine ⟨?_, hgo⟩
    unfold workerSteps at hsteps ⊢
    rw [List.countP_cons]
    cases a with
    | worker again =>
      have hw : s.worker ≠ .returned := by
        intro hw
        have := hen.2
        rw [hw] at this
        exact this
      have hlt := (h.worker again hw).2
      rw [if_pos rfl]
      have hstep : ((SdioThreadAct.worker again).next s).worker = (s.atbmSdioWaitAction again).worker := rfl
      rw [hstep] at hsteps
      omega
    | _ =>
      rw [worker_next (by rintro _ ⟨⟩)] at hsteps
      rw [if_neg Bool.false_ne_true]
      omega

end SdioThread

/-- What a run whose steps are in order keeps; once `kthread_stop` has woken the worker, it comes to its end. -/
theorem sdioThread_served {l : List (SdioThread × SdioThreadAct)} {t : SdioThread}
    (h : Path sdioThreads sdioThreadStart l t) (hC : ∀ p ∈ l, p.2.InOrder p.1) :
    t.Served ∧ (t.control = .join → t.Ends) := by
  have hinv : t.Inv := by
    apply h.keep (C := fun s a => a.InOrder s) (I := SdioThread.Inv)
    · rintro s a _ hI ⟨hen, rfl⟩ hC
      exact hI.step hen hC
    · exact hC
    · exact .start
  refine ⟨hinv.served, fun hj => ?_⟩
  obtain ⟨hstop, hawake⟩ := hinv.served.awake hj
  exact SdioThread.Stopping.ends ⟨.inl hj, hstop, hawake⟩

theorem sdioThread_served_ended :
    let acts : List SdioThreadAct := [.worker false, .wakeup, .wake, .worker false, .worker false, .worker false,
      .worker false, .worker false, .worker false, .trySuspend false, .control false, .control false, .control false,
      .control false, .worker false, .worker false, .worker false, .worker false, .worker false, .control false,
      .worker false, .control false, .resume, .control false, .control false, .control false, .control false,
      .worker false, .deinit, .control false, .control false, .control false, .control false]
    (acts.foldl SdioThreadAct.next sdioThreadStart).Served ∧
      (acts.foldl SdioThreadAct.next sdioThreadStart).control = .join ∧
      (acts.foldl SdioThreadAct.next sdioThreadStart).Ends := by
  intro acts
  have hfires : Fires (fun s a => a.Enabled s) SdioThreadAct.next sdioThreadStart acts := by decide
  have hjoin : (acts.foldl SdioThreadAct.next sdioThreadStart).control = .join := by decide
  obtain ⟨hserved, hends⟩ := sdioThread_served (Path.ofFires hfires) (by decide)
  exact ⟨hserved, hjoin, hends hjoin⟩

/-- A resume between the worker's test and its mark, after a suspend that timed out: the worker stays parked. -/
theorem sdioThread_stays_parked : ∃ l t, Path sdioThreads sdioThreadStart l t ∧ ¬t.Served := by
  have hfires : Fires (fun s a => a.Enabled s) SdioThreadAct.next sdioThreadStart
      [.worker false, .worker false, .worker false, .trySuspend false, .control false, .control false, .control false,
        .control false, .control false, .worker false, .worker false, .worker false, .control true, .resume,
        .control false, .control false, .control false, .worker false, .worker false, .worker false] := by decide
  refine ⟨_, _, Path.ofFires hfires, fun h => ?_⟩
  exact absurd (h.released rfl).2.1 (by decide)

end AtbmWifi
