import AtbmWifi.Lib.Transition

/-!
# Suspending the bus-handler thread

`atbm_bh_suspend` and `atbm_bh_resume` write a request into `bh_suspend` and wait for `atbm_bh` to answer in the same
variable.  Either wait can expire.

The waits of the thread are not interrupted: a kernel thread gets no signals.  `sbus_bh_suspend` and `sbus_bh_resume` of
the SDIO bus return 0, and are one step with the return of the call.
-/

namespace AtbmWifi

open Transition

/-- `ATBM_APOLLO_BH_RESUMED` and so on, the values of `bh_suspend` -/
inductive BhSuspendState
  | resumed
  | suspend
  | suspended
  | resume
  deriving DecidableEq, Repr

/-- Where `atbm_bh` is, with the values its wait has read. -/
inductive BhThread
  | wait
  | test (term suspend : Bool)
  | halt (suspend : Bool)
  | branch (suspend : Bool)
  /-- waits for `ATBM_APOLLO_BH_RESUME` -/
  | waitResume
  | setResumed
  /-- out of the loop -/
  | exit (term : Bool)
  | ended
  deriving DecidableEq, Repr

/-- Where the caller is. -/
inductive BhCaller
  | idle
  | suspendTest
  | suspendSet
  | suspendWait
  /-- `atbm_bh_suspend` has returned 0 -/
  | held
  | resumeTest
  | resumeSet
  | resumeWait
  deriving DecidableEq, Repr

structure BhSuspend where
  bhSuspend : BhSuspendState
  bhTerm : Bool
  bhHalt : Bool
  bhError : Bool
  bh : BhThread
  caller : BhCaller
  deriving DecidableEq, Repr

namespace BhSuspend

/-- A step of `atbm_bh`; `rx` is whether it has something else to do, `restarted` the outcome of `lmac_restart`. -/
def atbmBh (rx restarted : Bool) (s : BhSuspend) : BhSuspend :=
  match s.bh with
  | .wait =>
    let suspend := decide (s.bhSuspend ≠ .resumed)
    let s' := { s with bhTerm := false }
    if rx = true ∨ s.bhTerm = true ∨ suspend = true ∨ s.bhError = true ∨ s.bhHalt = true then
      { s' with bh := .test s.bhTerm suspend }
    else s'
  | .test term suspend => { s with bh := if term = true ∨ s.bhError = true then .exit term else .halt suspend }
  | .halt suspend =>
    if s.bhHalt = true then
      if restarted = true then { s with bhHalt := false, bhError := false, bh := .branch suspend }
      else { s with bhHalt := false, bhTerm := true, bhError := true, bh := .exit false }
    else { s with bh := .branch suspend }
  | .branch suspend =>
    if suspend = true then { s with bhSuspend := .suspended, bh := .waitResume } else { s with bh := .wait }
  | .waitResume => { s with bh := .setResumed }
  | .setResumed => { s with bhSuspend := .resumed, bh := .wait }
  | .exit term => { s with bhError := s.bhError || !term, bh := .ended }
  | .ended => s

/-- A step of `atbm_bh_suspend` or `atbm_bh_resume`.  A wait whose condition holds when its time is over has not expired. -/
def callStep (s : BhSuspend) : BhSuspend :=
  match s.caller with
  | .idle | .held => s
  | .suspendTest => { s with caller := if s.bhError = true then .idle else .suspendSet }
  | .suspendSet => { s with bhSuspend := .suspend, caller := .suspendWait }
  | .suspendWait =>
    { s with caller := if s.bhError = true ∨ s.bhSuspend = .suspended then .held else .idle }
  | .resumeTest => { s with caller := if s.bhError = true then .idle else .resumeSet }
  | .resumeSet => { s with bhSuspend := .resume, caller := .resumeWait }
  | .resumeWait => { s with caller := .idle }

end BhSuspend

inductive BhSuspendAct
  | bh (rx restarted : Bool)
  | halt
  | term
  | suspend
  | resume
  /-- the call goes on; its wait can end at any time -/
  | call
  deriving DecidableEq, Repr

namespace BhSuspendAct

def Enabled (s : BhSuspend) : BhSuspendAct → Prop
  | bh _ _ =>
    match s.bh with
    | .waitResume => s.bhSuspend = .resume
    | .ended => False
    | _ => True
  | halt | term => True
  | suspend => s.caller = .idle
  | resume => s.caller = .held
  | call => s.caller ≠ .idle ∧ s.caller ≠ .held

def next (s : BhSuspend) : BhSuspendAct → BhSuspend
  | bh rx restarted => s.atbmBh rx restarted
  | halt => { s with bhHalt := true }
  | term => { s with bhTerm := true }
  | suspend => { s with caller := .suspendTest }
  | resume => { s with caller := .resumeTest }
  | call => s.callStep

instance decEnabled (s : BhSuspend) (a : BhSuspendAct) : Decidable (a.Enabled s) := by
  unfold Enabled
  split
  · split <;> infer_instance
  · infer_instance
  · infer_instance
  · infer_instance
  · infer_instance
  · infer_instance

/-- The condition on a step: when the wait of `atbm_bh_suspend` ends, the thread has answered; or the answer to the resume
before is still to come, or came in between, and no error ends the wait. -/
def Answered (s : BhSuspend) : BhSuspendAct → Prop
  | call => s.caller = .suspendWait →
      s.bhSuspend = .suspended ∨ s.bhError = false ∧ (s.bh = .setResumed ∨ s.bhSuspend = .resumed)
  | _ => True

instance decAnswered (s : BhSuspend) (a : BhSuspendAct) : Decidable (a.Answered s) := by
  unfold Answered
  split <;> infer_instance

end BhSuspendAct

/-- After `atbm_register_bh`. -/
def bhSuspendStart : BhSuspend := ⟨.resumed, false, false, false, .wait, .idle⟩

def bhSuspends : Sys BhSuspend BhSuspendAct :=
  .ofNext (fun s => s = bhSuspendStart) (fun s a => a.Enabled s) BhSuspendAct.next

namespace BhSuspend

/-- Whatever comes, the thread gets to its wait, where it looks at every request, or to its end, by steps of its own; and
then `bh_suspend` is resumed. -/
inductive Settles : BhSuspend → Prop
  | now {s : BhSuspend} : s.bhSuspend = .resumed → s.bh = .wait ∨ s.bh = .ended → Settles s
  | go {s : BhSuspend} : (BhSuspendAct.bh false false).Enabled s → (∀ rx restarted, Settles (s.atbmBh rx restarted)) → Settles s

structure Kept (s : BhSuspend) : Prop where
  /-- after a suspend that returned 0 -/
  parked : s.caller = .held → s.bh = .waitResume ∧ s.bhSuspend = .suspended
  /-- after a suspend that failed, or a resume -/
  settles : s.caller = .idle → s.Settles

/-- The thread is in its loop, and has read no request. -/
def Free : BhThread → Prop
  | .wait | .test _ false | .halt false | .branch false | .exit _ | .ended => True
  | _ => False

def Calm (s : BhSuspend) : Prop :=
  s.bhSuspend = .resumed ∧ Free s.bh ∨ s.bhSuspend = .resume ∧ s.bh = .waitResume ∨ s.bh = .setResumed

structure Inv (s : BhSuspend) : Prop where
  link : s.bhSuspend = .suspended → s.bh = .waitResume
  quiet : s.bhSuspend = .resumed → Free s.bh ∨ s.bh = .setResumed
  /-- only the thread sets `bh_error`, on its way out -/
  error : s.bhError = true → (∃ term, s.bh = .exit term) ∨ s.bh = .ended
  calm : s.caller ≠ .suspendWait → s.caller ≠ .held → s.caller ≠ .resumeTest → s.caller ≠ .resumeSet → s.Calm
  held : s.caller = .held ∨ s.caller = .resumeTest ∨ s.caller = .resumeSet → s.bhSuspend = .suspended
  asked : s.caller = .suspendWait → s.bhSuspend ≠ .resume

section
variable {s : BhSuspend}

theorem settles_exit {term : Bool} (hb : s.bh = .exit term) (h : s.bhSuspend = .resumed) : s.Settles := by
  refine .go (by simp [BhSuspendAct.Enabled, hb]) fun rx restarted => .now ?_ (.inr ?_)
  · simp [atbmBh, hb, h]
  · simp [atbmBh, hb]

theorem settles_branch (hb : s.bh = .branch false) (h : s.bhSuspend = .resumed) : s.Settles := by
  refine .go (by simp [BhSuspendAct.Enabled, hb]) fun rx restarted => .now ?_ (.inl ?_)
  · simp [atbmBh, hb, h]
  · simp [atbmBh, hb]

theorem settles_halt (hb : s.bh = .halt false) (h : s.bhSuspend = .resumed) : s.Settles := by
  refine .go (by simp [BhSuspendAct.Enabled, hb]) fun rx restarted => ?_
  simp only [atbmBh, hb]
  split
  · split
    · exact settles_branch rfl h
    · exact settles_exit rfl h
  · exact settles_branch rfl h

theorem settles_test {term : Bool} (hb : s.bh = .test term false) (h : s.bhSuspend = .resumed) : s.Settles := by
  refine .go (by simp [BhSuspendAct.Enabled, hb]) fun rx restarted => ?_
  simp only [atbmBh, hb]
  split
  · exact settles_exit rfl h
  · exact settles_halt rfl h

theorem settles_setResumed (hb : s.bh = .setResumed) : s.Settles := by
  refine .go (by simp [BhSuspendAct.Enabled, hb]) fun rx restarted => .now ?_ (.inl ?_)
  · simp [atbmBh, hb]
  · simp [atbmBh, hb]

theorem settles_free (hb : Free s.bh) (h : s.bhSuspend = .resumed) : s.Settles := by
  match hs : s.bh, hb with
  | .wait, _ => exact .now h (.inl hs)
  | .test _ false, _ => exact settles_test hs h
  | .halt false, _ => exact settles_halt hs h
  | .branch false, _ => exact settles_branch hs h
  | .exit _, _ => exact settles_exit hs h
  | .ended, _ => exact .now h (.inr hs)

theorem Calm.settles (h : s.Calm) : s.Settles := by
  obtain ⟨h, hb⟩ | ⟨h, hb⟩ | hb := h
  · exact settles_free hb h
  · refine .go (by simp [BhSuspendAct.Enabled, hb, h]) fun rx restarted => settles_setResumed ?_
    simp [atbmBh, hb]
  · exact settles_setResumed hb

/-- A request that nobody waits for: the thread will park, or is parked, or ends with it. -/
def Stale (s : BhSuspend) : Prop :=
  (s.bhSuspend = .suspend ∨ s.bhSuspend = .suspended) ∧ s.bh ≠ .setResumed

theorem Stale.bh (h : s.Stale) (rx restarted : Bool) (he : (BhSuspendAct.bh rx restarted).Enabled s) :
    (s.atbmBh rx restarted).Stale := by
  obtain ⟨h, hb⟩ := h
  unfold Stale atbmBh
  cases hs : s.bh with
  | wait => dsimp only; split <;> simp [h]
  | test term suspend => dsimp only; split <;> simp [h]
  | halt suspend =>
    dsimp only
    split
    · split <;> simp [h]
    · simp [h]
  | branch suspend => dsimp only; split <;> simp [h]
  | waitResume => simp only [BhSuspendAct.Enabled, hs] at he; simp [he] at h
  | setResumed => exact absurd hs hb
  | exit term => simp [h]
  | ended => simp [h, hs]

theorem Settles.not_stale (h : s.Settles) : ¬ s.Stale := by
  induction h with
  | now h _ => rintro ⟨h' | h', -⟩ <;> rw [h] at h' <;> cases h'
  | go he _ ih => exact fun h => ih false false (h.bh false false he)

end

section
variable {s : BhSuspend}

theorem Inv.kept (h : s.Inv) : s.Kept where
  parked hc := ⟨h.link (h.held (.inl hc)), h.held (.inl hc)⟩
  settles hc := (h.calm (by simp [hc]) (by simp [hc]) (by simp [hc]) (by simp [hc])).settles

theorem Inv.noError (h : s.Inv) (hs : s.bhSuspend = .suspended) : s.bhError = false := by
  have hb := h.link hs
  cases he : s.bhError with
  | false => rfl
  | true => obtain ⟨term, h⟩ | h := h.error he <;> rw [hb] at h <;> cases h

theorem free_bh (rx restarted : Bool) (h : s.bhSuspend = .resumed) (hb : Free s.bh) :
    (s.atbmBh rx restarted).bhSuspend = .resumed ∧ Free (s.atbmBh rx restarted).bh := by
  match hs : s.bh, hb with
  | .wait, _ => simp only [atbmBh, hs, h]; split <;> simp_all [Free]
  | .test _ false, _ => simp only [atbmBh, hs, h, true_and]; split <;> trivial
  | .halt false, _ =>
    simp only [atbmBh, hs]
    split
    · split <;> exact ⟨h, trivial⟩
    · exact ⟨h, trivial⟩
  | .branch false, _ => simp [atbmBh, hs, h, Free]
  | .exit _, _ => simp [atbmBh, hs, h, Free]
  | .ended, _ => simp [atbmBh, hs, h, Free]

theorem Calm.bh (h : s.Calm) (rx restarted : Bool) : (s.atbmBh rx restarted).Calm := by
  obtain ⟨h, hb⟩ | ⟨h, hb⟩ | hb := h
  · exact .inl (free_bh rx restarted h hb)
  · exact .inr (.inr (by simp [atbmBh, hb]))
  · exact .inl (by simp [atbmBh, hb, Free])

@[simp] theorem caller_bh (rx restarted : Bool) : (s.atbmBh rx restarted).caller = s.caller := by
  unfold atbmBh
  cases s.bh <;> dsimp only <;> repeat' split
  all_goals rfl

theorem bhSuspend_bh (rx restarted : Bool) :
    (s.atbmBh rx restarted).bhSuspend = s.bhSuspend ∨
    ((s.atbmBh rx restarted).bhSuspend = .suspended ∧ (s.atbmBh rx restarted).bh = .waitResume) ∨
    ((s.atbmBh rx restarted).bhSuspend = .resumed ∧ (s.atbmBh rx restarted).bh = .wait) := by
  unfold atbmBh
  cases s.bh <;> dsimp only <;> repeat' split
  all_goals simp

theorem Inv.bh (h : s.Inv) (rx restarted : Bool) (he : (BhSuspendAct.bh rx restarted).Enabled s) :
    (s.atbmBh rx restarted).Inv where
  link hs := by
    obtain hk | ⟨-, hb⟩ | ⟨hr, -⟩ := bhSuspend_bh (s := s) rx restarted
    · have hb := h.link (hk ▸ hs)
      simp [BhSuspendAct.Enabled, hb, ← hk, hs] at he
    · exact hb
    · simp [hr] at hs
  quiet hs := by
    obtain hk | ⟨hr, -⟩ | ⟨-, hb⟩ := bhSuspend_bh (s := s) rx restarted
    · have hr : s.bhSuspend = .resumed := hk ▸ hs
      obtain hf | hf := h.quiet hr
      · exact .inl (free_bh rx restarted hr hf).2
      · exact .inl (by simp [atbmBh, hf, Free])
    · simp [hr] at hs
    · exact .inl (by simp [hb, Free])
  error hb := by
    cases hs : s.bh with
    | wait =>
      have hb : s.bhError = true := by simpa [atbmBh, hs, apply_ite BhSuspend.bhError] using hb
      simpa [hs] using h.error hb
    | halt suspend =>
      simp only [atbmBh, hs] at hb ⊢
      split
      · split
        · simp_all
        · exact .inl ⟨false, rfl⟩
      · simpa [hs] using h.error (by simp_all)
    | exit term => exact .inr (by simp [atbmBh, hs])
    | ended => exact .inr (by simp [atbmBh, hs])
    | test term suspend => simpa [hs] using h.error (by simpa [atbmBh, hs] using hb)
    | branch suspend =>
      simpa [hs] using h.error (by simpa [atbmBh, hs, apply_ite BhSuspend.bhError] using hb)
    | waitResume => simpa [hs] using h.error (by simpa [atbmBh, hs] using hb)
    | setResumed => simpa [hs] using h.error (by simpa [atbmBh, hs] using hb)
  calm := by simpa using fun h1 h2 h3 h4 => (h.calm h1 h2 h3 h4).bh rx restarted
  held hc := by
    have hs := h.held (by simpa using hc)
    simp [BhSuspendAct.Enabled, h.link hs, hs] at he
  asked hc hr := by
    have hn := h.asked (by simpa using hc)
    obtain hk | ⟨hk, -⟩ | ⟨hk, -⟩ := bhSuspend_bh (s := s) rx restarted
    · exact hn (hk ▸ hr)
    · simp [hk] at hr
    · simp [hk] at hr

@[simp] theorem bh_callStep : s.callStep.bh = s.bh := by
  unfold callStep
  split <;> rfl

@[simp] theorem bhError_callStep : s.callStep.bhError = s.bhError := by
  unfold callStep
  split <;> rfl

theorem Inv.call (h : s.Inv) (hc : BhSuspendAct.call.Enabled s) (ha : BhSuspendAct.call.Answered s) : s.callStep.Inv := by
  have herr : s.callStep.bhError = true → (∃ term, s.callStep.bh = .exit term) ∨ s.callStep.bh = .ended := by
    simpa using h.error
  cases hs : s.caller with
  | idle => exact absurd hs hc.1
  | held => exact absurd hs hc.2
  | suspendTest =>
    have hcalm : s.Calm := h.calm (by simp [hs]) (by simp [hs]) (by simp [hs]) (by simp [hs])
    refine ⟨?_, ?_, herr, fun _ _ _ _ => ?_, ?_, ?_⟩ <;> simp only [callStep, hs]
    · exact h.link
    · exact h.quiet
    · exact hcalm
    · intro h; split at h <;> simp at h
    · intro h; split at h <;> cases h
  | suspendSet =>
    refine ⟨?_, ?_, herr, ?_, ?_, ?_⟩ <;> simp [callStep, hs]
  | suspendWait =>
    -- a wait that is answered ends with the thread parked, or on its way to its wait
    have hw := ha hs
    have hcalm : ¬ s.bhSuspend = .suspended → s.Calm := by
      intro hn
      obtain hw | ⟨-, hw | hw⟩ := hw
      · exact absurd hw hn
      · exact .inr (.inr hw)
      · obtain hq | hq := h.quiet hw
        · exact .inl ⟨hw, hq⟩
        · exact .inr (.inr hq)
    by_cases hp : s.bhError = true ∨ s.bhSuspend = .suspended
    · have hsus : s.bhSuspend = .suspended := by
        obtain hw | ⟨hw, -⟩ := hw
        · exact hw
        · simpa [hw] using hp
      refine ⟨?_, ?_, herr, ?_, ?_, ?_⟩ <;> simp only [callStep, hs, hp, if_true]
      · exact h.link
      · exact h.quiet
      · intro _ h _ _; exact absurd rfl h
      · exact fun _ => hsus
      · intro h; cases h
    · refine ⟨?_, ?_, herr, fun _ _ _ _ => ?_, ?_, ?_⟩ <;> simp only [callStep, hs, hp, if_false]
      · exact h.link
      · exact h.quiet
      · exact hcalm (fun h => hp (.inr h))
      · simp
      · intro h; cases h
  | resumeTest =>
    have hsus := h.held (.inr (.inl hs))
    have hne := h.noError hsus
    refine ⟨?_, ?_, herr, ?_, ?_, ?_⟩ <;> simp only [callStep, hs, hne]
    · exact h.link
    · exact h.quiet
    · intro _ _ _ h; exact absurd rfl h
    · exact fun _ => hsus
    · simp
  | resumeSet =>
    have hsus := h.held (.inr (.inr hs))
    have hpark := h.link hsus
    refine ⟨?_, ?_, herr, fun _ _ _ _ => .inr (.inl ?_), ?_, ?_⟩ <;> simp [callStep, hs, hpark]
  | resumeWait =>
    have hcalm : s.Calm := h.calm (by simp [hs]) (by simp [hs]) (by simp [hs]) (by simp [hs])
    refine ⟨?_, ?_, herr, fun _ _ _ _ => ?_, ?_, ?_⟩ <;> simp only [callStep, hs]
    · exact h.link
    · exact h.quiet
    · exact hcalm
    · simp
    · simp

theorem Inv.next (h : s.Inv) {a : BhSuspendAct} (he : a.Enabled s) (ha : a.Answered s) : (a.next s).Inv := by
  cases a with
  | bh rx restarted => exact h.bh rx restarted he
  | halt => exact ⟨h.link, h.quiet, h.error, h.calm, h.held, h.asked⟩
  | term => exact ⟨h.link, h.quiet, h.error, h.calm, h.held, h.asked⟩
  | suspend =>
    have hs : s.caller = .idle := he
    refine ⟨h.link, h.quiet, h.error, fun _ _ _ _ => ?_, ?_, ?_⟩
    · exact h.calm (by simp [hs]) (by simp [hs]) (by simp [hs]) (by simp [hs])
    · simp [BhSuspendAct.next]
    · simp [BhSuspendAct.next]
  | resume =>
    have hs : s.caller = .held := he
    refine ⟨h.link, h.quiet, h.error, ?_, fun _ => h.held (.inl hs), ?_⟩
    · intro _ _ h _; exact absurd rfl h
    · simp [BhSuspendAct.next]
  | call => exact h.call he ha

theorem Inv.lose (h : s.Inv) {a : BhSuspendAct} (hk : (a.next s).Kept) : a.Answered s := by
  match a with
  | .bh _ _ | .halt | .term | .suspend | .resume => trivial
  | .call =>
    intro hs
    refine Decidable.byContradiction fun hn => ?_
    have hsus : s.bhSuspend ≠ .suspended := fun h => hn (.inl h)
    cases he : s.bhError with
    | true =>
      have hp := (hk.parked (by simp [BhSuspendAct.next, callStep, hs, he])).2
      simp [BhSuspendAct.next, callStep, hs, hsus] at hp
    | false =>
      refine (hk.settles (by simp [BhSuspendAct.next, callStep, hs, he, hsus])).not_stale ?_
      have hask := h.asked hs
      simp only [BhSuspendAct.next, callStep, hs]
      refine ⟨.inl ?_, fun hb => hn (.inr ⟨he, .inl hb⟩)⟩
      cases hb : s.bhSuspend with
      | resumed => exact absurd (.inr ⟨he, .inr hb⟩) hn
      | suspend => rfl
      | suspended => exact absurd hb hsus
      | resume => exact absurd hb hask

end

theorem inv_start : bhSuspendStart.Inv where
  link := by simp [bhSuspendStart]
  quiet := by simp [bhSuspendStart, Free]
  error := by simp [bhSuspendStart]
  calm := by simp [bhSuspendStart, Calm, Free]
  held := by simp [bhSuspendStart]
  asked := by simp [bhSuspendStart]

end BhSuspend

/-- In every run, every state is kept exactly when the wait of each suspend ends on an answer of the thread. -/
theorem bhSuspend_kept {s : BhSuspend} {l : List (BhSuspend × BhSuspendAct)} (h : Path bhSuspends bhSuspendStart l s) :
    ((∀ p ∈ l, p.1.Kept) ∧ s.Kept) ↔ ∀ p ∈ l, p.2.Answered p.1 := by
  refine Path.exact (I := BhSuspend.Inv) ?_ ?_ h BhSuspend.inv_start BhSuspend.inv_start.kept
  · rintro s a t hI - ⟨he, rfl⟩ ha
    have hn := hI.next he ha
    exact ⟨hn, hn.kept⟩
  · rintro s a t hI - ⟨-, rfl⟩ hk
    exact hI.lose hk

/-! ## A suspend that is answered, and one that is not -/

/-- A suspend with the thread in its wait, a resume, and a halt after it. -/
def suspendResume : List BhSuspendAct :=
  [.suspend, .call, .call] ++ List.replicate 4 (.bh false false) ++ [.call, .resume, .call, .call] ++
    List.replicate 2 (.bh false false) ++ [.call, .halt] ++ List.replicate 4 (.bh false true)

theorem bhSuspend_kept_resumed :
    (∀ p ∈ trace BhSuspendAct.next bhSuspendStart suspendResume, p.1.Kept) ∧
      (suspendResume.foldl BhSuspendAct.next bhSuspendStart).Kept := by
  have h : Fires (fun s a => BhSuspendAct.Enabled s a) BhSuspendAct.next bhSuspendStart suspendResume := by decide +kernel
  exact (bhSuspend_kept (Path.ofFires h)).mpr (by decide +kernel)

/-- The wait of the suspend expires before the thread has looked; the thread then parks. -/
def suspendExpires : List BhSuspendAct :=
  [.suspend, .call, .call, .call] ++ List.replicate 4 (.bh false false)

/-- After a suspend that failed the thread waits for a resume, and nothing but a resume lets it go on. -/
theorem bhSuspend_left_parked :
    ∃ s, Reach bhSuspends s ∧ s.caller = .idle ∧ s.bh = .waitResume ∧ s.bhSuspend = .suspended ∧ ¬ s.Kept := by
  have h : Fires (fun s a => BhSuspendAct.Enabled s a) BhSuspendAct.next bhSuspendStart suspendExpires := by decide +kernel
  have hi : (suspendExpires.foldl BhSuspendAct.next bhSuspendStart).caller = .idle := by decide +kernel
  have hb : (suspendExpires.foldl BhSuspendAct.next bhSuspendStart).bh = .waitResume := by decide +kernel
  have hs : (suspendExpires.foldl BhSuspendAct.next bhSuspendStart).bhSuspend = .suspended := by decide +kernel
  exact ⟨_, Reach.fires (.init rfl) h, hi, hb, hs,
    fun hk => (hk.settles hi).not_stale ⟨.inr hs, by rw [hb]; decide⟩⟩

end AtbmWifi
