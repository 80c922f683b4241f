import AtbmWifi.Sta.Join

/-!
# The power-save mode of the firmware

`firmware_ps_mode` is what `atbm_set_pm` holds the asked mode against, to send no command for a
mode the firmware has.  It is written before the command, whose answer is then only returned.

* `PsOk`: it is the mode the firmware has accepted last, since it was reset or joined.

What a join does to the mode is up to the firmware: both ways are covered.  A mode is the four
bytes of `struct wsm_set_pm` as one number.
-/

namespace AtbmWifi

open Transition

/-- `atbm_set_pm` -/
def atbmSetPmTo (pm : Nat) (s : JoinVif) : JoinVif :=
  if s.joinStatus = .sta ∧ s.associated = true ∧ pm ≠ s.firmwarePsMode then
    send (.setPm pm) { s with firmwarePsMode := pm }
  else s

structure PsVif where
  vif : JoinVif
  /-- history: what the firmware has accepted last -/
  accepted : Nat
  deriving DecidableEq, Repr

/-- A call, and whether the firmware accepts the mode if one is sent. -/
inductive PmAct
  | setPm (pm : Nat) (ok : Bool)
  | call (a : JoinAct) (ok : Bool)
  deriving DecidableEq, Repr

def PmAct.vif (s : JoinVif) : PmAct → JoinVif
  | .setPm pm _ => atbmSetPmTo pm s
  | .call a _ => a.next s

def PmAct.ok : PmAct → Bool
  | .setPm _ ok => ok
  | .call _ ok => ok

def sentSince (s t : JoinVif) : List FwReq := t.requests.take (t.requests.length - s.requests.length)

def acceptedAfter (joinResets ok : Bool) (old : Nat) : List FwReq → Nat
  | [] => old
  | .setPm pm :: l => if ok then pm else acceptedAfter joinResets ok old l
  | .reset _ :: _ => 0
  | .join _ joined :: l => if joined && joinResets then 0 else acceptedAfter joinResets ok old l
  | _ :: l => acceptedAfter joinResets ok old l

def PmAct.next (joinResets : Bool) (s : PsVif) (a : PmAct) : PsVif :=
  let vif := a.vif s.vif
  ⟨vif, acceptedAfter joinResets a.ok s.accepted (sentSince s.vif vif)⟩

def PsVif.fresh (s : PsVif) : Prop := s.vif.fresh ∧ s.vif.firmwarePsMode = 0 ∧ s.accepted = 0

def powerSaving (joinResets : Bool) : Sys PsVif PmAct :=
  .ofNext PsVif.fresh (fun _ _ => True) (PmAct.next joinResets)

def PsOk (s : PsVif) : Prop := s.vif.firmwarePsMode = s.accepted

def JoinVif.talks (s : JoinVif) : Prop := s.joinStatus = .sta ∧ s.associated = true

instance (s : JoinVif) : Decidable s.talks := inferInstanceAs (Decidable (_ ∧ _))

/-- A mode that the firmware does not have is sent. -/
def SendsNew (s : PsVif) : PmAct → Prop
  | .setPm pm _ => s.vif.talks → pm ≠ s.accepted → sentSince s.vif (atbmSetPmTo pm s.vif) = [.setPm pm]
  | .call .. => True

/-- The mode that is sent is accepted, and none is left that a join puts an end to. -/
def Careful (joinResets : Bool) (s : PsVif) : PmAct → Prop
  | .setPm pm ok => s.vif.talks → pm ≠ s.vif.firmwarePsMode → ok = true
  | .call (.doJoin bss _ joinOk _) ok =>
    s.vif.enabled = true → ¬ (s.vif.joinStatus = .sta ∧ bss.bssid = s.vif.joinBssid) →
      s.vif.firmwarePsMode ≠ 0 →
        if joinOk = true ∧ joinResets = true then s.vif.talks else s.vif.talks → ok = true
  | .call (.doUnjoin ..) _ => True
  | .call (.bssInfo ..) _ => True

instance decCareful (joinResets : Bool) (s : PsVif) : ∀ a, Decidable (Careful joinResets s a)
  | .setPm .. => inferInstanceAs (Decidable (_ → _ → _))
  | .call (.doJoin bss _ joinOk _) ok => inferInstanceAs (Decidable (s.vif.enabled = true →
      ¬ (s.vif.joinStatus = .sta ∧ bss.bssid = s.vif.joinBssid) → s.vif.firmwarePsMode ≠ 0 →
        if joinOk = true ∧ joinResets = true then s.vif.talks else s.vif.talks → ok = true))
  | .call (.doUnjoin ..) _ => isTrue trivial
  | .call (.bssInfo ..) _ => isTrue trivial

variable {joinResets : Bool} {s : PsVif}

theorem sentSince_append {s t : JoinVif} (new : List FwReq) (h : t.requests = new ++ s.requests) :
    sentSince s t = new := by
  unfold sentSince
  rw [h, List.length_append, Nat.add_sub_cancel, List.take_left]

theorem psOk_next {a : PmAct} (new : List FwReq) (hr : (a.vif s.vif).requests = new ++ s.vif.requests) :
    PsOk (a.next joinResets s) ↔
      (a.vif s.vif).firmwarePsMode = acceptedAfter joinResets a.ok s.accepted new := by
  show (a.vif s.vif).firmwarePsMode = acceptedAfter joinResets a.ok s.accepted (sentSince s.vif (a.vif s.vif)) ↔ _
  rw [sentSince_append new hr]

theorem atbmSetPmTo_cases (pm : Nat) (s : JoinVif) :
    (s.talks ∧ pm ≠ s.firmwarePsMode ∧ (atbmSetPmTo pm s).firmwarePsMode = pm ∧
      (atbmSetPmTo pm s).requests = [.setPm pm] ++ s.requests) ∨
    (¬ (s.talks ∧ pm ≠ s.firmwarePsMode) ∧ atbmSetPmTo pm s = s) := by
  unfold atbmSetPmTo
  by_cases h : s.talks ∧ pm ≠ s.firmwarePsMode
  · rw [if_pos ⟨h.1.1, h.1.2, h.2⟩]
    exact .inl ⟨h.1, h.2, rfl, rfl⟩
  · rw [if_neg fun hh => h ⟨⟨hh.1, hh.2.1⟩, hh.2.2⟩]
    exact .inr ⟨h, rfl⟩

theorem setPm_follows (hP : PsOk s) (pm : Nat) (ok : Bool) :
    PsOk (PmAct.next joinResets s (.setPm pm ok)) ↔ Careful joinResets s (.setPm pm ok) := by
  have hP' : s.vif.firmwarePsMode = s.accepted := hP
  show _ ↔ (s.vif.talks → pm ≠ s.vif.firmwarePsMode → ok = true)
  rcases atbmSetPmTo_cases pm s.vif with ⟨ht, hne, hmode, hsent⟩ | ⟨hno, hsame⟩
  · rw [psOk_next (a := .setPm pm ok) [.setPm pm] hsent]
    show (atbmSetPmTo pm s.vif).firmwarePsMode = (if ok then pm else s.accepted) ↔ _
    rw [hmode]
    cases ok with
    | true => exact ⟨fun _ _ _ => rfl, fun _ => rfl⟩
    | false =>
      constructor
      · intro h
        exact absurd (h.trans hP'.symm) hne
      · intro h
        exact absurd (h ht hne) (by decide)
  · have hreq : (PmAct.vif s.vif (.setPm pm ok)).requests = [] ++ s.vif.requests := by
      show (atbmSetPmTo pm s.vif).requests = _
      rw [hsame]
      rfl
    rw [psOk_next [] hreq]
    show (atbmSetPmTo pm s.vif).firmwarePsMode = s.accepted ↔ _
    rw [hsame]
    constructor
    · intro _ ht hne
      exact absurd ⟨ht, hne⟩ hno
    · intro _
      exact hP'

theorem unjoin_follows (hP : PsOk s) (bssid : Mac) (term resetOk ok : Bool) :
    PsOk (PmAct.next joinResets s (.call (.doUnjoin bssid term resetOk) ok)) := by
  have hcases : ((atbmDoUnjoin term bssid resetOk s.vif).1.requests = s.vif.requests ∧
        (atbmDoUnjoin term bssid resetOk s.vif).1.firmwarePsMode = s.vif.firmwarePsMode) ∨
      atbmDoUnjoin term bssid resetOk s.vif = (unjoinReset resetOk s.vif, 0) := by
    unfold atbmDoUnjoin
    split
    · exact .inl ⟨rfl, rfl⟩
    split
    · exact .inl ⟨rfl, rfl⟩
    split
    · exact .inl ⟨rfl, rfl⟩
    split
    · exact .inl ⟨rfl, rfl⟩
    · exact .inr rfl
  rcases hcases with ⟨hreq, hmode⟩ | hreset
  · rw [psOk_next (a := .call (.doUnjoin bssid term resetOk) ok) [] hreq]
    exact hmode.trans hP
  · obtain ⟨-, -, -, -, hreq⟩ := unjoinReset_fields resetOk s.vif
    have hvif : PmAct.vif s.vif (.call (.doUnjoin bssid term resetOk) ok) =
        { unjoinReset resetOk s.vif with lastCall := some (false, 0) } := by
      simp only [PmAct.vif, JoinAct.next, hreset]
    rw [psOk_next [.updateFiltering, .setBlockAckPolicy, .setupMac, .setOperationalMode, .reset resetOk,
      .keepAlivePeriod 0] (by rw [hvif]; exact hreq), hvif]
    show (unjoinReset resetOk s.vif).firmwarePsMode = 0
    simp [unjoinReset, atbmSetPm, send]

theorem joinPrepare_ps (bss : Bss) (s : JoinVif) :
    (joinPrepare bss s).firmwarePsMode = (atbmSetPmTo 0 s).firmwarePsMode ∧
    (joinPrepare bss s).requests =
      [.setProtectedMgmtPolicy, .setBlockAckPolicy, .setOperationalMode] ++ (atbmSetPmTo 0 s).requests := by
  unfold joinPrepare atbmSetPm atbmSetPmTo
  simp only
  split <;> exact ⟨rfl, rfl⟩

theorem joinFinish_ps (bss : Bss) (joinOk : Bool) (s : JoinVif) : ∃ later,
    (joinFinish bss joinOk s).1.requests = later ++ .join (joinArg bss) joinOk :: s.requests ∧
    (∀ joinResets ok old l, acceptedAfter joinResets ok old (later ++ l) = acceptedAfter joinResets ok old l) ∧
    (joinFinish bss joinOk s).1.firmwarePsMode = s.firmwarePsMode := by
  cases joinOk with
  | true => exact ⟨[.updateFiltering], rfl, fun _ _ _ _ => rfl, rfl⟩
  | false => exact ⟨[], rfl, fun _ _ _ _ => rfl, rfl⟩

/-- A join that gets as far as the firmware has the cached mode set to 0 if power save is set of the
interface; the firmware accepts that, or has its mode put to an end by the join. -/
theorem join_follows (hP : PsOk s) {bss : Bss} {term joinOk resetOk : Bool} (ok : Bool)
    (hjoin : atbmDoJoin bss term joinOk resetOk s.vif = joinFinish bss joinOk (joinPrepare bss s.vif)) :
    PsOk (PmAct.next joinResets s (.call (.doJoin bss term joinOk resetOk) ok)) ↔
      (s.vif.firmwarePsMode ≠ 0 →
        if joinOk = true ∧ joinResets = true then s.vif.talks else s.vif.talks → ok = true) := by
  have hP' : s.vif.firmwarePsMode = s.accepted := hP
  obtain ⟨hmode, hreq⟩ := joinPrepare_ps bss s.vif
  obtain ⟨later, hall, hlater, hkeep⟩ := joinFinish_ps bss joinOk (joinPrepare bss s.vif)
  have hreqs : (PmAct.vif s.vif (.call (.doJoin bss term joinOk resetOk) ok)).requests =
      (joinFinish bss joinOk (joinPrepare bss s.vif)).1.requests := by rw [PmAct.vif, JoinAct.next, hjoin]
  have hcached : (PmAct.vif s.vif (.call (.doJoin bss term joinOk resetOk) ok)).firmwarePsMode =
      (joinFinish bss joinOk (joinPrepare bss s.vif)).1.firmwarePsMode := by rw [PmAct.vif, JoinAct.next, hjoin]
  rw [← hreqs] at hall
  rw [← hcached] at hkeep
  have hok : (PmAct.call (.doJoin bss term joinOk resetOk) ok).ok = ok := rfl
  rcases atbmSetPmTo_cases 0 s.vif with ⟨ht, hne, hnew, hsent⟩ | ⟨hno, hsame⟩
  · rw [psOk_next (later ++ .join (joinArg bss) joinOk ::
      [.setProtectedMgmtPolicy, .setBlockAckPolicy, .setOperationalMode, .setPm 0])
      (by rw [hall, hreq, hsent, List.append_assoc]; rfl), hok, hlater, hkeep, hmode, hnew]
    show 0 = (if (joinOk && joinResets) = true then 0 else if ok = true then 0 else s.accepted) ↔ _
    have hacc : s.accepted ≠ 0 := by
      rw [← hP']
      exact hne.symm
    cases joinOk <;> cases joinResets <;> cases ok <;> simp [ht, hne.symm, hacc.symm]
  · rw [psOk_next (later ++ .join (joinArg bss) joinOk ::
      [.setProtectedMgmtPolicy, .setBlockAckPolicy, .setOperationalMode])
      (by rw [hall, hreq, hsame, List.append_assoc]; rfl), hok, hlater, hkeep, hmode, hsame]
    show s.vif.firmwarePsMode = (if (joinOk && joinResets) = true then 0 else s.accepted) ↔ _
    by_cases h0 : s.vif.firmwarePsMode = 0
    · rw [← hP', h0]
      simp
    · have ht : ¬ s.vif.talks := fun ht => hno ⟨ht, fun h => h0 h.symm⟩
      cases joinOk <;> cases joinResets <;> simp [ht, hP']

theorem atbmDoJoin_goes {bss : Bss} {s : JoinVif} (hen : s.enabled = true)
    (hne : ¬ (s.joinStatus = .sta ∧ bss.bssid = s.joinBssid)) (term joinOk resetOk : Bool) :
    atbmDoJoin bss term joinOk resetOk s = joinFinish bss joinOk (joinPrepare bss s) := by
  unfold atbmDoJoin
  rw [if_neg (by simp [hen]), if_neg hne]
  by_cases hs : s.joinStatus = .sta
  · -- the inner unjoin names the new BSS and is refused
    have hun : (atbmDoUnjoin term bss.bssid resetOk s).1 = s := by
      unfold atbmDoUnjoin
      split
      · rfl
      rw [if_neg (by simp [hs]), if_neg (by simp [hs]), if_pos fun h => hne ⟨hs, h⟩]
    rw [if_pos hs, hun]
  · rw [if_neg hs]

theorem call_follows (hP : PsOk s) (a : PmAct) : PsOk (a.next joinResets s) ↔ Careful joinResets s a := by
  cases a with
  | setPm pm ok => exact setPm_follows hP pm ok
  | call a ok =>
    cases a with
    | doUnjoin bssid term resetOk => exact iff_of_true (unjoin_follows hP bssid term resetOk ok) trivial
    | bssInfo associated powersaveMode =>
      rw [psOk_next (a := .call (.bssInfo associated powersaveMode) ok) [] rfl]
      exact iff_of_true hP trivial
    | doJoin bss term joinOk resetOk =>
      show _ ↔ (s.vif.enabled = true → ¬ (s.vif.joinStatus = .sta ∧ bss.bssid = s.vif.joinBssid) →
        s.vif.firmwarePsMode ≠ 0 →
          if joinOk = true ∧ joinResets = true then s.vif.talks else s.vif.talks → ok = true)
      by_cases hgo : s.vif.enabled = true ∧ ¬ (s.vif.joinStatus = .sta ∧ bss.bssid = s.vif.joinBssid)
      · rw [join_follows hP ok (atbmDoJoin_goes hgo.1 hgo.2 term joinOk resetOk)]
        exact ⟨fun h _ _ => h, fun h => h hgo.1 hgo.2⟩
      · have hnone : (PmAct.vif s.vif (.call (.doJoin bss term joinOk resetOk) ok)).requests = s.vif.requests ∧
            (PmAct.vif s.vif (.call (.doJoin bss term joinOk resetOk) ok)).firmwarePsMode =
              s.vif.firmwarePsMode := by
          simp only [PmAct.vif, JoinAct.next, atbmDoJoin]
          split
          · exact ⟨rfl, rfl⟩
          · split
            · exact ⟨rfl, rfl⟩
            · rename_i hen hne
              exact absurd ⟨Bool.not_eq_false _ ▸ hen, hne⟩ hgo
        rw [psOk_next (a := .call (.doJoin bss term joinOk resetOk) ok) [] hnone.1]
        exact iff_of_true (hnone.2.trans hP) fun hen hne _ => absurd ⟨hen, hne⟩ hgo

theorem sendsNew_of_psOk (hP : PsOk s) (a : PmAct) : SendsNew s a := by
  cases a with
  | call => trivial
  | setPm pm ok =>
    intro ht hne
    rcases atbmSetPmTo_cases pm s.vif with ⟨-, -, -, hsent⟩ | ⟨hno, -⟩
    · exact sentSince_append _ hsent
    · have hP' : s.vif.firmwarePsMode = s.accepted := hP
      rw [← hP'] at hne
      exact absurd ⟨ht, hne⟩ hno

/-- **The cached mode follows the firmware.**  Along every run, it is the mode the firmware has in
every state, and every mode it does not have is sent, exactly when every step is `Careful`. -/
theorem ps_follows_iff {s t : PsVif} {l : List (PsVif × PmAct)} (hs : s.fresh)
    (hp : Path (powerSaving joinResets) s l t) :
    ((∀ p ∈ l, PsOk p.1 ∧ SendsNew p.1 p.2) ∧ PsOk t) ↔ ∀ p ∈ l, Careful joinResets p.1 p.2 := by
  have h0 : PsOk s := hs.2.1.trans hs.2.2.symm
  refine Path.exactSteps (I := fun _ => True) ?_ ?_ hp trivial h0
  · rintro u a v - hP ⟨-, rfl⟩ hC
    exact ⟨trivial, (call_follows hP a).mpr hC, sendsNew_of_psOk hP a⟩
  · rintro u a v - hP ⟨-, rfl⟩ ht -
    exact (call_follows hP a).mp ht

def freshPs : PsVif := ⟨freshSta, 0⟩

theorem freshPs_fresh : freshPs.fresh := ⟨⟨by decide, rfl, rfl, rfl, rfl⟩, rfl, rfl⟩

/-- Join and associate, then power save (`WSM_PSM_FAST_PS`) twice; the firmware may refuse it at first. -/
def psTwice (ok : Bool) : List PmAct :=
  [.call (.doJoin (sampleBss 1) false true true) true, .call (.bssInfo true 0) true, .setPm 129 ok,
    .setPm 129 true]

theorem ps_follows_iff_twice : PsOk ((psTwice true).foldl (PmAct.next true) freshPs) := by
  have hp : Path (powerSaving true) freshPs (trace (PmAct.next true) freshPs (psTwice true))
      ((psTwice true).foldl (PmAct.next true) freshPs) :=
    Path.ofFires ⟨trivial, trivial, trivial, trivial, trivial⟩
  exact ((ps_follows_iff freshPs_fresh hp).mpr (by decide +kernel)).2

/-- **The failing run.**  The firmware refuses power save; the cache has it all the same, and the mode
is not sent when it is asked for again. -/
theorem ps_refused :
    ∃ s, Reach (powerSaving true) s ∧ ¬ PsOk s ∧ s.vif.talks ∧ s.accepted = 0 ∧
      sentSince s.vif (atbmSetPmTo 129 s.vif) = [] := by
  refine ⟨((psTwice false).take 3).foldl (PmAct.next true) freshPs, ?_, ?_, by decide +kernel, by decide +kernel,
    by decide +kernel⟩
  · exact Reach.fires (.init freshPs_fresh) ⟨trivial, trivial, trivial, trivial⟩
  · intro h
    have h' : ((((psTwice false).take 3).foldl (PmAct.next true) freshPs).vif.firmwarePsMode : Nat) =
        (((psTwice false).take 3).foldl (PmAct.next true) freshPs).accepted := h
    revert h'
    decide +kernel

end AtbmWifi
