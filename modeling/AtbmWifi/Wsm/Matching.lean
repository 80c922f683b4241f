import AtbmWifi.Wsm.Command

/-!
# Which confirmation completes which command

* `Matched`: every value `wsm_cmd_send` returned, or would return now, is one of
  its own codes or comes from a confirmation of the command's own id received
  after the command was published; no argument was written after its send
  returned; the outstanding command still listens for its own confirmation.

`wsm_handle_rx` invalidates `wsm_cmd.cmd` before it compares the id, and its
second critical section does not look at which command is outstanding.
-/

namespace AtbmWifi

open Transition

theorem not_answers_idle (id : BitVec 16) : answers id wsmCmdIdle = false := by
  unfold answers stripLinkId
  apply Bool.eq_false_iff.mpr
  intro h
  -- bit 10 is `WSM_CNF_BASE`: cleared on the left, set in the stripped idle value
  have hbit := congrArg (fun b : BitVec 16 => b.getLsbD 10) (eq_of_beq h)
  simp [wsmCnfBase, wsmCmdIdle, wsmTxLinkIdMask] at hbit

/-- The value `ret` of a command comes from `b`: a code of `wsm_cmd_send` and the teardown, or
a confirmation of the command's id received after it was published. -/
def OwnBy (cmd : BitVec 16) (arg : Option Nat) (published : Nat) (ret : Int) : RetBy → Prop
  | .code => ret = eTimedOut ∨ ret = -1 ∨ ret = -3
  | .confirmation n at_ =>
    published ≤ at_ ∧ isCmdCnf n.id = true ∧ answers n.id cmd = true ∧ ret = cnfRet n arg

instance (cmd : BitVec 16) (arg : Option Nat) (published : Nat) (ret : Int) :
    ∀ b, Decidable (OwnBy cmd arg published ret b)
  | .code => inferInstanceAs (Decidable (_ ∨ _ ∨ _))
  | .confirmation _ _ => inferInstanceAs (Decidable (_ ∧ _ ∧ _ ∧ _))

def Return.Own (r : Return) : Prop := OwnBy r.cmd r.arg r.published r.ret r.by_

instance (r : Return) : Decidable r.Own := inferInstanceAs (Decidable (OwnBy ..))

structure Matched (s : CmdState) : Prop where
  returned : ∀ r ∈ s.returns, r.Own
  waiting : ∀ c, s.sender = some c → s.wsmCmd.done = true → (wakeReturn s c).Own
  writes : ∀ w ∈ s.writes, w.late = false
  listening : ∀ c, s.sender = some c → s.wsmCmd.done = false → c.taken = false → s.wsmCmd.cmd = c.cmd

/-- The switch has a case for the confirmation. -/
def Confirmation.Known (n : Confirmation) : Prop := cnfCase (stripLinkId n.id) ≠ .unknown

instance (n : Confirmation) : Decidable n.Known := inferInstanceAs (Decidable (_ ≠ _))

/-- A confirmation of another id is not taken while a command is outstanding, and a result is
written only for the command that waits (or for none, when it stores nothing). -/
def InOrder (s : CmdState) : CmdAct → Prop
  | .receive n => isCmdCnf n.id = true → ∀ c ∈ s.sender, s.wsmCmd.done = false →
      c.taken = false → answers n.id c.cmd = true
  | .finish => ∀ h ∈ s.handler, h.cnf.Known →
      (∀ c ∈ s.sender, h.owner = some c.published) ∧ (s.sender = none → cnfStore h.cnf h.arg = none)
  | _ => True

instance (s : CmdState) : ∀ a, Decidable (InOrder s a)
  | .receive n => inferInstanceAs (Decidable (isCmdCnf n.id = true → ∀ c ∈ s.sender,
      s.wsmCmd.done = false → c.taken = false → answers n.id c.cmd = true))
  | .finish => inferInstanceAs (Decidable (∀ h ∈ s.handler, h.cnf.Known →
      (∀ c ∈ s.sender, h.owner = some c.published) ∧ (s.sender = none → cnfStore h.cnf h.arg = none)))
  | .send .. | .sendTerm .. | .txed _ | .timeout | .wake | .releaseErrCmd => isTrue trivial

structure Owns (h : Handler) (c : Sender) : Prop where
  owner : h.owner = some c.published
  since : c.published ≤ h.at_
  id : answers h.cnf.id c.cmd = true
  arg : h.arg = c.arg
  taken : c.taken = true

structure CmdInv (s : CmdState) : Prop where
  published : ∀ c, s.sender = some c → c.published < s.clock
  received : ∀ h, s.handler = some h → h.at_ < s.clock ∧ isCmdCnf h.cnf.id = true
  owner : ∀ h p, s.handler = some h → h.owner = some p → p ≤ h.at_
  notIdle : ∀ c, s.sender = some c → c.cmd ≠ wsmCmdIdle
  /-- a published command keeps `wsm_cmd.cmd` until it is invalidated -/
  outstanding : ∀ c, s.sender = some c → s.wsmCmd.cmd = wsmCmdIdle ∨
    (s.wsmCmd.cmd = c.cmd ∧ s.wsmCmd.arg = c.arg ∧ c.taken = false)
  inFlight : ∀ h c, s.handler = some h → s.sender = some c → Owns h c ∨ h.at_ < c.published

theorem cmdInv_init : CmdInv {} :=
  ⟨by simp, by simp, by simp, by simp, by simp, by simp⟩

theorem matched_init : Matched {} :=
  ⟨by simp, by simp, by simp, by simp⟩

theorem wsmTxed_same (data : Nat) (s : CmdState) :
    (CmdInv s → CmdInv (wsmTxed data s)) ∧ (Matched s → Matched (wsmTxed data s)) := by
  unfold wsmTxed
  split
  · exact ⟨fun h => ⟨h.published, h.received, h.owner, h.notIdle, h.outstanding, h.inFlight⟩,
      fun h => ⟨h.returned, h.waiting, h.writes, h.listening⟩⟩
  · exact ⟨id, id⟩

section
variable {s : CmdState} (hI : CmdInv s) (hM : Matched s)
include hI hM

theorem cmdSendTerm_keeps (arg : Option Nat) (cmd : BitVec 16) :
    CmdInv (cmdSendTerm arg cmd s) ∧ Matched (cmdSendTerm arg cmd s) := by
  refine ⟨⟨hI.published, hI.received, hI.owner, hI.notIdle, hI.outstanding, hI.inFlight⟩,
    ⟨?_, hM.waiting, hM.writes, hM.listening⟩⟩
  intro r hr
  rcases List.mem_cons.mp hr with rfl | hr
  · exact .inr (.inr rfl)
  · exact hM.returned r hr

theorem cmdSend_keeps (buf len : Nat) (arg : Option Nat) (cmd : BitVec 16) (cnf : Bool)
    (hcmd : cmd ≠ wsmCmdIdle) :
    CmdInv (cmdSend buf len arg cmd cnf s) ∧ Matched (cmdSend buf len arg cmd cnf s) := by
  refine ⟨⟨?_, ?_, hI.owner, ?_, ?_, ?_⟩, ⟨hM.returned, ?_, hM.writes, ?_⟩⟩
  · rintro c ⟨⟩
    exact Nat.lt_succ_self s.clock
  · intro h hh
    exact ⟨Nat.lt_succ_of_lt (hI.received h hh).1, (hI.received h hh).2⟩
  · rintro c ⟨⟩
    exact hcmd
  · rintro c ⟨⟩
    exact .inr ⟨rfl, rfl, rfl⟩
  · -- a handler still between its two steps took its confirmation before this command
    rintro h c hh ⟨⟩
    exact .inr (hI.received h hh).1
  · rintro c - ⟨⟩
  · rintro c ⟨⟩ - -
    rfl

theorem sdioReleaseErrCmd_keeps :
    CmdInv (sdioReleaseErrCmd s) ∧ Matched (sdioReleaseErrCmd s) := by
  unfold sdioReleaseErrCmd
  split
  · refine ⟨⟨hI.published, hI.received, hI.owner, hI.notIdle, fun c _ => .inl rfl, hI.inFlight⟩,
      ⟨hM.returned, ?_, hM.writes, ?_⟩⟩
    · intro c _ _
      exact .inr (.inl rfl)
    · rintro c - ⟨⟩
  · exact ⟨hI, hM⟩

theorem cmdWake_keeps (hd : s.wsmCmd.done = true) : CmdInv (cmdWake s) ∧ Matched (cmdWake s) := by
  unfold cmdWake
  split
  · exact ⟨hI, hM⟩
  · next c hc =>
    refine ⟨⟨by simp, hI.received, hI.owner, by simp, by simp, by simp⟩, ⟨?_, by simp, hM.writes, by simp⟩⟩
    intro r hr
    rcases List.mem_cons.mp hr with rfl | hr
    · exact hM.waiting c hc hd
    · exact hM.returned r hr

theorem cmdTimeout_keeps : CmdInv (cmdTimeout s) ∧ Matched (cmdTimeout s) := by
  unfold cmdTimeout
  split
  · exact ⟨hI, hM⟩
  · next c hc =>
    refine ⟨⟨by simp, hI.received, hI.owner, by simp, by simp, by simp⟩, ⟨?_, by simp, hM.writes, by simp⟩⟩
    intro r hr
    rcases List.mem_cons.mp hr with rfl | hr
    · exact .inl rfl
    · exact hM.returned r hr

omit hM in
theorem matched_with {n : Confirmation} {c : Sender} (hc : s.sender = some c)
    (hn : answers n.id s.wsmCmd.cmd = true) :
    s.wsmCmd.cmd = c.cmd ∧ s.wsmCmd.arg = c.arg := by
  rcases hI.outstanding c hc with h | ⟨h, ha, -⟩
  · rw [h, not_answers_idle] at hn
    cases hn
  · exact ⟨h, ha⟩

omit hM in
theorem handleRxTake_inv (n : Confirmation) (hh : s.handler = none) : CmdInv (handleRxTake n s) := by
  unfold handleRxTake
  split
  swap
  · exact hI
  next hn =>
  dsimp only
  split
  · next hm =>
    refine ⟨?_, ?_, ?_, ?_, fun c _ => .inl rfl, ?_⟩
    · intro c' hc'
      obtain ⟨c, hc, rfl⟩ := Option.map_eq_some_iff.mp hc'
      exact Nat.lt_succ_of_lt (hI.published c hc)
    · rintro h ⟨⟩
      exact ⟨Nat.lt_succ_self s.clock, hn⟩
    · rintro h p ⟨⟩ hp
      obtain ⟨c, hc, rfl⟩ := Option.map_eq_some_iff.mp hp
      exact Nat.le_of_lt (hI.published c hc)
    · intro c' hc'
      obtain ⟨c, hc, rfl⟩ := Option.map_eq_some_iff.mp hc'
      exact hI.notIdle c hc
    · rintro h c' ⟨⟩ hc'
      obtain ⟨c, hc, rfl⟩ := Option.map_eq_some_iff.mp hc'
      obtain ⟨hcmd, harg⟩ := matched_with hI hc hm
      left
      refine ⟨by simp [hc], Nat.le_of_lt (hI.published c hc), ?_, harg, rfl⟩
      rw [← hcmd]
      exact hm
  · refine ⟨?_, ?_, hI.owner, hI.notIdle, fun c _ => .inl rfl, hI.inFlight⟩
    · intro c hc
      exact Nat.lt_succ_of_lt (hI.published c hc)
    · intro h hs
      rw [show s.handler = some h from hs] at hh
      cases hh

omit hI in
theorem handleRxTake_matched (n : Confirmation) (hC : InOrder s (.receive n)) :
    Matched (handleRxTake n s) := by
  unfold handleRxTake
  split
  swap
  · exact hM
  next hn =>
  dsimp only
  split
  · refine ⟨hM.returned, ?_, hM.writes, ?_⟩
    · intro c' hc' hd
      obtain ⟨c, hc, rfl⟩ := Option.map_eq_some_iff.mp hc'
      exact hM.waiting c hc hd
    · intro c' hc' _ ht
      obtain ⟨c, hc, rfl⟩ := Option.map_eq_some_iff.mp hc'
      cases ht
  · next hm =>
    refine ⟨hM.returned, hM.waiting, hM.writes, ?_⟩
    -- the command still listened, so the confirmation has its id and was matched
    intro c hc hd ht
    have hid := hC hn c hc hd ht
    rw [← hM.listening c hc hd ht] at hid
    exact absurd hid hm

theorem handleRxTake_lose (n : Confirmation) (ht : Matched (handleRxTake n s)) :
    InOrder s (.receive n) := by
  intro hn c hc hd htk
  apply Decidable.byContradiction
  intro hid
  have hcmd := hM.listening c hc hd htk
  have hm : ¬ answers n.id s.wsmCmd.cmd = true := by rw [hcmd]; exact hid
  have hl := ht.listening c
  unfold handleRxTake at hl
  simp only [hn, if_true, hm] at hl
  exact hI.notIdle c hc (hl hc hd htk).symm

omit hM in
theorem handleRxFinish_inv : CmdInv (handleRxFinish s) := by
  unfold handleRxFinish
  split
  · exact hI
  split
  · exact ⟨hI.published, by simp, by simp, hI.notIdle, hI.outstanding, by simp⟩
  · exact ⟨hI.published, by simp, by simp, hI.notIdle, hI.outstanding, by simp⟩

omit hM in
theorem own_of_owns {h : Handler} {c : Sender} (hh : s.handler = some h) (ho : Owns h c) :
    OwnBy c.cmd c.arg c.published (cnfRet h.cnf h.arg) (.confirmation h.cnf h.at_) :=
  ⟨ho.since, (hI.received h hh).2, ho.id, by rw [ho.arg]⟩

theorem handleRxFinish_matched (hC : InOrder s .finish) : Matched (handleRxFinish s) := by
  unfold handleRxFinish
  split
  · exact hM
  next h hh =>
  split
  · exact ⟨hM.returned, hM.waiting, hM.writes, hM.listening⟩
  next hk =>
  obtain ⟨hown, hnone⟩ := hC h hh hk
  refine ⟨hM.returned, ?_, ?_, ?_⟩
  · intro c hc _
    rcases hI.inFlight h c hh hc with ho | hlt
    · exact own_of_owns hI hh ho
    · have := hI.owner h _ hh (hown c hc)
      omega
  · intro w hw
    dsimp only at hw
    split at hw
    · next a v hst =>
      rcases List.mem_cons.mp hw with rfl | hw
      · obtain ⟨c, hc⟩ : ∃ c, s.sender = some c := by
          cases hs : s.sender with
          | none => rw [hnone hs] at hst; cases hst
          | some c => exact ⟨c, rfl⟩
        simp [hown c hc, hc]
      · exact hM.writes w hw
    · exact hM.writes w hw
  · rintro c - ⟨⟩

omit hM in
theorem handleRxFinish_lose (ht : Matched (handleRxFinish s)) : InOrder s .finish := by
  intro h (hh : s.handler = some h) hk
  have hk' : ¬ cnfCase (stripLinkId h.cnf.id) = .unknown := hk
  refine ⟨fun c (hc : s.sender = some c) => ?_, fun hs => ?_⟩
  · rcases hI.inFlight h c hh hc with ho | hlt
    · exact ho.owner
    · have hw := ht.waiting c
      unfold handleRxFinish at hw
      simp only [hh, hk', if_false] at hw
      have := (hw hc trivial).1
      simp only [wakeReturn] at this
      omega
  · cases hst : cnfStore h.cnf h.arg with
    | none => rfl
    | some av =>
      have hw := ht.writes
      unfold handleRxFinish at hw
      simp only [hh, hk', if_false, hst] at hw
      have hl := hw _ List.mem_cons_self
      rw [hs] at hl
      cases ho : h.owner <;> simp [ho] at hl

theorem step_keeps {a : CmdAct} (he : a.enabled s) (hC : InOrder s a) :
    CmdInv (a.next s) ∧ Matched (a.next s) := by
  cases a with
  | send buf len arg cmd cnf => exact cmdSend_keeps hI hM buf len arg cmd cnf he.2.2
  | sendTerm arg cmd => exact cmdSendTerm_keeps hI hM arg cmd
  | txed data => exact ⟨(wsmTxed_same data s).1 hI, (wsmTxed_same data s).2 hM⟩
  | receive n => exact ⟨handleRxTake_inv hI n he, handleRxTake_matched hM n hC⟩
  | finish => exact ⟨handleRxFinish_inv hI, handleRxFinish_matched hI hM hC⟩
  | timeout => exact cmdTimeout_keeps hI hM
  | wake => exact cmdWake_keeps hI hM he.2
  | releaseErrCmd => exact sdioReleaseErrCmd_keeps hI hM

theorem step_loses {a : CmdAct} (ht : Matched (a.next s)) : InOrder s a := by
  cases a with
  | receive n => exact handleRxTake_lose hI hM n ht
  | finish => exact handleRxFinish_lose hI ht
  | send | sendTerm | txed | timeout | wake | releaseErrCmd => trivial

theorem completes {c : Sender} {n : Confirmation} (hc : s.sender = some c)
    (hd : s.wsmCmd.done = false) (ht : c.taken = false) (hn : isCmdCnf n.id = true)
    (hid : answers n.id c.cmd = true) (hk : n.Known) :
    (handleRxFinish (handleRxTake n s)).wsmCmd.done = true ∧
    (cmdWake (handleRxFinish (handleRxTake n s))).returns =
      ⟨c.cmd, c.arg, c.published, cnfRet n c.arg, .confirmation n s.clock⟩ :: s.returns := by
  have hcmd := hM.listening c hc hd ht
  have hm : answers n.id s.wsmCmd.cmd = true := by rw [hcmd]; exact hid
  have harg := (matched_with hI hc hm).2
  have hk' : ¬ cnfCase (stripLinkId n.id) = .unknown := hk
  simp [handleRxTake, handleRxFinish, cmdWake, wakeReturn, hn, hm, hk', hc, harg]

end

theorem cmdInv_run {l : List (CmdState × CmdAct)} {s t : CmdState} (hp : Path wsmCommands s l t)
    (hC : ∀ p ∈ l, InOrder p.1 p.2) (hI : CmdInv s) (hM : Matched s) : CmdInv t ∧ Matched t := by
  refine hp.keep (I := fun s => CmdInv s ∧ Matched s) ?_ hC ⟨hI, hM⟩
  rintro s a t ⟨hI, hM⟩ ⟨he, rfl⟩ hC
  exact step_keeps hI hM he hC

/-- Read a MIB (argument at 7), let its confirmation come while the wait times out, and set
BSS parameters before the handler goes on. -/
def lateHandler : List CmdAct :=
  [.send 1 12 (some 7) 0x0005#16 true, .txed 1, .receive ⟨0x0405#16, 0, some 9⟩, .timeout,
    .send 1 20 none 0x0011#16 true, .txed 1, .finish, .wake]

/-- The confirmation of a read that timed out comes while the next command is outstanding. -/
def lateConfirmation : List CmdAct :=
  [.send 1 12 (some 7) 0x0005#16 true, .txed 1, .timeout, .send 1 20 none 0x0011#16 true, .txed 1,
    .receive ⟨0x0405#16, 0, some 9⟩]

/-- A run in order: a command that times out unanswered, then one that is confirmed. -/
def answeredSecond : List CmdAct :=
  [.send 1 12 (some 7) 0x0005#16 true, .txed 1, .timeout, .receive ⟨0x0405#16, 0, some 9⟩,
    .send 1 20 none 0x0011#16 true, .txed 1, .receive ⟨0x0411#16, 0, none⟩, .finish, .wake]

end AtbmWifi
