import AtbmWifi.Lib.Transition
import AtbmWifi.Lib.Holders
import Mathlib.Data.List.Count

/-!
# Events of the AP SME

`ieee80211_ap_sme_queue_event` tests that the interface runs, puts its event on the list with the lock held and
queues the work if the list was empty; the work goes through the list with the lock held and frees it, and
`ieee80211_do_stop` purges the list twice after it has cleared the running bit.  The lock makes an insertion and a
purge one step each.

* `ApSmeAct.Drains`: the work finds the interface down only with an empty list or with a purge to come.

`issued`, `processed` and `freed` are history: no step looks at them.
-/

namespace AtbmWifi

open Transition

inductive ApSmeEventId
  | assoced
  | deauthen
  | free
  | sendDeauthen
  | sendDeassoc
  | max
  deriving DecidableEq, Repr

structure ApSmeEvent where
  id : Nat
  event : ApSmeEventId
  staAddr : BitVec 48
  deriving DecidableEq, Repr

/-- The interface: `SDATA_STATE_RUNNING` is set when it is up; a stop has two purges to make, then one. -/
inductive ApSmeIface
  | up
  | purgeTwice
  | purgeOnce
  | down
  deriving DecidableEq, Repr

/-- Where `ieee80211_ap_sme_event_work` is. -/
inductive ApSmeWork
  | idle
  | test
  | lock
  /-- with the lock, these events to go -/
  | process (rest : List ApSmeEvent)
  deriving DecidableEq, Repr

structure ApSmeEvents where
  apSmeEvent : List ApSmeEvent
  iface : ApSmeIface
  /-- events of calls that have yet to take the lock -/
  calls : List ApSmeEvent
  /-- calls that have yet to queue the work -/
  toQueue : Nat
  /-- the work is queued -/
  workPending : Bool
  work : ApSmeWork
  /-- events allocated -/
  issued : Nat
  processed : List Nat
  freed : List Nat
  deriving DecidableEq, Repr

/-- The tests at the start of `ieee80211_ap_sme_queue_event`: the event it allocates. -/
def apSmeQueueEventTest (s : ApSmeEvents) (suspended resuming : Bool) (event : ApSmeEventId)
    (addr : Option (BitVec 48)) (alloc : Bool) : Option ApSmeEvent :=
  if event = .max then none
  else if (suspended && !resuming) = true then none
  else if s.iface ≠ .up then none
  else
    match addr with
    | none => none
    | some a =>
      if a = BitVec.allOnes 48 then none
      else if alloc = false then none
      else some ⟨s.issued, event, a⟩

namespace ApSmeEvents

/-- The section with `ap_sme_event_lock` of the call that has the event. -/
def queueEvent (e : ApSmeEvent) (s : ApSmeEvents) : ApSmeEvents :=
  { s with
    calls := s.calls.erase e
    apSmeEvent := s.apSmeEvent ++ [e]
    toQueue := if s.apSmeEvent = [] then s.toQueue + 1 else s.toQueue }

def eventFree (s : ApSmeEvents) : ApSmeEvents :=
  { s with apSmeEvent := [], freed := s.freed ++ s.apSmeEvent.map (·.id) }

/-- A step of `ieee80211_ap_sme_event_work`, with the start of the work. -/
def eventWork (s : ApSmeEvents) : ApSmeEvents :=
  match s.work with
  | .idle => { s with workPending := false, work := .test }
  | .test => { s with work := if s.iface = .up then .lock else .idle }
  | .lock => { s with work := .process s.apSmeEvent }
  | .process (e :: rest) => { s with work := .process rest, processed := s.processed ++ [e.id] }
  | .process [] => { s.eventFree with work := .idle }

def doStop (s : ApSmeEvents) : ApSmeEvents :=
  match s.iface with
  | .up => { s with iface := .purgeTwice }
  | .purgeTwice => { s.eventFree with iface := .purgeOnce }
  | .purgeOnce => { s.eventFree with iface := .down }
  | .down => s

def locked (s : ApSmeEvents) : Bool :=
  match s.work with
  | .process _ => true
  | .idle | .test | .lock => false

end ApSmeEvents

inductive ApSmeAct
  /-- a call of `ieee80211_ap_sme_queue_event` -/
  | call (suspended resuming : Bool) (event : ApSmeEventId) (addr : Option (BitVec 48)) (alloc : Bool)
  /-- the call that has the event takes the lock -/
  | insert (e : ApSmeEvent)
  | queueWork
  | work
  | stop
  /-- `ieee80211_do_open` -/
  | openIface
  deriving DecidableEq, Repr

namespace ApSmeAct

def Enabled (s : ApSmeEvents) : ApSmeAct → Prop
  | call _ _ _ _ _ => True
  | insert e => e ∈ s.calls ∧ s.locked = false
  | queueWork => 0 < s.toQueue
  | work => s.work = .idle → s.workPending = true
  | stop => s.iface = .up ∨ (s.iface = .purgeTwice ∨ s.iface = .purgeOnce) ∧ s.locked = false
  | openIface => s.iface = .down

def next (s : ApSmeEvents) : ApSmeAct → ApSmeEvents
  | call suspended resuming event addr alloc =>
    match apSmeQueueEventTest s suspended resuming event addr alloc with
    | some e => { s with calls := s.calls ++ [e], issued := s.issued + 1 }
    | none => s
  | insert e => s.queueEvent e
  | queueWork => { s with toQueue := s.toQueue - 1, workPending := true }
  | work => s.eventWork
  | stop => s.doStop
  | openIface => { s with iface := .up }

instance decEnabled (s : ApSmeEvents) (a : ApSmeAct) : Decidable (a.Enabled s) := by
  unfold Enabled
  split <;> infer_instance

end ApSmeAct

/-- After `ieee80211_ap_sme_event_init`, before the interface is opened. -/
def apSmeEventInit : ApSmeEvents := ⟨[], .down, [], 0, false, .idle, 0, [], []⟩

def apSmeEvents : Sys ApSmeEvents ApSmeAct :=
  .ofNext (fun s => s = apSmeEventInit) (fun s a => a.Enabled s) ApSmeAct.next

namespace ApSmeEvents

structure Served (s : ApSmeEvents) : Prop where
  /-- the work is queued, executing, or about to be queued -/
  stranded : s.apSmeEvent ≠ [] → s.iface = .up → s.workPending = true ∨ s.work ≠ .idle ∨ 0 < s.toQueue
  once : ∀ n, s.processed.count n ≤ 1
  freed : ∀ n, ((s.calls ++ s.apSmeEvent).map (·.id) ++ s.freed).count n = if n < s.issued then 1 else 0

end ApSmeEvents

def ApSmeAct.Drains (s : ApSmeEvents) : ApSmeAct → Prop
  | work => s.work = .test → s.iface = .down → s.apSmeEvent = []
  | _ => True

instance ApSmeAct.decDrains (s : ApSmeEvents) (a : ApSmeAct) : Decidable (a.Drains s) := by
  unfold Drains
  split <;> infer_instance

namespace ApSmeEvents

variable {s : ApSmeEvents}

def rest (s : ApSmeEvents) : List ApSmeEvent :=
  match s.work with
  | .process rest => rest
  | .idle | .test | .lock => s.apSmeEvent

structure Inv (s : ApSmeEvents) : Prop where
  awaited : s.apSmeEvent ≠ [] → s.iface = .up ∨ s.iface = .down →
    s.workPending = true ∨ s.work ≠ .idle ∨ 0 < s.toQueue
  once : ∀ n, s.processed.count n ≤ 1
  freed : ∀ n, ((s.calls ++ s.apSmeEvent).map (·.id) ++ s.freed).count n = if n < s.issued then 1 else 0
  processed : ∃ done, s.apSmeEvent = done ++ s.rest ∧ ∀ n ∈ s.processed, n ∈ s.freed ∨ n ∈ done.map (·.id)

theorem Inv.start : apSmeEventInit.Inv where
  awaited := fun h => absurd rfl h
  once := fun _ => Nat.zero_le 1
  freed := fun _ => rfl
  processed := ⟨[], rfl, nofun⟩

theorem rest_of_unlocked (h : s.locked = false) : s.rest = s.apSmeEvent := by
  unfold locked at h
  unfold rest
  split
  · next hw =>
    rw [hw] at h
    cases h
  · rfl
  · rfl
  · rfl

theorem Inv.unlocked (h : s.Inv) (hl : s.locked = false) : ∀ n ∈ s.processed, n ∈ s.freed := by
  intro n hn
  obtain ⟨done, hlist, hprocessed⟩ := h.processed
  rw [rest_of_unlocked hl] at hlist
  have hdone : done = [] := List.self_eq_append_left.mp hlist
  rcases hprocessed n hn with hn | hn
  · exact hn
  · rw [hdone] at hn
    cases hn

theorem eventFree_count (s : ApSmeEvents) (n : Nat) :
    ((s.eventFree.calls ++ s.eventFree.apSmeEvent).map (·.id) ++ s.eventFree.freed).count n =
      ((s.calls ++ s.apSmeEvent).map (·.id) ++ s.freed).count n := by
  apply List.Perm.count_eq
  unfold eventFree
  rw [List.append_nil, List.map_append, List.append_assoc]
  exact List.Perm.append_left _ List.perm_append_comm

theorem Inv.eventFree (h : s.Inv) : ∀ n ∈ s.processed, n ∈ s.eventFree.freed := by
  intro n hn
  obtain ⟨done, hlist, hprocessed⟩ := h.processed
  apply List.mem_append.mpr
  rcases hprocessed n hn with hn | hn
  · exact .inl hn
  · rw [hlist, List.map_append]
    exact .inr (List.mem_append_left _ hn)

theorem Inv.call (h : s.Inv) (suspended resuming : Bool) (event : ApSmeEventId) (addr : Option (BitVec 48))
    (alloc : Bool) : (ApSmeAct.next s (.call suspended resuming event addr alloc)).Inv := by
  unfold ApSmeAct.next
  dsimp only
  split
  · next e he =>
    have hid : e.id = s.issued := by
      unfold apSmeQueueEventTest at he
      grind
    refine ⟨h.awaited, h.once, fun n => ?_, h.processed⟩
    have hn := h.freed n
    have hperm : ((s.calls ++ [e] ++ s.apSmeEvent).map (·.id) ++ s.freed).Perm
        (e.id :: ((s.calls ++ s.apSmeEvent).map (·.id) ++ s.freed)) := by
      rw [List.append_assoc]
      have hmid : (s.calls ++ e :: s.apSmeEvent).Perm (e :: (s.calls ++ s.apSmeEvent)) := List.perm_middle
      exact (hmid.map (·.id)).append_right s.freed
    show ((s.calls ++ [e] ++ s.apSmeEvent).map (·.id) ++ s.freed).count n = if n < s.issued + 1 then 1 else 0
    rw [hperm.count_eq n, List.count_cons, hn, hid]
    by_cases heq : s.issued = n
    · rw [if_neg (by omega), if_pos (by simpa using heq), if_pos (by omega)]
    · rw [if_neg (c := (s.issued == n) = true) (by simpa using heq)]
      by_cases hlt : n < s.issued
      · rw [if_pos hlt, if_pos (by omega)]
      · rw [if_neg hlt, if_neg (by omega)]
  · exact h

theorem Inv.insert (h : s.Inv) {e : ApSmeEvent} (he : e ∈ s.calls) (hl : s.locked = false) : (s.queueEvent e).Inv := by
  refine ⟨fun _ hi => ?_, h.once, fun n => ?_, [], ?_, fun n hn => .inl (h.unlocked hl n hn)⟩
  · show s.workPending = true ∨ s.work ≠ .idle ∨ 0 < if s.apSmeEvent = [] then s.toQueue + 1 else s.toQueue
    by_cases hempty : s.apSmeEvent = []
    · rw [if_pos hempty]
      exact .inr (.inr (Nat.succ_pos _))
    · rw [if_neg hempty]
      exact h.awaited hempty hi
  · refine Eq.trans ?_ (h.freed n)
    apply List.Perm.count_eq
    apply List.Perm.append_right
    apply List.Perm.map
    show (s.calls.erase e ++ (s.apSmeEvent ++ [e])).Perm _
    rw [← List.append_assoc]
    refine (List.perm_append_singleton e _).trans ?_
    exact (List.perm_cons_erase he).symm.append_right s.apSmeEvent
  · exact (rest_of_unlocked (s := s.queueEvent e) hl).symm

theorem Inv.purge (h : s.Inv) (hl : s.locked = false) (i : ApSmeIface) : { s.eventFree with iface := i }.Inv := by
  refine ⟨fun hne => absurd rfl hne, h.once, fun n => ?_, [], ?_, fun n hn => .inl (h.eventFree n hn)⟩
  · exact (eventFree_count s n).trans (h.freed n)
  · exact (rest_of_unlocked (s := { s.eventFree with iface := i }) hl).symm

theorem Inv.stop (h : s.Inv) (ha : ApSmeAct.Enabled s .stop) : s.doStop.Inv := by
  unfold doStop
  rcases ha with hup | ⟨hstop, hl⟩
  · rw [hup]
    refine ⟨fun _ hi => ?_, h.once, h.freed, h.processed⟩
    rcases hi with hi | hi <;> cases hi
  · rcases hstop with hstop | hstop
    · rw [hstop]
      exact h.purge hl .purgeOnce
    · rw [hstop]
      exact h.purge hl .down

theorem Inv.open (h : s.Inv) (ha : s.iface = .down) : { s with iface := .up }.Inv :=
  ⟨fun hne _ => h.awaited hne (.inr ha), h.once, h.freed, h.processed⟩

theorem Inv.queueWork (h : s.Inv) : (ApSmeAct.next s .queueWork).Inv :=
  ⟨fun _ _ => .inl rfl, h.once, h.freed, h.processed⟩

theorem Inv.unprocessed (h : s.Inv) {e : ApSmeEvent} {rest : List ApSmeEvent} (hw : s.work = .process (e :: rest)) :
    s.processed.count e.id = 0 := by
  obtain ⟨done, hlist, hprocessed⟩ := h.processed
  have hrest : s.rest = e :: rest := by
    unfold ApSmeEvents.rest
    rw [hw]
  rw [hrest] at hlist
  have hcount := h.freed e.id
  rw [hlist] at hcount
  simp only [List.map_append, List.map_cons, List.count_append, List.count_cons_self] at hcount
  have hle : (if e.id < s.issued then 1 else 0) ≤ 1 := by
    split
    · exact Nat.le_refl 1
    · exact Nat.zero_le 1
  rw [List.count_eq_zero]
  intro hmem
  rcases hprocessed _ hmem with hf | hd
  · have := List.count_pos_iff.mpr hf
    omega
  · have := List.count_pos_iff.mpr hd
    omega

theorem Inv.work (h : s.Inv) (hC : ApSmeAct.Drains s .work) : s.eventWork.Inv := by
  unfold eventWork
  split
  · next hw =>
    have hl : s.locked = false := by
      unfold locked
      rw [hw]
    exact ⟨fun _ _ => .inr (.inl nofun), h.once, h.freed, [], rfl, fun n hn => .inl (h.unlocked hl n hn)⟩
  · next hw =>
    have hl : s.locked = false := by
      unfold locked
      rw [hw]
    split
    · exact ⟨fun _ _ => .inr (.inl nofun), h.once, h.freed, [], rfl, fun n hn => .inl (h.unlocked hl n hn)⟩
    · next hdown =>
      -- the work returns and leaves the list as it is
      refine ⟨fun hne hi => ?_, h.once, h.freed, [], rfl, fun n hn => .inl (h.unlocked hl n hn)⟩
      rcases hi with hi | hi
      · exact absurd hi hdown
      · exact absurd (hC hw hi) hne
  · next hw =>
    have hl : s.locked = false := by
      unfold locked
      rw [hw]
    exact ⟨fun _ _ => .inr (.inl nofun), h.once, h.freed, [], rfl, fun n hn => .inl (h.unlocked hl n hn)⟩
  · next e rest hw =>
    have hcount := h.unprocessed hw
    obtain ⟨done, hlist, hprocessed⟩ := h.processed
    have hrest : s.rest = e :: rest := by
      unfold ApSmeEvents.rest
      rw [hw]
    refine ⟨fun _ _ => .inr (.inl nofun), fun n => ?_, h.freed, done ++ [e], ?_, fun n hn => ?_⟩
    · show (s.processed ++ [e.id]).count n ≤ 1
      rw [List.count_append, List.count_singleton]
      by_cases heq : e.id = n
      · subst heq
        exact Nat.le_of_eq (by rw [hcount, if_pos (beq_self_eq_true _)])
      · rw [if_neg (by simpa using heq)]
        exact h.once n
    · show s.apSmeEvent = done ++ [e] ++ rest
      rw [hlist, hrest, List.append_assoc]
      rfl
    · rcases List.mem_append.mp hn with hn | hn
      · rcases hprocessed n hn with hn | hn
        · exact .inl hn
        · rw [List.map_append]
          exact .inr (List.mem_append_left _ hn)
      · rw [List.mem_singleton.mp hn, List.map_append]
        exact .inr (List.mem_append_right _ (List.mem_singleton_self _))
  · exact ⟨fun hne => absurd rfl hne, h.once, fun n => (eventFree_count s n).trans (h.freed n), [], rfl,
      fun n hn => .inl (h.eventFree n hn)⟩

theorem Inv.step (h : s.Inv) {a : ApSmeAct} (ha : a.Enabled s) (hC : a.Drains s) : (a.next s).Inv := by
  cases a with
  | call suspended resuming event addr alloc => exact h.call suspended resuming event addr alloc
  | insert e => exact h.insert ha.1 ha.2
  | queueWork => exact h.queueWork
  | work => exact h.work hC
  | stop => exact h.stop ha
  | openIface => exact h.open ha

theorem Inv.served (h : s.Inv) : s.Served :=
  ⟨fun hne hup => h.awaited hne (.inl hup), h.once, h.freed⟩

end ApSmeEvents

/-- After a run in which the work finds the interface down only with an empty list or a purge to come, events are
served. -/
theorem apSmeEvents_served {l : List (ApSmeEvents × ApSmeAct)} {t : ApSmeEvents}
    (h : Path apSmeEvents apSmeEventInit l t) (hC : ∀ p ∈ l, p.2.Drains p.1) : t.Served := by
  have hinv : t.Inv := by
    apply h.keep (C := fun s a => a.Drains s) (I := ApSmeEvents.Inv)
    · rintro s a _ hI ⟨ha, rfl⟩ hC
      exact hI.step ha hC
    · exact hC
    · exact .start
  exact hinv.served

theorem apSmeEvents_served_reopen :
    let acts : List ApSmeAct := [.openIface, .call false false .free (some 5) true, .insert ⟨0, .free, 5⟩, .stop,
      .queueWork, .work, .work, .stop, .stop, .openIface, .call false false .assoced (some 7) true,
      .insert ⟨1, .assoced, 7⟩, .queueWork, .work, .work, .work, .work, .work]
    (acts.foldl ApSmeAct.next apSmeEventInit).Served ∧
      (acts.foldl ApSmeAct.next apSmeEventInit).processed = [1] := by
  intro acts
  have hfires : Fires (fun s a => a.Enabled s) ApSmeAct.next apSmeEventInit acts := by decide
  exact ⟨apSmeEvents_served (Path.ofFires hfires) (by decide), by decide⟩

/-- An event goes on the list of a stopped interface; the work leaves it there and the next open strands it. -/
theorem apSmeEvents_stranded :
    ∃ l t, Path apSmeEvents apSmeEventInit l t ∧ ¬t.Served := by
  have hfires : Fires (fun s a => a.Enabled s) ApSmeAct.next apSmeEventInit
      [.openIface, .call false false .free (some 5) true, .stop, .stop, .stop, .insert ⟨0, .free, 5⟩, .queueWork,
        .work, .work, .openIface] := by decide
  refine ⟨_, _, Path.ofFires hfires, fun h => ?_⟩
  rcases h.stranded (by decide) (by decide) with hno | hno | hno
  · exact absurd hno (by decide)
  · exact absurd hno (by decide)
  · exact absurd hno (by decide)

end AtbmWifi
