import AtbmWifi.Mac80211.PrvMgmt
import Mathlib.Data.List.Count

/-!
# Requests to the sender of private management frames
-/

namespace AtbmWifi

open Transition

variable {D : Type}

def lastRequest (k : SpecialMgmt) (rs : List (PrvRequest D)) : Option (PrvRequest D) :=
  (rs.filter fun r => r.pktType == k).getLast?

def lastStart (k : SpecialMgmt) (rs : List (PrvRequest D)) : Option (PrvRequest D) :=
  (rs.filter fun r => r.pktType == k && r.start).getLast?

def started (k : SpecialMgmt) (rs : List (PrvRequest D)) : Bool := ((lastRequest k rs).map (·.start)).getD false

def PrvUninit.forced (k : SpecialMgmt) : PrvUninit → Bool
  | idle | cancelWork | purge | stop | start .probeResp => false
  | start .action => k == .probeResp
  | join | returned => true

def PrvUninit.stopped : PrvUninit → Bool
  | idle | cancelWork | purge | stop => false
  | start _ | join | returned => true

namespace PrvMgmt

def queued (s : PrvMgmt D) : List (PrvRequest D) :=
  (s.skb.map Prod.fst).toList ++ s.localList.getD [] ++ s.sendPrvmgmtSkbQueue

/-- `kthread_stop` waits for a thread that nothing wakes. -/
def Blocked (s : PrvMgmt D) : Prop := s.uninit = .join ∧ s.thread = .wait ∧ ∀ k, s.start k = false

structure Kept (s : PrvMgmt D) : Prop where
  freed : ∀ n, (s.queued.map (·.id) ++ s.freed).count n = if n < s.requests.length then 1 else 0
  flags : s.purged = false → s.queued = [] → ∀ k, s.uninit.forced k = false → s.failed k = false →
    s.start k = started k s.requests
  frames : s.purged = false → s.queued = [] → ∀ k, ∀ r ∈ lastStart k s.requests, s.frame k = r.data
  sent : s.stop = true → ∀ k, s.sent k ≤ 1
  blocked : ¬s.Blocked

end PrvMgmt

def PrvAct.InOrder (s : PrvMgmt D) : PrvAct D → Prop
  | work =>
    match s.skb with
    | some (r, .test) => s.start r.pktType = false
    | some (r, .switch) =>
      r.start = false → s.uninit = .join → s.thread = .wait →
        (match r.pktType with | .probeResp => s.start .action | .action => s.start .probeResp) = true
    | _ => True
  | uninit => s.uninit = .stop → s.thread = .wait ∨ s.thread = .testStop
  | _ => True

instance PrvAct.decInOrder (s : PrvMgmt D) (a : PrvAct D) : Decidable (a.InOrder s) :=
  match a with
  | work => by
    delta InOrder
    dsimp only
    exact match s.skb with
      | some (r, .test) => inferInstanceAs (Decidable (s.start r.pktType = false))
      | some (r, .switch) => inferInstanceAs (Decidable (_ → _ → _ → _))
      | some (_, .set) | some (_, .free) | none => .isTrue trivial
  | uninit => inferInstanceAs (Decidable (_ → _ ∨ _))
  | request .. | queueWork | thread _ => .isTrue trivial

theorem lastRequest_snoc (k : SpecialMgmt) (rs : List (PrvRequest D)) (r : PrvRequest D) :
    lastRequest k (rs ++ [r]) = if r.pktType = k then some r else lastRequest k rs := by
  unfold lastRequest
  rw [List.filter_append]
  by_cases hk : r.pktType = k
  · rw [if_pos hk, List.filter_cons_of_pos (by exact beq_iff_eq.mpr hk)]
    exact List.getLast?_concat
  · rw [if_neg hk, List.filter_cons_of_neg (by simpa using hk), List.filter_nil, List.append_nil]

theorem lastStart_snoc (k : SpecialMgmt) (rs : List (PrvRequest D)) (r : PrvRequest D) :
    lastStart k (rs ++ [r]) = if r.pktType = k ∧ r.start = true then some r else lastStart k rs := by
  unfold lastStart
  rw [List.filter_append]
  by_cases hk : r.pktType = k ∧ r.start = true
  · rw [if_pos hk, List.filter_cons_of_pos (by simpa using hk)]
    exact List.getLast?_concat
  · rw [if_neg hk, List.filter_cons_of_neg (by simpa using hk), List.filter_nil, List.append_nil]

theorem started_snoc (k : SpecialMgmt) (rs : List (PrvRequest D)) (r : PrvRequest D) :
    started k (rs ++ [r]) = if r.pktType = k then r.start else started k rs := by
  unfold started
  rw [lastRequest_snoc]
  split <;> rfl

namespace PrvMgmt

inductive WorkMove (s : PrvMgmt D) : PrvMgmt D → Prop
  | begin (hl : s.localList = none) :
      WorkMove s
        { s with localList := some s.sendPrvmgmtSkbQueue, sendPrvmgmtSkbQueue := [], workPending := false }
  | finish (hl : s.localList = some []) (hs : s.skb = none) : WorkMove s { s with localList := none }
  | take {r : PrvRequest D} {rs : List (PrvRequest D)} (hl : s.localList = some (r :: rs)) (hs : s.skb = none) :
      WorkMove s { s with localList := some rs, skb := some (r, .switch) }
  | clear {r : PrvRequest D} (hs : s.skb = some (r, .switch)) (hr : r.start = false) :
      WorkMove s { s.setStart r.pktType false with skb := some (r, .free) }
  | store {r : PrvRequest D} (hs : s.skb = some (r, .switch)) (hr : r.start = true) :
      WorkMove s { s with frame := Function.update s.frame r.pktType r.data, skb := some (r, .test) }
  | leave {r : PrvRequest D} (hs : s.skb = some (r, .test)) (hr : s.start r.pktType = true) :
      WorkMove s { s with skb := none }
  | goOn {r : PrvRequest D} (hs : s.skb = some (r, .test)) (hr : s.start r.pktType = false) :
      WorkMove s { s with skb := some (r, .set) }
  | set {r : PrvRequest D} (hs : s.skb = some (r, .set)) :
      WorkMove s { s.setStart r.pktType true with skb := some (r, .free) }
  | free {r : PrvRequest D} (hs : s.skb = some (r, .free)) :
      WorkMove s { s with skb := none, freed := s.freed ++ [r.id] }

theorem workMove (s : PrvMgmt D) : WorkMove s s.sendMgmtWorkControl := by
  unfold sendMgmtWorkControl
  split
  · next hl => exact .begin hl
  · next hl hs => exact .finish hl hs
  · next hl hs => exact .take hl hs
  · next hs =>
    split
    · next hr => exact .clear hs hr
    · next hr => exact .store hs hr
  · next r hs =>
    split
    · next hr => exact .leave hs hr
    · next hr => exact .goOn hs (Bool.eq_false_iff.mpr hr)
  · next hs => exact .set hs
  · next hs => exact .free hs

/-- The work has an skb only while it runs, and is past its switch with a request to start. -/
structure WorkInv (s : PrvMgmt D) : Prop where
  idle : s.localList = none → s.skb = none
  start : ∀ r p, s.skb = some (r, p) → p = .test ∨ p = .set → r.start = true

variable {s t : PrvMgmt D}

theorem WorkInv.work (h : s.WorkInv) (hm : WorkMove s t) : t.WorkInv := by
  cases hm with
  | begin hl => exact ⟨nofun, h.start⟩
  | finish hl hs => exact ⟨fun _ => hs, h.start⟩
  | take hl hs =>
    refine ⟨nofun, fun r p hp hcase => ?_⟩
    cases hp
    rcases hcase with hcase | hcase <;> cases hcase
  | clear hs hr =>
    refine ⟨fun hl => ?_, fun r p hp hcase => ?_⟩
    · cases (h.idle hl).symm.trans hs
    · cases hp
      rcases hcase with hcase | hcase <;> cases hcase
  | store hs hr =>
    refine ⟨fun hl => ?_, fun r p hp _ => ?_⟩
    · cases (h.idle hl).symm.trans hs
    · cases hp
      exact hr
  | leave hs hr => exact ⟨fun _ => rfl, nofun⟩
  | goOn hs hr =>
    refine ⟨fun hl => ?_, fun r p hp _ => ?_⟩
    · cases (h.idle hl).symm.trans hs
    · cases hp
      exact h.start _ _ hs (.inl rfl)
  | set hs =>
    refine ⟨fun hl => ?_, fun r p hp hcase => ?_⟩
    · cases (h.idle hl).symm.trans hs
    · cases hp
      rcases hcase with hcase | hcase <;> cases hcase
  | free hs => exact ⟨fun _ => rfl, nofun⟩

/-- A request is in the hands of the work, or freed, or on the queue. -/
def Counted (s : PrvMgmt D) : Prop :=
  ∀ n, (s.queued.map (·.id) ++ s.freed).count n = if n < s.requests.length then 1 else 0

theorem Counted.perm (h : s.Counted) (hr : t.requests = s.requests)
    (hp : (t.queued.map (·.id) ++ t.freed).Perm (s.queued.map (·.id) ++ s.freed)) : t.Counted := by
  intro n
  rw [hp.count_eq n, hr]
  exact h n

theorem Counted.same (h : s.Counted) (hr : t.requests = s.requests) (hq : t.queued = s.queued)
    (hf : t.freed = s.freed) : t.Counted := by
  apply h.perm hr
  rw [hq, hf]

theorem queued_request (s : PrvMgmt D) (k : SpecialMgmt) (start : Bool) (data : D) :
    (s.queueRequest k start data).queued = s.queued ++ [⟨s.requests.length, k, start, data⟩] :=
  (List.append_assoc _ _ _).symm

theorem Counted.request (h : s.Counted) (k : SpecialMgmt) (start : Bool) (data : D) :
    (s.queueRequest k start data).Counted := by
  intro n
  have hn := h n
  have hlength : (s.queueRequest k start data).requests.length = s.requests.length + 1 := List.length_append
  have hfreed : (s.queueRequest k start data).freed = s.freed := rfl
  rw [queued_request, hlength, hfreed, List.map_append, List.count_append, List.count_append]
  rw [List.count_append] at hn
  show _ + [s.requests.length].count n + _ = _
  rw [List.count_singleton]
  by_cases heq : s.requests.length = n
  · subst heq
    rw [if_neg (Nat.lt_irrefl _)] at hn
    rw [if_pos (beq_self_eq_true _), if_pos (Nat.lt_succ_self _)]
    omega
  · rw [if_neg (by simpa using heq)]
    by_cases hlt : n < s.requests.length
    · rw [if_pos hlt] at hn
      rw [if_pos (by omega)]
      omega
    · rw [if_neg hlt] at hn
      rw [if_neg (by omega)]
      omega

theorem Counted.work (h : s.Counted) (hm : WorkMove s t) (hC : (PrvAct.work : PrvAct D).InOrder s) : t.Counted := by
  cases hm with
  | begin hl =>
    refine h.same rfl ?_ rfl
    unfold queued
    rw [hl, List.append_nil]
    exact congrArg (· ++ s.sendPrvmgmtSkbQueue) (by rw [Option.getD_none, List.append_nil])
  | finish hl hs =>
    refine h.same rfl ?_ rfl
    unfold queued
    rw [hl]
    rfl
  | take hl hs =>
    refine h.same rfl ?_ rfl
    unfold queued
    rw [hl, hs]
    rfl
  | clear hs hr =>
    refine h.same rfl ?_ rfl
    unfold queued
    rw [hs]
    rfl
  | store hs hr =>
    refine h.same rfl ?_ rfl
    unfold queued
    rw [hs]
    rfl
  | leave hs hr =>
    -- the skb is lost
    unfold PrvAct.InOrder at hC
    rw [hs] at hC
    exact absurd hr (Bool.eq_false_iff.mp hC)
  | goOn hs hr =>
    refine h.same rfl ?_ rfl
    unfold queued
    rw [hs]
    rfl
  | set hs =>
    refine h.same rfl ?_ rfl
    unfold queued
    rw [hs]
    rfl
  | @free r hs =>
    refine h.perm rfl ?_
    have hq : s.queued = r :: (s.localList.getD [] ++ s.sendPrvmgmtSkbQueue) := by
      unfold queued
      rw [hs]
      rfl
    rw [hq]
    show ((s.localList.getD [] ++ s.sendPrvmgmtSkbQueue).map (·.id) ++ (s.freed ++ [r.id])).Perm _
    rw [← List.append_assoc]
    exact List.perm_append_singleton _ _

/-- The request the flag of whose kind is set already, though the work has the skb. -/
def flagged (s : PrvMgmt D) : List (PrvRequest D) :=
  match s.skb with
  | some (r, .free) => [r]
  | _ => []

def stored (s : PrvMgmt D) : List (PrvRequest D) :=
  match s.skb with
  | some (_, .switch) | none => []
  | some (r, _) => [r]

/-- After the requests `done` are dealt with. -/
structure Applied (done : List (PrvRequest D)) (s : PrvMgmt D) : Prop where
  requests : s.requests = done ++ s.queued
  flags : ∀ k, s.uninit.forced k = false → s.failed k = false → s.start k = started k (done ++ s.flagged)
  frames : ∀ k, ∀ r ∈ lastStart k (done ++ s.stored), s.frame k = r.data

theorem Applied.work {done : List (PrvRequest D)} (h : s.Applied done) (hI : s.WorkInv)
    (hm : WorkMove s t) : ∃ done', t.Applied done' := by
  obtain ⟨hrequests, hflags, hframes⟩ := h
  unfold queued at hrequests
  unfold flagged at hflags
  unfold stored at hframes
  cases hm with
  | begin hl =>
    rw [hl] at hrequests
    refine ⟨done, ?_, hflags, hframes⟩
    rw [hrequests]
    show _ = done ++ (_ ++ s.sendPrvmgmtSkbQueue ++ [])
    rw [List.append_nil, Option.getD_none, List.append_nil]
  | finish hl hs =>
    rw [hl] at hrequests
    exact ⟨done, hrequests, hflags, hframes⟩
  | take hl hs =>
    rw [hs, hl] at hrequests
    rw [hs] at hflags hframes
    exact ⟨done, hrequests, hflags, hframes⟩
  | @clear r hs hr =>
    rw [hs] at hrequests hflags hframes
    refine ⟨done, hrequests, fun k hforced hfailed => ?_, fun k q hq => ?_⟩
    · show Function.update s.start r.pktType false k = started k (done ++ [r])
      rw [started_snoc]
      by_cases hk : r.pktType = k
      · rw [if_pos hk, ← hk, Function.update_self, hr]
      · rw [if_neg hk, Function.update_of_ne (Ne.symm hk), hflags k hforced hfailed, List.append_nil]
    · apply hframes k q
      rw [List.append_nil]
      have hq : q ∈ lastStart k (done ++ [r]) := hq
      rwa [lastStart_snoc, if_neg (by simp [hr])] at hq
  | @store r hs hr =>
    rw [hs] at hrequests hflags hframes
    refine ⟨done, hrequests, hflags, fun k q hq => ?_⟩
    have hq : q ∈ lastStart k (done ++ [r]) := hq
    show Function.update s.frame r.pktType r.data k = q.data
    rw [lastStart_snoc] at hq
    by_cases hk : r.pktType = k
    · rw [if_pos ⟨hk, hr⟩] at hq
      rw [← hk, Function.update_self, Option.mem_some_iff.mp hq]
    · rw [if_neg fun h => hk h.1] at hq
      rw [Function.update_of_ne (Ne.symm hk)]
      exact hframes k q (by rwa [List.append_nil])
  | @leave r hs hr =>
    have hstart := hI.start _ _ hs (.inl rfl)
    rw [hs] at hrequests hflags hframes
    refine ⟨done ++ [r], ?_, fun k hforced hfailed => ?_, fun k q hq => ?_⟩
    · rw [hrequests, List.append_assoc done [r]]
      rfl
    · show s.start k = started k (done ++ [r] ++ [])
      rw [List.append_nil, started_snoc]
      by_cases hk : r.pktType = k
      · rw [if_pos hk, ← hk, hr, hstart]
      · rw [if_neg hk, hflags k hforced hfailed, List.append_nil]
    · apply hframes k q
      have hq : q ∈ lastStart k (done ++ [r] ++ []) := hq
      rwa [List.append_nil] at hq
  | goOn hs hr =>
    rw [hs] at hrequests hflags hframes
    exact ⟨done, hrequests, hflags, hframes⟩
  | @set r hs =>
    have hstart := hI.start _ _ hs (.inr rfl)
    rw [hs] at hrequests hflags hframes
    refine ⟨done, hrequests, fun k hforced hfailed => ?_, hframes⟩
    show Function.update s.start r.pktType true k = started k (done ++ [r])
    rw [started_snoc]
    by_cases hk : r.pktType = k
    · rw [if_pos hk, ← hk, Function.update_self, hstart]
    · rw [if_neg hk, Function.update_of_ne (Ne.symm hk), hflags k hforced hfailed, List.append_nil]
  | @free r hs =>
    rw [hs] at hrequests hflags hframes
    refine ⟨done ++ [r], ?_, fun k hforced hfailed => ?_, fun k q hq => ?_⟩
    · rw [hrequests, List.append_assoc done [r]]
      rfl
    · show s.start k = started k (done ++ [r] ++ [])
      rw [List.append_nil]
      exact hflags k hforced hfailed
    · apply hframes k q
      have hq : q ∈ lastStart k (done ++ [r] ++ []) := hq
      rwa [List.append_nil] at hq

theorem Applied.request {done : List (PrvRequest D)} (h : s.Applied done) (k : SpecialMgmt)
    (start : Bool) (data : D) : (s.queueRequest k start data).Applied done := by
  refine ⟨?_, h.flags, h.frames⟩
  rw [queued_request]
  exact (congrArg (· ++ [_]) h.requests).trans (List.append_assoc _ _ _)

/-- What the thread changes of what it shares with the work: the flag of a kind whose send has failed. -/
structure ThreadMove (s t : PrvMgmt D) : Prop where
  queued : t.queued = s.queued
  skb : t.skb = s.skb
  localList : t.localList = s.localList
  requests : t.requests = s.requests
  freed : t.freed = s.freed
  purged : t.purged = s.purged
  frame : t.frame = s.frame
  uninit : t.uninit = s.uninit
  stop : t.stop = s.stop
  start : ∀ k, t.failed k = false → s.failed k = false ∧ t.start k = s.start k

/-- A flag is cleared for a send that has failed. -/
def FailInv (s : PrvMgmt D) : Prop := ∀ k, s.thread = .fail k → s.failed k = true

theorem threadMove (h : s.FailInv) (r : PrvSend) : ThreadMove s (s.sendPrivateMgmtThread r) := by
  unfold sendPrivateMgmtThread
  split
  · exact ⟨rfl, rfl, rfl, rfl, rfl, rfl, rfl, rfl, rfl, fun k hk => ⟨hk, rfl⟩⟩
  · exact ⟨rfl, rfl, rfl, rfl, rfl, rfl, rfl, rfl, rfl, fun k hk => ⟨hk, rfl⟩⟩
  · exact ⟨rfl, rfl, rfl, rfl, rfl, rfl, rfl, rfl, rfl, fun k hk => ⟨hk, rfl⟩⟩
  · exact ⟨rfl, rfl, rfl, rfl, rfl, rfl, rfl, rfl, rfl, fun k hk => ⟨hk, rfl⟩⟩
  · exact ⟨rfl, rfl, rfl, rfl, rfl, rfl, rfl, rfl, rfl, fun k hk => ⟨hk, rfl⟩⟩
  · next k hthread =>
    cases r with
    | sent => exact ⟨rfl, rfl, rfl, rfl, rfl, rfl, rfl, rfl, rfl, fun k hk => ⟨hk, rfl⟩⟩
    | dropped => exact ⟨rfl, rfl, rfl, rfl, rfl, rfl, rfl, rfl, rfl, fun k hk => ⟨hk, rfl⟩⟩
    | failed =>
      refine ⟨rfl, rfl, rfl, rfl, rfl, rfl, rfl, rfl, rfl, fun j hj => ⟨?_, rfl⟩⟩
      have hj : Function.update s.failed k true j = false := hj
      by_cases hjk : j = k
      · rw [hjk, Function.update_self] at hj
        cases hj
      · rwa [Function.update_of_ne hjk] at hj
  · next k hthread =>
    refine ⟨rfl, rfl, rfl, rfl, rfl, rfl, rfl, rfl, rfl, fun j hj => ⟨hj, ?_⟩⟩
    show Function.update s.start k false j = s.start j
    apply Function.update_of_ne
    rintro rfl
    have hj : s.failed j = false := hj
    rw [h j hthread] at hj
    cases hj
  · exact ⟨rfl, rfl, rfl, rfl, rfl, rfl, rfl, rfl, rfl, fun k hk => ⟨hk, rfl⟩⟩
  · exact ⟨rfl, rfl, rfl, rfl, rfl, rfl, rfl, rfl, rfl, fun k hk => ⟨hk, rfl⟩⟩
  · exact ⟨rfl, rfl, rfl, rfl, rfl, rfl, rfl, rfl, rfl, fun k hk => ⟨hk, rfl⟩⟩

theorem FailInv.thread (h : s.FailInv) (r : PrvSend) : (s.sendPrivateMgmtThread r).FailInv := by
  unfold FailInv sendPrivateMgmtThread
  split
  · exact nofun
  · split <;> exact nofun
  · split <;> exact nofun
  · split <;> exact nofun
  · next k _ =>
    cases k <;> split <;> exact nofun
  · next k _ =>
    cases r with
    | sent => cases k <;> exact nofun
    | dropped => cases k <;> exact nofun
    | failed =>
      intro j hj
      cases hj
      exact Function.update_self _ _ _
  · next k _ => cases k <;> exact nofun
  · exact nofun
  · exact nofun
  · exact h

def Leaving (s : PrvMgmt D) : Prop :=
  s.thread = .wait ∨ s.thread = .testStop ∨ s.thread = .shouldStop ∨ s.thread = .done

structure StopInv (s : PrvMgmt D) : Prop where
  stop : s.stop = s.uninit.stopped
  leaving : s.stop = true → s.Leaving
  woken : s.uninit = .join → s.thread = .wait → ∃ k, s.start k = true
  sent : ∀ k, s.sent k = 0

theorem StopInv.work (h : s.StopInv) (hm : WorkMove s t) (hC : (PrvAct.work : PrvAct D).InOrder s) : t.StopInv := by
  cases hm with
  | begin _ => exact ⟨h.stop, h.leaving, h.woken, h.sent⟩
  | finish _ _ => exact ⟨h.stop, h.leaving, h.woken, h.sent⟩
  | take _ _ => exact ⟨h.stop, h.leaving, h.woken, h.sent⟩
  | @clear r hs hr =>
    refine ⟨h.stop, h.leaving, fun hjoin hwait => ?_, h.sent⟩
    unfold PrvAct.InOrder at hC
    rw [hs] at hC
    have hother := hC hr hjoin hwait
    -- the flag of the other kind keeps the thread awake
    cases hk : r.pktType with
    | probeResp =>
      rw [hk] at hother
      exact ⟨.action, hother⟩
    | action =>
      rw [hk] at hother
      exact ⟨.probeResp, hother⟩
  | store _ _ => exact ⟨h.stop, h.leaving, h.woken, h.sent⟩
  | leave _ _ => exact ⟨h.stop, h.leaving, h.woken, h.sent⟩
  | goOn _ _ => exact ⟨h.stop, h.leaving, h.woken, h.sent⟩
  | @set r hs => exact ⟨h.stop, h.leaving, fun _ _ => ⟨r.pktType, Function.update_self _ _ _⟩, h.sent⟩
  | free _ => exact ⟨h.stop, h.leaving, h.woken, h.sent⟩

theorem Leaving.thread (h : s.Leaving) (hstop : s.stop = true) (r : PrvSend) :
    (s.sendPrivateMgmtThread r).Leaving ∧ (s.sendPrivateMgmtThread r).thread ≠ .wait ∧
      (s.sendPrivateMgmtThread r).sent = s.sent := by
  unfold sendPrivateMgmtThread
  rcases h with h | h | h | h
  · rw [h]
    exact ⟨.inr (.inl rfl), nofun, rfl⟩
  · rw [h]
    dsimp only
    rw [if_pos hstop]
    exact ⟨.inr (.inr (.inl rfl)), nofun, rfl⟩
  · rw [h]
    exact ⟨.inr (.inr (.inr rfl)), nofun, rfl⟩
  · rw [h]
    refine ⟨.inr (.inr (.inr h)), ?_, rfl⟩
    show s.thread ≠ .wait
    rw [h]
    exact nofun

theorem sent_thread (hstop : s.stop = false) (r : PrvSend) : (s.sendPrivateMgmtThread r).sent = s.sent := by
  unfold sendPrivateMgmtThread
  split
  · rfl
  · rfl
  · rfl
  · rfl
  · rfl
  · cases r with
    | sent =>
      show (if s.stop = true then _ else s.sent) = s.sent
      rw [if_neg (by simp [hstop])]
    | dropped => rfl
    | failed => rfl
  · rfl
  · rfl
  · rfl
  · rfl

theorem StopInv.thread (h : s.StopInv) (hf : s.FailInv) (r : PrvSend) : (s.sendPrivateMgmtThread r).StopInv := by
  have hmove := threadMove hf r
  have hstopped : (s.sendPrivateMgmtThread r).stop = (s.sendPrivateMgmtThread r).uninit.stopped := by
    rw [hmove.stop, hmove.uninit]
    exact h.stop
  cases hstop : s.stop with
  | false =>
    refine ⟨hstopped, fun ht => ?_, fun hjoin _ => ?_, ?_⟩
    · cases hstop.symm.trans (hmove.stop.symm.trans ht)
    · rw [hmove.uninit] at hjoin
      have hno := h.stop
      rw [hstop, hjoin] at hno
      cases hno
    · rw [sent_thread hstop r]
      exact h.sent
  | true =>
    obtain ⟨hleaving, hwait, hsent⟩ := (h.leaving hstop).thread hstop r
    refine ⟨hstopped, fun _ => hleaving, fun _ hw => absurd hw hwait, ?_⟩
    rw [hsent]
    exact h.sent

structure Inv (s : PrvMgmt D) : Prop where
  work : s.WorkInv
  counted : s.Counted
  applied : s.purged = false → ∃ done, s.Applied done
  fails : s.FailInv
  stops : s.StopInv

theorem Inv.start (frame : SpecialMgmt → D) : (prvMgmtStart frame).Inv where
  work := ⟨fun _ => rfl, nofun⟩
  counted := fun _ => rfl
  applied := fun _ => ⟨[], rfl, fun _ _ _ => rfl, nofun⟩
  fails := nofun
  stops := ⟨rfl, nofun, nofun, fun _ => rfl⟩

theorem WorkMove.same (h : WorkMove s t) : t.purged = s.purged ∧ t.thread = s.thread ∧ t.failed = s.failed := by
  cases h <;> exact ⟨rfl, rfl, rfl⟩

theorem Inv.workStep (h : s.Inv) (hC : (PrvAct.work : PrvAct D).InOrder s) : s.sendMgmtWorkControl.Inv := by
  have hm := workMove s
  obtain ⟨hpurged, hthread, hfailed⟩ := hm.same
  refine ⟨h.work.work hm, h.counted.work hm hC, fun hp => ?_, fun k hk => ?_, h.stops.work hm hC⟩
  · rw [hpurged] at hp
    obtain ⟨done, hdone⟩ := h.applied hp
    exact hdone.work h.work hm
  · rw [hthread] at hk
    rw [hfailed]
    exact h.fails k hk

theorem Inv.threadStep (h : s.Inv) (r : PrvSend) : (s.sendPrivateMgmtThread r).Inv := by
  have hmove := threadMove h.fails r
  refine ⟨⟨?_, ?_⟩, h.counted.same hmove.requests hmove.queued hmove.freed, fun hp => ?_, h.fails.thread r,
    h.stops.thread h.fails r⟩
  · rw [hmove.localList, hmove.skb]
    exact h.work.idle
  · rw [hmove.skb]
    exact h.work.start
  · rw [hmove.purged] at hp
    obtain ⟨done, hrequests, hflags, hframes⟩ := h.applied hp
    refine ⟨done, ?_, fun k hforced hfailed => ?_, ?_⟩
    · rw [hmove.requests, hmove.queued]
      exact hrequests
    · obtain ⟨hfailed, hstart⟩ := hmove.start k hfailed
      rw [hmove.uninit] at hforced
      unfold flagged
      rw [hstart, hmove.skb]
      exact hflags k hforced hfailed
    · unfold stored
      rw [hmove.skb, hmove.frame]
      exact hframes

theorem Inv.uninitStep (h : s.Inv) (hC : (PrvAct.uninit : PrvAct D).InOrder s) : s.sendPrivateMgmtUninit.Inv := by
  obtain ⟨hwork, hcounted, happlied, hfails, hstopped, hleaving, hwoken, hsent⟩ := h
  unfold sendPrivateMgmtUninit
  split
  · next hu =>
    rw [hu] at hstopped
    refine ⟨⟨hwork.idle, hwork.start⟩, hcounted, fun hp => ?_, hfails, ⟨hstopped, hleaving, nofun, hsent⟩⟩
    obtain ⟨done, hrequests, hflags, hframes⟩ := happlied hp
    exact ⟨done, hrequests, fun k _ => hflags k (by rw [hu]; rfl), hframes⟩
  · next hu =>
    rw [hu] at hstopped
    refine ⟨⟨hwork.idle, hwork.start⟩, hcounted, fun hp => ?_, hfails, ⟨hstopped, hleaving, nofun, hsent⟩⟩
    obtain ⟨done, hrequests, hflags, hframes⟩ := happlied hp
    exact ⟨done, hrequests, fun k _ => hflags k (by rw [hu]; rfl), hframes⟩
  · next hu =>
    split
    · rw [hu] at hstopped
      refine ⟨⟨hwork.idle, hwork.start⟩, hcounted, fun hp => ?_, hfails, ⟨hstopped, hleaving, nofun, hsent⟩⟩
      obtain ⟨done, hrequests, hflags, hframes⟩ := happlied hp
      exact ⟨done, hrequests, fun k _ => hflags k (by rw [hu]; rfl), hframes⟩
    · next r rs hqueue =>
      refine ⟨⟨hwork.idle, hwork.start⟩, hcounted.perm rfl ?_, nofun, hfails, ⟨hstopped, hleaving, hwoken, hsent⟩⟩
      -- the purged request goes from the head of the queue to the freed ones
      have hperm : ∀ pre : List (PrvRequest D),
          ((pre ++ rs).map (·.id) ++ (s.freed ++ [r.id])).Perm ((pre ++ r :: rs).map (·.id) ++ s.freed) := by
        intro pre
        rw [List.map_append, List.map_append, List.map_cons, List.append_assoc, List.append_assoc]
        apply List.Perm.append_left
        rw [← List.append_assoc]
        exact List.perm_append_singleton _ _
      have hqueued := hperm ((s.skb.map Prod.fst).toList ++ s.localList.getD [])
      rw [← hqueue] at hqueued
      exact hqueued
  · next hu =>
    refine ⟨⟨hwork.idle, hwork.start⟩, hcounted, fun hp => ?_, hfails, ⟨rfl, fun _ => ?_, nofun, hsent⟩⟩
    · obtain ⟨done, hrequests, hflags, hframes⟩ := happlied hp
      exact ⟨done, hrequests, fun k _ => hflags k (by rw [hu]; rfl), hframes⟩
    · rcases hC hu with hthread | hthread
      · exact .inl hthread
      · exact .inr (.inl hthread)
  · next hu =>
    rw [hu] at hstopped
    refine ⟨⟨hwork.idle, hwork.start⟩, hcounted, fun hp => ?_, hfails, ⟨hstopped, hleaving, nofun, hsent⟩⟩
    obtain ⟨done, hrequests, hflags, hframes⟩ := happlied hp
    refine ⟨done, hrequests, fun k hforced hfailed => ?_, hframes⟩
    have hk : k ≠ .probeResp := fun hk => by
      rw [hk] at hforced
      cases hforced
    show Function.update s.start .probeResp true k = _
    rw [Function.update_of_ne hk]
    exact hflags k (by rw [hu]; rfl) hfailed
  · next hu =>
    rw [hu] at hstopped
    refine ⟨⟨hwork.idle, hwork.start⟩, hcounted, fun hp => ?_, hfails, ⟨hstopped, hleaving, fun _ _ => ?_, hsent⟩⟩
    · obtain ⟨done, hrequests, -, hframes⟩ := happlied hp
      exact ⟨done, hrequests, nofun, hframes⟩
    · refine ⟨.action, ?_⟩
      show Function.update s.start .action true .action = true
      exact Function.update_self _ _ _
  · next hu =>
    rw [hu] at hstopped
    refine ⟨⟨hwork.idle, hwork.start⟩, hcounted, fun hp => ?_, hfails, ⟨hstopped, hleaving, nofun, hsent⟩⟩
    obtain ⟨done, hrequests, -, hframes⟩ := happlied hp
    exact ⟨done, hrequests, nofun, hframes⟩
  · exact ⟨hwork, hcounted, happlied, hfails, ⟨hstopped, hleaving, hwoken, hsent⟩⟩

theorem Inv.requestStep (h : s.Inv) (k : SpecialMgmt) (start : Bool) (data : D) :
    (s.queueRequest k start data).Inv := by
  refine ⟨⟨h.work.idle, h.work.start⟩, h.counted.request k start data, fun hp => ?_, h.fails,
    ⟨h.stops.stop, h.stops.leaving, h.stops.woken, h.stops.sent⟩⟩
  obtain ⟨done, hdone⟩ := h.applied hp
  exact ⟨done, hdone.request k start data⟩

theorem Inv.step (h : s.Inv) {a : PrvAct D} (hC : a.InOrder s) : (a.next s).Inv := by
  cases a with
  | request k start data => exact h.requestStep k start data
  | queueWork =>
    refine ⟨⟨h.work.idle, h.work.start⟩, h.counted, fun hp => ?_, h.fails,
      ⟨h.stops.stop, h.stops.leaving, h.stops.woken, h.stops.sent⟩⟩
    obtain ⟨done, hdone⟩ := h.applied hp
    exact ⟨done, hdone.requests, hdone.flags, hdone.frames⟩
  | work => exact h.workStep hC
  | thread r => exact h.threadStep r
  | uninit => exact h.uninitStep hC

theorem skb_none (h : s.queued = []) : s.skb = none := by
  unfold queued at h
  cases hs : s.skb with
  | none => rfl
  | some p =>
    rw [hs] at h
    cases h

theorem Inv.kept (h : s.Inv) : s.Kept where
  freed := h.counted
  flags := fun hp hq k hforced hfailed => by
    obtain ⟨done, hrequests, hflags, -⟩ := h.applied hp
    rw [hq, List.append_nil] at hrequests
    rw [hflags k hforced hfailed, hrequests]
    unfold flagged
    rw [skb_none hq, List.append_nil]
  frames := fun hp hq k r hr => by
    obtain ⟨done, hrequests, -, hframes⟩ := h.applied hp
    rw [hq, List.append_nil] at hrequests
    rw [hrequests] at hr
    unfold stored at hframes
    rw [skb_none hq, List.append_nil] at hframes
    exact hframes k r hr
  sent := fun _ k => by
    rw [h.stops.sent k]
    exact Nat.zero_le 1
  blocked := fun ⟨hjoin, hwait, hno⟩ => by
    obtain ⟨k, hk⟩ := h.stops.woken hjoin hwait
    cases hk.symm.trans (hno k)

/-- Steps of the thread alone take it to its end. -/
def Ends (s : PrvMgmt D) : Prop :=
  ∃ n, Fires (fun s a => a.Enabled s) PrvAct.next s (List.replicate n (.thread .sent)) ∧
    ((List.replicate n (.thread .sent)).foldl PrvAct.next s).thread = .done

theorem Ends.step (ha : (PrvAct.thread .sent : PrvAct D).Enabled s)
    (h : (s.sendPrivateMgmtThread .sent).Ends) : s.Ends := by
  obtain ⟨n, hfires, hdone⟩ := h
  exact ⟨n + 1, ⟨ha, hfires⟩, hdone⟩

theorem ends_shouldStop (hjoin : s.uninit = .join) (h : s.thread = .shouldStop) : s.Ends := by
  apply Ends.step
  · unfold PrvAct.Enabled
    rw [h]
    exact hjoin
  · refine ⟨0, trivial, ?_⟩
    unfold sendPrivateMgmtThread
    rw [h]
    rfl

theorem ends_testStop (hjoin : s.uninit = .join) (hstop : s.stop = true) (h : s.thread = .testStop) : s.Ends := by
  have hnext : s.sendPrivateMgmtThread .sent = { s with thread := .shouldStop } := by
    unfold sendPrivateMgmtThread
    rw [h]
    dsimp only
    rw [if_pos hstop]
  apply Ends.step
  · unfold PrvAct.Enabled
    rw [h]
    trivial
  · rw [hnext]
    exact ends_shouldStop hjoin rfl

theorem Inv.ends (h : s.Inv) (hjoin : s.uninit = .join) : s.Ends := by
  have hstop : s.stop = true := by
    rw [h.stops.stop, hjoin]
    rfl
  rcases h.stops.leaving hstop with hthread | hthread | hthread | hthread
  · have hnext : s.sendPrivateMgmtThread .sent = { s with thread := .testStop } := by
      unfold sendPrivateMgmtThread
      rw [hthread]
    apply Ends.step
    · unfold PrvAct.Enabled
      rw [hthread]
      obtain ⟨k, hk⟩ := h.stops.woken hjoin hthread
      cases k with
      | probeResp => exact .inl hk
      | action => exact .inr hk
    · rw [hnext]
      exact ends_testStop hjoin hstop rfl
  · exact ends_testStop hjoin hstop hthread
  · exact ends_shouldStop hjoin hthread
  · exact ⟨0, trivial, hthread⟩

end PrvMgmt

/-- What a run whose steps are in order keeps; `kthread_stop` comes to an end whenever it is called. -/
theorem prvMgmt_kept {frame : SpecialMgmt → D} {l : List (PrvMgmt D × PrvAct D)} {t : PrvMgmt D}
    (h : Path (prvMgmts D) (prvMgmtStart frame) l t) (hC : ∀ p ∈ l, p.2.InOrder p.1) :
    t.Kept ∧ (t.uninit = .join → t.Ends) := by
  have hinv : t.Inv := by
    apply h.keep (C := fun s a => a.InOrder s) (I := PrvMgmt.Inv)
    · rintro s a _ hI ⟨-, rfl⟩ hC
      exact hI.step hC
    · exact hC
    · exact .start frame
  exact ⟨hinv.kept, hinv.ends⟩

theorem prvMgmt_kept_stopped :
    let acts : List (PrvAct Nat) := [.request .action true 5, .queueWork, .work, .work, .work, .work, .work, .work,
      .thread .sent, .thread .sent, .thread .sent, .thread .sent, .thread .sent, .thread .sent, .thread .sent,
      .thread .sent, .work, .request .action false 0, .queueWork, .work, .work, .work, .work, .work, .thread .sent,
      .thread .sent, .uninit, .uninit, .uninit, .uninit, .uninit, .uninit, .thread .sent]
    (acts.foldl PrvAct.next (prvMgmtStart fun _ => 0)).Kept ∧
      ((acts.foldl PrvAct.next (prvMgmtStart fun _ => 0)).uninit = .join →
        (acts.foldl PrvAct.next (prvMgmtStart fun _ => 0)).Ends) ∧
      (acts.foldl PrvAct.next (prvMgmtStart fun _ => 0)).uninit = .join := by
  intro acts
  have hfires : Fires (fun s a => a.Enabled s) PrvAct.next (prvMgmtStart fun _ => 0) acts := by decide
  obtain ⟨hkept, hends⟩ := prvMgmt_kept (Path.ofFires hfires) (by decide)
  exact ⟨hkept, hends, by decide⟩

/-- The second of two starts of a kind is not freed. -/
theorem prvMgmt_leaks :
    ∃ l t, Path (prvMgmts Nat) (prvMgmtStart fun _ => 0) l t ∧ ¬t.Kept := by
  have hfires : Fires (fun s a => a.Enabled s) PrvAct.next (prvMgmtStart fun _ => 0)
      ([.request .probeResp true 1, .request .probeResp true 2, .queueWork, .work, .work, .work, .work, .work, .work,
        .work, .work, .work, .work] : List (PrvAct Nat)) := by decide
  refine ⟨_, _, Path.ofFires hfires, fun h => ?_⟩
  exact absurd (h.freed 1) (by decide)

end AtbmWifi
