import AtbmWifi.Lib.Transition

/-!
# The status events of the BLE ioctl device

`atbm_ioctl_notify_add` puts an event on `s_status_head`, `atbm_ioctl_read` hands one out.  Both make their test before
they take the lock, and a read drops it while it copies.  A section with the lock is one step.

`queued`, `delivered` and `freed` are history: no step looks at them.
-/

namespace AtbmWifi

open Transition

def maxStatusSyncLsitCnt : Int := 32

structure StatusAsync where
  type : UInt8
  driverMode : UInt8
  listEmpty : UInt8
  eventBuffer : List UInt8
  deriving DecidableEq, Repr

namespace StatusAsync

def maxSyncEventBufferLen : Nat := 512

/-- `sizeof(struct status_async)` -/
def size : Nat := 3 + maxSyncEventBufferLen

/-- What its sender put into it: all but `list_empty`, which each read sets. -/
def body (d : StatusAsync) : UInt8 × UInt8 × List UInt8 := (d.type, d.driverMode, d.eventBuffer)

end StatusAsync

structure StatusEvent where
  id : Nat
  status : StatusAsync
  deriving DecidableEq, Repr

def StatusEvent.body (e : StatusEvent) : Nat × UInt8 × UInt8 × List UInt8 := (e.id, e.status.body)

inductive StatusThread
  | idle
  /-- `atbm_ioctl_notify_add`, its event to be put on the list -/
  | add (status : StatusAsync)
  /-- `atbm_ioctl_read` past its test -/
  | fetch
  /-- with an event; `none` is the head of the list, taken for the link of one -/
  | copy (event : Option Nat)
  /-- with what was copied to the user, if that succeeded -/
  | remove (event : Option Nat) (copied : Option StatusAsync)
  deriving DecidableEq, Repr

structure StatusQueue where
  statusHead : List StatusEvent
  curStatusListCnt : Int
  threads : List StatusThread
  /-- all events put on the list -/
  queued : List StatusEvent
  /-- events with what a read that succeeded has copied -/
  delivered : List StatusEvent
  freed : List Nat
  deriving DecidableEq, Repr

namespace StatusQueue

def setThread (s : StatusQueue) (i : Nat) (t : StatusThread) : StatusQueue := { s with threads := s.threads.set i t }

def ids (s : StatusQueue) : List Nat := s.statusHead.map StatusEvent.id

/-- `atbm_ioctl_notify_add` up to the lock: the event, or what is returned.  The bytes of `event_buffer` after `event_len`
are those of `atbm_kzalloc`. -/
def atbmIoctlNotifyAdd (s : StatusQueue) (type driverMode : UInt8) (eventBuffer : Option (List UInt8))
    (eventLen : UInt16) (alloc : Bool) : Except Int StatusAsync :=
  if maxStatusSyncLsitCnt ≤ s.curStatusListCnt then .error 1
  else if StatusAsync.maxSyncEventBufferLen < eventLen.toNat then .error (-1)
  else if alloc = false then .error (-1)
  else
    let bytes := (eventBuffer.getD []).take eventLen.toNat
    .ok ⟨type, driverMode, 0, bytes ++ List.replicate (StatusAsync.maxSyncEventBufferLen - bytes.length) 0⟩

/-- The locked section of `atbm_ioctl_notify_add`. -/
def addStatus (s : StatusQueue) (status : StatusAsync) : StatusQueue :=
  let event := ⟨s.queued.length, status⟩
  { s with
    statusHead := s.statusHead ++ [event]
    curStatusListCnt := s.curStatusListCnt + 1
    queued := s.queued ++ [event] }

def atbmIoctlRead (s : StatusQueue) (len : Nat) : Except Int Unit :=
  if len < StatusAsync.size then .error (-1)
  else if s.statusHead = [] then .error (-1)
  else .ok ()

/-- The first locked section of `atbm_ioctl_read`.  `list_first_entry` of an empty list is not `NULL`. -/
def fetchStatus (s : StatusQueue) : StatusQueue × Option Nat :=
  match s.statusHead with
  | [] => (s, none)
  | e :: es =>
    let e := { e with status := { e.status with listEmpty := if 2 ≤ s.curStatusListCnt then 0 else 1 } }
    ({ s with statusHead := e :: es }, some e.id)

/-- What `copy_to_user` reads: the event, or what is now at its address. -/
def statusAt (s : StatusQueue) (event : Option Nat) (stale : StatusAsync) : StatusAsync :=
  match s.statusHead.find? fun e => event = some e.id with
  | some e => e.status
  | none => stale

/-- The second locked section of `atbm_ioctl_read`: `list_del`, `atbm_kfree` and the count. -/
def removeStatus (s : StatusQueue) (event : Option Nat) : Option StatusAsync → StatusQueue
  | none => s
  | some copied =>
    match event with
    | none => { s with curStatusListCnt := s.curStatusListCnt - 1 }
    | some id =>
      { s with
        statusHead := s.statusHead.filter fun e => e.id ≠ id
        curStatusListCnt := s.curStatusListCnt - 1
        delivered := s.delivered ++ [⟨id, copied⟩]
        freed := s.freed ++ [id] }

/-- The next section of the call thread `i` is in. -/
def go (s : StatusQueue) (i : Nat) (copied : Bool) (stale : StatusAsync) : StatusQueue :=
  match s.threads[i]? with
  | some (.add status) => (s.addStatus status).setThread i .idle
  | some .fetch => s.fetchStatus.1.setThread i (.copy s.fetchStatus.2)
  | some (.copy event) =>
    s.setThread i (.remove event (if copied = true then some (s.statusAt event stale) else none))
  | some (.remove event copied) => (s.removeStatus event copied).setThread i .idle
  | some .idle | none => s

end StatusQueue

inductive StatusAct
  | notifyAdd (i : Nat) (type driverMode : UInt8) (eventBuffer : Option (List UInt8)) (eventLen : UInt16) (alloc : Bool)
  | read (i : Nat) (len : Nat)
  /-- the call goes on; whether `copy_to_user` succeeds, and what it finds in memory that was freed -/
  | go (i : Nat) (copied : Bool) (stale : StatusAsync)
  deriving DecidableEq, Repr

namespace StatusAct

def Enabled (s : StatusQueue) : StatusAct → Prop
  | notifyAdd i .. | read i _ => s.threads[i]? = some .idle
  | go i _ _ => s.threads[i]? ≠ none ∧ s.threads[i]? ≠ some .idle

def next (s : StatusQueue) : StatusAct → StatusQueue
  | notifyAdd i type driverMode eventBuffer eventLen alloc =>
    match s.atbmIoctlNotifyAdd type driverMode eventBuffer eventLen alloc with
    | .ok status => s.setThread i (.add status)
    | .error _ => s
  | read i len =>
    match s.atbmIoctlRead len with
    | .ok () => s.setThread i .fetch
    | .error _ => s
  | go i copied stale => s.go i copied stale

/-- When a thread has the lock, the list is not full, not empty, or still has its event. -/
def InTurn (s : StatusQueue) : StatusAct → Prop
  | notifyAdd .. | read .. => True
  | go i _ _ =>
    match s.threads[i]? with
    | some (.add _) => s.curStatusListCnt < maxStatusSyncLsitCnt
    | some .fetch => s.statusHead ≠ []
    | some (.remove event (some _)) => ∃ id ∈ event, id ∈ s.ids
    | _ => True

instance decEnabled (s : StatusQueue) (a : StatusAct) : Decidable (a.Enabled s) := by
  unfold Enabled
  split
  · infer_instance
  · infer_instance
  · infer_instance

instance decInTurn (s : StatusQueue) (a : StatusAct) : Decidable (a.InTurn s) := by
  unfold InTurn
  split
  · infer_instance
  · infer_instance
  · split <;> infer_instance

end StatusAct

/-- After `atbm_ioctl_add`, with `n` threads. -/
def statusQueueStart (n : Nat) : StatusQueue := ⟨[], 0, List.replicate n .idle, [], [], []⟩

def statusQueues : Sys StatusQueue StatusAct :=
  .ofNext (fun s => ∃ n, s = statusQueueStart n) (fun s a => a.Enabled s) StatusAct.next

namespace StatusQueue

/-- The thread has an event that was on the list when it took it. -/
def HoldsEvent : StatusThread → Prop
  | .copy event | .remove event _ => event ≠ none
  | _ => True

/-- The count is right, no thread has an event of an empty list, no event is freed twice, and the events, in order, are
those that were delivered and those on the list. -/
structure Intact (s : StatusQueue) : Prop where
  count : s.curStatusListCnt = s.statusHead.length
  bound : s.curStatusListCnt ≤ maxStatusSyncLsitCnt
  held : ∀ t ∈ s.threads, HoldsEvent t
  once : s.freed.Nodup
  freed : s.freed = s.delivered.map StatusEvent.id
  inOrder : (s.delivered ++ s.statusHead).map StatusEvent.body = s.queued.map StatusEvent.body

def Pending (s : StatusQueue) : StatusThread → Prop
  | .copy (some id) => id < s.queued.length ∧ (id ∈ s.ids → s.ids.head? = some id)
  | .remove (some id) copied =>
    id < s.queued.length ∧ (id ∈ s.ids → s.ids.head? = some id) ∧
      ∀ d ∈ copied, ∀ e ∈ s.statusHead, e.id = id → d.body = e.status.body
  | _ => True

/-- Events are numbered in the order they are queued, and a thread that has one on the list has its head. -/
structure Inv (s : StatusQueue) : Prop where
  numbers : s.queued.map StatusEvent.id = List.range s.queued.length
  pending : ∀ t ∈ s.threads, s.Pending t

variable {s : StatusQueue} {i : Nat} {t : StatusThread}

theorem Intact.ids_eq (h : s.Intact) (hI : s.Inv) :
    s.delivered.map StatusEvent.id ++ s.ids = List.range s.queued.length := by
  have hids := congrArg (List.map Prod.fst) h.inOrder
  rw [List.map_map, List.map_map, List.map_append] at hids
  rw [← hI.numbers]
  exact hids

theorem Intact.ids_nodup (h : s.Intact) (hI : s.Inv) : (s.delivered.map StatusEvent.id ++ s.ids).Nodup := by
  rw [h.ids_eq hI]
  exact List.nodup_range

theorem forall_setThread {P : StatusThread → Prop} (h : ∀ u ∈ s.threads, P u) (ht : P t) :
    ∀ u ∈ (s.setThread i t).threads, P u := by
  intro u hu
  rcases List.mem_or_eq_of_mem_set hu with hu | rfl
  · exact h u hu
  · exact ht

theorem Intact.setThread (h : s.Intact) (ht : HoldsEvent t) : (s.setThread i t).Intact where
  count := h.count
  bound := h.bound
  held := forall_setThread h.held ht
  once := h.once
  freed := h.freed
  inOrder := h.inOrder

theorem Inv.setThread (h : s.Inv) (ht : s.Pending t) : (s.setThread i t).Inv where
  numbers := h.numbers
  pending := forall_setThread (fun u hu => h.pending u hu) ht

theorem Inv.of_pending (h : s.Inv) (s' : StatusQueue) (hthreads : s'.threads = s.threads)
    (hnumbers : s'.queued.map StatusEvent.id = List.range s'.queued.length)
    (hp : ∀ u, s.Pending u → s'.Pending u) : s'.Inv where
  numbers := hnumbers
  pending u hu := hp u (h.pending u (by rw [← hthreads]; exact hu))

variable {d stale : StatusAsync} {id : Nat} {copied : Bool}

theorem Intact.addStatus (h : s.Intact) (hlt : s.curStatusListCnt < maxStatusSyncLsitCnt) : (s.addStatus d).Intact where
  count := by
    show s.curStatusListCnt + 1 = ((s.statusHead ++ [_]).length : Int)
    rw [List.length_append, List.length_singleton, h.count]
    rfl
  bound := by
    show s.curStatusListCnt + 1 ≤ maxStatusSyncLsitCnt
    omega
  held := h.held
  once := h.once
  freed := h.freed
  inOrder := by
    show (s.delivered ++ (s.statusHead ++ [_])).map StatusEvent.body = (s.queued ++ [_]).map StatusEvent.body
    rw [← List.append_assoc, List.map_append, h.inOrder, ← List.map_append]

theorem Inv.addStatus (h : s.Inv) : (s.addStatus d).Inv := by
  have hids : (s.addStatus d).ids = s.ids ++ [s.queued.length] := List.map_append
  have hlength : (s.addStatus d).queued.length = s.queued.length + 1 := List.length_append
  -- an event that is not on the list does not come back with the new one
  have hhead : ∀ id, id < s.queued.length → (id ∈ s.ids → s.ids.head? = some id) →
      id ∈ (s.addStatus d).ids → (s.addStatus d).ids.head? = some id := by
    intro id hlt hfirst hmem
    rw [hids] at hmem ⊢
    rcases List.mem_append.mp hmem with hmem | hmem
    · rw [List.head?_append, hfirst hmem]
      rfl
    · have := List.mem_singleton.mp hmem
      omega
  apply h.of_pending (s.addStatus d) rfl
  · show (s.queued ++ [_]).map StatusEvent.id = _
    rw [List.map_append, h.numbers, hlength, List.range_succ]
    rfl
  · intro u hu
    match u with
    | .idle | .add _ | .fetch | .copy none | .remove none _ => trivial
    | .copy (some id) =>
      obtain ⟨hlt, hfirst⟩ := hu
      exact ⟨by omega, hhead id hlt hfirst⟩
    | .remove (some id) copied =>
      obtain ⟨hlt, hfirst, hbody⟩ := hu
      refine ⟨by omega, hhead id hlt hfirst, ?_⟩
      intro c hc e he hid
      rcases List.mem_append.mp he with he | he
      · exact hbody c hc e he hid
      · obtain rfl := List.mem_singleton.mp he
        exact absurd hid (Nat.ne_of_gt hlt)

theorem fetchStatus_ids : s.fetchStatus.1.ids = s.ids := by
  unfold fetchStatus ids
  cases h : s.statusHead with
  | nil => exact congrArg _ h
  | cons e es => rfl

theorem fetchStatus_bodies : s.fetchStatus.1.statusHead.map StatusEvent.body = s.statusHead.map StatusEvent.body := by
  unfold fetchStatus
  cases h : s.statusHead with
  | nil => exact congrArg _ h
  | cons e es => rfl

theorem fetchStatus_length : s.fetchStatus.1.statusHead.length = s.statusHead.length := by
  have := congrArg List.length s.fetchStatus_ids
  rwa [ids, ids, List.length_map, List.length_map] at this

theorem fetchStatus_threads : s.fetchStatus.1.threads = s.threads := by
  unfold fetchStatus
  split <;> rfl

theorem fetchStatus_queued : s.fetchStatus.1.queued = s.queued := by
  unfold fetchStatus
  split <;> rfl

theorem fetchStatus_count : s.fetchStatus.1.curStatusListCnt = s.curStatusListCnt := by
  unfold fetchStatus
  split <;> rfl

theorem fetchStatus_history :
    s.fetchStatus.1.delivered = s.delivered ∧ s.fetchStatus.1.freed = s.freed := by
  unfold fetchStatus
  split <;> exact ⟨rfl, rfl⟩

theorem Intact.fetchStatus (h : s.Intact) : s.fetchStatus.1.Intact where
  count := by rw [fetchStatus_count, fetchStatus_length, h.count]
  bound := by rw [fetchStatus_count]; exact h.bound
  held := by rw [fetchStatus_threads]; exact h.held
  once := by rw [fetchStatus_history.2]; exact h.once
  freed := by rw [fetchStatus_history.1, fetchStatus_history.2]; exact h.freed
  inOrder := by
    rw [fetchStatus_history.1, fetchStatus_queued, List.map_append, fetchStatus_bodies, ← List.map_append]
    exact h.inOrder

theorem Inv.fetchStatus (h : s.Inv) : s.fetchStatus.1.Inv := by
  apply h.of_pending _ fetchStatus_threads
  · rw [fetchStatus_queued]
    exact h.numbers
  · intro u hu
    match u with
    | .idle | .add _ | .fetch | .copy none | .remove none _ => trivial
    | .copy (some id) =>
      refine ⟨by rw [fetchStatus_queued]; exact hu.1, ?_⟩
      rw [fetchStatus_ids]
      exact hu.2
    | .remove (some id) copied =>
      obtain ⟨hlt, hfirst, hbody⟩ := hu
      refine ⟨by rw [fetchStatus_queued]; exact hlt, by rw [fetchStatus_ids]; exact hfirst, ?_⟩
      intro c hc e he hid
      -- the event was on the list with the same body
      have hmem : e.body ∈ s.statusHead.map StatusEvent.body := by
        rw [← fetchStatus_bodies]
        exact List.mem_map_of_mem he
      obtain ⟨e', he', hsame⟩ := List.mem_map.mp hmem
      rw [hbody c hc e' he' ((congrArg Prod.fst hsame).trans hid)]
      exact congrArg Prod.snd hsame

theorem fetchStatus_pending (h : s.Intact) (hI : s.Inv) (hne : s.statusHead ≠ []) :
    ∃ id, s.fetchStatus.2 = some id ∧ s.fetchStatus.1.Pending (.copy (some id)) := by
  obtain ⟨e, es, hlist⟩ := List.exists_cons_of_ne_nil hne
  have hids : s.ids = e.id :: es.map StatusEvent.id := by rw [ids, hlist]; rfl
  refine ⟨e.id, by unfold StatusQueue.fetchStatus; rw [hlist], ?_, ?_⟩
  · have hmem : e.id ∈ List.range s.queued.length := by
      rw [← h.ids_eq hI, hids]
      exact List.mem_append_right _ List.mem_cons_self
    rw [fetchStatus_queued]
    exact List.mem_range.mp hmem
  · intro _
    rw [fetchStatus_ids, hids]
    rfl

theorem head_of_pending (hmem : id ∈ s.ids) (hfirst : id ∈ s.ids → s.ids.head? = some id) :
    ∃ e es, s.statusHead = e :: es ∧ e.id = id := by
  have hhead := hfirst hmem
  unfold ids at hhead
  cases hlist : s.statusHead with
  | nil => rw [hlist] at hhead; cases hhead
  | cons e es =>
    rw [hlist] at hhead
    exact ⟨e, es, rfl, Option.some.inj hhead⟩

theorem removeStatus_head {e : StatusEvent} {es : List StatusEvent} (hlist : s.statusHead = e :: es)
    (hnodup : s.ids.Nodup) : (s.removeStatus (some e.id) (some d)).statusHead = es := by
  rw [ids, hlist, List.map_cons, List.nodup_cons] at hnodup
  show s.statusHead.filter (fun x => x.id ≠ e.id) = es
  rw [hlist, List.filter_cons_of_neg (by simp), List.filter_eq_self]
  intro x hx
  apply decide_eq_true
  intro hid
  exact hnodup.1 (List.mem_map.mpr ⟨x, hx, hid⟩)

theorem Intact.removeStatus (h : s.Intact) (hI : s.Inv)
    (hp : s.Pending (.remove (some id) (some d))) (hmem : id ∈ s.ids) :
    (s.removeStatus (some id) (some d)).Intact := by
  obtain ⟨-, hfirst, hbody⟩ := hp
  obtain ⟨e, es, hlist, rfl⟩ := head_of_pending hmem hfirst
  have hnodup := h.ids_nodup hI
  have hhead := removeStatus_head (d := d) hlist (List.nodup_append.mp hnodup).2.1
  have hsame : d.body = e.status.body := hbody d rfl e (by rw [hlist]; exact List.mem_cons_self) rfl
  constructor
  · show s.curStatusListCnt - 1 = _
    rw [hhead, h.count, hlist, List.length_cons]
    omega
  · show s.curStatusListCnt - 1 ≤ _
    have := h.bound
    omega
  · exact h.held
  · -- it was not delivered before
    show (s.freed ++ [e.id]).Nodup
    rw [h.freed]
    rw [ids, hlist, List.map_cons] at hnodup
    exact hnodup.sublist ((List.Sublist.refl _).append (List.singleton_sublist.mpr List.mem_cons_self))
  · show s.freed ++ [e.id] = (s.delivered ++ [_]).map StatusEvent.id
    rw [h.freed, List.map_append]
    rfl
  · rw [hhead]
    show ((s.delivered ++ [(⟨e.id, d⟩ : StatusEvent)]) ++ es).map StatusEvent.body = s.queued.map StatusEvent.body
    have hbodies : StatusEvent.body ⟨e.id, d⟩ = e.body := Prod.ext rfl hsame
    rw [← h.inOrder, hlist, List.append_assoc, List.map_append, List.map_append, List.map_append, List.map_cons,
      hbodies]
    rfl

theorem Inv.removeStatus (h : s.Inv) (hi : s.Intact) (hp : s.Pending (.remove (some id) (some d))) (hmem : id ∈ s.ids) :
    (s.removeStatus (some id) (some d)).Inv := by
  obtain ⟨e, es, hlist, rfl⟩ := head_of_pending hmem hp.2.1
  have hnodup : s.ids.Nodup := (List.nodup_append.mp (hi.ids_nodup h)).2.1
  have hhead := removeStatus_head (d := d) hlist hnodup
  have hids : (s.removeStatus (some e.id) (some d)).ids = es.map StatusEvent.id := by rw [ids, hhead]
  -- what another thread has is the event that goes, or gone already
  have hgone : ∀ id', (id' ∈ s.ids → s.ids.head? = some id') → id' ∉ es.map StatusEvent.id := by
    intro id' hfirst hmem'
    have hmem : id' ∈ s.ids := by rw [ids, hlist]; exact List.mem_cons_of_mem _ hmem'
    have hfirst := hfirst hmem
    rw [ids, hlist, List.map_cons, List.nodup_cons] at hnodup
    rw [ids, hlist] at hfirst
    exact hnodup.1 (by rw [Option.some.inj hfirst]; exact hmem')
  apply h.of_pending (s.removeStatus (some e.id) (some d)) rfl h.numbers
  intro u hu
  match u with
  | .idle | .add _ | .fetch | .copy none | .remove none _ => trivial
  | .copy (some id') =>
    refine ⟨hu.1, fun hmem' => ?_⟩
    rw [hids] at hmem'
    exact absurd hmem' (hgone id' hu.2)
  | .remove (some id') copied =>
    refine ⟨hu.1, fun hmem' => ?_, fun c hc x hx hid => ?_⟩
    · rw [hids] at hmem'
      exact absurd hmem' (hgone id' hu.2.1)
    · rw [hhead] at hx
      exact hu.2.2 c hc x (by rw [hlist]; exact List.mem_cons_of_mem _ hx) hid

theorem pending_of_thread (hI : s.Inv) (hi : s.threads[i]? = some t) : s.Pending t :=
  hI.pending t (List.mem_of_getElem? hi)

theorem pending_copied (h : s.Intact) (hI : s.Inv) (hp : s.Pending (.copy (some id))) :
    s.Pending (.remove (some id) (if copied = true then some (s.statusAt (some id) stale) else none)) := by
  refine ⟨hp.1, hp.2, ?_⟩
  intro d hd e he hid
  cases copied with
  | false => cases hd
  | true =>
    obtain rfl : s.statusAt (some id) stale = d := Option.some.inj hd
    obtain ⟨x, xs, hlist, hx⟩ := head_of_pending (List.mem_map.mpr ⟨e, he, hid⟩) hp.2
    have hat : s.statusAt (some id) stale = x.status := by
      unfold statusAt
      rw [hlist, List.find?_cons_of_pos (by rw [hx]; exact decide_eq_true rfl)]
    -- the numbers on the list are all different
    have hnodup := (List.nodup_append.mp (h.ids_nodup hI)).2.1
    rw [ids, hlist, List.map_cons, List.nodup_cons] at hnodup
    rw [hat]
    rw [hlist] at he
    rcases List.mem_cons.mp he with rfl | he
    · rfl
    · exact absurd (List.mem_map.mpr ⟨e, he, hid.trans hx.symm⟩) hnodup.1

theorem go_keeps (h : s.Intact) (hI : s.Inv)
    (hC : (StatusAct.go i copied stale).InTurn s) : (s.go i copied stale).Inv ∧ (s.go i copied stale).Intact := by
  unfold StatusAct.InTurn at hC
  unfold go
  cases hi : s.threads[i]? with
  | none => exact ⟨hI, h⟩
  | some t =>
    have hp := pending_of_thread hI hi
    have hheld := h.held t (List.mem_of_getElem? hi)
    simp only [hi] at hC
    cases t with
    | idle => exact ⟨hI, h⟩
    | add d => exact ⟨hI.addStatus.setThread trivial, (h.addStatus hC).setThread trivial⟩
    | fetch =>
      obtain ⟨id, hid, hpending⟩ := fetchStatus_pending h hI hC
      dsimp only
      rw [hid]
      refine ⟨hI.fetchStatus.setThread hpending, h.fetchStatus.setThread ?_⟩
      exact Option.some_ne_none id
    | copy event =>
      obtain ⟨id, rfl⟩ := Option.ne_none_iff_exists'.mp hheld
      exact ⟨hI.setThread (pending_copied h hI hp), h.setThread hheld⟩
    | remove event d =>
      obtain ⟨id, rfl⟩ := Option.ne_none_iff_exists'.mp hheld
      cases d with
      | none => exact ⟨hI.setThread trivial, h.setThread trivial⟩
      | some d =>
        obtain ⟨id', hid', hmem⟩ := hC
        obtain rfl := Option.some.inj hid'
        exact ⟨(hI.removeStatus h hp hmem).setThread trivial, (h.removeStatus hI hp hmem).setThread trivial⟩

theorem next_keeps (h : s.Intact) (hI : s.Inv) {a : StatusAct} (hC : a.InTurn s) : (a.next s).Inv ∧ (a.next s).Intact := by
  cases a with
  | notifyAdd i type driverMode eventBuffer eventLen alloc =>
    dsimp only [StatusAct.next]
    split
    · exact ⟨hI.setThread trivial, h.setThread trivial⟩
    · exact ⟨hI, h⟩
  | read i len =>
    dsimp only [StatusAct.next]
    split
    · exact ⟨hI.setThread trivial, h.setThread trivial⟩
    · exact ⟨hI, h⟩
  | go i copied stale => exact go_keeps h hI hC

theorem removed_twice (h : s.Intact) (hI : s.Inv) (hlt : id < s.queued.length)
    (hmem : id ∉ s.ids) : ¬(s.removeStatus (some id) (some d)).freed.Nodup := by
  have hdelivered : id ∈ s.delivered.map StatusEvent.id := by
    have hrange : id ∈ List.range s.queued.length := List.mem_range.mpr hlt
    rw [← h.ids_eq hI] at hrange
    exact (List.mem_append.mp hrange).resolve_right hmem
  intro hnodup
  rw [← h.freed] at hdelivered
  exact (List.nodup_append.mp hnodup).2.2 id hdelivered id List.mem_cons_self rfl

theorem go_loses (h : s.Intact) (hI : s.Inv)
    (ht : (s.go i copied stale).Intact) : (StatusAct.go i copied stale).InTurn s := by
  unfold StatusAct.InTurn
  dsimp only
  cases hi : s.threads[i]? with
  | none => trivial
  | some t =>
    have hlt : i < s.threads.length := (List.getElem?_eq_some_iff.mp hi).1
    have hp := pending_of_thread hI hi
    have hheld := h.held t (List.mem_of_getElem? hi)
    simp only [go, hi] at ht
    cases t with
    | idle | copy => trivial
    | add d =>
      have hbound : s.curStatusListCnt + 1 ≤ maxStatusSyncLsitCnt := ht.bound
      show s.curStatusListCnt < maxStatusSyncLsitCnt
      omega
    | fetch =>
      intro hempty
      -- the thread would have the head of the list for an event
      have hfetch : s.fetchStatus = (s, none) := by unfold StatusQueue.fetchStatus; rw [hempty]
      dsimp only at ht
      rw [hfetch] at ht
      exact ht.held (.copy none) (List.mem_of_getElem? (List.getElem?_set_self hlt)) rfl
    | remove event d =>
      obtain ⟨id, rfl⟩ := Option.ne_none_iff_exists'.mp hheld
      cases d with
      | none => trivial
      | some d =>
        refine ⟨id, rfl, Decidable.byContradiction fun hmem => ?_⟩
        exact removed_twice (d := d) h hI hp.1 hmem ht.once

theorem next_loses (h : s.Intact) (hI : s.Inv) {a : StatusAct} (ht : (a.next s).Intact) : a.InTurn s := by
  cases a with
  | notifyAdd => trivial
  | read => trivial
  | go i copied stale => exact go_loses h hI ht

theorem start_intact (n : Nat) : (statusQueueStart n).Intact where
  count := rfl
  bound := by
    show (0 : Int) ≤ maxStatusSyncLsitCnt
    decide
  held t ht := by
    obtain rfl := List.eq_of_mem_replicate ht
    trivial
  once := List.nodup_nil
  freed := rfl
  inOrder := rfl

theorem start_inv (n : Nat) : (statusQueueStart n).Inv where
  numbers := rfl
  pending t ht := by
    obtain rfl := List.eq_of_mem_replicate ht
    trivial

theorem go_failed {event : Option Nat} (hi : s.threads[i]? = some (.remove event none)) (copied : Bool)
    (stale : StatusAsync) : s.go i copied stale = s.setThread i .idle := by
  unfold go
  rw [hi]
  rfl

end StatusQueue

/-- Every state of a run is intact exactly when every step is in turn; and a read whose copy failed leaves the list. -/
theorem statusQueue_intact {n : Nat} {l : List (StatusQueue × StatusAct)} {t : StatusQueue}
    (h : Path statusQueues (statusQueueStart n) l t) :
    (((∀ p ∈ l, p.1.Intact) ∧ t.Intact) ↔ ∀ p ∈ l, p.2.InTurn p.1) ∧
      ∀ (s : StatusQueue) (i : Nat) (event : Option Nat) (copied : Bool) (stale : StatusAsync),
        s.threads[i]? = some (.remove event none) →
          (StatusAct.next s (.go i copied stale)).statusHead = s.statusHead ∧
            (StatusAct.next s (.go i copied stale)).freed = s.freed := by
  constructor
  · apply h.exact (I := StatusQueue.Inv)
    · rintro s a _ hI hP ⟨-, rfl⟩ hC
      exact StatusQueue.next_keeps hP hI hC
    · rintro s a _ hI hP ⟨-, rfl⟩ ht
      exact StatusQueue.next_loses hP hI ht
    · exact StatusQueue.start_inv n
    · exact StatusQueue.start_intact n
  · intro s i event copied stale hi
    have hgo : StatusAct.next s (.go i copied stale) = s.setThread i .idle := StatusQueue.go_failed hi copied stale
    rw [hgo]
    exact ⟨rfl, rfl⟩

theorem statusQueue_intact_inTurn :
    let garbage : StatusAsync := ⟨0, 0, 0, []⟩
    let acts : List StatusAct := [.notifyAdd 0 0 0 (some [7]) 1 true, .go 0 true garbage, .notifyAdd 1 1 0 none 0 true,
      .go 1 true garbage, .read 0 515, .go 0 true garbage, .go 0 false garbage, .go 0 true garbage, .read 1 515,
      .go 1 true garbage, .go 1 true garbage, .go 1 true garbage, .read 0 600, .go 0 true garbage, .go 0 true garbage,
      .go 0 true garbage]
    (∀ p ∈ trace StatusAct.next (statusQueueStart 2) acts, p.1.Intact) ∧
      (acts.foldl StatusAct.next (statusQueueStart 2)).freed = [0, 1] := by
  intro garbage acts
  have hfires : Fires (fun s a => a.Enabled s) StatusAct.next (statusQueueStart 2) acts := by decide +kernel
  have hturn : ∀ p ∈ trace StatusAct.next (statusQueueStart 2) acts, p.2.InTurn p.1 := by decide +kernel
  exact ⟨((statusQueue_intact (Path.ofFires hfires)).1.mpr hturn).1, by decide +kernel⟩

/-- Two reads have the same event when the first one removes it, and the second one frees it again. -/
theorem statusQueue_freed_twice : ∃ l t, Path statusQueues (statusQueueStart 2) l t ∧ ¬t.Intact := by
  have hfires : Fires (fun s a => a.Enabled s) StatusAct.next (statusQueueStart 2)
      [.notifyAdd 0 0 0 none 0 true, .go 0 true ⟨0, 0, 0, []⟩, .read 0 515, .go 0 true ⟨0, 0, 0, []⟩, .read 1 515,
        .go 1 true ⟨0, 0, 0, []⟩, .go 0 true ⟨0, 0, 0, []⟩, .go 1 true ⟨0, 0, 0, []⟩, .go 0 true ⟨0, 0, 0, []⟩,
        .go 1 true ⟨0, 0, 0, []⟩] := by decide +kernel
  refine ⟨_, _, Path.ofFires hfires, fun h => ?_⟩
  exact absurd h.once (by decide +kernel)

end AtbmWifi
