import AtbmWifi.Lib.Owner
import AtbmWifi.Wsm.HandleRx

/-!
# From the receive URBs to the tasklet

A completion enqueues its skb and reads `bh_running` under the lock of
`rx_frame_queue`, gives the URB back and schedules the tasklet if it was not running
(`atbm_usb_submit_rev_skb`).  `atbm_rx_tasklet` splices the queue to a list of its own,
processes it, submits what is on `rx_frame_free` again, and looks at the queue once more
under the lock before it clears `bh_running`.  Skbs are numbered as they are allocated.
-/

namespace AtbmWifi

open Transition

inductive RxFrameType
  | raw
  | directlyData
  | ble
  | slowMgmt
  | wsmCmd
  | wsmData
  | wsmFree
  deriving DecidableEq, Repr

/-- An skb on a queue, with `pkt_type` and the id of its message. -/
structure RxSkb where
  skb : Nat
  type : RxFrameType
  wsmId : BitVec 16
  deriving DecidableEq, Repr

def atbmRxNeedAllocSkb (id : BitVec 16) : Bool := stripLinkId id == 0x0804#16 || stripLinkId id == 0x0812#16

/-- `atbm_process_ieee80211_frame`: its frames are passed up in copies. -/
def isIeee80211Frame (id : BitVec 16) : Bool := id == 0x0811#16 || id == 0x0813#16 || atbmRxNeedAllocSkb id

/-- `wsm_handle_rx` may keep the skb: `wsm_receive_indication`, `wsm_smartconfig_indication` -/
def wsmHandleRxKeeps (id : BitVec 16) : Bool :=
  decide (rxKind false (stripLinkId id) = .receive) || stripLinkId id == 0x0812#16

/-- `struct sbus_urb`: `test_skb`, its bit in `rx_urb_map`, and whether it is submitted. -/
structure RxUrb where
  skb : Option Nat
  busy : Bool
  inFlight : Bool
  deriving DecidableEq, Repr

structure RxDone where
  /-- the URB it has still to give back -/
  urb : Option Nat
  rxRunning : Bool
  deriving DecidableEq, Repr

inductive RxTaskletPc
  | idle
  /-- before the lock -/
  | start
  | process
  | resubmit
  /-- before the lock, to look again -/
  | recheck
  deriving DecidableEq, Repr

inductive RxFate
  | processed
  | freed
  deriving DecidableEq, Repr

structure RxHand where
  rxFrameQueue : List RxSkb
  localList : List RxSkb
  rxFrameFree : List Nat
  bhRunning : Bool
  scheduled : Bool
  pc : RxTaskletPc
  urb : Nat → RxUrb
  finishing : List RxDone
  /-- `bh_term`, `bh_error` or no `bh_thread` -/
  term : Bool
  pluged : Bool
  /-- the bus is suspended or the module goes -/
  stopped : Bool
  /-- the `BUG_ON` of an unknown `pkt_type` -/
  bug : Bool
  allocated : Nat
  /-- skbs freed or passed up -/
  gone : List Nat
  /-- history: a completion was not let schedule the tasklet since it last took the queue -/
  refused : Bool
  /-- history: what was enqueued, and what came of it -/
  arrived : List Nat
  handled : List (Nat × RxFate)

namespace RxHand

def setUrb (s : RxHand) (u : Nat) (x : RxUrb) : RxHand := { s with urb := Function.update s.urb u x }

def urbPut (u : Nat) (s : RxHand) : RxHand := s.setUrb u { s.urb u with busy := false, inFlight := false }

def drop (k : Nat) (s : RxHand) : RxHand := { s with gone := k :: s.gone }

/-- `atbm_usb_receive_data` of `n` URBs with the skb `k` -/
def atbmUsbReceiveData (n k : Nat) (submitOk : Bool) (s : RxHand) : RxHand :=
  if s.stopped then s.drop k
  else match (List.range n).find? fun u => !(s.urb u).busy with
    | none => s.drop k
    | some u =>
      match (s.urb u).skb with
      | none => s.setUrb u ⟨some k, submitOk, submitOk⟩
      -- the skb of an URB that could not be submitted
      | some k' => (s.setUrb u ⟨some k', submitOk, submitOk⟩).drop k

/-- The same without an skb; it allocates one if the URB has none. -/
def atbmUsbReceiveDataNew (n : Nat) (allocOk submitOk : Bool) (s : RxHand) : RxHand :=
  if s.stopped then s
  else match (List.range n).find? fun u => !(s.urb u).busy with
    | none => s
    | some u =>
      match (s.urb u).skb with
      | none =>
        if allocOk then { s.setUrb u ⟨some s.allocated, submitOk, submitOk⟩ with allocated := s.allocated + 1 } else s
      | some k => s.setUrb u ⟨some k, submitOk, submitOk⟩

def atbmUsbSubmitRevSkb (x : RxSkb) (urb : Option Nat) (s : RxHand) : RxHand :=
  { s with
    rxFrameQueue := s.rxFrameQueue ++ [x]
    arrived := s.arrived ++ [x.skb]
    finishing := s.finishing ++ [⟨urb, s.bhRunning⟩] }

/-- What `atbm_usb_receive_data_complete` makes of a frame; `none` when `atbm_rx_directly` has processed
it.  `directly`: `in_irq()` and `atbm_rx_serial` of the `CONFIG_USB_URB_RX_SUBMIT_DIRECTLY` build. -/
def rxFrameType (directly : Option (Bool × Bool)) (id : BitVec 16) : Option RxFrameType :=
  match directly with
  | none => some .raw
  | some (inIrq, serialOk) =>
    if isIeee80211Frame id then none
    else if serialOk then some .wsmCmd
    else some (if inIrq then .wsmData else .directlyData)

/-- `atbm_usb_receive_data_complete` of URB `u`; `got` is `none` for what it drops. -/
def atbmUsbReceiveDataComplete (u : Nat) (got : Option (Option (Bool × Bool) × BitVec 16)) (submitOk : Bool)
    (s : RxHand) : RxHand :=
  match got, (s.urb u).skb with
  | some (directly, id), some k =>
    match rxFrameType directly id with
    | none => if submitOk then s else s.urbPut u
    | some type => (s.setUrb u { s.urb u with skb := none, inFlight := false }).atbmUsbSubmitRevSkb ⟨k, type, id⟩ (some u)
  | _, _ => s.urbPut u

def atbmUsbRevSchedule (s : RxHand) : RxHand :=
  if s.term then { s with refused := true } else { s with scheduled := true }

def recycle (k : Nat) (s : RxHand) : RxHand := { s with rxFrameFree := s.rxFrameFree ++ [k] }

/-- `atbm_process_wsm_cmd_frame`: the callback is given a reference of its own, and drops it. -/
def atbmProcessWsmCmdFrame (x : RxSkb) (s : RxHand) : RxHand := if wsmHandleRxKeeps x.wsmId then s.drop x.skb else s

def atbmProcessRawFrame (x : RxSkb) (s : RxHand) : RxHand :=
  if isIeee80211Frame x.wsmId then s else s.atbmProcessWsmCmdFrame x

/-- The `switch` of `atbm_rx_tasklet`. -/
def processFrame (x : RxSkb) (s : RxHand) : RxHand :=
  match x.type with
  | .raw => (s.atbmProcessRawFrame x).recycle x.skb
  | .wsmCmd => (s.atbmProcessWsmCmdFrame x).recycle x.skb
  | .wsmData | .slowMgmt | .directlyData => s.drop x.skb
  | .wsmFree => s.recycle x.skb
  | .ble => { s with bug := true }

def handle (x : RxSkb) (s : RxHand) : RxHand :=
  if s.term || !s.pluged then { s.drop x.skb with handled := s.handled ++ [(x.skb, .freed)] }
  else
    let fate := if x.type = .directlyData then .freed else .processed
    { s.processFrame x with handled := s.handled ++ [(x.skb, fate)] }

/-- `atbm_skb_queue_splice_tail_init` -/
def splice (s : RxHand) : RxHand :=
  { s with rxFrameQueue := [], localList := s.localList ++ s.rxFrameQueue, pc := .process, refused := false }

def atbmRxTasklet (n : Nat) (submitOk : Bool) (s : RxHand) : RxHand :=
  match s.pc with
  | .idle => s
  | .start => { s with bhRunning := true }.splice
  | .process =>
    match s.localList with
    | [] => { s with pc := .resubmit }
    | x :: l => { s with localList := l }.handle x
  | .resubmit =>
    match s.rxFrameFree with
    | [] => { s with pc := .recheck }
    | k :: l => { s with rxFrameFree := l }.atbmUsbReceiveData n k submitOk
  | .recheck => if s.rxFrameQueue = [] then { s with bhRunning := false, pc := .idle } else s.splice

end RxHand

inductive RxHandAct
  /-- `atbm_usb_memcpy_fromio`, for one URB -/
  | receive (allocOk submitOk : Bool)
  | complete (u : Nat) (got : Option (Option (Bool × Bool) × BitVec 16)) (submitOk : Bool)
  /-- a copy of a frame, queued by `atbm_rx_directly` -/
  | submitCopy (id : BitVec 16)
  /-- a completion gives its URB back -/
  | put (i : Nat)
  /-- a completion schedules the tasklet, or not -/
  | schedule (i : Nat)
  | softirq
  | tasklet (submitOk : Bool)
  | flags (term pluged stopped : Bool)
  deriving DecidableEq, Repr

def RxHandAct.enabled (s : RxHand) : RxHandAct → Prop
  | .complete u _ _ => (s.urb u).inFlight = true
  | .put i => ∃ d u, s.finishing[i]? = some d ∧ d.urb = some u
  | .schedule i => ∃ d, s.finishing[i]? = some d ∧ d.urb = none
  | .softirq => s.scheduled = true ∧ s.pc = .idle
  | _ => True

def RxHandAct.next (n : Nat) (s : RxHand) : RxHandAct → RxHand
  | .receive allocOk submitOk => s.atbmUsbReceiveDataNew n allocOk submitOk
  | .complete u got submitOk => s.atbmUsbReceiveDataComplete u got submitOk
  | .submitCopy id =>
    { s with allocated := s.allocated + 1 }.atbmUsbSubmitRevSkb ⟨s.allocated, .wsmData, id⟩ none
  | .put i =>
    match s.finishing[i]? with
    | some ⟨some u, running⟩ => { s.urbPut u with finishing := s.finishing.set i ⟨none, running⟩ }
    | _ => s
  | .schedule i =>
    let s' := { s with finishing := s.finishing.eraseIdx i }
    match s.finishing[i]? with
    | some ⟨none, false⟩ => s'.atbmUsbRevSchedule
    | _ => s'
  | .softirq => { s with scheduled := false, pc := .start }
  | .tasklet submitOk => s.atbmRxTasklet n submitOk
  | .flags term pluged stopped => { s with term, pluged, stopped }

def rxHandStart (pluged : Bool) : RxHand where
  rxFrameQueue := []
  localList := []
  rxFrameFree := []
  bhRunning := false
  scheduled := false
  pc := .idle
  urb _ := ⟨none, false, false⟩
  finishing := []
  term := false
  pluged := pluged
  stopped := false
  bug := false
  allocated := 0
  gone := []
  refused := false
  arrived := []
  handled := []

def rxHanding (n : Nat) : Sys RxHand RxHandAct :=
  .ofNext (fun s => ∃ pluged, s = rxHandStart pluged) RxHandAct.enabled (RxHandAct.next n)

namespace RxHand

def bag (s : RxHand) : List Nat :=
  s.rxFrameQueue.map RxSkb.skb ++ s.localList.map RxSkb.skb ++ s.rxFrameFree ++ s.gone

def slot (s : RxHand) (u : Nat) : Option Nat := (s.urb u).skb

/-- The skbs have one owner each, with those of `hand` in the hands of the code that runs. -/
structure Owned (hand : List Nat) (s : RxHand) : Prop where
  one : OneOwner (hand ++ s.bag) s.slot
  bagOld : ∀ k ∈ hand ++ s.bag, k < s.allocated
  slotOld : ∀ u k, s.slot u = some k → k < s.allocated

theorem slot_setUrb (s : RxHand) (u : Nat) (x : RxUrb) : (s.setUrb u x).slot = Function.update s.slot u x.skb := by
  funext v
  show (Function.update s.urb u x v).skb = _
  by_cases hv : v = u
  · rw [hv, Function.update_self, Function.update_self]
  · rw [Function.update_of_ne hv, Function.update_of_ne hv]
    rfl

theorem slot_setUrb_same {s : RxHand} {u : Nat} {x : RxUrb} (h : x.skb = (s.urb u).skb) :
    (s.setUrb u x).slot = s.slot := by
  rw [slot_setUrb, h]
  exact Function.update_eq_self u s.slot

namespace Owned

variable {hand hand' : List Nat} {s t : RxHand}

theorem moved (h : Owned hand s) (hp : (hand' ++ t.bag).Perm (hand ++ s.bag)) (hs : t.slot = s.slot)
    (ha : t.allocated = s.allocated) : Owned hand' t where
  one := hs ▸ h.one.perm hp
  bagOld k hk := ha ▸ h.bagOld k (hp.mem_iff.mp hk)
  slotOld u k hk := by
    rw [hs] at hk
    rw [ha]
    exact h.slotOld u k hk

theorem same (h : Owned hand s) (hb : t.bag = s.bag) (hs : t.slot = s.slot) (ha : t.allocated = s.allocated) :
    Owned hand t := h.moved (by rw [hb]) hs ha

theorem drop {k : Nat} (h : Owned [k] s) : Owned [] (s.drop k) := by
  refine h.moved ?_ rfl rfl
  rw [List.perm_iff_count]
  intro a
  simp only [bag, RxHand.drop, List.nil_append, List.count_append, List.count_cons, List.count_nil]
  omega

theorem recycle {k : Nat} (h : Owned [k] s) : Owned [] (s.recycle k) := by
  refine h.moved ?_ rfl rfl
  rw [List.perm_iff_count]
  intro a
  simp only [bag, RxHand.recycle, List.nil_append, List.count_append, List.count_cons, List.count_nil]
  omega

theorem give {k u : Nat} (h : Owned [k] s) (busy inFlight : Bool) : Owned [] (s.setUrb u ⟨some k, busy, inFlight⟩) where
  one := by
    rw [slot_setUrb]
    exact h.one.give
  bagOld x hx := h.bagOld x (List.mem_append_right _ hx)
  slotOld v x hx := by
    rw [slot_setUrb] at hx
    by_cases hv : v = u
    · rw [hv, Function.update_self] at hx
      cases hx
      exact h.bagOld k List.mem_cons_self
    · rw [Function.update_of_ne hv] at hx
      exact h.slotOld v x hx

theorem take {k u : Nat} (h : Owned [] s) (hk : s.slot u = some k) {x : RxUrb} (hx : x.skb = none) :
    Owned [k] (s.setUrb u x) where
  one := by
    rw [slot_setUrb, hx]
    exact h.one.take hk
  bagOld y hy := by
    rcases List.mem_cons.mp hy with rfl | hy
    · exact h.slotOld u y hk
    · exact h.bagOld y hy
  slotOld v y hy := by
    rw [slot_setUrb, hx] at hy
    by_cases hv : v = u
    · rw [hv, Function.update_self] at hy
      cases hy
    · rw [Function.update_of_ne hv] at hy
      exact h.slotOld v y hy

theorem alloc (h : Owned [] s) : Owned [s.allocated] { s with allocated := s.allocated + 1 } where
  one := by
    refine h.one.add (fun hm => ?_) fun u hu => ?_
    · have := h.bagOld _ hm
      omega
    · have := h.slotOld u _ hu
      omega
  bagOld k hk := by
    show k < s.allocated + 1
    rcases List.mem_cons.mp hk with rfl | hk
    · omega
    · have := h.bagOld k hk
      omega
  slotOld u k hk := by
    have := h.slotOld u k hk
    show k < s.allocated + 1
    omega

theorem urbPut (h : Owned hand s) (u : Nat) : Owned hand (s.urbPut u) :=
  h.same rfl (slot_setUrb_same rfl) rfl

theorem receiveData {k : Nat} (h : Owned [k] s) (n : Nat) (submitOk : Bool) :
    Owned [] (s.atbmUsbReceiveData n k submitOk) := by
  unfold atbmUsbReceiveData
  split
  · exact h.drop
  split
  · exact h.drop
  split
  · exact h.give submitOk submitOk
  · next k' hk' =>
    have hs : Owned [k] (s.setUrb _ ⟨some k', submitOk, submitOk⟩) := h.same rfl (slot_setUrb_same hk'.symm) rfl
    exact hs.drop

theorem receiveDataNew (h : Owned [] s) (n : Nat) (allocOk submitOk : Bool) :
    Owned [] (s.atbmUsbReceiveDataNew n allocOk submitOk) := by
  unfold atbmUsbReceiveDataNew
  split
  · exact h
  split
  · exact h
  split
  · split
    · exact h.alloc.give submitOk submitOk
    · exact h
  · next hk => exact h.same rfl (slot_setUrb_same hk.symm) rfl

theorem submitRevSkb {x : RxSkb} (h : Owned [x.skb] s) (urb : Option Nat) : Owned [] (s.atbmUsbSubmitRevSkb x urb) := by
  refine h.moved ?_ rfl rfl
  rw [List.perm_iff_count]
  intro a
  simp only [bag, atbmUsbSubmitRevSkb, List.map_append, List.map_cons, List.map_nil, List.nil_append,
    List.count_append, List.count_cons, List.count_nil]
  omega

theorem complete (h : Owned [] s) (u : Nat) (got : Option (Option (Bool × Bool) × BitVec 16)) (submitOk : Bool) :
    Owned [] (s.atbmUsbReceiveDataComplete u got submitOk) := by
  unfold atbmUsbReceiveDataComplete
  split
  · next hk =>
    split
    · split
      · exact h
      · exact h.urbPut u
    · exact (h.take hk rfl).submitRevSkb (some u)
  · exact h.urbPut u

theorem splice (h : Owned [] s) : Owned [] s.splice := by
  refine h.moved ?_ rfl rfl
  rw [List.perm_iff_count]
  intro a
  simp only [bag, RxHand.splice, List.map_append, List.map_nil, List.nil_append, List.count_append]
  omega

end Owned

end RxHand

/-- A command is not one of the frames that are passed up, and no skb has the type of BLE. -/
structure RxSkb.Ok (x : RxSkb) : Prop where
  cmd : x.type = .wsmCmd → isIeee80211Frame x.wsmId = false
  ble : x.type ≠ .ble

theorem rxKind_receive {w : BitVec 16} (h : rxKind false w = .receive) : w = 0x0804#16 := by
  have skip : ∀ {c : Prop} [Decidable c] {a b : RxKind}, (if c then a else b) = .receive → a ≠ .receive →
      b = .receive := by
    intro c _ a b hab ha
    by_cases hc : c
    · rw [if_pos hc] at hab
      exact absurd hab ha
    · rwa [if_neg hc] at hab
  unfold rxKind at h
  have h := skip (skip (skip (skip (skip h nofun) nofun) nofun) nofun) nofun
  by_cases hind : w &&& 0x0800#16 ≠ 0
  · rw [if_pos hind] at h
    have h := skip (skip h nofun) nofun
    by_contra hne
    rw [if_neg hne] at h
    exact absurd (skip (skip (skip (skip (skip h nofun) nofun) nofun) nofun) nofun) nofun
  · rw [if_neg hind] at h
    cases h

theorem not_keeps {id : BitVec 16} (h : isIeee80211Frame id = false) : wsmHandleRxKeeps id = false := by
  have hneed : atbmRxNeedAllocSkb id = false := (Bool.or_eq_false_iff.mp h).2
  obtain ⟨hrx, hsmart⟩ := Bool.or_eq_false_iff.mp hneed
  have hkind : rxKind false (stripLinkId id) ≠ .receive := fun hk => beq_eq_false_iff_ne.mp hrx (rxKind_receive hk)
  rw [wsmHandleRxKeeps, hsmart, decide_eq_false hkind]
  rfl

theorem rxFrameType_ok {directly : Option (Bool × Bool)} {id : BitVec 16} {type : RxFrameType} (k : Nat)
    (h : RxHand.rxFrameType directly id = some type) : RxSkb.Ok ⟨k, type, id⟩ := by
  unfold RxHand.rxFrameType at h
  split at h
  · cases h
    exact ⟨nofun, nofun⟩
  · split at h
    · cases h
    · next hno =>
      split at h
      · cases h
        exact ⟨fun _ => by simpa using hno, nofun⟩
      · next inIrq _ _ =>
        cases h
        cases inIrq <;> exact ⟨nofun, nofun⟩

namespace RxHand

variable {s : RxHand} {x : RxSkb}

theorem processWsmCmd_same (hno : isIeee80211Frame x.wsmId = false) : s.atbmProcessWsmCmdFrame x = s := by
  simp [atbmProcessWsmCmdFrame, not_keeps hno]

theorem processRaw_same : s.atbmProcessRawFrame x = s := by
  unfold atbmProcessRawFrame
  split
  · rfl
  · next hno => exact processWsmCmd_same (by simpa using hno)

theorem processFrame_cases (hx : x.Ok) : s.processFrame x = s.recycle x.skb ∨ s.processFrame x = s.drop x.skb := by
  unfold processFrame
  cases ht : x.type with
  | raw => exact .inl (by rw [processRaw_same])
  | wsmCmd => exact .inl (by rw [processWsmCmd_same (hx.cmd ht)])
  | wsmFree => exact .inl rfl
  | wsmData | slowMgmt | directlyData => exact .inr rfl
  | ble => exact absurd ht hx.ble

/-- What `handle` leaves but for the skb. -/
structure Handled1 (x : RxSkb) (s t : RxHand) : Prop where
  queue : t.rxFrameQueue = s.rxFrameQueue
  localList : t.localList = s.localList
  free : t.rxFrameFree.length ≤ s.rxFrameFree.length + 1
  control : (t.bhRunning, t.scheduled, t.pc, t.finishing, t.refused, t.bug) =
    (s.bhRunning, s.scheduled, s.pc, s.finishing, s.refused, s.bug)
  arrived : t.arrived = s.arrived
  handled : t.handled.map Prod.fst = s.handled.map Prod.fst ++ [x.skb]
  owned : Owned [x.skb] s → Owned [] t

theorem handle_spec (hx : x.Ok) : Handled1 x s (s.handle x) := by
  unfold handle
  split
  · exact ⟨rfl, rfl, Nat.le_succ _, rfl, rfl, by simp, fun h => h.drop.same rfl rfl rfl⟩
  · simp only
    rcases processFrame_cases (s := s) hx with h | h
    · rw [h]
      exact ⟨rfl, rfl, by simp [recycle], rfl, rfl, by simp, fun h => h.recycle.same rfl rfl rfl⟩
    · rw [h]
      exact ⟨rfl, rfl, Nat.le_succ _, rfl, rfl, by simp, fun h => h.drop.same rfl rfl rfl⟩

theorem receiveData_fields (n k : Nat) (submitOk : Bool) (s : RxHand) :
    ∃ urb gone, s.atbmUsbReceiveData n k submitOk = { s with urb, gone } := by
  unfold atbmUsbReceiveData
  split
  · exact ⟨s.urb, _, rfl⟩
  split
  · exact ⟨s.urb, _, rfl⟩
  split
  · exact ⟨_, s.gone, rfl⟩
  · exact ⟨_, _, rfl⟩

/-- A queue that is not empty is looked at again. -/
def Woken (s : RxHand) : Prop :=
  s.rxFrameQueue ≠ [] → s.pc ≠ .idle ∨ s.scheduled = true ∨ (∃ i : Nat, ∃ d : RxDone, s.finishing[i]? = some d ∧ d.rxRunning = false) ∨
    s.refused = true

/-- What was enqueued is what was handled, what the tasklet has and what the queue has. -/
def InOrder (s : RxHand) : Prop :=
  s.arrived = s.handled.map Prod.fst ++ s.localList.map RxSkb.skb ++ s.rxFrameQueue.map RxSkb.skb

structure Inv (s : RxHand) : Prop where
  running : s.bhRunning = true ↔ s.pc = .process ∨ s.pc = .resubmit ∨ s.pc = .recheck
  localList : s.pc ≠ .process → s.localList = []
  frames : ∀ x ∈ s.localList ++ s.rxFrameQueue, x.Ok
  woken : s.Woken
  inOrder : s.InOrder
  owned : Owned [] s
  bug : s.bug = false

/-- What a step of `atbm_rx_tasklet` can do. -/
inductive TaskletStep (s : RxHand) : RxHand → Prop
  /-- it takes the queue -/
  | took {running : Bool} : s.pc = .start ∨ s.pc = .recheck ∧ s.rxFrameQueue ≠ [] → running = true →
      TaskletStep s ({ s with bhRunning := running } : RxHand).splice
  | handled {x : RxSkb} {l : List RxSkb} {t : RxHand} : s.pc = .process → s.localList = x :: l →
      Handled1 x { s with localList := l } t → TaskletStep s t
  | processed : s.pc = .process → s.localList = [] → TaskletStep s { s with pc := .resubmit }
  | resubmits {k : Nat} {l gone : List Nat} {urb : Nat → RxUrb} : s.pc = .resubmit → s.rxFrameFree = k :: l →
      (Owned [k] { s with rxFrameFree := l } → Owned [] { s with rxFrameFree := l, urb, gone }) →
      TaskletStep s { s with rxFrameFree := l, urb, gone }
  | resubmitted : s.pc = .resubmit → s.rxFrameFree = [] → TaskletStep s { s with pc := .recheck }
  | stops : s.pc = .recheck → s.rxFrameQueue = [] → TaskletStep s { s with bhRunning := false, pc := .idle }

theorem Inv.taskletStep (h : Inv s) (hpc : s.pc ≠ .idle) (n : Nat) (submitOk : Bool) :
    TaskletStep s (s.atbmRxTasklet n submitOk) := by
  cases hp : s.pc with
  | idle => exact absurd hp hpc
  | start =>
    have hstep : s.atbmRxTasklet n submitOk = ({ s with bhRunning := true } : RxHand).splice := by
      simp only [atbmRxTasklet, hp]
    rw [hstep]
    exact .took (.inl hp) rfl
  | process =>
    cases hl : s.localList with
    | nil =>
      have hstep : s.atbmRxTasklet n submitOk = { s with pc := .resubmit } := by simp only [atbmRxTasklet, hp, hl]
      rw [hstep]
      exact .processed hp hl
    | cons x l =>
      have hstep : s.atbmRxTasklet n submitOk = ({ s with localList := l } : RxHand).handle x := by
        simp only [atbmRxTasklet, hp, hl]
      have hx : x.Ok := h.frames x (by rw [hl]; exact List.mem_append_left _ List.mem_cons_self)
      rw [hstep]
      exact .handled hp hl (handle_spec hx)
  | resubmit =>
    cases hf : s.rxFrameFree with
    | nil =>
      have hstep : s.atbmRxTasklet n submitOk = { s with pc := .recheck } := by simp only [atbmRxTasklet, hp, hf]
      rw [hstep]
      exact .resubmitted hp hf
    | cons k l =>
      have hstep : s.atbmRxTasklet n submitOk =
          ({ s with rxFrameFree := l } : RxHand).atbmUsbReceiveData n k submitOk := by
        simp only [atbmRxTasklet, hp, hf]
      obtain ⟨urb, gone, heq⟩ := receiveData_fields n k submitOk { s with rxFrameFree := l }
      have hown := fun ho : Owned [k] { s with rxFrameFree := l } => ho.receiveData n submitOk
      rw [heq] at hown
      rw [hstep, heq]
      exact .resubmits hp hf hown
  | recheck =>
    have hstep : s.atbmRxTasklet n submitOk =
        if s.rxFrameQueue = [] then { s with bhRunning := false, pc := .idle } else s.splice := by
      simp only [atbmRxTasklet, hp]
    rw [hstep]
    split
    · next hq => exact .stops hp hq
    · next hq => exact .took (.inr ⟨hp, hq⟩) (h.running.mpr (.inr (.inr hp)))

theorem inv_start (pluged : Bool) : (rxHandStart pluged).Inv where
  running := ⟨nofun, fun h => by rcases h with h | h | h <;> cases h⟩
  localList _ := rfl
  frames _ hx := absurd hx List.not_mem_nil
  woken h := absurd rfl h
  inOrder := rfl
  owned := ⟨⟨List.nodup_nil, nofun, nofun⟩, fun _ hk => absurd hk List.not_mem_nil, nofun⟩
  bug := rfl

namespace Inv

variable {t : RxHand} {n : Nat}

theorem other (h : Inv s) (hc : (t.rxFrameQueue, t.localList, t.bhRunning, t.scheduled, t.pc, t.finishing, t.refused,
      t.bug, t.arrived, t.handled) = (s.rxFrameQueue, s.localList, s.bhRunning, s.scheduled, s.pc, s.finishing,
      s.refused, s.bug, s.arrived, s.handled)) (ho : Owned [] t) : Inv t := by
  simp only [Prod.mk.injEq] at hc
  obtain ⟨hq, hl, hr, hs, hp, hf, href, hb, ha, hh⟩ := hc
  constructor
  · rw [hr, hp]
    exact h.running
  · rw [hp, hl]
    exact h.localList
  · rw [hl, hq]
    exact h.frames
  · unfold Woken
    rw [hq, hp, hs, hf, href]
    exact h.woken
  · unfold InOrder
    rw [ha, hh, hl, hq]
    exact h.inOrder
  · exact ho
  · rw [hb]
    exact h.bug

theorem submit (h : Inv s) (hc : (t.rxFrameQueue, t.localList, t.bhRunning, t.pc, t.finishing, t.bug, t.arrived,
      t.handled) = (s.rxFrameQueue, s.localList, s.bhRunning, s.pc, s.finishing, s.bug, s.arrived, s.handled))
    (hx : x.Ok) (urb : Option Nat) (ho : Owned [x.skb] t) : Inv (t.atbmUsbSubmitRevSkb x urb) := by
  simp only [Prod.mk.injEq] at hc
  obtain ⟨hq, hl, hr, hp, hf, hb, ha, hh⟩ := hc
  refine ⟨?_, fun hno => ?_, fun y hy => ?_, fun _ => ?_, ?_, ho.submitRevSkb urb, hb.trans h.bug⟩
  · show t.bhRunning = true ↔ t.pc = _ ∨ t.pc = _ ∨ t.pc = _
    rw [hr, hp]
    exact h.running
  · exact hl.trans (h.localList (hp ▸ hno))
  · have hmem : y ∈ (t.localList ++ t.rxFrameQueue) ++ [x] := by
      rw [List.append_assoc]
      exact hy
    rw [hl, hq] at hmem
    rcases List.mem_append.mp hmem with hy | hy
    · exact h.frames y hy
    · rw [List.mem_singleton.mp hy]
      exact hx
  · cases hrun : t.bhRunning with
    | true =>
      left
      show t.pc ≠ .idle
      rw [hp]
      rcases h.running.mp (hr.symm.trans hrun) with hpc | hpc | hpc <;> exact fun h0 => absurd (hpc.symm.trans h0) (by decide)
    | false =>
      refine .inr (.inr (.inl ⟨t.finishing.length, ⟨urb, t.bhRunning⟩, ?_, hrun⟩))
      exact List.getElem?_concat_length ..
  · have hin := h.inOrder
    unfold InOrder at hin ⊢
    show t.arrived ++ [x.skb] = t.handled.map Prod.fst ++ t.localList.map RxSkb.skb ++
      (t.rxFrameQueue ++ [x]).map RxSkb.skb
    rw [ha, hh, hl, hq, hin, List.map_append, ← List.append_assoc]
    rfl

theorem put (h : Inv s) {i u : Nat} {d : RxDone} (hd : s.finishing[i]? = some d) :
    Inv { s.urbPut u with finishing := s.finishing.set i ⟨none, d.rxRunning⟩ } := by
  refine ⟨h.running, h.localList, h.frames, fun hq => ?_, h.inOrder, (h.owned.urbPut u).same rfl rfl rfl, h.bug⟩
  rcases h.woken hq with h1 | h1 | ⟨j, d', hj, hno⟩ | h1
  · exact .inl h1
  · exact .inr (.inl h1)
  · refine .inr (.inr (.inl ?_))
    show ∃ j : Nat, ∃ d' : RxDone, (s.finishing.set i ⟨none, d.rxRunning⟩)[j]? = some d' ∧ d'.rxRunning = false
    by_cases hij : i = j
    · subst hij
      obtain rfl : d' = d := Option.some.inj (hj.symm.trans hd)
      have hlt : i < s.finishing.length := (List.getElem?_eq_some_iff.mp hd).1
      exact ⟨i, _, List.getElem?_set_self hlt, hno⟩
    · exact ⟨j, d', by rw [List.getElem?_set_ne hij, hj], hno⟩
  · exact .inr (.inr (.inr h1))

theorem eraseIdx_other {l : List RxDone} {i j : Nat} {d : RxDone} (hij : j ≠ i) (hj : l[j]? = some d) :
    ∃ k : Nat, (l.eraseIdx i)[k]? = some d := by
  rcases Nat.lt_or_gt_of_ne hij with hlt | hgt
  · exact ⟨j, by rw [List.getElem?_eraseIdx_of_lt hlt, hj]⟩
  · refine ⟨j - 1, ?_⟩
    rw [List.getElem?_eraseIdx_of_ge (by omega), Nat.sub_add_cancel (by omega), hj]

theorem schedule (h : Inv s) {i : Nat} (he : (RxHandAct.schedule i).enabled s) :
    Inv ((RxHandAct.schedule i).next n s) := by
  obtain ⟨⟨urb, running⟩, hd, hnone⟩ := he
  obtain rfl : urb = none := hnone
  cases running with
  | true =>
    have hnext : (RxHandAct.schedule i).next n s = { s with finishing := s.finishing.eraseIdx i } := by
      simp only [RxHandAct.next, hd]
    rw [hnext]
    refine ⟨h.running, h.localList, h.frames, fun hq => ?_, h.inOrder, h.owned.same rfl rfl rfl, h.bug⟩
    rcases h.woken hq with h1 | h1 | ⟨j, d, hj, hno⟩ | h1
    · exact .inl h1
    · exact .inr (.inl h1)
    · have hij : j ≠ i := by
        rintro rfl
        cases Option.some.inj (hj.symm.trans hd)
        cases hno
      obtain ⟨k, hk⟩ := eraseIdx_other hij hj
      exact .inr (.inr (.inl ⟨k, d, hk, hno⟩))
    · exact .inr (.inr (.inr h1))
  | false =>
    have hnext : (RxHandAct.schedule i).next n s =
        ({ s with finishing := s.finishing.eraseIdx i } : RxHand).atbmUsbRevSchedule := by
      simp only [RxHandAct.next, hd]
    rw [hnext]
    unfold atbmUsbRevSchedule
    split
    · exact ⟨h.running, h.localList, h.frames, fun _ => .inr (.inr (.inr rfl)), h.inOrder, h.owned.same rfl rfl rfl,
        h.bug⟩
    · exact ⟨h.running, h.localList, h.frames, fun _ => .inr (.inl rfl), h.inOrder, h.owned.same rfl rfl rfl, h.bug⟩

theorem splice (h : Inv s) (running : Bool) (hr : running = true) :
    Inv ({ s with bhRunning := running } : RxHand).splice := by
  refine ⟨⟨fun _ => .inl rfl, fun _ => hr⟩, fun hno => absurd rfl hno, fun x hx => ?_, fun hq => absurd rfl hq, ?_,
    (h.owned.same (t := { s with bhRunning := running }) rfl rfl rfl).splice, h.bug⟩
  · have hx : x ∈ (s.localList ++ s.rxFrameQueue) ++ [] := hx
    rw [List.append_nil] at hx
    exact h.frames x hx
  · have hin := h.inOrder
    unfold InOrder at hin ⊢
    show s.arrived = s.handled.map Prod.fst ++ (s.localList ++ s.rxFrameQueue).map RxSkb.skb ++ []
    rw [hin, List.map_append, List.append_nil, List.append_assoc]

theorem tasklet (h : Inv s) (ht : TaskletStep s t) : Inv t := by
  have hrun := h.running
  have hin := h.inOrder
  cases ht with
  | took _ hr => exact h.splice _ hr
  | @handled x l _ hp hl spec =>
    have hc := spec.control
    simp only [Prod.mk.injEq] at hc
    obtain ⟨hr, hs, hp', hf, href, hb⟩ := hc
    have hproc : t.pc = .process := hp'.trans hp
    refine ⟨?_, fun hno => absurd hproc hno, fun y hy => ?_, fun _ => .inl ?_, ?_, spec.owned ?_, hb.trans h.bug⟩
    · rw [hr, hproc]
      exact ⟨fun _ => .inl rfl, fun _ => hrun.mpr (.inl hp)⟩
    · rw [spec.localList, spec.queue] at hy
      apply h.frames y
      rw [hl]
      exact List.mem_cons_of_mem _ hy
    · rw [hproc]
      nofun
    · unfold InOrder at hin ⊢
      rw [spec.arrived, spec.handled, spec.localList, spec.queue]
      show s.arrived = s.handled.map Prod.fst ++ [x.skb] ++ l.map RxSkb.skb ++ s.rxFrameQueue.map RxSkb.skb
      rw [hin, hl, List.map_cons, List.append_cons]
    · refine h.owned.moved ?_ rfl rfl
      rw [List.perm_iff_count]
      intro a
      simp only [bag, hl, List.map_cons, List.nil_append, List.count_append, List.count_cons, List.count_nil]
      omega
  | processed hp hl =>
    refine ⟨?_, fun _ => hl, h.frames, fun _ => .inl nofun, hin, h.owned.same rfl rfl rfl, h.bug⟩
    exact ⟨fun _ => .inr (.inl rfl), fun _ => hrun.mpr (.inl hp)⟩
  | @resubmits k l _ _ hp hf hown =>
    refine h.other rfl (hown (h.owned.moved ?_ rfl rfl))
    rw [List.perm_iff_count]
    intro a
    simp only [bag, hf, List.nil_append, List.count_append, List.count_cons, List.count_nil]
    omega
  | resubmitted hp hf =>
    have hl := h.localList (by rw [hp]; decide)
    refine ⟨?_, fun _ => hl, h.frames, fun _ => .inl nofun, hin, h.owned.same rfl rfl rfl, h.bug⟩
    exact ⟨fun _ => .inr (.inr rfl), fun _ => hrun.mpr (.inr (.inl hp))⟩
  | stops hp hq =>
    have hl := h.localList (by rw [hp]; decide)
    refine ⟨⟨nofun, fun h0 => ?_⟩, fun _ => hl, h.frames, fun hne => absurd hq hne, hin, h.owned.same rfl rfl rfl,
      h.bug⟩
    rcases h0 with h0 | h0 | h0 <;> cases h0

theorem step (h : Inv s) {a : RxHandAct} (he : a.enabled s) : Inv (a.next n s) := by
  cases a with
  | receive allocOk submitOk =>
    refine h.other ?_ (h.owned.receiveDataNew n allocOk submitOk)
    simp only [RxHandAct.next, atbmUsbReceiveDataNew]
    repeat' split
    all_goals rfl
  | complete u got submitOk =>
    simp only [RxHandAct.next, atbmUsbReceiveDataComplete]
    split
    · next hk =>
      split
      · split
        · exact h
        · exact h.other rfl (h.owned.urbPut u)
      · next ht =>
        exact h.submit (t := s.setUrb u { s.urb u with skb := none, inFlight := false }) rfl (rxFrameType_ok _ ht)
          (some u) (h.owned.take hk rfl)
    · exact h.other rfl (h.owned.urbPut u)
  | submitCopy id =>
    have hx : RxSkb.Ok ⟨s.allocated, .wsmData, id⟩ := ⟨nofun, nofun⟩
    exact h.submit (t := { s with allocated := s.allocated + 1 }) rfl hx none h.owned.alloc
  | put i =>
    obtain ⟨⟨urb, running⟩, u, hd, hu⟩ := he
    obtain rfl : urb = some u := hu
    simp only [RxHandAct.next, hd]
    exact h.put hd
  | schedule i => exact h.schedule he
  | softirq =>
    obtain ⟨-, hp⟩ := he
    refine ⟨⟨fun hr => ?_, fun h0 => ?_⟩, fun _ => h.localList (by rw [hp]; decide), h.frames, fun _ => .inl nofun,
      h.inOrder, h.owned.same rfl rfl rfl, h.bug⟩
    · rcases h.running.mp hr with h0 | h0 | h0 <;> exact absurd (hp.symm.trans h0) (by decide)
    · rcases h0 with h0 | h0 | h0 <;> cases h0
  | tasklet submitOk =>
    by_cases hp : s.pc = .idle
    · have hsame : RxHandAct.next n s (.tasklet submitOk) = s := by
        simp only [RxHandAct.next, atbmRxTasklet, hp]
      rw [hsame]
      exact h
    · exact h.tasklet (h.taskletStep hp n submitOk)
  | flags term pluged stopped => exact h.other rfl (h.owned.same rfl rfl rfl)

end Inv

theorem Inv.reach {n : Nat} (h : Reach (rxHanding n) s) : Inv s := by
  refine Reach.invariant ?_ ?_ h
  · rintro s ⟨pluged, rfl⟩
    exact inv_start pluged
  · rintro s a t hI ⟨he, rfl⟩
    exact hI.step he

def rank : RxTaskletPc → Nat
  | .idle => 0
  | .recheck => 1
  | .resubmit => 2
  | .process => 3
  | .start => 4

/-- A frame takes a step as long as it is on one of the lists; three more bring the tasklet back to the queue. -/
def taskletWork (s : RxHand) : Nat :=
  7 * s.rxFrameQueue.length + 4 * s.localList.length + 2 * s.rxFrameFree.length + rank s.pc

section
variable {n : Nat}

theorem splice_work (s : RxHand) :
    s.splice.taskletWork = 4 * s.rxFrameQueue.length + 4 * s.localList.length + 2 * s.rxFrameFree.length + 3 := by
  simp only [taskletWork, splice, List.length_append, List.length_nil, rank]
  omega

theorem TaskletStep.work (h : TaskletStep s t) : t.pc = .idle ∨ t.taskletWork < s.taskletWork := by
  cases h with
  | took hp =>
    right
    rw [splice_work]
    rcases hp with hp | ⟨hp, hq⟩
    · simp only [taskletWork, hp, rank]
      omega
    · have hpos : 0 < s.rxFrameQueue.length := List.length_pos_iff.mpr hq
      simp only [taskletWork, hp, rank]
      omega
  | handled hp hl spec =>
    right
    have hc := spec.control
    simp only [Prod.mk.injEq] at hc
    obtain ⟨-, -, hp', -⟩ := hc
    have hfree := spec.free
    simp only at hfree
    simp only [taskletWork, spec.queue, spec.localList, hp', hl, List.length_cons]
    omega
  | processed hp hl =>
    right
    simp only [taskletWork, hp, rank]
    omega
  | resubmits hp hf =>
    right
    simp only [taskletWork, hf, List.length_cons]
    omega
  | resubmitted hp hf =>
    right
    simp only [taskletWork, hp, rank]
    omega
  | stops => exact .inl rfl

theorem TaskletStep.stops_empty (h : TaskletStep s t) (ht : t.pc = .idle) : t.rxFrameQueue = [] := by
  cases h with
  | took => cases ht
  | handled hp _ spec =>
    have hc := spec.control
    simp only [Prod.mk.injEq] at hc
    exact absurd (hp.symm.trans (hc.2.2.1.symm.trans ht)) (by decide)
  | processed => cases ht
  | resubmits hp => exact absurd (hp.symm.trans ht) (by decide)
  | resubmitted => cases ht
  | stops _ hq => exact hq

theorem TaskletStep.arrived (h : TaskletStep s t) : t.arrived = s.arrived := by
  cases h with
  | handled _ _ spec => exact spec.arrived
  | _ => rfl

theorem TaskletStep.refused (h : TaskletStep s t) (hr : s.refused = false) : t.refused = false := by
  cases h with
  | took => rfl
  | handled _ _ spec =>
    have hc := spec.control
    simp only [Prod.mk.injEq] at hc
    exact hc.2.2.2.2.1.trans hr
  | _ => exact hr

theorem tasklet_idle (hpc : s.pc = .idle) (submitOk : Bool) : s.atbmRxTasklet n submitOk = s := by
  simp only [atbmRxTasklet, hpc]

theorem all_handled (h : Inv s) (hpc : s.pc = .idle) (hq : s.rxFrameQueue = []) :
    s.handled.map Prod.fst = s.arrived := by
  have hl : s.localList = [] := h.localList (by rw [hpc]; decide)
  have hin := h.inOrder
  unfold InOrder at hin
  rw [hl, hq, List.map_nil, List.append_nil, List.append_nil] at hin
  exact hin.symm

theorem drains (n : Nat) {s : RxHand} {l : List Bool} (h : Inv s) (hidle : s.pc = .idle → s.rxFrameQueue = [])
    (hlen : s.pc = .idle ∨ s.taskletWork ≤ l.length) :
    let t := l.foldl (fun s submitOk => s.atbmRxTasklet n submitOk) s
    t.pc = .idle ∧ t.rxFrameQueue = [] ∧ t.handled.map Prod.fst = s.arrived := by
  induction l generalizing s with
  | nil =>
    have hpc : s.pc = .idle := by
      rcases hlen with hpc | hlen
      · exact hpc
      · have hrank : rank s.pc = 0 := by
          simp only [taskletWork, List.length_nil] at hlen
          omega
        cases hp : s.pc with
        | idle => rfl
        | _ =>
          rw [hp] at hrank
          cases hrank
    exact ⟨hpc, hidle hpc, all_handled h hpc (hidle hpc)⟩
  | cons submitOk l ih =>
    rw [List.foldl_cons]
    by_cases hpc : s.pc = .idle
    · rw [tasklet_idle hpc]
      exact ih h hidle (.inl hpc)
    · have hstep := h.taskletStep hpc n submitOk
      rw [← hstep.arrived]
      refine ih (h.tasklet hstep) hstep.stops_empty ?_
      rcases hstep.work with hp | hlt
      · exact .inl hp
      · have hwork := hlen.resolve_left hpc
        rw [List.length_cons] at hwork
        exact .inr (by omega)

end

theorem next_other {n : Nat} {a : RxHandAct} (ha : ∀ submitOk, a ≠ .tasklet submitOk) :
    ((a.next n s).pc = s.pc ∨ a = .softirq) ∧ (s.term = false → (a.next n s).refused = s.refused) := by
  cases a with
  | receive allocOk submitOk =>
    simp only [RxHandAct.next, atbmUsbReceiveDataNew]
    repeat' split
    all_goals exact ⟨.inl rfl, fun _ => rfl⟩
  | complete u got submitOk =>
    simp only [RxHandAct.next, atbmUsbReceiveDataComplete]
    repeat' split
    all_goals exact ⟨.inl rfl, fun _ => rfl⟩
  | put i =>
    simp only [RxHandAct.next]
    split
    all_goals exact ⟨.inl rfl, fun _ => rfl⟩
  | schedule i =>
    simp only [RxHandAct.next]
    split
    · unfold atbmUsbRevSchedule
      split
      · next hterm => exact ⟨.inl rfl, fun hno => absurd (hterm.symm.trans hno) (by decide)⟩
      · exact ⟨.inl rfl, fun _ => rfl⟩
    · exact ⟨.inl rfl, fun _ => rfl⟩
  | softirq => exact ⟨.inr rfl, fun _ => rfl⟩
  | submitCopy id => exact ⟨.inl rfl, fun _ => rfl⟩
  | flags term pluged stopped => exact ⟨.inl rfl, fun _ => rfl⟩
  | tasklet submitOk => exact absurd rfl (ha submitOk)

theorem stops_empty {n : Nat} (h : Inv s) (hpc : s.pc ≠ .idle) {a : RxHandAct} (ht : (a.next n s).pc = .idle) :
    (a.next n s).rxFrameQueue = [] := by
  by_cases ha : ∃ submitOk, a = .tasklet submitOk
  · obtain ⟨submitOk, rfl⟩ := ha
    exact (h.taskletStep hpc n submitOk).stops_empty ht
  · rcases (next_other fun submitOk hs => ha ⟨submitOk, hs⟩).1 with hsame | rfl
    · exact absurd (hsame.symm.trans ht) hpc
    · cases ht

theorem next_refused {n : Nat} (h : Inv s) (hterm : s.term = false) (hr : s.refused = false) (a : RxHandAct) :
    (a.next n s).refused = false := by
  by_cases ha : ∃ submitOk, a = .tasklet submitOk
  · obtain ⟨submitOk, rfl⟩ := ha
    by_cases hpc : s.pc = .idle
    · exact (congrArg RxHand.refused (tasklet_idle hpc submitOk)).trans hr
    · exact (h.taskletStep hpc n submitOk).refused hr
  · exact ((next_other fun submitOk hs => ha ⟨submitOk, hs⟩).2 hterm).trans hr

end RxHand

instance RxHandAct.decEnabled (s : RxHand) : ∀ a : RxHandAct, Decidable (a.enabled s)
  | .complete u _ _ => inferInstanceAs (Decidable ((s.urb u).inFlight = true))
  | .put i =>
    decidable_of_iff ((s.finishing[i]?.bind RxDone.urb).isSome = true) (by
      show _ ↔ ∃ d u, s.finishing[i]? = some d ∧ d.urb = some u
      rw [Option.isSome_iff_exists]
      simp [Option.bind_eq_some_iff]
      tauto)
  | .schedule i => decidable_of_iff (s.finishing[i]?.map RxDone.urb = some none) (by
      show _ ↔ ∃ d, s.finishing[i]? = some d ∧ d.urb = none
      simp [Option.map_eq_some_iff])
  | .softirq => inferInstanceAs (Decidable (s.scheduled = true ∧ s.pc = .idle))
  | .receive _ _ => inferInstanceAs (Decidable True)
  | .submitCopy _ => inferInstanceAs (Decidable True)
  | .tasklet _ => inferInstanceAs (Decidable True)
  | .flags _ _ _ => inferInstanceAs (Decidable True)

open RxHand in
/-- **The receive hand-over.**  In a run from the start a queue that is not empty is looked at again: the
tasklet is on its way, or scheduled, or a completion that found it idle has still to schedule it, or was
refused to, which a bus thread that is there rules out.  The tasklet stops with an empty queue only, and
left to itself it does stop, with all frames handled.  Frames are handled once each and in the order in
which they came, and an skb is in one URB, on one queue, or gone. -/
theorem rx_handover (n : Nat) {s t : RxHand} {l : List (RxHand × RxHandAct)} (h0 : (rxHanding n).init s)
    (h : Path (rxHanding n) s l t) :
    (t.Woken ∧ ((∀ p ∈ l, p.1.term = false) → t.refused = false) ∧
      (t.pc ≠ .idle →
        (∀ a u, (rxHanding n).step t a u → u.pc = .idle → u.rxFrameQueue = []) ∧
        ∀ k : List Bool, t.taskletWork ≤ k.length →
          let u := k.foldl (fun s submitOk => s.atbmRxTasklet n submitOk) t
          u.pc = .idle ∧ u.rxFrameQueue = [] ∧ u.handled.map Prod.fst = t.arrived)) ∧
      t.InOrder ∧ OneOwner t.bag t.slot ∧ t.bug = false := by
  have hs : Reach (rxHanding n) s := .init h0
  have hI : Inv t := .reach (h.reach hs)
  refine ⟨⟨hI.woken, fun hterm => ?_, fun hpc => ⟨?_, fun k hk => ?_⟩⟩, hI.inOrder, hI.owned.one, hI.bug⟩
  · have hstart : s.refused = false := by
      obtain ⟨pluged, rfl⟩ := h0
      rfl
    have hkeep : ∀ s a t, s.Inv ∧ s.refused = false → (rxHanding n).step s a t → s.term = false →
        t.Inv ∧ t.refused = false := by
      rintro s a t ⟨hs, hr⟩ ⟨he, rfl⟩ hterm
      exact ⟨hs.step he, next_refused hs hterm hr a⟩
    exact (h.keep hkeep hterm ⟨.reach hs, hstart⟩).2
  · rintro a u ⟨-, rfl⟩ hu
    exact stops_empty hI hpc hu
  · exact drains n hI (fun hidle => absurd hidle hpc) (.inr hk)

def rxHandFrame : List RxHandAct :=
  [.receive true true, .complete 0 (some (none, 0x0804#16)) true, .put 0, .schedule 0, .softirq, .tasklet true,
    .tasklet true, .tasklet true, .tasklet true]

theorem rx_handover_frame :
    let t := rxHandFrame.foldl (RxHandAct.next 1) (rxHandStart true)
    (t.handled, (t.urb 0).skb, t.pc) = ([(0, RxFate.processed)], some 0, RxTaskletPc.resubmit) ∧ t.InOrder ∧
      OneOwner t.bag t.slot ∧ t.bug = false :=
  ⟨by decide, (rx_handover 1 ⟨true, rfl⟩ (.ofFires (l := rxHandFrame) (by decide))).2⟩

/-- A queue that is not empty, with the tasklet neither running nor scheduled: a completion has given up the
lock and not yet scheduled it; and with no completion left, after the bus thread has terminated. -/
theorem rx_queue_unattended :
    (∃ s, Reach (rxHanding 1) s ∧ s.term = false ∧ s.rxFrameQueue ≠ [] ∧ s.pc = .idle ∧ s.scheduled = false) ∧
      ∃ s, Reach (rxHanding 1) s ∧ s.finishing = [] ∧ s.rxFrameQueue ≠ [] ∧ s.pc = .idle ∧ s.scheduled = false := by
  have hstart : Reach (rxHanding 1) (rxHandStart true) := .init ⟨true, rfl⟩
  refine ⟨⟨_, hstart.fires (l := rxHandFrame.take 2) (by decide), by decide⟩, ?_⟩
  exact ⟨_, hstart.fires (l := .flags true true false :: rxHandFrame.take 4) (by decide), by decide⟩

end AtbmWifi
