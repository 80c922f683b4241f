import AtbmWifi.Lib.Transition
import Mathlib.Logic.Function.Basic

/-!
# The sender of private management frames

Requests are put on `send_prvmgmt_skb_queue`; `ieee80211_send_mgmt_work_control` takes them and sets or
clears the start flag of their kind, and `atbm_ieee80211_send_private_mgmt_thread` sends a frame of each
kind that is started every few milliseconds.  The flags have no lock: each test and each store of one is a step.

`requests`, `freed`, `purged`, `failed` and `sent` are history: no step looks at them.
-/

namespace AtbmWifi

open Transition

/-- `IEEE80211_SEND_SPECIAL_PROBE_RESP` and `IEEE80211_SEND_SPECIAL_ACTION` -/
inductive SpecialMgmt
  | probeResp
  | action
  deriving DecidableEq, Repr

structure PrvRequest (D : Type) where
  id : Nat
  pktType : SpecialMgmt
  /-- `skb->protocol` -/
  start : Bool
  data : D
  deriving DecidableEq, Repr

inductive PrvWorkPhase
  | switch
  /-- the frame is stored, the start flag to be tested -/
  | test
  | set
  | free
  deriving DecidableEq, Repr

inductive PrvThread
  /-- in `wait_event_interruptible` -/
  | wait
  | testStop
  /-- the test at the head of the inner loop, one flag after the other -/
  | loop (k : SpecialMgmt)
  | test (k : SpecialMgmt)
  | send (k : SpecialMgmt)
  | fail (k : SpecialMgmt)
  | sleep
  /-- in the loop on `kthread_should_stop` -/
  | shouldStop
  | done
  deriving DecidableEq, Repr

/-- What comes of sending a frame; a probe response can be dropped without an error. -/
inductive PrvSend
  | sent
  | dropped
  | failed
  deriving DecidableEq, Repr

/-- The next statement of `atbm_send_private_mgmt_uninit`. -/
inductive PrvUninit
  | idle
  | cancelWork
  | purge
  | stop
  | start (k : SpecialMgmt)
  /-- in `kthread_stop` -/
  | join
  | returned
  deriving DecidableEq, Repr

structure PrvMgmt (D : Type) where
  sendPrvmgmtSkbQueue : List (PrvRequest D)
  /-- queue calls that have yet to queue the work -/
  callers : Nat
  /-- the work is queued -/
  workPending : Bool
  /-- the `local_list` of the work while it runs -/
  localList : Option (List (PrvRequest D))
  skb : Option (PrvRequest D × PrvWorkPhase)
  /-- `start_send_prbresp` and `start_send_action` -/
  start : SpecialMgmt → Bool
  /-- `stop_prvmgmt_thread` -/
  stop : Bool
  /-- `ap_vendor_cfg_ie` and `customer_action_ie` -/
  frame : SpecialMgmt → D
  thread : PrvThread
  uninit : PrvUninit
  /-- all requests queued -/
  requests : List (PrvRequest D)
  freed : List Nat
  /-- a request was purged -/
  purged : Bool
  /-- a send has failed -/
  failed : SpecialMgmt → Bool
  /-- frames sent since the stop flag was set -/
  sent : SpecialMgmt → Nat

namespace PrvMgmt

variable {D : Type}

def setStart (k : SpecialMgmt) (b : Bool) (s : PrvMgmt D) : PrvMgmt D :=
  { s with start := Function.update s.start k b }

/-- `ieee80211_send_action_mgmt_queue` and `ieee80211_send_probe_resp_mgmt_queue` to the end of the locked
section of `ieee80211_send_mgmt_queue_request`. -/
def queueRequest (k : SpecialMgmt) (start : Bool) (data : D) (s : PrvMgmt D) : PrvMgmt D :=
  let r := ⟨s.requests.length, k, start, data⟩
  { s with
    sendPrvmgmtSkbQueue := s.sendPrvmgmtSkbQueue ++ [r]
    callers := s.callers + 1
    requests := s.requests ++ [r] }

/-- A step of `ieee80211_send_mgmt_work_control`, with the start of the work. -/
def sendMgmtWorkControl (s : PrvMgmt D) : PrvMgmt D :=
  match s.localList, s.skb with
  | none, _ => { s with localList := some s.sendPrvmgmtSkbQueue, sendPrvmgmtSkbQueue := [], workPending := false }
  | some [], none => { s with localList := none }
  | some (r :: rs), none => { s with localList := some rs, skb := some (r, .switch) }
  | some _, some (r, .switch) =>
    match r.start with
    | false => { s.setStart r.pktType false with skb := some (r, .free) }
    | true => { s with frame := Function.update s.frame r.pktType r.data, skb := some (r, .test) }
  | some _, some (r, .test) =>
    -- the `break` leaves the switch before `atbm_dev_kfree_skb`
    if s.start r.pktType = true then { s with skb := none } else { s with skb := some (r, .set) }
  | some _, some (r, .set) => { s.setStart r.pktType true with skb := some (r, .free) }
  | some _, some (r, .free) => { s with skb := none, freed := s.freed ++ [r.id] }

def afterSend : SpecialMgmt → PrvThread
  | .probeResp => .test .action
  | .action => .sleep

/-- A step of `atbm_ieee80211_send_private_mgmt_thread`; `r` is what comes of a frame it sends. -/
def sendPrivateMgmtThread (r : PrvSend) (s : PrvMgmt D) : PrvMgmt D :=
  match s.thread with
  | .wait => { s with thread := .testStop }
  | .testStop => { s with thread := if s.stop = true then .shouldStop else .loop .probeResp }
  | .loop .probeResp =>
    { s with thread := if s.start .probeResp = true then .test .probeResp else .loop .action }
  | .loop .action => { s with thread := if s.start .action = true then .test .probeResp else .wait }
  | .test k => { s with thread := if s.start k = true then .send k else afterSend k }
  | .send k =>
    match r with
    | .sent =>
      { s with thread := afterSend k, sent := if s.stop = true then Function.update s.sent k (s.sent k + 1) else s.sent }
    | .dropped => { s with thread := afterSend k }
    | .failed => { s with thread := .fail k, failed := Function.update s.failed k true }
  | .fail k => { s.setStart k false with thread := afterSend k }
  | .sleep => { s with thread := .loop .probeResp }
  | .shouldStop => { s with thread := .done }
  | .done => s

/-- A step of `atbm_send_private_mgmt_uninit`.  `atbm_cancel_work_sync` waits for the work if it runs. -/
def sendPrivateMgmtUninit (s : PrvMgmt D) : PrvMgmt D :=
  match s.uninit with
  | .idle => { s with uninit := .cancelWork }
  | .cancelWork => { s with workPending := false, uninit := .purge }
  | .purge =>
    match s.sendPrvmgmtSkbQueue with
    | [] => { s with uninit := .stop }
    | r :: rs => { s with sendPrvmgmtSkbQueue := rs, freed := s.freed ++ [r.id], purged := true }
  | .stop => { s with stop := true, uninit := .start .probeResp }
  | .start .probeResp => { s.setStart .probeResp true with uninit := .start .action }
  | .start .action => { s.setStart .action true with uninit := .join }
  | .join => { s with uninit := .returned }
  | .returned => s

end PrvMgmt

inductive PrvAct (D : Type)
  | request (k : SpecialMgmt) (start : Bool) (data : D)
  /-- the `ieee80211_queue_work` of a request -/
  | queueWork
  | work
  | thread (r : PrvSend)
  | uninit
  deriving DecidableEq, Repr

namespace PrvAct

variable {D : Type}

/-- Whether the action can be taken.  The thread waits for a start flag: each store that sets one is followed by a
`wake_up`. -/
def Enabled (s : PrvMgmt D) : PrvAct D → Prop
  | request _ _ _ => True
  | queueWork => 0 < s.callers
  | work => s.localList = none → s.workPending = true
  | thread _ =>
    match s.thread with
    | .wait => s.start .probeResp = true ∨ s.start .action = true
    | .shouldStop => s.uninit = .join
    | .done => False
    | _ => True
  | uninit =>
    match s.uninit with
    | .cancelWork => s.localList.isNone = true
    | .join => s.thread = .done
    | .returned => False
    | _ => True

def next (s : PrvMgmt D) : PrvAct D → PrvMgmt D
  | request k start data => s.queueRequest k start data
  | queueWork => { s with callers := s.callers - 1, workPending := true }
  | work => s.sendMgmtWorkControl
  | thread r => s.sendPrivateMgmtThread r
  | uninit => s.sendPrivateMgmtUninit

instance decEnabled (s : PrvMgmt D) (a : PrvAct D) : Decidable (a.Enabled s) := by
  unfold Enabled
  split
  · infer_instance
  · infer_instance
  · exact inferInstanceAs (Decidable (s.localList = none → s.workPending = true))
  · split <;> infer_instance
  · split <;> infer_instance

end PrvAct

/-- After `atbm_send_private_mgmt_init`, with what the frames happen to be. -/
def prvMgmtStart {D : Type} (frame : SpecialMgmt → D) : PrvMgmt D :=
  { sendPrvmgmtSkbQueue := [], callers := 0, workPending := false, localList := none, skb := none
    start := fun _ => false, stop := false, frame := frame, thread := .wait, uninit := .idle
    requests := [], freed := [], purged := false, failed := fun _ => false, sent := fun _ => 0 }

def prvMgmts (D : Type) : Sys (PrvMgmt D) (PrvAct D) :=
  .ofNext (fun s => ∃ frame, s = prvMgmtStart frame) (fun s a => a.Enabled s) PrvAct.next

end AtbmWifi
