import AtbmWifi.Ap.Buffered
import AtbmWifi.Ap.GetTx
import AtbmWifi.Queue.Accounting

/-!
# The runs of an AP with stations in power save

`powerSave`: frames from mac80211, PS-Polls, stations that sleep and wake, the
multicast indications of the firmware, the multicast works and their timer, the
turns of `wsm_get_tx`, and what else happens to the queues but a requeue.  `ap`
says which interfaces are APs; the others change as they like.

`QueuesOk` holds in every state: the counters of the queues count their frames
(`Accounted`), and a frame is queued under its own link id or under one of the two
virtual ones.
-/

namespace AtbmWifi

open Transition Mask

/-- `atbm_tx`, with the results of the helpers in `a` and `auth` for an authentication frame; the
link ids are those of `atbm_tx_h_calc_link_ids`. -/
def psTx (ap : Nat → Bool) (e : QEnv) (a : TxCall) (d : TxDest) (auth : Bool) (s : PsState) : PsState :=
  let i := a.ifId.toNat
  let a := { a with link := atbmTxHCalcLinkIds (ap i) d (s.vif i) }
  let s :=
    match a.link with
    | some (raw, _) => if a.enabled && decide (a.queue < 4) then s.setVif i (atbmTxHPm auth raw.toNat (s.vif i)) else s
    | none => s
  match atbmTxPrepare a with
  | (_, false) => s
  | (t, true) =>
    let c : Fin 4 := Fin.ofNat 4 a.queue
    if (atbmQueuePut e a.skb t (s.queues.view c)).2 ≠ 0 then { s with crashed := true }
    else { s.setVif i (atbmTxHPmState t (s.vif i)).1 with queues := s.queues.step ⟨c, e, .put a.skb t⟩ }

/-- `atbm_multicast_start_work`, with the bus not terminated -/
def atbmMulticastStartWork (i : Nat) (s : PsState) : PsState :=
  let v := { s.vif i with multicastStartWork := false, multicastStopWork := false }
  if v.aid0BitSet then s.setVif i v
  else { s.setVif i { v with aid0BitSet := true } with mcastTimeout := Function.update s.mcastTimeout i true }

/-- `atbm_multicast_stop_work`, with the bus not terminated -/
def atbmMulticastStopWork (i : Nat) (s : PsState) : PsState :=
  let v := { s.vif i with multicastStopWork := false }
  if v.aid0BitSet then
    { s.setVif i { v with aid0BitSet := false } with mcastTimeout := Function.update s.mcastTimeout i false }
  else s.setVif i v

def atbmMcastTimeout (i : Nat) (s : PsState) : PsState :=
  let v := s.vif i
  let v := { v with txMulticast := v.aid0BitSet && v.bufferedMulticasts }
  let v := if !v.txMulticast && v.aid0BitSet then { v with multicastStopWork := true } else v
  { s.setVif i v with mcastTimeout := Function.update s.mcastTimeout i false }

/-- `atbm_suspend_resume` -/
def psSuspendResume (i : Nat) (arg : WsmSuspendResume) (s : PsState) : PsState :=
  let (v, cancel) := atbmSuspendResume arg (s.vif i)
  { s.setVif i v with mcastTimeout := if cancel then Function.update s.mcastTimeout i false else s.mcastTimeout }

inductive PsAct
  | tx (e : QEnv) (a : TxCall) (d : TxDest) (auth : Bool)
  | pspoll (i l : Nat)
  | notify (i : Nat) (cmd : StaNotifyCmd) (l : Nat) (alive : Bool)
  | suspendResume (i : Nat) (arg : WsmSuspendResume)
  | add (i aid jiffies : Nat) (term mapped : Bool)
  | remove (i aid : Nat) (term : Bool)
  | beaconing (i : Nat) (conf : Beaconing)
  | startWork (i : Nat)
  | stopWork (i : Nat)
  | mcastTimeout (i : Nat)
  | getTx (e : GetTxEnv)
  | lockTx
  | unlockTx
  | wsmCmd (b : Bool)
  | firmwareCheck (b : Bool)
  | queue (ev : QEvent)
  | other (i : Nat) (v : AtbmVif)

def PsAct.next (ap : Nat → Bool) (caps : WsmCaps) (s : PsState) : PsAct → PsState
  | .tx e a d auth => psTx ap e a d auth s
  | .pspoll i l => s.setVif i (atbmHandlePspoll l (s.vif i))
  | .notify i cmd l alive => s.setVif i (atbmStaNotify cmd l alive (s.vif i))
  | .suspendResume i arg => psSuspendResume i arg s
  | .add i aid jiffies term mapped => s.setVif i (atbmStaAdd caps aid jiffies term mapped (s.vif i)).1
  | .remove i aid term => s.setVif i (atbmStaRemove aid term (s.vif i))
  | .beaconing i conf => s.setVif i (atbmUpdateBeaconing conf (s.vif i))
  | .startWork i => atbmMulticastStartWork i s
  | .stopWork i => atbmMulticastStopWork i s
  | .mcastTimeout i => atbmMcastTimeout i s
  | .getTx e => (wsmGetTx ap e s).1
  | .lockTx => { s with txLock := s.txLock + 1 }
  | .unlockTx => { s with txLock := s.txLock - 1 }
  | .wsmCmd b => { s with cmd := b }
  | .firmwareCheck b => { s with saveBuf := if b then some (-1) else none }
  | .queue ev => { s with queues := s.queues.step ev }
  | .other i v => s.setVif i v

/-- The operations that are not part of `atbm_tx` and `wsm_get_tx`, without the requeue. -/
def QOp.inRuns : QOp → Bool
  | .put _ _ | .get _ _ | .requeue _ _ => false
  | _ => true

/-- What `atbm_tx` is promised of a frame: an interface within the array, and for `control.sta` a link id
that a station can have. -/
structure PsTxValid (a : TxCall) (d : TxDest) : Prop where
  ifId : a.ifId.toNat < maxVifs
  sta : (d.sta.getD 0).toNat ≤ maxStaInApMode

instance decPsTxValid (a : TxCall) (d : TxDest) : Decidable (PsTxValid a d) :=
  decidable_of_iff (a.ifId.toNat < maxVifs ∧ (d.sta.getD 0).toNat ≤ maxStaInApMode)
    ⟨fun ⟨h1, h2⟩ => ⟨h1, h2⟩, fun h => ⟨h.ifId, h.sta⟩⟩

def IsSta (l : Nat) : Prop := 0 < l ∧ l ≤ maxStaInApMode

instance (l : Nat) : Decidable (IsSta l) := inferInstanceAs (Decidable (_ ∧ _))

def PsAct.enabled (ap : Nat → Bool) (s : PsState) (a : PsAct) : Prop :=
  s.crashed = false ∧
    match a with
    | .tx _ a d _ => PsTxValid a d
    | .pspoll i l => ap i = true ∧ IsSta l
    | .notify i _ l _ => ap i = true ∧ IsSta l
    | .startWork i => (s.vif i).multicastStartWork = true
    | .stopWork i => (s.vif i).multicastStopWork = true
    | .mcastTimeout i => s.mcastTimeout i = true
    | .unlockTx => 0 < s.txLock
    | .queue ev => Valid s.queues ev ∧ Honest s.queues ev ∧ ev.op.inRuns = true
    | .other i _ => ap i = false
    | _ => True

instance decPsEnabled (ap : Nat → Bool) (s : PsState) (a : PsAct) : Decidable (a.enabled ap s) := by
  cases a <;> unfold PsAct.enabled <;> infer_instance

def psStart (ttl : Fin 4 → Int) : PsState where
  queues := .start ttl
  vif _ := .init
  mcastTimeout _ := false
  txLock := 0
  saveBuf := none
  cmd := false
  ifIdSelected := 0
  txBurstIdx := none
  loop := none
  crashed := false

def powerSave (ap : Nat → Bool) (caps : WsmCaps) : Sys PsState PsAct :=
  .ofNext (fun s => ∃ ttl, s = psStart ttl) (PsAct.enabled ap) (PsAct.next ap caps)

/-- The interface after `atbm_multicast_start_work`. -/
def startedVif (v : AtbmVif) : AtbmVif :=
  { v with multicastStartWork := false, multicastStopWork := false, aid0BitSet := true }

/-- The interface after `atbm_multicast_stop_work`. -/
def stoppedVif (v : AtbmVif) : AtbmVif := { v with multicastStopWork := false, aid0BitSet := false }

/-- The interface after `atbm_mcast_timeout`. -/
def timedOutVif (v : AtbmVif) : AtbmVif :=
  { v with
    txMulticast := v.aid0BitSet && v.bufferedMulticasts
    multicastStopWork := v.multicastStopWork || (v.aid0BitSet && !v.bufferedMulticasts) }

/-- What a step does to one interface, if that is all it does but for timers. -/
def PsAct.vifStep (caps : WsmCaps) : PsAct → Option (Nat × (AtbmVif → AtbmVif))
  | .pspoll i l => some (i, atbmHandlePspoll l)
  | .notify i cmd l alive => some (i, atbmStaNotify cmd l alive)
  | .suspendResume i arg => some (i, fun v => (atbmSuspendResume arg v).1)
  | .add i aid jiffies term mapped => some (i, fun v => (atbmStaAdd caps aid jiffies term mapped v).1)
  | .remove i aid term => some (i, atbmStaRemove aid term)
  | .beaconing i conf => some (i, atbmUpdateBeaconing conf)
  | .startWork i => some (i, startedVif)
  | .stopWork i => some (i, stoppedVif)
  | .mcastTimeout i => some (i, timedOutVif)
  | .other i v => some (i, fun _ => v)
  | _ => none

theorem startWork_vif (i : Nat) (s : PsState) :
    (atbmMulticastStartWork i s).vif = Function.update s.vif i (startedVif (s.vif i)) := by
  unfold atbmMulticastStartWork startedVif
  by_cases h : (s.vif i).aid0BitSet = true
  · simp only [h, if_true]
    rfl
  · simp only [h]
    rfl

theorem stopWork_vif (i : Nat) (s : PsState) :
    (atbmMulticastStopWork i s).vif = Function.update s.vif i (stoppedVif (s.vif i)) := by
  unfold atbmMulticastStopWork stoppedVif
  by_cases h : (s.vif i).aid0BitSet = true
  · simp only [h, if_true]
    rfl
  · simp only [h]
    rfl

theorem mcastTimeout_vif (i : Nat) (s : PsState) :
    (atbmMcastTimeout i s).vif = Function.update s.vif i (timedOutVif (s.vif i)) := by
  unfold atbmMcastTimeout timedOutVif
  simp only [PsState.setVif]
  congr 1
  cases (s.vif i).aid0BitSet <;> cases (s.vif i).bufferedMulticasts <;> simp

theorem next_vifStep (ap : Nat → Bool) {caps : WsmCaps} {s : PsState} {a : PsAct} {i : Nat}
    {f : AtbmVif → AtbmVif} (h : a.vifStep caps = some (i, f)) :
    (a.next ap caps s).vif = Function.update s.vif i (f (s.vif i)) ∧ (a.next ap caps s).queues = s.queues := by
  cases a with
  | pspoll j l => cases h; exact ⟨rfl, rfl⟩
  | notify j cmd l alive => cases h; exact ⟨rfl, rfl⟩
  | suspendResume j arg => cases h; exact ⟨rfl, rfl⟩
  | add j aid jiffies term mapped => cases h; exact ⟨rfl, rfl⟩
  | remove j aid term => cases h; exact ⟨rfl, rfl⟩
  | beaconing j conf => cases h; exact ⟨rfl, rfl⟩
  | startWork j =>
    cases h
    refine ⟨startWork_vif i s, ?_⟩
    simp only [PsAct.next, atbmMulticastStartWork]
    split <;> rfl
  | stopWork j =>
    cases h
    refine ⟨stopWork_vif i s, ?_⟩
    simp only [PsAct.next, atbmMulticastStopWork]
    split <;> rfl
  | mcastTimeout j =>
    cases h
    exact ⟨mcastTimeout_vif i s, rfl⟩
  | other j v => cases h; exact ⟨rfl, rfl⟩
  | tx e a d auth => cases h
  | getTx e => cases h
  | lockTx => cases h
  | unlockTx => cases h
  | wsmCmd b => cases h
  | firmwareCheck b => cases h
  | queue ev => cases h

def sampleEdca : EdcaQueueParams := ⟨3, 15, 1023, 0, by decide, by decide, by decide⟩

def sampleGetTx : GetTxEnv where
  q := sampleEnv
  up i := i == 0
  enabled _ := true
  bufsFull := false
  edca _ _ := sampleEdca
  rand _ _ := 0
  burst := 1
  other := false

def unicastFrame : PsAct := .tx sampleEnv (stationFrame true) ⟨some 1, false, false, false, true⟩ false

def multicastFrame : PsAct := .tx sampleEnv (stationFrame true) ⟨none, true, false, false, true⟩ false

def apUp : List PsAct := [.beaconing 0 ⟨100, true, true⟩, .add 0 1 0 false true]

end AtbmWifi
