import AtbmWifi.Bh.Credits
import AtbmWifi.Lib.Reader
import AtbmWifi.Queue.Shape
import AtbmWifi.Wsm.CmdBuffer

/-!
# What a confirmation of frames is trusted with

`wsm_tx_confirm` and `wsm_multi_tx_confirm`, from the release of the device buffer
before the message is parsed to `atbm_tx_confirm_cb`.  The packet id of a confirmation
is the firmware's: its interface indexes `hw_bufs_used_vif` and its queue `tx_queue`
as it comes.  `indices` records every array index used, `warns` the `WARN_ON`s of the
two release functions, which set a counter below zero back to 0.

Counters of the device are those of `BhState`; `hw_bufs_used_vif` is a total function,
and what is behind its two entries stands for the memory behind the array.  A slot
whose frame is gone is confirmed like any other.
-/

namespace AtbmWifi

open Wire

inductive ArrayIndex
  | hwBufsUsedVif (i : Nat)
  | vifList (i : Nat)
  | txQueue (i : Nat)
  | pool (i : Nat)
  deriving DecidableEq, Repr

def ArrayIndex.inBounds : ArrayIndex → Bool
  | hwBufsUsedVif i => decide (i < maxVifs)
  | vifList i => decide (i < maxVifs + 1)
  | txQueue i => decide (i < 4)
  | pool i => decide (i < maxQueueSz)

structure WsmTxConfirm where
  packetID : Nat
  status : Nat
  txedRate : Nat
  ackFailures : Nat
  flags : Nat
  mediaDelay : Nat
  txQueueDelay : Nat
  ifId : Nat
  linkId : Nat
  deriving DecidableEq, Repr

/-- The fields `wsm_tx_confirm` takes. -/
def readTxConfirm : Reader WsmTxConfirm := do
  let packetID ← get32
  let status ← get32
  let txedRate ← get8
  let ackFailures ← get8
  let flags ← get16
  let mediaDelay ← get32
  let txQueueDelay ← get32
  return {
    packetID, status, txedRate, ackFailures, flags, mediaDelay, txQueueDelay
    ifId := (atbmQueueParseId packetID).ifId
    linkId := (atbmQueueParseId packetID).linkId }

structure ConfirmState where
  bh : BhState
  queues : TxQueues
  indices : List ArrayIndex
  warns : Nat
  queueIds : ∀ c, (queues.txQueue c).queueId = c

/-- What a confirmation reads but does not write: `vif_list`, with the mode of the interface (true for
`NL80211_IFTYPE_UNSPECIFIED`), the options of the build, and what the retries ask of a frame. -/
structure ConfirmEnv where
  q : QEnv
  vifList : Nat → Option Bool
  lmcRequeue : Bool
  p2p : Bool
  eap : Option SkBuff → Bool
  rocAction : Option SkBuff → AtbmTxpriv → Bool

namespace ConfirmState

def use (x : ArrayIndex) (s : ConfirmState) : ConfirmState := { s with indices := x :: s.indices }

/-- `wsm_release_tx_buffer` of the bus; only that of SDIO looks at the result. -/
def releaseTx (bus : Bus) (count : Nat) (s : ConfirmState) : ConfirmState :=
  match bus with
  | .sdio _ =>
    { s with
      bh := (wsmReleaseTxBuffer count s.bh).1
      warns := s.warns + if s.bh.hwBufsUsed - count < 0 then 1 else 0 }
  | .usb | .spi => { s with bh := { s.bh with hwBufsUsed := s.bh.hwBufsUsed - count } }

/-- `wsm_release_vif_tx_buffer` -/
def releaseVifTx (ifId count : Nat) (s : ConfirmState) : ConfirmState :=
  { s.use (.hwBufsUsedVif ifId) with
    bh := wsmReleaseVifTxBuffer ifId count s.bh
    warns := s.warns + if s.bh.hwBufsUsedVif ifId - count < 0 then 1 else 0 }

def hwprivToVifpriv (e : ConfirmEnv) (ifId : Nat) (s : ConfirmState) : ConfirmState × Option Bool :=
  if maxVifs < ifId then (s, none) else (s.use (.vifList ifId), e.vifList ifId)

/-- An operation on queue `c` left `v`. -/
def write (c : Fin 4) (v : TxQ) (s : ConfirmState) (h : v.q.queueId = (s.queues.txQueue c).queueId) : ConfirmState :=
  { s with
    queues := s.queues.write c v
    queueIds := by
      intro c'
      show (Function.update s.queues.txQueue c v.q c').queueId = c'
      by_cases hc : c' = c
      · subst hc
        rw [Function.update_self, h, s.queueIds]
      · rw [Function.update_of_ne hc, s.queueIds] }

end ConfirmState

theorem FlowOnly.queueId {s s' : TxQ} (h : FlowOnly s s') : s'.q.queueId = s.q.queueId := by
  obtain ⟨l, o, g, b, hq⟩ := h.fields
  rw [hq]

theorem queueId_remove (e : QEnv) (packetID : Nat) (s : TxQ) :
    (atbmQueueRemove e packetID s).1.q.queueId = s.q.queueId := by
  unfold atbmQueueRemove
  simp only
  split
  · next ret t hc =>
    rw [(flowOnly_trapOpt (checkId_trap hc) _).queueId, trapIf_q]
  · rw [(flowOnly_destroySkb _ _).queueId, (flowOnly_releaseOverfull e _ _).queueId]
    show (trapIf _ _ s).q.queueId = _
    rw [trapIf_q]

theorem queueId_requeue (e : QEnv) (packetID : Nat) (check : Bool) (s : TxQ) :
    (atbmQueueRequeue e packetID check s).1.q.queueId = s.q.queueId := by
  have hmark : ∀ k, (markGeneric k s).q.queueId = s.q.queueId := fun k => rfl
  unfold atbmQueueRequeue
  simp only
  split
  · exact queueId_remove e packetID s
  · split
    · next ret t hc =>
      rw [(flowOnly_trapOpt (checkId_trap hc) _).queueId, trapIf_q]
      split
      · rfl
      · exact hmark _
    · show (trapIf _ _ _).q.queueId = _
      rw [trapIf_q]
      split
      · rfl
      · exact hmark _

theorem queueId_getSkb (packetID : Nat) (s : TxQ) :
    (atbmQueueGetSkb packetID s).1.q.queueId = s.q.queueId := by
  unfold atbmQueueGetSkb
  simp only
  split
  · next ret t hc =>
    rw [(flowOnly_trapOpt (checkId_trap hc) _).queueId, trapIf_q]
  · rw [trapIf_q]

namespace ConfirmState

def requeue (e : QEnv) (packetID : Nat) (check : Bool) (c : Fin 4) (s : ConfirmState) : ConfirmState :=
  s.write c (atbmQueueRequeue e packetID check (s.queues.view c)).1 (queueId_requeue e packetID check _)

def remove (e : QEnv) (packetID : Nat) (c : Fin 4) (s : ConfirmState) : ConfirmState :=
  s.write c (atbmQueueRemove e packetID (s.queues.view c)).1 (queueId_remove e packetID _)

def getSkb (packetID : Nat) (c : Fin 4) (s : ConfirmState) : ConfirmState × Option (Option SkBuff × AtbmTxpriv) :=
  (s.write c (atbmQueueGetSkb packetID (s.queues.view c)).1 (queueId_getSkb packetID _),
    (atbmQueueGetSkb packetID (s.queues.view c)).2.2)

end ConfirmState

/-- What `atbm_tx_confirm_cb` does with the queue of the id, once the interface is there. -/
def confirmItem (e : ConfirmEnv) (arg : WsmTxConfirm) (c : Fin 4) (s : ConfirmState) : ConfirmState :=
  let id := arg.packetID
  let s := s.use (.pool (atbmQueueParseId id).itemId)
  if e.lmcRequeue && arg.status == 11 && arg.flags.testBit 1 then s.requeue e.q id true c
  else
    match s.getSkb id c with
    | (s, none) => s
    | (s, some (skb, txpriv)) =>
      let generation := (atbmQueueParseId id).itemGeneration
      if arg.status != 0 && decide (generation < 2) && e.eap skb then s.requeue e.q id true c
      else if e.p2p && arg.status == 6 && decide (generation < 5) && e.rocAction skb txpriv then
        s.requeue e.q id false c
      else s.remove e.q id c

def atbmTxConfirmCb (e : ConfirmEnv) (arg : WsmTxConfirm) (s : ConfirmState) : ConfirmState :=
  let queueId := (atbmQueueParseId arg.packetID).queueId
  -- `&hw_priv->tx_queue[queue_id]` is formed before `queue_id` is looked at
  let (s, priv) := (s.use (.txQueue queueId)).hwprivToVifpriv e arg.ifId
  match priv with
  | some false => if h : queueId < 4 then confirmItem e arg ⟨queueId, h⟩ s else s
  | _ => s

/-- What `wsm_tx_confirm` does with a confirmation it has parsed. -/
def confirmed (e : ConfirmEnv) (s : ConfirmState) (arg : WsmTxConfirm) : ConfirmState :=
  atbmTxConfirmCb e arg (s.releaseVifTx arg.ifId 1)

def wsmTxConfirm (e : ConfirmEnv) (buf : Cursor) (s : ConfirmState) : ConfirmState × Cursor × Int :=
  match readTxConfirm buf with
  | (none, buf) => (s, buf, eInval)
  | (some arg, buf) => (confirmed e s arg, buf, 0)

/-- The loop of `wsm_multi_tx_confirm`. -/
def confirmLoop (e : ConfirmEnv) : Nat → Cursor → ConfirmState → ConfirmState × Int
  | 0, _, s => (s, 0)
  | n + 1, buf, s =>
    match wsmTxConfirm e buf s with
    | (s, buf, ret) => if ret ≠ 0 then (s, ret) else confirmLoop e n buf s

/-- `wsm_multi_tx_confirm`; the count is a signed number. -/
def wsmMultiTxConfirm (bus : Bus) (e : ConfirmEnv) (interfaceLinkId : Nat) (buf : Cursor) (s : ConfirmState) :
    ConfirmState × Int :=
  match get32 buf with
  | (none, _) => (s, eInval)
  | (some count, buf) =>
    if count = 0 ∨ 2 ^ 31 ≤ count then (s, eInval)
    else
      let s := if 1 < count then s.releaseTx bus (count - 1) else s
      confirmLoop e count buf (s.hwprivToVifpriv e interfaceLinkId).1

/-- `WSM_TX_REQ_ID` and `WSM_LEGACY_MULTI_TX_CNF_ID` -/
inductive ConfirmKind
  | single
  | multi
  deriving DecidableEq, Repr

/-- A confirmation as the bus hands it over: `wsm_release_tx_buffer(1)`, then its handler. -/
def rxConfirm (bus : Bus) (e : ConfirmEnv) (kind : ConfirmKind) (interfaceLinkId : Nat) (buf : Cursor)
    (s : ConfirmState) : ConfirmState × Int :=
  let s := s.releaseTx bus 1
  match kind with
  | .single => ((wsmTxConfirm e buf s).1, (wsmTxConfirm e buf s).2.2)
  | .multi => wsmMultiTxConfirm bus e interfaceLinkId buf s

/-- The confirmations at the head of the buffer, `n` at most, up to the first that is cut off. -/
def parsedConfirms : Nat → Cursor → List WsmTxConfirm
  | 0, _ => []
  | n + 1, buf =>
    match readTxConfirm buf with
    | (some arg, buf) => arg :: parsedConfirms n buf
    | (none, _) => []

/-- How many confirmations a message announces, none if its count is no positive number, and where they
begin. -/
def announced (kind : ConfirmKind) (buf : Cursor) : Nat × Cursor :=
  match kind with
  | .single => (1, buf)
  | .multi =>
    match get32 buf with
    | (some count, buf) => (if count < 2 ^ 31 then count else 0, buf)
    | (none, buf) => (0, buf)

def confirmsOf (kind : ConfirmKind) (buf : Cursor) : List WsmTxConfirm :=
  parsedConfirms (announced kind buf).1 (announced kind buf).2

/-- A frame handed to the device goes by this id. -/
def OutstandingId (s : TxQueues) (packetID : Nat) : Prop :=
  ∃ h : (atbmQueueParseId packetID).queueId < 4, Outstanding (s.txQueue ⟨_, h⟩) packetID

instance decOutstandingId (s : TxQueues) (packetID : Nat) : Decidable (OutstandingId s packetID) :=
  inferInstanceAs (Decidable (∃ _, _))

def matchedIds (s : TxQueues) (l : List WsmTxConfirm) : List Nat :=
  ((l.map WsmTxConfirm.packetID).dedup).filter fun id => OutstandingId s id

/-- How many confirmations are of interface `i`. -/
def ofInterface (i : Nat) (l : List WsmTxConfirm) : Nat := l.countP fun arg => arg.ifId == i

def ConfirmState.outOfRange (s : ConfirmState) : Nat := s.indices.countP fun x => !x.inBounds

/-- The times the `BUG_ON` of the queue id was reached. -/
def ConfirmState.bugs (s : ConfirmState) : Nat := s.queues.traps.count .queueId

/-- What a message with the confirmations `l` may do: no index beyond its array, no `BUG_ON` of the queue
id, and the counters change by the outstanding frames confirmed. -/
structure ConfirmsCounted (l : List WsmTxConfirm) (s s' : ConfirmState) : Prop where
  indices : s'.outOfRange = s.outOfRange
  bugs : s'.bugs = s.bugs
  used : s'.bh.hwBufsUsed = s.bh.hwBufsUsed - (matchedIds s.queues l).length
  usedVif : ∀ i < maxVifs, s'.bh.hwBufsUsedVif i =
    s.bh.hwBufsUsedVif i - (matchedIds s.queues l).countP fun id => (atbmQueueParseId id).ifId == i
  warns : s'.warns = s.warns

structure AllOutstanding (bus : Bus) (kind : ConfirmKind) (buf : Cursor) (s : ConfirmState) : Prop where
  pos : 0 < (announced kind buf).1
  complete : (confirmsOf kind buf).length = (announced kind buf).1
  distinct : ((confirmsOf kind buf).map WsmTxConfirm.packetID).Nodup
  outstanding : ∀ arg ∈ confirmsOf kind buf, OutstandingId s.queues arg.packetID ∧ arg.ifId < maxVifs
  covers : (∃ aresA, bus = .sdio aresA) → ((announced kind buf).1 : Int) ≤ s.bh.hwBufsUsed
  coversVif : ∀ i, 0 < ofInterface i (confirmsOf kind buf) →
    (ofInterface i (confirmsOf kind buf) : Int) ≤ s.bh.hwBufsUsedVif i

/-- The `BUG_ON` of the queue id is not reached. -/
def SameBugs (s s' : TxQ) : Prop := s'.traps.count .queueId = s.traps.count .queueId

namespace SameBugs

theorem refl (s : TxQ) : SameBugs s s := rfl

theorem trans {s t u : TxQ} (h : SameBugs s t) (h' : SameBugs t u) : SameBugs s u := Eq.trans h' h

theorem trap {b : Bool} {t : Trap} (s : TxQ) (h : b = true → t ≠ .queueId) : SameBugs s (trapIf b t s) := by
  unfold SameBugs trapIf
  split
  · next hb => exact List.count_cons_of_ne (h hb)
  · rfl

theorem trapOpt {q : AtbmQueue} {p : ParsedId} {ret : Int} {t : Option Trap} (h : checkId q p = some (ret, t))
    (s : TxQ) : SameBugs s (AtbmWifi.trapOpt t s) := by
  cases t with
  | none => exact refl s
  | some t =>
    refine trap s fun _ => ?_
    rintro rfl
    unfold checkId at h
    split at h
    · cases h
    split at h
    · cases h
    split at h
    · cases h
    · cases h

theorem releaseOverfull (e : QEnv) (i : Nat) (s : TxQ) : SameBugs s (AtbmWifi.releaseOverfull e i s) := by
  unfold AtbmWifi.releaseOverfull
  split
  · have h : SameBugs s (trapIf ((setOverfull i false s).q.txLockedCnt i == 0) .unlockZero (setOverfull i false s)) :=
      (refl s).trans (trap (setOverfull i false s) nofun)
    unfold clearOverfull atbmQueueUnlockCore
    simp only
    split
    · unfold ieee80211WakeQueue
      split
      · exact h
      · exact h
    · exact h
  · exact refl s

theorem destroySkb (it : AtbmQueueItem) (s : TxQ) : SameBugs s (AtbmWifi.destroySkb it s) := by
  unfold AtbmWifi.destroySkb
  split
  · exact refl s
  · exact refl s

section
variable {packetID : Nat} {s : TxQ} (h : (atbmQueueParseId packetID).queueId = s.q.queueId)
include h

theorem remove (e : QEnv) : SameBugs s (atbmQueueRemove e packetID s).1 := by
  have h1 : SameBugs s (trapIf ((atbmQueueParseId packetID).queueId != s.q.queueId) .queueId s) :=
    trap s fun hb => absurd h (by simpa using hb)
  unfold atbmQueueRemove
  simp only
  split
  · next ret t hc => exact h1.trans (trapOpt hc _)
  · have hfree : ∀ u, SameBugs u (freeItem (atbmQueueParseId packetID) u) := fun u => rfl
    exact h1.trans ((hfree _).trans ((releaseOverfull e _ _).trans (destroySkb _ _)))

theorem requeue (e : QEnv) (check : Bool) : SameBugs s (atbmQueueRequeue e packetID check s).1 := by
  unfold atbmQueueRequeue
  simp only
  split
  · exact remove h e
  · have hmark : ∀ s', s' = (if check = true then s else markGeneric (atbmQueueParseId packetID).itemId s) →
        SameBugs s s' ∧ (atbmQueueParseId packetID).queueId = s'.q.queueId := by
      rintro s' rfl
      split
      · exact ⟨refl s, h⟩
      · exact ⟨refl s, h⟩
    obtain ⟨h1, h2⟩ := hmark _ rfl
    have h3 := h1.trans (trap (b := (atbmQueueParseId packetID).queueId != _) (t := .queueId) _
      fun hb => absurd h2 (by simpa using hb))
    split
    · next ret t hc => exact h3.trans (trapOpt hc _)
    · exact h3

theorem getSkb : SameBugs s (atbmQueueGetSkb packetID s).1 := by
  have h1 : SameBugs s (trapIf ((atbmQueueParseId packetID).queueId != s.q.queueId) .queueId s) :=
    trap s fun hb => absurd h (by simpa using hb)
  unfold atbmQueueGetSkb
  simp only
  split
  · next ret t hc => exact h1.trans (trapOpt hc _)
  · exact h1

end

end SameBugs

structure QueueOnly (s s' : ConfirmState) : Prop where
  bh : s'.bh = s.bh
  warns : s'.warns = s.warns
  indices : s'.outOfRange = s.outOfRange
  bugs : s'.bugs = s.bugs

namespace QueueOnly

theorem refl (s : ConfirmState) : QueueOnly s s := ⟨rfl, rfl, rfl, rfl⟩

theorem trans {s t u : ConfirmState} (h : QueueOnly s t) (h' : QueueOnly t u) : QueueOnly s u :=
  ⟨h'.bh.trans h.bh, h'.warns.trans h.warns, h'.indices.trans h.indices, h'.bugs.trans h.bugs⟩

theorem use {x : ArrayIndex} (h : x.inBounds = true) (s : ConfirmState) : QueueOnly s (s.use x) := by
  refine ⟨rfl, rfl, ?_, rfl⟩
  unfold ConfirmState.outOfRange ConfirmState.use
  rw [List.countP_cons_of_neg (by simp [h])]

theorem write {c : Fin 4} {v : TxQ} {s : ConfirmState} (hv : v.q.queueId = (s.queues.txQueue c).queueId)
    (h : SameBugs (s.queues.view c) v) : QueueOnly s (s.write c v hv) := ⟨rfl, rfl, rfl, h⟩

theorem hwprivToVifpriv (e : ConfirmEnv) (i : Nat) (s : ConfirmState) :
    QueueOnly s (s.hwprivToVifpriv e i).1 := by
  unfold ConfirmState.hwprivToVifpriv
  split
  · exact refl s
  · next hle =>
    apply use
    simp only [ArrayIndex.inBounds, decide_eq_true_eq]
    omega

theorem confirmItem (e : ConfirmEnv) (arg : WsmTxConfirm) {c : Fin 4} (s : ConfirmState)
    (hc : (atbmQueueParseId arg.packetID).queueId = c) : QueueOnly s (AtbmWifi.confirmItem e arg c s) := by
  have hid : ∀ t : ConfirmState, (atbmQueueParseId arg.packetID).queueId = (t.queues.view c).q.queueId :=
    fun t => hc.trans (t.queueIds c).symm
  have hrequeue : ∀ (check : Bool) (t : ConfirmState), QueueOnly t (t.requeue e.q arg.packetID check c) :=
    fun check t => write (queueId_requeue e.q arg.packetID check _) (SameBugs.requeue (hid t) e.q check)
  have hpool : QueueOnly s (s.use (.pool (atbmQueueParseId arg.packetID).itemId)) := by
    apply use
    exact decide_eq_true (field_lt 0 8 arg.packetID)
  have hskb : ∀ t : ConfirmState, QueueOnly t (t.getSkb arg.packetID c).1 :=
    fun t => write (queueId_getSkb arg.packetID _) (SameBugs.getSkb (hid t))
  unfold AtbmWifi.confirmItem
  simp only
  generalize s.use (.pool (atbmQueueParseId arg.packetID).itemId) = t at hpool
  refine hpool.trans ?_
  split
  · exact hrequeue true t
  · have hskb := hskb t
    split
    · next heq =>
      rw [heq] at hskb
      exact hskb
    · next heq =>
      rw [heq] at hskb
      refine hskb.trans ?_
      split
      · exact hrequeue true _
      · split
        · exact hrequeue false _
        · exact write (queueId_remove e.q arg.packetID _) (SameBugs.remove (hid _) e.q)

end QueueOnly

theorem txConfirmCb_spec (e : ConfirmEnv) (arg : WsmTxConfirm) (s : ConfirmState) :
    QueueOnly (s.use (.txQueue (atbmQueueParseId arg.packetID).queueId)) (atbmTxConfirmCb e arg s) := by
  have hvif := QueueOnly.hwprivToVifpriv e arg.ifId (s.use (.txQueue (atbmQueueParseId arg.packetID).queueId))
  unfold atbmTxConfirmCb
  simp only
  split
  · split
    · exact hvif.trans (.confirmItem e arg _ rfl)
    · exact hvif
  · exact hvif

structure ConfirmedOne (arg : WsmTxConfirm) (s s' : ConfirmState) : Prop where
  used : s'.bh.hwBufsUsed = s.bh.hwBufsUsed
  usedVif : s'.bh.hwBufsUsedVif =
    Function.update s.bh.hwBufsUsedVif arg.ifId (max (s.bh.hwBufsUsedVif arg.ifId - 1) 0)
  warns : s'.warns = s.warns + if s.bh.hwBufsUsedVif arg.ifId < 1 then 1 else 0
  indices : s'.outOfRange = s.outOfRange + (if arg.ifId < maxVifs then 0 else 1) +
    if (atbmQueueParseId arg.packetID).queueId < 4 then 0 else 1
  bugs : s'.bugs = s.bugs

theorem confirmed_spec (e : ConfirmEnv) (arg : WsmTxConfirm) (s : ConfirmState) :
    ConfirmedOne arg s (confirmed e s arg) := by
  have h := txConfirmCb_spec e arg (s.releaseVifTx arg.ifId 1)
  refine ⟨?_, ?_, ?_, ?_, ?_⟩
  · exact (congrArg BhState.hwBufsUsed h.bh).trans rfl
  · exact (congrArg BhState.hwBufsUsedVif h.bh).trans rfl
  · refine h.warns.trans ?_
    show s.warns + (if s.bh.hwBufsUsedVif arg.ifId - ((1 : Nat) : Int) < 0 then 1 else 0) = _
    congr 1
    by_cases hv : s.bh.hwBufsUsedVif arg.ifId < 1
    · rw [if_pos hv, if_pos (by omega)]
    · rw [if_neg hv, if_neg (by omega)]
  · refine h.indices.trans ?_
    have hcount : ∀ b : Bool, (if (!b) = true then 1 else 0) = if b = true then 0 else 1 := by decide
    show List.countP (fun x => !x.inBounds) (_ :: _ :: s.indices) = _
    rw [List.countP_cons, List.countP_cons, hcount, hcount]
    show s.outOfRange + (if decide _ = true then 0 else 1) + (if decide _ = true then 0 else 1) = _
    simp only [decide_eq_true_eq]
  · exact h.bugs

theorem readTxConfirm_ifId {buf buf' : Cursor} {arg : WsmTxConfirm} (h : readTxConfirm buf = (some arg, buf')) :
    arg.ifId = (atbmQueueParseId arg.packetID).ifId := by
  unfold readTxConfirm at h
  simp only [bind_eq_some] at h
  obtain ⟨_, _, -, _, _, -, _, _, -, _, _, -, _, _, -, _, _, -, _, _, -, h⟩ := h
  cases h
  rfl

theorem parsedConfirms_ifId {n : Nat} {buf : Cursor} {arg : WsmTxConfirm} (h : arg ∈ parsedConfirms n buf) :
    arg.ifId = (atbmQueueParseId arg.packetID).ifId := by
  induction n generalizing buf with
  | zero => cases h
  | succ n ih =>
    unfold parsedConfirms at h
    split at h
    · next hread =>
      rcases List.mem_cons.mp h with rfl | h
      · exact readTxConfirm_ifId hread
      · exact ih h
    · cases h

theorem length_parsedConfirms (n : Nat) (buf : Cursor) : (parsedConfirms n buf).length ≤ n := by
  induction n generalizing buf with
  | zero => exact Nat.le_refl 0
  | succ n ih =>
    unfold parsedConfirms
    split
    · exact Nat.succ_le_succ (ih _)
    · exact Nat.zero_le _

theorem confirmLoop_eq (e : ConfirmEnv) (n : Nat) (buf : Cursor) (s : ConfirmState) :
    (confirmLoop e n buf s).1 = (parsedConfirms n buf).foldl (confirmed e) s := by
  induction n generalizing buf s with
  | zero => rfl
  | succ n ih =>
    unfold confirmLoop parsedConfirms wsmTxConfirm
    rcases readTxConfirm buf with ⟨_ | arg, buf'⟩
    · rfl
    · exact ih buf' (confirmed e s arg)

/-- What the confirmations `l` do, one after the other. -/
structure ConfirmedAll (l : List WsmTxConfirm) (s s' : ConfirmState) : Prop where
  used : s'.bh.hwBufsUsed = s.bh.hwBufsUsed
  warns_le : s.warns ≤ s'.warns
  warns : s'.warns = s.warns ↔ ∀ i, 0 < ofInterface i l → (ofInterface i l : Int) ≤ s.bh.hwBufsUsedVif i
  usedVif : s'.warns = s.warns → ∀ i, s'.bh.hwBufsUsedVif i = s.bh.hwBufsUsedVif i - ofInterface i l
  indices_le : s.outOfRange ≤ s'.outOfRange
  indices : s'.outOfRange = s.outOfRange ↔
    ∀ arg ∈ l, arg.ifId < maxVifs ∧ (atbmQueueParseId arg.packetID).queueId < 4
  bugs : s'.bugs = s.bugs

theorem confirmedAll (e : ConfirmEnv) (l : List WsmTxConfirm) (s : ConfirmState) :
    ConfirmedAll l s (l.foldl (confirmed e) s) := by
  induction l generalizing s with
  | nil =>
    refine ⟨rfl, Nat.le_refl _, ⟨fun _ i h => absurd h (Nat.lt_irrefl 0), fun _ => rfl⟩, fun _ i => ?_,
      Nat.le_refl _, ⟨fun _ _ h => absurd h List.not_mem_nil, fun _ => rfl⟩, rfl⟩
    exact (Int.sub_zero _).symm
  | cons arg l ih =>
    have h1 := confirmed_spec e arg s
    have h2 := ih (confirmed e s arg)
    rw [List.foldl_cons]
    generalize confirmed e s arg = t at h1 h2
    generalize l.foldl (confirmed e) t = s' at h2
    have hcount : ∀ i, ofInterface i (arg :: l) = ofInterface i l + if arg.ifId = i then 1 else 0 := by
      intro i
      unfold ofInterface
      rw [List.countP_cons]
      simp only [beq_iff_eq]
    have hw1 := h1.warns
    have hw2 := h2.warns_le
    -- no warning: the counter covers this confirmation, and then the others
    have hvif : s.bh.hwBufsUsedVif arg.ifId ≥ 1 → ∀ i,
        t.bh.hwBufsUsedVif i = s.bh.hwBufsUsedVif i - if arg.ifId = i then 1 else 0 := by
      intro hpos i
      rw [h1.usedVif]
      by_cases hi : arg.ifId = i
      · subst hi
        rw [Function.update_self, if_pos rfl]
        omega
      · rw [Function.update_of_ne (Ne.symm hi), if_neg hi, Int.sub_zero]
    have hcovered : s'.warns = s.warns ↔ 1 ≤ s.bh.hwBufsUsedVif arg.ifId ∧ s'.warns = t.warns := by
      by_cases hpos : s.bh.hwBufsUsedVif arg.ifId < 1
      · rw [if_pos hpos] at hw1
        omega
      · rw [if_neg hpos] at hw1
        omega
    refine ⟨h2.used.trans h1.used, by omega, ?_, ?_, ?_, ?_, h2.bugs.trans h1.bugs⟩
    · rw [hcovered, h2.warns]
      constructor
      · rintro ⟨hpos, hall⟩ i hi
        have hall := hall i
        rw [hvif hpos] at hall
        rw [hcount] at hi ⊢
        by_cases heq : arg.ifId = i
        · rw [if_pos heq] at hall ⊢
          subst heq
          by_cases h0 : ofInterface arg.ifId l = 0
          · omega
          · have := hall (by omega)
            omega
        · rw [if_neg heq] at hi hall ⊢
          have := hall hi
          omega
      · intro hall
        have hself := hall arg.ifId
        rw [hcount, if_pos rfl] at hself
        have hpos : 1 ≤ s.bh.hwBufsUsedVif arg.ifId := by
          have := hself (by omega)
          omega
        refine ⟨hpos, ?_⟩
        intro i hi
        have hall := hall i
        rw [hcount] at hall
        rw [hvif hpos]
        have := hall (by omega)
        split at this <;> omega
    · intro hw i
      obtain ⟨hpos, hw⟩ := hcovered.mp hw
      rw [h2.usedVif hw, hvif hpos, hcount]
      split <;> omega
    · have := h1.indices
      have := h2.indices_le
      omega
    · have hi1 := h1.indices
      have hi2 := h2.indices_le
      rw [List.forall_mem_cons, ← h2.indices]
      by_cases ha : arg.ifId < maxVifs
      · by_cases hq : (atbmQueueParseId arg.packetID).queueId < 4
        · rw [if_pos ha, if_pos hq] at hi1
          simp only [ha, hq, and_self, true_and]
          omega
        · rw [if_pos ha, if_neg hq] at hi1
          simp only [hq, and_false, false_and, iff_false]
          omega
      · rw [if_neg ha] at hi1
        simp only [ha, false_and, iff_false]
        omega

/-! ## The buffers released before the message is parsed -/

/-- What a release of `count` buffers does. -/
structure Released (bus : Bus) (count : Nat) (s s' : ConfirmState) : Prop where
  used : s'.warns = s.warns → s'.bh.hwBufsUsed = s.bh.hwBufsUsed - count
  usedVif : s'.bh.hwBufsUsedVif = s.bh.hwBufsUsedVif
  queues : s'.queues = s.queues
  warns_le : s.warns ≤ s'.warns
  warns : s'.warns = s.warns ↔ ((∃ aresA, bus = .sdio aresA) → (count : Int) ≤ s.bh.hwBufsUsed)
  indices : s'.outOfRange = s.outOfRange

theorem releaseTx_spec (bus : Bus) (count : Nat) (s : ConfirmState) : Released bus count s (s.releaseTx bus count) := by
  have hplain : ∀ t : ConfirmState, t = { s with bh := { s.bh with hwBufsUsed := s.bh.hwBufsUsed - count } } →
      (∀ aresA, bus ≠ .sdio aresA) → Released bus count s t := by
    rintro t rfl hbus
    exact ⟨fun _ => rfl, rfl, rfl, Nat.le_refl _, ⟨fun _ h => absurd h.choose_spec (hbus _), fun _ => rfl⟩, rfl⟩
  cases bus with
  | usb => exact hplain _ rfl nofun
  | spi => exact hplain _ rfl nofun
  | sdio aresA =>
    have hpair : (s.releaseTx (.sdio aresA) count).bh = (wsmReleaseTxBuffer count s.bh).1 := rfl
    have hwarns : (s.releaseTx (.sdio aresA) count).warns = s.warns + if s.bh.hwBufsUsed - count < 0 then 1 else 0 := rfl
    have hwarned : (s.releaseTx (.sdio aresA) count).warns = s.warns ↔ (count : Int) ≤ s.bh.hwBufsUsed := by
      rw [hwarns]
      split <;> omega
    refine ⟨?_, ?_, rfl, ?_, ?_, rfl⟩
    · intro hw
      have hle := hwarned.mp hw
      rw [hpair]
      unfold wsmReleaseTxBuffer
      rw [if_neg (by omega)]
    · rw [hpair]
      unfold wsmReleaseTxBuffer
      split <;> rfl
    · rw [hwarns]
      exact Nat.le_add_right _ _
    · rw [hwarned]
      exact ⟨fun h _ => h, fun h => h ⟨aresA, rfl⟩⟩

theorem Released.add {bus : Bus} {m n : Nat} {s t u : ConfirmState} (h : Released bus m s t) (h' : Released bus n t u) :
    Released bus (m + n) s u := by
  have hwarns : u.warns = s.warns ↔ t.warns = s.warns ∧ u.warns = t.warns := by
    have h1 := h.warns_le
    have h2 := h'.warns_le
    omega
  refine ⟨?_, h'.usedVif.trans h.usedVif, h'.queues.trans h.queues, h.warns_le.trans h'.warns_le, ?_,
    h'.indices.trans h.indices⟩
  · intro hw
    obtain ⟨h1, h2⟩ := hwarns.mp hw
    rw [h'.used h2, h.used h1]
    omega
  · rw [hwarns]
    constructor
    · rintro ⟨h1, h2⟩ hbus
      have hcover := h'.warns.mp h2 hbus
      rw [h.used h1] at hcover
      omega
    · intro hcover
      have h1 : t.warns = s.warns := h.warns.mpr fun hbus => by
        have := hcover hbus
        omega
      refine ⟨h1, h'.warns.mpr fun hbus => ?_⟩
      have := hcover hbus
      rw [h.used h1]
      omega

theorem rxConfirm_eq (bus : Bus) (e : ConfirmEnv) (kind : ConfirmKind) (link : Nat) (buf : Cursor)
    (s : ConfirmState) : ∃ t u, Released bus (max 1 (announced kind buf).1) s t ∧ QueueOnly t u ∧ u.queues = t.queues ∧
      (rxConfirm bus e kind link buf s).1 = (confirmsOf kind buf).foldl (confirmed e) u := by
  have hfirst := releaseTx_spec bus 1 s
  cases kind with
  | single =>
    refine ⟨_, _, hfirst, .refl _, rfl, ?_⟩
    simp only [rxConfirm, confirmsOf, announced, parsedConfirms, wsmTxConfirm]
    rcases readTxConfirm buf with ⟨_ | arg, buf'⟩
    · rfl
    · rfl
  | multi =>
    have hnone : ∀ buf', announced .multi buf = (0, buf') →
        wsmMultiTxConfirm bus e link buf (s.releaseTx bus 1) = (s.releaseTx bus 1, eInval) →
        ∃ t u, Released bus (max 1 (announced .multi buf).1) s t ∧ QueueOnly t u ∧ u.queues = t.queues ∧
          (rxConfirm bus e .multi link buf s).1 = (confirmsOf .multi buf).foldl (confirmed e) u := by
      intro buf' ha hw
      refine ⟨_, _, by rw [ha]; exact hfirst, .refl _, rfl, ?_⟩
      simp only [rxConfirm, hw, confirmsOf, ha, parsedConfirms, List.foldl_nil]
    rcases hget : get32 buf with ⟨_ | count, buf'⟩
    · exact hnone buf' (by simp only [announced, hget]) (by simp only [wsmMultiTxConfirm, hget])
    · by_cases hbad : count = 0 ∨ 2 ^ 31 ≤ count
      · apply hnone buf'
        · simp only [announced, hget]
          congr 1
          split <;> omega
        · simp only [wsmMultiTxConfirm, hget]
          rw [if_pos hbad]
      · have ha : announced .multi buf = (count, buf') := by
          simp only [announced, hget]
          rw [if_pos (by omega)]
        have hrun : (rxConfirm bus e .multi link buf s).1 = (confirmLoop e count buf'
            ((if 1 < count then (s.releaseTx bus 1).releaseTx bus (count - 1) else s.releaseTx bus 1).hwprivToVifpriv
              e link).1).1 := by
          simp only [rxConfirm, wsmMultiTxConfirm, hget]
          rw [if_neg hbad]
        have hqueues : ∀ t : ConfirmState, (t.hwprivToVifpriv e link).1.queues = t.queues := by
          intro t
          unfold ConfirmState.hwprivToVifpriv
          split <;> rfl
        rw [hrun, confirmLoop_eq, confirmsOf, ha]
        refine ⟨_, _, ?_, .hwprivToVifpriv e link _, hqueues _, rfl⟩
        by_cases hone : 1 < count
        · rw [if_pos hone]
          have hadd := hfirst.add (releaseTx_spec bus (count - 1) _)
          rw [show max 1 count = 1 + (count - 1) by omega]
          exact hadd
        · rw [if_neg hone, show max 1 count = 1 by omega]
          exact hfirst

theorem length_matchedIds_le (s : TxQueues) (l : List WsmTxConfirm) : (matchedIds s l).length ≤ l.length := by
  have h1 := (List.filter_sublist (p := fun id => OutstandingId s id)
    (l := (l.map WsmTxConfirm.packetID).dedup)).length_le
  have h2 := (List.dedup_sublist (l.map WsmTxConfirm.packetID)).length_le
  rw [List.length_map] at h2
  exact h1.trans h2

theorem matchedIds_eq {s : TxQueues} {l : List WsmTxConfirm} (hnodup : (l.map WsmTxConfirm.packetID).Nodup)
    (hall : ∀ arg ∈ l, OutstandingId s arg.packetID) : matchedIds s l = l.map WsmTxConfirm.packetID := by
  unfold matchedIds
  rw [List.dedup_eq_self.mpr hnodup, List.filter_eq_self]
  intro id hid
  obtain ⟨arg, harg, rfl⟩ := List.mem_map.mp hid
  exact decide_eq_true (hall arg harg)

theorem length_matchedIds_eq {s : TxQueues} {l : List WsmTxConfirm} :
    (matchedIds s l).length = l.length ↔
      (l.map WsmTxConfirm.packetID).Nodup ∧ ∀ arg ∈ l, OutstandingId s arg.packetID := by
  unfold matchedIds
  constructor
  · intro h
    have h1 := (List.filter_sublist (p := fun id => OutstandingId s id)
      (l := (l.map WsmTxConfirm.packetID).dedup)).length_le
    have hsub := List.dedup_sublist (l.map WsmTxConfirm.packetID)
    have h2 := hsub.length_le
    rw [List.length_map] at h2
    have hdedup : (l.map WsmTxConfirm.packetID).dedup = l.map WsmTxConfirm.packetID :=
      hsub.eq_of_length (by rw [List.length_map]; omega)
    refine ⟨List.dedup_eq_self.mp hdedup, ?_⟩
    rw [hdedup, ← List.length_map WsmTxConfirm.packetID, List.length_filter_eq_length_iff] at h
    intro arg harg
    exact of_decide_eq_true (h _ (List.mem_map_of_mem harg))
  · rintro ⟨hnodup, hall⟩
    have h := matchedIds_eq hnodup hall
    unfold matchedIds at h
    rw [h, List.length_map]

/-- **Confirmations are counted** as the frames they confirm, and no index leaves its array, exactly when
the message holds every confirmation it announces, each of another outstanding frame of an interface that
exists, and the counters cover them. -/
theorem confirms_counted (bus : Bus) (e : ConfirmEnv) (kind : ConfirmKind) (link : Nat) (buf : Cursor)
    (s : ConfirmState) :
    ConfirmsCounted (confirmsOf kind buf) s (rxConfirm bus e kind link buf s).1 ↔ AllOutstanding bus kind buf s := by
  obtain ⟨t, u, hrel, hvif, hqueues, heq⟩ := rxConfirm_eq bus e kind link buf s
  have hall := confirmedAll e (confirmsOf kind buf) u
  rw [heq]
  generalize (confirmsOf kind buf).foldl (confirmed e) u = s' at hall
  have hlen : (confirmsOf kind buf).length ≤ (announced kind buf).1 := length_parsedConfirms _ _
  have hwarns : s'.warns = s.warns ↔ t.warns = s.warns ∧ s'.warns = u.warns := by
    have h1 := hrel.warns_le
    have h2 := hvif.warns
    have h3 := hall.warns_le
    omega
  have hbh : u.bh.hwBufsUsedVif = s.bh.hwBufsUsedVif := by rw [hvif.bh, hrel.usedVif]
  constructor
  · intro h
    obtain ⟨hw1, hw2⟩ := hwarns.mp h.warns
    have hused := h.used
    rw [hall.used, hvif.bh, hrel.used hw1] at hused
    have hmatched := length_matchedIds_le s.queues (confirmsOf kind buf)
    have hfull : (confirmsOf kind buf).length = (announced kind buf).1 := by omega
    obtain ⟨hnodup, hout⟩ := length_matchedIds_eq.mp
      (show (matchedIds s.queues (confirmsOf kind buf)).length = (confirmsOf kind buf).length by omega)
    have hindices := h.indices
    rw [← hrel.indices, ← hvif.indices, hall.indices] at hindices
    have hcovers := hrel.warns.mp hw1
    rw [show max 1 (announced kind buf).1 = (announced kind buf).1 by omega] at hcovers
    refine ⟨by omega, hfull, hnodup, fun arg harg => ⟨hout arg harg, (hindices arg harg).1⟩, hcovers, ?_⟩
    rw [← hbh]
    exact hall.warns.mp hw2
  · intro h
    have hpos := h.pos
    have hmax : max 1 (announced kind buf).1 = (announced kind buf).1 := by omega
    have hw1 : t.warns = s.warns := hrel.warns.mpr (by rw [hmax]; exact h.covers)
    have hw2 : s'.warns = u.warns := hall.warns.mpr (by rw [hbh]; exact h.coversVif)
    have hmatched := length_matchedIds_eq.mpr ⟨h.distinct, fun arg harg => (h.outstanding arg harg).1⟩
    refine ⟨?_, ?_, ?_, ?_, hwarns.mpr ⟨hw1, hw2⟩⟩
    · rw [hall.indices.mpr, hvif.indices, hrel.indices]
      intro arg harg
      exact ⟨(h.outstanding arg harg).2, (h.outstanding arg harg).1.choose⟩
    · rw [hall.bugs, hvif.bugs]
      unfold ConfirmState.bugs
      rw [hrel.queues]
    · rw [hall.used, hvif.bh, hrel.used hw1, hmatched, h.complete, hmax]
    · intro i _
      rw [hall.usedVif hw2, hbh, matchedIds_eq h.distinct fun arg harg => (h.outstanding arg harg).1,
        List.countP_map]
      congr 2
      apply List.countP_congr
      intro arg harg
      rw [parsedConfirms_ifId harg]
      rfl

/-- A message of `len` bytes, the header included, that begins with these. -/
def messageOf (len : Nat) (body : List UInt8) : Cursor := ⟨fun i => body.getD (i - 4) 0, 4, len⟩

/-- One frame of interface 0 is with the device, under the id `0x1000000`. -/
def oneSent : ConfirmState where
  bh := { bhStart 30 with hwBufsUsed := 1, hwBufsUsedVif := fun i => if i = 0 then 1 else 0 }
  queues := (TxQueues.start fun _ => 1000).run [samplePut 7 0, sampleGet 0]
  indices := []
  warns := 0
  queueIds := by decide +kernel

def sampleConfirmEnv : ConfirmEnv where
  q := sampleEnv
  vifList i := if i = 0 then some false else none
  lmcRequeue := false
  p2p := false
  eap _ := false
  rocAction _ _ := false

/-- A confirmation that is cut off releases a buffer; one with interface 5 and queue 7 indexes with them; and
a multi confirmation releases the 20 buffers it announces, with one confirmation in it. -/
theorem confirms_miscounted :
    (confirmsOf .single (messageOf 12 []) = [] ∧
      (rxConfirm .usb sampleConfirmEnv .single 0 (messageOf 12 []) oneSent).1.bh.hwBufsUsed = 0) ∧
    (ArrayIndex.hwBufsUsedVif 5 ∈
        (rxConfirm .usb sampleConfirmEnv .single 0 (messageOf 24 [0, 0, 0x57, 0]) oneSent).1.indices ∧
      ArrayIndex.txQueue 7 ∈
        (rxConfirm .usb sampleConfirmEnv .single 0 (messageOf 24 [0, 0, 0x57, 0]) oneSent).1.indices) ∧
    (matchedIds oneSent.queues (confirmsOf .multi (messageOf 28 [20, 0, 0, 0, 0, 0, 0, 1])) = [0x1000000] ∧
      (rxConfirm .usb sampleConfirmEnv .multi 0 (messageOf 28 [20, 0, 0, 0, 0, 0, 0, 1]) oneSent).1.bh.hwBufsUsed =
        -19) := by
  decide +kernel

end AtbmWifi
