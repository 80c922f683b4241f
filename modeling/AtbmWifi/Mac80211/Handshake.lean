import AtbmWifi.Lib.Handoff
import AtbmWifi.Lib.Transition

/-!
# Frames held back during the last handshake message

A station interface on a WPA or RSN network.  While a 4/4 message is being sent `ieee80211_tx_prepare` puts the
data frames of the entry on `handshake_buffed`; the report of the message, or the next data frame after it,
queues them on the pending lists.  The two flags of the entry and the list have no common lock: every test,
write and insertion is a step of its own, by any of `n` threads, one of which may be the tasklet
`ieee80211_tx_pending`.

`pending` has the frames of this entry.  What else can hold a frame back in `__ieee80211_tx`, a stopped queue
or frames of other entries, is the choice of the environment, as is what the transmit handlers answer.
-/

namespace AtbmWifi

open Transition

/-- What `ieee80211_tx_prepare` reads of an EAPOL frame; `room`: the bytes from the network header on, less those
of `struct atbm_wpa_eapol_key`. -/
structure HsEapol where
  keyInfo : BitVec 16
  keyDataLen : Nat
  room : Nat
  deriving DecidableEq, Repr

def HsEapol.pairwise4of4 (micLen : Nat) (k : HsEapol) : Bool :=
  decide (k.keyDataLen ≤ k.room) && k.keyInfo.getLsbD 3 &&
    (k.keyDataLen == 0 || (micLen == 0 && k.keyInfo.getLsbD 12 && k.keyDataLen == 16))

/-- `skb->protocol` -/
inductive HsProtocol
  | data
  /-- `ETH_P_PAE` -/
  | pae (key : HsEapol)
  deriving DecidableEq, Repr

/-- A frame for the entry, with what is used of `struct ieee80211_tx_info`. -/
structure HsFrame where
  protocol : HsProtocol
  /-- `skb_get_queue_mapping` -/
  ac : Fin 4
  hwQueue : Nat
  /-- `IEEE80211_TX_INTFL_NEED_TXPROCESSING` -/
  needTxprocessing : Bool
  /-- `IEEE80211_TX_HANDSHAKE` -/
  handshake : Bool
  deriving DecidableEq, Repr

/-- As `ieee80211_subif_start_xmit` passes it on: `memset(info, 0, sizeof(*info))`. -/
def HsFrame.fresh (protocol : HsProtocol) (ac : Fin 4) : HsFrame := ⟨protocol, ac, 0, false, false⟩

/-- The interface, its entry and `hw.queues`. -/
structure HsCfg where
  ifId : Nat
  micLen : Nat
  queues : Nat
  deriving Repr

/-- `vif.hw_queue[ac]`, as `atbm_add_interface` sets it -/
def HsCfg.hwQueue (cfg : HsCfg) (ac : Fin 4) : Nat := 4 * cfg.ifId + ac

/-- What a thread does when it has emptied `handshake_buffed`. -/
inductive HsAfter
  /-- `ieee80211_tx_prepare` goes on with its own frame; for the tasklet, the queue it has come to -/
  | tx (f : HsFrame) (txpending : Option Nat)
  /-- `ieee80211_tx_status` -/
  | status
  deriving DecidableEq, Repr

inductive HsPc
  | out
  /-- the `for` loop of `ieee80211_tx_pending` -/
  | scan (i : Nat)
  /-- its `while` loop -/
  | drain (i : Nat)
  | testSuccess (f : HsFrame) (txpending : Option Nat)
  | testSending (f : HsFrame) (txpending : Option Nat)
  | insert (f : HsFrame) (txpending : Option Nat)
  | setSending (f : HsFrame) (txpending : Option Nat)
  | clearSuccess (f : HsFrame) (txpending : Option Nat)
  /-- `ieee80211_tx` after `ieee80211_tx_prepare` -/
  | handlers (f : HsFrame) (txpending : Option Nat)
  /-- `__ieee80211_tx` -/
  | send (f : HsFrame) (txpending : Option Nat)
  | clearSending
  | setSuccess
  /-- `atbm_skb_dequeue(&sta->handshake_buffed)` -/
  | dequeue (k : HsAfter)
  /-- `ieee80211_add_pending_skb` -/
  | addPending (k : HsAfter)
  deriving DecidableEq, Repr

structure HsState (n : Nat) where
  /-- the entry is in the hash table -/
  linked : Bool
  /-- `__sta_info_free` -/
  freed : Bool
  /-- `WLAN_STA_HANDSHAKE4OF4_SENDING`, `WLAN_STA_HANDSHAKE4OF4_SUCCESS` -/
  sending : Bool
  success : Bool
  /-- `handshake_buffed`, with the `buffed_skb` of each thread and what has become of the frames -/
  buffed : Handoff (Fin n) HsFrame
  pending : Nat → List HsFrame
  /-- frames given to the driver and not reported -/
  driver : List HsFrame
  pc : Fin n → HsPc

/-- What the environment answers: whether a handler drops the frame, and whether its queue is stopped or has
frames of other entries. -/
structure HsChoice where
  drop : Bool
  stopped : Bool
  deriving DecidableEq, Repr

inductive HsAct (n : Nat)
  /-- `ieee80211_tx` finds the entry, for a new frame -/
  | xmit (t : Fin n) (protocol : HsProtocol) (ac : Fin 4)
  /-- `ieee80211_tx_pending` -/
  | tasklet (t : Fin n)
  | exec (t : Fin n) (c : HsChoice)
  /-- `ieee80211_tx_status` -/
  | report (t : Fin n) (f : HsFrame) (acked : Bool)
  /-- `sta_info_hash_del` -/
  | hashDel
  /-- after `synchronize_rcu`: `__sta_info_free` -/
  | free
  deriving DecidableEq, Repr

namespace HsPc

/-- The thread is in `ieee80211_tx` or `ieee80211_tx_status`. -/
def inside : HsPc → Bool
  | .out | .scan _ | .drain _ => false
  | _ => true

def inTasklet : HsPc → Bool
  | .scan _ | .drain _ => true
  | .testSuccess _ p | .testSending _ p | .insert _ p | .setSending _ p | .clearSuccess _ p | .handlers _ p
  | .send _ p | .dequeue (.tx _ p) | .addPending (.tx _ p) => p.isSome
  | _ => false

def usesSta : HsPc → Bool
  | .out | .scan _ | .drain _ | .handlers _ _ | .send _ _ => false
  | _ => true

/-- `ieee80211_tx` returns: to its caller, or to the tasklet, which stops with the queue when the frame was
queued again. -/
def txReturn (txok : Bool) : Option Nat → HsPc
  | none => .out
  | some i => if txok then .drain i else .scan (i + 1)

def after : HsAfter → HsPc
  | .tx f p => .handlers f p
  | .status => .out

end HsPc

namespace HsState

variable {n : Nat}

def go (t : Fin n) (p : HsPc) (s : HsState n) : HsState n := { s with pc := Function.update s.pc t p }

/-- `ieee80211_tx_prepare` up to the first flag; a frame whose entry is not found is not looked at. -/
def ieee80211TxPrepare (cfg : HsCfg) (s : HsState n) (f : HsFrame) (p : Option Nat) : HsPc :=
  let f := { f with needTxprocessing := false }
  if s.linked then
    match f.protocol with
    | .data => .testSuccess f p
    | .pae k => if k.pairwise4of4 cfg.micLen then .setSending f p else .handlers f p
  else .handlers f p

def ieee80211TxPendingSkb (cfg : HsCfg) (s : HsState n) (f : HsFrame) (i : Nat) : HsPc :=
  if f.needTxprocessing then s.ieee80211TxPrepare cfg f (some i) else .send f (some i)

/-- `ieee80211_add_pending_skb` of the `buffed_skb` of thread `t`, with `IEEE80211_TX_INTFL_NEED_TXPROCESSING` -/
def ieee80211AddPendingSkb (t : Fin n) (s : HsState n) : HsState n :=
  match s.buffed.hand t with
  | none => s
  | some x =>
    let queue := s.pending x.2.hwQueue ++ [{ x.2 with needTxprocessing := true }]
    { s with buffed := s.buffed.give t, pending := Function.update s.pending x.2.hwQueue queue }

def ieee80211Tx (t : Fin n) (f : HsFrame) (p : Option Nat) (stopped : Bool) (s : HsState n) : HsState n :=
  let queue := s.pending f.hwQueue
  if stopped || (p.isNone && !queue.isEmpty) then
    let queue' := if p.isSome then f :: queue else queue ++ [f]
    { s with pending := Function.update s.pending f.hwQueue queue' }.go t (.txReturn false p)
  else { s with driver := s.driver ++ [f] }.go t (.txReturn true p)

/-- The next statement of thread `t`. -/
def exec (cfg : HsCfg) (t : Fin n) (c : HsChoice) (s : HsState n) : HsState n :=
  match s.pc t with
  | .out => s
  | .scan i =>
    if cfg.queues ≤ i then s.go t .out
    else if c.stopped || (s.pending i).isEmpty then s.go t (.scan (i + 1))
    else s.go t (.drain i)
  | .drain i =>
    match s.pending i with
    | [] => s.go t (.scan (i + 1))
    | f :: rest => { s with pending := Function.update s.pending i rest }.go t (s.ieee80211TxPendingSkb cfg f i)
  | .testSuccess f p => s.go t (if s.success then .dequeue (.tx f p) else .testSending f p)
  | .testSending f p => s.go t (if s.sending then .insert f p else .handlers f p)
  | .insert f p => { s with buffed := s.buffed.put f }.go t (.txReturn true p)
  | .setSending f p => { s with sending := true }.go t (.clearSuccess f p)
  | .clearSuccess f p => { s with success := false }.go t (.handlers { f with handshake := true } p)
  | .handlers f p =>
    if c.drop then s.go t (.txReturn true p) else s.go t (.send { f with hwQueue := cfg.hwQueue f.ac } p)
  | .send f p => s.ieee80211Tx t f p c.stopped
  | .clearSending => { s with sending := false }.go t .setSuccess
  | .setSuccess => { s with success := true }.go t (.dequeue .status)
  | .dequeue k =>
    if s.buffed.waiting.isEmpty then s.go t (.after k)
    else { s with buffed := s.buffed.take t }.go t (.addPending k)
  | .addPending k => (s.ieee80211AddPendingSkb t).go t (.dequeue k)

def enabled (s : HsState n) : HsAct n → Prop
  | .xmit t _ _ => s.pc t = .out ∧ s.linked
  | .tasklet t => s.pc t = .out ∧ ∀ u, (s.pc u).inTasklet = false
  | .exec t _ => s.pc t ≠ .out
  | .report t f _ => s.pc t = .out ∧ f ∈ s.driver
  | .hashDel => s.linked
  | .free => s.linked = false ∧ s.freed = false ∧ ∀ u, (s.pc u).usesSta = false

instance (s : HsState n) (a : HsAct n) : Decidable (s.enabled a) := by
  cases a <;> unfold enabled <;> infer_instance

/-- The branch for an acknowledged report and the one for a lost one only write to the log. -/
def next (cfg : HsCfg) (s : HsState n) : HsAct n → HsState n
  | .xmit t protocol ac => s.go t (s.ieee80211TxPrepare cfg (.fresh protocol ac) none)
  | .tasklet t => s.go t (.scan 0)
  | .exec t c => s.exec cfg t c
  | .report t f _ =>
    { s with driver := s.driver.erase f }.go t (if s.linked && f.handshake then .clearSending else .out)
  | .hashDel => { s with linked := false }
  | .free => { s with freed := true, buffed := s.buffed.clear }

/-- After the association: `ieee80211_assoc_success` has cleared both flags. -/
def start : HsState n :=
  { linked := true, freed := false, sending := false, success := false, buffed := .empty, pending := fun _ => [],
    driver := [], pc := fun _ => .out }

end HsState

def hsSys (cfg : HsCfg) (n : Nat) : Sys (HsState n) (HsAct n) :=
  .ofNext (· = .start) HsState.enabled (HsState.next cfg)

end AtbmWifi
