import AtbmWifi.Queue.Accounting
import AtbmWifi.Scan.Finish

/-!
# The TX lock

`tx_lock` is raised by `wsm_lock_tx`, `wsm_vif_lock_tx` and `wsm_lock_tx_async` and
lowered by `wsm_unlock_tx`, which does nothing but complain when `bh_error` is set.  A
thread runs one of the functions of `PortCall`; its `script` is what it still does to the TX
lock, and `pc` is where it is inside `__atbm_flush`.  A step of a thread is one access to
what the threads share; between two steps of it frames are put, sent, confirmed and
requeued, the firmware fails, and the scans take and return the lock.

`held` and `skipped` are history: what a thread has raised the lock by, and the calls of
`wsm_unlock_tx` that did nothing.
-/

namespace AtbmWifi

open Transition

structure TxPort where
  txLock : Int
  bhError : Bool
  /-- `bh_thread` is there and `atbm_pluged` is set -/
  alive : Bool
  /-- `vif_list[if_id]` is set -/
  vif : Nat → Bool
  /-- `tx_queue` and `tx_queue_stats` -/
  queues : TxQueues
  hwBufsUsed : Nat
  scan : ScanState
  /-- a `BUG_ON` of `wsm_flush_tx`, `wsm_vif_flush_tx` or `wsm_unlock_tx` -/
  bug : Bool
  skipped : Nat

namespace TxPort

def atbmBhIsTerm (p : TxPort) : Bool := !p.alive || p.bhError

/-- `wsm_lock_tx_async`, and the other two up to their flush. -/
def wsmLockTxAsync (p : TxPort) : TxPort := { p with txLock := p.txLock + 1 }

/-- `wsm_flush_tx` and `wsm_vif_flush_tx`: they wait, and nobody asks what for. -/
def wsmFlushTx (p : TxPort) : TxPort := { p with bug := p.bug || decide (p.txLock = 0) }

def wsmUnlockTx (p : TxPort) : TxPort :=
  if p.bhError then { p with skipped := p.skipped + 1 }
  else { p with txLock := p.txLock - 1, bug := p.bug || decide (p.txLock - 1 < 0) }

/-- `atbm_queue_stats_is_empty(&tx_queue_stats, -1, if_id)` -/
def atbmQueueStatsIsEmpty (p : TxPort) (ifId : Nat) : Bool := decide (p.queues.stats.numQueued ifId = 0)

def atbmQueueClear (p : TxPort) (e : QEnv) (c : Fin 4) (ifId : Nat) : TxPort :=
  { p with queues := p.queues.step ⟨c, e, .clear ifId⟩ }

end TxPort

inductive FlushPc
  | enter (drop : Bool)
  /-- the top of the loop -/
  | loop (drop : Bool)
  /-- before `atbm_queue_clear` of queue `n`; the lock is taken if the wait had timed out -/
  | clearing (drop : Bool) (n : Nat) (locked : Bool)
  /-- the wait has timed out -/
  | timedOut
  /-- before the read of `hw_bufs_used` -/
  | look
  | giveUp
  /-- before the second lock -/
  | relock (drop : Bool)
  | test (drop : Bool)
  /-- the test has found frames -/
  | again (drop : Bool)
  deriving DecidableEq, Repr

def FlushPc.held : FlushPc → Nat
  | .enter _ | .loop _ | .timedOut | .relock _ => 0
  | .clearing _ _ locked => locked.toNat
  | .look | .giveUp | .test _ | .again _ => 1

inductive FlushNext
  /-- on, through the flush of the lock function if it was the first to lock -/
  | go (pc : FlushPc) (flushing : Bool)
  | ret (r : Int)

/-- `__atbm_flush` of interface `i`, one access further. -/
def atbmFlushNext (i : Nat) (e : QEnv) (p : TxPort) : FlushPc → TxPort × FlushNext
  | .enter drop => if p.vif i then (p, .go (.loop (drop || p.atbmBhIsTerm)) false) else (p, .ret (-1))
  | .loop drop =>
    if drop then (p, .go (.clearing true 0 false) false)
    -- the wait ends when the interface has no frame left, or after 7 s
    else if p.atbmQueueStatsIsEmpty i then (p, .go (.relock false) false)
    else (p, .go .timedOut false)
  | .timedOut => (p.wsmLockTxAsync, .go .look (decide (p.txLock + 1 = 1)))
  | .look => (p, .go (if p.hwBufsUsed = 0 then .clearing false 0 true else .giveUp) false)
  | .giveUp => (p.wsmUnlockTx, .ret (-etimedout))
  | .clearing drop n locked =>
    if h : n < 4 then (p.atbmQueueClear e ⟨n, h⟩ i, .go (.clearing drop (n + 1) locked) false)
    else (if locked then p.wsmUnlockTx else p, .go (.relock drop) false)
  | .relock drop => (p.wsmLockTxAsync, .go (.test drop) (decide (p.txLock + 1 = 1)))
  | .test drop => if p.atbmQueueStatsIsEmpty i then (p, .ret 0) else (p, .go (.again drop) false)
  | .again drop => (p.wsmUnlockTx, .go (.loop drop) false)

inductive TxInstr
  | wsmLockTx
  | wsmLockTxAsync
  /-- `if (atbm_bh_is_term(hw_priv)) goto reset_priv; wsm_flush_tx(hw_priv);` -/
  | wsmFlushTxUnlessTerm
  | atbmFlush (drop : Bool)
  /-- `if (!ret) wsm_unlock_tx(hw_priv);` -/
  | wsmUnlockTxIfFlushed
  | wsmUnlockTx
  /-- `vif_list[if_id] = NULL` -/
  | clearVif
  deriving DecidableEq, Repr

/-- The functions, with what they find in the checks before they touch the lock. -/
inductive PortCall
  | atbmFlush (inSlot drop : Bool)
  | atbmRemainOnChannel (passive : Bool)
  | atbmRemChanTimeout (remaining : Bool)
  | atbmRemoveInterface (enabled : Bool)
  | atbmMulticastStartWork (aid0BitSet : Bool)
  | atbmMulticastStopWork (aid0BitSet : Bool)
  deriving DecidableEq, Repr

def PortCall.script (term : Bool) : PortCall → List TxInstr
  | .atbmFlush inSlot drop => if inSlot then [.atbmFlush drop, .wsmUnlockTxIfFlushed] else []
  | .atbmRemainOnChannel passive =>
    if term = false ∧ passive = true then [.atbmFlush false, .wsmUnlockTxIfFlushed] else []
  | .atbmRemChanTimeout remaining =>
    if term = false ∧ remaining = true then [.atbmFlush false, .wsmUnlockTxIfFlushed] else []
  | .atbmRemoveInterface enabled =>
    if enabled then
      [.wsmLockTxAsync, .wsmFlushTxUnlessTerm, .atbmFlush true, .wsmUnlockTxIfFlushed, .wsmUnlockTx, .clearVif]
    else []
  | .atbmMulticastStartWork aid0BitSet =>
    if term = false ∧ aid0BitSet = false then [.wsmLockTx, .wsmUnlockTx] else []
  | .atbmMulticastStopWork aid0BitSet =>
    if term = false ∧ aid0BitSet = true then [.wsmLockTx, .wsmUnlockTx] else []

structure TxThread where
  ifId : Nat
  script : List TxInstr
  /-- inside `__atbm_flush` -/
  pc : Option FlushPc
  /-- inside a lock function, before its flush -/
  flushing : Bool
  /-- what `__atbm_flush` returned last -/
  ret : Int
  held : Nat

namespace TxThread

def idle : TxThread := ⟨0, [], none, false, 0, 0⟩

/-- An instruction of the script other than `__atbm_flush`. -/
def instr (t : TxThread) (p : TxPort) : TxInstr → TxPort × TxThread
  | .wsmLockTx => (p.wsmLockTxAsync, { t with flushing := decide (p.txLock + 1 = 1), held := t.held + 1 })
  | .wsmLockTxAsync => (p.wsmLockTxAsync, { t with held := t.held + 1 })
  | .wsmFlushTxUnlessTerm => (if p.atbmBhIsTerm then p else p.wsmFlushTx, t)
  | .atbmFlush drop => (p, { t with pc := some (.enter drop) })
  | .wsmUnlockTxIfFlushed => if t.ret = 0 then (p.wsmUnlockTx, { t with held := t.held - 1 }) else (p, t)
  | .wsmUnlockTx => (p.wsmUnlockTx, { t with held := t.held - 1 })
  | .clearVif => ({ p with vif := Function.update p.vif t.ifId false }, t)

def run (e : QEnv) (t : TxThread) (p : TxPort) : TxPort × TxThread :=
  if t.flushing then (p.wsmFlushTx, { t with flushing := false })
  else match t.pc with
    | some pc =>
      match atbmFlushNext t.ifId e p pc with
      | (p', .go pc' flushing) => (p', { t with pc := some pc', flushing, held := t.held + pc'.held - pc.held })
      | (p', .ret r) =>
        (p', { t with pc := none, ret := r, held := t.held + (if r = 0 then 1 else 0) - pc.held })
    | none =>
      match t.script with
      | [] => (p, t)
      | i :: l => { t with script := l }.instr p i

end TxThread

structure TxState (T : Type) where
  port : TxPort
  thread : T → TxThread

inductive TxAct (T : Type)
  | call (t : T) (ifId : Nat) (c : PortCall)
  | run (t : T) (e : QEnv)
  | scan (a : ScanAct)
  /-- frames are put, sent, confirmed, requeued and dropped -/
  | queue (ev : QEvent)
  | hwBufs (n : Nat)
  /-- the bus thread dies, the bus is reset -/
  | bhError (b : Bool)
  | alive (b : Bool)
  | addVif (i : Nat)

/-- The locks that a step of the scans takes; what it gives back is the rest of the difference. -/
def ScanAct.txLocks : ScanAct → Nat
  | .hwScanSetup ret _ _ => if ret = 0 then 1 else 0
  | .runSplit _ => 1
  | _ => 0

def ScanAct.txUnlocks (splitCfg : Bool) (s : ScanState) (a : ScanAct) : Int :=
  s.txLock + a.txLocks - (a.next splitCfg s).txLock

/-- A step of the scans: `wsm_lock_tx_async` with `wsm_flush_tx`, and `wsm_unlock_tx`. -/
def TxPort.scanStep (splitCfg : Bool) (a : ScanAct) (p : TxPort) : TxPort :=
  let locked := { p with
    scan := a.next splitCfg p.scan
    txLock := p.txLock + a.txLocks
    bug := p.bug || decide (0 < a.txLocks ∧ p.txLock + a.txLocks = 0) }
  if 0 < a.txUnlocks splitCfg p.scan then locked.wsmUnlockTx else locked

section
variable {T : Type} [DecidableEq T]

def TxAct.next (splitCfg : Bool) (s : TxState T) : TxAct T → TxState T
  | .call t ifId c =>
    { s with thread := Function.update s.thread t { s.thread t with
        ifId, script := c.script s.port.atbmBhIsTerm } }
  | .run t e =>
    let r := (s.thread t).run e s.port
    { port := r.1, thread := Function.update s.thread t r.2 }
  | .scan a => { s with port := s.port.scanStep splitCfg a }
  | .queue ev => { s with port := { s.port with queues := s.port.queues.step ev } }
  | .hwBufs n => { s with port := { s.port with hwBufsUsed := n } }
  | .bhError b => { s with port := { s.port with bhError := b } }
  | .alive b => { s with port := { s.port with alive := b } }
  | .addVif i => { s with port := { s.port with vif := Function.update s.port.vif i true } }

def TxThread.Done (t : TxThread) : Prop := t.script = [] ∧ t.pc = none ∧ t.flushing = false

instance decTxDone (t : TxThread) : Decidable t.Done := inferInstanceAs (Decidable (_ ∧ _ ∧ _))

/-- What is confirmed or requeued is in flight; `vif_list` has `ATBM_WIFI_MAX_VIFS` interfaces. -/
def TxAct.enabled (s : TxState T) : TxAct T → Prop
  | .call t _ _ => (s.thread t).Done
  | .scan a => a.Enabled s.port.scan
  | .queue ev => Valid s.port.queues ev ∧ Honest s.port.queues ev
  | .addVif i => i < maxVifs
  | _ => True

structure TxState.Start (s : TxState T) : Prop where
  txLock : s.port.txLock = 0
  skipped : s.port.skipped = 0
  bug : s.port.bug = false
  vif : ∀ i, s.port.vif i = false
  queues : ∃ ttl, s.port.queues = TxQueues.start ttl
  scan : s.port.scan = {}
  thread : ∀ t, s.thread t = .idle

def txLocking (splitCfg : Bool) (T : Type) [DecidableEq T] : Sys (TxState T) (TxAct T) :=
  .ofNext TxState.Start TxAct.enabled (TxAct.next splitCfg)

end

end AtbmWifi
