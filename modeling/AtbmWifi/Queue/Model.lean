import AtbmWifi.Queue.PacketId
import Mathlib.Logic.Function.Basic

/-!
# The TX queue (`queue.h`, `queue.c`, `ATBM_WIFI_QUEUE_LOCK_BUG` build)

A queue owns a pool of items; each item's list head is on `free_pool`, `queue`
(waiting) or `pending` (handed to the device).  Four queues share one
`atbm_queue_stats` and the mac80211 stop reasons.

An operation maps the state `TxQ` one call can touch (a queue and what the
queues share) to the new one and the C return value.  Lists are lists of slot
numbers, `list_move` erases the slot from whichever list holds it.  `u32`
counters are integers reduced by `u32` where the code decrements or
increments, so a counter that passes zero shows.  `BUG_ON`, `WARN_ON` and
`skb_dtor` calls are recorded in `traps` and `dtor`.  Arrays indexed by
interface are total functions; the callers pass interfaces below
`ATBM_WIFI_MAX_VIFS`.
-/

namespace AtbmWifi

def maxVifs : Nat := 2
def genericIfId : UInt8 := 2
def allIfs : Int := -1
def maxQueueSz : Nat := 256
def wlanLinkIdMax : Nat := 17
def hwQueues : Nat := 8

def eNoEnt : Int := -2
def eInval : Int := -22

def u32 (x : Int) : Int := x % 4294967296
/-- Reduction to `unsigned long`. -/
def ulong (x : Int) : Int := x % 18446744073709551616

structure AtbmTxpriv where
  linkId : UInt8
  rawLinkId : UInt8
  tid : UInt8
  rateId : UInt8
  offset : UInt8
  ifId : UInt8
  offchannelIfId : UInt8
deriving DecidableEq, Inhabited

/-- A frame and the `packetID` word of the `wsm_tx` header in its data. -/
structure SkBuff where
  frame : Nat
  packetID : Nat
deriving DecidableEq, Inhabited

structure AtbmQueueItem where
  skb : Option SkBuff
  packetID : Nat
  queueTimestamp : Int
  xmitTimestamp : Int
  txpriv : AtbmTxpriv
  generation : UInt8
deriving DecidableEq, Inhabited

structure AtbmQueue where
  capacity : Nat
  numQueued : Int
  numQueuedVif : Nat → Int
  numPending : Int
  numPendingVif : Nat → Int
  numSent : Int
  numPut : Int
  pool : Nat → AtbmQueueItem
  queue : List Nat
  freePool : List Nat
  pending : List Nat
  txLockedCnt : Nat → Int
  linkMapCache : Nat → Nat → Int
  overfull : Nat → Bool
  queueId : Nat
  generation : Nat
  /-- expiry of an armed timer -/
  gc : Nat → Option Int
  ttl : Int
  /-- frame `skb_last` points to -/
  skbLast : Option Nat

structure AtbmQueueStats where
  linkMapCache : Nat → Nat → Int
  numQueued : Nat → Int
  mapCapacity : Nat

/-- The complaint sites of `queue.c`. -/
inductive Trap
  | freePoolEmpty
  | itemSkb
  | getNone
  | queueId
  | itemId
  | itemGeneration
  | clearPending
  | clearQueued
  | gcLoop
  | lockNotStopped
  | unlockZero
deriving DecidableEq

structure TxQ where
  q : AtbmQueue
  stats : AtbmQueueStats
  /-- `IEEE80211_QUEUE_STOP_REASON_DRIVER` of each mac80211 queue -/
  driverStopped : Nat → Bool
  /-- `wake_up(&stats->wait_link_id_empty)` calls -/
  wakes : Nat
  traps : List Trap
  /-- `skb_dtor` calls -/
  dtor : List (Option SkBuff × AtbmTxpriv)

structure QEnv where
  jiffies : Int
  numPresentCpus : Nat
  /-- `queue_cap` of the interface, `none` if its `vif_list` entry is NULL -/
  queueCap : Nat → Option Nat
  /-- mac80211's own stop reasons of a queue -/
  otherStopped : Nat → Bool

/-- The complaints of `atbm_queue_clear` about the counters. -/
def Trap.counter : Trap → Bool
  | clearPending | clearQueued => true
  | _ => false

def Trap.lock : Trap → Bool
  | lockNotStopped | unlockZero => true
  | _ => false

def trapIf (b : Bool) (t : Trap) (s : TxQ) : TxQ := if b then { s with traps := t :: s.traps } else s

def wakeIf (b : Bool) (s : TxQ) : TxQ := if b then { s with wakes := s.wakes + 1 } else s

def bump {ι : Type} [DecidableEq ι] (f : ι → Int) (i : ι) (d : Int) : ι → Int :=
  Function.update f i (f i + d)

/-- One counter of an array of `u32` changed. -/
def bump32 {ι : Type} [DecidableEq ι] (f : ι → Int) (i : ι) (d : Int) : ι → Int :=
  Function.update f i (u32 (f i + d))

def bump2 (f : Nat → Nat → Int) (i l : Nat) (d : Int) : Nat → Nat → Int :=
  Function.update f i (bump (f i) l d)

theorem bump_apply {ι : Type} [DecidableEq ι] (f : ι → Int) (i : ι) (d : Int) (j : ι) :
    bump f i d j = f j + if i = j then d else 0 := by
  unfold bump
  by_cases h : i = j
  · subst h; simp
  · simp [h, Ne.symm h]

theorem bump32_apply {ι : Type} [DecidableEq ι] {f : ι → Int} {i : ι} {d : Int} (h0 : 0 ≤ f i + d)
    (h1 : f i + d < 4294967296) (j : ι) : bump32 f i d j = f j + if i = j then d else 0 := by
  unfold bump32 u32
  by_cases h : i = j
  · subst h; simp [Int.emod_eq_of_lt h0 h1]
  · simp [h, Ne.symm h]

theorem bump2_apply (f : Nat → Nat → Int) (i l : Nat) (d : Int) (i' l' : Nat) :
    bump2 f i l d i' l' = f i' l' + if i = i' ∧ l = l' then d else 0 := by
  unfold bump2
  by_cases h : i = i'
  · subst h; simp [bump_apply]
  · simp [h, Ne.symm h]

theorem u32_of_lt {x : Int} (h0 : 0 ≤ x) (h1 : x < 4294967296) : u32 x = x :=
  Int.emod_eq_of_lt h0 h1

/-- The item at `k` changed. -/
def setItem (q : AtbmQueue) (k : Nat) (it : AtbmQueueItem) : AtbmQueue :=
  { q with pool := Function.update q.pool k it }

/-- `list_del` of the item from whichever list holds it. -/
def unlinkItem (q : AtbmQueue) (k : Nat) : AtbmQueue :=
  { q with queue := q.queue.erase k, freePool := q.freePool.erase k, pending := q.pending.erase k }

def ieee80211StopQueue (queue : Nat) (s : TxQ) : TxQ :=
  if queue ≥ hwQueues then s else { s with driverStopped := Function.update s.driverStopped queue true }

def ieee80211WakeQueue (queue : Nat) (s : TxQ) : TxQ :=
  if queue ≥ hwQueues then s else { s with driverStopped := Function.update s.driverStopped queue false }

def ieee80211QueueStopped (e : QEnv) (s : TxQ) (queue : Nat) : Bool :=
  if queue ≥ hwQueues then true else s.driverStopped queue || e.otherStopped queue

/-- `__atbm_queue_lock`. -/
def atbmQueueLockCore (e : QEnv) (ifId : Nat) (s : TxQ) : TxQ :=
  let s' := { s with q := { s.q with txLockedCnt := bump s.q.txLockedCnt ifId 1 } }
  if s.q.txLockedCnt ifId = 0 then ieee80211StopQueue (s.q.queueId + 4 * ifId) s'
  else trapIf (!ieee80211QueueStopped e s' (s.q.queueId + 4 * ifId)) .lockNotStopped s'

/-- `__atbm_queue_unlock`. -/
def atbmQueueUnlockCore (ifId : Nat) (s : TxQ) : TxQ :=
  let s' := trapIf (s.q.txLockedCnt ifId == 0) .unlockZero s
  let s'' := { s' with q := { s'.q with txLockedCnt := bump s'.q.txLockedCnt ifId (-1) } }
  if s''.q.txLockedCnt ifId = 0 then ieee80211WakeQueue (s.q.queueId + 4 * ifId) s'' else s''

def atbmQueueLock (e : QEnv) (ifId : Nat) (s : TxQ) : TxQ := atbmQueueLockCore e ifId s

def atbmQueueUnlock (ifId : Nat) (s : TxQ) : TxQ := atbmQueueUnlockCore ifId s

def setOverfull (ifId : Nat) (b : Bool) (s : TxQ) : TxQ :=
  { s with q := { s.q with overfull := Function.update s.q.overfull ifId b } }

/-- `atbm_mod_timer` on the gc timer of an interface; `none` once it has fired. -/
def setGc (ifId : Nat) (tmo : Option Int) (s : TxQ) : TxQ :=
  { s with q := { s.q with gc := Function.update s.q.gc ifId tmo } }

/-- The overfull flag of an interface dropped, its mac80211 queue released. -/
def clearOverfull (ifId : Nat) (s : TxQ) : TxQ := atbmQueueUnlockCore ifId (setOverfull ifId false s)

/-- The level at or below which `__atbm_queue_gc` and `atbm_queue_remove` release an interface. -/
def releaseLevel (e : QEnv) (q : AtbmQueue) (ifId : Nat) : Int :=
  match e.queueCap ifId with
  | some c => c * 2 / 3
  | none => q.capacity / 4

def putItem (e : QEnv) (skb : SkBuff) (t : AtbmTxpriv) (k : Nat) (s : TxQ) : TxQ :=
  let q := s.q
  let it : AtbmQueueItem :=
    { q.pool k with
      skb := some skb, txpriv := t, generation := 0, queueTimestamp := e.jiffies
      packetID := atbmQueueMakePacketId q.generation q.queueId 0 k t.ifId.toNat t.rawLinkId.toNat }
  { s with
    q :=
      { q with
        skbLast := some skb.frame
        freePool := q.freePool.erase k
        queue := q.queue ++ [k]
        pool := Function.update q.pool k it
        numQueued := u32 (q.numQueued + 1)
        numQueuedVif := bump32 q.numQueuedVif t.ifId.toNat 1
        linkMapCache := bump2 q.linkMapCache t.ifId.toNat t.linkId.toNat 1 }
    stats :=
      { s.stats with
        numQueued := bump s.stats.numQueued t.ifId.toNat 1
        linkMapCache := bump2 s.stats.linkMapCache t.ifId.toNat t.linkId.toNat 1 } }

/-- `xIF_QUEUE_OVERFLOW || ALLIF_QUEUE_OVERFLOW`; the subtractions are in `u32`. -/
def queueOverflow (e : QEnv) (q : AtbmQueue) (ifId : Nat) : Bool :=
  let capacity : Int := match e.queueCap ifId with
    | some c => c
    | none => q.capacity / 2
  decide (q.numQueuedVif ifId ≥ u32 (capacity - e.numPresentCpus)) ||
    decide (q.numQueued ≥ u32 (q.capacity - e.numPresentCpus))

/-- The flow control at the end of `atbm_queue_put`. -/
def putOverfull (e : QEnv) (ifId : Nat) (s : TxQ) : TxQ :=
  if s.q.overfull ifId = false ∧ queueOverflow e s.q ifId = true then
    setGc ifId (some e.jiffies) (atbmQueueLockCore e ifId (setOverfull ifId true s))
  else s

def atbmQueuePut (e : QEnv) (skb : SkBuff) (t : AtbmTxpriv) (s : TxQ) : TxQ × Int :=
  if s.stats.mapCapacity ≤ t.linkId.toNat then (s, eInval)
  else
    match s.q.freePool with
    | [] => (trapIf true .freePoolEmpty s, eNoEnt)
    | k :: _ =>
      let s := trapIf (s.q.pool k).skb.isSome .itemSkb s
      (putOverfull e t.ifId.toNat (putItem e skb t k s), 0)

/-- `link_id_map & BIT(link_id)`. -/
def linkAllowed (linkIdMap linkId : Nat) : Bool := linkIdMap.testBit linkId

/-- The packet id an item leaves with: its own, with the queue's generation. -/
def issuedId (q : AtbmQueue) (k : Nat) : Nat :=
  if (atbmQueueParseId (q.pool k).packetID).queueGeneration = q.generation &&& 0xF then
    (q.pool k).packetID
  else setGeneration (q.pool k).packetID q.generation

def getItem (e : QEnv) (k : Nat) (s : TxQ) : TxQ :=
  let q := s.q
  let it := q.pool k
  let i := it.txpriv.ifId.toNat
  let l := it.txpriv.linkId.toNat
  { s with
    q :=
      { q with
        skbLast := if q.skbLast = it.skb.map SkBuff.frame then none else q.skbLast
        pool := Function.update q.pool k
          { it with
            packetID := issuedId q k
            skb := it.skb.map fun b => { b with packetID := issuedId q k }
            xmitTimestamp := e.jiffies }
        queue := q.queue.erase k
        pending := q.pending ++ [k]
        numPending := u32 (q.numPending + 1)
        numPendingVif := bump32 q.numPendingVif i 1
        linkMapCache := bump2 q.linkMapCache i l (-1)
        numPut := u32 (q.numPut + 1) }
    stats :=
      { s.stats with
        numQueued := bump s.stats.numQueued i (-1)
        linkMapCache := bump2 s.stats.linkMapCache i l (-1) } }

/-- The shared link count of the item at `k` has reached zero. -/
def linkEmpty (k : Nat) (s : TxQ) : Bool :=
  s.stats.linkMapCache (s.q.pool k).txpriv.ifId.toNat (s.q.pool k).txpriv.linkId.toNat == 0

/-- The first waiting item of the interface whose link is allowed. -/
def selectItem (q : AtbmQueue) (ifId linkIdMap : Nat) : Option Nat :=
  q.queue.find? fun k => (q.pool k).txpriv.ifId.toNat == ifId &&
    linkAllowed linkIdMap (q.pool k).txpriv.linkId.toNat

/-- Returns the slot whose frame and `txpriv` the caller receives. -/
def atbmQueueGet (e : QEnv) (ifId linkIdMap : Nat) (s : TxQ) : TxQ × Int × Option Nat :=
  match selectItem s.q ifId linkIdMap with
  | none => (trapIf true .getNone s, eNoEnt, none)
  | some k =>
    let s := getItem e k s
    (wakeIf (linkEmpty k s) s, 0, some k)

/-! ## Confirmations: `atbm_queue_remove`, `atbm_queue_requeue`, `atbm_queue_get_skb` -/

/-- The checks the three share, on a parsed id: the error of the first that
fails, and its complaint. -/
def checkId (q : AtbmQueue) (p : ParsedId) : Option (Int × Option Trap) :=
  if p.queueGeneration ≠ q.generation then some (eNoEnt, none)
  else if q.capacity ≤ p.itemId then some (eInval, some .itemId)
  else if (q.pool p.itemId).generation.toNat ≠ p.itemGeneration then some (eNoEnt, some .itemGeneration)
  else none

def trapOpt (t : Option Trap) (s : TxQ) : TxQ :=
  match t with
  | some t => trapIf true t s
  | none => s

/-- The item freed and counted out of the interface the id names. -/
def freeItem (p : ParsedId) (s : TxQ) : TxQ :=
  let q := s.q
  let it := q.pool p.itemId
  { s with
    q :=
      { unlinkItem q p.itemId with
        pool := Function.update q.pool p.itemId { it with skb := none, generation := it.generation + 1 }
        numPending := u32 (q.numPending - 1)
        numPendingVif := bump32 q.numPendingVif p.ifId (-1)
        numQueued := u32 (q.numQueued - 1)
        numQueuedVif := bump32 q.numQueuedVif p.ifId (-1)
        numSent := u32 (q.numSent + 1)
        freePool := p.itemId :: (unlinkItem q p.itemId).freePool } }

def releaseOverfull (e : QEnv) (ifId : Nat) (s : TxQ) : TxQ :=
  if s.q.overfull ifId = true ∧ s.q.numQueuedVif ifId ≤ releaseLevel e s.q ifId then clearOverfull ifId s
  else s

/-- `skb_dtor` on the frame a freed item held, if it held one. -/
def destroySkb (it : AtbmQueueItem) (s : TxQ) : TxQ :=
  match it.skb with
  | some b => { s with dtor := s.dtor ++ [(some b, it.txpriv)] }
  | none => s

def atbmQueueRemove (e : QEnv) (packetID : Nat) (s : TxQ) : TxQ × Int :=
  let p := atbmQueueParseId packetID
  let s := trapIf (p.queueId != s.q.queueId) .queueId s
  match checkId s.q p with
  | some (ret, t) => (trapOpt t s, ret)
  | none => (destroySkb (s.q.pool p.itemId) (releaseOverfull e p.ifId (freeItem p s)), 0)

/-- The item put back at the head of the queue under a new item generation. -/
def requeueItem (p : ParsedId) (s : TxQ) : TxQ :=
  let q := s.q
  let it := q.pool p.itemId
  let l := it.txpriv.linkId.toNat
  let g := UInt8.ofNat (p.itemGeneration + 1)
  { s with
    q :=
      { unlinkItem q p.itemId with
        pool := Function.update q.pool p.itemId
          { it with
            generation := g
            packetID := atbmQueueMakePacketId p.queueGeneration p.queueId g.toNat p.itemId p.ifId p.linkId }
        numPending := u32 (q.numPending - 1)
        numPendingVif := bump32 q.numPendingVif p.ifId (-1)
        linkMapCache := bump2 q.linkMapCache p.ifId l 1
        queue := p.itemId :: (unlinkItem q p.itemId).queue }
    stats :=
      { s.stats with
        numQueued := bump s.stats.numQueued it.txpriv.ifId.toNat 1
        linkMapCache := bump2 s.stats.linkMapCache p.ifId l 1 } }

/-- `item->txpriv.offchannel_if_id = ATBM_WIFI_GENERIC_IF_ID`. -/
def markGeneric (k : Nat) (s : TxQ) : TxQ :=
  let it := s.q.pool k
  { s with q := setItem s.q k { it with txpriv := { it.txpriv with offchannelIfId := genericIfId } } }

def atbmQueueRequeue (e : QEnv) (packetID : Nat) (check : Bool) (s : TxQ) : TxQ × Int :=
  let p := atbmQueueParseId packetID
  let it := s.q.pool p.itemId
  if check = true ∧ it.txpriv.offchannelIfId = genericIfId then
    ((atbmQueueRemove e packetID s).1, 0)
  else
    -- the flag is written before the id is checked
    let s := if check then s else markGeneric p.itemId s
    let s := trapIf (p.queueId != s.q.queueId) .queueId s
    match checkId s.q p with
    | some (ret, t) => (trapOpt t s, ret)
    | none => (requeueItem p s, 0)

/-- Returns the frame and `txpriv` on success. -/
def atbmQueueGetSkb (packetID : Nat) (s : TxQ) : TxQ × Int × Option (Option SkBuff × AtbmTxpriv) :=
  let p := atbmQueueParseId packetID
  let s := trapIf (p.queueId != s.q.queueId) .queueId s
  match checkId s.q p with
  | some (ret, t) => (trapOpt t s, ret, none)
  | none => (s, 0, some ((s.q.pool p.itemId).skb, (s.q.pool p.itemId).txpriv))

/-- One expired item: counted out, copied to the gc list and freed. -/
def gcItem (k : Nat) (s : TxQ) : TxQ :=
  let q := s.q
  let it := q.pool k
  let i := it.txpriv.ifId.toNat
  let l := it.txpriv.linkId.toNat
  { s with
    q :=
      { q with
        numQueued := u32 (q.numQueued - 1)
        numQueuedVif := bump32 q.numQueuedVif i (-1)
        linkMapCache := bump2 q.linkMapCache i l (-1)
        pool := Function.update q.pool k { it with skb := none }
        queue := q.queue.erase k
        freePool := q.freePool ++ [k] }
    stats :=
      { s.stats with
        numQueued := bump s.stats.numQueued i (-1)
        linkMapCache := bump2 s.stats.linkMapCache i l (-1) }
    dtor := s.dtor ++ [(it.skb, it.txpriv)] }

/-- The `list_for_each_safe` loop: the state, `wakeup_stats`, and the item it stopped at. -/
def gcLoop (e : QEnv) (ifIdClear : Nat) : List Nat → Nat → Bool → TxQ → TxQ × Bool × Option Nat
  | [], _, wake, s => (s, wake, none)
  | k :: ks, loop, wake, s =>
    let s := trapIf (decide (loop + 1 > 300)) .gcLoop s
    if (s.q.pool k).txpriv.ifId.toNat ≠ ifIdClear then gcLoop e ifIdClear ks (loop + 1) wake s
    else if ulong (e.jiffies - (s.q.pool k).queueTimestamp) < s.q.ttl then (s, wake, some k)
    else
      let s := gcItem k s
      gcLoop e ifIdClear ks (loop + 1) (wake || linkEmpty k s) s

/-- `__atbm_queue_gc` with `unlock` set, as its only caller passes it. -/
def atbmQueueGcCore (e : QEnv) (ifIdClear : Nat) (s : TxQ) : TxQ :=
  let r := gcLoop e ifIdClear s.q.queue 0 false s
  let s := wakeIf r.2.1 r.1
  if s.q.overfull ifIdClear = true then
    if s.q.numQueuedVif ifIdClear ≤ releaseLevel e s.q ifIdClear then clearOverfull ifIdClear s
    else
      match r.2.2 with
      | some k => setGc ifIdClear (some (ulong ((s.q.pool k).queueTimestamp + s.q.ttl))) s
      | none => s
  else s

/-- `atbm_queue_gc`: the timer of the interface has fired. -/
def atbmQueueGc (e : QEnv) (ifId : Nat) (s : TxQ) : TxQ :=
  atbmQueueGcCore e ifId (setGc ifId none s)

def cleared (q : AtbmQueue) (ifId : Int) (k : Nat) : Bool :=
  ifId == allIfs || ((q.pool k).txpriv.ifId.toNat : Int) == ifId

/-- The two list walks: the taken items lose their frame and go to the end of the free pool. -/
def clearLists (ifId : Int) (s : TxQ) : TxQ :=
  let q := s.q
  let ps := q.pending.filter (cleared q ifId)
  let qs := q.queue.filter (cleared q ifId)
  let s := trapIf (decide ((ps.length : Int) > q.numPending)) .clearPending s
  let s := trapIf (decide (((ps.length + qs.length : Nat) : Int) > q.numQueued)) .clearQueued s
  { s with
    q :=
      { q with
        generation := ((q.generation + 1) % 256) &&& 0xf
        pending := q.pending.filter fun k => !cleared q ifId k
        queue := q.queue.filter fun k => !cleared q ifId k
        freePool := q.freePool ++ ps ++ qs
        pool := fun k => if k ∈ ps ++ qs then { q.pool k with skb := none } else q.pool k
        numPending := u32 (q.numPending - ps.length)
        numQueued := u32 (q.numQueued - (ps.length + qs.length : Nat)) }
    dtor := s.dtor ++ (ps ++ qs).map fun k => ((q.pool k).skb, (q.pool k).txpriv) }

/-- The counters of one interface set to zero, its link map taken out of the shared one. -/
def clearVif (i : Nat) (s : TxQ) : TxQ :=
  { s with
    q :=
      { s.q with
        numQueuedVif := Function.update s.q.numQueuedVif i 0
        numPendingVif := Function.update s.q.numPendingVif i 0
        linkMapCache := Function.update s.q.linkMapCache i fun l =>
          if l < s.stats.mapCapacity then 0 else s.q.linkMapCache i l }
    stats :=
      { s.stats with
        numQueued := Function.update s.stats.numQueued i
          (s.stats.numQueued i - ((List.range s.stats.mapCapacity).map (s.q.linkMapCache i)).sum)
        linkMapCache := Function.update s.stats.linkMapCache i fun l =>
          if l < s.stats.mapCapacity then s.stats.linkMapCache i l - s.q.linkMapCache i l
          else s.stats.linkMapCache i l } }

def clearOverfullIf (i : Nat) (s : TxQ) : TxQ :=
  if s.q.overfull i = true then clearOverfull i s else s

def atbmQueueClear (ifId : Int) (s : TxQ) : TxQ × Int :=
  let s := clearLists ifId s
  let s := if ifId = allIfs then
      clearOverfullIf 1 (clearOverfullIf 0 (clearVif 1 (clearVif 0 s)))
    else clearOverfullIf ifId.toNat (clearVif ifId.toNat s)
  (wakeIf true s, 0)

def atbmQueueInit (queueId capacity : Nat) (ttl : Int) : AtbmQueue where
  capacity := capacity
  numQueued := 0
  numQueuedVif := fun _ => 0
  numPending := 0
  numPendingVif := fun _ => 0
  numSent := 0
  numPut := 0
  pool := fun _ => default
  queue := []
  freePool := List.range capacity
  pending := []
  txLockedCnt := fun _ => 0
  linkMapCache := fun _ _ => 0
  overfull := fun _ => false
  queueId := queueId
  generation := 0
  gc := fun _ => none
  ttl := ttl
  skbLast := none

def atbmQueueStatsInit (mapCapacity : Nat) : AtbmQueueStats where
  linkMapCache := fun _ _ => 0
  numQueued := fun _ => 0
  mapCapacity := mapCapacity

end AtbmWifi
