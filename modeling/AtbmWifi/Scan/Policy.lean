import AtbmWifi.Scan.ChannelSelect

/-!
# The scan policies

A scan of mac80211 goes through the channels that were asked for once for each policy, in batches: `prepHwScan` fills the
next one from the channels that the first policy of the list takes, and unlinks the policy when it is through.
`startScan` and `scanCompleted` call it and hand the batch to the driver.

A channel of the request is written by its position, as `req->channels[i]` is a pointer.  The offers, the number of
policies that are unlinked and the results of the calls are kept for the proofs.
-/

namespace AtbmWifi

namespace ScanPolicy

open ChannelSelect (Build)

/-- `IEEE80211_BAND_2GHZ`, `IEEE80211_BAND_5GHZ` -/
inductive Band
  | ghz2
  | ghz5
  deriving DecidableEq

/-- `struct ieee80211_channel`; `hwValue` is `channel_hw_value`. -/
structure Chan where
  band : Band
  centerFreq : Nat
  hwValue : Nat
  deriving DecidableEq

def hasBand : Build → Band → Bool
  | _, .ghz2 => true
  | .only2g, .ghz5 => false
  | _, .ghz5 => true

inductive Results
  | ok
  | skip
  | finished
  deriving DecidableEq

/-- `IEEE80211_SCAN_POLICY_USER_CHANNEL`, `_2_4G`, `_5G_ON_IR`, `_5G_IR` -/
inductive Kind
  | user
  | only2G
  | only5GNoIr
  | only5GIr
  deriving DecidableEq

/-- `struct ieee80211_scan_policy`; `kind` says which function it has. -/
structure Policy where
  kind : Kind
  band : Band
  channelUnmap : Nat → Bool

def hasFunc : Build → Kind → Bool
  | _, .user => true
  | _, .only2G => true
  | b, .only5GNoIr => b = .full5g
  | b, .only5GIr => b = .pretend5g ∨ b = .full5g

def scanPolicyInit (k : Kind) : Policy :=
  match k with
  | .user => ⟨k, .ghz2, fun _ => false⟩
  | .only2G => ⟨k, .ghz2, fun _ => false⟩
  | .only5GNoIr => ⟨k, .ghz5, fun _ => false⟩
  | .only5GIr => ⟨k, .ghz5, fun _ => false⟩

/-- What `SCAN_POLICY_ACTION_INIT` of the user policy sees: the channel of `internal_ap_conf`, and whether it is one of
the wiphy. -/
structure ApConf where
  channel : Option Nat
  known : Bool

/-- `SCAN_POLICY_ACTION_INIT`; for the user policy the result of the loop is overwritten. -/
def Policy.init (conf : ApConf) (p : Policy) : Policy × Results :=
  let cleared := { p with channelUnmap := fun _ => false }
  match p.kind with
  | .user =>
    match conf.channel with
    | none => (cleared, .skip)
    | some channel =>
      if conf.known = false then (cleared, .skip)
      else ({ p with
        channelUnmap := fun n => n ≠ channel
        band := if channel ≤ 14 then .ghz2 else .ghz5 }, .skip)
  | .only2G | .only5GNoIr | .only5GIr => (cleared, .ok)

def prepareChannel (p : Policy) (noIr : Chan → Bool) (c : Chan) (taken : Results × (Chan → Bool)) : Results × (Chan → Bool) :=
  if c.band ≠ p.band then (.skip, noIr)
  else if p.channelUnmap c.hwValue then (.skip, noIr)
  else taken

def scanPolicyUser (p : Policy) (noIr : Chan → Bool) (c : Chan) := prepareChannel p noIr c (.finished, noIr)

def scanPolicy2G (p : Policy) (noIr : Chan → Bool) (c : Chan) := prepareChannel p noIr c (.ok, noIr)

def scanPolicy5GNoIr (p : Policy) (noIr : Chan → Bool) (c : Chan) :=
  prepareChannel p noIr c (.ok, fun d => d = c || noIr d)

def scanPolicy5GIr (p : Policy) (noIr : Chan → Bool) (c : Chan) :=
  prepareChannel p noIr c (if noIr c then .skip else .ok, noIr)

/-- `policy->func` with `SCAN_POLICY_ACTION_PREPARE_CHANNEL` -/
def Policy.offer (p : Policy) : (Chan → Bool) → Chan → Results × (Chan → Bool) :=
  match p.kind with
  | .user => scanPolicyUser p
  | .only2G => scanPolicy2G p
  | .only5GNoIr => scanPolicy5GNoIr p
  | .only5GIr => scanPolicy5GIr p

def Policy.rx (p : Policy) (noIr : Chan → Bool) (c : Chan) : Chan → Bool :=
  match p.kind with
  | .user | .only2G => noIr
  | .only5GNoIr | .only5GIr => fun d => d ≠ c && noIr d

/-- `ieee80211_scan_policy_rx` for the channels of some frames. -/
def scanPolicyRx (policy : Option Policy) (noIr : Chan → Bool) (frames : List Chan) : Chan → Bool :=
  match policy with
  | none => noIr
  | some p => frames.foldl p.rx noIr

/-- The loop of `ieee80211_scan_policy_prepare` -/
def preparePolicies (b : Build) (conf : ApConf) : List Kind → List Policy
  | [] => []
  | k :: rest =>
    if hasFunc b k = false then preparePolicies b conf rest
    else
      match (scanPolicyInit k).init conf with
      | (p, .ok) => p :: preparePolicies b conf rest
      | (_, .skip) => preparePolicies b conf rest
      | (p, .finished) => [p]

def scanPolicyPrepare (b : Build) (conf : ApConf) : List Policy :=
  preparePolicies b conf [.user, .only2G, .only5GNoIr, .only5GIr]

/-- What `ieee80211_scan_try_split` reads of an interface. -/
structure Iface where
  running : Bool
  rxTp : UInt64
  txTp : UInt64
  ap : Bool

/-- The sums over the running interfaces, and whether one is an AP. -/
def traffic (ifaces : List Iface) : UInt64 × UInt64 × Bool :=
  (ifaces.filter Iface.running).foldl (fun t i => (t.1 + i.rxTp, t.2.1 + i.txTp, t.2.2 || i.ap)) (0, 0, false)

/-- The classes of the traffic: `scan_channel_space` and `scan_idle_time`. -/
def spaceByTraffic (totalTp left : Nat) : Nat × Nat :=
  if totalTp ≤ 500 * 1024 then (left, 0)
  else if totalTp ≤ 1000 * 1024 then (10, 100)
  else if totalTp ≤ 5000 * 1024 then (6, 100)
  else if totalTp ≤ 10000 * 1024 then (2, 200)
  else if totalTp ≤ 20000 * 1024 then (2, 350)
  else if totalTp ≤ 30000 * 1024 then (1, 400)
  else (1, 450)

def scanTrySplit (ifaces : List Iface) (left : Nat) : Nat × Nat :=
  let t := traffic ifaces
  let s := spaceByTraffic (max t.1 t.2.1).toNat left
  let s := if left ≤ s.1 then (left, 0) else s
  if t.2.2 = true ∧ 1 < s.1 then (1, 80) else s

/-- What `ieee80211_scan_oper_channel` reads; `current` is the channel unless the mode is undefined. -/
structure OperSees where
  current : Option Nat
  p2p : Bool
  cca : Bool
  cfg80211 : Bool
  associated : Bool
  staListen : Bool

def scanOperChannel (o : OperSees) : Nat :=
  if o.p2p ∨ o.cca ∨ o.cfg80211 then 0
  else if o.associated = false ∧ o.staListen = false then 0
  else o.current.getD 0

structure Try where
  /-- `hw_scan_req->channels[0..n_chans)` -/
  chans : List Nat
  scanNChannels : Nat
  scanChannelIdx : Nat
  onlyProb : Bool
  noIr : Chan → Bool
  /-- Whether `BUG_ON(n_chans != 1)` was reached. -/
  bug : Bool
  /-- The positions that were offered, and whether they were taken. -/
  offered : List (Nat × Bool)

/-- What does not change in the loop; `frames i` are the channels of the frames received before position `i`. -/
structure Visit where
  policy : Policy
  operChannel : Nat
  scanChannelSpace : Nat
  frames : Nat → List Chan

/-- The loop of `ieee80211_prep_hw_scan` from position `i` on, and whether it leaves for `start_scan`. -/
def tries (v : Visit) : List Chan → Nat → Try → Try × Bool
  | [], _, t => (t, false)
  | c :: rest, i, t =>
    if c.band ≠ v.policy.band then tries v rest (i + 1) t
    else if t.chans ≠ [] ∧ v.operChannel = c.hwValue then (t, true)
    else
      let offer := v.policy.offer (scanPolicyRx (some v.policy) t.noIr (v.frames i)) c
      if offer.1 = .skip then tries v rest (i + 1) { t with noIr := offer.2, offered := t.offered ++ [(i, false)] }
      else
        let t := { t with
          noIr := offer.2
          offered := t.offered ++ [(i, true)]
          chans := t.chans ++ [i]
          scanNChannels := t.scanNChannels + 1
          scanChannelIdx := i + 1 }
        if v.operChannel = c.hwValue then ({ t with onlyProb := true, bug := t.bug || t.chans.length ≠ 1 }, true)
        else if v.scanChannelSpace ≤ t.chans.length then (t, true)
        else tries v rest (i + 1) t

structure Sees where
  ifaces : List Iface
  oper : OperSees
  frames : Nat → List Chan

/-- The scan of `struct ieee80211_local`; `hwChannels` is `hw_scan_req`, which is not filled in before the first batch. -/
structure Local where
  scanPolicy : List Policy
  policy : Option Policy
  scanChannelIdx : Nat
  scanNChannels : Nat
  scanChannelSpace : Nat
  scanIdleTime : Nat
  onlyProb : Bool
  noIr : Chan → Bool
  hwChannels : Option (List Nat)
  operChannel : Nat
  bug : Bool
  warned : Bool
  /-- How many policies were unlinked, and which one `policy` is. -/
  unlinked : Nat
  current : Nat
  /-- What was offered to each policy. -/
  offered : List (Nat × Nat × Bool)

/-- The beginning of a turn over policy `p`. -/
def Local.enter (req : List Chan) (sees : Sees) (p : Policy) (s : Local) : Local :=
  let split := scanTrySplit sees.ifaces (req.length - s.scanNChannels)
  { s with
    policy := some p
    current := s.unlinked
    warned := s.warned || req.length < s.scanNChannels
    scanChannelSpace := split.1
    scanIdleTime := split.2
    operChannel := scanOperChannel sees.oper }

/-- The variables of the loop are those of the scan; `n_chans` starts at 0. -/
def Local.tryOf (s : Local) : Try := ⟨[], s.scanNChannels, s.scanChannelIdx, s.onlyProb, s.noIr, s.bug, []⟩

def Local.tried (s : Local) (t : Try) : Local :=
  { s with
    scanNChannels := t.scanNChannels
    scanChannelIdx := t.scanChannelIdx
    onlyProb := t.onlyProb
    noIr := t.noIr
    bug := t.bug
    offered := s.offered ++ t.offered.map fun o => (s.current, o) }

/-- `list_del(&policy->list)` and the counters start again. -/
def Local.unlink (s : Local) (rest : List Policy) : Local :=
  { s with
    scanPolicy := rest
    scanChannelIdx := 0
    scanNChannels := 0
    unlinked := s.unlinked + 1 }

/-- `start_scan` -/
def Local.fill (s : Local) (chans : List Nat) : Local := { s with hwChannels := some chans }

def prepTurns (req : List Chan) (sees : Nat → Sees) : List Policy → Local → Local × Bool
  | [], s => (s, false)
  | p :: rest, s =>
    let s := s.enter req (sees s.unlinked) p
    let r := tries ⟨p, s.operChannel, s.scanChannelSpace, (sees s.unlinked).frames⟩ (req.drop s.scanChannelIdx)
      s.scanChannelIdx s.tryOf
    let s := s.tried r.1
    if r.2 = true then (s.fill r.1.chans, true)
    else if r.1.chans ≠ [] then ((s.unlink rest).fill r.1.chans, true)
    else prepTurns req sees rest (s.unlink rest)

/-- `ieee80211_prep_hw_scan`; `sees k` is what the turn over policy `k` sees. -/
def prepHwScan (req : List Chan) (sees : Nat → Sees) (s : Local) : Local × Bool := prepTurns req sees s.scanPolicy s

/-- The scan request of the driver, and the calls that were made. -/
structure Scan where
  scan : Local
  /-- `scan_req` is not `NULL` -/
  running : Bool
  /-- The states after the calls of `prepHwScan`, with their results. -/
  calls : List (Local × Bool)
  /-- The batches given to `ieee80211_drv_hw_scan`, and whether they were marked `ONLY_PROB`. -/
  handed : List (Option (List Nat) × Bool)

/-- What a call of the scan sees, whether the driver takes the batch and whether the scan was aborted; `before` are the
channels of the frames received since the last call. -/
structure Event where
  aborted : Bool
  before : List Chan
  sees : Nat → Sees
  accepted : Bool

def started (policies : List Policy) (req : List Chan) (noIr : Chan → Bool) : Local where
  scanPolicy := policies
  policy := none
  scanChannelIdx := 0
  scanNChannels := 0
  scanChannelSpace := req.length
  scanIdleTime := 0
  onlyProb := false
  noIr := noIr
  hwChannels := none
  operChannel := 0
  bug := false
  warned := false
  unlinked := 0
  current := 0
  offered := []

/-- `__ieee80211_start_scan` and `ieee80211_internal_scan_triger`: the result of the first call is only warned about. -/
def startScan (b : Build) (conf : ApConf) (req : List Chan) (noIr : Chan → Bool) (e : Event) : Scan :=
  let policies := scanPolicyPrepare b conf
  let s := started policies req noIr
  if policies = [] then ⟨s, false, [], []⟩
  else
    let r := prepHwScan req e.sees s
    ⟨r.1, e.accepted, [r], [(r.1.hwChannels, r.1.onlyProb)]⟩

def scanCompleted (req : List Chan) (r : Scan) (e : Event) : Scan :=
  if r.running = false then r
  else
    let s := { r.scan with noIr := scanPolicyRx r.scan.policy r.scan.noIr e.before, onlyProb := false }
    if e.aborted then { r with scan := s, running := false }
    else
      let p := prepHwScan req e.sees s
      if p.2 = true then ⟨p.1, e.accepted, r.calls ++ [p], r.handed ++ [(p.1.hwChannels, p.1.onlyProb)]⟩
      else ⟨p.1, false, r.calls ++ [p], r.handed⟩

def scanAfter (b : Build) (conf : ApConf) (req : List Chan) (noIr : Chan → Bool) (e : Event) (es : List Event) : Scan :=
  es.foldl (scanCompleted req) (startScan b conf req noIr e)

end ScanPolicy

end AtbmWifi
