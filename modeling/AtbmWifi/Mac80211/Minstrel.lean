import AtbmWifi.Lib.Transition
import AtbmWifi.Tx.PolicyBuild

/-!
# Minstrel, the software rate control

`minstrel_get_rate` picks the rates of a frame from the rates of its station: `max_tp_rate`, `max_tp_rate2` and
`max_prob_rate`, which `minstrel_update_stats` measures from the reports of `minstrel_tx_status`, and now and then one to
sample.  Built with `MINSTREL_RSSI_USED`: while `table_flag` is set, the indices measured are moved up the table.

The indices and the retry counts are numbers; the counters are as wide as in the source.
-/

namespace AtbmWifi.Minstrel

open Transition

/-- `struct ieee80211_hw` and `struct minstrel_priv`; no retry limit of 0 is let through. -/
structure Hw where
  maxRates : Nat
  maxRateTries : UInt8
  tries_pos : 0 < maxRateTries
  hz : UInt64

def Hw.hasMrr (hw : Hw) : Bool := 4 ≤ hw.maxRates
def Hw.maxRetry (hw : Hw) : Nat := hw.maxRateTries.toNat

def segmentSize : Nat := 6000
def cwMin : Nat := 15
def cwMax : Nat := 1023
def lookaroundRate : UInt32 := 5
def lookaroundRateMrr : UInt32 := 10
def updateInterval : UInt64 := 300
def sampleColumns : Nat := 10

structure Bitrate where
  bitrate : Nat
  erp : Bool

/-- `struct ieee80211_supported_band` with the rates of the station -/
structure Sband where
  ghz5 : Bool
  bitrates : List Bitrate
  supp : Nat → Bool

/-- The indices that `rate_supported` lets through -/
def Sband.rates (b : Sband) : List Nat := (List.range b.bitrates.length).filter b.supp

/-- The fields of `struct minstrel_rate` that decide anything -/
structure Rate where
  rix : Int
  perfectTxTime : UInt32
  ackTime : UInt32
  sampleLimit : Int
  retryCount : Nat
  retryCountCts : Nat
  retryCountRtscts : Nat
  adjustedRetryCount : Nat
  success : UInt32
  attempts : UInt32
  probability : UInt32
  curTp : UInt32
  succHist1 : UInt64
  attHist1 : UInt64
  succHist2 : UInt32
  attHist2 : UInt32
  successProb1 : UInt32

def Rate.zero : Rate := ⟨0, 0, 0, 0, 0, 0, 0, 0, 0, 0, 0, 0, 0, 0, 0, 0, 0⟩

/-- `struct minstrel_sta_info`; `r` is the array up to `n_bitrates`, `behind` what lies behind it. -/
structure Sta where
  statsUpdate : UInt64
  statsUpdate1 : UInt64
  initialFlag : Bool
  lowestRix : Nat
  maxTpRate : Nat
  maxTpRate2 : Nat
  maxProbRate : Nat
  packetCount : UInt32
  sampleCount : UInt32
  sampleDeferred : Int
  sampleIdx : Nat
  sampleColumn : Nat
  nRates : Nat
  r : List Rate
  behind : Nat → Rate
  prevSample : Bool
  meanRssi : Int
  totalRssi : Int
  rssiCount : Int
  tableFlag : Int
  tableCount : Int
  sampleTable : Nat → Nat → Nat

/-- `mi->r[i]` -/
def Sta.rate (mi : Sta) (i : Nat) : Rate := (mi.r[i]?).getD (mi.behind i)

def Sta.eachRate (mi : Sta) (f : Rate → Rate) : Sta :=
  { mi with r := mi.r.mapIdx fun i mr => if i < mi.nRates then f mr else mr }

def divRoundUp (a b : Nat) : Nat := (a + b - 1) / b

/-- `ieee80211_frame_duration`, with a short preamble -/
def frameDuration (ghz5 : Bool) (len rate : Nat) (erp : Bool) : Nat :=
  if ghz5 || erp then 16 + 16 + 4 + 4 * divRoundUp ((16 + 8 * (len + 4) + 6) * 10) (4 * rate)
  else 10 + (72 + 24) + divRoundUp (8 * (len + 4) * 10) rate

structure RetryLoop where
  cw : Nat
  txTime : Nat
  txTimeCts : Nat
  txTimeRtscts : Nat
  retryCount : Nat
  retryCountCts : Nat
  retryCountRtscts : Nat

def RetryLoop.body (hw : Hw) (frame ack sp : Nat) (s : RetryLoop) : RetryLoop :=
  -- the slot time is 9
  let single := ack + frame + 9 * s.cw / 2
  let cts := s.txTimeCts + single + sp
  let rtscts := s.txTimeRtscts + single + 2 * sp
  { cw := min (2 * s.cw + 1) cwMax
    txTime := s.txTime + single
    txTimeCts := cts
    txTimeRtscts := rtscts
    retryCount := s.retryCount
    retryCountCts := if cts < segmentSize ∧ s.retryCountCts < hw.maxRetry then s.retryCountCts + 1 else s.retryCountCts
    retryCountRtscts :=
      if rtscts < segmentSize ∧ s.retryCountRtscts < hw.maxRetry then s.retryCountRtscts + 1 else s.retryCountRtscts }

/-- The loop; it is entered again with fewer than `max_retry` only, so `left` does not run out. -/
def retryLoop (hw : Hw) (frame ack sp : Nat) : (left : Nat) → RetryLoop → RetryLoop
  | 0, s => s
  | left + 1, s =>
    let s := s.body hw frame ack sp
    if s.txTime < segmentSize then
      let s := { s with retryCount := s.retryCount + 1 }
      if s.retryCount < hw.maxRetry then retryLoop hw frame ack sp left s else s
    else s

def initRate (hw : Hw) (b : Sband) (sp rix : Nat) : Rate :=
  let br := b.bitrates.getD rix ⟨0, false⟩
  let frame := frameDuration b.ghz5 1200 br.bitrate br.erp
  let ack := frameDuration b.ghz5 10 br.bitrate br.erp
  let s := retryLoop hw frame ack sp hw.maxRetry ⟨cwMin, frame + sp, 0, 0, 1, 1, 1⟩
  { Rate.zero with
    rix := rix
    perfectTxTime := .ofNat frame
    ackTime := .ofNat ack
    sampleLimit := -1
    retryCount := s.retryCount
    retryCountCts := s.retryCountCts
    retryCountRtscts := s.retryCountRtscts
    adjustedRetryCount := s.retryCount }

/-- One column of `init_sample_table`: rate `i + 1` goes to the first free row from a random one on. -/
def sampleColumn (nSrates : Nat) (rnd : Nat → UInt8) : Nat → Nat :=
  (List.range nSrates).foldl (fun col i =>
    let start := (i + (rnd i).toNat) % nSrates
    let free := ((List.range nSrates).map fun k => (start + k) % nSrates).find? fun x => col x == 0
    fun x => if some x = free then i + 1 else col x) fun _ => 0

def Sband.nonCck (b : Sband) (i : Nat) : Bool := (b.bitrates.getD i ⟨0, false⟩).bitrate ∉ [10, 20, 55, 110]

/-- `rate_lowest_index` and `rate_lowest_non_cck_index`, both 0 where they find none -/
def Sband.lowestIndex (b : Sband) : Nat := b.rates.headD 0
def Sband.lowestNonCck (b : Sband) : Nat := (b.rates.find? b.nonCck).getD 0

def Sband.spAckDur (b : Sband) : Nat :=
  let br := b.bitrates.getD b.lowestIndex ⟨0, false⟩
  frameDuration b.ghz5 10 br.bitrate br.erp

def rateInit (hw : Hw) (b : Sband) (rnd : Nat → Nat → UInt8) (jiffies : UInt64) (behind : Nat → Rate) : Sta :=
  let n := b.rates.length
  { statsUpdate := jiffies
    statsUpdate1 := jiffies
    initialFlag := false
    lowestRix := b.lowestIndex
    maxTpRate := 0
    maxTpRate2 := 0
    maxProbRate := 0
    packetCount := 0
    sampleCount := 0
    sampleDeferred := 0
    sampleIdx := 0
    sampleColumn := 0
    nRates := n
    r := b.rates.map (initRate hw b b.spAckDur) ++ List.replicate (b.bitrates.length - n) { Rate.zero with rix := -1 }
    behind := behind
    prevSample := false
    meanRssi := 0
    totalRssi := 0
    rssiCount := 0
    tableFlag := 0
    tableCount := 0
    sampleTable := fun idx col => sampleColumn (n - 1) (rnd col) idx }

/-- The history that favours the recent, over `d`, with weights for the old and the new value -/
def hist (old new a b c d : UInt32) : UInt32 := (old * a + new * b + c) / d

def Rate.measure (mr : Rate) : Rate :=
  let usecs := if mr.perfectTxTime = 0 then 1000000 else mr.perfectTxTime
  if mr.attempts = 0 then mr
  else
    let w : UInt32 × UInt32 × UInt32 × UInt32 :=
      if 200 < mr.attempts then (1, 700, 4, 8)
      else if 100 < mr.attempts then (1, 300, 2, 4)
      else if 50 < mr.attempts then (1, 100, 1, 2)
      else if 25 < mr.attempts then (3, 100, 2, 4)
      else (7, 100, 4, 8)
    let succ := hist mr.succHist2 mr.success w.1 w.2.1 w.2.2.1 w.2.2.2
    let att := hist mr.attHist2 mr.attempts w.1 w.2.1 w.2.2.1 w.2.2.2
    let probability := if att = 0 then mr.probability else succ * 18000 / att
    { mr with
      succHist1 := mr.succHist1 + mr.success.toUInt64
      attHist1 := mr.attHist1 + mr.attempts.toUInt64
      succHist2 := succ
      attHist2 := att
      probability := probability
      curTp := probability * (1000000 / usecs) }

def Rate.retries (mr : Rate) : Nat :=
  if mr.probability < 2700 then min (mr.retryCount / 2) 2 else if mr.probability < 3600 then 3 else mr.retryCount

/-- The rest of the loop body: fewer retries and samples below a chance of 15% -/
def Rate.adjust (mr : Rate) : Rate :=
  { mr with
    success := 0
    attempts := 0
    adjustedRetryCount := if mr.retries = 0 then 2 else mr.retries
    sampleLimit := if mr.probability < 2700 then 4 else -1 }

def argmax (value : Nat → UInt32) (skip : Option Nat) (n : Nat) : Nat :=
  ((List.range n).foldl (fun (best : UInt32 × Nat) i =>
    if skip ≠ some i ∧ best.1 < value i then (value i, i) else best) (0, 0)).2

/-- The choice of `max_tp_rate`, `max_tp_rate2` and `max_prob_rate` from the indices measured -/
def selectRates (table : Bool) (tp tp2 prob : Nat) : Nat × Nat × Nat :=
  let tp := if tp ≤ 3 ∧ table = true then max (tp + 2) 4 else tp
  let max2 :=
    if tp2 ≤ 3 ∧ table = true then if 5 < tp then max 4 (min tp2 (tp - 1)) else 4
    else if 2 < tp then min (max tp2 2) (tp - 1)
    else if 1 ≤ tp then max tp tp2
    else tp2
  let maxProb :=
    if prob ≤ 3 ∧ table = true then if 5 < tp ∧ 5 < max2 then max 4 (min (tp - 1) (max2 - 1)) else 4
    else if 2 ≤ max2 then min (max 2 prob) (max2 - 1)
    else if max2 = 1 then max 1 prob
    else prob
  (tp, max2, maxProb)

def Sta.bestTp (mi : Sta) : Nat := argmax (fun i => (mi.rate i).curTp) none mi.nRates

def Sta.updateStats (mi : Sta) (jiffies : UInt64) : Sta :=
  let mi := { mi.eachRate fun mr => mr.measure.adjust with statsUpdate := jiffies }
  let sel := selectRates (mi.tableFlag == 1) mi.bestTp
    (argmax (fun i => (mi.rate i).curTp) (some mi.bestTp) mi.nRates)
    (argmax (fun i => (mi.rate i).probability) none mi.nRates)
  { mi with maxTpRate := sel.1, maxTpRate2 := sel.2.1, maxProbRate := sel.2.2 }

/-- The loop of `minstrel_update_stats_calibrate_rate_policy`: whether it breaks off for the second table, with
`table_flag` and `table_count` -/
def calibrateLoop (mi : Sta) : List Nat → Int × Int → Bool × Int × Int
  | [], t => (false, t)
  | i :: is, t =>
    let mr := mi.rate i
    if 20 < mr.attHist1 then
      if (35 < mr.successProb1 ∧ i = 4) ∨ (28 < mr.successProb1 ∧ i = 5) ∨ (20 < mr.successProb1 ∧ i = 6) ∨
          (15 < mr.successProb1 ∧ 5 < i) then (true, t)
      else calibrateLoop mi is (0, 0)
    else calibrateLoop mi is t

def Sta.calibrateRatePolicy (mi : Sta) : Sta :=
  if mi.meanRssi < -80 then { mi with tableFlag := 0, tableCount := 0 }
  else
    let c := calibrateLoop mi (List.range' 4 (mi.nRates - 4)) (mi.tableFlag, mi.tableCount)
    if c.1 then { mi with tableFlag := 1, tableCount := 0 }
    else if 4 < c.2.2 + 1 then { mi with tableFlag := 0, tableCount := 0 }
    else { mi with tableFlag := c.2.1, tableCount := c.2.2 + 1 }

def Rate.successProb (mr : Rate) : Rate :=
  let a := mr.succHist1.toUInt32
  let b := mr.attHist1.toUInt32
  { mr with successProb1 := if b = 0 then 0 else a * 100 / b }

def Sta.averageRssi (mi : Sta) : Sta :=
  if mi.rssiCount = 0 then mi else { mi with meanRssi := mi.totalRssi.tdiv mi.rssiCount }

def Sta.updateStatsPerS (mi : Sta) (jiffies : UInt64) : Sta :=
  let mi := (mi.eachRate Rate.successProb).averageRssi.calibrateRatePolicy
  { mi.eachRate fun mr => { mr with succHist1 := 0, attHist1 := 0 } with
    statsUpdate1 := jiffies, rssiCount := 0, totalRssi := 0, meanRssi := 0 }

def Sta.rixToNdx (mi : Sta) (rix : Nat) : Option Nat :=
  (List.range (rix + 1)).reverse.find? fun i => (mi.rate i).rix == rix

def Sta.report (mi : Sta) (rix : Nat) (count : UInt8) (success : Bool) : Sta :=
  match mi.rixToNdx rix with
  | none => mi
  | some ndx =>
    { mi with
      r := mi.r.modify ndx fun mr =>
        { mr with
          attempts := mr.attempts + count.toUInt32
          success := mr.success + if success then 1 else 0 } }

def txMaxRates : Nat := 5

/-- The loop over the rates of a report; `i` have gone before. -/
def Sta.reports (ack : Bool) : (i : Nat) → List (Nat × UInt8) → Sta → Sta
  | _, [], mi => mi
  | i, (rix, count) :: rest, mi =>
    Sta.reports ack (i + 1) rest (mi.report rix count (ack && i != txMaxRates - 1 && rest.isEmpty))

/-- `minstrel_tx_status`, of a frame that was marked with `IEEE80211_TX_CTL_RATE_CTRL_PROBE` or not -/
def Sta.txStatus (mi : Sta) (ack probe : Bool) (rates : List (Nat × UInt8)) : Sta :=
  let mi := Sta.reports ack 0 rates mi
  { mi with
    sampleCount := if probe then mi.sampleCount + 1 else mi.sampleCount
    sampleDeferred := if 0 < mi.sampleDeferred then mi.sampleDeferred - 1 else mi.sampleDeferred }

def timeAfter (a b : UInt64) : Bool := (b - a).toInt64 < 0

/-- A frame to be sent, and the settings it is sent with -/
structure TxFrame where
  jiffies : UInt64
  data : Bool
  noAck : Bool
  useMinrate : Bool
  noCck : Bool
  rts : Bool
  useCtsProt : Bool

/-- The control block of the frame: its rates, whether it is marked as a probe, and the indices used into `mi->r` -/
structure TxControl where
  rates : List TxRate
  probe : Bool
  used : List Nat

def TxFrame.noDataOrNoAckUseMin (f : TxFrame) : Bool := f.noAck || f.useMinrate || !f.data

/-- `rate_control_send_low`, of a frame to a station -/
def sendLow (hw : Hw) (b : Sband) (f : TxFrame) (c : TxControl) : Option TxControl :=
  if f.noDataOrNoAckUseMin then
    some { c with rates := c.rates.modify 0 fun r =>
      { r with
        idx := (if b.ghz5 || !f.noCck then b.lowestIndex else b.lowestNonCck : Nat)
        count := if f.noAck then 1 else hw.maxRateTries } }
  else none

/-- `minstrel_get_retry_count`, with the flags of the first rate -/
def Rate.getRetryCount (mr : Rate) (flags : UInt8) : Nat :=
  if flags &&& 1 != 0 then max 2 (min mr.retryCountRtscts mr.adjustedRetryCount)
  else if flags &&& 2 != 0 then max 2 (min mr.retryCountCts mr.adjustedRetryCount)
  else mr.adjustedRetryCount

def Sta.getNextSample (mi : Sta) : Nat × Sta :=
  (mi.sampleTable mi.sampleIdx mi.sampleColumn,
    if mi.nRates < mi.sampleIdx + 1 + 2 then
      { mi with sampleIdx := 0, sampleColumn := if mi.sampleColumn + 1 < sampleColumns then mi.sampleColumn + 1 else 0 }
    else { mi with sampleIdx := mi.sampleIdx + 1 })

def sampleMaxRate (maxTpRate : Nat) : Nat :=
  if maxTpRate = 2 then 6 else if maxTpRate = 3 then 7 else max 7 (maxTpRate + 2)

/-- What is decided about sampling: the index of the first rate, whether a rate is sampled, and as the second rate -/
structure Sampling where
  ndx : Nat
  sampleNdx : Nat
  sample : Bool
  slower : Bool

def Sta.backlog (mi : Sta) (delta : Int) : Sta :=
  if 10000 ≤ mi.packetCount then { mi with sampleDeferred := 0, sampleCount := 0, packetCount := 0 }
  else if (mi.nRates * 2 : Int) < delta then { mi with sampleCount := mi.sampleCount + .ofInt (delta - mi.nRates * 2) }
  else mi

def Sta.trySample (mi : Sta) (mrr : Bool) (sampleNdx : Nat) : Sampling × Sta :=
  let msr := mi.rate sampleNdx
  let ndx := mi.maxTpRate
  if mrr ∧ (mi.rate ndx).perfectTxTime < msr.perfectTxTime then
    (⟨ndx, sampleNdx, true, true⟩, { mi with sampleDeferred := mi.sampleDeferred + 1 })
  else if msr.successProb1 < 5 ∧ sampleMaxRate mi.maxTpRate < sampleNdx ∧ mi.initialFlag = true then
    (⟨ndx, sampleNdx, false, false⟩, { mi with sampleCount := mi.sampleCount + 1 })
  else if mi.maxTpRate ≤ 1 ∧ sampleNdx ≤ 7 ∧ 2 ≤ sampleNdx ∧ mi.initialFlag = true then
    (⟨sampleNdx, sampleNdx, true, false⟩, { mi with sampleCount := mi.sampleCount + 2 })
  else if msr.sampleLimit ≠ 0 then
    (⟨sampleNdx, sampleNdx, true, false⟩,
      { mi with
        sampleCount := mi.sampleCount + 1
        r := mi.r.modify sampleNdx fun mr =>
          { mr with sampleLimit := if 0 < mr.sampleLimit then mr.sampleLimit - 1 else mr.sampleLimit } })
  else (⟨ndx, sampleNdx, false, false⟩, mi)

/-- `ar[i].idx` and `ar[i].count` are set. -/
def setRate (ar : List TxRate) (i : Nat) (idx : Int) (count : UInt8) : List TxRate :=
  ar.modify i fun r => { r with idx := idx, count := count }

def Sta.firstCount (mi : Sta) (s : Sampling) (ndx : Nat) (flags : UInt8) : UInt8 :=
  let mr := mi.rate ndx
  let count := UInt8.ofNat (mr.getRetryCount flags)
  if s.sample && !s.slower then 2
  else if mi.maxTpRate ≤ 1 then max 4 count
  else if mi.maxTpRate ≤ 3 ∧ (mi.rate 0).probability < 9000 ∧ 2700 ≤ mr.probability then max 6 count
  else count

def Sta.mrrNdx (mi : Sta) (s : Sampling) : List Nat :=
  [if s.sample then if s.slower then s.sampleNdx else mi.maxTpRate else mi.maxTpRate2, mi.maxProbRate,
    if mi.tableFlag = 1 then 4 else 0]

def Sta.refresh (hw : Hw) (mi : Sta) (jiffies : UInt64) : Sta :=
  let mi := if timeAfter jiffies (mi.statsUpdate + updateInterval * hw.hz / 1000) then mi.updateStats jiffies else mi
  if timeAfter jiffies (mi.statsUpdate1 + updateInterval * hw.hz / 100) then
    { mi.updateStatsPerS jiffies with initialFlag := true }
  else mi

def Sta.delta (mi : Sta) (mrr : Bool) : Int :=
  (mi.packetCount * (if mrr then lookaroundRateMrr else lookaroundRate) / 100 -
    (mi.sampleCount + .ofInt (mi.sampleDeferred.tdiv 2))).toInt32.toInt

/-- The part of `minstrel_get_rate` before the rates: whether a sample is due, and what is sampled -/
def Sta.sampling (mi : Sta) (mrr : Bool) : Bool × Sampling × Sta :=
  let mi := { mi with packetCount := mi.packetCount + 1 }
  if 0 < mi.delta mrr ∧ (mrr || !mi.prevSample) then
    let p := (mi.backlog (mi.delta mrr)).getNextSample
    (true, p.2.trySample mrr p.1)
  else (false, ⟨mi.maxTpRate, 0, false, false⟩, mi)

def Sta.setRates (hw : Hw) (mi : Sta) (mrr due : Bool) (s : Sampling) (c : TxControl) : TxControl :=
  -- without several rates a good one is not sampled
  let ndx := if !mrr && s.sample && 17100 < (mi.rate s.ndx).probability then mi.maxTpRate else s.ndx
  let count := mi.firstCount s ndx ((c.rates.map (·.flags)).headD 0)
  let used := (if due then [s.sampleNdx, mi.maxTpRate] else []) ++ [s.ndx, ndx, 0]
  if mrr then
    { rates := ((mi.mrrNdx s).zipIdx 1).foldl
        (fun ar p => setRate ar p.2 (mi.rate p.1).rix (.ofNat (mi.rate p.1).adjustedRetryCount))
        (setRate c.rates 0 (mi.rate ndx).rix count)
      probe := c.probe || s.slower
      used := used ++ mi.mrrNdx s }
  else
    { rates := setRate (setRate c.rates 0 (mi.rate ndx).rix (if s.sample then count else hw.maxRateTries))
        1 mi.lowestRix hw.maxRateTries
      probe := c.probe
      used := used }

def getRate (hw : Hw) (b : Sband) (f : TxFrame) (c : TxControl) (mi : Sta) : TxControl × Sta :=
  match sendLow hw b f c with
  | some c => (c, mi)
  | none =>
    let mrr := hw.hasMrr && !f.rts && !f.useCtsProt
    let p := (mi.refresh hw f.jiffies).sampling mrr
    (p.2.2.setRates hw mrr p.1 p.2.1 c, { p.2.2 with prevSample := p.2.1.sample })

def TxControl.blank : TxControl := ⟨List.replicate txMaxRates ⟨-1, 1, 0⟩, false, []⟩

/-- `rate_control_get_rate`, without a rate mask or a fixed rate -/
def rateControlGetRate (hw : Hw) (b : Sband) (f : TxFrame) (mi : Sta) : TxControl × Sta := getRate hw b f .blank mi

/-- The station, with the frames that have not been reported -/
structure Run where
  mi : Sta
  frames : List TxControl

inductive Act
  | send (f : TxFrame)
  /-- The report of a frame: the rates tried, each with its count -/
  | status (k : Nat) (ack : Bool) (rates : List (Nat × UInt8))
  | rssi (total count : Int)

/-- A report tells of rates that were set for the frame, each tried at least once. -/
def Act.Enabled (s : Run) : Act → Prop
  | .status k _ rates =>
    match s.frames[k]? with
    | some c => rates.length ≤ txMaxRates ∧ ∀ p ∈ rates, (∃ r ∈ c.rates, r.idx = p.1) ∧ 0 < p.2
    | none => False
  | _ => True

instance (s : Run) (a : Act) : Decidable (a.Enabled s) := by
  unfold Act.Enabled
  cases a <;> dsimp only <;> try infer_instance
  split <;> infer_instance

def Act.next (hw : Hw) (b : Sband) (s : Run) : Act → Run
  | .send f =>
    let p := rateControlGetRate hw b f s.mi
    { mi := p.2, frames := s.frames ++ [p.1] }
  | .status k ack rates =>
    { mi := s.mi.txStatus ack ((s.frames.map (·.probe)).getD k false) rates, frames := s.frames.eraseIdx k }
  | .rssi total count => { s with mi := { s.mi with totalRssi := total, rssiCount := count } }

/-- The station as `minstrel_rate_init` leaves it -/
def Run.Start (hw : Hw) (b : Sband) (s : Run) : Prop :=
  s.frames = [] ∧ ∃ rnd jiffies behind, s.mi = rateInit hw b rnd jiffies behind

def minstrelSys (hw : Hw) (b : Sband) : Sys Run Act := .ofNext (Run.Start hw b) Act.Enabled (Act.next hw b)

end AtbmWifi.Minstrel
