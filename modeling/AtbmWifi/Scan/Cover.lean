import AtbmWifi.Scan.Model
import AtbmWifi.Wsm.CmdBuffer

/-!
# The channels of a scan request

A request's channels go to the firmware in batches.  Each run of `atbm_scan_work` takes
the next from `scan.curr` on, and moves `scan.curr` behind them when the firmware has taken
them.  A batch ends before a channel of another band, at 14 channels, or at two with
`CONFIG_ATBM_SCAN_SPLIT` and a request to be split; with `WIFI_ALLIANCE_CERTIF` also before a
channel with another flag or another power.

`CONFIG_ATBM_APOLLO_TESTMODE` is off.
-/

namespace AtbmWifi

namespace ScanCover

open Transition

structure ScanChan where
  band : Nat
  hwValue : UInt16
  /-- `IEEE80211_CHAN_NO_IR` of `flags` -/
  noIr : Bool
  maxPower : Int
  /-- one of the bands that the driver registers -/
  known : band ≤ 1

/-- `channel_hw_value` -/
def ScanChan.number (c : ScanChan) : Nat := (c.hwValue &&& 0x1fff).toNat

def ScanChan.isNoIr (c : ScanChan) : Bool := c.hwValue &&& 0x2000 != 0

structure ScanRequest where
  chans : List ScanChan
  ssids : List WsmSsid
  ifId : Nat
  split : Bool
  passive : Bool
  cca : Bool
  noCck : Bool
  /-- `max_scan_ssids`, which `atbm_hw_scan` has checked -/
  few : ssids.length ≤ 2

/-- `CONFIG_ATBM_SCAN_SPLIT`, `WIFI_ALLIANCE_CERTIF` and `ATBM_USE_FASTLINK` -/
structure ScanCfg where
  split : Bool
  certif : Bool
  fastlink : Bool

/-- What a run of `atbm_scan_work` finds, and whether the firmware takes what it is handed. -/
structure WorkSees where
  vif : Bool
  alloc : Bool
  p2pVif : Bool
  joinedSta : Bool
  bssLoss : Bool
  /-- `go_bssid_set` and not `receive_go_resp` -/
  goAwaited : Bool
  inTime : Bool
  p2pOperChannel : Nat
  started : Bool

section
variable (cfg : ScanCfg) (req : ScanRequest) (sees : WorkSees)

/-- What ends the look-ahead at the `i`th channel of a batch. -/
def breaks (first c : ScanChan) (i : Nat) : Bool :=
  c.band != first.band || (cfg.split && req.split && decide (atbmSplitScanMaxChannel ≤ i)) ||
    (cfg.certif && (c.noIr != first.noIr || (!first.noIr && c.maxPower != first.maxPower)))

def lookAhead (first : ScanChan) : Nat → List ScanChan → Nat
  | i, [] => i
  | i, c :: l =>
    if i < wsmScanMaxNumOfChannels ∧ breaks cfg req first c i = false then lookAhead first (i + 1) l else i

/-- `it - scan.curr` -/
def numOfChannels : List ScanChan → Nat
  | [] => 0
  | first :: l => lookAhead cfg req first 1 l

def numOfProbeRequests (first : ScanChan) : Nat :=
  let n := if first.isNoIr then 0 else 3
  let n := if req.cca then (if n ≠ 0 then 1 else 0) else n
  if req.passive then 0 else n

/-- `WSM_TRANSMIT_RATE_1` or `_6` -/
def maxTransmitRate (first : ScanChan) : Nat :=
  if first.band = 1 ∨ (req.ifId ≠ 0 ∧ sees.p2pVif = true) ∨ req.noCck = true then 6 else 0

def scanFlags : Nat :=
  let flags := if req.ifId ≠ 0 then 0x10 else 0
  if sees.bssLoss then flags ||| 0x01 else flags

/-- `sizeof(struct wsm_scan_ch[14])`, in entries -/
def scanChLen : Nat := 14

/-- The order of `ATBM_USE_FASTLINK`. -/
def chanNum : List Nat := [1, 6, 11, 2, 7, 3, 8, 4, 9, 5, 10, 12, 13, 14]

def channelTime (maxTime : Nat) (c : ScanChan) : Nat × Nat :=
  let time := if c.isNoIr then (120, 150) else (if req.noCck then 35 else 15, maxTime)
  if req.cca then (time.1, 500) else time

/-- The first `n` entries, from the channels at `curr`; none for a write or a read beyond an array. -/
def fillCh (maxTime : Nat) (curr : List ScanChan) : Nat → Option (List WsmScanCh)
  | 0 => some []
  | i + 1 =>
    (fillCh maxTime curr i).bind fun ch =>
      if i < scanChLen then
        (curr[if cfg.fastlink then chanNum.getD i 0 - 1 else i]?).bind fun c =>
          (curr[i]?).map fun d =>
            ch ++ [⟨c.number, (channelTime req maxTime d).1, (channelTime req maxTime d).2⟩]
      else none

def batchScan (first : ScanChan) (curr : List ScanChan) (n : Nat) : Option WsmScan :=
  let probes := numOfProbeRequests req first
  let remain := if n = 3 then 10 else 20
  let maxTime := max 35 (req.ssids.length * probes * 10 + remain)
  let flags := if sees.joinedSta then 0x01 else scanFlags req sees
  (fillCh cfg req maxTime curr n).map fun ch =>
    { band := first.band
      scanType := if sees.joinedSta then 1 else 0
      scanFlags := if req.cca then flags ||| 0x40 else flags
      maxTransmitRate := maxTransmitRate req sees first
      autoScanInterval := 0
      numOfProbeRequests := probes
      probeDelay := 10
      ssids := req.ssids
      ch := ch }

/-- What P2P scans again as long as it has not heard of the group owner. -/
def againScan : WsmScan :=
  { band := 0
    scanType := 0
    scanFlags := scanFlags req sees
    maxTransmitRate := 6
    autoScanInterval := 0
    numOfProbeRequests := 3
    probeDelay := 15
    ssids := req.ssids
    ch := [sees.p2pOperChannel, 1, 6, 11, sees.p2pOperChannel].map fun n => ⟨n, 35, 110⟩ }

/-- What `wsm_scan` is handed: P2P's again, or a batch. -/
structure Handed where
  again : Bool
  scan : WsmScan

def Handed.numbers (h : Handed) : List Nat := h.scan.ch.map (·.number)

structure ScanRun where
  /-- `scan.curr - scan.begin` -/
  curr : Nat := 0
  /-- `scan.req` is set -/
  active : Bool := true
  /-- beyond an array -/
  wild : Bool := false
  /-- oldest first -/
  handed : List Handed := []

/-- `atbm_scan_start` returns 0. -/
def starts (scan : WsmScan) : Bool := (wsmScan scan (some req.ifId)).isSome && sees.started

def atbmScanWork (s : ScanRun) : ScanRun :=
  if sees.vif = false then { s with active := false }
  else if s.active = false ∨ s.curr = req.chans.length then
    if req.ifId = 1 ∧ sees.goAwaited = true ∧ sees.p2pOperChannel ≠ 0 ∧ sees.inTime = true ∧
        sees.alloc = true then
      { s with
        handed := s.handed ++ [⟨true, againScan req sees⟩]
        active := starts req sees (againScan req sees) }
    else { s with active := false }
  else match req.chans.drop s.curr with
    | [] => { s with wild := true }
    | first :: l =>
      let n := numOfChannels cfg req (first :: l)
      if sees.alloc = false then { s with curr := req.chans.length }
      else match batchScan cfg req sees first (first :: l) n with
        | none => { s with wild := true }
        | some scan =>
          { s with
            handed := s.handed ++ [⟨false, scan⟩]
            curr := if starts req sees scan then s.curr + n else req.chans.length }

end

inductive CoverAct
  | work (sees : WorkSees)
  /-- `atbm_scan_timeout` without an indication of the firmware -/
  | giveUp

def CoverAct.next (cfg : ScanCfg) (req : ScanRequest) (s : ScanRun) : CoverAct → ScanRun
  | .work sees => atbmScanWork cfg req sees s
  | .giveUp => { s with curr := req.chans.length }

/-- The request from `atbm_hw_scan` on, until `ieee80211_scan_completed`. -/
def scanWorks (cfg : ScanCfg) (req : ScanRequest) : Sys ScanRun CoverAct :=
  .ofNext (· = {}) (fun s _ => s.active = true) (CoverAct.next cfg req)

def CoverAct.Starts : CoverAct → Prop
  | .work sees => sees.alloc = true ∧ sees.started = true
  | .giveUp => True

/-- It starts, the interface is there, and no batch is given up. -/
def CoverAct.Fine : CoverAct → Prop
  | .work sees => sees.vif = true ∧ sees.alloc = true ∧ sees.started = true
  | .giveUp => False

section Length

variable {cfg : ScanCfg} {req : ScanRequest} {first : ScanChan}

theorem lookAhead_spec (cfg : ScanCfg) (req : ScanRequest) (first : ScanChan) (l : List ScanChan) (i : Nat)
    (hi : i ≤ wsmScanMaxNumOfChannels) :
    i ≤ lookAhead cfg req first i l ∧ lookAhead cfg req first i l ≤ wsmScanMaxNumOfChannels ∧
      lookAhead cfg req first i l ≤ i + l.length ∧
      ∀ c ∈ l.take (lookAhead cfg req first i l - i), c.band = first.band := by
  induction l generalizing i with
  | nil =>
    refine ⟨Nat.le_refl i, hi, Nat.le_refl i, ?_⟩
    intro c hc
    rw [List.take_nil] at hc
    cases hc
  | cons d l ih =>
    unfold lookAhead
    split
    · rename_i hgo
      obtain ⟨hlow, hmax, hlen, hband⟩ := ih (i + 1) hgo.1
      refine ⟨by omega, hmax, by rw [List.length_cons]; omega, ?_⟩
      have hd : d.band = first.band := by
        have := hgo.2
        simp only [breaks, Bool.or_eq_false_iff, bne_eq_false_iff_eq] at this
        exact this.1.1
      intro c hc
      rw [show lookAhead cfg req first (i + 1) l - i = lookAhead cfg req first (i + 1) l - (i + 1) + 1 by omega,
        List.take_succ_cons] at hc
      rcases List.mem_cons.mp hc with rfl | hc
      · exact hd
      · exact hband c hc
    · refine ⟨Nat.le_refl i, hi, by omega, ?_⟩
      intro c hc
      rw [Nat.sub_self, List.take_zero] at hc
      cases hc

theorem numOfChannels_spec (cfg : ScanCfg) (req : ScanRequest) (first : ScanChan) (l : List ScanChan) :
    1 ≤ numOfChannels cfg req (first :: l) ∧ numOfChannels cfg req (first :: l) ≤ wsmScanMaxNumOfChannels ∧
      numOfChannels cfg req (first :: l) ≤ (first :: l).length ∧
      ∀ c ∈ (first :: l).take (numOfChannels cfg req (first :: l)), c.band = first.band := by
  have h := lookAhead_spec cfg req first l 1 (by decide)
  obtain ⟨hlow, hmax, hlen, hband⟩ := h
  refine ⟨hlow, hmax, by rw [List.length_cons]; show lookAhead cfg req first 1 l ≤ _; omega, ?_⟩
  intro c hc
  change c ∈ (first :: l).take (lookAhead cfg req first 1 l) at hc
  rw [show lookAhead cfg req first 1 l = lookAhead cfg req first 1 l - 1 + 1 by omega, List.take_succ_cons] at hc
  rcases List.mem_cons.mp hc with rfl | hc
  · rfl
  · exact hband c hc

theorem breaks_eq_false (hc : cfg.certif = false) {c : ScanChan} {i : Nat} :
    breaks cfg req first c i = false ↔
      c.band = first.band ∧ ¬ (cfg.split = true ∧ req.split = true ∧ atbmSplitScanMaxChannel ≤ i) := by
  unfold breaks
  rw [hc]
  simp

theorem lookAhead_takeWhile (hc : cfg.certif = false) (l : List ScanChan) (i : Nat) (hi : 1 ≤ i) :
    lookAhead cfg req first i l = i + (((l.map ScanChan.band).take
      ((if cfg.split && req.split then atbmSplitScanMaxChannel else wsmScanMaxNumOfChannels) - i)).takeWhile
        (· == first.band)).length := by
  induction l generalizing i with
  | nil => simp [lookAhead]
  | cons d l ih =>
    unfold lookAhead
    generalize htop : (if cfg.split && req.split then atbmSplitScanMaxChannel else wsmScanMaxNumOfChannels) = top
    rw [htop] at ih
    have hgo : (i < wsmScanMaxNumOfChannels ∧ breaks cfg req first d i = false) ↔
        i < top ∧ d.band = first.band := by
      rw [breaks_eq_false hc, ← htop]
      split
      · rename_i h
        rw [Bool.and_eq_true] at h
        have : atbmSplitScanMaxChannel = 2 := rfl
        have : wsmScanMaxNumOfChannels = 14 := rfl
        constructor
        · rintro ⟨-, hb, hs⟩
          exact ⟨Nat.lt_of_not_le fun hle => hs ⟨h.1, h.2, hle⟩, hb⟩
        · rintro ⟨hlt, hb⟩
          exact ⟨by omega, hb, fun hs => by omega⟩
      · rename_i h
        rw [Bool.and_eq_true] at h
        constructor
        · rintro ⟨hlt, hb, -⟩
          exact ⟨hlt, hb⟩
        · rintro ⟨hlt, hb⟩
          exact ⟨hlt, hb, fun hs => h ⟨hs.1, hs.2.1⟩⟩
    by_cases h : i < top ∧ d.band = first.band
    · rw [if_pos (hgo.mpr h), ih (i + 1) (by omega), List.map_cons,
        show top - i = top - (i + 1) + 1 by omega, List.take_succ_cons, List.takeWhile_cons_of_pos (by simp [h.2]),
        List.length_cons]
      omega
    · rw [if_neg (fun hh => h (hgo.mp hh))]
      by_cases hi' : i < top
      · have hd : d.band ≠ first.band := fun hd => h ⟨hi', hd⟩
        rw [List.map_cons, show top - i = top - (i + 1) + 1 by omega, List.take_succ_cons,
          List.takeWhile_cons_of_neg (by simp [hd])]
        rfl
      · rw [show top - i = 0 by omega, List.take_zero]
        rfl

/-- **The batches of the two models are the same.** -/
theorem numOfChannels_eq_batchLen (hc : cfg.certif = false) (l : List ScanChan) :
    numOfChannels cfg req l =
      batchLen (if cfg.split && req.split then atbmSplitScanMaxChannel else wsmScanMaxNumOfChannels)
        (l.map ScanChan.band) := by
  cases l with
  | nil => rfl
  | cons first l => exact lookAhead_takeWhile hc l 1 (Nat.le_refl 1)

end Length

section Command

variable {cfg : ScanCfg} {req : ScanRequest} {sees : WorkSees}

theorem fillCh_eq (hf : cfg.fastlink = false) (maxTime : Nat) (curr : List ScanChan) {n : Nat}
    (hn : n ≤ curr.length) (h14 : n ≤ scanChLen) :
    fillCh cfg req maxTime curr n = some ((curr.take n).map fun c =>
      ⟨c.number, (channelTime req maxTime c).1, (channelTime req maxTime c).2⟩) := by
  induction n with
  | zero => rfl
  | succ i ih =>
    have hi : i < curr.length := hn
    have h14' : i < scanChLen := h14
    unfold fillCh
    rw [ih (by omega) (by omega), Option.bind_some, if_pos h14', hf]
    simp only [Bool.false_eq_true, if_false]
    rw [List.getElem?_eq_getElem hi, Option.bind_some, Option.map_some, List.take_succ_eq_append_getElem hi,
      List.map_append]
    rfl

theorem batchScan_eq (req : ScanRequest) (sees : WorkSees) (hf : cfg.fastlink = false) (first : ScanChan)
    (curr : List ScanChan) {n : Nat} (hn : n ≤ curr.length) (h14 : n ≤ wsmScanMaxNumOfChannels) :
    ∃ scan, batchScan cfg req sees first curr n = some scan ∧ scan.band = first.band ∧
      scan.ch.map (·.number) = (curr.take n).map ScanChan.number ∧ scan.ssids = req.ssids := by
  simp only [batchScan, fillCh_eq hf _ _ hn h14]
  refine ⟨_, rfl, rfl, ?_, rfl⟩
  rw [List.map_map]
  rfl

theorem wsmScan_isSome {scan : WsmScan} (hch : scan.ch.length ≤ 48) (hb : scan.band ≤ 1)
    (hs : scan.ssids = req.ssids) (ifId : Option Nat) : (wsmScan scan ifId).isSome = true := by
  have := req.few
  unfold wsmScan
  rw [if_neg (by rw [hs]; omega)]
  rfl

end Command

/-- `h` is the batch of these channels: some, of one band, no more than there is room for, not rejected. -/
structure IsBatch (req : ScanRequest) (p : List ScanChan) (h : Handed) : Prop where
  numbers : h.numbers = p.map ScanChan.number
  nonempty : p ≠ []
  most : p.length ≤ wsmScanMaxNumOfChannels ∧ p.length ≤ scanChLen
  band : ∀ c ∈ p, c.band = h.scan.band
  accepted : (wsmScan h.scan (some req.ifId)).isSome = true

/-- The batches that have been handed over are the channels before `scan.curr`. -/
structure Covers (req : ScanRequest) (s : ScanRun) : Prop where
  parts : ∃ parts : List (List ScanChan), parts.flatten = req.chans.take s.curr ∧
    List.Forall₂ (IsBatch req) parts (s.handed.filter fun h => !h.again)
  inside : s.wild = false ∧ s.curr ≤ req.chans.length
  /-- P2P scans again only behind the last channel. -/
  behind : (∃ h ∈ s.handed, h.again = true) → s.curr = req.chans.length
  ended : s.active = false → s.curr = req.chans.length

section Runs

variable {cfg : ScanCfg} {req : ScanRequest}

theorem covers_init : Covers req {} where
  parts := ⟨[], by simp, .nil⟩
  inside := ⟨rfl, Nat.zero_le _⟩
  behind := by simp
  ended := nofun

theorem work_behind (cfg : ScanCfg) {s : ScanRun} {sees : WorkSees} (hv : sees.vif = true)
    (hend : s.curr = req.chans.length) :
    (atbmScanWork cfg req sees s).curr = s.curr ∧ (atbmScanWork cfg req sees s).wild = s.wild ∧
      ((atbmScanWork cfg req sees s).handed.filter fun h => !h.again) = s.handed.filter fun h => !h.again := by
  unfold atbmScanWork
  rw [if_neg (by simp [hv]), if_pos (.inr hend)]
  split
  · refine ⟨rfl, rfl, ?_⟩
    rw [List.filter_append]
    simp
  · exact ⟨rfl, rfl, rfl⟩

theorem work_batch {s : ScanRun} {sees : WorkSees} (hf : cfg.fastlink = false)
    (hfine : sees.vif = true ∧ sees.alloc = true ∧ sees.started = true) (ha : s.active = true)
    (hlt : s.curr < req.chans.length) :
    ∃ p h, IsBatch req p h ∧ h.again = false ∧ req.chans.take s.curr ++ p = req.chans.take (s.curr + p.length) ∧
      s.curr + p.length ≤ req.chans.length ∧
      atbmScanWork cfg req sees s = { s with handed := s.handed ++ [h], curr := s.curr + p.length } := by
  obtain ⟨hv, hal, hst⟩ := hfine
  obtain ⟨first, l, hdrop⟩ : ∃ first l, req.chans.drop s.curr = first :: l := by
    cases h : req.chans.drop s.curr with
    | nil =>
      have := List.drop_eq_nil_iff.mp h
      omega
    | cons first l => exact ⟨first, l, rfl⟩
  have hlen : (first :: l).length = req.chans.length - s.curr := by rw [← hdrop, List.length_drop]
  obtain ⟨hlow, hmax, hle, hband⟩ := numOfChannels_spec cfg req first l
  obtain ⟨scan, hscan, hsb, hnum, hss⟩ := batchScan_eq req sees hf first (first :: l) hle hmax
  have hmax14 : wsmScanMaxNumOfChannels = 14 := rfl
  have hplen : ((first :: l).take (numOfChannels cfg req (first :: l))).length =
      numOfChannels cfg req (first :: l) := by
    rw [List.length_take]
    omega
  have hacc : (wsmScan scan (some req.ifId)).isSome = true := by
    apply wsmScan_isSome ?_ (hsb ▸ first.known) hss
    have := congrArg List.length hnum
    rw [List.length_map, List.length_map, hplen] at this
    omega
  refine ⟨(first :: l).take (numOfChannels cfg req (first :: l)), ⟨false, scan⟩,
    ⟨hnum, ?_, ?_, ?_, hacc⟩, rfl, ?_, ?_, ?_⟩
  · intro h
    rw [h] at hplen
    rw [List.length_nil] at hplen
    omega
  · rw [hplen]
    exact ⟨hmax, hmax⟩
  · intro c hc
    rw [hband c hc]
    exact hsb.symm
  · rw [hplen, List.take_add, hdrop]
  · rw [hplen]
    omega
  · rw [hplen]
    unfold atbmScanWork
    have hon : ¬ (s.active = false ∨ s.curr = req.chans.length) := by
      rintro (h | h)
      · rw [ha] at h
        cases h
      · omega
    rw [if_neg (by simp [hv]), if_neg hon, hdrop]
    simp only [hal, hscan, Bool.true_eq_false, if_false]
    rw [if_pos (by rw [starts, hacc, hst]; rfl)]

theorem covers_step (hf : cfg.fastlink = false) {s : ScanRun} {a : CoverAct} (h : Covers req s) (ha : s.active = true)
    (hfine : a.Fine) : Covers req (a.next cfg req s) := by
  cases a with
  | giveUp => exact hfine.elim
  | work sees =>
    show Covers req (atbmScanWork cfg req sees s)
    obtain ⟨parts, hparts, hbatch⟩ := h.parts
    by_cases hend : s.curr = req.chans.length
    · obtain ⟨hc, hw, hh⟩ := work_behind cfg hfine.1 hend
      have hend' : (atbmScanWork cfg req sees s).curr = req.chans.length := hc.trans hend
      refine ⟨⟨parts, ?_, ?_⟩, ⟨hw.trans h.inside.1, Nat.le_of_eq hend'⟩, fun _ => hend', fun _ => hend'⟩
      · rw [hc, hparts]
      · rw [hh]
        exact hbatch
    · obtain ⟨p, b, hp, hb, htake, hroom, heq⟩ := work_batch hf hfine ha (Nat.lt_of_le_of_ne h.inside.2 hend)
      rw [heq]
      refine ⟨⟨parts ++ [p], ?_, ?_⟩, ⟨h.inside.1, hroom⟩, ?_, ?_⟩
      · rw [List.flatten_append, hparts, List.flatten_cons, List.flatten_nil, List.append_nil]
        exact htake
      · rw [List.filter_append]
        apply List.rel_append hbatch
        simp only [List.filter_cons, hb, Bool.not_false, if_true, List.filter_nil]
        exact .cons hp .nil
      · rintro ⟨x, hx, hagain⟩
        rcases List.mem_append.mp hx with hx | hx
        · exact absurd (h.behind ⟨x, hx, hagain⟩) hend
        · rw [List.mem_singleton.mp hx, hb] at hagain
          cases hagain
      · intro hact
        rw [show (_ : Bool) = s.active from rfl, ha] at hact
        cases hact

theorem covers_run (hf : cfg.fastlink = false) {s t : ScanRun} {l : List (ScanRun × CoverAct)}
    (hp : Path (scanWorks cfg req) s l t) (hs : Covers req s) (hl : ∀ p ∈ l, p.2.Fine) : Covers req t := by
  apply hp.keep (C := fun _ a => a.Fine) ?_ hl hs
  rintro u a v hu ⟨ha, rfl⟩ hfine
  exact covers_step hf hu ha hfine

theorem next_curr (hf : cfg.fastlink = false) {s : ScanRun} {a : CoverAct} (h : Covers req s) (ha : s.active = true)
    (hfine : a.Fine) : s.curr + 1 ≤ (a.next cfg req s).curr ∨ (a.next cfg req s).curr = req.chans.length := by
  cases a with
  | giveUp => exact hfine.elim
  | work sees =>
    show s.curr + 1 ≤ (atbmScanWork cfg req sees s).curr ∨ (atbmScanWork cfg req sees s).curr = req.chans.length
    by_cases hend : s.curr = req.chans.length
    · right
      rw [(work_behind cfg hfine.1 hend).1, hend]
    · left
      obtain ⟨p, b, hp, -, -, -, heq⟩ := work_batch hf hfine ha (Nat.lt_of_le_of_ne h.inside.2 hend)
      have hpos := List.length_pos_iff.mpr hp.nonempty
      rw [heq]
      show s.curr + 1 ≤ s.curr + p.length
      omega

theorem curr_grows (hf : cfg.fastlink = false) {s t : ScanRun} {l : List (ScanRun × CoverAct)}
    (hp : Path (scanWorks cfg req) s l t) (hs : Covers req s) (hl : ∀ p ∈ l, p.2.Fine) :
    s.curr + l.length ≤ t.curr ∨ t.curr = req.chans.length := by
  induction hp with
  | nil s => exact .inl (Nat.le_refl _)
  | @cons s u t a l hstep hp ih =>
    obtain ⟨ha, rfl⟩ := hstep
    have hfine : a.Fine := hl (s, a) List.mem_cons_self
    have hrest : ∀ p ∈ l, p.2.Fine := fun p hp => hl p (List.mem_cons_of_mem _ hp)
    have hu := covers_step hf hs ha hfine
    have ht := covers_run hf hp hu hrest
    have hle := ht.inside.2
    rw [List.length_cons]
    rcases ih hu hrest with h | h
    · have h' : (a.next cfg req s).curr + l.length ≤ t.curr := h
      rcases next_curr hf hs ha hfine with hn | hn
      · left
        omega
      · right
        omega
    · exact .inr h

/-- **The batches cover the request.**  In every run without a failure, what has been handed over
are batches of the channels before `scan.curr`, one after the other; the request ends with all of them,
after as many runs of the work as there are channels or fewer. -/
theorem scan_covers (hf : cfg.fastlink = false) {t : ScanRun} {l : List (ScanRun × CoverAct)}
    (hp : Path (scanWorks cfg req) {} l t) (hl : ∀ p ∈ l, p.2.Fine) :
    Covers req t ∧ (req.chans.length ≤ l.length → t.curr = req.chans.length) := by
  have ht := covers_run hf hp covers_init hl
  refine ⟨ht, ?_⟩
  intro hlen
  have hle := ht.inside.2
  rcases curr_grows hf hp covers_init hl with h | h
  · have h0 : ({} : ScanRun).curr = 0 := rfl
    omega
  · exact h

end Runs

def calm : WorkSees where
  vif := true
  alloc := true
  p2pVif := false
  joinedSta := false
  bssLoss := false
  goAwaited := false
  inTime := false
  p2pOperChannel := 0
  started := true

def defaultCfg : ScanCfg := ⟨false, false, false⟩

def twoBands (ifId : Nat) : ScanRequest where
  chans := [⟨0, 1, false, 20, by decide⟩, ⟨1, 36, false, 20, by decide⟩]
  ssids := []
  ifId := ifId
  split := false
  passive := false
  cca := false
  noCck := false
  few := by decide

theorem scan_covers_twoBands :
    Covers (twoBands 0) ([CoverAct.work calm, .work calm].foldl (CoverAct.next defaultCfg (twoBands 0)) {}) ∧
      ([CoverAct.work calm, .work calm].foldl (CoverAct.next defaultCfg (twoBands 0)) {}).curr = 2 := by
  have h := @scan_covers defaultCfg (twoBands 0) rfl _ _
    (Path.ofFires (l := [CoverAct.work calm, .work calm]) (by decide +kernel))
    (by simp [trace, CoverAct.Fine, calm])
  exact ⟨h.1, h.2 (by decide +kernel)⟩

/-- **The failing runs.**  Every batch starts.  The first of two is not completed, and the request is
over; or the group owner is not heard of, and its channels follow those of the request. -/
theorem scan_given_up :
    (∃ l t, Path (scanWorks defaultCfg (twoBands 0)) {} l t ∧ (∀ p ∈ l, p.2.Starts) ∧ t.active = false ∧
      t.handed.flatMap Handed.numbers ≠ (twoBands 0).chans.map ScanChan.number) ∧
    ∃ l t, Path (scanWorks defaultCfg (twoBands 1)) {} l t ∧ (∀ p ∈ l, p.2.Starts) ∧ t.active = false ∧
      t.handed.flatMap Handed.numbers = [1, 36, 6, 1, 6, 11, 6] := by
  have hlate : Path (scanWorks defaultCfg (twoBands 0)) {} _ _ :=
    Path.ofFires (l := [CoverAct.work calm, .giveUp, .work calm]) (by decide +kernel)
  have hagain : Path (scanWorks defaultCfg (twoBands 1)) {} _ _ :=
    Path.ofFires (l := [CoverAct.work calm, .work calm,
      .work { calm with goAwaited := true, inTime := true, p2pOperChannel := 6 }, .work calm]) (by decide +kernel)
  refine ⟨⟨_, _, hlate, ?_, ?_, ?_⟩, ⟨_, _, hagain, ?_, ?_, ?_⟩⟩
  · simp [trace, CoverAct.Starts, calm]
  · decide +kernel
  · decide +kernel
  · simp [trace, CoverAct.Starts, calm]
  · decide +kernel
  · decide +kernel

end ScanCover

end AtbmWifi
