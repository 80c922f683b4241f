import AtbmWifi.Lib.Memory

/-!
# Automatic channel selection

After an internal scan `atbm_internal_channel_auto_select_results` adds what was heard to the weights of the channels,
each result also to those of its neighbours at 2.4 GHz, and then picks a channel by the weights and by the share of the
time the firmware found it busy.

The tables have 64 entries and are indexed by the number of a channel less one; an access outside gives `none`.
-/

namespace AtbmWifi

namespace ChannelSelect

open Memory

/-- What the driver is built for: `CONFIG_ATBM_APOLLO_5GHZ_SUPPORT`, `CONFIG_ATBM_5G_PRETEND_2G` or neither. -/
inductive Build
  | only2g
  | pretend5g
  | full5g
  deriving DecidableEq

structure Channel where
  centerFreq : Nat
  hwValue : Nat
  deriving DecidableEq

/-- `CHAN2G` and `CHAN5G_2G` -/
def chan (freq hw : Nat) : Channel := ⟨freq, hw⟩

/-- `atbm_2ghz_chantable` -/
def chantable2g : List Channel :=
  [chan 2412 1, chan 2417 2, chan 2422 3, chan 2427 4, chan 2432 5, chan 2437 6, chan 2442 7, chan 2447 8, chan 2452 9,
    chan 2457 10, chan 2462 11, chan 2467 12, chan 2472 13, chan 2484 14]

def chan5g (n : Nat) : Channel := ⟨5000 + 5 * n, n⟩

/-- `atbm_5ghz_chantable` -/
def chantable5g : Build → List Channel
  | .only2g => []
  | .pretend5g => [chan 5170 36, chan 5180 36, chan 5190 38, chan 5200 40, chan 5210 42, chan 5220 42]
  | .full5g => [34, 36, 38, 40, 42, 44, 46, 48, 52, 56, 60, 64, 100, 104, 108, 112, 116, 120, 124, 128, 132, 136, 140,
      149, 153, 157, 161, 165].map chan5g

/-- The channels of the wiphy, and which of them have `IEEE80211_CHANNLE_SPECIAL_FREQ_FLAG`, by frequency. -/
structure Wiphy where
  build : Build
  special : Nat → Bool

def Wiphy.channels (w : Wiphy) : List Channel := chantable2g ++ chantable5g w.build

def chnumToFreq (n : Nat) : Nat := if n < 14 then 2412 + (n - 1) * 5 else if n = 14 then 2484 else 5000 + 5 * n

def chnumToChannel (w : Wiphy) (n : Nat) : Option Channel :=
  if n = 0 then none else w.channels.find? fun c => c.centerFreq == chnumToFreq n

def channelValid (w : Wiphy) (n : Nat) : Bool := (chnumToChannel w n).isSome

/-- `channel_in_special` of the channel with a number. -/
def numberInSpecial (w : Wiphy) (n : Nat) : Bool := (chnumToChannel w n).any fun c => w.special c.centerFreq

def maxScanChannelIndex : Nat := 64

structure ScanSta where
  channel : UInt8
  signal : Int
  cca : Bool

structure SelectResults where
  nAps : Nat → UInt32
  weight : Nat → UInt32
  busyRatio : Nat → UInt8
  susgestChannel : Nat
  ignoreChannels : List UInt8
  channels : List UInt8
  version : UInt8

def toS8 (x : Int) : Int := (x + 128) % 256 - 128

def rssiWeight (signal : Int) : UInt32 :=
  let signal := toS8 signal
  if signal ≤ -75 then 0
  else if signal ≤ -65 then 1
  else if signal ≤ -50 then 2
  else 4

def addedWeight (version : UInt8) (signal : Int) (distance : Nat) : UInt32 :=
  if version = 1 then rssiWeight (signal - 2 * distance) else 1

/-- `weight[index-1] += ...` -/
def addWeight (weight : Nat → UInt32) (index : Nat) (v : UInt32) : Option (Nat → UInt32) :=
  if index - 1 < maxScanChannelIndex then some (setAt weight (index - 1) (weight (index - 1) + v)) else none

def spreadTo (w : Wiphy) (version : UInt8) (sta : ScanSta) (weight : Nat → UInt32) (index : Nat) : Option (Nat → UInt32) :=
  if numberInSpecial w index then some weight
  else addWeight weight index (addedWeight version (toS8 sta.signal) (max index sta.channel.toNat - min index sta.channel.toNat))

/-- `low` and `high` -/
def lowNeighbour (cur : Nat) : Nat := if 4 ≤ cur then cur - 3 else 1
def highNeighbour (cur : Nat) : Nat := if cur ≤ 10 then cur + 3 else 13

def neighbours (cur : Nat) : List Nat :=
  List.range' (cur + 1) (highNeighbour cur - cur) ++ (List.range' (lowNeighbour cur) (cur - lowNeighbour cur)).reverse

def handle (w : Wiphy) (r : SelectResults) (sta : ScanSta) : Option (SelectResults × Bool) :=
  let cur := sta.channel.toNat
  if channelValid w cur = false then some (r, false)
  else if sta.cca = false then some (r, false)
  else do
    let nAps ← addWeight r.nAps cur 1
    let own ← addWeight r.weight cur (addedWeight r.version (toS8 sta.signal) 0)
    let r := { r with nAps := nAps, weight := own }
    if numberInSpecial w cur then some (r, true)
    else if cur ≤ 13 then
      let weight ← (neighbours cur).foldlM (spreadTo w r.version sta) r.weight
      some ({ r with weight := weight }, true)
    else some (r, true)

/-- `ieee80211_scan_internal_req_results`: after a result that is refused the others are only taken off the list. -/
def reqResults (w : Wiphy) (r : SelectResults) (stas : List ScanSta) : Option (SelectResults × Bool) :=
  stas.foldlM (fun p sta => if p.2 then handle w p.1 sta else some p) (r, true)

structure Pick where
  minApNum : Nat
  minApNumRation : Nat
  minBusyRatio : Nat
  channel : Nat
  deriving DecidableEq

def busyRatioMin : Nat := 100
def noApNum : Nat := 2 ^ 32 - 1

def Pick.start : Pick := ⟨noApNum, 128, 128, 0⟩

def Pick.consider (weight ratio : Nat → Nat) (p : Pick) (n : Nat) : Pick :=
  if ratio n < busyRatioMin then
    if weight n ≤ p.minApNum then
      if weight n = p.minApNum then
        if ratio n ≤ p.minApNumRation then { p with minApNum := weight n, channel := n, minApNumRation := ratio n } else p
      else { p with minApNum := weight n, channel := n, minApNumRation := ratio n }
    else p
  else if p.minApNum = noApNum then
    if ratio n < p.minBusyRatio then { p with minBusyRatio := ratio n, channel := n } else p
  else p

/-- The masks of the lists of channel numbers; `none` if one is outside the table. -/
def maskOf (w : Wiphy) (l : List UInt8) (old : Nat → Bool) : Option (Option (Nat → Bool)) :=
  l.foldlM (fun m n =>
    match m with
    | none => some none
    | some m =>
      if channelValid w n.toNat = false then some none
      else if n.toNat - 1 < maxScanChannelIndex then some (some (setAt m (n.toNat - 1) true))
      else none) (some old)

structure Selected where
  results : SelectResults
  ok : Bool

def entry {α : Type} (t : Nat → α) (hw : Nat) : Option α :=
  if hw - 1 < maxScanChannelIndex then some (t (hw - 1)) else none

def turn (w : Wiphy) (weight : Nat → UInt32) (busy : Nat → UInt8) (ignore allowed : Nat → Bool) (p : Pick) (c : Channel) :
    Option Pick := do
  let ratio ← entry busy c.hwValue
  if ratio = 0 then some p
  else if ignore (c.hwValue - 1) then some p
  else if allowed (c.hwValue - 1) = false then some p
  else if w.special c.centerFreq then some p
  else some (p.consider (fun n => (weight (n - 1)).toNat) (fun n => (busy (n - 1)).toNat) c.hwValue)

/-- `atbm_internal_channel_auto_select_results` with the ratios of the last CCA scan. -/
def autoSelect (w : Wiphy) (busy : Nat → UInt8) (stas : List ScanSta) (r : SelectResults) : Option Selected := do
  let req ← reqResults w r stas
  let r := req.1
  if req.2 = false then some ⟨r, false⟩
  else do
    match ← maskOf w r.ignoreChannels (fun _ => false) with
    | none => some ⟨r, false⟩
    | some ignore =>
      match ← maskOf w r.channels (fun _ => r.channels.isEmpty) with
      | none => some ⟨r, false⟩
      | some allowed =>
        let p ← w.channels.foldlM (turn w r.weight busy ignore allowed) Pick.start
        if p.channel = 0 then some ⟨r, false⟩
        else some ⟨{ r with
          busyRatio := fun i => if i < maxScanChannelIndex then busy i else r.busyRatio i
          susgestChannel := p.channel }, true⟩

end ChannelSelect

end AtbmWifi
