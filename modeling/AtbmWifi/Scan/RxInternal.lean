import AtbmWifi.Lib.Memory
import AtbmWifi.Lib.Message

/-!
# Frames of an internal scan

`ieee80211_scan_rx_internal` gives a frame that is received during an internal scan to the list of BSS, to a handler of
frames, or takes from it what a result of the scan says of a station.  The record of a call says what was read of the
frame, how much was copied as an SSID, and what became of the frame and of the copy of its private element.
-/

namespace AtbmWifi

open Memory Wire

/-- A received frame: `len` bytes, and what stands behind them in the memory. -/
structure ScanSkb where
  mem : Nat → UInt8
  len : Nat

/-- What is used of `struct ieee802_atbm_11_elems`, and every span that was read. -/
structure ScanElems where
  ssid : Option Span
  dsParams : Option Span
  rsn : Option Span
  wpa : Option Span
  atbmSpecial : Option Span
  reads : List Span

namespace ScanElems

/-- `memset(elems, 0, sizeof(*elems))` -/
def zero : ScanElems := ⟨none, none, none, none, none, []⟩

/-- `ieee802_11_parse_vendor_specific`, of the content of an element -/
def putVendor (m : Nat → UInt8) (s : Span) (r : ScanElems) : ScanElems :=
  if s.size < 4 then r
  else if read m s.off 3 = [0x00, 0x50, 0xf2] then
    let r := { r with reads := ⟨s.off, 4⟩ :: r.reads }
    if m (s.off + 3) = 1 then { r with wpa := some s }
    else if m (s.off + 3) = 2 ∧ 5 ≤ s.size then { r with reads := ⟨s.off + 4, 1⟩ :: r.reads }
    else r
  else { r with reads := ⟨s.off, if read m s.off 3 = [0x50, 0x6f, 0x9a] then 4 else 3⟩ :: r.reads }

/-- The `switch` on the id of an element. -/
def put (m : Nat → UInt8) (id : UInt8) (s : Span) (r : ScanElems) : ScanElems :=
  if id = 0 then { r with ssid := some s }
  else if id = 3 then { r with dsParams := some s }
  else if id = 221 then r.putVendor m s
  else if id = 48 then { r with rsn := some s }
  else if id = 233 then { r with atbmSpecial := some s }
  else r

/-- The loop of `atbm_ieee802_11_parse_elems_crc`. -/
def parseLoop (m : Nat → UInt8) (pos left : Nat) (r : ScanElems) : ScanElems :=
  if left < 2 then r
  else
    let r := { r with reads := ⟨pos, 2⟩ :: r.reads }
    if left - 2 < (m (pos + 1)).toNat then r
    else
      parseLoop m (pos + 2 + (m (pos + 1)).toNat) (left - 2 - (m (pos + 1)).toNat)
        (r.put m (m pos) ⟨pos + 2, (m (pos + 1)).toNat⟩)
termination_by left
decreasing_by omega

/-- `ieee802_11_parse_elems` -/
def parse (m : Nat → UInt8) (start len : Nat) : ScanElems := parseLoop m start len zero

end ScanElems

inductive EncType
  | open | wpa | wpa2 | wpaWpa2 | wep
  deriving DecidableEq, Repr

def getBe32 (m : Nat → UInt8) (a : Nat) : Nat :=
  ((m a).toNat * 256 + (m (a + 1)).toNat) * 65536 + (m (a + 2)).toNat * 256 + (m (a + 3)).toNat

def getLe16 (m : Nat → UInt8) (a : Nat) : Nat := (m (a + 1)).toNat * 256 + (m a).toNat

def getSelectorToBitfield (s : Nat) : BitVec 32 :=
  if s = 0x000fac00 then 1 else if s = 0x000fac01 then 2 else if s = 0x000fac02 then 8 else if s = 0x000fac04 then 16
  else if s = 0x000fac05 then 4 else if s = 0x000fac06 then 32 else if s = 0x000fac08 then 64 else 0

def getRsnKeyMgmtToBitfield (s : Nat) : BitVec 32 :=
  if s = 0x000fac01 then 1 else if s = 0x000fac02 then 2 else if s = 0x000fac03 then 32 else if s = 0x000fac04 then 64
  else if s = 0x000fac05 then 128 else if s = 0x000fac06 then 256 else if s = 0x000fac08 then 1024
  else if s = 0x000fac09 then 2048 else 0

/-- `pos`, `left` and the flags behind a loop over selectors, and what it read. -/
structure SuiteRun where
  pos : Nat
  left : Int
  flag : BitVec 32
  reads : List Span

/-- A loop over `n` selectors that is left with less than `least` bytes. -/
def suiteLoop (m : Nat → UInt8) (bits : Nat → BitVec 32) (least : Int) : Nat → Nat → Int → BitVec 32 → SuiteRun
  | 0, pos, left, flag => ⟨pos, left, flag, []⟩
  | n + 1, pos, left, flag =>
    if left < least then ⟨pos, left, flag, []⟩
    else
      let r := suiteLoop m bits least n (pos + 4) (left - 4) (flag ||| bits (getBe32 m pos))
      { r with reads := ⟨pos, 4⟩ :: r.reads }

/-- What `get_ap_encryption_algorithm` adds to `encry_info`, and what it reads. -/
structure EncRun where
  flag : BitVec 32
  reads : List Span

def encWpa (m : Nat → UInt8) (ie : Span) : EncRun :=
  let pos := ie.off + 6
  let left : Int := ie.size - 6
  if left < 4 then ⟨0, []⟩
  else
    let pos := pos + 4
    let left := left - 4
    if left < 2 then ⟨0, []⟩
    else
      let count := getLe16 m pos
      if count = 0 ∨ left - 2 < count * 4 then ⟨0, [⟨pos, 2⟩]⟩
      else
        let r := suiteLoop m getSelectorToBitfield 0 count (pos + 2) (left - 2) 0
        ⟨r.flag, ⟨pos, 2⟩ :: r.reads⟩

def encWpa2 (m : Nat → UInt8) (ie : Span) : EncRun :=
  let pos := ie.off + 2
  let left : Int := ie.size - 2
  if left < 4 then ⟨0, []⟩
  else
    let pos := pos + 4
    let left := left - 4
    if left < 2 then ⟨0, []⟩
    else
      let pair := suiteLoop m getSelectorToBitfield 4 (getLe16 m pos) (pos + 2) (left - 2) 0
      -- the count is read whatever is left
      let auth := suiteLoop m getRsnKeyMgmtToBitfield 4 (getLe16 m pair.pos) (pair.pos + 2) (pair.left - 2) 0
      ⟨pair.flag ||| auth.flag <<< 16, ⟨pos, 2⟩ :: pair.reads ++ ⟨pair.pos, 2⟩ :: auth.reads⟩

/-- `get_ap_encryption_algorithm`; without an element it returns before `encry_info` is written. -/
def getApEncryptionAlgorithm (m : Nat → UInt8) (ie : Option Span) : EncType → EncRun
  | .open => ⟨1, []⟩
  | .wpa => ie.elim ⟨0, []⟩ fun s => if s.size = 0 then ⟨0, []⟩ else encWpa m s
  | .wpa2 => ie.elim ⟨0, []⟩ fun s => if s.size = 0 then ⟨0, []⟩ else encWpa2 m s
  | .wep => ⟨6, []⟩
  | .wpaWpa2 => ⟨0, []⟩

/-- `elems.x && elems.x_len` -/
def Present (ie : Option Span) : Prop := ∃ s, ie = some s ∧ s.size ≠ 0

instance : (ie : Option Span) → Decidable (Present ie)
  | none => .isFalse nofun
  | some s => if h : s.size = 0 then .isFalse fun ⟨_, heq, hs⟩ => hs (Option.some.inj heq ▸ h) else .isTrue ⟨s, rfl, h⟩

inductive RxResult
  | continue | dropUnusable | dropMonitor | queued
  deriving DecidableEq, Repr

structure ScanChannel where
  hwValue : Nat
  cca : Bool

structure InternalScanSta where
  bssid : List UInt8
  ssid : List UInt8
  ssidLen : Nat
  channel : Nat
  signal : Nat
  encType : EncType
  encName : BitVec 32
  beacon : Bool
  cca : Bool
  ie : Option (List UInt8)

structure ScanEnv where
  /-- `CONFIG_ATBM_APOLLO_24GHZ_ONLY_SUPPORT` -/
  only24 : Bool
  countryCode : List UInt8
  /-- `sdata == local->scan_sdata` -/
  scanSdata : Bool
  addr : List UInt8
  updateBss : Bool
  resultsSkb : Bool
  resultsHandle : Bool
  cca : Bool
  nMacs : Nat
  /-- the list of MACs has this one -/
  macListed : List UInt8 → Bool
  /-- the handler of results of stations, and that of frames; it says whether it took the result -/
  staHandler : Option (InternalScanSta → Bool)
  skbHandler : Option (ScanSkb → Bool)
  /-- `atbm_kzalloc` gets memory -/
  alloc : Bool
  freq : Nat
  signal : Nat
  channelToFrequency : UInt8 → Nat
  frequencyToChannel : Nat → Nat
  getChannel : Nat → Option ScanChannel

/-- What becomes of the frame and of the copy of its private element. -/
inductive ScanEvent
  | skbFreed | skbQueued | skbHanded | ieAllocated | ieFreed | ieHanded
  deriving DecidableEq, Repr

structure ScanRx where
  ret : RxResult
  reads : List Span
  /-- the bytes copied to `scan_info.sta.ssid` -/
  ssidCopied : Nat
  events : List ScanEvent

namespace ScanSkb

def isCtl (k : ScanSkb) : Bool := k.mem 0 &&& 0x0c == 0x04
def isProbeResp (k : ScanSkb) : Bool := k.mem 0 &&& 0xfc == 0x50
def isBeacon (k : ScanSkb) : Bool := k.mem 0 &&& 0xfc == 0x80
def da (k : ScanSkb) : List UInt8 := read k.mem 4 6
def bssid (k : ScanSkb) : List UInt8 := read k.mem 16 6

def privacy (k : ScanSkb) : Bool := getLe16 k.mem 34 &&& 16 != 0

/-- `offsetof(struct atbm_ieee80211_mgmt, u.beacon.variable)`, and that of a probe response -/
def baselen : Nat := 36

end ScanSkb

namespace ScanEnv

variable (env : ScanEnv) (k : ScanSkb)

def countryT : List (List UInt8 × Nat) := [([67, 78], 13), ([74, 80], 14), ([85, 83], 11), ([69, 85], 13)]

def countryChan : Nat := ((countryT.find? fun c => c.1 == env.countryCode).map Prod.snd).getD 0

def frameFreq (elems : ScanElems) : Nat :=
  match elems.dsParams with
  | some s => if s.size = 1 then env.channelToFrequency (k.mem s.off) else env.freq
  | none => env.freq

/-- `ieee80211_2_4G_scan_results_limit` returns an error; the length of a frame is not checked. -/
def limited : Bool :=
  env.only24 && 0 < env.countryChan && (k.isProbeResp || k.isBeacon) &&
    env.countryChan < env.frequencyToChannel (env.frameFreq k
      (ScanElems.parse k.mem ScanSkb.baselen ((2 ^ 64 + k.len - ScanSkb.baselen) % 2 ^ 64)))

/-- `enc_type`, what the algorithms add up to, and what is read for them. -/
def encryption (elems : ScanElems) : EncType × BitVec 32 × List Span :=
  if Present elems.rsn ∧ Present elems.wpa then
    let wpa2 := getApEncryptionAlgorithm k.mem elems.rsn .wpa2
    let wpa := getApEncryptionAlgorithm k.mem elems.wpa .wpa
    (.wpaWpa2, wpa2.flag ||| wpa.flag, wpa2.reads ++ wpa.reads)
  else if Present elems.rsn then
    let wpa2 := getApEncryptionAlgorithm k.mem elems.rsn .wpa2
    (.wpa2, wpa2.flag, wpa2.reads)
  else if Present elems.wpa then
    let wpa := getApEncryptionAlgorithm k.mem elems.wpa .wpa
    (.wpa, wpa.flag, wpa.reads)
  else if k.privacy = true then (.wep, (getApEncryptionAlgorithm k.mem elems.wpa .wep).flag, [⟨34, 2⟩])
  else (.open, (getApEncryptionAlgorithm k.mem elems.wpa .open).flag, [⟨34, 2⟩])

/-- The end of `ieee80211_scan_rx_internal_sta_info`, when the result is made. -/
def deliver (sta : InternalScanSta) (reads : List Span) : ScanRx :=
  let alloc : List ScanEvent := if sta.ie.isSome then [.ieAllocated] else []
  let free : List ScanEvent := if sta.ie.isSome then [.ieFreed] else []
  let hand : List ScanEvent := if sta.ie.isSome then [.ieHanded] else []
  if env.cca = true ∧ sta.cca = false then ⟨.dropMonitor, reads, sta.ssidLen, alloc ++ free⟩
  else
    match env.staHandler with
    | some func =>
      if func sta = false then ⟨.dropMonitor, reads, sta.ssidLen, alloc ++ free⟩
      else ⟨.queued, reads, sta.ssidLen, alloc ++ hand ++ [.skbFreed]⟩
    | none =>
      if env.resultsHandle = true then ⟨.queued, reads, sta.ssidLen, alloc ++ hand ++ [.skbFreed]⟩
      else ⟨.queued, reads, sta.ssidLen, alloc ++ free ++ [.skbFreed]⟩

/-- `ieee80211_scan_rx_internal_sta_info`, when the frame is parsed -/
def examine (reads : List Span) : ScanRx :=
  let elems := ScanElems.parse k.mem ScanSkb.baselen (k.len - ScanSkb.baselen)
  let freq := env.frameFreq k elems
  let (encType, encName, encReads) := encryption k elems
  let ssid := elems.ssid.getD ⟨0, 0⟩
  let reads := reads ++ elems.reads ++ elems.dsParams.toList.filter (fun s => s.size = 1) ++ encReads ++ [⟨16, 6⟩, ssid]
  match env.getChannel freq with
  | none => ⟨.dropMonitor, reads, ssid.size, []⟩
  | some channel =>
    let sta (ie : Option (List UInt8)) : InternalScanSta :=
      ⟨k.bssid, read k.mem ssid.off ssid.size, ssid.size, channel.hwValue, env.signal, encType, encName, k.isBeacon,
        env.cca && channel.cca, ie⟩
    let special := elems.atbmSpecial.getD ⟨0, 0⟩
    if special.size = 0 then env.deliver (sta none) reads
    else if env.alloc = false then ⟨.dropMonitor, reads, ssid.size, []⟩
    else env.deliver (sta (some (read k.mem special.off special.size))) (reads ++ [special])

/-- `mgmt->da` is compared. -/
def daRead : List Span := if k.isProbeResp = true then [⟨4, 6⟩] else []

def scanRxInternalStaInfo : ScanRx :=
  let leave (ret : RxResult) (reads : List Span) : ScanRx := ⟨ret, reads, 0, []⟩
  if k.len < 2 then leave .dropUnusable []
  else if k.isCtl = true then leave .continue [⟨0, 2⟩]
  else if k.len < 24 then leave .continue [⟨0, 2⟩]
  else if k.isProbeResp = true ∧ k.da ≠ env.addr then leave .dropMonitor (⟨0, 2⟩ :: daRead k)
  else if k.isProbeResp = false ∧ k.isBeacon = false then leave .continue [⟨0, 2⟩]
  else if k.len < ScanSkb.baselen then leave .dropMonitor (⟨0, 2⟩ :: daRead k)
  else if env.nMacs ≠ 0 ∧ env.macListed k.bssid = false then leave .dropMonitor (⟨0, 2⟩ :: daRead k ++ [⟨16, 6⟩])
  else env.examine k (⟨0, 2⟩ :: daRead k)

def scanRxInternalSkb : ScanRx :=
  let leave (ret : RxResult) (reads : List Span) : ScanRx := ⟨ret, reads, 0, []⟩
  if k.len < 2 then leave .dropUnusable []
  else
    match env.skbHandler with
    | none => leave .dropUnusable []
    | some func =>
      if k.isCtl = true then leave .continue [⟨0, 2⟩]
      else if k.len < 24 then leave .continue [⟨0, 2⟩]
      else if k.isProbeResp = false ∧ k.isBeacon = false then leave .continue [⟨0, 2⟩]
      else if env.scanSdata = false then leave .continue [⟨0, 2⟩]
      else if func k = false then leave .continue [⟨0, 2⟩]
      else ⟨.queued, [⟨0, 2⟩], 0, [.skbHanded]⟩

/-- `ieee80211_scan_rx`, as it is built without `ATBM_USE_FASTLINK` -/
def scanRx : ScanRx :=
  let leave (ret : RxResult) (reads : List Span) : ScanRx := ⟨ret, reads, 0, []⟩
  if k.len < 2 then leave .dropUnusable []
  else if k.isCtl = true then leave .continue [⟨0, 2⟩]
  else if k.len < 24 then leave .continue [⟨0, 2⟩]
  else if env.scanSdata = false then leave .continue [⟨0, 2⟩]
  else if k.isProbeResp = true ∧ k.da ≠ env.addr then leave .dropMonitor (⟨0, 2⟩ :: daRead k)
  else if k.isProbeResp = false ∧ k.isBeacon = false then leave .continue [⟨0, 2⟩]
  else if k.len < ScanSkb.baselen then leave .dropMonitor (⟨0, 2⟩ :: daRead k)
  else ⟨.queued, ⟨0, 2⟩ :: daRead k, 0, [.skbQueued]⟩

def scanRxInternal : ScanRx :=
  if env.limited k = true then ⟨.queued, [], 0, []⟩
  else if env.updateBss = true then env.scanRx k
  else if env.resultsSkb = true then env.scanRxInternalSkb k
  else env.scanRxInternalStaInfo k

end ScanEnv

def ScanEvent.consumes : ScanEvent → Bool
  | skbFreed | skbQueued | skbHanded => true
  | _ => false

def ScanEvent.releases : ScanEvent → Bool
  | ieFreed | ieHanded => true
  | _ => false

/-- The call reads no more than the frame and writes no more than an SSID; the frame is consumed once if it is said to
be, and the copy is freed or handed over as often as it is made. -/
structure ScanRx.Sound (len : Nat) (o : ScanRx) : Prop where
  reads : ∀ s ∈ o.reads, s.Within len
  ssid : o.ssidCopied ≤ 32
  skb : o.events.countP ScanEvent.consumes = if o.ret = .queued then 1 else 0
  ie : o.events.countP ScanEvent.releases = o.events.count .ieAllocated

instance (len : Nat) (o : ScanRx) : Decidable (o.Sound len) :=
  decidable_of_iff ((∀ s ∈ o.reads, s.Within len) ∧ o.ssidCopied ≤ 32 ∧
    o.events.countP ScanEvent.consumes = (if o.ret = .queued then 1 else 0) ∧
    o.events.countP ScanEvent.releases = o.events.count .ieAllocated)
    ⟨fun ⟨hr, hs, hk, hi⟩ => ⟨hr, hs, hk, hi⟩, fun ⟨hr, hs, hk, hi⟩ => ⟨hr, hs, hk, hi⟩⟩

structure ScanEnv.Examined (env : ScanEnv) (k : ScanSkb) : Prop where
  kind : env.updateBss = false ∧ env.resultsSkb = false
  len : ScanSkb.baselen ≤ k.len
  type : k.isBeacon = true ∨ k.isProbeResp = true ∧ k.da = env.addr
  listed : env.nMacs ≠ 0 → env.macListed k.bssid = true

/-- The turns of the loop over the pairwise ciphers of an RSN element. -/
def pairwiseTurns (m : Nat → UInt8) (ie : Span) : Nat := min (getLe16 m (ie.off + 6)) ((ie.size - 8) / 4)

/-- The SSID is not too long, and behind the pairwise ciphers of an RSN element that goes on to their number two octets
follow in the frame. -/
structure ScanEnv.ElemsFit (k : ScanSkb) : Prop where
  ssid : ∀ s, (ScanElems.parse k.mem ScanSkb.baselen (k.len - ScanSkb.baselen)).ssid = some s → s.size ≤ 32
  rsn : ∀ s, (ScanElems.parse k.mem ScanSkb.baselen (k.len - ScanSkb.baselen)).rsn = some s → 8 ≤ s.size →
    s.off + 8 + 4 * pairwiseTurns k.mem s + 2 ≤ k.len

end AtbmWifi
