import AtbmWifi.Lib.Memory
import AtbmWifi.Lib.Transition
import Mathlib.Data.Fintype.Defs

/-!
# The station bridge

`NETWIFI_S_BRIDGE` binds the IP addresses of hosts behind the station to their MAC addresses
(`CONFIG_MAC80211_BRIDGE`): sent frames fill the table, received ones are given the MAC address of their
destination.  The entries are memory that is allocated and freed; a list and the buckets of a hash hold their
addresses and `fast_entry` is a cache with copied keys.  Frames are buffers, read at any content: `ehdr` stays
where it was when `__vlan_hdr_del`, which declares an `ehdr` of its own, has moved `skb->data`.
-/

namespace AtbmWifi

open Transition Memory

/-- An skb: its buffer, where `skb->data` points to in it and `skb->len`. -/
structure BrSkb where
  mem : Nat → UInt8
  data : Nat
  len : Nat

/-- A MAC address: `ETH_ALEN` bytes. -/
abbrev EthAddr := { l : List UInt8 // l.length = 6 }

def ethPIp : List UInt8 := [0x08, 0x00]
def ethPArp : List UInt8 := [0x08, 0x06]
def ethP8021q : List UInt8 := [0x81, 0x00]

namespace BrSkb

def pull (n : Nat) (k : BrSkb) : BrSkb := if n ≤ k.len then { k with data := k.data + n, len := k.len - n } else k

def push (n : Nat) (k : BrSkb) : BrSkb := { k with data := k.data - n, len := k.len + n }

def store (a : Nat) (bs : List UInt8) (k : BrSkb) : BrSkb := { k with mem := write k.mem a bs }

/-! The fields of a frame whose `ehdr` is `e`. -/

def hDest (e : Nat) (k : BrSkb) : EthAddr := ⟨read k.mem e 6, length_read _ _ _⟩
def hSource (e : Nat) (k : BrSkb) : EthAddr := ⟨read k.mem (e + 6) 6, length_read _ _ _⟩
def hProto (e : Nat) (k : BrSkb) : List UInt8 := read k.mem (e + 12) 2
def ihl (e : Nat) (k : BrSkb) : Nat := (k.mem (e + 14) &&& 0x0f).toNat
def ipProtocol (e : Nat) (k : BrSkb) : UInt8 := k.mem (e + 23)
def saddr (e : Nat) (k : BrSkb) : List UInt8 := read k.mem (e + 26) 4
def daddr (e : Nat) (k : BrSkb) : List UInt8 := read k.mem (e + 30) 4
def arPro (e : Nat) (k : BrSkb) : List UInt8 := read k.mem (e + 16) 2
def srcDevaddr (e : Nat) (k : BrSkb) : EthAddr := ⟨read k.mem (e + 22) 6, length_read _ _ _⟩
def srcIpaddr (e : Nat) (k : BrSkb) : List UInt8 := read k.mem (e + 28) 4
def tgtIpaddr (e : Nat) (k : BrSkb) : List UInt8 := read k.mem (e + 38) 4

/-- `is_multicast_ether_addr(ehdr->h_dest)` -/
def multicast (e : Nat) (k : BrSkb) : Bool := k.mem e &&& 0x01 != 0

/-- `__vlan_hdr_del`; the frame and `vlan_hdr`, if it had a tag. -/
def vlanHdrDel (k : BrSkb) : BrSkb × Option (List UInt8) :=
  if k.hProto k.data = ethP8021q then
    (({ k with mem := move k.mem (k.data + 4) k.data 12 } : BrSkb).pull 4, some (read k.mem (k.data + 14) 2))
  else (k, none)

def vlanHdrAdd (vlanHdr : Option (List UInt8)) (k : BrSkb) : BrSkb :=
  match vlanHdr with
  | some tci =>
    let k := k.push 4
    let k := { k with mem := move k.mem k.data (k.data + 4) 12 }
    (k.store (k.data + 12) ethP8021q).store (k.data + 14) tci
  | none => k

def isDhcpFrame (k : BrSkb) : Bool :=
  let udph := k.data + 14 + 4 * k.ihl k.data
  k.hProto k.data == ethPIp && k.ipProtocol k.data == 17 &&
    (read k.mem udph 4 == [0, 67, 0, 68] || read k.mem udph 4 == [0, 68, 0, 67])

/-- `ieee80211_tx_set_dhcp_bcast_flag`; the sums are those of a little-endian host. -/
def setDhcpBcastFlag (k : BrSkb) : BrSkb :=
  let udph := k.data + 14 + 4 * k.ihl k.data
  let dhcph := udph + 8
  if k.isDhcpFrame = true ∧ read k.mem (dhcph + 236) 4 = [0x63, 0x82, 0x53, 0x63] ∧ k.mem (dhcph + 10) &&& 0x80 = 0 then
    let k := k.store (dhcph + 10) [k.mem (dhcph + 10) ||| 0x80]
    let flags := (k.mem (dhcph + 10)).toNat + 256 * (k.mem (dhcph + 11)).toNat
    let check := (k.mem (udph + 6)).toNat + 256 * (k.mem (udph + 7)).toNat
    let sum := 65535 - check + flags
    -- the sum has at most 17 bits: the loop is left after one turn
    let sum := sum % 65536 + sum / 65536
    k.store (udph + 6) [UInt8.ofNat ((65535 - sum) % 256), UInt8.ofNat ((65535 - sum) / 256)]
  else k

end BrSkb

/-- `struct NET_BR0_INFO_ENTRY` -/
structure Br0Entry where
  macaddr : EthAddr
  ipaddr : List UInt8
  ageingTimer : BitVec 64
  deriving DecidableEq, Repr

/-- `struct NETWIFI_S_BRIDGE`, with the entries that are allocated. -/
structure NetwifiSBridge where
  entries : Nat → Option Br0Entry
  /-- the address of the next entry to be allocated -/
  fresh : Nat
  asList : List Nat
  asHash : Fin 32 → List Nat
  ageingTimer : BitVec 64
  fastMac : EthAddr
  fastIp : List UInt8
  fastEntry : Option Nat
  brMac : EthAddr
  brIp : List UInt8

structure BrEnv where
  /-- the ticks passed since `jiffies` was 0 -/
  now : Nat
  /-- the interface is a port of a bridge; then `ieee80211_need_brigde` holds -/
  brPort : Bool
  station : Bool
  /-- the address of the bridge device, if it is found -/
  brDev : Option EthAddr
  devAddr : EthAddr
  /-- the skb is shared or cloned and cannot be copied -/
  copyFails : Bool
  /-- `br0_add` gets memory -/
  alloc : Bool
  deriving DecidableEq, Repr

def BrEnv.jiffies (env : BrEnv) : BitVec 64 := BitVec.ofNat 64 env.now

/-- `time_before_eq(a, b)` -/
def timeBeforeEq (a b : BitVec 64) : Bool := 0 ≤ (b - a).toInt

/-- `NET_BR0_AGEING_TIME*HZ` -/
def netBr0AgeingTime (hz : Nat) : Nat := 120 * hz

def br0Timeout (hz : Nat) (jiffies : BitVec 64) : BitVec 64 := jiffies - BitVec.ofNat 64 (netBr0AgeingTime hz)

def br0Hash (ipaddr : List UInt8) : Fin 32 := Fin.ofNat 32 (ipaddr.getD 3 0 ^^^ ipaddr.getD 2 0).toNat

def Br0Entry.hasExpired (hz : Nat) (jiffies : BitVec 64) (e : Br0Entry) : Bool :=
  timeBeforeEq e.ageingTimer (br0Timeout hz jiffies)

/-- Addresses after a `memset` with 0. -/
def zeroIp : List UInt8 := List.replicate 4 0
def zeroEth : EthAddr := ⟨List.replicate 6 0, rfl⟩

namespace NetwifiSBridge

def modify (i : Nat) (f : Br0Entry → Br0Entry) (p : NetwifiSBridge) : NetwifiSBridge :=
  { p with entries := setAt p.entries i ((p.entries i).map f) }

/-- `ageing_timer = jiffies` -/
def touch (i : Nat) (jiffies : BitVec 64) (p : NetwifiSBridge) : NetwifiSBridge :=
  p.modify i fun e => { e with ageingTimer := jiffies }

def findNetinfoIp (ipaddr : List UInt8) (p : NetwifiSBridge) : Option Nat :=
  (p.asHash (br0Hash ipaddr)).find? fun i => (p.entries i).any fun e => e.ipaddr == ipaddr

def br0Free (i : Nat) (p : NetwifiSBridge) : NetwifiSBridge :=
  { p with
    asList := p.asList.filter (· != i)
    asHash := fun b => (p.asHash b).filter (· != i)
    entries := setAt p.entries i none }

def clearFast (p : NetwifiSBridge) : NetwifiSBridge :=
  { p with fastEntry := none, fastIp := zeroIp, fastMac := zeroEth }

def br0FreeAllLocked (p : NetwifiSBridge) : NetwifiSBridge := (p.asList.foldl (fun p i => p.br0Free i) p).clearFast

/-- A turn of the loop of `br0_info_expire`. -/
def expireEntry (hz : Nat) (jiffies : BitVec 64) (p : NetwifiSBridge) (i : Nat) : NetwifiSBridge :=
  if (p.entries i).any (Br0Entry.hasExpired hz jiffies) = true then
    let q := p.br0Free i
    if p.fastEntry = some i then q.clearFast else q
  else p

/-- The time of `br0_info_expire` has come. -/
def expireDue (hz : Nat) (jiffies : BitVec 64) (p : NetwifiSBridge) : Bool :=
  timeBeforeEq p.ageingTimer (br0Timeout hz jiffies)

def br0InfoExpire (hz : Nat) (jiffies : BitVec 64) (p : NetwifiSBridge) : NetwifiSBridge :=
  if p.expireDue hz jiffies = true then
    { p.asList.foldl (expireEntry hz jiffies) p with ageingTimer := jiffies }
  else p

/-- The locked section of `br0_add`; the new entry, if it is used, keeps the 0 of its `memset` as its
`ageing_timer`. -/
def br0Insert (jiffies : BitVec 64) (mac : EthAddr) (ipaddr : List UInt8) (p : NetwifiSBridge) : NetwifiSBridge :=
  match p.findNetinfoIp ipaddr with
  | some i => { p.modify i fun e => { e with ageingTimer := jiffies, macaddr := mac } with fresh := p.fresh + 1 }
  | none =>
    { p with
      entries := setAt p.entries p.fresh (some ⟨mac, ipaddr, 0⟩)
      fresh := p.fresh + 1
      asList := p.asList ++ [p.fresh]
      asHash := setAt p.asHash (br0Hash ipaddr) (p.fresh :: p.asHash (br0Hash ipaddr)) }

def br0Add (hz : Nat) (env : BrEnv) (mac : EthAddr) (ipaddr : List UInt8) (p : NetwifiSBridge) : NetwifiSBridge :=
  let p := p.br0InfoExpire hz env.jiffies
  if env.alloc = true then p.br0Insert env.jiffies mac ipaddr else p

def brigdeUpdataFastInfo (mac : EthAddr) (ipaddr : List UInt8) (p : NetwifiSBridge) : Option Nat :=
  match p.findNetinfoIp ipaddr with
  | some i => if (p.entries i).any (fun e => e.macaddr == mac) = true then some i else none
  | none => none

/-- The cache in `ieee80211_brigde_change_txhdr`, for the frame as it is at `ehdr`; the bridge and
`need_insert`. -/
def txFast (jiffies : BitVec 64) (ehdr : Nat) (k : BrSkb) (p : NetwifiSBridge) : NetwifiSBridge × Bool :=
  if k.hProto ehdr = ethPIp then
    if k.hSource ehdr = p.fastMac ∧ p.fastIp = k.saddr ehdr then
      match p.fastEntry with
      | some i => (p.touch i jiffies, false)
      | none => ({ p with fastMac := zeroEth, fastIp := zeroIp }, true)
    else
      match p.brigdeUpdataFastInfo (k.hSource ehdr) (k.saddr ehdr) with
      | some i =>
        (({ p with fastEntry := some i, fastMac := k.hSource ehdr, fastIp := k.saddr ehdr } : NetwifiSBridge).touch i
          jiffies, false)
      | none => ({ p with fastEntry := none }, true)
  else (p, true)

/-- `ieee80211_brigde_hash_update`; the bridge, the frame and whether it returns 0. -/
def brigdeHashUpdate (hz : Nat) (env : BrEnv) (k : BrSkb) (p : NetwifiSBridge) : NetwifiSBridge × BrSkb × Bool :=
  let e := k.data
  if k.hProto e = ethPIp then
    if e + 14 + 4 * k.ihl e ≥ e + 14 + k.len then (p, k, false)
    else if k.saddr e = zeroIp then (p, k, true)
    else (p.br0Add hz env (k.hSource e) (k.saddr e), k, true)
  else if k.hProto e = ethPArp then
    if k.arPro e ≠ ethPIp then (p, k, false)
    else if k.srcIpaddr e = zeroIp then (p, k, true)
    else (p.br0Add hz env (k.srcDevaddr e) (k.srcIpaddr e), k.store (e + 22) env.devAddr.val, true)
  else (p, k, true)

/-- `ieee80211_brigde_change_txhdr`; whether it returns 0. -/
def brigdeChangeTxhdr (hz : Nat) (env : BrEnv) (k : BrSkb) (p : NetwifiSBridge) : NetwifiSBridge × BrSkb × Bool :=
  if env.brPort = false then (p, k, true)
  else if env.copyFails = true then (p, k, false)
  else
    let ehdr := k.data
    let (k, vlanHdr) := k.vlanHdrDel
    let (p, needInsert) := p.txFast env.jiffies ehdr k
    let (p, k, ok) := if needInsert = true then p.brigdeHashUpdate hz env k else (p, k, true)
    if ok = false then (p, k, false)
    else
      let k := k.vlanHdrAdd vlanHdr
      let ehdr := k.data
      let p := if k.hSource ehdr = p.brMac ∧ k.hProto ehdr = ethPIp then { p with brIp := k.saddr ehdr } else p
      if k.hDest ehdr = env.devAddr then (p, k, true)
      else if k.hSource ehdr ≠ env.devAddr then (p, (k.store (ehdr + 6) env.devAddr.val).setDhcpBcastFlag, true)
      else (p, k, true)

/-- `ieee80211_brigde_network_find_and_replace`; the bridge, the frame and whether there is an entry. -/
def brigdeNetworkFindAndReplace (hz : Nat) (jiffies : BitVec 64) (ipaddr : List UInt8) (k : BrSkb)
    (p : NetwifiSBridge) : NetwifiSBridge × BrSkb × Bool :=
  match p.findNetinfoIp ipaddr with
  | some i =>
    match p.entries i with
    | some e =>
      if e.hasExpired hz jiffies = true then (p, k, true) else (p.touch i jiffies, k.store k.data e.macaddr.val, true)
    | none => (p, k, true)
  | none => (p, k, false)

def changeRxhdr (hz : Nat) (jiffies : BitVec 64) (k : BrSkb) (p : NetwifiSBridge) : NetwifiSBridge × BrSkb :=
  let e := k.data
  if k.hProto e = ethPIp then
    match p.brigdeNetworkFindAndReplace hz jiffies (k.daddr e) k with
    | (p, k, true) => (p, k)
    | (p, k, false) =>
      if (k.daddr e).getD 3 0 = 0xff then (p, k.store e (List.replicate 6 0xff)) else (p, k.store e p.brMac.val)
  else if k.hProto e = ethPArp then
    let (p, k, _) := p.brigdeNetworkFindAndReplace hz jiffies (k.tgtIpaddr e) k
    (p, k.store (e + 32) (k.hDest e).val)
  else (p, k)

def br0NetdevOpen (env : BrEnv) (p : NetwifiSBridge) : NetwifiSBridge := { p with brMac := env.brDev.getD p.brMac }

/-- The start of `ieee80211_brigde_change_rxhdr`. -/
def brigdeReinit (env : BrEnv) (p : NetwifiSBridge) : NetwifiSBridge :=
  if env.brPort = true ∧ p.brMac = zeroEth then p.br0NetdevOpen env else p

/-- The cache answers for the frame as it is at `ehdr`. -/
def rxFast (ehdr : Nat) (k : BrSkb) (p : NetwifiSBridge) : Option Nat :=
  if k.hProto ehdr = ethPIp ∧ p.fastIp = k.daddr ehdr then p.fastEntry else none

/-- `ieee80211_brigde_change_rxhdr`; whether it returns 0. -/
def brigdeChangeRxhdr (hz : Nat) (env : BrEnv) (k : BrSkb) (p : NetwifiSBridge) : NetwifiSBridge × BrSkb × Bool :=
  let p := p.brigdeReinit env
  let (p, k) :=
    if env.brPort = true ∧ env.station = true ∧ k.multicast k.data = false then
      let ehdr := k.data
      let (k, vlanHdr) := k.vlanHdrDel
      let (p, k) :=
        match p.rxFast ehdr k with
        | some i => (p.touch i env.jiffies, k.store k.data p.fastMac.val)
        | none => p.changeRxhdr hz env.jiffies k
      (p, k.vlanHdrAdd vlanHdr)
    else (p, k)
  (p, k, !(p.brMac == k.hSource k.data))

end NetwifiSBridge

def br0Attach (jiffies : BitVec 64) : NetwifiSBridge :=
  { entries := fun _ => none, fresh := 0, asList := [], asHash := fun _ => [], ageingTimer := jiffies
    fastMac := zeroEth, fastIp := zeroIp, fastEntry := none, brMac := zeroEth, brIp := zeroIp }

end AtbmWifi
