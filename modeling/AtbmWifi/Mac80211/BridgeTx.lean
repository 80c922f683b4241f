import AtbmWifi.Lib.OnesComplement
import AtbmWifi.Mac80211.BridgeFrame

/-!
# What the bridge does to a sent frame

The accesses of `ieee80211_brigde_change_txhdr` in their order (`txAccess`), and what it means that the translation is
transparent: they are inside the frame, an error leaves the frame as it was, and otherwise only the addresses of the
station and the broadcast flag of DHCP messages are new and the UDP checksum is as good as before.
-/

namespace AtbmWifi

open Memory OnesComplement

namespace BrSkb

/-- The accesses of `ieee80211_is_dhcp_frame` and `ieee80211_tx_set_dhcp_bcast_flag`: addresses and sizes. -/
def dhcpAccess (k : BrSkb) : List (Nat × Nat) :=
  let udph := k.data + 14 + 4 * k.ihl k.data
  (k.data + 12, 2) :: if k.hProto k.data ≠ ethPIp then []
  else (k.data + 23, 1) :: if k.ipProtocol k.data ≠ 17 then []
  else (k.data + 14, 1) :: (udph, 2) :: if read k.mem udph 2 ≠ [0, 67] ∧ read k.mem udph 2 ≠ [0, 68] then []
  else (udph + 2, 2) :: if k.isDhcpFrame = false then []
  else (udph + 8 + 236, 4) :: if read k.mem (udph + 8 + 236) 4 ≠ [0x63, 0x82, 0x53, 0x63] then []
  else (udph + 8 + 10, 2) :: if k.mem (udph + 8 + 10) &&& 0x80 ≠ 0 then [] else [(udph + 6, 2)]

/-- `__vlan_hdr_del` -/
def vlanDelAccess (k : BrSkb) : List (Nat × Nat) :=
  (k.data + 12, 2) :: if k.hProto k.data = ethP8021q then [(k.data + 14, 2), (k.data, 12), (k.data + 4, 12)] else []

/-- `__vlan_hdr_add`, of the frame with its tag -/
def vlanAddAccess (k : BrSkb) : List (Nat × Nat) :=
  if k.hProto k.data = ethP8021q then [(k.data + 4, 12), (k.data, 12), (k.data + 12, 2), (k.data + 14, 2)] else []

/-- The cache, at the `ehdr` of before `__vlan_hdr_del` -/
def fastAccess (ehdr : Nat) (k : BrSkb) : List (Nat × Nat) :=
  (ehdr + 12, 2) :: if k.hProto ehdr = ethPIp then [(ehdr + 6, 6), (ehdr + 26, 4)] else []

/-- `ieee80211_brigde_hash_update` -/
def hashAccess (k : BrSkb) : List (Nat × Nat) :=
  let e := k.data
  (e + 12, 2) :: if k.hProto e = ethPIp then
    (e + 14, 1) :: if k.len ≤ 4 * k.ihl e then [] else (e + 26, 4) :: if k.saddr e = zeroIp then [] else [(e + 6, 6)]
  else if k.hProto e = ethPArp then
    (e + 28, 4) :: (e + 38, 4) :: (e + 16, 2) ::
      if k.arPro e ≠ ethPIp ∨ k.srcIpaddr e = zeroIp then [] else [(e + 22, 6)]
  else []

end BrSkb

open BrSkb

section

variable (env : BrEnv) (k : BrSkb) (p : NetwifiSBridge)

/-- `need_insert` -/
def Inserts : Prop := (p.txFast env.jiffies k.data k.vlanHdrDel.1).2 = true

instance : Decidable (Inserts env k p) := inferInstanceAs (Decidable (_ = true))

/-- `ieee80211_brigde_hash_update` returns an error. -/
def BrSkb.Refused : Prop :=
  k.hProto k.data = ethPIp ∧ k.len ≤ 4 * k.ihl k.data ∨ k.hProto k.data = ethPArp ∧ k.arPro k.data ≠ ethPIp

instance : Decidable k.Refused := inferInstanceAs (Decidable (_ ∨ _))

/-- `ieee80211_brigde_change_txhdr` returns an error after `__vlan_hdr_del`. -/
def TxRefused : Prop := Inserts env k p ∧ k.vlanHdrDel.1.Refused

instance : Decidable (TxRefused env k p) := inferInstanceAs (Decidable (_ ∧ _))

/-- The sender of an IPv4 ARP frame is replaced. -/
def BrSkb.ArpReplaced : Prop :=
  k.hProto k.data = ethPArp ∧ k.arPro k.data = ethPIp ∧ k.srcIpaddr k.data ≠ zeroIp

instance : Decidable k.ArpReplaced := inferInstanceAs (Decidable (_ ∧ _ ∧ _))

/-- The frame behind `__vlan_hdr_add`. -/
def txInserted : BrSkb :=
  if Inserts env k p ∧ k.vlanHdrDel.1.ArpReplaced then k.store (k.l3 + 22) env.devAddr.val else k

/-- The end of `ieee80211_brigde_change_txhdr`. -/
def txFrame : BrSkb :=
  if k.hDest k.data = env.devAddr then k
  else if k.hSource k.data ≠ env.devAddr then (k.store (k.data + 6) env.devAddr.val).setDhcpBcastFlag
  else k

def txFrameAccess : List (Nat × Nat) :=
  [(k.data + 6, 6), (k.data + 12, 2)] ++
  (if k.hSource k.data = p.brMac ∧ k.hProto k.data = ethPIp then [(k.data + 26, 4)] else []) ++
  (k.data, 6) :: if k.hDest k.data = env.devAddr then []
  else if k.hSource k.data ≠ env.devAddr then (k.data + 6, 6) :: (k.store (k.data + 6) env.devAddr.val).dhcpAccess
  else [(k.data + 6, 6)]

/-- The accesses of `ieee80211_brigde_change_txhdr` to the frame of a bridged interface. -/
def txAccess : List (Nat × Nat) :=
  if env.copyFails = true then []
  else k.vlanDelAccess ++ k.vlanHdrDel.1.fastAccess k.data ++
    (if Inserts env k p then k.vlanHdrDel.1.hashAccess else []) ++
    (if TxRefused env k p then [] else k.vlanAddAccess ++ txFrameAccess env (txInserted env k p) p)

def BrSkb.IsIpArp : Prop := k.hProto k.l3 = ethPArp ∧ k.arPro k.l3 = ethPIp

def BrSkb.udph : Nat := k.l3 + 14 + 4 * k.ihl k.l3

def BrSkb.IsDhcp : Prop :=
  k.isDhcpFrame = true ∧ read k.mem (k.udph + 8 + 236) 4 = [0x63, 0x82, 0x53, 0x63]

def beWord (m : Nat → UInt8) (a : Nat) : Nat := 256 * (m a).toNat + (m (a + 1)).toNat
def leWord (m : Nat → UInt8) (a : Nat) : Nat := (m a).toNat + 256 * (m (a + 1)).toNat

def BrSkb.udpLen : Nat := beWord k.mem (k.udph + 4)
def BrSkb.udpCheck : Nat := leWord k.mem (k.udph + 6)

structure BrSkb.IsUdp : Prop where
  proto : k.hProto k.l3 = ethPIp ∧ k.ipProtocol k.l3 = 17
  ihl : 5 ≤ k.ihl k.l3
  len : 8 ≤ k.udpLen ∧ k.udph + k.udpLen ≤ k.data + k.len

/-- The sum of the pseudo header and the datagram is minus zero. -/
def BrSkb.UdpCorrect : Prop :=
  (wordSum k.mem (k.l3 + 26) 8 + 256 * 17 + leWord k.mem (k.udph + 4) + wordSum k.mem k.udph k.udpLen) % 65535 = 0

structure TxChanged (k' : BrSkb) : Prop where
  place : k'.data = k.data ∧ k'.len = k.len
  source : k'.hSource k.data = if k.hDest k.data = env.devAddr then k.hSource k.data else env.devAddr
  arp : k.IsIpArp → read k'.mem (k.l3 + 22) 6 = read k.mem (k.l3 + 22) 6 ∨ read k'.mem (k.l3 + 22) 6 = env.devAddr.val
  dhcp : k.IsDhcp → k'.mem (k.udph + 18) = k.mem (k.udph + 18) ∨ k'.mem (k.udph + 18) = k.mem (k.udph + 18) ||| 0x80
  rest : ∀ x, k.data ≤ x → x < k.data + k.len → (x < k.data + 6 ∨ k.data + 12 ≤ x) →
    (k.IsIpArp → x < k.l3 + 22 ∨ k.l3 + 28 ≤ x) →
    (k.IsDhcp → x ≠ k.udph + 18 ∧ x ≠ k.udph + 6 ∧ x ≠ k.udph + 7) → k'.mem x = k.mem x
  checksum : k.IsUdp → (k.udpCheck = 0 → leWord k'.mem (k.udph + 6) = 0) ∧ (k.UdpCorrect →
    (wordSum k'.mem (k.l3 + 26) 8 + 256 * 17 + leWord k'.mem (k.udph + 4) + wordSum k'.mem k.udph k.udpLen) % 65535 = 0)

structure SameFrame (k' : BrSkb) : Prop where
  place : k'.data = k.data ∧ k'.len = k.len
  mem : ∀ x, k.data ≤ x → x < k.data + k.len → k'.mem x = k.mem x

structure Transparent (hz : Nat) : Prop where
  access : ∀ r ∈ txAccess env k p, k.data ≤ r.1 ∧ r.1 + r.2 ≤ k.data + k.len
  changed : (p.brigdeChangeTxhdr hz env k).2.2 = true → TxChanged env k (p.brigdeChangeTxhdr hz env k).2.1
  same : (p.brigdeChangeTxhdr hz env k).2.2 = false → SameFrame k (p.brigdeChangeTxhdr hz env k).2.1

def FlagSet : Prop :=
  k.hDest k.data ≠ env.devAddr ∧ k.hSource k.data ≠ env.devAddr ∧ k.IsDhcp ∧ k.mem (k.udph + 18) &&& 0x80 = 0

/-- The other flags of the message: none if the checksum is correct and covers them, and all if it is absent. -/
def FlagsFit : Prop :=
  FlagSet env k → k.IsUdp → (k.udpCheck = 0 → leWord k.mem (k.udph + 18) + 128 = 65535) ∧
    (k.UdpCorrect → if 19 ≤ k.udpLen then leWord k.mem (k.udph + 18) = 0 else leWord k.mem (k.udph + 18) + 128 = 65535)

/-- A frame that gets another source address is long enough for its UDP header and for a DHCP message. -/
def UdpLong : Prop :=
  k.hDest k.data ≠ env.devAddr → k.hSource k.data ≠ env.devAddr → k.hProto k.data = ethPIp → k.ipProtocol k.data = 17 →
    14 + 4 * k.ihl k.data + 2 ≤ k.len ∧
      (read k.mem k.udph 2 = [0, 67] ∨ read k.mem k.udph 2 = [0, 68] → 14 + 4 * k.ihl k.data + 4 ≤ k.len) ∧
      (k.isDhcpFrame = true → 14 + 4 * k.ihl k.data + 8 + 240 ≤ k.len)

structure TxLong : Prop where
  tag : k.hProto k.data = ethP8021q → 16 ≤ k.len
  fast : k.vlanHdrDel.1.hProto k.data = ethPIp → 30 ≤ k.len
  proto : Inserts env k p → 14 ≤ k.vlanHdrDel.1.len
  ip : Inserts env k p → k.vlanHdrDel.1.hProto k.l3 = ethPIp →
    15 ≤ k.vlanHdrDel.1.len ∧ (4 * k.vlanHdrDel.1.ihl k.l3 < k.vlanHdrDel.1.len → 30 ≤ k.vlanHdrDel.1.len)
  arp : Inserts env k p → k.vlanHdrDel.1.hProto k.l3 = ethPArp → 42 ≤ k.vlanHdrDel.1.len
  udp : ¬ TxRefused env k p → UdpLong env k

end

end AtbmWifi
