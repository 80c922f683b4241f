import AtbmWifi.Lib.Memory
import AtbmWifi.Lib.Turns

/-!
# P2P action frames

`atbm_parase_p2p_action_frame` looks for the P2P elements of a public action frame, in them for attributes, and makes the
Operating Channel and the Channel List of a negotiation or an invitation those of this device.

An access outside the frame gives `none`; a loop that hangs has no result for any fuel.
-/

namespace AtbmWifi

open Memory

/-- `skb->data` and what stands behind it in the memory. -/
structure P2pSkb where
  mem : Nat → UInt8
  len : Nat
  lt : len < 2 ^ 31

/-- The attributes of `struct atbm_p2p_message`, in the order they are looked for. -/
inductive P2pAttr
  | capability | goIntent | status | operatingChannel | channelList | groupBssid | groupInfo | groupId | deviceId
  | manageability | intendedAddr
  deriving DecidableEq, Repr

namespace P2pAttr

/-- `ATBM_P2P_ATTR_*` -/
def id : P2pAttr → UInt8
  | capability => 2
  | goIntent => 4
  | status => 0
  | operatingChannel => 17
  | channelList => 11
  | groupBssid => 7
  | groupInfo => 14
  | groupId => 15
  | deviceId => 3
  | manageability => 10
  | intendedAddr => 9

def all : List P2pAttr :=
  [capability, goIntent, status, operatingChannel, channelList, groupBssid, groupInfo, groupId, deviceId, manageability,
    intendedAddr]

end P2pAttr

abbrev P2pMessage := P2pAttr → Option Nat

def atbmOuiWfa : Nat := 0x506f9a
def atbmP2pOuiType : UInt8 := 9
def atbmWlanEidVendorSpecific : UInt8 := 221
def ieee80211MinActionSize : Nat := 25
def atbmWlanCategoryPublic : UInt8 := 4
def atbmP2pGoNegReq : UInt8 := 0
def atbmP2pGoNegResp : UInt8 := 1
def atbmP2pGoNegConf : UInt8 := 2
def atbmP2pInvitationReq : UInt8 := 3
def atbmP2pInvitationResp : UInt8 := 4

namespace P2pSkb

def byte (k : P2pSkb) (i : Nat) : Option UInt8 := if i < k.len then some (k.mem i) else none

def bytes (k : P2pSkb) (i n : Nat) : Option (List UInt8) := if i + n ≤ k.len then some (read k.mem i n) else none

def store (k : P2pSkb) (i : Nat) (v : UInt8) : Option P2pSkb :=
  if i < k.len then some { k with mem := setAt k.mem i v } else none

def le16 (k : P2pSkb) (i : Nat) : Option Nat := do
  let hi ← k.byte (i + 1)
  let lo ← k.byte i
  some (hi.toNat * 256 + lo.toNat)

/-- `oui[0] << 16 | oui[1] << 8 | oui[2]` -/
def oui (k : P2pSkb) (i : Nat) : Option Nat := do
  let o₀ ← k.byte i
  let o₁ ← k.byte (i + 1)
  let o₂ ← k.byte (i + 2)
  some (o₀.toNat * 65536 + o₁.toNat * 256 + o₂.toNat)

/-! ## Finders

A length that falls below 0 is 0 here; the loops take both for the end. -/

/-- What `atbm_ieee80211_find_ie` makes of the element its loop is left at. -/
def ieFound (k : P2pSkb) (ies len : Nat) : Option (Option Nat) := do
  let n ← k.byte (ies + 1)
  some (if len < 2 + n.toNat then none else some ies)

/-- A turn of `atbm_ieee80211_find_ie` -/
def ieTurn (k : P2pSkb) (eid : UInt8) : Nat × Nat → Option (Nat × Nat ⊕ Option Nat)
  | (ies, len) =>
    if 2 < len then do
      let id ← k.byte ies
      if id ≠ eid then
        let n ← k.byte (ies + 1)
        some (.inl (ies + (n.toNat + 2), len - (n.toNat + 2)))
      else (k.ieFound ies len).map .inr
    else if len < 2 then some (.inr none)
    else (k.ieFound ies len).map .inr

/-- A turn of `atbm_ieee80211_find_vendor_ie` -/
def vendorTurn (k : P2pSkb) (fuel wanted : Nat) (ouiType : UInt8) (stop pos : Nat) : Option (Nat ⊕ Option Nat) :=
  if pos < stop then do
    match ← Turns.run (k.ieTurn atbmWlanEidVendorSpecific) fuel (pos, stop - pos) with
    | none => some (.inr none)
    | some ie =>
      let n ← k.byte (ie + 1)
      if n.toNat < 6 then some (.inl (ie + (2 + n.toNat)))
      else
        let ieOui ← k.oui (ie + 2)
        if ieOui = wanted then
          let type ← k.byte (ie + 5)
          if type = ouiType then some (.inr (some ie)) else some (.inl (ie + (2 + n.toNat)))
        else some (.inl (ie + (2 + n.toNat)))
  else some (.inr none)

def findP2pIe (k : P2pSkb) (fuel ieStart ieLen : Nat) : Option (Option Nat) :=
  if ieLen = 0 then some none
  else Turns.run (k.vendorTurn fuel atbmOuiWfa atbmP2pOuiType (ieStart + ieLen)) fuel ieStart

/-- A turn of `atbm_ieee80211_find_p2p_attr` -/
def attrTurn (k : P2pSkb) (attrId : UInt8) : Nat × Nat → Option (Nat × Nat ⊕ Option Nat)
  | (start, len) =>
    if 2 < len then do
      let id ← k.byte start
      let n ← k.le16 (start + 1)
      if id ≠ attrId then some (.inl (start + (n + 3), len - (n + 3)))
      else some (.inr (if len < 3 + n then none else some start))
    else some (.inr none)

def findP2pAttr (k : P2pSkb) (fuel attrStart attrLen : Nat) (attrId : UInt8) : Option (Option Nat) :=
  if attrLen = 0 then some none else Turns.run (k.attrTurn attrId) fuel (attrStart, attrLen)

/-- `if (p2p_msg->attr == NULL) p2p_msg->attr = atbm_ieee80211_find_p2p_attr(...)` -/
def findIfNull (k : P2pSkb) (fuel attrStart attrLen : Nat) (msg : P2pMessage) (κ : P2pAttr) : Option P2pMessage :=
  if msg κ = none then (k.findP2pAttr fuel attrStart attrLen κ.id).map (setAt msg κ) else some msg

/-- A turn of `ieee80211_parase_p2p_action_attrs`: `pos`, `p2p_msg` and `p2p_find` -/
def attrsTurn (k : P2pSkb) (fuel stop : Nat) :
    Nat × P2pMessage × Bool → Option ((Nat × P2pMessage × Bool) ⊕ (P2pMessage × Bool))
  | (pos, msg, find) =>
    if pos < stop then do
      match ← k.findP2pIe fuel pos (stop - pos) with
      | none => some (.inr (msg, find))
      | some ie =>
        let n ← k.byte (ie + 1)
        if n.toNat < 6 then some (.inr (msg, find))
        else if n.toNat - 4 < 3 then some (.inr (msg, find))
        else
          let msg ← P2pAttr.all.foldlM (k.findIfNull fuel (ie + 6) (n.toNat - 4)) msg
          some (.inl (pos + (2 + n.toNat), msg, true))
    else some (.inr (msg, find))

/-- `ieee80211_parase_p2p_action_attrs`; `p2p_msg`, if an element was found. -/
def paraseP2pActionAttrs (k : P2pSkb) (fuel ieStart ieLen : Nat) : Option (Option P2pMessage) := do
  let (msg, find) ← Turns.run (k.attrsTurn fuel (ieStart + ieLen)) fuel (ieStart, fun _ => none, false)
  some (if find then some msg else none)

def changeChannel (channelNum : UInt8) (k : P2pSkb) (i : Nat) : Option P2pSkb := do
  let v ← k.byte i
  if v ≤ 14 then k.store i channelNum else some k

/-- A turn of `ieee80211_change_p2p_channel_list_to_special_channel` -/
def channelTurn (channelNum : UInt8) (stop : Nat) : Nat × P2pSkb → Option (Nat × P2pSkb ⊕ P2pSkb)
  | (pos, k) =>
    if pos + 2 < stop then do
      let n ← k.byte (pos + 1)
      if stop < pos + 2 + n.toNat ∨ 14 < n.toNat then some (.inr k)
      else
        let k ← (List.range' (pos + 2) n.toNat).foldlM (changeChannel channelNum) k
        some (.inl (pos + 2 + n.toNat, k))
    else some (.inr k)

/-- `ieee80211_change_p2p_channel_list_to_special_channel` -/
def changeP2pChannelList (k : P2pSkb) (fuel channelList : Nat) (channelNum : UInt8) (ieLen : Nat) : Option P2pSkb := do
  let n ← k.le16 (channelList + 1)
  if ieLen ≤ n then some k else Turns.run (channelTurn channelNum (channelList + 3 + n)) fuel (channelList + 6, k)

end P2pSkb

structure P2pState where
  ifId : Nat
  addr : List UInt8
  /-- the P2P bit of `atbm_printk_mask` -/
  log : Bool
  combination : BitVec 32
  /-- `channel_hw_value(hw_priv->channel)` -/
  channel : BitVec 16
  operatingChannelCombination : BitVec 32
  p2pOperChannel : BitVec 32
  goBssidSet : BitVec 32
  goBssid : List UInt8

namespace P2pSkb

/-- The octets of an action frame: `category` and `vs_public_action` -/
def category : Nat := 24
def vsPublicAction : Nat := 25

/-- `ieee80211_is_action(mgmt->frame_control)` -/
def isAction (k : P2pSkb) : Option Bool := do
  let fc ← k.bytes 0 2
  some (fc.getD 0 0 &&& 0xfc == 0xd0)

/-- `ieee80211_p2p_action_check`; the length of the header, if it is that of a P2P action. -/
def p2pActionCheck (k : P2pSkb) (data dataLen : Nat) : Option (Option Nat) := do
  if (← k.byte data) ≠ 9 then some none
  else if dataLen < 3 then some none
  else if (← k.oui (data + 1)) ≠ atbmOuiWfa then some none
  else if dataLen - 4 < 1 then some none
  else if (← k.byte (data + 4)) ≠ atbmP2pOuiType then some none
  else if dataLen - 5 < 1 then some none
  else some (some (dataLen - (dataLen - 5)))

def setOperChannel (k : P2pSkb) (s : P2pState) (localChannel : UInt8) : P2pState × P2pSkb :=
  ({ s with p2pOperChannel := BitVec.ofNat 32 localChannel.toNat }, k)

def changeChannelAndList (k : P2pSkb) (fuel : Nat) (s : P2pState) (action : UInt8) (msg : P2pMessage) (operatingChannel : Nat)
    (localChannel : UInt8) (ieLen : Nat) : Option (P2pState × P2pSkb) := do
  let k ← k.store (operatingChannel + 7) localChannel
  let k ← match msg .channelList with
    | none => some k
    | some list => k.changeP2pChannelList fuel list localChannel ieLen
  some (if action ≠ atbmP2pInvitationResp then (s, k) else k.setOperChannel s localChannel)

/-- `while(p2p_msg.operating_channel)`, which is left after a turn -/
def operatingChannelLoop (k : P2pSkb) (fuel : Nat) (s : P2pState) (action : UInt8) (msg : P2pMessage) (ieLen : Nat) :
    Option (P2pState × P2pSkb) :=
  match msg .operatingChannel with
  | none => some (s, k)
  | some operatingChannel => do
    let combination := s.combination ≠ 0
    let operatingChannelNum ← k.byte (operatingChannel + 7)
    let localChannel := if operatingChannelNum > 14 then 6 else operatingChannelNum
    let localChannel := if combination then UInt8.ofNat s.channel.toNat else localChannel
    if action = atbmP2pGoNegConf then some (k.setOperChannel s localChannel)
    else if action ≠ atbmP2pInvitationReq ∧ action ≠ atbmP2pInvitationResp then
      let s := { s with p2pOperChannel := 0 }
      if (action ≠ atbmP2pGoNegReq ∧ action ≠ atbmP2pGoNegResp) ∨ ¬ combination then some (s, k)
      else k.changeChannelAndList fuel s action msg operatingChannel localChannel ieLen
    else
      let s := if action = atbmP2pInvitationReq then { s with p2pOperChannel := 0 } else s
      let localChannel := if s.p2pOperChannel ≠ 0 then UInt8.ofNat s.p2pOperChannel.toNat else localChannel
      if action = atbmP2pInvitationReq ∧ combination ∨
          action = atbmP2pInvitationResp ∧ s.operatingChannelCombination ≠ 0 ∧ combination then
        k.changeChannelAndList fuel s action msg operatingChannel localChannel ieLen
      else if action = atbmP2pInvitationResp then some (k.setOperChannel s localChannel)
      else some (s, k)

/-- `while(... && p2p_msg.group_bssid)` -/
def groupBssidLoop (k : P2pSkb) (s : P2pState) (action : UInt8) (msg : P2pMessage) : Option P2pState :=
  if action = atbmP2pInvitationReq ∨ action = atbmP2pInvitationResp then
    match msg .groupBssid with
    | none => some s
    | some attr => do
      if (← k.le16 (attr + 1)) ≠ 6 then some s
      else
        let bssid ← k.bytes (attr + 3) 6
        if bssid = s.addr then some s else some { s with goBssidSet := 1, goBssid := bssid }
  else some s

/-- `while(tx == false)` -/
def intendedAddrLoop (k : P2pSkb) (s : P2pState) (tx : Bool) (action : UInt8) (msg : P2pMessage) : Option P2pState :=
  if tx = false ∧ (action = atbmP2pGoNegReq ∨ action = atbmP2pGoNegResp) then
    match msg .intendedAddr with
    | none => some s
    | some attr => do
      if (← k.le16 (attr + 1)) ≠ 6 then some s
      else
        let bssid ← k.bytes (attr + 3) 6
        some { s with goBssidSet := 1, goBssid := bssid }
  else some s

/-- `*(p2p_msg.status+3)`, an argument of `atbm_printk_p2p` -/
def printStatus (k : P2pSkb) (s : P2pState) (msg : P2pMessage) : Option Unit :=
  match msg .status with
  | none => some ()
  | some attr => if s.log then (k.byte (attr + 3)).map fun _ => () else some ()

/-- What is returned, what is left in the driver, the frame and the attributes that were found. -/
structure P2pResult where
  ret : Bool
  state : P2pState
  skb : P2pSkb
  msg : P2pMessage

/-- `atbm_parase_p2p_action_frame`; `atbm_parase_p2p_capability` and `atbm_parase_p2p_mgmt_frame` do nothing without
`ATBM_PARASE_P2P_CAP`. -/
def paraseP2pActionFrame (k : P2pSkb) (fuel : Nat) (s : P2pState) (tx : Bool) : Option P2pResult := do
  let ignored : P2pResult := ⟨false, s, k, fun _ => none⟩
  if s.ifId = 0 then some ignored
  else if (← k.isAction) = false then some ignored
  else if k.len < ieee80211MinActionSize then some ignored
  else if (← k.byte category) ≠ atbmWlanCategoryPublic then some ignored
  else
    let p2pDataLen := k.len - category
    match ← k.p2pActionCheck vsPublicAction p2pDataLen with
    | none => some ignored
    | some offs =>
      let p2pData := vsPublicAction + offs
      let p2pDataLen := p2pDataLen - offs
      match ← k.paraseP2pActionAttrs fuel (p2pData + 2) (p2pDataLen - 2) with
      | none => some ignored
      | some msg =>
        let _dialogToken ← k.byte (p2pData + 1)
        let action ← k.byte p2pData
        let s₁ := if action = atbmP2pInvitationReq then
            { s with operatingChannelCombination := if msg .operatingChannel ≠ none then 1 else 0 }
          else s
        let _ ← k.printStatus s₁ msg
        let (s₂, k₁) ← k.operatingChannelLoop fuel s₁ action msg (p2pDataLen - 2)
        let s₃ ← k₁.groupBssidLoop s₂ action msg
        let s₄ ← k₁.intendedAddrLoop s₃ tx action msg
        some ⟨true, s₄, k₁, msg⟩

def elemSize (k : P2pSkb) (a : Nat) : Nat := 2 + (k.mem (a + 1)).toNat

/-- The length of the content of an attribute, and that of the attribute. -/
def attrData (k : P2pSkb) (a : Nat) : Nat := (k.mem (a + 2)).toNat * 256 + (k.mem (a + 1)).toNat
def attrSize (k : P2pSkb) (a : Nat) : Nat := 3 + k.attrData a

def IsP2p (k : P2pSkb) (a : Nat) : Prop :=
  k.mem a = atbmWlanEidVendorSpecific ∧ 4 ≤ (k.mem (a + 1)).toNat ∧
    read k.mem (a + 2) 4 = [0x50, 0x6f, 0x9a, atbmP2pOuiType]

instance (k : P2pSkb) (a : Nat) : Decidable (k.IsP2p a) := inferInstanceAs (Decidable (_ ∧ _))

/-- A P2P element with room for attributes begins at `a`. -/
def P2pAt (k : P2pSkb) (a : Nat) : Prop := k.IsP2p a ∧ 6 ≤ (k.mem (a + 1)).toNat

instance (k : P2pSkb) (a : Nat) : Decidable (k.P2pAt a) := inferInstanceAs (Decidable (_ ∧ _))

def attrs (k : P2pSkb) (a stop : Nat) : List Nat :=
  if a + k.attrSize a ≤ stop then a :: k.attrs (a + k.attrSize a) stop else []
termination_by stop - a
decreasing_by
  unfold attrSize at *
  omega

def elemAttrs (k : P2pSkb) (ie : Nat) : List Nat := k.attrs (ie + 6) (ie + k.elemSize ie)

/-- The P2P elements behind `a`. -/
def p2pElems (k : P2pSkb) (a : Nat) : List Nat :=
  if a + k.elemSize a ≤ k.len then
    if k.P2pAt a then a :: k.p2pElems (a + k.elemSize a) else k.p2pElems (a + k.elemSize a)
  else []
termination_by k.len - a
decreasing_by
  all_goals
    unfold elemSize at *
    omega

def p2pVariable : Nat := 32

/-- The attributes of all the P2P elements, one element behind the other. -/
def p2pAttrs (k : P2pSkb) : List Nat := (k.p2pElems p2pVariable).flatMap k.elemAttrs

def firstOf (k : P2pSkb) (l : List Nat) (κ : P2pAttr) : Option Nat := l.find? fun x => k.mem x == κ.id

inductive AttrRow (k : P2pSkb) (stop : Nat) : Nat → Prop
  | done : AttrRow k stop stop
  | cons {a : Nat} (rest : AttrRow k stop (a + k.attrSize a)) : AttrRow k stop a

/-- Nothing but elements stands in the frame, and nothing but attributes in the P2P ones. -/
inductive ElemRow (k : P2pSkb) : Nat → Prop
  | done : ElemRow k k.len
  | cons {a : Nat} (attrs : k.IsP2p a → AttrRow k (a + k.elemSize a) (a + 6)) (rest : ElemRow k (a + k.elemSize a)) :
    ElemRow k a

/-- An operating class with its channels begins at `e` in the Channel List `a`. -/
inductive ClassAt (k : P2pSkb) (a : Nat) : Nat → Prop
  | first : ClassAt k a (a + 6)
  | next {e : Nat} (h : ClassAt k a e) : ClassAt k a (e + 2 + (k.mem (e + 1)).toNat)

/-- `x` is the channel octet of the first Operating Channel attribute. -/
def OperatingOctet (k : P2pSkb) (x : Nat) : Prop :=
  ∃ a, k.firstOf k.p2pAttrs .operatingChannel = some a ∧ 5 ≤ k.attrData a ∧ x = a + 7

/-- `x` is a channel octet of the first Channel List attribute. -/
def ChannelOctet (k : P2pSkb) (x : Nat) : Prop :=
  ∃ a e, k.firstOf k.p2pAttrs .channelList = some a ∧ ClassAt k a e ∧
    e + 2 ≤ x ∧ x < e + 2 + (k.mem (e + 1)).toNat ∧ e + 2 + (k.mem (e + 1)).toNat ≤ a + k.attrSize a

structure Changed (k k' : P2pSkb) : Prop where
  len : k'.len = k.len
  mem : ∀ x, k'.mem x ≠ k.mem x → k.OperatingOctet x ∨ k.ChannelOctet x ∧ k.mem x ≤ 14

/-- The rewriting is confined, and in a frame of elements the attributes are the first of their kinds. -/
structure Confined (k : P2pSkb) (r : P2pResult) : Prop where
  changed : k.Changed r.skb
  used : r.ret = true → ElemRow k p2pVariable → ∀ κ, r.msg κ = k.firstOf k.p2pAttrs κ

structure IsPublicAction (k : P2pSkb) : Prop where
  action : k.mem 0 &&& 0xfc = 0xd0
  len : ieee80211MinActionSize ≤ k.len
  category : k.mem category = atbmWlanCategoryPublic

/-- The frame goes on past `vs_public_action.action` as far as it is looked at. -/
structure HeaderFits (k : P2pSkb) : Prop where
  action : 26 ≤ k.len
  oui : k.mem 25 = 9 → 27 ≤ k.len → 29 ≤ k.len
  type : k.mem 25 = 9 → read k.mem 26 3 = [0x50, 0x6f, 0x9a] → 29 ≤ k.len → 30 ≤ k.len

def IsP2pAction (k : P2pSkb) : Prop :=
  k.mem 25 = 9 ∧ read k.mem 26 4 = [0x50, 0x6f, 0x9a, atbmP2pOuiType] ∧ p2pVariable ≤ k.len

/-- No P2P element that is inside the frame, or ends an octet behind it, begins at `a` or later; and no octet is left
alone at the end. -/
inductive Rest (k : P2pSkb) : Nat → Prop
  | gone {a : Nat} (h : k.len ≤ a) : Rest k a
  | skip {a : Nat} (room : a + 2 ≤ k.len) (other : k.P2pAt a → k.len + 1 < a + k.elemSize a)
    (rest : Rest k (a + k.elemSize a)) : Rest k a

/-- The P2P elements stand in a row, and what follows is of other kinds.  The row ends at an element with no room for
an attribute. -/
inductive Row (k : P2pSkb) : Nat → List Nat → Prop
  | rest {a : Nat} (h : Rest k a) : Row k a []
  | last {a : Nat} (inside : a + k.elemSize a ≤ k.len) (p2p : k.P2pAt a) (short : (k.mem (a + 1)).toNat = 6) : Row k a []
  | cons {a : Nat} {l : List Nat} (inside : a + k.elemSize a ≤ k.len) (p2p : k.P2pAt a) (room : (k.mem (a + 1)).toNat ≠ 6)
    (rest : Row k (a + k.elemSize a) l) : Row k a (a :: l)

def Rewrites (s : P2pState) (action : UInt8) : Prop :=
  s.combination ≠ 0 ∧ (action = atbmP2pGoNegReq ∨ action = atbmP2pGoNegResp ∨ action = atbmP2pInvitationReq ∨
    action = atbmP2pInvitationResp ∧ s.operatingChannelCombination ≠ 0)

/-- The Operating Channel has its channel octet inside it if that is written, and else in the frame; and with the P2P
messages on an octet follows the header of the Status. -/
structure AttrsFit (k : P2pSkb) (s : P2pState) (l : List Nat) : Prop where
  operatingChannel : ∀ a, k.firstOf l .operatingChannel = some a →
    a + 8 ≤ k.len ∧ (Rewrites s (k.mem 30) → 5 ≤ k.attrData a)
  status : ∀ a, k.firstOf l .status = some a → s.log = true → a + 4 ≤ k.len

structure Fits (k : P2pSkb) (s : P2pState) : Prop where
  header : k.HeaderFits
  attrs : k.IsP2pAction → ∃ l, Row k p2pVariable l ∧ k.AttrsFit s (l.flatMap k.elemAttrs)

end P2pSkb

end AtbmWifi
