import AtbmWifi.Lib.Memory
import AtbmWifi.Lib.Turns

/-!
# The intent of a P2P negotiation

`P2P_change_negotation_intent` looks for the first P2P element of a public action frame, in it for the GO Intent
attribute, and writes another intent there.  All the lengths on the way come from the frame.

An access outside the frame, or a copy that does not fit the octet the caller has for it, gives `none`; a loop
that hangs has no result for any fuel.
-/

namespace AtbmWifi

open Memory Relation

/-- The body of an action frame: `len` bytes, and what stands behind them in the memory. -/
structure ActionBody where
  mem : Nat → UInt8
  len : Nat
  lt : len < 2 ^ 32

def vendorSpecificIe : UInt8 := 221
def p2pAttrGoIntent : UInt8 := 0x04
def maxIeSz : Nat := 255
def publicActionIeOffset : Nat := 8

def p2pOui : List UInt8 := [0x50, 0x6f, 0x9a, 0x09]

namespace ActionBody

def byte (f : ActionBody) (i : Nat) : Option UInt8 := if i < f.len then some (f.mem i) else none

def bytes (f : ActionBody) (i n : Nat) : Option (List UInt8) := if i + n ≤ f.len then some (read f.mem i n) else none

/-- `(eid == _VENDOR_SPECIFIC_IE_) && (memcmp(&in_ie[i], p2p_oui, 4) == 0)` -/
def isP2pOui (f : ActionBody) (eid : UInt8) (i : Nat) : Option Bool :=
  if eid = vendorSpecificIe then (f.bytes i 4).map (· == p2pOui) else some false

/-- `len - _PUBLIC_ACTION_IE_OFFSET_`, a `u32` -/
def iesLen (f : ActionBody) : Nat := (f.len + 2 ^ 32 - publicActionIeOffset) % 2 ^ 32

/-- The same as an `int` -/
def inLen (f : ActionBody) : Int := if f.iesLen < 2 ^ 31 then f.iesLen else (f.iesLen : Int) - 2 ^ 32

/-- A turn of `atbm_get_p2p_ie`; the loop compares `cnt` with the length as a `u32`.  The element and its length. -/
def ieTurn (f : ActionBody) (cnt : Nat) : Option (Nat ⊕ Option (Nat × Nat)) :=
  if cnt < f.iesLen then do
    let eid ← f.byte (publicActionIeOffset + cnt)
    if f.inLen < 0 ∨ maxIeSz < cnt then some (.inr none)
    else
      let found ← f.isP2pOui eid (publicActionIeOffset + cnt + 2)
      let n ← f.byte (publicActionIeOffset + cnt + 1)
      if found then some (.inr (some (publicActionIeOffset + cnt, n.toNat + 2)))
      else some (.inl (cnt + (n.toNat + 2)))
  else some (.inr none)

def p2pGetLe16 (lo hi : UInt8) : Nat := hi.toNat * 256 + lo.toNat

/-- A turn of `atbm_get_p2p_attr`; `attr_len` is a `u16`.  The attribute and its length. -/
def attrTurn (f : ActionBody) (p2pIe p2pIelen : Nat) (targetAttrId : UInt8) (off : Nat) :
    Option (Nat ⊕ Option (Nat × Nat)) :=
  if off < p2pIelen then do
    let attrId ← f.byte (p2pIe + off)
    let lo ← f.byte (p2pIe + off + 1)
    let hi ← f.byte (p2pIe + off + 2)
    let attrLen := (p2pGetLe16 lo hi + 3) % 2 ^ 16
    if attrId = targetAttrId then some (.inr (some (p2pIe + off, attrLen))) else some (.inl (off + attrLen))
  else some (.inr none)

def atbmGetP2pAttr (f : ActionBody) (fuel p2pIe p2pIelen : Nat) (targetAttrId : UInt8) : Option (Option (Nat × Nat)) := do
  let eid ← f.byte p2pIe
  if ← f.isP2pOui eid (p2pIe + 2) then Turns.run (f.attrTurn p2pIe p2pIelen targetAttrId) fuel 6
  else some none

/-- `attr_len-3`, a `u32` -/
def contentLen (attrLen : Nat) : Nat := (attrLen + 2 ^ 32 - 3) % 2 ^ 32

/-- The copy of `atbm_get_p2p_attr_content` to a buffer of `room` bytes, and the content. -/
def copyContent (f : ActionBody) (room : Nat) (attr : Option (Nat × Nat)) : Option (Option Nat) :=
  match attr with
  | none => some none
  | some (attrPtr, attrLen) =>
    if attrLen = 0 then some none
    else do
      let content ← f.bytes (attrPtr + 3) (contentLen attrLen)
      if content.length ≤ room then some (some (attrPtr + 3)) else none

def atbmGetP2pAttrContent (f : ActionBody) (fuel p2pIe p2pIelen : Nat) (targetAttrId : UInt8) (room : Nat) :
    Option (Option Nat) := do
  let attr ← f.atbmGetP2pAttr fuel p2pIe p2pIelen targetAttrId
  f.copyContent room attr

/-- What is returned, the memory, and the octet that was written. -/
structure IntentResult where
  ret : UInt8
  mem : Nat → UInt8
  written : Option Nat

/-- `pAttr_content[1]`, which is an argument of `atbm_printk_p2p` and read with that bit of the mask only. -/
def printed (f : ActionBody) (log : Bool) (i : Nat) : Option UInt8 := if log then f.byte i else some 0

/-- The write of `P2P_change_negotation_intent`. -/
def writeIntent (f : ActionBody) (log : Bool) (intent : UInt8) (content : Option Nat) : Option IntentResult :=
  match content with
  | none => some ⟨1, f.mem, none⟩
  | some p => do
    let v ← f.byte p
    let _ ← f.printed log (p + 1)
    some ⟨1, setAt f.mem p ((intent <<< 1) ||| (v &&& 1)), some p⟩

def p2pChangeNegotationIntent (f : ActionBody) (log : Bool) (intent : UInt8) (fuel : Nat) : Option IntentResult := do
  match ← Turns.run f.ieTurn fuel 0 with
  | none => some ⟨0, f.mem, none⟩
  | some (p2pIe, p2pIelen) =>
    let content ← f.atbmGetP2pAttrContent fuel p2pIe p2pIelen p2pAttrGoIntent 1
    f.writeIntent log intent content

/-- A P2P element begins at `p`. -/
def P2pAt (f : ActionBody) (p : Nat) : Prop := f.mem p = vendorSpecificIe ∧ read f.mem (p + 2) 4 = p2pOui

instance (f : ActionBody) (p : Nat) : Decidable (f.P2pAt p) := inferInstanceAs (Decidable (_ ∧ _))

/-- The length of the element at `p`, with its header. -/
def elemSize (f : ActionBody) (p : Nat) : Nat := (f.mem (p + 1)).toNat + 2

/-- The length of the data of the attribute at `p`. -/
def attrData (f : ActionBody) (p : Nat) : Nat := p2pGetLe16 (f.mem (p + 1)) (f.mem (p + 2))

/-- The first P2P element of the frame begins at `p`. -/
def FirstP2p (f : ActionBody) (p : Nat) : Prop :=
  ReflTransGen (fun a b => ¬ f.P2pAt a ∧ a + 2 ≤ f.len ∧ b = a + f.elemSize a) publicActionIeOffset p ∧
    f.P2pAt p ∧ p + 6 ≤ f.len

/-- An attribute of the P2P element `ie` begins at `off`. -/
def AttrAt (f : ActionBody) (ie off : Nat) : Prop :=
  ReflTransGen (fun a b => a + 3 ≤ f.elemSize ie ∧ b = a + (3 + f.attrData (ie + a))) 6 off

/-- `x` is the value octet of a GO Intent attribute inside the P2P element `ie`. -/
def IntentOctetOf (f : ActionBody) (ie x : Nat) : Prop :=
  ∃ off, f.AttrAt ie off ∧ f.mem (ie + off) = p2pAttrGoIntent ∧ 0 < f.attrData (ie + off) ∧
    off + (3 + f.attrData (ie + off)) ≤ f.elemSize ie ∧ x = ie + off + 3

/-- Nothing but the value octet of a GO Intent attribute inside the first P2P element is written. -/
structure IntentResult.Confined (f : ActionBody) (r : IntentResult) : Prop where
  written : ∀ x, r.written = some x → ∃ ie, f.FirstP2p ie ∧ f.IntentOctetOf ie x
  others : ∀ x, r.written ≠ some x → r.mem x = f.mem x

/-- The way of the loop over the attributes; the length of an attribute with its header is a `u16`. -/
def AttrStep (f : ActionBody) (ie a b : Nat) : Prop :=
  a < f.elemSize ie ∧ f.mem (ie + a) ≠ p2pAttrGoIntent ∧ b = a + (f.attrData (ie + a) + 3) % 2 ^ 16

/-- The header of the attribute at `off` is in the frame; another attribute than GO Intent has no length that takes
the loop nowhere; and GO Intent has one octet, inside the element and the frame, or that very length. -/
def AttrFits (f : ActionBody) (log : Bool) (ie off : Nat) : Prop :=
  off < f.elemSize ie →
    ie + off + 3 ≤ f.len ∧
    (f.mem (ie + off) ≠ p2pAttrGoIntent → (f.attrData (ie + off) + 3) % 2 ^ 16 ≠ 0) ∧
    (f.mem (ie + off) = p2pAttrGoIntent → (f.attrData (ie + off) + 3) % 2 ^ 16 = 0 ∨
      f.attrData (ie + off) = 1 ∧ off + 4 ≤ f.elemSize ie ∧ ie + off + 4 ≤ f.len ∧ (log = true → ie + off + 5 ≤ f.len) ∧
        f.AttrAt ie off)

def IeStep (f : ActionBody) (a b : Nat) : Prop :=
  a < f.len - publicActionIeOffset ∧ f.len - publicActionIeOffset < 2 ^ 31 ∧ a ≤ maxIeSz ∧
    ¬ f.P2pAt (publicActionIeOffset + a) ∧ b = a + f.elemSize (publicActionIeOffset + a)

/-- The header of an element the loop comes to is in the frame, with the four octets behind it where it may be P2P, and
in a P2P element every attribute the loop comes to fits. -/
def IeFits (f : ActionBody) (log : Bool) (a : Nat) : Prop :=
  a < f.len - publicActionIeOffset → f.len - publicActionIeOffset < 2 ^ 31 → a ≤ maxIeSz →
    publicActionIeOffset + a + 2 ≤ f.len ∧
    (f.mem (publicActionIeOffset + a) = vendorSpecificIe → publicActionIeOffset + a + 6 ≤ f.len) ∧
    (f.P2pAt (publicActionIeOffset + a) →
      ∀ off, ReflTransGen (f.AttrStep (publicActionIeOffset + a)) 6 off → f.AttrFits log (publicActionIeOffset + a) off)

structure IntentFits (f : ActionBody) (log : Bool) : Prop where
  long : publicActionIeOffset ≤ f.len
  elements : ∀ a, ReflTransGen f.IeStep 0 a → f.IeFits log a

end ActionBody

end AtbmWifi
