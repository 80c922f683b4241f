import AtbmWifi.Lib.Memory
import AtbmWifi.Ble.SmartCfg

/-!
# The payload phase of smartconfig

A phone sends the credentials of an access point in the lengths of the frames it multicasts, and which sixteen
symbols a frame belongs to in the last octet of their address.  `fun_recv_payload` collects the symbols in
`st_payload_buf` and decodes them when the checksum comes.

A `short` is its bit pattern.  An access outside a buffer gives `none`.  `be` is the byte order: the decoder
writes its nibbles into the buffer it reads.
-/

namespace AtbmWifi

open Memory

def stPayloadBufSz : Nat := 256

inductive SmartconfigStatus
  | idle
  | start
  | getMagic
  | payload
  | rePayload
  | getTotallen
  | switchPayloadCh
  | getPayload
  | reidle
  | getPayloadCsum
  | doneSuccess
  | doneFail
  | duplicateFail
  | startconfigErr
  deriving DecidableEq, Repr

structure HmacConfigure where
  ssid : ByteArr 32
  ssidLen : UInt8
  passwordLen : UInt8
  password : ByteArr 64
  privacy : Bool

/-- The statics of `atbm_smartconfig.c` and the buffer.  `totallen` is at least 5 where it is used. -/
structure SmartconfigDecoder where
  smartconfgSt : SmartconfigStatus
  oriData0 : BitVec 16
  oriData1 : BitVec 16
  oriPayload : Nat → BitVec 16
  payloaddatalen : Nat
  payloaderrorCnt : BitVec 16
  payloaddataIdPre : Nat
  totallen : Nat
  ssidLen : BitVec 16
  hmacCfg : HmacConfigure

def stcStctypeFMask : BitVec 16 := 7#16 <<< 8
def stcTotallenFTotalLen : BitVec 16 := 0#16
def stcTotallenFCsum : BitVec 16 := 4#16 <<< 8
def stcPaloadFSsidrandom : BitVec 16 := 1#16 <<< 8
def stcPaloadFData : BitVec 16 := 2#16 <<< 8
def stcPaloadFCsum : BitVec 16 := 3#16 <<< 8
def stcPaloadFMask : BitVec 16 := 0xf#16 <<< 7
def stcSsidrandomFSsidlen : BitVec 16 := 2#16 <<< 7
def stcSsidlenDataMask : BitVec 16 := 0x7f#16
def stcPaloadDataSnMask : BitVec 16 := 0xf#16 <<< 4
def stcPaloadDataMask : BitVec 16 := 0xf#16
def stcRandomDataMask : BitVec 32 := 0x7f#32
def smartconfigMiniLen : Nat := 5
def smartconfigMagic : BitVec 16 := 4#16
def payloadHdrLen : Nat := 1

def isTotallen (rxdata : BitVec 16) : Bool := rxdata &&& stcStctypeFMask == stcTotallenFTotalLen
def isTotallenCsum (rxdata : BitVec 16) : Bool := rxdata &&& stcStctypeFMask == stcTotallenFCsum
def isSsidlen (rxdata : BitVec 16) : Bool := rxdata &&& stcPaloadFMask == stcSsidrandomFSsidlen
def isPayloadData (rxdata : BitVec 16) : Bool := rxdata &&& stcStctypeFMask == stcPaloadFData
def isPayloadCsum (rxdata : BitVec 16) : Bool := rxdata &&& stcStctypeFMask == stcPaloadFCsum

/-- What must follow the total length `d`. -/
def totallenComplement (d : BitVec 16) : BitVec 16 := (~~~d &&& 0xff#16) ||| stcTotallenFCsum

def payloaddataId (rxdata : BitVec 16) : Nat := ((rxdata &&& stcPaloadDataSnMask) >>> 4).toNat

/-- `smartconfig_ori_payload[i]` -/
def readSlot (p : Nat → BitVec 16) (i : Nat) : Option (BitVec 16) := if i < stPayloadBufSz then some (p i) else none

/-- `smartconfig_ori_payload[i] = x` -/
def writeSlot (p : Nat → BitVec 16) (i : Nat) (x : BitVec 16) : Option (Nat → BitVec 16) :=
  if i < stPayloadBufSz then some (setAt p i x) else none

def lowByte (x : BitVec 16) : UInt8 := ⟨x.extractLsb' 0 8⟩
def highByte (x : BitVec 16) : UInt8 := ⟨x.extractLsb' 8 8⟩

/-- The buffer as `char`s. -/
def bytesOf (be : Bool) (p : Nat → BitVec 16) : Nat → UInt8 := fun i =>
  if decide (i % 2 = 0) = be then highByte (p (i / 2)) else lowByte (p (i / 2))

/-- The buffer as `short`s. -/
def shortsOf (be : Bool) (m : Nat → UInt8) : Nat → BitVec 16 := fun i =>
  if be then (m (2 * i)).toBitVec ++ (m (2 * i + 1)).toBitVec else (m (2 * i + 1)).toBitVec ++ (m (2 * i)).toBitVec

/-- `decBuffer[i]` -/
def readByte (m : Nat → UInt8) (i : Nat) : Option UInt8 := if i < 2 * stPayloadBufSz then some (m i) else none

/-- `decBuffer[i] = b` -/
def writeByte (m : Nat → UInt8) (i : Nat) (b : UInt8) : Option (Nat → UInt8) :=
  if i < 2 * stPayloadBufSz then some (setAt m i b) else none

/-- The loop of `payloadchecksum`. -/
def checksumRecv (p : Nat → BitVec 16) : Nat → Option (BitVec 32)
  | 0 => some 0
  | j + 1 => do
    let sum ← checksumRecv p j
    let x ← readSlot p j
    some (sum + x.signExtend 32)

def checksumOf (sum : BitVec 32) : BitVec 32 := (sum &&& stcRandomDataMask) ||| stcPaloadFCsum.setWidth 32

def payloadchecksum (p : Nat → BitVec 16) (len : Nat) : Option Bool := do
  let sum ← checksumRecv p len
  let x ← readSlot p len
  some (checksumOf sum &&& 0xffff#32 == x.signExtend 32)

/-- `dencrypt_payload(decBuffer, data + 1, len, 0, 0)` with `decBuffer` at `data`. -/
def dencryptPayload (be : Bool) (m : Nat → UInt8) : Nat → Option (Nat → UInt8)
  | 0 => some m
  | i + 1 => do
    let m ← dencryptPayload be m i
    let x ← readSlot (shortsOf be m) (payloadHdrLen + i)
    writeByte m i (lowByte (x &&& 0xf#16))

/-- The loop that fills `ssid_password`, two nibbles to a byte. -/
def ssidPassword (m : Nat → UInt8) : Nat → Option (ByteArr 96)
  | 0 => some (.zero 96)
  | k + 1 => do
    let a ← ssidPassword m k
    let low ← readByte m (2 * k)
    let high ← readByte m (2 * k + 1)
    a.copy k [low ||| high <<< 4]

/-- `n` bytes of an array from `pos` on. -/
def ByteArr.sub {n : Nat} (a : ByteArr n) (pos len : Nat) : Option (List UInt8) :=
  if pos + len ≤ n then some ((a.val.drop pos).take len) else none

/-- `hmac_cfg.privacy` by the length of the password. -/
def privacyOf (passwordLen : Nat) (privacy : Bool) : Bool :=
  if 8 < passwordLen then true
  else if passwordLen = 5 then true
  else if passwordLen = 13 then true
  else if passwordLen = 0 then false
  else privacy

/-- The copies of `payload_build_data` to `hmac_cfg`. -/
def copyConfig (a : ByteArr 96) (passwordLen ssidlen : Nat) (cfg : HmacConfigure) : Option HmacConfigure := do
  let pwd ← a.sub 0 passwordLen
  let password ← cfg.password.copy 0 pwd
  let name ← a.sub passwordLen ssidlen
  let ssid ← cfg.ssid.copy 0 name
  some {
    ssid := ssid
    ssidLen := UInt8.ofNat ssidlen
    passwordLen := UInt8.ofNat passwordLen
    password := password
    privacy := privacyOf passwordLen cfg.privacy }

def buildConfig (a : ByteArr 96) (ssidlen len : Nat) (cfg : HmacConfigure) : Option HmacConfigure :=
  if ssidlen ≤ len / 2 then copyConfig a (len / 2 - ssidlen) ssidlen cfg else some cfg

/-- `*data & 0xff` -/
def ssidlenOf (p : Nat → BitVec 16) : Nat := (p 0 &&& 0xff#16).toNat

/-- `payload_build_data`; what is left of the buffer, and the configuration. -/
def payloadBuildData (be : Bool) (p : Nat → BitVec 16) (len : Nat) (cfg : HmacConfigure) :
    Option ((Nat → BitVec 16) × HmacConfigure) := do
  let m ← dencryptPayload be (bytesOf be p) len
  let a ← ssidPassword m ((len + 1) / 2)
  let cfg ← buildConfig a (ssidlenOf p) len cfg
  some (shortsOf be m, cfg)

namespace SmartconfigDecoder

/-- The `memset`s of `CONFIG_ST_PAYLOAD`. -/
def clear (d : SmartconfigDecoder) : SmartconfigDecoder :=
  { d with oriData0 := 0, oriData1 := 0, oriPayload := fun _ => 0, payloaddatalen := 0, payloaderrorCnt := 0 }

/-- `case CONFIG_ST_RE_PAYLOAD` -/
def recvTotallen (d : SmartconfigDecoder) (rxdata : BitVec 16) : SmartconfigDecoder :=
  let d := { d with payloaddataIdPre := 0 }
  if smartconfigMagic.slt rxdata ∧ isTotallen rxdata then { d with oriData0 := rxdata, smartconfgSt := .getTotallen }
  else d

/-- `case CONFIG_ST_GET_TOTALLEN` -/
def recvTotallenCsum (d : SmartconfigDecoder) (rxdata : BitVec 16) : SmartconfigDecoder :=
  if isTotallenCsum rxdata then
    let d := { d with oriData1 := rxdata }
    if rxdata ≠ totallenComplement d.oriData0 then { d with smartconfgSt := .payload }
    else
      let d := { d with totallen := (d.oriData0 &&& 0xff#16).toNat }
      if d.totallen < smartconfigMiniLen then { d with smartconfgSt := .payload } else { d with smartconfgSt := .getPayload }
  else if isTotallen rxdata then { d with oriData0 := rxdata }
  else { d with smartconfgSt := .payload }

def slotOf (rxdata : BitVec 16) (turnId : Nat) : Nat := payloadHdrLen + payloaddataId rxdata + turnId * 16

def lastData (d : SmartconfigDecoder) (rxdata : BitVec 16) (turnId : Nat) : Bool :=
  (d.totallen - 1 - payloadHdrLen) / 16 ≤ turnId ∧ payloaddataId rxdata = (d.totallen - 2 - payloadHdrLen) % 16

def noteData (d : SmartconfigDecoder) (rxdata : BitVec 16) (turnId : Nat) : SmartconfigDecoder :=
  let d := { d with payloaddataIdPre := payloaddataId rxdata }
  if d.lastData rxdata turnId then { d with smartconfgSt := .getPayloadCsum } else d

def storeData (d : SmartconfigDecoder) (rxdata : BitVec 16) (turnId : Nat) : SmartconfigDecoder :=
  let stored := setAt d.oriPayload (slotOf rxdata turnId) rxdata
  if d.oriPayload (slotOf rxdata turnId) = 0 then
    if d.totallen - payloadHdrLen ≤ slotOf rxdata turnId then { d with payloaderrorCnt := d.payloaderrorCnt + 1 }
    else { d with oriPayload := stored, payloaddatalen := d.payloaddatalen + 1 }.noteData rxdata turnId
  else if (d.payloaddataIdPre + 1) % 16 = payloaddataId rxdata then
    { d with oriPayload := stored }.noteData rxdata turnId
  else d.noteData rxdata turnId

/-- A data symbol.  Its slot is read first, whatever the total length. -/
def recvData (d : SmartconfigDecoder) (rxdata : BitVec 16) (turnId : Nat) : Option SmartconfigDecoder :=
  if slotOf rxdata turnId < stPayloadBufSz then some (d.storeData rxdata turnId) else none

/-- All symbols are in: the checksum is compared and the payload decoded. -/
def finish (be : Bool) (d : SmartconfigDecoder) : Option SmartconfigDecoder := do
  if ← payloadchecksum d.oriPayload (d.payloaddatalen + 1) then
    let r ← payloadBuildData be d.oriPayload d.payloaddatalen d.hmacCfg
    some { d with oriPayload := r.1, hmacCfg := r.2, smartconfgSt := .doneSuccess }
  else some { d with smartconfgSt := .payload, payloaddatalen := 0 }

def recvCsum (be : Bool) (d : SmartconfigDecoder) (rxdata : BitVec 16) : Option SmartconfigDecoder := do
  let p ← writeSlot d.oriPayload (d.totallen - 1) rxdata
  if d.payloaddatalen = d.totallen - payloadHdrLen - 1 then ({ d with oriPayload := p } : SmartconfigDecoder).finish be
  else some { d with oriPayload := p, smartconfgSt := .rePayload }

/-- `case CONFIG_ST_GET_PAYLOAD` and `case CONFIG_ST_GET_PAYLOAD_CSUM` -/
def recvPayload (be : Bool) (d : SmartconfigDecoder) (rxdata : BitVec 16) (turnId : Nat) : Option SmartconfigDecoder :=
  if isSsidlen rxdata then do
    let p ← writeSlot d.oriPayload 0 rxdata
    some { d with oriPayload := p, ssidLen := rxdata &&& stcSsidlenDataMask }
  else if isPayloadData rxdata then d.recvData rxdata turnId
  else if isPayloadCsum rxdata then d.recvCsum be rxdata
  else some d

def funRecvPayload (be : Bool) (d : SmartconfigDecoder) (rxdata : BitVec 16) (turnId : Nat) :
    Option SmartconfigDecoder :=
  match d.smartconfgSt with
  | .payload => some (d.clear.recvTotallen rxdata)
  | .rePayload => some (d.recvTotallen rxdata)
  | .getTotallen => some (d.recvTotallenCsum rxdata)
  | .getPayload => d.recvPayload be rxdata turnId
  | .getPayloadCsum => d.recvPayload be rxdata turnId
  | _ => some d

def recvAll (be : Bool) (d : SmartconfigDecoder) (calls : List (BitVec 16 × Nat)) : Option SmartconfigDecoder :=
  calls.foldlM (fun d c => d.funRecvPayload be c.1 c.2) d

end SmartconfigDecoder

inductive SmartconfigFlag
  | originalValue
  | receiveBroadcast
  | receiveMulticast

/-- `atbm_smart_config_magic_mac[i]`, its first five octets and its last. -/
def smartConfigMagicMac : List UInt8 := [0x01, 0x00, 0x5e, 0x7f, 0xff]
def smartConfigPayloadOctet : UInt8 := 0x03
def smartConfigOtherOctet : UInt8 := 0xfa

/-- The value of a `char`, which may be signed. -/
def charValue (signed : Bool) (b : UInt8) : Int := if signed ∧ 128 ≤ b then (b.toNat : Int) - 256 else b.toNat

def turnIdOf (signed : Bool) (octet : UInt8) : Nat :=
  if (smartConfigPayloadOctet.toNat : Int) ≤ charValue signed octet then
    (charValue signed octet - smartConfigPayloadOctet.toNat).toNat
  else 0

/-- The call of `fun_recv_payload` for a frame of `len` octets with the addresses `da` at octet 4 and `ta` at
octet 16; nothing, if the frame is not for the payload phase. -/
def smartconfigStep2 (signed : Bool) (flag : SmartconfigFlag) (baselen : Int) (len : Nat) (da ta : ByteArr 6) :
    Option (BitVec 16 × Nat) :=
  let rxdata := BitVec.ofInt 16 (len - baselen + 1)
  let other := smartConfigMagicMac ++ [smartConfigOtherOctet]
  if ta.val.take 5 ≠ smartConfigMagicMac ∧ da.val.take 5 ≠ smartConfigMagicMac then none
  else if ta.val = other ∨ da.val = other then none
  else
    match flag with
    | .receiveBroadcast =>
      if da.val.take 5 ≠ smartConfigMagicMac then none else some (rxdata, turnIdOf signed (da.val.getD 5 0))
    | .receiveMulticast =>
      if ta.val.take 5 ≠ smartConfigMagicMac then none else some (rxdata, turnIdOf signed (ta.val.getD 5 0))
    | .originalValue => some (rxdata, 0)

def TurnIdDerived (turnId : Nat) : Prop := ∃ signed octet, turnId = turnIdOf signed octet

end AtbmWifi
