import AtbmWifi.Lib.Transition

/-!
# Wi-Fi provisioning over BLE

A peer writes the credentials of an access point to a characteristic, `ble_svc_gatt_access` collects them in
`ble_smart_info`, and `ble_smart_cfg_task` hands them over when `step` is 4.  Both set `step`.  The callback
runs between any two accesses of the task to what they share.

`writes`, `handed` and `notified` are history: no step looks at them.
-/

namespace AtbmWifi

open Transition

/-- `uint8_t a[n]` -/
abbrev ByteArr (n : Nat) := { l : List UInt8 // l.length = n }

namespace ByteArr

variable {n : Nat}

def zero (n : Nat) : ByteArr n := ⟨List.replicate n 0, List.length_replicate⟩

/-- `memcpy(&a[pos], w, w.length)`, if that stays inside. -/
def copy (a : ByteArr n) (pos : Nat) (w : List UInt8) : Option (ByteArr n) :=
  if h : pos + w.length ≤ n then
    some ⟨a.val.take pos ++ w ++ a.val.drop (pos + w.length), by
      rw [List.length_append, List.length_append, List.length_take, List.length_drop, a.property]
      omega⟩
  else none

/-- The first `len` bytes, if there are as many. -/
def first (a : ByteArr n) (len : Nat) : Option (List UInt8) := if len ≤ n then some (a.val.take len) else none

end ByteArr

/-- `struct ble_smart_cfg_t` -/
structure BleSmartCfg where
  ssid : ByteArr 32
  pwd : ByteArr 64
  ssidLen : UInt8
  pwdLen : UInt8
  ssidCnt : UInt8
  pwdCnt : UInt8
  step : UInt8
  deriving DecidableEq

/-- After the `memset` of `ble_smart_cfg_startup`. -/
def BleSmartCfg.zero : BleSmartCfg := ⟨.zero 32, .zero 64, 0, 0, 0, 0, 0⟩

def bleSmartCfgSsidPwdTransEnd : UInt8 := 0xFE
def bleSmartCfgStatusEnd : UInt8 := 0xFF
def bleSmartCfgStatusBusy : UInt8 := 0xF0
def bleSmartCfgStatusSsidLenErr : UInt8 := 0xF2
def bleSmartCfgStatusSsidErr : UInt8 := 0xF3
def bleSmartCfgStatusPwdLenErr : UInt8 := 0xF4
def bleSmartCfgStatusPwdErr : UInt8 := 0xF5

/-- `"ssid"` -/
def ssidTag : List UInt8 := [0x73, 0x73, 0x69, 0x64]

/-- `"pwd"` -/
def pwdTag : List UInt8 := [0x70, 0x77, 0x64]

def recvOk : List UInt8 := [0x72, 0x65, 0x63, 0x76, 0x20, 0x6f, 0x6b]

/-- `data` of the callback, the write with zeros behind it. -/
def accessData (om : List UInt8) : List UInt8 := om ++ List.replicate (255 - om.length) 0

/-- `memcmp(data, tag, strlen(tag)) == 0` -/
def startsWith (tag : List UInt8) (om : List UInt8) : Bool := (accessData om).take tag.length == tag

/-- The length in a message whose digits begin at `i`, or the one that was there. -/
def messageLen (i : Nat) (om : List UInt8) (old : UInt8) : UInt8 :=
  if om.length = i + 1 then (accessData om).getD i 0 - 48
  else if om.length = i + 2 then 10 * ((accessData om).getD i 0 - 48) + ((accessData om).getD (i + 1) 0 - 48)
  else old

inductive Part (n : Nat)
  | overrun
  | tooLong
  | taken (a : ByteArr n) (cnt : UInt8)

/-- A part of a value of `len` bytes, of which `cnt` have come. -/
def takePart {n : Nat} (a : ByteArr n) (cnt len : UInt8) (om : List UInt8) : Part n :=
  if cnt.toNat + om.length ≤ len.toNat then
    match a.copy cnt.toNat om with
    | some a => .taken a (cnt + UInt8.ofNat om.length)
    | none => .overrun
  else .tooLong

namespace BleSmartCfg

/-- `case 0`; whether the semaphore is released. -/
def ssidMessage (c : BleSmartCfg) (om : List UInt8) : BleSmartCfg × Bool :=
  if startsWith ssidTag om then
    let c := { c with ssidLen := messageLen 5 om c.ssidLen }
    if 32 < c.ssidLen then ({ c with step := bleSmartCfgStatusSsidLenErr }, true) else ({ c with step := 1 }, false)
  else (c, false)

/-- `case 1`; nothing, if the copy leaves the array. -/
def ssidPart (c : BleSmartCfg) (om : List UInt8) : Option (BleSmartCfg × Bool) :=
  match takePart c.ssid c.ssidCnt c.ssidLen om with
  | .overrun => none
  | .tooLong => some ({ c with step := bleSmartCfgStatusSsidErr }, true)
  | .taken a cnt =>
    let c := { c with ssid := a, ssidCnt := cnt }
    some (if c.ssidCnt = c.ssidLen then { c with step := 2 } else c, false)

/-- `case 2` -/
def pwdMessage (c : BleSmartCfg) (om : List UInt8) : BleSmartCfg × Bool :=
  if startsWith pwdTag om then
    let c := { c with pwdLen := messageLen 4 om c.pwdLen }
    if 64 < c.pwdLen then ({ c with step := bleSmartCfgStatusPwdLenErr }, true)
    else if c.pwdLen < 5 ∧ 0 < c.pwdLen then ({ c with step := bleSmartCfgStatusPwdLenErr }, true)
    else if c.pwdLen = 0 then ({ c with step := 4 }, false)
    else ({ c with step := 3 }, false)
  else (c, false)

/-- `case 3` -/
def pwdPart (c : BleSmartCfg) (om : List UInt8) : Option (BleSmartCfg × Bool) :=
  match takePart c.pwd c.pwdCnt c.pwdLen om with
  | .overrun => none
  | .tooLong => some ({ c with step := bleSmartCfgStatusPwdErr }, true)
  | .taken a cnt =>
    let c := { c with pwd := a, pwdCnt := cnt }
    some (if c.pwdCnt = c.pwdLen then { c with step := 4 } else c, false)

def switchStep (c : BleSmartCfg) (om : List UInt8) : Option (BleSmartCfg × Bool) :=
  if c.step = 0 then some (c.ssidMessage om)
  else if c.step = 1 then c.ssidPart om
  else if c.step = 2 then some (c.pwdMessage om)
  else if c.step = 3 then c.pwdPart om
  else some (c, false)

end BleSmartCfg

inductive WifiConn
  | ok
  | wait
  deriving DecidableEq, Repr

structure WsmBleSmtInd where
  status : UInt8
  ssid : ByteArr 32
  pwd : ByteArr 64
  ssidLen : UInt8
  pwdLen : UInt8
  deriving DecidableEq

/-- Where `ble_smart_cfg_task` is. -/
inductive SmtPc
  | start
  /-- the condition of the loop -/
  | loop
  | select
  | pend
  /-- `rc == 0`, before the comparison with 4 -/
  | compare
  | indicate
  | setTransEnd
  | compareTransEnd
  | wifiStatus
  | compareEnd
  | checkBusy
  /-- the loop is left, until `atbm_ble_is_quit` -/
  | wait
  | done
  deriving DecidableEq, Repr

structure SmartCfg where
  info : BleSmartCfg
  /-- the count of `hci_smt_sem` -/
  sem : Nat
  /-- `atbm_ble_is_quit` -/
  isQuit : Bool
  pc : SmtPc
  /-- a `memcpy` left its array -/
  overrun : Bool
  /-- the `assert` of the task failed -/
  assertFailed : Bool
  /-- what was written to the characteristic -/
  writes : List (List UInt8)
  /-- what `smt_demo_end_indicate` was given -/
  handed : List WsmBleSmtInd
  notified : List WifiConn

namespace SmartCfg

def release (s : SmartCfg) : SmartCfg := { s with sem := s.sem + 1 }

/-- The rest of `ble_svc_gatt_access`, after the `switch`; step 5 is never set. -/
def notify (s : SmartCfg) : SmartCfg :=
  if s.info.step = 5 then { s with notified := s.notified ++ [.ok] }
  else if s.info.step = bleSmartCfgSsidPwdTransEnd then s.release
  else if s.info.step = 4 then s.release
  else if bleSmartCfgStatusBusy ≤ s.info.step then { s with notified := s.notified ++ [.wait] }
  else s

/-- The `switch` and what follows. -/
def collect (s : SmartCfg) (om : List UInt8) : SmartCfg :=
  match s.info.switchStep om with
  | none => { s with overrun := true }
  | some (c, posts) => (if posts = true then { s with info := c }.release else { s with info := c }).notify

/-- `ble_svc_gatt_access` for a write to `BLE_ATBM_SMART_DATA`; `gatt_svr_chr_write` refuses one of more than 255
bytes. -/
def bleSvcGattAccess (s : SmartCfg) (om : List UInt8) : SmartCfg :=
  if 255 < om.length then s
  else
    let s := { s with writes := s.writes ++ [om] }
    let s :=
      if startsWith recvOk om ∧ s.info.step = 4 then
        { s with info := { s.info with step := bleSmartCfgStatusEnd } }.release
      else s
    if s.info.step = bleSmartCfgStatusEnd then s else s.collect om

def bleSmartCfgIndication (status : UInt8) (c : BleSmartCfg) : Option WsmBleSmtInd := do
  let ssid ← c.ssid.first c.ssidLen.toNat
  let ssid ← (ByteArr.zero 32).copy 0 ssid
  let pwd ← c.pwd.first c.pwdLen.toNat
  let pwd ← (ByteArr.zero 64).copy 0 pwd
  return ⟨status, ssid, pwd, c.ssidLen, c.pwdLen⟩

/-- A step of `ble_smart_cfg_task`; `ok`: `ble_npl_sem_pend` returns 0, or Wi-Fi is connected. -/
def bleSmartCfgTask (s : SmartCfg) (ok : Bool) : SmartCfg :=
  match s.pc with
  | .start => { s with sem := 0, isQuit := false, pc := .loop }
  | .loop => { s with pc := if s.isQuit = true then .wait else .select }
  | .select => { s with pc := if s.info.step ≠ bleSmartCfgSsidPwdTransEnd then .pend else .compare }
  | .pend => if ok = true then { s with sem := s.sem - 1, pc := .compare } else { s with pc := .loop }
  | .compare => { s with pc := if s.info.step = 4 then .indicate else .compareTransEnd }
  | .indicate =>
    match bleSmartCfgIndication bleSmartCfgSsidPwdTransEnd s.info with
    | none => { s with overrun := true, pc := .setTransEnd }
    | some ind => { s with handed := s.handed ++ [ind], pc := .setTransEnd }
  | .setTransEnd => { s with info := { s.info with step := bleSmartCfgSsidPwdTransEnd }, pc := .loop }
  | .compareTransEnd =>
    { s with pc := if s.info.step = bleSmartCfgSsidPwdTransEnd then .wifiStatus else .compareEnd }
  | .wifiStatus =>
    if ok = true then
      { s with
        info := { s.info with step := bleSmartCfgStatusEnd }
        notified := s.notified ++ [.ok]
        pc := .wait }
    else { s with pc := .loop }
  | .compareEnd => { s with pc := if s.info.step = bleSmartCfgStatusEnd then .wait else .checkBusy }
  | .checkBusy =>
    if bleSmartCfgStatusBusy ≤ s.info.step then { s with pc := .wait } else { s with assertFailed := true, pc := .done }
  | .wait => { s with pc := if s.isQuit = true then .done else .wait }
  | .done => s

end SmartCfg

inductive SmtAct
  | write (om : List UInt8)
  | task (ok : Bool)
  | quit
  deriving DecidableEq, Repr

namespace SmtAct

def Enabled (s : SmartCfg) (a : SmtAct) : Prop :=
  match a with
  | write _ => True
  | task ok => s.pc = .pend → ok = true → 0 < s.sem
  | quit => True

instance decEnabled (s : SmartCfg) (a : SmtAct) : Decidable (a.Enabled s) := by
  unfold Enabled
  split <;> infer_instance

def next (s : SmartCfg) (a : SmtAct) : SmartCfg :=
  match a with
  | write om => s.bleSvcGattAccess om
  | task ok => s.bleSmartCfgTask ok
  | quit => { s with isQuit := true }

end SmtAct

def bleSmartCfgStartup : SmartCfg where
  info := .zero
  sem := 0
  isQuit := false
  pc := .start
  overrun := false
  assertFailed := false
  writes := []
  handed := []
  notified := []

def smartCfgs : Sys SmartCfg SmtAct := .ofNext (fun s => s = bleSmartCfgStartup) (fun s a => a.Enabled s) SmtAct.next

end AtbmWifi
