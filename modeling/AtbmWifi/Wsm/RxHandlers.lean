import AtbmWifi.Lib.Message
import AtbmWifi.Sta.Join
import AtbmWifi.Wsm.Command
import AtbmWifi.Wsm.TxConfirm

/-!
# The handlers of `wsm_handle_rx`

Each handler is a parser that ends with `Done`: its `WSM_GET`s are checked against
`wsm->len`, and a failing one is its `underflow` exit, `-EINVAL`.  An act is a write to what
the driver or a caller keeps, a release, a wake-up or a callback; log lines and debug
counters are none.  What a handler does after its last field stands in `Done`.

A handler that is given the argument of a command writes through it.  Of `BUG_ON`s on
what the firmware claims of itself nothing is kept.
-/

namespace AtbmWifi

open Wire

/-- What `wsm_handle_rx` is given: the message, and the buffer it came in. -/
inductive RxBuf
  | wsm
  | skb
  deriving DecidableEq, Repr

/-- A message as `wsm_handle_rx` is called with it.  The first `received` bytes of a buffer came from the
bus; the rest of `mem` is what lies behind them. -/
structure RxMsg where
  id : BitVec 16
  mem : RxBuf → Nat → UInt8
  received : RxBuf → Nat
  /-- `(*skb_p)->len` -/
  skbLen : Nat

namespace RxMsg

def len (m : RxMsg) : Nat := ofBytes [m.mem .wsm 0, m.mem .wsm 1]

/-- `wsm_buf`, its `data` behind the header -/
def wsmBuf (m : RxMsg) : Cursor := ⟨m.mem .wsm, 4, m.len⟩

def linkId (m : RxMsg) : Nat := m.id.toNat >>> 6 &&& 0x0F

end RxMsg

structure RxRead where
  buf : RxBuf
  span : Span
  deriving DecidableEq, Repr

structure RxVif where
  /-- `priv->mode == NL80211_IFTYPE_UNSPECIFIED` -/
  unspecified : Bool
  /-- `vif->type` is `NL80211_IFTYPE_AP` or `NL80211_IFTYPE_P2P_GO` -/
  apType : Bool
  joinStatus : JoinStatus
  addr : List UInt8
  staAsleepMask : Nat
  /-- the station of an address, with its `WLAN_STA_MFP` -/
  sta : List UInt8 → Option Bool
  /-- the link id of the station of an address, 0 if there is none -/
  linkIdOf : List UInt8 → Nat
  /-- frames are queued for a link id -/
  queuedFor : Nat → Bool

/-- What is read of the argument of a command, whichever structure that is. -/
structure CmdArg where
  reqId : Nat
  mibId : Nat
  bufSize : Nat
  /-- the first byte of `arg->buf` -/
  buf0 : UInt8
  deriving DecidableEq, Repr

/-- What `wsm_handle_rx` reads of `hw_priv`. -/
structure RxHost where
  /-- `wsm_cmd.cmd` -/
  wsmCmd : BitVec 16
  wsmArg : Option CmdArg
  cbcRx : Bool
  cbcScanComplete : Bool
  cbcSuspendResume : Bool
  /-- `bStartTx && etf_test_v2` -/
  etf : Bool
  chipVersion : Nat
  hwBufsUsed : Int
  /-- `wsm_pm_running` -/
  pmRunning : Bool
  scanCca : Bool
  /-- `scan.if_id`, if there is a `scan.req` -/
  scanIf : Option Nat
  monitorIf : Option Nat
  staListenIf : Option Nat
  vifList : Nat → Option RxVif

def RxHost.vifpriv (h : RxHost) (ifId : Option Nat) : Option RxVif :=
  ifId.bind fun i => if maxVifs < i then none else h.vifList i

/-- The interfaces of `atbm_for_each_vif` that have joined as an AP. -/
def RxHost.apVifs (h : RxHost) : List Nat :=
  (List.range maxVifs).filter fun i => (h.vifList i).any fun v => decide (v.joinStatus = .ap)

/-- The bus the driver is built for (`MCAST_FWDING` comes with SDIO), and what it uses of the kernel:
`ieee80211_hdrlen` of a frame control field and `IEEE80211_MIN_ACTION_SIZE`. -/
structure RxBuild where
  sdio : Bool
  hdrlen : Nat → Nat
  minActionSize : Nat

/-- A field of `wsm_caps`, and what else the startup indication sets. -/
inductive CapsField
  | numInpChBufs
  | sizeInpChBuf
  | hardwareId
  | hardwareSubId
  | firmwareCap
  | firmwareType
  | firmwareApiVer
  | firmwareBuildNumber
  | firmwareVersion
  | firmeareExCap
  | numOfStations
  | numOfInterfaces
  | maxHwSupportTxAggs
  | maxHwSupportRxAggs
  | numOfHwAggrSupports
  | numOfHwXmitedAddr
  | hwBufsFree
  | hwBufsFreeInit
  | firmwareReady
  | exceptionaddr
  | hiHwCnfBufaddr
  deriving DecidableEq, Repr

inductive ArgField
  | bufSize
  | dot11FrequencyBandsSupported
  | supportedRateMask
  | minPowerLevel (i : Nat)
  | maxPowerLevel (i : Nat)
  | stepping (i : Nat)
  deriving DecidableEq, Repr

inductive RxAct
  /-- `wsm_release_vif_tx_buffer` and the callback of a confirmation -/
  | txConfirm (arg : WsmTxConfirm)
  | releaseTxBuffer (count : Nat)
  | wakeBhEvt
  /-- bytes copied through the argument of a command -/
  | fill (l : List UInt8)
  | arg (x : ArgField) (v : Nat)
  | enablePowersave (on : Bool)
  | staAsleepMask (ifId mask : Nat)
  | bufReleased
  | caps (x : CapsField) (v : Nat)
  | wakeStartupDone
  | eventWork (ifId eventId eventData : Nat)
  | operUnlock
  | pmDone
  | scanWaitComplete
  | scanComplete (status psm numChannels : Nat) (busyRatio : Option (List UInt8))
  | suspendResume (ifId : Nat) (stop multicast : Bool) (queue : Nat)
  | etfScanRx (rcpiRssi : Nat)
  | pspoll (ta : List UInt8)
  | specialFilter
  | ieee80211Rx
  deriving DecidableEq, Repr

/-- The end of a handler: what it returns, what it does last, and what it reads without a check. -/
structure Done where
  ret : Int
  acts : List RxAct := []
  reads : List RxRead := []
  deriving Repr

namespace Rx

open Parse

/-- `wsm_tx_confirm`, up to its end without an error -/
def wsmTxConfirm : Parse RxAct Unit := do
  let packetID ← number 4
  let status ← number 4
  let txedRate ← number 1
  let ackFailures ← number 1
  let flags ← number 2
  let mediaDelay ← number 4
  let txQueueDelay ← number 4
  does (.txConfirm {
    packetID, status, txedRate, ackFailures, flags, mediaDelay, txQueueDelay
    ifId := (atbmQueueParseId packetID).ifId
    linkId := (atbmQueueParseId packetID).linkId })

/-- The loop of `wsm_multi_tx_confirm`. -/
def confirmLoop : Nat → Parse RxAct Done
  | 0 => return { ret := 0 }
  | n + 1 => do
    wsmTxConfirm
    confirmLoop n

def wsmMultiTxConfirm : Parse RxAct Done := do
  let count ← number 4
  if count = 0 ∨ 2 ^ 31 ≤ count then return { ret := eInval }
  else if 1 < count then do
    does (.releaseTxBuffer (count - 1))
    confirmLoop count
  else confirmLoop count

def wsmGiveBufferConfirm (h : RxHost) : Parse RxAct Done :=
  return { ret := 0, acts := if h.hwBufsUsed = 0 then [.wakeBhEvt] else [] }

/-- `wsm_generic_confirm`, and `wsm_write_shmem_confirm`, which is the same -/
def wsmGenericConfirm : Parse RxAct Done := do
  let status ← number 4
  return { ret := if status ≠ 0 then eInval else 0 }

def wsmStopScanConfirm : Parse RxAct Done := do
  let status ← number 4
  return { ret := if status = 14 then 0 else if status ≠ 0 then eInval else 0 }

/-- `wsm_efuse_change_data_confirm`, which returns the status. -/
def wsmEfuseChangeDataConfirm : Parse RxAct Done := do
  let status ← number 4
  return { ret := (BitVec.ofNat 32 status).toInt }

def wsmReadShmemConfirm (arg : CmdArg) : Parse RxAct Done := do
  let status ← number 4
  if status ≠ 0 then return { ret := eInval }
  else do
    let l ← bytes arg.bufSize
    return { ret := 0, acts := [.fill l] }

def wsmGenericReqConfirm (arg : CmdArg) : Parse RxAct Done := do
  let reqId ← number 4
  let status ← number 4
  if reqId ≠ arg.reqId then return { ret := eInval }
  else if status ≠ 0 then return { ret := eInval }
  else do
    let l ← bytes arg.bufSize
    return { ret := 0, acts := [.fill l] }

def argNumber (x : ArgField) (n : Nat) : Parse RxAct Unit := do
  let v ← number n
  does (.arg x v)

def wsmConfigurationConfirm : Parse RxAct Done := do
  let status ← number 4
  if status ≠ 0 then return { ret := eInval }
  else do
    let dot11StationId ← bytes 6
    does (.fill dot11StationId)
    argNumber .dot11FrequencyBandsSupported 1
    skipBytes 1
    argNumber .supportedRateMask 4
    argNumber (.minPowerLevel 0) 4
    argNumber (.maxPowerLevel 0) 4
    argNumber (.stepping 0) 4
    argNumber (.minPowerLevel 1) 4
    argNumber (.maxPowerLevel 1) 4
    argNumber (.stepping 1) 4
    return { ret := 0 }

def wsmReadMibConfirm (arg : CmdArg) : Parse RxAct Done := do
  let status ← number 4
  if status ≠ 0 then return { ret := eInval }
  else do
    let mibId ← number 2
    if mibId ≠ arg.mibId then return { ret := eInval }
    else do
      let size ← number 2
      let l ← bytes (min size arg.bufSize)
      return { ret := 0, acts := [.fill l, .arg .bufSize (min size arg.bufSize)] }

def wsmWriteMibConfirm (h : RxHost) (arg : CmdArg) : Parse RxAct Done := do
  let status ← number 4
  if status ≠ 0 then return { ret := eInval }
  else return {
    ret := 0
    acts := if arg.mibId = 0x1006 ∧ (h.vifList 0).isSome then [.enablePowersave (arg.buf0 &&& 0x0F != 0)] else [] }

def wsmJoinConfirm : Parse RxAct Done := do
  let status ← number 4
  if status ≠ 0 then return { ret := eInval }
  else do
    argNumber (.minPowerLevel 0) 4
    argNumber (.maxPowerLevel 0) 4
    return { ret := 0 }

def wsmRequestBufferConfirm (h : RxHost) (ifId : Nat) : Parse RxAct Unit := do
  let staAsleepMask ← number 4
  let _count ← number 1
  if (h.vifList ifId).any fun v => v.staAsleepMask != staAsleepMask then do
    does (.staAsleepMask ifId staAsleepMask)
    does .bufReleased
  else does .bufReleased

/-- The loop over the interfaces in `wsm_handle_rx`: they take their fields one behind the other, so that
after a short one all run short, with the same result. -/
def requestBufferLoop (h : RxHost) : List Nat → Parse RxAct Done
  | [] => return { ret := 0 }
  | i :: l => do
    wsmRequestBufferConfirm h i
    requestBufferLoop h l

def capsNumber (x : CapsField) (n : Nat) : Parse RxAct Nat := do
  let v ← number n
  does (.caps x v)
  return v

/-- What `wsm_startup_indication` does once it has its fields. -/
def startup (numInpChBufs status firmwareCap firmwareType firmwareCap2 : Nat) (config : List Nat)
    (exCap : List Nat) : Done :=
  let c0 := config.getD 0 0
  let acts : List RxAct := exCap.map (.caps .firmeareExCap) ++ [
    .caps .numOfStations (c0 &&& 0xFF), .caps .numOfInterfaces (c0 >>> 16 &&& 0xFF),
    .caps .maxHwSupportTxAggs (c0 >>> 24), .caps .maxHwSupportRxAggs (c0 >>> 8 &&& 0xFF),
    .caps .numOfHwAggrSupports (c0 >>> 8 &&& 0xFF), .caps .firmwareCap (firmwareCap ||| firmwareCap2 <<< 16),
    .caps .numOfHwXmitedAddr (config.getD 3 0), .caps .hwBufsFree numInpChBufs, .caps .hwBufsFreeInit numInpChBufs]
  if status ≠ 0 then { ret := eInval, acts }
  else if 4 < firmwareType then { ret := eInval, acts }
  else {
    ret := 0
    acts := acts ++ [.caps .firmwareReady 1, .caps .exceptionaddr (config.getD 1 0),
      .caps .hiHwCnfBufaddr (config.getD 2 0), .wakeStartupDone] }

def wsmStartupIndication : Parse RxAct Done := do
  let numInpChBufs ← capsNumber .numInpChBufs 2
  let _ ← capsNumber .sizeInpChBuf 2
  let _ ← capsNumber .hardwareId 2
  let _ ← capsNumber .hardwareSubId 2
  let status ← number 2
  let firmwareCap ← capsNumber .firmwareCap 2
  let firmwareType ← capsNumber .firmwareType 2
  let _ ← capsNumber .firmwareApiVer 2
  let _ ← capsNumber .firmwareBuildNumber 2
  let _ ← capsNumber .firmwareVersion 2
  let _fwLabel ← bytes 128
  let config0 ← number 4
  let config1 ← number 4
  let config2 ← number 4
  let config3 ← number 4
  let firmwareCap2 ← number 2
  let _resv ← optNumber 2
  let exCapLow ← optNumber 2
  let exCapHigh ← optNumber 2
  let low := exCapLow.getD 0
  return startup numInpChBufs status firmwareCap firmwareType firmwareCap2 [config0, config1, config2, config3]
    [0, low, low ||| exCapHigh.getD 0 <<< 16]

def wsmDebugPrintIndication : Parse RxAct Done := do
  let length ← number 2
  let _fwDebugPrint ← bytes (min length 390)
  return { ret := 0 }

def wsmEventIndication (h : RxHost) (linkId : Nat) : Parse RxAct Done :=
  match h.vifpriv (some linkId) with
  | none => return { ret := 0 }
  | some priv =>
    if priv.unspecified then return { ret := 0 }
    else do
      let eventId ← number 4
      let eventData ← number 4
      return { ret := 0, acts := [.eventWork linkId eventId eventData] }

def wsmSetPmIndication (h : RxHost) : Parse RxAct Done :=
  return { ret := 0, acts := if h.pmRunning then [.pmDone, .operUnlock] else [] }

/-- `wsm_scan_complete_indication`, which gives the lock back first. -/
def wsmScanCompleteIndication (h : RxHost) : Parse RxAct Done := do
  does .scanWaitComplete
  does .operUnlock
  if h.cbcScanComplete then do
    let status ← number 4
    let psm ← number 1
    let numChannels ← number 1
    if h.scanCca then do
      let busyRatio ← bytes 14
      return { ret := 0, acts := [.scanComplete status psm numChannels (some busyRatio)] }
    else return { ret := 0, acts := [.scanComplete status psm numChannels none] }
  else return { ret := 0 }

def wsmSuspendResumeIndication (h : RxHost) (linkId : Nat) : Parse RxAct Done :=
  if h.cbcSuspendResume then do
    let flags ← number 4
    let ifId := h.apVifs.head?.getD linkId
    return {
      ret := 0
      acts := if (h.vifpriv (some ifId)).isSome then
          [.suspendResume ifId (flags % 2 == 0) (flags.testBit 3) (flags / 2 % 4)]
        else [] }
  else return { ret := 0 }

def wsmDebugIndication : Parse RxAct Done := do
  let _dbgId ← number 4
  return { ret := 0 }

end Rx

end AtbmWifi
