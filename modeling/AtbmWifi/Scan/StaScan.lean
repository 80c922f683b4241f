import AtbmWifi.Lib.Memory
import AtbmWifi.Lib.Message

/-!
# The private station scan

`atbm_dev_set_sta_scan` scans on the channel of the message, walks the table of results
and copies the records to the user.  `found` is the table as the call of the scan leaves
it, chain by chain; `ssid` and `ie` of a result are the `ssid_len` and `ie_len` bytes from where the
source reads them, and an absent IE is empty.  Memory is offsets from `recv_info`, and
from the user's buffer.

The scan itself is left to `ieee80211_internal_scan_triger`, of which only success and the
end of the wait are seen.
-/

namespace AtbmWifi

open Memory Wire

/-- `struct ieee80211_internal_scan_sta`, as the export reads it; the channel is one of the band tables. -/
structure StoredSta where
  bssid : Vector UInt8 6
  ssid : List UInt8
  channel : UInt8
  signal : UInt8
  ie : List UInt8
  ssid_lt : ssid.length < 256
  ie_lt : ie.length < 256
  channel_ne : channel ≠ 0

def macFilterNum : Nat := 8

def recvInfoSize : Nat := 308
def recvChannel : Nat := 32
def recvRssi : Nat := 36
def recvBssid : Nat := 45
def recvUserData : Nat := 51

/-- `sizeof` of `Ssid` and of `User_data` -/
def recvSsidSize : Nat := 32
def recvUserDataSize : Nat := 256

/-- A copy of `len` bytes to a field of a record of the array -/
structure RecvCopy where
  record : Nat
  fieldSize : Nat
  len : Nat
  deriving DecidableEq, Repr

/-- `struct atbm_internal_scan_results_req`, with the copies made so far -/
structure StaResultsReq where
  flush : Bool
  nStas : Nat
  priv : Nat → UInt8
  copies : List RecvCopy

/-- The fields of the record at `pos` -/
def fillRecord (mem : Nat → UInt8) (pos : Nat) (sta : StoredSta) : Nat → UInt8 :=
  let mem := write mem (pos + recvChannel) [sta.channel]
  let mem := write mem (pos + recvRssi) [sta.signal, 0, 0, 0]
  let mem := write mem (pos + recvBssid) sta.bssid.toList
  let mem := if sta.ssid.length ≠ 0 then write mem pos sta.ssid else mem
  if sta.ie.length ≠ 0 then write mem (pos + recvUserData) sta.ie else mem

def atbmDevHandleScanSta (req : StaResultsReq) (sta : StoredSta) : Bool × StaResultsReq :=
  if macFilterNum ≤ req.nStas then (false, req)
  else if sta.ie.length = 0 then (true, req)
  else
    (true, { req with
      nStas := req.nStas + 1
      priv := fillRecord req.priv (req.nStas * recvInfoSize) sta
      copies := req.copies ++
        [⟨req.nStas, 6, 6⟩, ⟨req.nStas, recvSsidSize, sta.ssid.length⟩,
          ⟨req.nStas, recvUserDataSize, sta.ie.length⟩] })

/-- A node of the table in `ieee80211_scan_internal_req_results`: the handler is called as long as it returned true. -/
def reqResultsNode (p : Bool × StaResultsReq) (sta : StoredSta) : Bool × StaResultsReq :=
  if p.1 then atbmDevHandleScanSta p.2 sta else p

/-- `ieee80211_scan_internal_req_results`: the request after the walk, and the table. -/
def scanInternalReqResults (table : List (List StoredSta)) (req : StaResultsReq) :
    StaResultsReq × List (List StoredSta) :=
  let p := table.foldl (fun p hlist => hlist.foldl reqResultsNode p) (true, req)
  (p.2, if req.flush then table.map fun _ => [] else table)

/-- `scan_result_filter_single_channel`, if there is memory for `recv_bak` -/
def scanResultFilterSingleChannel (recv : Nat → UInt8) (channel : UInt8) : Nat → UInt8 :=
  let kept := (List.range macFilterNum).filter fun i => recv (i * recvInfoSize + recvChannel) == channel
  write (fun _ => 0) 0 (kept.flatMap fun i => read recv (i * recvInfoSize) recvInfoSize)

inductive StaScanBuf
  | recvInfo
  | macs
  | scanReq
  | recvBak
  deriving DecidableEq, Repr

/-- What becomes of a buffer; `handed` to `local->scan_req`, which the end of the scan frees. -/
inductive StaScanEvent
  | alloc (b : StaScanBuf)
  | free (b : StaScanBuf)
  | handed (b : StaScanBuf)
  deriving DecidableEq, Repr

/-- The end of `wait_event_timeout` -/
inductive ScanWait
  | timeout
  | aborted
  | finished
  deriving DecidableEq, Repr

structure StaScanEnv where
  running : Bool
  station : Bool
  recvAlloc : Bool
  macsAlloc : Bool
  bakAlloc : Bool
  /-- the interface is not running any more, or a scan, a remain-on-channel, work or suspend is on -/
  busy : Bool
  reqAlloc : Bool
  /-- `ieee80211_get_channel`, by frequency -/
  hasChannel : Nat → Bool
  triger : Bool
  wait : ScanWait
  found : List (List StoredSta)
  /-- the bytes that `copy_to_user` gets to the user -/
  copied : Nat

def scanChannelFreq (channel : Nat) : Nat :=
  if channel ≤ 14 then
    if channel = 14 then 2484 else 2412 + (channel - 1) * 5
  else 5000 + 5 * channel

def atbmInternalCmdScanTriger (env : StaScanEnv) (channels : List Nat) : Bool × List StaScanEvent :=
  if env.busy then (false, [])
  else if !env.reqAlloc then (false, [])
  else if channels.any fun c => !env.hasChannel (scanChannelFreq c) then (false, [.alloc .scanReq, .free .scanReq])
  else if !env.triger then (false, [.alloc .scanReq, .free .scanReq])
  else
    match env.wait with
    | .timeout => (false, [.alloc .scanReq, .handed .scanReq])
    | .aborted => (false, [.alloc .scanReq, .handed .scanReq])
    | .finished => (true, [.alloc .scanReq, .handed .scanReq])

/-- The returned value, the user's buffer, the copies to records, the places of the message that
were read, the events of the buffers, and the table. -/
structure StaScanEnd where
  ret : Int
  user : Nat → UInt8
  copies : List RecvCopy
  msgReads : List Span
  events : List StaScanEvent
  table : List (List StoredSta)

def staScanChannel (msg : Nat → UInt8) : Nat := Wire.ofBytes (read msg 0 2)

def staScanMacs (msg : Nat → UInt8) : Bool := read msg 2 6 != List.replicate 6 0

/-- `atbm_dev_set_sta_scan`; `table` is what it finds before the scan. -/
def atbmDevSetStaScan (env : StaScanEnv) (msg user : Nat → UInt8) (table : List (List StoredSta)) : StaScanEnd :=
  if !env.running then ⟨-100, user, [], [], [], table⟩
  else if !env.station then ⟨-95, user, [], [], [], table⟩
  else if !env.recvAlloc then ⟨-12, user, [], [], [], table⟩
  else
    let scanCh := staScanChannel msg % 256
    let reads : List Span := [⟨0, 2⟩, ⟨2, 6⟩]
    if staScanMacs msg && !env.macsAlloc then ⟨-12, user, [], reads, [.alloc .recvInfo, .free .recvInfo], table⟩
    else
      let macReads := if staScanMacs msg then (List.range macFilterNum).map fun i => (⟨2 + 6 * i, 6⟩ : Span) else []
      let macAlloc := if staScanMacs msg then [StaScanEvent.alloc .macs] else []
      let macFree := if staScanMacs msg then [StaScanEvent.free .macs] else []
      let channels := if scanCh ≠ 0 then [scanCh, scanCh, scanCh] else []
      let t := atbmInternalCmdScanTriger env channels
      let before := [StaScanEvent.alloc .recvInfo] ++ macAlloc ++ t.2
      let after := macFree ++ [StaScanEvent.free .recvInfo]
      if !t.1 then ⟨-95, user, [], reads ++ macReads, before ++ after, env.found⟩
      else
        let w := scanInternalReqResults env.found ⟨true, 0, fun _ => 0, []⟩
        -- the filter is for one channel, and the request has three or none
        let single := channels.length = 1
        let filtered := single ∧ env.bakAlloc = true
        let recv := if filtered then scanResultFilterSingleChannel w.1.priv (UInt8.ofNat scanCh) else w.1.priv
        let bak := if filtered then [StaScanEvent.alloc .recvBak, .free .recvBak] else []
        let size := macFilterNum * recvInfoSize
        let ret := if size ≤ env.copied then (0 : Int) else -22
        ⟨ret, write user 0 (read recv 0 (min env.copied size)), w.1.copies, reads ++ macReads ++ [⟨50, 8⟩],
          before ++ bak ++ after, w.2⟩

end AtbmWifi
