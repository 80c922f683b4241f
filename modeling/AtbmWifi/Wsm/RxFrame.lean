import AtbmWifi.Wsm.RxHandlers

/-!
# The frame in a receive indication

After its checked fields `wsm_receive_indication` looks at the frame behind them, and so
does `atbm_rx_cb`, through pointers that no length bounds.  A `Looked` value comes with the
bytes that were looked at.

`atbm_skb_pull` leaves a buffer alone that is shorter than what it is to give up; the
frame of `atbm_rx_cb` then begins where the message does.

-/

namespace AtbmWifi

open Wire

structure Looked (α : Type) where
  val : α
  reads : List RxRead

namespace Looked

variable {α β : Type}

def bind (x : Looked α) (f : α → Looked β) : Looked β := ⟨(f x.val).val, x.reads ++ (f x.val).reads⟩

instance : Monad Looked where
  pure a := ⟨a, []⟩
  bind := bind

@[simp] theorem pure_val (a : α) : (pure a : Looked α).val = a := rfl
@[simp] theorem pure_reads (a : α) : (pure a : Looked α).reads = [] := rfl
@[simp] theorem bind_val (x : Looked α) (f : α → Looked β) : (x >>= f).val = (f x.val).val := rfl
@[simp] theorem ite_val (c : Prop) [Decidable c] (x y : Looked α) :
    (if c then x else y).val = if c then x.val else y.val := apply_ite val c x y
@[simp] theorem ite_reads (c : Prop) [Decidable c] (x y : Looked α) :
    (if c then x else y).reads = if c then x.reads else y.reads := apply_ite reads c x y
@[simp] theorem bind_reads (x : Looked α) (f : α → Looked β) : (x >>= f).reads = x.reads ++ (f x.val).reads := rfl

end Looked

def farthest (b : RxBuf) : List RxRead → Nat
  | [] => 0
  | r :: l => max (if r.buf = b ∧ 0 < r.span.size then r.span.off + r.span.size else 0) (farthest b l)

@[simp] theorem farthest_nil (b : RxBuf) : farthest b [] = 0 := rfl

@[simp] theorem farthest_append (b : RxBuf) (l l' : List RxRead) :
    farthest b (l ++ l') = max (farthest b l) (farthest b l') := by
  induction l with
  | nil => simp
  | cons r l ih =>
    show max _ (farthest b (l ++ l')) = _
    rw [ih, ← Nat.max_assoc]
    rfl

@[simp] theorem farthest_ite (b : RxBuf) (c : Prop) [Decidable c] (l l' : List RxRead) :
    farthest b (if c then l else l') = if c then farthest b l else farthest b l' := apply_ite (farthest b) c l l'

theorem within_iff_farthest (l : List RxRead) (n : RxBuf → Nat) :
    (∀ r ∈ l, r.span.Within (n r.buf)) ↔ ∀ b, farthest b l ≤ n b := by
  induction l with
  | nil => simp
  | cons r l ih =>
    rw [List.forall_mem_cons, ih, Span.within_iff]
    simp only [farthest, Nat.max_le, forall_and]
    apply and_congr_left
    intro _
    constructor
    · intro h b
      split
      · next hb =>
        rw [← hb.1]
        omega
      · exact Nat.zero_le _
    · intro h
      have hr := h r.buf
      by_cases hsize : 0 < r.span.size
      · rw [if_pos ⟨rfl, hsize⟩] at hr
        omega
      · omega

namespace RxMsg

def bytesAt (m : RxMsg) (b : RxBuf) (off n : Nat) : List UInt8 := (List.range n).map fun i => m.mem b (off + i)

def look (m : RxMsg) (b : RxBuf) (off n : Nat) : Looked (List UInt8) := ⟨m.bytesAt b off n, [⟨b, off, n⟩]⟩

/-- Where the frame begins in the buffer that `atbm_rx_cb` is given. -/
def frameOff (m : RxMsg) : Nat := if 20 ≤ m.skbLen then 20 else 0

/-- `skb->len` in `atbm_rx_cb` -/
def frameLen (m : RxMsg) : Nat := m.skbLen - m.frameOff

def lookFrame (m : RxMsg) (off n : Nat) : Looked (List UInt8) := m.look .skb (m.frameOff + off) n

end RxMsg

namespace Fc

def isProbeResp (fc : Nat) : Bool := fc &&& 0xFC == 0x50
def isBeacon (fc : Nat) : Bool := fc &&& 0xFC == 0x80
def isDisassoc (fc : Nat) : Bool := fc &&& 0xFC == 0xA0
def isPspoll (fc : Nat) : Bool := fc &&& 0xFC == 0xA4
def isDeauth (fc : Nat) : Bool := fc &&& 0xFC == 0xC0
def isAction (fc : Nat) : Bool := fc &&& 0xFC == 0xD0
def hasProtected (fc : Nat) : Bool := fc &&& 0x4000 != 0

end Fc

def publicCategories : List Nat := [4, 7, 11, 15, 20, 21, 127]

/-- What `wsm_receive_indication` makes of its fields. -/
structure WsmRx where
  status : Nat
  channelNumber : Nat
  rxedRate : Nat
  rcpiRssi : Nat
  flags : Nat
  channelType : Nat
  deriving DecidableEq, Repr

def WsmRx.encryption (rx : WsmRx) : Nat := rx.flags % 8

def aresA : Nat := 9

def aresB : Nat := 10

namespace Rx

variable (b : RxBuild) (m : RxMsg) (priv : RxVif) (rx : WsmRx)

def frameControl : Looked Nat := do
  let l ← m.lookFrame 0 2
  return ofBytes l

def isRobustMgmtFrame : Looked Bool :=
  if m.frameLen < b.minActionSize then return false
  else do
    let fc ← frameControl m
    if Fc.isDisassoc fc || Fc.isDeauth fc then return true
    else if Fc.isAction fc then
      if Fc.hasProtected fc then return true
      else do
        let category ← m.lookFrame 24 1
        return !publicCategories.contains (ofBytes category % 128)
    else return false

def da : Looked (List UInt8) := m.lookFrame (if priv.apType then 16 else 4) 6

def sa : Looked (List UInt8) := m.lookFrame (if priv.apType then 10 else 16) 6

/-- The log lines of a frame with an error, which print addresses unless the interface only listens. -/
def logError (withFc : Bool) : Looked Unit :=
  if priv.joinStatus = .staListen then return ()
  else do
    let _ ← da m priv
    let _ ← sa m priv
    if withFc then do
      let _ ← frameControl m
      return ()
    else return ()

/-- The look-up of the sender: true for a robust management frame of a station that protects its own. -/
def robustError : Looked Bool := do
  let addr2 ← m.lookFrame 10 6
  if priv.sta addr2 = some true then isRobustMgmtFrame b m else return false

/-- What becomes of a frame with an error, by its status: a MIC failure, no key, and the others. -/
def statusError : Looked Bool :=
  if rx.status = 5 then do
    logError m priv false
    return false
  else do
    logError m priv (rx.status ≠ 9)
    return decide (priv.joinStatus ≠ .ap)

/-- The part of `atbm_rx_cb` for a frame with an error: true if it is dropped. -/
def rxError : Looked Bool := do
  let da ← da m priv
  if da ≠ priv.addr ∧ priv.joinStatus ≠ .staListen then return true
  else do
    let robust ← robustError b m priv
    if robust then return true
    else statusError m priv rx

/-- `atbm_handle_pspoll`: what it does, and whether the frame is dropped -/
def handlePspoll : Looked (List RxAct × Bool) :=
  if priv.joinStatus ≠ .ap then return ([], true)
  else do
    let bssid ← m.lookFrame 4 6
    if priv.addr ≠ bssid then return ([], true)
    else do
      let ta ← m.lookFrame 10 6
      let linkId := priv.linkIdOf ta
      if linkId = 0 then return ([], true)
      else return ([.pspoll ta], priv.queuedFor linkId)

/-- The end of `atbm_rx_cb`; a frame of a group key loses its IV and ICV. -/
def rxDeliver (fc : Nat) : Looked (List RxAct) :=
  if priv.joinStatus = .simpleMonitor then return [.ieee80211Rx]
  else if rx.flags.testBit 29 then return [.specialFilter]
  else if rx.encryption ≠ 0 ∧ rx.flags.testBit 19 ∧ rx.status = 0 then
    -- TKIP has 8 and 12 bytes, AES 8 and 8, the others are unknown
    if rx.encryption ≠ 2 ∧ rx.encryption ≠ 3 then return []
    else if m.frameLen < b.hdrlen fc + 8 + (if rx.encryption = 2 then 12 else 8) then return []
    else do
      let _ ← m.lookFrame 0 (b.hdrlen fc)
      return [.ieee80211Rx]
  else return [.ieee80211Rx]

/-- The part of `atbm_rx_cb` after the errors. -/
def rxAccept : Looked (List RxAct) :=
  if m.frameLen < 16 then do
    let _seqCtrl ← m.lookFrame 22 2
    return []
  else do
    let fc ← frameControl m
    if Fc.isPspoll fc then do
      let (acts, drop) ← handlePspoll m priv
      if drop then return acts
      else do
        let acts' ← rxDeliver b m priv rx fc
        return acts ++ acts'
    else rxDeliver b m priv rx fc

def atbmRxCb : Looked (List RxAct) :=
  if priv.unspecified then do
    let _seqCtrl ← m.lookFrame 22 2
    return []
  else if rx.status ≠ 0 then do
    let drop ← rxError b m priv rx
    if drop then return []
    else rxAccept b m priv rx
  else rxAccept b m priv rx

def badRssi (h : RxHost) : Bool :=
  (decide (5 < (BitVec.ofNat 8 rx.rcpiRssi).toInt) && decide (aresB ≤ h.chipVersion)) ||
    (rx.rcpiRssi == 0 && decide (h.chipVersion ≤ aresB))

/-- Of the frames with a bad RSSI, beacons and probe responses are dropped. -/
def dropRssi (h : RxHost) : Looked Bool :=
  if badRssi rx h then do
    let fc ← m.look .wsm 20 2
    return Fc.isProbeResp (ofBytes fc) || Fc.isBeacon (ofBytes fc)
  else return false

/-- The interface of a frame; those of a scan have none of their own. -/
def rxIfId (h : RxHost) : Option Nat :=
  if m.linkId = 2 then (h.scanIf.or h.monitorIf).or h.staListenIf else some m.linkId

/-- `wsm_receive_indication`, once it has its fields -/
def receiveFrame (h : RxHost) : Looked (List RxAct) :=
  if h.etf then do
    let fctl ← m.look .wsm 20 2
    return if Fc.isProbeResp (ofBytes fctl) then [.etfScanRx rx.rcpiRssi] else []
  else
    match h.vifpriv (rxIfId m h) with
    | none => return []
    | some priv => do
      let dropped ← dropRssi m rx h
      if dropped then return []
      else do
        let _fctl ← m.look .wsm 20 2
        atbmRxCb b m priv rx

def wsmReceiveIndication (h : RxHost) : Parse RxAct Done :=
  if h.cbcRx then do
    let status ← .number 4
    let channelNumber ← .number 2
    let rxedRate ← .number 1
    let rcpiRssi ← .number 1
    let flags ← .number 4
    let channelType ← .number 4
    let r := receiveFrame b m ⟨status, channelNumber, rxedRate, rcpiRssi, flags, channelType⟩ h
    return { ret := 0, acts := r.val, reads := r.reads }
  else return { ret := 0 }

end Rx

namespace RxMsg

/-- The buffer up to byte `n` of the frame, none of it for `n = 0`. -/
def upTo (m : RxMsg) (n : Nat) : Nat := if n = 0 then 0 else m.frameOff + n

@[simp] theorem upTo_zero (m : RxMsg) : m.upTo 0 = 0 := rfl

theorem upTo_max (m : RxMsg) (n n' : Nat) : m.upTo (max n n') = max (m.upTo n) (m.upTo n') := by
  unfold upTo
  split <;> split <;> split <;> omega

def field (m : RxMsg) (off n : Nat) : List UInt8 := m.bytesAt .skb (m.frameOff + off) n

def fc (m : RxMsg) : Nat := ofBytes (m.field 0 2)

@[simp] theorem lookFrame_val (m : RxMsg) (off n : Nat) : (m.lookFrame off n).val = m.field off n := (rfl)

@[simp] theorem farthest_lookFrame (m : RxMsg) (off n : Nat) :
    farthest .skb (m.lookFrame off n).reads = m.upTo (if n = 0 then 0 else off + n) := by
  by_cases hn : n = 0
  · simp [lookFrame, look, farthest, hn]
  · simp [lookFrame, look, farthest, upTo, hn, Nat.pos_of_ne_zero hn, Nat.add_assoc]

@[simp] theorem farthest_wsm_lookFrame (m : RxMsg) (off n : Nat) : farthest .wsm (m.lookFrame off n).reads = 0 := by
  simp [lookFrame, look, farthest]

end RxMsg

namespace Rx

variable (b : RxBuild) (m : RxMsg) (priv : RxVif) (rx : WsmRx)

@[simp] theorem frameControl_val : (frameControl m).val = m.fc := (rfl)

@[simp] theorem farthest_frameControl : farthest .skb (frameControl m).reads = m.upTo 2 := by
  simp [frameControl]

/-- The station of `addr2` protects its management frames, and the frame is long enough to be one. -/
def checksRobust : Bool := priv.sta (m.field 10 6) == some true && decide (b.minActionSize ≤ m.frameLen)

def looksAtCategory : Bool := Fc.isAction m.fc && !Fc.hasProtected m.fc

def robust : Bool :=
  Fc.isDisassoc m.fc || Fc.isDeauth m.fc ||
    (Fc.isAction m.fc && (Fc.hasProtected m.fc || !publicCategories.contains (ofBytes (m.field 24 1) % 128)))

/-- `da` is of another host. -/
def misdirected : Bool :=
  m.field (if priv.apType then 16 else 4) 6 != priv.addr && priv.joinStatus != .staListen

def errorDrops : Bool :=
  misdirected m priv || (checksRobust b m priv && robust m) || (rx.status != 5 && priv.joinStatus != .ap)

def errorReach : Nat :=
  let toDa := if priv.apType then 22 else 10
  if misdirected m priv then toDa
  else max (max toDa (if checksRobust b m priv && looksAtCategory m then 25 else 16))
    (if checksRobust b m priv && robust m || priv.joinStatus == .staListen then 0 else 22)

def pspollDrops : Bool :=
  priv.joinStatus != .ap || priv.addr != m.field 4 6 || priv.linkIdOf (m.field 10 6) == 0 ||
    priv.queuedFor (priv.linkIdOf (m.field 10 6))

def pspollReach : Nat :=
  if priv.joinStatus ≠ .ap then 0
  else if priv.addr ≠ m.field 4 6 then 10
  else 16

def deliverReach : Nat :=
  if priv.joinStatus ≠ .simpleMonitor ∧ rx.flags.testBit 29 = false ∧ rx.flags.testBit 19 = true ∧ rx.status = 0 ∧
      (rx.encryption = 2 ∨ rx.encryption = 3) ∧
      b.hdrlen m.fc + 8 + (if rx.encryption = 2 then 12 else 8) ≤ m.frameLen then
    b.hdrlen m.fc
  else 0

def acceptReach : Nat :=
  if m.frameLen < 16 then 24
  else max (max 2 (if Fc.isPspoll m.fc then pspollReach m priv else 0))
    (if Fc.isPspoll m.fc && pspollDrops m priv then 0 else deliverReach b m priv rx)

/-- How far `atbm_rx_cb` looks at the frame. -/
def rxCbReach : Nat :=
  if priv.unspecified then 24
  else if rx.status ≠ 0 then
    max (errorReach b m priv) (if errorDrops b m priv rx then 0 else acceptReach b m priv rx)
  else acceptReach b m priv rx

theorem not_action {fc : Nat} (h : (Fc.isDisassoc fc || Fc.isDeauth fc) = true) : Fc.isAction fc = false := by
  simp only [Fc.isDisassoc, Fc.isDeauth, Fc.isAction, Bool.or_eq_true, beq_iff_eq] at h ⊢
  rcases h with h | h
  · rw [h]
    rfl
  · rw [h]
    rfl

theorem isRobustMgmtFrame_val : (isRobustMgmtFrame b m).val = (decide (b.minActionSize ≤ m.frameLen) && robust m) := by
  unfold isRobustMgmtFrame robust
  by_cases hlen : m.frameLen < b.minActionSize
  · rw [if_pos hlen, decide_eq_false (Nat.not_le.mpr hlen)]
    rfl
  · rw [if_neg hlen, decide_eq_true (Nat.not_lt.mp hlen)]
    simp only [Looked.bind_val, Looked.ite_val, frameControl_val, Looked.pure_val, RxMsg.lookFrame_val]
    cases Fc.isDisassoc m.fc || Fc.isDeauth m.fc <;> cases Fc.isAction m.fc <;> cases Fc.hasProtected m.fc <;> rfl

theorem isRobustMgmtFrame_reach (hlen : b.minActionSize ≤ m.frameLen) :
    farthest .skb (isRobustMgmtFrame b m).reads = m.upTo (if looksAtCategory m then 25 else 2) := by
  unfold isRobustMgmtFrame looksAtCategory
  rw [if_neg (Nat.not_lt.mpr hlen)]
  simp only [Looked.bind_reads, Looked.ite_reads, frameControl_val, Looked.pure_reads, farthest_append, farthest_ite,
    farthest_frameControl, farthest_nil, RxMsg.farthest_lookFrame]
  cases hd : Fc.isDisassoc m.fc || Fc.isDeauth m.fc with
  | true =>
    rw [not_action hd]
    simp
  | false =>
    cases Fc.isAction m.fc <;> cases Fc.hasProtected m.fc <;> simp [← RxMsg.upTo_max]

theorem logError_reach (withFc : Bool) :
    farthest .skb (logError m priv withFc).reads = m.upTo (if priv.joinStatus = .staListen then 0 else 22) := by
  unfold logError
  by_cases hl : priv.joinStatus = .staListen
  · simp [hl]
  · rw [if_neg hl, if_neg hl]
    cases withFc <;> cases hap : priv.apType <;> simp [da, sa, hap, ← RxMsg.upTo_max]

theorem statusError_val : (statusError m priv rx).val = (rx.status != 5 && priv.joinStatus != .ap) := by
  unfold statusError
  by_cases h5 : rx.status = 5
  · simp [h5]
  · simp [h5, bne, beq_eq_decide]

theorem statusError_reach :
    farthest .skb (statusError m priv rx).reads = m.upTo (if priv.joinStatus = .staListen then 0 else 22) := by
  unfold statusError
  by_cases h5 : rx.status = 5
  · simp [h5, logError_reach]
  · simp [h5, logError_reach]

theorem robustError_val : (robustError b m priv).val = (checksRobust b m priv && robust m) := by
  unfold robustError checksRobust
  simp only [Looked.bind_val, Looked.ite_val, RxMsg.lookFrame_val, Looked.pure_val, isRobustMgmtFrame_val]
  by_cases hs : priv.sta (m.field 10 6) = some true
  · simp [hs]
  · simp [hs]

theorem robustError_reach :
    farthest .skb (robustError b m priv).reads =
      m.upTo (if checksRobust b m priv && looksAtCategory m then 25 else 16) := by
  unfold robustError checksRobust
  simp only [Looked.bind_reads, Looked.ite_reads, RxMsg.lookFrame_val, farthest_append, farthest_ite,
    RxMsg.farthest_lookFrame, Looked.pure_reads, farthest_nil]
  by_cases hs : priv.sta (m.field 10 6) = some true
  · by_cases hlen : b.minActionSize ≤ m.frameLen
    · rw [if_pos hs, isRobustMgmtFrame_reach b m hlen, ← RxMsg.upTo_max]
      cases looksAtCategory m <;> simp [hs, hlen]
    · have hshort : isRobustMgmtFrame b m = pure false := if_pos (Nat.not_le.mp hlen)
      simp [hs, hlen, hshort]
  · simp [hs]

theorem da_reach : farthest .skb (da m priv).reads = m.upTo (if priv.apType then 22 else 10) := by
  cases hap : priv.apType <;> simp [da, hap]

theorem misdirected_iff : misdirected m priv = true ↔
    (da m priv).val ≠ priv.addr ∧ priv.joinStatus ≠ .staListen := by
  simp [misdirected, da]

theorem rxError_val : (rxError b m priv rx).val = errorDrops b m priv rx := by
  unfold rxError errorDrops
  rw [Looked.bind_val, Looked.ite_val]
  by_cases hm : misdirected m priv = true
  · rw [if_pos ((misdirected_iff m priv).mp hm), hm]
    rfl
  · rw [if_neg fun h => hm ((misdirected_iff m priv).mpr h), Looked.bind_val, Looked.ite_val, robustError_val,
      statusError_val, Bool.eq_false_of_not_eq_true hm]
    cases checksRobust b m priv && robust m <;> rfl

theorem rxError_reach : farthest .skb (rxError b m priv rx).reads = m.upTo (errorReach b m priv) := by
  unfold rxError errorReach
  rw [Looked.bind_reads, Looked.ite_reads, farthest_append, farthest_ite, da_reach]
  by_cases hm : misdirected m priv = true
  · rw [if_pos ((misdirected_iff m priv).mp hm), if_pos hm]
    simp
  · rw [if_neg fun h => hm ((misdirected_iff m priv).mpr h), if_neg hm, Looked.bind_reads, Looked.ite_reads,
      farthest_append, farthest_ite, robustError_reach, robustError_val, statusError_reach]
    simp only [RxMsg.upTo_max, Nat.max_assoc]
    congr 2
    cases checksRobust b m priv && robust m <;> simp

theorem handlePspoll_val : (handlePspoll m priv).val.2 = pspollDrops m priv := by
  unfold handlePspoll pspollDrops
  by_cases hap : priv.joinStatus = .ap
  · by_cases haddr : priv.addr = m.field 4 6
    · by_cases hlink : priv.linkIdOf (m.field 10 6) = 0
      · simp [hap, haddr, hlink]
      · simp [hap, haddr, hlink]
    · simp [hap, haddr]
  · simp [hap]

theorem handlePspoll_reach : farthest .skb (handlePspoll m priv).reads = m.upTo (pspollReach m priv) := by
  unfold handlePspoll pspollReach
  by_cases hap : priv.joinStatus = .ap
  · by_cases haddr : priv.addr = m.field 4 6
    · by_cases hlink : priv.linkIdOf (m.field 10 6) = 0
      · simp [hap, haddr, hlink, ← RxMsg.upTo_max]
      · simp [hap, haddr, hlink, ← RxMsg.upTo_max]
    · simp [hap, haddr]
  · simp [hap]

theorem rxDeliver_reach : farthest .skb (rxDeliver b m priv rx m.fc).reads = m.upTo (deliverReach b m priv rx) := by
  unfold rxDeliver deliverReach
  simp only [Looked.ite_reads, Looked.bind_reads, Looked.pure_reads, farthest_append, farthest_ite, farthest_nil,
    RxMsg.farthest_lookFrame, Nat.zero_add, Nat.max_zero]
  split_ifs <;> simp_all <;> omega

theorem rxAccept_reach : farthest .skb (rxAccept b m priv rx).reads = m.upTo (acceptReach b m priv rx) := by
  unfold rxAccept acceptReach
  by_cases hlen : m.frameLen < 16
  · simp [hlen]
  · rw [if_neg hlen, if_neg hlen, Looked.bind_reads, Looked.ite_reads, farthest_append, farthest_ite, frameControl_val,
      farthest_frameControl, rxDeliver_reach]
    cases hp : Fc.isPspoll m.fc with
    | false => simp [RxMsg.upTo_max]
    | true =>
      have hrest : farthest .skb (if (handlePspoll m priv).val.2 = true then
          (pure (handlePspoll m priv).val.1 : Looked (List RxAct))
          else do
            let acts' ← rxDeliver b m priv rx m.fc
            pure ((handlePspoll m priv).val.1 ++ acts')).reads =
          m.upTo (if pspollDrops m priv = true then 0 else deliverReach b m priv rx) := by
        rw [handlePspoll_val, Looked.ite_reads, farthest_ite]
        cases pspollDrops m priv with
        | false => simp [rxDeliver_reach]
        | true => simp
      rw [if_pos rfl, if_pos rfl, Looked.bind_reads, farthest_append, handlePspoll_reach, Bool.true_and, RxMsg.upTo_max,
        RxMsg.upTo_max, Nat.max_assoc, ← hrest]

theorem atbmRxCb_reach : farthest .skb (atbmRxCb b m priv rx).reads = m.upTo (rxCbReach b m priv rx) := by
  unfold atbmRxCb rxCbReach
  cases priv.unspecified with
  | true => simp
  | false =>
    rw [if_neg Bool.false_ne_true, if_neg Bool.false_ne_true]
    by_cases hs : rx.status = 0
    · rw [if_neg (not_not.mpr hs), if_neg (not_not.mpr hs), rxAccept_reach]
    · rw [if_pos hs, if_pos hs, Looked.bind_reads, Looked.ite_reads, farthest_append, farthest_ite, rxError_reach,
        rxError_val, rxAccept_reach, RxMsg.upTo_max]
      cases errorDrops b m priv rx <;> simp

theorem atbmRxCb_wsm : farthest .wsm (atbmRxCb b m priv rx).reads = 0 := by
  have herror : farthest .wsm (rxError b m priv rx).reads = 0 := by
    simp [rxError, robustError, isRobustMgmtFrame, statusError, logError, frameControl, da, sa]
  have hpspoll : farthest .wsm (handlePspoll m priv).reads = 0 := by simp [handlePspoll]
  have hdeliver : ∀ fc, farthest .wsm (rxDeliver b m priv rx fc).reads = 0 := fun fc => by simp [rxDeliver]
  have haccept : farthest .wsm (rxAccept b m priv rx).reads = 0 := by
    simp [rxAccept, frameControl, hpspoll, hdeliver]
  simp [atbmRxCb, herror, haccept]

def rssiDrops (h : RxHost) : Bool :=
  badRssi rx h && (Fc.isProbeResp (ofBytes (m.bytesAt .wsm 20 2)) || Fc.isBeacon (ofBytes (m.bytesAt .wsm 20 2)))

/-- How far `wsm_receive_indication` looks at a buffer, once it has its fields. -/
def receiveReach (h : RxHost) : RxBuf → Nat
  | .wsm => if h.etf || (h.vifpriv (rxIfId m h)).isSome then 22 else 0
  | .skb =>
    match h.vifpriv (rxIfId m h) with
    | none => 0
    | some priv => if h.etf || rssiDrops m rx h then 0 else m.upTo (rxCbReach b m priv rx)

theorem dropRssi_val (h : RxHost) : (dropRssi m rx h).val = rssiDrops m rx h := by
  unfold dropRssi rssiDrops
  cases badRssi rx h <;> rfl

theorem farthest_look_wsm (off n : Nat) (hn : 0 < n) : farthest .wsm (m.look .wsm off n).reads = off + n := by
  simp [RxMsg.look, farthest, hn]

theorem farthest_look_skb (off n : Nat) : farthest .skb (m.look .wsm off n).reads = 0 := by
  simp [RxMsg.look, farthest]

/-- **How far the message and the frame are looked at** behind the checked fields. -/
theorem receiveFrame_looks (h : RxHost) (buf : RxBuf) :
    farthest buf (receiveFrame b m rx h).reads = receiveReach b m rx h buf := by
  unfold receiveFrame receiveReach
  cases hetf : h.etf with
  | true =>
    cases buf with
    | wsm => simp [farthest_look_wsm]
    | skb =>
      cases h.vifpriv (rxIfId m h) <;> simp [farthest_look_skb]
  | false =>
    cases h.vifpriv (rxIfId m h) with
    | none => cases buf <;> simp
    | some priv =>
      cases buf with
      | wsm =>
        simp only [Option.isSome_some, Bool.or_true, if_true, Bool.false_eq_true, if_false, Looked.bind_reads,
          Looked.ite_reads, farthest_append, farthest_ite, dropRssi_val, atbmRxCb_wsm, Looked.pure_reads, farthest_nil]
        rw [farthest_look_wsm m 20 2 (by omega)]
        -- a frame that is dropped for its RSSI was looked at for that
        unfold dropRssi rssiDrops
        cases badRssi rx h with
        | false => simp
        | true =>
          rw [if_pos rfl, Looked.bind_reads, farthest_append, farthest_look_wsm m 20 2 (by omega)]
          simp only [Looked.pure_reads, farthest_nil]
          split <;> rfl
      | skb =>
        have hdrop : farthest .skb (dropRssi m rx h).reads = 0 := by
          unfold dropRssi
          cases badRssi rx h <;> simp [farthest_look_skb]
        simp [dropRssi_val, hdrop, atbmRxCb_reach, farthest_look_skb]

end Rx

end AtbmWifi
