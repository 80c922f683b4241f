import AtbmWifi.Lib.Transition

/-!
# The receive path of the SDIO bus

The interrupt thread reads messages in `atbm_irq_handler` and enqueues them; the receive thread takes the
queue in `atbm_sdio_rx_bh`, and reads itself: there, and before it sleeps, when it calls the handler for an
interrupt that was missed.  All reading is done under the lock of the host, which one thread holds at a time:
`host` is that thread with the locals of `atbm_sdio_process_read_data`.  The queue has a lock of its own.

Messages are numbered as they are read.  `hard_irq` is false: the handler runs in a thread
(`CONFIG_SDIO_IRQ_THREAD_PROCESS_DATA`).
-/

namespace AtbmWifi

open Transition

/-- Who holds the host. -/
inductive SdioReader
  /-- the interrupt thread, in `atbm_irq_handler` -/
  | irq
  /-- the receive thread, in `atbm_sdio_irq_period` -/
  | period
  /-- in `atbm_sdio_rx_pre_sched` -/
  | preSched
  /-- in `atbm_sdio_rx_bh` -/
  | rxBh
  deriving DecidableEq, Repr

inductive SdioHostPc
  /-- the lock has been taken -/
  | enter
  /-- the caller of `atbm_sdio_process_read_data` reads the control register -/
  | ctrl
  /-- `__atbm_irq_enable(1)` -/
  | enable
  /-- `atbm_irq_handler` -/
  | handler
  /-- the labels of `atbm_sdio_process_read_data` -/
  | rxCheck
  | rxContinue
  /-- a message has been read -/
  | gotData
  | rxHandle
  /-- it is on the queue; what `bh_running` and the length of the queue were -/
  | submitted (running full : Bool)
  /-- `atbm_sdio_process_read_data` has returned; `none`: -1 -/
  | returned (cnt : Option (BitVec 8))
  /-- `triger_rx` -/
  | trigerRx
  /-- before the unlock; `again`: the result of `period_handle` and `pre_sched` -/
  | leave (again : Bool)
  deriving DecidableEq, Repr

structure SdioHost where
  reader : SdioReader
  pc : SdioHostPc
  /-- the message of `skb_rx` -/
  skbRx : Option Nat
  ctrlReg : BitVec 16
  rxContinueCnt : BitVec 8
  deriving DecidableEq, Repr

inductive SdioIrqPc
  | idle
  | locked
  /-- `schedule_timeout_interruptible` after an overflow -/
  | nap
  deriving DecidableEq, Repr

inductive SdioRxPc
  /-- the head of the loop of `atbm_sdio_wait_action`; `expired`: `period == 0` -/
  | wake (expired : Bool)
  /-- `atbm_sdio_rx_bh` -/
  | start
  | process
  /-- before the lock of the host -/
  | want (reader : SdioReader)
  | locked (reader : SdioReader)
  | nap (reader : SdioReader)
  | recheck
  | sleep
  deriving DecidableEq, Repr

structure SdioRx where
  rxFrameQueue : List Nat
  localList : List Nat
  bhRunning : Bool
  /-- `THREAD_WAKEUP` of the receive thread -/
  wakeup : Bool
  /-- `pre_sched` has been set by `post_sched` -/
  preSched : Bool
  irqEnabled : Bool
  initDone : Bool
  bhThread : Bool
  bhError : Bool
  bhTerm : Bool
  pluged : Bool
  bhHalt : Nat
  host : Option SdioHost
  irq : SdioIrqPc
  rx : SdioRxPc
  /-- history: messages read, passed to `atbm_rx_directly`, and freed, with whether the bus was terminating -/
  reads : Nat
  passed : List Nat
  freed : List (Nat × Bool)
  /-- history: the control register has not been read since a read sequence was cut short by the overflow limit -/
  cut : Bool
  deriving DecidableEq, Repr

def atbmMaxOverflowSize : Nat := 64

def effectiveBufSize : Nat := (0x4000 - 4) * 2 - 2

/-- The length of the next message in bytes, from the control register. -/
def nextReadLen (ctrl : BitVec 16) : Nat :=
  let lsb := (ctrl &&& 0x0FFF#16).toNat * 2
  let msb := (ctrl &&& 0xC000#16).toNat * 2
  msb / 4 + lsb

/-- What the length is refused for; a `struct wsm_hdr` has four bytes. -/
def invalidReadLen (ctrl : BitVec 16) : Bool :=
  decide (nextReadLen ctrl < 4) || decide (effectiveBufSize < nextReadLen ctrl)

/-- `ATBM_HIFREG_CONT_NEXT_LEN_MASK` -/
def announcesData (ctrl : BitVec 16) : Bool := ctrl &&& 0xCFFF#16 != 0#16

/-- What the bus answers: whether the control register is read, an skb allocated and the message read, and the
register as it is read or comes with the message. -/
structure SdioBus where
  ctrlOk : Bool
  allocOk : Bool
  dataOk : Bool
  reg : BitVec 16
  deriving DecidableEq, Repr

namespace SdioRx

def isTerm (s : SdioRx) : Bool := !s.bhThread || s.bhError || !s.pluged

/-- `atbm_bh_is_term(hw_priv) || atomic_read(&hw_priv->bh_term)` -/
def terminating (s : SdioRx) : Bool := s.isTerm || s.bhTerm

def atbmBhHalt (s : SdioRx) : SdioRx :=
  { s with bhHalt := s.bhHalt + 1, pluged := if s.bhHalt = 0 then false else s.pluged }

def atbmSdioRevSchedule (s : SdioRx) : SdioRx := { s with wakeup := true }

def freeSkb (k : Nat) (s : SdioRx) : SdioRx := { s with freed := s.freed ++ [(k, s.terminating)] }

def hostAt (h : SdioHost) (s : SdioRx) : SdioRx := { s with host := some h }

def readErr (h : SdioHost) (s : SdioRx) : SdioRx :=
  match h.skbRx with
  | some k => (s.freeSkb k).hostAt { h with pc := .returned none }
  | none => s.hostAt { h with pc := .returned none }

/-- `atbm_sdio_submit_skb`, and `atbm_sdio_submit_skb_in_thread`, under the lock of the queue -/
def submitSkb (h : SdioHost) (s : SdioRx) : SdioRx :=
  match h.skbRx with
  | some k =>
    let full := decide (atbmMaxOverflowSize ≤ s.rxFrameQueue.length + 1)
    { s with rxFrameQueue := s.rxFrameQueue ++ [k] }.hostAt { h with pc := .submitted s.bhRunning full }
  | none => s

/-- The rest of `atbm_sdio_submit_skb` and `atbm_sdio_submit_skb_in_thread`, up to the return or the next round. -/
def submitted (h : SdioHost) (running full : Bool) (s : SdioRx) : SdioRx :=
  let inThread := h.reader == .rxBh
  let s' := if inThread || running then s else s.atbmSdioRevSchedule
  if full && (inThread || !running) then
    { s' with cut := true }.hostAt { h with pc := .returned (some h.rxContinueCnt) }
  else s'.hostAt { h with pc := if nextReadLen h.ctrlReg = 0 then .rxCheck else .rxContinue }

def processReadData (h : SdioHost) (s : SdioRx) : SdioRx :=
  s.hostAt { h with pc := .rxCheck, skbRx := none, rxContinueCnt := 0#8 }

def unlocked (h : SdioHost) (again : Bool) (s : SdioRx) : SdioRx :=
  match h.reader with
  | .irq => { s with host := none, irq := .idle }
  | .period =>
    let next := if again then .wake false else if s.preSched then .want .preSched else .sleep
    { s with host := none, rx := next }
  | .preSched => { s with host := none, rx := if again then .wake false else .sleep }
  | .rxBh => { s with host := none, rx := .recheck }

/-- `schedule_timeout_interruptible` of the handler -/
def napped (h : SdioHost) (s : SdioRx) : SdioRx :=
  match h.reader with
  | .irq => { s with host := none, irq := .nap }
  | r => { s with host := none, rx := .nap r }

/-- What `atbm_sdio_miss_irq` and the interrupt go on to when `atbm_irq_handler` has returned. -/
def handlerDone (h : SdioHost) (s : SdioRx) : SdioRx := s.hostAt { h with pc := .leave true }

def hostStep (b : SdioBus) (h : SdioHost) (s : SdioRx) : SdioRx :=
  match h.pc with
  | .enter =>
    match h.reader with
    | .irq => s.hostAt { h with pc := .handler }
    | .period =>
      if s.isTerm then s.hostAt { h with pc := .leave false }
      else if s.wakeup then s.hostAt { h with pc := .leave true }
      else s.hostAt { h with pc := .ctrl }
    | .preSched => s.hostAt { h with pc := if s.isTerm then .leave false else .ctrl }
    | .rxBh => s.hostAt { h with pc := .ctrl }
  | .ctrl =>
    let s' := { s with cut := false }
    match h.reader, announcesData b.reg with
    | .rxBh, true => s'.processReadData h
    | .rxBh, false => s'.hostAt { h with pc := .leave false }
    | _, true => s'.hostAt { h with pc := .handler }
    | .preSched, false => s'.hostAt { h with pc := .enable }
    | _, false => s'.hostAt { h with pc := .leave false }
  | .enable => { s with irqEnabled := true }.hostAt { h with pc := .leave false }
  | .handler =>
    if !s.initDone || s.isTerm then s.handlerDone h
    else { s with irqEnabled := false }.processReadData h
  | .rxCheck =>
    let s' := { s with cut := false }
    if b.ctrlOk then s'.hostAt { h with pc := .rxContinue, ctrlReg := b.reg } else s'.readErr h
  | .rxContinue =>
    if nextReadLen h.ctrlReg = 0 then s.hostAt { h with pc := .returned (some h.rxContinueCnt) }
    else if invalidReadLen h.ctrlReg then s.atbmBhHalt.readErr h
    else if !b.allocOk then s.hostAt { h with pc := .returned none, skbRx := none }
    -- the skb that is freed holds no message
    else if !b.dataOk then s.atbmBhHalt.hostAt { h with pc := .returned none, skbRx := none }
    else { s with reads := s.reads + 1 }.hostAt { h with pc := .gotData, skbRx := some s.reads, ctrlReg := b.reg }
  | .gotData =>
    if s.terminating then s.readErr h
    else s.hostAt { h with pc := .rxHandle, rxContinueCnt := h.rxContinueCnt + 1#8 }
  | .rxHandle => s.submitSkb h
  | .submitted running full => s.submitted h running full
  | .returned cnt =>
    match h.reader, cnt with
    | .rxBh, _ => s.hostAt { h with pc := .leave false }
    | _, none => s.handlerDone h
    | _, some n =>
      if n = 0#8 then s.hostAt { h with pc := .trigerRx }
      else if atbmMaxOverflowSize ≤ n.toNat then s.napped h
      else s.handlerDone h
  | .trigerRx => s.atbmSdioRevSchedule.handlerDone h
  | .leave again => s.unlocked h again

/-- `atbm_skb_queue_splice_tail_init` -/
def splice (s : SdioRx) : SdioRx :=
  { s with rxFrameQueue := [], localList := s.localList ++ s.rxFrameQueue, rx := .process }

def hold (r : SdioReader) (pc : SdioHostPc) (s : SdioRx) : SdioRx :=
  { s with rx := .locked r }.hostAt ⟨r, pc, none, 0#16, 0#8⟩

/-- A step of the receive thread outside the lock of the host; `expired`: the wait took its whole time. -/
def rxStep (expired : Bool) (s : SdioRx) : SdioRx :=
  match s.rx with
  | .wake expired =>
    if s.wakeup then { s with wakeup := false, preSched := true, rx := .start }
    else if expired then { s with rx := .want .period }
    else { s with rx := if s.preSched then .want .preSched else .sleep }
  | .start => { s with bhRunning := true }.splice
  | .process =>
    match s.localList with
    | [] => { s with rx := .want .rxBh }
    | k :: l =>
      if s.terminating then { s with localList := l }.freeSkb k
      else { s with localList := l, passed := s.passed ++ [k] }
  | .want r => s.hold r .enter
  | .nap r => s.hold r .rxCheck
  | .recheck => if s.rxFrameQueue = [] then { s with bhRunning := false, rx := .wake false } else s.splice
  | .sleep => { s with rx := .wake expired }
  | .locked _ => s

/-- The interrupt thread outside the lock of the host: it comes to the handler, or back from its nap. -/
def irqStep (s : SdioRx) : SdioRx :=
  let pc := if s.irq = .nap then .rxCheck else .enter
  { s with irq := .locked }.hostAt ⟨.irq, pc, none, 0#16, 0#8⟩

end SdioRx

inductive SdioRxAct
  | host (b : SdioBus)
  | rx (expired : Bool)
  | irq
  /-- the bus thread comes and goes, `bh_error`, `bh_term`, the device is plugged, the driver is ready -/
  | flags (bhThread bhError bhTerm pluged initDone : Bool) (bhHalt : Nat)
  deriving DecidableEq, Repr

namespace SdioRxAct

def Enabled (s : SdioRx) : SdioRxAct → Prop
  | host _ => s.host.isSome = true
  | rx _ =>
    match s.rx with
    | .locked _ => False
    | .want _ | .nap _ => s.host = none
    | _ => True
  | irq => s.irq ≠ .locked ∧ s.host = none
  | flags .. => True

def next (s : SdioRx) : SdioRxAct → SdioRx
  | host b =>
    match s.host with
    | some h => s.hostStep b h
    | none => s
  | rx expired => s.rxStep expired
  | irq => s.irqStep
  | flags bhThread bhError bhTerm pluged initDone bhHalt =>
    { s with bhThread, bhError, bhTerm, pluged, initDone, bhHalt }

instance decEnabled (s : SdioRx) (a : SdioRxAct) : Decidable (a.Enabled s) := by
  unfold Enabled
  split
  · infer_instance
  · split <;> infer_instance
  · infer_instance
  · infer_instance

end SdioRxAct

/-- The receive thread has been created, the interrupt is subscribed. -/
def sdioRxStart : SdioRx :=
  { rxFrameQueue := [], localList := [], bhRunning := false, wakeup := false, preSched := false, irqEnabled := true
    initDone := true, bhThread := true, bhError := false, bhTerm := false, pluged := true, bhHalt := 0, host := none
    irq := .idle, rx := .wake false, reads := 0, passed := [], freed := [], cut := false }

def sdioReceiving : Sys SdioRx SdioRxAct :=
  .ofNext (fun s => s = sdioRxStart) (fun s a => a.Enabled s) SdioRxAct.next

end AtbmWifi
