import AtbmWifi.Bh.MultiRx
import AtbmWifi.Bh.RxHandover

/-!
# A received URB, from its completion to the frames in it (USB)

`atbm_usb_receive_data_complete` settles the length of what an URB brought and queues the skb;
`atbm_process_ieee80211_frame` and `atbm_rx_multi_rx` take it apart.  The build is the one without
`CONFIG_USB_URB_RX_SUBMIT_DIRECTLY`, `callback_handler` is `NULL` (but for the driver's own URB test), and
`suspend_skb_len` is 0: nothing sets it.
-/

namespace AtbmWifi

open Wire

inductive UrbStatus
  | ok
  /-- `-ENOENT`, `-ECONNRESET`, `-ENODEV`, `-ESHUTDOWN` -/
  | gone
  /-- `-EPROTO` -/
  | proto
  /-- `-EOVERFLOW` -/
  | overflow
  | other
  deriving DecidableEq, Repr

structure UrbEnv where
  status : UrbStatus
  /-- `hw_priv` and `test_skb` are there -/
  core : Bool
  testSkb : Bool
  firmwareReady : Bool
  initDone : Bool
  bhError : Bool
  /-- the tasklet finds the driver going, and frees the skb -/
  term : Bool
  /-- `atbm_rx_serial` of the message -/
  serialOk : Bool
  /-- of the frames in it, and whether an skb is obtained for each -/
  subSerialOk : Nat → Bool
  alloc : Nat → Bool

structure UrbRx where
  spans : List Span
  /-- `RecvLength`, once it has passed the tests -/
  accepted : Option Nat
  /-- calls of `atbm_usb_urb_put` -/
  puts : Nat
  halts : Nat
  inUrb : Bool
  queued : Bool
  /-- on `rx_frame_free` -/
  recycled : Nat
  freed : Nat
  bug : Bool
  deriving DecidableEq, Repr

def rxBufferSize : Nat := 16 * 1024

namespace UrbStatus

def isErr : UrbStatus → Bool
  | proto | overflow => true
  | _ => false

/-- The `switch` lets the completion go on with `n` bytes. -/
def goesOn (n : Nat) : UrbStatus → Bool
  | ok => true
  | proto | overflow => n != 0
  | _ => false

end UrbStatus

/-- The device sent a byte more than `wsm->len`, so that the URB completes. -/
def paddedLen (len recv : Nat) : Bool := len % 512 == 0 && len + 1 == recv

/-- `RecvLength` and `urb->actual_length` are replaced by `wsm->len`. -/
def correctsLen (status : UrbStatus) (len n : Nat) : Bool :=
  !status.isErr && n != 0 && len != n && !paddedLen len n

def reportWalk (f : BusFrame) : Nat → Nat → Int → Option (List Span)
  | 0, _, _ => none
  | fuel + 1, off, left =>
    if left > 0 then (reportWalk f fuel (off + f.len off) (left - f.len off)).map (⟨off, 4⟩ :: ·) else some []

namespace UrbRx

def start (testSkb : Bool) : UrbRx := ⟨[], none, 0, 0, testSkb, false, 0, 0, false⟩

def reads (l : List Span) (r : UrbRx) : UrbRx := { r with spans := r.spans ++ l }

/-- `atbm_usb_urb_put`: the labels `__free` and `resubmit` come to this. -/
def urbPut (r : UrbRx) : UrbRx := { r with puts := r.puts + 1 }

/-- From the test `4 > RecvLength` on. -/
def submit (e : UrbEnv) (recv : Nat) (r : UrbRx) : UrbRx :=
  if 4 > recv then r.urbPut
  else
    let r := { r with accepted := some recv }
    if recv > rxBufferSize then { r with bug := true }
    else if !e.initDone || e.bhError then r.urbPut
    else { r.urbPut with inUrb := false, queued := true }

def atbmUsbReceiveDataComplete (fuel : Nat) (e : UrbEnv) (f : BusFrame) : Option UrbRx :=
  let n := f.bytes.length
  let r := start e.testSkb
  if !e.core || !e.testSkb || !e.status.goesOn n then some r.urbPut
  else
    let len := f.len 0
    let corrects := correctsLen e.status len n
    let recv := if corrects then len else n
    let r := r.reads (⟨0, 2⟩ :: if corrects then [⟨2, 2⟩] else [])
    if len = recv then some (r.submit e recv)
    else if !e.firmwareReady then some r.urbPut
    else if paddedLen len recv then some (r.submit e recv)
    else if recv > rxBufferSize ∨ len < recv then
      (reportWalk f fuel 0 recv).map fun l => ({ r.reads l with halts := r.halts + 1 }).submit e recv
    else some (({ r with halts := r.halts + 1 }).submit e recv)

end UrbRx

/-- The loop of `atbm_rx_multi_rx`; it stops at a `BUG_ON`. -/
def usbSubRx (serialCheck : Bool) (e : UrbEnv) (f : BusFrame) : RecordWalk Unit where
  len := f.len
  stride := rxStride
  head := 4
  least := 32
  visit i off :=
    if stripLinkId (f.id off) ≠ 0x0804#16 then ⟨[], some ()⟩
    else if serialCheck && !e.subSerialOk i then ⟨[], none⟩
    else if !e.alloc i then ⟨[], none⟩
    else ⟨[⟨off, f.len off⟩], none⟩

/-- `atbm_rx_multi_rx`: what it reads, and whether a `BUG_ON` fired. -/
def atbmRxMultiRx (serialCheck : Bool) (e : UrbEnv) (f : BusFrame) : Option (List Span × Bool) :=
  ((usbSubRx serialCheck e f).run 256 0 8 f.dataLen f.announced).map fun r =>
    (⟨4, 1⟩ :: ⟨0, 2⟩ :: ⟨8, 4⟩ :: r.spans, r.ending == .stopped ())

def atbmProcessIeee80211Frame (e : UrbEnv) (f : BusFrame) : Option (List Span × Bool) :=
  let rest :=
    if f.id 0 = 0x0811#16 then atbmRxMultiRx true e f
    else if f.id 0 = 0x0813#16 then if !e.serialOk then some ([], false) else atbmRxMultiRx false e f
    else if atbmRxNeedAllocSkb (f.id 0) then
      if !e.serialOk || !e.alloc 0 then some ([], false) else some ([⟨0, f.len 0⟩], false)
    else some ([], false)
  rest.map fun p => (⟨0, 4⟩ :: p.1, p.2)

namespace UrbRx

def tasklet (e : UrbEnv) (f : BusFrame) (r : UrbRx) : Option UrbRx :=
  if !r.queued then some r
  else if e.term then some { r with queued := false, freed := r.freed + 1 }
  else (atbmProcessIeee80211Frame e f).map fun p =>
    { r.reads p.1 with queued := false, recycled := r.recycled + 1, bug := r.bug || p.2 }

def path (fuel : Nat) (e : UrbEnv) (f : BusFrame) : Option UrbRx :=
  (atbmUsbReceiveDataComplete fuel e f).bind (tasklet e f)

def owners (r : UrbRx) : Nat := r.inUrb.toNat + r.queued.toNat + r.recycled + r.freed

/-- **What is wanted of the path**: all reads within what was received, no longer length accepted, the URB given back
once, the skb in one place, no `BUG_ON`. -/
structure Total (e : UrbEnv) (f : BusFrame) (r : UrbRx) : Prop where
  inside : ∀ s ∈ r.spans, s.Within f.bytes.length
  accepted : ∀ n ∈ r.accepted, n ≤ f.bytes.length
  put : r.puts = 1
  owner : e.testSkb = true → r.owners = 1
  bug : r.bug = false

end UrbRx

namespace BusFrame

/-- The offsets the report comes to: each message ends where its length says. -/
def reportAt (f : BusFrame) : Nat → Nat
  | 0 => 0
  | k + 1 => f.reportAt k + f.len (f.reportAt k)

/-- No message of the report is empty, and the header of each has been received. -/
def Reports (f : BusFrame) : Prop :=
  ∀ k, f.reportAt k < f.bytes.length → 0 < f.len (f.reportAt k) ∧ f.reportAt k + 4 ≤ f.bytes.length

end BusFrame

section
variable {f : BusFrame}

theorem header_within {a : Nat} : (Span.mk a 4).Within f.bytes.length ↔ a + 4 ≤ f.bytes.length :=
  Span.within_of_pos (by decide)

theorem reportAt_succ (k : Nat) : f.reportAt (k + 1) = f.reportAt k + f.len (f.reportAt k) := rfl

theorem reportAt_mono {j k : Nat} (h : j ≤ k) : f.reportAt j ≤ f.reportAt k := by
  induction h with
  | refl => exact Nat.le_refl _
  | step _ ih =>
    rw [reportAt_succ]
    exact ih.trans (Nat.le_add_right _ _)

theorem reportWalk_succ {fuel k : Nat} (hlt : f.reportAt k < f.bytes.length) :
    reportWalk f (fuel + 1) (f.reportAt k) (f.bytes.length - f.reportAt k) =
      (reportWalk f fuel (f.reportAt (k + 1)) (f.bytes.length - f.reportAt (k + 1))).map (⟨f.reportAt k, 4⟩ :: ·) := by
  have hnext : (f.bytes.length : Int) - f.reportAt k - f.len (f.reportAt k) =
      f.bytes.length - (f.reportAt (k + 1) : Nat) := by
    rw [reportAt_succ]
    omega
  show (if _ then Option.map _ _ else _) = _
  rw [if_pos (by omega), hnext]
  rfl

theorem reportWalk_inside {fuel j k : Nat} {l : List Span}
    (hl : reportWalk f fuel (f.reportAt k) (f.bytes.length - f.reportAt k) = some l)
    (hs : ∀ s ∈ l, s.Within f.bytes.length) (hj : k ≤ j) (hlt : f.reportAt j < f.bytes.length) :
    0 < f.len (f.reportAt j) ∧ f.reportAt j + 4 ≤ f.bytes.length := by
  induction fuel generalizing k l j with
  | zero => cases hl
  | succ fuel ih =>
    rw [reportWalk_succ (Nat.lt_of_le_of_lt (reportAt_mono hj) hlt)] at hl
    obtain ⟨l', hl', rfl⟩ := Option.map_eq_some_iff.mp hl
    obtain ⟨hhead, htail⟩ := List.forall_mem_cons.mp hs
    rcases Nat.eq_or_lt_of_le hj with rfl | hlt'
    · refine ⟨Nat.pos_of_ne_zero fun hz => ?_, header_within.mp hhead⟩
      -- an empty message stays where it is, and the walk has one step less
      have hstay : f.reportAt (k + 1) = f.reportAt k := by rw [reportAt_succ, hz, Nat.add_zero]
      have hpos := (ih hl' htail (Nat.le_refl (k + 1)) (by rwa [hstay])).1
      rw [hstay, hz] at hpos
      exact absurd hpos (Nat.lt_irrefl 0)
    · exact ih hl' htail hlt' hlt

theorem reportWalk_ends (h : f.Reports) {fuel k : Nat} (hfuel : f.bytes.length ≤ fuel + f.reportAt k) :
    ∃ l, reportWalk f (fuel + 1) (f.reportAt k) (f.bytes.length - f.reportAt k) = some l ∧
      ∀ s ∈ l, s.Within f.bytes.length := by
  induction fuel generalizing k with
  | zero =>
    refine ⟨[], ?_, nofun⟩
    unfold reportWalk
    exact if_neg (by omega)
  | succ fuel ih =>
    by_cases hlt : f.reportAt k < f.bytes.length
    · obtain ⟨hpos, hhead⟩ := h k hlt
      have hnext : f.bytes.length ≤ fuel + f.reportAt (k + 1) := by
        rw [reportAt_succ]
        omega
      obtain ⟨l, hl, hs⟩ := ih hnext
      rw [reportWalk_succ hlt, hl]
      exact ⟨_, rfl, List.forall_mem_cons.mpr ⟨header_within.mpr hhead, hs⟩⟩
    · refine ⟨[], ?_, nofun⟩
      unfold reportWalk
      exact if_neg (by omega)

/-- **The walk of the report ends inside what was received iff no message in it is empty and each has its header.** -/
theorem reports_iff : (∃ fuel l, reportWalk f fuel 0 f.bytes.length = some l ∧ ∀ s ∈ l, s.Within f.bytes.length) ↔
    f.Reports := by
  have hzero : (f.bytes.length : Int) = f.bytes.length - (f.reportAt 0 : Nat) := (Int.sub_zero _).symm
  rw [hzero]
  constructor
  · rintro ⟨fuel, l, hl, hs⟩ k hk
    exact reportWalk_inside (k := 0) hl hs (Nat.zero_le k) hk
  · intro h
    obtain ⟨l, hl, hs⟩ := reportWalk_ends h (k := 0) (Nat.le_refl f.bytes.length)
    exact ⟨_, l, hl, hs⟩

end

section
variable (serialCheck : Bool) (e : UrbEnv) (f : BusFrame)

/-- What is asked of a frame the loop of `atbm_rx_multi_rx` comes to, if it is not longer than the rest. -/
structure SubInside (k : Nat) : Prop where
  id : stripLinkId (f.id ((usbSubRx serialCheck e f).start 8 k)) = 0x0804#16
  copied : (serialCheck = true → e.subSerialOk k = true) → e.alloc k = true →
    (Span.mk ((usbSubRx serialCheck e f).start 8 k) (f.len ((usbSubRx serialCheck e f).start 8 k))).Within f.bytes.length
  /-- the header behind it, be it the last -/
  next : (usbSubRx serialCheck e f).start 8 (k + 1) + 4 ≤ f.bytes.length

/-- A message of several frames is laid out as `atbm_rx_multi_rx` reads it. -/
structure MultiInside : Prop where
  head : 12 ≤ f.bytes.length
  frames : ∀ k, (usbSubRx serialCheck e f).Reached 8 f.dataLen f.announced k →
    (usbSubRx serialCheck e f).Fits 8 f.dataLen k → SubInside serialCheck e f k

variable {serialCheck e f}

theorem usbSubRx_stop (k : Nat) : (usbSubRx serialCheck e f).stop 8 k = none ↔
    stripLinkId (f.id ((usbSubRx serialCheck e f).start 8 k)) = 0x0804#16 := by
  show (if _ then _ else if _ then _ else if _ then _ else _ : Visit Unit).stop = none ↔ _
  split
  · next h => exact iff_of_false nofun h
  · next h =>
    refine iff_of_true ?_ (not_not.mp h)
    split
    · rfl
    · split <;> rfl

theorem usbSubRx_spans {k : Nat} (hid : stripLinkId (f.id ((usbSubRx serialCheck e f).start 8 k)) = 0x0804#16)
    (P : Span → Prop) : (∀ s ∈ ((usbSubRx serialCheck e f).visit k ((usbSubRx serialCheck e f).start 8 k)).spans, P s) ↔
      ((serialCheck = true → e.subSerialOk k = true) → e.alloc k = true →
        P ⟨(usbSubRx serialCheck e f).start 8 k, f.len ((usbSubRx serialCheck e f).start 8 k)⟩) := by
  have hvisit : (usbSubRx serialCheck e f).visit k ((usbSubRx serialCheck e f).start 8 k) =
      if serialCheck && !e.subSerialOk k then ⟨[], none⟩
      else if !e.alloc k then ⟨[], none⟩
      else ⟨[⟨(usbSubRx serialCheck e f).start 8 k, f.len ((usbSubRx serialCheck e f).start 8 k)⟩], none⟩ :=
    if_neg fun h => h hid
  rw [hvisit]
  split
  · next hc =>
    refine iff_of_true nofun fun h => ?_
    rw [Bool.and_eq_true, Bool.not_eq_true'] at hc
    cases hc.2.symm.trans (h hc.1)
  · next hc =>
    have hserial : serialCheck = true → e.subSerialOk k = true := by
      intro h
      by_contra hn
      exact hc (by rw [h, Bool.eq_false_of_not_eq_true hn]; rfl)
    rw [imp_iff_right hserial]
    split
    · next ha =>
      refine iff_of_true nofun fun h => ?_
      rw [h] at ha
      cases ha
    · next ha =>
      have halloc : e.alloc k = true := by
        cases he : e.alloc k with
        | true => rfl
        | false => exact absurd (congrArg not he) ha
      rw [imp_iff_right halloc, List.forall_mem_singleton]

theorem usb_sound_iff (k : Nat) : (usbSubRx serialCheck e f).Sound 8 f.dataLen f.announced
    (Span.Within f.bytes.length) (· ≠ .stopped ()) k ↔
      ((usbSubRx serialCheck e f).Fits 8 f.dataLen k → SubInside serialCheck e f k) := by
  constructor
  · intro h hf
    have hid : stripLinkId (f.id ((usbSubRx serialCheck e f).start 8 k)) = 0x0804#16 := by
      rw [← usbSubRx_stop]
      cases hs : (usbSubRx serialCheck e f).stop 8 k with
      | none => rfl
      | some u => exact absurd rfl (h.stopped hf u hs)
    exact ⟨hid, (usbSubRx_spans hid _).mp (h.spans hf), header_within.mp (h.head hf ((usbSubRx_stop k).mpr hid))⟩
  · intro h
    refine ⟨fun _ => nofun, fun hf => (usbSubRx_spans (h hf).id _).mpr (h hf).copied, fun hf r hs => ?_,
      fun hf _ => header_within.mpr (h hf).next, fun _ _ _ => nofun⟩
    cases hs.symm.trans ((usbSubRx_stop k).mpr (h hf).id)

theorem multi_inside_iff (serialCheck : Bool) (e : UrbEnv) (f : BusFrame) :
    ∃ p, atbmRxMultiRx serialCheck e f = some p ∧
      (((∀ s ∈ p.1, s.Within f.bytes.length) ∧ p.2 = false) ↔ MultiInside serialCheck e f) := by
  obtain ⟨r, hr, hiff⟩ := (usbSubRx serialCheck e f).run_iff 8 f.dataLen f.announced
    (Span.Within f.bytes.length) (· ≠ .stopped ()) (by decide) f.announced_le
  unfold atbmRxMultiRx
  rw [hr]
  refine ⟨_, rfl, ?_⟩
  rw [beq_eq_false_iff_ne]
  simp only [List.forall_mem_cons]
  constructor
  · rintro ⟨⟨-, -, h8, hs⟩, hend⟩
    refine ⟨(Span.within_of_pos (by decide)).mp h8, fun k hk => (usb_sound_iff k).mp (hiff.mp ⟨hs, hend⟩ k hk)⟩
  · rintro ⟨hhead, hframes⟩
    obtain ⟨hs, hend⟩ := hiff.mpr fun k hk => (usb_sound_iff k).mpr (hframes k hk)
    exact ⟨⟨(Span.within_of_pos (by decide)).mpr (by omega), (Span.within_of_pos (by decide)).mpr (by omega),
      (Span.within_of_pos (by decide)).mpr hhead, hs⟩, hend⟩

structure FramesInside (e : UrbEnv) (f : BusFrame) : Prop where
  multi : f.id 0 = 0x0811#16 → MultiInside true e f
  singleChannel : f.id 0 = 0x0813#16 → e.serialOk = true → MultiInside false e f
  single : atbmRxNeedAllocSkb (f.id 0) = true → e.serialOk = true → e.alloc 0 = true →
    (Span.mk 0 (f.len 0)).Within f.bytes.length

theorem frames_inside_iff (e : UrbEnv) (f : BusFrame) : ∃ p, atbmProcessIeee80211Frame e f = some p ∧
    (((∀ s ∈ p.1, s.Within f.bytes.length) ∧ p.2 = false) ↔ 4 ≤ f.bytes.length ∧ FramesInside e f) := by
  have hhead : (Span.mk 0 4).Within f.bytes.length ↔ 4 ≤ f.bytes.length := by
    rw [header_within, Nat.zero_add]
  have hmap : ∀ {o : Option (List Span × Bool)} {C : Prop}, (∃ p, o = some p ∧
      (((∀ s ∈ p.1, s.Within f.bytes.length) ∧ p.2 = false) ↔ C)) →
      ∃ p, (o.map fun p => ((⟨0, 4⟩ : Span) :: p.1, p.2)) = some p ∧
        (((∀ s ∈ p.1, s.Within f.bytes.length) ∧ p.2 = false) ↔ 4 ≤ f.bytes.length ∧ C) := by
    rintro o C ⟨p, rfl, hp⟩
    refine ⟨_, rfl, ?_⟩
    rw [List.forall_mem_cons, hhead, and_assoc, hp]
  have hquiet : ∀ {C : Prop}, C → ∃ p, (some ([], false) : Option (List Span × Bool)) = some p ∧
      (((∀ s ∈ p.1, s.Within f.bytes.length) ∧ p.2 = false) ↔ C) :=
    fun hC => ⟨_, rfl, iff_of_true ⟨nofun, rfl⟩ hC⟩
  unfold atbmProcessIeee80211Frame
  refine hmap ?_
  split
  · next h1 =>
    obtain ⟨p, hp, hiff⟩ := multi_inside_iff true e f
    refine ⟨p, hp, hiff.trans ⟨fun h => ⟨fun _ => h, fun h3 => ?_, fun hs => ?_⟩, fun h => h.multi h1⟩⟩
    · exact absurd (h1.symm.trans h3) (by decide)
    · rw [h1] at hs
      exact absurd hs (by decide)
  · next h1 =>
    split
    · next h3 =>
      have hs : atbmRxNeedAllocSkb (f.id 0) ≠ true := by
        rw [h3]
        decide
      cases hser : e.serialOk with
      | false => exact hquiet ⟨fun h => absurd h h1, fun _ h => absurd (hser.symm.trans h) Bool.false_ne_true,
          fun h => absurd h hs⟩
      | true =>
        obtain ⟨p, hp, hiff⟩ := multi_inside_iff false e f
        refine ⟨p, hp, hiff.trans ⟨fun h => ⟨fun h' => absurd h' h1, fun _ _ => h, fun h' => absurd h' hs⟩, fun h => ?_⟩⟩
        exact h.singleChannel h3 hser
    · next h3 =>
      split
      · next hs =>
        split
        · next hq =>
          refine hquiet ⟨fun h => absurd h h1, fun h => absurd h h3, fun _ hser hall => ?_⟩
          rw [hser, hall] at hq
          cases hq
        · next hq =>
          refine ⟨_, rfl, ?_⟩
          have hser : e.serialOk = true := by
            by_contra hn
            exact hq (by rw [Bool.eq_false_of_not_eq_true hn]; rfl)
          have hall : e.alloc 0 = true := by
            by_contra hn
            exact hq (by rw [Bool.eq_false_of_not_eq_true hn, Bool.not_false, Bool.or_true])
          rw [List.forall_mem_singleton, and_iff_left rfl]
          exact ⟨fun h => ⟨fun h' => absurd h' h1, fun h' => absurd h' h3, fun _ _ _ => h⟩,
            fun h => h.single hs hser hall⟩
      · next hs => exact hquiet ⟨fun h => absurd h h1, fun h => absurd h h3, fun h => absurd h hs⟩

end

section
variable (e : UrbEnv) (f : BusFrame)

def Looks : Prop := e.core = true ∧ e.testSkb = true ∧ e.status.goesOn f.bytes.length = true

/-- `RecvLength` after the correction. -/
def recvLen : Nat := if correctsLen e.status (f.len 0) f.bytes.length then f.len 0 else f.bytes.length

structure Submits : Prop where
  long : 4 ≤ recvLen e f
  agrees : f.len 0 = recvLen e f ∨ e.firmwareReady = true
  initDone : e.initDone = true
  noError : e.bhError = false

/-- **What is asked of the bytes of an URB the completion looks at.** -/
structure WellReceived : Prop where
  head : 2 ≤ f.bytes.length
  /-- a length that is corrected is corrected downwards -/
  corrected : correctsLen e.status (f.len 0) f.bytes.length = true →
    4 ≤ f.bytes.length ∧ f.len 0 ≤ f.bytes.length
  /-- an URB with an error that holds more than its first message -/
  reported : f.len 0 < recvLen e f → paddedLen (f.len 0) (recvLen e f) = false → e.firmwareReady = true → f.Reports
  frames : Submits e f → e.term = false → FramesInside e f

end

namespace UrbRx

section
variable {e : UrbEnv} {f : BusFrame}

/-- The skb is still in its URB, and nothing has been given back. -/
structure Fresh (r : UrbRx) : Prop where
  puts : r.puts = 0
  inUrb : r.inUrb = true
  queued : r.queued = false
  recycled : r.recycled = 0
  freed : r.freed = 0
  bug : r.bug = false

theorem put_total {r : UrbRx} (h : Fresh r) : ∃ t, tasklet e f r.urbPut = some t ∧
    (t.Total e f ↔ (∀ s ∈ r.spans, s.Within f.bytes.length) ∧ ∀ n ∈ r.accepted, n ≤ f.bytes.length) := by
  have hq : r.urbPut.queued = false := h.queued
  unfold tasklet
  rw [hq]
  refine ⟨_, rfl, fun ht => ⟨ht.inside, ht.accepted⟩, fun ht => ⟨ht.1, ht.2, ?_, fun _ => ?_, h.bug⟩⟩
  · show r.puts + 1 = 1
    rw [h.puts]
  · show r.inUrb.toNat + r.queued.toNat + r.recycled + r.freed = 1
    rw [h.inUrb, h.queued, h.recycled, h.freed]
    rfl

theorem queue_total {r : UrbRx} (h : Fresh r) : ∃ t,
    tasklet e f { r.urbPut with inUrb := false, queued := true } = some t ∧
    (t.Total e f ↔ ((∀ s ∈ r.spans, s.Within f.bytes.length) ∧ ∀ n ∈ r.accepted, n ≤ f.bytes.length) ∧
      (e.term = false → 4 ≤ f.bytes.length ∧ FramesInside e f)) := by
  have hput : r.puts + 1 = 1 := by rw [h.puts]
  unfold tasklet
  dsimp only
  rw [Bool.not_true, if_neg Bool.false_ne_true]
  cases e.term with
  | true =>
    rw [if_pos rfl]
    refine ⟨_, rfl, fun ht => ⟨⟨ht.inside, ht.accepted⟩, fun hf => absurd hf Bool.false_ne_true.symm⟩,
      fun ht => ⟨ht.1.1, ht.1.2, hput, fun _ => ?_, h.bug⟩⟩
    show false.toNat + false.toNat + r.recycled + (r.freed + 1) = 1
    rw [h.recycled, h.freed]
    rfl
  | false =>
    rw [if_neg Bool.false_ne_true]
    obtain ⟨p, hp, hiff⟩ := frames_inside_iff e f
    rw [hp, imp_iff_right rfl, ← hiff]
    refine ⟨_, rfl, fun ht => ?_, fun ht => ⟨?_, ht.1.2, hput, fun _ => ?_, ?_⟩⟩
    · have hs := List.forall_mem_append.mp ht.inside
      have hb : (r.bug || p.2) = false := ht.bug
      rw [h.bug, Bool.false_or] at hb
      exact ⟨⟨hs.1, ht.accepted⟩, hs.2, hb⟩
    · exact List.forall_mem_append.mpr ⟨ht.1.1, ht.2.1⟩
    · show false.toNat + false.toNat + (r.recycled + 1) + r.freed = 1
      rw [h.recycled, h.freed]
      rfl
    · show (r.bug || p.2) = false
      rw [h.bug, ht.2.2]
      rfl

theorem submit_total {r : UrbRx} (h : Fresh r) (ha : r.accepted = none) (recv : Nat)
    (hn : f.bytes.length ≤ rxBufferSize) : ∃ t, tasklet e f (r.submit e recv) = some t ∧ (t.Total e f ↔
      (∀ s ∈ r.spans, s.Within f.bytes.length) ∧ (4 ≤ recv → recv ≤ f.bytes.length ∧
        (e.initDone = true → e.bhError = false → e.term = false → FramesInside e f))) := by
  unfold submit
  split
  · next hlt =>
    obtain ⟨t, ht, hiff⟩ := put_total (e := e) (f := f) h
    refine ⟨t, ht, hiff.trans (and_congr_right fun _ => iff_of_true (fun n hn => ?_) fun h4 => ?_)⟩
    · cases ha.symm.trans hn
    · exact absurd h4 (Nat.not_le.mpr hlt)
  · next hlt =>
    have h4 : 4 ≤ recv := Nat.le_of_not_lt hlt
    have hf : Fresh { r with accepted := some recv } := ⟨h.puts, h.inUrb, h.queued, h.recycled, h.freed, h.bug⟩
    have hacc : (∀ n ∈ some recv, n ≤ f.bytes.length) ↔ recv ≤ f.bytes.length :=
      ⟨fun h => h recv rfl, fun h n hn => Option.some.inj hn ▸ h⟩
    rw [imp_iff_right h4]
    dsimp only
    split
    · next hbug =>
      unfold tasklet
      dsimp only
      rw [h.queued]
      refine ⟨_, rfl, iff_of_false (fun ht => ?_) fun ht => ?_⟩
      · exact absurd ht.bug Bool.false_ne_true.symm
      · exact absurd (ht.2.1.trans hn) (Nat.not_le.mpr hbug)
    · split
      · next hdrop =>
        obtain ⟨t, ht, hiff⟩ := put_total (e := e) (f := f) hf
        refine ⟨t, ht, hiff.trans (and_congr_right fun _ => hacc.trans (and_iff_left fun hi hb => ?_).symm)⟩
        rw [hi, hb] at hdrop
        exact absurd hdrop Bool.false_ne_true
      · next hgo =>
        obtain ⟨t, ht, hiff⟩ := queue_total (e := e) (f := f) hf
        have hi : e.initDone = true := by
          by_contra hc
          exact hgo (by rw [Bool.eq_false_of_not_eq_true hc]; rfl)
        have hb : e.bhError = false := by
          by_contra hc
          exact hgo (by rw [Bool.eq_true_of_not_eq_false hc, Bool.or_true])
        refine ⟨t, ht, hiff.trans ?_⟩
        rw [imp_iff_right hi, imp_iff_right hb, and_assoc]
        refine and_congr_right fun _ => (and_congr_left' hacc).trans (and_congr_right fun hle => ?_)
        exact forall_congr' fun _ => and_iff_right (h4.trans hle)

def looked (e : UrbEnv) (f : BusFrame) : UrbRx :=
  (start e.testSkb).reads (⟨0, 2⟩ :: if correctsLen e.status (f.len 0) f.bytes.length then [⟨2, 2⟩] else [])

theorem complete_eq (fuel : Nat) (hl : Looks e f) : atbmUsbReceiveDataComplete fuel e f =
    if f.len 0 = recvLen e f then some ((looked e f).submit e (recvLen e f))
    else if !e.firmwareReady then some (looked e f).urbPut
    else if paddedLen (f.len 0) (recvLen e f) then some ((looked e f).submit e (recvLen e f))
    else if recvLen e f > rxBufferSize ∨ f.len 0 < recvLen e f then
      (reportWalk f fuel 0 (recvLen e f)).map fun l =>
        ({ (looked e f).reads l with halts := (looked e f).halts + 1 }).submit e (recvLen e f)
    else some (({ looked e f with halts := (looked e f).halts + 1 }).submit e (recvLen e f)) := by
  have hgo : (!e.core || !e.testSkb || !e.status.goesOn f.bytes.length) = false := by
    rw [hl.1, hl.2.1, hl.2.2]
    rfl
  unfold atbmUsbReceiveDataComplete
  dsimp only
  rw [hgo, if_neg Bool.false_ne_true]
  rfl

theorem looked_fresh (hl : Looks e f) : Fresh (looked e f) :=
  ⟨rfl, hl.2.1, rfl, rfl, rfl, rfl⟩

theorem looked_inside : (∀ s ∈ (looked e f).spans, s.Within f.bytes.length) ↔
    2 ≤ f.bytes.length ∧ (correctsLen e.status (f.len 0) f.bytes.length = true → 4 ≤ f.bytes.length) := by
  simp only [looked, reads, start, List.nil_append]
  have h2 : ∀ a, (Span.mk a 2).Within f.bytes.length ↔ a + 2 ≤ f.bytes.length :=
    fun a => Span.within_iff.trans (or_iff_right (Nat.succ_ne_zero 1))
  rw [List.forall_mem_cons, h2, Nat.zero_add]
  refine and_congr_right fun _ => ?_
  cases correctsLen e.status (f.len 0) f.bytes.length with
  | true => rw [if_pos rfl, List.forall_mem_singleton, h2, imp_iff_right rfl]
  | false => exact iff_of_true nofun nofun

/-- What the tests of the length let through, and what is asked of it then. -/
def LetThrough (e : UrbEnv) (f : BusFrame) : Prop :=
  4 ≤ recvLen e f → recvLen e f ≤ f.bytes.length ∧
    (e.initDone = true → e.bhError = false → e.term = false → FramesInside e f)

theorem wellReceived_iff : WellReceived e f ↔
    (2 ≤ f.bytes.length ∧ (correctsLen e.status (f.len 0) f.bytes.length = true → 4 ≤ f.bytes.length)) ∧
      (f.len 0 < recvLen e f → paddedLen (f.len 0) (recvLen e f) = false → e.firmwareReady = true → f.Reports) ∧
      (f.len 0 = recvLen e f ∨ e.firmwareReady = true → LetThrough e f) := by
  have hrecv : recvLen e f = if correctsLen e.status (f.len 0) f.bytes.length then f.len 0 else f.bytes.length := rfl
  constructor
  · intro h
    refine ⟨⟨h.head, fun hc => (h.corrected hc).1⟩, h.reported, fun ha h4 => ⟨?_, fun hi hb ht => ?_⟩⟩
    · rw [hrecv]
      split
      · next hc => exact (h.corrected hc).2
      · exact Nat.le_refl _
    · exact h.frames ⟨h4, ha, hi, hb⟩ ht
  · rintro ⟨⟨h2, h4⟩, hr, hl⟩
    refine ⟨h2, fun hc => ⟨h4 hc, ?_⟩, hr, fun hs ht => (hl hs.agrees hs.long).2 hs.initDone hs.noError ht⟩
    rw [if_pos hc] at hrecv
    by_cases hlong : 4 ≤ recvLen e f
    · have hle := (hl (.inl hrecv.symm) hlong).1
      rwa [hrecv] at hle
    · have := h4 hc
      omega

theorem path_fixed {r : UrbRx} {C : Prop} (hr : ∀ fuel, atbmUsbReceiveDataComplete fuel e f = some r)
    (ht : ∃ t, tasklet e f r = some t ∧ (t.Total e f ↔ C)) :
    (∃ fuel r, path fuel e f = some r ∧ r.Total e f) ↔ C := by
  obtain ⟨t, ht, hiff⟩ := ht
  have hpath : ∀ fuel, path fuel e f = some t := fun fuel => by
    unfold path
    rw [hr fuel]
    exact ht
  constructor
  · rintro ⟨fuel, r', hr', htot⟩
    cases (hpath fuel).symm.trans hr'
    exact hiff.mp htot
  · exact fun hC => ⟨0, t, hpath 0, hiff.mpr hC⟩

theorem path_walked (hhalt : ∀ l, Fresh { (looked e f).reads l with halts := (looked e f).halts + 1 })
    (hn : f.bytes.length ≤ rxBufferSize) (hrecv : recvLen e f = f.bytes.length)
    (hr : ∀ fuel, atbmUsbReceiveDataComplete fuel e f = (reportWalk f fuel 0 (recvLen e f)).map fun l =>
      ({ (looked e f).reads l with halts := (looked e f).halts + 1 }).submit e (recvLen e f)) :
    (∃ fuel r, path fuel e f = some r ∧ r.Total e f) ↔
      (∀ s ∈ (looked e f).spans, s.Within f.bytes.length) ∧ f.Reports ∧ LetThrough e f := by
  have hrep : (∃ fuel l, reportWalk f fuel 0 (recvLen e f) = some l ∧ ∀ s ∈ l, s.Within f.bytes.length) ↔
      f.Reports := by
    rw [hrecv]
    exact reports_iff
  rw [← hrep]
  have htot := fun l => submit_total (e := e) (hhalt l) rfl (recvLen e f) hn
  constructor
  · rintro ⟨fuel, r, hpath, ht⟩
    unfold path at hpath
    rw [hr fuel] at hpath
    cases hw : reportWalk f fuel 0 (recvLen e f) with
    | none =>
      rw [hw] at hpath
      cases hpath
    | some l =>
      rw [hw] at hpath
      obtain ⟨t, ht', hiff⟩ := htot l
      cases ht'.symm.trans hpath
      obtain ⟨hs, hlet⟩ := hiff.mp ht
      obtain ⟨hs1, hs2⟩ := List.forall_mem_append.mp hs
      exact ⟨hs1, ⟨fuel, l, hw, hs2⟩, hlet⟩
  · rintro ⟨hs1, ⟨fuel, l, hw, hs2⟩, hlet⟩
    obtain ⟨t, ht, hiff⟩ := htot l
    refine ⟨fuel, t, ?_, hiff.mpr ⟨List.forall_mem_append.mpr ⟨hs1, hs2⟩, hlet⟩⟩
    unfold path
    rw [hr fuel, hw]
    exact ht

theorem looks_total_iff (hl : Looks e f) (hn : f.bytes.length ≤ rxBufferSize) :
    (∃ fuel r, path fuel e f = some r ∧ r.Total e f) ↔ WellReceived e f := by
  rw [wellReceived_iff, ← looked_inside]
  have hfresh := looked_fresh hl
  by_cases hsame : f.len 0 = recvLen e f
  · have hc : ∀ fuel, atbmUsbReceiveDataComplete fuel e f = some ((looked e f).submit e (recvLen e f)) := fun fuel => by
      rw [complete_eq fuel hl, if_pos hsame]
    refine (path_fixed hc (submit_total hfresh rfl (recvLen e f) hn)).trans (and_congr_right fun _ => ?_)
    rw [imp_iff_right (Or.inl hsame : f.len 0 = recvLen e f ∨ e.firmwareReady = true)]
    exact (and_iff_right fun hlt => absurd hsame (Nat.ne_of_lt hlt)).symm
  · have hrecv : recvLen e f = f.bytes.length := by
      unfold recvLen at hsame ⊢
      split at hsame
      · exact absurd rfl hsame
      · next hc => rw [if_neg hc]
    cases hfw : e.firmwareReady with
    | false =>
      have hc : ∀ fuel, atbmUsbReceiveDataComplete fuel e f = some (looked e f).urbPut := fun fuel => by
        rw [complete_eq fuel hl, if_neg hsame, hfw, Bool.not_false, if_pos rfl]
      refine (path_fixed hc (put_total hfresh)).trans (and_congr_right fun _ => iff_of_true nofun ⟨fun _ _ => nofun, ?_⟩)
      rintro (h | h)
      · exact absurd h hsame
      · cases h
    | true =>
      rw [imp_iff_right (Or.inr rfl : f.len 0 = recvLen e f ∨ true = true)]
      cases hpad : paddedLen (f.len 0) (recvLen e f) with
      | true =>
        have hc : ∀ fuel, atbmUsbReceiveDataComplete fuel e f = some ((looked e f).submit e (recvLen e f)) :=
          fun fuel => by
            rw [complete_eq fuel hl, if_neg hsame, hfw, Bool.not_true, if_neg Bool.false_ne_true, hpad, if_pos rfl]
        refine (path_fixed hc (submit_total hfresh rfl (recvLen e f) hn)).trans (and_congr_right fun _ => ?_)
        exact (and_iff_right fun _ h => absurd h Bool.false_ne_true.symm).symm
      | false =>
        have hbig : ¬ recvLen e f > rxBufferSize := by
          rw [hrecv]
          exact Nat.not_lt.mpr hn
        have hc : ∀ fuel, atbmUsbReceiveDataComplete fuel e f =
            if f.len 0 < recvLen e f then (reportWalk f fuel 0 (recvLen e f)).map fun l =>
              ({ (looked e f).reads l with halts := (looked e f).halts + 1 }).submit e (recvLen e f)
            else some (({ looked e f with halts := (looked e f).halts + 1 }).submit e (recvLen e f)) := fun fuel => by
          rw [complete_eq fuel hl, if_neg hsame, hfw, Bool.not_true, if_neg Bool.false_ne_true, hpad,
            if_neg Bool.false_ne_true]
          simp only [hbig, false_or]
        by_cases hlt : f.len 0 < recvLen e f
        · rw [imp_iff_right hlt, imp_iff_right rfl, imp_iff_right rfl]
          refine path_walked (fun _ => ?_) hn hrecv fun fuel => (hc fuel).trans (if_pos hlt)
          exact ⟨hfresh.puts, hfresh.inUrb, hfresh.queued, hfresh.recycled, hfresh.freed, hfresh.bug⟩
        · have hh : Fresh { looked e f with halts := (looked e f).halts + 1 } :=
            ⟨hfresh.puts, hfresh.inUrb, hfresh.queued, hfresh.recycled, hfresh.freed, hfresh.bug⟩
          refine (path_fixed (fun fuel => (hc fuel).trans (if_neg hlt)) (submit_total hh rfl (recvLen e f) hn)).trans
            (and_congr_right fun _ => ?_)
          exact (and_iff_right fun h => absurd h hlt).symm

end

end UrbRx

open UrbRx

/-- **Whatever the device sends: the path of an URB is as wanted iff the completion does not look at the bytes or
they are well received.** -/
theorem usb_rx_total_iff (e : UrbEnv) (f : BusFrame) (hn : f.bytes.length ≤ rxBufferSize) :
    (∃ fuel r, path fuel e f = some r ∧ r.Total e f) ↔ (Looks e f → WellReceived e f) := by
  by_cases hl : Looks e f
  · rw [imp_iff_right hl]
    exact looks_total_iff hl hn
  · refine iff_of_true ⟨0, (start e.testSkb).urbPut, ?_, nofun, nofun, rfl, fun hs => ?_, rfl⟩ fun h => absurd h hl
    · have hstop : (!e.core || !e.testSkb || !e.status.goesOn f.bytes.length) = true := by
        by_contra hgo
        simp only [Bool.not_eq_true, Bool.or_eq_false_iff, Bool.not_eq_false'] at hgo
        exact hl ⟨hgo.1.1, hgo.1.2, hgo.2⟩
      unfold path atbmUsbReceiveDataComplete
      dsimp only
      rw [hstop, if_pos rfl]
      rfl
    · show e.testSkb.toNat + false.toNat + 0 + 0 = 1
      rw [hs]
      rfl

def sampleUrb (status : UrbStatus) : UrbEnv :=
  ⟨status, true, true, true, true, false, false, true, fun _ => true, fun _ => true⟩

theorem usb_rx_total_frame : WellReceived (sampleUrb .ok) (oneFrameRx 56 1 56) := by
  refine (usb_rx_total_iff (sampleUrb .ok) (oneFrameRx 56 1 56) (by decide)).mp ?_ ⟨rfl, rfl, rfl⟩
  exact ⟨0, _, rfl, by decide +kernel, by decide +kernel, by decide +kernel, fun _ => by decide +kernel,
    by decide +kernel⟩

theorem reportWalk_stuck {f : BusFrame} {off : Nat} {left : Int} (h0 : f.len off = 0) (hleft : 0 < left) (fuel : Nat) :
    reportWalk f fuel off left = none := by
  induction fuel with
  | zero => rfl
  | succ fuel ih =>
    unfold reportWalk
    rw [if_pos hleft, h0, Nat.add_zero, Int.natCast_zero, Int.sub_zero, ih]
    rfl

/-- An inner frame of another kind, `WSM_SET_PM_INDICATION_ID`. -/
def otherInside : BusFrame where
  bytes := [56, 0, 0x11, 0x08, 1, 0, 0, 0, 4, 0, 0x09, 0x08] ++ List.replicate 44 0
  behind := fun _ => 0

def emptyMessage : BusFrame := ⟨List.replicate 8 0, fun _ => 0⟩

/-- **60 bytes received under a header that says 100**: 100 are accepted.  An inner frame that is none: `BUG_ON`.  An
URB with `-EPROTO` whose message is empty: the report never ends. -/
theorem usb_rx_not_total :
    (∃ r, path 0 (sampleUrb .ok) (oneFrameRx 100 1 60) = some r ∧ r.accepted = some 100) ∧
    (∃ r, path 0 (sampleUrb .ok) otherInside = some r ∧ r.bug = true) ∧
    ∀ fuel, path fuel (sampleUrb .proto) emptyMessage = none := by
  refine ⟨⟨_, rfl, by decide +kernel⟩, ⟨_, rfl, by decide +kernel⟩, fun fuel => ?_⟩
  have hlooks : Looks (sampleUrb .proto) emptyMessage := ⟨rfl, rfl, by decide⟩
  have hrecv : recvLen (sampleUrb .proto) emptyMessage = 8 := by decide
  have hlen : emptyMessage.len 0 = 0 := by decide
  unfold path
  rw [complete_eq fuel hlooks, hrecv, hlen, reportWalk_stuck hlen (by decide) fuel]
  rfl

end AtbmWifi
