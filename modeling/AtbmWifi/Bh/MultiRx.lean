import AtbmWifi.Lib.RecordWalk
import AtbmWifi.Wsm.HandleRx

/-!
# Frames received in one message

`atbm_rx_tasklet` of SDIO takes a message of `WSM_MULTI_RECEIVE_INDICATION_ID` or
`WSM_SINGLE_CHANNEL_MULTI_RECEIVE_INDICATION_ID` apart: it copies each frame behind the `struct wsm_multi_rx` and
passes it to `wsm_handle_rx`.

* `multi_rx_inside_iff`: what it touches lies in what was received, the statistics stay in their array and the
  frames are as many as announced, iff the message is laid out so.
-/

namespace AtbmWifi

open Wire

/-- What the calls answer for the `i`th frame, at an offset: the skb of the copy, and `wsm_handle_rx`. -/
structure SubRxEnv where
  alloc : Nat → Bool
  ret : Nat → Nat → Int

inductive SubRxStop
  /-- `BUG_ON(atbm_skb_copy == NULL)` -/
  | noSkb
  | failed (ret : Int)
  deriving DecidableEq, Repr

/-- The loop of `atbm_rx_tasklet`. -/
def sdioSubRx (e : SubRxEnv) (f : BusFrame) : RecordWalk SubRxStop where
  len := f.len
  stride := rxStride
  head := 4
  least := 32
  visit i off :=
    if !e.alloc i then ⟨[], some .noSkb⟩
    else ⟨[⟨off, f.len off⟩], if e.ret i off ≠ 0 then some (.failed (e.ret i off)) else none⟩

/-- `RxFrameNum` -/
def BusFrame.announced (f : BusFrame) : Int := (f.mem 4).toNat

theorem BusFrame.announced_le (f : BusFrame) : f.announced ≤ (256 : Nat) := by
  have := (f.mem 4).toNat_lt
  unfold announced
  omega

/-- `data_len` before the first frame -/
def BusFrame.dataLen (f : BusFrame) : Int := (f.len 0 : Int) - 8

/-- What `atbm_rx_tasklet` touches of the message, the index into `rxMutiCnt`, and how the loop ends. -/
structure MultiRxRun where
  spans : List Span
  counter : Nat
  ending : WalkEnd SubRxStop
  deriving DecidableEq, Repr

/-- The branch of `atbm_rx_tasklet` for the two messages: the outer header, `RxFrameNum`, the first inner header and
the loop. -/
def atbmRxTaskletMulti (e : SubRxEnv) (f : BusFrame) : Option MultiRxRun :=
  ((sdioSubRx e f).run 256 0 8 f.dataLen f.announced).map fun r =>
    ⟨⟨0, 4⟩ :: ⟨4, 1⟩ :: ⟨8, 4⟩ :: r.spans, (f.len 0 + 1023) / 1024, r.ending⟩

/-- `BUG_ON(RxFrameNum != 0)` -/
def miscounted : WalkEnd SubRxStop → Bool
  | .cut num | .out num => num != 0
  | .stopped _ => false

/-- **All that is touched lies in what was received, and no count is wrong.** -/
structure MultiRxRun.InBuffer (f : BusFrame) (r : MultiRxRun) : Prop where
  spans : ∀ s ∈ r.spans, s.Within f.bytes.length
  counter : r.counter < 17
  count : miscounted r.ending = false

section
variable (e : SubRxEnv) (f : BusFrame)

/-- The offset of the `k`th frame: 8 bytes, and a stride for each frame before. -/
def BusFrame.frameAt (k : Nat) : Nat := (sdioSubRx e f).start 8 k

/-- The loop comes to the `k`th frame: those before fit, are taken, and leave more than 32 bytes. -/
def BusFrame.Comes (k : Nat) : Prop := (sdioSubRx e f).Reached 8 f.dataLen f.announced k

def BusFrame.FrameFits (k : Nat) : Prop := (sdioSubRx e f).Fits 8 f.dataLen k

/-- The copy is made and `wsm_handle_rx` returns 0. -/
def BusFrame.Taken (k : Nat) : Prop := e.alloc k = true ∧ e.ret k (f.frameAt e k) = 0

structure BusFrame.LaidOut (k : Nat) : Prop where
  /-- it is not longer than the rest of the message, or none was announced -/
  fits : f.FrameFits e k ∨ f.announced = k
  copied : f.FrameFits e k → e.alloc k = true → (Span.mk (f.frameAt e k) (f.len (f.frameAt e k))).Within f.bytes.length
  /-- the header behind a frame that is taken, be it the last -/
  next : f.FrameFits e k → f.Taken e k → f.frameAt e (k + 1) + 4 ≤ f.bytes.length
  /-- it is the last one announced, or more than 32 bytes are left -/
  counted : f.FrameFits e k → f.Taken e k → f.announced = k + 1 ∨
    (k : Int) + 1 < f.announced ∧ 32 < (sdioSubRx e f).rest 8 f.dataLen (k + 1)

structure BusFrame.MultiLaidOut : Prop where
  size : f.len 0 ≤ 16 * 1024
  head : 12 ≤ f.bytes.length
  frames : ∀ k, f.Comes e k → f.LaidOut e k

variable {e f}

theorem sdioSubRx_stop (k : Nat) : (sdioSubRx e f).stop 8 k = none ↔ f.Taken e k := by
  unfold RecordWalk.stop BusFrame.Taken
  show ((if !e.alloc k then _ else _ : Visit SubRxStop)).stop = none ↔ _
  cases e.alloc k with
  | false => exact iff_of_false nofun fun h => Bool.false_ne_true h.1
  | true =>
    show (if e.ret k (f.frameAt e k) ≠ 0 then some (SubRxStop.failed _) else none) = none ↔ _
    by_cases hr : e.ret k (f.frameAt e k) = 0
    · rw [if_neg (not_not.mpr hr)]
      exact iff_of_true rfl ⟨rfl, hr⟩
    · rw [if_pos hr]
      exact iff_of_false nofun fun h => hr h.2

theorem sdioSubRx_spans (k : Nat) : ((sdioSubRx e f).visit k (f.frameAt e k)).spans =
    if e.alloc k then [⟨f.frameAt e k, f.len (f.frameAt e k)⟩] else [] := by
  show ((if !e.alloc k then _ else _ : Visit SubRxStop)).spans = _
  cases e.alloc k <;> rfl

theorem sound_iff (k : Nat) : (sdioSubRx e f).Sound 8 f.dataLen f.announced (Span.Within f.bytes.length)
    (miscounted · = false) k ↔ f.LaidOut e k := by
  have hzero : ∀ n : Int, (n != 0) = false ↔ n = 0 := fun n => bne_eq_false_iff_eq
  have hhead : ∀ a, (Span.mk a 4).Within f.bytes.length ↔ a + 4 ≤ f.bytes.length :=
    fun a => Span.within_iff.trans (or_iff_right (Nat.succ_ne_zero 3))
  constructor
  · intro h
    refine ⟨?_, fun hf ha => ?_, fun hf ht => ?_, fun hf ht => ?_⟩
    · by_cases hf : f.FrameFits e k
      · exact .inl hf
      · right
        have := (hzero _).mp (h.cut hf)
        omega
    · apply h.spans hf
      show _ ∈ ((sdioSubRx e f).visit k (f.frameAt e k)).spans
      rw [sdioSubRx_spans, if_pos ha]
      exact List.mem_cons_self
    · exact (hhead _).mp (h.head hf ((sdioSubRx_stop k).mpr ht))
    · by_cases hc : (sdioSubRx e f).Continues 8 f.dataLen f.announced k
      · exact .inr hc
      · left
        have := (hzero _).mp (h.out hf ((sdioSubRx_stop k).mpr ht) hc)
        omega
  · intro h
    refine ⟨fun hf => ?_, fun hf s hs => ?_, fun _ _ _ => rfl, fun hf hs => ?_, fun hf hs hc => ?_⟩
    · have := h.fits.resolve_left hf
      exact (hzero _).mpr (by omega)
    · change s ∈ ((sdioSubRx e f).visit k (f.frameAt e k)).spans at hs
      rw [sdioSubRx_spans] at hs
      split at hs
      · next ha =>
        rw [List.mem_singleton.mp hs]
        exact h.copied hf ha
      · cases hs
    · exact (hhead _).mpr (h.next hf ((sdioSubRx_stop k).mp hs))
    · have := (h.counted hf ((sdioSubRx_stop k).mp hs)).resolve_right hc
      exact (hzero _).mpr (by omega)

variable (e f)

/-- **The loop ends, and stays in the buffer iff the message is laid out for it.** -/
theorem multi_rx_inside_iff : ∃ r, atbmRxTaskletMulti e f = some r ∧ (r.InBuffer f ↔ f.MultiLaidOut e) := by
  obtain ⟨r, hr, hiff⟩ := (sdioSubRx e f).run_iff 8 f.dataLen f.announced
    (Span.Within f.bytes.length) (miscounted · = false) (by decide) f.announced_le
  unfold atbmRxTaskletMulti
  rw [hr]
  refine ⟨_, rfl, ?_⟩
  constructor
  · rintro ⟨hs, hc, hm⟩
    change (f.len 0 + 1023) / 1024 < 17 at hc
    simp only [List.forall_mem_cons] at hs
    refine ⟨by omega, (Span.within_of_pos (by decide)).mp hs.2.2.1, fun k hk => ?_⟩
    exact (sound_iff k).mp (hiff.mp ⟨hs.2.2.2, hm⟩ k hk)
  · rintro ⟨hsize, hhead, hframes⟩
    obtain ⟨hs, hm⟩ := hiff.mpr fun k hk => (sound_iff k).mpr (hframes k hk)
    refine ⟨?_, ?_, hm⟩
    · simp only [List.forall_mem_cons]
      exact ⟨(Span.within_of_pos (by decide)).mpr (by omega), (Span.within_of_pos (by decide)).mpr (by omega),
        (Span.within_of_pos (by decide)).mpr (by omega), hs⟩
    · show (f.len 0 + 1023) / 1024 < 17
      omega

end

theorem visited_eq_multiRx {R : Type} {w : RecordWalk R} {f : BusFrame} (hlen : w.len = f.len)
    (hstride : w.stride = rxStride) (hleast : w.least = 32) {sub : Nat → RxMsg} {goesOn : Nat → RxMsg → Bool}
    (hgo : ∀ i off, goesOn i (sub off) = (w.visit i off).stop.isNone) {fuel i off num : Nat} {left : Int}
    {r : Walked R} (hr : w.run fuel i off left num = some r) :
    r.visited.map sub = multiRx f sub goesOn (max 1 num) i off left := by
  induction fuel generalizing i off num left r with
  | zero => cases hr
  | succ fuel ih =>
    obtain ⟨m, hm⟩ : ∃ m, max 1 num = m + 1 := ⟨max 1 num - 1, by omega⟩
    unfold RecordWalk.run at hr
    rw [hm]
    unfold multiRx
    rw [hlen, hstride, hleast] at hr
    split at hr
    · next hc =>
      rw [if_pos hc]
      cases hr
      rfl
    · next hc =>
      rw [if_neg hc, hgo]
      dsimp only at hr ⊢
      split at hr
      · next v hv =>
        cases hr
        rw [hv]
        rfl
      · next hv =>
        obtain ⟨r', hr', rfl⟩ := Option.map_eq_some_iff.mp hr
        rw [hv, Option.isNone_none, Bool.true_and]
        show sub off :: r'.visited.map sub = _
        congr 1
        split at hr'
        · next hgoes =>
          have hnum : (num : Int) - 1 = ((num - 1 : Nat) : Int) := by omega
          rw [hnum] at hr'
          rw [ih hr', show max 1 (num - 1) = m by omega,
            if_pos (decide_eq_true hgoes.2)]
        · next hstays =>
          cases hr'
          by_cases hrest : 32 < left - (rxStride (f.len off) : Int)
          · have hzero : m = 0 := by
              by_contra h0
              exact hstays ⟨by omega, hrest⟩
            rw [hzero, if_pos (decide_eq_true hrest)]
            rfl
          · rw [if_neg (fun hd => hrest (of_decide_eq_true hd))]
            rfl

theorem sdioMessages_multi {b : RxBuild} {e : RxEnv} {f : BusFrame} (hmin : 4 + 2 ≤ f.bytes.length)
    (hmax : f.bytes.length ≤ 32758 + 2) (hid : isMultiRx (f.id 0) = true) :
    ∃ r, (sdioSubRx ⟨fun _ => true, fun i off => (wsmHandleRx b (e.host i) (f.halfCopy e.behind off)).ret⟩ f).run
        256 0 8 f.dataLen f.announced = some r ∧
      sdioMessages b e f = r.visited.map (f.halfCopy e.behind) := by
  obtain ⟨r, hr, -⟩ := (sdioSubRx ⟨fun _ => true, fun i off =>
    (wsmHandleRx b (e.host i) (f.halfCopy e.behind off)).ret⟩ f).run_iff 8 f.dataLen f.announced
    (fun _ => True) (fun _ => True) (by decide) f.announced_le
  refine ⟨r, hr, ?_⟩
  unfold sdioMessages
  rw [if_neg (by omega), if_pos hid]
  refine (visited_eq_multiRx rfl rfl rfl (fun i off => ?_) hr).symm
  show _ = (if _ then _ else none : Option SubRxStop).isNone
  by_cases h0 : (wsmHandleRx b (e.host i) (f.halfCopy e.behind off)).ret = 0
  · rw [if_neg (not_not.mpr h0), h0]
    rfl
  · rw [if_pos h0]
    exact beq_eq_false_iff_ne.mpr h0

/-- A message of `len` bytes that announces `num` frames, with one of four bytes; `n` bytes have been received. -/
def oneFrameRx (len : Nat) (num : UInt8) (n : Nat) : BusFrame where
  bytes := [UInt8.ofNat len, UInt8.ofNat (len / 256), 0x11, 0x08, num, 0, 0, 0, 4, 0, 0x04, 0x08] ++ List.replicate (n - 12) 0
  behind := fun _ => 0

def allTaken : SubRxEnv := ⟨fun _ => true, fun _ _ => 0⟩

/-- **Two frames announced and one there**: `BUG_ON`.  A frame that fills the message: the header read behind it was
not received.  A message of 16385 bytes: the statistics are written behind their array. -/
theorem multi_rx_outside :
    (∃ r, atbmRxTaskletMulti allTaken (oneFrameRx 60 2 60) = some r ∧ r.ending = .out 1 ∧ miscounted r.ending = true) ∧
    (∃ r, atbmRxTaskletMulti allTaken (oneFrameRx 52 1 52) = some r ∧ ∃ s ∈ r.spans, ¬ s.Within 52) ∧
    (∃ r, atbmRxTaskletMulti allTaken (oneFrameRx 16385 1 60) = some r ∧ r.counter = 17) := by
  refine ⟨⟨_, rfl, by decide +kernel, by decide +kernel⟩, ⟨_, rfl, by decide +kernel⟩, ⟨_, rfl, by decide +kernel⟩⟩

end AtbmWifi
