import AtbmWifi.Usb.DmaRing

/-!
# The order of the DMA buffers

Buffers are given back at `NextFreePost` only, so an URB can give its own back when it is the
first of those that have some.
-/

namespace AtbmWifi

open Transition RingBuf

def DmaUrb.stretch (u : DmaUrb) : Stretch := ⟨u.start, u.dmaBuffAlloced⟩

def AggrPc.urb : AggrPc → List DmaUrb
  | .idle => []
  | .fetch u _ | .copy u _ _ | .pick u | .submit u => [u]

namespace DmaRing

/-- The URBs that have buffers, but for the one that is being filled. -/
def others (s : DmaRing) : List DmaUrb := s.kept ++ s.inFlight

def owned (s : DmaRing) : List Stretch :=
  (s.others ++ s.pc.urb.filter fun u => decide (0 < u.dmaBuffAlloced)).map DmaUrb.stretch

/-- **The ring as it is wanted**: the buffers of the URBs follow each other from `NextFreePost` to
`NextAllocPost` and are disjoint, the counter counts the others, and the flag says that there are none. -/
structure Ok (n : Nat) (s : DmaRing) : Prop where
  laid : Laid n s.nextFree s.owned s.nextAlloc
  disjoint : (s.owned.flatMap Stretch.cells).Nodup
  count : s.freeDmaBufferCnt + total s.owned = n
  full : s.full = true ↔ s.freeDmaBufferCnt = 0
  bug : s.bug = false

end DmaRing

def DmaUrb.Has (u : DmaUrb) (x : Nat) : Prop :=
  buffAllocLen * u.start ≤ x ∧ x < buffAllocLen * (u.start + u.dmaBuffAlloced)

/-- No octet of a frame is copied to a buffer of another URB. -/
def DmaAct.Apart (s : DmaRing) : DmaAct → Prop
  | .copy _ =>
    match s.pc with
    | .copy _ aggr len => ∀ u ∈ s.others, ∀ x, perPacketLen * aggr ≤ x → x < perPacketLen * aggr + len → ¬ u.Has x
    | _ => True
  | _ => True

/-- Who gives back is the first that has buffers, and a frame does not reach `NextFreePost`. -/
def DmaAct.InTurn (s : DmaRing) : DmaAct → Prop
  | .submit false => s.kept = [] ∧ s.inFlight = []
  | .complete hwPriv statusOk initDone bhError =>
    xmitDataGives hwPriv statusOk initDone bhError = true → s.kept = []
  | .copy _ =>
    match s.pc with
    | .copy u aggr len => u.start < s.nextFree → perPacketLen * aggr + len ≤ buffAllocLen * s.nextFree
    | _ => True
  | _ => True

instance DmaAct.decInTurn (s : DmaRing) (a : DmaAct) : Decidable (a.InTurn s) :=
  match a with
  | .submit false => inferInstanceAs (Decidable (_ ∧ _))
  | .complete .. => inferInstanceAs (Decidable (_ → _))
  | .copy _ => by
    delta DmaAct.InTurn
    dsimp only
    exact match s.pc with
      | .copy .. => inferInstanceAs (Decidable (_ → _))
      | .idle | .fetch .. | .pick _ | .submit _ => .isTrue trivial
  | .submit true | .xmitData | .getTx _ | .pick => .isTrue trivial

namespace DmaRing

/-- The pointers, the counter and the flag with `k` buffers owned. -/
structure Counts (n k : Nat) (s : DmaRing) : Prop where
  lt : s.nextFree < n
  alloc : s.nextAlloc = (s.nextFree + k) % n
  count : s.freeDmaBufferCnt + k = n
  full : s.full = true ↔ s.freeDmaBufferCnt = 0

variable {n k : Nat} {s t : DmaRing}

theorem Counts.meet (h : Counts n k s) : s.nextAlloc = s.nextFree ↔ k = 0 ∨ k = n := by
  have hcount := h.count
  rw [h.alloc]
  exact meet_iff h.lt (by omega)

theorem Counts.stuck (h : Counts n k s) : (s.nextAlloc = s.nextFree ∧ s.full = true) ↔ s.full = true := by
  refine ⟨And.right, fun hf => ⟨h.meet.mpr (.inr ?_), hf⟩⟩
  have := h.full.mp hf
  have := h.count
  omega

theorem Counts.freeOne (h : Counts n (k + 1) s) : s.atbmUsbFreeTxDMABuf n =
    { s with
      full := false
      freeDmaBufferCnt := s.freeDmaBufferCnt + 1
      nextFree := (s.nextFree + 1) % n } := by
  have hcount := h.count
  have hlt := h.lt
  have hmeet := h.meet
  have hnext : (if s.nextFree + 1 = n then 0 else s.nextFree + 1) = (s.nextFree + 1) % n := by
    split
    · next hn => rw [hn, Nat.mod_self]
    · next hn => rw [Nat.mod_eq_of_lt (by omega)]
  have hpass : ¬ (s.nextAlloc = s.nextFree ∧ s.full = false) := by
    rintro ⟨heq, hf⟩
    have hzero : s.freeDmaBufferCnt = 0 := by
      have := hmeet.mp heq
      omega
    rw [h.full.mpr hzero] at hf
    cases hf
  unfold atbmUsbFreeTxDMABuf
  rw [if_neg hpass]
  by_cases heq : s.nextAlloc = s.nextFree
  · simp only [if_pos heq]
    rw [if_neg (by omega), hnext]
  · have hf : s.full = false := by
      rw [Bool.eq_false_iff]
      intro hf
      exact heq (h.stuck.mpr hf).1
    simp only [if_neg heq]
    rw [if_neg (by omega), hnext, hf]

theorem Counts.freed (h : Counts n (k + 1) s) : Counts n k (s.atbmUsbFreeTxDMABuf n) := by
  have hlt := h.lt
  have hcount := h.count
  rw [h.freeOne]
  refine ⟨Nat.mod_lt _ (by omega), ?_, by simp only; omega, ?_⟩
  · simp only
    rw [h.alloc, Nat.mod_add_mod]
    congr 1
    omega
  · simp only [Bool.false_eq_true, false_iff]
    omega

theorem Counts.freeLoop {c : Nat} (h : Counts n (k + c) s) (hc : 0 < c) : freeLoop n c s =
    { s with
      full := false
      freeDmaBufferCnt := s.freeDmaBufferCnt + c
      nextFree := (s.nextFree + c) % n } := by
  induction c generalizing s with
  | zero => exact absurd hc (Nat.lt_irrefl 0)
  | succ c ih =>
    have hone := h.freeOne
    have hrest : Counts n (k + c) (s.atbmUsbFreeTxDMABuf n) := h.freed
    show DmaRing.freeLoop n c (s.atbmUsbFreeTxDMABuf n) = _
    cases c with
    | zero => exact hone
    | succ c =>
      rw [ih hrest (Nat.succ_pos c), hone]
      simp only [Nat.mod_add_mod]
      rw [Nat.add_assoc, Nat.add_assoc, Nat.add_comm 1]

theorem Ok.counts (h : Ok n s) (hlt : s.nextFree < n) : Counts n (total s.owned) s :=
  ⟨hlt, h.laid.end_eq hlt, h.count, h.full⟩

theorem Ok.of_laid (hlt : s.nextFree < n) (hl : Laid n s.nextFree s.owned s.nextAlloc)
    (hc : s.freeDmaBufferCnt + total s.owned = n) (hf : s.full = true ↔ s.freeDmaBufferCnt = 0) (hb : s.bug = false) :
    Ok n s :=
  ⟨hl, hl.nodup hlt (by omega), hc, hf, hb⟩

theorem Ok.same (h : Ok n s) (hr : (t.nextAlloc, t.nextFree, t.full, t.freeDmaBufferCnt, t.bug) =
      (s.nextAlloc, s.nextFree, s.full, s.freeDmaBufferCnt, s.bug)) (ho : t.owned = s.owned) : Ok n t := by
  simp only [Prod.mk.injEq] at hr
  obtain ⟨ha, hf, hfull, hc, hb⟩ := hr
  constructor
  · rw [ha, hf, ho]
    exact h.laid
  · rw [ho]
    exact h.disjoint
  · rw [hc, ho]
    exact h.count
  · rw [hfull, hc]
    exact h.full
  · rw [hb]
    exact h.bug

/-- `usb_aggr_buff` is at the place of the next frame. -/
structure AtSlot (u : DmaUrb) (aggr : Nat) : Prop where
  slot : aggr = perBuffAggrNum * u.start + u.frameCnt
  lt : u.frameCnt < perBuffAggrNum * u.dmaBuffAlloced
  len : u.pallocatedBufLen = perPacketLen * u.frameCnt

/-- What `atbm_usb_xmit_data` knows of its URB. -/
def PcOk (n : Nat) (s : DmaRing) : Prop :=
  match s.pc with
  | .idle => True
  | .fetch u none => s.full = false ∧ u.frameCnt = perBuffAggrNum * u.dmaBuffAlloced ∧
      u.pallocatedBufLen = perPacketLen * u.frameCnt ∧
      (u.dmaBuffAlloced = 0 ∧ u.start = s.nextAlloc ∨ 0 < u.dmaBuffAlloced ∧ u.start + u.dmaBuffAlloced < n)
  | .fetch u (some aggr) => 0 < u.frameCnt ∧ AtSlot u aggr
  | .copy u aggr _ => AtSlot u aggr
  | .pick u => u.frameCnt = perBuffAggrNum * u.dmaBuffAlloced ∧ u.pallocatedBufLen = perPacketLen * u.frameCnt ∧
      0 < u.dmaBuffAlloced ∧ u.start + u.dmaBuffAlloced < n
  | .submit u => 0 < u.dmaBuffAlloced

structure Inv (n : Nat) (s : DmaRing) : Prop where
  lt : s.nextFree < n
  pcOk : s.PcOk n

theorem owned_none (h : s.pc = .idle) : s.owned = s.others.map DmaUrb.stretch := by
  unfold owned
  rw [h]
  exact congrArg (List.map DmaUrb.stretch) (List.append_nil _)

variable {u : DmaUrb}

theorem owned_zero (h : s.pc.urb = [u]) (hc : u.dmaBuffAlloced = 0) : s.owned = s.others.map DmaUrb.stretch := by
  unfold owned
  rw [h, List.filter_cons_of_neg (by simp [hc]), List.filter_nil, List.append_nil]

theorem owned_pos (h : s.pc.urb = [u]) (hc : 0 < u.dmaBuffAlloced) :
    s.owned = s.others.map DmaUrb.stretch ++ [u.stretch] := by
  unfold owned
  rw [h, List.filter_cons_of_pos (by simp [hc]), List.filter_nil, List.map_append]
  rfl

theorem owned_congr {v : DmaUrb} (hs : s.pc.urb = [u]) (ht : t.pc.urb = [v]) (ho : t.others = s.others)
    (hu : v.stretch = u.stretch) : t.owned = s.owned := by
  have hcnt : v.dmaBuffAlloced = u.dmaBuffAlloced := congrArg Stretch.cnt hu
  by_cases hc : u.dmaBuffAlloced = 0
  · rw [owned_zero hs hc, owned_zero ht (hcnt.trans hc), ho]
  · rw [owned_pos hs (by omega), owned_pos ht (by omega), ho, hu]

theorem leave_spec {v : DmaUrb} (hu : s.pc.urb = [u]) (hv : v.stretch = u.stretch)
    (hlen : v.pallocatedBufLen = 0 ↔ v.dmaBuffAlloced = 0) (hlt : s.nextFree < n) (h : Ok n s) :
    Inv n (s.leave v) ∧ Ok n (s.leave v) := by
  have hcnt : v.dmaBuffAlloced = u.dmaBuffAlloced := congrArg Stretch.cnt hv
  unfold leave
  split
  · next hz =>
    have hzero : u.dmaBuffAlloced = 0 := hcnt.symm.trans (hlen.mp hz)
    refine ⟨⟨hlt, trivial⟩, h.same rfl ?_⟩
    rw [owned_zero hu hzero, owned_none rfl]
    rfl
  · next hz =>
    have hpos : 0 < v.dmaBuffAlloced := by
      have := mt hlen.mpr hz
      omega
    exact ⟨⟨hlt, hpos⟩, h.same rfl (owned_congr hu rfl rfl hv)⟩

theorem pick_cases (hc : Counts n k s) :
    s.full = true ∧ s.atbmUsbPickTxDMABuf = none ∨ s.full = false ∧ s.atbmUsbPickTxDMABuf = some s.nextAlloc := by
  unfold atbmUsbPickTxDMABuf
  cases hf : s.full with
  | true => exact .inl ⟨rfl, if_pos ⟨(hc.stuck.mpr hf).1, rfl⟩⟩
  | false => exact .inr ⟨rfl, if_neg fun h => absurd h.2 (by decide)⟩

theorem xmitData_spec (hpc : s.pc = .idle) (hi : Inv n s) (h : Ok n s) : Inv n s.xmitData ∧ Ok n s.xmitData := by
  unfold xmitData
  split
  · exact ⟨hi, h⟩
  · rcases pick_cases (h.counts hi.lt) with ⟨-, hp⟩ | ⟨hf, hp⟩
    · rw [hp]
      exact ⟨hi, h⟩
    · rw [hp]
      refine ⟨⟨hi.lt, hf, rfl, rfl, .inl ⟨rfl, rfl⟩⟩, h.same rfl ?_⟩
      rw [owned_none hpc]
      exact owned_zero rfl rfl

theorem get_eq (hf : s.full = false) (hcount : s.freeDmaBufferCnt ≠ 0) : s.atbmUsbGetTxDMABuf n =
    (some s.nextAlloc,
      { s with
        freeDmaBufferCnt := s.freeDmaBufferCnt - 1
        nextAlloc := wrap n (s.nextAlloc + 1)
        full := decide (wrap n (s.nextAlloc + 1) = s.nextFree) }) := by
  unfold atbmUsbGetTxDMABuf
  rw [if_neg (by simp [hf]), if_neg hcount]
  simp only [hf, Bool.false_or]

theorem Ok.get (h : Ok n s) (hlt : s.nextFree < n) (hf : s.full = false)
    (ht : (t.nextAlloc, t.nextFree, t.full, t.freeDmaBufferCnt, t.bug) = (wrap n (s.nextAlloc + 1), s.nextFree,
      decide (wrap n (s.nextAlloc + 1) = s.nextFree), s.freeDmaBufferCnt - 1, s.bug))
    (hl : Laid n s.nextFree t.owned (wrap n (s.nextAlloc + 1))) (htot : total t.owned = total s.owned + 1) : Ok n t := by
  simp only [Prod.mk.injEq] at ht
  obtain ⟨ha, hfr, hfull, hc, hb⟩ := ht
  have hcount := h.count
  have hfree : s.freeDmaBufferCnt ≠ 0 := fun h0 => absurd ((h.full.mpr h0).symm.trans hf) (by decide)
  refine .of_laid (by rwa [hfr]) (by rwa [ha, hfr]) (by omega) ?_ (hb.trans h.bug)
  rw [hfull, decide_eq_true_iff, hl.end_eq hlt, meet_iff hlt (by omega), hc]
  omega

theorem getTx_spec {aggr : Option Nat} (hpc : s.pc = .fetch u aggr) (frame : Option Nat) (hi : Inv n s)
    (h : Ok n s) : Inv n (s.getTx n u aggr frame) ∧ Ok n (s.getTx n u aggr frame) := by
  have hu : s.pc.urb = [u] := by rw [hpc]; rfl
  have hok := hi.pcOk
  unfold PcOk at hok
  rw [hpc] at hok
  cases frame with
  | none =>
    refine leave_spec hu rfl ?_ hi.lt h
    cases aggr with
    | none =>
      obtain ⟨-, hcnt, hlen, -⟩ := hok
      simp only [perPacketLen, perBuffAggrNum] at hcnt hlen
      omega
    | some aggr =>
      obtain ⟨hpos, -, hlt, hlen⟩ := hok
      simp only [perPacketLen, perBuffAggrNum] at hlt hlen
      omega
  | some len =>
    cases aggr with
    | some aggr => exact ⟨⟨hi.lt, hok.2⟩, h.same rfl (owned_congr hu rfl rfl rfl)⟩
    | none =>
      obtain ⟨hf, hcnt, hlen, hstart⟩ := hok
      have hfree : s.freeDmaBufferCnt ≠ 0 := fun h0 => absurd ((h.full.mpr h0).symm.trans hf) (by decide)
      have ha := h.laid
      have hlt : s.nextAlloc < n := by
        rw [ha.end_eq hi.lt]
        exact Nat.mod_lt _ (Nat.zero_lt_of_lt hi.lt)
      simp only [getTx, get_eq hf hfree]
      rcases hstart with ⟨hzero, hstart⟩ | ⟨hpos, hend⟩
      · have hold := owned_zero hu hzero
        have hnew : DmaUrb.stretch { u with dmaBuffAlloced := u.dmaBuffAlloced + 1 } = ⟨s.nextAlloc, 1⟩ := by
          rw [DmaUrb.stretch, hstart, hzero]
        refine ⟨⟨hi.lt, ?_, ?_, hlen⟩, h.get hi.lt hf rfl ?_ ?_⟩
        · simp only [perBuffAggrNum] at hcnt ⊢
          omega
        · simp only [perBuffAggrNum] at hcnt ⊢
          omega
        · rw [owned_pos rfl (Nat.succ_pos _)]
          show Laid n s.nextFree (s.others.map DmaUrb.stretch ++ [DmaUrb.stretch _]) _
          rw [hnew, ← hold]
          exact ha.push hlt
        · rw [owned_pos rfl (Nat.succ_pos _)]
          show total (s.others.map DmaUrb.stretch ++ [DmaUrb.stretch _]) = _
          rw [hnew, ← hold, total_append]
          rfl
      · have hold := owned_pos hu hpos
        rw [hold] at ha
        obtain ⟨heq, hgrow⟩ := ha.grow hend
        refine ⟨⟨hi.lt, ?_, ?_, hlen⟩, h.get hi.lt hf rfl ?_ ?_⟩
        · simp only [perBuffAggrNum] at hcnt ⊢
          omega
        · simp only [perBuffAggrNum] at hcnt ⊢
          omega
        · rw [owned_pos rfl (Nat.succ_pos _)]
          exact hgrow
        · rw [owned_pos rfl (Nat.succ_pos _), hold, total_append, total_append]
          rfl

theorem copied_spec {aggr len : Nat} (hpc : s.pc = .copy u aggr len) (last : Bool) (hi : Inv n s)
    (h : Ok n s) : Inv n (s.copied n u aggr last) ∧ Ok n (s.copied n u aggr last) := by
  have hu : s.pc.urb = [u] := by rw [hpc]; rfl
  have hok := hi.pcOk
  unfold PcOk at hok
  rw [hpc] at hok
  obtain ⟨hslot, hlt, hlen⟩ := hok
  have hleave := fun v hv hz => leave_spec (v := v) hu hv hz hi.lt h
  simp only [perBuffAggrNum, perPacketLen] at hslot hlt hlen
  have hput : u.pallocatedBufLen + perPacketLen = 0 ↔ u.dmaBuffAlloced = 0 := by
    simp only [perPacketLen]
    omega
  simp only [copied]
  split
  · exact hleave _ rfl hput
  split
  · next hfull =>
    simp only [perBuffAggrNum] at hfull
    split
    · exact hleave _ rfl hput
    · next hend =>
      simp only [perBuffAggrNum] at hend
      refine ⟨⟨hi.lt, ?_⟩, h.same rfl (owned_congr hu rfl rfl rfl)⟩
      simp only [PcOk, perBuffAggrNum, perPacketLen]
      omega
  · next hmore =>
    simp only [perBuffAggrNum] at hmore
    refine ⟨⟨hi.lt, Nat.succ_pos _, ?_, ?_, ?_⟩, h.same rfl (owned_congr hu rfl rfl rfl)⟩
    · simp only [perBuffAggrNum]
      omega
    · simp only [perBuffAggrNum]
      omega
    · simp only [perPacketLen]
      omega

theorem pickNext_spec (hpc : s.pc = .pick u) (hi : Inv n s) (h : Ok n s) :
    Inv n (s.pickNext u) ∧ Ok n (s.pickNext u) := by
  have hu : s.pc.urb = [u] := by rw [hpc]; rfl
  have hok := hi.pcOk
  unfold PcOk at hok
  rw [hpc] at hok
  obtain ⟨hcnt, hlen, hpos, hend⟩ := hok
  unfold pickNext
  rcases pick_cases (h.counts hi.lt) with ⟨-, hp⟩ | ⟨hf, hp⟩
  · rw [hp]
    refine leave_spec hu rfl ?_ hi.lt h
    simp only [perBuffAggrNum, perPacketLen] at hcnt hlen
    omega
  · rw [hp]
    exact ⟨⟨hi.lt, hf, hcnt, hlen, .inr ⟨hpos, hend⟩⟩, h.same rfl (owned_congr hu rfl rfl rfl)⟩

theorem giveBack {rest : List Stretch} (hc : Counts n (total (u.stretch :: rest)) s)
    (hl : Laid n s.nextFree (u.stretch :: rest) s.nextAlloc) (hb : s.bug = false) (ho : s.owned = rest) :
    ∃ f c, s.atbmUsbFreeTxDMABufAll n u.start u.dmaBuffAlloced =
        { s with full := false, freeDmaBufferCnt := c, nextFree := f } ∧
      f < n ∧ Ok n (s.atbmUsbFreeTxDMABufAll n u.start u.dmaBuffAlloced) := by
  have hlt := hc.lt
  obtain ⟨hstart, hpos, hle, hrest⟩ := hl
  have hstart : u.start = s.nextFree := hstart
  have hcount := hc.count
  rw [total_cons, Nat.add_comm] at hc
  have hloop := hc.freeLoop hpos
  rw [total_cons] at hcount
  rw [wrap_eq_mod (by omega) hle] at hrest
  have hmod : (s.nextFree + u.dmaBuffAlloced) % n < n := Nat.mod_lt _ (by omega)
  have hfree : s.atbmUsbFreeTxDMABufAll n u.start u.dmaBuffAlloced = freeLoop n u.dmaBuffAlloced s := by
    unfold atbmUsbFreeTxDMABufAll
    rw [if_neg (not_not.mpr hstart)]
  rw [hfree]
  refine ⟨_, _, hloop, hmod, ?_⟩
  rw [show freeLoop n u.dmaBuffAlloced s = _ from hloop]
  have hpos : 0 < u.dmaBuffAlloced := hpos
  have hcount : s.freeDmaBufferCnt + (u.dmaBuffAlloced + total rest) = n := hcount
  refine .of_laid hmod ?_ ?_ ?_ hb
  · show Laid n _ s.owned _
    rw [ho]
    exact hrest
  · show s.freeDmaBufferCnt + u.dmaBuffAlloced + total s.owned = n
    rw [ho]
    omega
  · simp only [Bool.false_eq_true, false_iff, DmaUrb.stretch]
    omega

theorem giveBack_bug {cnt : Nat} (hne : u.start ≠ s.nextFree) :
    (s.atbmUsbFreeTxDMABufAll n u.start cnt).bug = true := by
  unfold atbmUsbFreeTxDMABufAll
  rw [if_pos hne]

theorem submitUrb_ok (hpc : s.pc = .submit u) (hi : Inv n s) (h : Ok n s) :
    Inv n (s.submitUrb n u true) ∧ Ok n (s.submitUrb n u true) := by
  have hok := hi.pcOk
  unfold PcOk at hok
  rw [hpc] at hok
  refine ⟨⟨hi.lt, trivial⟩, h.same rfl ?_⟩
  rw [owned_none rfl, owned_pos (u := u) (by rw [hpc]; rfl) hok]
  show (s.kept ++ (s.inFlight ++ [u])).map DmaUrb.stretch = (s.kept ++ s.inFlight).map DmaUrb.stretch ++ [u.stretch]
  rw [← List.append_assoc, List.map_append]
  rfl

theorem submitUrb_fails (hpc : s.pc = .submit u) (hi : Inv n s) (h : Ok n s) :
    (s.kept = [] ∧ s.inFlight = [] → Inv n (s.submitUrb n u false) ∧ Ok n (s.submitUrb n u false)) ∧
      (¬ (s.kept = [] ∧ s.inFlight = []) → (s.submitUrb n u false).bug = true) := by
  have hok := hi.pcOk
  unfold PcOk at hok
  rw [hpc] at hok
  have hown := owned_pos (u := u) (by rw [hpc]; rfl) hok
  have hc := h.counts hi.lt
  have hl := h.laid
  have hcount := h.count
  rw [hown] at hc hl hcount
  constructor
  · rintro ⟨hk, hf⟩
    have hno : s.others = [] := by rw [others, hk, hf]; rfl
    rw [hno] at hc hl
    have hidle : ({ s with pc := .idle } : DmaRing).owned = [] := by
      rw [owned_none rfl]
      exact congrArg (List.map DmaUrb.stretch) hno
    obtain ⟨f, c, heq, hlt, hres⟩ := giveBack (s := { s with pc := .idle }) ⟨hc.lt, hc.alloc, hc.count, hc.full⟩ hl
      h.bug hidle
    refine ⟨⟨?_, ?_⟩, hres⟩
    · show (atbmUsbFreeTxDMABufAll n u.start u.dmaBuffAlloced { s with pc := .idle }).nextFree < n
      rw [heq]
      exact hlt
    · show PcOk n (atbmUsbFreeTxDMABufAll n u.start u.dmaBuffAlloced { s with pc := .idle })
      rw [heq]
      trivial
  · intro hno
    refine giveBack_bug (s := { s with pc := .idle }) (hl.start_ne hi.lt (by omega) ?_)
    rw [ne_eq, List.map_eq_nil_iff]
    exact fun h0 => hno (List.append_eq_nil_iff.mp h0)

theorem complete_drops (hi : Inv n s) (h : Ok n s) :
    Inv n (s.atbmUsbXmitDataComplete n false) ∧ Ok n (s.atbmUsbXmitDataComplete n false) := by
  unfold atbmUsbXmitDataComplete
  split
  · exact ⟨hi, h⟩
  · next u l hf =>
    refine ⟨⟨hi.lt, hi.pcOk⟩, h.same rfl ?_⟩
    have ho : (s.kept ++ [u]) ++ l = s.others := by rw [others, hf, List.append_assoc]; rfl
    show (((s.kept ++ [u]) ++ l) ++ _).map DmaUrb.stretch = (s.others ++ _).map DmaUrb.stretch
    rw [ho]
    rfl

theorem complete_gives {l : List DmaUrb} (hf : s.inFlight = u :: l) (hi : Inv n s) (h : Ok n s) :
    (s.kept = [] → Inv n (s.atbmUsbXmitDataComplete n true) ∧ Ok n (s.atbmUsbXmitDataComplete n true)) ∧
      (s.kept ≠ [] → (s.atbmUsbXmitDataComplete n true).bug = true) := by
  have heq : s.atbmUsbXmitDataComplete n true =
      ({ s with inFlight := l } : DmaRing).atbmUsbFreeTxDMABufAll n u.start u.dmaBuffAlloced := by
    simp only [atbmUsbXmitDataComplete, hf, if_pos]
  have hown : s.owned = s.kept.map DmaUrb.stretch ++ u.stretch ::
      (l ++ s.pc.urb.filter fun u => decide (0 < u.dmaBuffAlloced)).map DmaUrb.stretch := by
    unfold owned others
    rw [hf, List.append_assoc, List.map_append]
    rfl
  have hc := h.counts hi.lt
  have hl := h.laid
  have hcount := h.count
  rw [hown] at hc hl hcount
  rw [heq]
  constructor
  · intro hk
    rw [hk] at hc hl
    have hrest : ({ s with inFlight := l } : DmaRing).owned =
        (l ++ s.pc.urb.filter fun u => decide (0 < u.dmaBuffAlloced)).map DmaUrb.stretch := by
      unfold owned others
      simp only [hk, List.nil_append]
    obtain ⟨f, c, heq, hlt, hres⟩ := giveBack (s := { s with inFlight := l }) ⟨hc.lt, hc.alloc, hc.count, hc.full⟩ hl
      h.bug hrest
    refine ⟨⟨by rw [heq]; exact hlt, ?_⟩, hres⟩
    rw [heq]
    have hok := hi.pcOk
    unfold PcOk at hok ⊢
    revert hok
    simp only
    cases s.pc with
    | fetch u aggr =>
      cases aggr with
      | none => exact fun hok => ⟨trivial, hok.2⟩
      | some aggr => exact id
    | _ => exact id
  · intro hk
    refine giveBack_bug (hl.start_ne hi.lt (by omega) ?_)
    rw [ne_eq, List.map_eq_nil_iff]
    exact hk

theorem apart_iff {aggr len : Nat} {last : Bool} (hpc : s.pc = .copy u aggr len) (hi : Inv n s)
    (h : Ok n s) : (DmaAct.copy last).Apart s ↔ (DmaAct.copy last).InTurn s := by
  have hok := hi.pcOk
  unfold PcOk at hok
  rw [hpc] at hok
  obtain ⟨hslot, hlt, -⟩ := hok
  have hpos : 0 < u.dmaBuffAlloced := by
    simp only [perBuffAggrNum] at hlt
    omega
  have hown := owned_pos (u := u) (by rw [hpc]; rfl) hpos
  have hl := h.laid
  have hcount := h.count
  rw [hown] at hl hcount
  have hcases := fun t ht => hl.last_cases (t := t) hi.lt (by omega) ht
  simp only [perBuffAggrNum] at hslot hlt
  simp only [DmaAct.Apart, DmaAct.InTurn, hpc, DmaUrb.Has, perPacketLen, buffAllocLen, perBuffAggrNum]
  constructor
  · intro hap hbefore
    by_contra hreach
    cases ho : s.others with
    | nil =>
      rw [ho] at hl
      have hstart : u.start = s.nextFree := hl.1
      omega
    | cons v l =>
      have hmem : v ∈ s.others := by rw [ho]; exact List.mem_cons_self
      have hv := hcases v.stretch (List.mem_map_of_mem hmem)
      rw [ho] at hl
      have hstart : v.start = s.nextFree := hl.1
      have hvpos : 0 < v.dmaBuffAlloced := hl.2.1
      simp only [DmaUrb.stretch] at hv
      refine hap v hmem (16384 * s.nextFree) ?_ ?_ ⟨?_, ?_⟩ <;> omega
  · intro hturn v hv x hx hx' hhas
    have hv := hcases v.stretch (List.mem_map_of_mem hv)
    simp only [DmaUrb.stretch] at hv
    omega

end DmaRing

section
variable {n : Nat} {s t : DmaRing} {a : DmaAct}

open DmaRing

theorem dmaRing_keep (hi : Inv n s) (h : Ok n s) (ht : (dmaRings n).step s a t) (hc : a.InTurn s) :
    Inv n t ∧ Ok n t ∧ a.Apart s := by
  obtain ⟨⟨-, he⟩, rfl⟩ := ht
  cases a with
  | xmitData =>
    cases hpc : s.pc with
    | idle =>
      simp only [DmaAct.next, hpc]
      exact ⟨(xmitData_spec hpc hi h).1, (xmitData_spec hpc hi h).2, trivial⟩
    | _ => simp only [hpc] at he
  | getTx frame =>
    cases hpc : s.pc with
    | fetch u aggr =>
      simp only [DmaAct.next, hpc]
      exact ⟨(getTx_spec hpc frame hi h).1, (getTx_spec hpc frame hi h).2, trivial⟩
    | _ => simp only [hpc] at he
  | copy last =>
    cases hpc : s.pc with
    | copy u aggr len =>
      have hspec := copied_spec hpc last hi h
      have hap := (apart_iff hpc hi h).mpr hc
      simp only [DmaAct.next, hpc]
      exact ⟨hspec.1, hspec.2, hap⟩
    | _ => simp only [hpc] at he
  | pick =>
    cases hpc : s.pc with
    | pick u =>
      simp only [DmaAct.next, hpc]
      exact ⟨(pickNext_spec hpc hi h).1, (pickNext_spec hpc hi h).2, trivial⟩
    | _ => simp only [hpc] at he
  | submit ok =>
    cases hpc : s.pc with
    | submit u =>
      simp only [DmaAct.next, hpc]
      cases ok with
      | true => exact ⟨(submitUrb_ok hpc hi h).1, (submitUrb_ok hpc hi h).2, trivial⟩
      | false =>
        have hspec := (submitUrb_fails hpc hi h).1 hc
        exact ⟨hspec.1, hspec.2, trivial⟩
    | _ => simp only [hpc] at he
  | complete hwPriv statusOk initDone bhError =>
    simp only [DmaAct.InTurn] at hc
    simp only [DmaAct.next]
    cases hg : xmitDataGives hwPriv statusOk initDone bhError with
    | false => exact ⟨(complete_drops hi h).1, (complete_drops hi h).2, trivial⟩
    | true =>
      cases hf : s.inFlight with
      | nil => exact absurd hf he
      | cons u l =>
        have hspec := (complete_gives hf hi h).1 (hc hg)
        exact ⟨hspec.1, hspec.2, trivial⟩

theorem dmaRing_lose (hi : Inv n s) (h : Ok n s) (ht : (dmaRings n).step s a t) (hok : Ok n t) (hap : a.Apart s) :
    a.InTurn s := by
  obtain ⟨⟨-, he⟩, rfl⟩ := ht
  have hbug := hok.bug
  cases a with
  | copy last =>
    cases hpc : s.pc with
    | copy u aggr len => exact (apart_iff hpc hi h).mp hap
    | _ => simp only [hpc] at he
  | submit ok =>
    cases hpc : s.pc with
    | submit u =>
      cases ok with
      | true => trivial
      | false =>
        simp only [DmaAct.next, hpc] at hbug
        by_contra hno
        rw [(submitUrb_fails hpc hi h).2 hno] at hbug
        cases hbug
    | _ => simp only [hpc] at he
  | complete hwPriv statusOk initDone bhError =>
    intro hg
    simp only [DmaAct.next, hg] at hbug
    cases hf : s.inFlight with
    | nil => exact absurd hf he
    | cons u l =>
      by_contra hno
      rw [(complete_gives hf hi h).2 hno] at hbug
      cases hbug
  | _ => trivial

/-- **The ring of DMA buffers.**  A run from the start keeps the ring as it is wanted, without a `BUG_ON`, and
copies no frame to a buffer of another URB, iff in its steps whoever gives back is the first that has buffers
and no frame reaches `NextFreePost`. -/
theorem dmaRing_exact (hn : 0 < n) {l : List (DmaRing × DmaAct)} (h0 : (dmaRings n).init s)
    (h : Path (dmaRings n) s l t) :
    ((∀ p ∈ l, Ok n p.1 ∧ p.2.Apart p.1) ∧ Ok n t) ↔ ∀ p ∈ l, p.2.InTurn p.1 := by
  obtain rfl : s = dmaRingStart n := h0
  have hstart : Ok n (dmaRingStart n) :=
    .of_laid hn rfl (Nat.add_zero n) ⟨nofun, fun hz => absurd hz (Nat.ne_of_gt hn)⟩ rfl
  exact h.exactSteps (fun _ _ _ hi hP hst hC => dmaRing_keep hi hP hst hC)
    (fun _ _ _ hi hP hst hok hap => dmaRing_lose hi hP hst hok hap) ⟨hn, trivial⟩ hstart

end

def oneFrame (ok : Bool) : List DmaAct := [.xmitData, .getTx (some 1538), .copy false, .getTx none, .submit ok]

theorem dmaRing_exact_one :
    let l := oneFrame true ++ [.complete true false true false] ++ oneFrame false
    (l.foldl (DmaAct.next totalDmaBufferCnt) (dmaRingStart totalDmaBufferCnt)).Ok totalDmaBufferCnt := by
  intro l
  have hrun := dmaRing_exact (n := totalDmaBufferCnt) (by decide) rfl (.ofFires (l := l) (by decide))
  exact (hrun.mpr (by decide)).2

/-- The submission of the second of two URBs fails: its buffers are not the oldest. -/
theorem dmaRing_second_fails :
    ∃ s, Reach (dmaRings totalDmaBufferCnt) s ∧ s.inFlight.length = 1 ∧ s.bug = true := by
  have hstart : Reach (dmaRings totalDmaBufferCnt) (dmaRingStart totalDmaBufferCnt) := .init rfl
  exact ⟨_, hstart.fires (l := oneFrame true ++ oneFrame false) (by decide), by decide⟩

end AtbmWifi
