import AtbmWifi.Bh.Credits

/-!
# Free buffers by the device's counter (SDIO, no confirmations)

With `CONFIG_TX_NO_CONFIRM` the device counts the frames it has sent, `hw_xmited`, and the driver those it has
written, `n_xmits`; both are 32 bits wide.  `atbm_sdio_have_enough_space` and `atbm_sdio_wait_enough_space` poll the
register and take a reading as the new `hw_bufs_free`, or pass it over.
-/

namespace AtbmWifi

/-- What the two functions read and write under `tx_com_lock`. -/
structure TxCounters where
  nXmits : BitVec 32
  hwXmits : BitVec 32
  numInpChBufs : BitVec 16
  hwBufsFree : Int
  hwBufsFreeInit : Int
  deriving DecidableEq

/-- `atbm_bh_is_term` at a poll, and the register, none when the read fails. -/
structure SpacePoll where
  term : Bool
  read : Option (BitVec 32)

structure Reading where
  before : TxCounters
  hwXmited : BitVec 32
  accepted : Bool
  after : TxCounters
  deriving DecidableEq

structure SpaceCall where
  counters : TxCounters
  enough : Bool
  readings : List Reading
  deriving DecidableEq

def maxPoolBuffNum : Nat := 4

def maxLoopPollCnt : Nat := 2 * 3000

/-- The section under the lock that both functions have: the counters, and whether the reading was taken. -/
def takeReading (hwXmited : BitVec 32) (s : TxCounters) : TxCounters × Bool :=
  if s.nXmits.toInt < hwXmited.toInt ∨ (s.nXmits - hwXmited).toInt > s.numInpChBufs.toNat ∨
      (s.nXmits - hwXmited).toInt < 0 then (s, false)
  else
    let free := (s.numInpChBufs.setWidth 32 - (s.nXmits - hwXmited)).toInt
    ({ s with hwXmits := hwXmited, hwBufsFree := free, hwBufsFreeInit := free }, true)

/-- `enough` after a reading. -/
def enoughAfter (nNeeds : BitVec 32) (r : TxCounters × Bool) : Bool :=
  r.2 && freeAtLeast r.1.hwBufsFree nNeeds.toNat

def SpaceCall.after (s : TxCounters) (hwXmited : BitVec 32) (c : SpaceCall) : SpaceCall :=
  { c with readings := ⟨s, hwXmited, (takeReading hwXmited s).2, (takeReading hwXmited s).1⟩ :: c.readings }

/-- The `while` of `atbm_sdio_wait_enough_space`; none when the fuel runs out. -/
def waitLoop (polls : Nat → SpacePoll) (nNeeds : BitVec 32) : Nat → Nat → TxCounters → Option SpaceCall
  | 0, _, _ => none
  | fuel + 1, loop, s =>
    if (polls loop).term then some ⟨s, false, []⟩
    else
      match (polls loop).read with
      | none => some ⟨s, false, []⟩
      | some hwXmited =>
        let r := takeReading hwXmited s
        let rest :=
          if enoughAfter nNeeds r then some ⟨r.1, true, []⟩
          else if (loop + 1) % maxPoolBuffNum ≠ 0 then waitLoop polls nNeeds fuel (loop + 1) r.1
          else if loop + 1 ≥ maxLoopPollCnt then some ⟨r.1, false, []⟩
          else waitLoop polls nNeeds fuel (loop + 1) r.1
        rest.map (SpaceCall.after s hwXmited)

def atbmSdioWaitEnoughSpace (polls : Nat → SpacePoll) (nNeeds : BitVec 32) (s : TxCounters) : Option SpaceCall :=
  if freeAtLeast s.hwBufsFree nNeeds.toNat then some ⟨s, true, []⟩
  else waitLoop polls nNeeds maxLoopPollCnt 0 s

/-- The `pool_buffs` loop of `atbm_sdio_have_enough_space`. -/
def poolLoop (polls : Nat → SpacePoll) (nNeeds : BitVec 32) : Nat → Nat → TxCounters → Option SpaceCall
  | 0, _, _ => none
  | fuel + 1, nPools, s =>
    match (polls nPools).read with
    | none => some ⟨s, false, []⟩
    | some hwXmited =>
      let r := takeReading hwXmited s
      let rest :=
        if enoughAfter nNeeds r = false ∧ (nPools + 1) % maxPoolBuffNum ≠ 0 then
          poolLoop polls nNeeds fuel (nPools + 1) r.1
        else some ⟨r.1, enoughAfter nNeeds r, []⟩
      rest.map (SpaceCall.after s hwXmited)

def atbmSdioHaveEnoughSpace (polls : Nat → SpacePoll) (nNeeds : BitVec 32) (s : TxCounters) : Option SpaceCall :=
  if freeAtLeast s.hwBufsFree nNeeds.toNat then some ⟨s, true, []⟩
  else if (polls 0).term then some ⟨{ s with hwBufsFree := nNeeds.toInt }, true, []⟩
  else poolLoop polls nNeeds maxPoolBuffNum 0 s

/-- Frames written and not yet sent, modulo `2^32`. -/
def inDevice (n h : BitVec 32) : Nat := (n - h).toNat

/-- The device's counter is below `2^31` and the driver's is not. -/
def Straddles (n h : BitVec 32) : Prop := h.toNat < 2 ^ 31 ∧ 2 ^ 31 ≤ n.toNat

instance (n h : BitVec 32) : Decidable (Straddles n h) := inferInstanceAs (Decidable (_ ∧ _))

/-- **What is wanted of a reading**: within the window it becomes the free count, outside it changes nothing. -/
def Reading.Judged (p : Reading) : Prop :=
  (inDevice p.before.nXmits p.hwXmited ≤ p.before.numInpChBufs.toNat → p.accepted = true ∧
    p.after.hwBufsFree = p.before.numInpChBufs.toNat - inDevice p.before.nXmits p.hwXmited) ∧
  (p.before.numInpChBufs.toNat < inDevice p.before.nXmits p.hwXmited → p.accepted = false ∧ p.after = p.before)

instance (p : Reading) : Decidable p.Judged := inferInstanceAs (Decidable ((_ → _) ∧ (_ → _)))

/-- No reading within the window straddles `2^31`. -/
def Reading.Clear (p : Reading) : Prop :=
  inDevice p.before.nXmits p.hwXmited ≤ p.before.numInpChBufs.toNat → ¬ Straddles p.before.nXmits p.hwXmited

section
variable {h : BitVec 32} {s : TxCounters}

theorem signed_tests (n h : BitVec 32) (k : BitVec 16) :
    (n.toInt < h.toInt ∨ (n - h).toInt > k.toNat ∨ (n - h).toInt < 0) ↔
      k.toNat < inDevice n h ∨ Straddles n h := by
  have hn := n.isLt
  have hh := h.isLt
  have hk := k.isLt
  have hd : inDevice n h = (2 ^ 32 - h.toNat + n.toNat) % 2 ^ 32 := BitVec.toNat_sub n h
  have hd' : (n - h).toNat = (2 ^ 32 - h.toNat + n.toNat) % 2 ^ 32 := hd
  unfold Straddles
  rw [hd, BitVec.toInt_eq_toNat_cond n, BitVec.toInt_eq_toNat_cond h, BitVec.toInt_eq_toNat_cond (n - h), hd']
  split <;> split <;> split <;> omega

/-- **A reading is taken iff it is within the window and does not straddle `2^31`.** -/
theorem reading_iff : (takeReading h s).2 = true ↔
    inDevice s.nXmits h ≤ s.numInpChBufs.toNat ∧ ¬ Straddles s.nXmits h := by
  unfold takeReading
  have key := signed_tests s.nXmits h s.numInpChBufs
  split
  · next hc =>
    rw [key] at hc
    refine iff_of_false Bool.false_ne_true fun hw => ?_
    rcases hc with hc | hc
    · exact absurd hw.1 (Nat.not_le.mpr hc)
    · exact hw.2 hc
  · next hc =>
    rw [key, not_or] at hc
    exact iff_of_true rfl ⟨Nat.not_lt.mp hc.1, hc.2⟩

theorem takeReading_rejected (hr : (takeReading h s).2 = false) : takeReading h s = (s, false) := by
  unfold takeReading at hr ⊢
  split at hr
  · next hc => rw [if_pos hc]
  · cases hr

theorem takeReading_free (hr : (takeReading h s).2 = true) :
    (takeReading h s).1.hwBufsFree = s.numInpChBufs.toNat - inDevice s.nXmits h := by
  have hw := (reading_iff.mp hr).1
  unfold takeReading at hr ⊢
  split at hr
  · cases hr
  · next hc =>
    rw [if_neg hc]
    show (s.numInpChBufs.setWidth 32 - (s.nXmits - h)).toInt = _
    have hk := s.numInpChBufs.isLt
    have hwide : (s.numInpChBufs.setWidth 32).toNat = s.numInpChBufs.toNat := by
      rw [BitVec.toNat_setWidth]
      exact Nat.mod_eq_of_lt (by omega)
    have hle : s.nXmits - h ≤ s.numInpChBufs.setWidth 32 := by
      rw [BitVec.le_def, hwide]
      exact hw
    have hnat : (s.numInpChBufs.setWidth 32 - (s.nXmits - h)).toNat = s.numInpChBufs.toNat - inDevice s.nXmits h := by
      rw [BitVec.toNat_sub_of_le hle, hwide]
      rfl
    rw [BitVec.toInt_eq_toNat_cond, hnat, if_pos (by omega)]
    exact Int.ofNat_sub hw

theorem judged_iff : (Reading.mk s h (takeReading h s).2 (takeReading h s).1).Judged ↔
    (Reading.mk s h (takeReading h s).2 (takeReading h s).1).Clear := by
  unfold Reading.Judged Reading.Clear
  dsimp only
  constructor
  · intro hj hw
    exact (reading_iff.mp (hj.1 hw).1).2
  · intro hc
    refine ⟨fun hw => ?_, fun hw => ?_⟩
    · have hr := reading_iff.mpr ⟨hw, hc hw⟩
      exact ⟨hr, takeReading_free hr⟩
    · have hr : (takeReading h s).2 = false := by
        apply Bool.eq_false_iff.mpr
        intro hr
        exact absurd (reading_iff.mp hr).1 (Nat.not_le.mpr hw)
      exact ⟨hr, congrArg Prod.fst (takeReading_rejected hr)⟩

end

/-- Each reading of a call was treated by the section under the lock. -/
def SpaceCall.Taken (c : SpaceCall) : Prop :=
  ∀ p ∈ c.readings, (p.after, p.accepted) = takeReading p.hwXmited p.before

theorem SpaceCall.Taken.after {c : SpaceCall} (hc : c.Taken) (s : TxCounters) (h : BitVec 32) : (c.after s h).Taken := by
  intro p hp
  rcases List.mem_cons.mp hp with rfl | hp
  · rfl
  · exact hc p hp

section
variable (polls : Nat → SpacePoll) (nNeeds : BitVec 32)

theorem waitLoop_taken (fuel loop : Nat) (s : TxCounters) (h1 : loop < maxLoopPollCnt)
    (h2 : maxLoopPollCnt ≤ fuel + loop) : ∃ c, waitLoop polls nNeeds fuel loop s = some c ∧ c.Taken := by
  induction fuel generalizing loop s with
  | zero => omega
  | succ fuel ih =>
    have hnil : ∀ t b, (SpaceCall.mk t b []).Taken := fun _ _ => nofun
    unfold waitLoop
    split
    · exact ⟨_, rfl, hnil _ _⟩
    · split
      · exact ⟨_, rfl, hnil _ _⟩
      · next h _ =>
        dsimp only
        split
        · exact ⟨_, rfl, (hnil _ _).after s h⟩
        · split
          · next hmod =>
            have hlt : loop + 1 < maxLoopPollCnt := by
              unfold maxLoopPollCnt maxPoolBuffNum at *
              omega
            obtain ⟨c, hc, ht⟩ := ih (loop + 1) (takeReading h s).1 hlt (by omega)
            rw [hc]
            exact ⟨_, rfl, ht.after s h⟩
          · split
            · exact ⟨_, rfl, (hnil _ _).after s h⟩
            · next hlt =>
              obtain ⟨c, hc, ht⟩ := ih (loop + 1) (takeReading h s).1 (by omega) (by omega)
              rw [hc]
              exact ⟨_, rfl, ht.after s h⟩

theorem poolLoop_taken (fuel nPools : Nat) (s : TxCounters) (h1 : nPools < maxPoolBuffNum)
    (h2 : maxPoolBuffNum ≤ fuel + nPools) : ∃ c, poolLoop polls nNeeds fuel nPools s = some c ∧ c.Taken := by
  induction fuel generalizing nPools s with
  | zero => omega
  | succ fuel ih =>
    have hnil : ∀ t b, (SpaceCall.mk t b []).Taken := fun _ _ => nofun
    unfold poolLoop
    split
    · exact ⟨_, rfl, hnil _ _⟩
    · next h _ =>
      dsimp only
      split
      · next hc =>
        have hlt : nPools + 1 < maxPoolBuffNum := by
          have := hc.2
          unfold maxPoolBuffNum at *
          omega
        obtain ⟨c, hc, ht⟩ := ih (nPools + 1) (takeReading h s).1 hlt (by omega)
        rw [hc]
        exact ⟨_, rfl, ht.after s h⟩
      · exact ⟨_, rfl, (hnil _ _).after s h⟩

theorem wait_taken (s : TxCounters) : ∃ c, atbmSdioWaitEnoughSpace polls nNeeds s = some c ∧ c.Taken := by
  unfold atbmSdioWaitEnoughSpace
  split
  · exact ⟨_, rfl, nofun⟩
  · exact waitLoop_taken polls nNeeds maxLoopPollCnt 0 s (by decide) (Nat.le_refl _)

theorem have_taken (s : TxCounters) : ∃ c, atbmSdioHaveEnoughSpace polls nNeeds s = some c ∧ c.Taken := by
  unfold atbmSdioHaveEnoughSpace
  split
  · exact ⟨_, rfl, nofun⟩
  · split
    · exact ⟨_, rfl, nofun⟩
    · exact poolLoop_taken polls nNeeds maxPoolBuffNum 0 s (by decide) (Nat.le_refl _)

theorem SpaceCall.Taken.judged_iff {c : SpaceCall} (hc : c.Taken) :
    (∀ p ∈ c.readings, p.Judged) ↔ ∀ p ∈ c.readings, p.Clear := by
  refine forall₂_congr fun p hp => ?_
  have ht := hc p hp
  have hp : p = Reading.mk p.before p.hwXmited (takeReading p.hwXmited p.before).2
      (takeReading p.hwXmited p.before).1 := by
    rw [← ht]
  rw [hp]
  exact AtbmWifi.judged_iff

end

/-- The register reads `h` at every poll, and the driver is not being taken down. -/
def idlePolls (h : BitVec 32) : Nat → SpacePoll := fun _ => ⟨false, some h⟩

theorem idlePolls_term (h : BitVec 32) (i : Nat) : ¬ (idlePolls h i).term = true := Bool.false_ne_true

section
variable {h nNeeds : BitVec 32} {s : TxCounters}

theorem waitLoop_stuck (hr : (takeReading h s).2 = false) {fuel loop : Nat} {c : SpaceCall}
    (hc : waitLoop (idlePolls h) nNeeds fuel loop s = some c) : c.counters = s ∧ c.enough = false := by
  have hs := takeReading_rejected hr
  induction fuel generalizing loop c with
  | zero => cases hc
  | succ fuel ih =>
    unfold waitLoop at hc
    rw [if_neg (idlePolls_term h loop)] at hc
    dsimp only [idlePolls] at hc
    rw [hs] at hc
    obtain ⟨c', hc', rfl⟩ := Option.map_eq_some_iff.mp hc
    show c'.counters = s ∧ c'.enough = false
    split at hc'
    · next he => cases he
    · split at hc'
      · exact ih hc'
      · split at hc'
        · cases hc'
          exact ⟨rfl, rfl⟩
        · exact ih hc'

theorem poolLoop_stuck (hr : (takeReading h s).2 = false) {fuel nPools : Nat} {c : SpaceCall}
    (hc : poolLoop (idlePolls h) nNeeds fuel nPools s = some c) : c.counters = s ∧ c.enough = false := by
  have hs := takeReading_rejected hr
  induction fuel generalizing nPools c with
  | zero => cases hc
  | succ fuel ih =>
    unfold poolLoop at hc
    dsimp only [idlePolls] at hc
    rw [hs] at hc
    obtain ⟨c', hc', rfl⟩ := Option.map_eq_some_iff.mp hc
    show c'.counters = s ∧ c'.enough = false
    split at hc'
    · exact ih hc'
    · cases hc'
      exact ⟨rfl, rfl⟩

theorem idle_stuck (hfree : freeAtLeast s.hwBufsFree nNeeds.toNat = false) (hr : (takeReading h s).2 = false) :
    (∃ c, atbmSdioWaitEnoughSpace (idlePolls h) nNeeds s = some c ∧ c.counters = s ∧ c.enough = false) ∧
      ∃ c, atbmSdioHaveEnoughSpace (idlePolls h) nNeeds s = some c ∧ c.counters = s ∧ c.enough = false := by
  obtain ⟨w, hw, -⟩ := wait_taken (idlePolls h) nNeeds s
  obtain ⟨c, hc, -⟩ := have_taken (idlePolls h) nNeeds s
  refine ⟨⟨w, hw, ?_⟩, ⟨c, hc, ?_⟩⟩
  · unfold atbmSdioWaitEnoughSpace at hw
    rw [hfree, if_neg Bool.false_ne_true] at hw
    exact waitLoop_stuck hr hw
  · unfold atbmSdioHaveEnoughSpace at hc
    rw [hfree, if_neg Bool.false_ne_true, if_neg (idlePolls_term h 0)] at hc
    exact poolLoop_stuck hr hc

end

/-- One frame is in the device: the `2^31`-th, counted by the driver. -/
def straddled : TxCounters := ⟨0x80000000, 0x7fffffff, 32, 0, 0⟩

end AtbmWifi
