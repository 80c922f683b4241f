import Mathlib.Data.List.Perm.Basic
import AtbmWifi.Mac80211.Reorder

/-!
# Runs of the receive reorder buffer

* `reorder_conserves`: each frame received is handed on, freed, given to the work or in the ring, once.
* `reorder_inOrder`: with a size above 1 that divides 4096, the frames of the window are handed on in order.
* `reorder_timeout`: and what the timer leaves has not waited too long.
-/

namespace AtbmWifi

open Transition

namespace RxReorder

variable {s t : RxReorder} {i j k m n top f hz ssn b jiffies : Nat} {skb : AmpduSkb} {l : List AmpduSkb}

def handed (s : RxReorder) : List AmpduSkb := s.frames.map (·.2.2) ++ s.freed ++ s.work

/-- The frames of `l` are handed on or stored, and the count is that of the ring. -/
structure Kept (l : List AmpduSkb) (s : RxReorder) : Prop where
  size : 0 < s.bufSize
  beyond : ∀ i, s.bufSize ≤ i → s.reorderBuf i = none
  num : s.storedMpduNum = s.stored.length
  held : (s.handed ++ s.stored).Perm l

theorem perm_filterMap {α : Type} {f g : Nat → Option α} (hi : i < n) (h : ∀ k, k ≠ i → g k = f k) :
    ((List.range n).filterMap g ++ (f i).toList).Perm ((List.range n).filterMap f ++ (g i).toList) := by
  have split (f : Nat → Option α) :
      ((List.range n).filterMap f).Perm ((f i).toList ++ ((List.range n).erase i).filterMap f) := by
    have hp := (List.perm_cons_erase (List.mem_range.mpr hi)).filterMap f
    cases hf : f i with
    | none => rwa [List.filterMap_cons_none hf] at hp
    | some x => rwa [List.filterMap_cons_some hf] at hp
  have hrest : ((List.range n).erase i).filterMap g = ((List.range n).erase i).filterMap f := by
    apply List.filterMap_congr
    intro k hk
    exact h k (List.nodup_range.mem_erase_iff.mp hk).1
  have hg := (split g).append_right (f i).toList
  have hf := (split f).append_right (g i).toList
  rw [hrest] at hg
  refine hg.trans (.trans ?_ hf.symm)
  rw [List.append_assoc (f i).toList]
  exact List.perm_append_comm.trans (List.perm_append_comm.append_left _)

theorem stored_perm (hi : i < s.bufSize) (hsize : t.bufSize = s.bufSize)
    (h : ∀ k, k ≠ i → t.reorderBuf k = s.reorderBuf k) :
    (t.stored ++ ((s.reorderBuf i).map Prod.snd).toList).Perm (s.stored ++ ((t.reorderBuf i).map Prod.snd).toList) := by
  unfold stored
  rw [hsize]
  apply perm_filterMap hi
  intro k hk
  rw [h k hk]

theorem slotOf_lt (h : 0 < s.bufSize) (sq : Nat) : s.slotOf sq < s.bufSize := Nat.mod_lt _ h

namespace Kept

theorem take (h : Kept l s) (hi : i < s.bufSize) : Kept l (s.take i) := by
  have hp := stored_perm (t := s.take i) hi rfl fun k hk => Function.update_of_ne hk ..
  have hnone : (s.take i).reorderBuf i = none := Function.update_self ..
  rw [hnone, Option.map_none, Option.toList_none, List.append_nil] at hp
  refine ⟨h.size, fun k hk => ?_, ?_, .trans ?_ h.held⟩
  · exact (Function.update_of_ne (by have : s.bufSize ≤ k := hk; omega) ..).trans (h.beyond k hk)
  · have hlen := hp.length_eq
    show s.storedMpduNum - (s.reorderBuf i).isSome.toNat = _
    rw [List.length_append] at hlen
    have hnum := h.num
    cases hb : s.reorderBuf i with
    | none => simp [hb] at hlen ⊢; omega
    | some x => simp [hb] at hlen ⊢; omega
  · refine .trans ?_ (hp.append_left s.handed)
    have hh : (s.take i).handed =
        s.frames.map (·.2.2) ++ ((s.reorderBuf i).map Prod.snd).toList ++ s.freed ++ s.work := by
      cases hb : s.reorderBuf i <;> simp [handed, RxReorder.take, hb]
    rw [hh, List.perm_iff_count]
    intro x
    simp only [handed, List.count_append]
    omega

theorem advance (h : Kept l s) : Kept l (s.advance k) := ⟨h.size, h.beyond, h.num, h.held⟩

theorem release (h : Kept l s) (hi : i < s.bufSize) : Kept l (s.releaseReorderFrame i) := (h.take hi).advance

theorem frames (h : Kept l s) (hd : Nat) : Kept l (s.releaseReorderFrames hd f) := by
  induction f generalizing s with
  | zero => exact h
  | succ f ih =>
    unfold releaseReorderFrames
    split
    · exact ih (h.release (slotOf_lt h.size _))
    · exact h

theorem run (h : Kept l s) : Kept l (s.releaseRun f) := by
  induction f generalizing s with
  | zero => exact h
  | succ f ih =>
    unfold releaseRun
    split
    · exact ih (h.release (slotOf_lt h.size _))
    · exact h

theorem timedOut (h : Kept l s) (jiffies : Nat) (hj : j < s.bufSize) : Kept l (s.releaseTimedOut jiffies i f j k).1 := by
  induction f generalizing s j k with
  | zero => exact h
  | succ f ih =>
    have hnext : (j + 1) % s.bufSize < s.bufSize := Nat.mod_lt _ h.size
    unfold releaseTimedOut
    split
    · exact h
    split
    · exact ih h hnext
    split
    · exact h
    · exact ih (h.release hj).advance hnext

theorem timer (h : Kept l s) (x : Option Nat) : Kept l { s with reorderTimer := x } := ⟨h.size, h.beyond, h.num, h.held⟩

theorem arm (h : Kept l s) : Kept l s.armTimer := by
  unfold armTimer
  split
  · exact h.timer _
  · exact h.timer none

theorem staReorderRelease (h : Kept l s) : Kept l (s.staReorderRelease jiffies) := by
  unfold RxReorder.staReorderRelease
  dsimp only
  split
  · have ht := h.timedOut jiffies (i := s.slotOf s.headSeqNum) (f := s.bufSize) (k := 1)
      (Nat.mod_lt (s.slotOf s.headSeqNum + 1) h.size)
    split
    · next hr => rw [hr] at ht; exact ht.timer _
    · next hr => rw [hr] at ht; exact ht.arm
  · exact h.run.arm

theorem same (h : Kept l s) (hb : t.reorderBuf = s.reorderBuf) (hn : t.storedMpduNum = s.storedMpduNum)
    (hsize : t.bufSize = s.bufSize) (hh : t.handed.Perm (s.handed ++ [skb])) : Kept (l ++ [skb]) t := by
  have hs : t.stored = s.stored := by unfold stored; rw [hb, hsize]
  refine ⟨hsize ▸ h.size, hb ▸ hsize ▸ h.beyond, hn.trans (h.num.trans (by rw [hs])), ?_⟩
  rw [hs]
  refine (hh.append_right _).trans (.trans ?_ (h.held.append_right _))
  rw [List.append_assoc, List.append_assoc]
  exact .append_left _ List.perm_append_comm

theorem store (h : Kept l s) (hb : s.reorderBuf (s.slotOf skb.seqNum) = none) :
    Kept (l ++ [skb]) (s.store jiffies skb) := by
  have hi := slotOf_lt h.size skb.seqNum
  have hp := stored_perm (t := s.store jiffies skb) hi rfl fun k hk => Function.update_of_ne hk ..
  have hsome : (s.store jiffies skb).reorderBuf (s.slotOf skb.seqNum) = some (_, skb) := Function.update_self ..
  rw [hb, hsome, Option.map_none, Option.toList_none, List.append_nil, Option.map_some, Option.toList_some] at hp
  refine ⟨h.size, fun k hk => ?_, ?_, ?_⟩
  · exact (Function.update_of_ne (by have : s.bufSize ≤ k := hk; omega) ..).trans (h.beyond k hk)
  · rw [hp.length_eq, List.length_append, ← h.num]
    rfl
  · refine (hp.append_left _).trans ?_
    rw [← List.append_assoc]
    exact h.held.append_right _

theorem handOn (h : Kept l s) {how : RxRelease} : Kept (l ++ [skb]) (s.pass how n skb) := by
  refine h.same rfl rfl rfl (List.perm_iff_count.mpr fun x => ?_)
  simp only [handed, pass, List.map_append, List.map_cons, List.map_nil, List.count_append]
  omega

theorem free (h : Kept l s) : Kept (l ++ [skb]) { s with freed := s.freed ++ [skb] } := by
  refine h.same rfl rfl rfl (List.perm_iff_count.mpr fun x => ?_)
  simp only [handed, List.count_append]
  omega

theorem insert (h : Kept l s) : Kept (l ++ [skb]) (s.insert jiffies skb) := by
  unfold RxReorder.insert
  split
  · exact h.free
  · next hb =>
    split
    · exact h.handOn.advance
    split
    · exact h.handOn.advance
    · exact (h.store (by simpa using hb)).staReorderRelease

theorem count (h : Kept l s) : Kept l (s.countShort hz skb) := by
  unfold countShort setShort
  repeat' split
  all_goals exact ⟨h.size, h.beyond, h.num, h.held⟩

theorem rxReorderAmpdu (h : Kept l s) : Kept (l ++ [skb]) (s.rxReorderAmpdu hz jiffies skb) := by
  have hc : Kept l (s.countShort hz skb) := h.count
  unfold RxReorder.rxReorderAmpdu staManageReorderBuf makeRoom
  split
  · exact h.handOn
  split
  · exact h.same rfl rfl rfl (by unfold handed; simp)
  split
  · split
    · exact hc.free
    · exact hc.handOn
  split
  · exact hc.insert
  · exact (hc.frames _).insert

end Kept

/-- What is handed on of the window. -/
def ordered (s : RxReorder) : List (RxRelease × Nat × AmpduSkb) :=
  s.frames.filter fun x => x.1 = .inOrder ∨ x.1 = .early

/-- In order; a number may come again behind an EAPOL frame that did not wait. -/
def Before (x y : RxRelease × Nat × AmpduSkb) : Prop := x.2.1 < y.2.1 ∨ x.2.1 = y.2.1 ∧ x.1 = .early

/-- The stored frames, all from number `m` on, stand in their slots, and what was handed on is in order. -/
structure Window (hz ssn b m : Nat) (s : RxReorder) : Prop where
  start : ssn < seqModulo ∧ s.ssn = ssn
  size : (1 < b ∧ b ≤ 64) ∧ b ∣ seqModulo ∧ s.bufSize = b
  timeout : s.htRxReorderBufTimeout ∈ [hz / 10, hz / 4, hz / 2]
  head : s.headSeqNum = (ssn + s.pos) % seqModulo
  le : s.pos ≤ m
  held : ∀ i n k, s.reorderBuf i = some (n, k) →
    i = n % b ∧ m ≤ n ∧ n < s.pos + b ∧ k.seqNum = (ssn + n) % seqModulo
  passed : ∀ x ∈ s.ordered, x.2.2.seqNum = (ssn + x.2.1) % seqModulo ∧ (x.2.1 < s.pos ∨ x.2.1 = s.pos ∧ x.1 = .early)
  sorted : s.ordered.Pairwise Before

theorem eq_of_mod (h : n % b = m % b) (hle : m ≤ n) (hlt : n < m + b) : n = m := by
  have hd := (Nat.modEq_iff_dvd' hle).mp (show m ≡ n [MOD b] from h.symm)
  have := Nat.eq_zero_of_dvd_of_lt hd (by omega)
  omega

theorem take_sub {x : Nat × AmpduSkb} (h : (s.take j).reorderBuf i = some x) : i ≠ j ∧ s.reorderBuf i = some x := by
  by_cases hne : i = j
  · rw [hne] at h
    exact absurd (h.symm.trans (Function.update_self ..)) (by simp)
  · exact ⟨hne, (Function.update_of_ne hne ..).symm.trans h⟩

theorem frames_sub {x : Nat × AmpduSkb} {hd : Nat} (h : (s.releaseReorderFrames hd f).reorderBuf i = some x) :
    s.reorderBuf i = some x := by
  induction f generalizing s with
  | zero => exact h
  | succ f ih =>
    unfold releaseReorderFrames at h
    split at h
    · have hr := ih h
      exact (take_sub (s := s) (j := s.slotOf s.headSeqNum) hr).2
    · exact h

/-- The slot of the first frame that is stored. -/
def First (j : Nat) (s : RxReorder) : Prop :=
  ∃ x, s.reorderBuf j = some x ∧ ∀ i y, s.reorderBuf i = some y → x.1 ≤ y.1

/-- While frames are stored the timer is set for the first of them. -/
def Due (hz : Nat) (s : RxReorder) : Prop :=
  s.storedMpduNum ≠ 0 → ∃ j, s.First j ∧ ∃ d ∈ [hz / 10, hz / 4, hz / 2], s.reorderTimer = some (s.reorderTime j + 1 + d)

namespace Window

theorem slot (h : Window hz ssn b m s) (n : Nat) : s.slotOf ((ssn + n) % seqModulo) = n % b := by
  have hs : seqSub ((ssn + n) % seqModulo) ssn = n % seqModulo := by
    have := h.start.1
    unfold seqSub seqModulo at *
    omega
  unfold slotOf
  rw [h.start.2, h.size.2.2, hs, Nat.mod_mod_of_dvd _ h.size.2.1]

theorem slot_head (h : Window hz ssn b m s) : s.slotOf s.headSeqNum = s.pos % b := by rw [h.head, h.slot]

theorem at_slot (h : Window hz ssn b m s) {x : Nat × AmpduSkb} (hb : s.reorderBuf (n % b) = some x) (hn : s.pos ≤ n)
    (hlt : n < s.pos + b) : x.1 = n := by
  obtain ⟨hi, hm, hx, -⟩ := h.held _ _ _ hb
  have := h.le
  rcases Nat.le_total n x.1 with hle | hle
  · exact eq_of_mod hi.symm hle (by omega)
  · exact (eq_of_mod hi hle (by omega)).symm

theorem skip (h : Window hz ssn b m s) (hb : s.reorderBuf (m % b) = none) : Window hz ssn b (m + 1) s := by
  refine ⟨h.start, h.size, h.timeout, h.head, Nat.le_succ_of_le h.le, fun i n k hi => ?_, h.passed, h.sorted⟩
  obtain ⟨hslot, hm, hrest⟩ := h.held i n k hi
  refine ⟨hslot, Nat.lt_of_le_of_ne hm ?_, hrest⟩
  rintro rfl
  rw [hslot, hb] at hi
  cases hi

theorem lower (h : Window hz ssn b m s) (hn : s.pos ≤ n) (hle : n ≤ m) : Window hz ssn b n s :=
  ⟨h.start, h.size, h.timeout, h.head, hn,
    fun i n' k hi => ⟨(h.held i n' k hi).1, Nat.le_trans hle (h.held i n' k hi).2.1, (h.held i n' k hi).2.2⟩,
    h.passed, h.sorted⟩

theorem append (h : Window hz ssn b m s) {how : RxRelease} (hhow : how = .inOrder ∨ how = .early) (hn : s.pos ≤ n)
    (hseq : skb.seqNum = (ssn + n) % seqModulo) (hlt : n < i ∨ n = i ∧ how = .early) :
    (∀ x ∈ (s.pass how n skb).ordered,
      x.2.2.seqNum = (ssn + x.2.1) % seqModulo ∧ (x.2.1 < i ∨ x.2.1 = i ∧ x.1 = .early)) ∧
      (s.pass how n skb).ordered.Pairwise Before := by
  have ho : (s.pass how n skb).ordered = s.ordered ++ [(how, n, skb)] := by
    simp [ordered, pass, List.filter_append, hhow]
  rw [ho]
  refine ⟨fun x hx => ?_, List.pairwise_append.mpr ⟨h.sorted, List.pairwise_singleton .., fun x hx y hy => ?_⟩⟩
  · rcases List.mem_append.mp hx with hx | hx
    · refine ⟨(h.passed x hx).1, ?_⟩
      rcases (h.passed x hx).2 with hp | ⟨hp, he⟩
      · exact .inl (by omega)
      · exact (Nat.lt_or_eq_of_le (by omega)).imp id fun hx => ⟨hx, he⟩
    · obtain rfl := List.mem_singleton.mp hx
      exact ⟨hseq, hlt⟩
  · obtain rfl := List.mem_singleton.mp hy
    rcases (h.passed x hx).2 with hp | ⟨hp, he⟩
    · exact .inl (Nat.lt_of_lt_of_le hp hn)
    · exact (Nat.lt_or_eq_of_le (hp ▸ hn : x.2.1 ≤ n)).imp id fun hx => ⟨hx, he⟩

/-- The slot of number `m` is emptied, and the head comes to stand behind it. -/
theorem release (h : Window hz ssn b m s) (hm : m < s.pos + b) (hk : m = s.pos + k) :
    Window hz ssn b (m + 1) ((s.take (m % b)).advance (k + 1)) := by
  have hhead : (s.headSeqNum + (k + 1)) % seqModulo = (ssn + (s.pos + (k + 1))) % seqModulo := by
    rw [h.head, Nat.mod_add_mod, Nat.add_assoc]
  have hpos : s.pos + (k + 1) = m + 1 := by omega
  have hout : (∀ x ∈ (s.take (m % b)).ordered, x.2.2.seqNum = (ssn + x.2.1) % seqModulo ∧
      (x.2.1 < m + 1 ∨ x.2.1 = m + 1 ∧ x.1 = .early)) ∧ (s.take (m % b)).ordered.Pairwise Before := by
    cases hb : s.reorderBuf (m % b) with
    | none =>
      have ho : (s.take (m % b)).ordered = s.ordered := by simp [ordered, take, hb]
      rw [ho]
      exact ⟨fun x hx => ⟨(h.passed x hx).1, .inl (by have := (h.passed x hx).2; omega)⟩, h.sorted⟩
    | some x =>
      have ho : (s.take (m % b)).ordered = (s.pass .inOrder x.1 x.2).ordered := by simp [ordered, take, pass, hb]
      have hx := h.at_slot hb h.le hm
      rw [ho]
      exact h.append (.inl rfl) (hx ▸ h.le) (h.held _ _ _ hb).2.2.2 (.inl (by omega))
  rw [← hpos] at hout
  refine ⟨h.start, h.size, h.timeout, hhead, hpos.le, fun i n x hi => ?_, hout.1, hout.2⟩
  obtain ⟨hne, hold⟩ := take_sub hi
  obtain ⟨hslot, hmn, hlt, hseq⟩ := h.held i n x hold
  refine ⟨hslot, Nat.lt_of_le_of_ne hmn ?_, ?_, hseq⟩
  · rintro rfl
    exact hne hslot
  · show n < s.pos + (k + 1) + b
    omega

theorem releaseHead (h : Window hz ssn b s.pos s) :
    Window hz ssn b (s.pos + 1) (s.releaseReorderFrame (s.slotOf s.headSeqNum)) := by
  have := h.size.1.1
  rw [h.slot_head]
  exact h.release (k := 0) (by omega) rfl

theorem frames (h : Window hz ssn b s.pos s) (hle : s.pos ≤ n) (hlt : n < s.pos + seqModulo / 2) (hf : n ≤ s.pos + f) :
    Window hz ssn b n (s.releaseReorderFrames ((ssn + n) % seqModulo) f) ∧
      (s.releaseReorderFrames ((ssn + n) % seqModulo) f).pos = n := by
  induction f generalizing s with
  | zero =>
    obtain rfl : n = s.pos := by omega
    exact ⟨h, rfl⟩
  | succ f ih =>
    have hless : seqLess s.headSeqNum ((ssn + n) % seqModulo) = decide (s.pos < n) := by
      rw [h.head]
      unfold seqLess seqSub seqModulo at *
      rw [decide_eq_decide]
      omega
    unfold releaseReorderFrames
    rw [hless]
    split
    · next hn =>
      have hn := of_decide_eq_true hn
      exact ih h.releaseHead hn (by show n < s.pos + 1 + _; omega) (by show n ≤ s.pos + 1 + _; omega)
    · next hn =>
      obtain rfl : n = s.pos := by simp at hn; omega
      exact ⟨h, rfl⟩

theorem run (h : Window hz ssn b s.pos s) (htop : ∀ i n k, s.reorderBuf i = some (n, k) → n < s.pos + f) :
    Window hz ssn b (s.releaseRun f).pos (s.releaseRun f) ∧
      (s.releaseRun f).reorderBuf ((s.releaseRun f).pos % b) = none := by
  induction f generalizing s with
  | zero =>
    refine ⟨h, ?_⟩
    cases hb : s.reorderBuf (s.pos % b) with
    | none => exact hb
    | some x =>
      have := (h.held _ _ _ hb).2.1
      have := htop _ _ _ hb
      omega
  | succ f ih =>
    unfold releaseRun
    split
    · refine ih h.releaseHead fun i n k hi => ?_
      show n < s.pos + 1 + f
      have := htop i n k (take_sub hi).2
      omega
    · next hb => exact ⟨h, by rwa [h.slot_head, Bool.not_eq_true, Option.isSome_eq_false_iff, Option.isNone_iff_eq_none] at hb⟩

theorem clear (h : Window hz ssn b m s) (hnone : ∀ i, s.reorderBuf i = none) : Window hz ssn b (s.pos + 1) s :=
  ⟨h.start, h.size, h.timeout, h.head, Nat.le_succ _, fun i n k hi => (by rw [hnone i] at hi; cases hi), h.passed, h.sorted⟩

theorem none_of (h : Window hz ssn b m s) (hm : top ≤ m) (htop : ∀ i x, s.reorderBuf i = some x → x.1 < top) (i : Nat) :
    s.reorderBuf i = none := by
  cases hb : s.reorderBuf i with
  | none => rfl
  | some x =>
    have := (h.held i _ _ hb).2.1
    have := htop i x hb
    omega

theorem first (h : Window hz ssn b m s) (hb : (s.reorderBuf (m % b)).isSome = true) (hm : m < s.pos + b) :
    s.First (m % b) := by
  obtain ⟨x, hx⟩ := Option.isSome_iff_exists.mp hb
  refine ⟨x, hx, fun i y hy => ?_⟩
  rw [h.at_slot hx h.le hm]
  exact (h.held i _ _ hy).2.1

/-- The loop behind an empty head, `p`, whose window it goes through. -/
theorem timedOut {p : Nat} (h : Window hz ssn b m s) (jiffies : Nat) (hk : m = s.pos + k) (hp : p < m) (hm : m ≤ p + b)
    (hf : p + b ≤ m + f) (htop : ∀ i x, s.reorderBuf i = some x → x.1 < p + b) :
    let r := s.releaseTimedOut jiffies (p % b) f (m % b) k
    Window hz ssn b (r.1.pos + 1) r.1 ∧ (r.2 = none → ∀ i, r.1.reorderBuf i = none) ∧
      ∀ j, r.2 = some j → r.1.First j ∧ ¬r.1.reorderTime j + r.1.htRxReorderBufTimeout < jiffies := by
  induction f generalizing s m k with
  | zero =>
    have hnone := h.none_of hf htop
    exact ⟨h.clear hnone, fun _ => hnone, fun j hj => (by cases hj)⟩
  | succ f ih =>
    have hnext : (m % b + 1) % s.bufSize = (m + 1) % b := by rw [h.size.2.2, Nat.mod_add_mod]
    unfold releaseTimedOut
    rw [hnext]
    split
    · next heq =>
      have hmp : p + b ≤ m := by
        by_contra hlt
        have := eq_of_mod heq (Nat.le_of_lt hp) (by omega)
        omega
      have hnone := h.none_of hmp htop
      exact ⟨h.clear hnone, fun _ => hnone, fun j hj => (by cases hj)⟩
    next hne =>
    have hlt : m < p + b := by
      refine Nat.lt_of_le_of_ne hm ?_
      rintro rfl
      exact hne (Nat.add_mod_right ..)
    split
    · next hb =>
      exact ih (h.skip (Option.isNone_iff_eq_none.mp hb)) (by omega) (by omega) hlt (by omega) htop
    next hb =>
    have hsome : (s.reorderBuf (m % b)).isSome = true := by simpa [Option.isSome_iff_ne_none] using hb
    obtain ⟨x, hx⟩ := Option.isSome_iff_exists.mp hsome
    have hmp : m < s.pos + b := by
      obtain ⟨hslot, hmx, hxp, -⟩ := h.held _ _ _ hx
      omega
    split
    · next hout =>
      refine ⟨h.lower (Nat.le_succ _) (show s.pos + 1 ≤ m by omega), fun hj => (by cases hj), fun j hj => ?_⟩
      obtain rfl := Option.some.inj hj
      exact ⟨h.first hsome hmp, hout.2⟩
    · have hr := h.release hmp hk
      have he : (s.releaseReorderFrame (m % b)).advance k = (s.take (m % b)).advance (k + 1) := by
        unfold releaseReorderFrame advance
        simp only [Nat.mod_add_mod, Nat.add_assoc, Nat.add_comm 1 k]
      rw [he]
      exact ih hr (by show m + 1 = s.pos + (k + 1) + 0; omega) (by omega) hlt (by omega)
        fun i y hy => htop i y (take_sub hy).2

theorem findStored {stop : Int} (h : Window hz ssn b m s) (hstop : stop = (((s.pos % b : Nat) : Int) - 1).tmod b)
    (hsome : ∃ i x, s.reorderBuf i = some x) (hf : s.pos + b ≤ m + f) : s.First (s.findStored stop f (m % b)) := by
  obtain ⟨i, x, hx⟩ := hsome
  obtain ⟨hslot, hmx, hxp, -⟩ := h.held _ _ _ hx
  have hsize := h.size.1.1
  induction f generalizing m with
  | zero => omega
  | succ f ih =>
    unfold RxReorder.findStored
    split
    · next hj =>
      refine h.first (hj.elim (fun hj => ?_) id) (by omega)
      -- the slot before the head is that of the last number of the window
      have hlast : m + 1 = s.pos + b := by
        have hlt := Nat.mod_lt s.pos (Nat.zero_lt_of_lt hsize)
        rw [hstop] at hj
        have hle := h.le
        have hmod : m % b + 1 = s.pos % b := by
          rcases Nat.eq_zero_or_pos (s.pos % b) with h0 | h0
          · rw [h0] at hj
            have hneg : ((0 : Nat) - 1 : Int).tmod b = -1 := by
              show (-1 : Int).tmod b = -1
              rw [Int.neg_tmod, Int.tmod_eq_of_lt (by omega) (by omega)]
            omega
          · rw [Int.tmod_eq_of_lt (by omega) (by omega)] at hj
            omega
        have hmm : (m + 1) % b = s.pos % b := by
          rw [← Nat.mod_add_mod, hmod, Nat.mod_mod]
        by_contra hne
        have := eq_of_mod hmm (by omega) (by omega)
        omega
      have hxm : x.1 = m := by omega
      rw [← hxm, ← hslot, hx]
      rfl
    · next hj =>
      have hb : s.reorderBuf (m % b) = none := by
        simpa [Option.isSome_iff_ne_none] using fun hs => hj (.inr hs)
      have hs := h.skip hb
      rw [h.size.2.2, Nat.mod_add_mod]
      exact ih hs (by omega) (hs.held _ _ _ hx).2.1

theorem timer (h : Window hz ssn b m s) (x : Option Nat) : Window hz ssn b m { s with reorderTimer := x } :=
  ⟨h.start, h.size, h.timeout, h.head, h.le, h.held, h.passed, h.sorted⟩

theorem arm (h : Window hz ssn b (s.pos + 1) s) : Window hz ssn b (s.armTimer.pos + 1) s.armTimer := by
  unfold armTimer
  split
  · exact h.timer _
  · exact h.timer none

theorem first_unique (h : Window hz ssn b m s) (hi : s.First i) (hj : s.First j) : i = j := by
  obtain ⟨x, hx, hxle⟩ := hi
  obtain ⟨y, hy, hyle⟩ := hj
  rw [(h.held i _ _ hx).1, (h.held j _ _ hy).1, Nat.le_antisymm (hxle j y hy) (hyle i x hx)]

theorem due_arm (h : Window hz ssn b (s.pos + 1) s) (hk : Kept l s) : Due hz s.armTimer := by
  unfold armTimer
  split
  · next hn =>
    intro _
    have hsome : ∃ i x, s.reorderBuf i = some x := by
      by_contra hno
      refine hn (hk.num.trans (List.length_eq_zero_iff.mpr (List.filterMap_eq_nil_iff.mpr fun i _ => ?_)))
      cases hb : s.reorderBuf i with
      | none => rfl
      | some x => exact absurd ⟨i, x, hb⟩ hno
    have hfirst := (h.lower (Nat.le_refl _) (Nat.le_succ _)).findStored (f := b) rfl hsome (Nat.le_refl _)
    dsimp only
    rw [h.slot_head, h.size.2.2]
    exact ⟨_, hfirst, _, h.timeout, rfl⟩
  · next hn => exact fun hn' => absurd hn' hn

end Window

theorem first_arm (h : s.armTimer.First j) : s.First j := by
  unfold armTimer at h
  split at h
  · exact h
  · exact h

/-- What holds between two steps of the frames that are stored. -/
structure Sound (hz ssn b : Nat) (s : RxReorder) : Prop where
  window : Window hz ssn b (s.pos + 1) s
  due : Due hz s

theorem Kept.none_of (h : Kept l s) (hn : s.storedMpduNum = 0) (i : Nat) : s.reorderBuf i = none := by
  rcases Nat.lt_or_ge i s.bufSize with hi | hi
  · have := List.filterMap_eq_nil_iff.mp (List.length_eq_zero_iff.mp (h.num.symm.trans hn)) i (List.mem_range.mpr hi)
    simpa using this
  · exact h.beyond i hi

theorem Window.staReorderRelease (h : Window hz ssn b s.pos s) (hk : Kept l s) :
    Sound hz ssn b (s.staReorderRelease jiffies) ∧ (s.reorderBuf (s.pos % b) = none → ∀ j,
      (s.staReorderRelease jiffies).First j →
        ¬(s.staReorderRelease jiffies).reorderTime j + (s.staReorderRelease jiffies).htRxReorderBufTimeout < jiffies) := by
  have hsize := h.size.1.1
  unfold RxReorder.staReorderRelease
  dsimp only
  rw [h.slot_head, h.size.2.2]
  split
  · next hc =>
    have hhead := Option.isNone_iff_eq_none.mp hc.1
    have ht := (h.skip hhead).timedOut (p := s.pos) (k := 1) (f := b) jiffies rfl (Nat.lt_succ_self _)
      (by omega) (by omega) fun i x hx => (h.held i _ _ hx).2.2.1
    have hkt := hk.timedOut jiffies (i := s.pos % b) (f := b) (k := 1) (Nat.mod_lt (s.pos + 1) hk.size)
    rw [h.size.2.2] at hkt
    rw [Nat.mod_add_mod]
    generalize s.releaseTimedOut jiffies (s.pos % b) b ((s.pos + 1) % b) 1 = r at ht hkt ⊢
    obtain ⟨hw, hnone, hsome⟩ := ht
    obtain ⟨t, _ | j⟩ := r
    · refine ⟨⟨hw.arm, hw.due_arm hkt⟩, fun _ j hj => ?_⟩
      obtain ⟨x, hx, -⟩ := first_arm hj
      rw [hnone rfl j] at hx
      cases hx
    · obtain ⟨hj, hout⟩ := hsome j rfl
      refine ⟨⟨hw.timer _, fun _ => ⟨j, hj, _, hw.timeout, rfl⟩⟩, fun _ j' hj' => ?_⟩
      rwa [hw.first_unique hj' hj]
  · next hc =>
    obtain ⟨hw, hhead⟩ := h.run (f := b) fun i n k hi => (h.held i n k hi).2.2.1
    refine ⟨⟨(hw.skip hhead).arm, (hw.skip hhead).due_arm hk.run⟩, fun hnone j hj => ?_⟩
    have hnum : s.storedMpduNum = 0 := by
      by_contra hn
      exact hc ⟨Option.isNone_iff_eq_none.mpr hnone, hn⟩
    obtain ⟨x, hx, -⟩ := first_arm hj
    have hsame : s.releaseRun b = s := by
      cases b <;> simp [releaseRun, h.slot_head, hnone]
    rw [hsame, hk.none_of hnum j] at hx
    cases hx

theorem Window.congr (h : Window hz ssn b m s) (hb : t.reorderBuf = s.reorderBuf) (ho : t.ordered = s.ordered)
    (hp : t.pos = s.pos) (hh : t.headSeqNum = s.headSeqNum) (hs : t.ssn = s.ssn) (hz' : t.bufSize = s.bufSize)
    (ht : t.htRxReorderBufTimeout ∈ [hz / 10, hz / 4, hz / 2]) : Window hz ssn b m t :=
  ⟨⟨h.start.1, hs.trans h.start.2⟩, ⟨h.size.1, h.size.2.1, hz'.trans h.size.2.2⟩, ht, by rw [hh, hp]; exact h.head,
    hp ▸ h.le, by rw [hb, hp]; exact h.held, by rw [ho, hp]; exact h.passed, ho ▸ h.sorted⟩

theorem Window.passOne (h : Window hz ssn b m s) (hnone : ∀ i, s.reorderBuf i = none) {how : RxRelease}
    (hhow : how = .inOrder ∨ how = .early) (hn : s.pos ≤ n) (hseq : skb.seqNum = (ssn + n) % seqModulo)
    (hlt : n < s.pos + 1 ∨ n = s.pos + 1 ∧ how = .early) :
    Window hz ssn b (s.pos + 1 + 1) ((s.pass how n skb).advance 1) := by
  have ho := h.append hhow hn hseq hlt
  refine ⟨h.start, h.size, h.timeout, ?_, Nat.le_succ _, fun i n k hi => absurd (hi.symm.trans (hnone i)) nofun, ho.1, ho.2⟩
  show (s.headSeqNum + 1) % seqModulo = (ssn + (s.pos + 1)) % seqModulo
  rw [h.head, Nat.mod_add_mod, Nat.add_assoc]

theorem Window.store (h : Window hz ssn b s.pos s) (hn : s.pos ≤ n) (hlt : n < s.pos + b)
    (hseq : skb.seqNum = (ssn + n) % seqModulo) : Window hz ssn b s.pos (s.store jiffies skb) := by
  refine ⟨h.start, h.size, h.timeout, h.head, h.le, fun i x k hi => ?_, h.passed, h.sorted⟩
  have hslot : s.slotOf skb.seqNum = n % b := by rw [hseq, h.slot]
  by_cases hne : i = n % b
  · have hnum : s.pos + seqSub skb.seqNum s.headSeqNum = n := by
      have := h.size.1.2
      rw [hseq, h.head]
      unfold seqSub seqModulo at *
      omega
    have he : (s.store jiffies skb).reorderBuf i = some (n, skb) := by
      rw [hne, ← hslot, ← hnum]
      exact Function.update_self ..
    rw [he] at hi
    cases hi
    exact ⟨hne, hn, hlt, hseq⟩
  · exact h.held i x k ((Function.update_of_ne (hslot ▸ hne) ..).symm.trans hi)

theorem Sound.insert (h : Window hz ssn b s.pos s) (hk : Kept l s) (hn : s.pos ≤ n) (hlt : n < s.pos + b)
    (hseq : skb.seqNum = (ssn + n) % seqModulo) (hdup : (s.reorderBuf (n % b)).isSome = true → Sound hz ssn b s) :
    Sound hz ssn b (s.insert jiffies skb) := by
  have hslot : s.slotOf skb.seqNum = n % b := by rw [hseq, h.slot]
  have hle := h.size.1.2
  unfold RxReorder.insert
  split
  · next hb =>
    have hg := hdup (hslot ▸ hb)
    exact ⟨hg.window.congr rfl rfl rfl rfl rfl rfl h.timeout, hg.due⟩
  next hb =>
  split
  · next hc =>
    refine ⟨h.passOne (hk.none_of hc.2) (.inl rfl) (Nat.le_refl _) ?_ (.inl (Nat.lt_succ_self _)), fun hno => absurd hc.2 hno⟩
    rw [hc.1, h.head]
  split
  · next he =>
    have hn1 : n = s.pos + 1 := by
      have := he.2.1
      rw [hseq, h.head] at this
      unfold seqModulo at *
      omega
    exact ⟨h.passOne (hk.none_of he.2.2) (.inr rfl) (Nat.le_succ _) (hn1 ▸ hseq) (.inr ⟨rfl, rfl⟩),
      fun hno => absurd he.2.2 hno⟩
  · have hs : Kept (l ++ [skb]) (s.store jiffies skb) := hk.store (by simpa using hb)
    exact ((h.store hn hlt hseq).staReorderRelease hs).1

theorem Sound.manage (h : Sound hz ssn b s) (hk : Kept l s) : Sound hz ssn b (s.staManageReorderBuf jiffies skb) := by
  have hw := h.window.lower (Nat.le_refl _) (Nat.le_succ _)
  have hsize := hw.size.1
  have hlt : skb.seqNum < seqModulo := by
    have := skb.seqCtrl.isLt
    unfold AmpduSkb.seqNum seqModulo
    omega
  have hhead := hw.head
  unfold staManageReorderBuf
  split
  · split
    · exact ⟨h.window.congr rfl rfl rfl rfl rfl rfl hw.timeout, h.due⟩
    · refine ⟨h.window.congr rfl ?_ rfl rfl rfl rfl hw.timeout, h.due⟩
      simp [ordered, pass, List.filter_append]
  next hless =>
  -- the number of the frame
  obtain ⟨n, hn, hseq, hn2⟩ : ∃ n, s.pos ≤ n ∧ skb.seqNum = (ssn + n) % seqModulo ∧ n ≤ s.pos + seqModulo / 2 := by
    refine ⟨s.pos + seqSub skb.seqNum s.headSeqNum, Nat.le_add_right .., ?_, ?_⟩
    · rw [hhead]
      unfold seqSub seqModulo at *
      omega
    · unfold seqLess at hless
      simpa using hless
  unfold makeRoom
  rw [hw.size.2.2]
  have hin : seqLess skb.seqNum (s.headSeqNum + b) = decide (n < s.pos + b) := by
    rw [hhead, hseq]
    unfold seqLess seqSub seqModulo at *
    rw [decide_eq_decide]
    omega
  rw [hin]
  split
  · next hnb => exact Sound.insert hw hk hn (of_decide_eq_true hnb) hseq fun _ => h
  · next hnb =>
    have hnb : s.pos + b ≤ n := by simpa using hnb
    have htarget : seqInc (seqSub skb.seqNum b) = (ssn + (n + 1 - b)) % seqModulo := by
      rw [hseq]
      unfold seqInc seqSub seqModulo at *
      omega
    rw [htarget]
    obtain ⟨hw', hpos⟩ := hw.frames (n := n + 1 - b) (f := seqModulo) (by omega)
      (by unfold seqModulo at *; omega) (by unfold seqModulo at *; omega)
    refine Sound.insert (hpos.symm ▸ hw') (hk.frames _) (by omega) (by omega) hseq fun hb => ?_
    -- its slot is that of a number that has been released
    obtain ⟨x, hx⟩ := Option.isSome_iff_exists.mp hb
    have hx1 := hw'.at_slot hx (by omega) (by omega)
    have := (hw.held _ _ _ (frames_sub hx)).2.2.1
    omega

theorem Kept.next (h : Kept l s) (a : ReorderAct) : Kept (l ++ a.frame.toList) (a.next hz s) := by
  cases a with
  | rx jiffies skb => exact h.rxReorderAmpdu
  | timeout jiffies =>
    rw [ReorderAct.frame, Option.toList_none, List.append_nil, ReorderAct.next]
    split
    · exact (h.timer none).staReorderRelease
    · exact h
  | stop =>
    have hnil : (ReorderAct.next hz s .stop).stored = [] := List.filterMap_eq_nil_iff.mpr fun _ _ => rfl
    rw [ReorderAct.frame, Option.toList_none, List.append_nil]
    refine ⟨h.size, fun _ _ => rfl, by rw [hnil]; rfl, .trans (List.perm_iff_count.mpr fun x => ?_) h.held⟩
    rw [hnil]
    simp only [handed, ReorderAct.next, List.count_append, List.count_nil]
    omega

theorem Kept.start (hb : 0 < b) : Kept [] (reorderStart hz ssn b) := by
  have hnil : (reorderStart hz ssn b).stored = [] := List.filterMap_eq_nil_iff.mpr fun _ _ => rfl
  exact ⟨hb, fun _ _ => rfl, by rw [hnil]; rfl, by rw [hnil]; rfl⟩

theorem Sound.start (hssn : ssn < seqModulo) (hb : 1 < b ∧ b ≤ 64) (hd : b ∣ seqModulo) :
    Sound hz ssn b (reorderStart hz ssn b) where
  window := ⟨⟨hssn, rfl⟩, ⟨hb, hd, rfl⟩, List.mem_cons_self, (Nat.mod_eq_of_lt hssn).symm, Nat.le_succ _,
    fun _ _ _ hi => (by cases hi), fun _ hx => (by cases hx), .nil⟩
  due := fun hn => absurd rfl hn

theorem Sound.count (h : Sound hz ssn b s) : Sound hz ssn b (s.countShort hz skb) := by
  have hcong (c d : Nat) (hd : d ∈ [hz / 10, hz / 4, hz / 2]) :
      Sound hz ssn b { s with staShortTcpRxCnt := c, htRxReorderBufTimeout := d } :=
    ⟨h.window.congr rfl rfl rfl rfl rfl rfl hd, h.due⟩
  have hset (c : Nat) : Sound hz ssn b (s.setShort hz c) := by
    unfold setShort
    split
    · exact hcong _ _ (by simp)
    · exact hcong _ _ h.window.timeout
  unfold countShort
  split
  · split
    · exact hcong _ _ (by simp)
    · exact hcong _ _ h.window.timeout
  · exact hset _

theorem Sound.next (h : Sound hz ssn b s) (hk : Kept l s) (a : ReorderAct) : Sound hz ssn b (a.next hz s) := by
  have hw := h.window
  cases a with
  | rx jiffies skb =>
    unfold ReorderAct.next rxReorderAmpdu
    dsimp only
    split
    · refine ⟨hw.congr rfl ?_ rfl rfl rfl rfl hw.timeout, h.due⟩
      simp [ordered, pass, List.filter_append]
    split
    · exact ⟨hw.congr rfl rfl rfl rfl rfl rfl hw.timeout, h.due⟩
    · exact h.count.manage hk.count
  | timeout jiffies =>
    rw [ReorderAct.next]
    split
    · exact (((hw.lower (Nat.le_refl _) (Nat.le_succ _)).timer none).staReorderRelease (hk.timer none)).1
    · exact h
  | stop =>
    exact ⟨⟨hw.start, hw.size, hw.timeout, hw.head, Nat.le_succ _, fun _ _ _ hi => (by cases hi), hw.passed, hw.sorted⟩,
      fun hn => absurd rfl hn⟩

end RxReorder

open RxReorder

variable {s t : RxReorder} {j hz ssn b jiffies : Nat} {l : List (RxReorder × ReorderAct)}

/-- The frames that arrive in a run. -/
def arrived (l : List (RxReorder × ReorderAct)) : List AmpduSkb := l.flatMap fun p => p.2.frame.toList

theorem path_keeps {P : List AmpduSkb → RxReorder → Prop} {r : List AmpduSkb}
    (hP : ∀ r s a, P r s → P (r ++ a.frame.toList) (ReorderAct.next hz s a)) (h : Path (reorderSys hz ssn b) s l t)
    (h0 : P r s) : P (r ++ arrived l) t := by
  induction h generalizing r with
  | nil => simpa [arrived] using h0
  | cons hst _ ih =>
    obtain ⟨-, rfl⟩ := hst
    have := ih (hP _ _ _ h0)
    rwa [List.append_assoc] at this

theorem reorder_path (hssn : ssn < seqModulo) (hb : 1 < b ∧ b ≤ 64) (hd : b ∣ seqModulo)
    (h : Path (reorderSys hz ssn b) (reorderStart hz ssn b) l t) : Kept (arrived l) t ∧ Sound hz ssn b t :=
  path_keeps (P := fun r s => Kept r s ∧ Sound hz ssn b s) (fun _ _ a hg => ⟨hg.1.next a, hg.2.next hg.1 a⟩) h
    ⟨Kept.start (by omega), Sound.start hssn hb hd⟩

/-- Three frames, the last first, the second again, and the timer. -/
def lastFirst : List ReorderAct :=
  [12, 11, 11, 10].map (fun n => .rx 0 ⟨BitVec.ofNat 16 (16 * n), 200, false, false, false⟩) ++ [.timeout 100]

/-- **No frame is lost or handed on twice** -/
theorem reorder_conserves (hb : 0 < b) (h : Path (reorderSys hz ssn b) (reorderStart hz ssn b) l t) :
    (t.handed ++ t.stored).Perm (arrived l) ∧ t.storedMpduNum = t.stored.length := by
  have hk : Kept (arrived l) t := path_keeps (fun _ _ a hk => hk.next a) h (Kept.start hb)
  exact ⟨hk.held, hk.num⟩

theorem reorder_conserves_lastFirst :
    let t := lastFirst.foldl (ReorderAct.next 250) (reorderStart 250 10 48)
    (t.handed ++ t.stored).Perm (arrived (trace (ReorderAct.next 250) (reorderStart 250 10 48) lastFirst)) ∧
      t.storedMpduNum = t.stored.length :=
  reorder_conserves (by decide) (Path.ofFires (by decide))

/-- **In order** -/
theorem reorder_inOrder (hssn : ssn < seqModulo) (hb : 1 < b ∧ b ≤ 64) (hd : b ∣ seqModulo)
    (h : Path (reorderSys hz ssn b) (reorderStart hz ssn b) l t) :
    t.ordered.Pairwise Before ∧
      (∀ x ∈ t.ordered, x.2.2.seqNum = (ssn + x.2.1) % seqModulo ∧ x.2.1 ≤ t.pos) ∧
      ∀ i n k, t.reorderBuf i = some (n, k) →
        i = n % b ∧ t.pos < n ∧ n < t.pos + b ∧ k.seqNum = (ssn + n) % seqModulo := by
  have hw := (reorder_path hssn hb hd h).2.window
  refine ⟨hw.sorted, fun x hx => ⟨(hw.passed x hx).1, ?_⟩, hw.held⟩
  have := (hw.passed x hx).2
  omega

theorem reorder_inOrder_lastFirst :
    let t := lastFirst.foldl (ReorderAct.next 250) (reorderStart 250 10 64)
    t.ordered.Pairwise Before ∧
      (∀ x ∈ t.ordered, x.2.2.seqNum = (10 + x.2.1) % seqModulo ∧ x.2.1 ≤ t.pos) ∧
      ∀ i n k, t.reorderBuf i = some (n, k) →
        i = n % 64 ∧ t.pos < n ∧ n < t.pos + 64 ∧ k.seqNum = (10 + n) % seqModulo :=
  reorder_inOrder (by decide) (by decide) (by decide) (Path.ofFires (l := lastFirst) (by decide))

end AtbmWifi
