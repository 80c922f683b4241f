import Mathlib.Tactic.Common
import AtbmWifi.Bh.Credits

/-!
# Device buffer accounting

* `CreditsOk`: the counters are those of the device, with what is on its way to
  it or half released; `hw_bufs_used + max(hw_bufs_free, 0)` is within the
  device's buffers, and so is what the device holds; no `BUG_ON` fired.

`wsm_release_buffer_to_fw` counts its messages in `hw_bufs_used` and not in
`hw_bufs_free`, and keeps the count of a message whose write failed.
-/

namespace AtbmWifi

open Transition

/-- The message of the transmit thread that `hw_bufs_used` counts already. -/
def TxPc.handing : TxPc → Nat
  | .alloced _ | .credited _ => 1
  | _ => 0

/-- The same for `hw_bufs_used_vif[i]`. -/
def TxPc.handingVif (i : Nat) : TxPc → Nat
  | .credited m => if m.vifSelected = some i then 1 else 0
  | _ => 0

/-- The message that `hw_bufs_used` counts and `hw_bufs_free` does not yet miss. -/
def TxPc.uncredited : TxPc → Nat
  | .alloced _ => 1
  | _ => 0

/-- The give-back message that `hw_bufs_used` counts already. -/
def GivePc.handing : GivePc → Nat
  | .write .. => 1
  | _ => 0

structure CreditsOk (s : BhState) : Prop where
  used : s.hwBufsUsed = s.device.card + s.tx.handing + s.give.handing + s.rxBuffers
  usedVif : ∀ i, s.hwBufsUsedVif i = s.device.count (.data i) + s.tx.handingVif i + s.rxVifs.count i
  bound : s.hwBufsUsed + max s.hwBufsFree 0 ≤ s.numInpChBufs + s.tx.uncredited
  device : s.device.card ≤ s.numInpChBufs
  noBug : s.bug = false

/-- A give-back finds a buffer that `hw_bufs_free` does not promise away, and is written. -/
def GiveBackFits (s : BhState) : BhAct → Prop
  | .giveAlloc .. => s.hwBufsUsed + max s.hwBufsFree 0 < s.numInpChBufs + s.tx.uncredited
  | .giveWrite _ _ ok => ok = true
  | _ => True

instance decGiveBackFits (s : BhState) : ∀ a, Decidable (GiveBackFits s a)
  | .giveAlloc .. => inferInstanceAs (Decidable (_ < _))
  | .giveWrite .. => inferInstanceAs (Decidable (_ = _))
  | .txSpace | .txGet _ | .txNone | .txAlloc _ | .txCredit _ | .txWrite _ | .rxConfirm _ | .rxMulti
  | .rxVif _ | .giveStart _ | .giveCheck .. => isTrue trivial

structure FreeInv (s : BhState) : Prop where
  nonneg : 0 ≤ s.hwBufsFree
  pos : ∀ m, s.tx = .enough ∨ s.tx = .got m ∨ s.tx = .alloced m → 0 < s.hwBufsFree

theorem freeInv_start (n : Nat) : FreeInv (bhStart n) :=
  ⟨Int.natCast_nonneg n, by simp [bhStart]⟩

theorem creditsOk_start (n : Nat) : CreditsOk (bhStart n) := by
  constructor <;> simp [bhStart, TxPc.handing, TxPc.handingVif, TxPc.uncredited, GivePc.handing]

theorem freeAtLeast_one {free : Int} (h0 : 0 ≤ free) (h : freeAtLeast free 1 = true) : 0 < free := by
  unfold freeAtLeast at h
  have h := of_decide_eq_true h
  omega

section
variable {s : BhState} (hF : FreeInv s) (hC : CreditsOk s)
include hF hC

theorem txSpace_keeps (htx : s.tx = .idle) :
    FreeInv (BhAct.next s .txSpace) ∧ CreditsOk (BhAct.next s .txSpace) := by
  have hbound := hC.bound
  have hused := hC.used
  have hvif := hC.usedVif
  simp only [htx, TxPc.uncredited, TxPc.handing, TxPc.handingVif] at hbound hused hvif
  have h0 := hF.nonneg
  simp only [BhAct.next, haveEnoughSpace]
  split
  · next hfree =>
    have hpos := freeAtLeast_one h0 hfree
    exact ⟨⟨h0, fun _ _ => hpos⟩,
      ⟨by simpa [TxPc.handing] using hused, by simpa [TxPc.handingVif] using hvif,
        by simpa [TxPc.uncredited] using hbound, hC.device, hC.noBug⟩⟩
  · have hnn : 0 ≤ (s.numInpChBufs : Int) - s.hwBufsUsed := by omega
    cases hf : freeAtLeast (s.numInpChBufs - s.hwBufsUsed) 1 with
    | true =>
      have hpos := freeAtLeast_one hnn hf
      refine ⟨⟨hnn, fun _ _ => hpos⟩,
        ⟨by simpa [TxPc.handing] using hused, by simpa [TxPc.handingVif] using hvif, ?_, hC.device, hC.noBug⟩⟩
      simp only [if_true, TxPc.uncredited]
      omega
    | false =>
      refine ⟨⟨hnn, by simp⟩,
        ⟨by simpa [TxPc.handing] using hused, by simpa [TxPc.handingVif] using hvif, ?_, hC.device, hC.noBug⟩⟩
      simp only [Bool.false_eq_true, if_false, TxPc.uncredited]
      omega

theorem txGet_keeps {m : HifMsg} (htx : s.tx = .enough) :
    FreeInv (BhAct.next s (.txGet m)) ∧ CreditsOk (BhAct.next s (.txGet m)) := by
  have hused := hC.used
  have hvif := hC.usedVif
  have hbound := hC.bound
  simp only [htx, TxPc.handing, TxPc.handingVif, TxPc.uncredited] at hused hvif hbound
  exact ⟨⟨hF.nonneg, fun _ _ => hF.pos m (.inl htx)⟩, ⟨hused, hvif, hbound, hC.device, hC.noBug⟩⟩

theorem txNone_keeps (htx : s.tx = .enough) :
    FreeInv (BhAct.next s .txNone) ∧ CreditsOk (BhAct.next s .txNone) := by
  have hused := hC.used
  have hvif := hC.usedVif
  have hbound := hC.bound
  simp only [htx, TxPc.handing, TxPc.handingVif, TxPc.uncredited] at hused hvif hbound
  exact ⟨⟨hF.nonneg, by simp [BhAct.next]⟩, ⟨hused, hvif, hbound, hC.device, hC.noBug⟩⟩

theorem txAlloc_keeps {m : HifMsg} (htx : s.tx = .got m) :
    FreeInv (BhAct.next s (.txAlloc m)) ∧ CreditsOk (BhAct.next s (.txAlloc m)) := by
  have hused := hC.used
  have hvif := hC.usedVif
  have hbound := hC.bound
  simp only [htx, TxPc.handing, TxPc.handingVif, TxPc.uncredited] at hused hvif hbound
  refine ⟨⟨hF.nonneg, fun _ _ => hF.pos m (.inr (.inl htx))⟩, ⟨?_, hvif, ?_, hC.device, hC.noBug⟩⟩
  · simp only [BhAct.next, wsmAllocTxBuffer, TxPc.handing]
    omega
  · simp only [BhAct.next, wsmAllocTxBuffer, TxPc.uncredited]
    omega

theorem txCredit_keeps {m : HifMsg} (htx : s.tx = .alloced m) :
    FreeInv (BhAct.next s (.txCredit m)) ∧ CreditsOk (BhAct.next s (.txCredit m)) := by
  have hpos := hF.pos m (.inr (.inr htx))
  have hused := hC.used
  have hvif := hC.usedVif
  have hbound := hC.bound
  simp only [htx, TxPc.handing, TxPc.handingVif, TxPc.uncredited] at hused hvif hbound
  have hbug : (s.bug || decide (s.hwBufsFree ≤ 0) || decide (s.hwBufsFree - 1 < 0)) = false := by
    simp only [hC.noBug, Bool.false_or, Bool.or_eq_false_iff, decide_eq_false_iff_not]
    omega
  simp only [BhAct.next, takeCredit, hbug]
  cases m with
  | data i =>
    refine ⟨⟨?_, by simp⟩, ⟨hused, fun j => ?_, ?_, hC.device, rfl⟩⟩
    · simp only [countVif, HifMsg.vifSelected]
      omega
    · by_cases hj : j = i
      · subst hj
        have := hvif j
        simp only [countVif, HifMsg.vifSelected, Function.update_self, TxPc.handingVif]
        simp
        omega
      · have := hvif j
        simp only [countVif, HifMsg.vifSelected, Function.update_of_ne hj, TxPc.handingVif]
        simp [Ne.symm hj]
        omega
    · simp only [countVif, HifMsg.vifSelected, TxPc.uncredited]
      omega
  | cmd | giveBuffer =>
    refine ⟨⟨?_, by simp⟩, ⟨hused, hvif, ?_, hC.device, rfl⟩⟩
    · simp only [countVif, HifMsg.vifSelected]
      omega
    · simp only [countVif, HifMsg.vifSelected, TxPc.uncredited]
      omega

theorem txWrite_keeps {m : HifMsg} (htx : s.tx = .credited m) :
    FreeInv (BhAct.next s (.txWrite m)) ∧ CreditsOk (BhAct.next s (.txWrite m)) := by
  have hused := hC.used
  have hvif := hC.usedVif
  have hbound := hC.bound
  have h0 := hF.nonneg
  simp only [htx, TxPc.handing, TxPc.uncredited] at hused hbound
  refine ⟨⟨h0, by simp [BhAct.next]⟩, ⟨?_, fun i => ?_, ?_, ?_, hC.noBug⟩⟩
  · simp only [BhAct.next, TxPc.handing, Multiset.card_cons]
    omega
  · have := hvif i
    simp only [htx, TxPc.handingVif] at this
    cases m with
    | data j =>
      by_cases hj : j = i
      · subst hj
        simp only [BhAct.next, TxPc.handingVif, Multiset.count_cons_self]
        simp [HifMsg.vifSelected] at this
        omega
      · have hne : HifMsg.data i ≠ HifMsg.data j := by simp [Ne.symm hj]
        simp only [BhAct.next, TxPc.handingVif, Multiset.count_cons_of_ne hne]
        simp [HifMsg.vifSelected, hj] at this
        omega
    | cmd | giveBuffer =>
      simp only [BhAct.next, TxPc.handingVif]
      rw [Multiset.count_cons_of_ne (by simp)]
      simp [HifMsg.vifSelected] at this
      omega
  · simp only [BhAct.next, TxPc.uncredited]
    omega
  · simp only [BhAct.next, Multiset.card_cons]
    omega

end

theorem count_filterMap_vif (i : Nat) (msgs : List HifMsg) :
    (msgs.filterMap HifMsg.vifSelected).count i = msgs.count (.data i) := by
  induction msgs with
  | nil => rfl
  | cons m msgs ih =>
    cases m with
    | data j => by_cases hj : j = i <;> simp [HifMsg.vifSelected, ih, hj]
    | cmd | giveBuffer => rw [List.filterMap_cons_none rfl, ih, List.count_cons_of_ne (by simp)]

theorem length_pos_of_confirmable {msgs : List HifMsg} (h : confirmable msgs = true) : 0 < msgs.length := by
  cases msgs with
  | nil => cases h
  | cons => simp

theorem release_of_le {count : Nat} {s : BhState} (h : count ≤ s.hwBufsUsed) :
    (wsmReleaseTxBuffer count s).1 = { s with hwBufsUsed := s.hwBufsUsed - count } := by
  unfold wsmReleaseTxBuffer
  rw [if_neg (by omega)]

section
variable {s : BhState} (hF : FreeInv s) (hC : CreditsOk s)
include hF hC

theorem rxConfirm_keeps {msgs : List HifMsg} (hb : s.rxBuffers = 0) (hv : s.rxVifs = [])
    (hm : confirmable msgs = true) (hle : (msgs : Multiset HifMsg) ≤ s.device) :
    FreeInv (BhAct.next s (.rxConfirm msgs)) ∧ CreditsOk (BhAct.next s (.rxConfirm msgs)) := by
  have hpos := length_pos_of_confirmable hm
  have hcard : msgs.length ≤ s.device.card := by simpa using Multiset.card_le_card hle
  have hsub : (s.device - ↑msgs).card = s.device.card - msgs.length := by
    rw [Multiset.card_sub hle, Multiset.coe_card]
  have hused := hC.used
  have hbound := hC.bound
  have hdev := hC.device
  rw [hb] at hused
  simp only [BhAct.next]
  rw [release_of_le (by omega)]
  refine ⟨⟨hF.nonneg, hF.pos⟩, ⟨?_, fun i => ?_, ?_, ?_, hC.noBug⟩⟩
  · simp only [hsub]
    omega
  · have hvif := hC.usedVif i
    have hcount : msgs.count (.data i) ≤ s.device.count (.data i) := by
      simpa using Multiset.le_iff_count.mp hle (.data i)
    rw [hv] at hvif
    simp only [Multiset.count_sub, Multiset.coe_count, count_filterMap_vif]
    simp at hvif
    omega
  · change s.hwBufsUsed - 1 + max s.hwBufsFree 0 ≤ s.numInpChBufs + s.tx.uncredited
    omega
  · change (s.device - ↑msgs).card ≤ s.numInpChBufs
    omega

theorem rxMulti_keeps : FreeInv (BhAct.next s .rxMulti) ∧ CreditsOk (BhAct.next s .rxMulti) := by
  have hused := hC.used
  have hbound := hC.bound
  simp only [BhAct.next]
  rw [release_of_le (by omega)]
  refine ⟨⟨hF.nonneg, hF.pos⟩, ⟨?_, hC.usedVif, ?_, hC.device, hC.noBug⟩⟩
  · change s.hwBufsUsed - s.rxBuffers = s.device.card + s.tx.handing + s.give.handing + (0 : Nat)
    omega
  · change s.hwBufsUsed - s.rxBuffers + max s.hwBufsFree 0 ≤ s.numInpChBufs + s.tx.uncredited
    omega

theorem rxVif_keeps {i : Nat} (hi : s.rxVifs.head? = some i) :
    FreeInv (BhAct.next s (.rxVif i)) ∧ CreditsOk (BhAct.next s (.rxVif i)) := by
  obtain ⟨rest, hr⟩ : ∃ rest, s.rxVifs = i :: rest := by
    cases h : s.rxVifs with
    | nil =>
      rw [h] at hi
      cases hi
    | cons j rest =>
      rw [h] at hi
      cases hi
      exact ⟨rest, rfl⟩
  refine ⟨⟨hF.nonneg, hF.pos⟩, ⟨hC.used, fun j => ?_, hC.bound, hC.device, hC.noBug⟩⟩
  have hvif := hC.usedVif j
  rw [hr] at hvif
  by_cases hj : j = i
  · subst hj
    simp only [List.count_cons_self] at hvif
    simp only [BhAct.next, wsmReleaseVifTxBuffer, Function.update_self, hr, List.tail_cons]
    omega
  · simp only [BhAct.next, wsmReleaseVifTxBuffer, Function.update_of_ne hj, hr, List.tail_cons]
    rw [List.count_cons_of_ne (Ne.symm hj)] at hvif
    exact hvif

theorem giveStart_keeps (count : Nat) (hg : s.give = .idle) :
    FreeInv (BhAct.next s (.giveStart count)) ∧ CreditsOk (BhAct.next s (.giveStart count)) := by
  have hused := hC.used
  simp only [hg, GivePc.handing] at hused
  exact ⟨⟨hF.nonneg, hF.pos⟩, ⟨hused, hC.usedVif, hC.bound, hC.device, hC.noBug⟩⟩

theorem giveCheck_keeps {i count : Nat} (hg : s.give = .check i count) :
    FreeInv (BhAct.next s (.giveCheck i count)) ∧ CreditsOk (BhAct.next s (.giveCheck i count)) := by
  have hused := hC.used
  simp only [hg, GivePc.handing] at hused
  simp only [BhAct.next]
  split
  · exact ⟨⟨hF.nonneg, hF.pos⟩, ⟨hused, hC.usedVif, hC.bound, hC.device, hC.noBug⟩⟩
  · exact ⟨⟨hF.nonneg, hF.pos⟩, ⟨hused, hC.usedVif, hC.bound, hC.device, hC.noBug⟩⟩

theorem giveAlloc_keeps {i count : Nat} (hg : s.give = .alloc i count)
    (hfit : GiveBackFits s (.giveAlloc i count)) :
    FreeInv (BhAct.next s (.giveAlloc i count)) ∧ CreditsOk (BhAct.next s (.giveAlloc i count)) := by
  have hused := hC.used
  have hfit : s.hwBufsUsed + max s.hwBufsFree 0 < s.numInpChBufs + s.tx.uncredited := hfit
  simp only [hg, GivePc.handing] at hused
  refine ⟨⟨hF.nonneg, hF.pos⟩, ⟨?_, hC.usedVif, ?_, hC.device, hC.noBug⟩⟩
  · change s.hwBufsUsed + 1 = s.device.card + s.tx.handing + (1 : Nat) + s.rxBuffers
    omega
  · change s.hwBufsUsed + 1 + max s.hwBufsFree 0 ≤ s.numInpChBufs + s.tx.uncredited
    omega

theorem giveWrite_keeps {i count : Nat} (hg : s.give = .write i count) :
    FreeInv (BhAct.next s (.giveWrite i count true)) ∧ CreditsOk (BhAct.next s (.giveWrite i count true)) := by
  have hused := hC.used
  have hbound := hC.bound
  have hpos := hF.pos
  simp only [hg, GivePc.handing] at hused
  refine ⟨⟨hF.nonneg, hF.pos⟩, ⟨?_, fun j => ?_, hC.bound, ?_, hC.noBug⟩⟩
  · simp only [BhAct.next, if_true, GivePc.handing, Multiset.card_cons]
    omega
  · have hvif := hC.usedVif j
    simp only [BhAct.next, if_true]
    rw [Multiset.count_cons_of_ne (by simp)]
    exact hvif
  · simp only [BhAct.next, if_true, Multiset.card_cons]
    -- the transmit thread's message, if it has no credit yet, is counted apart
    cases htx : s.tx with
    | alloced m =>
      simp only [htx, TxPc.handing, TxPc.uncredited] at hused hbound
      omega
    | idle | enough | got | credited =>
      simp only [htx, TxPc.handing, TxPc.uncredited] at hused hbound
      omega

end

theorem giveAlloc_loses {s : BhState} {i count : Nat} (ht : CreditsOk (BhAct.next s (.giveAlloc i count))) :
    GiveBackFits s (.giveAlloc i count) := by
  have hbound : s.hwBufsUsed + 1 + max s.hwBufsFree 0 ≤ s.numInpChBufs + s.tx.uncredited := ht.bound
  change s.hwBufsUsed + max s.hwBufsFree 0 < s.numInpChBufs + s.tx.uncredited
  omega

theorem giveWrite_loses {s : BhState} (hC : CreditsOk s) {i count : Nat} {ok : Bool}
    (hg : s.give = .write i count) (ht : CreditsOk (BhAct.next s (.giveWrite i count ok))) : ok = true := by
  cases ok with
  | true => rfl
  | false =>
    have hused := hC.used
    have hused' : s.hwBufsUsed = s.device.card + s.tx.handing + (0 : Nat) + s.rxBuffers := ht.used
    simp only [hg, GivePc.handing] at hused
    omega

theorem bh_step_keeps {s : BhState} (hF : FreeInv s) (hC : CreditsOk s) {a : BhAct} (he : a.enabled s)
    (hfit : GiveBackFits s a) : FreeInv (a.next s) ∧ CreditsOk (a.next s) := by
  cases a with
  | txSpace => exact txSpace_keeps hF hC he
  | txGet m => exact txGet_keeps hF hC he.1
  | txNone => exact txNone_keeps hF hC he
  | txAlloc m => exact txAlloc_keeps hF hC he
  | txCredit m => exact txCredit_keeps hF hC he
  | txWrite m => exact txWrite_keeps hF hC he
  | rxConfirm msgs => exact rxConfirm_keeps hF hC he.1 he.2.1 he.2.2.1 he.2.2.2
  | rxMulti => exact rxMulti_keeps hF hC
  | rxVif i => exact rxVif_keeps hF hC he.2
  | giveStart count => exact giveStart_keeps hF hC count he
  | giveCheck i count => exact giveCheck_keeps hF hC he
  | giveAlloc i count => exact giveAlloc_keeps hF hC he hfit
  | giveWrite i count ok =>
    obtain rfl : ok = true := hfit
    exact giveWrite_keeps hF hC he

theorem bh_step_loses {s : BhState} (hC : CreditsOk s) {a : BhAct} (he : a.enabled s)
    (ht : CreditsOk (a.next s)) : GiveBackFits s a := by
  cases a with
  | giveAlloc i count => exact giveAlloc_loses ht
  | giveWrite i count ok => exact giveWrite_loses hC he ht
  | txSpace | txGet | txNone | txAlloc | txCredit | txWrite | rxConfirm | rxMulti | rxVif | giveStart
  | giveCheck => trivial

/-- **Credit accounting.**  Along every run of the three threads, `CreditsOk` holds in every state
exactly when every give-back fits. -/
theorem credits_balanced {n : Nat} {l : List (BhState × BhAct)} {t : BhState}
    (hp : Path (bhThreads n) (bhStart n) l t) :
    ((∀ p ∈ l, CreditsOk p.1) ∧ CreditsOk t) ↔ ∀ p ∈ l, GiveBackFits p.1 p.2 := by
  refine Path.exact (I := FreeInv) ?_ ?_ hp (freeInv_start n) (creditsOk_start n)
  · rintro s a t hF hC ⟨he, rfl⟩ hfit
    exact bh_step_keeps hF hC he hfit
  · rintro s a t hF hC ⟨he, rfl⟩ ht
    exact bh_step_loses hC he ht

/-- Two frames and a command go out, a multi confirmation and the command's come back, and one
buffer is given back. -/
def creditsInTurn : List BhAct :=
  [.txSpace, .txGet (.data 0), .txAlloc (.data 0), .txCredit (.data 0), .txWrite (.data 0),
    .txSpace, .txGet (.data 1), .txAlloc (.data 1), .txCredit (.data 1), .txWrite (.data 1),
    .rxConfirm [.data 1, .data 0], .rxMulti, .rxVif 1, .rxVif 0,
    .txSpace, .txGet .cmd, .txAlloc .cmd, .txCredit .cmd, .txWrite .cmd, .rxConfirm [.cmd],
    .giveStart 1, .giveCheck 0 1, .giveAlloc 0 1, .giveWrite 0 1 true, .giveCheck 1 1]

theorem credits_balanced_inTurn : CreditsOk (creditsInTurn.foldl BhAct.next (bhStart 4)) := by
  have hp : Path (bhThreads 4) (bhStart 4) (trace BhAct.next (bhStart 4) creditsInTurn)
      (creditsInTurn.foldl BhAct.next (bhStart 4)) := Path.ofFires (by decide +kernel)
  exact ((credits_balanced hp).mpr (by decide +kernel)).2

/-- A frame is out; the suspend gives two of three buffers back; a frame and a command follow. -/
def giveBackOverruns : List BhAct :=
  [.txSpace, .txGet (.data 0), .txAlloc (.data 0), .txCredit (.data 0), .txWrite (.data 0),
    .giveStart 2, .giveCheck 0 2, .giveAlloc 0 2, .giveWrite 0 2 true, .giveCheck 1 2,
    .txSpace, .txGet (.data 0), .txAlloc (.data 0), .txCredit (.data 0), .txWrite (.data 0),
    .txSpace, .txGet .cmd, .txAlloc .cmd, .txCredit .cmd, .txWrite .cmd]

/-- **The failing runs.**  After a give-back a device of three buffers is given four messages;
and a give-back whose write fails stays counted as used. -/
theorem giveBack_overruns :
    (∃ s, Reach (bhThreads 3) s ∧ s.device.card = 4 ∧ s.hwBufsUsed = 4) ∧
    ∃ s, Reach (bhThreads 3) s ∧ s.hwBufsUsed = 1 ∧ s.device = 0 ∧ s.tx = .idle ∧ s.give = .idle := by
  constructor
  · exact ⟨_, Reach.fires (.init rfl) (l := giveBackOverruns) (by decide +kernel), by decide +kernel⟩
  · exact ⟨_, Reach.fires (.init rfl)
      (l := [.giveStart 2, .giveCheck 0 2, .giveAlloc 0 2, .giveWrite 0 2 false]) (by decide +kernel),
      by decide +kernel⟩

end AtbmWifi
