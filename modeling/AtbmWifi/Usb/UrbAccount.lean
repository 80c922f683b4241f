import AtbmWifi.Usb.TxUrb
import Mathlib.Tactic.Abel

/-!
# The account of an URB

An account adds up how the steps made for an URB change the counters.  All of them change the
counters by the same amount at all values (`Shifts`), so the account changes as the counters
do.

* `owing_alloc`, `owing_advance`, `owing_rewind`, `owing_back`, `owing_pay`: what the steps make of it.
-/

namespace AtbmWifi

/-- Of `n` messages of an URB that is not submitted, those counted in `tx_hwChanId`. -/
def UsbBuild.early : UsbBuild → Nat → Nat
  | single, _ => 0
  | aggr, n => n

namespace UsbCounts

/-- A change that is the same at all values, so that an account can follow it. -/
def Shifts (f : UsbCounts → UsbCounts) : Prop := ∀ a c : UsbCounts, a.shift c (f c) = f a

theorem Shifts.id : Shifts fun c => c := by
  intro a c
  apply UsbCounts.ext
  · exact (congrArg _ (sub_self _)).trans (add_zero _)
  · funext i
    exact (congrArg _ (sub_self _)).trans (add_zero _)
  · exact (congrArg _ (sub_self _)).trans (add_zero _)
  · exact (congrArg _ (sub_self _)).trans (add_zero _)

theorem Shifts.comp {f g : UsbCounts → UsbCounts} (hf : Shifts f) (hg : Shifts g) : Shifts fun c => g (f c) := by
  intro a c
  show _ = g (f a)
  rw [← hf a c, ← hg _ (f c)]
  apply UsbCounts.ext
  · simp only [shift]
    omega
  · funext i
    simp only [shift]
    omega
  · simp only [shift]
    abel
  · simp only [shift]
    abel

theorem advance_shifts : Shifts advance := by
  intro a c
  apply UsbCounts.ext
  · exact (congrArg _ (sub_self _)).trans (add_zero _)
  · funext i
    exact (congrArg _ (sub_self _)).trans (add_zero _)
  · simp only [shift, advance]
    abel
  · simp only [shift, advance]
    abel

theorem rewind_shifts : Shifts rewind := by
  intro a c
  apply UsbCounts.ext
  · exact (congrArg _ (sub_self _)).trans (add_zero _)
  · funext i
    exact (congrArg _ (sub_self _)).trans (add_zero _)
  · simp only [shift, rewind]
    abel
  · simp only [shift, rewind]
    abel

theorem wsmReleaseTxBuffer_shifts (count : Int) : Shifts (wsmReleaseTxBuffer count) := by
  intro a c
  apply UsbCounts.ext
  · simp only [shift, wsmReleaseTxBuffer]
    omega
  · funext i
    exact (congrArg _ (sub_self _)).trans (add_zero _)
  · exact (congrArg _ (sub_self _)).trans (add_zero _)
  · exact (congrArg _ (sub_self _)).trans (add_zero _)

/-- `hw_bufs_used_vif` changed by the message. -/
def addVif (m : TxMsg) (d : Int) (c : UsbCounts) : UsbCounts :=
  { c with hwBufsUsedVif := fun i => c.hwBufsUsedVif i + if m.ofVif i = true then d else 0 }

theorem addVif_shifts (m : TxMsg) (d : Int) : Shifts (addVif m d) := by
  intro a c
  apply UsbCounts.ext
  · exact (congrArg _ (sub_self _)).trans (add_zero _)
  · funext i
    simp only [shift, addVif]
    omega
  · exact (congrArg _ (sub_self _)).trans (add_zero _)
  · exact (congrArg _ (sub_self _)).trans (add_zero _)

theorem alloc_eq (m : TxMsg) (c : UsbCounts) : c.alloc m = (c.addVif m 1).wsmReleaseTxBuffer (-m.bufs) := by
  cases m with
  | data p ifId =>
    apply UsbCounts.ext
    · rfl
    · funext i
      show bump c.hwBufsUsedVif ifId 1 i = c.hwBufsUsedVif i + if (ifId == i) = true then 1 else 0
      simp only [bump_apply, beq_iff_eq]
    · rfl
    · rfl
  | cmd call =>
    apply UsbCounts.ext
    · rfl
    · funext i
      exact (Int.add_zero _).symm
    · rfl
    · rfl
  | firmwareCheck =>
    apply UsbCounts.ext
    · exact Int.add_sub_assoc _ _ _
    · funext i
      exact (Int.add_zero _).symm
    · rfl
    · rfl

theorem frame_shifts (b : UsbBuild) (m : TxMsg) : Shifts (frame b m) := by
  have halloc : Shifts (alloc m) := by
    rw [show alloc m = _ from funext (alloc_eq m)]
    exact (addVif_shifts m 1).comp (wsmReleaseTxBuffer_shifts (-m.bufs))
  cases b with
  | single => exact halloc
  | aggr => exact halloc.comp advance_shifts

theorem submitted_shifts (b : UsbBuild) : Shifts (submitted b) := by
  cases b with
  | single => exact advance_shifts
  | aggr => exact .id

theorem unsent_shifts (b : UsbBuild) : Shifts (unsent b) := by
  cases b with
  | single => exact .id
  | aggr => exact rewind_shifts

theorem wsmReleaseVifTxBuffer_eq {c : UsbCounts} {m : TxMsg} {ifId : Nat} (h : 1 ≤ c.hwBufsUsedVif ifId)
    (hm : ∀ i, m.ofVif i = (ifId == i)) : c.wsmReleaseVifTxBuffer ifId 1 = c.addVif m (-1) := by
  apply UsbCounts.ext
  · rfl
  · funext i
    simp only [wsmReleaseVifTxBuffer, addVif, hm, beq_iff_eq]
    by_cases hi : ifId = i
    · subst hi
      rw [Function.update_self, if_neg (by omega), if_pos rfl]
      omega
    · rw [Function.update_of_ne (Ne.symm hi), if_neg hi, Int.add_zero]
  · rfl
  · rfl

/-- The counters of an URB for the messages `l`, `paid` buffers given back and `sent` messages counted in
`tx_hwChanId`. -/
def owing (l : List TxMsg) (paid : Int) (sent : Nat) : UsbCounts where
  hwBufsUsed := (l.map TxMsg.bufs).sum - paid
  hwBufsUsedVif i := l.countP (TxMsg.ofVif i)
  txHwChanId := BitVec.ofNat 32 sent
  wsmTxSeq := BitVec.ofNat 3 sent

theorem owing_advance (l : List TxMsg) (paid : Int) (sent : Nat) :
    (owing l paid sent).advance = owing l paid (sent + 1) := by
  apply UsbCounts.ext
  · rfl
  · rfl
  · exact (BitVec.ofNat_add sent 1).symm
  · exact (BitVec.ofNat_add sent 1).symm

theorem owing_rewind (l : List TxMsg) (paid : Int) (sent : Nat) :
    (owing l paid (sent + 1)).rewind = owing l paid sent := by
  apply UsbCounts.ext
  · rfl
  · rfl
  · show BitVec.ofNat 32 (sent + 1) - 1 = BitVec.ofNat 32 sent
    rw [BitVec.ofNat_add]
    exact add_sub_cancel_right _ _
  · show BitVec.ofNat 3 (sent + 1) - 1 = BitVec.ofNat 3 sent
    rw [BitVec.ofNat_add]
    exact add_sub_cancel_right _ _

theorem owing_alloc (l : List TxMsg) (sent : Nat) (m : TxMsg) :
    (owing l 0 sent).alloc m = owing (l ++ [m]) 0 sent := by
  rw [alloc_eq]
  apply UsbCounts.ext
  · simp only [wsmReleaseTxBuffer, addVif, owing, List.map_append, List.sum_append, List.map_cons, List.map_nil,
      List.sum_cons, List.sum_nil]
    omega
  · funext i
    simp only [wsmReleaseTxBuffer, addVif, owing, List.countP_append, List.countP_singleton]
    split <;> omega
  · rfl
  · rfl

theorem owing_back (m : TxMsg) (l : List TxMsg) (paid : Int) (sent : Nat) :
    (owing (m :: l) paid sent).addVif m (-1) = owing l (paid - m.bufs) sent := by
  apply UsbCounts.ext
  · simp only [addVif, owing, List.map_cons, List.sum_cons]
    omega
  · funext i
    simp only [addVif, owing, List.countP_cons]
    split <;> omega
  · rfl
  · rfl

theorem owing_pay (l : List TxMsg) (paid d : Int) (sent : Nat) :
    (owing l paid sent).wsmReleaseTxBuffer d = owing l (paid + d) sent := by
  apply UsbCounts.ext
  · show _ - _ - _ = _ - (_ + _)
    omega
  · rfl
  · rfl
  · rfl

theorem owing_check (l : List TxMsg) (paid : Int) (sent : Nat) :
    owing (.firmwareCheck :: l) paid sent = owing l paid sent := by
  apply UsbCounts.ext
  · simp only [owing, List.map_cons, List.sum_cons, TxMsg.bufs, Int.zero_add]
  · funext i
    simp only [owing, List.countP_cons, TxMsg.ofVif, Bool.false_eq_true, if_false, Nat.add_zero]
  · rfl
  · rfl

theorem owing_unsent (b : UsbBuild) (l : List TxMsg) (n : Nat) :
    (owing l 0 (b.early (n + 1))).unsent b = owing l 0 (b.early n) := by
  cases b with
  | single => rfl
  | aggr => exact owing_rewind l 0 n

end UsbCounts

/-- The message is counted for the interface in its packet id. -/
def TxMsg.Named : TxMsg → Prop
  | .data packetID ifId => (atbmQueueParseId packetID).queueId < 4 ∧ (atbmQueueParseId packetID).ifId = ifId
  | .cmd _ | .firmwareCheck => True

def TxUrb.held (x : TxUrb) : List TxMsg :=
  match x.phase with
  | .free => []
  | .givingBack rest => rest
  | .building | .inFlight | .kept | .failed => x.msgs

/-- The messages it has advanced `tx_hwChanId` and `wsm_tx_seq` for. -/
def TxUrb.sent (b : UsbBuild) (x : TxUrb) : Nat :=
  match x.phase with
  | .building | .givingBack _ => b.early x.held.length
  | .free | .inFlight | .kept | .failed => x.held.length

def UrbPhase.paid : UrbPhase → Int
  | failed => 1
  | free | building | givingBack _ | inFlight | kept => 0

def UrbPhase.failing : UrbPhase → Bool
  | givingBack _ | failed => true
  | free | building | inFlight | kept => false

def UrbPhase.whole : UrbPhase → Bool
  | building | inFlight | kept | failed => true
  | free | givingBack _ => false

structure TxUrb.Ok (b : UsbBuild) (x : TxUrb) : Prop where
  account : x.account = .owing x.held x.phase.paid (x.sent b)
  named : ∀ m ∈ x.msgs, m.Named
  length : x.msgs.length ≤ b.frames
  failure : x.phase ≠ .free → x.failure = x.phase.failing
  data : x.phase.whole = true → x.data = x.msgs.getLast?.bind TxMsg.urbData
  gone : x.phase ≠ .free → ∃ gone, x.msgs = gone ++ x.held ∧ x.freed = gone.filterMap TxMsg.urbData
  back : x.phase ≠ .givingBack []

namespace TxUrb

open UsbCounts

variable {b : UsbBuild} {x : TxUrb}

theorem held_of_whole (h : x.phase.whole = true) : x.held = x.msgs := by
  unfold held
  cases hp : x.phase with
  | free | givingBack l =>
    rw [hp] at h
    cases h
  | _ => rfl

theorem held_of_givingBack {l : List TxMsg} (h : x.phase = .givingBack l) : x.held = l := by
  unfold held
  rw [h]

theorem Ok.fresh (b : UsbBuild) {phase : UrbPhase} (h : phase = .free ∨ phase = .building) : (fresh phase).Ok b := by
  rcases h with rfl | rfl
  · exact ⟨rfl, nofun, Nat.zero_le _, nofun, nofun, nofun, nofun⟩
  · refine ⟨?_, nofun, Nat.zero_le _, fun _ => rfl, fun _ => rfl, fun _ => ⟨[], rfl, rfl⟩, nofun⟩
    cases b <;> rfl

theorem Ok.addFrame (h : x.Ok b) (hp : x.phase = .building) (hlen : x.msgs.length < b.frames) {m : TxMsg}
    (hm : m.Named) :
    TxUrb.Ok b { x with data := m.urbData, msgs := x.msgs ++ [m], account := x.account.frame b m } := by
  obtain ⟨phase, data, msgs, failure, account, freed, ended⟩ := x
  obtain rfl : phase = .building := hp
  obtain ⟨gone, hgone, hfreed⟩ := h.gone nofun
  obtain rfl : gone = [] := List.self_eq_append_left.mp hgone
  refine ⟨?_, ?_, ?_, h.failure, fun _ => ?_, fun _ => ⟨[], rfl, hfreed⟩, nofun⟩
  · cases b with
    | single =>
      obtain rfl : account = owing msgs 0 0 := h.account
      exact owing_alloc msgs 0 m
    | aggr =>
      obtain rfl : account = owing msgs 0 msgs.length := h.account
      show ((owing msgs 0 msgs.length).alloc m).advance = owing (msgs ++ [m]) 0 (msgs ++ [m]).length
      rw [owing_alloc, owing_advance, List.length_append, List.length_singleton]
  · intro m' hm'
    rcases List.mem_append.mp hm' with hm' | hm'
    · exact h.named m' hm'
    · obtain rfl := List.mem_singleton.mp hm'
      exact hm
  · show (msgs ++ [m]).length ≤ b.frames
    rw [List.length_append]
    exact hlen
  · show m.urbData = (msgs ++ [m]).getLast?.bind TxMsg.urbData
    rw [List.getLast?_concat]
    rfl

theorem Ok.leave (h : x.Ok b) (hp : x.phase = .building) (hnil : x.msgs = []) :
    TxUrb.Ok b { x with phase := .free } := by
  obtain ⟨phase, data, msgs, failure, account, freed, ended⟩ := x
  obtain rfl : phase = .building := hp
  obtain rfl : msgs = [] := hnil
  refine ⟨?_, nofun, Nat.zero_le _, nofun, nofun, nofun, nofun⟩
  cases b with
  | single => exact h.account
  | aggr => exact h.account

theorem Ok.submitted (h : x.Ok b) (hp : x.phase = .building) (hne : x.msgs ≠ []) :
    TxUrb.Ok b { x with phase := .inFlight, account := x.account.submitted b } := by
  obtain ⟨phase, data, msgs, failure, account, freed, ended⟩ := x
  obtain rfl : phase = .building := hp
  refine ⟨?_, h.named, h.length, fun _ => h.failure nofun, fun _ => h.data rfl, fun _ => h.gone nofun, nofun⟩
  cases b with
  | single =>
    -- its one message is counted now
    have hlen : msgs.length = 1 := Nat.le_antisymm h.length (List.length_pos_iff.mpr hne)
    obtain rfl : account = owing msgs 0 0 := h.account
    show (owing msgs 0 0).advance = owing msgs 0 msgs.length
    rw [owing_advance, hlen]
  | aggr => exact h.account

theorem Ok.refused (h : x.Ok b) (hp : x.phase = .building) (hne : x.msgs ≠ []) :
    TxUrb.Ok b { x with phase := .givingBack x.msgs, failure := true } := by
  obtain ⟨phase, data, msgs, failure, account, freed, ended⟩ := x
  obtain rfl : phase = .building := hp
  refine ⟨?_, h.named, h.length, fun _ => rfl, nofun, fun _ => h.gone nofun, fun hno => hne ?_⟩
  · cases b with
    | single => exact h.account
    | aggr => exact h.account
  · exact UrbPhase.givingBack.inj hno

theorem Ok.erred (h : x.Ok b) (hp : x.phase = .inFlight) :
    TxUrb.Ok b { x with phase := .failed, failure := true, account := x.account.wsmReleaseTxBuffer 1 } := by
  obtain ⟨phase, data, msgs, failure, account, freed, ended⟩ := x
  obtain rfl : phase = .inFlight := hp
  obtain rfl : account = owing msgs 0 msgs.length := h.account
  exact ⟨owing_pay msgs 0 1 msgs.length, h.named, h.length, fun _ => rfl, fun _ => h.data rfl, fun _ => h.gone nofun,
    nofun⟩

theorem Ok.kept (h : x.Ok b) (hp : x.phase = .inFlight) : TxUrb.Ok b { x with phase := .kept } := by
  obtain ⟨phase, data, msgs, failure, account, freed, ended⟩ := x
  obtain rfl : phase = .inFlight := hp
  exact ⟨h.account, h.named, h.length, fun _ => h.failure nofun, fun _ => h.data rfl, fun _ => h.gone nofun, nofun⟩

theorem Ok.completed (h : x.Ok b) : TxUrb.Ok b { x with phase := .free, account := .zero } :=
  ⟨rfl, h.named, h.length, nofun, nofun, nofun, nofun⟩

/-- The counters after a round of the path of a failed submission. -/
def backed (b : UsbBuild) (seq : BitVec 3) (m : TxMsg) (c : UsbCounts) : UsbCounts :=
  if b.skips seq m = true then c.unsent b else ((c.unsent b).addVif m (-1)).wsmReleaseTxBuffer 1

theorem backed_shifts (b : UsbBuild) (seq : BitVec 3) (m : TxMsg) : Shifts (backed b seq m) := by
  unfold backed
  split
  · exact unsent_shifts b
  · exact ((unsent_shifts b).comp (addVif_shifts m (-1))).comp (wsmReleaseTxBuffer_shifts 1)

theorem Ok.gaveBack (h : x.Ok b) {m : TxMsg} {rest : List TxMsg} (hp : x.phase = .givingBack (m :: rest)) {seq : BitVec 3}
    (hm : b.skips seq m = true ∨ m.bufs = 1) (ended : List Nat) :
    TxUrb.Ok b
      { x with
        phase := if rest = [] then .free else .givingBack rest
        data := none
        freed := x.freed ++ m.urbData.toList
        ended := ended
        account := backed b seq m x.account } := by
  obtain ⟨phase, data, msgs, failure, account, freed, ended'⟩ := x
  obtain rfl : phase = .givingBack (m :: rest) := hp
  obtain ⟨gone, hgone, hfreed⟩ := h.gone nofun
  have hgone : msgs = gone ++ m :: rest := hgone
  have haccount : backed b seq m account = owing rest 0 (b.early rest.length) := by
    obtain rfl : account = owing (m :: rest) 0 (b.early (rest.length + 1)) := h.account
    unfold backed
    rw [owing_unsent]
    split
    · next hs =>
      cases m with
      | firmwareCheck => exact owing_check rest 0 _
      | _ => cases hs
    · next hs =>
      rw [owing_back, owing_pay, hm.resolve_left hs]
      rfl
  by_cases hrest : rest = []
  · subst hrest
    simp only [if_true, haccount]
    refine ⟨?_, h.named, h.length, nofun, nofun, nofun, nofun⟩
    cases b <;> rfl
  · simp only [if_neg hrest, haccount]
    refine ⟨rfl, h.named, h.length, fun _ => h.failure nofun, nofun, fun _ => ⟨gone ++ [m], ?_, ?_⟩, fun hno => ?_⟩
    · rw [hgone, List.append_assoc]
      rfl
    · show freed ++ m.urbData.toList = _
      rw [List.filterMap_append, ← hfreed]
      cases m <;> rfl
    · exact hrest (UrbPhase.givingBack.inj hno)

theorem Ok.freed_last (h : x.Ok b) {m : TxMsg} (hp : x.phase = .givingBack [m]) :
    x.freed ++ m.urbData.toList = x.msgs.filterMap TxMsg.urbData := by
  obtain ⟨gone, hgone, hfreed⟩ := h.gone (by rw [hp]; nofun)
  have hheld : x.held = [m] := by
    unfold held
    rw [hp]
  rw [hgone, hheld, hfreed, List.filterMap_append]
  cases m <;> rfl

theorem Ok.released (h : x.Ok b) (hp : x.phase = .failed) {m : TxMsg} (hmsgs : x.msgs = [m]) (hm : m.bufs = 1)
    (freed ended : List Nat) :
    TxUrb.Ok b
      { x with
        phase := .free
        data := none
        freed := freed
        ended := ended
        account := x.account.rewind.addVif m (-1) } := by
  obtain ⟨phase, data, msgs, failure, account, freed', ended'⟩ := x
  obtain rfl : phase = .failed := hp
  obtain rfl : msgs = [m] := hmsgs
  obtain rfl : account = owing [m] 1 1 := h.account
  refine ⟨?_, h.named, h.length, nofun, nofun, nofun, nofun⟩
  show (owing [m] 1 1).rewind.addVif m (-1) = owing [] 0 0
  rw [owing_rewind, owing_back, hm]
  rfl

theorem Ok.settled (h : x.Ok b) (hp : x.phase = .free) : x.account = .zero := by
  obtain ⟨phase, data, msgs, failure, account, freed, ended⟩ := x
  obtain rfl : phase = .free := hp
  exact h.account

theorem Ok.of_failed (h : x.Ok b) (hp : x.phase = .failed) :
    x.freed = [] ∧ ∀ m, x.msgs = [m] → x.data = m.urbData := by
  have hheld : x.held = x.msgs := by
    unfold held
    rw [hp]
  obtain ⟨gone, hgone, hfreed⟩ := h.gone (by rw [hp]; nofun)
  rw [hheld] at hgone
  obtain rfl : gone = [] := List.self_eq_append_left.mp hgone
  refine ⟨hfreed, ?_⟩
  intro m hm
  rw [h.data (by rw [hp]; rfl), hm]
  rfl

end TxUrb

end AtbmWifi
