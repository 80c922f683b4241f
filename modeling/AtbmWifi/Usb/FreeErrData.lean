import AtbmWifi.Queue.Accounting
import AtbmWifi.Queue.StaleId
import AtbmWifi.Usb.TxUrb

/-!
# The frame of an URB that failed

`atbm_usb_free_err_data` looks the packet id up in its queue, counts the frame out of its
interface and removes it.

-/

namespace AtbmWifi

namespace UsbTx

/-- What `atbm_usb_free_err_data` is to do with the queues: remove the frame if it is there and nothing
else. -/
def Removes (s t : TxQueues) (packetID : Nat) : Prop :=
  ∀ c ∈ queueOf packetID, (Outstanding (s.txQueue c) packetID → ¬Outstanding (t.txQueue c) packetID) ∧
    (¬Outstanding (s.txQueue c) packetID → t.txQueue = s.txQueue)

/-- The queue takes the id exactly for the frame it was issued for. -/
def IdCurrent (s : TxQueues) (packetID : Nat) : Prop :=
  ∀ c ∈ queueOf packetID,
    checkId (s.txQueue c) (atbmQueueParseId packetID) = none ↔ Outstanding (s.txQueue c) packetID

instance decIdCurrent (s : TxQueues) (packetID : Nat) : Decidable (IdCurrent s packetID) :=
  match h : queueOf packetID with
  | none => .isTrue fun c hc => by
    rw [h] at hc
    cases hc
  | some c =>
    decidable_of_iff (checkId (s.txQueue c) (atbmQueueParseId packetID) = none ↔ Outstanding (s.txQueue c) packetID)
      ⟨fun hid c' hc => by
        rw [h] at hc
        obtain rfl := Option.some.inj hc
        exact hid, fun hid => hid c h⟩

theorem getSkb_write (s : TxQueues) (c : Fin 4) (packetID : Nat) : ∃ traps,
    s.write c (atbmQueueGetSkb packetID (s.view c)).1 = { s with traps } ∧
      ∀ t ∈ traps, t.counter = true → t ∈ s.traps := by
  have hwrite : ∀ v : TxQ, (∃ traps, v = { s.view c with traps } ∧ ∀ t ∈ traps, t.counter = true → t ∈ s.traps) →
      ∃ traps, s.write c v = { s with traps } ∧ ∀ t ∈ traps, t.counter = true → t ∈ s.traps := by
    rintro _ ⟨traps, rfl, ht⟩
    refine ⟨traps, ?_, ht⟩
    simp [TxQueues.write, TxQueues.view]
  have htrap : ∀ (b : Bool) (x : Trap) (v : TxQ), x.counter = false →
      (∃ traps, v = { s.view c with traps } ∧ ∀ t ∈ traps, t.counter = true → t ∈ s.traps) →
      ∃ traps, trapIf b x v = { s.view c with traps } ∧ ∀ t ∈ traps, t.counter = true → t ∈ s.traps := by
    rintro b x _ hx ⟨traps, rfl, ht⟩
    cases b with
    | false => exact ⟨traps, rfl, ht⟩
    | true =>
      refine ⟨x :: traps, rfl, fun t hm hc => ?_⟩
      rcases List.mem_cons.mp hm with rfl | hm
      · rw [hx] at hc
        cases hc
      · exact ht t hm hc
  have hfirst := htrap ((atbmQueueParseId packetID).queueId != (s.view c).q.queueId) .queueId (s.view c) rfl
    ⟨s.traps, rfl, fun _ h _ => h⟩
  apply hwrite
  unfold atbmQueueGetSkb
  simp only
  split
  · next ret t hc =>
    cases t with
    | none => exact hfirst
    | some t => exact htrap true t _ (checkId_trap hc t rfl) hfirst
  · exact hfirst

theorem accounted_traps {s : TxQueues} (h : Accounted s) {traps : List Trap}
    (ht : ∀ t ∈ traps, t.counter = true → t ∈ s.traps) : Accounted { s with traps } where
  counted c :=
    { h.counted c with
      traps := by
        intro t hm
        by_contra hc
        have hc : t.counter = true := Bool.not_eq_false _ ▸ hc
        have := (h.counted c).traps t (ht t hm hc)
        rw [hc] at this
        cases this }
  sharedLinkMap := h.sharedLinkMap
  sharedQueued := h.sharedQueued

theorem remove_accepted (e : QEnv) {s : TxQ} {packetID : Nat} (h : checkId s.q (atbmQueueParseId packetID) = none) :
    let k := (atbmQueueParseId packetID).itemId
    (atbmQueueRemove e packetID s).1.q.pending = s.q.pending.erase k ∧
      (atbmQueueRemove e packetID s).1.q.pool = Function.update s.q.pool k
        { s.q.pool k with skb := none, generation := (s.q.pool k).generation + 1 } := by
  unfold atbmQueueRemove
  simp only [trapIf_q, h]
  have hflow := (flowOnly_releaseOverfull e (atbmQueueParseId packetID).ifId
    (freeItem (atbmQueueParseId packetID)
      (trapIf ((atbmQueueParseId packetID).queueId != s.q.queueId) .queueId s))).trans
    (flowOnly_destroySkb (s.q.pool (atbmQueueParseId packetID).itemId) _)
  constructor
  · rw [hflow.q]
    simp [freeItem, unlinkItem]
  · rw [hflow.q]
    simp [freeItem]

theorem remove_gone {s : TxQueues} {c : Fin 4} (hs : Shape c (s.view c)) (e : QEnv) {packetID : Nat}
    (h : checkId (s.txQueue c) (atbmQueueParseId packetID) = none) :
    ¬Outstanding ((s.step ⟨c, e, .remove packetID⟩).txQueue c) packetID ∧
      (s.step ⟨c, e, .remove packetID⟩).txQueue ≠ s.txQueue := by
  have hq : (s.step ⟨c, e, .remove packetID⟩).txQueue c = (atbmQueueRemove e packetID (s.view c)).1.q :=
    s.step_txQueue_self ⟨c, e, .remove packetID⟩
  obtain ⟨hpending, hpool⟩ := remove_accepted e (s := s.view c) h
  constructor
  · rw [hq]
    rintro ⟨k, hk, b, hb, hbp⟩
    rw [hpending] at hk
    have hne : k ≠ (atbmQueueParseId packetID).itemId := by
      rintro rfl
      exact hs.slots.nodup_third.not_mem_erase hk
    have hk := List.mem_of_mem_erase hk
    rw [hpool, Function.update_of_ne hne] at hb
    have hid := (hs.id k (.inr hk)).itemId
    rw [← hs.frame k hk b hb, hbp] at hid
    exact hne hid.symm
  · intro heq
    rw [congrFun heq c] at hq
    have := congrArg AtbmQueueItem.generation (congrFun hpool (atbmQueueParseId packetID).itemId)
    rw [← hq, Function.update_self] at this
    have hnat := congrArg UInt8.toNat this
    rw [UInt8.toNat_add, show UInt8.toNat 1 = 1 from rfl] at hnat
    have hstep : ∀ g : UInt8, g.toNat ≠ (g.toNat + 1) % 2 ^ 8 := by
      intro g
      have := g.toNat_lt
      omega
    exact hstep _ hnat

section
variable {e : QEnv} {s : UsbTx} {packetID : Nat} {c : Fin 4} (hc : queueOf packetID = some c)
include hc

theorem freeErrData_rejected (h : checkId (s.queues.txQueue c) (atbmQueueParseId packetID) ≠ none) :
    ∃ traps, s.atbmUsbFreeErrData e packetID =
        { s with
          counts := s.counts.wsmReleaseVifTxBuffer (atbmQueueParseId packetID).ifId 1
          queues := { s.queues with traps } } ∧
      ∀ t ∈ traps, t.counter = true → t ∈ s.queues.traps := by
  obtain ⟨traps, hw, ht⟩ := getSkb_write s.queues c packetID
  obtain ⟨⟨ret, t⟩, hr⟩ := Option.ne_none_iff_exists'.mp h
  refine ⟨traps, ?_, ht⟩
  have hnone : (atbmQueueGetSkb packetID (s.queues.view c)).2.2 = none :=
    congrArg Prod.snd (getSkb_rejected (s := s.queues.view c) hr).1
  unfold atbmUsbFreeErrData
  simp only [hc, hnone, hw]

theorem freeErrData_accepted (h : checkId (s.queues.txQueue c) (atbmQueueParseId packetID) = none) :
    ∃ traps, s.atbmUsbFreeErrData e packetID =
        { s with
          counts := s.counts.wsmReleaseVifTxBuffer
            ((s.queues.txQueue c).pool (atbmQueueParseId packetID).itemId).txpriv.ifId.toNat 1
          queues := { s.queues with traps }.step ⟨c, e, .remove packetID⟩ } ∧
      ∀ t ∈ traps, t.counter = true → t ∈ s.queues.traps := by
  obtain ⟨traps, hw, ht⟩ := getSkb_write s.queues c packetID
  refine ⟨traps, ?_, ht⟩
  have hsome : ∃ skb, (atbmQueueGetSkb packetID (s.queues.view c)).2.2 =
      some (skb, ((s.queues.txQueue c).pool (atbmQueueParseId packetID).itemId).txpriv) := by
    unfold atbmQueueGetSkb
    simp only [trapIf_q, TxQueues.view_q, h]
    exact ⟨_, rfl⟩
  obtain ⟨skb, hsome⟩ := hsome
  unfold atbmUsbFreeErrData
  simp only [hc, hsome, hw]

/-- **One frame given back**: it removes what it is to remove exactly if the id is current. -/
theorem freeErrData_removes_iff (h : Accounted s.queues) :
    Removes s.queues (s.atbmUsbFreeErrData e packetID).queues packetID ↔ IdCurrent s.queues packetID := by
  have hall : ∀ p : Fin 4 → Prop, (∀ c' ∈ queueOf packetID, p c') ↔ p c := by
    intro p
    rw [hc]
    exact ⟨fun hp => hp c rfl, fun hp c' hc' => by obtain rfl := Option.some.inj hc'; exact hp⟩
  unfold Removes IdCurrent
  rw [hall, hall]
  by_cases hid : checkId (s.queues.txQueue c) (atbmQueueParseId packetID) = none
  · obtain ⟨traps, hw, ht⟩ := freeErrData_accepted (e := e) hc hid
    have hgone := remove_gone (s := { s.queues with traps }) ((accounted_traps h ht).counted c).toShape e hid
    rw [hw]
    simp only [hid, true_iff]
    constructor
    · intro hr
      by_contra hno
      exact hgone.2 (hr.2 hno)
    · intro hout
      exact ⟨fun _ => hgone.1, fun hno => absurd hout hno⟩
  · obtain ⟨traps, hw, -⟩ := freeErrData_rejected (e := e) hc hid
    rw [hw]
    simp only [hid, false_iff]
    constructor
    · intro hr hout
      exact hr.1 hout hout
    · intro hno
      exact ⟨fun hout => absurd hout hno, fun _ => trivial⟩

theorem freeErrData_frees (h : Accounted s.queues) (hid : IdCurrent s.queues packetID) :
    ∃ q, s.atbmUsbFreeErrData e packetID =
        { s with
          counts := s.counts.wsmReleaseVifTxBuffer (atbmQueueParseId packetID).ifId 1
          queues := q } ∧
      Accounted q := by
  have hid := hid c hc
  by_cases hcheck : checkId (s.queues.txQueue c) (atbmQueueParseId packetID) = none
  · obtain ⟨traps, hw, ht⟩ := freeErrData_accepted (e := e) hc hcheck
    have hout := hid.mp hcheck
    obtain ⟨k, hk, b, hb, hbp⟩ := id hout
    have hC := h.counted c
    have hname : (atbmQueueParseId packetID).itemId = k ∧
        (atbmQueueParseId packetID).ifId = ((s.queues.txQueue c).pool k).txpriv.ifId.toNat := by
      rw [← hbp, hC.frame k hk b hb]
      exact ⟨(hC.id k (.inr hk)).itemId, hC.idVif k (.inr hk)⟩
    rw [hname.1, ← hname.2] at hw
    exact ⟨_, hw, accounted_remove (accounted_traps h ht) e hout⟩
  · obtain ⟨traps, hw, ht⟩ := freeErrData_rejected (e := e) hc hcheck
    exact ⟨_, hw, accounted_traps h ht⟩

end

end UsbTx

end AtbmWifi
