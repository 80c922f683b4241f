import AtbmWifi.Lib.Holders
import AtbmWifi.Usb.FreeErrData
import AtbmWifi.Usb.UrbAccount

/-!
# A failed URB gives back what it took
-/

namespace AtbmWifi

open Transition

/-- What a failed URB is to have done when it is free: its account is even, each of its frames was given to
`atbm_usb_free_err_data` once, and its commands have ended with an error. -/
structure TxUrb.Settled (c : UsbCmd) (x : TxUrb) : Prop where
  account : x.account = .zero
  freed : x.freed.Perm (x.msgs.filterMap TxMsg.urbData)
  erred : ∀ call, .cmd call ∈ x.msgs → call ∈ c.erred

structure UsbTx.Fair (s : UsbTx) : Prop where
  settled : ∀ x ∈ s.urbs, x.phase = .free → x.failure = true → x.Settled s.cmd
  ended : ∀ x ∈ s.urbs, ∀ call ∈ x.ended, .cmd call ∈ x.msgs

/-- The frame is still the one its id was issued for; the command that waits is one of the URB. -/
def TxMsg.Returns (s : UsbTx) (x : TxUrb) : TxMsg → Prop
  | .data packetID _ => UsbTx.IdCurrent s.queues packetID
  | .cmd _ => ∀ call ∈ s.cmd.waiting, .cmd call ∈ x.msgs
  | .firmwareCheck => False

instance decReturns (s : UsbTx) (x : TxUrb) : (m : TxMsg) → Decidable (m.Returns s x)
  | .data packetID _ => UsbTx.decIdCurrent s.queues packetID
  | .cmd _ => inferInstanceAs (Decidable (∀ call ∈ s.cmd.waiting, .cmd call ∈ x.msgs))
  | .firmwareCheck => inferInstanceAs (Decidable False)

namespace UsbAct

/-- A frame given back is removed if it is there, and nothing else. -/
def Removes (b : UsbBuild) (s : UsbTx) (a : UsbAct) : Prop :=
  match a with
  | giveBack u _ =>
    match (s.urb u).phase with
    | .givingBack (m :: _) => ∀ p ∈ m.urbData, UsbTx.Removes s.queues (a.next b s).queues p
    | _ => True
  | release u _ => ∀ p ∈ (s.urb u).data, UsbTx.Removes s.queues (a.next b s).queues p
  | _ => True

def InOrder (b : UsbBuild) (s : UsbTx) : UsbAct → Prop
  | giveBack u _ =>
    match (s.urb u).phase with
    | .givingBack (m :: _) => b.skips s.counts.wsmTxSeq m = true ∨ m.Returns s (s.urb u)
    | _ => True
  | release u _ =>
    match (s.urb u).msgs with
    | [m] => m.Returns s (s.urb u)
    | _ => False
  | _ => True

instance decInOrder (b : UsbBuild) (s : UsbTx) (a : UsbAct) : Decidable (a.InOrder b s) := by
  unfold InOrder
  split
  · split <;> infer_instance
  · split <;> infer_instance
  · infer_instance

end UsbAct

structure UsbCmd.Ok (c : UsbCmd) : Prop where
  pending : c.pending = true → c.done = false
  erred : ∀ call ∈ c.erred, call ≤ c.call ∧ (c.done = false → call ≠ c.call)

/-- The commands of an URB have ended with an error, or are still to be given back and waited for. -/
def UsbCmd.Owes (c : UsbCmd) (x : TxUrb) : Prop :=
  ∀ call, .cmd call ∈ x.msgs → call ∈ c.erred ∨ (.cmd call ∈ x.held ∧ c.waiting = some call ∧ c.pending = false)

/-- What a step does to `wsm_cmd`, as an URB sees it. -/
structure UsbCmd.Later (c c' : UsbCmd) : Prop where
  ok : c'.Ok
  erred : ∀ call ∈ c.erred, call ∈ c'.erred
  waiting : ∀ call, c.waiting = some call → c.pending = false →
    call ∈ c'.erred ∨ (c'.waiting = some call ∧ c'.pending = false)

structure UsbTx.Inv (b : UsbBuild) (s : UsbTx) : Prop where
  accounted : Accounted s.queues
  cmd : s.cmd.Ok
  urbs : ∀ x ∈ s.urbs, x.Ok b
  owes : ∀ x ∈ s.urbs, x.phase ≠ .free → x.phase ≠ .kept → s.cmd.Owes x
  vif : ∀ i, s.counts.hwBufsUsedVif i =
    ((s.urbs.map fun x => x.held.countP (TxMsg.ofVif i)).sum + s.device.countP (TxMsg.ofVif i) : Nat)

namespace UsbCmd

variable {c c' : UsbCmd}

theorem waiting_eq_some {call : Nat} : c.waiting = some call ↔ c.done = false ∧ c.call = call := by
  unfold waiting
  cases c.done with
  | true => simp
  | false => simp

theorem Later.refl (h : c.Ok) : c.Later c := ⟨h, fun _ h => h, fun _ h hp => .inr ⟨h, hp⟩⟩

theorem Owes.later {x : TxUrb} (h : c.Owes x) (hl : c.Later c') : c'.Owes x := by
  intro call hcall
  rcases h call hcall with he | ⟨hheld, hw, hp⟩
  · exact .inl (hl.erred call he)
  · rcases hl.waiting call hw hp with he | hw
    · exact .inl he
    · exact .inr ⟨hheld, hw⟩

theorem Ok.fail (h : c.Ok) (hp : c.done = false → c.pending = false) : c.Later c.fail := by
  refine ⟨⟨fun hpend => ?_, fun call hcall => ?_⟩, fun call hcall => ?_, fun call hcall _ => .inl ?_⟩
  · have hpend : c.pending = true := hpend
    rw [hp (h.pending hpend)] at hpend
    cases hpend
  · rcases List.mem_append.mp hcall with hcall | hcall
    · exact ⟨(h.erred call hcall).1, nofun⟩
    · have hw := waiting_eq_some.mp (Option.mem_toList.mp hcall)
      exact ⟨Nat.le_of_eq hw.2.symm, nofun⟩
  · exact List.mem_append_left _ hcall
  · exact List.mem_append_right _ (Option.mem_toList.mpr hcall)

theorem Ok.timeout (h : c.Ok) : c.Later { c.fail with pending := false } := by
  have hf : ∀ call, call ∈ c.fail.erred ↔ call ∈ c.erred ∨ call ∈ c.waiting.toList := fun _ => List.mem_append
  refine ⟨⟨nofun, fun call hcall => ?_⟩, fun call hcall => ?_, fun call hcall _ => .inl ?_⟩
  · rcases (hf call).mp hcall with hcall | hcall
    · exact ⟨(h.erred call hcall).1, nofun⟩
    · have hw := waiting_eq_some.mp (Option.mem_toList.mp hcall)
      exact ⟨Nat.le_of_eq hw.2.symm, nofun⟩
  · exact (hf call).mpr (.inl hcall)
  · exact (hf call).mpr (.inr (Option.mem_toList.mpr hcall))

theorem Ok.send (h : c.Ok) (hd : c.done = true) :
    c.Later { c with pending := true, done := false, call := c.call + 1 } := by
  refine ⟨⟨fun _ => rfl, fun call hcall => ?_⟩, fun _ h => h, fun call hw => ?_⟩
  · have := (h.erred call hcall).1
    exact ⟨Nat.le_succ_of_le this, fun _ => Nat.ne_of_lt (Nat.lt_succ_of_le this)⟩
  · rw [(waiting_eq_some.mp hw).1] at hd
    cases hd

theorem Ok.taken (h : c.Ok) (hp : c.pending = true) : c.Later { c with pending := false } := by
  refine ⟨⟨nofun, h.erred⟩, fun _ h => h, fun call _ hno => ?_⟩
  rw [hp] at hno
  cases hno

end UsbCmd

namespace UsbTx

variable {b : UsbBuild} {s t : UsbTx} {u : Nat} {x y : TxUrb}

theorem urb_get (h : (s.urb u).phase ≠ .kept) : s.urbs[u]? = some (s.urb u) := by
  unfold urb at h ⊢
  cases hu : s.urbs[u]? with
  | none =>
    rw [hu] at h
    exact absurd rfl h
  | some x => rfl

theorem Inv.set (h : s.Inv b) (hx : s.urbs[u]? = some x) (hurbs : t.urbs = s.urbs.set u y)
    (hacc : Accounted t.queues) (hcmd : s.cmd.Later t.cmd) (hok : y.Ok b)
    (howes : y.phase ≠ .free → y.phase ≠ .kept → t.cmd.Owes y)
    (hvif : ∀ i, t.counts.hwBufsUsedVif i + x.held.countP (TxMsg.ofVif i) + s.device.countP (TxMsg.ofVif i) =
      s.counts.hwBufsUsedVif i + y.held.countP (TxMsg.ofVif i) + t.device.countP (TxMsg.ofVif i)) : t.Inv b := by
  refine ⟨hacc, hcmd.ok, ?_, ?_, fun i => ?_⟩
  · rw [hurbs]
    intro z hz
    rcases List.mem_or_eq_of_mem_set hz with hz | rfl
    · exact h.urbs z hz
    · exact hok
  · rw [hurbs]
    intro z hz hfree hkept
    rcases List.mem_or_eq_of_mem_set hz with hz | rfl
    · exact (h.owes z hz hfree hkept).later hcmd
    · exact howes hfree hkept
  · have hsum := sum_map_set (fun z : TxUrb => z.held.countP (TxMsg.ofVif i)) hx y
    have hbefore := h.vif i
    have := hvif i
    rw [hurbs]
    omega

theorem Inv.charge (h : s.Inv b) (hx : s.urbs[u]? = some x) (hurbs : t.urbs = s.urbs) (hdev : t.device = s.device)
    (hacc : Accounted t.queues) (hcmd : s.cmd.Later t.cmd) (hy : y.account = x.account)
    {f : UsbCounts → UsbCounts} (hf : UsbCounts.Shifts f) (hcounts : t.counts = f s.counts)
    (hok : TxUrb.Ok b { y with account := f x.account })
    (howes : y.phase ≠ .free → y.phase ≠ .kept → t.cmd.Owes y) : (t.charge u s.counts y).Inv b := by
  have hshift : y.account.shift s.counts t.counts = f x.account := by
    rw [hy, hcounts]
    exact hf x.account s.counts
  refine h.set (y := { y with account := f x.account }) hx ?_ hacc hcmd hok howes fun i => ?_
  · show t.urbs.set u { y with account := y.account.shift s.counts t.counts } = _
    rw [hurbs, hshift]
  · -- the counter changes by what the URB holds more or less
    have hold : x.account.hwBufsUsedVif i = x.held.countP (TxMsg.ofVif i) :=
      congrFun (congrArg UsbCounts.hwBufsUsedVif (h.urbs x (List.mem_of_getElem? hx)).account) i
    have hnew : (f x.account).hwBufsUsedVif i = y.held.countP (TxMsg.ofVif i) :=
      congrFun (congrArg UsbCounts.hwBufsUsedVif hok.account) i
    have hdiff : (f x.account).hwBufsUsedVif i =
        x.account.hwBufsUsedVif i + (t.counts.hwBufsUsedVif i - s.counts.hwBufsUsedVif i) := by
      rw [hcounts, ← hf x.account s.counts]
      rfl
    show t.counts.hwBufsUsedVif i + _ + _ = _ + y.held.countP (TxMsg.ofVif i) + t.device.countP (TxMsg.ofVif i)
    rw [hdev]
    omega

theorem charge_same (s : UsbTx) (u : Nat) (y : TxUrb) : s.charge u s.counts y = { s with urbs := s.urbs.set u y } := by
  unfold UsbTx.charge
  rw [UsbCounts.Shifts.id y.account s.counts]

theorem Inv.shared (h : s.Inv b) (hurbs : t.urbs = s.urbs) (hacc : Accounted t.queues) (hcmd : s.cmd.Later t.cmd)
    (hvif : ∀ i, t.counts.hwBufsUsedVif i + s.device.countP (TxMsg.ofVif i) =
      s.counts.hwBufsUsedVif i + t.device.countP (TxMsg.ofVif i)) : t.Inv b := by
  refine ⟨hacc, hcmd.ok, ?_, ?_, fun i => ?_⟩
  · rw [hurbs]
    exact h.urbs
  · rw [hurbs]
    intro x hx hfree hkept
    exact (h.owes x hx hfree hkept).later hcmd
  · have := h.vif i
    have := hvif i
    rw [hurbs]
    omega

theorem Fair.set (h : s.Fair) {x' : TxUrb} (hurbs : t.urbs = s.urbs.set u x')
    (hcmd : ∀ call ∈ s.cmd.erred, call ∈ t.cmd.erred)
    (hsettled : x'.phase = .free → x'.failure = true → x'.Settled t.cmd)
    (hended : ∀ call ∈ x'.ended, .cmd call ∈ x'.msgs) : t.Fair := by
  refine ⟨?_, ?_⟩
  · rw [hurbs]
    intro z hz hfree hfail
    rcases List.mem_or_eq_of_mem_set hz with hz | rfl
    · have := h.settled z hz hfree hfail
      exact ⟨this.account, this.freed, fun call hc => hcmd call (this.erred call hc)⟩
    · exact hsettled hfree hfail
  · rw [hurbs]
    intro z hz
    rcases List.mem_or_eq_of_mem_set hz with hz | rfl
    · exact h.ended z hz
    · exact hended

theorem Fair.shared (h : s.Fair) (hurbs : t.urbs = s.urbs) (hcmd : ∀ call ∈ s.cmd.erred, call ∈ t.cmd.erred) :
    t.Fair := by
  refine ⟨?_, ?_⟩
  · rw [hurbs]
    intro x hx hfree hfail
    have := h.settled x hx hfree hfail
    exact ⟨this.account, this.freed, fun call hc => hcmd call (this.erred call hc)⟩
  · rw [hurbs]
    exact h.ended

variable {m : TxMsg} {rest : List TxMsg}

theorem freeErr_returns (h : Accounted s.queues) (hm : m.Named) (hr : m.Returns s x)
    (hvif : ∀ i, m.ofVif i = true → 1 ≤ s.counts.hwBufsUsedVif i) (e : QEnv) :
    ∃ q, s.freeErr e m.urbData =
        { s with
          counts := s.counts.addVif m (-1)
          cmd := if m.urbData = none then s.cmd.fail else s.cmd
          queues := q } ∧
      Accounted q := by
  cases m with
  | data packetID ifId =>
    obtain ⟨hq, rfl⟩ := hm
    obtain ⟨q, hw, hacc⟩ := freeErrData_frees (e := e) (s := s) (dif_pos hq) h hr
    refine ⟨q, ?_, hacc⟩
    have hcount := UsbCounts.wsmReleaseVifTxBuffer_eq (m := .data packetID (atbmQueueParseId packetID).ifId)
      (hvif _ (beq_self_eq_true _)) fun _ => rfl
    show s.atbmUsbFreeErrData e packetID = _
    rw [hw, hcount]
    rfl
  | cmd call =>
    refine ⟨s.queues, ?_, h⟩
    have hcount : s.counts.addVif (.cmd call) (-1) = s.counts := by
      apply UsbCounts.ext
      · rfl
      · funext i
        exact Int.add_zero _
      · rfl
      · rfl
    show s.atbmUsbFreeErrCmd = _
    rw [hcount]
    rfl
  | firmwareCheck => exact hr.elim

theorem bufs_of_returns (hr : m.Returns s x) : m.bufs = 1 := by
  cases m with
  | firmwareCheck => exact hr.elim
  | _ => rfl

theorem freeErr_counts (e : QEnv) (data : Option Nat) (s : UsbTx) :
    (s.freeErr e data).counts.hwBufsUsed = s.counts.hwBufsUsed ∧
      (s.freeErr e data).counts.txHwChanId = s.counts.txHwChanId := by
  cases data with
  | none => exact ⟨rfl, rfl⟩
  | some p =>
    unfold freeErr atbmUsbFreeErrData
    simp only
    split
    · exact ⟨rfl, rfl⟩
    · split
      · exact ⟨rfl, rfl⟩
      · exact ⟨rfl, rfl⟩

theorem freeErr_urbs (e : QEnv) (data : Option Nat) (s : UsbTx) :
    (s.freeErr e data).urbs = s.urbs ∧ (s.freeErr e data).device = s.device := by
  cases data with
  | none => exact ⟨rfl, rfl⟩
  | some p =>
    unfold freeErr atbmUsbFreeErrData
    simp only
    split
    · exact ⟨rfl, rfl⟩
    · split
      · exact ⟨rfl, rfl⟩
      · exact ⟨rfl, rfl⟩

theorem Inv.vif_pos (h : s.Inv b) (hx : s.urbs[u]? = some x) (hm : m ∈ x.held) (i : Nat)
    (hi : m.ofVif i = true) : 1 ≤ s.counts.hwBufsUsedVif i := by
  have hpos : 0 < x.held.countP (TxMsg.ofVif i) := List.countP_pos_iff.mpr ⟨m, hm, hi⟩
  have hle : x.held.countP (TxMsg.ofVif i) ≤ (s.urbs.map fun z : TxUrb => z.held.countP (TxMsg.ofVif i)).sum :=
    List.le_sum_of_mem (List.mem_map.mpr ⟨x, List.mem_of_getElem? hx, rfl⟩)
  have := h.vif i
  omega

theorem Inv.fail_later (h : s.Inv b) (hx : s.urbs[u]? = some x) (hfree : x.phase ≠ .free) (hkept : x.phase ≠ .kept)
    (hr : m.Returns s x) (hm : m.urbData = none) : s.cmd.Later s.cmd.fail := by
  apply h.cmd.fail
  intro hd
  have hw : s.cmd.waiting = some s.cmd.call := UsbCmd.waiting_eq_some.mpr ⟨hd, rfl⟩
  cases m with
  | data p i => cases hm
  | firmwareCheck => exact hr.elim
  | cmd call =>
    rcases h.owes x (List.mem_of_getElem? hx) hfree hkept _ (hr _ hw) with he | ⟨-, -, hp⟩
    · exact absurd rfl ((h.cmd.erred _ he).2 hd)
    · exact hp

theorem skips_unsent (b : UsbBuild) (c : UsbCounts) (m : TxMsg) :
    b.skips (c.unsent b).wsmTxSeq m = b.skips c.wsmTxSeq m := by
  have haggr : ∀ seq : BitVec 3, UsbBuild.aggr.knowsCheck seq = true := by decide
  cases b with
  | single => rfl
  | aggr =>
    cases m with
    | firmwareCheck => exact (haggr _).trans (haggr _).symm
    | _ => rfl

theorem owes_rest {c c' : UsbCmd} (h : c.Owes x) (hheld : x.held = m :: rest)
    (hl : c.Later c') (hm : m.urbData = none → m ≠ .firmwareCheck → c' = c.fail) (call : Nat)
    (hcall : .cmd call ∈ x.msgs) :
    call ∈ c'.erred ∨ (.cmd call ∈ rest ∧ c'.waiting = some call ∧ c'.pending = false) := by
  rcases h call hcall with he | ⟨hmem, hw, hp⟩
  · exact .inl (hl.erred call he)
  · rw [hheld] at hmem
    rcases List.mem_cons.mp hmem with rfl | hmem
    · rw [hm rfl nofun]
      exact .inl (List.mem_append_right _ (Option.mem_toList.mpr hw))
    · rcases hl.waiting call hw hp with he | hw
      · exact .inl he
      · exact .inr ⟨hmem, hw⟩

theorem undo_returns (h : s.Inv b) (hx : s.urbs[u]? = some x)
    (hp : x.phase = .givingBack (m :: rest)) (hC : b.skips s.counts.wsmTxSeq m = true ∨ m.Returns s x) (e : QEnv) :
    ∃ q c, ({ s with counts := s.counts.unsent b } : UsbTx).undo b e m =
        { s with counts := TxUrb.backed b s.counts.wsmTxSeq m s.counts, queues := q, cmd := c } ∧
      Accounted q ∧ s.cmd.Later c ∧ (m.urbData = none → m ≠ .firmwareCheck → c = s.cmd.fail) ∧
      ∀ call ∈ (if b.skips s.counts.wsmTxSeq m = true then [] else s.ends m.urbData), .cmd call ∈ x.msgs := by
  have hfree : x.phase ≠ .free := by
    rw [hp]
    nofun
  have hkept : x.phase ≠ .kept := by
    rw [hp]
    nofun
  have hheld := TxUrb.held_of_givingBack hp
  have hok := h.urbs x (List.mem_of_getElem? hx)
  obtain ⟨gone, hgone, -⟩ := hok.gone hfree
  have hmem : m ∈ x.msgs := by
    rw [hgone, hheld]
    exact List.mem_append_right _ List.mem_cons_self
  unfold undo TxUrb.backed
  simp only [skips_unsent]
  by_cases hs : b.skips s.counts.wsmTxSeq m = true
  · refine ⟨s.queues, s.cmd, ?_, h.accounted, .refl h.cmd, fun hnone hne => ?_, ?_⟩
    · rw [if_pos hs, if_pos hs]
    · cases m with
      | data p i => cases hnone
      | cmd call => cases hs
      | firmwareCheck => exact absurd rfl hne
    · rw [if_pos hs]
      nofun
  · have hr : m.Returns s x := hC.resolve_left hs
    have hvif : ∀ i, m.ofVif i = true → 1 ≤ (s.counts.unsent b).hwBufsUsedVif i := by
      intro i hi
      have := h.vif_pos hx (hheld ▸ List.mem_cons_self) i hi
      cases b <;> exact this
    obtain ⟨q, hw, hacc⟩ := freeErr_returns (s := { s with counts := s.counts.unsent b }) (x := x) h.accounted
      (hok.named m hmem) (by cases m <;> exact hr) hvif e
    refine ⟨q, if m.urbData = none then s.cmd.fail else s.cmd, ?_, hacc, ?_, fun hnone _ => if_pos hnone, ?_⟩
    · rw [if_neg hs, if_neg hs, hw]
      rfl
    · split
      · next hnone => exact h.fail_later hx hfree hkept hr hnone
      · exact .refl h.cmd
    · rw [if_neg hs]
      intro call hcall
      cases m with
      | data p i => cases hcall
      | cmd k => exact hr call (Option.mem_toList.mp hcall)
      | firmwareCheck => exact hr.elim

theorem keep_giveBack (h : s.Inv b) (hF : s.Fair) (hx : s.urbs[u]? = some x)
    (hp : x.phase = .givingBack (m :: rest)) (hC : b.skips s.counts.wsmTxSeq m = true ∨ m.Returns s x) (e : QEnv) :
    (s.giveBack b e u x m rest).Inv b ∧ (s.giveBack b e u x m rest).Fair := by
  have hfree : x.phase ≠ .free := by
    rw [hp]
    nofun
  have hkept : x.phase ≠ .kept := by
    rw [hp]
    nofun
  have hheld := TxUrb.held_of_givingBack hp
  have hmem := List.mem_of_getElem? hx
  have hok := h.urbs x hmem
  obtain ⟨q, c, hw, hacc, hl, hcm, hended⟩ := undo_returns h hx hp hC e
  have howes := owes_rest (h.owes x hmem hfree hkept) hheld hl hcm
  have hback := hok.gaveBack hp (hC.imp_right bufs_of_returns)
    (x.ended ++ if b.skips s.counts.wsmTxSeq m = true then [] else s.ends m.urbData)
  unfold giveBack
  simp only [skips_unsent, hw]
  constructor
  · refine h.charge hx rfl rfl hacc hl rfl (TxUrb.backed_shifts b s.counts.wsmTxSeq m) rfl hback fun hf _ call hcall => ?_
    have hrest : rest ≠ [] := fun hnil => hf (if_pos hnil)
    rcases howes call hcall with he | hw
    · exact .inl he
    · refine .inr ⟨?_, hw.2⟩
      show .cmd call ∈ TxUrb.held _
      unfold TxUrb.held
      simp only [if_neg hrest]
      exact hw.1
  · have hlast : (if rest = [] then UrbPhase.free else .givingBack rest) = .free → rest = [] := by
      intro hf
      by_contra hne
      rw [if_neg hne] at hf
      cases hf
    refine hF.set rfl hl.erred (fun hf _ => ⟨?_, ?_, fun call hcall => ?_⟩) fun call hcall => ?_
    · obtain rfl := hlast hf
      exact ((TxUrb.backed_shifts b s.counts.wsmTxSeq m) x.account s.counts).trans (hback.settled rfl)
    · obtain rfl := hlast hf
      exact List.Perm.of_eq (hok.freed_last hp)
    · obtain rfl := hlast hf
      exact (howes call hcall).resolve_right fun hno => List.not_mem_nil hno.1
    · rcases List.mem_append.mp hcall with hcall | hcall
      · exact hF.ended x hmem call hcall
      · exact hended call hcall

theorem keep_release (h : s.Inv b) (hF : s.Fair) (hx : s.urbs[u]? = some x) (hp : x.phase = .failed)
    (hmsgs : x.msgs = [m]) (hr : m.Returns s x) (e : QEnv) :
    (s.releaseTxErrUrb e u x).Inv b ∧ (s.releaseTxErrUrb e u x).Fair := by
  have hfree : x.phase ≠ .free := by
    rw [hp]
    nofun
  have hkept : x.phase ≠ .kept := by
    rw [hp]
    nofun
  have hheld : x.held = [m] := (TxUrb.held_of_whole (by rw [hp]; rfl)).trans hmsgs
  have hmem := List.mem_of_getElem? hx
  have hok := h.urbs x hmem
  obtain ⟨hfreed, hdata⟩ := hok.of_failed hp
  have hnamed : m.Named := hok.named m (by rw [hmsgs]; exact List.mem_singleton_self m)
  have hvif := h.vif_pos hx (hheld ▸ List.mem_singleton_self m)
  obtain ⟨q, hw, hacc⟩ := freeErr_returns (s := { s with counts := s.counts.rewind }) (x := x) h.accounted hnamed
    (by cases m <;> exact hr) hvif e
  have hl : s.cmd.Later (if m.urbData = none then s.cmd.fail else s.cmd) := by
    split
    · next hnone => exact h.fail_later hx hfree hkept hr hnone
    · exact .refl h.cmd
  have howes := owes_rest (h.owes x hmem hfree hkept) hheld hl fun hnone _ => if_pos hnone
  have hended : ∀ call ∈ s.ends m.urbData, .cmd call ∈ x.msgs := by
    intro call hcall
    cases m with
    | data p i => cases hcall
    | cmd k => exact hr call (Option.mem_toList.mp hcall)
    | firmwareCheck => exact hr.elim
  have hreleased := hok.released hp hmsgs (bufs_of_returns hr) (x.freed ++ m.urbData.toList)
    (x.ended ++ s.ends m.urbData)
  have hshifts : UsbCounts.Shifts fun c => c.rewind.addVif m (-1) :=
    UsbCounts.rewind_shifts.comp (UsbCounts.addVif_shifts m (-1))
  unfold releaseTxErrUrb
  rw [hdata m hmsgs, hw]
  constructor
  · exact h.charge hx rfl rfl hacc hl rfl hshifts rfl hreleased fun hf => absurd rfl hf
  · refine hF.set rfl hl.erred (fun _ _ => ⟨?_, ?_, fun call hcall => ?_⟩) fun call hcall => ?_
    · exact (hshifts x.account s.counts).trans (hreleased.settled rfl)
    · show (x.freed ++ m.urbData.toList).Perm (x.msgs.filterMap TxMsg.urbData)
      rw [hfreed, hmsgs]
      apply List.Perm.of_eq
      cases m <;> rfl
    · exact (howes call hcall).resolve_right fun hno => List.not_mem_nil hno.1
    · rcases List.mem_append.mp hcall with hcall | hcall
      · exact hF.ended x hmem call hcall
      · exact hended call hcall

theorem Fair.charged {c : UsbCounts} (h : (t.charge u c y).Fair) (hu : u < t.urbs.length) :
    (∀ call ∈ y.ended, .cmd call ∈ y.msgs) ∧
      (y.phase = .free → y.failure = true → y.account.shift c t.counts = .zero) := by
  have hmem : { y with account := y.account.shift c t.counts } ∈ (t.charge u c y).urbs := List.mem_set hu _
  exact ⟨h.ended { y with account := y.account.shift c t.counts } hmem, fun hp hf => (h.settled _ hmem hp hf).account⟩

theorem returns_of_fair (hacc : Accounted s.queues) (hm : m.Named) (hbufs : m.bufs = 1) {e : QEnv} {c : UsbCounts}
    (hq : ∀ p ∈ m.urbData, Removes s.queues ({ s with counts := c }.freeErr e m.urbData).queues p)
    (hended : ∀ call ∈ s.ends m.urbData, .cmd call ∈ x.msgs) : m.Returns s x := by
  cases m with
  | data p i => exact (freeErrData_removes_iff (s := { s with counts := c }) (dif_pos hm.1) hacc).mp (hq p rfl)
  | cmd k => exact fun call hcall => hended call (Option.mem_toList.mpr hcall)
  | firmwareCheck => cases hbufs

theorem lose_giveBack (h : s.Inv b) (hx : s.urbs[u]? = some x)
    (hp : x.phase = .givingBack (m :: rest)) (e : QEnv) (hF : (s.giveBack b e u x m rest).Fair)
    (hq : ∀ p ∈ m.urbData, Removes s.queues (s.giveBack b e u x m rest).queues p) :
    b.skips s.counts.wsmTxSeq m = true ∨ m.Returns s x := by
  by_cases hs : b.skips s.counts.wsmTxSeq m = true
  · exact .inl hs
  have hok := h.urbs x (List.mem_of_getElem? hx)
  have hfree : x.phase ≠ .free := by
    rw [hp]
    nofun
  have hheld := TxUrb.held_of_givingBack hp
  obtain ⟨gone, hgone, -⟩ := hok.gone hfree
  rw [hheld] at hgone
  have hnamed : m.Named := hok.named m (hgone ▸ List.mem_append_right _ List.mem_cons_self)
  unfold giveBack undo at hF hq
  simp only [skips_unsent, if_neg hs] at hF hq
  have hu : u < ({ s with counts := s.counts.unsent b }.freeErr e m.urbData).urbs.length := by
    rw [(freeErr_urbs _ _ _).1]
    exact (List.getElem?_eq_some_iff.mp hx).1
  obtain ⟨hended, haccount⟩ := hF.charged hu
  refine .inr (returns_of_fair h.accounted hnamed ?_ hq fun call hcall => hended call (List.mem_append_right _ hcall))
  -- a firmware check that is not known is alone in its URB and takes a buffer that is not its own
  by_contra hbufs
  cases m with
  | data p i => exact hbufs rfl
  | cmd call => exact hbufs rfl
  | firmwareCheck =>
    have hsingle : b = .single := by
      cases b with
      | single => rfl
      | aggr =>
        have haggr : ∀ seq : BitVec 3, UsbBuild.aggr.knowsCheck seq = true := by decide
        exact absurd (haggr _) hs
    subst hsingle
    have hlen : x.msgs.length ≤ 1 := hok.length
    rw [hgone, List.length_append, List.length_cons] at hlen
    obtain rfl : rest = [] := List.length_eq_zero_iff.mp (by omega)
    have hfail : x.failure = true := (hok.failure hfree).trans (by rw [hp]; rfl)
    have hzero := congrArg UsbCounts.hwBufsUsed (haccount rfl hfail)
    have hbefore : x.account.hwBufsUsed = 0 := by
      rw [hok.account, hheld, hp]
      rfl
    have hafter : x.account.hwBufsUsed + (s.counts.hwBufsUsed - 1 - s.counts.hwBufsUsed) = 0 := hzero
    omega

theorem lose_release (h : s.Inv b) (hx : s.urbs[u]? = some x) (hp : x.phase = .failed) (e : QEnv)
    (hF : (s.releaseTxErrUrb e u x).Fair)
    (hq : ∀ p ∈ x.data, Removes s.queues (s.releaseTxErrUrb e u x).queues p) :
    ∃ m, x.msgs = [m] ∧ m.Returns s x := by
  have hok := h.urbs x (List.mem_of_getElem? hx)
  have hfree : x.phase ≠ .free := by
    rw [hp]
    nofun
  have hheld : x.held = x.msgs := TxUrb.held_of_whole (by rw [hp]; rfl)
  have hfail : x.failure = true := (hok.failure hfree).trans (by rw [hp]; rfl)
  have hsame := freeErr_counts e x.data { s with counts := s.counts.rewind }
  unfold releaseTxErrUrb at hF hq
  have hu : u < ({ s with counts := s.counts.rewind }.freeErr e x.data).urbs.length := by
    rw [(freeErr_urbs _ _ _).1]
    exact (List.getElem?_eq_some_iff.mp hx).1
  obtain ⟨hended, haccount⟩ := hF.charged hu
  have hzero := haccount rfl hfail
  have hbufs := congrArg UsbCounts.hwBufsUsed hzero
  have hchan := congrArg UsbCounts.txHwChanId hzero
  simp only [UsbCounts.shift, hsame, hok.account, hheld, hp, UsbCounts.owing, TxUrb.sent] at hbufs hchan
  have hbufs : (x.msgs.map TxMsg.bufs).sum - 1 + (s.counts.hwBufsUsed - s.counts.hwBufsUsed) = 0 := hbufs
  have hchan : BitVec.ofNat 32 x.msgs.length + (s.counts.txHwChanId - 1 - s.counts.txHwChanId) = 0 := hchan
  -- one is rewound, so it has one message
  have hone : x.msgs.length = 1 := by
    have hsub : BitVec.ofNat 32 x.msgs.length - 1 = 0 := by
      rw [← hchan]
      abel
    have hmod := congrArg BitVec.toNat (sub_eq_zero.mp hsub)
    rw [BitVec.toNat_ofNat, show BitVec.toNat (1 : BitVec 32) = 1 from rfl] at hmod
    have hlen := hok.length
    have hframes : b.frames ≤ 64 := by
      cases b <;> decide
    omega
  obtain ⟨m, hm⟩ := List.length_eq_one_iff.mp hone
  refine ⟨m, hm, ?_⟩
  rw [(hok.of_failed hp).2 m hm] at hq hended
  have hnamed : m.Named := hok.named m (hm ▸ List.mem_singleton_self m)
  rw [hm, List.map_singleton, List.sum_singleton] at hbufs
  exact returns_of_fair h.accounted hnamed (by omega) hq fun call hcall =>
    hended call (List.mem_append_right _ hcall)

theorem named_got (h : Accounted s.queues) {c : Fin 4} {ifId linkIdMap k : Nat}
    (hsel : selectItem (s.queues.txQueue c) ifId linkIdMap = some k) :
    (TxMsg.data (issuedId (s.queues.txQueue c) k) ifId).Named := by
  have hC := h.counted c
  have hmem : k ∈ (s.queues.txQueue c).queue := selectItem_mem hsel
  have hif : ((s.queues.txQueue c).pool k).txpriv.ifId.toNat = ifId := by
    have := List.find?_some hsel
    rw [Bool.and_eq_true, beq_iff_eq] at this
    exact this.1
  have hnames := hC.toShape.issuedId_names (.inl hmem)
  refine ⟨?_, ?_⟩
  · rw [show (atbmQueueParseId (issuedId (s.queues.txQueue c) k)).queueId = c from hnames.2.2]
    exact c.isLt
  · have hid : (atbmQueueParseId ((s.queues.txQueue c).pool k).packetID).ifId =
        ((s.queues.txQueue c).pool k).txpriv.ifId.toNat := hC.idVif k (.inl hmem)
    rw [← hif, ← hid]
    unfold issuedId
    split
    · rfl
    · rw [parse_setGeneration]

theorem Owes.mono {c : UsbCmd} (h : c.Owes x) (hmsgs : y.msgs = x.msgs) (hheld : y.held = x.held) : c.Owes y := by
  unfold UsbCmd.Owes
  rw [hmsgs, hheld]
  exact h

theorem keep_addFrame (h : s.Inv b) (hF : s.Fair) (hp : (s.urb u).phase = .building)
    (hlen : (s.urb u).msgs.length < b.frames) (hm : m.Named) {q : TxQueues} (hq : Accounted q) {c : UsbCmd}
    (hl : s.cmd.Later c) (hc : ∀ call, m = .cmd call → c.waiting = some call ∧ c.pending = false) :
    (UsbTx.addFrame b u (s.urb u) m { s with queues := q, cmd := c }).Inv b ∧
      (UsbTx.addFrame b u (s.urb u) m { s with queues := q, cmd := c }).Fair := by
  have hx := urb_get (s := s) (u := u) (by rw [hp]; nofun)
  have hmem := List.mem_of_getElem? hx
  generalize s.urb u = x at hp hlen hx hmem
  have hok := h.urbs x hmem
  constructor
  · refine h.charge hx rfl rfl hq hl rfl (UsbCounts.frame_shifts b m) rfl (hok.addFrame hp hlen hm) fun _ _ => ?_
    intro call hcall
    have hcall : .cmd call ∈ x.msgs ++ [m] := hcall
    have hall : TxUrb.held { x with data := m.urbData, msgs := x.msgs ++ [m] } = x.msgs ++ [m] :=
      TxUrb.held_of_whole (by rw [hp]; rfl)
    have hheld : .cmd call ∈ TxUrb.held { x with data := m.urbData, msgs := x.msgs ++ [m] } := by
      rw [hall]
      exact hcall
    rcases List.mem_append.mp hcall with hmem' | hmem'
    · have := (h.owes x hmem (by rw [hp]; nofun) (by rw [hp]; nofun)).later hl call hmem'
      rcases this with he | ⟨-, hw⟩
      · exact .inl he
      · exact .inr ⟨hheld, hw⟩
    · exact .inr ⟨hheld, hc call (List.mem_singleton.mp hmem').symm⟩
  · refine hF.set rfl hl.erred (fun hf => ?_) fun call hcall => ?_
    · have hf : x.phase = .free := hf
      rw [hp] at hf
      cases hf
    · exact List.mem_append_left _ (hF.ended x hmem call hcall)

theorem keep_submit (h : s.Inv b) (hF : s.Fair) (hp : (s.urb u).phase = .building) (hne : (s.urb u).msgs ≠ [])
    (ok : Bool) : (s.submitUrb b u (s.urb u) ok).Inv b ∧ (s.submitUrb b u (s.urb u) ok).Fair := by
  have hx := urb_get (s := s) (u := u) (by rw [hp]; nofun)
  have hmem := List.mem_of_getElem? hx
  generalize s.urb u = x at hp hne hx hmem
  have hok := h.urbs x hmem
  have howes : s.cmd.Owes x := h.owes x hmem (by rw [hp]; nofun) (by rw [hp]; nofun)
  have hheld : x.held = x.msgs := TxUrb.held_of_whole (by rw [hp]; rfl)
  cases ok with
  | true =>
    exact ⟨h.charge hx rfl rfl h.accounted (.refl h.cmd) rfl (UsbCounts.submitted_shifts b) rfl
      (hok.submitted hp hne) fun _ _ => Owes.mono howes rfl hheld.symm,
      hF.set rfl (fun _ h => h) nofun (hF.ended x hmem)⟩
  | false =>
    exact ⟨h.charge hx rfl rfl h.accounted (.refl h.cmd) rfl .id rfl (hok.refused hp hne)
      fun _ _ => Owes.mono howes rfl hheld.symm, hF.set rfl (fun _ h => h) nofun (hF.ended x hmem)⟩

theorem keep_complete (h : s.Inv b) (hF : s.Fair) (hp : (s.urb u).phase = .inFlight) (how : Completion) :
    (s.complete u (s.urb u) how).Inv b ∧ (s.complete u (s.urb u) how).Fair := by
  have hx := urb_get (s := s) (u := u) (by rw [hp]; nofun)
  have hmem := List.mem_of_getElem? hx
  generalize s.urb u = x at hp hx hmem
  have hok := h.urbs x hmem
  have howes : s.cmd.Owes x := h.owes x hmem (by rw [hp]; nofun) (by rw [hp]; nofun)
  have hheld : x.held = x.msgs := TxUrb.held_of_whole (by rw [hp]; rfl)
  have hfail : x.failure = false := (hok.failure (by rw [hp]; nofun)).trans (by rw [hp]; rfl)
  cases how with
  | ok =>
    refine ⟨h.set hx rfl h.accounted (.refl h.cmd) hok.completed (fun hf => absurd rfl hf) fun i => ?_,
      hF.set rfl (fun _ h => h) (fun _ hno => ?_) (hF.ended x hmem)⟩
    · show s.counts.hwBufsUsedVif i + _ + _ = s.counts.hwBufsUsedVif i + (0 : Nat) + (s.device ++ x.msgs).countP _
      rw [hheld, List.countP_append]
      omega
    · have hno : x.failure = true := hno
      rw [hfail] at hno
      cases hno
  | early =>
    exact ⟨h.charge hx rfl rfl h.accounted (.refl h.cmd) rfl .id rfl (hok.kept hp) fun _ hk => absurd rfl hk,
      hF.set rfl (fun _ h => h) nofun (hF.ended x hmem)⟩
  | error =>
    exact ⟨h.charge hx rfl rfl h.accounted (.refl h.cmd) rfl (UsbCounts.wsmReleaseTxBuffer_shifts 1) rfl (hok.erred hp)
      fun _ _ => Owes.mono howes rfl hheld.symm, hF.set rfl (fun _ h => h) nofun (hF.ended x hmem)⟩

theorem keep_start (h : s.Inv b) (hF : s.Fair) (hp : (s.urb u).phase = .free) :
    ({ s with urbs := s.urbs.set u (.fresh .building) } : UsbTx).Inv b ∧
      ({ s with urbs := s.urbs.set u (.fresh .building) } : UsbTx).Fair := by
  have hx := urb_get (s := s) (u := u) (by rw [hp]; nofun)
  have hok := h.urbs _ (List.mem_of_getElem? hx)
  rw [← charge_same]
  exact ⟨h.charge hx rfl rfl h.accounted (.refl h.cmd) (hok.settled hp).symm .id rfl
    (by rw [hok.settled hp]; exact .fresh b (.inr rfl)) fun _ _ _ hno => absurd hno List.not_mem_nil,
    hF.set rfl (fun _ h => h) nofun nofun⟩

theorem keep_leave (h : s.Inv b) (hF : s.Fair) (hp : (s.urb u).phase = .building) (hnil : (s.urb u).msgs = []) :
    ({ s with urbs := s.urbs.set u { s.urb u with phase := .free } } : UsbTx).Inv b ∧
      ({ s with urbs := s.urbs.set u { s.urb u with phase := .free } } : UsbTx).Fair := by
  have hx := urb_get (s := s) (u := u) (by rw [hp]; nofun)
  have hmem := List.mem_of_getElem? hx
  have hok := h.urbs _ hmem
  have hfail : (s.urb u).failure = false := (hok.failure (by rw [hp]; nofun)).trans (by rw [hp]; rfl)
  constructor
  · rw [← charge_same]
    exact h.charge hx rfl rfl h.accounted (.refl h.cmd) rfl .id rfl (hok.leave hp hnil) fun hf => absurd rfl hf
  · refine hF.set rfl (fun _ h => h) (fun _ hno => ?_) (hF.ended (s.urb u) hmem)
    have hno : (s.urb u).failure = true := hno
    rw [hfail] at hno
    cases hno

theorem keep_confirm (h : s.Inv b) (hF : s.Fair) (hm : m ∈ s.device) : (s.confirm m).Inv b ∧ (s.confirm m).Fair := by
  have hvif : ∀ i, (s.confirm m).counts.hwBufsUsedVif i =
      s.counts.hwBufsUsedVif i + if m.ofVif i = true then -1 else 0 := by
    intro i
    cases m with
    | data p ifId =>
      have hle : 0 < s.device.countP (TxMsg.ofVif ifId) :=
        List.countP_pos_iff.mpr ⟨_, hm, beq_self_eq_true ifId⟩
      have hpos : 1 ≤ (s.counts.wsmReleaseTxBuffer 1).hwBufsUsedVif ifId := by
        have := h.vif ifId
        show 1 ≤ s.counts.hwBufsUsedVif ifId
        omega
      show ((s.counts.wsmReleaseTxBuffer 1).wsmReleaseVifTxBuffer ifId 1).hwBufsUsedVif i = _
      rw [UsbCounts.wsmReleaseVifTxBuffer_eq (m := .data p ifId) hpos fun _ => rfl]
      rfl
    | cmd call => exact (Int.add_zero _).symm
    | firmwareCheck => exact (Int.add_zero _).symm
  refine ⟨h.shared rfl h.accounted (.refl h.cmd) fun i => ?_, hF.shared rfl fun _ h => h⟩
  have hperm := (List.perm_cons_erase hm).countP_eq (TxMsg.ofVif i)
  rw [List.countP_cons] at hperm
  rw [hvif, show (s.confirm m).device = s.device.erase m from rfl]
  by_cases hi : m.ofVif i = true
  · rw [if_pos hi] at hperm ⊢
    omega
  · rw [if_neg hi] at hperm ⊢
    omega

theorem keep_answer (h : s.Inv b) (hF : s.Fair) (hp : s.cmd.pending = false)
    (hno : ∀ x ∈ s.urbs, x.phase ≠ .free → x.phase ≠ .kept → .cmd s.cmd.call ∉ x.msgs) (ret : Int) :
    ({ s with cmd := { s.cmd with done := true, ret := ret } } : UsbTx).Inv b ∧
      ({ s with cmd := { s.cmd with done := true, ret := ret } } : UsbTx).Fair := by
  refine ⟨⟨h.accounted, ⟨fun hpend => ?_, fun call hcall => ⟨(h.cmd.erred call hcall).1, nofun⟩⟩, h.urbs, ?_, h.vif⟩,
    hF.shared rfl fun _ h => h⟩
  · have hpend : s.cmd.pending = true := hpend
    rw [hp] at hpend
    cases hpend
  · intro x hx hfree hkept call hcall
    rcases h.owes x hx hfree hkept call hcall with he | ⟨-, hw, -⟩
    · exact .inl he
    · rw [← (UsbCmd.waiting_eq_some.mp hw).2] at hcall
      exact absurd hcall (hno x hx hfree hkept)

end UsbTx

namespace UsbAct

variable {b : UsbBuild} {s : UsbTx} {a : UsbAct}

theorem givingBack_of_enabled (h : s.Inv b) {u : Nat} {e : QEnv} (he : (giveBack u e).Enabled b s) :
    s.urbs[u]? = some (s.urb u) ∧ ∃ m rest, (s.urb u).phase = .givingBack (m :: rest) := by
  obtain ⟨hlocked, hne⟩ := he
  cases hp : (s.urb u).phase with
  | givingBack l =>
    have hx := UsbTx.urb_get (s := s) (u := u) (by rw [hp]; nofun)
    refine ⟨hx, ?_⟩
    cases l with
    | nil => exact absurd hp (h.urbs _ (List.mem_of_getElem? hx)).back
    | cons m rest => exact ⟨m, rest, rfl⟩
  | building => exact absurd hp hne
  | _ =>
    rw [hp] at hlocked
    cases hlocked

theorem keep (h : s.Inv b) (hF : s.Fair) (he : a.Enabled b s) (hC : a.InOrder b s) :
    (a.next b s).Inv b ∧ (a.next b s).Fair := by
  cases a with
  | start u => exact UsbTx.keep_start h hF he.2.1
  | frameData u c e ifId linkIdMap =>
    obtain ⟨hp, hlen, hsel⟩ := he
    obtain ⟨k, hk⟩ := Option.isSome_iff_exists.mp hsel
    simp only [next, hk]
    exact UsbTx.keep_addFrame h hF hp hlen (UsbTx.named_got h.accounted hk) (accounted_get h.accounted c e ifId linkIdMap)
      (.refl h.cmd) nofun
  | frameCheck u =>
    exact UsbTx.keep_addFrame h hF he.1 he.2 (m := .firmwareCheck) trivial h.accounted (.refl h.cmd) nofun
  | frameCmd u =>
    obtain ⟨hp, hlen, hpend⟩ := he
    refine UsbTx.keep_addFrame h hF hp hlen (m := .cmd s.cmd.call) trivial h.accounted (h.cmd.taken hpend) ?_
    rintro _ ⟨⟩
    exact ⟨UsbCmd.waiting_eq_some.mpr ⟨h.cmd.pending hpend, rfl⟩, rfl⟩
  | leave u => exact UsbTx.keep_leave h hF he.1 he.2
  | submit u ok => exact UsbTx.keep_submit h hF he.1 he.2 ok
  | giveBack u e =>
    obtain ⟨hx, m, rest, hp⟩ := givingBack_of_enabled h he
    simp only [next, InOrder, hp] at hC ⊢
    exact UsbTx.keep_giveBack h hF hx hp hC e
  | release u e =>
    have hp : (s.urb u).phase = .failed := he.2.1
    have hx := UsbTx.urb_get (s := s) (u := u) (by rw [hp]; nofun)
    simp only [InOrder] at hC
    split at hC
    · next m hm => exact UsbTx.keep_release h hF hx hp hm hC e
    · exact hC.elim
  | complete u how => exact UsbTx.keep_complete h hF he how
  | confirm m => exact UsbTx.keep_confirm h hF he.1
  | send =>
    have hl := h.cmd.send he
    exact ⟨h.shared rfl h.accounted hl fun _ => rfl, hF.shared rfl hl.erred⟩
  | timeout =>
    have hl := h.cmd.timeout
    exact ⟨h.shared rfl h.accounted hl fun _ => rfl, hF.shared rfl hl.erred⟩
  | answer ret => exact UsbTx.keep_answer h hF he.2.1 he.2.2 ret
  | queue ev =>
    exact ⟨h.shared rfl (accounted_step he.1 he.2 h.accounted) (.refl h.cmd) fun _ => rfl, hF.shared rfl fun _ h => h⟩
  | other bufs frames =>
    exact ⟨h.shared rfl h.accounted (.refl h.cmd) fun _ => rfl, hF.shared rfl fun _ h => h⟩

theorem removes_of_inOrder (h : s.Inv b) (he : a.Enabled b s) (hC : a.InOrder b s) : a.Removes b s := by
  cases a with
  | giveBack u e =>
    obtain ⟨hx, m, rest, hp⟩ := givingBack_of_enabled h he
    have hok := h.urbs _ (List.mem_of_getElem? hx)
    simp only [InOrder, Removes, next, hp] at hC ⊢
    intro p hpm
    cases m with
    | data p' i =>
      obtain rfl : p' = p := Option.some.inj hpm
      obtain ⟨gone, hgone, -⟩ := hok.gone (by rw [hp]; nofun)
      have hheld := TxUrb.held_of_givingBack hp
      rw [hheld] at hgone
      have hnamed : (TxMsg.data p' i).Named := hok.named _ (hgone ▸ List.mem_append_right _ List.mem_cons_self)
      have hid : UsbTx.IdCurrent s.queues p' := hC.resolve_left nofun
      exact (UsbTx.freeErrData_removes_iff (e := e) (s := { s with counts := s.counts.unsent b })
        (dif_pos hnamed.1) h.accounted).mpr hid
    | cmd call => cases hpm
    | firmwareCheck => cases hpm
  | release u e =>
    have hp : (s.urb u).phase = .failed := he.2.1
    have hx := UsbTx.urb_get (s := s) (u := u) (by rw [hp]; nofun)
    have hok := h.urbs _ (List.mem_of_getElem? hx)
    simp only [InOrder] at hC
    split at hC
    · next m hm =>
      intro p hpm
      simp only [next, UsbTx.releaseTxErrUrb]
      rw [(hok.of_failed hp).2 m hm] at hpm ⊢
      cases m with
      | data p' i =>
        obtain rfl : p' = p := Option.some.inj hpm
        have hnamed : (TxMsg.data p' i).Named := hok.named _ (hm ▸ List.mem_singleton_self _)
        exact (UsbTx.freeErrData_removes_iff (e := e) (s := { s with counts := s.counts.rewind })
          (dif_pos hnamed.1) h.accounted).mpr hC
      | cmd call => cases hpm
      | firmwareCheck => cases hpm
    · exact hC.elim
  | _ => trivial

theorem lose (h : s.Inv b) (he : a.Enabled b s) (hF : (a.next b s).Fair) (hq : a.Removes b s) : a.InOrder b s := by
  cases a with
  | giveBack u e =>
    obtain ⟨hx, m, rest, hp⟩ := givingBack_of_enabled h he
    simp only [InOrder, Removes, next, hp] at hF hq ⊢
    exact UsbTx.lose_giveBack h hx hp e hF hq
  | release u e =>
    have hp : (s.urb u).phase = .failed := he.2.1
    have hx := UsbTx.urb_get (s := s) (u := u) (by rw [hp]; nofun)
    obtain ⟨m, hm, hr⟩ := UsbTx.lose_release h hx hp e hF hq
    simp only [InOrder, hm]
    exact hr
  | _ => trivial

end UsbAct

theorem inv_usbTxStart (b : UsbBuild) (n : Nat) (ttl : Fin 4 → Int) : (usbTxStart n ttl).Inv b := by
  refine ⟨accounted_start ttl, ⟨nofun, nofun⟩, ?_, ?_, fun i => ?_⟩
  · intro x hx
    rw [List.eq_of_mem_replicate hx]
    exact .fresh b (.inl rfl)
  · intro x hx hfree
    rw [List.eq_of_mem_replicate hx] at hfree
    exact absurd rfl hfree
  · simp [usbTxStart, UsbCounts.zero, TxUrb.held, TxUrb.fresh]

theorem fair_usbTxStart (n : Nat) (ttl : Fin 4 → Int) : (usbTxStart n ttl).Fair := by
  refine ⟨?_, ?_⟩
  · intro x hx _ hfail
    rw [List.eq_of_mem_replicate hx] at hfail
    cases hfail
  · intro x hx
    rw [List.eq_of_mem_replicate hx]
    nofun

/-- **What a failed URB gives back.**  A run settles every URB that failed before it is free, ends no command
but of the URB and removes no frame but the URB's, iff every message is given back in order: its
frame is the one its id names, or the command that waits is of the URB, a firmware check is known by
its id, and an URB that completed with an error has one message, which is no firmware check. -/
theorem usbTx_exact {b : UsbBuild} {n : Nat} {s t : UsbTx} {l : List (UsbTx × UsbAct)} (h0 : (usbTxs b n).init s)
    (h : Path (usbTxs b n) s l t) :
    ((∀ p ∈ l, p.1.Fair ∧ p.2.Removes b p.1) ∧ t.Fair) ↔ ∀ p ∈ l, p.2.InOrder b p.1 := by
  obtain ⟨ttl, rfl⟩ := h0
  refine h.exactSteps (I := UsbTx.Inv b) ?_ ?_ (inv_usbTxStart b n ttl) (fair_usbTxStart n ttl)
  · rintro s a _ hI hF ⟨he, rfl⟩ hC
    exact ⟨(UsbAct.keep hI hF he hC).1, (UsbAct.keep hI hF he hC).2, UsbAct.removes_of_inOrder hI he hC⟩
  · rintro s a _ hI _ ⟨he, rfl⟩ hF hq
    exact UsbAct.lose hI he hF hq

/-- An URB with the frames 7.. of interface 0 is built and submitted, and completes with an error. -/
def failedFrames (n : Nat) : List UsbAct :=
  ((List.range n).map fun k => .queue (samplePut (7 + k) 0)) ++
    .start 0 :: List.replicate n (.frameData 0 0 sampleEnv 0 0xffffffff) ++
    [.submit 0 true, .complete 0 .error, .release 0 sampleEnv]

theorem usbTx_exact_one :
    ((failedFrames 1).foldl (UsbAct.next .single) (usbTxStart 32 fun _ => 1000)).Fair := by
  have hrun := usbTx_exact (b := .single) (n := 32) ⟨fun _ => 1000, rfl⟩ (.ofFires (l := failedFrames 1) (by decide))
  exact (hrun.mpr (by decide)).2

/-- Two frames in an URB that completes with an error: one of them is given back. -/
theorem usbTx_two_frames :
    ∃ s, Reach (usbTxs .aggr 4) s ∧ ∃ x ∈ s.urbs, x.phase = .free ∧ x.failure = true ∧ x.msgs.length = 2 ∧
      x.freed.length = 1 ∧ x.account.hwBufsUsed = 1 ∧ x.account.hwBufsUsedVif 0 = 1 ∧ x.account.txHwChanId = 1 := by
  have hstart : Reach (usbTxs .aggr 4) (usbTxStart 4 fun _ => 1000) := .init ⟨_, rfl⟩
  exact ⟨_, hstart.fires (l := failedFrames 2) (by decide), by decide⟩

end AtbmWifi
