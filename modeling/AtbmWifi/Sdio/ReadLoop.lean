import AtbmWifi.Sdio.Receive

/-!
# The skbs of `atbm_sdio_process_read_data`

One call, with any handler: the labels `rx_check` and `rx_continue`, one variable `skb_rx`, one exit `err`.  The skbs
are numbered as they are obtained; `handed` and `freed` say what became of them.

* `released_once_iff`: along a run every skb obtained has been handed over or freed, once, iff neither the control
  register fails to be read nor an invalid length comes after a message has been handed over.
-/

namespace AtbmWifi

open Transition

inductive ReadCallPc
  | rxCheck
  | rxContinue
  | returned (ret : Int)
  deriving DecidableEq, Repr

structure ReadCall where
  pc : ReadCallPc
  /-- `skb_rx`, or none for `NULL` -/
  skbRx : Option Nat
  ctrlReg : BitVec 16
  rxContinueCnt : BitVec 8
  /-- calls of `atbm_bh_halt` -/
  halts : Nat
  /-- skbs obtained so far -/
  skbs : Nat
  /-- passed to `rx_handle` -/
  handed : List Nat
  /-- freed at `err` -/
  freed : List Nat
  deriving DecidableEq, Repr

structure ReadRound where
  allocOk : Bool
  /-- `skb_rx->data` is not `NULL` -/
  hasData : Bool
  readOk : Bool
  /-- the register at the end of the message -/
  piggyback : BitVec 16
  /-- `atbm_bh_is_term(hw_priv) || atomic_read(&hw_priv->bh_term)` -/
  term : Bool
  handlerRet : Int
  deriving DecidableEq, Repr

inductive ReadCallAct
  /-- `read_ctrl_func`: the register, or none when it fails -/
  | check (ctrl : Option (BitVec 16))
  | round (r : ReadRound)
  deriving DecidableEq, Repr

namespace ReadCall

def entry : ReadCall := ⟨.rxCheck, none, 0#16, 0#8, 0, 0, [], []⟩

def err (s : ReadCall) : ReadCall := { s with pc := .returned (-1), freed := s.freed ++ s.skbRx.toList }

def halt (s : ReadCall) : ReadCall := { s with halts := s.halts + 1 }

/-- The message is in `skb_rx`: from the data read to the next label. -/
def gotSkb (r : ReadRound) (s : ReadCall) : ReadCall :=
  if !r.hasData then s.err
  else if !r.readOk then s.halt.err
  else
    let s := { s with ctrlReg := r.piggyback }
    if r.term then s.err
    else
      let s := { s with rxContinueCnt := s.rxContinueCnt + 1#8, handed := s.handed ++ s.skbRx.toList }
      if r.handlerRet ≠ 0 then { s with pc := .returned s.rxContinueCnt.toNat }
      else { s with pc := if nextReadLen s.ctrlReg = 0 then .rxCheck else .rxContinue }

def next (s : ReadCall) : ReadCallAct → ReadCall
  | .check none => s.err
  | .check (some ctrl) => { s with ctrlReg := ctrl, pc := .rxContinue }
  | .round r =>
    if nextReadLen s.ctrlReg = 0 then { s with pc := .returned s.rxContinueCnt.toNat }
    else if invalidReadLen s.ctrlReg then s.halt.err
    else if !r.allocOk then { s with skbRx := none }.err
    else { s with skbRx := some s.skbs, skbs := s.skbs + 1 }.gotSkb r

def enabled (s : ReadCall) : ReadCallAct → Prop
  | .check _ => s.pc = .rxCheck
  | .round _ => s.pc = .rxContinue

instance (s : ReadCall) (a : ReadCallAct) : Decidable (s.enabled a) := by
  unfold enabled
  split <;> infer_instance

/-- **Every skb obtained has been handed over or freed, once.** -/
def ReleasedOnce (s : ReadCall) : Prop := (s.handed ++ s.freed).Perm (List.range s.skbs)

instance (s : ReadCall) : Decidable s.ReleasedOnce := inferInstanceAs (Decidable (List.Perm _ _))

/-- The step goes to `err` before it asks for an skb. -/
def ErrsFirst (s : ReadCall) : ReadCallAct → Prop
  | .check ctrl => ctrl = none
  | .round _ => nextReadLen s.ctrlReg ≠ 0 ∧ invalidReadLen s.ctrlReg = true

instance (s : ReadCall) (a : ReadCallAct) : Decidable (s.ErrsFirst a) := by
  unfold ErrsFirst
  split <;> infer_instance

/-- The condition on a step: such an error comes before the first message has been handed over. -/
def ErrsInTime (s : ReadCall) (a : ReadCallAct) : Prop := s.ErrsFirst a → s.handed = []

instance (s : ReadCall) (a : ReadCallAct) : Decidable (s.ErrsInTime a) := inferInstanceAs (Decidable (_ → _))

end ReadCall

def readCalls : Sys ReadCall ReadCallAct := .ofNext (· = ReadCall.entry) ReadCall.enabled ReadCall.next

namespace ReadCall

def Live (s : ReadCall) : Prop := ∀ ret, s.pc ≠ .returned ret

/-- At a label `skb_rx` is what was handed over last. -/
structure Stale (s : ReadCall) : Prop where
  handed : s.Live → ∀ k ∈ s.skbRx, k ∈ s.handed
  none : s.Live → s.skbRx = none → s.handed = []

inductive Spec (s : ReadCall) (a : ReadCallAct) (t : ReadCall) : Prop
  /-- nothing is obtained, handed over or freed -/
  | quiet : ¬ s.ErrsFirst a → t.skbRx = s.skbRx → t.skbs = s.skbs → t.handed = s.handed → t.freed = s.freed →
      Spec s a t
  /-- `err` before the next skb -/
  | errs : s.ErrsFirst a → t.pc = .returned (-1) → t.skbRx = s.skbRx → t.skbs = s.skbs → t.handed = s.handed →
      t.freed = s.freed ++ s.skbRx.toList → Spec s a t
  /-- no skb -/
  | noSkb : ¬ s.ErrsFirst a → t.pc = .returned (-1) → t.skbRx = Option.none → t.skbs = s.skbs → t.handed = s.handed →
      t.freed = s.freed → Spec s a t
  /-- the next skb is freed -/
  | frees : ¬ s.ErrsFirst a → t.pc = .returned (-1) → t.skbRx = some s.skbs → t.skbs = s.skbs + 1 →
      t.handed = s.handed → t.freed = s.freed ++ [s.skbs] → Spec s a t
  /-- it is handed over -/
  | hands : ¬ s.ErrsFirst a → t.skbRx = some s.skbs → t.skbs = s.skbs + 1 → t.handed = s.handed ++ [s.skbs] →
      t.freed = s.freed → Spec s a t

theorem gotSkb_cases (r : ReadRound) (s : ReadCall) :
    ((s.gotSkb r).pc = .returned (-1) ∧ (s.gotSkb r).handed = s.handed ∧
        (s.gotSkb r).freed = s.freed ++ s.skbRx.toList ∨
      (s.gotSkb r).handed = s.handed ++ s.skbRx.toList ∧ (s.gotSkb r).freed = s.freed) ∧
    (s.gotSkb r).skbRx = s.skbRx ∧ (s.gotSkb r).skbs = s.skbs := by
  unfold gotSkb
  split
  · exact ⟨.inl ⟨rfl, rfl, rfl⟩, rfl, rfl⟩
  · split
    · exact ⟨.inl ⟨rfl, rfl, rfl⟩, rfl, rfl⟩
    · dsimp only
      split
      · exact ⟨.inl ⟨rfl, rfl, rfl⟩, rfl, rfl⟩
      · split
        · exact ⟨.inr ⟨rfl, rfl⟩, rfl, rfl⟩
        · exact ⟨.inr ⟨rfl, rfl⟩, rfl, rfl⟩

theorem next_spec (s : ReadCall) (a : ReadCallAct) : Spec s a (s.next a) := by
  cases a with
  | check ctrl =>
    cases ctrl with
    | none => exact .errs rfl rfl rfl rfl rfl rfl
    | some ctrl => exact .quiet (fun h => by cases h) rfl rfl rfl rfl
  | round r =>
    unfold next
    dsimp only
    split
    · next h0 => exact .quiet (fun h => h.1 h0) rfl rfl rfl rfl
    · next h0 =>
      split
      · next hinv => exact .errs ⟨h0, hinv⟩ rfl rfl rfl rfl rfl
      · next hinv =>
        have hne : ¬ s.ErrsFirst (.round r) := fun h => hinv h.2
        split
        · exact .noSkb hne rfl rfl rfl rfl (List.append_nil _)
        · obtain ⟨⟨hpc, hh, hf⟩ | ⟨hh, hf⟩, hskb, hn⟩ :=
            gotSkb_cases r { s with skbRx := some s.skbs, skbs := s.skbs + 1 }
          · exact .frees hne hpc hskb hn hh hf
          · exact .hands hne hskb hn hh hf

variable {s t : ReadCall} {a : ReadCallAct}

theorem ReleasedOnce.frees (h : s.ReleasedOnce) (hn : t.skbs = s.skbs + 1) (hh : t.handed = s.handed)
    (hf : t.freed = s.freed ++ [s.skbs]) : t.ReleasedOnce := by
  unfold ReleasedOnce
  rw [hn, hh, hf, List.range_succ, ← List.append_assoc]
  exact h.append_right _

theorem ReleasedOnce.hands (h : s.ReleasedOnce) (hn : t.skbs = s.skbs + 1)
    (hh : t.handed = s.handed ++ [s.skbs]) (hf : t.freed = s.freed) : t.ReleasedOnce := by
  unfold ReleasedOnce
  rw [hn, hh, hf, List.range_succ, List.append_assoc]
  have hswap : (s.handed ++ ([s.skbs] ++ s.freed)).Perm ((s.handed ++ s.freed) ++ [s.skbs]) := by
    rw [List.append_assoc]
    exact List.perm_append_comm.append_left _
  exact hswap.trans (h.append_right _)

theorem ReleasedOnce.same (h : s.ReleasedOnce) (hn : t.skbs = s.skbs) (hh : t.handed = s.handed)
    (hf : t.freed = s.freed) : t.ReleasedOnce := by
  unfold ReleasedOnce
  rw [hn, hh, hf]
  exact h

theorem not_releasedOnce {k : Nat} (hk : k ∈ s.handed) (hf : k ∈ s.freed) : ¬ s.ReleasedOnce := by
  intro h
  have hnodup : (s.handed ++ s.freed).Nodup := h.nodup_iff.mpr List.nodup_range
  exact (List.nodup_append.mp hnodup).2.2 k hk k hf rfl

theorem live_of_enabled (he : s.enabled a) : s.Live := by
  intro ret hpc
  cases a with
  | check ctrl => exact absurd (hpc.symm.trans he) nofun
  | round r => exact absurd (hpc.symm.trans he) nofun

theorem Stale.next (h : Stale s) (he : s.enabled a) : Stale (s.next a) := by
  have hl := live_of_enabled he
  cases next_spec s a with
  | quiet _ hskb _ hh _ =>
    refine ⟨fun _ => ?_, fun _ => ?_⟩
    · rw [hskb, hh]
      exact h.handed hl
    · rw [hskb, hh]
      exact h.none hl
  | errs _ hpc => exact ⟨fun hl' => absurd hpc (hl' _), fun hl' => absurd hpc (hl' _)⟩
  | noSkb _ hpc => exact ⟨fun hl' => absurd hpc (hl' _), fun hl' => absurd hpc (hl' _)⟩
  | frees _ hpc => exact ⟨fun hl' => absurd hpc (hl' _), fun hl' => absurd hpc (hl' _)⟩
  | hands _ hskb _ hh _ =>
    refine ⟨fun _ k hk => ?_, fun _ hnone => ?_⟩
    · rw [hskb] at hk
      obtain rfl : s.skbs = k := Option.some.inj hk
      rw [hh]
      exact List.mem_append_right _ List.mem_cons_self
    · rw [hskb] at hnone
      cases hnone

theorem releasedOnce_next_iff (hst : Stale s) (he : s.enabled a) (h : s.ReleasedOnce) :
    (s.next a).ReleasedOnce ↔ s.ErrsInTime a := by
  have hl := live_of_enabled he
  cases next_spec s a with
  | quiet hne _ hn hh hf => exact iff_of_true (h.same hn hh hf) fun hc => absurd hc hne
  | noSkb hne _ _ hn hh hf => exact iff_of_true (h.same hn hh hf) fun hc => absurd hc hne
  | frees hne _ _ hn hh hf => exact iff_of_true (h.frees hn hh hf) fun hc => absurd hc hne
  | hands hne _ hn hh hf => exact iff_of_true (h.hands hn hh hf) fun hc => absurd hc hne
  | errs hc _ _ hn hh hf =>
    cases hskb : s.skbRx with
    | none =>
      rw [hskb] at hf
      exact iff_of_true (h.same hn hh (hf.trans (List.append_nil _))) fun _ => hst.none hl hskb
    | some k =>
      have hk : k ∈ s.handed := hst.handed hl k hskb
      rw [hskb] at hf
      refine iff_of_false (not_releasedOnce (hh ▸ hk) ?_) fun hin => ?_
      · rw [hf]
        exact List.mem_append_right _ List.mem_cons_self
      · rw [hin hc] at hk
        cases hk

end ReadCall

open ReadCall

/-- **In a run of the call each skb obtained is released once iff no such error follows a message handed over.** -/
theorem released_once_iff {s t : ReadCall} {l : List (ReadCall × ReadCallAct)} (hs : readCalls.init s)
    (h : Path readCalls s l t) :
    ((∀ p ∈ l, p.1.ReleasedOnce) ∧ t.ReleasedOnce) ↔ ∀ p ∈ l, p.1.ErrsInTime p.2 := by
  obtain rfl : s = entry := hs
  refine h.exact (I := ReadCall.Stale) (P := ReadCall.ReleasedOnce) ?_ ?_ ⟨fun _ => nofun, fun _ _ => rfl⟩ .nil
  · rintro s a t hst hr ⟨he, rfl⟩ hc
    exact ⟨hst.next he, (releasedOnce_next_iff hst he hr).mpr hc⟩
  · rintro s a t hst hr ⟨he, rfl⟩ ht
    exact (releasedOnce_next_iff hst he hr).mp ht

/-- A message of 32 bytes is read, and the register with it announces none. -/
def sampleRound : ReadRound := ⟨true, true, true, 0#16, false, 0⟩

/-- Two messages, each announced when the register is checked, and then nothing. -/
def twoMessages : List ReadCallAct :=
  [.check (some 16#16), .round sampleRound, .check (some 16#16), .round sampleRound, .check (some 0#16),
    .round sampleRound]

theorem released_once_two : (∀ p ∈ trace ReadCall.next entry twoMessages, p.1.ReleasedOnce) ∧
    (twoMessages.foldl ReadCall.next entry).ReleasedOnce :=
  (released_once_iff (l := trace ReadCall.next entry twoMessages) rfl (.ofFires (by decide))).mpr (by decide)

/-- **A message is handed over, and the register cannot be read again**: the message is freed at `err`. -/
theorem handed_skb_freed :
    ∃ t, Path readCalls entry (trace ReadCall.next entry [.check (some 16#16), .round sampleRound, .check none]) t ∧
      t.pc = .returned (-1) ∧ t.handed = [0] ∧ t.freed = [0] ∧ ¬ t.ReleasedOnce :=
  ⟨_, .ofFires (by decide), by decide, by decide, by decide, by decide⟩

end AtbmWifi
