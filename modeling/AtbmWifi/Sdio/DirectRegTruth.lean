import AtbmWifi.Sdio.DirectReg
import Mathlib.Data.Nat.Find

/-!
# Direct register access reports the truth

What the log of a call must show for the returned value to be true: an AHB access whose
parts all went well, and the config register written back with what was read at entry.

* `directRegister_truth_iff`: for the four functions, by the answers of the bus.
-/

namespace AtbmWifi

def isAddr (addr : BitVec 32) (e : RegOp × BusRes) : Bool := e.1 == .addrWrite addr && e.2.ok

def isPrefetch (prefetch : BitVec 32) (e : RegOp × BusRes) : Bool :=
  (match e.1 with
    | .prefetchWrite v => v &&& prefetch == prefetch
    | _ => false) && e.2.ok

def isClear (prefetch : BitVec 32) (e : RegOp × BusRes) : Bool :=
  e.1 == .prefetchPoll && e.2.val &&& prefetch == 0 && e.2.ok

def isDataRead (port : Nat) (e : RegOp × BusRes) : Bool := e.1 == .dataRead port && e.2.ok

def isDataWrite (v : BitVec 32) (e : RegOp × BusRes) : Bool := e.1 == .dataWrite v && e.2.ok

/-- The address was written, the prefetch made and seen done, and the data read. -/
structure ReadDone (addr prefetch : BitVec 32) (port : Nat) (log : RegLog) : Prop where
  addrOk : log.any (isAddr addr) = true
  prefetchOk : log.any (isPrefetch prefetch) = true
  clearOk : log.any (isClear prefetch) = true
  dataOk : log.any (isDataRead port) = true

structure WriteDone (addr v : BitVec 32) (log : RegLog) : Prop where
  addrOk : log.any (isAddr addr) = true
  dataOk : log.any (isDataWrite v) = true

structure NoAccess (log : RegLog) : Prop where
  addr : ∀ addr, log.any (isAddr addr) = false
  prefetch : ∀ prefetch, log.any (isPrefetch prefetch) = false
  clear : ∀ prefetch, log.any (isClear prefetch) = false
  dataRead : ∀ port, log.any (isDataRead port) = false
  dataWrite : ∀ v, log.any (isDataWrite v) = false

theorem NoAccess.nil : NoAccess [] := ⟨fun _ => rfl, fun _ => rfl, fun _ => rfl, fun _ => rfl, fun _ => rfl⟩

theorem okOnly_isAddr (addr : BitVec 32) : OkOnly (isAddr addr) := by
  intro op r h
  unfold isAddr
  rw [h, Bool.and_false]

theorem okOnly_isPrefetch (prefetch : BitVec 32) : OkOnly (isPrefetch prefetch) := by
  intro op r h
  unfold isPrefetch
  rw [h, Bool.and_false]

theorem okOnly_isClear (prefetch : BitVec 32) : OkOnly (isClear prefetch) := by
  intro op r h
  unfold isClear
  rw [h, Bool.and_false]

theorem okOnly_isDataRead (port : Nat) : OkOnly (isDataRead port) := by
  intro op r h
  unfold isDataRead
  rw [h, Bool.and_false]

theorem okOnly_isDataWrite (v : BitVec 32) : OkOnly (isDataWrite v) := by
  intro op r h
  unfold isDataWrite
  rw [h, Bool.and_false]

theorem isClear_set {prefetch : BitVec 32} {r : BusRes} (h : r.val &&& prefetch ≠ 0) :
    isClear prefetch (.prefetchPoll, r) = false := by
  unfold isClear
  dsimp only
  rw [beq_false_of_ne h, Bool.and_false, Bool.false_and]

section
variable {bus : Nat → BusRes}

variable {q : RegOp × BusRes → Bool}

theorem any_retry_other {op : RegOp} (hq : OkOnly q) (hop : ∀ r, q (op, r) = false)
    (k : Nat) (log : RegLog) : (retry (busOp bus op) k log).2.any q = log.any q := by
  have := (@retry_spec bus op k log).2.2.2 q hq
  rw [this, hop, Bool.and_false, Bool.or_false]

theorem any_retry_self {op : RegOp} (hq : OkOnly q)
    (hop : ∀ r : BusRes, r.ok = true → q (op, r) = true) (k : Nat) (log : RegLog) :
    (retry (busOp bus op) k log).2.any q = (log.any q || (attempt bus k log.length).1) := by
  obtain ⟨-, hlast, hok, hany⟩ := @retry_spec bus op k log
  rw [hany q hq]
  cases ha : (attempt bus k log.length).1 with
  | false => rw [Bool.false_and]
  | true =>
    rw [ha, hlast] at hok
    rw [hop _ hok, Bool.and_true]

theorem any_polls_other (hq : OkOnly q) (hop : ∀ r, q (.prefetchPoll, r) = false)
    (stop : Bool) (prefetch : BitVec 32) (k : Nat) (log : RegLog) :
    (pollPrefetch bus stop prefetch k log).2.any q = log.any q := by
  have := (@pollPrefetch_spec bus stop prefetch k log).2.2 q hq fun v _ => hop v
  rw [this, hop, Bool.and_false, Bool.or_false]

theorem any_polls_clear (stop : Bool) (prefetch : BitVec 32) (k : Nat) (log : RegLog) :
    (pollPrefetch bus stop prefetch k log).2.any (isClear prefetch) =
      (log.any (isClear prefetch) || (pollSteps bus stop prefetch k log.length).1) := by
  obtain ⟨-, hend, hany⟩ := @pollPrefetch_spec bus stop prefetch k log
  rw [hany _ (okOnly_isClear prefetch) fun v hv => isClear_set hv]
  cases he : (pollSteps bus stop prefetch k log.length).1 with
  | false => rw [Bool.false_and]
  | true =>
    obtain ⟨hok, hval⟩ := hend.cleared he
    rw [hend.last_eq] at hok hval
    have : isClear prefetch (.prefetchPoll, bus ((pollSteps bus stop prefetch k log.length).2 - 1)) = true := by
      unfold isClear
      dsimp only
      rw [hval, hok]
      rfl
    rw [this, Bool.and_true]

theorem retry_length (op : RegOp) (k : Nat) (log : RegLog) :
    (retry (busOp bus op) k log).2.length = (attempt bus k log.length).2 :=
  (@retry_spec bus op k log).1

theorem retry_ok (op : RegOp) (k : Nat) (log : RegLog) :
    (retry (busOp bus op) k log).1.ok = (attempt bus k log.length).1 :=
  (@retry_spec bus op k log).2.2.1

end

/-- The ends of the five parts of an unlocked indirect read that starts at operation `n`: address,
config register, prefetch, polls and data -/
structure ReadParts where
  addr : Bool × Nat
  config : Bool × Nat
  prefetch : Bool × Nat
  poll : Bool × Nat
  data : Bool × Nat

def readParts (bus : Nat → BusRes) (prefetch : BitVec 32) (n : Nat) : ReadParts :=
  let a := attempt bus 3 n
  let c := attempt bus 3 a.2
  let p := attempt bus 3 c.2
  let q := pollSteps bus false prefetch 19 p.2
  ⟨a, c, p, q, attempt bus 3 q.2⟩

theorem indirectReadUnlock_before (bus : Nat → BusRes) (addr prefetch : BitVec 32) {log : RegLog}
    (hn : NoAccess log) :
    let a := retry (busOp bus (.addrWrite addr)) 3 log
    let c := retry (busOp bus .configRead) 3 a.2
    let p := retry (busOp bus (.prefetchWrite (c.1.val ||| prefetch))) 3 c.2
    let q := pollPrefetch bus false prefetch 19 p.2
    let e := readParts bus prefetch log.length
    q.2.length = e.poll.2 ∧ PollsEnd bus prefetch e.prefetch.2 e.poll q.1 ∧
      q.2.any (isAddr addr) = e.addr.1 ∧ q.2.any (isPrefetch prefetch) = e.prefetch.1 ∧
      q.2.any (isClear prefetch) = e.poll.1 ∧ ∀ port, q.2.any (isDataRead port) = false := by
  intro a c p q e
  have ha : a.2.length = e.addr.2 := retry_length _ 3 log
  have hc : c.2.length = e.config.2 := by
    rw [retry_length, ha]
    rfl
  have hp : p.2.length = e.prefetch.2 := by
    rw [retry_length, hc]
    rfl
  have hspec := @pollPrefetch_spec bus false prefetch 19 p.2
  rw [hp] at hspec
  have hset : (c.1.val ||| prefetch) &&& prefetch = prefetch := by
    apply BitVec.eq_of_getLsbD_eq
    intro i _
    rw [BitVec.getLsbD_and, BitVec.getLsbD_or]
    cases c.1.val.getLsbD i <;> cases prefetch.getLsbD i <;> rfl
  refine ⟨hspec.1, hspec.2.1, ?_, ?_, ?_, ?_⟩
  · show (pollPrefetch bus false prefetch 19 p.2).2.any _ = _
    rw [any_polls_other (okOnly_isAddr addr) (fun _ => rfl), any_retry_other (okOnly_isAddr addr) (fun _ => rfl),
      any_retry_other (okOnly_isAddr addr) (fun _ => rfl), any_retry_self (okOnly_isAddr addr) ?_, hn.addr, Bool.false_or]
    · rfl
    · intro r hr
      unfold isAddr
      rw [hr, Bool.and_true]
      exact beq_self_eq_true _
  · show (pollPrefetch bus false prefetch 19 p.2).2.any _ = _
    rw [any_polls_other (okOnly_isPrefetch prefetch) (fun _ => rfl),
      any_retry_self (okOnly_isPrefetch prefetch) ?_, any_retry_other (okOnly_isPrefetch prefetch) (fun _ => rfl),
      any_retry_other (okOnly_isPrefetch prefetch) (fun _ => rfl), hn.prefetch, Bool.false_or, hc]
    · rfl
    · intro r hr
      unfold isPrefetch
      dsimp only
      rw [hr, hset, Bool.and_true]
      exact beq_self_eq_true _
  · show (pollPrefetch bus false prefetch 19 p.2).2.any _ = _
    rw [any_polls_clear, any_retry_other (okOnly_isClear prefetch) (fun _ => rfl),
      any_retry_other (okOnly_isClear prefetch) (fun _ => rfl), any_retry_other (okOnly_isClear prefetch) (fun _ => rfl),
      hn.clear, Bool.false_or, hp]
    rfl
  · intro port
    show (pollPrefetch bus false prefetch 19 p.2).2.any _ = _
    rw [any_polls_other (okOnly_isDataRead port) (fun _ => rfl), any_retry_other (okOnly_isDataRead port) (fun _ => rfl),
      any_retry_other (okOnly_isDataRead port) (fun _ => rfl), any_retry_other (okOnly_isDataRead port) (fun _ => rfl),
      hn.dataRead]

/-- A long read into a buffer that is not aligned -/
def Misaligned (len : Nat) (aligned : Bool) : Prop := aligned = false ∧ 4 < len

instance (len : Nat) (aligned : Bool) : Decidable (Misaligned len aligned) :=
  inferInstanceAs (Decidable (_ ∧ _))

theorem dataPortRead_misaligned (bus : Nat → BusRes) (port : Nat) {len : Nat} {aligned : Bool}
    (h : Misaligned len aligned) (log : RegLog) :
    retry (dataPortRead bus port len aligned) 3 log = (⟨-22, by decide, 0⟩, log) := by
  have hone : dataPortRead bus port len aligned log = (⟨-22, by decide, 0⟩, log) := if_pos h
  have hall : ∀ k, retry (dataPortRead bus port len aligned) k log = (⟨-22, by decide, 0⟩, log) := by
    intro k
    induction k with
    | zero => exact hone
    | succ k ih =>
      unfold retry
      rw [hone]
      exact (if_pos (show (-22 : Int) < 0 by decide)).trans ih
  exact hall 3

theorem dataPortRead_aligned (bus : Nat → BusRes) (port : Nat) {len : Nat} {aligned : Bool}
    (h : ¬Misaligned len aligned) : dataPortRead bus port len aligned = busOp bus (.dataRead port) := by
  funext log
  exact if_neg h

theorem indirectReadUnlock_spec (bus : Nat → BusRes) (addr prefetch : BitVec 32) (len : Nat) (aligned : Bool)
    (port : Nat) {log : RegLog} (hn : NoAccess log) :
    let e := readParts bus prefetch log.length
    let r := atbmIndirectReadUnlock bus addr len aligned prefetch port log
    (ReadDone addr prefetch port r.2 ↔ len / 2 < 0x1000 ∧ ¬Misaligned len aligned ∧
        e.addr.1 = true ∧ e.prefetch.1 = true ∧ e.poll.1 = true ∧ e.data.1 = true) ∧
      (ReadDone addr prefetch port r.2 → r.2.length = e.data.2) ∧
      (0 ≤ r.1 ↔ len / 2 < 0x1000 ∧
        if (bus (e.poll.2 - 1)).val &&& prefetch ≠ 0 then (bus (e.poll.2 - 1)).ok = true
        else ¬Misaligned len aligned ∧ e.data.1 = true) := by
  dsimp only
  obtain ⟨hlen, hend, haddr, hpre, hclear, hdata⟩ := indirectReadUnlock_before bus addr prefetch hn
  unfold atbmIndirectReadUnlock
  by_cases hbig : 0x1000 ≤ len / 2
  · rw [if_pos hbig]
    have hnot : ¬ReadDone addr prefetch port log := by
      intro h
      exact Bool.noConfusion ((hn.addr addr).symm.trans h.addrOk)
    have hsmall : ¬len / 2 < 0x1000 := by omega
    refine ⟨iff_of_false hnot fun h => hsmall h.1, fun h => absurd h hnot, ?_⟩
    exact iff_of_false (show ¬(0 : Int) ≤ -22 by decide) fun h => hsmall h.1
  · rw [if_neg hbig]
    have hsmall : len / 2 < 0x1000 := by omega
    dsimp only at hlen hend haddr hpre hclear hdata ⊢
    generalize hq : pollPrefetch bus false prefetch 19 _ = q at hlen hend haddr hpre hclear hdata ⊢
    rw [← hend.last_eq]
    by_cases hset : q.1.val &&& prefetch ≠ 0
    · rw [if_pos hset, if_pos hset]
      have hpoll : (readParts bus prefetch log.length).poll.1 = false := by
        rw [Bool.eq_false_iff]
        intro h
        exact hset (hend.cleared h).2
      have hnot : ¬ReadDone addr prefetch port q.2 := by
        intro h
        have := h.dataOk
        rw [hdata] at this
        cases this
      refine ⟨iff_of_false hnot ?_, fun h => absurd h hnot, ?_⟩
      · rintro ⟨-, -, -, -, h, -⟩
        rw [hpoll] at h
        cases h
      · rw [BusRes.ok_eq_true, Int.not_lt]
        exact ⟨fun h => ⟨hsmall, h⟩, And.right⟩
    · rw [if_neg hset, if_neg hset]
      by_cases hmis : Misaligned len aligned
      · rw [dataPortRead_misaligned bus port hmis]
        have hnot : ¬ReadDone addr prefetch port q.2 := by
          intro h
          have := h.dataOk
          rw [hdata] at this
          cases this
        exact ⟨iff_of_false hnot fun h => h.2.1 hmis, fun h => absurd h hnot,
          iff_of_false (show ¬(0 : Int) ≤ -22 by decide) fun h => h.2.1 hmis⟩
      · rw [dataPortRead_aligned bus port hmis]
        have hd : (retry (busOp bus (.dataRead port)) 3 q.2).2.any (isDataRead port) =
            (readParts bus prefetch log.length).data.1 := by
          rw [any_retry_self (okOnly_isDataRead port) ?_, hdata, Bool.false_or, hlen]
          · rfl
          · intro r hr
            unfold isDataRead
            rw [hr, Bool.and_true]
            exact beq_self_eq_true _
        have hdone : ReadDone addr prefetch port (retry (busOp bus (.dataRead port)) 3 q.2).2 ↔
            (readParts bus prefetch log.length).addr.1 = true ∧ (readParts bus prefetch log.length).prefetch.1 = true ∧
              (readParts bus prefetch log.length).poll.1 = true ∧ (readParts bus prefetch log.length).data.1 = true := by
          rw [← haddr, ← hpre, ← hclear, ← hd]
          constructor
          · rintro ⟨h1, h2, h3, h4⟩
            rw [any_retry_other (okOnly_isAddr addr) fun _ => rfl] at h1
            rw [any_retry_other (okOnly_isPrefetch prefetch) fun _ => rfl] at h2
            rw [any_retry_other (okOnly_isClear prefetch) fun _ => rfl] at h3
            exact ⟨h1, h2, h3, h4⟩
          · rintro ⟨h1, h2, h3, h4⟩
            refine ⟨?_, ?_, ?_, h4⟩
            · rw [any_retry_other (okOnly_isAddr addr) fun _ => rfl]
              exact h1
            · rw [any_retry_other (okOnly_isPrefetch prefetch) fun _ => rfl]
              exact h2
            · rw [any_retry_other (okOnly_isClear prefetch) fun _ => rfl]
              exact h3
        refine ⟨?_, ?_, ?_⟩
        · rw [hdone]
          exact ⟨fun h => ⟨hsmall, hmis, h⟩, fun h => h.2.2⟩
        · intro _
          rw [retry_length, hlen]
          rfl
        · have hok := @retry_ok bus (.dataRead port) 3 q.2
          rw [hlen] at hok
          have hnonneg : 0 ≤ (retry (busOp bus (.dataRead port)) 3 q.2).1.ret ↔
              (readParts bus prefetch log.length).data.1 = true := by
            rw [← Int.not_lt, ← BusRes.ok_eq_true, hok]
            rfl
          rw [hnonneg]
          exact ⟨fun h => ⟨hsmall, hmis, h⟩, fun h => h.2.2⟩

/-- Which answers of the bus, from operation `n` on, leave an unlocked indirect read without a lie. -/
def IndirectSound (bus : Nat → BusRes) (len : Nat) (aligned : Bool) (prefetch : BitVec 32) (n : Nat) : Prop :=
  let e := readParts bus prefetch n
  let last := bus (e.poll.2 - 1)
  0x1000 ≤ len / 2 ∨
    if e.poll.1 = true then
      Misaligned len aligned ∨ e.data.1 = false ∨ (e.addr.1 = true ∧ e.prefetch.1 = true)
    else if last.val &&& prefetch ≠ 0 then last.ok = false
    else Misaligned len aligned ∨ e.data.1 = false

/-- The unlocked indirect read is not negative only with address, prefetch and data done, exactly
under `IndirectSound`. -/
theorem indirectReadUnlock_truth_iff (bus : Nat → BusRes) (addr prefetch : BitVec 32) (len : Nat)
    (aligned : Bool) (port : Nat) {log : RegLog} (hn : NoAccess log) :
    (0 ≤ (atbmIndirectReadUnlock bus addr len aligned prefetch port log).1 →
        ReadDone addr prefetch port (atbmIndirectReadUnlock bus addr len aligned prefetch port log).2) ↔
      IndirectSound bus len aligned prefetch log.length := by
  obtain ⟨hdone, -, hret⟩ := indirectReadUnlock_spec bus addr prefetch len aligned port hn
  have hcleared : (readParts bus prefetch log.length).poll.1 = true →
      (bus ((readParts bus prefetch log.length).poll.2 - 1)).val &&& prefetch = 0 := by
    intro h
    obtain ⟨-, hend, -⟩ := indirectReadUnlock_before bus addr prefetch hn
    have := (hend.cleared h).2
    rwa [hend.last_eq] at this
  rw [hdone, hret]
  unfold IndirectSound
  dsimp only
  cases hpoll : (readParts bus prefetch log.length).poll.1 with
  | true =>
    rw [if_neg (not_not_intro (hcleared hpoll)), if_pos rfl]
    constructor
    · intro h
      by_cases hbig : 0x1000 ≤ len / 2
      · exact .inl hbig
      · by_cases hmis : Misaligned len aligned
        · exact .inr (.inl hmis)
        · cases hd : (readParts bus prefetch log.length).data.1 with
          | false => exact .inr (.inr (.inl rfl))
          | true =>
            obtain ⟨-, -, ha, hp, -, -⟩ := h ⟨by omega, hmis, hd⟩
            exact .inr (.inr (.inr ⟨ha, hp⟩))
    · rintro h ⟨hsmall, hmis, hd⟩
      rcases h with h | h | h | h
      · omega
      · exact absurd h hmis
      · rw [h] at hd
        cases hd
      · exact ⟨hsmall, hmis, h.1, h.2, rfl, hd⟩
  | false =>
    rw [if_neg Bool.false_ne_true]
    constructor
    · intro h
      by_cases hbig : 0x1000 ≤ len / 2
      · exact .inl hbig
      · right
        have hno := fun hx => Bool.false_ne_true (h ⟨by omega, hx⟩).2.2.2.2.1
        by_cases hset : (bus ((readParts bus prefetch log.length).poll.2 - 1)).val &&& prefetch ≠ 0
        · rw [if_pos hset] at hno ⊢
          exact Bool.eq_false_iff.mpr hno
        · rw [if_neg hset] at hno ⊢
          by_cases hmis : Misaligned len aligned
          · exact .inl hmis
          · exact .inr (Bool.eq_false_iff.mpr fun hd => hno ⟨hmis, hd⟩)
    · rintro h ⟨hsmall, hx⟩
      exfalso
      rcases h with h | h
      · omega
      · by_cases hset : (bus ((readParts bus prefetch log.length).poll.2 - 1)).val &&& prefetch ≠ 0
        · rw [if_pos hset] at h hx
          rw [h] at hx
          cases hx
        · rw [if_neg hset] at h hx
          rcases h with h | h
          · exact hx.1 h
          · exact Bool.noConfusion (h.symm.trans hx.2)

/-! ## Setting the config register and writing it back -/

/-- The register was written back last, with what the read at entry gave. -/
def Restored (log : RegLog) : Prop :=
  ∃ l read write, log = l ++ [(.restoreWrite read.val, write)] ∧ (.entryRead, read) ∈ l ∧ read.ok = true ∧
    write.ok = true

/-- The call ends, and a value that is not negative means that the access was made and the register restored. -/
def DirectTruth (run : Nat → RegLog → Option (Int × RegLog)) (Done : RegLog → Prop) : Prop :=
  (∃ fuel r, run fuel [] = some r) ∧ ∀ fuel r, run fuel [] = some r → 0 ≤ r.1 → Done r.2 ∧ Restored r.2

section
variable {bus : Nat → BusRes}

theorem retry_append (op : RegOp) (k : Nat) (log : RegLog) :
    ∃ l, (retry (busOp bus op) k log).2 = log ++ l ++ [(op, (retry (busOp bus op) k log).1)] := by
  induction k generalizing log with
  | zero => exact ⟨[], by rw [List.append_nil]; rfl⟩
  | succ k ih =>
    unfold retry
    by_cases h : (busOp bus op log).1.ret < 0
    · rw [if_pos h]
      obtain ⟨l, hl⟩ := ih (busOp bus op log).2
      refine ⟨(op, bus log.length) :: l, hl.trans ?_⟩
      unfold busOp
      rw [List.append_assoc log, List.singleton_append]
    · rw [if_neg h]
      exact ⟨[], by rw [List.append_nil]; rfl⟩

theorem attempt_false {k n : Nat} (h : (attempt bus k n).1 = false) :
    ∀ m, n ≤ m → m < (attempt bus k n).2 → (bus m).ok = false := by
  induction k generalizing n with
  | zero =>
    intro m hn hm
    have : m = n := by
      change m < n + 1 at hm
      omega
    rw [this]
    exact h
  | succ k ih =>
    unfold attempt at h ⊢
    cases hok : (bus n).ok with
    | true =>
      rw [hok, if_pos rfl] at h
      cases h
    | false =>
      rw [hok, if_neg Bool.false_ne_true] at h
      rw [if_neg Bool.false_ne_true]
      intro m hn hm
      by_cases hmn : m = n
      · rw [hmn]
        exact hok
      · exact ih h m (by omega) hm

theorem attempt_lt (k n : Nat) : n < (attempt bus k n).2 := by
  induction k generalizing n with
  | zero => exact Nat.lt_succ_self n
  | succ k ih =>
    unfold attempt
    cases (bus n).ok with
    | true => exact Nat.lt_succ_self n
    | false =>
      rw [if_neg Bool.false_ne_true]
      have := ih (n + 1)
      omega

theorem attempt_true {k n : Nat} (h : (attempt bus k n).1 = true) : (bus ((attempt bus k n).2 - 1)).ok = true := by
  induction k generalizing n with
  | zero => exact h
  | succ k ih =>
    unfold attempt at h ⊢
    cases hok : (bus n).ok with
    | true =>
      rw [if_pos rfl]
      exact hok
    | false =>
      rw [hok, if_neg Bool.false_ne_true] at h
      rw [if_neg Bool.false_ne_true]
      exact ih h

/-- The way to the config register, with `k` attempts after the first -/
def cfgVia (bus : Nat → BusRes) (k : Nat) (op : RegOp) : RegLog → BusRes × RegLog := retry (busOp bus op) k

theorem restoreConfig_succ (k : Nat) (orig : BitVec 32) (fuel : Nat) (log : RegLog) :
    restoreConfig (cfgVia bus k) orig (fuel + 1) log =
      if (attempt bus k log.length).1 = true then
        some (0, (cfgVia bus k (.restoreWrite orig) log).2)
      else restoreConfig (cfgVia bus k) orig fuel (cfgVia bus k (.restoreWrite orig) log).2 := by
  have hok : (cfgVia bus k (.restoreWrite orig) log).1.ok = (attempt bus k log.length).1 := retry_ok _ k log
  show (if (cfgVia bus k (.restoreWrite orig) log).1.ret < 0 then _ else _) = _
  cases ha : (attempt bus k log.length).1 with
  | true =>
    rw [ha] at hok
    rw [if_neg (BusRes.ok_eq_true.mp hok), if_pos rfl, BusRes.eq_zero hok]
  | false =>
    rw [ha] at hok
    rw [if_pos (BusRes.ok_eq_false.mp hok), if_neg Bool.false_ne_true]

theorem restoreConfig_ends (k : Nat) (orig : BitVec 32) {log : RegLog} {m : Nat} (hm : log.length ≤ m)
    (hok : (bus m).ok = true) : ∃ fuel r, restoreConfig (cfgVia bus k) orig fuel log = some r := by
  generalize hd : m - log.length = d
  induction d using Nat.strong_induction_on generalizing log with
  | _ d ih =>
    cases ha : (attempt bus k log.length).1 with
    | true =>
      refine ⟨1, (0, (cfgVia bus k (.restoreWrite orig) log).2), ?_⟩
      rw [restoreConfig_succ, ha, if_pos rfl]
    | false =>
      have hlen : (cfgVia bus k (.restoreWrite orig) log).2.length = (attempt bus k log.length).2 :=
        retry_length _ k log
      have hlt := @attempt_lt bus k log.length
      have hle : (attempt bus k log.length).2 ≤ m := by
        by_contra hgt
        have := attempt_false ha m hm (by omega)
        rw [hok] at this
        cases this
      obtain ⟨fuel, r, hr⟩ := @ih (m - (attempt bus k log.length).2) (by omega)
        (cfgVia bus k (.restoreWrite orig) log).2 (by rw [hlen]; exact hle) (by rw [hlen])
      refine ⟨fuel + 1, r, ?_⟩
      rw [restoreConfig_succ, ha, if_neg Bool.false_ne_true]
      exact hr

/-- What the loop leaves when it ends: value 0, the register written back last, and nothing else done. -/
theorem restoreConfig_some {k : Nat} {orig : BitVec 32} {fuel : Nat} {log : RegLog} {r : Int × RegLog}
    (h : restoreConfig (cfgVia bus k) orig fuel log = some r) :
    r.1 = 0 ∧ (∃ l write, r.2 = log ++ l ++ [(.restoreWrite orig, write)] ∧ write.ok = true) ∧
      (∀ q, OkOnly q → (∀ res, q (.restoreWrite orig, res) = false) → r.2.any q = log.any q) ∧
      ∃ m, log.length ≤ m ∧ (bus m).ok = true := by
  induction fuel generalizing log with
  | zero => cases h
  | succ fuel ih =>
    rw [restoreConfig_succ] at h
    obtain ⟨l, hl⟩ := @retry_append bus (.restoreWrite orig) k log
    have hlt := @attempt_lt bus k log.length
    cases ha : (attempt bus k log.length).1 with
    | true =>
      rw [ha, if_pos rfl] at h
      cases h
      refine ⟨rfl, ⟨l, _, hl, ?_⟩, ?_, (attempt bus k log.length).2 - 1, by omega, attempt_true ha⟩
      · rw [retry_ok, ha]
      · intro q hq hop
        exact any_retry_other hq hop k log
    | false =>
      rw [ha, if_neg Bool.false_ne_true] at h
      obtain ⟨h0, ⟨l', write, hl', hw⟩, hany, m, hm, hok⟩ := ih h
      refine ⟨h0, ⟨l ++ [(.restoreWrite orig, (cfgVia bus k (.restoreWrite orig) log).1)] ++ l', write, ?_, hw⟩, ?_, m, ?_,
        hok⟩
      · rw [hl', show (cfgVia bus k (.restoreWrite orig) log).2 = _ from hl]
        simp only [List.append_assoc]
        rfl
      · intro q hq hop
        rw [hany q hq hop]
        exact any_retry_other hq hop k log
      · have hlen : (cfgVia bus k (.restoreWrite orig) log).2.length = (attempt bus k log.length).2 :=
          retry_length _ k log
        rw [hlen] at hm
        omega

theorem restoreConfig_mono {k : Nat} {orig : BitVec 32} {fuel fuel' : Nat} {log : RegLog} {r : Int × RegLog}
    (hle : fuel ≤ fuel') (h : restoreConfig (cfgVia bus k) orig fuel log = some r) :
    restoreConfig (cfgVia bus k) orig fuel' log = some r := by
  induction fuel generalizing fuel' log with
  | zero => cases h
  | succ fuel ih =>
    obtain ⟨n, rfl⟩ : ∃ n, fuel' = n + 1 := ⟨fuel' - 1, by omega⟩
    rw [restoreConfig_succ] at h ⊢
    by_cases ha : (attempt bus k log.length).1 = true
    · rw [if_pos ha] at h ⊢
      exact h
    · rw [if_neg ha] at h ⊢
      exact ih (by omega) h

end

/-! ## A direct access, whatever the access in it -/

/-- An access that starts at operation `n`, makes what `Done` asks for and ends before `m`, by the
answers of the bus. -/
structure AccessSpec (access : Nat → RegLog → Option (Int × RegLog)) (Done : RegLog → Prop) (Ends : Nat → Nat → Prop) :
    Prop where
  mono : ∀ {fuel fuel' log a}, fuel ≤ fuel' → access fuel log = some a → access fuel' log = some a
  grows : ∀ {fuel log a}, access fuel log = some a → log <+: a.2
  ends : ∀ {log}, NoAccess log → ∀ m, Ends log.length m ↔
    ∃ fuel a, access fuel log = some a ∧ Done a.2 ∧ a.2.length = m
  noAccess : ∀ {log}, NoAccess log → ¬Done log
  restored : ∀ {log log' : RegLog},
    (∀ q, OkOnly q → (∀ v res, q (.restoreWrite v, res) = false) → log'.any q = log.any q) → (Done log' ↔ Done log)

theorem noAccess_entry {bus : Nat → BusRes} (k : Nat) {log : RegLog} (h : NoAccess log) :
    NoAccess (cfgVia bus k .entryRead log).2 where
  addr a := (any_retry_other (okOnly_isAddr a) (fun _ => rfl) k log).trans (h.addr a)
  prefetch p := (any_retry_other (okOnly_isPrefetch p) (fun _ => rfl) k log).trans (h.prefetch p)
  clear p := (any_retry_other (okOnly_isClear p) (fun _ => rfl) k log).trans (h.clear p)
  dataRead p := (any_retry_other (okOnly_isDataRead p) (fun _ => rfl) k log).trans (h.dataRead p)
  dataWrite v := (any_retry_other (okOnly_isDataWrite v) (fun _ => rfl) k log).trans (h.dataWrite v)

theorem noAccess_mode {bus : Nat → BusRes} (k : Nat) (v : BitVec 32) {log : RegLog} (h : NoAccess log) :
    NoAccess (cfgVia bus k (.modeWrite v) log).2 where
  addr a := (any_retry_other (okOnly_isAddr a) (fun _ => rfl) k log).trans (h.addr a)
  prefetch p := (any_retry_other (okOnly_isPrefetch p) (fun _ => rfl) k log).trans (h.prefetch p)
  clear p := (any_retry_other (okOnly_isClear p) (fun _ => rfl) k log).trans (h.clear p)
  dataRead p := (any_retry_other (okOnly_isDataRead p) (fun _ => rfl) k log).trans (h.dataRead p)
  dataWrite w := (any_retry_other (okOnly_isDataWrite w) (fun _ => rfl) k log).trans (h.dataWrite w)

/-- The config register is not read at entry, or the access mode is set, the access is made, and
some operation after it goes well. -/
def DirectSound (bus : Nat → BusRes) (k : Nat) (Ends : Nat → Nat → Prop) : Prop :=
  let r := attempt bus k 0
  let w := attempt bus k r.2
  r.1 = false ∨ (w.1 = true ∧ ∃ m, Ends w.2 m ∧ ∃ j, m ≤ j ∧ (bus j).ok = true)

section
variable {bus : Nat → BusRes} {k : Nat} {access : Nat → RegLog → Option (Int × RegLog)} {Done : RegLog → Prop}
  {Ends : Nat → Nat → Prop}

def modeLog (bus : Nat → BusRes) (k : Nat) : RegLog :=
  (cfgVia bus k (.modeWrite ((cfgVia bus k .entryRead []).1.val ||| accessModeBit)) (cfgVia bus k .entryRead []).2).2

theorem modeLog_length : (modeLog bus k).length = (attempt bus k (attempt bus k 0).2).2 := by
  unfold modeLog
  have h : (cfgVia bus k .entryRead []).2.length = (attempt bus k 0).2 := retry_length _ k []
  rw [← h]
  exact retry_length _ k _

theorem modeLog_noAccess : NoAccess (modeLog bus k) := noAccess_mode k _ (noAccess_entry k .nil)

theorem directAccess_eq (fuel : Nat) :
    directAccess (cfgVia bus k) access fuel [] =
      if (attempt bus k 0).1 = false then
        some ((cfgVia bus k .entryRead []).1.ret, (cfgVia bus k .entryRead []).2)
      else if (attempt bus k (attempt bus k 0).2).1 = false then
        restoreConfig (cfgVia bus k) (cfgVia bus k .entryRead []).1.val fuel (modeLog bus k)
      else
        (access fuel (modeLog bus k)).bind fun a =>
          restoreConfig (cfgVia bus k) (cfgVia bus k .entryRead []).1.val fuel a.2 := by
  have hr : (cfgVia bus k .entryRead []).1.ok = (attempt bus k 0).1 := retry_ok _ k []
  have hlen : (cfgVia bus k .entryRead []).2.length = (attempt bus k 0).2 := retry_length _ k []
  have hw : ∀ v, (cfgVia bus k (.modeWrite v) (cfgVia bus k .entryRead []).2).1.ok =
      (attempt bus k (attempt bus k 0).2).1 := by
    intro v
    rw [← hlen]
    exact retry_ok _ k _
  unfold directAccess
  dsimp only
  cases ha : (attempt bus k 0).1 with
  | false =>
    rw [ha] at hr
    rw [if_pos (BusRes.ok_eq_false.mp hr), if_pos rfl]
  | true =>
    rw [ha] at hr
    rw [if_neg (BusRes.ok_eq_true.mp hr), if_neg (show ¬true = false from Bool.noConfusion)]
    cases hb : (attempt bus k (attempt bus k 0).2).1 with
    | false =>
      have := hw ((cfgVia bus k .entryRead []).1.val ||| accessModeBit)
      rw [hb] at this
      rw [if_pos (BusRes.ok_eq_false.mp this), if_pos rfl]
      rfl
    | true =>
      have := hw ((cfgVia bus k .entryRead []).1.val ||| accessModeBit)
      rw [hb] at this
      rw [if_neg (BusRes.ok_eq_true.mp this), if_neg (show ¬true = false from Bool.noConfusion)]
      rw [show (cfgVia bus k (.modeWrite ((cfgVia bus k .entryRead []).1.val ||| accessModeBit))
        (cfgVia bus k .entryRead []).2).2 = modeLog bus k from rfl]
      cases access fuel (modeLog bus k) <;> rfl

theorem done_restored (hs : AccessSpec access Done Ends) {orig : BitVec 32} {fuel : Nat} {log : RegLog}
    {r : Int × RegLog} (h : restoreConfig (cfgVia bus k) orig fuel log = some r) : Done r.2 ↔ Done log := by
  apply hs.restored
  intro q hq hop
  exact (restoreConfig_some h).2.2.1 q hq (hop orig)

theorem entry_mem (hs : AccessSpec access Done Ends) {fuel : Nat} {a : Int × RegLog}
    (h : access fuel (modeLog bus k) = some a) : (.entryRead, (cfgVia bus k .entryRead []).1) ∈ a.2 := by
  obtain ⟨l₁, h₁⟩ := @retry_append bus .entryRead k []
  obtain ⟨l₂, h₂⟩ := @retry_append bus
    (.modeWrite ((cfgVia bus k .entryRead []).1.val ||| accessModeBit)) k (cfgVia bus k .entryRead []).2
  have hmem : (.entryRead, (cfgVia bus k .entryRead []).1) ∈ (cfgVia bus k .entryRead []).2 := by
    rw [show (cfgVia bus k .entryRead []).2 = _ from h₁]
    exact List.mem_append_right _ (List.mem_singleton.mpr rfl)
  apply (hs.grows h).subset
  rw [show modeLog bus k = _ from h₂]
  exact List.mem_append_left _ (List.mem_append_left _ hmem)

/-- **A direct access**, through `k + 1` attempts at the config register. -/
theorem directAccess_truth_iff (hs : AccessSpec access Done Ends) :
    DirectTruth (directAccess (cfgVia bus k) access) Done ↔ DirectSound bus k Ends := by
  unfold DirectSound
  dsimp only
  rw [← modeLog_length]
  have hrun := fun fuel => @directAccess_eq bus k access fuel
  cases hr : (attempt bus k 0).1 with
  | false =>
    refine iff_of_true ⟨⟨0, ((cfgVia bus k .entryRead []).1.ret, (cfgVia bus k .entryRead []).2), ?_⟩, ?_⟩ (.inl rfl)
    · rw [hrun, hr, if_pos rfl]
    · intro fuel r h hret
      rw [hrun, hr, if_pos rfl] at h
      cases h
      have hbad : (cfgVia bus k .entryRead []).1.ok = false := (retry_ok _ k []).trans hr
      rw [BusRes.ok_eq_false] at hbad
      exact absurd hret (Int.not_le.mpr hbad)
  | true =>
    cases hw : (attempt bus k (attempt bus k 0).2).1 with
    | false =>
      -- the way out leads through the label, which overwrites the error
      refine iff_of_false ?_ (by rintro (h | h); exacts [Bool.noConfusion h, Bool.noConfusion h.1])
      rintro ⟨⟨fuel, r, h⟩, htruth⟩
      have hdone := fun hret => (htruth fuel r h hret).1
      rw [hrun, hr, hw, if_neg (show ¬true = false from Bool.noConfusion), if_pos rfl] at h
      have hzero := (restoreConfig_some h).1
      have := (done_restored hs h).mp (hdone (by omega))
      exact hs.noAccess modeLog_noAccess this
    | true =>
      have hrun' : ∀ fuel, directAccess (cfgVia bus k) access fuel [] =
          (access fuel (modeLog bus k)).bind fun a =>
            restoreConfig (cfgVia bus k) (cfgVia bus k .entryRead []).1.val fuel a.2 := by
        intro fuel
        have htf : ¬true = false := Bool.noConfusion
        rw [hrun, hr, hw, if_neg htf, if_neg htf]
      have hends := hs.ends (@modeLog_noAccess bus k)
      constructor
      · rintro ⟨⟨fuel, r, h⟩, htruth⟩
        have hdone := fun hret => (htruth fuel r h hret).1
        rw [hrun', Option.bind_eq_some_iff] at h
        obtain ⟨a, ha, hback⟩ := h
        obtain ⟨hzero, -, -, j, hj, hok⟩ := restoreConfig_some hback
        have hda : Done a.2 := (done_restored hs hback).mp (hdone (by omega))
        exact .inr ⟨rfl, a.2.length, (hends _).mpr ⟨fuel, a, ha, hda, rfl⟩, j, hj, hok⟩
      · rintro (h | ⟨-, m, hm, j, hj, hok⟩)
        · cases h
        · obtain ⟨fuel₁, a, ha, hda, hlen⟩ := (hends m).mp hm
          obtain ⟨fuel₂, r, hback⟩ := @restoreConfig_ends bus k (cfgVia bus k .entryRead []).1.val a.2 j
            (by rw [hlen]; exact hj) hok
          refine ⟨⟨max fuel₁ fuel₂, r, ?_⟩, ?_⟩
          · rw [hrun', hs.mono (Nat.le_max_left fuel₁ fuel₂) ha, Option.bind_some]
            exact restoreConfig_mono (Nat.le_max_right fuel₁ fuel₂) hback
          · intro fuel r' h _
            rw [hrun', Option.bind_eq_some_iff] at h
            obtain ⟨a', ha', hback'⟩ := h
            have hsame : a' = a := by
              have h₁ := hs.mono (Nat.le_max_left fuel₁ fuel) ha
              have h₂ := hs.mono (Nat.le_max_right fuel₁ fuel) ha'
              exact Option.some.inj (h₂.symm.trans h₁)
            subst hsame
            refine ⟨(done_restored hs hback').mpr hda, ?_⟩
            obtain ⟨-, ⟨l, write, hl, hwrite⟩, -, -⟩ := restoreConfig_some hback'
            refine ⟨a'.2 ++ l, (cfgVia bus k .entryRead []).1, write, hl, ?_, ?_, hwrite⟩
            · exact List.mem_append_left l (entry_mem hs ha')
            · exact (retry_ok _ k []).trans hr

end

end AtbmWifi
