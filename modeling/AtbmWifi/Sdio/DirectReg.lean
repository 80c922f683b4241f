import Mathlib.Tactic.Common

/-!
# Direct register access over SDIO

`atbm_direct_read_reg_32` and its siblings set the access mode in the config register,
make one AHB access and write the register back.  Every operation on the bus takes the
next answer of `bus`, a stream that may fail anywhere and for ever; the log keeps the
operations of the call with their answers.  A failing read stores a value as well.
Loops that may go on for ever have fuel.

An operation of `RegOp` says which line of the source it stands for as well: the config
register is read and written at five places.

-/

namespace AtbmWifi

/-- The answer of a bus operation: 0 or a negative error, and the value a read has stored. -/
structure BusRes where
  ret : Int
  le : ret ≤ 0
  val : BitVec 32

def BusRes.ok (r : BusRes) : Bool := decide (0 ≤ r.ret)

inductive RegOp
  | entryRead
  | modeWrite (v : BitVec 32)
  | addrWrite (addr : BitVec 32)
  | configRead
  | prefetchWrite (v : BitVec 32)
  | prefetchPoll
  | dataRead (port : Nat)
  | dataWrite (v : BitVec 32)
  | restoreWrite (v : BitVec 32)
  deriving DecidableEq, Repr

/-- `ATBM_HIFREG_AHB_DPORT_REG_ID` -/
def ahbDport : Nat := 3

def RegOp.reg : RegOp → Nat
  | .entryRead | .modeWrite _ | .configRead | .prefetchWrite _ | .prefetchPoll | .restoreWrite _ => 0
  | .addrWrite _ => 4
  | .dataRead port => port
  | .dataWrite _ => ahbDport

def accessModeBit : BitVec 32 := 1 <<< 10

def ahbPfetchBit : BitVec 32 := 1 <<< 11

abbrev RegLog := List (RegOp × BusRes)

section
variable (bus : Nat → BusRes)

/-- `__atbm_reg_read_32`, `__atbm_reg_write_32` -/
def busOp (op : RegOp) (log : RegLog) : BusRes × RegLog := (bus log.length, log ++ [(op, bus log.length)])

/-- `while(retry<=3)`, from the last but `k` attempts on -/
def retry (op : RegLog → BusRes × RegLog) : Nat → RegLog → BusRes × RegLog
  | 0, log => op log
  | k + 1, log => if (op log).1.ret < 0 then retry op k (op log).2 else op log

/-- `atbm_reg_read_unlock_32`, `atbm_reg_write_unlock_32` -/
def regUnlock (op : RegOp) (log : RegLog) : BusRes × RegLog := retry (busOp bus op) 3 log

/-- The polls for the prefetch bit to be cleared, from the last but `k` on; `stop` when a failing
poll ends them. -/
def pollPrefetch (stop : Bool) (prefetch : BitVec 32) : Nat → RegLog → BusRes × RegLog
  | 0, log => busOp bus .prefetchPoll log
  | k + 1, log =>
    let r := busOp bus .prefetchPoll log
    if r.1.ret < 0 then
      if stop then r else pollPrefetch stop prefetch k r.2
    else if r.1.val &&& prefetch = 0 then r
    else pollPrefetch stop prefetch k r.2

/-- `__atbm_reg_read` of the data port, which turns down a long read to an unaligned buffer. -/
def dataPortRead (port len : Nat) (aligned : Bool) (log : RegLog) : BusRes × RegLog :=
  if aligned = false ∧ 4 < len then (⟨-22, by decide, 0⟩, log) else busOp bus (.dataRead port) log

def atbmIndirectRead (addr : BitVec 32) (len : Nat) (aligned : Bool) (prefetch : BitVec 32) (port : Nat)
    (log : RegLog) : Int × RegLog :=
  if 0x1000 ≤ len / 2 then (-22, log)
  else
    let a := busOp bus (.addrWrite addr) log
    if a.1.ret < 0 then (a.1.ret, a.2)
    else
      let c := busOp bus .configRead a.2
      if c.1.ret < 0 then (c.1.ret, c.2)
      else
        let p := busOp bus (.prefetchWrite (c.1.val ||| prefetch)) c.2
        if p.1.ret < 0 then (p.1.ret, p.2)
        else
          let q := pollPrefetch bus true prefetch 19 p.2
          if q.1.ret < 0 then (q.1.ret, q.2)
          else if q.1.val &&& prefetch ≠ 0 then (q.1.ret, q.2)
          else
            let d := dataPortRead bus port len aligned q.2
            (d.1.ret, d.2)

def atbmIndirectReadUnlock (addr : BitVec 32) (len : Nat) (aligned : Bool) (prefetch : BitVec 32) (port : Nat)
    (log : RegLog) : Int × RegLog :=
  if 0x1000 ≤ len / 2 then (-22, log)
  else
    let a := retry (busOp bus (.addrWrite addr)) 3 log
    let c := retry (busOp bus .configRead) 3 a.2
    let p := retry (busOp bus (.prefetchWrite (c.1.val ||| prefetch))) 3 c.2
    let q := pollPrefetch bus false prefetch 19 p.2
    if q.1.val &&& prefetch ≠ 0 then (q.1.ret, q.2)
    else
      let d := retry (dataPortRead bus port len aligned) 3 q.2
      (d.1.ret, d.2)

def atbmAhbWrite32 (addr v : BitVec 32) (log : RegLog) : Int × RegLog :=
  let a := busOp bus (.addrWrite addr) log
  if a.1.ret < 0 then (a.1.ret, a.2)
  else
    let d := busOp bus (.dataWrite v) a.2
    (d.1.ret, d.2)

def atbmAhbWriteUnlock (addr v : BitVec 32) (log : RegLog) : Int × RegLog :=
  let a := retry (busOp bus (.addrWrite addr)) 3 log
  let d := retry (busOp bus (.dataWrite v)) 3 a.2
  (d.1.ret, d.2)

/-- `atbm_ahb_write_unlock_32`; its `retry` is never counted. -/
def atbmAhbWriteUnlock32 (addr v : BitVec 32) : Nat → RegLog → Option (Int × RegLog)
  | 0, _ => none
  | fuel + 1, log =>
    let w := atbmAhbWriteUnlock bus addr v log
    if w.1 ≠ 0 then atbmAhbWriteUnlock32 addr v fuel w.2 else some w

end

/-- The part from `out:` on, with its `goto out` -/
def restoreConfig (writeCfg : RegOp → RegLog → BusRes × RegLog) (orig : BitVec 32) :
    Nat → RegLog → Option (Int × RegLog)
  | 0, _ => none
  | fuel + 1, log =>
    let w := writeCfg (.restoreWrite orig) log
    if w.1.ret < 0 then restoreConfig writeCfg orig fuel w.2 else some (w.1.ret, w.2)

/-- The four functions, by how they reach the config register and make the AHB access -/
def directAccess (cfg : RegOp → RegLog → BusRes × RegLog) (access : Nat → RegLog → Option (Int × RegLog))
    (fuel : Nat) (log : RegLog) : Option (Int × RegLog) :=
  let r := cfg .entryRead log
  if r.1.ret < 0 then some (r.1.ret, r.2)
  else
    let orig := r.1.val
    let w := cfg (.modeWrite (orig ||| accessModeBit)) r.2
    if w.1.ret < 0 then restoreConfig cfg orig fuel w.2
    else
      match access fuel w.2 with
      | none => none
      | some a =>
        -- with an error or without, the way leads to the label
        restoreConfig cfg orig fuel a.2

section
variable (bus : Nat → BusRes)

def atbmDirectReadReg32 (addr : BitVec 32) : Nat → RegLog → Option (Int × RegLog) :=
  directAccess (busOp bus) fun _ log => some (atbmIndirectRead bus addr 4 true ahbPfetchBit ahbDport log)

def atbmDirectWriteReg32 (addr v : BitVec 32) : Nat → RegLog → Option (Int × RegLog) :=
  directAccess (busOp bus) fun _ log => some (atbmAhbWrite32 bus addr v log)

def atbmDirectReadUnlock (addr : BitVec 32) : Nat → RegLog → Option (Int × RegLog) :=
  directAccess (regUnlock bus) fun _ log => some (atbmIndirectReadUnlock bus addr 4 true ahbPfetchBit ahbDport log)

def atbmDirectWriteUnlock (addr v : BitVec 32) : Nat → RegLog → Option (Int × RegLog) :=
  directAccess (regUnlock bus) (atbmAhbWriteUnlock32 bus addr v)

/-- The attempts of one step, from operation `n` on, `k` of them after the first: whether one goes
well, and the operation after them. -/
def attempt : Nat → Nat → Bool × Nat
  | 0, n => ((bus n).ok, n + 1)
  | k + 1, n => if (bus n).ok then (true, n + 1) else attempt k (n + 1)

/-- The polls from operation `n` on, `k` of them after the first: whether one finds the bit cleared,
and the operation after them. -/
def pollSteps (stop : Bool) (prefetch : BitVec 32) : Nat → Nat → Bool × Nat
  | 0, n => ((bus n).ok && (bus n).val &&& prefetch == 0, n + 1)
  | k + 1, n =>
    if (bus n).ok then
      if (bus n).val &&& prefetch = 0 then (true, n + 1) else pollSteps stop prefetch k (n + 1)
    else if stop then (false, n + 1)
    else pollSteps stop prefetch k (n + 1)

end

theorem BusRes.ok_eq_true {r : BusRes} : r.ok = true ↔ ¬r.ret < 0 := by
  unfold BusRes.ok
  rw [decide_eq_true_iff, Int.not_lt]

theorem BusRes.ok_eq_false {r : BusRes} : r.ok = false ↔ r.ret < 0 := by
  rw [Bool.eq_false_iff, Ne, BusRes.ok_eq_true, not_not]

theorem BusRes.eq_zero {r : BusRes} (h : r.ok = true) : r.ret = 0 := by
  rw [BusRes.ok_eq_true] at h
  have := r.le
  omega

def OkOnly (q : RegOp × BusRes → Bool) : Prop := ∀ op r, r.ok = false → q (op, r) = false

section
variable {bus : Nat → BusRes}

theorem any_busOp (op : RegOp) (log : RegLog) (q : RegOp × BusRes → Bool) :
    (busOp bus op log).2.any q = (log.any q || q (op, bus log.length)) := by
  unfold busOp
  rw [List.any_append, List.any_cons, List.any_nil, Bool.or_false]

theorem length_busOp (op : RegOp) (log : RegLog) : (busOp bus op log).2.length = log.length + 1 := by
  unfold busOp
  rw [List.length_append, List.length_singleton]

/-- A retried step ends where `attempt` says, with the answer it got last, and the log has gained
what that operation is. -/
theorem retry_spec (op : RegOp) (k : Nat) (log : RegLog) :
    let a := attempt bus k log.length
    let r := retry (busOp bus op) k log
    r.2.length = a.2 ∧ r.1 = bus (a.2 - 1) ∧ r.1.ok = a.1 ∧
      ∀ q, OkOnly q → r.2.any q = (log.any q || (a.1 && q (op, bus (a.2 - 1)))) := by
  induction k generalizing log with
  | zero =>
    refine ⟨length_busOp op log, rfl, rfl, ?_⟩
    intro q hq
    show (busOp bus op log).2.any q = (log.any q || ((bus log.length).ok && q (op, bus log.length)))
    rw [any_busOp]
    cases hok : (bus log.length).ok with
    | true => rfl
    | false => rw [hq op _ hok, Bool.and_false]
  | succ k ih =>
    dsimp only
    unfold attempt retry
    cases hok : (bus log.length).ok with
    | true =>
      have hret : ¬(busOp bus op log).1.ret < 0 := BusRes.ok_eq_true.mp hok
      rw [if_pos rfl, if_neg hret]
      refine ⟨length_busOp op log, rfl, hok, ?_⟩
      intro q _
      rw [any_busOp, Bool.true_and]
      rfl
    | false =>
      have hret : (busOp bus op log).1.ret < 0 := BusRes.ok_eq_false.mp hok
      rw [if_neg Bool.false_ne_true, if_pos hret]
      have hi := ih (busOp bus op log).2
      rw [length_busOp] at hi
      obtain ⟨h1, h2, h3, h4⟩ := hi
      refine ⟨h1, h2, h3, ?_⟩
      intro q hq
      rw [h4 q hq, any_busOp, hq op _ hok, Bool.or_false]

structure PollsEnd (bus : Nat → BusRes) (prefetch : BitVec 32) (n : Nat) (e : Bool × Nat) (last : BusRes) : Prop where
  lt : n < e.2
  last_eq : last = bus (e.2 - 1)
  cleared : e.1 = true → last.ok = true ∧ last.val &&& prefetch = 0
  notCleared : e.1 = false → last.ok = true → last.val &&& prefetch ≠ 0

theorem pollsEnd_one {prefetch : BitVec 32} {n : Nat} {b : Bool}
    (hb : b = true ↔ (bus n).ok = true ∧ (bus n).val &&& prefetch = 0) :
    PollsEnd bus prefetch n (b, n + 1) (bus n) where
  lt := Nat.lt_succ_self n
  last_eq := rfl
  cleared h := hb.mp h
  notCleared h hok hval := Bool.noConfusion (h.symm.trans (hb.mpr ⟨hok, hval⟩))

/-- The polls end where `pollSteps` says, and the log has gained a poll that found the bit cleared
exactly when the last did. -/
theorem pollPrefetch_spec (stop : Bool) (prefetch : BitVec 32) (k : Nat) (log : RegLog) :
    let e := pollSteps bus stop prefetch k log.length
    let r := pollPrefetch bus stop prefetch k log
    r.2.length = e.2 ∧ PollsEnd bus prefetch log.length e r.1 ∧
      ∀ q, OkOnly q → (∀ v, v.val &&& prefetch ≠ 0 → q (.prefetchPoll, v) = false) →
        r.2.any q = (log.any q || (e.1 && q (.prefetchPoll, bus (e.2 - 1)))) := by
  -- a poll that is not the one found adds nothing
  have hno : ∀ q, OkOnly q → (∀ v, v.val &&& prefetch ≠ 0 → q (.prefetchPoll, v) = false) →
      ∀ r : BusRes, ¬(r.ok = true ∧ r.val &&& prefetch = 0) → q (.prefetchPoll, r) = false := by
    intro q hq hclear r hr
    cases hok : r.ok with
    | false => exact hq _ r hok
    | true => exact hclear r fun hv => hr ⟨hok, hv⟩
  induction k generalizing log with
  | zero =>
    refine ⟨length_busOp _ log, ?_, ?_⟩
    · apply pollsEnd_one
      rw [Bool.and_eq_true, beq_iff_eq]
    · intro q hq hclear
      show (busOp bus .prefetchPoll log).2.any q = _
      rw [any_busOp]
      unfold pollSteps
      by_cases hb : (bus log.length).ok = true ∧ (bus log.length).val &&& prefetch = 0
      · rw [hb.1, hb.2, beq_self_eq_true, Bool.true_and, Bool.true_and]
        rfl
      · rw [hno q hq hclear _ hb]
        show _ = (log.any q || (_ && q (.prefetchPoll, bus log.length)))
        rw [hno q hq hclear _ hb, Bool.and_false]
  | succ k ih =>
    dsimp only
    unfold pollSteps pollPrefetch
    dsimp only
    have hi := ih (busOp bus .prefetchPoll log).2
    rw [length_busOp] at hi
    obtain ⟨hlen, hend, hany⟩ := hi
    have hend' : PollsEnd bus prefetch log.length (pollSteps bus stop prefetch k (log.length + 1))
        (pollPrefetch bus stop prefetch k (busOp bus .prefetchPoll log).2).1 :=
      ⟨by have := hend.lt; omega, hend.last_eq, hend.cleared, hend.notCleared⟩
    cases hok : (bus log.length).ok with
    | false =>
      have hret : (busOp bus .prefetchPoll log).1.ret < 0 := BusRes.ok_eq_false.mp hok
      rw [if_neg Bool.false_ne_true, if_pos hret]
      cases stop with
      | true =>
        rw [if_pos rfl, if_pos rfl]
        refine ⟨length_busOp _ log, pollsEnd_one ?_, ?_⟩
        · rw [hok]
          exact iff_of_false Bool.false_ne_true fun h => Bool.false_ne_true h.1
        · intro q hq _
          rw [any_busOp, hq _ _ hok]
          rfl
      | false =>
        rw [if_neg Bool.false_ne_true, if_neg Bool.false_ne_true]
        refine ⟨hlen, hend', ?_⟩
        intro q hq hclear
        rw [hany q hq hclear, any_busOp, hq _ _ hok, Bool.or_false]
    | true =>
      have hret : ¬(busOp bus .prefetchPoll log).1.ret < 0 := BusRes.ok_eq_true.mp hok
      rw [if_pos rfl, if_neg hret]
      by_cases hv : (bus log.length).val &&& prefetch = 0
      · have hv' : (busOp bus .prefetchPoll log).1.val &&& prefetch = 0 := hv
        rw [if_pos hv, if_pos hv']
        refine ⟨length_busOp _ log, pollsEnd_one (iff_of_true rfl ⟨hok, hv⟩), ?_⟩
        intro q _ _
        rw [any_busOp]
        rfl
      · have hv' : ¬(busOp bus .prefetchPoll log).1.val &&& prefetch = 0 := hv
        rw [if_neg hv, if_neg hv']
        refine ⟨hlen, hend', ?_⟩
        intro q hq hclear
        rw [hany q hq hclear, any_busOp, hclear _ hv, Bool.or_false]

end

end AtbmWifi
