import AtbmWifi.Sdio.DirectRegTruth

/-!
# The four direct register accesses

The indirect read and the AHB write, with retries and without, as accesses of
`directAccess_truth_iff`: what each shows in the log by the answers of the bus.
-/

namespace AtbmWifi

section
variable {bus : Nat → BusRes}

theorem busOp_grows (op : RegOp) (log : RegLog) : log <+: (busOp bus op log).2 := List.prefix_append _ _

theorem retry_grows (op : RegOp) (k : Nat) (log : RegLog) : log <+: (retry (busOp bus op) k log).2 := by
  obtain ⟨l, hl⟩ := @retry_append bus op k log
  rw [hl, List.append_assoc]
  exact List.prefix_append _ _

theorem pollPrefetch_grows (stop : Bool) (prefetch : BitVec 32) (k : Nat) (log : RegLog) :
    log <+: (pollPrefetch bus stop prefetch k log).2 := by
  induction k generalizing log with
  | zero => exact busOp_grows _ log
  | succ k ih =>
    have hone : log <+: (busOp bus .prefetchPoll log).2 := busOp_grows _ log
    have hmore := hone.trans (ih (busOp bus .prefetchPoll log).2)
    unfold pollPrefetch
    dsimp only
    split
    · split
      · exact hone
      · exact hmore
    · split
      · exact hone
      · exact hmore

theorem any_busOp_other {op : RegOp} {q : RegOp × BusRes → Bool} (hop : ∀ r, q (op, r) = false) (log : RegLog) :
    (busOp bus op log).2.any q = log.any q := by
  rw [any_busOp, hop, Bool.or_false]

theorem readDone_congr {addr prefetch : BitVec 32} {port : Nat} {log log' : RegLog}
    (h : ∀ q, OkOnly q → (∀ v res, q (.restoreWrite v, res) = false) → log'.any q = log.any q) :
    ReadDone addr prefetch port log' ↔ ReadDone addr prefetch port log := by
  have ha := h _ (okOnly_isAddr addr) fun _ _ => rfl
  have hp := h _ (okOnly_isPrefetch prefetch) fun _ _ => rfl
  have hc := h _ (okOnly_isClear prefetch) fun _ _ => rfl
  have hd := h _ (okOnly_isDataRead port) fun _ _ => rfl
  constructor
  · rintro ⟨h1, h2, h3, h4⟩
    exact ⟨ha ▸ h1, hp ▸ h2, hc ▸ h3, hd ▸ h4⟩
  · rintro ⟨h1, h2, h3, h4⟩
    exact ⟨ha.trans h1, hp.trans h2, hc.trans h3, hd.trans h4⟩

theorem writeDone_congr {addr v : BitVec 32} {log log' : RegLog}
    (h : ∀ q, OkOnly q → (∀ v res, q (.restoreWrite v, res) = false) → log'.any q = log.any q) :
    WriteDone addr v log' ↔ WriteDone addr v log := by
  have ha := h _ (okOnly_isAddr addr) fun _ _ => rfl
  have hd := h _ (okOnly_isDataWrite v) fun _ _ => rfl
  constructor
  · rintro ⟨h1, h2⟩
    exact ⟨ha ▸ h1, hd ▸ h2⟩
  · rintro ⟨h1, h2⟩
    exact ⟨ha.trans h1, hd.trans h2⟩

end

/-- The answers of the bus with which `atbm_indirect_read` is made from operation `n` on, ending before `m` -/
def IndirectReadEnds (bus : Nat → BusRes) (prefetch : BitVec 32) (n m : Nat) : Prop :=
  let q := pollSteps bus true prefetch 19 (n + 3)
  (bus n).ok = true ∧ (bus (n + 1)).ok = true ∧ (bus (n + 2)).ok = true ∧ q.1 = true ∧ (bus q.2).ok = true ∧
    m = q.2 + 1

theorem isAddr_self {addr : BitVec 32} {r : BusRes} (h : r.ok = true) : isAddr addr (.addrWrite addr, r) = true := by
  unfold isAddr
  rw [h, Bool.and_true]
  exact beq_self_eq_true _

theorem isDataRead_self (port : Nat) (r : BusRes) : isDataRead port (.dataRead port, r) = r.ok := by
  unfold isDataRead
  rw [show ((RegOp.dataRead port, r).1 == RegOp.dataRead port) = true from beq_self_eq_true _, Bool.true_and]

theorem isPrefetch_self {prefetch v : BitVec 32} {r : BusRes} (h : r.ok = true) :
    isPrefetch prefetch (.prefetchWrite (v ||| prefetch), r) = true := by
  have hset : (v ||| prefetch) &&& prefetch = prefetch := by
    apply BitVec.eq_of_getLsbD_eq
    intro i _
    rw [BitVec.getLsbD_and, BitVec.getLsbD_or]
    cases v.getLsbD i <;> cases prefetch.getLsbD i <;> rfl
  unfold isPrefetch
  dsimp only
  rw [h, hset, Bool.and_true]
  exact beq_self_eq_true _

theorem indirectRead_done (bus : Nat → BusRes) (addr prefetch : BitVec 32) (port : Nat) {log : RegLog}
    (hn : NoAccess log) (m : Nat) :
    (ReadDone addr prefetch port (atbmIndirectRead bus addr 4 true prefetch port log).2 ∧
        (atbmIndirectRead bus addr 4 true prefetch port log).2.length = m) ↔
      IndirectReadEnds bus prefetch log.length m := by
  -- without the data read nothing is done
  have hnot : ∀ log' : RegLog, log'.any (isDataRead port) = false →
      ¬(ReadDone addr prefetch port log' ∧ log'.length = m) := by
    intro log' h hd
    exact Bool.noConfusion (h.symm.trans hd.1.dataOk)
  unfold IndirectReadEnds atbmIndirectRead
  rw [if_neg (by decide)]
  dsimp only
  have hal : (busOp bus (.addrWrite addr) log).2.length = log.length + 1 := length_busOp _ _
  have had : (busOp bus (.addrWrite addr) log).2.any (isDataRead port) = false := by
    rw [any_busOp_other fun _ => rfl, hn.dataRead]
  cases ha : (bus log.length).ok with
  | false =>
    rw [if_pos (show (busOp bus (.addrWrite addr) log).1.ret < 0 from BusRes.ok_eq_false.mp ha)]
    exact iff_of_false (hnot _ had) fun h => Bool.noConfusion h.1
  | true =>
    rw [if_neg (show ¬(busOp bus (.addrWrite addr) log).1.ret < 0 from BusRes.ok_eq_true.mp ha)]
    have haa : (busOp bus (.addrWrite addr) log).2.any (isAddr addr) = true := by
      rw [any_busOp, isAddr_self ha, Bool.or_true]
    have hap : (busOp bus (.addrWrite addr) log).2.any (isPrefetch prefetch) = false := by
      rw [any_busOp_other fun _ => rfl, hn.prefetch]
    have hac : (busOp bus (.addrWrite addr) log).2.any (isClear prefetch) = false := by
      rw [any_busOp_other fun _ => rfl, hn.clear]
    generalize busOp bus (.addrWrite addr) log = a at hal had haa hap hac ⊢
    have hcl : (busOp bus .configRead a.2).2.length = log.length + 2 := by rw [length_busOp, hal]
    have hc1 : (busOp bus .configRead a.2).1 = bus (log.length + 1) := by
      rw [← hal]
      rfl
    have hcd : (busOp bus .configRead a.2).2.any (isDataRead port) = false := by rw [any_busOp_other fun _ => rfl, had]
    cases hc : (bus (log.length + 1)).ok with
    | false =>
      rw [if_pos (show (busOp bus .configRead a.2).1.ret < 0 by rw [hc1]; exact BusRes.ok_eq_false.mp hc)]
      exact iff_of_false (hnot _ hcd) fun h => Bool.noConfusion h.2.1
    | true =>
      rw [if_neg (show ¬(busOp bus .configRead a.2).1.ret < 0 by rw [hc1]; exact BusRes.ok_eq_true.mp hc)]
      have hca : (busOp bus .configRead a.2).2.any (isAddr addr) = true := by rw [any_busOp_other fun _ => rfl, haa]
      have hcp : (busOp bus .configRead a.2).2.any (isPrefetch prefetch) = false := by
        rw [any_busOp_other fun _ => rfl, hap]
      have hcc : (busOp bus .configRead a.2).2.any (isClear prefetch) = false := by
        rw [any_busOp_other fun _ => rfl, hac]
      generalize busOp bus .configRead a.2 = c at hcl hcd hca hcp hcc ⊢
      have hpl : (busOp bus (.prefetchWrite (c.1.val ||| prefetch)) c.2).2.length = log.length + 3 := by
        rw [length_busOp, hcl]
      have hp1 : (busOp bus (.prefetchWrite (c.1.val ||| prefetch)) c.2).1 = bus (log.length + 2) := by
        rw [← hcl]
        rfl
      have hpd : (busOp bus (.prefetchWrite (c.1.val ||| prefetch)) c.2).2.any (isDataRead port) = false := by
        rw [any_busOp_other fun _ => rfl, hcd]
      cases hp : (bus (log.length + 2)).ok with
      | false =>
        rw [if_pos (show (busOp bus (.prefetchWrite (c.1.val ||| prefetch)) c.2).1.ret < 0 by
          rw [hp1]; exact BusRes.ok_eq_false.mp hp)]
        exact iff_of_false (hnot _ hpd) fun h => Bool.noConfusion h.2.2.1
      | true =>
        rw [if_neg (show ¬(busOp bus (.prefetchWrite (c.1.val ||| prefetch)) c.2).1.ret < 0 by
          rw [hp1]; exact BusRes.ok_eq_true.mp hp)]
        have hpa : (busOp bus (.prefetchWrite (c.1.val ||| prefetch)) c.2).2.any (isAddr addr) = true := by
          rw [any_busOp_other fun _ => rfl, hca]
        have hpp : (busOp bus (.prefetchWrite (c.1.val ||| prefetch)) c.2).2.any (isPrefetch prefetch) = true := by
          rw [any_busOp, hcl, isPrefetch_self hp, Bool.or_true]
        have hpc : (busOp bus (.prefetchWrite (c.1.val ||| prefetch)) c.2).2.any (isClear prefetch) = false := by
          rw [any_busOp_other fun _ => rfl, hcc]
        generalize busOp bus (.prefetchWrite (c.1.val ||| prefetch)) c.2 = p at hpl hpd hpa hpp hpc ⊢
        have hspec := @pollPrefetch_spec bus true prefetch 19 p.2
        have hqa := @any_polls_other bus _ (okOnly_isAddr addr) (fun _ => rfl) true prefetch 19 p.2
        have hqp := @any_polls_other bus _ (okOnly_isPrefetch prefetch) (fun _ => rfl) true prefetch 19 p.2
        have hqd := @any_polls_other bus _ (okOnly_isDataRead port) (fun _ => rfl) true prefetch 19 p.2
        have hqc := @any_polls_clear bus true prefetch 19 p.2
        dsimp only at hspec
        rw [hpl] at hspec hqc
        obtain ⟨hql, hend, -⟩ := hspec
        rw [hpa] at hqa
        rw [hpp] at hqp
        rw [hpd] at hqd
        rw [hpc, Bool.false_or] at hqc
        generalize pollPrefetch bus true prefetch 19 p.2 = q
          at hql hend hqa hqp hqd hqc ⊢
        cases he : (pollSteps bus true prefetch 19 (log.length + 3)).1 with
        | false =>
          refine iff_of_false ?_ fun h => Bool.noConfusion h.2.2.2.1
          split
          · exact hnot _ hqd
          · rename_i hret
            rw [if_pos (hend.notCleared he (BusRes.ok_eq_true.mpr hret))]
            exact hnot _ hqd
        | true =>
          obtain ⟨hok, hval⟩ := hend.cleared he
          rw [if_neg (BusRes.ok_eq_true.mp hok), if_neg (not_not_intro hval)]
          have hdp : dataPortRead bus port 4 true q.2 = busOp bus (.dataRead port) q.2 := if_neg (by decide)
          rw [hdp]
          have hdd : (busOp bus (.dataRead port) q.2).2.any (isDataRead port) = (bus q.2.length).ok := by
            rw [any_busOp, hqd, Bool.false_or, isDataRead_self]
          have hdl : (busOp bus (.dataRead port) q.2).2.length =
              (pollSteps bus true prefetch 19 (log.length + 3)).2 + 1 := by
            rw [length_busOp, hql]
          constructor
          · rintro ⟨⟨-, -, -, h4⟩, hlen⟩
            rw [hdd, hql] at h4
            exact ⟨rfl, rfl, rfl, rfl, h4, hlen.symm.trans hdl⟩
          · rintro ⟨-, -, -, -, h4, hm⟩
            refine ⟨⟨?_, ?_, ?_, ?_⟩, hdl.trans hm.symm⟩
            · rw [any_busOp_other fun _ => rfl, hqa]
            · rw [any_busOp_other fun _ => rfl, hqp]
            · rw [any_busOp_other fun _ => rfl, hqc, he]
            · rw [hdd, hql]
              exact h4

theorem indirectRead_grows (bus : Nat → BusRes) (addr prefetch : BitVec 32) (port : Nat) (log : RegLog) :
    log <+: (atbmIndirectRead bus addr 4 true prefetch port log).2 := by
  have ha : log <+: (busOp bus (.addrWrite addr) log).2 := busOp_grows _ log
  have hc := ha.trans (@busOp_grows bus .configRead (busOp bus (.addrWrite addr) log).2)
  have hp := fun v => hc.trans (@busOp_grows bus (.prefetchWrite v) _)
  have hq := fun v => (hp v).trans (@pollPrefetch_grows bus true prefetch 19 _)
  unfold atbmIndirectRead
  rw [if_neg (by decide)]
  dsimp only
  split
  · exact ha
  · split
    · exact hc
    · split
      · exact hp _
      · split
        · exact hq _
        · split
          · exact hq _
          · exact (hq _).trans (busOp_grows _ _)

theorem indirectRead_access (bus : Nat → BusRes) (addr prefetch : BitVec 32) (port : Nat) :
    AccessSpec (fun _ log => some (atbmIndirectRead bus addr 4 true prefetch port log)) (ReadDone addr prefetch port)
      (IndirectReadEnds bus prefetch) where
  mono _ h := h
  grows h := by
    cases h
    exact indirectRead_grows bus addr prefetch port _
  ends hn m := by
    rw [← indirectRead_done bus addr prefetch port hn]
    constructor
    · rintro ⟨hd, hm⟩
      exact ⟨0, _, rfl, hd, hm⟩
    · rintro ⟨_, a, h, hd, hm⟩
      cases h
      exact ⟨hd, hm⟩
  noAccess hn h := Bool.noConfusion ((hn.addr addr).symm.trans h.addrOk)
  restored := readDone_congr

/-- The answers of the bus with which `atbm_indirect_read_unlock` is made from operation `n` on,
ending before `m` -/
def IndirectReadUnlockEnds (bus : Nat → BusRes) (prefetch : BitVec 32) (n m : Nat) : Prop :=
  let e := readParts bus prefetch n
  e.addr.1 = true ∧ e.prefetch.1 = true ∧ e.poll.1 = true ∧ e.data.1 = true ∧ m = e.data.2

theorem indirectReadUnlock_grows (bus : Nat → BusRes) (addr prefetch : BitVec 32) (port : Nat) (log : RegLog) :
    log <+: (atbmIndirectReadUnlock bus addr 4 true prefetch port log).2 := by
  have ha : log <+: (retry (busOp bus (.addrWrite addr)) 3 log).2 := retry_grows _ 3 log
  have hc := ha.trans (@retry_grows bus .configRead 3 _)
  have hp := fun v => hc.trans (@retry_grows bus (.prefetchWrite v) 3 _)
  have hq := fun v => (hp v).trans (@pollPrefetch_grows bus false prefetch 19 _)
  have hdata : dataPortRead bus port 4 true = busOp bus (.dataRead port) := dataPortRead_aligned bus port (by decide)
  unfold atbmIndirectReadUnlock
  rw [if_neg (by decide), hdata]
  dsimp only
  split
  · exact hq _
  · exact (hq _).trans (retry_grows _ 3 _)

theorem indirectReadUnlock_access (bus : Nat → BusRes) (addr prefetch : BitVec 32) (port : Nat) :
    AccessSpec (fun _ log => some (atbmIndirectReadUnlock bus addr 4 true prefetch port log))
      (ReadDone addr prefetch port) (IndirectReadUnlockEnds bus prefetch) where
  mono _ h := h
  grows h := by
    cases h
    exact indirectReadUnlock_grows bus addr prefetch port _
  ends {log} hn m := by
    obtain ⟨hdone, hlen, -⟩ := indirectReadUnlock_spec bus addr prefetch 4 true port hn
    unfold IndirectReadUnlockEnds
    constructor
    · rintro ⟨h1, h2, h3, h4, hm⟩
      have hd := hdone.mpr ⟨by decide, by decide, h1, h2, h3, h4⟩
      exact ⟨0, _, rfl, hd, (hlen hd).trans hm.symm⟩
    · rintro ⟨_, a, h, hd, hm⟩
      cases h
      obtain ⟨-, -, h1, h2, h3, h4⟩ := hdone.mp hd
      exact ⟨h1, h2, h3, h4, hm.symm.trans (hlen hd)⟩
  noAccess hn h := Bool.noConfusion ((hn.addr addr).symm.trans h.addrOk)
  restored := readDone_congr

/-- The answers of the bus with which `atbm_ahb_write_32` is made from operation `n` on, ending before `m` -/
def AhbWriteEnds (bus : Nat → BusRes) (n m : Nat) : Prop :=
  (bus n).ok = true ∧ (bus (n + 1)).ok = true ∧ m = n + 2

theorem isDataWrite_self (v : BitVec 32) (r : BusRes) : isDataWrite v (.dataWrite v, r) = r.ok := by
  unfold isDataWrite
  rw [show ((RegOp.dataWrite v, r).1 == RegOp.dataWrite v) = true from beq_self_eq_true _, Bool.true_and]

theorem ahbWrite32_access (bus : Nat → BusRes) (addr v : BitVec 32) :
    AccessSpec (fun _ log => some (atbmAhbWrite32 bus addr v log)) (WriteDone addr v) (AhbWriteEnds bus) where
  mono _ h := h
  grows {_ log _} h := by
    cases h
    have ha : log <+: (busOp bus (.addrWrite addr) log).2 := busOp_grows _ log
    unfold atbmAhbWrite32
    dsimp only
    split
    · exact ha
    · exact ha.trans (busOp_grows _ _)
  ends {log} hn m := by
    have hlen : (busOp bus (.addrWrite addr) log).2.length = log.length + 1 := length_busOp _ _
    have hnod : (busOp bus (.addrWrite addr) log).2.any (isDataWrite v) = false := by
      rw [any_busOp_other fun _ => rfl, hn.dataWrite]
    unfold AhbWriteEnds atbmAhbWrite32
    dsimp only
    cases ha : (bus log.length).ok with
    | false =>
      rw [if_pos (show (busOp bus (.addrWrite addr) log).1.ret < 0 from BusRes.ok_eq_false.mp ha)]
      refine iff_of_false (fun h => Bool.noConfusion h.1) ?_
      rintro ⟨_, a, h, hd, -⟩
      cases h
      exact Bool.noConfusion (hnod.symm.trans hd.dataOk)
    | true =>
      rw [if_neg (show ¬(busOp bus (.addrWrite addr) log).1.ret < 0 from BusRes.ok_eq_true.mp ha)]
      have hd : (busOp bus (.dataWrite v) (busOp bus (.addrWrite addr) log).2).2.any (isDataWrite v) =
          (bus (log.length + 1)).ok := by
        rw [any_busOp, hnod, Bool.false_or, isDataWrite_self, hlen]
      have haa : (busOp bus (.dataWrite v) (busOp bus (.addrWrite addr) log).2).2.any (isAddr addr) = true := by
        rw [any_busOp_other fun _ => rfl, any_busOp, isAddr_self ha, Bool.or_true]
      have hl : (busOp bus (.dataWrite v) (busOp bus (.addrWrite addr) log).2).2.length = log.length + 2 := by
        rw [length_busOp, hlen]
      constructor
      · rintro ⟨-, hok, hm⟩
        exact ⟨0, _, rfl, ⟨haa, hd.trans hok⟩, hl.trans hm.symm⟩
      · rintro ⟨_, a, h, hdone, hm⟩
        cases h
        exact ⟨rfl, hd.symm.trans hdone.dataOk, hm.symm.trans hl⟩
  noAccess hn h := Bool.noConfusion ((hn.addr addr).symm.trans h.addrOk)
  restored := writeDone_congr

/-- The answers of the bus with which `atbm_ahb_write_unlock_32` is made from operation `n` on, ending
before `m`: rounds of the two writes up to the first whose data go through, by when the address
must have been written; `seen` when it was before. -/
inductive AhbWriteUnlockEnds (bus : Nat → BusRes) : Bool → Nat → Nat → Prop
  | last {seen : Bool} {n : Nat} :
      (attempt bus 3 (attempt bus 3 n).2).1 = true → (seen || (attempt bus 3 n).1) = true →
      AhbWriteUnlockEnds bus seen n (attempt bus 3 (attempt bus 3 n).2).2
  | again {seen : Bool} {n m : Nat} :
      (attempt bus 3 (attempt bus 3 n).2).1 = false →
      AhbWriteUnlockEnds bus (seen || (attempt bus 3 n).1) (attempt bus 3 (attempt bus 3 n).2).2 m →
      AhbWriteUnlockEnds bus seen n m

section
variable (bus : Nat → BusRes) (addr v : BitVec 32)

theorem ahbWriteUnlock_spec (log : RegLog) :
    let d := attempt bus 3 (attempt bus 3 log.length).2
    let w := atbmAhbWriteUnlock bus addr v log
    w.2.length = d.2 ∧ (w.1 = 0 ↔ d.1 = true) ∧ log <+: w.2 ∧
      w.2.any (isAddr addr) = (log.any (isAddr addr) || (attempt bus 3 log.length).1) ∧
      w.2.any (isDataWrite v) = (log.any (isDataWrite v) || d.1) := by
  have hlen : (retry (busOp bus (.addrWrite addr)) 3 log).2.length = (attempt bus 3 log.length).2 := retry_length _ 3 log
  have hok := @retry_ok bus (.dataWrite v) 3 (retry (busOp bus (.addrWrite addr)) 3 log).2
  rw [hlen] at hok
  refine ⟨?_, ?_, (retry_grows _ 3 log).trans (retry_grows _ 3 _), ?_, ?_⟩
  · show (retry (busOp bus (.dataWrite v)) 3 _).2.length = _
    rw [retry_length, hlen]
  · show (retry (busOp bus (.dataWrite v)) 3 _).1.ret = 0 ↔ _
    rw [← hok]
    constructor
    · intro h
      exact decide_eq_true (Int.le_of_eq h.symm)
    · exact BusRes.eq_zero
  · show (retry (busOp bus (.dataWrite v)) 3 _).2.any _ = _
    rw [any_retry_other (okOnly_isAddr addr) fun _ => rfl,
      any_retry_self (okOnly_isAddr addr) fun _ hr => isAddr_self hr]
  · show (retry (busOp bus (.dataWrite v)) 3 _).2.any _ = _
    rw [any_retry_self (okOnly_isDataWrite v) fun r hr => (isDataWrite_self v r).trans hr,
      any_retry_other (okOnly_isDataWrite v) fun _ => rfl, hlen]

theorem ahbWriteUnlock32_succ (fuel : Nat) (log : RegLog) :
    atbmAhbWriteUnlock32 bus addr v (fuel + 1) log =
      if (attempt bus 3 (attempt bus 3 log.length).2).1 = true then some (atbmAhbWriteUnlock bus addr v log)
      else atbmAhbWriteUnlock32 bus addr v fuel (atbmAhbWriteUnlock bus addr v log).2 := by
  obtain ⟨-, hret, -, -, -⟩ := ahbWriteUnlock_spec bus addr v log
  show (if (atbmAhbWriteUnlock bus addr v log).1 ≠ 0 then _ else _) = _
  by_cases h : (attempt bus 3 (attempt bus 3 log.length).2).1 = true
  · rw [if_neg (not_not_intro (hret.mpr h)), if_pos h]
  · rw [if_pos (fun h0 => h (hret.mp h0)), if_neg h]

theorem ahbWriteUnlock32_ends {log : RegLog} (hn : log.any (isDataWrite v) = false) (m : Nat) :
    AhbWriteUnlockEnds bus (log.any (isAddr addr)) log.length m ↔
      ∃ fuel a, atbmAhbWriteUnlock32 bus addr v fuel log = some a ∧ WriteDone addr v a.2 ∧ a.2.length = m := by
  constructor
  · intro h
    generalize hs : log.any (isAddr addr) = seen at h
    generalize hl : log.length = n at h
    induction h generalizing log with
    | last hd ha =>
      subst hs hl
      obtain ⟨hlen, -, -, haddr, hdata⟩ := ahbWriteUnlock_spec bus addr v log
      refine ⟨1, _, ?_, ⟨haddr.trans ha, ?_⟩, hlen⟩
      · rw [ahbWriteUnlock32_succ, if_pos hd]
      · rw [hdata, hd, Bool.or_true]
    | again hd _ ih =>
      subst hs hl
      obtain ⟨hlen, -, -, haddr, hdata⟩ := ahbWriteUnlock_spec bus addr v log
      obtain ⟨fuel, a, ha, hdone, hm⟩ := ih (by rw [hdata, hn, hd]; rfl) haddr hlen
      refine ⟨fuel + 1, a, ?_, hdone, hm⟩
      rw [ahbWriteUnlock32_succ, if_neg (by rw [hd]; exact Bool.false_ne_true)]
      exact ha
  · rintro ⟨fuel, a, ha, hdone, hm⟩
    induction fuel generalizing log with
    | zero => cases ha
    | succ fuel ih =>
      obtain ⟨hlen, -, -, haddr, hdata⟩ := ahbWriteUnlock_spec bus addr v log
      rw [ahbWriteUnlock32_succ] at ha
      by_cases hd : (attempt bus 3 (attempt bus 3 log.length).2).1 = true
      · rw [if_pos hd] at ha
        cases ha
        rw [← hm, hlen]
        exact .last hd (haddr.symm.trans hdone.addrOk)
      · rw [if_neg hd] at ha
        rw [Bool.not_eq_true] at hd
        have := ih (by rw [hdata, hn, hd]; rfl) ha
        rw [haddr, hlen] at this
        exact .again hd this

theorem ahbWriteUnlock32_access :
    AccessSpec (atbmAhbWriteUnlock32 bus addr v) (WriteDone addr v) (AhbWriteUnlockEnds bus false) where
  mono {fuel fuel' log a} hle h := by
    induction fuel generalizing fuel' log with
    | zero => cases h
    | succ fuel ih =>
      obtain ⟨n, rfl⟩ : ∃ n, fuel' = n + 1 := ⟨fuel' - 1, by omega⟩
      rw [ahbWriteUnlock32_succ] at h ⊢
      by_cases hd : (attempt bus 3 (attempt bus 3 log.length).2).1 = true
      · rw [if_pos hd] at h ⊢
        exact h
      · rw [if_neg hd] at h ⊢
        exact ih (by omega) h
  grows {fuel log a} h := by
    induction fuel generalizing log with
    | zero => cases h
    | succ fuel ih =>
      have hone := (ahbWriteUnlock_spec bus addr v log).2.2.1
      rw [ahbWriteUnlock32_succ] at h
      split at h
      · cases h
        exact hone
      · exact hone.trans (ih h)
  ends {log} hn m := by
    have := ahbWriteUnlock32_ends bus addr v (hn.dataWrite v) m
    rwa [hn.addr] at this
  noAccess hn h := Bool.noConfusion ((hn.addr addr).symm.trans h.addrOk)
  restored := writeDone_congr

end

inductive DirectOp
  | readReg (addr : BitVec 32)
  | writeReg (addr v : BitVec 32)
  | readUnlock (addr : BitVec 32)
  | writeUnlock (addr v : BitVec 32)
  deriving DecidableEq, Repr

def DirectOp.run (bus : Nat → BusRes) : DirectOp → Nat → RegLog → Option (Int × RegLog)
  | .readReg addr => atbmDirectReadReg32 bus addr
  | .writeReg addr v => atbmDirectWriteReg32 bus addr v
  | .readUnlock addr => atbmDirectReadUnlock bus addr
  | .writeUnlock addr v => atbmDirectWriteUnlock bus addr v

def DirectOp.Done : DirectOp → RegLog → Prop
  | .readReg addr => ReadDone addr ahbPfetchBit ahbDport
  | .writeReg addr v => WriteDone addr v
  | .readUnlock addr => ReadDone addr ahbPfetchBit ahbDport
  | .writeUnlock addr v => WriteDone addr v

def DirectOp.retries : DirectOp → Nat
  | .readReg _ => 0
  | .writeReg _ _ => 0
  | .readUnlock _ => 3
  | .writeUnlock _ _ => 3

/-- The answers of the bus with which the access is made. -/
def AccessEnds (bus : Nat → BusRes) : DirectOp → Nat → Nat → Prop
  | .readReg _ => IndirectReadEnds bus ahbPfetchBit
  | .writeReg _ _ => AhbWriteEnds bus
  | .readUnlock _ => IndirectReadUnlockEnds bus ahbPfetchBit
  | .writeUnlock _ _ => AhbWriteUnlockEnds bus false

theorem cfgVia_zero (bus : Nat → BusRes) : cfgVia bus 0 = busOp bus := rfl

/-- **Direct register access.**  For every stream of answers, each of the four functions ends and
returns a value that is not negative only after the access and with the register restored,
exactly under `DirectSound`; and the unlocked indirect read does only when all its steps
went well, exactly under `IndirectSound`. -/
theorem directRegister_truth_iff (bus : Nat → BusRes) :
    (∀ op : DirectOp, DirectTruth (op.run bus) op.Done ↔ DirectSound bus op.retries (AccessEnds bus op)) ∧
      ∀ addr prefetch len aligned port,
        (0 ≤ (atbmIndirectReadUnlock bus addr len aligned prefetch port []).1 →
            ReadDone addr prefetch port (atbmIndirectReadUnlock bus addr len aligned prefetch port []).2) ↔
          IndirectSound bus len aligned prefetch 0 := by
  constructor
  · intro op
    cases op with
    | readReg addr =>
      have h := @directAccess_truth_iff bus 0 _ _ _ (indirectRead_access bus addr ahbPfetchBit ahbDport)
      rw [cfgVia_zero] at h
      exact h
    | writeReg addr v =>
      have h := @directAccess_truth_iff bus 0 _ _ _ (ahbWrite32_access bus addr v)
      rw [cfgVia_zero] at h
      exact h
    | readUnlock addr => exact directAccess_truth_iff (indirectReadUnlock_access bus addr ahbPfetchBit ahbDport)
    | writeUnlock addr v => exact directAccess_truth_iff (ahbWriteUnlock32_access bus addr v)
  · intro addr prefetch len aligned port
    exact indirectReadUnlock_truth_iff bus addr prefetch len aligned port .nil

def addrFails : Nat → BusRes := fun n => if n = 2 then ⟨-5, by decide, 0⟩ else ⟨0, by decide, 0⟩

/-- A read whose address was never written is reported as done. -/
theorem directReadReg32_lie : ¬DirectTruth ((DirectOp.readReg 0x16100000).run addrFails) (DirectOp.readReg 0x16100000).Done := by
  rintro ⟨-, h⟩
  obtain ⟨hdone, -⟩ := h 1 _ rfl (by decide)
  exact absurd hdone.addrOk (by decide)

end AtbmWifi
