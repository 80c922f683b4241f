import AtbmWifi.Mac80211.Minstrel

/-!
# The rates that minstrel selects

`minstrel_update_stats` adds 2 to `max_tp_rate` while `table_flag` is set, whatever the number of rates.
-/

namespace AtbmWifi.Minstrel

open Transition

/-- The measured indices are those of rates of the station. -/
structure Sound (mi : Sta) : Prop where
  tp : mi.maxTpRate < mi.nRates
  tp2 : mi.maxTpRate2 < mi.nRates
  prob : mi.maxProbRate < mi.nRates

/-- An entry that was set has a rate of the station and a count. -/
def TxRateOk (b : Sband) (r : TxRate) : Prop := r = ⟨-1, 1, 0⟩ ∨ (∃ i ∈ b.rates, r.idx = i) ∧ 0 < r.count

/-- What is wanted of a frame: no index beyond the rates is used, and `BUG_ON` does not strike. -/
structure TxControlOk (b : Sband) (n : Nat) (c : TxControl) : Prop where
  used : ∀ i ∈ c.used, i < n
  rates : ∀ r ∈ c.rates, TxRateOk b r
  bug : ∀ r ∈ c.rates.head?, 0 ≤ r.idx

def StepSound (hw : Hw) (b : Sband) (s : Run) : Act → Prop
  | .send f => TxControlOk b s.mi.nRates (rateControlGetRate hw b f s.mi).1
  | _ => True

/-- An update that does not move the fourth of five rates up the table -/
def Sta.UpdateOk (mi : Sta) : Prop :=
  ¬(mi.nRates = 5 ∧ mi.tableFlag = 1 ∧ (mi.eachRate fun mr => mr.measure.adjust).bestTp = 3)

/-- A frame for the lowest rate finds one, and an update that is due is in order. -/
def StepOk (hw : Hw) (b : Sband) (s : Run) : Act → Prop
  | .send f =>
    if f.noDataOrNoAckUseMin then b.ghz5 = false → f.noCck = true → (∃ i ∈ b.rates, b.nonCck i = true) ∨ 0 ∈ b.rates
    else timeAfter f.jiffies (s.mi.statsUpdate + updateInterval * hw.hz / 1000) = true → s.mi.UpdateOk
  | _ => True

structure RateOk (b : Sband) (mr : Rate) : Prop where
  rix : ∃ i ∈ b.rates, mr.rix = i
  retry : 1 ≤ mr.retryCount ∧ mr.retryCount ≤ 255
  adjusted : 1 ≤ mr.adjustedRetryCount ∧ mr.adjustedRetryCount ≤ 255

structure Inv (b : Sband) (mi : Sta) : Prop where
  pos : 0 < mi.nRates
  rates : ∀ i < mi.nRates, ∃ mr, mi.r[i]? = some mr ∧ RateOk b mr
  lowest : mi.lowestRix ∈ b.rates
  table : mi.tableFlag = 1 → 5 ≤ mi.nRates
  samples : ∀ idx col, mi.sampleTable idx col < mi.nRates

variable {hw : Hw} {b : Sband} {mi : Sta}

theorem argmax_lt (value : Nat → UInt32) (skip : Option Nat) {n : Nat} (hn : 0 < n) : argmax value skip n < n := by
  unfold argmax
  have hfold : ∀ (l : List Nat) (best : UInt32 × Nat), (∀ i ∈ l, i < n) → best.2 < n →
      (l.foldl (fun (best : UInt32 × Nat) i =>
        if skip ≠ some i ∧ best.1 < value i then (value i, i) else best) best).2 < n := by
    intro l
    induction l with
    | nil => exact fun _ _ h => h
    | cons i l ih =>
      intro best hl hbest
      refine ih _ (fun j hj => hl j (List.mem_cons_of_mem _ hj)) ?_
      dsimp only
      split
      · exact hl i List.mem_cons_self
      · exact hbest
  exact hfold _ _ (fun i hi => List.mem_range.mp hi) hn

theorem selectRates_lt (table : Bool) {tp tp2 prob n : Nat} (htp : tp < n) (htp2 : tp2 < n) (hprob : prob < n)
    (htable : table = true → 5 ≤ n) (hok : ¬(n = 5 ∧ table = true ∧ tp = 3)) :
    (selectRates table tp tp2 prob).1 < n ∧ (selectRates table tp tp2 prob).2.1 < n ∧
      (selectRates table tp tp2 prob).2.2 < n := by
  unfold selectRates
  dsimp only
  have htop : (if tp ≤ 3 ∧ table = true then max (tp + 2) 4 else tp) < n := by
    split
    · next h =>
      have h5 := htable h.2
      have hne : ¬(n = 5 ∧ tp = 3) := fun h' => hok ⟨h'.1, h.2, h'.2⟩
      omega
    · exact htp
  generalize (if tp ≤ 3 ∧ table = true then max (tp + 2) 4 else tp) = top at htop ⊢
  have hsecond : (if tp2 ≤ 3 ∧ table = true then if 5 < top then max 4 (min tp2 (top - 1)) else 4
      else if 2 < top then min (max tp2 2) (top - 1) else if 1 ≤ top then max top tp2 else tp2) < n := by
    split
    · next h =>
      have h5 := htable h.2
      split <;> omega
    · split
      · omega
      · split <;> omega
  generalize (if tp2 ≤ 3 ∧ table = true then if 5 < top then max 4 (min tp2 (top - 1)) else 4
      else if 2 < top then min (max tp2 2) (top - 1) else if 1 ≤ top then max top tp2 else tp2) = second at hsecond ⊢
  refine ⟨htop, hsecond, ?_⟩
  split
  · next h =>
    have h5 := htable h.2
    split <;> omega
  · split
    · omega
    · split <;> omega

def Sta.picks (mi : Sta) : Nat × Nat × Nat × Nat := (mi.nRates, mi.maxTpRate, mi.maxTpRate2, mi.maxProbRate)

theorem Sound.of_picks {mi' : Sta} (h : Sound mi) (hp : mi'.picks = mi.picks) : Sound mi' := by
  unfold Sta.picks at hp
  rw [Prod.mk.injEq, Prod.mk.injEq, Prod.mk.injEq] at hp
  obtain ⟨hn, h1, h2, h3⟩ := hp
  exact ⟨by rw [h1, hn]; exact h.tp, by rw [h2, hn]; exact h.tp2, by rw [h3, hn]; exact h.prob⟩

theorem Inv.setR {r : List Rate} (h : Inv b mi) (hr : ∀ i < mi.nRates, ∃ mr, r[i]? = some mr ∧ RateOk b mr) :
    Inv b { mi with r := r } :=
  { h with rates := hr }

theorem Inv.rate {i : Nat} (h : Inv b mi) (hi : i < mi.nRates) : RateOk b (mi.rate i) := by
  obtain ⟨mr, hmr, hok⟩ := h.rates i hi
  unfold Sta.rate
  rw [hmr]
  exact hok

theorem Inv.eachRate {f : Rate → Rate} (h : Inv b mi) (hf : ∀ mr, RateOk b mr → RateOk b (f mr)) :
    Inv b (mi.eachRate f) := by
  apply h.setR
  intro i hi
  obtain ⟨mr, hmr, hok⟩ := h.rates i hi
  refine ⟨f mr, ?_, hf mr hok⟩
  rw [List.getElem?_mapIdx, hmr, Option.map_some, if_pos hi]

theorem Inv.modify {k : Nat} {f : Rate → Rate} (h : Inv b mi) (hf : ∀ mr, RateOk b mr → RateOk b (f mr)) :
    Inv b { mi with r := mi.r.modify k f } := by
  apply h.setR
  intro i hi
  obtain ⟨mr, hmr, hok⟩ := h.rates i hi
  rw [List.getElem?_modify, hmr]
  refine ⟨_, rfl, ?_⟩
  dsimp only
  split
  · exact hf mr hok
  · exact hok

theorem measure_ok {mr : Rate} (h : RateOk b mr) : RateOk b mr.measure.adjust := by
  have hm : mr.measure.rix = mr.rix ∧ mr.measure.retryCount = mr.retryCount := by
    unfold Rate.measure
    dsimp only
    split
    · exact ⟨rfl, rfl⟩
    · exact ⟨rfl, rfl⟩
  have hretry := h.retry
  refine ⟨?_, ?_, ?_⟩
  · show ∃ i ∈ b.rates, mr.measure.rix = i
    rw [hm.1]
    exact h.rix
  · show 1 ≤ mr.measure.retryCount ∧ mr.measure.retryCount ≤ 255
    rw [hm.2]
    exact hretry
  · have hle : mr.measure.retries ≤ 255 := by
      unfold Rate.retries
      rw [hm.2]
      split
      · omega
      · split <;> omega
    show 1 ≤ (if mr.measure.retries = 0 then 2 else mr.measure.retries) ∧
      (if mr.measure.retries = 0 then 2 else mr.measure.retries) ≤ 255
    split <;> omega

theorem Inv.updateStats (h : Inv b mi) (j : UInt64) : Inv b (mi.updateStats j) :=
  { h.eachRate fun _ => measure_ok with }

theorem updateStats_sound (h : Inv b mi) (hok : mi.UpdateOk) (j : UInt64) : Sound (mi.updateStats j) := by
  have hpos : 0 < (mi.eachRate fun mr => mr.measure.adjust).nRates := h.pos
  obtain ⟨htp, htp2, hprob⟩ := selectRates_lt (mi.tableFlag == 1) (argmax_lt _ none hpos)
    (argmax_lt (fun i => ((mi.eachRate fun mr => mr.measure.adjust).rate i).curTp)
      (some (mi.eachRate fun mr => mr.measure.adjust).bestTp) hpos)
    (argmax_lt (fun i => ((mi.eachRate fun mr => mr.measure.adjust).rate i).probability) none hpos)
    (fun ht => h.table (beq_iff_eq.mp ht)) fun hbad => hok ⟨hbad.1, beq_iff_eq.mp hbad.2.1, hbad.2.2⟩
  exact ⟨htp, htp2, hprob⟩

theorem updateStats_maxTpRate (mi : Sta) (j : UInt64) : (mi.updateStats j).maxTpRate =
    if (mi.eachRate fun mr => mr.measure.adjust).bestTp ≤ 3 ∧ (mi.tableFlag == 1) = true then
      max ((mi.eachRate fun mr => mr.measure.adjust).bestTp + 2) 4
    else (mi.eachRate fun mr => mr.measure.adjust).bestTp :=
  rfl

theorem updateOk_of_sound {j : UInt64} (h : Sound (mi.updateStats j)) : mi.UpdateOk := by
  rintro ⟨hn, ht, hbest⟩
  have htp : (mi.updateStats j).maxTpRate < mi.nRates := h.tp
  rw [updateStats_maxTpRate, hbest, ht, hn] at htp
  exact absurd htp (by decide)

theorem calibrateLoop_flag {l : List Nat} {t : Int × Int} {c : Bool × Int × Int} (h : calibrateLoop mi l t = c) :
    (c.1 = true → l ≠ []) ∧ (c.2.1 = 1 → t.1 = 1) := by
  induction l generalizing t with
  | nil =>
    subst h
    exact ⟨nofun, id⟩
  | cons i l ih =>
    unfold calibrateLoop at h
    dsimp only at h
    split at h
    · split at h
      · subst h
        exact ⟨fun _ => List.cons_ne_nil _ _, id⟩
      · have := (ih h).2
        refine ⟨fun _ => List.cons_ne_nil _ _, fun h1 => absurd (this h1) (by decide)⟩
    · exact ⟨fun _ => List.cons_ne_nil _ _, (ih h).2⟩

theorem Inv.calibrate (h : Inv b mi) : Inv b mi.calibrateRatePolicy := by
  unfold Sta.calibrateRatePolicy
  obtain ⟨hbreak, hflag⟩ := calibrateLoop_flag
    (c := calibrateLoop mi (List.range' 4 (mi.nRates - 4)) (mi.tableFlag, mi.tableCount)) rfl
  split
  · exact { h with table := fun ht => absurd (show (0 : Int) = 1 from ht) (by decide) }
  · dsimp only
    split
    · next hc =>
      refine { h with table := fun _ => ?_ }
      have hne := hbreak hc
      rw [Ne, List.range'_eq_nil_iff] at hne
      show 5 ≤ mi.nRates
      omega
    · split
      · exact { h with table := fun ht => absurd (show (0 : Int) = 1 from ht) (by decide) }
      · exact { h with table := fun ht => h.table (hflag ht) }

theorem calibrate_picks (mi : Sta) : mi.averageRssi.calibrateRatePolicy.picks = mi.picks := by
  have havg : mi.averageRssi.picks = mi.picks := by
    unfold Sta.averageRssi
    split <;> rfl
  unfold Sta.calibrateRatePolicy
  split
  · exact havg
  · dsimp only
    split
    · exact havg
    · split <;> exact havg

theorem Inv.averageRssi (h : Inv b mi) : Inv b mi.averageRssi := by
  unfold Sta.averageRssi
  split
  · exact h
  · exact { h with }

theorem perS_spec (h : Inv b mi) (j : UInt64) : Inv b (mi.updateStatsPerS j) ∧ (mi.updateStatsPerS j).picks = mi.picks := by
  have hprob := h.eachRate (f := Rate.successProb) fun mr hm => ⟨hm.rix, hm.retry, hm.adjusted⟩
  have hcleared := hprob.averageRssi.calibrate.eachRate (f := fun mr => { mr with succHist1 := 0, attHist1 := 0 })
    fun mr hm => ⟨hm.rix, hm.retry, hm.adjusted⟩
  exact ⟨{ hcleared with }, calibrate_picks (mi.eachRate Rate.successProb)⟩

variable (hw) in
theorem refresh_inv (h : Inv b mi) (j : UInt64) : Inv b (mi.refresh hw j) := by
  unfold Sta.refresh
  dsimp only
  split
  · have := h.updateStats j
    split
    · exact { (perS_spec this j).1 with }
    · exact this
  · split
    · exact { (perS_spec h j).1 with }
    · exact h

variable (hw) in
theorem refresh_picks (h : Inv b mi) (j : UInt64) : (mi.refresh hw j).picks =
    if timeAfter j (mi.statsUpdate + updateInterval * hw.hz / 1000) = true then (mi.updateStats j).picks else mi.picks := by
  unfold Sta.refresh
  dsimp only
  split
  · split
    · exact (perS_spec (h.updateStats j) j).2
    · rfl
  · split
    · exact (perS_spec h j).2
    · rfl

/-- What is sampled, with the station afterwards -/
structure SamplingOk (b : Sband) (mi : Sta) (p : Bool × Sampling × Sta) : Prop where
  inv : Inv b p.2.2
  picks : p.2.2.picks = mi.picks
  ndx : mi.maxTpRate < mi.nRates → p.2.1.ndx < mi.nRates
  sample : p.1 = true ∨ p.2.1.slower = true → p.2.1.sampleNdx < mi.nRates

theorem sampling_spec (h : Inv b mi) (mrr : Bool) : SamplingOk b mi (mi.sampling mrr) := by
  have htry : ∀ {mi' : Sta} {k : Nat}, Inv b mi' → mi'.picks = mi.picks → k < mi.nRates →
      SamplingOk b mi (true, mi'.trySample mrr k) := by
    intro mi' k hI hp hk
    have htp : mi.maxTpRate < mi.nRates → mi'.maxTpRate < mi.nRates := fun hlt =>
      (show mi'.maxTpRate = mi.maxTpRate from congrArg (·.2.1) hp) ▸ hlt
    unfold Sta.trySample
    dsimp only
    split
    · exact ⟨{ hI with }, hp, htp, fun _ => hk⟩
    · split
      · exact ⟨{ hI with }, hp, htp, fun _ => hk⟩
      · split
        · exact ⟨{ hI with }, hp, fun _ => hk, fun _ => hk⟩
        · split
          · have hmod := hI.modify (k := k)
              (f := fun mr => { mr with sampleLimit := if 0 < mr.sampleLimit then mr.sampleLimit - 1 else mr.sampleLimit })
              fun mr hm => ⟨hm.rix, hm.retry, hm.adjusted⟩
            exact ⟨{ hmod with }, hp, fun _ => hk, fun _ => hk⟩
          · exact ⟨hI, hp, htp, fun _ => hk⟩
  have hbacklog : ∀ {mi' : Sta} (delta : Int), Inv b mi' ∧ mi'.picks = mi.picks →
      Inv b (mi'.backlog delta) ∧ (mi'.backlog delta).picks = mi.picks := by
    intro mi' delta h'
    unfold Sta.backlog
    split
    · exact ⟨{ h'.1 with }, h'.2⟩
    · split
      · exact ⟨{ h'.1 with }, h'.2⟩
      · exact h'
  have hnext : ∀ {mi' : Sta}, Inv b mi' ∧ mi'.picks = mi.picks →
      mi'.getNextSample.1 < mi.nRates ∧ Inv b mi'.getNextSample.2 ∧ mi'.getNextSample.2.picks = mi.picks := by
    intro mi' h'
    have hlt := h'.1.samples mi'.sampleIdx mi'.sampleColumn
    rw [show mi'.nRates = mi.nRates from congrArg (·.1) h'.2] at hlt
    unfold Sta.getNextSample
    dsimp only
    split
    · exact ⟨hlt, { h'.1 with }, h'.2⟩
    · exact ⟨hlt, { h'.1 with }, h'.2⟩
  have hcount : Inv b { mi with packetCount := mi.packetCount + 1 } := { h with }
  unfold Sta.sampling
  dsimp only
  split
  · obtain ⟨hlt, hinv, hpicks⟩ := hnext (hbacklog _ ⟨hcount, rfl⟩)
    exact htry hinv hpicks hlt
  · exact ⟨hcount, rfl, id, fun h' => by simp at h'⟩

theorem mem_setRate {ar : List TxRate} {i : Nat} {idx : Int} {count : UInt8} (h : ∀ r ∈ ar, TxRateOk b r)
    (hidx : ∃ i ∈ b.rates, idx = i) (hc : 0 < count) : ∀ r ∈ setRate ar i idx count, TxRateOk b r := by
  intro r hr
  obtain ⟨j, hj⟩ := List.mem_iff_getElem?.mp hr
  unfold setRate at hj
  rw [List.getElem?_modify] at hj
  obtain ⟨r', hr', rfl⟩ := Option.map_eq_some_iff.mp hj
  split
  · exact .inr ⟨hidx, hc⟩
  · exact h r' (List.mem_iff_getElem?.mpr ⟨j, hr'⟩)

theorem blank_ok : ∀ r ∈ TxControl.blank.rates, TxRateOk b r := fun _ hr => .inl (List.eq_of_mem_replicate hr)

theorem ofNat_pos {k : Nat} (h : 1 ≤ k ∧ k ≤ 255) : 0 < UInt8.ofNat k := by
  rw [UInt8.lt_iff_toNat_lt, UInt8.toNat_ofNat_of_lt' (show k < 256 by omega)]
  exact h.1

theorem firstCount_pos {s : Sampling} {ndx : Nat} (h : RateOk b (mi.rate ndx)) (flags : UInt8) :
    0 < mi.firstCount s ndx flags := by
  have hretry : 1 ≤ (mi.rate ndx).getRetryCount flags ∧ (mi.rate ndx).getRetryCount flags ≤ 255 := by
    have := h.adjusted
    unfold Rate.getRetryCount
    split
    · omega
    · split <;> omega
  have hmax : ∀ k : UInt8, 0 < k → 0 < max k (UInt8.ofNat ((mi.rate ndx).getRetryCount flags)) := by
    intro k hk
    show 0 < if k ≤ _ then _ else _
    split
    · exact ofNat_pos hretry
    · exact hk
  unfold Sta.firstCount
  dsimp only
  split
  · decide
  · split
    · exact hmax 4 (by decide)
    · split
      · exact hmax 6 (by decide)
      · exact ofNat_pos hretry

theorem setRates_ok (h : Inv b mi) (hs : Sound mi) {s : Sampling} {mrr due : Bool} (hndx : s.ndx < mi.nRates)
    (hsample : due = true ∨ s.slower = true → s.sampleNdx < mi.nRates) :
    TxControlOk b mi.nRates (mi.setRates hw mrr due s .blank) := by
  have hmrr : ∀ i ∈ mi.mrrNdx s, i < mi.nRates := by
    have hsecond : (if s.sample then if s.slower then s.sampleNdx else mi.maxTpRate else mi.maxTpRate2) < mi.nRates := by
      split
      · split
        · next hslow => exact hsample (.inr hslow)
        · exact hs.tp
      · exact hs.tp2
    have hlast : (if mi.tableFlag = 1 then 4 else 0) < mi.nRates := by
      split
      · next ht => exact h.table ht
      · exact h.pos
    exact List.forall_mem_cons.mpr ⟨hsecond, List.forall_mem_cons.mpr ⟨hs.prob, List.forall_mem_singleton.mpr hlast⟩⟩
  have hfirst : ∀ {ndx : Nat}, ndx < mi.nRates → ∀ i ∈ (if due = true then [s.sampleNdx, mi.maxTpRate] else []) ++
      [s.ndx, ndx, 0], i < mi.nRates := by
    intro ndx hlt
    refine List.forall_mem_append.mpr ⟨?_, List.forall_mem_cons.mpr ⟨hndx, List.forall_mem_cons.mpr ⟨hlt,
      List.forall_mem_singleton.mpr h.pos⟩⟩⟩
    split
    · next hdue => exact List.forall_mem_cons.mpr ⟨hsample (.inl hdue), List.forall_mem_singleton.mpr hs.tp⟩
    · exact nofun
  have hlt : (if (!mrr && s.sample && 17100 < (mi.rate s.ndx).probability) = true then mi.maxTpRate else s.ndx) < mi.nRates := by
    split
    · exact hs.tp
    · exact hndx
  unfold Sta.setRates
  dsimp only
  generalize (if (!mrr && s.sample && 17100 < (mi.rate s.ndx).probability) = true then mi.maxTpRate else s.ndx) = ndx at hlt ⊢
  have hrate := h.rate hlt
  have hnonneg : 0 ≤ (mi.rate ndx).rix := by
    obtain ⟨i, -, hi⟩ := hrate.rix
    rw [hi]
    exact Int.natCast_nonneg i
  have htries : 0 < hw.maxRateTries := hw.tries_pos
  cases mrr with
  | true =>
    refine ⟨fun i hi => ?_, ?_, fun r hr => ?_⟩
    · rcases List.mem_append.mp hi with hi | hi
      · exact hfirst hlt i hi
      · exact hmrr i hi
    · have hrest : ∀ (l : List (Nat × Nat)) (ar : List TxRate), (∀ p ∈ l, p.1 < mi.nRates) → (∀ r ∈ ar, TxRateOk b r) →
          ∀ r ∈ l.foldl (fun ar p => setRate ar p.2 (mi.rate p.1).rix (.ofNat (mi.rate p.1).adjustedRetryCount)) ar,
            TxRateOk b r := by
        intro l
        induction l with
        | nil => exact fun _ _ har => har
        | cons p l ih =>
          intro ar hl har
          have hp := h.rate (hl p List.mem_cons_self)
          exact ih _ (fun q hq => hl q (List.mem_cons_of_mem _ hq)) (mem_setRate har hp.rix (ofNat_pos hp.adjusted))
      refine hrest _ _ (fun p hp => hmrr p.1 ?_) (mem_setRate blank_ok hrate.rix (firstCount_pos hrate _))
      exact (List.mem_zipIdx hp).2.2 ▸ List.getElem_mem _
    · cases hr
      exact hnonneg
  | false =>
    refine ⟨hfirst hlt, ?_, fun r hr => ?_⟩
    · refine mem_setRate (mem_setRate blank_ok hrate.rix ?_) ⟨_, h.lowest, rfl⟩ htries
      split
      · exact firstCount_pos hrate _
      · exact htries
    · cases hr
      exact hnonneg

theorem sendLow_none {f : TxFrame} {c : TxControl} : sendLow hw b f c = none ↔ f.noDataOrNoAckUseMin = false := by
  unfold sendLow
  split <;> simp_all

theorem sendLow_blank {f : TxFrame} {c : TxControl} (h : sendLow hw b f .blank = some c) :
    ∃ count, 0 < count ∧ c = { TxControl.blank with
      rates := ⟨(if b.ghz5 || !f.noCck then b.lowestIndex else b.lowestNonCck : Nat), count, 0⟩ ::
        List.replicate 4 ⟨-1, 1, 0⟩ } := by
  unfold sendLow at h
  split at h
  · cases h
    refine ⟨if f.noAck then 1 else hw.maxRateTries, ?_, rfl⟩
    split
    · decide
    · exact hw.tries_pos
  · cases h

theorem lowestIndex_mem (hb : b.rates ≠ []) : b.lowestIndex ∈ b.rates := by
  unfold Sband.lowestIndex
  cases h : b.rates with
  | nil => exact absurd h hb
  | cons i l => exact List.mem_cons_self

theorem lowestNonCck_mem : b.lowestNonCck ∈ b.rates ↔ (∃ i ∈ b.rates, b.nonCck i = true) ∨ 0 ∈ b.rates := by
  unfold Sband.lowestNonCck
  cases h : b.rates.find? b.nonCck with
  | none =>
    rw [List.find?_eq_none] at h
    exact ⟨.inr, fun h' => h'.resolve_left fun ⟨i, hi, hc⟩ => h i hi hc⟩
  | some i =>
    have hi := List.mem_of_find?_eq_some h
    exact ⟨fun _ => .inl ⟨i, hi, List.find?_some h⟩, fun _ => hi⟩

/-- The lowest rate is one of the station, but where CCK rates are excluded and neither another nor the first is. -/
theorem low_mem (hb : b.rates ≠ []) (noCck : Bool) :
    (if b.ghz5 || !noCck then b.lowestIndex else b.lowestNonCck) ∈ b.rates ↔
      (b.ghz5 = false → noCck = true → (∃ i ∈ b.rates, b.nonCck i = true) ∨ 0 ∈ b.rates) := by
  rw [← lowestNonCck_mem]
  cases b.ghz5 <;> cases noCck <;> simp [lowestIndex_mem hb]

theorem low_ok {i : Nat} {count : UInt8} (hpos : 0 < count) (hi : i ∈ b.rates) (n : Nat) :
    TxControlOk b n { TxControl.blank with rates := ⟨i, count, 0⟩ :: List.replicate 4 ⟨-1, 1, 0⟩ } := by
  refine ⟨nofun, fun r hr => ?_, fun r hr => ?_⟩
  · rcases List.mem_cons.mp hr with rfl | hr
    · exact .inr ⟨⟨i, hi, rfl⟩, hpos⟩
    · exact .inl (List.eq_of_mem_replicate hr)
  · cases hr
    exact Int.natCast_nonneg i

theorem picks_nRates {mi' : Sta} (h : mi'.picks = mi.picks) : mi'.nRates = mi.nRates := congrArg (·.1) h

theorem refresh_sound (h : Inv b mi) (hs : Sound mi) {j : UInt64}
    (hok : timeAfter j (mi.statsUpdate + updateInterval * hw.hz / 1000) = true → mi.UpdateOk) :
    Sound (mi.refresh hw j) ∧ (mi.refresh hw j).nRates = mi.nRates := by
  have hp := refresh_picks hw h j
  split at hp
  · next hdue =>
    have hn : (mi.updateStats j).nRates = mi.nRates := rfl
    exact ⟨(updateStats_sound h (hok hdue) j).of_picks hp, (picks_nRates hp).trans hn⟩
  · exact ⟨hs.of_picks hp, picks_nRates hp⟩

theorem send_keeps (hb : b.rates ≠ []) (h : Inv b mi) (hs : Sound mi) {f : TxFrame} {frames : List TxControl}
    (hok : StepOk hw b ⟨mi, frames⟩ (.send f)) :
    Inv b (rateControlGetRate hw b f mi).2 ∧ Sound (rateControlGetRate hw b f mi).2 ∧
      TxControlOk b mi.nRates (rateControlGetRate hw b f mi).1 := by
  unfold StepOk at hok
  dsimp only at hok
  unfold rateControlGetRate getRate
  cases hlow : sendLow hw b f .blank with
  | some c =>
    have hmin : f.noDataOrNoAckUseMin = true := by
      cases hm : f.noDataOrNoAckUseMin with
      | true => rfl
      | false => cases (sendLow_none.mpr hm).symm.trans hlow
    rw [if_pos hmin] at hok
    obtain ⟨count, hpos, rfl⟩ := sendLow_blank hlow
    exact ⟨h, hs, low_ok hpos ((low_mem hb f.noCck).mpr hok) mi.nRates⟩
  | none =>
    rw [if_neg (by rw [sendLow_none.mp hlow]; decide)] at hok
    obtain ⟨hsound, hn⟩ := refresh_sound h hs hok
    have hinv := refresh_inv hw h f.jiffies
    have hsam := sampling_spec hinv (hw.hasMrr && !f.rts && !f.useCtsProt)
    have hs' := hsound.of_picks hsam.picks
    have hn' := picks_nRates hsam.picks
    refine ⟨{ hsam.inv with }, ⟨hs'.tp, hs'.tp2, hs'.prob⟩, ?_⟩
    rw [← hn, ← hn']
    exact setRates_ok hsam.inv hs' (hn' ▸ hsam.ndx hsound.tp) fun h' => hn' ▸ hsam.sample h'

theorem send_loses (hb : b.rates ≠ []) (h : Inv b mi) {f : TxFrame} {frames : List TxControl}
    (hs' : Sound (rateControlGetRate hw b f mi).2) (hc : TxControlOk b mi.nRates (rateControlGetRate hw b f mi).1) :
    StepOk hw b ⟨mi, frames⟩ (.send f) := by
  unfold rateControlGetRate getRate at hs' hc
  unfold StepOk
  dsimp only
  cases hlow : sendLow hw b f .blank with
  | some c =>
    rw [hlow] at hc
    obtain ⟨count, -, rfl⟩ := sendLow_blank hlow
    split
    · refine (low_mem hb f.noCck).mp ?_
      rcases hc.rates _ List.mem_cons_self with hblank | ⟨⟨i, hi, hidx⟩, -⟩
      · have := congrArg TxRate.idx hblank
        dsimp only at this
        omega
      · rwa [Int.natCast_inj.mp hidx]
    · next hmin => cases hlow.symm.trans (sendLow_none.mpr (Bool.eq_false_iff.mpr hmin))
  | none =>
    rw [hlow] at hs'
    rw [if_neg (by rw [sendLow_none.mp hlow]; decide)]
    intro hdue
    have hp := (sampling_spec (refresh_inv hw h f.jiffies) (hw.hasMrr && !f.rts && !f.useCtsProt)).picks
    have hr := refresh_picks hw h f.jiffies
    rw [if_pos hdue] at hr
    have hsound : Sound ((mi.refresh hw f.jiffies).sampling (hw.hasMrr && !f.rts && !f.useCtsProt)).2.2 :=
      ⟨hs'.tp, hs'.tp2, hs'.prob⟩
    exact updateOk_of_sound (hsound.of_picks (hp.trans hr).symm)

theorem status_keeps (h : Inv b mi) (ack probe : Bool) (rates : List (Nat × UInt8)) :
    Inv b (mi.txStatus ack probe rates) ∧ (mi.txStatus ack probe rates).picks = mi.picks := by
  have hreport : ∀ (rix : Nat) (count : UInt8) (success : Bool) {mi' : Sta}, Inv b mi' →
      Inv b (mi'.report rix count success) ∧ (mi'.report rix count success).picks = mi'.picks := by
    intro rix count success mi' h'
    unfold Sta.report
    split
    · exact ⟨h', rfl⟩
    · exact ⟨h'.modify fun mr hm => ⟨hm.rix, hm.retry, hm.adjusted⟩, rfl⟩
  have hreports : ∀ (l : List (Nat × UInt8)) (i : Nat) {mi' : Sta}, Inv b mi' →
      Inv b (Sta.reports ack i l mi') ∧ (Sta.reports ack i l mi').picks = mi'.picks := by
    intro l
    induction l with
    | nil => exact fun _ _ h' => ⟨h', rfl⟩
    | cons p l ih =>
      intro i mi' h'
      obtain ⟨hinv, hp⟩ := hreport p.1 p.2 (ack && i != txMaxRates - 1 && l.isEmpty) h'
      obtain ⟨hinv', hp'⟩ := ih (i + 1) hinv
      exact ⟨hinv', hp'.trans hp⟩
  obtain ⟨hinv, hp⟩ := hreports rates 0 h
  exact ⟨{ hinv with }, hp⟩

theorem retryLoop_le {frame ack sp left : Nat} {s : RetryLoop} (h : 1 ≤ s.retryCount ∧ s.retryCount ≤ 254) :
    1 ≤ (retryLoop hw frame ack sp left s).retryCount ∧ (retryLoop hw frame ack sp left s).retryCount ≤ 255 := by
  induction left generalizing s with
  | zero =>
    show 1 ≤ s.retryCount ∧ s.retryCount ≤ 255
    omega
  | succ left ih =>
    have hbody : (s.body hw frame ack sp).retryCount = s.retryCount := rfl
    have hmax : hw.maxRetry < 256 := hw.maxRateTries.toNat_lt
    unfold retryLoop
    dsimp only
    split
    · split
      · next hlt =>
        apply ih
        dsimp only at hlt ⊢
        omega
      · dsimp only
        omega
    · omega

theorem initRate_ok {sp i : Nat} (hi : i ∈ b.rates) : RateOk b (initRate hw b sp i) := by
  have hone : 1 ≤ 1 ∧ 1 ≤ 254 := by decide
  exact ⟨⟨i, hi, rfl⟩, retryLoop_le hone, retryLoop_le hone⟩

theorem sampleColumn_le (n : Nat) (rnd : Nat → UInt8) (x : Nat) : sampleColumn n rnd x ≤ n := by
  unfold sampleColumn
  have hfold : ∀ (l : List Nat) (col : Nat → Nat), (∀ i ∈ l, i < n) → (∀ x, col x ≤ n) → ∀ x,
      l.foldl (fun col i =>
        let start := (i + (rnd i).toNat) % n
        let free := ((List.range n).map fun k => (start + k) % n).find? fun x => col x == 0
        fun x => if some x = free then i + 1 else col x) col x ≤ n := by
    intro l
    induction l with
    | nil => exact fun _ _ h => h
    | cons i l ih =>
      intro col hl hcol
      refine ih _ (fun j hj => hl j (List.mem_cons_of_mem _ hj)) fun x => ?_
      dsimp only
      split
      · exact hl i List.mem_cons_self
      · exact hcol x
  exact hfold _ _ (fun i hi => List.mem_range.mp hi) (fun _ => Nat.zero_le _) x

variable (hw) in
theorem rateInit_inv (hb : b.rates ≠ []) (rnd : Nat → Nat → UInt8) (j : UInt64) (behind : Nat → Rate) :
    Inv b (rateInit hw b rnd j behind) ∧ Sound (rateInit hw b rnd j behind) := by
  have hpos : 0 < b.rates.length := List.length_pos_iff.mpr hb
  refine ⟨⟨hpos, fun i hi => ?_, lowestIndex_mem hb, fun ht => absurd (show (0 : Int) = 1 from ht) (by decide), fun idx col => ?_⟩,
    ⟨hpos, hpos, hpos⟩⟩
  · have hi' : i < b.rates.length := hi
    refine ⟨initRate hw b b.spAckDur b.rates[i], ?_, initRate_ok (List.getElem_mem hi')⟩
    show (b.rates.map _ ++ _)[i]? = _
    rw [List.getElem?_append_left (by rwa [List.length_map]), List.getElem?_map, List.getElem?_eq_getElem hi']
    rfl
  · have := sampleColumn_le (b.rates.length - 1) (rnd col) idx
    show sampleColumn (b.rates.length - 1) (rnd col) idx < b.rates.length
    omega

/-- **Rate selection.**  Along a history of a station with a rate, the indices stay below the number of rates, no index beyond
is used, every rate of a frame is one of the station with a positive count and `BUG_ON` does not strike, exactly when every
step meets `StepOk`. -/
theorem selection_sound_iff {s t : Run} {l : List (Run × Act)} (h : Path (minstrelSys hw b) s l t) (hs : s.Start hw b)
    (hb : b.rates ≠ []) :
    ((∀ p ∈ l, Sound p.1.mi ∧ StepSound hw b p.1 p.2) ∧ Sound t.mi) ↔ ∀ p ∈ l, StepOk hw b p.1 p.2 := by
  obtain ⟨-, rnd, j, behind, hmi⟩ := hs
  have hstart := rateInit_inv hw hb rnd j behind
  rw [← hmi] at hstart
  refine h.exactSteps (I := fun s => Inv b s.mi) (P := fun s => Sound s.mi) ?_ ?_ hstart.1 hstart.2
  · rintro s a t hI hP ⟨-, rfl⟩ hC
    cases a with
    | send f => exact send_keeps hb hI hP hC
    | status k ack rates =>
      obtain ⟨hinv, hp⟩ := status_keeps hI ack ((s.frames.map (·.probe)).getD k false) rates
      exact ⟨hinv, hP.of_picks hp, trivial⟩
    | rssi total count => exact ⟨{ hI with }, ⟨hP.tp, hP.tp2, hP.prob⟩, trivial⟩
  · rintro s a t hI hP ⟨-, rfl⟩ ht hQ
    cases a with
    | send f => exact send_loses hb hI ht hQ
    | status | rssi => trivial

/-- The rates of the driver in the 2.4 GHz band, for a station that has the first `n` -/
def lowRates (n : Nat) : Sband where
  ghz5 := false
  bitrates := [10, 20, 55, 110, 60, 90, 120, 180, 240, 360, 480, 540].map fun r => ⟨r, false⟩
  supp i := i < n

def sampleHw : Hw := ⟨8, 15, by decide, 100⟩

def startOf (n : Nat) : Run := ⟨rateInit sampleHw (lowRates n) (fun _ i => [2, 2, 3, 1].getD i 0) 0 fun _ => Rate.zero, []⟩

theorem startOf_start (n : Nat) : (startOf n).Start sampleHw (lowRates n) := ⟨rfl, _, _, _, rfl⟩

def dataAt (jiffies : UInt64) : TxFrame := ⟨jiffies, true, false, false, false, false, false⟩

theorem selection_sound_first : Sound ([.send (dataAt 0), .status 0 true [(0, 1)]].foldl (Act.next sampleHw (lowRates 4)) (startOf 4)).mi := by
  have hfires : Fires Act.Enabled (Act.next sampleHw (lowRates 4)) (startOf 4) [.send (dataAt 0), .status 0 true [(0, 1)]] := by
    decide +kernel
  refine ((selection_sound_iff (Path.ofFires hfires) (startOf_start 4) (by decide)).mpr fun p hp => ?_).2
  rcases List.mem_cons.mp hp with rfl | hp
  · exact fun hdue => absurd hdue (by decide +kernel)
  · rw [List.mem_singleton.mp hp]
    trivial

/-- The fifth rate is sampled and turns out well, then the fourth better; the second table is chosen, and the fourth moved up. -/
def aboveTable : List Act :=
  List.replicate 10 (.send (dataAt 0)) ++ [.status 9 true [(4, 1)]] ++ List.replicate 10 (.send (dataAt 31)) ++
    List.replicate 5 (.status 9 true [(4, 3)]) ++ List.replicate 3 (.status 9 true [(4, 2)]) ++ [.status 10 true [(3, 1)]] ++
    [.send (dataAt 301), .send (dataAt 332)]

theorem selection_aboveTable : ¬∀ (hw : Hw) (b : Sband) (s t : Run) (l : List (Run × Act)), b.rates ≠ [] →
    Path (minstrelSys hw b) s l t → s.Start hw b → Sound t.mi := by
  intro h
  have hfires : Fires Act.Enabled (Act.next sampleHw (lowRates 5)) (startOf 5) aboveTable := by decide +kernel
  have htp := (h _ _ _ _ _ (by decide) (Path.ofFires hfires) (startOf_start 5)).tp
  exact absurd htp (by decide +kernel)

end AtbmWifi.Minstrel
