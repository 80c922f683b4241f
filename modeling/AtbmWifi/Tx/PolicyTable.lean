import AtbmWifi.Tx.PolicyBuild

/-!
# The last stages of a TX policy

* `injectRates_spec`: the rates injected between a high rate and a low one, on an array of any size.
* `sum_retriesAt`: the nibbles add up to the retries.
-/

namespace AtbmWifi

open Lanes

structure Jumps (r0 r1 : TxRate) : Prop where
  legacy : r0.mcs = false
  high : 4 < r0.idx
  tried : 2 < r0.count
  low : r1.idx < 2

instance (r0 r1 : TxRate) : Decidable (Jumps r0 r1) :=
  decidable_of_iff (r0.mcs = false ∧ 4 < r0.idx ∧ 2 < r0.count ∧ r1.idx < 2)
    ⟨fun ⟨a, b, c, d⟩ => ⟨a, b, c, d⟩, fun ⟨a, b, c, d⟩ => ⟨a, b, c, d⟩⟩

def Injected (rates : List TxRate) (v : Int) (m : Bool) : Prop :=
  ∃ r0 r1, rates = [r0, r1] ∧ Jumps r0 r1 ∧ (v = 4 ∨ v = (r0.idx + 4) / 2) ∧ m = r1.mcs

def Room (size : Nat) (rates : List TxRate) : Prop :=
  ∀ r0 r1, rates = [r0, r1] → Jumps r0 r1 → 4 ≤ size ∨ r0.idx = 5 ∧ 3 ≤ size

def Tried (rates : List TxRate) (v : Int) (m : Bool) : Prop :=
  ∃ r ∈ rates, r.idx = v ∧ r.mcs = m ∧ 0 < r.count.toNat

theorem shiftRight_one (n : Int) : Int.shiftRight n 1 = n / 2 :=
  Int.shiftRight_eq_div_pow n 1

theorem injectRates_cases (size : Nat) (rates : List TxRate) :
    ((∀ r0 r1, rates = [r0, r1] → ¬ Jumps r0 r1) ∧ injectRates size rates = some rates) ∨
    (∃ r0 r1, rates = [r0, r1] ∧ Jumps r0 r1 ∧ r0.idx = 5 ∧ injectRates size rates =
      if 3 ≤ size then some [{ r0 with count := r0.count - 2 }, ⟨4, 2, r1.flags⟩, r1] else none) ∨
    (∃ r0 r1, rates = [r0, r1] ∧ Jumps r0 r1 ∧ 5 < r0.idx ∧ injectRates size rates =
      if 4 ≤ size then
        some
          [{ r0 with count := if 3 ≤ r0.count - 2 then r0.count - 2 - 1 else r0.count - 2 },
            ⟨(r0.idx + 4) / 2, 1, r1.flags⟩, ⟨4, if 3 ≤ r0.count - 2 then 2 else 1, r1.flags⟩, r1]
      else none) := by
  match rates with
  | [] => exact .inl ⟨nofun, rfl⟩
  | [r] => exact .inl ⟨nofun, rfl⟩
  | r :: q :: s :: rates => exact .inl ⟨nofun, rfl⟩
  | [r0, r1] =>
    by_cases hj : Jumps r0 r1
    · have hcond : r0.mcs = false ∧ 4 < r0.idx ∧ 2 < r0.count ∧ r1.idx < 2 := ⟨hj.1, hj.2, hj.3, hj.4⟩
      have hhigh := hj.high
      by_cases h5 : r0.idx = 5
      · refine .inr (.inl ⟨r0, r1, rfl, hj, h5, ?_⟩)
        have hmid : (r0.idx + 4) / 2 = 4 := by omega
        simp only [injectRates, if_pos hcond, shiftRight_one, hmid]
        rfl
      · refine .inr (.inr ⟨r0, r1, rfl, hj, by omega, ?_⟩)
        have hmid : (r0.idx + 4) / 2 ≠ 4 := by omega
        simp only [injectRates, if_pos hcond, shiftRight_one, if_pos hmid]
    · refine .inl ⟨?_, ?_⟩
      · rintro _ _ ⟨⟩ h
        exact hj h
      · have hcond : ¬ (r0.mcs = false ∧ 4 < r0.idx ∧ 2 < r0.count ∧ r1.idx < 2) :=
          fun h => hj ⟨h.1, h.2.1, h.2.2.1, h.2.2.2⟩
        simp only [injectRates, if_neg hcond]

/-- What is known of the rates with the injected ones among them. -/
structure Spread (rates final : List TxRate) : Prop where
  tried : ∀ v m, Tried final v m ↔ Tried rates v m ∨ Injected rates v m
  falling : rates.Pairwise (fun a b => b.idx < a.idx) → final.Pairwise fun a b => b.idx < a.idx
  total : totalTries final = totalTries rates
  length : final.length ≤ rates.length + 2
  valid : ∀ band, (∀ r ∈ rates, (getTxRate band r).isSome) → ∀ r ∈ final, (getTxRate band r).isSome
  head : ∃ r rest, final = r :: rest ∧ ∃ r' rest', rates = r' :: rest' ∧ r.idx = r'.idx ∧ r.flags = r'.flags

def Band.rateCount (band : Band) (mcs : Bool) : Nat := if mcs then mcsRates.length else band.bitrates.length

theorem Band.rateCount_bounds (band : Band) (mcs : Bool) : 8 ≤ band.rateCount mcs ∧ band.rateCount mcs ≤ 12 := by
  cases band <;> cases mcs <;> decide

theorem getTxRate_isSome (band : Band) (r : TxRate) :
    (getTxRate band r).isSome ↔ 0 ≤ r.idx ∧ r.idx < band.rateCount r.mcs := by
  rw [getTxRate]
  by_cases hneg : r.idx < 0
  · rw [if_pos hneg]
    exact iff_of_false Bool.false_ne_true (fun h => by omega)
  · rw [if_neg hneg]
    cases hm : r.mcs <;> simp [Band.rateCount] <;> omega

theorem tried_cons (r : TxRate) (rates : List TxRate) (v : Int) (m : Bool) :
    Tried (r :: rates) v m ↔ (r.idx = v ∧ r.mcs = m ∧ 0 < r.count.toNat) ∨ Tried rates v m :=
  List.exists_mem_cons_iff ..

theorem tried_nil (v : Int) (m : Bool) : ¬ Tried [] v m := nofun

theorem tried_append (rates rest : List TxRate) (v : Int) (m : Bool) :
    Tried (rates ++ rest) v m ↔ Tried rates v m ∨ Tried rest v m := by
  induction rates with
  | nil => exact (or_iff_right (tried_nil v m)).symm
  | cons r rates ih => rw [List.cons_append, tried_cons, tried_cons, ih, or_assoc]

theorem tried_one (r : TxRate) (h : 0 < r.count.toNat) (v : Int) (m : Bool) :
    Tried [r] v m ↔ r.idx = v ∧ r.mcs = m := by
  rw [tried_cons, or_iff_left (tried_nil v m), and_iff_left h]

theorem tried_insert (r0 : TxRate) {c : UInt8} (hc : 0 < c.toNat ↔ 0 < r0.count.toNat) (mid rest : List TxRate)
    (v : Int) (m : Bool) :
    Tried ({ r0 with count := c } :: (mid ++ rest)) v m ↔ Tried (r0 :: rest) v m ∨ Tried mid v m := by
  rw [tried_cons, tried_cons, tried_append]
  show (r0.idx = v ∧ r0.mcs = m ∧ 0 < c.toNat) ∨ _ ↔ _
  rw [hc, or_assoc]
  exact or_congr_right or_comm

variable {rates : List TxRate} {r0 r1 r : TxRate} {band : Band} {h a : Nat}

theorem Spread.refl (hne : rates ≠ []) (hj : ∀ r0 r1, rates = [r0, r1] → ¬ Jumps r0 r1) : Spread rates rates where
  tried v m := by
    refine (or_iff_left ?_).symm
    rintro ⟨r0, r1, hr, h, -⟩
    exact hj r0 r1 hr h
  falling := id
  total := rfl
  length := by omega
  valid _ h := h
  head := by
    obtain ⟨r, rest, rfl⟩ := List.exists_cons_of_ne_nil hne
    exact ⟨r, rest, rfl, r, rest, rfl, rfl, rfl⟩

theorem injected_pair (hj : Jumps r0 r1) (v : Int) (m : Bool) :
    Injected [r0, r1] v m ↔ (v = 4 ∨ v = (r0.idx + 4) / 2) ∧ m = r1.mcs := by
  constructor
  · rintro ⟨_, _, ⟨⟩, -, h⟩
    exact h
  · intro h
    exact ⟨r0, r1, rfl, hj, h⟩

theorem count_sub_two {c : UInt8} (h : 2 < c) : (c - 2).toNat = c.toNat - 2 := by
  have h2 : (2 : UInt8) ≤ c := UInt8.le_of_lt h
  rw [UInt8.toNat_sub_of_le _ _ h2]
  rfl

theorem Spread.three (hj : Jumps r0 r1) (h5 : r0.idx = 5) :
    Spread [r0, r1] [{ r0 with count := r0.count - 2 }, ⟨4, 2, r1.flags⟩, r1] := by
  have hcount := count_sub_two hj.tried
  have htried : 2 < r0.count.toNat := hj.tried
  have hlow := hj.low
  constructor
  · intro v m
    have hfirst : 0 < (r0.count - 2).toNat ↔ 0 < r0.count.toNat := by omega
    have hmid : (r0.idx + 4) / 2 = 4 := by omega
    have hone : Tried [⟨4, 2, r1.flags⟩] v m ↔ 4 = v ∧ r1.mcs = m :=
      tried_one ⟨4, 2, r1.flags⟩ Nat.two_pos v m
    rw [injected_pair hj, hmid, or_self, eq_comm (a := v), eq_comm (a := m), ← hone]
    exact tried_insert r0 hfirst [⟨4, 2, r1.flags⟩] [r1] v m
  · intro _
    simp only [List.pairwise_cons, List.mem_cons, List.not_mem_nil, or_false, forall_eq_or_imp, forall_eq,
      List.Pairwise.nil, and_true, IsEmpty.forall_iff, implies_true]
    omega
  · simp only [totalTries_cons, hcount]
    show r0.count.toNat - 2 + (2 + (r1.count.toNat + 0)) = r0.count.toNat + (r1.count.toNat + 0)
    omega
  · exact Nat.le_succ _
  · intro band hvalid
    have h0 := hvalid r0 (by simp)
    have h1 := hvalid r1 (by simp)
    have hb := band.rateCount_bounds r1.mcs
    simp only [List.mem_cons, List.not_mem_nil, or_false, forall_eq_or_imp, forall_eq]
    refine ⟨h0, (getTxRate_isSome _ _).mpr ⟨Int.natCast_nonneg 4, ?_⟩, h1⟩
    show (4 : Int) < band.rateCount r1.mcs
    omega
  · exact ⟨_, _, rfl, _, _, rfl, rfl, rfl⟩

theorem count_split {n : UInt8} (h : 2 < n) : ∃ c d : UInt8,
    (if 3 ≤ n - 2 then n - 2 - 1 else n - 2) = c ∧ (if 3 ≤ n - 2 then (2 : UInt8) else 1) = d ∧
      c.toNat + d.toNat + 1 = n.toNat ∧ 0 < c.toNat ∧ 0 < d.toNat := by
  have hcount := count_sub_two h
  have htried : 2 < n.toNat := h
  by_cases h3 : 3 ≤ n - 2
  · have h3' : 3 ≤ (n - 2).toNat := h3
    have h1 : (n - 2 - 1).toNat = (n - 2).toNat - 1 := by
      rw [UInt8.toNat_sub_of_le]
      · rfl
      · rw [UInt8.le_iff_toNat_le]
        show 1 ≤ (n - 2).toNat
        omega
    refine ⟨_, _, if_pos h3, if_pos h3, ?_, by omega, by decide⟩
    show (n - 2 - 1).toNat + 2 + 1 = _
    omega
  · refine ⟨_, _, if_neg h3, if_neg h3, ?_, by omega, by decide⟩
    show (n - 2).toNat + 1 + 1 = _
    omega

theorem Spread.four (hj : Jumps r0 r1) (h5 : 5 < r0.idx) : Spread [r0, r1]
      [{ r0 with count := if 3 ≤ r0.count - 2 then r0.count - 2 - 1 else r0.count - 2 },
        ⟨(r0.idx + 4) / 2, 1, r1.flags⟩, ⟨4, if 3 ≤ r0.count - 2 then 2 else 1, r1.flags⟩, r1] := by
  have hlow := hj.low
  obtain ⟨c, d, hc, hd, hcd, hc0, hd0⟩ := count_split hj.tried
  rw [hc, hd]
  constructor
  · intro v m
    have hfirst : 0 < c.toNat ↔ 0 < r0.count.toNat := by omega
    have hhigh : Tried [⟨(r0.idx + 4) / 2, 1, r1.flags⟩] v m ↔ (r0.idx + 4) / 2 = v ∧ r1.mcs = m :=
      tried_one ⟨(r0.idx + 4) / 2, 1, r1.flags⟩ Nat.one_pos v m
    have hlowest : Tried [⟨4, d, r1.flags⟩] v m ↔ 4 = v ∧ r1.mcs = m := tried_one ⟨4, d, r1.flags⟩ hd0 v m
    have hmid : Tried [⟨(r0.idx + 4) / 2, 1, r1.flags⟩, ⟨4, d, r1.flags⟩] v m ↔
        (v = 4 ∨ v = (r0.idx + 4) / 2) ∧ m = r1.mcs := by
      refine (tried_append [_] [_] v m).trans ?_
      rw [hhigh, hlowest, ← or_and_right, eq_comm (a := m), or_comm, eq_comm (a := v), eq_comm (a := v)]
    rw [injected_pair hj, ← hmid]
    exact tried_insert r0 hfirst [⟨(r0.idx + 4) / 2, 1, r1.flags⟩, ⟨4, d, r1.flags⟩] [r1] v m
  · intro _
    simp only [List.pairwise_cons, List.mem_cons, List.not_mem_nil, or_false, forall_eq_or_imp, forall_eq,
      List.Pairwise.nil, and_true, IsEmpty.forall_iff, implies_true]
    omega
  · show c.toNat + (1 + (d.toNat + (r1.count.toNat + 0))) = r0.count.toNat + (r1.count.toNat + 0)
    omega
  · exact Nat.le_refl _
  · intro band hvalid
    have h0 := hvalid r0 (by simp)
    have h1 := hvalid r1 (by simp)
    have hb := band.rateCount_bounds r1.mcs
    have hb0 := band.rateCount_bounds r0.mcs
    have hr0 := (getTxRate_isSome band r0).mp h0
    simp only [List.mem_cons, List.not_mem_nil, or_false, forall_eq_or_imp, forall_eq]
    refine ⟨h0, (getTxRate_isSome _ _).mpr ⟨?_, ?_⟩, (getTxRate_isSome _ _).mpr ⟨Int.natCast_nonneg 4, ?_⟩, h1⟩
    · show 0 ≤ (r0.idx + 4) / 2
      omega
    · show (r0.idx + 4) / 2 < band.rateCount r1.mcs
      omega
    · show (4 : Int) < band.rateCount r1.mcs
      omega
  · exact ⟨_, _, rfl, _, _, rfl, rfl, rfl⟩

theorem injectRates_spec (size : Nat) (hne : rates ≠ []) :
    (Room size rates → ∃ final, injectRates size rates = some final ∧ Spread rates final) ∧
      (¬ Room size rates → injectRates size rates = none) := by
  rcases injectRates_cases size rates with ⟨hj, hi⟩ | ⟨r0, r1, rfl, hj, h5, hi⟩ | ⟨r0, r1, rfl, hj, h5, hi⟩
  · exact ⟨fun _ => ⟨rates, hi, Spread.refl hne hj⟩, fun h => absurd (fun r0 r1 hr h' => absurd h' (hj r0 r1 hr)) h⟩
  · have hroom : Room size [r0, r1] ↔ 3 ≤ size := by
      constructor
      · intro h
        have := h r0 r1 rfl hj
        omega
      · rintro h _ _ ⟨⟩ -
        exact .inr ⟨h5, h⟩
    rw [hroom, hi]
    exact ⟨fun h => ⟨_, if_pos h, Spread.three hj h5⟩, fun h => if_neg h⟩
  · have hroom : Room size [r0, r1] ↔ 4 ≤ size := by
      constructor
      · intro h
        have := h r0 r1 rfl hj
        omega
      · rintro h _ _ ⟨⟩ -
        exact .inl h
    rw [hroom, hi]
    exact ⟨fun h => ⟨_, if_pos h, Spread.four hj h5⟩, fun h => if_neg h⟩

def TxRate.retries (r : TxRate) : UInt8 := if 0x0F < r.count then 0x0F else r.count

def retriesAt (band : Band) (rates : List TxRate) (h : Nat) : Nat :=
  match rates.find? (getTxRate band · == some h) with
  | some r => r.retries.toNat
  | none => 0

theorem retries_le (r : TxRate) : r.retries.toNat ≤ 15 ∧ r.retries.toNat ≤ r.count.toNat ∧
    (0 < r.retries.toNat ↔ 0 < r.count.toNat) := by
  rw [TxRate.retries]
  split
  · next h =>
    have h' : 15 < r.count.toNat := h
    show 15 ≤ 15 ∧ 15 ≤ r.count.toNat ∧ (0 < 15 ↔ _)
    omega
  · next h =>
    have h' : ¬ 15 < r.count.toNat := h
    omega

theorem getTxRate_lt (hr : getTxRate band r = some h) : h < 23 := by
  rw [getTxRate] at hr
  have hmcs : ∀ x ∈ mcsRates, x < 23 := by decide
  have hband : ∀ x ∈ band.bitrates, x < 23 := by
    cases band <;> decide
  split at hr
  · cases hr
  · split at hr
    · exact hmcs h (List.mem_of_getElem? hr)
    · exact hband h (List.mem_of_getElem? hr)

theorem getTxRate_inj {q : TxRate} (hr : getTxRate band r = some h)
    (hq : getTxRate band q = some h) : r.idx = q.idx ∧ r.mcs = q.mcs := by
  have hmcs : mcsRates.Nodup := by decide
  have hlow : ∀ x ∈ mcsRates, 13 < x := by decide
  have hband : band.bitrates.Nodup ∧ ∀ x ∈ band.bitrates, x ≤ 13 := by
    cases band <;> decide
  rw [getTxRate] at hr hq
  split at hr
  · cases hr
  · split at hq
    · cases hq
    · cases hrm : r.mcs <;> cases hqm : q.mcs <;> simp only [hrm, hqm, if_true, Bool.false_eq_true, if_false] at hr hq
      · have hlt := (List.getElem?_eq_some_iff.mp hr).1
        have := (List.getElem?_inj hlt hband.1).mp (hr.trans hq.symm)
        exact ⟨by omega, rfl⟩
      · have h1 := hband.2 h (List.mem_of_getElem? hr)
        have h2 := hlow h (List.mem_of_getElem? hq)
        omega
      · have h1 := hband.2 h (List.mem_of_getElem? hq)
        have h2 := hlow h (List.mem_of_getElem? hr)
        omega
      · have hlt := (List.getElem?_eq_some_iff.mp hr).1
        have := (List.getElem?_inj hlt hmcs).mp (hr.trans hq.symm)
        exact ⟨by omega, rfl⟩

theorem nibble_put (p : TxTable) {n : Nat} (c : UInt8) (ha : a / 8 < p.tbl.length) (hn : n < 16) (h : Nat) :
    TxTable.nibble { p with tbl := p.tbl.modify (a >>> 3) (· ||| n <<< ((a &&& 7) <<< 2)), retryCount := c } h =
      if h = a then p.nibble h ||| n else p.nibble h := by
  have hoff : a >>> 3 = a / 8 := Nat.shiftRight_eq_div_pow a 3
  have hshift : (a &&& 7) <<< 2 = 4 * (a % 8) := by
    rw [Nat.shiftLeft_eq, Nat.mul_comm]
    exact congrArg (4 * ·) (Nat.and_two_pow_sub_one_eq_mod a 3)
  rw [TxTable.nibble, TxTable.nibble, hoff, hshift, List.getD_eq_getElem?_getD, List.getElem?_modify]
  by_cases hword : a / 8 = h / 8
  · rw [hword] at ha
    rw [List.getD_eq_getElem?_getD, List.getElem?_eq_getElem ha]
    simp only [hword, if_true, Option.map_eq_map, Option.map_some, Option.getD_some]
    rw [lane_put hn]
    have hsame : h % 8 = a % 8 ↔ h = a := by omega
    simp only [hsame]
  · rw [if_neg (by omega), List.getD_eq_getElem?_getD]
    congr 1
    cases p.tbl[h / 8]? <;> simp [hword]

theorem retriesAt_absent (hr : getTxRate band r = some a) (hp : (r :: rates).Pairwise fun a b => b.idx < a.idx) :
    retriesAt band rates a = 0 := by
  have hnone : rates.find? (getTxRate band · == some a) = none := by
    apply List.find?_eq_none.mpr
    intro q hq heq
    have hidx := (getTxRate_inj hr (beq_iff_eq.mp heq)).1
    have := (List.pairwise_cons.mp hp).1 q hq
    omega
  rw [retriesAt, hnone]

theorem retriesAt_mem (hpos : 0 < retriesAt band rates h) : ∃ r ∈ rates, getTxRate band r = some h := by
  rw [retriesAt] at hpos
  split at hpos
  · next r hr => exact ⟨r, List.mem_of_find?_eq_some hr, by simpa using List.find?_some hr⟩
  · exact absurd hpos (Nat.lt_irrefl 0)

theorem retriesAt_cons (hr : getTxRate band r = some a) (rates : List TxRate)
    (h : Nat) : retriesAt band (r :: rates) h = if h = a then r.retries.toNat else retriesAt band rates h := by
  rw [retriesAt, List.find?_cons, hr]
  by_cases heq : h = a
  · simp [heq]
  · have hne : (some a == some h) = false := by simpa using Ne.symm heq
    rw [hne, if_neg heq]
    rfl

/-- **The table of rates that are in their tables and differ.** -/
theorem fillRates_spec {p : TxTable} (hlen : p.tbl.length = 3)
    (hvalid : ∀ r ∈ rates, (getTxRate band r).isSome) (hp : rates.Pairwise fun a b => b.idx < a.idx) :
    ∃ filled q, fillRates band p rates = some (filled, q) ∧ filled.length = rates.length ∧
      (∀ h, q.nibble h = p.nibble h ||| retriesAt band rates h) ∧
      q.retryCount = p.retryCount + (rates.map TxRate.retries).sum ∧ q.defined = p.defined ∧ q.tbl.length = 3 := by
  induction rates generalizing p with
  | nil => exact ⟨[], p, rfl, rfl, fun h => (Nat.or_zero _).symm, (UInt8.add_zero _).symm, rfl, hlen⟩
  | cons r rates ih =>
    obtain ⟨a, ha⟩ := Option.isSome_iff_exists.mp (hvalid r List.mem_cons_self)
    have ha3 : a / 8 < 3 := by
      have := getTxRate_lt ha
      omega
    have hn := retries_le r
    have hput := nibble_put p (p.retryCount + r.retries) (hlen ▸ ha3) (by omega : r.retries.toNat < 16)
    obtain ⟨filled, q, hq, hfilled, hnib, hcount, hdef, hlen'⟩ := ih
      (p := { p with
        tbl := p.tbl.modify (a >>> 3) (· ||| r.retries.toNat <<< ((a &&& 7) <<< 2))
        retryCount := p.retryCount + r.retries })
      ((List.length_modify ..).trans hlen) (fun x hx => hvalid x (List.mem_cons_of_mem _ hx))
      (List.pairwise_cons.mp hp).2
    refine ⟨{ r with count := r.retries } :: filled, q, ?_, congrArg (· + 1) hfilled, fun h => ?_, ?_, hdef, hlen'⟩
    · rw [fillRates, ha, Option.bind_some, if_pos]
      · exact congrArg (Option.map _) hq
      · rw [hlen, Nat.shiftRight_eq_div_pow]
        exact ha3
    · rw [hnib, hput, retriesAt_cons ha]
      by_cases heq : h = a
      · rw [if_pos heq, if_pos heq, heq, retriesAt_absent ha hp, Nat.or_zero]
      · rw [if_neg heq, if_neg heq]
    · rw [hcount, List.map_cons, List.sum_cons]
      exact UInt8.add_assoc ..

theorem sum_retriesAt (hvalid : ∀ r ∈ rates, (getTxRate band r).isSome)
    (hp : rates.Pairwise fun a b => b.idx < a.idx) {s : Finset Nat} (hs : ∀ h < 24, h ∈ s) :
    ∑ h ∈ s, retriesAt band rates h = (rates.map (·.retries.toNat)).sum := by
  induction rates with
  | nil => exact Finset.sum_const_zero
  | cons r rates ih =>
    obtain ⟨a, ha⟩ := Option.isSome_iff_exists.mp (hvalid r List.mem_cons_self)
    have has : a ∈ s := by
      have := getTxRate_lt ha
      exact hs a (by omega)
    have hrest := ih (fun x hx => hvalid x (List.mem_cons_of_mem _ hx)) (List.pairwise_cons.mp hp).2
    rw [← Finset.add_sum_erase s _ has, retriesAt_absent ha hp, Nat.zero_add] at hrest
    rw [← Finset.add_sum_erase s _ has, retriesAt_cons ha, if_pos rfl, List.map_cons, List.sum_cons, ← hrest]
    congr 1
    refine Finset.sum_congr rfl fun h hh => ?_
    rw [retriesAt_cons ha, if_neg (Finset.ne_of_mem_erase hh)]

theorem sum_retries_le (rates : List TxRate) :
    (rates.map (·.retries.toNat)).sum ≤ totalTries rates ∧ (rates.map (·.retries.toNat)).sum ≤ 15 * rates.length := by
  induction rates with
  | nil => exact ⟨Nat.le_refl _, Nat.le_refl _⟩
  | cons r rates ih =>
    have hr := retries_le r
    rw [List.map_cons, List.sum_cons, totalTries_cons, List.length_cons]
    omega

theorem toNat_sum_retries (hlen : rates.length ≤ 17) :
    ((rates.map TxRate.retries).sum).toNat = (rates.map (·.retries.toNat)).sum := by
  induction rates with
  | nil => rfl
  | cons r rates ih =>
    rw [List.length_cons] at hlen
    have hr := retries_le r
    have hrest := (sum_retries_le rates).2
    rw [List.map_cons, List.sum_cons, List.map_cons, List.sum_cons, UInt8.toNat_add, ih (by omega)]
    exact Nat.mod_eq_of_lt (by omega)

theorem retriesAt_pos (hp : rates.Pairwise fun a b => b.idx < a.idx)
    (hr : getTxRate band r = some h) : 0 < retriesAt band rates h ↔ Tried rates r.idx r.mcs := by
  induction rates with
  | nil => exact iff_of_false (Nat.lt_irrefl 0) (tried_nil _ _)
  | cons q rates ih =>
    rw [tried_cons, ← ih (List.pairwise_cons.mp hp).2]
    cases hq : getTxRate band q with
    | none =>
      -- a rate beyond its table is not the one looked for
      have hne : ¬ (q.idx = r.idx ∧ q.mcs = r.mcs ∧ 0 < q.count.toNat) := by
        rintro ⟨hidx, hmcs, -⟩
        rw [getTxRate, hidx, hmcs, ← getTxRate, hr] at hq
        cases hq
      rw [or_iff_right hne, retriesAt, List.find?_cons, hq]
      rfl
    | some a =>
      rw [retriesAt_cons hq]
      by_cases heq : h = a
      · subst heq
        have hinj := getTxRate_inj hq hr
        rw [if_pos rfl, (retries_le q).2.2, retriesAt_absent hq hp]
        have : ¬ (0 : Nat) < 0 := Nat.lt_irrefl 0
        simp only [hinj, true_and, this, or_false]
      · have hne : ¬ (q.idx = r.idx ∧ q.mcs = r.mcs ∧ 0 < q.count.toNat) := by
          rintro ⟨hidx, hmcs, -⟩
          apply heq
          rw [getTxRate, hidx, hmcs, ← getTxRate, hr] at hq
          exact Option.some.inj hq
        rw [if_neg heq, or_iff_right hne]

end AtbmWifi
