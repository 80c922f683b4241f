import AtbmWifi.Tx.PolicyBudget
import AtbmWifi.Tx.PolicyCache

/-!
# The policies found in the cache

A wanted policy is compared with a cached one up to `defined`, one more than the rate of the first entry after the sort
by index.  MCS rates lie above all others, so one that comes after a first rate that is no MCS rate is not compared.

* `policy_faithful_iff`: along every run, what a get answers is faithful to the wanted policy iff the highest index is
  one of an MCS rate or no MCS rate has tries.
-/

namespace AtbmWifi

open Lanes Transition

def TxTable.raw (p : TxTable) : List UInt8 :=
  (List.range 12).map fun i => UInt8.ofNat (lane 8 (i % 4) (p.tbl.getD (i / 4) 0))

def TxTable.rates (p : TxTable) : TxRates := ⟨p.raw, p.defined, p.retryCount⟩

def TxRates.nibble (t : TxRates) (h : Nat) : Nat := lane 4 (h % 2) (t.raw.getD (h / 2) 0).toNat

variable {h : Nat} {band : Band} {r : TxRate} {out : List TxRate × TxTable} {rates : List TxRate} {short : UInt8}

theorem nibble_rates (p : TxTable) (hh : h < 24) : p.rates.nibble h = p.nibble h := by
  have hbyte : p.raw.getD (h / 2) 0 = UInt8.ofNat (lane 8 (h / 2 % 4) (p.tbl.getD (h / 2 / 4) 0)) := by
    rw [List.getD_eq_getElem?_getD, TxTable.raw, List.getElem?_map, List.getElem?_range (by omega)]
    rfl
  have hlt : lane 8 (h / 2 % 4) (p.tbl.getD (h / 2 / 4) 0) < 2 ^ 8 := lane_lt _ _
  show lane 4 (h % 2) (p.raw.getD (h / 2) 0).toNat = _
  rw [hbyte, UInt8.toNat_ofNat', Nat.mod_eq_of_lt hlt]
  refine (lane_lane (w := 4) (m := 2) (by omega) _ _).trans ?_
  rw [TxTable.nibble, show 2 * (h / 2 % 4) + h % 2 = h % 8 by omega, show h / 2 / 4 = h / 8 by omega]

/-- **Policies that are taken for equal have the same nibbles below `defined`.** -/
theorem nibble_of_isEqual {wanted cached : TxRates} (heq : txPolicyIsEqual wanted cached = true)
    (hh : h < wanted.defined.toNat) : cached.nibble h = wanted.nibble h := by
  simp only [txPolicyIsEqual] at heq
  split at heq
  · cases heq
  · split at heq
    · cases heq
    · next hraw =>
      have htake := not_not.mp hraw
      have hhalf : wanted.defined.toNat >>> 1 = wanted.defined.toNat / 2 := Nat.shiftRight_eq_div_pow _ 1
      rw [hhalf] at htake heq
      by_cases hbyte : h / 2 < wanted.defined.toNat / 2
      · -- a byte that is compared whole
        have hget := congrArg (·.getD (h / 2) 0) htake
        simp only [List.getD_eq_getElem?_getD, List.getElem?_take_of_lt hbyte] at hget
        rw [TxRates.nibble, TxRates.nibble, List.getD_eq_getElem?_getD, List.getD_eq_getElem?_getD, hget]
      · -- the low half of the byte after them
        have hodd : wanted.defined &&& 1 = 1 := by
          rw [← UInt8.toNat_inj, UInt8.toNat_and]
          show wanted.defined.toNat &&& 1 = 1
          rw [Nat.and_one_is_mod]
          omega
        rw [if_pos hodd] at heq
        have hbyte' : h / 2 = wanted.defined.toNat / 2 := by omega
        have hlow : h % 2 = 0 := by
          have hmod : wanted.defined.toNat &&& 1 = 1 := congrArg UInt8.toNat hodd
          rw [Nat.and_one_is_mod] at hmod
          omega
        have hmask := congrArg UInt8.toNat (beq_iff_eq.mp heq)
        rw [UInt8.toNat_and, UInt8.toNat_and] at hmask
        have hand : ∀ n : Nat, n &&& UInt8.toNat 15 = lane 4 0 n := fun n => Nat.and_two_pow_sub_one_eq_mod n 4
        rw [hand, hand] at hmask
        rw [TxRates.nibble, TxRates.nibble, hlow, hbyte', hmask]

theorem getTxRate_mcs (hr : getTxRate band r = some h) : r.mcs = true ↔ 14 ≤ h := by
  have hmcs : ∀ x ∈ mcsRates, 14 ≤ x := by decide
  have hband : ∀ x ∈ band.bitrates, x < 14 := by
    cases band <;> decide
  rw [getTxRate] at hr
  split at hr
  · cases hr
  · split at hr
    · next hm => exact iff_of_true hm (hmcs h (List.mem_of_getElem? hr))
    · next hm =>
      have := hband h (List.mem_of_getElem? hr)
      exact iff_of_false hm (by omega)

theorem getElem?_mono {l : List Nat} (hl : l.Pairwise (· < ·)) {i j a b : Nat} (hij : i ≤ j) (ha : l[i]? = some a)
    (hb : l[j]? = some b) : a ≤ b := by
  obtain ⟨hi, rfl⟩ := List.getElem?_eq_some_iff.mp ha
  obtain ⟨hj, rfl⟩ := List.getElem?_eq_some_iff.mp hb
  rcases Nat.lt_or_eq_of_le hij with h | rfl
  · exact Nat.le_of_lt (List.pairwise_iff_getElem.mp hl i j hi hj h)
  · exact Nat.le_refl _

theorem getTxRate_mono {q : TxRate} {a b : Nat} (hr : getTxRate band r = some a)
    (hq : getTxRate band q = some b) (hkind : r.mcs = q.mcs) (hidx : r.idx ≤ q.idx) : a ≤ b := by
  have hmcs : mcsRates.Pairwise (· < ·) := by decide
  have hband : band.bitrates.Pairwise (· < ·) := by
    cases band <;> decide
  rw [getTxRate] at hr hq
  split at hr
  · cases hr
  · split at hq
    · cases hq
    · rw [hkind] at hr
      have hle : r.idx.toNat ≤ q.idx.toNat := by omega
      split at hr
      · next hm =>
        rw [if_pos hm] at hq
        exact getElem?_mono hmcs hle hr hq
      · next hm =>
        rw [if_neg hm] at hq
        exact getElem?_mono hband hle hr hq

theorem fillRates_valid {p : TxTable}
    (h : fillRates band p rates = some out) : ∀ r ∈ rates, (getTxRate band r).isSome := by
  induction rates generalizing p out with
  | nil => exact nofun
  | cons r rates ih =>
    rw [fillRates] at h
    obtain ⟨a, ha, h⟩ := Option.bind_eq_some_iff.mp h
    split at h
    · obtain ⟨q, hq, -⟩ := Option.map_eq_some_iff.mp h
      intro x hx
      rcases List.mem_cons.mp hx with rfl | hx
      · rw [ha]
        rfl
      · exact ih hq x hx
    · cases h

theorem fillRates_head {p : TxTable} (h : fillRates band p (r :: rates) = some out) :
    ∃ q rest, out.1 = q :: rest ∧ q.idx = r.idx ∧ q.flags = r.flags := by
  rw [fillRates] at h
  obtain ⟨a, -, h⟩ := Option.bind_eq_some_iff.mp h
  split at h
  · obtain ⟨q, -, rfl⟩ := Option.map_eq_some_iff.mp h
    exact ⟨_, _, rfl, rfl, rfl⟩
  · cases h

theorem Distilled.head {kept : List TxRate} {total : Nat} (hd : Distilled rates kept total) {k : TxRate}
    {rest : List TxRate} (hk : kept = k :: rest) :
    k.idx ∈ (reached rates).map (·.idx) ∧ k.mcs = (askedAt rates k.idx).mcs ∧ ∀ x ∈ reached rates, x.idx ≤ k.idx := by
  have hmem : k ∈ kept := hk ▸ List.mem_cons_self
  obtain ⟨x, hx, heq⟩ := (hd.mem k).mp hmem
  refine ⟨List.mem_map.mpr ⟨x, hx, (congrArg TxRate.idx heq).symm⟩, congrArg TxRate.mcs (hd.asked hmem), fun y hy => ?_⟩
  have hy' : askedAt rates y.idx ∈ kept := (hd.mem _).mpr ⟨y, hy, rfl⟩
  rw [hk] at hy'
  rcases List.mem_cons.mp hy' with h | h
  · show (askedAt rates y.idx).idx ≤ k.idx
    exact Int.le_of_eq (congrArg TxRate.idx h)
  · have hlt := (List.pairwise_cons.mp (hk ▸ hd.falling)).1 _ h
    exact Int.le_of_lt hlt

/-- The policy of a frame: its nibbles are the rates with tries, and the first rate is the highest index reached. -/
structure Policy (band : Band) (short : UInt8) (rates : List TxRate) (out : List TxRate × TxTable) (first : TxRate)
    (hw : Nat) : Prop where
  head : ∃ rest, out.1 = first :: rest
  rate : getTxRate band first = some hw
  defined : out.2.defined.toNat = hw + 1
  top : first.idx ∈ (reached rates).map (·.idx)
  kind : first.mcs = (askedAt rates first.idx).mcs
  highest : ∀ x ∈ reached rates, x.idx ≤ first.idx
  nibble : ∀ h, 0 < out.2.nibble h ↔ ∃ r : TxRate, getTxRate band r = some h ∧ r.idx ≤ first.idx ∧
    (Served rates r.idx r.mcs ∨ InjectedFor short rates r.idx r.mcs)
  used : ∀ v m, Served rates v m ∨ InjectedFor short rates v m →
    ∃ r : TxRate, r.idx = v ∧ r.mcs = m ∧ v ≤ first.idx ∧ (getTxRate band r).isSome

theorem policy_of_build {rest : List TxRate} (hr : 0 ≤ r.idx) (hlen : (r :: rest).length ≤ 5)
    (hout : txPolicyBuild band short (r :: rest) = some out) :
    ∃ first hw, Policy band short (requested (r :: rest)) out first hw := by
  obtain ⟨kept, cut, total, stale, hs⟩ := stages band short hr hlen
  rw [hs.build] at hout
  obtain ⟨final, hfinal, hout⟩ := Option.bind_eq_some_iff.mp hout
  obtain ⟨hw, hhw, hout⟩ := Option.bind_eq_some_iff.mp hout
  obtain ⟨f, hf, rfl⟩ := Option.map_eq_some_iff.mp hout
  have hroom : Room (r :: rest).length cut := by
    by_contra hno
    rw [(injectRates_spec _ hs.ne_nil).2 hno] at hfinal
    cases hfinal
  obtain ⟨final', hfinal', hspread⟩ := (injectRates_spec _ hs.ne_nil).1 hroom
  obtain rfl : final = final' := Option.some.inj (hfinal.symm.trans hfinal')
  have hfalling := hspread.falling hs.falling
  obtain ⟨filled, q, hq, -, hnib, -, hdef, -⟩ := fillRates_spec (p := ⟨[0, 0, 0], UInt8.ofNat hw + 1, 0⟩) rfl
    (fillRates_valid hf) hfalling
  obtain rfl : f = (filled, q) := Option.some.inj (hf.symm.trans hq)
  -- the first rate, from the array back to the rates that were reached
  obtain ⟨a, arest, rfl, b, brest, hb, hidx, hflags⟩ := hspread.head
  obtain ⟨first, frest, hfirst, hfidx, hfflags⟩ := fillRates_head hf
  obtain ⟨k, krest, hk⟩ := List.exists_cons_of_ne_nil hs.distilled.ne_nil
  obtain ⟨hsame, -⟩ := List.forall₂_cons.mp (hb ▸ hk ▸ hs.same)
  have hmcs : ∀ {x y : TxRate}, x.flags = y.flags → x.mcs = y.mcs := fun h => by
    rw [TxRate.mcs, TxRate.mcs, h]
  have htop : first.idx = k.idx := hfidx.trans (hidx.trans hsame.idx)
  have hkind : first.mcs = k.mcs := (hmcs hfflags).trans ((hmcs hflags).trans hsame.mcs)
  obtain ⟨hreach, hask, hhigh⟩ := hs.distilled.head hk
  have hrate : getTxRate band a = some hw := hhw
  have hhw23 := getTxRate_lt hrate
  have hle : ∀ x ∈ a :: arest, x.idx ≤ first.idx := by
    intro x hx
    rcases List.mem_cons.mp hx with rfl | hx
    · omega
    · have := (List.pairwise_cons.mp hfalling).1 x hx
      omega
  refine ⟨first, hw, ⟨frest ++ stale filled.length, ?_⟩, ?_, ?_, ?_, ?_, ?_, fun h => ?_, fun v m hvm => ?_⟩
  · show filled ++ stale filled.length = _
    rw [show filled = first :: frest from hfirst, List.cons_append]
  · rw [getTxRate_congr hfidx (hmcs hfflags), hrate]
  · show q.defined.toNat = _
    rw [hdef, UInt8.toNat_add, UInt8.toNat_ofNat']
    show (hw % 256 + 1) % 256 = _
    omega
  · rw [htop]
    exact hreach
  · rw [htop, hkind, hask]
  · rw [htop]
    exact hhigh
  · have hzero : q.nibble h = retriesAt band (a :: arest) h := by
      rw [hnib, nibble_zero, Nat.zero_or]
    show 0 < q.nibble h ↔ _
    rw [hzero]
    constructor
    · intro hpos
      obtain ⟨x, hx, hxh⟩ := retriesAt_mem hpos
      refine ⟨x, hxh, hle x hx, ?_⟩
      rw [← hs.tried, ← hspread.tried, ← retriesAt_pos hfalling hxh]
      exact hpos
    · rintro ⟨x, hxh, -, hx⟩
      rwa [retriesAt_pos hfalling hxh, hspread.tried, hs.tried]
  · obtain ⟨x, hx, rfl, rfl, -⟩ := (hspread.tried v m).mpr ((hs.tried v m).mpr hvm)
    exact ⟨x, rfl, rfl, hle x hx, fillRates_valid hf x hx⟩

/-- The entry a get answers has the retries of every rate wanted, and none of these is above the first rate. -/
structure Faithful (band : Band) (out : List TxRate × TxTable) (entry : TxRates) : Prop where
  same : ∀ h < 24, 0 < out.2.nibble h → entry.nibble h = out.2.nibble h
  below : ∃ first rest hw, out.1 = first :: rest ∧ getTxRate band first = some hw ∧
    ∀ h < 24, 0 < out.2.nibble h → h ≤ hw

/-- The highest index reached is one of an MCS rate, or no MCS rate has tries. -/
def TopFirst (short : UInt8) (rates : List TxRate) : Prop :=
  (∃ t ∈ reached rates, (∀ x ∈ reached rates, x.idx ≤ t.idx) ∧ (askedAt rates t.idx).mcs = true) ∨
    ∀ v m, Served rates v m ∨ InjectedFor short rates v m → m = false

theorem Policy.first_mcs {first : TxRate} {hw : Nat} (hp : Policy band short rates out first hw) : first.mcs = true ↔
      ∃ t ∈ reached rates, (∀ x ∈ reached rates, x.idx ≤ t.idx) ∧ (askedAt rates t.idx).mcs = true := by
  obtain ⟨top, htop, hidx⟩ := List.mem_map.mp hp.top
  have hidx : top.idx = first.idx := hidx
  rw [hp.kind]
  constructor
  · intro hm
    rw [← hidx] at hm
    refine ⟨top, htop, fun x hx => ?_, hm⟩
    have := hp.highest x hx
    omega
  · rintro ⟨t, ht, hall, hm⟩
    have h1 := hp.highest t ht
    have h2 := hall top htop
    rwa [show first.idx = t.idx by omega]

theorem below_iff {first : TxRate} {hw : Nat} (hp : Policy band short rates out first hw) :
    (∀ h < 24, 0 < out.2.nibble h → h ≤ hw) ↔ TopFirst short rates := by
  constructor
  · intro hbelow
    by_contra hno
    have hno := not_or.mp hno
    have hlegacy : first.mcs = false := Bool.eq_false_iff.mpr fun hm => hno.1 (hp.first_mcs.mp hm)
    refine hno.2 fun v m hvm => ?_
    by_contra hm
    obtain ⟨r, rfl, rfl, hle, hsome⟩ := hp.used v m hvm
    obtain ⟨h, hh⟩ := Option.isSome_iff_exists.mp hsome
    have hhigh := (getTxRate_mcs hh).mp (by simpa using hm)
    have hlow : ¬ 14 ≤ hw := fun h' => by
      have := (getTxRate_mcs hp.rate).mpr h'
      rw [hlegacy] at this
      cases this
    have hlt := getTxRate_lt hh
    have := hbelow h (by omega) ((hp.nibble h).mpr ⟨r, hh, hle, hvm⟩)
    omega
  · intro htop h _ hpos
    obtain ⟨r, hr, hle, hvm⟩ := (hp.nibble h).mp hpos
    cases hm : r.mcs with
    | true =>
      -- then the first is an MCS rate too
      have hfirst : first.mcs = true := by
        rcases htop with hmcs | hnone
        · exact hp.first_mcs.mpr hmcs
        · have := hnone r.idx r.mcs hvm
          rw [hm] at this
          cases this
      exact getTxRate_mono hr hp.rate (hm.trans hfirst.symm) hle
    | false =>
      cases hf : first.mcs with
      | false => exact getTxRate_mono hr hp.rate (hm.trans hf.symm) hle
      | true =>
        have h1 : 14 ≤ hw := (getTxRate_mcs hp.rate).mp hf
        have h2 : ¬ 14 ≤ h := fun h' => by
          have := (getTxRate_mcs hr).mpr h'
          rw [hm] at this
          cases this
        omega

theorem txPolicyGet_entry {wanted : TxRates} {s s' : PolicyState} {k : Nat} (hget : txPolicyGet wanted s = (s', k))
    (hk : k ≠ invalidRateId) : (s'.cache.policy k).toTxRates = wanted ∨
      txPolicyIsEqual wanted (s'.cache.policy k).toTxRates = true := by
  rw [txPolicyGet] at hget
  cases hpick : txPolicyPick wanted s.cache with
  | none =>
    rw [hpick] at hget
    exact absurd (congrArg Prod.snd hget).symm hk
  | some r =>
    obtain ⟨j, c⟩ := r
    simp only [hpick, Prod.mk.injEq] at hget
    obtain ⟨rfl, rfl⟩ := hget
    have hsame : ((txPolicyUse j c).policy j).toTxRates = (c.policy j).toTxRates := setUsage_rates c j _ j
    rw [lockIf_cache, hsame]
    rcases txPolicyPick_cases hpick with ⟨hfind, rfl⟩ | ⟨-, -, rfl⟩
    · right
      rw [txPolicyFind] at hfind
      rcases Option.or_eq_some_iff.mp hfind with h | ⟨-, h⟩
      · have := List.find?_some h
        exact this
      · have := List.find?_some h
        exact this
    · left
      show (Function.update s.cache.policy j _ j).toTxRates = wanted
      rw [Function.update_self]

/-- **What a get answers is faithful to the policy built exactly when the first rate is of the higher kind, whatever the
cache holds.** -/
theorem policy_faithful_iff {band : Band} {short : UInt8} {r : TxRate} {rest : List TxRate} (hr : 0 ≤ r.idx)
    (hlen : (r :: rest).length ≤ 5) {out : List TxRate × TxTable}
    (hout : txPolicyBuild band short (r :: rest) = some out) {s s' : PolicyState} {k : Nat}
    (hget : txPolicyGet out.2.rates s = (s', k)) (hk : k ≠ invalidRateId) :
    Faithful band out (s'.cache.policy k).toTxRates ↔ TopFirst short (requested (r :: rest)) := by
  obtain ⟨first, hw, hp⟩ := policy_of_build hr hlen hout
  rw [← below_iff hp]
  obtain ⟨rest', hhead⟩ := hp.head
  constructor
  · rintro ⟨-, first', rest'', hw', hhead', hrate, hbelow⟩
    obtain ⟨rfl, -⟩ := List.cons.inj (hhead.symm.trans hhead')
    obtain rfl : hw = hw' := Option.some.inj (hp.rate.symm.trans hrate)
    exact hbelow
  · intro hbelow
    refine ⟨fun h hh hpos => ?_, first, rest', hw, hhead, hp.rate, hbelow⟩
    have hle := hbelow h hh hpos
    rw [← nibble_rates out.2 hh]
    rcases txPolicyGet_entry hget hk with heq | heq
    · rw [heq]
    · apply nibble_of_isEqual heq
      show h < out.2.defined.toNat
      rw [hp.defined]
      omega

/-- The policy of `rates` as wanted of the cache, for frames the function takes. -/
def wantedOf (rates : List TxRate) : TxRates :=
  ((txPolicyBuild .ghz2 7 rates).map fun out => out.2.rates).getD ⟨[], 0, 0⟩

theorem policy_faithful_iff_mcs : TopFirst 7 (requested [⟨7, 3, 8⟩, ⟨4, 2, 0⟩, noRate, noRate, noRate]) := by
  have hbuild : txPolicyBuild .ghz2 7 [⟨7, 3, 8⟩, ⟨4, 2, 0⟩, noRate, noRate, noRate] =
      some ([⟨7, 3, 8⟩, ⟨4, 2, 0⟩, noRate, noRate, noRate], ⟨[0x02000000, 0, 0x00300000], 22, 5⟩) := by
    decide +kernel
  have hget : txPolicyGet (TxTable.rates ⟨[0x02000000, 0, 0x00300000], 22, 5⟩)
      ([.get (wantedOf goodRates)].foldl PolicyAct.next policyStart) = (_, 1) := Prod.ext rfl (by decide +kernel)
  refine (policy_faithful_iff (by decide) (by decide) hbuild hget (by decide)).mp ⟨?_, ?_⟩
  · decide +kernel
  · exact ⟨⟨7, 3, 8⟩, _, 21, rfl, rfl, by decide +kernel⟩

/-- A frame at 54 Mbit/s alone, then one that falls back to MCS 2: it gets the policy of the first, without the MCS
rate. -/
theorem policy_substituted : ¬ ∀ (band : Band) (short : UInt8) (r : TxRate) (rest : List TxRate)
    (out : List TxRate × TxTable) (s s' : PolicyState) (k : Nat), 0 ≤ r.idx → (r :: rest).length ≤ 5 →
      txPolicyBuild band short (r :: rest) = some out → Reach policies s → txPolicyGet out.2.rates s = (s', k) →
        k ≠ invalidRateId → Faithful band out (s'.cache.policy k).toTxRates := by
  intro h
  have hbuild : txPolicyBuild .ghz2 7 [⟨11, 4, 0⟩, ⟨2, 2, 8⟩, noRate, noRate, noRate] =
      some ([⟨11, 4, 0⟩, ⟨2, 2, 8⟩, noRate, noRate, noRate], ⟨[0, 0x00400000, 0x00000002], 14, 6⟩) := by
    decide +kernel
  have hreach : Reach policies
      ([.get (wantedOf [⟨11, 4, 0⟩, noRate, noRate, noRate, noRate])].foldl PolicyAct.next policyStart) :=
    Reach.fires (.init rfl) (by decide +kernel)
  have hf := h .ghz2 7 _ _ _ _ _ 0 (by decide) (by decide) hbuild hreach (Prod.ext rfl (by decide +kernel)) (by decide)
  have hnib := hf.same 16 (by decide) (by decide +kernel)
  revert hnib
  decide +kernel

end AtbmWifi
