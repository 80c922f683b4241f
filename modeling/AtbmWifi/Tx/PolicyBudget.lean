import AtbmWifi.Tx.PolicyTable

/-!
# The retries of a TX policy

What `tx_policy_build` gives for any array of rates.  One pass does not sort: a late rise ends the merge, and what
follows it is lost.  Rates of one index are taken for one, be they MCS or not, and the count of a merged rate may come
out as 0.

* `jumps_iff`: when rates are injected, said of the rates asked for.
-/

namespace AtbmWifi

open Lanes

structure KeepsRates (band : Band) (short : UInt8) (rates : List TxRate) (p : TxTable) : Prop where
  nibble : ∀ r ∈ requested rates, ∃ h, getTxRate band r = some h ∧ 1 ≤ p.nibble h
  retry : p.retryCount.toNat = ∑ h ∈ Finset.range 24, p.nibble h
  budget : p.retryCount.toNat ≤ max short.toNat ((requested rates).map fun r => (r.idx, r.mcs)).dedup.length

/-- The rate is reached, it is of the kind of the first with its index, and their counts do not add up to 0. -/
structure Served (rates : List TxRate) (v : Int) (m : Bool) : Prop where
  among : v ∈ (reached rates).map (·.idx)
  kind : (askedAt rates v).mcs = m
  tried : 0 < tries (reached rates) v

/-- The rates reached are a legacy rate `a` and a low rate `b`, and there are tries for a jump. -/
structure JumpsFrom (short : UInt8) (rates : List TxRate) (a b : Int) : Prop where
  top : a ∈ (reached rates).map (·.idx)
  bottom : b ∈ (reached rates).map (·.idx)
  only : ∀ x ∈ reached rates, x.idx = a ∨ x.idx = b
  legacy : (askedAt rates a).mcs = false
  high : 4 < a
  low : b < 2
  tried : 2 < tries (reached rates) a
  left : totalTries (reached rates) ≤ max short.toNat 2 ∨ 3 < short

def InjectedFor (short : UInt8) (rates : List TxRate) (v : Int) (m : Bool) : Prop :=
  ∃ a b, JumpsFrom short rates a b ∧ (v = 4 ∨ v = (a + 4) / 2) ∧ m = (askedAt rates b).mcs

def RoomFor (short : UInt8) (size : Nat) (rates : List TxRate) : Prop :=
  ∀ a b, JumpsFrom short rates a b → 4 ≤ size ∨ a = 5 ∧ 3 ≤ size

/-! ## The limit, and what is injected then -/

theorem refill_length (limit : Nat) (rates : List TxRate) : (refill limit rates).length = rates.length := by
  induction rates generalizing limit with
  | nil => rfl
  | cons r rates ih => exact congrArg (· + 1) (ih _)

def cutTo (limit total : Nat) (kept : List TxRate) : List TxRate := if limit < total then refill limit kept else kept

theorem cutTo_spec {rates kept : List TxRate} {total : Nat} (hd : Distilled rates kept total) {limit : Nat}
    (hl : kept.length ≤ limit) (hlim : limit < 2 ^ 32) :
    List.Forall₂ SameRate kept (cutTo limit total kept) ∧ totalTries (cutTo limit total kept) ≤ limit := by
  rw [cutTo]
  split
  · exact refill_spec hl hlim
  · have hle := hd.total_le
    exact ⟨List.forall₂_same.mpr fun r _ => SameRate.refl r, by omega⟩

variable {l l' : List TxRate} {x r : TxRate}

theorem tried_same (h : List.Forall₂ SameRate l l') (v : Int) (m : Bool) : Tried l' v m ↔ Tried l v m := by
  induction h with
  | nil => rfl
  | cons hr _ ih => rw [tried_cons, tried_cons, ih, hr.idx, hr.mcs, hr.tried]

theorem Distilled.tried {rates kept : List TxRate} {total : Nat} (hd : Distilled rates kept total) (v : Int)
    (m : Bool) : Tried kept v m ↔ Served rates v m := by
  constructor
  · rintro ⟨k, hk, rfl, rfl, hpos⟩
    obtain ⟨x, hx, rfl⟩ := (hd.mem k).mp hk
    exact ⟨List.mem_map.mpr ⟨x, hx, rfl⟩, rfl, hpos⟩
  · rintro ⟨hreach, hkind, hpos⟩
    obtain ⟨x, hx, rfl⟩ := List.mem_map.mp hreach
    exact ⟨_, (hd.mem _).mpr ⟨x, hx, rfl⟩, rfl, hkind, hpos⟩

theorem Distilled.pair_iff {rates kept : List TxRate} {total : Nat} (hd : Distilled rates kept total) {a b : Int}
    (hab : b < a) : kept = [askedAt rates a, askedAt rates b] ↔ a ∈ (reached rates).map (·.idx) ∧
      b ∈ (reached rates).map (·.idx) ∧ ∀ x ∈ reached rates, x.idx = a ∨ x.idx = b := by
  have hmem : ∀ v, askedAt rates v ∈ kept ↔ v ∈ (reached rates).map (·.idx) := by
    intro v
    rw [hd.mem, List.mem_map]
    constructor
    · rintro ⟨x, hx, heq⟩
      exact ⟨x, hx, (congrArg TxRate.idx heq).symm⟩
    · rintro ⟨x, hx, rfl⟩
      exact ⟨x, hx, rfl⟩
  constructor
  · intro hk
    rw [← hmem, ← hmem, hk]
    refine ⟨by simp, by simp, fun x hx => ?_⟩
    have hx' : askedAt rates x.idx ∈ kept := (hd.mem _).mpr ⟨x, hx, rfl⟩
    rw [hk] at hx'
    rcases List.mem_cons.mp hx' with h | h
    · exact .inl (congrArg TxRate.idx h)
    · exact .inr (congrArg TxRate.idx (List.mem_singleton.mp h))
  · rintro ⟨ha, hb, honly⟩
    have : Std.Irrefl fun a b : TxRate => b.idx < a.idx := ⟨fun x => by omega⟩
    have : Std.Antisymm fun a b : TxRate => b.idx < a.idx := ⟨fun x y h h' => by omega⟩
    refine hd.falling.eq_of_mem_iff ?_ fun k => ?_
    · refine List.pairwise_cons.mpr ⟨?_, List.pairwise_singleton _ _⟩
      intro k hk
      rw [List.mem_singleton.mp hk]
      exact hab
    · rw [List.mem_cons, List.mem_singleton, hd.mem]
      constructor
      · rintro ⟨x, hx, rfl⟩
        rcases honly x hx with h | h
        · exact .inl (h ▸ rfl)
        · exact .inr (h ▸ rfl)
      · rintro (rfl | rfl)
        · obtain ⟨x, hx, rfl⟩ := List.mem_map.mp ha
          exact ⟨x, hx, rfl⟩
        · obtain ⟨x, hx, rfl⟩ := List.mem_map.mp hb
          exact ⟨x, hx, rfl⟩

theorem cutTo_pair {limit : Nat} (total : Nat) (k0 k1 : TxRate) (h2 : 2 ≤ limit) (hlim : limit < 2 ^ 32) :
    ∃ r0 r1, cutTo limit total [k0, k1] = [r0, r1] ∧ SameRate k0 r0 ∧ SameRate k1 r1 ∧
      (2 < r0.count.toNat ↔ 2 < k0.count.toNat ∧ (total ≤ limit ∨ 3 < limit)) := by
  rw [cutTo]
  by_cases hcut : limit < total
  · have hone : [k1].length < limit := h2
    obtain ⟨r0, hr0, hsame0, hcount⟩ := refill_cons (r := k0) hone hlim
    have hcount' : r0.count.toNat = min k0.count.toNat (limit - 1) := hcount
    have hnil : ([] : List TxRate).length < limit - r0.count.toNat := by
      rw [List.length_nil]
      omega
    obtain ⟨r1, hr1, hsame1, -⟩ := refill_cons (r := k1) hnil (by omega)
    refine ⟨r0, r1, ?_, hsame0, hsame1, by omega⟩
    rw [if_pos hcut, hr0, hr1, refill]
  · refine ⟨k0, k1, if_neg hcut, SameRate.refl k0, SameRate.refl k1, by omega⟩

theorem Distilled.asked {rates kept : List TxRate} {total : Nat} (hd : Distilled rates kept total) {k : TxRate}
    (hk : k ∈ kept) : k = askedAt rates k.idx := by
  obtain ⟨x, -, rfl⟩ := (hd.mem k).mp hk
  rfl

theorem jumps_iff {rates kept : List TxRate} {total : Nat} (hd : Distilled rates kept total) (short : UInt8)
    (a b : Int) (m : Bool) :
    (∃ r0 r1, cutTo (max short.toNat kept.length) total kept = [r0, r1] ∧ Jumps r0 r1 ∧ r0.idx = a ∧ r1.idx = b ∧
      r1.mcs = m) ↔ JumpsFrom short rates a b ∧ (askedAt rates b).mcs = m := by
  have hshort := UInt8.toNat_lt short
  have hleft : 3 < short ↔ 3 < max short.toNat 2 := by
    rw [UInt8.lt_iff_toNat_lt]
    show 3 < short.toNat ↔ _
    omega
  constructor
  · rintro ⟨r0, r1, hc, hj, rfl, rfl, rfl⟩
    have hlen : kept.length = 2 := by
      have hsame : kept.length = (cutTo (max short.toNat kept.length) total kept).length := by
        rw [cutTo]
        split
        · exact (refill_length ..).symm
        · rfl
      rw [hsame, hc]
      rfl
    obtain ⟨k0, k1, rfl⟩ := List.length_eq_two.mp hlen
    obtain ⟨q0, q1, hq, hsame0, hsame1, htried⟩ := cutTo_pair total k0 k1
      (by omega : 2 ≤ max short.toNat 2) (by omega)
    obtain ⟨rfl, rfl⟩ : r0 = q0 ∧ r1 = q1 := by
      simpa using hc.symm.trans hq
    have h0 := hd.asked (k := k0) (by simp)
    have h1 := hd.asked (k := k1) (by simp)
    have hlt : k1.idx < k0.idx := (List.pairwise_cons.mp hd.falling).1 k1 (by simp)
    obtain ⟨htop, hbottom, honly⟩ := (hd.pair_iff hlt).mp (by rw [← h0, ← h1])
    have hcount := htried.mp hj.tried
    rw [hsame0.idx, hsame1.idx, hsame1.mcs, ← h1]
    refine ⟨⟨htop, hbottom, honly, ?_, ?_, ?_, ?_, ?_⟩, rfl⟩
    · rw [← h0, ← hsame0.mcs]
      exact hj.legacy
    · rw [← hsame0.idx]
      exact hj.high
    · rw [← hsame1.idx]
      exact hj.low
    · rw [h0] at hcount
      exact hcount.1
    · rw [← hd.total_eq, hleft]
      exact hcount.2
  · rintro ⟨hj, rfl⟩
    have hhigh := hj.high
    have hlow := hj.low
    have hk := (hd.pair_iff (by omega : b < a)).mpr ⟨hj.top, hj.bottom, hj.only⟩
    obtain ⟨r0, r1, hr, hsame0, hsame1, htried⟩ := cutTo_pair total (askedAt rates a) (askedAt rates b)
      (by omega : 2 ≤ max short.toNat 2) (by omega)
    refine ⟨r0, r1, ?_, ⟨hsame0.mcs.trans hj.legacy, ?_, ?_, ?_⟩, hsame0.idx, hsame1.idx, hsame1.mcs⟩
    · rw [hk]
      exact hr
    · rw [hsame0.idx]
      exact hhigh
    · refine htried.mpr ⟨hj.tried, ?_⟩
      rw [hd.total_eq, ← hleft]
      exact hj.left
    · rw [hsame1.idx]
      exact hlow

theorem injected_iff {rates kept : List TxRate} {total : Nat} (hd : Distilled rates kept total) (short : UInt8)
    (v : Int) (m : Bool) :
    Injected (cutTo (max short.toNat kept.length) total kept) v m ↔ InjectedFor short rates v m := by
  constructor
  · rintro ⟨r0, r1, hc, hj, hv, rfl⟩
    obtain ⟨hfrom, hm⟩ := (jumps_iff hd short r0.idx r1.idx r1.mcs).mp ⟨r0, r1, hc, hj, rfl, rfl, rfl⟩
    exact ⟨r0.idx, r1.idx, hfrom, hv, hm.symm⟩
  · rintro ⟨a, b, hfrom, hv, rfl⟩
    obtain ⟨r0, r1, hc, hj, rfl, -, hm⟩ := (jumps_iff hd short a b _).mpr ⟨hfrom, rfl⟩
    exact ⟨r0, r1, hc, hj, hv, hm.symm⟩

theorem room_iff {rates kept : List TxRate} {total : Nat} (hd : Distilled rates kept total) (short : UInt8)
    (size : Nat) : Room size (cutTo (max short.toNat kept.length) total kept) ↔ RoomFor short size rates := by
  constructor
  · intro h a b hfrom
    obtain ⟨r0, r1, hc, hj, rfl, -, -⟩ := (jumps_iff hd short a b _).mpr ⟨hfrom, rfl⟩
    exact h r0 r1 hc hj
  · intro h r0 r1 hc hj
    obtain ⟨hfrom, -⟩ := (jumps_iff hd short r0.idx r1.idx r1.mcs).mp ⟨r0, r1, hc, hj, rfl, rfl, rfl⟩
    exact h r0.idx r1.idx hfrom

theorem mem_reachedFrom {earlier rates : List TxRate} {last : TxRate} (h : x ∈ reachedFrom earlier last rates) :
    x ∈ last :: earlier ∨ x ∈ rates := by
  induction rates generalizing earlier last with
  | nil => exact .inl h
  | cons r rates ih =>
    rw [reachedFrom] at h
    split at h
    · exact .inl (List.mem_of_mem_eraseP h)
    · rcases ih h with h | h
      · rcases List.mem_cons.mp h with rfl | h
        · exact .inr List.mem_cons_self
        · exact .inl h
      · exact .inr (List.mem_cons_of_mem _ h)

theorem mem_reached {rates : List TxRate} (h : x ∈ reached rates) : x ∈ rates := by
  cases rates with
  | nil => cases h
  | cons r rates =>
    rcases mem_reachedFrom h with h | h
    · exact List.mem_singleton.mp h ▸ List.mem_cons_self
    · exact List.mem_cons_of_mem _ h

theorem getTxRate_congr {q : TxRate} (hidx : r.idx = q.idx) (hmcs : r.mcs = q.mcs) (band : Band) :
    getTxRate band r = getTxRate band q := by
  rw [getTxRate, getTxRate, hidx, hmcs]

theorem asked_valid {band : Band} {rates : List TxRate} (h : ∀ r ∈ rates, (getTxRate band r).isSome)
    (hx : x ∈ rates) : (getTxRate band (askedAt rates x.idx)).isSome := by
  have hsome : (rates.find? (·.idx == x.idx)).isSome := List.find?_isSome.mpr ⟨x, hx, beq_self_eq_true _⟩
  obtain ⟨q, hq⟩ := Option.isSome_iff_exists.mp hsome
  have hidx : q.idx = x.idx := by simpa using List.find?_some hq
  have hmcs : (askedAt rates x.idx).mcs = q.mcs := by
    rw [TxRate.mcs, askedAt, flagsOf, hq]
    rfl
  have hask : (askedAt rates x.idx).idx = q.idx := hidx.symm
  rw [getTxRate_congr hask hmcs]
  exact h q (List.mem_of_find?_eq_some hq)

theorem forall₂_right (h : List.Forall₂ SameRate l l') {r' : TxRate} (hr : r' ∈ l') : ∃ r ∈ l, SameRate r r' := by
  induction h with
  | nil => cases hr
  | cons hs _ ih =>
    rcases List.mem_cons.mp hr with rfl | hr
    · exact ⟨_, List.mem_cons_self, hs⟩
    · obtain ⟨r, hr, hs⟩ := ih hr
      exact ⟨r, List.mem_cons_of_mem _ hr, hs⟩

theorem cutTo_pairwise (h : List.Forall₂ SameRate l l')
    (hp : l.Pairwise fun a b => b.idx < a.idx) : l'.Pairwise fun a b => b.idx < a.idx := by
  induction h with
  | nil => exact List.Pairwise.nil
  | cons hs hrest ih =>
    obtain ⟨hhead, hp⟩ := List.pairwise_cons.mp hp
    refine List.pairwise_cons.mpr ⟨fun q hq => ?_, ih hp⟩
    obtain ⟨r, hr, hsq⟩ := forall₂_right hrest hq
    rw [hs.idx, hsq.idx]
    exact hhead r hr

theorem txPolicyBuild_eq (band : Band) (short : UInt8) (rest : List TxRate) (hr : 0 ≤ r.idx) :
    ∃ kept total, ∃ stale : Nat → List TxRate, Distilled (requested (r :: rest)) kept total ∧
      txPolicyBuild band short (r :: rest) =
      (injectRates (r :: rest).length (cutTo (max short.toNat kept.length) total kept)).bind fun final =>
        (final.head?.bind (getTxRate band)).bind fun hw =>
          (fillRates band ⟨[0, 0, 0], UInt8.ofNat hw + 1, 0⟩ final).map fun f => (f.1 ++ stale f.1.length, f.2) := by
  have hreq : requested (r :: rest) = r :: requested rest := by
    simp [requested, hr]
  obtain ⟨first, others, hpass, hd⟩ := distilled r (requested rest)
  have htake : (sortPass r rest).1.take (sortPass r rest).2 = first :: others := by
    rw [sortPass_eq, ← hpass]
    exact List.take_left' (length_pass r _)
  refine ⟨_, _, fun n => (sortPass r rest).1.drop n, hreq ▸ hd, ?_⟩
  rw [txPolicyBuild, if_neg (by omega)]
  simp only [htake]
  rfl

structure Built (band : Band) (cut final : List TxRate) (p : TxTable) : Prop where
  spread : Spread cut final
  falling : final.Pairwise fun a b => b.idx < a.idx
  valid : ∀ r ∈ final, (getTxRate band r).isSome
  nibble : ∀ h, p.nibble h = retriesAt band final h
  retry : p.retryCount.toNat = (final.map (·.retries.toNat)).sum
  defined : ∃ r rest hw, final = r :: rest ∧ getTxRate band r = some hw ∧ p.defined = UInt8.ofNat hw + 1

theorem nibble_zero (defined count : UInt8) (h : Nat) : TxTable.nibble ⟨[0, 0, 0], defined, count⟩ h = 0 := by
  have hword : ([0, 0, 0] : List Nat).getD (h / 8) 0 = 0 := by
    rw [List.getD_eq_getElem?_getD]
    match h / 8 with
    | 0 | 1 | 2 => rfl
    | _ + 3 => rfl
  rw [TxTable.nibble, hword, lane_zero]

theorem built {band : Band} {cut : List TxRate} {size : Nat} (stale : Nat → List TxRate) (hne : cut ≠ [])
    (hlen : cut.length ≤ 15) (hp : cut.Pairwise fun a b => b.idx < a.idx)
    (hvalid : ∀ r ∈ cut, (getTxRate band r).isSome) (hroom : Room size cut) :
    ∃ final out, ((injectRates size cut).bind fun final =>
        (final.head?.bind (getTxRate band)).bind fun hw =>
          (fillRates band ⟨[0, 0, 0], UInt8.ofNat hw + 1, 0⟩ final).map fun f => (f.1 ++ stale f.1.length, f.2)) =
        some out ∧ Built band cut final out.2 := by
  obtain ⟨final, hfinal, hs⟩ := (injectRates_spec size hne).1 hroom
  have hfalling := hs.falling hp
  have hv := hs.valid band hvalid
  obtain ⟨r, rest, rfl, -⟩ := hs.head
  obtain ⟨hw, hhw⟩ := Option.isSome_iff_exists.mp (hv r List.mem_cons_self)
  obtain ⟨filled, q, hq, -, hnib, hcount, hdef, -⟩ :=
    fillRates_spec (p := ⟨[0, 0, 0], UInt8.ofNat hw + 1, 0⟩) rfl hv hfalling
  refine ⟨r :: rest, (filled ++ stale filled.length, q), ?_, hs, hfalling, hv, ?_, ?_, r, rest, hw, rfl, hhw, hdef⟩
  · rw [hfinal, Option.bind_some, List.head?_cons, Option.bind_some, hhw, Option.bind_some, hq]
    rfl
  · intro h
    rw [hnib, nibble_zero, Nat.zero_or]
  · have hlen' := hs.length
    rw [hcount, UInt8.zero_add, toNat_sum_retries (by omega)]

theorem Distilled.length_le {rates kept : List TxRate} {total : Nat} (hd : Distilled rates kept total) :
    kept.length ≤ (rates.map fun r => (r.idx, r.mcs)).dedup.length := by
  have hnodup : (kept.map (·.idx)).Nodup := by
    apply List.Pairwise.map (R := fun a b : TxRate => b.idx < a.idx)
    · intro a b hab heq
      omega
    · exact hd.falling
  have hsub : kept.map (·.idx) ⊆ ((rates.map fun r => (r.idx, r.mcs)).dedup.map Prod.fst) := by
    intro v hv
    obtain ⟨k, hk, rfl⟩ := List.mem_map.mp hv
    obtain ⟨x, hx, rfl⟩ := (hd.mem k).mp hk
    refine List.mem_map.mpr ⟨(x.idx, x.mcs), List.mem_dedup.mpr ?_, rfl⟩
    exact List.mem_map.mpr ⟨x, mem_reached hx, rfl⟩
  have hle := (List.subperm_of_subset hnodup hsub).length_le
  rwa [List.length_map, List.length_map] at hle

/-- What is known of the function on an array of the frame, up to what is cut to the limit. -/
structure Stages (band : Band) (short : UInt8) (rates kept cut : List TxRate) (total : Nat)
    (stale : Nat → List TxRate) : Prop where
  distilled : Distilled (requested rates) kept total
  cut_eq : cut = cutTo (max short.toNat kept.length) total kept
  build : txPolicyBuild band short rates = (injectRates rates.length cut).bind fun final =>
    (final.head?.bind (getTxRate band)).bind fun hw =>
      (fillRates band ⟨[0, 0, 0], UInt8.ofNat hw + 1, 0⟩ final).map fun f => (f.1 ++ stale f.1.length, f.2)
  same : List.Forall₂ SameRate kept cut
  total_le : totalTries cut ≤ max short.toNat kept.length
  length_le : kept.length ≤ 5

theorem stages (band : Band) (short : UInt8) {rest : List TxRate} (hr : 0 ≤ r.idx)
    (hlen : (r :: rest).length ≤ 5) : ∃ kept cut total stale, Stages band short (r :: rest) kept cut total stale := by
  obtain ⟨kept, total, stale, hd, hbuild⟩ := txPolicyBuild_eq band short rest hr
  have hshort := UInt8.toNat_lt short
  have hkept : kept.length ≤ 5 := by
    refine Nat.le_trans hd.length_le (Nat.le_trans (List.dedup_sublist _).length_le (Nat.le_trans ?_ hlen))
    rw [List.length_map]
    exact (List.takeWhile_prefix _).length_le
  obtain ⟨hsame, htotal⟩ := cutTo_spec hd (Nat.le_max_right short.toNat kept.length) (by omega)
  exact ⟨kept, _, total, stale, hd, rfl, hbuild, hsame, htotal, hkept⟩

namespace Stages

variable {band : Band} {short : UInt8} {rates kept cut : List TxRate} {total : Nat} {stale : Nat → List TxRate}
  (hs : Stages band short rates kept cut total stale)
include hs

theorem length_eq : cut.length = kept.length := hs.same.length_eq.symm

theorem ne_nil : cut ≠ [] := by
  intro h
  have hlen := hs.length_eq
  rw [h] at hlen
  exact hs.distilled.ne_nil (List.eq_nil_of_length_eq_zero hlen.symm)

theorem falling : cut.Pairwise fun a b => b.idx < a.idx := cutTo_pairwise hs.same hs.distilled.falling

theorem valid (h : ∀ x ∈ requested rates, (getTxRate band x).isSome) : ∀ x ∈ cut, (getTxRate band x).isSome := by
  intro x hx
  obtain ⟨k, hk, hsame⟩ := forall₂_right hs.same hx
  obtain ⟨y, hy, rfl⟩ := (hs.distilled.mem k).mp hk
  rw [getTxRate_congr hsame.idx hsame.mcs]
  exact asked_valid h (mem_reached hy)

theorem room : Room rates.length cut ↔ RoomFor short rates.length (requested rates) := by
  rw [hs.cut_eq]
  exact room_iff hs.distilled short _

theorem tried (v : Int) (m : Bool) :
    Tried cut v m ∨ Injected cut v m ↔ Served (requested rates) v m ∨ InjectedFor short (requested rates) v m := by
  rw [tried_same hs.same, hs.distilled.tried, hs.cut_eq, injected_iff hs.distilled]

end Stages

/-- The rates asked for are served or injected, and there is room. -/
structure KeptWhen (band : Band) (short : UInt8) (rates : List TxRate) : Prop where
  valid : ∀ r ∈ requested rates, (getTxRate band r).isSome
  served : ∀ r ∈ requested rates,
    Served (requested rates) r.idx r.mcs ∨ InjectedFor short (requested rates) r.idx r.mcs
  room : RoomFor short rates.length (requested rates)

/-- **The policy keeps every rate within the budget exactly when each rate is reached, with rates of its kind and a
count that is not 0, or is one of the injected, and these have room in the array.** -/
theorem policy_build_iff (band : Band) (short : UInt8) {r : TxRate} {rest : List TxRate} (hr : 0 ≤ r.idx)
    (hlen : (r :: rest).length ≤ 5) :
    (∃ out, txPolicyBuild band short (r :: rest) = some out ∧ KeepsRates band short (r :: rest) out.2) ↔
      KeptWhen band short (r :: rest) := by
  obtain ⟨kept, cut, total, stale, hs⟩ := stages band short hr hlen
  have hmain : (∀ x ∈ requested (r :: rest), (getTxRate band x).isSome) → RoomFor short (r :: rest).length
      (requested (r :: rest)) → ∃ out, txPolicyBuild band short (r :: rest) = some out ∧
        (∀ x h, getTxRate band x = some h → (1 ≤ out.2.nibble h ↔ Served (requested (r :: rest)) x.idx x.mcs ∨
          InjectedFor short (requested (r :: rest)) x.idx x.mcs)) ∧
        out.2.retryCount.toNat = ∑ h ∈ Finset.range 24, out.2.nibble h ∧
        out.2.retryCount.toNat ≤ max short.toNat kept.length := by
    intro hv hroom
    have hlen' := hs.length_le
    obtain ⟨final, out, hout, hb⟩ := built stale hs.ne_nil (by rw [hs.length_eq]; omega) hs.falling (hs.valid hv)
      (hs.room.mpr hroom)
    refine ⟨out, hs.build.trans hout, fun x h hx => ?_, ?_, ?_⟩
    · rw [hb.nibble, Nat.succ_le_iff, retriesAt_pos hb.falling hx, hb.spread.tried, hs.tried]
    · rw [hb.retry, Finset.sum_congr rfl fun h _ => hb.nibble h,
        sum_retriesAt hb.valid hb.falling fun h hh => Finset.mem_range.mpr hh]
    · have hsum := (sum_retries_le final).1
      have htotal := hs.total_le
      have := hb.spread.total
      rw [hb.retry]
      omega
  constructor
  · rintro ⟨out, hout, hk⟩
    have hv : ∀ x ∈ requested (r :: rest), (getTxRate band x).isSome := by
      intro x hx
      obtain ⟨h, hh, -⟩ := hk.nibble x hx
      rw [hh]
      rfl
    have hroom : RoomFor short (r :: rest).length (requested (r :: rest)) := by
      by_contra hno
      rw [← hs.room] at hno
      rw [hs.build, (injectRates_spec _ hs.ne_nil).2 hno] at hout
      cases hout
    obtain ⟨out', hout', hserved, -⟩ := hmain hv hroom
    obtain rfl : out = out' := Option.some.inj (hout.symm.trans hout')
    refine ⟨hv, fun x hx => ?_, hroom⟩
    obtain ⟨h, hh, hnib⟩ := hk.nibble x hx
    exact (hserved x h hh).mp hnib
  · intro hk
    obtain ⟨out, hout, hserved, hretry, hbudget⟩ := hmain hk.valid hk.room
    refine ⟨out, hout, fun x hx => ?_, hretry, ?_⟩
    · obtain ⟨h, hh⟩ := Option.isSome_iff_exists.mp (hk.valid x hx)
      exact ⟨h, hh, (hserved x h hh).mpr (hk.served x hx)⟩
    · have := hs.distilled.length_le
      omega

def noRate : TxRate := ⟨-1, 1, 0⟩

def goodRates : List TxRate := [⟨11, 4, 0⟩, ⟨4, 2, 0⟩, ⟨2, 2, 8⟩, noRate, noRate]

theorem policy_build_iff_good : KeptWhen .ghz2 7 goodRates := by
  refine (policy_build_iff .ghz2 7 (by decide) (by decide)).mp ⟨_, rfl, ?_, by decide +kernel, by decide +kernel⟩
  show ∀ r ∈ [(⟨11, 4, 0⟩ : TxRate), ⟨4, 2, 0⟩, ⟨2, 2, 8⟩], _
  simp only [List.forall_mem_cons]
  exact ⟨⟨13, rfl, by decide +kernel⟩, ⟨6, rfl, by decide +kernel⟩, ⟨16, rfl, by decide +kernel⟩, nofun⟩

/-- The rates 1, 2 and 5.5 Mbit/s rising: the pass puts 2 first, then 5.5, and only 2 is kept. -/
def risingRates : List TxRate := [⟨0, 2, 0⟩, ⟨1, 2, 0⟩, ⟨2, 2, 0⟩, noRate, noRate]

theorem rates_lost : ¬ ∀ (band : Band) (short : UInt8) (r : TxRate) (rest : List TxRate), 0 ≤ r.idx →
    (r :: rest).length ≤ 5 → (∀ x ∈ requested (r :: rest), 1 ≤ x.count) →
      ∃ out, txPolicyBuild band short (r :: rest) = some out ∧ KeepsRates band short (r :: rest) out.2 := by
  intro h
  obtain ⟨out, hout, hk⟩ := h .ghz2 7 ⟨0, 2, 0⟩ [⟨1, 2, 0⟩, ⟨2, 2, 0⟩, noRate, noRate] (by decide) (by decide)
    (by decide)
  have hbuilt : txPolicyBuild .ghz2 7 risingRates =
      some ([⟨1, 2, 0⟩, ⟨2, 2, 0⟩, ⟨0, 2, 0⟩, noRate, noRate], ⟨[0x20, 0, 0], 2, 2⟩) := by
    decide +kernel
  obtain rfl := Option.some.inj (hbuilt.symm.trans hout)
  obtain ⟨n, hn, hnib⟩ := hk.nibble ⟨2, 2, 0⟩ (by decide)
  obtain rfl : n = 2 := Option.some.inj (hn.symm.trans rfl)
  revert hnib
  decide +kernel

end AtbmWifi
