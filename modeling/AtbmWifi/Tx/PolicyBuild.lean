import Mathlib.Algebra.BigOperators.Group.Finset.Basic
import Mathlib.Algebra.BigOperators.Group.List.Basic
import Mathlib.Data.UInt
import AtbmWifi.Lib.Lanes

/-!
# Building a TX policy

`tx_policy_build` turns the rates of a frame into a table of retries, one nibble for each rate of the hardware.  It
sorts the rates, merges the duplicates, cuts the counts to the limit, injects g-rates between a high and a low rate, and
fills the table.  The rates of a table and the MCS rates share their indices.

* `sortPass_eq`, `eliminate_eq`: one pass of a bubble sort, and the merge of what falls of it.
* `refill_spec`: the counts cut to the limit.
-/

namespace AtbmWifi

open Lanes

structure TxRate where
  idx : Int
  count : UInt8
  flags : UInt8
  deriving DecidableEq, Repr

def TxRate.mcs (r : TxRate) : Bool := r.flags &&& 8 != 0

inductive Band
  | ghz2
  | ghz5
  deriving DecidableEq, Repr

/-- `hw_value` of `atbm_rates`, from the fifth on for 5 GHz -/
def Band.bitrates : Band → List Nat
  | .ghz2 => [0, 1, 2, 3, 6, 7, 8, 9, 10, 11, 12, 13]
  | .ghz5 => [6, 7, 8, 9, 10, 11, 12, 13]

def mcsRates : List Nat := [14, 15, 16, 17, 18, 19, 20, 21, 22]

/-- `atbm_get_tx_rate`: the `hw_value`, none for `NULL` and beyond the rates. -/
def getTxRate (band : Band) (r : TxRate) : Option Nat :=
  if r.idx < 0 then none
  else if r.mcs then mcsRates[r.idx.toNat]?
  else band.bitrates[r.idx.toNat]?

structure TxTable where
  tbl : List Nat
  defined : UInt8
  retryCount : UInt8
  deriving DecidableEq, Repr

/-- The difference of two `unsigned`. -/
def usub (a b : Nat) : Nat := (a + 2 ^ 32 - b) % 2 ^ 32

/-- The pass over `rates[i]` with `rates[i - 1]`, and the new `count`. -/
def sortPass (last : TxRate) : List TxRate → List TxRate × Nat
  | [] => ([last], 1)
  | r :: rates =>
    if r.idx < 0 then (last :: r :: rates, 1)
    else if last.idx < r.idx then
      let p := sortPass last rates
      (r :: p.1, p.2 + 1)
    else
      let p := sortPass r rates
      (last :: p.1, p.2 + 1)

/-- The loop over `rates[j]` with `rates[i]`, and `total`. -/
def eliminate (cur : TxRate) (total : Nat) : List TxRate → List TxRate × Nat
  | [] => ([cur], total)
  | r :: rates =>
    if r.idx = cur.idx then eliminate { cur with count := cur.count + r.count } (total + r.count.toNat) rates
    else if cur.idx < r.idx then ([cur], total)
    else
      let p := eliminate r (total + r.count.toNat) rates
      (cur :: p.1, p.2)

def refill (limit : Nat) : List TxRate → List TxRate
  | [] => []
  | r :: rates =>
    let room := usub limit rates.length
    let r := if room < r.count.toNat then { r with count := UInt8.ofNat room } else r
    r :: refill (usub limit r.count.toNat) rates

/-- The workaround for CTS on an array of `size`, none for a write beyond it. -/
def injectRates (size : Nat) (rates : List TxRate) : Option (List TxRate) :=
  match rates with
  | [r0, r1] =>
    if r0.mcs = false ∧ 4 < r0.idx ∧ 2 < r0.count ∧ r1.idx < 2 then
      let mid := Int.shiftRight (r0.idx + 4) 1
      let count := r0.count - 2
      if mid ≠ 4 then
        if 4 ≤ size then
          some
            [{ r0 with count := if 3 ≤ count then count - 1 else count }, ⟨mid, 1, r1.flags⟩,
              ⟨4, if 3 ≤ count then 2 else 1, r1.flags⟩, r1]
        else none
      else if 3 ≤ size then some [{ r0 with count := count }, ⟨4, 2, r1.flags⟩, r1]
      else none
    else some rates
  | _ => some rates

/-- The table and the counts that are cut to a nibble, none for an index beyond a table. -/
def fillRates (band : Band) (p : TxTable) : List TxRate → Option (List TxRate × TxTable)
  | [] => some ([], p)
  | r :: rates =>
    (getTxRate band r).bind fun rateid =>
      if rateid >>> 3 < p.tbl.length then
        let retries := if 0x0F < r.count then 0x0F else r.count
        let p :=
          { p with
            tbl := p.tbl.modify (rateid >>> 3) (· ||| retries.toNat <<< ((rateid &&& 7) <<< 2))
            retryCount := p.retryCount + retries }
        (fillRates band p rates).map fun q => ({ r with count := retries } :: q.1, q.2)
      else none

/-- The array of the frame and the policy; none for the `BUG_ON` and for an index beyond an array. -/
def txPolicyBuild (band : Band) (shortFrameMaxTxCount : UInt8) (rates : List TxRate) :
    Option (List TxRate × TxTable) :=
  match rates with
  | [] => none
  | r :: rest =>
    if r.idx < 0 then none
    else
      let p := sortPass r rest
      match p.1.take p.2 with
      | [] => none
      | first :: others =>
        let q := eliminate first first.count.toNat others
        let limit := max shortFrameMaxTxCount.toNat q.1.length
        let kept := if limit < q.2 then refill limit q.1 else q.1
        (injectRates rates.length kept).bind fun final =>
          (final.head?.bind (getTxRate band)).bind fun hw =>
            (fillRates band ⟨[0, 0, 0], UInt8.ofNat hw + 1, 0⟩ final).map fun f =>
              (f.1 ++ p.1.drop f.1.length, f.2)

def TxTable.nibble (p : TxTable) (rateid : Nat) : Nat := lane 4 (rateid % 8) (p.tbl.getD (rateid / 8) 0)

def requested (rates : List TxRate) : List TxRate := rates.takeWhile (0 ≤ ·.idx)

/-- A rate above the one before it and above one still before. -/
def LateRise (earlier : List TxRate) (last r : TxRate) : Prop :=
  last.idx < r.idx ∧ ∃ x ∈ earlier, x.idx < r.idx

instance (earlier : List TxRate) (last r : TxRate) : Decidable (LateRise earlier last r) :=
  inferInstanceAs (Decidable (_ ∧ _))

def dropLowest (l : List TxRate) : List TxRate := l.eraseP fun x => ∀ y ∈ l, x.idx ≤ y.idx

def reachedFrom (earlier : List TxRate) (last : TxRate) : List TxRate → List TxRate
  | [] => last :: earlier
  | r :: rates =>
    if LateRise earlier last r then dropLowest (last :: earlier) else reachedFrom (last :: earlier) r rates

/-- All rates, or those before the first late rise without the latest of the lowest. -/
def reached : List TxRate → List TxRate
  | [] => []
  | r :: rates => reachedFrom [] r rates

/-- The tries asked for with an index, in the `u8` of a count. -/
def tries (rates : List TxRate) (v : Int) : UInt8 := ((rates.filter (·.idx == v)).map (·.count)).sum

def totalTries (rates : List TxRate) : Nat := (rates.map (·.count.toNat)).sum

def flagsOf (rates : List TxRate) (v : Int) : UInt8 := ((rates.find? (·.idx == v)).map (·.flags)).getD 0

def mergedAt (rates : List TxRate) (v : Int) : TxRate := ⟨v, tries rates v, flagsOf rates v⟩

def pass (last : TxRate) : List TxRate → List TxRate
  | [] => [last]
  | r :: rates => if last.idx < r.idx then r :: pass last rates else last :: pass r rates

theorem sortPass_eq (last : TxRate) (rates : List TxRate) :
    sortPass last rates =
      (pass last (requested rates) ++ rates.dropWhile (0 ≤ ·.idx), (requested rates).length + 1) := by
  induction rates generalizing last with
  | nil => rfl
  | cons r rates ih =>
    by_cases hr : r.idx < 0
    · have hneg : ¬ 0 ≤ r.idx := by omega
      simp [sortPass, requested, pass, hr, hneg]
    · have hpos : 0 ≤ r.idx := by omega
      have hreq : requested (r :: rates) = r :: requested rates := by
        simp [requested, hpos]
      rw [hreq, sortPass, if_neg hr, pass, List.dropWhile_cons_of_pos (by simpa using hpos), List.length_cons]
      split
      · rw [ih last]
        rfl
      · rw [ih r]
        rfl

theorem length_pass (last : TxRate) (rates : List TxRate) : (pass last rates).length = rates.length + 1 := by
  induction rates generalizing last with
  | nil => rfl
  | cons r rates ih =>
    rw [pass]
    split <;> rw [List.length_cons, ih, List.length_cons]

theorem pass_filter (last : TxRate) (rates : List TxRate) (v : Int) :
    (pass last rates).filter (·.idx == v) = (last :: rates).filter (·.idx == v) := by
  induction rates generalizing last with
  | nil => rfl
  | cons r rates ih =>
    rw [pass]
    split
    · next h =>
      rw [List.filter_cons, ih last]
      by_cases hr : r.idx = v
      · have hlast : last.idx ≠ v := by omega
        simp [hr, hlast]
      · simp [List.filter_cons, hr]
    · rw [List.filter_cons, ih r, List.filter_cons (x := last)]

def falls (v : Int) : List TxRate → List TxRate
  | [] => []
  | r :: rates => if v < r.idx then [] else r :: falls r.idx rates

def merge (cur : TxRate) : List TxRate → List TxRate
  | [] => [cur]
  | r :: rates =>
    if r.idx = cur.idx then merge { cur with count := cur.count + r.count } rates else cur :: merge r rates

theorem eliminate_eq (cur : TxRate) (total : Nat) (rates : List TxRate) :
    eliminate cur total rates = (merge cur (falls cur.idx rates), total + totalTries (falls cur.idx rates)) := by
  induction rates generalizing cur total with
  | nil => rfl
  | cons r rates ih =>
    rw [eliminate, falls]
    by_cases heq : r.idx = cur.idx
    · rw [if_pos heq, ih, if_neg (by omega), merge, if_pos heq, heq]
      simp only [totalTries, List.map_cons, List.sum_cons, Nat.add_assoc]
    · rw [if_neg heq]
      by_cases hlt : cur.idx < r.idx
      · rw [if_pos hlt, if_pos hlt]
        rfl
      · rw [if_neg hlt, if_neg hlt, ih, merge, if_neg heq]
        simp only [totalTries, List.map_cons, List.sum_cons, Nat.add_assoc]

variable {r cur : TxRate} {rates : List TxRate}

theorem falls_le {v : Int} (h : r ∈ falls v rates) : r.idx ≤ v := by
  induction rates generalizing v with
  | nil => cases h
  | cons q rates ih =>
    rw [falls] at h
    split at h
    · cases h
    · rcases List.mem_cons.mp h with rfl | h
      · omega
      · have := ih h
        omega

theorem falls_prefix (v : Int) (rates : List TxRate) : falls v rates <+: rates := by
  induction rates generalizing v with
  | nil => exact List.prefix_rfl
  | cons r rates ih =>
    rw [falls]
    split
    · exact List.nil_prefix
    · exact (List.cons_prefix_cons).mpr ⟨rfl, ih r.idx⟩

theorem falls_pairwise (cur : TxRate) (rates : List TxRate) :
    (cur :: falls cur.idx rates).Pairwise fun a b => b.idx ≤ a.idx := by
  induction rates generalizing cur with
  | nil => exact List.pairwise_singleton _ _
  | cons r rates ih =>
    apply List.Pairwise.cons
    · intro b hb
      exact falls_le hb
    · rw [falls]
      split
      · exact List.Pairwise.nil
      · exact ih r

theorem mergedAt_cons_ne {v : Int} (h : r.idx ≠ v) (rates : List TxRate) :
    mergedAt (r :: rates) v = mergedAt rates v := by
  simp [mergedAt, tries, flagsOf, h]

theorem mergedAt_cons_eq (h : r.idx = cur.idx) (rates : List TxRate) (v : Int) :
    mergedAt ({ cur with count := cur.count + r.count } :: rates) v = mergedAt (cur :: r :: rates) v := by
  by_cases hv : cur.idx = v
  · have hr : r.idx = v := h.trans hv
    simp [mergedAt, tries, flagsOf, hv, hr, add_assoc]
  · have hr : ¬ r.idx = v := fun h' => hv (h.symm.trans h')
    simp [mergedAt, tries, flagsOf, hv, hr]

theorem mergedAt_self (h : ∀ x ∈ rates, x.idx ≠ r.idx) : mergedAt (r :: rates) r.idx = r := by
  have hnil : rates.filter (fun x => x.idx == r.idx) = [] := by
    apply List.filter_eq_nil_iff.mpr
    intro x hx
    simpa using h x hx
  simp [mergedAt, tries, flagsOf, hnil]

theorem mem_merge (hp : (cur :: rates).Pairwise fun a b => b.idx ≤ a.idx) (k : TxRate) :
    k ∈ merge cur rates ↔ ∃ x ∈ cur :: rates, k = mergedAt (cur :: rates) x.idx := by
  induction rates generalizing cur with
  | nil =>
    have hself : mergedAt [cur] cur.idx = cur := mergedAt_self nofun
    simp [merge, hself]
  | cons r rates ih =>
    obtain ⟨hcur, hp⟩ := List.pairwise_cons.mp hp
    obtain ⟨hr, hrest⟩ := List.pairwise_cons.mp hp
    rw [merge]
    split
    · next heq =>
      have hp' : ({ cur with count := cur.count + r.count } :: rates).Pairwise fun a b => b.idx ≤ a.idx :=
        List.pairwise_cons.mpr ⟨fun x hx => heq ▸ hr x hx, hrest⟩
      rw [ih hp']
      simp only [mergedAt_cons_eq heq, List.mem_cons, exists_eq_or_imp]
      rw [heq, or_self_left]
    · next hne =>
      have hlt : ∀ x ∈ r :: rates, x.idx ≠ cur.idx := by
        intro x hx
        have hle := hcur r List.mem_cons_self
        rcases List.mem_cons.mp hx with rfl | hx
        · omega
        · have := hr x hx
          omega
      rw [List.mem_cons, ih hp]
      constructor
      · rintro (rfl | ⟨x, hx, rfl⟩)
        · exact ⟨k, List.mem_cons_self, (mergedAt_self hlt).symm⟩
        · exact ⟨x, List.mem_cons_of_mem _ hx, (mergedAt_cons_ne (hlt x hx).symm _).symm⟩
      · rintro ⟨x, hx, rfl⟩
        rcases List.mem_cons.mp hx with rfl | hx
        · exact .inl (mergedAt_self hlt)
        · exact .inr ⟨x, hx, mergedAt_cons_ne (hlt x hx).symm _⟩

theorem merge_pairwise (hp : (cur :: rates).Pairwise fun a b => b.idx ≤ a.idx) :
    (merge cur rates).Pairwise fun a b => b.idx < a.idx := by
  induction rates generalizing cur with
  | nil => exact List.pairwise_singleton _ _
  | cons r rates ih =>
    obtain ⟨hcur, hp⟩ := List.pairwise_cons.mp hp
    obtain ⟨hr, hrest⟩ := List.pairwise_cons.mp hp
    rw [merge]
    split
    · next heq => exact ih (List.pairwise_cons.mpr ⟨fun x hx => heq ▸ hr x hx, hrest⟩)
    · next hne =>
      refine List.pairwise_cons.mpr ⟨fun k hk => ?_, ih hp⟩
      obtain ⟨x, hx, rfl⟩ := (mem_merge hp k).mp hk
      show x.idx < cur.idx
      have hle := hcur r List.mem_cons_self
      rcases List.mem_cons.mp hx with rfl | hx
      · omega
      · have := hr x hx
        omega

theorem totalTries_cons (r : TxRate) (rates : List TxRate) :
    totalTries (r :: rates) = r.count.toNat + totalTries rates := rfl

theorem totalTries_merge (cur : TxRate) (rates : List TxRate) :
    totalTries (merge cur rates) ≤ totalTries (cur :: rates) := by
  induction rates generalizing cur with
  | nil => exact Nat.le_refl _
  | cons r rates ih =>
    rw [merge]
    split
    · have h := ih { cur with count := cur.count + r.count }
      have hwrap : (cur.count + r.count).toNat ≤ cur.count.toNat + r.count.toNat := by
        rw [UInt8.toNat_add]
        exact Nat.mod_le _ _
      simp only [totalTries_cons] at h ⊢
      omega
    · have h := ih r
      simp only [totalTries_cons] at h ⊢
      omega

theorem merge_ne_nil (cur : TxRate) (rates : List TxRate) : merge cur rates ≠ [] := by
  induction rates generalizing cur with
  | nil => exact List.cons_ne_nil _ _
  | cons r rates ih =>
    rw [merge]
    split
    · exact ih _
    · exact List.cons_ne_nil _ _

theorem dropLowest_eq {before after : List TxRate} {c : TxRate} (hb : ∀ x ∈ before, c.idx < x.idx)
    (ha : ∀ x ∈ after, c.idx ≤ x.idx) : dropLowest (before ++ c :: after) = before ++ after := by
  rw [dropLowest, List.eraseP_append_right]
  · rw [List.eraseP_cons_of_pos]
    simp only [decide_eq_true_eq, List.mem_append, List.mem_cons]
    rintro y (hy | rfl | hy)
    · exact Int.le_of_lt (hb y hy)
    · exact Int.le_refl _
    · exact ha y hy
  · intro x hx hall
    have hle := of_decide_eq_true hall c (by simp)
    have := hb x hx
    omega

theorem reachedFrom_perm {earlier : List TxRate} (before after put : List TxRate) {last c e : TxRate}
    (hsplit : last :: earlier = before ++ c :: after) (hb : ∀ x ∈ before, c.idx < x.idx)
    (ha : ∀ x ∈ after, c.idx ≤ x.idx) (hperm : (e :: put).Perm (before ++ after))
    (hlate : ∀ v, e.idx < v ↔ last.idx < v ∧ ∃ x ∈ earlier, x.idx < v) :
    (put ++ e :: falls e.idx (pass c rates)).Perm (reachedFrom earlier last rates) := by
  have hce : c.idx ≤ e.idx := by
    rcases List.mem_append.mp (hperm.mem_iff.mp List.mem_cons_self) with h | h
    · exact Int.le_of_lt (hb e h)
    · exact ha e h
  have hall : ∀ x ∈ last :: earlier, c.idx ≤ x.idx := by
    rw [hsplit]
    simp only [List.mem_append, List.mem_cons]
    rintro x (hx | rfl | hx)
    · exact Int.le_of_lt (hb x hx)
    · exact Int.le_refl _
    · exact ha x hx
  have hfull : (c :: e :: put).Perm (last :: earlier) := by
    rw [hsplit]
    exact (hperm.cons c).trans List.perm_middle.symm
  induction rates generalizing earlier before after put last c e with
  | nil =>
    rw [pass, falls, if_neg (by omega), falls, reachedFrom]
    refine (List.perm_append_comm.trans ?_).trans hfull
    exact List.Perm.swap c e put
  | cons r rates ih =>
    have hrise : LateRise earlier last r ↔ e.idx < r.idx := (hlate r.idx).symm
    rw [pass]
    by_cases hcr : c.idx < r.idx
    · rw [if_pos hcr, falls]
      by_cases her : e.idx < r.idx
      · rw [if_pos her, reachedFrom, if_pos (hrise.mpr her), hsplit, dropLowest_eq hb ha]
        exact List.perm_append_comm.trans hperm
      · rw [if_neg her, reachedFrom, if_neg (fun h => her (hrise.mp h))]
        have hmid : (put ++ e :: r :: falls r.idx (pass c rates)).Perm
            ((e :: put) ++ r :: falls r.idx (pass c rates)) := List.perm_middle
        refine hmid.trans ?_
        have hsplit' : r :: last :: earlier = (r :: before) ++ c :: after := by
          rw [hsplit, List.cons_append]
        refine ih (r :: before) after (e :: put) hsplit' ?_ ha ?_ ?_ (Int.le_of_lt hcr) ?_ ?_
        · intro x hx
          rcases List.mem_cons.mp hx with rfl | hx
          · exact hcr
          · exact hb x hx
        · exact hperm.cons r
        · intro v
          refine ⟨fun h => ⟨h, c, ?_, by omega⟩, fun h => h.1⟩
          rw [hsplit]
          simp
        · intro x hx
          rcases List.mem_cons.mp hx with rfl | hx
          · exact Int.le_of_lt hcr
          · exact hall x hx
        · refine List.Perm.trans ?_ (hfull.cons r)
          exact List.Perm.swap r c (e :: put)
    · rw [if_neg hcr, falls, if_neg (by omega), reachedFrom, if_neg (fun h => by
        have := hrise.mp h
        omega)]
      have hmid : (put ++ e :: c :: falls c.idx (pass r rates)).Perm
          ((e :: put) ++ c :: falls c.idx (pass r rates)) := List.perm_middle
      refine hmid.trans ?_
      refine ih [] (last :: earlier) (e :: put) rfl nofun ?_ hfull ?_ (by omega) ?_ ?_
      · intro x hx
        have := hall x hx
        omega
      · intro v
        refine ⟨fun h => ⟨by omega, c, hfull.mem_iff.mp List.mem_cons_self, h⟩, ?_⟩
        rintro ⟨-, x, hx, hxv⟩
        have := hall x hx
        omega
      · intro x hx
        rcases List.mem_cons.mp hx with rfl | hx
        · exact Int.le_refl _
        · have := hall x hx
          omega
      · exact hfull.cons r

/-- **What falls of the pass are the rates reached.** -/
theorem pass_reached (r : TxRate) (rates : List TxRate) :
    ∃ first others, pass r rates = first :: others ∧
      (first :: falls first.idx others).Perm (reached (r :: rates)) := by
  cases rates with
  | nil => exact ⟨r, [], rfl, List.Perm.refl _⟩
  | cons q rates =>
    show ∃ first others, (if r.idx < q.idx then q :: pass r rates else r :: pass q rates) = _ ∧ _
    -- the second rate is never a late one
    have hreach : reached (r :: q :: rates) = reachedFrom [r] q rates := if_neg (by rintro ⟨-, x, hx, -⟩; cases hx)
    rw [hreach]
    split
    · next h =>
      refine ⟨q, pass r rates, rfl, ?_⟩
      refine reachedFrom_perm [q] [] [] rfl ?_ nofun (List.Perm.refl _) ?_
      · intro x hx
        rw [List.mem_singleton] at hx
        exact hx ▸ h
      · intro v
        simp only [List.mem_singleton, exists_eq_left]
        omega
    · next h =>
      refine ⟨r, pass q rates, rfl, ?_⟩
      refine reachedFrom_perm [] [r] [] rfl nofun ?_ (List.Perm.refl _) ?_
      · intro x hx
        rw [List.mem_singleton] at hx
        subst hx
        omega
      · intro v
        simp only [List.mem_singleton, exists_eq_left]
        omega

theorem tries_perm {l l' : List TxRate} (h : l.Perm l') (v : Int) : tries l v = tries l' v :=
  ((h.filter _).map _).sum_eq

theorem flagsOf_falls {first : TxRate} {others : List TxRate} (hpass : pass r rates = first :: others)
    {x : TxRate} (hx : x ∈ first :: falls first.idx others) :
    flagsOf (first :: falls first.idx others) x.idx = flagsOf (r :: rates) x.idx := by
  obtain ⟨rest, hrest⟩ := falls_prefix first.idx others
  have hsome : ((first :: falls first.idx others).find? (·.idx == x.idx)).isSome :=
    List.find?_isSome.mpr ⟨x, hx, beq_self_eq_true _⟩
  obtain ⟨y, hy⟩ := Option.isSome_iff_exists.mp hsome
  have hfull : (first :: others).find? (·.idx == x.idx) = some y := by
    rw [← hrest, ← List.cons_append, List.find?_append, hy]
    rfl
  have hreq : (r :: rates).find? (·.idx == x.idx) = some y := by
    rw [← List.head?_filter, ← pass_filter, hpass, List.head?_filter, hfull]
  rw [flagsOf, flagsOf, hy, hreq]

def askedAt (rates : List TxRate) (v : Int) : TxRate := ⟨v, tries (reached rates) v, flagsOf rates v⟩

structure Distilled (rates kept : List TxRate) (total : Nat) : Prop where
  mem : ∀ k, k ∈ kept ↔ ∃ x ∈ reached rates, k = askedAt rates x.idx
  falling : kept.Pairwise fun a b => b.idx < a.idx
  total_eq : total = totalTries (reached rates)
  total_le : totalTries kept ≤ total
  ne_nil : kept ≠ []

theorem distilled (r : TxRate) (rates : List TxRate) :
    ∃ first others, pass r rates = first :: others ∧
      Distilled (r :: rates) (eliminate first first.count.toNat others).1
        (eliminate first first.count.toNat others).2 := by
  obtain ⟨first, others, hpass, hperm⟩ := pass_reached r rates
  refine ⟨first, others, hpass, ?_⟩
  rw [eliminate_eq]
  have hfall := falls_pairwise first others
  constructor
  · intro k
    rw [mem_merge hfall]
    constructor
    · rintro ⟨x, hx, rfl⟩
      refine ⟨x, hperm.mem_iff.mp hx, ?_⟩
      rw [mergedAt, askedAt, tries_perm hperm, flagsOf_falls hpass hx]
    · rintro ⟨x, hx, rfl⟩
      have hx' := hperm.mem_iff.mpr hx
      refine ⟨x, hx', ?_⟩
      rw [mergedAt, askedAt, tries_perm hperm, flagsOf_falls hpass hx']
  · exact merge_pairwise hfall
  · exact (hperm.map fun r => r.count.toNat).sum_eq
  · exact totalTries_merge first _
  · exact merge_ne_nil first _

theorem usub_eq {a b : Nat} (h : b ≤ a) (ha : a < 2 ^ 32) : usub a b = a - b := by
  rw [usub, Nat.add_comm, Nat.add_sub_assoc h, Nat.add_mod_left, Nat.mod_eq_of_lt (by omega)]

structure SameRate (r r' : TxRate) : Prop where
  idx : r'.idx = r.idx
  flags : r'.flags = r.flags
  tried : 0 < r'.count.toNat ↔ 0 < r.count.toNat

theorem SameRate.refl (r : TxRate) : SameRate r r := ⟨rfl, rfl, Iff.rfl⟩

theorem SameRate.mcs {r' : TxRate} (h : SameRate r r') : r'.mcs = r.mcs := by
  rw [TxRate.mcs, TxRate.mcs, h.flags]

theorem refill_cons {limit : Nat} (hl : rates.length < limit)
    (hlim : limit < 2 ^ 32) : ∃ r', refill limit (r :: rates) = r' :: refill (limit - r'.count.toNat) rates ∧
      SameRate r r' ∧ r'.count.toNat = min r.count.toNat (limit - rates.length) := by
  have hroom : usub limit rates.length = limit - rates.length := usub_eq (by omega) hlim
  rw [refill, hroom]
  by_cases hcut : limit - rates.length < r.count.toNat
  · have hbyte := UInt8.toNat_lt r.count
    have hcount : (UInt8.ofNat (limit - rates.length)).toNat = limit - rates.length := by
      rw [UInt8.toNat_ofNat']
      exact Nat.mod_eq_of_lt (by omega)
    refine ⟨{ r with count := UInt8.ofNat (limit - rates.length) }, ?_, ⟨rfl, rfl, ?_⟩, ?_⟩
    · simp only [if_pos hcut]
      rw [usub_eq (by omega) hlim]
    · show 0 < (UInt8.ofNat (limit - rates.length)).toNat ↔ _
      omega
    · show (UInt8.ofNat (limit - rates.length)).toNat = _
      omega
  · refine ⟨r, ?_, SameRate.refl r, by omega⟩
    simp only [if_neg hcut]
    rw [usub_eq (by omega) hlim]

theorem refill_spec {limit : Nat} (hl : rates.length ≤ limit) (hlim : limit < 2 ^ 32) :
    List.Forall₂ SameRate rates (refill limit rates) ∧ totalTries (refill limit rates) ≤ limit := by
  induction rates generalizing limit with
  | nil => exact ⟨.nil, Nat.zero_le _⟩
  | cons r rates ih =>
    rw [List.length_cons] at hl
    obtain ⟨r', hr', hsame, hcount⟩ := refill_cons (r := r) hl hlim
    have hleft : rates.length ≤ limit - r'.count.toNat := by omega
    obtain ⟨hrest, htotal⟩ := ih hleft (by omega)
    rw [hr', totalTries_cons]
    exact ⟨.cons hsame hrest, by omega⟩

end AtbmWifi
