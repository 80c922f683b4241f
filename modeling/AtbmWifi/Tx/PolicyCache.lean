import Mathlib.Tactic.Common
import AtbmWifi.Lib.Slots
import AtbmWifi.Lib.Transition

/-!
# The TX policy cache (software rate control)

The device takes retry policies from a table of eight, so `tx_policy_get` finds
or makes an entry for a frame and `tx_policy_put` gives it back when the frame
is destroyed.  The wanted policy is what `tx_policy_build` makes of the rates of
the frame; any policy may come.  `holds` and `locks` are history: the gets not
put yet, and the calls of `atbm_tx_queues_lock` less those of
`atbm_tx_queues_unlock`.

* `policyCache_counts`: along every run, `CacheOk` holds in every state exactly when
  no get finds an entry with 255 holds or more.
* `policyCache_locks`: along every run, the queues are locked once while the free
  list is empty and else not exactly when no get finds an entry while the free
  list is empty.

The two conditions do not depend on each other: `usage_count` is a `u8`, but the
lists alone decide when to lock.
-/

namespace AtbmWifi

open Transition

def txPolicyCacheSize : Nat := 8

def invalidRateId : Nat := 0xFF

/-- What `tx_policy_build` fills of a `tx_policy`. -/
structure TxRates where
  raw : List UInt8
  defined : UInt8
  retryCount : UInt8
  deriving DecidableEq, Repr

structure TxPolicy extends TxRates where
  usageCount : UInt8
  uploaded : Bool
  deriving DecidableEq, Repr

structure TxPolicyCache where
  policy : Nat → TxPolicy
  used : List Nat
  free : List Nat

structure Hold where
  idx : Nat
  rates : TxRates
  deriving DecidableEq, Repr

structure PolicyState where
  cache : TxPolicyCache
  holds : List Hold
  locks : Int

def txPolicyIsEqual (wanted cached : TxRates) : Bool :=
  let count := wanted.defined.toNat >>> 1
  if cached.defined < wanted.defined then false
  else if wanted.raw.take count ≠ cached.raw.take count then false
  else if wanted.defined &&& 1 = 1 then
    wanted.raw.getD count 0 &&& 0x0F == cached.raw.getD count 0 &&& 0x0F
  else true

def txPolicyFind (c : TxPolicyCache) (wanted : TxRates) : Option Nat :=
  let same := fun k => txPolicyIsEqual wanted (c.policy k).toTxRates
  (c.used.find? same).or (c.free.find? same)

def TxPolicyCache.setUsage (c : TxPolicyCache) (k : Nat) (n : UInt8) : TxPolicyCache :=
  { c with policy := Function.update c.policy k { c.policy k with usageCount := n } }

def txPolicyUse (k : Nat) (c : TxPolicyCache) : TxPolicyCache :=
  let c := c.setUsage k ((c.policy k).usageCount + 1)
  { c with used := k :: c.used.erase k, free := c.free.erase k }

/-- `tx_policy_release`, with the usage count it returns -/
def txPolicyRelease (k : Nat) (c : TxPolicyCache) : TxPolicyCache × UInt8 :=
  let ret := (c.policy k).usageCount - 1
  let c := c.setUsage k ret
  if ret = 0 then ({ c with used := c.used.erase k, free := k :: c.free.erase k }, ret) else (c, ret)

/-- `tx_policy_init`: the entries are put on the free list one before the other. -/
def txPolicyInit : TxPolicyCache where
  policy _ := ⟨⟨List.replicate 12 0, 0, 0⟩, 0, false⟩
  used := []
  free := (List.range txPolicyCacheSize).reverse

/-- `entry->policy = wanted` for the last of the free list -/
def txPolicyNew (wanted : TxRates) (k : Nat) (c : TxPolicyCache) : TxPolicyCache :=
  { c with policy := Function.update c.policy k ⟨wanted, 0, false⟩ }

def txPolicyPick (wanted : TxRates) (c : TxPolicyCache) : Option (Nat × TxPolicyCache) :=
  match txPolicyFind c wanted with
  | some k => some (k, c)
  | none => c.free.getLast?.map fun k => (k, txPolicyNew wanted k c)

def lockIf (b : Bool) (s : PolicyState) : PolicyState := if b then { s with locks := s.locks + 1 } else s

def txPolicyGet (wanted : TxRates) (s : PolicyState) : PolicyState × Nat :=
  match txPolicyPick wanted s.cache with
  | none => (s, invalidRateId)
  | some (k, c) =>
    let c := txPolicyUse k c
    (lockIf c.free.isEmpty { s with cache := c, holds := ⟨k, (c.policy k).toTxRates⟩ :: s.holds }, k)

def txPolicyPut (h : Hold) (s : PolicyState) : PolicyState :=
  let locked := s.cache.free.isEmpty
  let r := txPolicyRelease h.idx s.cache
  let s := { s with cache := r.1, holds := s.holds.erase h }
  if locked && r.2 == 0 then { s with locks := s.locks - 1 } else s

inductive PolicyAct
  | get (wanted : TxRates)
  | put (h : Hold)
  deriving DecidableEq, Repr

def PolicyAct.Enabled (s : PolicyState) : PolicyAct → Prop
  | .get _ => True
  | .put h => h ∈ s.holds

instance decPolicyEnabled (s : PolicyState) : ∀ a, Decidable (PolicyAct.Enabled s a)
  | .get _ => inferInstanceAs (Decidable True)
  | .put h => inferInstanceAs (Decidable (h ∈ s.holds))

def PolicyAct.next (s : PolicyState) : PolicyAct → PolicyState
  | .get wanted => (txPolicyGet wanted s).1
  | .put h => txPolicyPut h s

def policyStart : PolicyState := ⟨txPolicyInit, [], 0⟩

def policies : Sys PolicyState PolicyAct := .ofNext (· = policyStart) PolicyAct.Enabled PolicyAct.next

def refs (s : PolicyState) (k : Nat) : Nat := s.holds.countP (·.idx == k)

structure CacheOk (s : PolicyState) : Prop where
  slots : Slots.Partition txPolicyCacheSize s.cache.free s.cache.used []
  used : ∀ k, k ∈ s.cache.used ↔ 0 < refs s k
  usage : ∀ k, ((s.cache.policy k).usageCount).toNat = refs s k
  kept : ∀ h ∈ s.holds, (s.cache.policy h.idx).toTxRates = h.rates

/-- A get does not find an entry whose count is at its end. -/
def CountLeft (s : PolicyState) : PolicyAct → Prop
  | .get wanted => ∀ k ∈ txPolicyFind s.cache wanted, refs s k < 255
  | .put _ => True

instance decCountLeft (s : PolicyState) : ∀ a, Decidable (CountLeft s a)
  | .get wanted => inferInstanceAs (Decidable (∀ k ∈ txPolicyFind s.cache wanted, refs s k < 255))
  | .put _ => inferInstanceAs (Decidable True)

def LocksOk (s : PolicyState) : Prop := s.locks = if s.cache.free = [] then 1 else 0

/-- A get does not find an entry while the free list is empty. -/
def FreeLeft (s : PolicyState) : PolicyAct → Prop
  | .get wanted => s.cache.free = [] → txPolicyFind s.cache wanted = none
  | .put _ => True

instance decFreeLeft (s : PolicyState) : ∀ a, Decidable (FreeLeft s a)
  | .get wanted => inferInstanceAs (Decidable (s.cache.free = [] → txPolicyFind s.cache wanted = none))
  | .put _ => inferInstanceAs (Decidable True)

variable {c : TxPolicyCache} {k : Nat} {wanted : TxRates}

theorem txPolicyFind_mem (h : txPolicyFind c wanted = some k) : k ∈ c.used ∨ k ∈ c.free := by
  unfold txPolicyFind at h
  rcases Option.or_eq_some_iff.mp h with h | ⟨-, h⟩
  · exact .inl (List.mem_of_find?_eq_some h)
  · exact .inr (List.mem_of_find?_eq_some h)

theorem txPolicyPick_cases {c' : TxPolicyCache} (h : txPolicyPick wanted c = some (k, c')) :
    (txPolicyFind c wanted = some k ∧ c' = c) ∨
    (txPolicyFind c wanted = none ∧ k ∈ c.free ∧ c' = txPolicyNew wanted k c) := by
  unfold txPolicyPick at h
  cases hf : txPolicyFind c wanted with
  | some j =>
    simp only [hf, Option.some.injEq, Prod.mk.injEq] at h
    obtain ⟨rfl, rfl⟩ := h
    exact .inl ⟨rfl, rfl⟩
  | none =>
    simp only [hf, Option.map_eq_some_iff, Prod.mk.injEq] at h
    obtain ⟨j, hj, rfl, rfl⟩ := h
    exact .inr ⟨rfl, List.mem_of_getLast? hj, rfl⟩

theorem txPolicyPick_lists {c' : TxPolicyCache}
    (h : txPolicyPick wanted c = some (k, c')) : c'.used = c.used ∧ c'.free = c.free := by
  rcases txPolicyPick_cases h with ⟨-, rfl⟩ | ⟨-, -, rfl⟩
  · exact ⟨rfl, rfl⟩
  · exact ⟨rfl, rfl⟩

theorem txPolicyPick_none (h : txPolicyFind c wanted = none) (hfree : c.free = []) : txPolicyPick wanted c = none := by
  simp [txPolicyPick, h, hfree]

@[simp] theorem lockIf_cache (b : Bool) (s : PolicyState) : (lockIf b s).cache = s.cache := by
  cases b <;> rfl

@[simp] theorem lockIf_holds (b : Bool) (s : PolicyState) : (lockIf b s).holds = s.holds := by
  cases b <;> rfl

theorem setUsage_rates (c : TxPolicyCache) (k : Nat) (n : UInt8) (j : Nat) :
    ((c.setUsage k n).policy j).toTxRates = (c.policy j).toTxRates := by
  by_cases h : j = k
  · subst h
    simp [TxPolicyCache.setUsage]
  · simp [TxPolicyCache.setUsage, h]

theorem setUsage_count (c : TxPolicyCache) (k : Nat) (n : UInt8) (j : Nat) :
    ((c.setUsage k n).policy j).usageCount = if j = k then n else (c.policy j).usageCount := by
  by_cases h : j = k
  · subst h
    simp [TxPolicyCache.setUsage]
  · simp [TxPolicyCache.setUsage, h]

theorem txPolicyPut_fields (h : Hold) (s : PolicyState) :
    (txPolicyPut h s).cache = (txPolicyRelease h.idx s.cache).1 ∧ (txPolicyPut h s).holds = s.holds.erase h := by
  simp only [txPolicyPut]
  constructor <;> split <;> rfl

theorem refs_pos {s : PolicyState} {h : Hold} (hh : h ∈ s.holds) : 0 < refs s h.idx := by
  apply List.countP_pos_iff.mpr
  exact ⟨h, hh, by simp⟩

theorem cacheOk_start : CacheOk policyStart where
  slots := by
    intro k
    have := Slots.Partition.start txPolicyCacheSize k
    simp only [policyStart, txPolicyInit, List.count_reverse]
    exact this
  used := by simp [policyStart, txPolicyInit, refs]
  usage := by simp [policyStart, txPolicyInit, refs]
  kept := by simp [policyStart]

namespace CacheOk

variable {s : PolicyState} (hs : CacheOk s)
include hs

theorem refs_free {k : Nat} (hk : k ∈ s.cache.free) : refs s k = 0 := by
  have hnot := hs.slots.not_mem_second_of_first hk
  have := (not_congr (hs.used k)).mp hnot
  omega

theorem use {k : Nat} {c : TxPolicyCache} {locks : Int} (hk : k < txPolicyCacheSize)
    (hu : c.used = s.cache.used) (hf : c.free = s.cache.free)
    (hcount : (c.policy k).usageCount.toNat = refs s k) (hlt : refs s k < 255)
    (hother : ∀ j, j ≠ k → c.policy j = s.cache.policy j)
    (hsame : 0 < refs s k → (c.policy k).toTxRates = (s.cache.policy k).toTxRates) :
    CacheOk ⟨txPolicyUse k c, ⟨k, ((txPolicyUse k c).policy k).toTxRates⟩ :: s.holds, locks⟩ := by
  have hrates : ∀ j, ((txPolicyUse k c).policy j).toTxRates = (c.policy j).toTxRates :=
    fun j => setUsage_rates c k _ j
  have hrefs : ∀ j, refs ⟨txPolicyUse k c, ⟨k, ((txPolicyUse k c).policy k).toTxRates⟩ :: s.holds, locks⟩ j =
      refs s j + if k = j then 1 else 0 := by
    intro j
    simp [refs, List.countP_cons]
  constructor
  · have := hs.slots.to_second hk
    simpa [txPolicyUse, TxPolicyCache.setUsage, hu, hf] using this
  · intro j
    rw [hrefs]
    show j ∈ k :: c.used.erase k ↔ _
    by_cases hj : j = k
    · simp [hj]
    · rw [List.mem_cons, List.mem_erase_of_ne hj, hu, hs.used j]
      simp [hj, Ne.symm hj]
  · intro j
    rw [hrefs]
    show ((c.setUsage k _).policy j).usageCount.toNat = _
    rw [setUsage_count]
    by_cases hj : j = k
    · subst hj
      simp [UInt8.toNat_add, hcount]
      omega
    · simp [hj, Ne.symm hj, hother j hj, hs.usage j]
  · intro h hh
    show ((txPolicyUse k c).policy h.idx).toTxRates = h.rates
    rcases List.mem_cons.mp hh with rfl | hh
    · rfl
    · rw [hrates, ← hs.kept h hh]
      by_cases hj : h.idx = k
      · rw [hj]
        apply hsame
        rw [← hj]
        exact refs_pos hh
      · rw [hother _ hj]

theorem get {wanted : TxRates} (hC : CountLeft s (.get wanted)) : CacheOk (txPolicyGet wanted s).1 := by
  unfold txPolicyGet
  cases hp : txPolicyPick wanted s.cache with
  | none => exact hs
  | some r =>
    obtain ⟨k, c⟩ := r
    obtain ⟨hu, hf⟩ := txPolicyPick_lists hp
    have huse : ∀ locks, CacheOk
        ⟨txPolicyUse k c, ⟨k, ((txPolicyUse k c).policy k).toTxRates⟩ :: s.holds, locks⟩ := by
      intro locks
      rcases txPolicyPick_cases hp with ⟨hfind, rfl⟩ | ⟨-, hfree, rfl⟩
      · have hlt := hC k hfind
        apply hs.use _ rfl rfl (hs.usage k) hlt (fun _ _ => rfl) (fun _ => rfl)
        apply hs.slots.lt_of_mem
        rcases txPolicyFind_mem hfind with h | h
        · exact .inr (.inl h)
        · exact .inl h
      · have h0 := hs.refs_free hfree
        apply hs.use (c := txPolicyNew wanted k s.cache) (hs.slots.lt_of_mem (.inl hfree)) rfl rfl
        · simp [txPolicyNew, h0]
        · omega
        · intro j hj
          simp [txPolicyNew, hj]
        · omega
    show CacheOk (lockIf _ _)
    unfold lockIf
    split
    · exact huse _
    · exact huse _

theorem put {h : Hold} (hh : h ∈ s.holds) : CacheOk (txPolicyPut h s) := by
  obtain ⟨hcache, hholds⟩ := txPolicyPut_fields h s
  have hpos := refs_pos hh
  have hk : h.idx < txPolicyCacheSize := hs.slots.lt_of_mem (.inr (.inl ((hs.used h.idx).mpr hpos)))
  have hrefs : ∀ j, refs (txPolicyPut h s) j + (if h.idx = j then 1 else 0) = refs s j := by
    intro j
    have := Slots.countP_erase_add (fun x : Hold => x.idx == j) hh
    simpa [refs, hholds] using this
  have hret : ((s.cache.policy h.idx).usageCount - 1).toNat = refs s h.idx - 1 := by
    have husage := hs.usage h.idx
    have hlt := (s.cache.policy h.idx).usageCount.toNat_lt
    rw [UInt8.toNat_sub_of_le _ _ (UInt8.le_iff_toNat_le.mpr (by simp; omega))]
    simp [husage]
  have hzero : (s.cache.policy h.idx).usageCount - 1 = 0 ↔ refs s h.idx = 1 := by
    rw [← UInt8.toNat_inj, hret]
    simp
    omega
  have hpolicy : ∀ j, ((txPolicyPut h s).cache.policy j) =
      (s.cache.setUsage h.idx ((s.cache.policy h.idx).usageCount - 1)).policy j := by
    intro j
    rw [hcache]
    simp only [txPolicyRelease]
    split <;> rfl
  constructor
  · rw [hcache]
    simp only [txPolicyRelease]
    split
    · have := hs.slots.to_first hk
      simpa [TxPolicyCache.setUsage] using this
    · exact hs.slots
  · intro j
    have hj := hrefs j
    rw [hcache]
    simp only [txPolicyRelease]
    split
    · next h0 =>
      have hone := hzero.mp h0
      show j ∈ s.cache.used.erase h.idx ↔ _
      by_cases hj' : h.idx = j
      · subst hj'
        have hnot : h.idx ∉ s.cache.used.erase h.idx := hs.slots.nodup_second.not_mem_erase
        simp only [if_true] at hj
        constructor
        · intro hm
          exact absurd hm hnot
        · intro hm
          omega
      · rw [List.mem_erase_of_ne (Ne.symm hj'), hs.used j]
        simp only [hj', if_false] at hj
        omega
    · next h0 =>
      have hone := (not_congr hzero).mp h0
      show j ∈ s.cache.used ↔ _
      rw [hs.used j]
      split at hj
      · next hj' =>
        subst hj'
        omega
      · omega
  · intro j
    have hj := hrefs j
    rw [hpolicy, setUsage_count]
    by_cases hj' : j = h.idx
    · subst hj'
      simp only [if_true] at hj ⊢
      omega
    · simp only [Ne.symm hj', if_false] at hj
      rw [if_neg hj', hs.usage j]
      omega
  · intro x hx
    rw [hholds] at hx
    rw [hpolicy, setUsage_rates]
    exact hs.kept x (List.mem_of_mem_erase hx)

theorem get_loses {wanted : TxRates} (ht : CacheOk (txPolicyGet wanted s).1) : CountLeft s (.get wanted) := by
  intro k hk
  by_contra hlt
  have husage := hs.usage k
  have h255 := (s.cache.policy k).usageCount.toNat_lt
  have hfull : refs s k = 255 := by omega
  have hpick : txPolicyPick wanted s.cache = some (k, s.cache) := by
    have : txPolicyFind s.cache wanted = some k := hk
    simp [txPolicyPick, this]
  have hcount := ht.usage k
  simp only [txPolicyGet, hpick, lockIf_cache, refs, lockIf_holds, List.countP_cons] at hcount
  have hwrap : (s.cache.policy k).usageCount + 1 = 0 := by
    rw [← UInt8.toNat_inj, UInt8.toNat_add, husage, hfull]
    rfl
  have hnow : ((txPolicyUse k s.cache).policy k).usageCount = 0 := by
    show ((s.cache.setUsage k _).policy k).usageCount = 0
    rw [setUsage_count, if_pos rfl, hwrap]
  rw [hnow] at hcount
  simp at hcount

end CacheOk

/-- **The TX policy cache.** -/
theorem policyCache_counts {l : List (PolicyState × PolicyAct)} {t : PolicyState}
    (hp : Path policies policyStart l t) :
    ((∀ p ∈ l, CacheOk p.1) ∧ CacheOk t) ↔ ∀ p ∈ l, CountLeft p.1 p.2 := by
  apply Path.exact (I := fun _ => True) _ _ hp trivial cacheOk_start
  · rintro s a t - hs ⟨he, rfl⟩ hC
    refine ⟨trivial, ?_⟩
    cases a with
    | get wanted => exact hs.get hC
    | put h => exact hs.put he
  · rintro s a t - hs ⟨-, rfl⟩ ht
    cases a with
    | get wanted => exact hs.get_loses ht
    | put h => trivial

/-- A policy with `n` tries on the lowest rate. -/
def sampleRates (n : UInt8) : TxRates := ⟨n :: List.replicate 11 0, 1, n⟩

def sharedPolicy : List PolicyAct :=
  [.get (sampleRates 1), .get (sampleRates 2), .get (sampleRates 1), .put ⟨0, sampleRates 1⟩]

theorem policyCache_counts_shared : CacheOk (sharedPolicy.foldl PolicyAct.next policyStart) := by
  have hp : Path policies policyStart (trace PolicyAct.next policyStart sharedPolicy)
      (sharedPolicy.foldl PolicyAct.next policyStart) := Path.ofFires (by decide +kernel)
  exact ((policyCache_counts hp).mpr (by decide +kernel)).2

/-- 257 frames of one policy, one of them sent, and a frame of each of eight other policies. -/
def policyOverwritten : List PolicyAct :=
  List.replicate 257 (.get (sampleRates 1)) ++ [.put ⟨0, sampleRates 1⟩] ++
    ((List.range 8).map fun n => .get (sampleRates (UInt8.ofNat (n + 2))))

/-- **The failing runs.**  After 256 gets the count of the entry is zero; after one more and a put the
entry is free, and a later get writes another policy over it with 256 frames in flight. -/
theorem policy_overwritten :
    (∃ s, Reach policies s ∧ (s.cache.policy 0).usageCount = 0 ∧ refs s 0 = 256) ∧
    ∃ s, Reach policies s ∧ s.holds.length = 264 ∧ ⟨0, sampleRates 1⟩ ∈ s.holds ∧
      (s.cache.policy 0).toTxRates = sampleRates 9 := by
  constructor
  · exact ⟨_, Reach.fires (.init rfl) (l := List.replicate 256 (.get (sampleRates 1))) (by decide +kernel),
      by decide +kernel, by decide +kernel⟩
  · exact ⟨_, Reach.fires (.init rfl) (l := policyOverwritten) (by decide +kernel), by decide +kernel,
      by decide +kernel, by decide +kernel⟩

theorem get_locks {wanted : TxRates} {s : PolicyState} (hs : LocksOk s) (hC : FreeLeft s (.get wanted)) :
    LocksOk (txPolicyGet wanted s).1 := by
  unfold txPolicyGet
  cases hp : txPolicyPick wanted s.cache with
  | none => exact hs
  | some r =>
    obtain ⟨k, c⟩ := r
    have hfree : s.cache.free ≠ [] := by
      intro h
      rw [txPolicyPick_none (hC h) h] at hp
      cases hp
    have hlocks : s.locks = 0 := by
      rw [hs, if_neg hfree]
    show LocksOk (lockIf _ _)
    unfold lockIf LocksOk
    split
    · next h =>
      rw [List.isEmpty_iff] at h
      simp [h, hlocks]
    · next h =>
      rw [List.isEmpty_iff] at h
      simp [h, hlocks]

theorem get_locks_loses {wanted : TxRates} {s : PolicyState} (hs : LocksOk s)
    (ht : LocksOk (txPolicyGet wanted s).1) : FreeLeft s (.get wanted) := by
  intro hfree
  cases hf : txPolicyFind s.cache wanted with
  | none => rfl
  | some k =>
    have hlocks : s.locks = 1 := by
      rw [hs, if_pos hfree]
    have hempty : (txPolicyUse k s.cache).free = [] := by
      simp [txPolicyUse, TxPolicyCache.setUsage, hfree]
    have hpick : txPolicyPick wanted s.cache = some (k, s.cache) := by
      simp [txPolicyPick, hf]
    simp [LocksOk, txPolicyGet, hpick, lockIf, hempty, hlocks] at ht

theorem put_locks {h : Hold} {s : PolicyState} (hs : LocksOk s) : LocksOk (txPolicyPut h s) := by
  unfold LocksOk at hs
  unfold txPolicyPut txPolicyRelease LocksOk
  by_cases h0 : (s.cache.policy h.idx).usageCount - 1 = 0
  · by_cases hfree : s.cache.free = []
    · simp [h0, hfree, hs]
    · simp [h0, hfree, hs]
  · simp [h0, hs, TxPolicyCache.setUsage]

/-- **Flow control of the policy cache.** -/
theorem policyCache_locks {l : List (PolicyState × PolicyAct)} {t : PolicyState}
    (hp : Path policies policyStart l t) :
    ((∀ p ∈ l, LocksOk p.1) ∧ LocksOk t) ↔ ∀ p ∈ l, FreeLeft p.1 p.2 := by
  apply Path.exact (I := fun _ => True) (P := LocksOk) _ _ hp trivial rfl
  · rintro s a t - hs ⟨-, rfl⟩ hC
    refine ⟨trivial, ?_⟩
    cases a with
    | get wanted => exact get_locks hs hC
    | put h => exact put_locks hs
  · rintro s a t - hs ⟨-, rfl⟩ ht
    cases a with
    | get wanted => exact get_locks_loses hs ht
    | put h => trivial

/-- Eight policies; one more frame of the last waits until its entry is free again. -/
def oneAtATime : List PolicyAct :=
  ((List.range 8).map fun n => .get (sampleRates (UInt8.ofNat (n + 1)))) ++
    [.put ⟨7, sampleRates 8⟩, .get (sampleRates 8)]

theorem policyCache_locks_oneAtATime : LocksOk (oneAtATime.foldl PolicyAct.next policyStart) := by
  have hp : Path policies policyStart (trace PolicyAct.next policyStart oneAtATime)
      (oneAtATime.foldl PolicyAct.next policyStart) := Path.ofFires (by decide +kernel)
  exact ((policyCache_locks hp).mpr (by decide +kernel)).2

/-- Eight policies, a second frame of the last already in flight; then all are sent. -/
def twoInFlight : List PolicyAct :=
  ((List.range 8).map fun n => .get (sampleRates (UInt8.ofNat (n + 1)))) ++ [.get (sampleRates 8)] ++
    [.put ⟨7, sampleRates 8⟩, .put ⟨7, sampleRates 8⟩] ++
    ((List.range 7).map fun n => .put ⟨n, sampleRates (UInt8.ofNat (n + 1))⟩)

/-- **The failing run.**  The second frame locks the queues again; they stay locked with every
entry free and no frame left to unlock them. -/
theorem queues_stay_locked :
    ∃ s, Reach policies s ∧ s.holds = [] ∧ s.cache.free.length = 8 ∧ s.locks = 1 :=
  ⟨_, Reach.fires (.init rfl) (l := twoInFlight) (by decide +kernel), by decide +kernel, by decide +kernel,
    by decide +kernel⟩

end AtbmWifi
