import AtbmWifi.Lib.Owner

/-!
# A queue whose things are passed on by several workers

Things are numbered as they are put on the queue.  A worker takes the first one and gives it on in a later
step, so that others may take and give in between; what still waits can also be dropped.

* `Inv`: everything that was put on the queue is in one place, and kept by every operation.
* `Ordered`: what has been given on was given in the order in which it came.  `Ordered.give`: it stays so when
  no other worker has an earlier thing in its hand.
-/

structure Handoff (ι α : Type) where
  /-- the number of the next thing -/
  count : Nat
  waiting : List (Nat × α)
  hand : ι → Option (Nat × α)
  given : List (Nat × α)
  dropped : List (Nat × α)

namespace Handoff

variable {ι α : Type}

def empty : Handoff ι α := ⟨0, [], fun _ => none, [], []⟩

def put (a : α) (h : Handoff ι α) : Handoff ι α :=
  { h with count := h.count + 1, waiting := h.waiting ++ [(h.count, a)] }

def take [DecidableEq ι] (i : ι) (h : Handoff ι α) : Handoff ι α :=
  match h.waiting with
  | [] => h
  | x :: rest => { h with waiting := rest, hand := Function.update h.hand i (some x) }

def give [DecidableEq ι] (i : ι) (h : Handoff ι α) : Handoff ι α :=
  match h.hand i with
  | none => h
  | some x => { h with hand := Function.update h.hand i none, given := h.given ++ [x] }

def clear (h : Handoff ι α) : Handoff ι α :=
  { h with waiting := [], dropped := h.dropped ++ h.waiting }

/-- The numbers in the lists. -/
def listed (h : Handoff ι α) : List Nat := (h.waiting ++ h.given ++ h.dropped).map Prod.fst

/-- The number in a hand. -/
def handed (h : Handoff ι α) (i : ι) : Option Nat := (h.hand i).map Prod.fst

/-- Everything is in one place. -/
structure Inv (h : Handoff ι α) : Prop where
  once : OneOwner h.listed h.handed
  all : ∀ k, k < h.count ↔ k ∈ h.listed ∨ ∃ i, h.handed i = some k
  sorted : (h.waiting.map Prod.fst).Pairwise (· < ·)
  later : ∀ i x, h.hand i = some x → ∀ y ∈ h.waiting, x.1 < y.1

/-- What has been given on came in this order, and before everything else. -/
structure Ordered (h : Handoff ι α) : Prop where
  sorted : (h.given.map Prod.fst).Pairwise (· < ·)
  hand : ∀ x ∈ h.given, ∀ i y, h.hand i = some y → x.1 < y.1
  waiting : ∀ x ∈ h.given, ∀ y ∈ h.waiting, x.1 < y.1

theorem inv_empty : (empty : Handoff ι α).Inv where
  once := ⟨List.nodup_nil, nofun, nofun⟩
  all k := by simp [empty, listed, handed]
  sorted := .nil
  later := nofun

theorem ordered_empty : (empty : Handoff ι α).Ordered := ⟨.nil, nofun, nofun⟩

variable {h : Handoff ι α} {i : ι} {x : Nat × α}

theorem handed_of_hand (hx : h.hand i = some x) : h.handed i = some x.1 := by
  rw [handed, hx, Option.map_some]

theorem Inv.waiting_lt (hI : h.Inv) (hx : x ∈ h.waiting) : x.1 < h.count := by
  refine (hI.all x.1).mpr (.inl ?_)
  simp only [listed, List.append_assoc, List.map_append, List.mem_append]
  exact .inl (List.mem_map_of_mem hx)

theorem Inv.given_lt (hI : h.Inv) (hx : x ∈ h.given) : x.1 < h.count := by
  refine (hI.all x.1).mpr (.inl ?_)
  simp only [listed, List.append_assoc, List.map_append, List.mem_append]
  exact .inr (.inl (List.mem_map_of_mem hx))

theorem Inv.hand_lt (hI : h.Inv) (hx : h.hand i = some x) : x.1 < h.count :=
  (hI.all x.1).mpr (.inr ⟨i, handed_of_hand hx⟩)

theorem listed_put (h : Handoff ι α) (a : α) : (h.put a).listed.Perm (h.count :: h.listed) := by
  simp only [listed, put, List.append_assoc, List.map_append, List.map_cons, List.cons_append,
    List.nil_append]
  exact List.perm_middle

theorem listed_clear (h : Handoff ι α) : h.clear.listed.Perm h.listed := by
  simp only [listed, clear, List.nil_append, List.append_assoc]
  refine List.Perm.map _ ?_
  rw [← List.append_assoc]
  exact List.perm_append_comm

theorem Inv.put (hI : h.Inv) (a : α) : (h.put a).Inv where
  once := by
    refine (hI.once.add (fun hm => ?_) fun i hi => ?_).perm (h.listed_put a)
    · exact absurd ((hI.all _).mpr (.inl hm)) (Nat.lt_irrefl _)
    · exact absurd ((hI.all _).mpr (.inr ⟨i, hi⟩)) (Nat.lt_irrefl _)
  all k := by
    have hk := hI.all k
    have hc : (h.put a).count = h.count + 1 := rfl
    rw [(h.listed_put a).mem_iff, List.mem_cons, or_assoc, show (h.put a).handed = h.handed from rfl, ← hk, hc]
    omega
  sorted := by
    simp only [Handoff.put, List.map_append, List.map_cons, List.map_nil]
    refine List.pairwise_append.mpr ⟨hI.sorted, List.pairwise_singleton _ _, ?_⟩
    intro k hk m hm
    obtain ⟨x, hx, rfl⟩ := List.mem_map.mp hk
    rw [List.mem_singleton.mp hm]
    exact hI.waiting_lt hx
  later i x hx y hy := by
    rcases List.mem_append.mp hy with hy | hy
    · exact hI.later i x hx y hy
    · rw [List.mem_singleton.mp hy]
      exact hI.hand_lt hx

theorem Ordered.put (hO : h.Ordered) (hI : h.Inv) (a : α) : (h.put a).Ordered where
  sorted := hO.sorted
  hand := hO.hand
  waiting x hx y hy := by
    rcases List.mem_append.mp hy with hy | hy
    · exact hO.waiting x hx y hy
    · rw [List.mem_singleton.mp hy]
      exact hI.given_lt hx

theorem Inv.clear (hI : h.Inv) : h.clear.Inv where
  once := hI.once.perm h.listed_clear
  all k := by
    rw [h.listed_clear.mem_iff]
    exact hI.all k
  sorted := .nil
  later := nofun

theorem Ordered.clear (hO : h.Ordered) : h.clear.Ordered := ⟨hO.sorted, hO.hand, nofun⟩

variable [DecidableEq ι]

theorem Inv.take (hI : h.Inv) (hi : h.hand i = none) : (h.take i).Inv := by
  unfold Handoff.take
  split
  next => exact hI
  next x rest hw =>
    have hl : h.listed = x.1 :: (rest ++ h.given ++ h.dropped).map Prod.fst := by
      rw [listed, hw]
      rfl
    have hh : ∀ j, ((Function.update h.hand i (some x)) j).map Prod.fst
        = Function.update h.handed i (some x.1) j := by
      intro j
      by_cases hj : j = i
      · subst hj
        simp only [Function.update_self, Option.map_some]
      · simp only [Function.update_of_ne hj]
        rfl
    have hs := hI.sorted
    rw [hw, List.map_cons, List.pairwise_cons] at hs
    refine ⟨?_, fun k => ?_, hs.2, fun j y hy z hz => ?_⟩
    · have := (hl ▸ hI.once).give (i := i)
      rwa [← funext hh] at this
    · rw [hI.all k, hl, List.mem_cons]
      constructor
      · rintro ((rfl | hk) | ⟨j, hj⟩)
        · exact .inr ⟨i, by simp only [handed, Function.update_self, Option.map_some]⟩
        · exact .inl hk
        · refine .inr ⟨j, ?_⟩
          have hne : j ≠ i := by
            rintro rfl
            rw [handed, hi] at hj
            cases hj
          simp only [handed, Function.update_of_ne hne]
          exact hj
      · rintro (hk | ⟨j, hj⟩)
        · exact .inl (.inr hk)
        · by_cases hji : j = i
          · subst hji
            simp only [handed, Function.update_self, Option.map_some, Option.some.injEq] at hj
            exact .inl (.inl hj.symm)
          · simp only [handed, Function.update_of_ne hji] at hj
            exact .inr ⟨j, hj⟩
    · by_cases hji : j = i
      · subst hji
        simp only [Function.update_self, Option.some.injEq] at hy
        subst hy
        exact hs.1 _ (List.mem_map_of_mem hz)
      · simp only [Function.update_of_ne hji] at hy
        exact hI.later j y hy z (hw ▸ List.mem_cons_of_mem _ hz)

theorem Ordered.take (hO : h.Ordered) (i : ι) : (h.take i).Ordered := by
  unfold Handoff.take
  split
  next => exact hO
  next x rest hw =>
    refine ⟨hO.sorted, fun y hy j z hz => ?_, fun y hy z hz => ?_⟩
    · by_cases hji : j = i
      · subst hji
        simp only [Function.update_self, Option.some.injEq] at hz
        subst hz
        exact hO.waiting y hy _ (hw ▸ List.mem_cons_self)
      · simp only [Function.update_of_ne hji] at hz
        exact hO.hand y hy j z hz
    · exact hO.waiting y hy z (hw ▸ List.mem_cons_of_mem _ hz)

theorem Inv.give (hI : h.Inv) (i : ι) : (h.give i).Inv := by
  unfold Handoff.give
  split
  next => exact hI
  next x hx =>
    have hl : ((h.waiting ++ (h.given ++ [x]) ++ h.dropped).map Prod.fst).Perm (x.1 :: h.listed) := by
      rw [listed, ← List.map_cons]
      refine List.Perm.map _ ?_
      simp only [List.append_assoc, List.cons_append, List.nil_append]
      rw [← List.append_assoc, ← List.append_assoc]
      exact List.perm_middle
    have hh : ∀ j, ((Function.update h.hand i none) j).map Prod.fst = Function.update h.handed i none j := by
      intro j
      by_cases hj : j = i
      · subst hj
        simp only [Function.update_self, Option.map_none]
      · simp only [Function.update_of_ne hj]
        rfl
    refine ⟨?_, fun k => ?_, hI.sorted, fun j y hy z hz => ?_⟩
    · have := (hI.once.take (handed_of_hand hx)).perm hl
      rwa [← funext hh] at this
    · rw [hI.all k]
      show _ ↔ k ∈ (h.waiting ++ (h.given ++ [x]) ++ h.dropped).map Prod.fst ∨ _
      rw [hl.mem_iff, List.mem_cons]
      constructor
      · rintro (hk | ⟨j, hj⟩)
        · exact .inl (.inr hk)
        · by_cases hji : j = i
          · subst hji
            rw [handed_of_hand hx] at hj
            exact .inl (.inl (Option.some.inj hj).symm)
          · refine .inr ⟨j, ?_⟩
            simp only [handed, Function.update_of_ne hji]
            exact hj
      · rintro ((rfl | hk) | ⟨j, hj⟩)
        · exact .inr ⟨i, handed_of_hand hx⟩
        · exact .inl hk
        · have hne : j ≠ i := by
            rintro rfl
            simp only [handed, Function.update_self, Option.map_none] at hj
            cases hj
          simp only [handed, Function.update_of_ne hne] at hj
          exact .inr ⟨j, hj⟩
    · have hne : j ≠ i := by
        rintro rfl
        simp only [Function.update_self] at hy
        cases hy
      simp only [Function.update_of_ne hne] at hy
      exact hI.later j y hy z hz

theorem Ordered.give (hO : h.Ordered) (hI : h.Inv)
    (first : ∀ x, h.hand i = some x → ∀ j y, j ≠ i → h.hand j = some y → x.1 < y.1) : (h.give i).Ordered := by
  unfold Handoff.give
  split
  next => exact hO
  next x hx =>
    refine ⟨?_, fun y hy j z hz => ?_, fun y hy z hz => ?_⟩
    · simp only [List.map_append, List.map_cons, List.map_nil]
      refine List.pairwise_append.mpr ⟨hO.sorted, List.pairwise_singleton _ _, ?_⟩
      intro k hk m hm
      obtain ⟨y, hy, rfl⟩ := List.mem_map.mp hk
      rw [List.mem_singleton.mp hm]
      exact hO.hand y hy i x hx
    · have hne : j ≠ i := by
        rintro rfl
        simp only [Function.update_self] at hz
        cases hz
      simp only [Function.update_of_ne hne] at hz
      rcases List.mem_append.mp hy with hy | hy
      · exact hO.hand y hy j z hz
      · rw [List.mem_singleton.mp hy]
        exact first x hx j z hne hz
    · rcases List.mem_append.mp hy with hy | hy
      · exact hO.waiting y hy z hz
      · rw [List.mem_singleton.mp hy]
        exact hI.later i x hx z hz

end Handoff
