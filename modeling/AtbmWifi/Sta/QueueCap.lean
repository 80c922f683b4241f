import AtbmWifi.Sta.InterfaceSlots

/-!
# Two capacities

`util.c` gives an interface the capacity 16, 224 when it joins alone, and 120 each when
two have joined.

* `CapsOk`: the capacities sum up to at most 240, and an interface that alone has
  joined has 224; `PairOk` is the same seen from one slot.
-/

namespace AtbmWifi

def capOf (c : Option VifCap) : Nat := (c.map VifCap.queueCap).getD 0

def hasJoined (c : Option VifCap) : Bool := c.any VifCap.joined

/-- Slot `a` has 224 if it alone has joined. -/
def AloneOk (a b : Option VifCap) : Prop :=
  hasJoined a = true → hasJoined b = false → capOf a = atbmQueueSingleCap

structure CapsOk (c : Nat → Option VifCap) : Prop where
  sum : ((List.range maxVifs).map fun i => capOf (c i)).sum ≤ 240
  alone : ∀ i j, i < maxVifs → j < maxVifs → i ≠ j → AloneOk (c i) (c j)

/-- `CapsOk`, seen from one of the two. -/
structure PairOk (a b : Option VifCap) : Prop where
  sum : capOf a + capOf b ≤ 240
  self : AloneOk a b
  other : AloneOk b a

variable {c : Nat → Option VifCap} {i : Nat} {x : VifCap} {b : Option VifCap}

theorem capsOk_iff (hi : i < maxVifs) : CapsOk c ↔ PairOk (c i) (c (1 - i)) := by
  have hcases : i = 0 ∨ i = 1 := by
    have : maxVifs = 2 := rfl
    omega
  have hsum : ((List.range maxVifs).map fun i => capOf (c i)).sum = capOf (c i) + capOf (c (1 - i)) := by
    rcases hcases with rfl | rfl
    · rfl
    · show capOf (c 0) + (capOf (c 1) + 0) = capOf (c 1) + capOf (c 0)
      omega
  constructor
  · intro h
    have hlt : 1 - i < maxVifs := by
      have : maxVifs = 2 := rfl
      omega
    refine ⟨?_, h.alone i (1 - i) hi hlt (by omega), h.alone (1 - i) i hlt hi (by omega)⟩
    rw [← hsum]
    exact h.sum
  · intro h
    constructor
    · rw [hsum]
      exact h.sum
    · intro j k hj hk hjk
      have h2 : maxVifs = 2 := rfl
      by_cases hji : j = i
      · obtain rfl : k = 1 - i := by omega
        rw [hji]
        exact h.self
      · obtain rfl : k = i := by omega
        obtain rfl : j = 1 - k := by omega
        exact h.other

theorem setPriv_pair (hi : i < maxVifs) (hx : c i = some x) : (atbmSetPrivQueueCap i c) i = some { x with
      queueCap := if hasJoined (c (1 - i)) then atbmQueueCombCap else atbmQueueSingleCap } ∧
    (atbmSetPrivQueueCap i c) (1 - i) = (c (1 - i)).map fun y =>
      { y with queueCap := if y.joined then atbmQueueCombCap else y.queueCap } := by
  have hcases : i = 0 ∨ i = 1 := by
    have : maxVifs = 2 := rfl
    omega
  rcases hcases with rfl | rfl
  · cases hy : c 1 with
    | none => simp [atbmSetPrivQueueCap, maxVifs, List.range_succ, otherJoined, AtbmWifi.setCap, hx, hy, hasJoined]
    | some y =>
      obtain ⟨q, b⟩ := y
      cases b <;>
        simp [atbmSetPrivQueueCap, maxVifs, List.range_succ, otherJoined, AtbmWifi.setCap, hx, hy, hasJoined]
  · cases hy : c 0 with
    | none => simp [atbmSetPrivQueueCap, maxVifs, List.range_succ, otherJoined, AtbmWifi.setCap, hx, hy, hasJoined]
    | some y =>
      obtain ⟨q, b⟩ := y
      cases b <;>
        simp [atbmSetPrivQueueCap, maxVifs, List.range_succ, otherJoined, AtbmWifi.setCap, hx, hy, hasJoined]

theorem clearPriv_pair (hi : i < maxVifs) (hx : c i = some x) :
    (atbmClearPrivQueueCap i c) i = some { x with queueCap := atbmQueueDefaultCap } ∧
    (atbmClearPrivQueueCap i c) (1 - i) = (c (1 - i)).map fun y =>
      { y with queueCap := if y.joined then atbmQueueSingleCap else y.queueCap } := by
  have hcases : i = 0 ∨ i = 1 := by
    have : maxVifs = 2 := rfl
    omega
  rcases hcases with rfl | rfl
  · cases hy : c 1 with
    | none => simp [atbmClearPrivQueueCap, maxVifs, List.range_succ, otherJoined, AtbmWifi.setCap, hx, hy]
    | some y =>
      obtain ⟨q, b⟩ := y
      cases b <;>
        simp [atbmClearPrivQueueCap, maxVifs, List.range_succ, otherJoined, AtbmWifi.setCap, hx, hy]
  · cases hy : c 0 with
    | none => simp [atbmClearPrivQueueCap, maxVifs, List.range_succ, otherJoined, AtbmWifi.setCap, hx, hy]
    | some y =>
      obtain ⟨q, b⟩ := y
      cases b <;>
        simp [atbmClearPrivQueueCap, maxVifs, List.range_succ, otherJoined, AtbmWifi.setCap, hx, hy]

/-- The other interface has joined, or has no more than the least capacity. -/
def LeavesRoom (b : Option VifCap) : Prop := hasJoined b = true ∨ capOf b ≤ atbmQueueDefaultCap

theorem pairOk_raise (x : VifCap) (b : Option VifCap) :
    PairOk (some { x with queueCap := if hasJoined b then atbmQueueCombCap else atbmQueueSingleCap })
      (b.map fun y => { y with queueCap := if y.joined then atbmQueueCombCap else y.queueCap }) ↔
    LeavesRoom b ∧ (hasJoined b = true → x.joined = true) := by
  have hd : atbmQueueDefaultCap = 16 := rfl
  have hs : atbmQueueSingleCap = 224 := rfl
  have hc : atbmQueueCombCap = 120 := rfl
  unfold LeavesRoom
  cases b with
  | none =>
    simp only [hasJoined, capOf, Option.any_none, Option.map_none, Option.getD_none]
    exact ⟨fun _ => ⟨.inr (by omega), fun h => by cases h⟩,
      fun _ => ⟨by simp [capOf, hs], fun _ _ => by simp [capOf], fun h => by cases h⟩⟩
  | some y =>
    obtain ⟨q, j⟩ := y
    cases j with
    | true =>
      constructor
      · intro h
        refine ⟨.inl rfl, fun _ => ?_⟩
        by_contra hx
        have := h.other rfl (by simpa [hasJoined] using hx)
        simp [capOf, hs, hc] at this
      · rintro ⟨-, h⟩
        have hx : x.joined = true := h rfl
        exact ⟨by simp [capOf, hasJoined, hc], fun _ hno => by simp [hasJoined] at hno,
          fun _ hno => by simp [hasJoined, hx] at hno⟩
    | false =>
      constructor
      · intro h
        have hsum := h.sum
        simp only [capOf, hasJoined, Option.any_some, Option.map_some, Option.getD_some, Bool.false_eq_true, if_false,
          hs] at hsum
        refine ⟨.inr ?_, fun h => by cases h⟩
        show q ≤ _
        omega
      · rintro ⟨h | h, -⟩
        · cases h
        · have hq : q ≤ 16 := h
          refine ⟨?_, fun _ _ => by simp [capOf, hasJoined], fun hno => by cases hno⟩
          simp only [capOf, hasJoined, Option.any_some, Option.map_some, Option.getD_some, Bool.false_eq_true, if_false,
            hs]
          omega

theorem pairOk_lower {x : Option VifCap} (hx : hasJoined x = false) (hcap : capOf x ≤ atbmQueueDefaultCap)
    (hb : capOf b ≤ atbmQueueSingleCap) :
    PairOk x (b.map fun y => { y with queueCap := if y.joined then atbmQueueSingleCap else y.queueCap }) := by
  have hd : atbmQueueDefaultCap = 16 := rfl
  have hs : atbmQueueSingleCap = 224 := rfl
  refine ⟨?_, fun h => absurd h (by simp [hx]), ?_⟩
  · cases b with
    | none => simp only [capOf, Option.map_none, Option.getD_none] at hcap ⊢; omega
    | some y =>
      have hy : y.queueCap ≤ atbmQueueSingleCap := hb
      show capOf x + (if y.joined then atbmQueueSingleCap else y.queueCap) ≤ 240
      split <;> omega
  · intro hj _
    cases b with
    | none => cases hj
    | some y =>
      have hy : y.joined = true := hj
      show (if y.joined then atbmQueueSingleCap else y.queueCap) = _
      rw [if_pos hy]

theorem capOf_map_le {c : Nat} (hc : c ≤ atbmQueueSingleCap) (hb : capOf b ≤ atbmQueueSingleCap) :
    capOf (b.map fun y => { y with queueCap := if y.joined then c else y.queueCap }) ≤ atbmQueueSingleCap := by
  cases b with
  | none => exact Nat.zero_le _
  | some y =>
    show (if y.joined then c else y.queueCap) ≤ _
    split
    · exact hc
    · exact hb

theorem pairOk_set (hsum : x.queueCap + capOf b ≤ 240) :
    PairOk (some x) b ↔ (x.joined = true → hasJoined b = false → x.queueCap = atbmQueueSingleCap) ∧
      (x.joined = false → AloneOk b none) := by
  constructor
  · intro h
    exact ⟨fun hx hb => h.self hx hb, fun hx hb _ => h.other hb hx⟩
  · rintro ⟨h1, h2⟩
    exact ⟨hsum, fun hx hb => h1 hx hb, fun hb hx => h2 hx hb rfl⟩

/-- What an interface of a kind needs of the other when it is added. -/
def NewFits (type : IfType) (b : Option VifCap) : Prop :=
  if type = IfType.monitor then hasJoined b = true else AloneOk b none

theorem pairOk_new (type : IfType) (hb : capOf b ≤ atbmQueueSingleCap) :
    PairOk (some ⟨atbmQueueDefaultCap, decide (type = IfType.monitor)⟩) b ↔ NewFits type b := by
  have hd : atbmQueueDefaultCap = 16 := rfl
  have hs : atbmQueueSingleCap = 224 := rfl
  have hsum : atbmQueueDefaultCap + capOf b ≤ 240 := by omega
  refine (pairOk_set (x := ⟨_, _⟩) hsum).trans ?_
  unfold NewFits
  by_cases hm : type = IfType.monitor
  · rw [if_pos hm, decide_eq_true hm]
    constructor
    · rintro ⟨h, -⟩
      by_contra hno
      have : atbmQueueDefaultCap = atbmQueueSingleCap := h rfl (by simpa using hno)
      omega
    · intro h
      exact ⟨fun _ hno => absurd h (by simp [hno]), fun hno => (by cases hno)⟩
  · rw [if_neg hm, decide_eq_false hm]
    exact ⟨fun h => h.2 rfl, fun h => ⟨fun hno => (by cases hno), fun _ => h⟩⟩

variable {V : Type}

namespace HwPriv

/-- The slots as the functions of `util.c` see them. -/
def caps (h : HwPriv V) (i : Nat) : Option VifCap :=
  (h.vifList i).map fun v => ⟨(h.priv v).queueCap, (h.priv v).joined⟩

def Listed (h : HwPriv V) : Prop := ∀ i j v, h.vifList i = some v → h.vifList j = some v → i = j

variable [DecidableEq V]

theorem priv_onPriv (v w : V) (f : AtbmPriv → AtbmPriv) (h : HwPriv V) :
    (h.onPriv v f).priv w = if w = v then f (h.priv v) else h.priv w := by
  unfold priv onPriv
  by_cases hw : w = v
  · subst hw
    simp [priv]
  · simp [hw]

theorem onPriv_onPriv (v : V) (f g : AtbmPriv → AtbmPriv) (h : HwPriv V) :
    (h.onPriv v f).onPriv v g = h.onPriv v fun p => g (f p) := by
  simp [onPriv, priv]

variable {h : HwPriv V} {i : Nat} {v : V}

theorem caps_onPriv (hinj : h.Listed) (hv : h.vifList i = some v) (f : AtbmPriv → AtbmPriv) :
    (h.onPriv v f).caps = Function.update h.caps i (some ⟨(f (h.priv v)).queueCap, (f (h.priv v)).joined⟩) := by
  funext j
  show ((h.vifList j).map fun w =>
    (⟨((h.onPriv v f).priv w).queueCap, ((h.onPriv v f).priv w).joined⟩ : VifCap)) = _
  by_cases hj : j = i
  · subst hj
    rw [hv, Function.update_self, Option.map_some, priv_onPriv, if_pos rfl]
  · rw [Function.update_of_ne hj]
    unfold caps
    cases hw : h.vifList j with
    | none => rfl
    | some w =>
      have hne : w ≠ v := by
        rintro rfl
        exact hj (hinj _ _ _ hw hv)
      rw [Option.map_some, Option.map_some, priv_onPriv, if_neg hne]

theorem caps_setCap (hinj : h.Listed) (hv : h.vifList i = some v) (c : Nat) :
    (h.setCap v c).caps = AtbmWifi.setCap h.caps i c := by
  unfold setCap AtbmWifi.setCap
  rw [caps_onPriv hinj hv]
  congr 1
  unfold caps
  rw [hv]
  rfl

omit [DecidableEq V] in
theorem caps_of_listed (hv : h.vifList i = some v) : h.caps i = some ⟨(h.priv v).queueCap, (h.priv v).joined⟩ := by
  unfold caps
  rw [hv]
  rfl

theorem otherJoined_caps (hinj : h.Listed) (hv : h.vifList i = some v) (j : Nat) :
    (h.otherJoined v j = none ∧ AtbmWifi.otherJoined h.caps i j = false) ∨
    ∃ w, h.otherJoined v j = some w ∧ h.vifList j = some w ∧ AtbmWifi.otherJoined h.caps i j = true := by
  unfold otherJoined AtbmWifi.otherJoined caps
  cases hw : h.vifList j with
  | none => exact .inl ⟨rfl, rfl⟩
  | some w =>
    have hiff : w ≠ v ↔ j ≠ i := by
      constructor
      · rintro hne rfl
        rw [hv] at hw
        exact hne (Option.some.inj hw).symm
      · rintro hne rfl
        exact hne (hinj _ _ _ hw hv)
    have hdec : decide (w ≠ v) = decide (j ≠ i) := decide_eq_decide.mpr hiff
    simp only [Option.map_some, Option.filter_some, hdec]
    cases hb : decide (j ≠ i) && (h.priv w).joined with
    | false => exact .inl ⟨rfl, rfl⟩
    | true => exact .inr ⟨w, rfl, rfl, rfl⟩

theorem caps_setPrivQueueCap (hinj : h.Listed) (hv : h.vifList i = some v) :
    (h.setPrivQueueCap v).caps = atbmSetPrivQueueCap i h.caps := by
  unfold setPrivQueueCap atbmSetPrivQueueCap
  rw [← caps_setCap hinj hv]
  have hinj' : (h.setCap v atbmQueueSingleCap).Listed := hinj
  have hv' : (h.setCap v atbmQueueSingleCap).vifList i = some v := hv
  generalize h.setCap v atbmQueueSingleCap = g at hinj' hv'
  -- the loop by induction on its slots; what is listed never changes
  induction List.range maxVifs generalizing g with
  | nil => rfl
  | cons j l ih =>
    rw [List.foldl_cons, List.foldl_cons]
    rcases otherJoined_caps hinj' hv' j with ⟨h1, h2⟩ | ⟨w, h1, hw, h2⟩
    · rw [h1, h2]
      exact ih g hinj' hv'
    · rw [h1, h2]
      have hset : ((g.setCap w atbmQueueCombCap).setCap v atbmQueueCombCap).caps =
          AtbmWifi.setCap (AtbmWifi.setCap g.caps j atbmQueueCombCap) i atbmQueueCombCap := by
        rw [caps_setCap (h := g.setCap w atbmQueueCombCap) hinj' hv', caps_setCap hinj' hw]
      have hrest := ih ((g.setCap w atbmQueueCombCap).setCap v atbmQueueCombCap) hinj' hv'
      rw [hset] at hrest
      exact hrest

theorem caps_clearPrivQueueCap (hinj : h.Listed) (hv : h.vifList i = some v) :
    (h.clearPrivQueueCap v).caps = atbmClearPrivQueueCap i h.caps := by
  unfold clearPrivQueueCap atbmClearPrivQueueCap
  rw [← caps_setCap hinj hv]
  have hinj' : (h.setCap v atbmQueueDefaultCap).Listed := hinj
  have hv' : (h.setCap v atbmQueueDefaultCap).vifList i = some v := hv
  generalize h.setCap v atbmQueueDefaultCap = g at hinj' hv'
  -- `prev_priv` and its slot go along
  refine (List.foldl_rel (r := fun (a : HwPriv V × Option V) (b : (Nat → Option VifCap) × Option Nat) =>
    a.1.Listed ∧ a.1.vifList i = some v ∧ a.1.caps = b.1 ∧
      (a.2 = none ∧ b.2 = none ∨ ∃ u k, a.2 = some u ∧ b.2 = some k ∧ a.1.vifList k = some u))
    ⟨hinj', hv', rfl, .inl ⟨rfl, rfl⟩⟩ ?_).2.2.1
  rintro j - ⟨g, u⟩ ⟨caps, k⟩ ⟨hinj, hv, rfl, hprev⟩
  dsimp only at hinj hv hprev ⊢
  rcases otherJoined_caps hinj hv j with ⟨h1, h2⟩ | ⟨w, h1, hw, h2⟩
  · simp only [h1, h2]
    exact ⟨hinj, hv, rfl, hprev⟩
  · simp only [h1, h2, if_true]
    have hsingle : (g.setCap w atbmQueueSingleCap).caps = AtbmWifi.setCap g.caps j atbmQueueSingleCap :=
      caps_setCap hinj hw _
    rcases hprev with ⟨rfl, rfl⟩ | ⟨u', k', rfl, rfl, hu'⟩
    · exact ⟨hinj, hv, hsingle, .inr ⟨w, j, rfl, rfl, hw⟩⟩
    · refine ⟨hinj, hv, ?_, .inr ⟨w, j, rfl, rfl, hw⟩⟩
      rw [caps_setCap (h := (g.setCap w _).setCap u' _) hinj hw,
        caps_setCap (h := g.setCap w atbmQueueSingleCap) hinj hu', hsingle]

end HwPriv
end AtbmWifi
