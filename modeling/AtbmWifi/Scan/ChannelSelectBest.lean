import Mathlib.Data.List.Induction
import AtbmWifi.Scan.ChannelSelect

/-!
# What the selection picks

The fold keeps the least weight of the channels below the busy limit.  While that is still the value it started with, a
channel at or above the limit may be picked; so the pick is wrong when every weight below the limit is that value and
a busy channel comes last, and there is none when every ratio is 128 or more.
-/

namespace AtbmWifi

namespace ChannelSelect

open Memory

/-! ## The fold over the channels that are not skipped -/

section

variable (weight ratio : Nat → Nat)

def pick (l : List Nat) : Pick := l.foldl (Pick.consider weight ratio) Pick.start

/-- The best channel of a list: below the limit if any is, by weight and then by ratio; else by ratio. -/
structure Best (l : List Nat) (n : Nat) : Prop where
  mem : n ∈ l
  below : (∃ e ∈ l, ratio e < busyRatioMin) → ratio n < busyRatioMin ∧
    ∀ e ∈ l, ratio e < busyRatioMin → weight n < weight e ∨ weight n = weight e ∧ ratio n ≤ ratio e
  above : (∀ e ∈ l, busyRatioMin ≤ ratio e) → ∀ e ∈ l, ratio n ≤ ratio e

/-- No busy channel is picked behind the last channel of the least ratio. -/
def NoLateBusy (l : List Nat) : Prop :=
  ∃ l1 a l2, l = l1 ++ a :: l2 ∧ ratio a < busyRatioMin ∧ (∀ e ∈ l, ratio e < busyRatioMin → ratio a ≤ ratio e) ∧
    ∀ m1 b m2, l2 = m1 ++ b :: m2 → busyRatioMin ≤ ratio b →
      128 ≤ ratio b ∨ ∃ b' ∈ l1 ++ m1, busyRatioMin ≤ ratio b' ∧ ratio b' ≤ ratio b

/-- Some channel below the limit has less than the largest weight, or none is followed by a busy one that is picked; and
where no channel is below the limit, one is below 128. -/
structure SelectFits (l : List Nat) : Prop where
  below : (∃ e ∈ l, ratio e < busyRatioMin) →
    (∃ e ∈ l, ratio e < busyRatioMin ∧ weight e < noApNum) ∨ NoLateBusy ratio l
  above : (∀ e ∈ l, busyRatioMin ≤ ratio e) → l ≠ [] → ∃ e ∈ l, ratio e < 128

variable {weight ratio} {l : List Nat} {n x : Nat}

theorem pick_snoc (l : List Nat) (x : Nat) :
    pick weight ratio (l ++ [x]) = (pick weight ratio l).consider weight ratio x := by
  unfold pick
  rw [List.foldl_append]
  rfl

/-- A channel below the limit has less than the largest weight. -/
def Light (weight ratio : Nat → Nat) (l : List Nat) : Prop := ∃ e ∈ l, ratio e < busyRatioMin ∧ weight e < noApNum

/-- With a light channel the least weight is known, and the pick is a channel of this weight. -/
structure PickedLight (weight ratio : Nat → Nat) (l : List Nat) (p : Pick) : Prop where
  light : p.minApNum < noApNum
  mem : p.channel ∈ l
  ratio_lt : ratio p.channel < busyRatioMin
  weight_eq : weight p.channel = p.minApNum
  ratio_eq : ratio p.channel = p.minApNumRation
  least : ∀ e ∈ l, ratio e < busyRatioMin → p.minApNum < weight e ∨ p.minApNum = weight e ∧ p.minApNumRation ≤ ratio e

/-- Without one the least weight is still the largest, and both ratios are known. -/
structure PickedHeavy (ratio : Nat → Nat) (l : List Nat) (p : Pick) : Prop where
  heavy : p.minApNum = noApNum
  apLe : ∀ e ∈ l, ratio e < busyRatioMin → p.minApNumRation ≤ ratio e
  apSome : p.minApNumRation = 128 ∨ ∃ e ∈ l, ratio e < busyRatioMin ∧ ratio e = p.minApNumRation
  busyMax : p.minBusyRatio ≤ 128
  busyLe : ∀ e ∈ l, busyRatioMin ≤ ratio e → p.minBusyRatio ≤ ratio e
  busySome : p.minBusyRatio = 128 ∨ ∃ e ∈ l, busyRatioMin ≤ ratio e ∧ ratio e = p.minBusyRatio
  channel : p.channel ≠ 0 → p.channel ∈ l ∧
    (ratio p.channel < busyRatioMin ∧ ratio p.channel = p.minApNumRation ∨
      busyRatioMin ≤ ratio p.channel ∧ ratio p.channel = p.minBusyRatio ∧ p.minBusyRatio < 128)
  none : p.channel = 0 → p.minApNumRation = 128 ∧ p.minBusyRatio = 128

variable {p : Pick}

theorem consider_better (hr : ratio x < busyRatioMin)
    (hw : weight x < p.minApNum ∨ weight x = p.minApNum ∧ ratio x ≤ p.minApNumRation) :
    p.consider weight ratio x = { p with minApNum := weight x, channel := x, minApNumRation := ratio x } := by
  unfold Pick.consider
  rw [if_pos hr]
  rcases hw with hlt | ⟨heq, hle⟩
  · rw [if_pos (Nat.le_of_lt hlt), if_neg (Nat.ne_of_lt hlt)]
  · rw [if_pos (Nat.le_of_eq heq), if_pos heq, if_pos hle]

theorem consider_worse (hr : ratio x < busyRatioMin)
    (hw : ¬ (weight x < p.minApNum ∨ weight x = p.minApNum ∧ ratio x ≤ p.minApNumRation)) :
    p.consider weight ratio x = p := by
  unfold Pick.consider
  rw [if_pos hr]
  by_cases hle : weight x ≤ p.minApNum
  · have heq : weight x = p.minApNum := by omega
    rw [if_pos hle, if_pos heq, if_neg fun h => hw (.inr ⟨heq, h⟩)]
  · rw [if_neg hle]

theorem consider_busy (hr : busyRatioMin ≤ ratio x) (hp : p.minApNum = noApNum) (hlt : ratio x < p.minBusyRatio) :
    p.consider weight ratio x = { p with minBusyRatio := ratio x, channel := x } := by
  unfold Pick.consider
  rw [if_neg (Nat.not_lt.mpr hr), if_pos hp, if_pos hlt]

theorem consider_skip (hr : busyRatioMin ≤ ratio x) (h : ¬ (p.minApNum = noApNum ∧ ratio x < p.minBusyRatio)) :
    p.consider weight ratio x = p := by
  unfold Pick.consider
  rw [if_neg (Nat.not_lt.mpr hr)]
  by_cases hp : p.minApNum = noApNum
  · rw [if_pos hp, if_neg fun hlt => h ⟨hp, hlt⟩]
  · rw [if_neg hp]

theorem light_snoc : Light weight ratio (l ++ [x]) ↔ Light weight ratio l ∨ ratio x < busyRatioMin ∧ weight x < noApNum := by
  unfold Light
  constructor
  · rintro ⟨e, he, h⟩
    rcases List.mem_append.mp he with he | he
    · exact .inl ⟨e, he, h⟩
    · obtain rfl := List.mem_singleton.mp he
      exact .inr h
  · rintro (⟨e, he, h⟩ | h)
    · exact ⟨e, List.mem_append_left _ he, h⟩
    · exact ⟨x, List.mem_append_right _ List.mem_cons_self, h⟩

theorem forall_snoc {P : Nat → Prop} (h : ∀ e ∈ l, P e) (hx : P x) : ∀ e ∈ l ++ [x], P e := by
  intro e he
  rcases List.mem_append.mp he with he | he
  · exact h e he
  · obtain rfl := List.mem_singleton.mp he
    exact hx

theorem PickedLight.step (h : PickedLight weight ratio l p) :
    PickedLight weight ratio (l ++ [x]) (p.consider weight ratio x) := by
  have hkeep (hx : ratio x < busyRatioMin → p.minApNum < weight x ∨ p.minApNum = weight x ∧ p.minApNumRation ≤ ratio x) :
      PickedLight weight ratio (l ++ [x]) p :=
    ⟨h.light, List.mem_append_left _ h.mem, h.ratio_lt, h.weight_eq, h.ratio_eq, forall_snoc h.least hx⟩
  by_cases hr : ratio x < busyRatioMin
  · by_cases hw : weight x < p.minApNum ∨ weight x = p.minApNum ∧ ratio x ≤ p.minApNumRation
    · rw [consider_better hr hw]
      refine ⟨?_, List.mem_append_right _ List.mem_cons_self, hr, rfl, rfl, forall_snoc ?_ ?_⟩
      · have hlight := h.light
        show weight x < noApNum
        omega
      · intro e he hlt
        have hle := h.least e he hlt
        show weight x < weight e ∨ weight x = weight e ∧ ratio x ≤ ratio e
        omega
      · exact fun _ => .inr ⟨rfl, Nat.le_refl _⟩
    · rw [consider_worse hr hw]
      exact hkeep fun _ => by omega
  · have hskip : ¬ (p.minApNum = noApNum ∧ ratio x < p.minBusyRatio) := fun hp => Nat.ne_of_lt h.light hp.1
    rw [consider_skip (Nat.not_lt.mp hr) hskip]
    exact hkeep fun hlt => absurd hlt hr

theorem PickedHeavy.light (h : PickedHeavy ratio l p) (hl : ¬ Light weight ratio l) (hmax : ∀ n, weight n ≤ noApNum)
    (hr : ratio x < busyRatioMin) (hw : weight x < noApNum) :
    PickedLight weight ratio (l ++ [x]) (p.consider weight ratio x) := by
  have hbetter : weight x < p.minApNum := by
    rw [h.heavy]
    exact hw
  rw [consider_better hr (.inl hbetter)]
  refine ⟨hw, List.mem_append_right _ List.mem_cons_self, hr, rfl, rfl, forall_snoc ?_ ?_⟩
  · intro e he hlt
    have hall : ¬ weight e < noApNum := fun hlow => hl ⟨e, he, hlt, hlow⟩
    have hle := hmax e
    show weight x < weight e ∨ weight x = weight e ∧ ratio x ≤ ratio e
    omega
  · exact fun _ => .inr ⟨rfl, Nat.le_refl _⟩

theorem PickedHeavy.step (h : PickedHeavy ratio l p) (hmax : ∀ n, weight n ≤ noApNum) (hx : x ≠ 0)
    (hheavy : ratio x < busyRatioMin → ¬ weight x < noApNum) :
    PickedHeavy ratio (l ++ [x]) (p.consider weight ratio x) := by
  have hapKeep : p.minApNumRation = 128 ∨ ∃ e ∈ l ++ [x], ratio e < busyRatioMin ∧ ratio e = p.minApNumRation := by
    rcases h.apSome with h128 | ⟨e, he, ha⟩
    · exact .inl h128
    · exact .inr ⟨e, List.mem_append_left _ he, ha⟩
  by_cases hr : ratio x < busyRatioMin
  · have hle := hmax x
    have heq : weight x = p.minApNum := by
      rw [h.heavy]
      have hge := hheavy hr
      omega
    by_cases hap : ratio x ≤ p.minApNumRation
    · rw [consider_better hr (.inr ⟨heq, hap⟩)]
      refine ⟨heq.trans h.heavy, forall_snoc ?_ ?_, .inr ⟨x, List.mem_append_right _ List.mem_cons_self, hr, rfl⟩, h.busyMax, forall_snoc h.busyLe ?_, ?_, ?_, fun h0 => absurd h0 hx⟩
      · intro e he hlt
        exact Nat.le_trans hap (h.apLe e he hlt)
      · exact fun _ => Nat.le_refl _
      · exact fun hge => absurd hr (Nat.not_lt.mpr hge)
      · rcases h.busySome with h128 | ⟨e, he, hb⟩
        · exact .inl h128
        · exact .inr ⟨e, List.mem_append_left _ he, hb⟩
      · exact fun _ => ⟨List.mem_append_right _ List.mem_cons_self, .inl ⟨hr, rfl⟩⟩
    · have hno : ¬ (weight x < p.minApNum ∨ weight x = p.minApNum ∧ ratio x ≤ p.minApNumRation) := by omega
      rw [consider_worse hr hno]
      refine ⟨h.heavy, forall_snoc h.apLe fun _ => by omega, hapKeep, h.busyMax, forall_snoc h.busyLe ?_, ?_, ?_, h.none⟩
      · exact fun hge => absurd hr (Nat.not_lt.mpr hge)
      · rcases h.busySome with h128 | ⟨e, he, hb⟩
        · exact .inl h128
        · exact .inr ⟨e, List.mem_append_left _ he, hb⟩
      · exact fun h0 => ⟨List.mem_append_left _ (h.channel h0).1, (h.channel h0).2⟩
  · have hge := Nat.not_lt.mp hr
    by_cases hlt : ratio x < p.minBusyRatio
    · have hlt128 : ratio x < 128 := Nat.lt_of_lt_of_le hlt h.busyMax
      rw [consider_busy hge h.heavy hlt]
      refine ⟨h.heavy, forall_snoc h.apLe fun hx => absurd hx hr, hapKeep, Nat.le_of_lt hlt128, forall_snoc ?_ ?_, ?_, ?_,
        fun h0 => absurd h0 hx⟩
      · intro e he hbe
        exact Nat.le_trans (Nat.le_of_lt hlt) (h.busyLe e he hbe)
      · exact fun _ => Nat.le_refl _
      · exact .inr ⟨x, List.mem_append_right _ List.mem_cons_self, hge, rfl⟩
      · exact fun _ => ⟨List.mem_append_right _ List.mem_cons_self, .inr ⟨hge, rfl, hlt128⟩⟩
    · rw [consider_skip hge fun hp => hlt hp.2]
      refine ⟨h.heavy, forall_snoc h.apLe fun hx => absurd hx hr, hapKeep, h.busyMax,
        forall_snoc h.busyLe fun _ => Nat.not_lt.mp hlt, ?_, fun h0 => ?_, h.none⟩
      · rcases h.busySome with h128 | ⟨e, he, hb⟩
        · exact .inl h128
        · exact .inr ⟨e, List.mem_append_left _ he, hb⟩
      · exact ⟨List.mem_append_left _ (h.channel h0).1, (h.channel h0).2⟩

/-- **The pick of a whole list.** -/
theorem pick_spec (hmax : ∀ n, weight n ≤ noApNum) (l : List Nat) (hpos : ∀ e ∈ l, e ≠ 0) :
    (Light weight ratio l → PickedLight weight ratio l (pick weight ratio l)) ∧
    (¬ Light weight ratio l → PickedHeavy ratio l (pick weight ratio l)) := by
  induction l using List.reverseRecOn with
  | nil =>
    refine ⟨fun ⟨e, he, _⟩ => absurd he List.not_mem_nil, fun _ => ?_⟩
    exact ⟨rfl, nofun, .inl rfl, Nat.le_refl _, nofun, .inl rfl, fun h0 => absurd rfl h0, fun _ => ⟨rfl, rfl⟩⟩
  | append_singleton l x ih =>
    obtain ⟨hlight, hheavy⟩ := ih fun e he => hpos e (List.mem_append_left _ he)
    have hx : x ≠ 0 := hpos x (List.mem_append_right _ List.mem_cons_self)
    rw [pick_snoc, light_snoc]
    by_cases hl : Light weight ratio l
    · exact ⟨fun _ => (hlight hl).step, fun h => absurd (.inl hl) h⟩
    · constructor
      · rintro (h | ⟨hr, hw⟩)
        · exact absurd h hl
        · exact (hheavy hl).light hl hmax hr hw
      · intro h
        exact (hheavy hl).step hmax hx fun hr hw => h (.inr ⟨hr, hw⟩)

/-! ## When the last pick is not a busy channel -/

theorem NoLateBusy.snoc (h : NoLateBusy ratio l) (hx : ratio x < busyRatioMin → ∃ e ∈ l, ratio e < busyRatioMin ∧ ratio e ≤ ratio x)
    (hb : busyRatioMin ≤ ratio x → 128 ≤ ratio x ∨ ∃ b ∈ l, busyRatioMin ≤ ratio b ∧ ratio b ≤ ratio x) :
    NoLateBusy ratio (l ++ [x]) := by
  obtain ⟨l1, a, l2, rfl, ha, hleast, hlate⟩ := h
  refine ⟨l1, a, l2 ++ [x], by simp, ha, forall_snoc hleast ?_, ?_⟩
  · intro hr
    obtain ⟨e, he, hlt, hle⟩ := hx hr
    exact Nat.le_trans (hleast e he hlt) hle
  · intro m1 b m2 hsplit hge
    rcases List.eq_nil_or_concat m2 with rfl | ⟨m, y, rfl⟩
    · -- the channel is the one that came last
      obtain ⟨rfl, hxb⟩ := List.append_inj' hsplit rfl
      obtain rfl : x = b := by simpa using hxb
      rcases hb hge with h128 | ⟨b', hb', hge', hle⟩
      · exact .inl h128
      · refine .inr ⟨b', ?_, hge', hle⟩
        rcases List.mem_append.mp hb' with hb' | hb'
        · exact List.mem_append_left _ hb'
        · rcases List.mem_cons.mp hb' with rfl | hb'
          · exact absurd ha (Nat.not_lt.mpr hge')
          · exact List.mem_append_right _ hb'
    · rw [List.concat_eq_append, ← List.cons_append, ← List.append_assoc] at hsplit
      obtain ⟨rfl, -⟩ := List.append_inj' hsplit rfl
      exact hlate m1 b m rfl hge

theorem NoLateBusy.of_snoc (h : NoLateBusy ratio (l ++ [x]))
    (hx : ratio x < busyRatioMin → ∃ e ∈ l, ratio e < ratio x) : NoLateBusy ratio l := by
  obtain ⟨l1, a, l2, hsplit, ha, hleast, hlate⟩ := h
  rcases List.eq_nil_or_concat l2 with rfl | ⟨m, y, rfl⟩
  · obtain ⟨rfl, hxa⟩ := List.append_inj' hsplit rfl
    obtain rfl : x = a := by simpa using hxa
    obtain ⟨e, he, hlt⟩ := hx ha
    exact absurd (hleast e (List.mem_append_left _ he) (Nat.lt_trans hlt ha)) (Nat.not_le.mpr hlt)
  · rw [List.concat_eq_append, ← List.cons_append, ← List.append_assoc] at hsplit
    obtain ⟨rfl, hxy⟩ := List.append_inj' hsplit rfl
    refine ⟨l1, a, m, rfl, ha, fun e he => hleast e (List.mem_append_left _ he), ?_⟩
    rintro m1 b m2 rfl hge
    exact hlate m1 b (m2 ++ [y]) (by simp) hge

theorem not_noLateBusy (hr : busyRatioMin ≤ ratio x) (h128 : ratio x < 128)
    (hall : ∀ b ∈ l, busyRatioMin ≤ ratio b → ratio x < ratio b) : ¬ NoLateBusy ratio (l ++ [x]) := by
  rintro ⟨l1, a, l2, hsplit, ha, -, hlate⟩
  rcases List.eq_nil_or_concat l2 with rfl | ⟨m, y, rfl⟩
  · obtain ⟨-, hxa⟩ := List.append_inj' hsplit rfl
    obtain rfl : x = a := by simpa using hxa
    exact absurd ha (Nat.not_lt.mpr hr)
  · rw [List.concat_eq_append, ← List.cons_append, ← List.append_assoc] at hsplit
    obtain ⟨rfl, hxy⟩ := List.append_inj' hsplit rfl
    obtain rfl : x = y := by simpa using hxy
    rcases hlate m x [] (by simp) hr with h | ⟨b, hb, hge, hle⟩
    · omega
    · have hmem : b ∈ l1 ++ a :: m := by
        rcases List.mem_append.mp hb with hb | hb
        · exact List.mem_append_left _ hb
        · exact List.mem_append_right _ (List.mem_cons_of_mem _ hb)
      have hlt := hall b hmem hge
      omega

theorem heavy_below_iff (hmax : ∀ n, weight n ≤ noApNum) (l : List Nat) (hpos : ∀ e ∈ l, e ≠ 0)
    (hl : ¬ Light weight ratio l) (hbelow : ∃ e ∈ l, ratio e < busyRatioMin) :
    ratio (pick weight ratio l).channel < busyRatioMin ↔ NoLateBusy ratio l := by
  induction l using List.reverseRecOn with
  | nil =>
    obtain ⟨e, he, -⟩ := hbelow
    exact absurd he List.not_mem_nil
  | append_singleton l x ih =>
    rw [light_snoc, not_or] at hl
    obtain ⟨hl, hx⟩ := hl
    have hpos' : ∀ e ∈ l, e ≠ 0 := fun e he => hpos e (List.mem_append_left _ he)
    have hp := (pick_spec hmax l hpos').2 hl
    rw [pick_snoc]
    by_cases hr : ratio x < busyRatioMin
    · have heq : weight x = (pick weight ratio l).minApNum := by
        have hle := hmax x
        have hheavy : ¬ weight x < noApNum := fun h => hx ⟨hr, h⟩
        rw [hp.heavy]
        omega
      by_cases hap : ratio x ≤ (pick weight ratio l).minApNumRation
      · rw [consider_better hr (.inr ⟨heq, hap⟩)]
        refine ⟨fun _ => ⟨l, x, [], rfl, hr, forall_snoc ?_ ?_, ?_⟩, fun _ => hr⟩
        · exact fun e he hlt => Nat.le_trans hap (hp.apLe e he hlt)
        · exact fun _ => Nat.le_refl _
        · exact fun m1 b m2 h => absurd h (by simp)
      · have hno : ¬ (weight x < (pick weight ratio l).minApNum ∨
            weight x = (pick weight ratio l).minApNum ∧ ratio x ≤ (pick weight ratio l).minApNumRation) := by omega
        have hsmaller : ∃ e ∈ l, ratio e < busyRatioMin ∧ ratio e < ratio x := by
          rcases hp.apSome with h128 | ⟨e, he, hlt, hval⟩
          · unfold busyRatioMin at hr
            omega
          · exact ⟨e, he, hlt, by omega⟩
        obtain ⟨e, he, hlt, hle⟩ := hsmaller
        rw [consider_worse hr hno, ih hpos' hl ⟨e, he, hlt⟩]
        constructor
        · exact fun h => h.snoc (fun _ => ⟨e, he, hlt, Nat.le_of_lt hle⟩) fun hge => absurd hr (Nat.not_lt.mpr hge)
        · exact fun h => h.of_snoc fun _ => ⟨e, he, hle⟩
    · have hge := Nat.not_lt.mp hr
      have hbelow' : ∃ e ∈ l, ratio e < busyRatioMin := by
        obtain ⟨e, he, hlt⟩ := hbelow
        rcases List.mem_append.mp he with he | he
        · exact ⟨e, he, hlt⟩
        · obtain rfl := List.mem_singleton.mp he
          exact absurd hlt hr
      by_cases hlt : ratio x < (pick weight ratio l).minBusyRatio
      · have hmaxBusy := hp.busyMax
        rw [consider_busy hge hp.heavy hlt]
        constructor
        · exact fun h => absurd h hr
        · intro h
          refine absurd h (not_noLateBusy hge (by omega) fun b hb hbe => ?_)
          exact Nat.lt_of_lt_of_le hlt (hp.busyLe b hb hbe)
      · rw [consider_skip hge fun h => hlt h.2, ih hpos' hl hbelow']
        constructor
        · refine fun h => h.snoc (fun h' => absurd h' hr) fun _ => ?_
          rcases hp.busySome with h128 | ⟨b, hb, hbe, hval⟩
          · exact .inl (by omega)
          · exact .inr ⟨b, hb, hbe, by omega⟩
        · exact fun h => h.of_snoc fun h' => absurd h' hr

/-- **The selection finds a channel exactly when there is one, and then the best, exactly when the ratios and weights
fit.** -/
theorem pick_best_iff (hmax : ∀ n, weight n ≤ noApNum) (l : List Nat) (hpos : ∀ e ∈ l, e ≠ 0) :
    (((pick weight ratio l).channel ≠ 0 ↔ l ≠ []) ∧
      ((pick weight ratio l).channel ≠ 0 → Best weight ratio l (pick weight ratio l).channel)) ↔
      SelectFits weight ratio l := by
  have hspec : (Light weight ratio l → PickedLight weight ratio l (pick weight ratio l)) ∧
      (¬ Light weight ratio l → PickedHeavy ratio l (pick weight ratio l)) := pick_spec hmax l hpos
  by_cases hl : Light weight ratio l
  · have hp := hspec.1 hl
    have hne : l ≠ [] := List.ne_nil_of_mem hp.mem
    constructor
    · refine fun _ => ⟨fun _ => .inl hl, fun hall => ?_⟩
      obtain ⟨e, he, hlt, -⟩ := hl
      exact absurd hlt (Nat.not_lt.mpr (hall e he))
    · refine fun _ => ⟨⟨fun _ => hne, fun _ => hpos _ hp.mem⟩, fun _ => ⟨hp.mem, fun _ => ⟨hp.ratio_lt, ?_⟩, fun hall => ?_⟩⟩
      · intro e he hlt
        rw [hp.weight_eq, hp.ratio_eq]
        exact hp.least e he hlt
      · exact absurd hp.ratio_lt (Nat.not_lt.mpr (hall _ hp.mem))
  · have hp := hspec.2 hl
    by_cases hbelow : ∃ e ∈ l, ratio e < busyRatioMin
    · have hiff := heavy_below_iff hmax l hpos hl hbelow
      obtain ⟨e0, he0, hlt0⟩ := hbelow
      have hne : l ≠ [] := List.ne_nil_of_mem he0
      have hap : (pick weight ratio l).minApNumRation < busyRatioMin := Nat.lt_of_le_of_lt (hp.apLe e0 he0 hlt0) hlt0
      have hchan : (pick weight ratio l).channel ≠ 0 := by
        intro h0
        rw [(hp.none h0).1] at hap
        exact absurd hap (by decide)
      have hnotall : ¬ ∀ e ∈ l, busyRatioMin ≤ ratio e := fun hall => absurd hlt0 (Nat.not_lt.mpr (hall e0 he0))
      constructor
      · rintro ⟨-, hbest⟩
        exact ⟨fun _ => .inr (hiff.mp ((hbest hchan).below ⟨e0, he0, hlt0⟩).1), fun hall => absurd hall hnotall⟩
      · intro hfits
        have hlate : NoLateBusy ratio l := (hfits.below ⟨e0, he0, hlt0⟩).resolve_left hl
        have hlow := hiff.mpr hlate
        have hweights (e : Nat) (he : e ∈ l) (hlt : ratio e < busyRatioMin) : weight e = noApNum := by
          have hle := hmax e
          have hheavy : ¬ weight e < noApNum := fun h => hl ⟨e, he, hlt, h⟩
          omega
        obtain ⟨hmem, hcase⟩ := hp.channel hchan
        have hval : ratio (pick weight ratio l).channel = (pick weight ratio l).minApNumRation := by
          rcases hcase with ⟨-, hval⟩ | ⟨hge, -⟩
          · exact hval
          · exact absurd hlow (Nat.not_lt.mpr hge)
        refine ⟨⟨fun _ => hne, fun _ => hchan⟩, fun _ => ⟨hmem, fun _ => ⟨hlow, ?_⟩, fun hall => absurd hall hnotall⟩⟩
        intro e he hlt
        rw [hweights _ hmem hlow, hweights e he hlt, hval]
        exact .inr ⟨rfl, hp.apLe e he hlt⟩
    · have hall : ∀ e ∈ l, busyRatioMin ≤ ratio e := fun e he => Nat.not_lt.mp fun hlt => hbelow ⟨e, he, hlt⟩
      by_cases hchan : (pick weight ratio l).channel = 0
      · have h128 := (hp.none hchan).2
        have hlarge (e : Nat) (he : e ∈ l) : 128 ≤ ratio e := h128 ▸ hp.busyLe e he (hall e he)
        constructor
        · rintro ⟨hfound, -⟩
          refine ⟨fun h => absurd h hbelow, fun _ hne => absurd hchan (hfound.mpr hne)⟩
        · intro hfits
          have hnil : l = [] := by
            apply Classical.byContradiction
            intro hne
            obtain ⟨e, he, hlt⟩ := hfits.above hall hne
            exact absurd hlt (Nat.not_lt.mpr (hlarge e he))
          exact ⟨⟨fun h => absurd hchan h, fun h => absurd hnil h⟩, fun h => absurd hchan h⟩
      · obtain ⟨hmem, hcase⟩ := hp.channel hchan
        have hne : l ≠ [] := List.ne_nil_of_mem hmem
        rcases hcase with ⟨hlt, -⟩ | ⟨-, hval, h128⟩
        · exact absurd hlt (Nat.not_lt.mpr (hall _ hmem))
        · constructor
          · exact fun _ => ⟨fun h => absurd h hbelow, fun _ _ => ⟨_, hmem, by omega⟩⟩
          · refine fun _ => ⟨⟨fun _ => hne, fun _ => hchan⟩, fun _ => ⟨hmem, fun h => absurd h hbelow, fun _ e he => ?_⟩⟩
            rw [hval]
            exact hp.busyLe e he (hall e he)

end

end ChannelSelect

end AtbmWifi
