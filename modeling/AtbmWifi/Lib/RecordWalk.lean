import AtbmWifi.Lib.Message

/-!
# Walks over records

A buffer announces a number of records and the bytes they take.  A do-while loop walks them: a record longer than
what is left ends it; else the record is visited, which may stop the walk, the head of the next one is read, and the
loop goes on while records are announced and more than `least` bytes are left.  The rest is signed, the comparison
with the length of a record is not.

`run_iff`: what holds of all that is touched and of the end is what holds of each record that is reached.  `Reached`
is said with the offsets alone.
-/

namespace Wire

variable {R : Type}

/-- What is touched of a record, and why the walk stops there. -/
structure Visit (R : Type) where
  spans : List Span
  stop : Option R

/-- The lengths by offset, the way from a record to the next, and the visit of the `i`th record at an offset. -/
structure RecordWalk (R : Type) where
  len : Nat → Nat
  stride : Nat → Nat
  head : Nat
  least : Int
  visit : Nat → Nat → Visit R

/-- How a walk ends, with the records still announced. -/
inductive WalkEnd (R : Type)
  /-- a record is longer than what is left -/
  | cut (num : Int)
  | stopped (r : R)
  /-- no more records are announced, or too few bytes are left -/
  | out (num : Int)
  deriving DecidableEq, Repr

structure Walked (R : Type) where
  /-- the offsets of the records visited -/
  visited : List Nat
  spans : List Span
  ending : WalkEnd R
  deriving DecidableEq, Repr

namespace RecordWalk

/-- From the `i`th record on; none when the fuel runs out. -/
def run (w : RecordWalk R) : Nat → Nat → Nat → Int → Int → Option (Walked R)
  | 0, _, _, _, _ => none
  | fuel + 1, i, off, left, num =>
    if left % 2 ^ 32 < w.len off then some ⟨[], [], .cut num⟩
    else
      let v := w.visit i off
      match v.stop with
      | some r => some ⟨[off], v.spans, .stopped r⟩
      | none =>
        let off' := off + w.stride (w.len off)
        let left' := left - w.stride (w.len off)
        let rest := if num - 1 > 0 ∧ left' > w.least then w.run fuel (i + 1) off' left' (num - 1)
          else some ⟨[], [], .out (num - 1)⟩
        rest.map fun r => { r with visited := off :: r.visited, spans := v.spans ++ ⟨off', w.head⟩ :: r.spans }

/-- The offset of the `k`th record. -/
def start (w : RecordWalk R) (off : Nat) : Nat → Nat
  | 0 => off
  | k + 1 => w.start off k + w.stride (w.len (w.start off k))

section
variable (w : RecordWalk R) (off : Nat) (left num : Int)

/-- What is left at the `k`th record. -/
def rest (k : Nat) : Int := left - ((w.start off k : Nat) - off : Int)

def Fits (k : Nat) : Prop := (w.len (w.start off k) : Int) ≤ w.rest off left k % 2 ^ 32

def stop (k : Nat) : Option R := (w.visit k (w.start off k)).stop

/-- The loop goes on behind the `k`th record. -/
def Continues (k : Nat) : Prop := (k : Int) + 1 < num ∧ w.least < w.rest off left (k + 1)

/-- The walk comes to the `k`th record. -/
def Reached (k : Nat) : Prop := ∀ j < k, w.Fits off left j ∧ w.stop off j = none ∧ w.Continues off left num j

/-- What `P` of the spans and `Q` of the end come to at the `k`th record. -/
structure Sound (P : Span → Prop) (Q : WalkEnd R → Prop) (k : Nat) : Prop where
  cut : ¬ w.Fits off left k → Q (.cut (num - k))
  spans : w.Fits off left k → ∀ s ∈ (w.visit k (w.start off k)).spans, P s
  stopped : w.Fits off left k → ∀ r, w.stop off k = some r → Q (.stopped r)
  head : w.Fits off left k → w.stop off k = none → P ⟨w.start off (k + 1), w.head⟩
  out : w.Fits off left k → w.stop off k = none → ¬ w.Continues off left num k → Q (.out (num - (k + 1)))

instance (k : Nat) : Decidable (w.Fits off left k) := inferInstanceAs (Decidable (_ ≤ _))

instance (k : Nat) : Decidable (w.Continues off left num k) := inferInstanceAs (Decidable (_ ∧ _))

@[simp] theorem rest_zero : w.rest off left 0 = left := by
  unfold rest start
  rw [Int.sub_self, Int.sub_zero]

theorem rest_succ (k : Nat) :
    w.rest off left (k + 1) = w.rest off left k - w.stride (w.len (w.start off k)) := by
  unfold rest
  show left - (((w.start off k + w.stride (w.len (w.start off k)) : Nat) : Int) - off) = _
  omega

variable {w off left num}

theorem reached_zero : w.Reached off left num 0 := nofun

theorem reached_succ {k : Nat} : w.Reached off left num (k + 1) ↔
    w.Reached off left num k ∧ w.Fits off left k ∧ w.stop off k = none ∧ w.Continues off left num k := by
  constructor
  · intro h
    exact ⟨fun j hj => h j (Nat.lt_succ_of_lt hj), h k (Nat.lt_succ_self k)⟩
  · rintro ⟨h, hk⟩ j hj
    rcases Nat.lt_succ_iff_lt_or_eq.mp hj with hj | rfl
    · exact h j hj
    · exact hk

theorem Reached.mono {j k : Nat} (h : w.Reached off left num k) (hjk : j ≤ k) : w.Reached off left num j :=
  fun i hi => h i (Nat.lt_of_lt_of_le hi hjk)

/-- All records from `k` on that are reached are sound iff this one is, and the later ones. -/
theorem from_succ {k : Nat} {S : Nat → Prop} :
    (∀ j, k ≤ j → w.Reached off left num j → S j) ↔
      (w.Reached off left num k → S k) ∧ ∀ j, k + 1 ≤ j → w.Reached off left num j → S j := by
  constructor
  · intro h
    exact ⟨h k (Nat.le_refl k), fun j hj => h j (Nat.le_of_succ_le hj)⟩
  · rintro ⟨h1, h2⟩ j hj
    rcases Nat.eq_or_lt_of_le hj with rfl | hlt
    · exact h1
    · exact h2 j hlt

theorem none_later {k : Nat} {S : Nat → Prop}
    (h : ¬ (w.Fits off left k ∧ w.stop off k = none ∧ w.Continues off left num k)) :
    ∀ j, k + 1 ≤ j → w.Reached off left num j → S j :=
  fun _ hj hr => absurd (reached_succ.mp (hr.mono hj)).2 h

section
variable {P : Span → Prop} {Q : WalkEnd R → Prop} {k : Nat}

theorem sound_cut (hf : ¬ w.Fits off left k) : w.Sound off left num P Q k ↔ Q (.cut (num - k)) :=
  ⟨fun h => h.cut hf, fun h => ⟨fun _ => h, fun h' => absurd h' hf, fun h' => absurd h' hf, fun h' => absurd h' hf,
    fun h' => absurd h' hf⟩⟩

theorem sound_stopped {r : R} (hf : w.Fits off left k) (hs : w.stop off k = some r) : w.Sound off left num P Q k ↔
    (∀ s ∈ (w.visit k (w.start off k)).spans, P s) ∧ Q (.stopped r) := by
  constructor
  · intro h
    exact ⟨h.spans hf, h.stopped hf r hs⟩
  · rintro ⟨h1, h2⟩
    refine ⟨fun h => absurd hf h, fun _ => h1, fun _ r' hr' => ?_, fun _ hn => ?_, fun _ hn => ?_⟩
    · obtain rfl : r = r' := Option.some.inj (hs.symm.trans hr')
      exact h2
    · cases hs.symm.trans hn
    · cases hs.symm.trans hn

theorem sound_out (hf : w.Fits off left k) (hs : w.stop off k = none) (hc : ¬ w.Continues off left num k) :
    w.Sound off left num P Q k ↔ ((∀ s ∈ (w.visit k (w.start off k)).spans, P s) ∧ P ⟨w.start off (k + 1), w.head⟩) ∧
      Q (.out (num - (k + 1))) := by
  constructor
  · intro h
    exact ⟨⟨h.spans hf, h.head hf hs⟩, h.out hf hs hc⟩
  · rintro ⟨⟨h1, h2⟩, h3⟩
    refine ⟨fun h => absurd hf h, fun _ => h1, fun _ r hr => ?_, fun _ _ => h2, fun _ _ _ => h3⟩
    cases hs.symm.trans hr

theorem sound_on (hf : w.Fits off left k) (hs : w.stop off k = none) (hc : w.Continues off left num k) :
    w.Sound off left num P Q k ↔ (∀ s ∈ (w.visit k (w.start off k)).spans, P s) ∧
      P ⟨w.start off (k + 1), w.head⟩ := by
  constructor
  · intro h
    exact ⟨h.spans hf, h.head hf hs⟩
  · rintro ⟨h1, h2⟩
    refine ⟨fun h => absurd hf h, fun _ => h1, fun _ r hr => ?_, fun _ _ => h2, fun _ _ h => absurd hc h⟩
    cases hs.symm.trans hr

end

theorem run_from (P : Span → Prop) (Q : WalkEnd R → Prop) (fuel k : Nat) (hk : w.Reached off left num k)
    (h0 : 0 < fuel) (hfuel : num ≤ fuel + k) :
    ∃ r, w.run fuel k (w.start off k) (w.rest off left k) (num - k) = some r ∧
      (((∀ s ∈ r.spans, P s) ∧ Q r.ending) ↔
        ∀ j, k ≤ j → w.Reached off left num j → w.Sound off left num P Q j) := by
  induction fuel generalizing k with
  | zero => omega
  | succ fuel ih =>
    rw [from_succ, imp_iff_right hk]
    unfold run
    by_cases hfit : w.Fits off left k
    · rw [if_neg (show ¬ (_ : Int) < _ from Int.not_lt.mpr hfit)]
      dsimp only
      cases hstop : w.stop off k with
      | some r =>
        have hvisit : (w.visit k (w.start off k)).stop = some r := hstop
        rw [hvisit]
        refine ⟨_, rfl, ?_⟩
        rw [sound_stopped hfit hstop, and_iff_left (none_later fun h => nomatch hstop.symm.trans h.2.1)]
      | none =>
        have hvisit : (w.visit k (w.start off k)).stop = none := hstop
        have hnum : num - k - 1 = num - ((k + 1 : Nat) : Int) := by omega
        have hcond : (num - k - 1 > 0 ∧
            w.rest off left k - w.stride (w.len (w.start off k)) > w.least) ↔ w.Continues off left num k := by
          unfold Continues
          rw [rest_succ]
          constructor <;> rintro ⟨h1, h2⟩ <;> exact ⟨by omega, h2⟩
        rw [hvisit]
        dsimp only
        by_cases hc : w.Continues off left num k
        · rw [if_pos (hcond.mpr hc), hnum]
          have hlt : (k : Int) + 1 < num := hc.1
          obtain ⟨r, hr, hiff⟩ := ih (k + 1) (reached_succ.mpr ⟨hk, hfit, hstop, hc⟩) (by omega) (by omega)
          rw [rest_succ] at hr
          refine ⟨_, congrArg (Option.map _) hr, ?_⟩
          rw [sound_on hfit hstop hc, ← hiff, List.forall_mem_append, List.forall_mem_cons, and_assoc, and_assoc,
            and_assoc]
          rfl
        · rw [if_neg (mt hcond.mp hc)]
          refine ⟨_, rfl, ?_⟩
          rw [sound_out hfit hstop hc, and_iff_left (none_later fun h => hc h.2.2), List.forall_mem_append,
            List.forall_mem_cons, hnum]
          show ((_ ∧ _ ∧ ∀ s ∈ [], P s) ∧ _) ↔ _
          rw [and_iff_left (show ∀ s ∈ [], P s from nofun)]
          rfl
    · rw [if_pos (show (_ : Int) < _ from Int.not_le.mp hfit)]
      refine ⟨_, rfl, ?_⟩
      rw [sound_cut hfit, and_iff_left (none_later fun h => hfit h.1)]
      exact and_iff_right (show ∀ s ∈ [], P s from nofun)

variable (w off left num) in
/-- **A walk ends, and what holds of what it touches and of its end is what holds of each record reached.** -/
theorem run_iff (P : Span → Prop) (Q : WalkEnd R → Prop) {fuel : Nat} (h0 : 0 < fuel) (hfuel : num ≤ fuel) :
    ∃ r, w.run fuel 0 off left num = some r ∧
      (((∀ s ∈ r.spans, P s) ∧ Q r.ending) ↔ ∀ k, w.Reached off left num k → w.Sound off left num P Q k) := by
  have hzero : w.Reached off left num 0 := reached_zero
  obtain ⟨r, hr, hiff⟩ := run_from P Q fuel 0 hzero h0 (by omega)
  rw [rest_zero] at hr
  refine ⟨r, ?_, hiff.trans ⟨fun h k => h k (Nat.zero_le k), fun h k _ => h k⟩⟩
  exact Eq.trans (congrArg (w.run fuel 0 off left) (Int.sub_zero num).symm) hr

end

end RecordWalk

end Wire
