import Mathlib.Data.List.Nodup
import Mathlib.Data.List.Perm.Basic

/-!
# Walking a table of chains with a saved next element

A table is a list of chains.  Whoever walks it keeps a place: the number of a chain and the element that comes next in it, or
none at the end of the chain.  `ahead` is what is still to come.  The table changes meanwhile.

* `ahead_next`: what is ahead of a place is the element it leads to and what is ahead behind that.
* `mem_ahead_unlink`: an element that is taken out, and is not the one saved, only leaves what is ahead.
* `mem_ahead_push`: a new element at the head of a chain can only come to what is ahead as itself.
* `perm_push`, `perm_unlink`: what is in the table then.
-/

namespace Cursor

variable {α : Type} [DecidableEq α]

/-- What comes from the saved element on. -/
def after (l : List α) : Option α → List α
  | none => []
  | some n => l.dropWhile (· ≠ n)

/-- The element behind `n`. -/
def succ (l : List α) (n : α) : Option α := (l.dropWhile (· ≠ n)).tail.head?

variable {l : List α} {n x y : α} {c : Option α}

theorem after_cons_ne {a : α} (h : c ≠ some a) : after (a :: l) c = after l c := by
  cases c with
  | none => rfl
  | some n =>
    have hn : a ≠ n := fun h' => h (by rw [h'])
    simp [after, hn]

theorem after_cons_self {a : α} : after (a :: l) (some a) = a :: l := by
  simp [after]

theorem succ_cons_ne {a : α} (h : a ≠ n) : succ (a :: l) n = succ l n := by
  simp [succ, h]

theorem succ_cons_self : succ (n :: l) n = l.head? := by
  simp [succ]

theorem mem_of_succ (h : succ l n = some x) : x ∈ l :=
  (List.dropWhile_sublist _).mem (List.mem_of_mem_tail (List.mem_of_head? h))

theorem after_head : after l l.head? = l := by
  cases l with
  | nil => rfl
  | cons a l => exact after_cons_self

theorem after_succ (hl : l.Nodup) (hn : n ∈ l) : after l (some n) = n :: after l (succ l n) := by
  induction l with
  | nil => cases hn
  | cons a l ih =>
    obtain ⟨ha, hl⟩ := List.nodup_cons.mp hl
    by_cases h : a = n
    · subst h
      have hne : l.head? ≠ some a := fun h => ha (List.mem_of_head? h)
      rw [after_cons_self, succ_cons_self, after_cons_ne hne, after_head]
    · have hn : n ∈ l := (List.mem_cons.mp hn).resolve_left (Ne.symm h)
      have hne : succ l n ≠ some a := fun h => ha (mem_of_succ h)
      rw [succ_cons_ne h, after_cons_ne hne, after_cons_ne (by simpa using Ne.symm h), ih hl hn]

theorem mem_after_filter (h : c ≠ some y) (hx : x ∈ after (l.filter (· ≠ y)) c) : x ∈ after l c := by
  induction l with
  | nil => exact hx
  | cons a l ih =>
    by_cases ha : a = y
    · subst ha
      rw [after_cons_ne h]
      exact ih (by simpa using hx)
    · rw [List.filter_cons_of_pos (by simpa using ha)] at hx
      by_cases hc : c = some a
      · subst hc
        rw [after_cons_self] at hx ⊢
        rcases List.mem_cons.mp hx with rfl | hx
        · exact List.mem_cons_self
        · exact List.mem_cons_of_mem _ (List.mem_of_mem_filter hx)
      · rw [after_cons_ne hc] at hx ⊢
        exact ih hx

/-- Chain `h`. -/
def chain (L : List (List α)) (h : Nat) : List α := L[h]?.getD []

/-- The first element from chain `h` on, of the chains from `h` on. -/
def first : Nat → List (List α) → Option (Nat × α)
  | _, [] => none
  | h, [] :: L => first (h + 1) L
  | h, (n :: _) :: _ => some (h, n)

/-- What is still to come. -/
def ahead (L : List (List α)) (h : Nat) (c : Option α) : List α := after (chain L h) c ++ (L.drop (h + 1)).flatten

/-- The element taken out of its chain. -/
def unlink (L : List (List α)) (y : α) : List (List α) := L.map (·.filter (· ≠ y))

/-- The element put at the head of a chain. -/
def push (L : List (List α)) (h : Nat) (a : α) : List (List α) := L.modify h (a :: ·)

variable {L : List (List α)} {h k : Nat} {a : α}

omit [DecidableEq α] in
theorem mem_drop_flatten : x ∈ (L.drop k).flatten ↔ ∃ h, k ≤ h ∧ x ∈ chain L h := by
  rw [List.mem_flatten]
  constructor
  · rintro ⟨l, hl, hx⟩
    obtain ⟨j, hj⟩ := List.mem_iff_getElem?.mp hl
    rw [List.getElem?_drop] at hj
    exact ⟨k + j, by omega, by simpa [chain, hj] using hx⟩
  · rintro ⟨h, hk, hx⟩
    cases hl : L[h]? with
    | none => simp [chain, hl] at hx
    | some l =>
      refine ⟨l, List.mem_iff_getElem?.mpr ⟨h - k, ?_⟩, by simpa [chain, hl] using hx⟩
      rw [List.getElem?_drop, Nat.add_sub_cancel' hk, hl]

omit [DecidableEq α] in
theorem mem_flatten : x ∈ L.flatten ↔ ∃ h, x ∈ chain L h := by
  simpa using mem_drop_flatten (L := L) (k := 0)

omit [DecidableEq α] in
theorem nodup_chain (hL : L.flatten.Nodup) : (chain L h).Nodup := by
  unfold chain
  cases hl : L[h]? with
  | none => exact List.nodup_nil
  | some l => exact (List.nodup_flatten.mp hL).1 l (List.mem_of_getElem? hl)

omit [DecidableEq α] in
theorem drop_flatten : (L.drop h).flatten = chain L h ++ (L.drop (h + 1)).flatten := by
  unfold chain
  cases hl : L[h]? with
  | none =>
    rw [List.getElem?_eq_none_iff] at hl
    rw [List.drop_eq_nil_of_le hl, List.drop_eq_nil_of_le (by omega)]
    rfl
  | some l =>
    obtain ⟨hlt, rfl⟩ := List.getElem?_eq_some_iff.mp hl
    rw [List.drop_eq_getElem_cons hlt]
    rfl

omit [DecidableEq α] in
theorem first_some (hf : first h (L.drop h) = some (k, n)) : h ≤ k ∧ ∃ l, chain L k = n :: l := by
  generalize hd : L.drop h = D at hf
  induction D generalizing h with
  | nil => cases hf
  | cons l D ih =>
    have hlt : h < L.length := by
      have := congrArg List.length hd
      simp at this
      omega
    rw [List.drop_eq_getElem_cons hlt] at hd
    obtain ⟨hl, hd'⟩ := List.cons.inj hd
    cases l with
    | nil =>
      obtain ⟨hk, hc⟩ := ih hd' hf
      exact ⟨by omega, hc⟩
    | cons m l =>
      cases hf
      exact ⟨Nat.le_refl _, l, by simp [chain, hlt, hl]⟩

omit [DecidableEq α] in
theorem first_flatten (hf : first h (L.drop h) = some (k, n)) :
    (L.drop h).flatten = chain L k ++ (L.drop (k + 1)).flatten := by
  generalize hd : L.drop h = D at hf
  induction D generalizing h with
  | nil => cases hf
  | cons l D ih =>
    have hlt : h < L.length := by
      have := congrArg List.length hd
      simp at this
      omega
    cases l with
    | nil =>
      rw [List.drop_eq_getElem_cons hlt] at hd
      obtain ⟨-, hd'⟩ := List.cons.inj hd
      exact ih hd' hf
    | cons m l =>
      cases hf
      rw [← hd]
      exact drop_flatten

/-- The first element from chain `h` on, and what is ahead behind it. -/
theorem ahead_first (hL : L.flatten.Nodup) (hf : first h (L.drop h) = some (k, n)) :
    (L.drop h).flatten = n :: ahead L k (succ (chain L k) n) := by
  obtain ⟨-, l, hc⟩ := first_some hf
  have hn : after (chain L k) (some n) = chain L k := by rw [hc, after_cons_self]
  rw [first_flatten hf, ahead, ← List.cons_append, ← after_succ (nodup_chain hL) (by simp [hc]), hn]

/-- Where a place leads to. -/
def next (L : List (List α)) (h : Nat) : Option α → Option (Nat × α)
  | some n => some (h, n)
  | none => first (h + 1) (L.drop (h + 1))

theorem ahead_next (hL : L.flatten.Nodup) (hc : ∀ m, c = some m → m ∈ chain L h) (hn : next L h c = some (k, n)) :
    n ∈ chain L k ∧ ahead L h c = n :: ahead L k (succ (chain L k) n) := by
  cases c with
  | some m =>
    cases hn
    exact ⟨hc n rfl, by rw [ahead, after_succ (nodup_chain hL) (hc n rfl)]; rfl⟩
  | none =>
    obtain ⟨-, l, hl⟩ := first_some hn
    exact ⟨by simp [hl], ahead_first hL hn⟩

omit [DecidableEq α] in
theorem nodup_drop (hL : L.flatten.Nodup) : (L.drop h).flatten.Nodup := by
  rw [← List.take_append_drop h L, List.flatten_append] at hL
  exact (List.nodup_append.mp hL).2.1

theorem not_mem_ahead_succ (hL : L.flatten.Nodup) (hn : n ∈ chain L h) : n ∉ ahead L h (succ (chain L h) n) := by
  have hd : (chain L h ++ (L.drop (h + 1)).flatten).Nodup := drop_flatten (L := L) ▸ nodup_drop hL
  have hs : (n :: ahead L h (succ (chain L h) n)).Sublist (chain L h ++ (L.drop (h + 1)).flatten) := by
    rw [ahead, ← List.cons_append, ← after_succ (nodup_chain hL) hn]
    exact (List.dropWhile_sublist _).append_right _
  exact (List.nodup_cons.mp (hd.sublist hs)).1

theorem chain_unlink : chain (unlink L y) h = (chain L h).filter (· ≠ y) := by
  unfold chain unlink
  rw [List.getElem?_map]
  cases L[h]? <;> rfl

theorem flatten_unlink : (unlink L y).flatten = L.flatten.filter (· ≠ y) := by
  rw [unlink, List.filter_flatten]

theorem perm_unlink (hL : L.flatten.Nodup) (hy : y ∈ L.flatten) : L.flatten.Perm (y :: (unlink L y).flatten) := by
  have he : (unlink L y).flatten = L.flatten.erase y := by
    rw [flatten_unlink, hL.erase_eq_filter]
    exact List.filter_congr fun x _ => by by_cases h : x = y <;> simp [bne, h]
  rw [he]
  exact List.perm_cons_erase hy

theorem mem_ahead_unlink (hc : c ≠ some y) (hx : x ∈ ahead (unlink L y) h c) : x ∈ ahead L h c := by
  rw [ahead, chain_unlink, unlink, ← List.map_drop, ← List.filter_flatten] at hx
  rcases List.mem_append.mp hx with hx | hx
  · exact List.mem_append_left _ (mem_after_filter hc hx)
  · exact List.mem_append_right _ (List.mem_of_mem_filter hx)

omit [DecidableEq α] in
theorem chain_push : chain (push L k a) h = if h = k ∧ h < L.length then a :: chain L h else chain L h := by
  unfold chain push
  rw [List.getElem?_modify]
  by_cases hk : k = h
  · subst hk
    by_cases hl : k < L.length
    · simp [hl]
    · simp [hl]
  · simp [hk, Ne.symm hk]

omit [DecidableEq α] in
theorem perm_push (hk : k < L.length) : (push L k a).flatten.Perm (a :: L.flatten) := by
  unfold push
  induction L generalizing k with
  | nil => cases hk
  | cons l L ih =>
    cases k with
    | zero => exact .refl _
    | succ k =>
      have := (ih (k := k) (by simpa using hk)).append_left l
      exact this.trans List.perm_middle

theorem mem_ahead_push (hc : c ≠ some a) (hx : x ∈ ahead (push L k a) h c) : x = a ∨ x ∈ ahead L h c := by
  rcases List.mem_append.mp hx with hx | hx
  · refine .inr (List.mem_append_left _ ?_)
    rw [chain_push] at hx
    split at hx
    · rwa [after_cons_ne hc] at hx
    · exact hx
  · obtain ⟨j, hj, hx⟩ := mem_drop_flatten.mp hx
    rw [chain_push] at hx
    split at hx
    · rcases List.mem_cons.mp hx with rfl | hx
      · exact .inl rfl
      · exact .inr (List.mem_append_right _ (mem_drop_flatten.mpr ⟨j, hj, hx⟩))
    · exact .inr (List.mem_append_right _ (mem_drop_flatten.mpr ⟨j, hj, hx⟩))

end Cursor
