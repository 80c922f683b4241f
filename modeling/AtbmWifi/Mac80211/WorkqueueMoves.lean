import AtbmWifi.Mac80211.Workqueue
import Mathlib.Data.List.Perm.Basic
import Mathlib.Data.List.Range

/-!
# What a call does to the lists

-/

namespace AtbmWifi

/-- The flags of a work that is `p` times on `works`, `d` times on `delay_works` and run by the worker iff `r`. -/
structure AtbmWork.Fits (x : AtbmWork) (p d : Nat) (r : Bool) : Prop where
  pending : p = x.pending.toNat
  delayed : d = x.delayed.toNat
  apart : x.pending = true → x.delayed = false
  timer : x.delayed = true ↔ x.timer ≠ .idle
  running : x.running = r
  wq : x.pending = true ∨ x.running = true → x.wq = true

namespace AtbmWq

variable {W : Type}

/-- Where the queue calls that returned true are: on a list, with the worker, or at their end. -/
def queueCalls (s : AtbmWq W) : List Nat :=
  s.works.filterMap WkEntry.call ++ s.delayWorks.map (·.2) ++ s.current.toList.filterMap WkEntry.call ++
    s.fate.map (·.1)

/-- Queue calls end without having run only if they are cancelled or the queue destroyed. -/
def Kept (s : AtbmWq W) : Prop := ∀ p ∈ s.fate, p.2 ≠ .lost ∧ (p.2 = .destroyed → s.thread = false)

/-- The work has run for the queue call, or the call was cancelled. -/
def Settled (k : Nat) (s : AtbmWq W) : Prop := (k, .run) ∈ s.fate ∨ (k, .cancelled) ∈ s.fate

def Queued (w : W) (k : Nat) (s : AtbmWq W) : Prop := .work w k ∈ s.works ∨ s.current = some (.work w k)

/-- The timer function is to come and a call waits for it. -/
def Timed (w : W) (k : Nat) (s : AtbmWq W) : Prop :=
  (w, k) ∈ s.delayWorks ∧ (s.wk w).timer = .firing ∧ (s.wk w).waiting = true

/-- The worker comes to the barrier work of `c` after it has run the work for the queue call. -/
def Before (w : W) (k c : Nat) (s : AtbmWq W) : Prop :=
  List.Sublist [.work w k, .wait c] s.works ∨ (s.current = some (.work w k) ∧ .wait c ∈ s.works)

variable [DecidableEq W]

/-- How often the barrier work of `c` is on `works` or run. -/
def waits (c : Nat) (s : AtbmWq W) : Nat := (s.works ++ s.current.toList).count (.wait c)

structure Sound (s : AtbmWq W) : Prop where
  fits : ∀ w, (s.wk w).Fits (s.works.countP (WkEntry.isWork w)) (s.delayWorks.countP (·.1 == w))
    (s.current.any (WkEntry.isWork w))
  torn : s.torn = false

/-- What a step is to the works others wait for; `new` are the barrier works it adds. -/
structure Follows (new : List Nat) (s t : AtbmWq W) : Prop where
  sound : t.Sound
  same : t.calls = s.calls
  thread : t.thread = true → s.thread = true
  settled : ∀ k, s.Settled k → t.Settled k
  queued : ∀ w k, s.Queued w k → t.Queued w k ∨ t.Settled k
  before : ∀ w k c, s.Before w k c → t.Before w k c ∨ t.Settled k
  timed : ∀ w k, t.thread = true → s.Timed w k → t.Timed w k ∨ t.Queued w k ∨ t.Settled k
  waits : ∀ c, t.waits c = s.waits c + new.count c

structure Keeps (new : List Nat) (s t : AtbmWq W) : Prop extends Follows new s t where
  calls : t.queueCalls.Perm s.queueCalls
  issued : t.issued = s.issued
  kept : s.Kept → t.Kept

variable {s t : AtbmWq W} {w v : W} {x : AtbmWork} {k c : Nat} {new : List Nat}

theorem Follows.trans {u : AtbmWq W} {more : List Nat} (h : Follows new s t) (h' : Follows more t u) :
    Follows (new ++ more) s u := by
  refine ⟨h'.sound, h'.same.trans h.same, fun hu => h.thread (h'.thread hu), fun k hk => h'.settled k (h.settled k hk), ?_, ?_, ?_, ?_⟩
  · intro w k hk
    rcases h.queued w k hk with hk | hk
    · exact h'.queued w k hk
    · exact .inr (h'.settled k hk)
  · intro w k c hk
    rcases h.before w k c hk with hk | hk
    · exact h'.before w k c hk
    · exact .inr (h'.settled k hk)
  · intro w k hu hk
    rcases h.timed w k (h'.thread hu) hk with hk | hk | hk
    · exact h'.timed w k hu hk
    · exact .inr (h'.queued w k hk)
    · exact .inr (.inr (h'.settled k hk))
  · intro c
    rw [h'.waits, h.waits, List.count_append, Nat.add_assoc]

theorem Keeps.trans {u : AtbmWq W} {more : List Nat} (h : Keeps new s t) (h' : Keeps more t u) :
    Keeps (new ++ more) s u :=
  ⟨h.toFollows.trans h'.toFollows, h'.calls.trans h.calls, h'.issued.trans h.issued, fun hs => h'.kept (h.kept hs)⟩

theorem Follows.grow (hsound : t.Sound) (hsame : t.calls = s.calls) (hthread : t.thread = s.thread) (hworks : s.works.Sublist t.works)
    (hcur : t.current = s.current) (hfate : s.fate ⊆ t.fate)
    (htimed : ∀ w k, t.thread = true → s.Timed w k → t.Timed w k ∨ t.Queued w k ∨ t.Settled k)
    (hwaits : ∀ c, t.works.count (.wait c) = s.works.count (.wait c) + new.count c) : Follows new s t := by
  refine ⟨hsound, hsame, fun h => hthread ▸ h, ?_, ?_, ?_, htimed, ?_⟩
  · rintro k (hk | hk)
    · exact .inl (hfate hk)
    · exact .inr (hfate hk)
  · rintro w k (hk | hk)
    · exact .inl (.inl (hworks.subset hk))
    · exact .inl (.inr (hcur.trans hk))
  · rintro w k c (hk | ⟨hk, hc⟩)
    · exact .inl (.inl (hk.trans hworks))
    · exact .inl (.inr ⟨hcur.trans hk, hworks.subset hc⟩)
  · intro c
    unfold AtbmWq.waits
    rw [List.count_append, List.count_append, hwaits c, hcur]
    omega

theorem Keeps.refl (h : s.Sound) : Keeps [] s s :=
  ⟨.grow h rfl rfl (.refl _) rfl (List.Subset.refl _) (fun _ _ _ hk => .inl hk) fun _ => rfl, .refl _, rfl, id⟩

theorem Sound.change (h : s.Sound) (hwk : t.wk = Function.update s.wk w x)
    (hworks : ∀ v, v ≠ w → t.works.countP (WkEntry.isWork v) = s.works.countP (WkEntry.isWork v))
    (hdelays : ∀ v, v ≠ w → t.delayWorks.countP (·.1 == v) = s.delayWorks.countP (·.1 == v))
    (hcur : ∀ v, v ≠ w → t.current.any (WkEntry.isWork v) = s.current.any (WkEntry.isWork v))
    (hx : x.Fits (t.works.countP (WkEntry.isWork w)) (t.delayWorks.countP (·.1 == w))
      (t.current.any (WkEntry.isWork w))) (htorn : t.torn = false) : t.Sound := by
  refine ⟨fun v => ?_, htorn⟩
  rw [hwk]
  by_cases hv : v = w
  · subst hv
    rw [Function.update_self]
    exact hx
  · rw [Function.update_of_ne hv, hworks v hv, hdelays v hv, hcur v hv]
    exact h.fits v

theorem Sound.set (h : s.Sound) (hp : x.pending = (s.wk w).pending) (hd : x.delayed = (s.wk w).delayed)
    (hr : x.running = (s.wk w).running) (hq : (s.wk w).wq = true → x.wq = true)
    (ht : x.timer = .idle ↔ (s.wk w).timer = .idle) : (s.set w x).Sound := by
  have hw := h.fits w
  apply h.change (t := s.set w x) (w := w) (x := x) rfl (fun _ _ => rfl) (fun _ _ => rfl) (fun _ _ => rfl) ?_ h.torn
  refine ⟨hp ▸ hw.pending, hd ▸ hw.delayed, hp ▸ hd ▸ hw.apart, ?_, hr ▸ hw.running, ?_⟩
  · rw [hd, hw.timer]
    exact not_congr ht.symm
  · rw [hp, hr]
    exact fun hb => hq (hw.wq hb)

theorem Sound.settle (h : s.Sound) (ks : List Nat) (f : WkFate) : (s.settle ks f).Sound := ⟨h.fits, h.torn⟩

theorem Sound.bugOn (h : s.Sound) (b : Bool) : (s.bugOn b).Sound := ⟨h.fits, h.torn⟩

theorem Sound.lock (h : s.Sound) (w : Option W) (b : Bool) : (s.lock w b).Sound := by
  cases w with
  | none => exact h
  | some w => exact h.set rfl rfl rfl id Iff.rfl

theorem Sound.insert (h : s.Sound) {l : List (WkEntry W)} (hl : l.Perm (.wait c :: s.works)) :
    ({ s with works := l } : AtbmWq W).Sound := by
  refine ⟨fun w => ?_, h.torn⟩
  show (s.wk w).Fits (l.countP _) _ _
  rw [hl.countP_eq, List.countP_cons_of_neg (by simp [WkEntry.isWork])]
  exact h.fits w

theorem insertAfter_perm (w : W) (c : Nat) (l : List (WkEntry W)) : (insertAfter w c l).Perm (.wait c :: l) := by
  induction l with
  | nil => exact .refl _
  | cons e l ih =>
    unfold insertAfter
    split
    · exact .swap _ _ _
    · exact (ih.cons e).trans (.swap _ _ _)

theorem any_eq_false_of_countP {α : Type} {p : α → Bool} {l : List α} (h : l.countP p = 0) : l.any p = false := by
  rw [List.any_eq_false]
  exact List.countP_eq_zero.mp h

theorem Sound.not_linked (h : s.Sound) (hp : (s.wk w).pending = false) (hd : (s.wk w).delayed = false) :
    s.linked w = false := by
  have hworks := (h.fits w).pending
  have hdelays := (h.fits w).delayed
  rw [hp] at hworks
  rw [hd] at hdelays
  unfold linked
  rw [any_eq_false_of_countP hworks, any_eq_false_of_countP hdelays]
  rfl

theorem Sound.queueWork (h : s.Sound) (hp : (s.wk w).pending = false)
    (hd : s.thread = true → (s.wk w).delayed = false) (k : Nat) : (s.queueWork w k).1.Sound := by
  have hw := h.fits w
  unfold AtbmWq.queueWork
  split
  case h_1 hthread =>
    have hd := hd hthread
    have hlinked := h.not_linked hp hd
    apply h.change (w := w) (x := { s.wk w with wq := true, pending := true }) rfl
    · intro v hv
      show (s.works ++ [WkEntry.work w k]).countP (WkEntry.isWork v) = _
      rw [List.countP_append, List.countP_singleton, if_neg (by simpa [WkEntry.isWork] using hv.symm)]
      rfl
    · exact fun _ _ => rfl
    · exact fun _ _ => rfl
    · refine ⟨?_, hw.delayed, fun _ => hd, hw.timer, hw.running, fun _ => rfl⟩
      show (s.works ++ [WkEntry.work w k]).countP (WkEntry.isWork w) = 1
      rw [List.countP_append, hw.pending, hp, List.countP_singleton, if_pos (by simp [WkEntry.isWork])]
      rfl
    · show (s.torn || s.linked w) = false
      rw [h.torn, hlinked]
      rfl
  case h_2 => exact h.set hp.symm rfl rfl (fun _ => rfl) Iff.rfl

theorem Sound.queueDelayedWork (h : s.Sound) (hp : (s.wk w).pending = false) (hd : (s.wk w).delayed = false) :
    (s.queueDelayedWork w).1.Sound := by
  have hw := h.fits w
  have hlinked := h.not_linked hp hd
  unfold AtbmWq.queueDelayedWork
  split
  · apply h.change (w := w) (x := { s.wk w with delayed := true, dworkWq := true, timer := .armed }) rfl
    · exact fun _ _ => rfl
    · intro v hv
      show (s.delayWorks ++ [(w, s.issued)]).countP (·.1 == v) = _
      rw [List.countP_append, List.countP_singleton, if_neg (by simpa using hv.symm)]
      rfl
    · exact fun _ _ => rfl
    · refine ⟨hw.pending, ?_, fun hpend => ?_, ⟨fun _ => nofun, fun _ => rfl⟩, hw.running, hw.wq⟩
      · show (s.delayWorks ++ [(w, s.issued)]).countP (·.1 == w) = 1
        rw [List.countP_append, hw.delayed, hd, List.countP_singleton, if_pos (by simp)]
        rfl
      · have hpend : (s.wk w).pending = true := hpend
        rw [hp] at hpend
        cases hpend
    · show (s.torn || s.linked w) = false
      rw [h.torn, hlinked]
      rfl
  · exact h.set hp.symm rfl rfl id Iff.rfl

theorem countP_filter_not {α : Type} (p q : α → Bool) (l : List α) (h : ∀ a, p a = true → q a = true) :
    (l.filter q).countP p = l.countP p := by
  rw [List.countP_filter]
  apply List.countP_congr
  intro a _
  simpa using h a

theorem Sound.clearPendingWork (h : s.Sound) : (s.clearPendingWork w).Sound := by
  have hw := h.fits w
  refine Sound.settle ?_ _ _
  apply h.change (w := w) (x := { s.wk w with pending := false }) rfl
  · intro v hv
    apply countP_filter_not
    intro e he
    cases e with
    | wait => cases he
    | work u k =>
      have hu : u = v := by simpa [WkEntry.isWork] using he
      simpa [WkEntry.isWork, hu] using hv
  · exact fun _ _ => rfl
  · exact fun _ _ => rfl
  · refine ⟨?_, hw.delayed, nofun, hw.timer, hw.running, fun hb => hw.wq (.inr (hb.resolve_left nofun))⟩
    show (s.works.filter fun e => !e.isWork w).countP (WkEntry.isWork w) = 0
    rw [List.countP_filter, List.countP_eq_zero]
    intro e _
    simp
  · exact h.torn

theorem Sound.clearDelayWork (h : s.Sound) : ((s.stopTimer w).clearDelayWork w).Sound := by
  have hw := h.fits w
  apply h.change (w := w) (x := { s.wk w with delayed := false, waiting := false, timer := .idle })
  · unfold AtbmWq.clearDelayWork stopTimer AtbmWq.set
    simp only [Function.update_self, Function.update_idem]
  · exact fun _ _ => rfl
  · intro v hv
    apply countP_filter_not
    intro p hp
    have hu : p.1 = v := by simpa using hp
    simpa [hu] using hv
  · exact fun _ _ => rfl
  · refine ⟨hw.pending, ?_, fun _ => rfl, ⟨nofun, fun hno => absurd rfl hno⟩, hw.running, hw.wq⟩
    show (s.delayWorks.filter fun p => !(p.1 == w)).countP (·.1 == w) = 0
    rw [List.countP_filter, List.countP_eq_zero]
    intro p _
    simp
  · exact h.torn

theorem Sound.take (h : s.Sound) (hcur : s.current = none) : s.take.Sound := by
  unfold AtbmWq.take
  split
  · exact h
  · next e rest hworks =>
    split
    · next w k =>
      have hw := h.fits w
      apply h.change (w := w) (x := { s.wk w with pending := false, running := true }) rfl
      · intro v hv
        show rest.countP (WkEntry.isWork v) = _
        rw [hworks, List.countP_cons_of_neg (by simpa [WkEntry.isWork] using hv.symm)]
      · exact fun _ _ => rfl
      · intro v hv
        show (w == v) = _
        rw [hcur]
        simpa using hv.symm
      · have hcount := hw.pending
        rw [hworks, List.countP_cons_of_pos (by simp [WkEntry.isWork])] at hcount
        have hle : (s.wk w).pending.toNat ≤ 1 := Bool.toNat_le _
        have hrest : rest.countP (WkEntry.isWork w) = 0 := by omega
        have hpend : (s.wk w).pending = true := Bool.toNat_eq_one.mp (by omega)
        exact ⟨hrest, hw.delayed, nofun, hw.timer, (beq_self_eq_true w).symm, fun _ => hw.wq (.inl hpend)⟩
      · exact h.torn
    · refine ⟨fun w => ?_, h.torn⟩
      have hw := h.fits w
      rw [hworks, hcur] at hw
      exact hw

theorem Sound.finish (h : s.Sound) : s.finish.Sound := by
  unfold AtbmWq.finish
  split
  · exact h
  · next w k hcur =>
    have hw := h.fits w
    refine Sound.settle ?_ _ _
    apply h.change (w := w) (x := { s.wk w with running := false }) rfl
    · exact fun _ _ => rfl
    · exact fun _ _ => rfl
    · intro v hv
      show false = _
      rw [hcur]
      symm
      simpa [WkEntry.isWork] using hv.symm
    · exact ⟨hw.pending, hw.delayed, hw.apart, hw.timer, rfl, fun hb => hw.wq (.inl (hb.resolve_right nofun))⟩
    · exact h.torn
  · next c hcur =>
    refine ⟨fun w => ?_, h.torn⟩
    have hw := h.fits w
    rw [hcur] at hw
    exact hw

omit [DecidableEq W] in
theorem count_queueCalls (s : AtbmWq W) (n : Nat) :
    s.queueCalls.count n = (s.works.filterMap WkEntry.call).count n + (s.delayWorks.map (·.2)).count n +
      (s.current.toList.filterMap WkEntry.call).count n + (s.fate.map (·.1)).count n := by
  unfold queueCalls
  simp only [List.count_append]

omit [DecidableEq W] in
theorem settle_calls (ks : List Nat) (f : WkFate) (s : AtbmWq W) :
    (s.settle ks f).queueCalls.Perm (ks ++ s.queueCalls) := by
  have hmap : ((ks.map fun k => (k, f)).map (·.1)) = ks := by
    rw [List.map_map]
    exact List.map_id ks
  rw [List.perm_iff_count]
  intro n
  rw [List.count_append, count_queueCalls, count_queueCalls]
  show _ + ((s.fate ++ ks.map fun k => (k, f)).map (·.1)).count n = _
  rw [List.map_append, hmap, List.count_append]
  show (s.works.filterMap WkEntry.call).count n + (s.delayWorks.map (·.2)).count n +
    (s.current.toList.filterMap WkEntry.call).count n + _ = _
  omega

theorem queueWork_calls (h : s.thread = true) (w : W) (k : Nat) :
    (s.queueWork w k).1.queueCalls.Perm (k :: s.queueCalls) := by
  rw [List.perm_iff_count]
  intro n
  rw [List.count_cons, count_queueCalls, count_queueCalls]
  unfold AtbmWq.queueWork
  rw [h]
  show ((s.works ++ [WkEntry.work w k]).filterMap WkEntry.call).count n + (s.delayWorks.map (·.2)).count n +
    (s.current.toList.filterMap WkEntry.call).count n + (s.fate.map (·.1)).count n = _
  rw [List.filterMap_append, List.count_append]
  show _ + [k].count n + _ + _ + _ = _
  rw [List.count_singleton]
  omega

theorem queueDelayedWork_calls (h : s.thread = true) (w : W) :
    (s.queueDelayedWork w).1.queueCalls.Perm (s.issued :: s.queueCalls) := by
  rw [List.perm_iff_count]
  intro n
  rw [List.count_cons, count_queueCalls, count_queueCalls]
  unfold AtbmWq.queueDelayedWork
  rw [h]
  show _ + ((s.delayWorks ++ [(w, s.issued)]).map (·.2)).count n + (s.current.toList.filterMap WkEntry.call).count n +
    (s.fate.map (·.1)).count n = _
  rw [List.map_append, List.count_append]
  show (s.works.filterMap WkEntry.call).count n + (_ + [s.issued].count n) + _ + _ = _
  rw [List.count_singleton]
  omega

theorem clearPendingWork_calls (w : W) (s : AtbmWq W) : (s.clearPendingWork w).queueCalls.Perm s.queueCalls := by
  refine (settle_calls _ _ _).trans ?_
  have hsplit := (List.filter_append_perm (WkEntry.isWork w) s.works).filterMap WkEntry.call
  rw [List.filterMap_append] at hsplit
  rw [List.perm_iff_count]
  intro n
  have hn := hsplit.count_eq n
  rw [List.count_append] at hn
  rw [List.count_append, count_queueCalls, count_queueCalls]
  show (s.pendingCalls w).count n + (((s.works.filter fun e => !e.isWork w).filterMap WkEntry.call).count n +
    (s.delayWorks.map (·.2)).count n + (s.current.toList.filterMap WkEntry.call).count n +
      (s.fate.map (·.1)).count n) = _
  unfold pendingCalls
  omega

theorem Sound.delayedCalls_eq (h : s.Sound) (hd : (s.wk w).delayed = true) : s.delayedCalls w = [s.delayCall w] := by
  have hcount := (h.fits w).delayed
  rw [hd] at hcount
  unfold delayedCalls delayCall
  revert hcount
  induction s.delayWorks with
  | nil => nofun
  | cons p l ih =>
    intro hcount
    by_cases hp : p.1 = w
    · have hl : l.countP (·.1 == w) = 0 := by
        rw [List.countP_cons_of_pos (by simpa using hp)] at hcount
        exact Nat.succ_injective hcount
      have hnone : l.filter (·.1 == w) = [] := by
        rw [List.filter_eq_nil_iff]
        exact List.countP_eq_zero.mp hl
      have hw : (w == p.1) = true := by simpa using hp.symm
      rw [List.filter_cons_of_pos (by simpa using hp), hnone, List.lookup_cons, hw]
      rfl
    · rw [List.countP_cons_of_neg (by simpa using hp)] at hcount
      have hw : (w == p.1) = false := by simpa using fun he : w = p.1 => hp he.symm
      rw [List.filter_cons_of_neg (by simpa using hp), ih hcount, List.lookup_cons, hw]

theorem clearDelayWork_calls (h : s.Sound) (hd : (s.wk w).delayed = true) :
    s.queueCalls.Perm (s.delayCall w :: ((s.stopTimer w).clearDelayWork w).queueCalls) := by
  have hsplit := (List.filter_append_perm (fun p : W × Nat => p.1 == w) s.delayWorks).map (·.2)
  rw [List.map_append] at hsplit
  have hone := h.delayedCalls_eq hd
  unfold delayedCalls at hone
  rw [hone] at hsplit
  rw [List.perm_iff_count]
  intro n
  have hn := hsplit.count_eq n
  rw [List.count_append, List.count_singleton] at hn
  rw [List.count_cons, count_queueCalls, count_queueCalls]
  show _ = (s.works.filterMap WkEntry.call).count n +
    ((s.delayWorks.filter fun p => !(p.1 == w)).map (·.2)).count n +
      (s.current.toList.filterMap WkEntry.call).count n + (s.fate.map (·.1)).count n + _
  omega

theorem take_calls (s : AtbmWq W) (hcur : s.current = none) : s.take.queueCalls.Perm s.queueCalls := by
  unfold AtbmWq.take
  split
  · exact .refl _
  · next e rest hworks =>
    rw [List.perm_iff_count]
    intro n
    have htake : ∀ t : AtbmWq W, t.works = rest → t.delayWorks = s.delayWorks → t.current = some e →
        t.fate = s.fate → t.queueCalls.count n = s.queueCalls.count n := by
      intro t hw hd hc hf
      have hcons : ((e :: rest).filterMap WkEntry.call).count n =
          ([e].filterMap WkEntry.call).count n + (rest.filterMap WkEntry.call).count n := by
        rw [← List.count_append, ← List.filterMap_append]
        rfl
      rw [count_queueCalls, count_queueCalls, hw, hd, hc, hf, hworks, hcur, hcons]
      simp only [Option.toList_some, Option.toList_none, List.filterMap_nil, List.count_nil]
      omega
    split
    · exact htake _ rfl rfl rfl rfl
    · exact htake _ rfl rfl rfl rfl

theorem finish_calls (s : AtbmWq W) : s.finish.queueCalls.Perm s.queueCalls := by
  unfold AtbmWq.finish
  split
  · exact .refl _
  · next w k hcur =>
    refine (settle_calls _ _ _).trans ?_
    rw [List.perm_iff_count]
    intro n
    rw [List.count_append, count_queueCalls, count_queueCalls, hcur]
    show [k].count n + ((s.works.filterMap WkEntry.call).count n + (s.delayWorks.map (·.2)).count n + 0 +
      (s.fate.map (·.1)).count n) = _ + _ + [k].count n + _
    omega
  · next c hcur =>
    rw [List.perm_iff_count]
    intro n
    rw [count_queueCalls, count_queueCalls, hcur]
    rfl

omit [DecidableEq W] in
theorem insert_calls {l : List (WkEntry W)} (hl : l.Perm (.wait c :: s.works)) :
    ({ s with works := l } : AtbmWq W).queueCalls.Perm s.queueCalls := by
  rw [List.perm_iff_count]
  intro n
  rw [count_queueCalls, count_queueCalls]
  have := (hl.filterMap WkEntry.call).count_eq n
  show (l.filterMap WkEntry.call).count n + _ + _ + _ = _
  rw [this]
  rfl

theorem Sound.withCalls (h : s.Sound) (calls : List (WkCall W)) : ({ s with calls := calls } : AtbmWq W).Sound :=
  ⟨h.fits, h.torn⟩

theorem Sound.bugOn_keeps (h : s.Sound) (b : Bool) : Keeps [] s (s.bugOn b) :=
  ⟨.grow (h.bugOn b) rfl rfl (.refl _) rfl (List.Subset.refl _) (fun _ _ _ hk => .inl hk) fun _ => rfl, .refl _, rfl, id⟩

theorem Timed.update (h : s.Timed v k) (hmem : (v, k) ∈ t.delayWorks) (hwk : t.wk = Function.update s.wk w x)
    (hfire : (s.wk w).timer = .firing → x.timer = .firing) (hwait : (s.wk w).waiting = true → x.waiting = true) :
    t.Timed v k := by
  obtain ⟨-, hfiring, hwaiting⟩ := h
  refine ⟨hmem, ?_, ?_⟩
  · rw [hwk]
    by_cases hv : v = w
    · subst hv
      rw [Function.update_self]
      exact hfire hfiring
    · rw [Function.update_of_ne hv]
      exact hfiring
  · rw [hwk]
    by_cases hv : v = w
    · subst hv
      rw [Function.update_self]
      exact hwait hwaiting
    · rw [Function.update_of_ne hv]
      exact hwaiting

theorem Sound.set_keeps (h : s.Sound) (hp : x.pending = (s.wk w).pending) (hd : x.delayed = (s.wk w).delayed)
    (hr : x.running = (s.wk w).running) (hq : (s.wk w).wq = true → x.wq = true)
    (ht : x.timer = .idle ↔ (s.wk w).timer = .idle) (hfire : (s.wk w).timer = .firing → x.timer = .firing)
    (hwait : (s.wk w).waiting = true → x.waiting = true) : Keeps [] s (s.set w x) := by
  refine ⟨.grow (h.set hp hd hr hq ht) rfl rfl (.refl _) rfl (List.Subset.refl _) ?_ fun _ => rfl, .refl _, rfl, id⟩
  rintro v k - hk
  exact .inl (hk.update hk.1 rfl hfire hwait)

theorem Sound.lock_keeps (h : s.Sound) (w : Option W) (b : Bool) : Keeps [] s (s.lock w b) := by
  cases w with
  | none => exact .refl h
  | some w => exact h.set_keeps rfl rfl rfl id Iff.rfl id id

theorem Sound.waiting_keeps (h : s.Sound) (w : W) : Keeps [] s (s.set w { s.wk w with waiting := true }) :=
  h.set_keeps rfl rfl rfl id Iff.rfl id fun _ => rfl

theorem Sound.insert_keeps (h : s.Sound) {l : List (WkEntry W)} (hl : l.Perm (.wait c :: s.works))
    (hsub : s.works.Sublist l) : Keeps [c] s { s with works := l } := by
  refine ⟨.grow (h.insert hl) rfl rfl hsub rfl (List.Subset.refl _) (fun _ _ _ hk => .inl hk) ?_, insert_calls hl, rfl, id⟩
  intro d
  show l.count (.wait d) = _
  rw [hl.count_eq, List.count_cons, List.count_singleton]
  congr 1
  by_cases hd : c = d
  · rw [if_pos (by simpa using hd), if_pos (by simpa using hd)]
  · rw [if_neg (by simpa using hd), if_neg (by simpa using hd)]

theorem insertAfter_sublist (w : W) (c : Nat) (l : List (WkEntry W)) : l.Sublist (insertAfter w c l) := by
  induction l with
  | nil => exact List.nil_sublist _
  | cons e l ih =>
    unfold insertAfter
    split
    · exact (List.sublist_cons_self _ _).cons_cons e
    · exact ih.cons_cons e

theorem Sound.clearPendingWork_keeps (h : s.Sound) (w : W) : Keeps [] s (s.clearPendingWork w) := by
  have hkeep : ∀ {v : W} {k : Nat}, .work v k ∈ s.works → ¬ v = w → (s.clearPendingWork w).Queued v k := by
    intro v k hk hv
    exact .inl (List.mem_filter.mpr ⟨hk, by simpa [WkEntry.isWork] using hv⟩)
  have hcancel : ∀ {k : Nat}, .work w k ∈ s.works → (s.clearPendingWork w).Settled k := by
    intro k hk
    refine .inr (List.mem_append_right _ (List.mem_map.mpr ⟨k, ?_, rfl⟩))
    exact List.mem_filterMap.mpr ⟨_, List.mem_filter.mpr ⟨hk, by simp [WkEntry.isWork]⟩, rfl⟩
  refine ⟨⟨h.clearPendingWork, rfl, id, ?_, ?_, ?_, ?_, ?_⟩, clearPendingWork_calls w s, rfl, ?_⟩
  · rintro k (hk | hk)
    · exact .inl (List.mem_append_left _ hk)
    · exact .inr (List.mem_append_left _ hk)
  · rintro v k (hk | hk)
    · by_cases hv : v = w
      · subst hv
        exact .inr (hcancel hk)
      · exact .inl (hkeep hk hv)
    · exact .inl (.inr hk)
  · rintro v k c (hk | ⟨hk, hc⟩)
    · by_cases hv : v = w
      · subst hv
        exact .inr (hcancel (hk.subset List.mem_cons_self))
      · have hfilter := hk.filter fun e => !e.isWork w
        have hsame : [WkEntry.work v k, .wait c].filter (fun e => !e.isWork w) = [.work v k, .wait c] := by
          simp [WkEntry.isWork, hv]
        rw [hsame] at hfilter
        exact .inl (.inl hfilter)
    · exact .inl (.inr ⟨hk, List.mem_filter.mpr ⟨hc, rfl⟩⟩)
  · rintro v k - hk
    exact .inl (hk.update hk.1 rfl id id)
  · intro c
    unfold waits
    show ((s.works.filter fun e => !e.isWork w) ++ s.current.toList).count (.wait c) = _
    rw [List.count_append, List.count_append, List.count_filter rfl]
    rfl
  · intro hs p hp
    rcases List.mem_append.mp hp with hp | hp
    · exact hs p hp
    · obtain ⟨k, -, rfl⟩ := List.mem_map.mp hp
      exact ⟨nofun, nofun⟩

theorem Sound.take_keeps (h : s.Sound) (hcur : s.current = none) : Keeps [] s s.take := by
  cases hworks : s.works with
  | nil =>
    unfold AtbmWq.take
    rw [hworks]
    exact .refl h
  | cons e rest =>
    have hfields : s.take.works = rest ∧ s.take.current = some e ∧ s.take.fate = s.fate ∧ s.take.issued = s.issued ∧
        s.take.thread = s.thread ∧ s.take.calls = s.calls ∧ ∀ v k, s.Timed v k → s.take.Timed v k := by
      unfold AtbmWq.take
      rw [hworks]
      cases e with
      | work w k => exact ⟨rfl, rfl, rfl, rfl, rfl, rfl, fun v k hk => hk.update hk.1 rfl id id⟩
      | wait c => exact ⟨rfl, rfl, rfl, rfl, rfl, rfl, fun v k hk => hk⟩
    obtain ⟨hw, hc, hf, hi, hth, hsame, htimed⟩ := hfields
    refine ⟨⟨h.take hcur, hsame, fun ht => hth ▸ ht, ?_, ?_, ?_, fun v k _ hk => .inl (htimed v k hk), ?_⟩,
      take_calls s hcur, hi, ?_⟩
    · intro k hk
      unfold Settled
      rw [hf]
      exact hk
    · rintro v k (hk | hk)
      · rw [hworks] at hk
        rcases List.mem_cons.mp hk with rfl | hk
        · exact .inl (.inr hc)
        · exact .inl (.inl (hw ▸ hk))
      · rw [hcur] at hk
        cases hk
    · rintro v k c (hk | ⟨hk, -⟩)
      · rw [hworks] at hk
        rcases List.sublist_cons_iff.mp hk with hk | ⟨l, hl, hk⟩
        · exact .inl (.inl (hw ▸ hk))
        · obtain ⟨rfl, rfl⟩ := List.cons.inj hl
          exact .inl (.inr ⟨hc, hw ▸ hk.subset List.mem_cons_self⟩)
      · rw [hcur] at hk
        cases hk
    · intro c
      unfold waits
      rw [hw, hc, hworks, hcur]
      show (rest ++ [e]).count _ = ((e :: rest) ++ []).count _ + 0
      rw [List.append_nil]
      exact (List.perm_append_singleton e rest).count_eq _
    · unfold Kept
      rw [hf, hth]
      exact id

theorem Sound.finish_keeps (h : s.Sound) (hcur : s.current = some (.work w k)) : Keeps [] s s.finish := by
  have hsound := h.finish
  have hcalls := finish_calls s
  unfold AtbmWq.finish at hsound hcalls ⊢
  rw [hcur] at hsound hcalls ⊢
  have hrun : ∀ {v : W} {j : Nat}, s.current = some (.work v j) → (j, WkFate.run) ∈ s.fate ++ [k].map fun k => (k, .run) := by
    intro v j hj
    rw [hcur] at hj
    cases hj
    exact List.mem_append_right _ List.mem_cons_self
  refine ⟨⟨hsound, rfl, id, ?_, ?_, ?_, ?_, ?_⟩, hcalls, rfl, ?_⟩
  · rintro j (hj | hj)
    · exact .inl (List.mem_append_left _ hj)
    · exact .inr (List.mem_append_left _ hj)
  · rintro v j (hj | hj)
    · exact .inl (.inl hj)
    · exact .inr (.inl (hrun hj))
  · rintro v j c (hj | ⟨hj, -⟩)
    · exact .inl (.inl hj)
    · exact .inr (.inl (hrun hj))
  · rintro v j - hj
    exact .inl (hj.update hj.1 rfl id id)
  · intro c
    unfold waits
    show (s.works ++ []).count _ = _
    rw [hcur, List.count_append, List.count_append]
    rfl
  · intro hs p hp
    rcases List.mem_append.mp hp with hp | hp
    · exact hs p hp
    · obtain ⟨j, -, rfl⟩ := List.mem_map.mp hp
      exact ⟨nofun, nofun⟩

theorem queueWork_refused (h : s.thread = false) (w : W) (k : Nat) :
    (s.queueWork w k).1.queueCalls = s.queueCalls ∧ (s.queueWork w k).1.thread = false := by
  unfold AtbmWq.queueWork
  rw [h]
  exact ⟨rfl, h⟩

theorem clearDelayWork_wk (w : W) (s : AtbmWq W) :
    ((s.stopTimer w).clearDelayWork w).wk w = { s.wk w with delayed := false, waiting := false, timer := .idle } := by
  unfold AtbmWq.clearDelayWork stopTimer AtbmWq.set
  simp only [Function.update_self]

theorem Sound.delayed_of_timer (h : s.Sound) (ht : (s.wk w).timer ≠ .idle) :
    (s.wk w).delayed = true ∧ (s.wk w).pending = false := by
  have hd := (h.fits w).timer.mpr ht
  refine ⟨hd, ?_⟩
  by_contra hp
  have := (h.fits w).apart (by simpa using hp)
  rw [hd] at this
  cases this

theorem Sound.eq_delayCall (h : s.Sound) (hd : (s.wk w).delayed = true) (hk : (w, k) ∈ s.delayWorks) :
    k = s.delayCall w := by
  have hmem : k ∈ s.delayedCalls w :=
    List.mem_map.mpr ⟨(w, k), List.mem_filter.mpr ⟨hk, by simp⟩, rfl⟩
  rw [h.delayedCalls_eq hd] at hmem
  exact List.mem_singleton.mp hmem

theorem Timed.clearDelay (h : s.Timed v k) (hv : ¬v = w) (hmem : ∀ p ∈ (s.clearDelayWork w).delayWorks, p ∈ t.delayWorks)
    (hwk : ∀ v, ¬v = w → t.wk v = s.wk v) : t.Timed v k := by
  obtain ⟨hk, hfiring, hwaiting⟩ := h
  refine ⟨hmem _ (List.mem_filter.mpr ⟨hk, by simpa using hv⟩), ?_, ?_⟩
  · rw [hwk v hv]
    exact hfiring
  · rw [hwk v hv]
    exact hwaiting

theorem clearDelayWork_wk_ne (hv : ¬v = w) (s : AtbmWq W) : ((s.stopTimer w).clearDelayWork w).wk v = s.wk v := by
  unfold AtbmWq.clearDelayWork stopTimer AtbmWq.set
  simp only [Function.update_idem]
  exact Function.update_of_ne hv _ _

theorem Sound.cancelDelay_keeps (h : s.Sound) (hd : (s.wk w).delayed = true) :
    Keeps [] s (((s.stopTimer w).clearDelayWork w).settle [s.delayCall w] .cancelled) := by
  refine ⟨.grow (h.clearDelayWork.settle _ _) rfl rfl (.refl _) rfl (List.subset_append_left _ _) ?_ fun _ => rfl,
    (settle_calls _ _ _).trans (clearDelayWork_calls h hd).symm, rfl, ?_⟩
  · rintro v k - hk
    by_cases hv : v = w
    · subst hv
      rw [h.eq_delayCall hd hk.1]
      exact .inr (.inr (.inr (List.mem_append_right _ List.mem_cons_self)))
    · exact .inl (hk.clearDelay hv (fun _ hp => hp) fun v hv => clearDelayWork_wk_ne hv s)
  · intro hs p hp
    rcases List.mem_append.mp hp with hp | hp
    · exact hs p hp
    · rw [List.mem_singleton.mp hp]
      exact ⟨nofun, nofun⟩

theorem Sound.promote_keeps (h : s.Sound) (hd : (s.wk w).delayed = true) : Keeps [] s (s.promote w).1 := by
  have hp := (h.delayed_of_timer ((h.fits w).timer.mp hd)).2
  have hclear := h.clearDelayWork (w := w)
  have hwk := clearDelayWork_wk w s
  have hcalls := clearDelayWork_calls h hd
  have hqueue : (((s.stopTimer w).clearDelayWork w).queueWork w (s.delayCall w)).1.Sound := by
    apply hclear.queueWork
    · rw [hwk]
      exact hp
    · intro _
      rw [hwk]
  unfold promote
  rw [if_neg (by simp [hp])]
  cases hthread : s.thread with
  | true =>
    have hth : ((s.stopTimer w).clearDelayWork w).thread = true := hthread
    have hmove := queueWork_calls hth w (s.delayCall w)
    unfold AtbmWq.queueWork at hqueue hmove ⊢
    rw [hth] at hqueue hmove ⊢
    refine ⟨.grow hqueue rfl (hth.trans hthread.symm) (List.sublist_append_left _ _) rfl (List.Subset.refl _) ?_ ?_,
      hmove.trans hcalls.symm, rfl, id⟩
    · rintro v k - hk
      by_cases hv : v = w
      · subst hv
        rw [h.eq_delayCall hd hk.1]
        exact .inr (.inl (.inl (List.mem_append_right _ List.mem_cons_self)))
      · refine .inl (hk.clearDelay hv (fun _ hp => hp) fun v hv => ?_)
        show Function.update ((s.stopTimer w).clearDelayWork w).wk w _ v = _
        rw [Function.update_of_ne hv]
        exact clearDelayWork_wk_ne hv s
    · intro c
      show (s.works ++ [WkEntry.work w (s.delayCall w)]).count (.wait c) = _
      rw [List.count_append]
      rfl
  | false =>
    have hth : ((s.stopTimer w).clearDelayWork w).thread = false := hthread
    have hrefused := (queueWork_refused hth w (s.delayCall w)).1
    unfold AtbmWq.queueWork at hqueue hrefused ⊢
    rw [hth] at hqueue hrefused ⊢
    refine ⟨.grow (hqueue.settle _ _) rfl (hth.trans hthread.symm) (.refl _) rfl (List.subset_append_left _ _) ?_
      fun _ => rfl, (settle_calls _ _ _).trans ?_, rfl, ?_⟩
    · rintro v k hno
      have hno : s.thread = true := hno
      rw [hthread] at hno
      cases hno
    · rw [hrefused]
      exact hcalls.symm
    · intro hs p hp
      rcases List.mem_append.mp hp with hp | hp
      · exact hs p hp
      · rw [List.mem_singleton.mp hp]
        exact ⟨nofun, fun _ => hthread⟩

theorem Sound.timerFn_keeps (h : s.Sound) (w : W) : Keeps [] s (s.atbmDelayedWorkTimerFn w) := by
  unfold atbmDelayedWorkTimerFn
  split
  · next hd => exact h.promote_keeps hd
  · next hd =>
    have hidle : (s.wk w).timer = .idle := by
      by_contra ht
      exact hd (h.delayed_of_timer ht).1
    exact h.set_keeps rfl rfl rfl id (iff_of_true rfl hidle) (fun hfire => by rw [hidle] at hfire; cases hfire) id

end AtbmWq

/-- The barrier works that a call has added when it leaves the queue in this phase. -/
def WkPhase.adds (c : Nat) : WkPhase → List Nat
  | barrier => [c]
  | locked | waitTimer | cleared | returned => []

namespace AtbmWq

variable {W : Type} [DecidableEq W] {s t : AtbmWq W} {w : W} {c : Nat}

theorem Sound.waitwkInsert_keeps (h : s.Sound) {l : List (WkEntry W)} (hl : l.Perm (.wait c :: s.works))
    (hsub : s.works.Sublist l) (yes no : Bool) :
    Keeps ((s.atbmWaitwkInsert l yes no).2.1.adds c) s (s.atbmWaitwkInsert l yes no).1 := by
  unfold atbmWaitwkInsert
  split
  · exact h.insert_keeps hl hsub
  · exact .refl h

theorem Sound.append_keeps (h : s.Sound) (c : Nat) (yes no : Bool) :
    Keeps ((s.atbmWaitwkInsert (s.works ++ [.wait c]) yes no).2.1.adds c) s
      (s.atbmWaitwkInsert (s.works ++ [.wait c]) yes no).1 :=
  h.waitwkInsert_keeps (List.perm_append_singleton _ _) (List.sublist_append_left _ _) yes no

theorem Sound.cons_keeps (h : s.Sound) (c : Nat) (yes no : Bool) :
    Keeps ((s.atbmWaitwkInsert (.wait c :: s.works) yes no).2.1.adds c) s
      (s.atbmWaitwkInsert (.wait c :: s.works) yes no).1 :=
  h.waitwkInsert_keeps (.refl _) (List.sublist_cons_self _ _) yes no

theorem Sound.insertAfter_keeps (h : s.Sound) (w : W) (c : Nat) (yes no : Bool) :
    Keeps ((s.atbmWaitwkInsert (insertAfter w c s.works) yes no).2.1.adds c) s
      (s.atbmWaitwkInsert (insertAfter w c s.works) yes no).1 :=
  h.waitwkInsert_keeps (insertAfter_perm w c _) (insertAfter_sublist w c _) yes no

theorem Sound.cancelPending_keeps (h : s.Sound) (w : W) (c : Nat) (ret : Bool) :
    Keeps ((s.cancelPending w c ret).2.1.adds c) s (s.cancelPending w c ret).1 := by
  have hrest : ∀ (t : AtbmWq W) (r : Bool), Keeps [] s t →
      let u := if (t.wk w).busy = false then (t, WkPhase.returned, r)
        else if (t.wk w).running = true then t.atbmWaitwkInsert (.wait c :: t.works) false r
        else (t.bugOn true, .locked, r)
      Keeps (u.2.1.adds c) s u.1 := by
    intro t r ht
    dsimp only
    split
    · exact ht
    · split
      · exact ht.trans (ht.sound.cons_keeps c _ _)
      · exact ht.trans (ht.sound.bugOn_keeps true)
  unfold AtbmWq.cancelPending
  by_cases hp : (s.wk w).pending = true
  · rw [if_pos hp]
    exact hrest _ true (h.clearPendingWork_keeps w)
  · rw [if_neg hp]
    exact hrest _ ret (.refl h)

theorem Sound.enter_keeps (h : s.Sound) (op : WkOp W) (c : Nat) :
    Keeps ((s.enter op c).2.1.adds c) s (s.enter op c).1 := by
  cases op with
  | flushWork w =>
    show Keeps ((s.ieee80211AtbmFlushWork w c).2.1.adds c) s (s.ieee80211AtbmFlushWork w c).1
    unfold ieee80211AtbmFlushWork
    dsimp only
    split
    · exact .refl h
    · split
      · exact .refl h
      · split
        · exact h.append_keeps c _ _
        · split
          · exact h.insertAfter_keeps w c _ _
          · exact h.bugOn_keeps true
  | cancelWorkSync w =>
    show Keeps ((s.ieee80211AtbmCancelWorkSync w c).2.1.adds c) s (s.ieee80211AtbmCancelWorkSync w c).1
    unfold ieee80211AtbmCancelWorkSync
    split
    · exact .refl h
    · exact h.cancelPending_keeps w c false
  | flushDelayedWork w =>
    show Keeps ((s.flushDelayedTimer w).2.1.adds c) s (s.flushDelayedTimer w).1
    unfold flushDelayedTimer
    split
    · next ht =>
      have hd := (h.delayed_of_timer (w := w) (by rw [ht]; nofun)).1
      have hkeeps := (h.bugOn_keeps _).trans ((h.bugOn !(s.wk w).dworkWq).promote_keeps (w := w) hd)
      split
      · next t heq =>
        rw [heq] at hkeeps
        exact hkeeps
      · next t heq =>
        rw [heq] at hkeeps
        exact hkeeps
    · split
      · exact h.waiting_keeps w
      · exact .refl h
    · split
      · exact h.waiting_keeps w
      · exact .refl h
  | cancelDelayedWorkSync w =>
    show Keeps ((s.cancelDelayedTimer w).2.1.adds c) s (s.cancelDelayedTimer w).1
    unfold cancelDelayedTimer
    split
    · next ht =>
      have hd := (h.delayed_of_timer (w := w) (by rw [ht]; nofun)).1
      exact (h.bugOn_keeps _).trans ((h.bugOn !(s.wk w).dworkWq).cancelDelay_keeps (w := w) hd)
    · split
      · exact h.waiting_keeps w
      · exact .refl h
    · split
      · exact h.waiting_keeps w
      · exact .refl h
  | flushWorkqueue => exact h.append_keeps c _ _
  | destroyWorkqueue =>
    refine ⟨⟨⟨h.fits, h.torn⟩, rfl, nofun, fun _ => id, fun _ _ => .inl, fun _ _ _ => .inl, fun _ _ _ hk => .inl hk,
      fun _ => rfl⟩, .refl _, rfl, ?_⟩
    exact fun hs p hp => ⟨(hs p hp).1, fun _ => rfl⟩

theorem Sound.resume_keeps (h : s.Sound) (op : WkOp W) (c : Nat) (ret : Bool) :
    Keeps ((s.resume op c ret).2.1.adds c) s (s.resume op c ret).1 := by
  cases op with
  | flushDelayedWork w =>
    show Keeps ((s.flushDelayedPending w c ret).2.1.adds c) s (s.flushDelayedPending w c ret).1
    unfold flushDelayedPending
    dsimp only
    split
    · exact .refl h
    · split
      · exact .refl h
      · split
        · exact h.insertAfter_keeps w c _ _
        · split
          · exact h.cons_keeps c _ _
          · exact h.bugOn_keeps true
  | cancelDelayedWorkSync w =>
    show Keeps ((s.cancelDelayedPending w c ret).2.1.adds c) s (s.cancelDelayedPending w c ret).1
    unfold cancelDelayedPending
    split
    · exact .refl h
    · exact h.cancelPending_keeps w c ret
  | destroyWorkqueue => exact h.insert_keeps (List.perm_append_singleton _ _) (List.sublist_append_left _ _)
  | flushWork w => exact .refl h
  | cancelWorkSync w => exact .refl h
  | flushWorkqueue => exact .refl h

theorem Sound.cancelDelayedWork_keeps (h : s.Sound) (w : W) :
    Keeps [] s (s.ieee80211AtbmCancelDelayedWork w).1 := by
  have hfirst : ∀ (t : AtbmWq W) (r : Bool), Keeps [] s t → Keeps [] s
      (if (t.wk w).dworkWq = false then (t, r)
        else
          let p := if (t.wk w).pending = true then (t.clearPendingWork w, true) else (t, r)
          (p.1, if (p.1.wk w).busy = true then false else p.2)).1 := by
    intro t r ht
    split
    · exact ht
    · by_cases hp : (t.wk w).pending = true
      · rw [if_pos hp]
        exact ht.trans (ht.sound.clearPendingWork_keeps w)
      · rw [if_neg hp]
        exact ht
  unfold ieee80211AtbmCancelDelayedWork
  cases ht : (s.wk w).timer with
  | armed =>
    have hd := (h.delayed_of_timer (w := w) (by simp [ht])).1
    exact hfirst _ _ ((h.bugOn_keeps _).trans ((h.bugOn !(s.wk w).dworkWq).cancelDelay_keeps (w := w) hd))
  | idle => exact hfirst _ _ (.refl h)
  | firing => exact hfirst _ _ (.refl h)

theorem Sound.expire_keeps (h : s.Sound) (ht : (s.wk w).timer = .armed) :
    Keeps [] s (s.set w { s.wk w with timer := .firing }) :=
  h.set_keeps rfl rfl rfl id (by simp [ht]) (fun _ => rfl) id

theorem Sound.call_keeps (h : s.Sound) (op : WkOp W) (c : Nat) :
    Keeps ((s.enter op c).2.1.adds c) s ((s.enter op c).1.lock op.work ((s.enter op c).2.1 == .locked)) := by
  have henter := h.enter_keeps op c
  have := henter.trans (henter.sound.lock_keeps op.work ((s.enter op c).2.1 == .locked))
  rw [List.append_nil] at this
  exact this

theorem Sound.second_keeps (h : s.Sound) (op : WkOp W) (c : Nat) (ret : Bool) :
    Keeps ((s.resume op c ret).2.1.adds c) s ((s.resume op c ret).1.lock op.work false) := by
  have hresume := h.resume_keeps op c ret
  have := hresume.trans (hresume.sound.lock_keeps op.work false)
  rw [List.append_nil] at this
  exact this

theorem Sound.start : (atbmWqStart W).Sound :=
  ⟨fun _ => ⟨rfl, rfl, nofun, iff_of_false nofun fun hno => hno rfl, rfl, nofun⟩, rfl⟩

/-- The entry of the work is not linked while it is on `delay_works`. -/
def MayLink (w : W) (s : AtbmWq W) : Prop :=
  (s.wk w).pending = true ∨ (s.wk w).delayed = false ∨ s.thread = false

instance decMayLink (w : W) (s : AtbmWq W) : Decidable (s.MayLink w) :=
  inferInstanceAs (Decidable (_ ∨ _ ∨ _))

theorem Follows.issue (h : Follows [] s t) (n : Nat) : Follows [] s { t with issued := n } :=
  ⟨⟨h.sound.fits, h.sound.torn⟩, h.same, h.thread, h.settled, h.queued, h.before, h.timed, h.waits⟩

omit [DecidableEq W] in
theorem MayLink.delayed (h : s.MayLink w) (hp : (s.wk w).pending = false) (ht : s.thread = true) :
    (s.wk w).delayed = false := by
  rcases h with h | h | h
  · rw [hp] at h
    cases h
  · exact h
  · rw [ht] at h
    cases h

theorem Sound.link_follows (h : s.Sound) (hp : (s.wk w).pending = false) (hC : s.MayLink w) (k : Nat) :
    Follows [] s (s.queueWork w k).1 := by
  have hqueue := h.queueWork hp (hC.delayed hp) k
  unfold AtbmWq.queueWork at hqueue ⊢
  split at hqueue
  · refine .grow hqueue rfl rfl (List.sublist_append_left _ _) rfl (List.Subset.refl _) ?_ ?_
    · rintro v j - hj
      exact .inl (hj.update hj.1 rfl id id)
    · intro c
      show (s.works ++ [WkEntry.work w k]).count (.wait c) = _
      rw [List.count_append]
      rfl
  · refine .grow hqueue rfl rfl (.refl _) rfl (List.Subset.refl _) ?_ fun _ => rfl
    rintro v j - hj
    exact .inl (hj.update hj.1 rfl id id)

theorem Sound.queueWork_follows (h : s.Sound) (hC : s.MayLink w) : Follows [] s (s.ieee80211AtbmQueueWork w).1 := by
  unfold ieee80211AtbmQueueWork
  split
  · exact (Keeps.refl h).toFollows
  · next hp =>
    have hlink := h.link_follows (by simpa using hp) hC s.issued
    split
    · next t heq =>
      rw [heq] at hlink
      exact hlink.issue _
    · next t heq =>
      rw [heq] at hlink
      exact hlink

theorem Sound.arm_follows (h : s.Sound) (hp : (s.wk w).pending = false) (hd : (s.wk w).delayed = false) :
    Follows [] s (s.queueDelayedWork w).1 := by
  have harm := h.queueDelayedWork hp hd
  unfold AtbmWq.queueDelayedWork at harm ⊢
  split at harm
  · refine .grow harm rfl rfl (.refl _) rfl (List.Subset.refl _) ?_ fun _ => rfl
    rintro v j - hj
    by_cases hv : v = w
    · subst hv
      have := (h.delayed_of_timer (w := v) (by rw [hj.2.1]; nofun)).1
      rw [hd] at this
      cases this
    · refine .inl ⟨List.mem_append_left _ hj.1, ?_, ?_⟩
      · show (Function.update s.wk w _ v).timer = .firing
        rw [Function.update_of_ne hv]
        exact hj.2.1
      · show (Function.update s.wk w _ v).waiting = true
        rw [Function.update_of_ne hv]
        exact hj.2.2
  · refine .grow harm rfl rfl (.refl _) rfl (List.Subset.refl _) ?_ fun _ => rfl
    rintro v j - hj
    exact .inl (hj.update hj.1 rfl id id)

theorem Sound.disarm_follows (h : s.Sound) (ht : (s.wk w).timer = .armed) (f : WkFate) :
    Follows [] s (((s.stopTimer w).clearDelayWork w).settle [s.delayCall w] f) := by
  refine .grow (h.clearDelayWork.settle _ _) rfl rfl (.refl _) rfl (List.subset_append_left _ _) ?_ fun _ => rfl
  rintro v j - hj
  by_cases hv : v = w
  · subst hv
    have := hj.2.1
    rw [ht] at this
    cases this
  · exact .inl (hj.clearDelay hv (fun _ hp => hp) fun v hv => clearDelayWork_wk_ne hv s)

theorem Sound.queueDelayed_follows (h : s.Sound) {delay : Nat} (hC : delay = 0 → s.MayLink w) :
    Follows [] s (s.ieee80211AtbmQueueDelayedWork w delay).1 := by
  unfold ieee80211AtbmQueueDelayedWork
  split
  · exact (Keeps.refl h).toFollows
  · next hp =>
    have hp : (s.wk w).pending = false := by simpa using hp
    split
    · next hdelay => exact h.queueWork_follows (hC hdelay)
    · split
      · cases ht : (s.wk w).timer with
        | armed =>
          have hdisarm := h.disarm_follows ht (if s.thread = true then .lost else .destroyed)
          have hwk := clearDelayWork_wk w s
          refine hdisarm.trans (hdisarm.sound.arm_follows ?_ ?_)
          · show (((s.stopTimer w).clearDelayWork w).wk w).pending = false
            rw [hwk]
            exact hp
          · show (((s.stopTimer w).clearDelayWork w).wk w).delayed = false
            rw [hwk]
        | idle => exact (Keeps.refl h).toFollows
        | firing => exact (Keeps.refl h).toFollows
      · next hd => exact h.arm_follows hp (by simpa using hd)

end AtbmWq

end AtbmWifi
