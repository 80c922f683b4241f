import AtbmWifi.Mac80211.WorkqueueMoves

/-!
# Who flushes or cancels has waited
-/

namespace AtbmWifi

open Transition

namespace AtbmWq

variable {W : Type}

/-- Each call that has returned, of a queue that is not being destroyed: what ran or was queued before it has run
or was cancelled, and its barrier work is on no list. -/
def Waited (s : AtbmWq W) : Prop :=
  s.thread = true → ∀ c x, s.calls[c]? = some x → x.phase = .returned →
    (∀ k ∈ x.must, s.Settled k) ∧ .wait c ∉ s.works ∧ s.current ≠ some (.wait c)

/-- `dwork->wq` is set, or nothing is left to wait for, when a call on a delayed work comes to the queue. -/
def DworkSet (op : WkOp W) (s : AtbmWq W) : Prop :=
  match op with
  | .flushDelayedWork w | .cancelDelayedWorkSync w =>
    s.thread = true → (s.wk w).dworkWq = true ∨ ((s.wk w).pending = false ∧ (s.wk w).running = false)
  | .flushWork _ | .cancelWorkSync _ | .flushWorkqueue | .destroyWorkqueue => True

instance decDworkSet (op : WkOp W) (s : AtbmWq W) : Decidable (s.DworkSet op) :=
  match op with
  | .flushDelayedWork _ | .cancelDelayedWorkSync _ => inferInstanceAs (Decidable (_ → _ ∨ (_ ∧ _)))
  | .flushWork _ | .cancelWorkSync _ | .flushWorkqueue | .destroyWorkqueue => .isTrue trivial

end AtbmWq

namespace WqAct

variable {W : Type}

def InOrder (s : AtbmWq W) : WqAct W → Prop
  | queueWork w => s.MayLink w
  | queueDelayedWork w delay => delay = 0 → s.MayLink w
  | call (.flushWork w) | call (.cancelWorkSync w) => s.thread = true → (s.wk w).delayed = false
  | second c => ∀ x ∈ s.calls[c]?, s.DworkSet x.op
  | _ => True

instance decInOrder (s : AtbmWq W) (a : WqAct W) : Decidable (a.InOrder s) := by
  unfold InOrder
  split
  · exact AtbmWq.decMayLink _ s
  · infer_instance
  · infer_instance
  · infer_instance
  · next c =>
    cases s.calls[c]? with
    | none => exact isTrue nofun
    | some x => exact decidable_of_iff (s.DworkSet x.op) (by simp)
  · infer_instance

end WqAct

namespace AtbmWq

variable {W : Type}

/-- Where the execution of the work for the queue call `k` is, for a call `c` in a phase. -/
def Stage (w : W) (k c : Nat) (p : WkPhase) (s : AtbmWq W) : Prop :=
  s.Settled k ∨
    match p with
    | .locked => s.Queued w k
    | .waitTimer => s.Queued w k ∨ s.Timed w k
    | .barrier => s.Before w k c
    | .cleared | .returned => False

variable [DecidableEq W] {s t : AtbmWq W} {w v : W} {k c : Nat} {p : WkPhase}

theorem Follows.stage {new : List Nat} (h : Follows new s t) (ht : t.thread = true) (hs : s.Stage w k c p) :
    t.Stage w k c p := by
  rcases hs with hs | hs
  · exact .inl (h.settled k hs)
  · cases p with
    | locked => exact (h.queued w k hs).symm
    | waitTimer =>
      rcases hs with hs | hs
      · rcases h.queued w k hs with hk | hk
        · exact .inr (.inl hk)
        · exact .inl hk
      · rcases h.timed w k ht hs with hk | hk | hk
        · exact .inr (.inr hk)
        · exact .inr (.inl hk)
        · exact .inl hk
    | barrier => exact (h.before w k c hs).symm
    | cleared => exact hs.elim
    | returned => exact hs.elim

theorem Sound.pending_of_mem (h : s.Sound) (hk : .work w k ∈ s.works) : (s.wk w).pending = true := by
  by_contra hp
  have hcount := (h.fits w).pending
  rw [Bool.not_eq_true] at hp
  rw [hp] at hcount
  exact List.countP_eq_zero.mp hcount _ hk (beq_self_eq_true w)

theorem Sound.running_of_current (h : s.Sound) (hk : s.current = some (.work w k)) : (s.wk w).running = true := by
  rw [(h.fits w).running, hk]
  exact beq_self_eq_true w

theorem Sound.delayed_of_mem (h : s.Sound) (hk : (w, k) ∈ s.delayWorks) : (s.wk w).delayed = true := by
  by_contra hd
  have hcount := (h.fits w).delayed
  rw [Bool.not_eq_true] at hd
  rw [hd] at hcount
  exact List.countP_eq_zero.mp hcount _ hk (beq_self_eq_true w)

theorem Sound.not_queued (h : s.Sound) (hp : (s.wk w).pending = false) (hr : (s.wk w).running = false) :
    ¬s.Queued w k := by
  rintro (hk | hk)
  · rw [h.pending_of_mem hk] at hp
    cases hp
  · rw [h.running_of_current hk] at hr
    cases hr

theorem not_busy {x : AtbmWork} (h : x.busy = false) : x.pending = false ∧ x.running = false ∧ x.delayed = false := by
  unfold AtbmWork.busy at h
  revert h
  cases x.pending <;> cases x.delayed <;> cases x.running <;> simp

variable {op : WkOp W}

theorem mem_mustOf (hop : op.work = some w) (hk : k ∈ s.mustOf op) : s.Queued w k ∨ (w, k) ∈ s.delayWorks := by
  unfold mustOf at hk
  rw [hop] at hk
  have hentry : ∀ l : List (WkEntry W), k ∈ (l.filter (WkEntry.isWork w)).filterMap WkEntry.call → .work w k ∈ l := by
    intro l hl
    obtain ⟨e, he, hcall⟩ := List.mem_filterMap.mp hl
    obtain ⟨he, hw⟩ := List.mem_filter.mp he
    cases e with
    | wait => cases hw
    | work v j =>
      have hv : v = w := by simpa [WkEntry.isWork] using hw
      cases hcall
      exact hv ▸ he
  rcases List.mem_append.mp hk with hk | hk
  · rcases List.mem_append.mp hk with hk | hk
    · exact .inl (.inl (hentry _ hk))
    · obtain ⟨⟨v, j⟩, hp, rfl⟩ := List.mem_map.mp hk
      obtain ⟨hp, hv⟩ := List.mem_filter.mp hp
      have hv : v = w := by simpa using hv
      exact .inr (hv ▸ hp)
  · exact .inl (.inr (Option.mem_toList.mp (hentry _ hk)))

omit [DecidableEq W] in
theorem before_append (hk : s.Queued w k) (c : Nat) :
    ({ s with works := s.works ++ [.wait c] } : AtbmWq W).Before w k c := by
  rcases hk with hk | hk
  · exact .inl ((List.singleton_sublist.mpr hk).append (.refl [WkEntry.wait c]))
  · exact .inr ⟨hk, List.mem_append_right _ List.mem_cons_self⟩

theorem sublist_insertAfter (w : W) (k c : Nat) (l : List (WkEntry W)) (hk : .work w k ∈ l)
    (hone : l.countP (WkEntry.isWork w) ≤ 1) : [.work w k, .wait c].Sublist (insertAfter w c l) := by
  induction l with
  | nil => cases hk
  | cons e l ih =>
    unfold insertAfter
    split
    · next he =>
      rcases List.mem_cons.mp hk with rfl | hk
      · exact List.Sublist.cons_cons _ (List.Sublist.cons_cons _ (List.nil_sublist _))
      · -- a second entry of the work
        rw [List.countP_cons_of_pos he] at hone
        have : 0 < l.countP (WkEntry.isWork w) := List.countP_pos_iff.mpr ⟨_, hk, beq_self_eq_true w⟩
        omega
    · next he =>
      rcases List.mem_cons.mp hk with rfl | hk
      · exact absurd (beq_self_eq_true w) he
      · rw [List.countP_cons_of_neg he] at hone
        exact (ih hk hone).cons e

theorem Sound.before_insertAfter (h : s.Sound) (hk : s.Queued w k) (c : Nat) :
    ({ s with works := insertAfter w c s.works } : AtbmWq W).Before w k c := by
  rcases hk with hk | hk
  · refine .inl (sublist_insertAfter w k c _ hk ?_)
    rw [(h.fits w).pending]
    exact Bool.toNat_le _
  · exact .inr ⟨hk, (insertAfter_perm w c _).mem_iff.mpr List.mem_cons_self⟩

omit [DecidableEq W] in
theorem before_cons (hk : s.current = some (.work w k)) (c : Nat) :
    ({ s with works := .wait c :: s.works } : AtbmWq W).Before w k c := .inr ⟨hk, List.mem_cons_self⟩

omit [DecidableEq W] in
theorem stage_insert {l : List (WkEntry W)} {yes no : Bool} (ht : s.thread = true)
    (h : ({ s with works := l } : AtbmWq W).Before w k c) :
    (s.atbmWaitwkInsert l yes no).1.Stage w k c (s.atbmWaitwkInsert l yes no).2.1 := by
  unfold atbmWaitwkInsert
  rw [ht]
  exact .inr h

theorem Sound.cancelPending_stage (h : s.Sound) (ht : s.thread = true) (hk : s.Settled k ∨ s.Queued w k) (c : Nat)
    (ret : Bool) : (s.cancelPending w c ret).1.Stage w k c (s.cancelPending w c ret).2.1 := by
  -- what is left for the work when nothing of it is pending
  have hrest : ∀ (t : AtbmWq W) (r : Bool), t.Sound → t.thread = true → (t.wk w).pending = false →
      t.Settled k ∨ t.Queued w k →
      let u := if (t.wk w).busy = false then (t, WkPhase.returned, r)
        else if (t.wk w).running = true then t.atbmWaitwkInsert (.wait c :: t.works) false r
        else (t.bugOn true, .locked, r)
      u.1.Stage w k c u.2.1 := by
    intro t r hsound hthread hp hk
    rcases hk with hk | hk
    · dsimp only
      split
      · exact .inl hk
      · split
        · unfold atbmWaitwkInsert
          rw [hthread]
          exact .inl hk
        · exact .inl hk
    · have hr : (t.wk w).running = true := by
        by_contra hr
        exact hsound.not_queued hp (by simpa using hr) hk
      have hcur : t.current = some (.work w k) := by
        rcases hk with hk | hk
        · rw [hsound.pending_of_mem hk] at hp
          cases hp
        · exact hk
      dsimp only
      rw [if_neg (by simp [AtbmWork.busy, hr]), if_pos hr]
      exact stage_insert hthread (before_cons hcur c)
  unfold AtbmWq.cancelPending
  by_cases hp : (s.wk w).pending = true
  · rw [if_pos hp]
    have hclear := h.clearPendingWork_keeps w
    refine hrest _ true hclear.sound ht ?_ ?_
    · show (Function.update s.wk w _ w).pending = false
      rw [Function.update_self]
    · rcases hk with hk | hk
      · exact .inl (hclear.settled k hk)
      · exact (hclear.queued w k hk).symm
  · rw [if_neg hp]
    exact hrest s ret h ht (by simpa using hp) hk

theorem Sound.promote_queued (h : s.Sound) (ht : s.thread = true) (hk : (w, k) ∈ s.delayWorks) :
    (s.promote w).1.Queued w k := by
  have hd := h.delayed_of_mem hk
  have hp := (h.delayed_of_timer ((h.fits w).timer.mp hd)).2
  have hth : ((s.stopTimer w).clearDelayWork w).thread = true := ht
  unfold promote AtbmWq.queueWork
  rw [if_neg (by simp [hp]), hth, h.eq_delayCall hd hk]
  exact .inl (List.mem_append_right _ List.mem_cons_self)

theorem Sound.timer_of_mem (h : s.Sound) (hk : (w, k) ∈ s.delayWorks) : (s.wk w).timer ≠ .idle :=
  (h.fits w).timer.mp (h.delayed_of_mem hk)

theorem Sound.waiting_timed (h : s.Sound) (hk : (w, k) ∈ s.delayWorks) (hne : (s.wk w).timer ≠ .armed) :
    (s.set w { s.wk w with waiting := true }).Timed w k := by
  refine ⟨hk, ?_, ?_⟩
  · show (Function.update s.wk w _ w).timer = .firing
    rw [Function.update_self]
    have hidle := h.timer_of_mem hk
    revert hidle hne
    show (s.wk w).timer ≠ .armed → (s.wk w).timer ≠ .idle → (s.wk w).timer = .firing
    cases (s.wk w).timer <;> simp
  · show (Function.update s.wk w _ w).waiting = true
    rw [Function.update_self]

theorem Sound.wait_stage (h : s.Sound) (hmust : s.Queued w k ∨ (w, k) ∈ s.delayWorks)
    (hne : (s.wk w).timer ≠ .armed) (c : Nat) (r : Bool) :
    let u := if (s.wk w).delayed = true then (s.set w { s.wk w with waiting := true }, WkPhase.waitTimer, r)
      else (s, .locked, false)
    u.1.Stage w k c u.2.1 := by
  dsimp only
  split
  · rcases hmust with hq | hdelay
    · exact .inr (.inl hq)
    · exact .inr (.inr (h.waiting_timed hdelay hne))
  · next hd => exact .inr (hmust.resolve_right fun hdelay => hd (h.delayed_of_mem hdelay))

theorem promote_snd (ht : s.thread = true) (w : W) : (s.promote w).2 = true := by
  have hth : ((s.stopTimer w).clearDelayWork w).thread = true := ht
  unfold promote AtbmWq.queueWork
  dsimp only
  split
  · rfl
  · rw [hth]

theorem Sound.enter_stage (h : s.Sound) (hC : (WqAct.call op).InOrder s) (ht : s.thread = true)
    (hop : op.work = some w) (hk : k ∈ s.mustOf op) (c : Nat) :
    (s.enter op c).1.Stage w k c (s.enter op c).2.1 := by
  have hmust := mem_mustOf hop hk
  cases op with
  | flushWork v =>
    cases hop
    have hd : (s.wk w).delayed = false := hC ht
    have hq : s.Queued w k := by
      rcases hmust with hq | hdelay
      · exact hq
      · rw [h.delayed_of_mem hdelay] at hd
        cases hd
    show (s.ieee80211AtbmFlushWork w c).1.Stage w k c (s.ieee80211AtbmFlushWork w c).2.1
    unfold ieee80211AtbmFlushWork
    dsimp only
    split
    · next hwq =>
      have hnone : ¬((s.wk w).pending = true ∨ (s.wk w).running = true) := by
        intro hb
        rw [(h.fits w).wq hb] at hwq
        cases hwq
      simp only [not_or, Bool.not_eq_true] at hnone
      exact absurd hq (h.not_queued hnone.1 hnone.2)
    · split
      · next hb => exact absurd hq (h.not_queued (not_busy hb).1 (not_busy hb).2.1)
      · split
        · exact stage_insert ht (before_append hq c)
        · next hr =>
          split
          · exact stage_insert ht (h.before_insertAfter hq c)
          · next hp => exact absurd hq (h.not_queued (by simpa using hp) (by simpa using hr))
  | cancelWorkSync v =>
    cases hop
    have hd : (s.wk w).delayed = false := hC ht
    have hq : s.Queued w k := by
      rcases hmust with hq | hdelay
      · exact hq
      · rw [h.delayed_of_mem hdelay] at hd
        cases hd
    show (s.ieee80211AtbmCancelWorkSync w c).1.Stage w k c (s.ieee80211AtbmCancelWorkSync w c).2.1
    unfold ieee80211AtbmCancelWorkSync
    split
    · next hwq =>
      have hnone : ¬((s.wk w).pending = true ∨ (s.wk w).running = true) := by
        intro hb
        rw [(h.fits w).wq hb] at hwq
        cases hwq
      simp only [not_or, Bool.not_eq_true] at hnone
      exact absurd hq (h.not_queued hnone.1 hnone.2)
    · exact h.cancelPending_stage ht (.inr hq) c false
  | flushDelayedWork v =>
    cases hop
    show (s.flushDelayedTimer w).1.Stage w k c (s.flushDelayedTimer w).2.1
    have hbug := h.bugOn !(s.wk w).dworkWq
    cases htimer : (s.wk w).timer with
    | armed =>
      have hd := (h.delayed_of_timer (w := w) (by rw [htimer]; nofun)).1
      have hpromote := hbug.promote_keeps (w := w) hd
      have hqueued : ((s.bugOn !(s.wk w).dworkWq).promote w).1.Queued w k ∨
          ((s.bugOn !(s.wk w).dworkWq).promote w).1.Settled k := by
        rcases hmust with hq | hdelay
        · exact hpromote.queued w k hq
        · exact .inl (hbug.promote_queued ht hdelay)
      unfold flushDelayedTimer
      rw [htimer]
      dsimp only
      split
      · next t heq =>
        rw [heq] at hqueued
        exact hqueued.symm
      · next t heq =>
        have hsnd := promote_snd (s := s.bugOn !(s.wk w).dworkWq) ht w
        rw [heq] at hsnd
        cases hsnd
    | idle =>
      unfold flushDelayedTimer
      rw [htimer]
      exact h.wait_stage hmust (by rw [htimer]; nofun) c false
    | firing =>
      unfold flushDelayedTimer
      rw [htimer]
      exact h.wait_stage hmust (by rw [htimer]; nofun) c false
  | cancelDelayedWorkSync v =>
    cases hop
    show (s.cancelDelayedTimer w).1.Stage w k c (s.cancelDelayedTimer w).2.1
    have hbug := h.bugOn !(s.wk w).dworkWq
    cases htimer : (s.wk w).timer with
    | armed =>
      have hd := (h.delayed_of_timer (w := w) (by rw [htimer]; nofun)).1
      have hcancel := hbug.cancelDelay_keeps (w := w) hd
      unfold cancelDelayedTimer
      rw [htimer]
      rcases hmust with hq | hdelay
      · exact (hcancel.queued w k hq).symm
      · rw [h.eq_delayCall hd hdelay]
        exact .inl (.inr (List.mem_append_right _ List.mem_cons_self))
    | idle =>
      unfold cancelDelayedTimer
      rw [htimer]
      exact h.wait_stage hmust (by rw [htimer]; nofun) c true
    | firing =>
      unfold cancelDelayedTimer
      rw [htimer]
      exact h.wait_stage hmust (by rw [htimer]; nofun) c true
  | flushWorkqueue => cases hop
  | destroyWorkqueue => cases hop

theorem Sound.resume_stage (h : s.Sound) (ht : s.thread = true) (hop : op.work = some w)
    (hdwork : (s.wk w).dworkWq = true ∨ ((s.wk w).pending = false ∧ (s.wk w).running = false))
    (hk : s.Settled k ∨ s.Queued w k) (hsecond : (∃ v, op = .flushDelayedWork v) ∨ ∃ v, op = .cancelDelayedWorkSync v)
    (c : Nat) (ret : Bool) : (s.resume op c ret).1.Stage w k c (s.resume op c ret).2.1 := by
  have hnull : (s.wk w).dworkWq = false → s.Settled k := by
    intro hnull
    rcases hdwork with hset | ⟨hp, hr⟩
    · rw [hset] at hnull
      cases hnull
    · exact hk.resolve_right (h.not_queued hp hr)
  rcases hsecond with ⟨v, rfl⟩ | ⟨v, rfl⟩
  · cases hop
    show (s.flushDelayedPending w c ret).1.Stage w k c (s.flushDelayedPending w c ret).2.1
    unfold flushDelayedPending
    dsimp only
    split
    · next hn => exact .inl (hnull hn)
    · split
      · next hb => exact .inl (hk.resolve_right (h.not_queued (not_busy hb).1 (not_busy hb).2.1))
      · split
        · rcases hk with hk | hk
          · unfold atbmWaitwkInsert
            rw [ht]
            exact .inl hk
          · exact stage_insert ht (h.before_insertAfter hk c)
        · next hp =>
          have hp : (s.wk w).pending = false := by simpa using hp
          split
          · rcases hk with hk | hk
            · unfold atbmWaitwkInsert
              rw [ht]
              exact .inl hk
            · rcases hk with hk | hk
              · rw [h.pending_of_mem hk] at hp
                cases hp
              · exact stage_insert ht (before_cons hk c)
          · next hr => exact .inl (hk.resolve_right (h.not_queued hp (by simpa using hr)))
  · cases hop
    show (s.cancelDelayedPending w c ret).1.Stage w k c (s.cancelDelayedPending w c ret).2.1
    unfold cancelDelayedPending
    split
    · next hn => exact .inl (hnull hn)
    · exact h.cancelPending_stage ht hk c ret

structure FlushInv (s : AtbmWq W) : Prop where
  sound : s.Sound
  /-- a barrier work is linked once while its call waits for it -/
  waits : ∀ c, s.waits c = ((s.calls[c]?).any (·.phase == .barrier)).toNat
  stage : s.thread = true → ∀ c x, s.calls[c]? = some x → ∀ k ∈ x.must, ∃ w ∈ x.op.work, s.Stage w k c x.phase

theorem Follows.flushInv (h : Follows [] s t) (hs : s.FlushInv) : t.FlushInv := by
  refine ⟨h.sound, fun c => ?_, fun ht c x hx k hk => ?_⟩
  · rw [h.waits, h.same]
    exact hs.waits c
  · rw [h.same] at hx
    obtain ⟨w, hw, hstage⟩ := hs.stage (h.thread ht) c x hx k hk
    exact ⟨w, hw, h.stage ht hstage⟩

theorem adds_count (p : WkPhase) (c d : Nat) : (p.adds c).count d = if c = d then (p == .barrier).toNat else 0 := by
  by_cases hd : c = d
  · subst hd
    rw [if_pos rfl]
    cases p with
    | barrier => exact List.count_singleton_self
    | _ => rfl
  · rw [if_neg hd]
    cases p with
    | barrier => exact List.count_eq_zero.mpr (by simpa [WkPhase.adds] using fun he => hd he.symm)
    | _ => rfl

theorem FlushInv.call (hs : s.FlushInv) (hC : (WqAct.call op).InOrder s) : (s.call op).FlushInv := by
  have hkeeps := hs.sound.call_keeps op s.calls.length
  have hcalls : (s.call op).calls = s.calls ++ [⟨op, (s.enter op s.calls.length).2.1, (s.enter op s.calls.length).2.2,
      s.mustOf op⟩] := by
    have hsame : (s.enter op s.calls.length).1.calls = s.calls := (hs.sound.enter_keeps op _).same
    show (s.enter op s.calls.length).1.calls ++ _ = _
    rw [hsame]
    rfl
  refine ⟨hkeeps.sound.withCalls _, fun d => ?_, fun ht d x hx k hk => ?_⟩
  · rw [hcalls]
    have hwaits : (s.call op).waits d = _ := hkeeps.waits d
    rw [hwaits, hs.waits d, adds_count]
    rcases Nat.lt_trichotomy d s.calls.length with hd | rfl | hd
    · rw [List.getElem?_append_left hd, if_neg (Nat.ne_of_gt hd)]
      rfl
    · rw [List.getElem?_append_right (Nat.le_refl _), List.getElem?_eq_none (Nat.le_refl _), Nat.sub_self, if_pos rfl]
      exact Nat.zero_add _
    · rw [List.getElem?_eq_none (Nat.le_of_lt hd), if_neg (Nat.ne_of_lt hd), List.getElem?_append_right (Nat.le_of_lt hd),
        List.getElem?_eq_none (by simp only [List.length_singleton]; omega)]
      rfl
  · have hthread : s.thread = true := hkeeps.thread ht
    rw [hcalls] at hx
    rcases Nat.lt_or_ge d s.calls.length with hd | hd
    · rw [List.getElem?_append_left hd] at hx
      obtain ⟨w, hw, hstage⟩ := hs.stage hthread d x hx k hk
      exact ⟨w, hw, hkeeps.stage ht hstage⟩
    · rw [List.getElem?_append_right hd] at hx
      obtain ⟨hd', rfl⟩ := List.getElem?_eq_some_iff.mp hx
      have hdlen : d = s.calls.length := by
        have : d - s.calls.length < 1 := hd'
        omega
      subst hdlen
      simp only [Nat.sub_self, List.getElem_cons_zero] at hk ⊢
      cases hop : op.work with
      | none =>
        unfold mustOf at hk
        rw [hop] at hk
        cases hk
      | some w =>
        refine ⟨w, rfl, ?_⟩
        have henter := hs.sound.enter_stage hC hthread hop hk s.calls.length
        have hlock := (hs.sound.enter_keeps op s.calls.length).sound.lock_keeps op.work
          ((s.enter op s.calls.length).2.1 == .locked)
        exact hlock.stage ht henter

omit [DecidableEq W] in
theorem not_timedOut (hop : op.work = some w) (hk : s.Timed w k) : ¬s.timedOut op := by
  intro hno
  have hwait : (s.wk w).waiting = false := by
    cases op with
    | flushDelayedWork v =>
      cases hop
      exact hno
    | cancelDelayedWorkSync v =>
      cases hop
      exact hno
    | flushWork v => exact hno.elim
    | cancelWorkSync v => exact hno.elim
    | flushWorkqueue => cases hop
    | destroyWorkqueue => cases hop
  rw [hk.2.2] at hwait
  cases hwait

theorem FlushInv.second (hs : s.FlushInv) {x : WkCall W} (hx : s.calls[c]? = some x)
    (hphase : x.phase = .locked ∨ (x.phase = .waitTimer ∧ s.timedOut x.op ∧ s.unlocked x.op.work))
    (hC : (WqAct.second c).InOrder s) : (s.second c x).FlushInv := by
  have hkeeps := hs.sound.second_keeps x.op c x.ret
  have hcalls : (s.second c x).calls =
      s.calls.set c { x with phase := (s.resume x.op c x.ret).2.1, ret := (s.resume x.op c x.ret).2.2 } := by
    have hsame : (s.resume x.op c x.ret).1.calls = s.calls := (hs.sound.resume_keeps x.op c x.ret).same
    show (s.resume x.op c x.ret).1.calls.set c _ = _
    rw [hsame]
    rfl
  have hlt : c < s.calls.length := (List.getElem?_eq_some_iff.mp hx).1
  have hne : (x.phase == .barrier) = false := by
    rcases hphase with hp | ⟨hp, -⟩
    · rw [hp]
      rfl
    · rw [hp]
      rfl
  refine ⟨hkeeps.sound.withCalls _, fun d => ?_, fun ht d y hy k hk => ?_⟩
  · rw [hcalls]
    have hwaits : (s.second c x).waits d = _ := hkeeps.waits d
    rw [hwaits, hs.waits d, adds_count]
    by_cases hd : c = d
    · subst hd
      rw [List.getElem?_set_self hlt, hx, if_pos rfl]
      show (x.phase == .barrier).toNat + _ = _
      rw [hne]
      exact Nat.zero_add _
    · rw [List.getElem?_set_ne hd, if_neg hd]
      rfl
  · have hthread : s.thread = true := hkeeps.thread ht
    rw [hcalls] at hy
    by_cases hd : c = d
    · subst hd
      rw [List.getElem?_set_self hlt] at hy
      cases hy
      obtain ⟨w, hw, hstage⟩ := hs.stage hthread c x hx k hk
      refine ⟨w, hw, ?_⟩
      have hop : x.op.work = some w := hw
      have hsecond : s.DworkSet x.op := hC x hx
      -- the timer function has come in the meantime
      have hplace : s.Settled k ∨ s.Queued w k := by
        rcases hstage with hk | hk
        · exact .inl hk
        · rcases hphase with hp | ⟨hp, htimed, -⟩
          · rw [hp] at hk
            exact .inr hk
          · rw [hp] at hk
            exact .inr (hk.resolve_right fun hk => not_timedOut hop hk htimed)
      have hresume : (s.resume x.op c x.ret).1.Stage w k c (s.resume x.op c x.ret).2.1 := by
        revert hsecond hop
        cases x.op with
        | flushDelayedWork v =>
          intro hop hsecond
          cases hop
          exact hs.sound.resume_stage hthread rfl (hsecond hthread) hplace (.inl ⟨_, rfl⟩) c x.ret
        | cancelDelayedWorkSync v =>
          intro hop hsecond
          cases hop
          exact hs.sound.resume_stage hthread rfl (hsecond hthread) hplace (.inr ⟨_, rfl⟩) c x.ret
        | flushWork v => exact fun _ _ => hplace
        | cancelWorkSync v => exact fun _ _ => hplace
        | flushWorkqueue => nofun
        | destroyWorkqueue => nofun
      have hlock := (hs.sound.resume_keeps x.op c x.ret).sound.lock_keeps x.op.work false
      exact hlock.stage ht hresume
    · rw [List.getElem?_set_ne hd] at hy
      obtain ⟨w, hw, hstage⟩ := hs.stage hthread d y hy k hk
      exact ⟨w, hw, hkeeps.stage ht hstage⟩

theorem FlushInv.finish_wait (hs : s.FlushInv) (hcur : s.current = some (.wait c)) : s.finish.FlushInv := by
  have hfinish : s.finish = { s with current := none, calls := s.calls.modify c fun x => { x with phase := .cleared } } := by
    unfold AtbmWq.finish
    rw [hcur]
  have hwaits : ∀ d, s.waits d = s.works.count (.wait d) + if c = d then 1 else 0 := by
    intro d
    unfold AtbmWq.waits
    rw [hcur, List.count_append]
    show _ + [WkEntry.wait c].count (.wait d) = _
    rw [List.count_singleton]
    by_cases hd : c = d
    · rw [if_pos hd, if_pos (by simpa using hd)]
    · rw [if_neg hd, if_neg (by simpa using hd)]
  have hnone : ∀ {w : W} {k : Nat}, s.current ≠ some (.work w k) := by
    intro w k
    rw [hcur]
    nofun
  have hget : ∀ d, (s.calls.modify c fun x => { x with phase := .cleared })[d]? =
      if c = d then (s.calls[d]?).map fun x => { x with phase := .cleared } else s.calls[d]? := by
    intro d
    rw [List.getElem?_modify]
    split
    · rfl
    · simp
  refine ⟨hs.sound.finish, fun d => ?_, fun ht d y hy k hk => ?_⟩
  · rw [hfinish]
    have hd := hs.waits d
    rw [hwaits] at hd
    show (s.works ++ []).count (WkEntry.wait d) =
      (((s.calls.modify c fun x => { x with phase := .cleared })[d]?).any (·.phase == .barrier)).toNat
    rw [List.append_nil, hget]
    by_cases hcd : c = d
    · rw [if_pos hcd] at hd ⊢
      have hone : ((s.calls[d]?).any (·.phase == .barrier)).toNat ≤ 1 := Bool.toNat_le _
      have hzero : s.works.count (.wait d) = 0 := by omega
      rw [hzero]
      cases s.calls[d]? with
      | none => rfl
      | some y => rfl
    · rw [if_neg hcd] at hd ⊢
      exact hd
  · rw [hfinish] at ht hy ⊢
    have hy : (s.calls.modify c fun x => { x with phase := .cleared })[d]? = some y := hy
    rw [hget] at hy
    by_cases hcd : c = d
    · subst hcd
      rw [if_pos rfl] at hy
      obtain ⟨x, hx, rfl⟩ := Option.map_eq_some_iff.mp hy
      obtain ⟨w, hw, hstage⟩ := hs.stage ht c x hx k hk
      refine ⟨w, hw, ?_⟩
      have hd := hs.waits c
      rw [hwaits, if_pos rfl, hx] at hd
      have hphase : x.phase = .barrier := by
        by_contra hno
        have : (Option.any (fun y : WkCall W => y.phase == .barrier) (some x)).toNat = 0 := by
          simpa using hno
        omega
      rw [hphase] at hstage
      have hzero : s.works.count (.wait c) = 0 := by
        have hone : (Option.any (fun y : WkCall W => y.phase == .barrier) (some x)).toNat ≤ 1 := Bool.toNat_le _
        omega
      rcases hstage with hsettled | hbefore | ⟨hrun, -⟩
      · exact .inl hsettled
      · exact absurd (hbefore.subset (List.mem_cons_of_mem _ List.mem_cons_self)) (List.count_eq_zero.mp hzero)
      · exact absurd hrun hnone
    · rw [if_neg hcd] at hy
      obtain ⟨w, hw, hstage⟩ := hs.stage ht d y hy k hk
      refine ⟨w, hw, ?_⟩
      rcases hstage with hsettled | hplace
      · exact .inl hsettled
      · cases hp : y.phase with
        | locked =>
          rw [hp] at hplace
          exact .inr (.inl (hplace.resolve_right hnone))
        | waitTimer =>
          rw [hp] at hplace
          rcases hplace with hq | hq
          · exact .inr (.inl (.inl (hq.resolve_right hnone)))
          · exact .inr (.inr hq)
        | barrier =>
          rw [hp] at hplace
          exact .inr (.inl (hplace.resolve_right fun hrun => hnone hrun.1))
        | cleared =>
          rw [hp] at hplace
          exact hplace.elim
        | returned =>
          rw [hp] at hplace
          exact hplace.elim

theorem FlushInv.wake (hs : s.FlushInv) {x : WkCall W} (hx : s.calls[c]? = some x) (hphase : x.phase = .cleared) :
    FlushInv { s with calls := s.calls.modify c fun x => { x with phase := .returned } } := by
  have hget : ∀ d, (s.calls.modify c fun x => { x with phase := .returned })[d]? =
      if c = d then some { x with phase := .returned } else s.calls[d]? := by
    intro d
    rw [List.getElem?_modify]
    by_cases hd : c = d
    · subst hd
      rw [if_pos rfl, hx]
      simp
    · rw [if_neg hd]
      simp [hd]
  refine ⟨hs.sound.withCalls _, fun d => ?_, fun ht d y hy k hk => ?_⟩
  · show s.waits d = (((s.calls.modify c fun x => { x with phase := .returned })[d]?).any _).toNat
    rw [hs.waits d, hget]
    by_cases hd : c = d
    · subst hd
      rw [if_pos rfl, hx]
      show (x.phase == .barrier).toNat = _
      rw [hphase]
      rfl
    · rw [if_neg hd]
  · have hy : (s.calls.modify c fun x => { x with phase := .returned })[d]? = some y := hy
    rw [hget] at hy
    by_cases hd : c = d
    · subst hd
      rw [if_pos rfl] at hy
      cases hy
      obtain ⟨w, hw, hstage⟩ := hs.stage ht c x hx k hk
      rw [hphase] at hstage
      exact ⟨w, hw, hstage⟩
    · rw [if_neg hd] at hy
      exact hs.stage ht d y hy k hk

theorem FlushInv.step (hs : s.FlushInv) {a : WqAct W} (ha : a.Ready s) (hC : a.InOrder s) : (a.next s).FlushInv := by
  have h := hs.sound
  cases a with
  | queueWork w => exact (h.queueWork_follows hC).flushInv hs
  | queueDelayedWork w delay => exact (h.queueDelayed_follows hC).flushInv hs
  | expire w => exact (h.expire_keeps ha).flushInv hs
  | timerFn w => exact (h.timerFn_keeps w).flushInv hs
  | cancelDelayedWork w => exact (h.cancelDelayedWork_keeps w).flushInv hs
  | take => exact (h.take_keeps ha.1).flushInv hs
  | finish =>
    show s.finish.FlushInv
    cases hcur : s.current with
    | none => exact absurd hcur ha
    | some e =>
      cases e with
      | work w k => exact (h.finish_keeps hcur).flushInv hs
      | wait c => exact hs.finish_wait hcur
  | call op => exact hs.call hC
  | second c =>
    obtain ⟨x, hx, hphase⟩ := ha
    have hx : s.calls[c]? = some x := hx
    simp only [WqAct.next, hx]
    exact hs.second hx hphase hC
  | wake c =>
    obtain ⟨x, hx, hphase⟩ := ha
    exact hs.wake hx hphase

theorem FlushInv.waited (hs : s.FlushInv) : s.Waited := by
  intro ht c x hx hphase
  have hwaits := hs.waits c
  rw [hx] at hwaits
  have hzero : s.waits c = 0 := by
    rw [hwaits]
    show (x.phase == .barrier).toNat = 0
    rw [hphase]
    rfl
  have hmem := List.count_eq_zero.mp hzero
  refine ⟨fun k hk => ?_, fun hno => hmem (List.mem_append_left _ hno), fun hno => ?_⟩
  · obtain ⟨w, -, hstage⟩ := hs.stage ht c x hx k hk
    rw [hphase] at hstage
    exact hstage.resolve_right id
  · exact hmem (List.mem_append_right _ (Option.mem_toList.mpr hno))

end AtbmWq

variable {W : Type} [DecidableEq W]

/-- After a run whose steps are in order each call that has returned, of a queue that is not being destroyed, has
waited. -/
theorem workqueue_waits {l : List (AtbmWq W × WqAct W)} {t : AtbmWq W} (h : Path (workqueues W) (atbmWqStart W) l t)
    (hC : ∀ p ∈ l, p.2.InOrder p.1) : t.Waited := by
  have hinv : t.FlushInv := by
    apply h.keep (C := fun s a => a.InOrder s) (I := AtbmWq.FlushInv)
    · rintro s a _ hI ⟨ha, rfl⟩ hC
      exact hI.step ha.2.2 hC
    · exact hC
    · exact ⟨.start, fun _ => rfl, nofun⟩
  exact hinv.waited

theorem workqueue_waits_busy :
    let acts : List (WqAct Nat) := [.queueWork 7, .take, .queueWork 7, .call (.flushWork 7), .queueDelayedWork 8 5,
      .expire 8, .call (.cancelDelayedWorkSync 8), .timerFn 8, .second 1, .finish, .take, .finish, .take, .finish,
      .wake 0]
    (acts.foldl WqAct.next (atbmWqStart Nat)).Waited ∧
      (acts.foldl WqAct.next (atbmWqStart Nat)).calls.map (·.phase) = [.returned, .returned] := by
  intro acts
  have hfires : Fires (fun s a => a.Enabled s) WqAct.next (atbmWqStart Nat) acts := by decide
  exact ⟨workqueue_waits (Path.ofFires hfires) (by decide), by decide⟩

/-- A delayed work queued with no delay: `dwork->wq` is not set and the call returns at once. -/
theorem workqueue_returns_early :
    ∃ l t, Path (workqueues Nat) (atbmWqStart Nat) l t ∧ ¬t.Waited := by
  have hfires : Fires (fun s a => a.Enabled s) WqAct.next (atbmWqStart Nat)
      [.queueDelayedWork 7 0, .take, .call (.cancelDelayedWorkSync 7), .second 0] := by decide
  refine ⟨_, _, Path.ofFires hfires, fun h => ?_⟩
  have hsettled := (h rfl 0 ⟨.cancelDelayedWorkSync 7, .returned, false, [0]⟩ (by decide) rfl).1 0 (by decide)
  rcases hsettled with hk | hk
  · exact absurd hk (by decide)
  · exact absurd hk (by decide)

end AtbmWifi
