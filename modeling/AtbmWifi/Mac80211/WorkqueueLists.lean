import AtbmWifi.Mac80211.WorkqueueMoves

/-!
# The entry of a work is where its flags say

* `AtbmWq.ListsOk`: what the flags say of the two lists, and where each queue call that returned true is.
-/

namespace AtbmWifi

open Transition

namespace AtbmWq

variable {W : Type} [DecidableEq W]

structure ListsOk (s : AtbmWq W) : Prop where
  /-- on `works` once if pending, else not at all -/
  works : ∀ w, s.works.countP (WkEntry.isWork w) = (s.wk w).pending.toNat
  /-- on `delay_works` once if delayed with a timer armed or firing, else not at all -/
  delays : ∀ w, s.delayWorks.countP (·.1 == w) = ((s.wk w).delayed && (s.wk w).timer != .idle).toNat
  apart : ∀ w, ¬(s.works.any (WkEntry.isWork w) = true ∧ s.delayWorks.any (·.1 == w) = true)
  /-- each call is in one place, so it is run once at most -/
  once : s.queueCalls.Perm (List.range s.issued)
  kept : s.Kept

def MayArm (w : W) (s : AtbmWq W) : Prop := (s.wk w).pending = true ∨ (s.wk w).timer ≠ .armed ∨ s.thread = false

instance decMayArm (w : W) (s : AtbmWq W) : Decidable (s.MayArm w) := inferInstanceAs (Decidable (_ ∨ _ ∨ _))

end AtbmWq

namespace WqAct

variable {W : Type} [DecidableEq W]

def InTurn (s : AtbmWq W) : WqAct W → Prop
  | queueWork w => s.MayLink w
  | queueDelayedWork w delay => if delay = 0 then s.MayLink w else s.MayArm w
  | _ => True

instance decInTurn (s : AtbmWq W) (a : WqAct W) : Decidable (a.InTurn s) :=
  match a with
  | queueWork w => inferInstanceAs (Decidable (s.MayLink w))
  | queueDelayedWork w delay => inferInstanceAs (Decidable (if delay = 0 then s.MayLink w else s.MayArm w))
  | expire _ | timerFn _ | cancelDelayedWork _ | take | finish | call _ | second _ | wake _ => .isTrue trivial

end WqAct

namespace AtbmWq

variable {W : Type} [DecidableEq W] {s t : AtbmWq W} {w : W}

structure Inv (s : AtbmWq W) : Prop where
  sound : s.Sound
  once : s.queueCalls.Perm (List.range s.issued)
  kept : s.Kept

theorem Keeps.inv {new : List Nat} (h : Keeps new s t) (hs : s.Inv) : t.Inv := by
  refine ⟨h.sound, h.calls.trans ?_, h.kept hs.kept⟩
  rw [h.issued]
  exact hs.once

theorem Inv.withCalls (hs : s.Inv) (calls : List (WkCall W)) : ({ s with calls := calls } : AtbmWq W).Inv :=
  ⟨hs.sound.withCalls calls, hs.once, hs.kept⟩

theorem Inv.issue (hs : s.Inv) (ht : t.Sound) (hcalls : t.queueCalls.Perm (s.issued :: s.queueCalls))
    (hissued : t.issued = s.issued + 1) (hfate : t.fate = s.fate) (hthread : t.thread = s.thread) : t.Inv := by
  refine ⟨ht, hcalls.trans ((hs.once.cons _).trans ?_), ?_⟩
  · rw [hissued, List.range_succ]
    exact (List.perm_append_singleton _ _).symm
  · unfold Kept
    rw [hfate, hthread]
    exact hs.kept

theorem Inv.refuse (hs : s.Inv) (ht : t.Sound) (hcalls : t.queueCalls = s.queueCalls) (hissued : t.issued = s.issued)
    (hfate : t.fate = s.fate) (hthread : t.thread = s.thread) : t.Inv := by
  refine ⟨ht, ?_, ?_⟩
  · rw [hcalls, hissued]
    exact hs.once
  · unfold Kept
    rw [hfate, hthread]
    exact hs.kept

theorem Inv.queueWork (hs : s.Inv) (hC : s.MayLink w) : (s.ieee80211AtbmQueueWork w).1.Inv := by
  have hsound := (hs.sound.queueWork_follows hC).sound
  unfold ieee80211AtbmQueueWork at hsound ⊢
  split
  · exact hs
  · next hp =>
    rw [if_neg hp] at hsound
    cases hthread : s.thread with
    | true =>
      have hcalls := queueWork_calls hthread w s.issued
      unfold AtbmWq.queueWork at hsound hcalls ⊢
      rw [hthread] at hsound hcalls ⊢
      exact hs.issue hsound hcalls rfl rfl rfl
    | false =>
      unfold AtbmWq.queueWork at hsound ⊢
      rw [hthread] at hsound ⊢
      exact hs.refuse hsound rfl rfl rfl rfl

theorem Inv.queueDelayedWork (hs : s.Inv) (hp : (s.wk w).pending = false) (hd : (s.wk w).delayed = false) :
    (s.queueDelayedWork w).1.Inv := by
  have hsound := (hs.sound.arm_follows hp hd).sound
  cases hthread : s.thread with
  | true =>
    have hcalls := queueDelayedWork_calls hthread w
    unfold AtbmWq.queueDelayedWork at hsound hcalls ⊢
    rw [hthread] at hsound hcalls ⊢
    exact hs.issue hsound hcalls rfl rfl rfl
  | false =>
    unfold AtbmWq.queueDelayedWork at hsound ⊢
    rw [hthread] at hsound ⊢
    exact hs.refuse hsound rfl rfl rfl rfl

theorem queueDelayedWork_fate (w : W) (s : AtbmWq W) : (s.queueDelayedWork w).1.fate = s.fate := by
  unfold AtbmWq.queueDelayedWork
  split
  · rfl
  · rfl

theorem Inv.queueDelayed (hs : s.Inv) {delay : Nat} (hC : (WqAct.queueDelayedWork w delay).InTurn s) :
    (s.ieee80211AtbmQueueDelayedWork w delay).1.Inv := by
  have hC : if delay = 0 then s.MayLink w else s.MayArm w := hC
  unfold ieee80211AtbmQueueDelayedWork
  split
  · exact hs
  · next hp =>
    have hp : (s.wk w).pending = false := by simpa using hp
    split
    · next hdelay =>
      rw [if_pos hdelay] at hC
      exact hs.queueWork hC
    · next hdelay =>
      rw [if_neg hdelay] at hC
      split
      · next hd =>
        cases ht : (s.wk w).timer with
        | armed =>
          have hthread : s.thread = false := (hC.resolve_left (by simp [hp])).resolve_left (by simp [ht])
          have hdisarm := hs.sound.disarm_follows ht .destroyed
          have hwk := clearDelayWork_wk w s
          have hinv : Inv (((s.stopTimer w).clearDelayWork w).settle [s.delayCall w] .destroyed) := by
            refine ⟨hdisarm.sound, ?_, ?_⟩
            · exact ((settle_calls _ _ _).trans (clearDelayWork_calls hs.sound hd).symm).trans hs.once
            · intro p hp
              rcases List.mem_append.mp hp with hp | hp
              · exact hs.kept p hp
              · rw [List.mem_singleton.mp hp]
                exact ⟨by rintro ⟨⟩, fun _ => hthread⟩
          show ((((s.stopTimer w).clearDelayWork w).settle _
            (if s.thread = true then .lost else .destroyed)).queueDelayedWork w).1.Inv
          rw [hthread]
          apply hinv.queueDelayedWork
          · show (((s.stopTimer w).clearDelayWork w).wk w).pending = false
            rw [hwk]
            exact hp
          · show (((s.stopTimer w).clearDelayWork w).wk w).delayed = false
            rw [hwk]
        | idle => exact hs
        | firing => exact hs
      · next hd => exact hs.queueDelayedWork hp (by simpa using hd)

theorem Inv.step (hs : s.Inv) {a : WqAct W} (ha : a.Ready s) (hC : a.InTurn s) : (a.next s).Inv := by
  have h := hs.sound
  cases a with
  | queueWork w => exact hs.queueWork hC
  | queueDelayedWork w delay => exact hs.queueDelayed hC
  | expire w => exact (h.expire_keeps ha).inv hs
  | timerFn w => exact (h.timerFn_keeps w).inv hs
  | cancelDelayedWork w => exact (h.cancelDelayedWork_keeps w).inv hs
  | take => exact (h.take_keeps ha.1).inv hs
  | finish =>
    show s.finish.Inv
    cases hcur : s.current with
    | none =>
      unfold AtbmWq.finish
      rw [hcur]
      exact hs
    | some e =>
      cases e with
      | work w k => exact (h.finish_keeps hcur).inv hs
      | wait c =>
        have hcalls := finish_calls s
        have hsound := h.finish
        unfold AtbmWq.finish at hcalls hsound ⊢
        rw [hcur] at hcalls hsound ⊢
        exact ⟨hsound, hcalls.trans hs.once, hs.kept⟩
  | call op => exact ((h.call_keeps op _).inv hs).withCalls _
  | second c =>
    unfold WqAct.next
    dsimp only
    split
    · exact ((h.second_keeps _ c _).inv hs).withCalls _
    · exact hs
  | wake c => exact hs.withCalls _

theorem Inv.listsOk (hs : s.Inv) : s.ListsOk := by
  have hdelays : ∀ w, s.delayWorks.countP (·.1 == w) = ((s.wk w).delayed && (s.wk w).timer != .idle).toNat := by
    intro w
    have hw := hs.sound.fits w
    rw [hw.delayed]
    cases hd : (s.wk w).delayed with
    | false => rfl
    | true =>
      have ht : ((s.wk w).timer != .idle) = true := by simpa using hw.timer.mp hd
      rw [ht]
      rfl
  refine ⟨fun w => (hs.sound.fits w).pending, hdelays, ?_, hs.once, hs.kept⟩
  rintro w ⟨hworks, hdelay⟩
  have hw := hs.sound.fits w
  have hp : (s.wk w).pending = true := by
    by_contra hp
    have hcount := hw.pending
    rw [Bool.not_eq_true] at hp
    rw [hp] at hcount
    rw [any_eq_false_of_countP hcount] at hworks
    cases hworks
  have hcount := hw.delayed
  rw [hw.apart hp] at hcount
  rw [any_eq_false_of_countP hcount] at hdelay
  cases hdelay

theorem Sound.any_delayed (h : s.Sound) (hd : (s.wk w).delayed = true) : s.delayWorks.any (·.1 == w) = true := by
  by_contra hno
  have hcount := (h.fits w).delayed
  rw [Bool.not_eq_true, List.any_eq_false] at hno
  rw [hd, List.countP_eq_zero.mpr hno] at hcount
  cases hcount

theorem Inv.lose (hs : s.Inv) {a : WqAct W} (ht : (a.next s).ListsOk) : a.InTurn s := by
  have hqueue : ∀ w, (s.ieee80211AtbmQueueWork w).1.ListsOk → s.MayLink w := by
    intro w ht
    by_contra hno
    simp only [MayLink, not_or, Bool.not_eq_true, Bool.not_eq_false] at hno
    obtain ⟨hp, hd, hthread⟩ := hno
    apply ht.apart w
    unfold ieee80211AtbmQueueWork AtbmWq.queueWork
    rw [if_neg (by simp [hp]), hthread]
    refine ⟨?_, hs.sound.any_delayed hd⟩
    show (s.works ++ [WkEntry.work w s.issued]).any (WkEntry.isWork w) = true
    simp [WkEntry.isWork]
  cases a with
  | queueWork w => exact hqueue w ht
  | queueDelayedWork w delay =>
    have ht : (s.ieee80211AtbmQueueDelayedWork w delay).1.ListsOk := ht
    unfold ieee80211AtbmQueueDelayedWork at ht
    show if delay = 0 then s.MayLink w else s.MayArm w
    by_cases hp : (s.wk w).pending = true
    · split
      · exact .inl hp
      · exact .inl hp
    · rw [if_neg hp] at ht
      by_cases hdelay : delay = 0
      · rw [if_pos hdelay] at ht ⊢
        exact hqueue w ht
      · rw [if_neg hdelay] at ht ⊢
        by_contra hno
        simp only [MayArm, not_or, Bool.not_eq_false, ne_eq, not_not] at hno
        obtain ⟨-, harmed, hthread⟩ := hno
        have hd := (hs.sound.delayed_of_timer (w := w) (by simp [harmed])).1
        rw [if_pos hd, harmed] at ht
        have hlost := ht.kept (s.delayCall w, .lost)
        rw [if_pos hthread] at hlost
        refine (hlost ?_).1 rfl
        show _ ∈ ((((s.stopTimer w).clearDelayWork w).settle [s.delayCall w] .lost).queueDelayedWork w).1.fate
        rw [queueDelayedWork_fate]
        exact List.mem_append_right _ List.mem_cons_self
  | _ => trivial

end AtbmWq

variable {W : Type} [DecidableEq W]

/-- In every state of a run a work is on `works` iff it is pending, on `delay_works` iff it is delayed with its
timer armed or firing, and never on both, and each queue call that returned true is run once at most and
ends without having run only if it is cancelled or the queue destroyed, iff every step is in turn. -/
theorem workqueue_lists {l : List (AtbmWq W × WqAct W)} {t : AtbmWq W}
    (h : Path (workqueues W) (atbmWqStart W) l t) :
    ((∀ p ∈ l, p.1.ListsOk) ∧ t.ListsOk) ↔ ∀ p ∈ l, p.2.InTurn p.1 := by
  have hstart : (atbmWqStart W).Inv := ⟨.start, .refl _, nofun⟩
  apply h.exact (I := AtbmWq.Inv)
  · rintro s a _ hI - ⟨ha, rfl⟩ hC
    have := hI.step ha.2.2 hC
    exact ⟨this, this.listsOk⟩
  · rintro s a _ hI - ⟨-, rfl⟩ ht
    exact hI.lose ht
  · exact hstart
  · exact hstart.listsOk

/-- A delayed work is flushed before its time, runs and is cancelled while it is delayed again. -/
def wqRun : List (WqAct Nat) :=
  [.queueDelayedWork 7 5, .call (.flushDelayedWork 7), .take, .second 0, .queueDelayedWork 7 5, .finish, .take,
    .finish, .wake 0, .expire 7, .call (.cancelDelayedWorkSync 7), .timerFn 7, .second 1]

theorem workqueue_lists_flushed :
    ((∀ p ∈ trace WqAct.next (atbmWqStart Nat) wqRun, p.1.ListsOk) ∧
        (wqRun.foldl WqAct.next (atbmWqStart Nat)).ListsOk) ∧
      (wqRun.foldl WqAct.next (atbmWqStart Nat)).fate = [(0, .run), (1, .cancelled)] := by
  have hfires : Fires (fun s a => a.Enabled s) WqAct.next (atbmWqStart Nat) wqRun := by decide
  exact ⟨(workqueue_lists (Path.ofFires hfires)).mpr (by decide), by decide⟩

/-- A delayed work is queued again with no delay, as `scan_work` is. -/
theorem workqueue_links_twice :
    ∃ l t, Path (workqueues Nat) (atbmWqStart Nat) l t ∧ ¬t.ListsOk := by
  have hfires : Fires (fun s a => a.Enabled s) WqAct.next (atbmWqStart Nat)
      [.queueDelayedWork 7 5, .queueDelayedWork 7 0] := by decide
  refine ⟨_, _, Path.ofFires hfires, fun h => ?_⟩
  exact h.apart 7 (by decide)

end AtbmWifi
