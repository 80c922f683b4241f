import AtbmWifi.Mac80211.Offchannel
import Mathlib.Data.List.Perm.Basic

/-!
# Every request is in one place and ends once

`RocBook` compares the requests there are with what has been reported: a request is there until it is freed, and
then it has been freed once; one that listens has been reported expired once, and the frame of one that sends has
been transmitted or reported as failed, not both.  Every step of `Offch.next` keeps it, `book_next`.
-/

namespace AtbmWifi

open Transition

def freedIds (R : List RocReport) : List Nat :=
  R.filterMap fun
    | .freed i _ => some i
    | _ => none

/-- How often request `i` was reported expired, transmitted and failed. -/
def tally (R : List RocReport) (i : Nat) : Nat × Nat × Nat :=
  (R.count (.expired i), R.count (.transmitted i), R.count (.failed i))

namespace RocReport

def about : RocReport → Nat
  | ready i | transmitted i | failed i | expired i | freed i _ => i

end RocReport

theorem freedIds_append (R S : List RocReport) : freedIds (R ++ S) = freedIds R ++ freedIds S :=
  List.filterMap_append

theorem tally_append (R S : List RocReport) (i : Nat) :
    tally (R ++ S) i = ((tally R i).1 + (tally S i).1, (tally R i).2.1 + (tally S i).2.1,
      (tally R i).2.2 + (tally S i).2.2) := by
  simp only [tally, List.count_append]

theorem tally_of_about {S : List RocReport} {i : Nat} (h : ∀ x ∈ S, x.about ≠ i) : tally S i = (0, 0, 0) := by
  have h0 : ∀ x : RocReport, x.about = i → S.count x = 0 := fun x hx =>
    List.count_eq_zero.mpr fun hm => h x hm hx
  rw [tally, h0 _ rfl, h0 _ rfl, h0 _ rfl]

theorem tally_append_of_about {R S : List RocReport} {i : Nat} (h : ∀ x ∈ S, x.about ≠ i) :
    tally (R ++ S) i = tally R i := by
  rw [tally_append, tally_of_about h]
  rfl

theorem tally_perm {R S : List RocReport} (h : R.Perm S) (i : Nat) : tally R i = tally S i := by
  simp only [tally, h.count_eq]

namespace RocWork

def core (r : RocWork) : Nat × Bool × Bool × Bool × Nat := (r.id, r.mgmt, r.frame, r.notified, r.key)

/-- A request that is there: its frame is gone when it has been transmitted. -/
structure Live (R : List RocReport) (c : Nat × Bool × Bool × Bool × Nat) : Prop where
  tally : tally R c.1 = (0, (c.2.1 && !c.2.2.1).toNat, 0)
  frame : c.2.2.1 → c.2.1
  notified : c.2.2.2.1 = false → c.2.2.1 = c.2.1
  key : c.2.2.2.2 ≠ 0

end RocWork

def RocEnded (R : List RocReport) (i : Nat) (mgmt : Bool) : Prop :=
  if mgmt then (tally R i).1 = 0 ∧ (tally R i).2.1 + (tally R i).2.2 = 1
  else tally R i = (1, 0, 0)

/-- The requests `L`, the reports `R` and the number of requests accepted agree. -/
structure RocBook (L : List RocWork) (R : List RocReport) (n : Nat) : Prop where
  all : (L.map RocWork.id ++ freedIds R).Perm (List.range n)
  live : ∀ r ∈ L, RocWork.Live R r.core
  ended : ∀ i m, .freed i m ∈ R → RocEnded R i m
  silent : ∀ x ∈ R, x.about < n

namespace RocBook

variable {L L' : List RocWork} {R S : List RocReport} {n : Nat} {r : RocWork}

theorem congr (h : RocBook L R n) (hp : (L'.map RocWork.core).Perm (L.map RocWork.core)) : RocBook L' R n where
  all := by
    have := hp.map Prod.fst
    rw [List.map_map, List.map_map] at this
    exact (this.append_right _).trans h.all
  live r hr := by
    obtain ⟨r', hr', he⟩ := List.mem_map.mp (hp.mem_iff.mp (List.mem_map_of_mem hr))
    rw [← he]
    exact h.live r' hr'
  ended := h.ended
  silent := h.silent

theorem perm (h : RocBook L R n) (hp : L'.Perm L) : RocBook L' R n := h.congr (hp.map _)

theorem permReports (h : RocBook L R n) (hp : S.Perm R) : RocBook L S n where
  all := ((List.Perm.filterMap _ hp).append_left _).trans h.all
  live r hr := by
    obtain ⟨h1, h2, h3, h4⟩ := h.live r hr
    exact ⟨(tally_perm hp _).trans h1, h2, h3, h4⟩
  ended i m hm := by
    have := h.ended i m (hp.mem_iff.mp hm)
    unfold RocEnded at this ⊢
    rw [tally_perm hp]
    exact this
  silent x hx := h.silent x (hp.mem_iff.mp hx)

theorem empty : RocBook [] [] 0 := ⟨.refl _, nofun, nofun, nofun⟩

theorem tally_new (h : RocBook L R n) : tally R n = (0, 0, 0) :=
  tally_of_about fun x hx => Nat.ne_of_lt (h.silent x hx)

theorem accept (h : RocBook L R n) (hid : r.id = n) (hn : r.notified = false) (hf : r.frame = r.mgmt)
    (hk : r.key ≠ 0) : RocBook (r :: L) R (n + 1) where
  all := by
    rw [List.range_succ, List.map_cons, List.cons_append, hid]
    exact (h.all.cons n).trans (List.perm_append_singleton n _).symm
  live q hq := by
    rcases List.mem_cons.mp hq with rfl | hq
    · refine ⟨?_, fun h => hf.symm.trans h, fun _ => hf, hk⟩
      show tally R q.id = (0, (q.mgmt && !q.frame).toNat, 0)
      rw [hid, h.tally_new, hf, Bool.and_not_self]
      rfl
    · exact h.live q hq
  ended := h.ended
  silent x hx := Nat.lt_succ_of_lt (h.silent x hx)

theorem id_lt (h : RocBook L R n) (hr : r ∈ L) : r.id < n :=
  List.mem_range.mp (h.all.mem_iff.mp (List.mem_append_left _ (List.mem_map_of_mem hr)))

theorem freed_of_mem {i : Nat} {m : Bool} (h : RocReport.freed i m ∈ R) : i ∈ freedIds R :=
  List.mem_filterMap.mpr ⟨_, h, rfl⟩

theorem apart (h : RocBook (r :: L) R n) : (∀ q ∈ L, q.id ≠ r.id) ∧ r.id ∉ freedIds R := by
  have hnd : (((r :: L).map RocWork.id) ++ freedIds R).Nodup := h.all.nodup_iff.mpr List.nodup_range
  rw [List.map_cons, List.cons_append, List.nodup_cons] at hnd
  refine ⟨fun q hq he => hnd.1 ?_, fun hm => hnd.1 (List.mem_append_right _ hm)⟩
  exact List.mem_append_left _ (he ▸ List.mem_map_of_mem hq)

theorem others (h : RocBook (r :: L) R n) (hS : ∀ x ∈ S, x.about = r.id) :
    (∀ q ∈ L, RocWork.Live (R ++ S) q.core) ∧
      (∀ i m, .freed i m ∈ R → RocEnded (R ++ S) i m) ∧ ∀ x ∈ R ++ S, x.about < n := by
  obtain ⟨hne, hfr⟩ := h.apart
  refine ⟨fun q hq => ?_, fun i m hm => ?_, fun x hx => ?_⟩
  · obtain ⟨h1, h2, h3, h4⟩ := h.live q (List.mem_cons_of_mem _ hq)
    refine ⟨?_, h2, h3, h4⟩
    rw [tally_append_of_about]
    · exact h1
    · intro x hx
      rw [hS x hx]
      exact (hne q hq).symm
  · have := h.ended i m hm
    unfold RocEnded at this ⊢
    rw [tally_append_of_about]
    · exact this
    · intro x hx
      rw [hS x hx]
      rintro rfl
      exact hfr (freed_of_mem hm)
  · rcases List.mem_append.mp hx with hx | hx
    · exact h.silent x hx
    · rw [hS x hx]
      exact h.id_lt List.mem_cons_self

theorem about_handled {x : RocReport} (hx : x ∈ r.handleRocStarted.2) : x.about = r.id := by
  unfold RocWork.handleRocStarted at hx
  split at hx
  · cases hx
  · split at hx
    · split at hx
      · rw [List.mem_singleton.mp hx]
        rfl
      · cases hx
    · rw [List.mem_singleton.mp hx]
      rfl

theorem about_destroyed {x : RocReport} (hx : x ∈ r.notifyDestroy) : x.about = r.id := by
  unfold RocWork.notifyDestroy RocWork.ownReports at hx
  simp only [List.append_assoc, List.mem_append, List.mem_singleton] at hx
  rcases hx with hx | hx | hx | rfl
  · split at hx
    · rw [List.mem_singleton.mp hx]; rfl
    · cases hx
  · split at hx
    · rw [List.mem_singleton.mp hx]; rfl
    · cases hx
  · split at hx
    · cases hx
    · rw [List.mem_singleton.mp hx]; rfl
  · rfl

theorem handled (h : RocBook (r :: L) R n) : RocBook (r.handleRocStarted.1 :: L) (R ++ r.handleRocStarted.2) n := by
  obtain ⟨h1, h2, h3⟩ := h.others (S := r.handleRocStarted.2) fun x hx => about_handled hx
  have hl := h.live r List.mem_cons_self
  have hid : r.handleRocStarted.1.id = r.id := by
    unfold RocWork.handleRocStarted
    split <;> [rfl; split] <;> rfl
  have hfr : freedIds r.handleRocStarted.2 = [] := by
    unfold RocWork.handleRocStarted
    split <;> [rfl; split] <;> [skip; rfl]
    split <;> rfl
  refine ⟨?_, fun q hq => ?_, fun i m hm => ?_, h3⟩
  · rw [freedIds_append, hfr, List.append_nil, List.map_cons, hid]
    exact h.all
  · rcases List.mem_cons.mp hq with rfl | hq
    · unfold RocWork.handleRocStarted
      obtain ⟨ht, hf, hn, hk⟩ := hl
      dsimp only [RocWork.core] at ht hf hn hk
      by_cases hnot : r.notified
      · rw [if_pos hnot, List.append_nil]
        exact ⟨ht, hf, hn, hk⟩
      · rw [if_neg hnot]
        have hfm := hn (Bool.eq_false_iff.mpr hnot)
        by_cases hm : r.mgmt
        · rw [if_pos hm, if_pos (hfm.trans hm)]
          refine ⟨?_, nofun, nofun, hk⟩
          show tally (R ++ [.transmitted r.id]) r.id = (0, (r.mgmt && !false).toNat, 0)
          rw [tally_append, ht, hfm, hm]
          simp [tally]
        · rw [if_neg hm]
          refine ⟨?_, hf, nofun, hk⟩
          show tally (R ++ [.ready r.id]) r.id = (0, (r.mgmt && !r.frame).toNat, 0)
          rw [tally_append, ht]
          simp [tally]
    · exact h1 q hq
  · rcases List.mem_append.mp hm with hm | hm
    · exact h2 i m hm
    · have : i ∈ freedIds r.handleRocStarted.2 := freed_of_mem hm
      rw [hfr] at this
      cases this

theorem tally_destroyed (r : RocWork) :
    tally r.notifyDestroy r.id = ((!r.mgmt).toNat, 0, r.frame.toNat) := by
  unfold RocWork.notifyDestroy RocWork.ownReports
  cases r.frame <;> cases r.started <;> cases r.notified <;> cases r.mgmt <;> simp [tally]

theorem destroyed (h : RocBook (r :: L) R n) : RocBook L (R ++ r.notifyDestroy) n := by
  obtain ⟨h1, h2, h3⟩ := h.others (S := r.notifyDestroy) fun x hx => about_destroyed hx
  obtain ⟨ht, hf, -, -⟩ := h.live r List.mem_cons_self
  dsimp only [RocWork.core] at ht hf
  have hfr : freedIds r.ownReports = [] ∧ ∀ i m, .freed i m ∉ r.ownReports := by
    unfold RocWork.ownReports
    constructor
    · cases r.frame <;> cases r.started <;> cases r.notified <;> cases r.mgmt <;> rfl
    · intro i m
      cases r.frame <;> cases r.started <;> cases r.notified <;> cases r.mgmt <;> simp
  refine ⟨?_, h1, fun i m hm => ?_, h3⟩
  · have : freedIds (R ++ r.notifyDestroy) = freedIds R ++ [r.id] := by
      rw [RocWork.notifyDestroy, freedIds_append, freedIds_append, hfr.1]
      rfl
    rw [this, ← List.append_assoc]
    exact (List.perm_append_singleton _ _).trans h.all
  · rcases List.mem_append.mp hm with hm | hm
    · exact h2 i m hm
    · rcases List.mem_append.mp hm with hm | hm
      · exact absurd hm (hfr.2 i m)
      · cases List.mem_singleton.mp hm
        unfold RocEnded
        rw [tally_append, ht, tally_destroyed]
        by_cases hm : r.mgmt
        · rw [if_pos hm, hm]
          cases r.frame <;> exact ⟨rfl, rfl⟩
        · have hff : r.frame = false := Bool.eq_false_iff.mpr fun h => hm (hf h)
          rw [if_neg hm, Bool.eq_false_iff.mpr hm, hff]
          rfl

theorem destroyedAll {D : List RocWork} (h : RocBook (D ++ L) R n) :
    RocBook L (R ++ D.flatMap RocWork.notifyDestroy) n := by
  induction D generalizing R with
  | nil => simpa using h
  | cons r D ih =>
    have := ih (destroyed h)
    rwa [List.append_assoc] at this

end RocBook

/-- The requests of `roc_list`, each with its dependents. -/
def rocListed (l : List RocEntry) : List RocWork := l.flatMap fun e => e.toRocWork :: e.dependents

theorem rocListed_cons (e : RocEntry) (l : List RocEntry) :
    rocListed (e :: l) = e.toRocWork :: (e.dependents ++ rocListed l) := rfl

theorem rocListed_append (l m : List RocEntry) : rocListed (l ++ m) = rocListed l ++ rocListed m :=
  List.flatMap_append

theorem rocListed_leaves (l : List RocWork) : rocListed (l.map (RocEntry.mk · [])) = l := by
  induction l with
  | nil => rfl
  | cons r l ih => rw [List.map_cons, rocListed_cons, ih]; rfl

theorem notifyDestroy_perm (e : RocEntry) :
    e.notifyDestroy.Perm ((e.toRocWork :: e.dependents).flatMap RocWork.notifyDestroy) := by
  rw [RocEntry.notifyDestroy, List.flatMap_cons, RocWork.notifyDestroy, List.append_assoc, List.append_assoc]
  exact List.perm_append_comm.append_left _

theorem notifyDestroy_flatMap_perm (l : List RocEntry) :
    (l.flatMap RocEntry.notifyDestroy).Perm ((rocListed l).flatMap RocWork.notifyDestroy) := by
  induction l with
  | nil => exact .refl _
  | cons e l ih =>
    rw [rocListed_cons, ← List.cons_append, List.flatMap_cons, List.flatMap_append]
    exact (notifyDestroy_perm e).append ih

namespace RocBook

variable {L : List RocWork} {R : List RocReport} {n : Nat}

theorem destroyedEntry {e : RocEntry} (h : RocBook (e.toRocWork :: (e.dependents ++ L)) R n) :
    RocBook L (R ++ e.notifyDestroy) n :=
  (destroyedAll (D := e.toRocWork :: e.dependents) h).permReports ((notifyDestroy_perm e).append_left R)

theorem dependents (dur : Nat) {deps : List RocWork} (h : RocBook (deps ++ L) R n) :
    RocBook ((Offch.handleDependents dur deps).2.1 ++ (Offch.handleDependents dur deps).2.2.1 ++ L)
      (R ++ (Offch.handleDependents dur deps).2.2.2) n := by
  induction deps generalizing dur L R with
  | nil => simpa [Offch.handleDependents] using h
  | cons dep deps ih =>
    have h1 : RocBook (deps ++ dep.handleRocStarted.1 :: L) (R ++ dep.handleRocStarted.2) n :=
      (handled h).perm List.perm_middle
    unfold Offch.handleDependents
    dsimp only
    split
    · have h2 := ih dep.duration h1
      simp only [List.append_assoc] at h2 ⊢
      refine h2.congr ?_
      simp only [List.map_append, List.map_cons, List.cons_append, List.nil_append]
      exact .refl _
    · have h2 := ih dur h1
      simp only [List.append_assoc] at h2 ⊢
      refine h2.perm ?_
      rw [List.cons_append, ← List.append_assoc, ← List.append_assoc]
      exact List.perm_middle.symm

theorem combined {c : RocStartChoice} {roc : RocWork} {l : List RocEntry} {p : List RocEntry × List RocReport}
    (hp : Offch.checkCombine c roc l = some p) (h : RocBook (roc :: (rocListed l ++ L)) R n) :
    RocBook (rocListed p.1 ++ L) (R ++ p.2) n := by
  induction l generalizing p L with
  | nil => cases hp
  | cons tmp rest ih =>
    rw [rocListed_cons] at h
    have hlast : ∀ r : RocWork, ∀ deps : List RocWork, (tmp.toRocWork :: (deps ++ [r] ++ rocListed rest) ++ L).Perm
        (r :: (tmp.toRocWork :: (deps ++ rocListed rest) ++ L)) := by
      intro r deps
      simp only [List.append_assoc, List.cons_append, List.nil_append]
      exact ((List.perm_middle).cons _).trans (.swap _ _ _)
    unfold Offch.checkCombine at hp
    split at hp
    · obtain ⟨q, hq, rfl⟩ := Option.map_eq_some_iff.mp hp
      have h1 : RocBook (roc :: (rocListed rest ++ (tmp.toRocWork :: tmp.dependents ++ L))) R n := by
        refine h.perm (.cons _ ?_)
        rw [← List.cons_append, ← List.append_assoc]
        exact List.perm_append_comm.append_right _
      refine (ih hq h1).perm ?_
      rw [rocListed_cons, ← List.cons_append, ← List.append_assoc]
      exact List.perm_append_comm.append_right _
    split at hp
    · cases hp
      rw [List.append_nil]
      refine h.congr (List.Perm.trans ?_ ((hlast roc tmp.dependents).map RocWork.core))
      simp only [rocListed_cons, List.cons_append, List.map_cons]
      exact .refl _
    split at hp
    · cases hp
      rw [List.append_nil]
      exact h.perm (hlast roc tmp.dependents)
    split at hp
    · have h1 := handled h
      split at hp
      · cases hp
        refine h1.perm ?_
        simp only [rocListed_cons, List.cons_append, List.nil_append, List.append_assoc]
        exact ((List.perm_middle).cons _).trans (.swap _ _ _)
      · cases hp
        exact h1.perm (hlast _ tmp.dependents)
    · cases hp

end RocBook

theorem findDependent_perm {p : RocWork → Bool} {deps : List RocWork} {q : RocWork × List RocWork}
    (h : Offch.findDependent p deps = some q) : deps.Perm (q.1 :: q.2) := by
  induction deps generalizing q with
  | nil => cases h
  | cons dep deps ih =>
    unfold Offch.findDependent at h
    split at h
    · cases h
      exact .refl _
    · obtain ⟨q', hq, rfl⟩ := Option.map_eq_some_iff.mp h
      exact ((ih hq).cons _).trans (.swap _ _ _)

/-- The requests that `ieee80211_cancel_roc` takes out. -/
def Offch.Found.taken : Offch.Found → List RocWork × List RocEntry
  | .dependent dep l => ([dep], l)
  | .entry e l => (e.toRocWork :: e.dependents, l)

theorem findRoc_perm {p : RocWork → Bool} {l : List RocEntry} {f : Offch.Found}
    (h : Offch.findRoc p l = some f) : (rocListed l).Perm (f.taken.1 ++ rocListed f.taken.2) := by
  induction l generalizing f with
  | nil => cases h
  | cons roc rest ih =>
    unfold Offch.findRoc at h
    rw [rocListed_cons]
    split at h
    next q hq =>
      cases h
      refine (((findDependent_perm hq).append_right (rocListed rest)).cons _).trans ?_
      exact .swap _ _ _
    next =>
      split at h
      · cases h
        exact .refl _
      · have hmove : ∀ {f' : Offch.Found}, Offch.findRoc p rest = some f' →
            (roc.toRocWork :: (roc.dependents ++ rocListed rest)).Perm
              (f'.taken.1 ++ (roc.toRocWork :: (roc.dependents ++ rocListed f'.taken.2))) := by
          intro f' hf
          have := ((ih hf).append_left roc.dependents).cons roc.toRocWork
          refine this.trans ?_
          rw [← List.cons_append, ← List.append_assoc, ← List.cons_append, ← List.append_assoc]
          exact List.perm_append_comm.append_right _
        split at h
        · cases h
        next hf => cases h; exact hmove hf
        next hf => cases h; exact hmove hf

namespace Offch

def requests (s : Offch) : List RocWork := rocListed s.rocList ++ s.rocPendding.toList

def Book (s : Offch) : Prop := RocBook s.requests s.reports s.accepted

theorem report_nil (s : Offch) : s.report [] = s := by
  unfold report
  rw [List.append_nil]

theorem drvCancel_lists (s : Offch) (sync : Bool) :
    (s.drvCancelRemainOnChannel sync).rocList = s.rocList ∧
      (s.drvCancelRemainOnChannel sync).rocPendding = s.rocPendding ∧
      (s.drvCancelRemainOnChannel sync).reports = s.reports ∧
      (s.drvCancelRemainOnChannel sync).accepted = s.accepted := by
  unfold drvCancelRemainOnChannel
  split <;> [skip; split] <;> exact ⟨rfl, rfl, rfl, rfl⟩

theorem drvCancels_lists (s : Offch) (sync : Bool) (l : List RocEntry) :
    let t := l.foldl (fun s _ => s.drvCancelRemainOnChannel sync) s
    t.rocList = s.rocList ∧ t.rocPendding = s.rocPendding ∧ t.reports = s.reports ∧ t.accepted = s.accepted := by
  induction l generalizing s with
  | nil => exact ⟨rfl, rfl, rfl, rfl⟩
  | cons e l ih =>
    obtain ⟨h1, h2, h3, h4⟩ := ih (s.drvCancelRemainOnChannel sync)
    obtain ⟨g1, g2, g3, g4⟩ := s.drvCancel_lists sync
    exact ⟨h1.trans g1, h2.trans g2, h3.trans g3, h4.trans g4⟩

theorem startNext_lists (s : Offch) (drvOk : Bool) :
    (s.startNextRoc drvOk).requests.map RocWork.core = s.requests.map RocWork.core ∧
      (s.startNextRoc drvOk).reports = s.reports ∧ (s.startNextRoc drvOk).accepted = s.accepted := by
  unfold startNextRoc
  split
  next => exact ⟨rfl, rfl, rfl⟩
  next r rest hl =>
    split
    · exact ⟨rfl, rfl, rfl⟩
    · have : (requests { s with rocList := { r with started := true } :: rest }).map RocWork.core
          = s.requests.map RocWork.core := by
        unfold requests
        rw [hl]
        rfl
      dsimp only
      split <;> exact ⟨this, rfl, rfl⟩

variable {s : Offch}

theorem book_startNext {X : List RocReport} (h : (s.report X).Book) (drvOk : Bool) :
    ((s.startNextRoc drvOk).report X).Book := by
  obtain ⟨h1, h2, h3⟩ := s.startNext_lists drvOk
  unfold Book report at h ⊢
  dsimp only at h ⊢
  rw [h2, h3]
  exact h.congr (h1 ▸ .refl _)

theorem nextCookie_ne_zero (c : Nat) : nextCookie c ≠ 0 := by
  unfold nextCookie
  split
  · exact Nat.one_ne_zero
  next h => exact h

theorem book_accept (h : s.Book) {roc : RocWork} (hid : roc.id = s.accepted)
    (hn : roc.notified = false) (hf : roc.frame = roc.mgmt) (hk : roc.key ≠ 0) :
    RocBook (roc :: (rocListed s.rocList ++ s.rocPendding.toList)) s.reports (s.accepted + 1) :=
  RocBook.accept h hid hn hf hk

theorem book_startRoc (h : s.Book) {q : RocRequest} (hq : q.frame ≠ some 0) (c : RocStartChoice) :
    (s.startRocWork q c).Book := by
  unfold startRocWork
  split
  · exact h
  · dsimp only
    generalize hroc : RocWork.mk s.accepted q.sdata q.chan q.duration _ _ _ false false false = roc
    have hid : roc.id = s.accepted := by rw [← hroc]
    have hn : roc.notified = false := by rw [← hroc]
    have hf : roc.frame = roc.mgmt := by
      rw [← hroc]
      cases hfr : q.frame with
      | none => rfl
      | some a =>
        have ha : a ≠ 0 := fun e => hq (by rw [hfr, e])
        exact (bne_iff_ne.mpr ha).symm
    have hk : roc.key ≠ 0 := by
      rw [← hroc]
      cases hfr : q.frame with
      | none => exact nextCookie_ne_zero _
      | some a =>
        have ha : a ≠ 0 := fun e => hq (by rw [hfr, e])
        exact fun e => ha ((if_pos ha).symm.trans e)
    have hacc := book_accept h hid hn hf hk
    split
    · split
      · exact h
      · split
        · refine RocBook.congr hacc (.trans ?_ (List.perm_middle.map _))
          subst hroc
          simp only [drvRemainOnChannel, requests, rocListed_append, rocListed_cons, List.append_assoc,
            List.map_append, List.map_cons]
          exact .refl _
        · exact h
    · split
      next p hp => exact RocBook.combined hp hacc
      next =>
        split
        · refine RocBook.perm hacc (.trans ?_ List.perm_middle)
          simp only [requests, rocListed_append, List.append_assoc]
          exact .refl _
        · split
          next he =>
            obtain ⟨-, hp⟩ := Bool.and_eq_true_iff.mp he
            refine RocBook.perm hacc ?_
            rw [Option.isNone_iff_eq_none.mp hp]
            show (rocListed s.rocList ++ [roc]).Perm _
            rw [Option.toList_none, List.append_nil]
            exact List.perm_append_singleton _ _
          next => exact h

theorem book_hwRocStart (h : s.Book) : s.hwRocStart.Book := by
  unfold hwRocStart
  dsimp only
  split
  next => exact h
  next roc rest hl =>
    split
    · exact h
    · have h1 : RocBook ({ roc.toRocWork with hwBegun := true } ::
          (roc.dependents ++ (rocListed rest ++ s.rocPendding.toList))) s.reports s.accepted := by
        unfold Book requests at h
        rw [show s.rocList = roc :: rest from hl, rocListed_cons] at h
        refine h.congr ?_
        simp only [List.cons_append, List.append_assoc, List.map_cons]
        exact .refl _
      have h2 := RocBook.handled h1
      generalize RocWork.handleRocStarted { roc.toRocWork with hwBegun := true } = p at h2
      have h3 := RocBook.dependents roc.duration (h2.perm List.perm_middle)
      generalize handleDependents roc.duration roc.dependents = d at h3
      show RocBook _ (s.reports ++ (p.2 ++ d.2.2.2)) s.accepted
      rw [← List.append_assoc]
      refine h3.congr ?_
      show (List.map RocWork.core (rocListed (_ :: d.2.2.1.map (RocEntry.mk · []) ++ rest) ++ _)).Perm _
      rw [rocListed_append, rocListed_cons, rocListed_leaves]
      simp only [List.map_append, List.map_cons, List.append_assoc, List.cons_append]
      rw [← List.append_assoc (List.map RocWork.core d.2.1), ← List.append_assoc (List.map RocWork.core d.2.1)]
      exact List.perm_middle.symm

theorem book_hwRocDoneRest (h : s.Book) (drvOk : Bool) : (s.hwRocDoneRest drvOk).Book := by
  unfold hwRocDoneRest
  dsimp only
  split
  next roc rest _ hl =>
    rw [← report_nil (startNextRoc _ _)]
    refine book_startNext ?_ drvOk
    rw [report_nil]
    unfold Book requests at h
    rw [hl, rocListed_cons] at h
    refine RocBook.destroyedEntry (e := roc) (L := rocListed rest ++ s.rocPendding.toList) (h.perm ?_)
    rw [List.cons_append, List.append_assoc]
  next => exact h

theorem filter_none_or (p : RocWork → Bool) (o : Option RocWork) :
    (o.filter p).toList ++ (o.filter fun r => !p r).toList = o.toList := by
  cases o with
  | none => rfl
  | some r => cases hp : p r <;> simp [Option.filter, hp]

theorem book_cancel (h : s.Book) (cookie : Nat) (mgmtTx sync drvOk : Bool) :
    (s.cancelRoc cookie mgmtTx sync drvOk).Book := by
  unfold cancelRoc
  dsimp only
  generalize (fun r : RocWork => if mgmtTx then r.mgmtTxCookie == cookie else r.cookie == cookie) = p
  split
  next r hr =>
    have hp := (Option.filter_eq_some_iff.mp hr).1
    unfold Book requests at h
    rw [hp] at h
    refine RocBook.destroyed (r := r) (L := rocListed s.rocList ++ []) (h.perm ?_)
    rw [List.append_nil]
    exact (List.perm_append_singleton _ _).symm
  next =>
    split
    next => exact h
    next dep l hf =>
      refine RocBook.destroyed (r := dep) (L := rocListed l ++ s.rocPendding.toList) (h.perm ?_)
      exact ((findRoc_perm hf).append_right _).symm
    next roc l hf =>
      have h1 : RocBook (rocListed l ++ s.rocPendding.toList) (s.reports ++ roc.notifyDestroy) s.accepted := by
        refine RocBook.destroyedEntry (e := roc) (h.perm ?_)
        have := ((findRoc_perm hf).append_right s.rocPendding.toList).symm
        simpa only [Found.taken, requests, List.cons_append, List.append_assoc] using this
      split
      · obtain ⟨-, g2, g3, g4⟩ := s.drvCancel_lists sync
        refine book_startNext ?_ drvOk
        unfold Book report requests
        dsimp only
        rw [g2, g3, g4]
        exact h1
      · exact h1

theorem book_purge (h : s.Book) (sdata : Nat) (sync : Bool) : (s.rocPurge sdata sync).Book := by
  unfold rocPurge
  dsimp only
  obtain ⟨-, -, g3, g4⟩ := s.drvCancels_lists sync ((s.rocList.filter (·.sdata == sdata)).filter (·.started))
  unfold Book report requests
  dsimp only
  rw [g3, g4]
  have hl : (rocListed (s.rocList.filter (·.sdata == sdata)) ++
      rocListed (s.rocList.filter fun e => !(e.sdata == sdata))).Perm (rocListed s.rocList) := by
    rw [← rocListed_append]
    exact (List.filter_append_perm _ _).flatMap_right _
  have hp := filter_none_or (fun r => r.sdata == sdata) s.rocPendding
  have h1 := RocBook.destroyedAll
    (D := (s.rocPendding.filter (·.sdata == sdata)).toList ++ rocListed (s.rocList.filter (·.sdata == sdata)))
    (L := rocListed (s.rocList.filter fun e => !(e.sdata == sdata)) ++
      (s.rocPendding.filter fun r => !(r.sdata == sdata)).toList) (h.perm ?_)
  · refine h1.permReports (.append_left _ ?_)
    rw [List.flatMap_append]
    exact (notifyDestroy_flatMap_perm _).append_left _
  · unfold requests
    rw [← hp, List.append_assoc, ← List.append_assoc (rocListed _)]
    refine List.perm_append_comm_assoc .. |>.trans ?_
    exact hl.append_right _

theorem book_startPendding (h : s.Book) (c : RocPendingChoice) : (s.startPendding c).Book := by
  unfold startPendding
  split
  next => exact h
  next roc hp =>
    have h1 : ∀ roc' : RocWork, roc'.core = roc.core →
        RocBook (rocListed (s.rocList ++ [RocEntry.mk roc' []]) ++ Option.toList none) s.reports s.accepted := by
      intro roc' hc
      unfold Book requests at h
      rw [hp] at h
      refine h.congr ?_
      rw [rocListed_append]
      simp only [rocListed_cons, List.map_append, List.map_cons, Option.toList_some, Option.toList_none, hc,
        List.append_nil]
      exact .refl _
    split
    · split
      · exact h
      · split <;> exact h1 _ rfl
    · exact h

theorem book_next (h : s.Book) {a : OffchAct} (ha : s.guard a) : (s.next a).Book := by
  cases a with
  | startRoc q c => exact book_startRoc h ha c
  | cancelRoc cookie mgmtTx sync drvOk => exact book_cancel h cookie mgmtTx sync drvOk
  | rocPurge sdata sync => exact book_purge h sdata sync
  | hwRocStart => exact book_hwRocStart h
  | hwRocDoneRest drvOk => exact book_hwRocDoneRest h drvOk
  | scanCompleted drvOk =>
    have := book_startNext (X := []) (s := { s with scanning := false }) (by rw [report_nil]; exact h) drvOk
    rwa [report_nil] at this
  | workPendding c => exact book_startPendding (s := { s with worker := .idle }) h c
  | expired =>
    unfold next
    dsimp only
    split <;> exact h
  | expiredLate =>
    unfold next
    dsimp only
    split <;> exact h
  | hwRocDone =>
    show s.hwRocDone.Book
    unfold hwRocDone
    dsimp only
    split <;> [skip; split] <;> exact h
  | _ => exact h

end Offch

end AtbmWifi
