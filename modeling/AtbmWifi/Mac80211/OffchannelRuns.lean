import AtbmWifi.Mac80211.OffchannelBook

/-!
# The request at the driver

`Offch.Kept` says what is wanted: every request is in one place and ends once, at most one is at the driver, and
when no scan is running the head of `roc_list` has been started and is still at the driver, or its expiry is on
its way to `hw_roc_done`.  `Offch.Orderly` is the condition on a step under which this lasts; a run has it in
every state exactly when every step is orderly, `roc_conserved`.
-/

namespace AtbmWifi

open Transition

namespace Offch

/-- The driver has started `r` and not ended it. -/
def AtDriver (s : Offch) (r : RocEntry) : Prop := (r.id, r.key) ∈ s.active

instance (s : Offch) (r : RocEntry) : Decidable (s.AtDriver r) := inferInstanceAs (Decidable (_ ∈ _))

/-- `hw_roc_done` has matched the head, or will find its cookie. -/
def Due (s : Offch) (r : RocEntry) : Prop :=
  s.done = some true ∨ s.rocCookie = r.key ∧ (s.doneQueued ∨ 0 < s.notifying)

/-- **What is wanted of the requests.** -/
structure Kept (s : Offch) : Prop where
  book : s.Book
  /-- at most one is started and not ended at the driver, and it is the head -/
  atMostOne : s.active.length ≤ 1
  driver : ∀ a ∈ s.active, ∃ r rest, s.rocList = r :: rest ∧ r.started ∧ a = (r.id, r.key)
  /-- nothing is stranded -/
  served : s.scanning = false → ∀ r rest, s.rocList = r :: rest → r.started ∧ (s.AtDriver r ∨ s.Due r)
  noBug : s.bug = false

/-- The condition on a step.
* `ieee80211_roc_purge` does not take the head from before a request of another interface.
* `hw_roc_done` finds the cookie of the head exactly when the driver has ended it: no other request had the same
  cookie, and no expiry came in between the comparison and the write.
* The end of a cancelled request is not reported over the expiry of the head.
* No request comes between the last work and the start of the pending one, and that start does not meet a scan
  or another request (`BUG_ON`). -/
def Orderly (s : Offch) : OffchAct → Prop
  | .rocPurge sdata _ => s.scanning = false → ∀ r rest, s.rocList = r :: rest → r.sdata = sdata →
      ∀ e ∈ rest, e.sdata = sdata
  | .hwRocDoneRest _ => ∀ r rest, s.rocList = r :: rest → (s.done = some true ↔ ¬ s.AtDriver r)
  | .expiredLate => s.scanning = false → s.done ≠ some true → ∀ r rest, s.rocList = r :: rest →
      s.AtDriver r ∨ s.late.head? = some r.key
  | .startRoc _ c => c.suspended = false → c.allocOk → s.rocList = [] → s.scanning = false →
      s.workBusy = false → s.rocPendding = none
  | .workPendding c => s.rocPendding.isSome → (c.timeout || !s.workList) →
      s.scanning = false ∧ s.rocList = []
  | _ => True

/-- What is asked of the head of a list. -/
instance decHead {P : RocEntry → List RocEntry → Prop} [∀ r rest, Decidable (P r rest)] (l : List RocEntry) :
    Decidable (∀ r rest, l = r :: rest → P r rest) :=
  match l with
  | [] => .isTrue nofun
  | r :: rest =>
    decidable_of_iff (P r rest) ⟨fun h _ _ he => by cases he; exact h, fun h => h r rest rfl⟩

instance (s : Offch) (a : OffchAct) : Decidable (s.Orderly a) :=
  match a with
  | .rocPurge .. => inferInstanceAs (Decidable (_ → ∀ r rest, s.rocList = r :: rest → _))
  | .hwRocDoneRest _ => inferInstanceAs (Decidable (∀ r rest, s.rocList = r :: rest → _))
  | .expiredLate => inferInstanceAs (Decidable (_ → _ → ∀ r rest, s.rocList = r :: rest → _))
  | .startRoc .. => inferInstanceAs (Decidable (_ → _ → _ → _ → _ → _))
  | .workPendding _ => inferInstanceAs (Decidable (_ → _ → _ ∧ _))
  | .cancelRoc .. | .ready | .expired | .queueDone | .hwRocStart | .hwRocDone | .scanStart | .scanCompleted _ | .workTest
  | .workBegin | .workLists _ | .workFinish => .isTrue trivial

def Unstarted (l : List RocEntry) : Prop := ∀ e ∈ l, e.started = false

/-- Only the head of the list can have been started, and not during a scan. -/
structure Facts (s : Offch) : Prop where
  tail : Unstarted s.rocList.tail
  leaves : ∀ e ∈ s.rocList, ∀ d ∈ e.dependents, d.started = false
  scanning : s.scanning → Unstarted s.rocList
  done : s.done.isSome → s.scanning = false ∧ ∃ r rest, s.rocList = r :: rest ∧ r.started

structure Served (s : Offch) : Prop where
  atMostOne : s.active.length ≤ 1
  driver : ∀ a ∈ s.active, ∃ r rest, s.rocList = r :: rest ∧ r.started ∧ a = (r.id, r.key)
  served : s.scanning = false → ∀ r rest, s.rocList = r :: rest → r.started ∧ (s.AtDriver r ∨ s.Due r)

variable {s t : Offch} {r : RocEntry} {l : List RocEntry}

theorem Kept.toServed (h : s.Kept) : s.Served := ⟨h.atMostOne, h.driver, h.served⟩

/-- A list with the same head, or the same empty list. -/
def SameHead (l l' : List RocEntry) : Prop :=
  match l, l' with
  | [], [] => True
  | r :: _, r' :: _ => r'.id = r.id ∧ r'.key = r.key ∧ r'.started = r.started
  | _, _ => False

theorem SameHead.refl (l : List RocEntry) : SameHead l l := by
  cases l <;> simp [SameHead]

theorem Served.sameHead (h : s.Served) (hl : SameHead s.rocList t.rocList)
    (ha : t.active = s.active) (hsc : t.scanning = s.scanning)
    (hd : ∀ r r' : RocEntry, r'.key = r.key → s.Due r → t.Due r') : t.Served := by
  have hhead : ∀ r' rest', t.rocList = r' :: rest' →
      ∃ r rest, s.rocList = r :: rest ∧ r'.id = r.id ∧ r'.key = r.key ∧ r'.started = r.started := by
    intro r' rest' he
    rw [he] at hl
    cases hs : s.rocList with
    | nil => rw [hs] at hl; exact hl.elim
    | cons r rest => rw [hs] at hl; exact ⟨r, rest, rfl, hl⟩
  refine ⟨ha ▸ h.atMostOne, fun a hm => ?_, fun hs r' rest' he => ?_⟩
  · rw [ha] at hm
    obtain ⟨r, rest, he, hst, rfl⟩ := h.driver a hm
    rw [he] at hl
    cases ht : t.rocList with
    | nil => rw [ht] at hl; exact hl.elim
    | cons r' rest' =>
      rw [ht] at hl
      obtain ⟨h1, h2, h3⟩ := hl
      exact ⟨r', rest', rfl, h3.trans hst, by rw [h1, h2]⟩
  · obtain ⟨r, rest, he', h1, h2, h3⟩ := hhead r' rest' he
    obtain ⟨g1, g2⟩ := h.served (hsc ▸ hs) r rest he'
    refine ⟨h3.trans g1, g2.imp (fun g => ?_) fun g => hd r r' h2 g⟩
    unfold AtDriver at g ⊢
    rw [h1, h2, ha]
    exact g

theorem Served.active_nil (h : s.Served) (hu : Unstarted s.rocList) : s.active = [] := by
  refine List.eq_nil_iff_forall_not_mem.mpr fun a ha => ?_
  obtain ⟨r, rest, he, hst, -⟩ := h.driver a ha
  rw [hu r (he ▸ List.mem_cons_self)] at hst
  cases hst

theorem startNext_served (drvOk : Bool) (hu : Unstarted s.rocList) (ha : s.active = []) :
    (s.startNextRoc drvOk).Served := by
  unfold startNextRoc
  split
  next hl =>
    refine ⟨ha ▸ Nat.zero_le _, fun a hm => ?_, fun _ r rest he => ?_⟩
    · rw [ha] at hm
      cases hm
    · rw [hl] at he
      cases he
  next r rest hl =>
    rw [if_neg (Bool.eq_false_iff.mp (hu r (hl ▸ List.mem_cons_self)))]
    dsimp only
    split
    · refine ⟨?_, fun a hm => ?_, ?_⟩
      · simp [drvRemainOnChannel, ha]
      · simp only [drvRemainOnChannel, ha, List.nil_append, List.mem_singleton] at hm
        exact ⟨_, rest, rfl, rfl, hm⟩
      · rintro - _ _ ⟨⟩
        refine ⟨rfl, .inl ?_⟩
        simp only [AtDriver, drvRemainOnChannel, ha, List.nil_append, List.mem_singleton]
        rfl
    · refine ⟨ha ▸ Nat.zero_le _, fun a hm => ?_, ?_⟩
      · have hm' : a ∈ s.active := hm
        rw [ha] at hm'
        cases hm'
      · rintro - _ _ ⟨⟩
        exact ⟨rfl, .inr (.inr ⟨rfl, .inl rfl⟩)⟩

theorem startNext_fields (s : Offch) (drvOk : Bool) :
    (s.startNextRoc drvOk).bug = s.bug ∧ (s.startNextRoc drvOk).scanning = s.scanning ∧
      (s.startNextRoc drvOk).done = s.done ∧ (s.startNextRoc drvOk).rocList.tail = s.rocList.tail ∧
      ∀ a ∈ s.active, a ∈ (s.startNextRoc drvOk).active := by
  unfold startNextRoc
  split
  next => exact ⟨rfl, rfl, rfl, rfl, fun _ h => h⟩
  next r rest hl =>
    split
    · exact ⟨rfl, rfl, rfl, rfl, fun _ h => h⟩
    · dsimp only
      split
      · exact ⟨rfl, rfl, rfl, by rw [hl]; rfl, fun a h => List.mem_append_left _ h⟩
      · exact ⟨rfl, rfl, rfl, by rw [hl]; rfl, fun a h => h⟩

theorem startNext_ids (s : Offch) (drvOk : Bool) :
    ∀ e ∈ (s.startNextRoc drvOk).rocList, ∃ e' ∈ s.rocList, e.id = e'.id ∧ e.dependents = e'.dependents := by
  unfold startNextRoc
  split
  next => exact fun e he => ⟨e, he, rfl, rfl⟩
  next r rest hl =>
    split
    · exact fun e he => ⟨e, he, rfl, rfl⟩
    · have : ∀ e ∈ ({ r with started := true } : RocEntry) :: rest,
          ∃ e' ∈ s.rocList, e.id = e'.id ∧ e.dependents = e'.dependents := by
        intro e he
        rw [hl]
        rcases List.mem_cons.mp he with rfl | he
        · exact ⟨r, List.mem_cons_self, rfl, rfl⟩
        · exact ⟨e, List.mem_cons_of_mem _ he, rfl, rfl⟩
      dsimp only
      split <;> exact this

theorem startNext_facts (drvOk : Bool) (hsc : s.scanning = false) (hd : s.done = none)
    (hu : Unstarted s.rocList) (hl : ∀ e ∈ s.rocList, ∀ d ∈ e.dependents, d.started = false) :
    (s.startNextRoc drvOk).Facts := by
  obtain ⟨-, h2, h3, h4, -⟩ := s.startNext_fields drvOk
  refine ⟨?_, fun e he => ?_, fun h => ?_, fun h => ?_⟩
  · rw [h4]
    exact fun e he => hu e (List.mem_of_mem_tail he)
  · obtain ⟨e', he', -, hde⟩ := s.startNext_ids drvOk e he
    rw [hde]
    exact hl e' he'
  · rw [h2, hsc] at h
    cases h
  · rw [h3, hd] at h
    cases h

structure Good (s : Offch) : Prop where
  served : s.Served
  facts : s.Facts
  noBug : s.bug = false

theorem Good.same (h : s.Good) (hl : t.rocList = s.rocList) (ha : t.active = s.active)
    (hsc : t.scanning = s.scanning) (hd : t.done = s.done) (hb : t.bug = s.bug)
    (hdue : ∀ r, s.Due r → t.Due r) : t.Good := by
  refine ⟨h.served.sameHead ?_ ha hsc fun r r' hk hr => ?_, ⟨?_, ?_, ?_, ?_⟩, hb.trans h.noBug⟩
  · rw [hl]
    exact .refl _
  · have := hdue r hr
    unfold Due at this ⊢
    rw [hk]
    exact this
  · rw [hl]
    exact h.facts.tail
  · rw [hl]
    exact h.facts.leaves
  · rw [hl, hsc]
    exact h.facts.scanning
  · rw [hl, hsc, hd]
    exact h.facts.done

theorem Good.list (h : s.Good) (hm : s.done = none) (hl : SameHead s.rocList t.rocList)
    (htail : Unstarted t.rocList.tail) (hleaf : ∀ e ∈ t.rocList, ∀ d ∈ e.dependents, d.started = false)
    (ha : t.active = s.active) (hsc : t.scanning = s.scanning) (hd : t.done = s.done) (hb : t.bug = s.bug)
    (hc : t.rocCookie = s.rocCookie) (hq : t.doneQueued = s.doneQueued) (hn : t.notifying = s.notifying) :
    t.Good := by
  refine ⟨h.served.sameHead hl ha hsc fun r r' hk hr => ?_, ⟨htail, hleaf, fun hs => ?_, fun hdn => ?_⟩,
    hb.trans h.noBug⟩
  · unfold Due at hr ⊢
    rw [hd, hc, hq, hn, hk]
    exact hr
  · have hu := h.facts.scanning (hsc ▸ hs)
    cases ht : t.rocList with
    | nil => exact nofun
    | cons r' rest' =>
      rw [ht] at hl htail
      cases hs' : s.rocList with
      | nil => rw [hs'] at hl; exact hl.elim
      | cons r rest =>
        rw [hs'] at hl hu
        intro e he
        rcases List.mem_cons.mp he with rfl | he
        · exact hl.2.2.trans (hu r List.mem_cons_self)
        · exact htail e he
  · rw [hd, hm] at hdn
    cases hdn

theorem Good.scan (h : s.Good) (hs : s.scanning) (hm : s.done = none) (hu : Unstarted t.rocList)
    (hleaf : ∀ e ∈ t.rocList, ∀ d ∈ e.dependents, d.started = false) (ha : t.active = s.active)
    (hsc : t.scanning = s.scanning) (hd : t.done = s.done) (hb : t.bug = s.bug) : t.Good := by
  have hnil := h.served.active_nil (h.facts.scanning hs)
  refine ⟨⟨?_, fun a hm => ?_, fun h' => ?_⟩, ⟨fun e he => hu e (List.mem_of_mem_tail he), hleaf, fun _ => hu,
    fun hdn => ?_⟩, hb.trans h.noBug⟩
  · rw [ha, hnil]
    exact Nat.zero_le _
  · rw [ha, hnil] at hm
    cases hm
  · rw [hsc, hs] at h'
    cases h'
  · rw [hd, hm] at hdn
    cases hdn

theorem Good.startNext (drvOk : Bool) (hsc : s.scanning = false) (hd : s.done = none)
    (hu : Unstarted s.rocList) (hl : ∀ e ∈ s.rocList, ∀ d ∈ e.dependents, d.started = false)
    (ha : s.active = []) (hb : s.bug = false) : (s.startNextRoc drvOk).Good :=
  ⟨startNext_served drvOk hu ha, startNext_facts drvOk hsc hd hu hl, (s.startNext_fields drvOk).1.trans hb⟩

theorem handle_started (r : RocWork) :
    r.handleRocStarted.1.started = r.started ∧ r.handleRocStarted.1.id = r.id ∧
      r.handleRocStarted.1.key = r.key := by
  unfold RocWork.handleRocStarted
  split <;> [skip; split] <;> exact ⟨rfl, rfl, rfl⟩

theorem dependents_started (dur : Nat) {deps : List RocWork} (h : ∀ d ∈ deps, d.started = false) :
    (∀ d ∈ (handleDependents dur deps).2.1, d.started = false) ∧
      ∀ d ∈ (handleDependents dur deps).2.2.1, d.started = false := by
  induction deps generalizing dur with
  | nil => exact ⟨nofun, nofun⟩
  | cons dep deps ih =>
    have hd : dep.handleRocStarted.1.started = false :=
      (handle_started dep).1.trans (h dep List.mem_cons_self)
    have hrest := fun d hm => h d (List.mem_cons_of_mem _ hm)
    unfold handleDependents
    dsimp only
    split
    · obtain ⟨h1, h2⟩ := ih dep.duration hrest
      refine ⟨h1, fun d hm => ?_⟩
      rcases List.mem_append.mp hm with hm | hm
      · exact h2 d hm
      · rw [List.mem_singleton.mp hm]
        exact hd
    · obtain ⟨h1, h2⟩ := ih dur hrest
      refine ⟨fun d hm => ?_, h2⟩
      rcases List.mem_cons.mp hm with rfl | hm
      · exact hd
      · exact h1 d hm

theorem good_hwRocStart (h : s.Good) (hm : s.done = none) : s.hwRocStart.Good := by
  unfold hwRocStart
  dsimp only
  split
  next => exact h.same rfl rfl rfl rfl rfl fun _ hr => hr
  next roc rest hl =>
    have hl' : s.rocList = roc :: rest := hl
    split
    · exact h.same rfl rfl rfl rfl rfl fun _ hr => hr
    · obtain ⟨g1, g2, g3⟩ := handle_started { roc.toRocWork with hwBegun := true }
      obtain ⟨d1, d2⟩ := dependents_started roc.duration
        (h.facts.leaves roc (hl' ▸ List.mem_cons_self))
      refine h.list hm ?_ ?_ ?_ rfl rfl rfl rfl rfl rfl rfl
      · rw [hl']
        exact ⟨g2, g3, g1⟩
      · have htail := h.facts.tail
        rw [hl'] at htail
        intro e he
        rcases List.mem_append.mp he with he | he
        · obtain ⟨d, hd, rfl⟩ := List.mem_map.mp he
          exact d2 d hd
        · exact htail e he
      · have hleaf := h.facts.leaves
        rw [hl'] at hleaf
        intro e he
        rcases List.mem_cons.mp he with rfl | he
        · exact d1
        rcases List.mem_append.mp he with he | he
        · obtain ⟨d, -, rfl⟩ := List.mem_map.mp he
          exact nofun
        · exact hleaf e (List.mem_cons_of_mem _ he)

theorem good_hwRocDone (h : s.Good) (hm : s.done = none) : s.hwRocDone.Good := by
  -- without a started head, only the queueing of the work is lost
  have hlost : (∀ r rest, s.rocList = r :: rest → r.started = false) →
      Good { s with doneQueued := false } := by
    intro hn
    refine ⟨⟨h.served.atMostOne, h.served.driver, fun hs r rest he => ?_⟩,
      ⟨h.facts.tail, h.facts.leaves, h.facts.scanning, h.facts.done⟩, h.noBug⟩
    have := (h.served.served hs r rest he).1
    rw [hn r rest he] at this
    cases this
  unfold hwRocDone
  dsimp only
  split
  next hl =>
    refine hlost fun r rest he => ?_
    rw [show s.rocList = [] from hl] at he
    cases he
  next roc rest hl =>
    have hl' : s.rocList = roc :: rest := hl
    split
    next hst =>
      have hsc : s.scanning = false := by
        refine Bool.eq_false_iff.mpr fun hsc => ?_
        have := h.facts.scanning hsc roc (hl' ▸ List.mem_cons_self)
        rw [hst] at this
        cases this
      refine ⟨⟨h.served.atMostOne, h.served.driver, fun hs r rest' he => ?_⟩,
        ⟨h.facts.tail, h.facts.leaves, h.facts.scanning, fun _ => ⟨hsc, roc, rest, hl', hst⟩⟩, h.noBug⟩
      obtain ⟨g1, g2⟩ := h.served.served hs r rest' he
      refine ⟨g1, g2.imp id fun g => .inl ?_⟩
      rcases g with g | ⟨g, -⟩
      · rw [hm] at g
        cases g
      · have hr : roc = r := (List.cons.inj (hl'.symm.trans he)).1
        rw [hr, g, beq_self_eq_true]
    next hst =>
      refine hlost fun r rest' he => ?_
      have hr : roc = r := (List.cons.inj (hl'.symm.trans he)).1
      rw [← hr]
      exact Bool.eq_false_iff.mpr hst

theorem hwRocDoneRest_true (hd : s.done = some true) {rest : List RocEntry}
    (hl : s.rocList = r :: rest) (drvOk : Bool) :
    s.hwRocDoneRest drvOk =
      (report r.notifyDestroy { s with rocCookie := 0, done := none, rocList := rest }).startNextRoc drvOk := by
  simp only [hwRocDoneRest, hd, hl]

theorem hwRocDoneRest_false (hd : s.done = some false) (drvOk : Bool) :
    s.hwRocDoneRest drvOk = { s with rocCookie := 0, done := none } := by
  simp only [hwRocDoneRest, hd]

theorem good_hwRocDoneRest (h : s.Good) (hs : s.done.isSome) (drvOk : Bool)
    (hC : s.Orderly (.hwRocDoneRest drvOk)) : (s.hwRocDoneRest drvOk).Good := by
  obtain ⟨hsc, r, rest, hl, hst⟩ := h.facts.done hs
  have hC := hC r rest hl
  have htail := h.facts.tail
  have hleaf := h.facts.leaves
  rw [hl] at htail hleaf
  cases hd : s.done with
  | none => rw [hd] at hs; cases hs
  | some m =>
    cases m with
    | true =>
      have hidle : s.active = [] := by
        refine List.eq_nil_iff_forall_not_mem.mpr fun a ha => ?_
        obtain ⟨r', rest', he, -, rfl⟩ := h.served.driver a ha
        have hr : r = r' := (List.cons.inj (hl.symm.trans he)).1
        exact hC.mp hd (hr ▸ ha)
      rw [hwRocDoneRest_true hd hl]
      exact Good.startNext drvOk hsc rfl htail (fun e he => hleaf e (List.mem_cons_of_mem _ he)) hidle h.noBug
    | false =>
      have hat : s.AtDriver r := by
        refine Decidable.byContradiction fun hn => ?_
        have := hC.mpr hn
        rw [hd] at this
        cases this
      rw [hwRocDoneRest_false hd]
      refine ⟨⟨h.served.atMostOne, h.served.driver, fun _ r' rest' he => ?_⟩, ⟨h.facts.tail, h.facts.leaves,
        h.facts.scanning, nofun⟩, h.noBug⟩
      have hr : r = r' := (List.cons.inj (hl.symm.trans he)).1
      exact hr ▸ ⟨hst, .inl hat⟩

theorem findRoc_dependent {p : RocWork → Bool} {l' : List RocEntry} {dep : RocWork}
    (h : findRoc p l = some (.dependent dep l')) :
    SameHead l l' ∧ (Unstarted l.tail → Unstarted l'.tail) ∧
      ((∀ e ∈ l, ∀ d ∈ e.dependents, d.started = false) → ∀ e ∈ l', ∀ d ∈ e.dependents, d.started = false) ∧
      (Unstarted l → Unstarted l') := by
  induction l generalizing l' with
  | nil => cases h
  | cons roc rest ih =>
    unfold findRoc at h
    split at h
    next q hq =>
      cases h
      have hmem : ∀ d ∈ q.2, d ∈ roc.dependents := fun d hd =>
        (findDependent_perm hq).mem_iff.mpr (List.mem_cons_of_mem _ hd)
      refine ⟨⟨rfl, rfl, rfl⟩, id, fun hl e he => ?_, fun hu e he => ?_⟩
      · rcases List.mem_cons.mp he with rfl | he
        · exact fun d hd => hl roc List.mem_cons_self d (hmem d hd)
        · exact hl e (List.mem_cons_of_mem _ he)
      · rcases List.mem_cons.mp he with rfl | he
        · exact hu roc List.mem_cons_self
        · exact hu e (List.mem_cons_of_mem _ he)
    next =>
      split at h
      · cases h
      · split at h
        · cases h
        next hf =>
          cases h
          obtain ⟨-, -, h3, h4⟩ := ih hf
          refine ⟨⟨rfl, rfl, rfl⟩, h4, fun hl e he => ?_, fun hu e he => ?_⟩
          · rcases List.mem_cons.mp he with rfl | he
            · exact hl _ List.mem_cons_self
            · exact h3 (fun e he => hl e (List.mem_cons_of_mem _ he)) e he
          · rcases List.mem_cons.mp he with rfl | he
            · exact hu _ List.mem_cons_self
            · exact h4 (fun e he => hu e (List.mem_cons_of_mem _ he)) e he
        · cases h

theorem findRoc_entry {p : RocWork → Bool} {l' : List RocEntry} {e : RocEntry}
    (h : findRoc p l = some (.entry e l')) : ∃ pre post, l = pre ++ e :: post ∧ l' = pre ++ post := by
  induction l generalizing l' with
  | nil => cases h
  | cons roc rest ih =>
    unfold findRoc at h
    split at h
    · cases h
    · split at h
      · cases h
        exact ⟨[], rest, rfl, rfl⟩
      · split at h
        · cases h
        · cases h
        next hf =>
          cases h
          obtain ⟨pre, post, rfl, rfl⟩ := ih hf
          exact ⟨roc :: pre, post, rfl, rfl⟩

theorem drvCancel_idle (h : s.active.length ≤ 1) (sync : Bool) : (s.drvCancelRemainOnChannel sync).active = [] ∧
      (s.drvCancelRemainOnChannel sync).scanning = s.scanning ∧
      (s.drvCancelRemainOnChannel sync).done = s.done ∧ (s.drvCancelRemainOnChannel sync).bug = s.bug := by
  unfold drvCancelRemainOnChannel
  split
  next ha => exact ⟨ha, rfl, rfl, rfl⟩
  next a rest ha =>
    have hr : rest = [] := by
      rw [ha, List.length_cons] at h
      exact List.length_eq_zero_iff.mp (by omega)
    subst hr
    split <;> exact ⟨rfl, rfl, rfl, rfl⟩

theorem good_report (h : s.Good) (X : List RocReport) : (s.report X).Good :=
  h.same rfl rfl rfl rfl rfl fun _ hr => hr

theorem good_cancel (h : s.Good) (hm : s.done = none) (cookie : Nat) (mgmtTx sync drvOk : Bool) :
    (s.cancelRoc cookie mgmtTx sync drvOk).Good := by
  unfold cancelRoc
  dsimp only
  generalize (fun r : RocWork => if mgmtTx then r.mgmtTxCookie == cookie else r.cookie == cookie) = p
  split
  next => exact h.same rfl rfl rfl rfl rfl fun _ hr => hr
  next =>
    split
    next => exact h
    next dep l hf =>
      obtain ⟨h1, h2, h3, -⟩ := findRoc_dependent hf
      exact h.list hm h1 (h2 h.facts.tail) (h3 h.facts.leaves) rfl rfl rfl rfl rfl rfl rfl
    next roc l hf =>
      obtain ⟨pre, post, hl, rfl⟩ := findRoc_entry hf
      have hmem : ∀ e ∈ pre ++ post, e ∈ s.rocList := by
        intro e he
        rw [hl]
        rcases List.mem_append.mp he with he | he
        · exact List.mem_append_left _ he
        · exact List.mem_append_right _ (List.mem_cons_of_mem _ he)
      have hleaf : ∀ e ∈ pre ++ post, ∀ d ∈ e.dependents, d.started = false :=
        fun e he => h.facts.leaves e (hmem e he)
      have htail := h.facts.tail
      split
      next hst =>
        -- what has been started is the head, and there is no scan
        have hpre : pre = [] := by
          cases pre with
          | nil => rfl
          | cons r pre =>
            rw [hl] at htail
            have := htail roc (List.mem_append_right _ List.mem_cons_self)
            rw [hst] at this
            cases this
        subst hpre
        have hsc : s.scanning = false := by
          refine Bool.eq_false_iff.mpr fun hsc => ?_
          have := h.facts.scanning hsc roc (hl ▸ List.mem_cons_self)
          rw [hst] at this
          cases this
        rw [hl] at htail
        obtain ⟨g1, g2, g3, g4⟩ := drvCancel_idle h.served.atMostOne sync
        refine good_report (Good.startNext (s := { s.drvCancelRemainOnChannel sync with rocList := post }) drvOk
          ?_ ?_ htail hleaf g1 ?_) _
        · exact g2.trans hsc
        · exact g3.trans hm
        · exact g4.trans h.noBug
      next hst =>
        by_cases hsc : s.scanning
        · exact h.scan hsc hm (fun e he => h.facts.scanning hsc e (hmem e he)) hleaf rfl rfl rfl rfl
        · cases pre with
          | nil =>
            have := (h.served.served (Bool.eq_false_iff.mpr hsc) roc post hl).1
            exact absurd this hst
          | cons r pre =>
            rw [hl] at htail
            refine h.list hm ?_ (fun e he => ?_) hleaf rfl rfl rfl rfl rfl rfl rfl
            · rw [hl]
              exact ⟨rfl, rfl, rfl⟩
            · rcases List.mem_append.mp he with he | he
              · exact htail e (List.mem_append_left _ he)
              · exact htail e (List.mem_append_right _ (List.mem_cons_of_mem _ he))

theorem drvCancels_same (sync : Bool) (h : l = [] ∨ s.active = []) :
    l.foldl (fun s _ => s.drvCancelRemainOnChannel sync) s = s := by
  rcases h with rfl | ha
  · rfl
  · induction l with
    | nil => rfl
    | cons e l ih =>
      have : s.drvCancelRemainOnChannel sync = s := by
        unfold drvCancelRemainOnChannel
        rw [ha]
      rw [List.foldl_cons, this]
      exact ih

theorem good_purge (h : s.Good) (hm : s.done = none) {sdata : Nat} {sync : Bool}
    (hC : s.Orderly (.rocPurge sdata sync)) : (s.rocPurge sdata sync).Good := by
  have hmem : ∀ e ∈ s.rocList.filter (fun e => !(e.sdata == sdata)), e ∈ s.rocList := fun e he =>
    (List.mem_filter.mp he).1
  have hleaf : ∀ e ∈ s.rocList.filter (fun e => !(e.sdata == sdata)), ∀ d ∈ e.dependents, d.started = false :=
    fun e he => h.facts.leaves e (hmem e he)
  unfold rocPurge
  refine good_report ?_ _
  by_cases hsc : s.scanning
  · have hu := h.facts.scanning hsc
    rw [drvCancels_same sync (.inr (h.served.active_nil hu))]
    exact h.scan hsc hm (fun e he => hu e (hmem e he)) hleaf rfl rfl rfl rfl
  · have hsc' := Bool.eq_false_iff.mpr hsc
    cases hl : s.rocList with
    | nil =>
      simp only [List.filter_nil, List.foldl_nil]
      refine h.list hm ?_ nofun nofun rfl rfl rfl rfl rfl rfl rfl
      rw [hl]
      exact .refl _
    | cons r rest =>
      have htail := h.facts.tail
      rw [hl] at htail
      by_cases hr : r.sdata = sdata
      · -- everything goes
        have hall : ∀ e ∈ r :: rest, e.sdata == sdata := by
          intro e he
          rcases List.mem_cons.mp he with rfl | he
          · exact beq_iff_eq.mpr hr
          · exact beq_iff_eq.mpr (hC hsc' r rest hl hr e he)
        have hempty : (r :: rest).filter (fun e => !(e.sdata == sdata)) = [] :=
          List.filter_eq_nil_iff.mpr fun e he => by simp [hall e he]
        have hst : (((r :: rest).filter (·.sdata == sdata)).filter (·.started)) = [r] := by
          rw [List.filter_eq_self.mpr hall, List.filter_cons,
            if_pos (h.served.served hsc' r rest hl).1, List.filter_eq_nil_iff.mpr fun e he => by simp [htail e he]]
        rw [hst, hempty]
        obtain ⟨g1, g2, g3, g4⟩ := drvCancel_idle h.served.atMostOne sync
        refine ⟨⟨?_, fun a ha => ?_, fun _ r rest he => ?_⟩, ⟨nofun, nofun, fun _ => nofun, fun hd => ?_⟩, ?_⟩
        · exact Nat.le_trans (Nat.le_of_eq (congrArg List.length g1)) (Nat.zero_le _)
        · have : a ∈ (s.drvCancelRemainOnChannel sync).active := ha
          rw [g1] at this
          cases this
        · cases he
        · have : (s.drvCancelRemainOnChannel sync).done.isSome := hd
          rw [g3, hm] at this
          cases this
        · exact g4.trans h.noBug
      · -- the head stays
        have hst : (((r :: rest).filter (·.sdata == sdata)).filter (·.started)) = [] := by
          refine List.filter_eq_nil_iff.mpr fun e he => ?_
          obtain ⟨he, hs⟩ := List.mem_filter.mp he
          rcases List.mem_cons.mp he with rfl | he
          · exact absurd (beq_iff_eq.mp hs) hr
          · simp [htail e he]
        have hkeep : (r :: rest).filter (fun e => !(e.sdata == sdata))
            = r :: rest.filter (fun e => !(e.sdata == sdata)) := by
          rw [List.filter_cons, if_pos (by simpa using hr)]
        rw [hl] at hleaf
        rw [hst]
        rw [hkeep] at hleaf ⊢
        refine h.list hm ?_ (fun e he => htail e (List.mem_filter.mp he).1) hleaf rfl rfl rfl rfl rfl rfl rfl
        rw [hl]
        exact ⟨rfl, rfl, rfl⟩

theorem checkCombine_shape {c : RocStartChoice} {roc : RocWork} (hroc : roc.started = false)
    {p : List RocEntry × List RocReport} (h : checkCombine c roc l = some p) :
    SameHead l p.1 ∧ (Unstarted l.tail → Unstarted p.1.tail) ∧ (Unstarted l → Unstarted p.1) ∧
      ((∀ e ∈ l, ∀ d ∈ e.dependents, d.started = false) → ∀ e ∈ p.1, ∀ d ∈ e.dependents, d.started = false) := by
  have hadd : ∀ (deps : List RocWork) (r : RocWork), r.started = false → (∀ d ∈ deps, d.started = false) →
      ∀ d ∈ deps ++ [r], d.started = false := by
    intro deps r hr hd d hm
    rcases List.mem_append.mp hm with hm | hm
    · exact hd d hm
    · rw [List.mem_singleton.mp hm]
      exact hr
  have hhandled := (handle_started roc).1.trans hroc
  induction l generalizing p with
  | nil => cases h
  | cons tmp rest ih =>
    -- the first entry gets a dependent
    have hfirst : ∀ (tmp' : RocEntry), tmp'.id = tmp.id → tmp'.key = tmp.key → tmp'.started = tmp.started →
        ((∀ d ∈ tmp.dependents, d.started = false) → ∀ d ∈ tmp'.dependents, d.started = false) →
        SameHead (tmp :: rest) (tmp' :: rest) ∧ (Unstarted rest → Unstarted rest) ∧
          (Unstarted (tmp :: rest) → Unstarted (tmp' :: rest)) ∧
          ((∀ e ∈ tmp :: rest, ∀ d ∈ e.dependents, d.started = false) →
            ∀ e ∈ tmp' :: rest, ∀ d ∈ e.dependents, d.started = false) := by
      intro tmp' h1 h2 h3 h4
      refine ⟨⟨h1, h2, h3⟩, id, fun hu e he => ?_, fun hl e he => ?_⟩
      · rcases List.mem_cons.mp he with rfl | he
        · exact h3.trans (hu tmp List.mem_cons_self)
        · exact hu e (List.mem_cons_of_mem _ he)
      · rcases List.mem_cons.mp he with rfl | he
        · exact h4 (hl tmp List.mem_cons_self)
        · exact hl e (List.mem_cons_of_mem _ he)
    unfold checkCombine at h
    split at h
    · obtain ⟨q, hq, rfl⟩ := Option.map_eq_some_iff.mp h
      obtain ⟨-, -, h3, h4⟩ := ih hq
      refine ⟨⟨rfl, rfl, rfl⟩, h3, fun hu e he => ?_, fun hl e he => ?_⟩
      · rcases List.mem_cons.mp he with rfl | he
        · exact hu _ List.mem_cons_self
        · exact h3 (fun e he => hu e (List.mem_cons_of_mem _ he)) e he
      · rcases List.mem_cons.mp he with rfl | he
        · exact hl _ List.mem_cons_self
        · exact h4 (fun e he => hl e (List.mem_cons_of_mem _ he)) e he
    split at h
    · cases h
      exact hfirst _ rfl rfl rfl (hadd _ roc hroc)
    split at h
    · cases h
      exact hfirst _ rfl rfl rfl (hadd _ roc hroc)
    split at h
    · split at h
      · cases h
        refine ⟨⟨rfl, rfl, rfl⟩, fun hu e he => ?_, fun hu e he => ?_, fun hl e he => ?_⟩
        · rcases List.mem_cons.mp he with rfl | he
          · exact hhandled
          · exact hu e he
        · rcases List.mem_cons.mp he with rfl | he
          · exact hu _ List.mem_cons_self
          rcases List.mem_cons.mp he with rfl | he
          · exact hhandled
          · exact hu e (List.mem_cons_of_mem _ he)
        · rcases List.mem_cons.mp he with rfl | he
          · exact hl _ List.mem_cons_self
          rcases List.mem_cons.mp he with rfl | he
          · exact fun _ hd => absurd hd List.not_mem_nil
          · exact hl e (List.mem_cons_of_mem _ he)
      · cases h
        exact hfirst _ rfl rfl rfl (hadd _ _ hhandled)
    · cases h

/-- One request at the end of an empty list, with the driver idle: it is at the driver, or its failure is due. -/
theorem good_first (h : s.Good) (hm : s.done = none) (hl : s.rocList = [])
    (hr : r.started) (hleaf : ∀ d ∈ r.dependents, d.started = false) (htl : t.rocList = [r])
    (hsc : s.scanning = false) (htsc : t.scanning = s.scanning) (htd : t.done = s.done) (htb : t.bug = s.bug)
    (ha : t.active = [(r.id, r.key)] ∨ t.active = s.active ∧ t.Due r) : t.Good := by
  have hnil : s.active = [] := h.served.active_nil (by rw [hl]; exact nofun)
  refine ⟨⟨?_, fun a hm => ?_, fun _ r' rest' he => ?_⟩, ⟨?_, ?_, ?_, ?_⟩, htb.trans h.noBug⟩
  · rcases ha with ha | ⟨ha, -⟩
    · rw [ha]
      exact Nat.le_refl _
    · rw [ha, hnil]
      exact Nat.zero_le _
  · rcases ha with ha | ⟨ha, -⟩
    · rw [ha] at hm
      exact ⟨r, [], htl, hr, List.mem_singleton.mp hm⟩
    · rw [ha, hnil] at hm
      cases hm
  · rw [htl] at he
    cases he
    refine ⟨hr, ha.imp (fun ha => ?_) And.right⟩
    rw [AtDriver, ha]
    exact List.mem_singleton_self _
  · rw [htl]
    exact nofun
  · rw [htl]
    intro e he
    rw [List.mem_singleton.mp he]
    exact hleaf
  · rw [htsc, hsc]
    exact nofun
  · rw [htd, hm]
    exact nofun

theorem good_startRoc (h : s.Good) (hm : s.done = none) {q : RocRequest} {c : RocStartChoice}
    (hC : s.Orderly (.startRoc q c)) : (s.startRocWork q c).Good := by
  unfold startRocWork
  split
  · exact h
  next hok =>
    simp only [Bool.or_eq_true, Bool.not_eq_true', not_or, Bool.not_eq_true, Bool.not_eq_false] at hok
    dsimp only
    generalize hroc : RocWork.mk s.accepted q.sdata q.chan q.duration _ _ _ false false false = roc
    have hst : roc.started = false := by rw [← hroc]
    split
    next hidle =>
      simp only [Bool.and_eq_true, List.isEmpty_iff, Bool.not_eq_true'] at hidle
      obtain ⟨⟨hl, hsc⟩, hb⟩ := hidle
      rw [hC hok.1 hok.2 hl hsc hb, Option.isSome_none, if_neg Bool.false_ne_true]
      split
      · subst hroc
        rw [hl]
        refine good_first h hm hl ?_ ?_ rfl hsc rfl rfl rfl (.inl ?_)
        · rfl
        · exact fun _ he => absurd he List.not_mem_nil
        · simp only [drvRemainOnChannel, h.served.active_nil (by rw [hl]; exact fun _ he => absurd he List.not_mem_nil)]
          rfl
      · exact h.same rfl rfl rfl rfl rfl fun _ hr => hr
    next hbusy =>
      split
      next p hp =>
        obtain ⟨h1, h2, -, h4⟩ := checkCombine_shape hst hp
        exact h.list hm h1 (h2 h.facts.tail) (h4 h.facts.leaves) rfl rfl rfl rfl rfl rfl rfl
      next =>
        have hleaf : ∀ e ∈ s.rocList ++ [RocEntry.mk roc []], ∀ d ∈ e.dependents, d.started = false := by
          intro e he
          rcases List.mem_append.mp he with he | he
          · exact h.facts.leaves e he
          · rw [List.mem_singleton.mp he]
            exact fun _ he => absurd he List.not_mem_nil
        split
        next hb =>
          cases hl : s.rocList with
          | nil =>
            -- there is a scan
            have hsc : s.scanning := by
              refine Decidable.byContradiction fun hsc => hbusy ?_
              rw [hl, Bool.eq_false_iff.mpr hsc]
              exact hb
            rw [hl] at hleaf
            refine h.scan hsc hm (fun e he => ?_) hleaf rfl rfl rfl rfl
            rw [List.mem_singleton.mp he]
            exact hst
          | cons r rest =>
            have htail := h.facts.tail
            rw [hl] at htail hleaf
            refine h.list hm ?_ (fun e he => ?_) hleaf rfl rfl rfl rfl rfl rfl rfl
            · rw [hl]
              exact ⟨rfl, rfl, rfl⟩
            · rcases List.mem_append.mp he with he | he
              · exact htail e he
              · rw [List.mem_singleton.mp he]
                exact hst
        next => split <;> exact h.same rfl rfl rfl rfl rfl fun _ hr => hr

theorem good_startPendding (h : s.Good) (hm : s.done = none) {c : RocPendingChoice}
    (hC : s.Orderly (.workPendding c)) : (s.startPendding c).Good := by
  unfold startPendding
  split
  next => exact h
  next roc hp =>
    split
    next hgo =>
      obtain ⟨hsc, hl⟩ := hC (by rw [hp]; rfl) hgo
      have hnil : s.active = [] := h.served.active_nil (by rw [hl]; exact fun _ he => absurd he List.not_mem_nil)
      rw [hsc, hl]
      simp only [List.isEmpty_nil, Bool.not_true, Bool.or_self, Bool.false_eq_true, if_false]
      split
      · refine good_first h hm hl ?_ ?_ rfl hsc ?_ rfl rfl (.inl ?_)
        · rfl
        · exact fun _ he => absurd he List.not_mem_nil
        · exact hsc.symm
        · simp only [drvRemainOnChannel, hnil]
          rfl
      · refine good_first h hm hl ?_ ?_ rfl hsc ?_ rfl rfl (.inr ⟨rfl, .inr ⟨rfl, .inl rfl⟩⟩)
        · rfl
        · exact fun _ he => absurd he List.not_mem_nil
        · exact hsc.symm
    next => exact h

theorem good_next (h : s.Good) {a : OffchAct} (ha : s.enabled a) (hC : s.Orderly a) : (s.next a).Good := by
  obtain ⟨-, hm, hg⟩ := ha
  cases a with
  | startRoc q c => exact good_startRoc h (hm rfl) hC
  | cancelRoc cookie mgmtTx sync drvOk => exact good_cancel h (hm rfl) cookie mgmtTx sync drvOk
  | rocPurge sdata sync => exact good_purge h (hm rfl) hC
  | hwRocStart => exact good_hwRocStart h (hm rfl)
  | hwRocDone => exact good_hwRocDone h (hm rfl)
  | hwRocDoneRest drvOk => exact good_hwRocDoneRest h hg drvOk hC
  | workPendding c =>
    exact good_startPendding (s := { s with worker := .idle })
      (h.same rfl rfl rfl rfl rfl fun _ hr => hr) (hm rfl) hC
  | scanCompleted drvOk =>
    have hu := h.facts.scanning hg
    exact Good.startNext (s := { s with scanning := false }) drvOk rfl (hm rfl) hu h.facts.leaves
      (h.served.active_nil hu) h.noBug
  | scanStart =>
    obtain ⟨hl, hsc, -⟩ := hg
    have hnone : ∀ r rest, s.rocList ≠ r :: rest := by
      intro r rest he
      rw [hl] at he
      cases he
    refine ⟨⟨h.served.atMostOne, h.served.driver, fun _ r rest he => absurd he (hnone r rest)⟩,
      ⟨h.facts.tail, h.facts.leaves, fun _ e he => ?_, fun hd => ?_⟩, h.noBug⟩
    · have : e ∈ s.rocList := he
      rw [hl] at this
      cases this
    · obtain ⟨-, r, rest, he, -⟩ := h.facts.done hd
      exact absurd he (hnone r rest)
  | expired =>
    unfold next
    dsimp only
    split
    next => exact h
    next a rest hact =>
      obtain ⟨r, l, hl, hst, rfl⟩ := h.served.driver a (hact ▸ List.mem_cons_self)
      have hrest : rest = [] := by
        have := h.served.atMostOne
        rw [hact, List.length_cons] at this
        exact List.length_eq_zero_iff.mp (by omega)
      subst hrest
      refine ⟨⟨Nat.zero_le _, nofun, fun _ r' l' he => ?_⟩,
        ⟨h.facts.tail, h.facts.leaves, h.facts.scanning, h.facts.done⟩, h.noBug⟩
      obtain rfl : r = r' := (List.cons.inj (hl.symm.trans he)).1
      exact ⟨hst, .inr (.inr ⟨rfl, .inr (Nat.succ_pos _)⟩)⟩
  | expiredLate =>
    unfold next
    dsimp only
    split
    next => exact h
    next k rest hlate =>
      refine ⟨⟨h.served.atMostOne, h.served.driver, fun hsc r l he => ?_⟩,
        ⟨h.facts.tail, h.facts.leaves, h.facts.scanning, h.facts.done⟩, h.noBug⟩
      refine ⟨(h.served.served hsc r l he).1, ?_⟩
      by_cases hd : s.done = some true
      · exact .inr (.inl hd)
      · rcases hC hsc hd r l he with hat | hk
        · exact .inl hat
        · rw [hlate, List.head?_cons, Option.some.injEq] at hk
          exact .inr (.inr ⟨hk, .inr (Nat.succ_pos _)⟩)
  | queueDone =>
    exact h.same rfl rfl rfl rfl rfl fun r hr => hr.imp id fun hr => ⟨hr.1, .inl rfl⟩
  | ready => exact h.same rfl rfl rfl rfl rfl fun _ hr => hr
  | workTest => exact h.same rfl rfl rfl rfl rfl fun _ hr => hr
  | workBegin => exact h.same rfl rfl rfl rfl rfl fun _ hr => hr
  | workLists b => exact h.same rfl rfl rfl rfl rfl fun _ hr => hr
  | workFinish => exact h.same rfl rfl rfl rfl rfl fun _ hr => hr

theorem Book.head_ne (h : s.Book) {rest : List RocEntry} (hl : s.rocList = r :: rest) : ∀ e ∈ rest, e.id ≠ r.id := by
  unfold Book requests at h
  rw [hl, rocListed_cons] at h
  intro e he
  refine (RocBook.apart h).1 e.toRocWork (List.mem_append_left _ (List.mem_append_right _ ?_))
  exact List.mem_flatMap.mpr ⟨e, he, List.mem_cons_self⟩

theorem Book.key_ne_zero (h : s.Book) {e : RocEntry} (he : e ∈ s.rocList) : e.key ≠ 0 := by
  refine (h.live e.toRocWork (List.mem_append_left _ ?_)).key
  exact List.mem_flatMap.mpr ⟨e, he, List.mem_cons_self⟩

theorem purge_rocList (s : Offch) (sdata : Nat) (sync : Bool) :
    (s.rocPurge sdata sync).rocList = s.rocList.filter fun e => !(e.sdata == sdata) := rfl

theorem purge_scanning (s : Offch) (sdata : Nat) (sync : Bool) :
    (s.rocPurge sdata sync).scanning = s.scanning := by
  have hone : ∀ s : Offch, (s.drvCancelRemainOnChannel sync).scanning = s.scanning := by
    intro s
    unfold drvCancelRemainOnChannel
    split <;> [skip; split] <;> rfl
  have : ∀ (l : List RocEntry) (s : Offch),
      (l.foldl (fun s _ => s.drvCancelRemainOnChannel sync) s).scanning = s.scanning := by
    intro l
    induction l with
    | nil => exact fun _ => rfl
    | cons e l ih => exact fun s => (ih _).trans (hone s)
  exact this _ s

theorem orderly_of_kept (h : s.Good) (hb : s.Book) {a : OffchAct} (ha : s.enabled a)
    (hK : (s.next a).Kept) : s.Orderly a := by
  obtain ⟨-, -, hg⟩ := ha
  cases a with
  | startRoc q c =>
    intro h1 h2 hl hsc hbusy
    refine Option.not_isSome_iff_eq_none.mp fun hp => ?_
    have hbug : (s.startRocWork q c).bug = true := by
      unfold startRocWork
      simp only [h1, h2, hl, hsc, hbusy, hp, Bool.not_true, Bool.or_self, Bool.false_eq_true, if_false,
        List.isEmpty_nil, Bool.not_false, Bool.and_self, if_true]
    exact Bool.noConfusion (hbug.symm.trans hK.noBug)
  | workPendding c =>
    intro hp hgo
    refine Decidable.byContradiction fun hn => ?_
    obtain ⟨roc, hroc⟩ := Option.isSome_iff_exists.mp hp
    have hbad : (s.scanning || !s.rocList.isEmpty) = true := by
      refine Decidable.byContradiction fun hb' => hn ?_
      simpa using hb'
    have hbug : (startPendding c { s with worker := .idle }).bug = true := by
      unfold startPendding
      simp only [hroc, hgo, hbad, if_true]
    exact Bool.noConfusion (hbug.symm.trans hK.noBug)
  | rocPurge sdata sync =>
    intro hsc r rest hl hr e he
    refine Decidable.byContradiction fun hne => ?_
    have htail := h.facts.tail
    rw [hl] at htail
    -- the new head comes from behind the old one
    have hlist : (s.rocPurge sdata sync).rocList = rest.filter fun e => !(e.sdata == sdata) := by
      rw [purge_rocList, hl, List.filter_cons, if_neg (by simp [hr])]
    have hmem : e ∈ (s.rocPurge sdata sync).rocList := by
      rw [hlist]
      exact List.mem_filter.mpr ⟨he, by simpa using hne⟩
    cases hl' : (s.rocPurge sdata sync).rocList with
    | nil =>
      rw [hl'] at hmem
      cases hmem
    | cons r' rest' =>
      have hst := (hK.served ((s.purge_scanning sdata sync).trans hsc) r' rest' hl').1
      have hr' : r' ∈ rest := (List.mem_filter.mp (hlist ▸ hl' ▸ List.mem_cons_self)).1
      rw [htail r' hr'] at hst
      cases hst
  | hwRocDoneRest drvOk =>
    intro r rest hl
    obtain ⟨hsc, -⟩ := h.facts.done hg
    constructor
    · intro hd hat
      have hnext : s.next (.hwRocDoneRest drvOk) = _ := hwRocDoneRest_true hd hl drvOk
      obtain ⟨-, -, -, -, hact⟩ :=
        (report r.notifyDestroy { s with rocCookie := 0, done := none, rocList := rest }).startNext_fields drvOk
      obtain ⟨r', rest', hl', -, he⟩ := hK.driver (r.id, r.key) (hnext ▸ hact _ hat)
      have hmem : r' ∈ (s.next (.hwRocDoneRest drvOk)).rocList := hl' ▸ List.mem_cons_self
      rw [hnext] at hmem
      obtain ⟨e, hin, hid, -⟩ := startNext_ids _ drvOk r' hmem
      exact hb.head_ne hl e hin (hid.symm.trans (congrArg Prod.fst he).symm)
    · intro hat
      obtain ⟨m, hd⟩ := Option.isSome_iff_exists.mp hg
      cases m with
      | true => exact hd
      | false =>
        have hnext : s.next (.hwRocDoneRest drvOk) = { s with rocCookie := 0, done := none } :=
          hwRocDoneRest_false hd drvOk
        rw [hnext] at hK
        rcases (hK.served hsc r rest hl).2 with h1 | h1 | ⟨h1, -⟩
        · exact absurd h1 hat
        · cases h1
        · exact absurd h1.symm (hb.key_ne_zero (hl ▸ List.mem_cons_self))
  | expiredLate =>
    intro hsc hd r rest hl
    cases hlate : s.late with
    | nil => exact absurd hlate hg
    | cons k ks =>
      have hnext : s.next .expiredLate = { s with late := ks }.notify k := by
        simp only [next, hlate]
      rw [hnext] at hK
      rcases (hK.served hsc r rest hl).2 with h1 | h1 | ⟨h1, -⟩
      · exact .inl h1
      · exact absurd h1 hd
      · exact .inr (congrArg some h1)
  | _ => trivial

end Offch

/-- **Remain-on-channel requests are conserved and never stranded** in every state of a run exactly when every
step of the run is orderly. -/
theorem roc_conserved {s : Offch} {l : List (Offch × OffchAct)} (h : Path offchSys .start l s) :
    ((∀ p ∈ l, p.1.Kept) ∧ s.Kept) ↔ ∀ p ∈ l, p.1.Orderly p.2 := by
  have hfacts : Offch.start.Facts := ⟨nofun, nofun, nofun, nofun⟩
  have hkept : Offch.start.Kept := ⟨RocBook.empty, Nat.zero_le _, nofun, nofun, rfl⟩
  refine h.exact (I := Offch.Facts) ?_ ?_ hfacts hkept
  · rintro s a t hI hP ⟨ha, rfl⟩ hC
    have hgood := Offch.good_next ⟨hP.toServed, hI, hP.noBug⟩ ha hC
    exact ⟨hgood.facts, Offch.book_next hP.book ha.2.2, hgood.served.atMostOne, hgood.served.driver,
      hgood.served.served, hgood.noBug⟩
  · rintro s a t hI hP ⟨ha, rfl⟩ hK
    exact Offch.orderly_of_kept ⟨hP.toServed, hI, hP.noBug⟩ hP.book ha hK

namespace Offch

/-- A listener of 100 ms on interface `sdata`. -/
def listen (sdata : Nat) : OffchAct := .startRoc ⟨sdata, 1, 100, none⟩ ⟨false, true, true, false, false⟩

/-- Two interfaces listen one after the other, the second until it is purged. -/
def listenTwice : List OffchAct :=
  [listen 0, listen 1, .expired, .queueDone, .hwRocDone, .hwRocDoneRest true, .rocPurge 1 true]

end Offch

theorem roc_conserved_two :
    (∀ p ∈ trace Offch.next .start Offch.listenTwice, p.1.Kept) ∧
      (Offch.listenTwice.foldl Offch.next .start).Kept ∧
      freedIds (Offch.listenTwice.foldl Offch.next .start).reports = [0, 1] := by
  have hf : Fires Offch.enabled Offch.next .start Offch.listenTwice := by decide +kernel
  have hC : ∀ p ∈ trace Offch.next .start Offch.listenTwice, p.1.Orderly p.2 := by decide +kernel
  obtain ⟨h1, h2⟩ := (roc_conserved (Path.ofFires hf)).mpr hC
  exact ⟨h1, h2, by decide +kernel⟩

/-- **No request is lost or freed twice**, whatever the steps. -/
theorem roc_booked {s : Offch} {l : List (Offch × OffchAct)} (h : Path offchSys .start l s) : s.Book :=
  h.invariant (by rintro _ _ _ hI ⟨ha, rfl⟩; exact Offch.book_next hI ha.2.2) RocBook.empty

theorem roc_booked_two : (Offch.listenTwice.foldl Offch.next .start).Book :=
  roc_booked (Path.ofFires (l := Offch.listenTwice) (by decide +kernel))

/-- The first interface goes down while the second is waiting. -/
theorem roc_stranded_by_purge : ∃ s, Reach offchSys s ∧ ¬ s.Kept := by
  have hf : Fires Offch.enabled Offch.next .start [Offch.listen 0, Offch.listen 1, .rocPurge 0 true] := by
    decide +kernel
  refine ⟨_, Reach.fires (.init rfl) hf, fun h => ?_⟩
  have hst : ∀ r rest, ([Offch.listen 0, Offch.listen 1, .rocPurge 0 true].foldl Offch.next .start).rocList
      = r :: rest → r.started := fun r rest he => (h.served (by decide +kernel) r rest he).1
  exact absurd hst (by decide +kernel)

/-- The expiry of a cancelled frame ends the next one at the same address, which the driver has just started. -/
example :
    let frame : OffchAct := .startRoc ⟨0, 1, 100, some 7⟩ ⟨false, true, true, false, false⟩
    let run := [frame, .cancelRoc 7 true true true, frame, .hwRocDone, .hwRocDoneRest true]
    let s := run.foldl Offch.next .start
    Fires Offch.enabled Offch.next .start run ∧ s.rocList = [] ∧ s.active = [(1, 7)] := by
  decide +kernel

end AtbmWifi
