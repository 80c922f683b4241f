import AtbmWifi.Mac80211.Handshake

/-!
# What becomes of the frames held back

`Kept` says what is wanted: a frame on `handshake_buffed` leaves it once, for the pending list of its own
hardware queue and in the order in which it came, or with the entry; and what is on the list, with nobody at
work, has a 4/4 message under way whose report will release it.

`info->hw_queue` is written after `ieee80211_tx_prepare`, so that a frame held back still has the 0 of
`memset`.  `Orderly` is the condition on a step under which all of `Kept` lasts, `handshake_kept`.
-/

namespace AtbmWifi

open Transition

/-- Not yet past `ieee80211_tx_prepare`. -/
def HsFrame.Raw (f : HsFrame) : Prop := f.hwQueue = 0 ∧ f.handshake = false

namespace HsPc

def carries : HsPc → Bool
  | .setSending _ _ | .clearSuccess _ _ | .clearSending => true
  | .handlers f _ | .send f _ => f.handshake
  | _ => false

/-- The thread has still to find `handshake_buffed` empty. -/
def releases : HsPc → Bool
  | .setSuccess | .dequeue _ | .addPending _ => true
  | _ => false

def Frames : HsPc → Prop
  | .testSuccess f _ | .testSending f _ | .insert f _ | .dequeue (.tx f _) | .addPending (.tx f _) =>
    f.needTxprocessing = false ∧ f.Raw
  | .setSending f _ | .clearSuccess f _ | .handlers f _ | .send f _ => f.needTxprocessing = false
  | _ => True

end HsPc

namespace HsState

variable {n : Nat}

/-- A 4/4 message is at the driver or on a pending list. -/
def OnTheWay (s : HsState n) : Prop :=
  (∃ f ∈ s.driver, f.handshake) ∨ ∃ q, ∃ f ∈ s.pending q, f.handshake

/-- A 4/4 message, other than that of `t`, is on its way or in the hands of a thread. -/
def ComingBut (t : Option (Fin n)) (s : HsState n) : Prop :=
  s.OnTheWay ∨ ∃ u, some u ≠ t ∧ (s.pc u).carries

def Releasing (s : HsState n) : Prop := ∃ u, (s.pc u).releases

/-- **What is wanted of the frames held back.** -/
structure Kept (cfg : HsCfg) (s : HsState n) : Prop where
  /-- each is in one place: on the list, in a hand, queued, or freed -/
  once : s.buffed.Inv
  freed : s.buffed.dropped ≠ [] → s.freed
  /-- it has been queued on the list of its interface and access category -/
  own : ∀ x ∈ s.buffed.given, x.2.hwQueue = cfg.hwQueue x.2.ac
  /-- for each hardware queue, in the order in which the frames were held back -/
  order : ∀ q, ((s.buffed.given.filter fun x => x.2.hwQueue == q).map Prod.fst).Pairwise (· < ·)
  /-- nothing is stranded -/
  covered : s.linked → (∀ t, (s.pc t).inside = false) → s.buffed.waiting ≠ [] → s.OnTheWay

/-- The condition on a step.
* A frame queued again is a voice frame of the first interface, whose queue is 0, and no other thread has one
  in its hands that was held back earlier.
* A frame is put on `handshake_buffed` while `WLAN_STA_HANDSHAKE4OF4_SENDING` is set still, or the list will
  be released again.
* A handler drops a 4/4 message when another one is coming, or the flag is clear and nothing is left on the
  list. -/
def Orderly (cfg : HsCfg) (s : HsState n) : HsAct n → Prop
  | .exec t c =>
    match s.pc t with
    | .addPending _ => ∀ x, s.buffed.hand t = some x →
        cfg.hwQueue x.2.ac = 0 ∧ ∀ u y, u ≠ t → s.buffed.hand u = some y → x.1 < y.1
    | .insert _ _ => s.linked → s.sending ∨ s.ComingBut none ∨ s.Releasing
    | .handlers f _ => s.linked → c.drop → f.handshake →
        s.ComingBut (some t) ∨ s.sending = false ∧ (s.buffed.waiting = [] ∨ s.Releasing)
    | _ => True
  | _ => True

section
variable (s : HsState n) (t : Fin n) (p : HsPc)

@[simp] theorem go_linked : (s.go t p).linked = s.linked := rfl
@[simp] theorem go_freed : (s.go t p).freed = s.freed := rfl
@[simp] theorem go_sending : (s.go t p).sending = s.sending := rfl
@[simp] theorem go_success : (s.go t p).success = s.success := rfl
@[simp] theorem go_buffed : (s.go t p).buffed = s.buffed := rfl
@[simp] theorem go_pending : (s.go t p).pending = s.pending := rfl
@[simp] theorem go_driver : (s.go t p).driver = s.driver := rfl
@[simp] theorem go_pc_self : (s.go t p).pc t = p := Function.update_self ..

theorem go_pc_of_ne {u : Fin n} (h : u ≠ t) : (s.go t p).pc u = s.pc u := Function.update_of_ne h ..

end

structure Frames (s : HsState n) : Prop where
  pc : ∀ t, (s.pc t).Frames
  pending : ∀ q, ∀ f ∈ s.pending q, f.needTxprocessing → f.Raw
  waiting : ∀ x ∈ s.buffed.waiting, x.2.Raw
  hand : ∀ t x, s.buffed.hand t = some x → x.2.Raw
  given : ∀ x ∈ s.buffed.given, x.2.Raw

theorem frames_go {s : HsState n} (h : s.Frames) {t : Fin n} {p : HsPc} (hp : p.Frames) : (s.go t p).Frames where
  pc u := by
    by_cases hu : u = t
    · rw [hu, go_pc_self]
      exact hp
    · rw [go_pc_of_ne _ _ _ hu]
      exact h.pc u
  pending := h.pending
  waiting := h.waiting
  hand := h.hand
  given := h.given

theorem frames_txReturn (ok : Bool) (p : Option Nat) : (HsPc.txReturn ok p).Frames := by
  cases p with
  | none => trivial
  | some i => cases ok <;> trivial

theorem frames_after {k : HsAfter} (h : (HsPc.dequeue k).Frames) : (HsPc.after k).Frames := by
  cases k with
  | tx f p => exact h.1
  | status => trivial

variable {f : HsFrame} {l : List HsFrame} {q : Nat} {s' : HsState n} {a : HsAct n} {cfg : HsCfg}

theorem frames_txPrepare (cfg : HsCfg) (s : HsState n) (p : Option Nat) (hf : f.Raw) :
    (s.ieee80211TxPrepare cfg f p).Frames := by
  unfold ieee80211TxPrepare
  dsimp only
  split
  · split
    next => exact ⟨rfl, hf⟩
    next => split <;> exact rfl
  · exact rfl

theorem frames_txPendingSkb (cfg : HsCfg) {s : HsState n} (i : Nat)
    (hf : f.needTxprocessing → f.Raw) : (s.ieee80211TxPendingSkb cfg f i).Frames := by
  unfold ieee80211TxPendingSkb
  by_cases h : f.needTxprocessing
  · rw [if_pos h]
    exact frames_txPrepare cfg s _ (hf h)
  · rw [if_neg h]
    exact Bool.eq_false_iff.mpr h

theorem frames_pending {s : HsState n} (h : s.Frames)
    (hl : ∀ f ∈ l, f.needTxprocessing → f.Raw) : { s with pending := Function.update s.pending q l }.Frames where
  pc := h.pc
  pending r f hf := by
    by_cases hr : r = q
    · subst hr
      simp only [Function.update_self] at hf
      exact hl f hf
    · simp only [Function.update_of_ne hr] at hf
      exact h.pending r f hf
  waiting := h.waiting
  hand := h.hand
  given := h.given

theorem frames_put {s : HsState n} (h : s.Frames) (hf : f.Raw) : { s with buffed := s.buffed.put f }.Frames where
  pc := h.pc
  pending := h.pending
  waiting x hx := by
    rcases List.mem_append.mp hx with hx | hx
    · exact h.waiting x hx
    · rw [List.mem_singleton.mp hx]
      exact hf
  hand := h.hand
  given := h.given

theorem frames_take {s : HsState n} (h : s.Frames) (t : Fin n) : { s with buffed := s.buffed.take t }.Frames := by
  unfold Handoff.take
  split
  next => exact h
  next x rest hw =>
    have hx : ∀ y ∈ x :: rest, y.2.Raw := hw ▸ h.waiting
    refine ⟨h.pc, h.pending, fun y hy => hx y (List.mem_cons_of_mem _ hy), fun u y hy => ?_, h.given⟩
    by_cases hu : u = t
    · subst hu
      simp only [Function.update_self, Option.some.injEq] at hy
      subst hy
      exact hx _ List.mem_cons_self
    · simp only [Function.update_of_ne hu] at hy
      exact h.hand u y hy

theorem frames_give {s : HsState n} (h : s.Frames) (t : Fin n) : { s with buffed := s.buffed.give t }.Frames := by
  unfold Handoff.give
  split
  next => exact h
  next x hx =>
    refine ⟨h.pc, h.pending, h.waiting, fun u y hy => ?_, fun y hy => ?_⟩
    · by_cases hu : u = t
      · subst hu
        simp only [Function.update_self] at hy
        cases hy
      · simp only [Function.update_of_ne hu] at hy
        exact h.hand u y hy
    · rcases List.mem_append.mp hy with hy | hy
      · exact h.given y hy
      · rw [List.mem_singleton.mp hy]
        exact h.hand t x hx

theorem frames_addPending {s : HsState n} (h : s.Frames) (t : Fin n) : (s.ieee80211AddPendingSkb t).Frames := by
  unfold ieee80211AddPendingSkb
  split
  next => exact h
  next x hx =>
    refine frames_pending (s := { s with buffed := s.buffed.give t }) (frames_give h t) fun f hf _ => ?_
    rcases List.mem_append.mp hf with hf | hf
    · exact h.pending _ f hf ‹_›
    · rw [List.mem_singleton.mp hf]
      exact h.hand t x hx

theorem frames_tx {s : HsState n} (h : s.Frames) (t : Fin n) (p : Option Nat) (stopped : Bool)
    (hf : f.needTxprocessing = false) : (s.ieee80211Tx t f p stopped).Frames := by
  unfold ieee80211Tx
  dsimp only
  split
  · refine frames_go (frames_pending h fun g hg hn => ?_) (frames_txReturn _ _)
    have hg' : g = f ∨ g ∈ s.pending f.hwQueue := by
      split at hg
      · exact List.mem_cons.mp hg
      · simpa [or_comm] using hg
    rcases hg' with rfl | hg'
    · rw [hf] at hn
      cases hn
    · exact h.pending _ g hg' hn
  · exact frames_go (s := { s with driver := s.driver ++ [f] })
      ⟨h.pc, h.pending, h.waiting, h.hand, h.given⟩ (frames_txReturn _ _)

theorem Frames.exec {s : HsState n} (h : s.Frames) (cfg : HsCfg) (t : Fin n) (c : HsChoice) :
    (s.exec cfg t c).Frames := by
  have ht := h.pc t
  unfold HsState.exec
  cases hpc : s.pc t with
  | out => exact h
  | scan i => dsimp only; split <;> [skip; split] <;> exact frames_go h trivial
  | drain i =>
    dsimp only
    split
    next => exact frames_go h trivial
    next f rest hq =>
      have hl : ∀ g ∈ f :: rest, g.needTxprocessing → g.Raw := hq ▸ h.pending i
      refine frames_go (frames_pending h fun g hg => hl g (List.mem_cons_of_mem _ hg)) ?_
      exact frames_txPendingSkb cfg i (hl f List.mem_cons_self)
  | testSuccess f p => rw [hpc] at ht; refine frames_go h ?_; split <;> exact ht
  | testSending f p => rw [hpc] at ht; refine frames_go h ?_; split; exacts [ht, ht.1]
  | insert f p => rw [hpc] at ht; exact frames_go (frames_put h ht.2) (frames_txReturn _ _)
  | setSending f p =>
    rw [hpc] at ht
    exact frames_go (s := { s with sending := true }) ⟨h.pc, h.pending, h.waiting, h.hand, h.given⟩ ht
  | clearSuccess f p =>
    rw [hpc] at ht
    exact frames_go (s := { s with success := false }) ⟨h.pc, h.pending, h.waiting, h.hand, h.given⟩ ht
  | handlers f p =>
    rw [hpc] at ht
    dsimp only
    split
    · exact frames_go h (frames_txReturn _ _)
    · exact frames_go h ht
  | send f p => rw [hpc] at ht; exact frames_tx h t p _ ht
  | clearSending =>
    exact frames_go (s := { s with sending := false }) ⟨h.pc, h.pending, h.waiting, h.hand, h.given⟩ trivial
  | setSuccess =>
    exact frames_go (s := { s with success := true }) ⟨h.pc, h.pending, h.waiting, h.hand, h.given⟩ trivial
  | dequeue k =>
    rw [hpc] at ht
    dsimp only
    split
    · exact frames_go h (frames_after ht)
    · refine frames_go (frames_take h t) ?_
      cases k <;> exact ht
  | addPending k =>
    rw [hpc] at ht
    refine frames_go (frames_addPending h t) ?_
    cases k <;> exact ht

theorem Frames.next {s : HsState n} (h : s.Frames) (cfg : HsCfg) (a : HsAct n) : (s.next cfg a).Frames := by
  cases a with
  | xmit t b ac => exact frames_go h (frames_txPrepare cfg s none ⟨rfl, rfl⟩)
  | tasklet t => exact frames_go h trivial
  | exec t c => exact h.exec cfg t c
  | report t f acked =>
    refine frames_go (s := { s with driver := s.driver.erase f })
      ⟨h.pc, h.pending, h.waiting, h.hand, h.given⟩ ?_
    split <;> trivial
  | hashDel => exact ⟨h.pc, h.pending, h.waiting, h.hand, h.given⟩
  | free => exact ⟨h.pc, h.pending, nofun, h.hand, h.given⟩

/-- Everything on the list is in one place, and only a thread that is about to queue a frame has one. -/
structure Listed (s : HsState n) : Prop where
  once : s.buffed.Inv
  hand : ∀ t, (∀ k, s.pc t ≠ .addPending k) → s.buffed.hand t = none
  freed : s.buffed.dropped ≠ [] → s.freed

theorem dropped_take (s : HsState n) (t : Fin n) : (s.buffed.take t).dropped = s.buffed.dropped := by
  unfold Handoff.take
  split <;> rfl

theorem dropped_give (s : HsState n) (t : Fin n) : (s.buffed.give t).dropped = s.buffed.dropped := by
  unfold Handoff.give
  split <;> rfl

theorem hand_take {s : HsState n} {t u : Fin n} (hu : u ≠ t) : (s.buffed.take t).hand u = s.buffed.hand u := by
  unfold Handoff.take
  split
  · rfl
  · exact Function.update_of_ne hu ..

theorem hand_give {s : HsState n} {t u : Fin n} (hu : u ≠ t) : (s.buffed.give t).hand u = s.buffed.hand u := by
  unfold Handoff.give
  split
  · rfl
  · exact Function.update_of_ne hu ..

theorem hand_give_self (s : HsState n) (t : Fin n) : (s.buffed.give t).hand t = none := by
  unfold Handoff.give
  split
  next h => exact h
  next => exact Function.update_self ..

theorem addPending_buffed (s : HsState n) (t : Fin n) : (s.ieee80211AddPendingSkb t).buffed = s.buffed.give t := by
  unfold ieee80211AddPendingSkb Handoff.give
  split <;> rename_i h <;> rw [h]

theorem addPending_pc (s : HsState n) (t : Fin n) : (s.ieee80211AddPendingSkb t).pc = s.pc := by
  unfold ieee80211AddPendingSkb
  split <;> rfl

/-- A step of `t` that leaves the list alone, from a statement at which the thread has no frame of it. -/
theorem Listed.step {s : HsState n} (h : s.Listed) {t : Fin n} (ht : s.buffed.hand t = none)
    (hb : s'.buffed = s.buffed) (hpc : ∀ u, u ≠ t → s'.pc u = s.pc u) (hf : s'.freed = s.freed) : s'.Listed where
  once := hb ▸ h.once
  hand u hu := by
    rw [hb]
    by_cases hut : u = t
    · rw [hut]
      exact ht
    · refine h.hand u fun k => ?_
      rw [← hpc u hut]
      exact hu k
  freed := by
    rw [hb, hf]
    exact h.freed

theorem tx_buffed (s : HsState n) (t : Fin n) (f : HsFrame) (p : Option Nat) (b : Bool) :
    (s.ieee80211Tx t f p b).buffed = s.buffed ∧ (s.ieee80211Tx t f p b).freed = s.freed ∧
      ∀ u, u ≠ t → (s.ieee80211Tx t f p b).pc u = s.pc u := by
  unfold ieee80211Tx
  dsimp only
  split <;> exact ⟨rfl, rfl, fun u hu => go_pc_of_ne _ _ _ hu⟩

theorem exec_buffed (cfg : HsCfg) {s : HsState n} {t : Fin n} (c : HsChoice)
    (hi : ∀ f p, s.pc t ≠ .insert f p) (hd : ∀ k, s.pc t ≠ .dequeue k) (ha : ∀ k, s.pc t ≠ .addPending k) :
    (s.exec cfg t c).buffed = s.buffed ∧ (s.exec cfg t c).freed = s.freed ∧
      ∀ u, u ≠ t → (s.exec cfg t c).pc u = s.pc u := by
  have hgo : ∀ (s' : HsState n) (p : HsPc), s'.buffed = s.buffed → s'.freed = s.freed → s'.pc = s.pc →
      (s'.go t p).buffed = s.buffed ∧ (s'.go t p).freed = s.freed ∧ ∀ u, u ≠ t → (s'.go t p).pc u = s.pc u := by
    intro s' p hb hf hpc
    refine ⟨hb, hf, fun u hu => ?_⟩
    rw [go_pc_of_ne _ _ _ hu, hpc]
  unfold HsState.exec
  cases hpc : s.pc t with
  | out => exact ⟨rfl, rfl, fun _ _ => rfl⟩
  | scan i => dsimp only; split <;> [skip; split] <;> exact hgo _ _ rfl rfl rfl
  | drain i => dsimp only; split <;> exact hgo _ _ rfl rfl rfl
  | handlers f p => dsimp only; split <;> exact hgo _ _ rfl rfl rfl
  | send f p => exact tx_buffed s t f p _
  | insert f p => exact absurd hpc (hi f p)
  | dequeue k => exact absurd hpc (hd k)
  | addPending k => exact absurd hpc (ha k)
  | _ => exact hgo _ _ rfl rfl rfl

theorem Listed.exec {s : HsState n} (h : s.Listed) (cfg : HsCfg) (t : Fin n) (c : HsChoice) :
    (s.exec cfg t c).Listed := by
  by_cases ha : ∃ k, s.pc t = .addPending k
  · obtain ⟨k, ha⟩ := ha
    have hb : (s.exec cfg t c).buffed = s.buffed.give t := by
      simp only [HsState.exec, ha, go_buffed, addPending_buffed]
    have hpc : ∀ u, u ≠ t → (s.exec cfg t c).pc u = s.pc u := by
      intro u hu
      simp only [HsState.exec, ha]
      rw [go_pc_of_ne _ _ _ hu, addPending_pc]
    have hf : (s.exec cfg t c).freed = s.freed := by
      simp only [HsState.exec, ha, go_freed, ieee80211AddPendingSkb]
      split <;> rfl
    refine ⟨hb ▸ h.once.give t, fun u hu => ?_, by rw [hb, hf, dropped_give]; exact h.freed⟩
    rw [hb]
    by_cases hut : u = t
    · rw [hut]
      exact hand_give_self s t
    · rw [hand_give hut]
      refine h.hand u fun k => ?_
      rw [← hpc u hut]
      exact hu k
  have ha' : ∀ k, s.pc t ≠ .addPending k := fun k hk => ha ⟨k, hk⟩
  have ht := h.hand t ha'
  by_cases hd : ∃ k, s.pc t = .dequeue k
  · obtain ⟨k, hd⟩ := hd
    simp only [HsState.exec, hd]
    split
    · exact h.step ht rfl (fun u hu => go_pc_of_ne _ _ _ hu) rfl
    · refine ⟨h.once.take ht, fun u hu => ?_, by rw [go_buffed, dropped_take]; exact h.freed⟩
      by_cases hut : u = t
      · subst hut
        exact absurd (go_pc_self ..) (hu k)
      · rw [go_pc_of_ne _ _ _ hut] at hu
        exact (hand_take hut).trans (h.hand u hu)
  by_cases hi : ∃ f p, s.pc t = .insert f p
  · obtain ⟨f, p, hi⟩ := hi
    simp only [HsState.exec, hi]
    refine ⟨h.once.put f, fun u hu => ?_, h.freed⟩
    by_cases hut : u = t
    · rw [hut]
      exact ht
    · rw [go_pc_of_ne _ _ _ hut] at hu
      exact h.hand u hu
  obtain ⟨hb, hf, hpc⟩ := exec_buffed cfg c (fun f p hp => hi ⟨f, p, hp⟩) (fun k hk => hd ⟨k, hk⟩) ha'
  exact h.step ht hb hpc hf

theorem Listed.next {s : HsState n} (h : s.Listed) (cfg : HsCfg) (ha : s.enabled a) : (s.next cfg a).Listed := by
  have hout : ∀ {t}, s.pc t = .out → s.buffed.hand t = none := fun ht => h.hand _ fun k hk => by
    rw [ht] at hk
    cases hk
  cases a with
  | xmit t b ac => exact h.step (hout ha.1) rfl (fun u hu => go_pc_of_ne _ _ _ hu) rfl
  | tasklet t => exact h.step (hout ha.1) rfl (fun u hu => go_pc_of_ne _ _ _ hu) rfl
  | exec t c => exact h.exec cfg t c
  | report t f acked => exact h.step (hout ha.1) rfl (fun u hu => go_pc_of_ne _ _ _ hu) rfl
  | hashDel => exact ⟨h.once, h.hand, h.freed⟩
  | free => exact ⟨h.once.clear, h.hand, fun _ => rfl⟩

/-! ### Where and in which order the frames are queued -/

structure Placed (cfg : HsCfg) (s : HsState n) : Prop where
  ordered : s.buffed.Ordered
  own : ∀ x ∈ s.buffed.given, x.2.hwQueue = cfg.hwQueue x.2.ac

theorem given_take (s : HsState n) (t : Fin n) : (s.buffed.take t).given = s.buffed.given := by
  unfold Handoff.take
  split <;> rfl

theorem Placed.exec {s : HsState n} (h : s.Placed cfg) (hf : s.Frames) (hl : s.Listed) {t : Fin n}
    {c : HsChoice} (hC : s.Orderly cfg (.exec t c)) : (s.exec cfg t c).Placed cfg := by
  by_cases ha : ∃ k, s.pc t = .addPending k
  · obtain ⟨k, ha⟩ := ha
    simp only [Orderly, ha] at hC
    have hb : (s.exec cfg t c).buffed = s.buffed.give t := by
      simp only [HsState.exec, ha, go_buffed, addPending_buffed]
    constructor
    · rw [hb]
      exact h.ordered.give hl.once fun x hx u y hu hy => (hC x hx).2 u y hu hy
    · rw [hb]
      unfold Handoff.give
      split
      next => exact h.own
      next x hx =>
        intro y hy
        rcases List.mem_append.mp hy with hy | hy
        · exact h.own y hy
        · rw [List.mem_singleton.mp hy, (hC x hx).1]
          exact (hf.hand t x hx).1
  by_cases hd : ∃ k, s.pc t = .dequeue k
  · obtain ⟨k, hd⟩ := hd
    simp only [HsState.exec, hd]
    split
    · exact ⟨h.ordered, h.own⟩
    · refine ⟨h.ordered.take t, ?_⟩
      rw [go_buffed, given_take]
      exact h.own
  by_cases hi : ∃ f p, s.pc t = .insert f p
  · obtain ⟨f, p, hi⟩ := hi
    simp only [HsState.exec, hi]
    exact ⟨h.ordered.put hl.once f, h.own⟩
  have hb := (exec_buffed cfg c (fun f p hp => hi ⟨f, p, hp⟩) (fun k hk => hd ⟨k, hk⟩) fun k hk => ha ⟨k, hk⟩).1
  exact ⟨hb ▸ h.ordered, hb ▸ h.own⟩

theorem Placed.next {s : HsState n} (h : s.Placed cfg) (hf : s.Frames) (hl : s.Listed)
    (hC : s.Orderly cfg a) : (s.next cfg a).Placed cfg := by
  cases a with
  | exec t c => exact h.exec hf hl hC
  | free => exact ⟨h.ordered.clear, h.own⟩
  | _ => exact ⟨h.ordered, h.own⟩

/-- A 4/4 message stands behind the flag, and something behind what is on the list. -/
structure Covered (s : HsState n) : Prop where
  sending : s.linked → s.sending → s.ComingBut none
  waiting : s.linked → s.buffed.waiting ≠ [] → s.ComingBut none ∨ s.Releasing

theorem coming_of_pc {s : HsState n} {t : Fin n} (h : (s.pc t).carries) : s.ComingBut none := .inr ⟨t, nofun, h⟩

theorem ComingBut.others {s : HsState n} (h : s.ComingBut none) {t : Fin n} (ht : (s.pc t).carries = false) :
    s.ComingBut (some t) := by
  rcases h with h | ⟨u, -, hu⟩
  · exact .inl h
  · refine .inr ⟨u, ?_, hu⟩
    rintro ⟨⟩
    rw [hu] at ht
    cases ht

theorem ComingBut.step {s : HsState n} {t : Fin n} (h : s.ComingBut (some t)) (hd : s.OnTheWay → s'.OnTheWay)
    (hpc : ∀ u, u ≠ t → s'.pc u = s.pc u) : s'.ComingBut none := by
  rcases h with h | ⟨u, hu, hc⟩
  · exact .inl (hd h)
  · refine .inr ⟨u, nofun, ?_⟩
    rw [hpc u fun e => hu (e ▸ rfl)]
    exact hc

theorem Releasing.step {s : HsState n} {t : Fin n} (h : s.Releasing) (ht : (s.pc t).releases = false)
    (hpc : ∀ u, u ≠ t → s'.pc u = s.pc u) : s'.Releasing := by
  obtain ⟨u, hu⟩ := h
  refine ⟨u, ?_⟩
  rw [hpc u]
  · exact hu
  · rintro rfl
    rw [hu] at ht
    cases ht

/-- A step of a thread that neither has a message nor releases; the flag is not set, the list does not grow. -/
theorem Covered.step {s : HsState n} (h : s.Covered) {t : Fin n} (hc : (s.pc t).carries = false)
    (hr : (s.pc t).releases = false) (hl : s'.linked → s.linked) (hs : s'.sending → s.sending)
    (hw : s'.buffed.waiting ≠ [] → s.buffed.waiting ≠ []) (hd : s.OnTheWay → s'.OnTheWay)
    (hpc : ∀ u, u ≠ t → s'.pc u = s.pc u) : s'.Covered where
  sending h1 h2 := ((h.sending (hl h1) (hs h2)).others hc).step hd hpc
  waiting h1 h2 := by
    rcases h.waiting (hl h1) (hw h2) with h | h
    · exact .inl ((h.others hc).step hd hpc)
    · exact .inr (h.step hr hpc)

theorem covered_of_coming {s : HsState n} (h : s.ComingBut none) : s.Covered := ⟨fun _ _ => h, fun _ _ => .inl h⟩

theorem Covered.releasing {s : HsState n} (h : s.Covered) {t : Fin n} (hc : (s.pc t).carries = false)
    (hl : s'.linked → s.linked) (hs : s'.sending → s.sending) (hd : s.OnTheWay → s'.OnTheWay)
    (hpc : ∀ u, u ≠ t → s'.pc u = s.pc u) (hr : (s'.pc t).releases) : s'.Covered where
  sending h1 h2 := ((h.sending (hl h1) (hs h2)).others hc).step hd hpc
  waiting _ _ := .inr ⟨t, hr⟩

theorem mem_update_pending {s : HsState n} {r : Nat} (hf : f ∈ s.pending r)
    (hl : r = q → f ∈ l) : f ∈ Function.update s.pending q l r := by
  by_cases hr : r = q
  · subst hr
    rw [Function.update_self]
    exact hl rfl
  · rw [Function.update_of_ne hr]
    exact hf

theorem OnTheWay.pending {s : HsState n} (h : s.OnTheWay)
    (hl : ∀ f ∈ s.pending q, f.handshake → f ∈ l) (hp : s'.pending = Function.update s.pending q l)
    (hd : s'.driver = s.driver) : s'.OnTheWay := by
  rcases h with h | ⟨r, f, hf, hh⟩
  · exact .inl (hd ▸ h)
  · refine .inr ⟨r, f, ?_, hh⟩
    rw [hp]
    exact mem_update_pending hf fun hr => hl f (hr ▸ hf) hh

theorem onTheWay_addPending {s : HsState n} (h : s.OnTheWay) (t : Fin n) : (s.ieee80211AddPendingSkb t).OnTheWay := by
  unfold ieee80211AddPendingSkb
  split
  · exact h
  · exact h.pending (fun f hf _ => List.mem_append_left _ hf) rfl rfl

theorem onTheWay_tx {s : HsState n} (t : Fin n) (f : HsFrame) (p : Option Nat) (b : Bool) :
    (s.OnTheWay → (s.ieee80211Tx t f p b).OnTheWay) ∧ (f.handshake → (s.ieee80211Tx t f p b).OnTheWay) := by
  unfold ieee80211Tx
  dsimp only
  split
  · have hm : f ∈ (if p.isSome then f :: s.pending f.hwQueue else s.pending f.hwQueue ++ [f]) := by
      split
      · exact List.mem_cons_self
      · exact List.mem_append_right _ List.mem_cons_self
    refine ⟨fun h => h.pending (fun g hg _ => ?_) rfl rfl, fun hh => .inr ⟨f.hwQueue, f, ?_, hh⟩⟩
    · split
      · exact List.mem_cons_of_mem _ hg
      · exact List.mem_append_left _ hg
    · simp only [go_pending, Function.update_self]
      exact hm
  · refine ⟨fun h => ?_, fun hh => .inl ⟨f, List.mem_append_right _ List.mem_cons_self, hh⟩⟩
    rcases h with ⟨g, hg, hh⟩ | h
    · exact .inl ⟨g, List.mem_append_left _ hg, hh⟩
    · exact .inr h

theorem tx_flags (s : HsState n) (t : Fin n) (f : HsFrame) (p : Option Nat) (b : Bool) :
    (s.ieee80211Tx t f p b).linked = s.linked ∧ (s.ieee80211Tx t f p b).sending = s.sending := by
  unfold ieee80211Tx
  dsimp only
  split <;> exact ⟨rfl, rfl⟩

theorem carries_txPendingSkb (cfg : HsCfg) {s : HsState n} {i : Nat} (hf : f.needTxprocessing → f.Raw)
    (hh : f.handshake) : (s.ieee80211TxPendingSkb cfg f i).carries := by
  unfold ieee80211TxPendingSkb
  rw [if_neg fun hn => ?_]
  · exact hh
  · rw [(hf hn).2] at hh
    cases hh

theorem Covered.pop {s : HsState n} (h : s.Covered) {t : Fin n} (hc : (s.pc t).carries = false)
    (hr : (s.pc t).releases = false) (hq : s.pending q = f :: l)
    (hp : s'.pending = Function.update s.pending q l) (hd : s'.driver = s.driver) (hl : s'.linked = s.linked)
    (hs : s'.sending = s.sending) (hb : s'.buffed = s.buffed) (hpc : ∀ u, u ≠ t → s'.pc u = s.pc u)
    (hf : f.handshake → (s'.pc t).carries) : s'.Covered := by
  by_cases hh : f.handshake
  · exact covered_of_coming (coming_of_pc (hf hh))
  · refine h.step hc hr (fun e => hl ▸ e) (fun e => hs ▸ e) (fun e => hb ▸ e) (fun hw => ?_) hpc
    refine hw.pending (fun g hg hgh => ?_) hp hd
    rw [hq] at hg
    rcases List.mem_cons.mp hg with rfl | hg
    · exact absurd hgh hh
    · exact hg

theorem Covered.insert {s : HsState n} (h : s.Covered) {t : Fin n} {p : Option Nat}
    (hpc : s.pc t = .insert f p) (hC : s.linked → s.sending ∨ s.ComingBut none ∨ s.Releasing) :
    (({ s with buffed := s.buffed.put f } : HsState n).go t (.txReturn true p)).Covered := by
  have hc : (s.pc t).carries = false := by rw [hpc]; rfl
  have hr : (s.pc t).releases = false := by rw [hpc]; rfl
  have hne : ∀ u, u ≠ t → (({ s with buffed := s.buffed.put f } : HsState n).go t (.txReturn true p)).pc u = s.pc u :=
    fun u hu => go_pc_of_ne _ _ _ hu
  constructor
  · intro h1 h2
    exact ((h.sending h1 h2).others hc).step id hne
  · intro h1 _
    rcases hC h1 with h2 | h2 | h2
    · exact .inl (((h.sending h1 h2).others hc).step id hne)
    · exact .inl ((h2.others hc).step id hne)
    · exact .inr (h2.step hr hne)

theorem Covered.drop {s : HsState n} {t : Fin n} {q : HsPc} (hr : (s.pc t).releases = false)
    (hC : s.linked → s.ComingBut (some t) ∨ s.sending = false ∧ (s.buffed.waiting = [] ∨ s.Releasing)) :
    (s.go t q).Covered := by
  have hne : ∀ u, u ≠ t → (s.go t q).pc u = s.pc u := fun u hu => go_pc_of_ne _ _ _ hu
  constructor
  · intro h1 h2
    rcases hC h1 with h3 | ⟨h3, -⟩
    · exact h3.step id hne
    · rw [go_sending, h3] at h2
      cases h2
  · intro h1 h2
    rcases hC h1 with h3 | ⟨-, h3 | h3⟩
    · exact .inl (h3.step id hne)
    · exact absurd h3 h2
    · exact .inr (h3.step hr hne)

theorem Covered.exec {s : HsState n} (h : s.Covered) (hf : s.Frames) {t : Fin n} {c : HsChoice}
    (hC : s.Orderly cfg (.exec t c)) : (s.exec cfg t c).Covered := by
  have hFr := hf.pc t
  unfold HsState.exec
  cases hpc : s.pc t with
  | out => exact h
  | scan i =>
    have hc : (s.pc t).carries = false := by rw [hpc]; rfl
    have hr : (s.pc t).releases = false := by rw [hpc]; rfl
    dsimp only
    split <;> [skip; split] <;>
      exact h.step hc hr id id id id fun u hu => go_pc_of_ne _ _ _ hu
  | drain i =>
    have hc : (s.pc t).carries = false := by rw [hpc]; rfl
    have hr : (s.pc t).releases = false := by rw [hpc]; rfl
    dsimp only
    split
    next => exact h.step hc hr id id id id fun u hu => go_pc_of_ne _ _ _ hu
    next f l hq =>
      refine h.pop hc hr hq rfl rfl rfl rfl rfl (fun u hu => go_pc_of_ne _ _ _ hu) fun hh => ?_
      rw [go_pc_self]
      exact carries_txPendingSkb cfg (hf.pending i f (hq ▸ List.mem_cons_self)) hh
  | testSuccess f p | testSending f p =>
    have hc : (s.pc t).carries = false := by rw [hpc]; rfl
    have hr : (s.pc t).releases = false := by rw [hpc]; rfl
    exact h.step hc hr id id id id fun u hu => go_pc_of_ne _ _ _ hu
  | insert f p =>
    simp only [Orderly, hpc] at hC
    exact h.insert hpc hC
  | setSending f p => exact covered_of_coming (coming_of_pc (t := t) (by rw [go_pc_self]; rfl))
  | clearSuccess f p => exact covered_of_coming (coming_of_pc (t := t) (by rw [go_pc_self]; rfl))
  | handlers f p =>
    have hr : (s.pc t).releases = false := by rw [hpc]; rfl
    by_cases hh : f.handshake
    · simp only [Orderly, hpc] at hC
      dsimp only
      split
      next hdrop => exact Covered.drop hr fun h1 => hC h1 hdrop hh
      next => exact covered_of_coming (coming_of_pc (t := t) (by rw [go_pc_self]; exact hh))
    · have hc : (s.pc t).carries = false := by rw [hpc]; exact Bool.eq_false_iff.mpr hh
      dsimp only
      split <;> exact h.step hc hr id id id id fun u hu => go_pc_of_ne _ _ _ hu
  | send f p =>
    have hr : (s.pc t).releases = false := by rw [hpc]; rfl
    by_cases hh : f.handshake
    · exact covered_of_coming (.inl ((onTheWay_tx t f p c.stopped).2 hh))
    · have hc : (s.pc t).carries = false := by rw [hpc]; exact Bool.eq_false_iff.mpr hh
      obtain ⟨hb, -, hne⟩ := tx_buffed s t f p c.stopped
      obtain ⟨hl, hs⟩ := tx_flags s t f p c.stopped
      exact h.step hc hr (fun e => hl ▸ e) (fun e => hs ▸ e) (fun e => hb ▸ e) (onTheWay_tx t f p c.stopped).1 hne
  | clearSending => exact ⟨nofun, fun _ _ => .inr ⟨t, by rw [go_pc_self]; rfl⟩⟩
  | setSuccess =>
    have hc : (s.pc t).carries = false := by rw [hpc]; rfl
    exact h.releasing hc id id id (fun u hu => go_pc_of_ne _ _ _ hu) (by rw [go_pc_self]; rfl)
  | dequeue k =>
    have hc : (s.pc t).carries = false := by rw [hpc]; rfl
    dsimp only
    split
    next he =>
      have he' := List.isEmpty_iff.mp he
      refine ⟨fun h1 h2 => ?_, fun _ h2 => absurd he' h2⟩
      exact ((h.sending h1 h2).others hc).step id fun u hu => go_pc_of_ne _ _ _ hu
    next => exact h.releasing hc id id id (fun u hu => go_pc_of_ne _ _ _ hu) (by rw [go_pc_self]; rfl)
  | addPending k =>
    have hc : (s.pc t).carries = false := by rw [hpc]; rfl
    have hsame : (s.ieee80211AddPendingSkb t).linked = s.linked ∧
        (s.ieee80211AddPendingSkb t).sending = s.sending := by
      unfold ieee80211AddPendingSkb
      split <;> exact ⟨rfl, rfl⟩
    refine h.releasing hc (fun e => hsame.1 ▸ e) (fun e => hsame.2 ▸ e) (fun e => onTheWay_addPending e t) ?_ ?_
    · intro u hu
      rw [go_pc_of_ne _ _ _ hu, addPending_pc]
    · rw [go_pc_self]
      rfl

theorem Covered.next {s : HsState n} (h : s.Covered) (hf : s.Frames) (ha : s.enabled a)
    (hC : s.Orderly cfg a) : (s.next cfg a).Covered := by
  have hout : ∀ {t}, s.pc t = .out → (s.pc t).carries = false ∧ (s.pc t).releases = false := fun ht => by
    rw [ht]
    exact ⟨rfl, rfl⟩
  cases a with
  | xmit t b ac =>
    exact h.step (hout ha.1).1 (hout ha.1).2 id id id id fun u hu => go_pc_of_ne _ _ _ hu
  | tasklet t =>
    exact h.step (hout ha.1).1 (hout ha.1).2 id id id id fun u hu => go_pc_of_ne _ _ _ hu
  | exec t c => exact h.exec hf hC
  | report t f acked =>
    by_cases hh : f.handshake
    · by_cases hl : s.linked
      · refine covered_of_coming (coming_of_pc (t := t) ?_)
        simp only [HsState.next, go_pc_self, hl, hh, Bool.and_self, if_true]
        rfl
      · exact ⟨fun h1 => absurd h1 hl, fun h1 => absurd h1 hl⟩
    · refine h.step (hout ha.1).1 (hout ha.1).2 id id id (fun hw => ?_) fun u hu => go_pc_of_ne _ _ _ hu
      rcases hw with ⟨g, hg, hgh⟩ | hw
      · refine .inl ⟨g, (List.mem_erase_of_ne ?_).mpr hg, hgh⟩
        rintro rfl
        exact hh hgh
      · exact .inr hw
  | hashDel => exact ⟨nofun, nofun⟩
  | free => exact ⟨h.sending, fun _ h2 => absurd rfl h2⟩

structure Inv (cfg : HsCfg) (s : HsState n) : Prop where
  frames : s.Frames
  listed : s.Listed
  placed : s.Placed cfg
  covered : s.Covered

theorem inv_start (cfg : HsCfg) : (start : HsState n).Inv cfg where
  frames := ⟨fun _ => trivial, nofun, nofun, nofun, nofun⟩
  listed := ⟨Handoff.inv_empty, fun _ _ => rfl, fun h => absurd rfl h⟩
  placed := ⟨Handoff.ordered_empty, nofun⟩
  covered := ⟨nofun, fun _ h => absurd rfl h⟩

theorem Inv.next {s : HsState n} (h : s.Inv cfg) (ha : s.enabled a)
    (hC : s.Orderly cfg a) : (s.next cfg a).Inv cfg where
  frames := h.frames.next cfg a
  listed := h.listed.next cfg ha
  placed := h.placed.next h.frames h.listed hC
  covered := h.covered.next h.frames ha hC

theorem Inv.kept {s : HsState n} (h : s.Inv cfg) : s.Kept cfg where
  once := h.listed.once
  freed := h.listed.freed
  own := h.placed.own
  order q := h.placed.ordered.sorted.sublist (List.filter_sublist.map _)
  covered hl hi hw := by
    -- whoever has a message or releases the list is at work
    have hout : ∀ p : HsPc, p.inside = false → p.carries = false ∧ p.releases = false := by
      intro p hp
      cases p <;> first | exact ⟨rfl, rfl⟩ | cases hp
    rcases h.covered.waiting hl hw with (h1 | ⟨u, -, hu⟩) | ⟨u, hu⟩
    · exact h1
    · rw [(hout _ (hi u)).1] at hu
      cases hu
    · rw [(hout _ (hi u)).2] at hu
      cases hu

end HsState

/-- **Frames held back during the last handshake message**, over every run whose steps are `Orderly`. -/
theorem handshake_kept {n : Nat} {cfg : HsCfg} {s : HsState n} {l : List (HsState n × HsAct n)}
    (h : Path (hsSys cfg n) .start l s) (hC : ∀ p ∈ l, p.1.Orderly cfg p.2) : s.Kept cfg := by
  refine HsState.Inv.kept (h.keep (I := HsState.Inv cfg) ?_ hC (HsState.inv_start cfg))
  rintro s a t hI ⟨ha, rfl⟩ hC
  exact hI.next ha hC

namespace HsState

def message4 : HsProtocol := .pae ⟨0x030a#16, 0, 2⟩

/-- A frame of access category `ac` comes while the message is at the driver; then the report. -/
def heldBack (cfg : HsCfg) (ac : Fin 4) : List (HsAct 2) :=
  let go : HsAct 2 := .exec 0 ⟨false, false⟩
  let data : HsAct 2 := .exec 1 ⟨false, false⟩
  [.xmit 0 message4 0, go, go, go, go, .xmit 1 .data ac, data, data, data,
    .report 0 ⟨message4, 0, cfg.hwQueue 0, false, true⟩ true, go, go, go, go, go]

/-- No frame is dropped, none comes too late, and one is queued again with no other in a hand. -/
def calm (cfg : HsCfg) (s : HsState 2) : HsAct 2 → Bool
  | .exec t c =>
    match s.pc t with
    | .addPending _ => (s.buffed.hand t).all (fun x => cfg.hwQueue x.2.ac == 0) &&
        (s.buffed.hand (1 - t)).isNone
    | .insert _ _ => s.sending
    | .handlers _ _ => !c.drop
    | _ => true
  | _ => true

theorem orderly_of_calm {cfg : HsCfg} {s : HsState 2} {a : HsAct 2} (h : s.calm cfg a) : s.Orderly cfg a := by
  cases a with
  | exec t c =>
    cases hpc : s.pc t with
    | addPending k =>
      simp only [calm, hpc, Bool.and_eq_true] at h
      simp only [Orderly, hpc]
      refine fun x hx => ⟨?_, fun u y hu hy => ?_⟩
      · have := h.1
        rw [hx] at this
        exact beq_iff_eq.mp this
      · have hu' : ∀ t u : Fin 2, u ≠ t → u = 1 - t := by decide
        rw [hu' t u hu] at hy
        rw [hy] at h
        cases h.2
    | insert f p =>
      simp only [calm, hpc] at h
      simp only [Orderly, hpc]
      exact fun _ => .inl h
    | handlers f p =>
      simp only [calm, hpc, Bool.not_eq_true'] at h
      simp only [Orderly, hpc]
      intro _ hd
      rw [h] at hd
      cases hd
    | _ => simp only [Orderly, hpc]
  | _ => trivial

end HsState

theorem handshake_kept_voice :
    (((HsState.heldBack ⟨0, 16, 8⟩ 0).foldl (HsState.next ⟨0, 16, 8⟩) .start).buffed.given.length = 1) ∧
      ((HsState.heldBack ⟨0, 16, 8⟩ 0).foldl (HsState.next ⟨0, 16, 8⟩) .start).Kept ⟨0, 16, 8⟩ := by
  have hf : Fires HsState.enabled (HsState.next ⟨0, 16, 8⟩) .start (HsState.heldBack ⟨0, 16, 8⟩ 0) := by
    decide +kernel
  have hC : ∀ p ∈ trace (HsState.next ⟨0, 16, 8⟩) .start (HsState.heldBack ⟨0, 16, 8⟩ 0),
      p.1.calm ⟨0, 16, 8⟩ p.2 := by
    decide +kernel
  exact ⟨by decide +kernel, handshake_kept (Path.ofFires hf) fun p hp => HsState.orderly_of_calm (hC p hp)⟩

/-- A best-effort frame is queued on list 0, that of voice. -/
theorem handshake_wrong_queue : ∃ s, Reach (hsSys ⟨0, 16, 8⟩ 2) s ∧ ¬ s.Kept ⟨0, 16, 8⟩ := by
  have hf : Fires HsState.enabled (HsState.next ⟨0, 16, 8⟩) .start (HsState.heldBack ⟨0, 16, 8⟩ 2) := by
    decide +kernel
  refine ⟨_, Reach.fires (.init rfl) hf, fun h => ?_⟩
  have hown : ∀ x ∈ ((HsState.heldBack ⟨0, 16, 8⟩ 2).foldl (HsState.next ⟨0, 16, 8⟩) .start).buffed.given,
      x.2.hwQueue = HsCfg.hwQueue ⟨0, 16, 8⟩ x.2.ac := h.own
  exact absurd hown (by decide +kernel)

/-- The report comes between the test of `WLAN_STA_HANDSHAKE4OF4_SENDING` and the insertion: the frame is on
the list with no message coming. -/
example :
    let go : HsAct 2 := .exec 0 ⟨false, false⟩
    let data : HsAct 2 := .exec 1 ⟨false, false⟩
    let run : List (HsAct 2) := [.xmit 0 HsState.message4 0, go, go, go, go, .xmit 1 .data 0, data, data,
      .report 0 ⟨HsState.message4, 0, 0, false, true⟩ true, go, go, go, data]
    let s := run.foldl (HsState.next ⟨0, 16, 8⟩) .start
    Fires HsState.enabled (HsState.next ⟨0, 16, 8⟩) .start run ∧ s.buffed.waiting.length = 1 ∧ s.driver = [] ∧
      (∀ t, s.pc t = .out) ∧ ∀ q < 8, s.pending q = [] := by
  decide +kernel

end AtbmWifi
