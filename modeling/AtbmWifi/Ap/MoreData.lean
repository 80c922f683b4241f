import AtbmWifi.Ap.WorkConserving

/-!
# The MoreData bit

`wsm_get_tx` keeps one `more` for the whole call: the search for multicast frames sets it, no other search touches it,
and whichever frame is handed over is marked with it.

* `more_data_iff`: the bit is right iff the frame is handed over in the first turn, or its interface delivers
  multicasts, or the other interface does not (`Delivering`, before the turn).
-/

namespace AtbmWifi

open Transition

/-- The MoreData bit that `wsm_get_tx` sets in a header: `special` when the SSID contains "6.1.12", `group` for a
group address. -/
def setsMoreData (special group more : Bool) : Bool := if special then more && group else more

/-- `more` before a turn. -/
def moreBefore (u : PsState) : Bool := (u.loop.getD ⟨true, false⟩).more

/-- `more` when the frame found is handed over. -/
def moreAt (e : GetTxEnv) (u : PsState) : Bool := (u.found e (moreBefore u)).2

/-- The bit as it is meant: a DTIM frame under `tx_multicast`, and another left after it. -/
def OwesMoreData (u u' : PsState) (i : Nat) (t : AtbmTxpriv) : Prop :=
  t.linkId.toNat = dtimVirtualLinkId ∧ (u.vif i).txMulticast = true ∧ dtimFrames u' i ≠ 0

/-- The interface is there, and delivers multicasts that wait. -/
def Delivering (up : Nat → Bool) (u : PsState) (j : Nat) : Prop :=
  up j = true ∧ (u.vif j).txMulticast = true ∧ dtimFrames u j ≠ 0

instance decDelivering (up : Nat → Bool) (u : PsState) (j : Nat) : Decidable (Delivering up u j) :=
  inferInstanceAs (Decidable (_ ∧ _ ∧ _))

section
variable {u u' : PsState} {e : GetTxEnv}

theorem dtimFrames_zero (u : PsState) (j : Nat) : dtimFrames u j = 0 ↔
    ∀ c, ∀ t ∈ backlog j u.queues c, onMask (BIT dtimVirtualLinkId) t = false := dtimFrames_eq_zero_iff j u.queues

theorem found_keeps (h : Accounted u.queues) (m : Bool)
    (hno : (u.vif u.ifIdSelected).txMulticast = true → dtimFrames u u.ifIdSelected = 0) : (u.found e m).2 = m := by
  unfold PsState.found wsmGetTxQueueAndMask
  dsimp only
  by_cases htx : (u.vif u.ifIdSelected).txMulticast = true
  · rw [if_pos htx]
    have hempty := (dtimFrames_eq_zero_iff _ _).mp (hno htx)
    have hnone : (atbmGetPrioQueue (u.prioArg e u.ifIdSelected false) (BIT dtimVirtualLinkId)).1 = none := by
      rw [prioQueue_backlog h]
      exact (pickQueue_eq_none_iff _ (scores_lt e u.ifIdSelected false)).mpr hempty
    split
    · next c total hc =>
      rw [hc] at hnone
      cases hnone
    · rfl
  · rw [if_neg htx]

theorem found_more (h : Accounted u.queues) (m : Bool) (htx : (u.vif u.ifIdSelected).txMulticast = true)
    (hd : dtimFrames u u.ifIdSelected ≠ 0) : (u.found e m).2 = decide (1 < dtimFrames u u.ifIdSelected) := by
  obtain ⟨c, hfound, -⟩ := found_dtim h e m htx hd
  rw [hfound]

theorem Turned.other {d : Option TxData} (h : Turned e u u' d) (hacc : Accounted u.queues) {j : Nat}
    (hj : j ≠ u.ifIdSelected) :
    (dtimFrames u' j = 0 ↔ dtimFrames u j = 0) ∧ (u'.vif j).txMulticast = (u.vif j).txMulticast := by
  have hframes : ∀ {q : TxQueues}, backlog j q = backlog j u.queues →
      (waitingAll (dtimOf j) q = 0 ↔ dtimFrames u j = 0) := by
    intro q hq
    unfold dtimFrames
    rw [dtimFrames_eq_zero_iff, dtimFrames_eq_zero_iff, hq]
  have hget : ∀ {c : Fin 4} {mask : BitVec 32} {k : Nat},
      selectItem (u.queues.txQueue c) u.ifIdSelected mask.toNat = some k →
      backlog j (u.got e c mask) = backlog j u.queues := by
    intro c mask k hsel
    unfold PsState.got
    rw [backlog_get hsel, if_neg hj]
  cases h with
  | idle hq hv _ _ =>
    unfold dtimFrames
    rw [hq, hv]
    exact ⟨Iff.rfl, rfl⟩
  | empty _ hq _ hv =>
    unfold dtimFrames
    rw [hq, hv, Function.update_of_ne hj]
    exact ⟨Iff.rfl, rfl⟩
  | @missed _ _ c mask _ hsel hq hv =>
    rw [hv, Function.update_of_ne hj]
    refine ⟨?_, rfl⟩
    rw [dtimFrames, hq]
    exact hframes (backlog_missed hsel j)
  | handed _ _ hsel _ hq hv =>
    rw [hv, Function.update_of_ne hj]
    refine ⟨?_, rfl⟩
    rw [dtimFrames, hq]
    exact hframes (hget hsel)
  | dropped _ hsel hq hv =>
    rw [hv, Function.update_of_ne hj]
    refine ⟨?_, rfl⟩
    rw [dtimFrames]
    rcases hq with hq | hq
    · rw [hq]
      exact hframes (hget hsel)
    · rw [hq]
      apply hframes
      unfold PsState.got
      rw [backlog_dropped hacc hsel, if_neg hj]

theorem Turned.txMulticast {d : Option TxData} (h : Turned e u u' d) {j : Nat}
    (htx : (u'.vif j).txMulticast = true) : (u.vif j).txMulticast = true := by
  have hsearched : ∀ {found more : Bool}, (u.searched found more).txMulticast = true →
      (u.vif u.ifIdSelected).txMulticast = true := by
    intro found more hs
    unfold PsState.searched multicastsSearched at hs
    split at hs
    · cases hs
    · exact hs
  by_cases hj : j = u.ifIdSelected
  · subst hj
    cases h with
    | idle _ hv _ _ =>
      rw [hv] at htx
      exact htx
    | empty _ _ _ hv =>
      rw [hv, Function.update_self] at htx
      exact hsearched htx
    | missed _ _ _ hv =>
      rw [hv, Function.update_self] at htx
      exact hsearched htx
    | dropped _ _ _ hv =>
      rw [hv, Function.update_self] at htx
      exact hsearched htx
    | handed _ _ _ _ _ hv =>
      rw [hv, Function.update_self] at htx
      exact hsearched htx
  · have hv : u'.vif j = u.vif j := by
      cases h with
      | idle _ hv _ _ => rw [hv]
      | empty _ _ _ hv => rw [hv, Function.update_of_ne hj]
      | missed _ _ _ hv => rw [hv, Function.update_of_ne hj]
      | dropped _ _ _ hv => rw [hv, Function.update_of_ne hj]
      | handed _ _ _ _ _ hv => rw [hv, Function.update_of_ne hj]
    rw [hv] at htx
    exact htx

variable {i : Nat} {ap : Nat → Bool} {t : AtbmTxpriv}

theorem getTxFrame_left (ap : Bool) (e : GetTxEnv) (more : Bool) {k : Nat} {c : Fin 4} {mask : BitVec 32}
    (hacc : Accounted u.queues) (hsel : selectItem (u.queues.txQueue c) i mask.toNat = some k) :
    backlog i (getTxFrame ap e i c mask more u).1.queues = takenFrom (backlog i u.queues) c mask ∧
      ((getTxFrame ap e i c mask more u).1.vif i).txMulticast = (u.vif i).txMulticast := by
  have hgot : backlog i (u.queues.step ⟨c, e.q, .get i mask.toNat⟩) = takenFrom (backlog i u.queues) c mask := by
    rw [backlog_get hsel, if_pos rfl]
  cases hdrop : wsmHandleTxData ap e.other (u.vif i) ((u.queues.txQueue c).pool k).txpriv with
  | true =>
    rw [getTxFrame_dropped hacc hsel hdrop]
    refine ⟨?_, rfl⟩
    show backlog i ((u.queues.step _).step _) = _
    rw [backlog_dropped hacc hsel, if_pos rfl]
  | false =>
    unfold getTxFrame
    simp only [hsel, hdrop, Bool.false_eq_true, if_false]
    refine ⟨hgot, ?_⟩
    show (Function.update u.vif i _ i).txMulticast = _
    rw [Function.update_self]

theorem search_delivers (ap : Nat → Bool) (loop : GetTxLoop) (hacc : Accounted u.queues) (hlock : u.txLock = 0)
    (hbufs : e.bufsFull = false) (hup : e.up u.ifIdSelected = true) (hen : e.enabled u.ifIdSelected = true)
    (htx : (u.vif u.ifIdSelected).txMulticast = true) (hd : dtimFrames u u.ifIdSelected ≠ 0) :
    (dtimFrames (getTxTurn ap e loop u).1 u.ifIdSelected ≠ 0 ↔ 1 < dtimFrames u u.ifIdSelected) ∧
      (1 < dtimFrames u u.ifIdSelected →
        ((getTxTurn ap e loop u).1.vif u.ifIdSelected).txMulticast = true) := by
  obtain ⟨c, hfound, hw⟩ := found_dtim hacc e loop.more htx hd
  obtain ⟨k, hsel⟩ := Option.ne_none_iff_exists'.mp (select_dtim hw)
  let w := u.inTurn.setVif u.ifIdSelected
    (multicastsSearched true (decide (1 < dtimFrames u u.ifIdSelected)) (u.vif u.ifIdSelected))
  have hnext : (getTxTurn ap e loop u).1 = (getTxFrame (ap u.ifIdSelected) e u.ifIdSelected c (BIT dtimVirtualLinkId)
      (decide (1 < dtimFrames u u.ifIdSelected)) w).1 := by
    rw [getTxTurn_search hlock hbufs hup hen, hfound]
    rfl
  have hleft := getTxFrame_left (u := w) (ap u.ifIdSelected) e (decide (1 < dtimFrames u u.ifIdSelected)) hacc hsel
  have hback : backlog u.ifIdSelected w.queues = backlog u.ifIdSelected u.queues := rfl
  rw [hback] at hleft
  rw [hnext]
  refine ⟨?_, fun hmore => ?_⟩
  · have hgot : backlog u.ifIdSelected (u.got e c (BIT dtimVirtualLinkId)) =
        takenFrom (backlog u.ifIdSelected u.queues) c (BIT dtimVirtualLinkId) := by
      unfold PsState.got
      rw [backlog_get hsel, if_pos rfl]
    have hcount := got_count (e := e) hsel
    rw [ne_eq, dtimFrames_zero, hleft.1, ← hgot, ← dtimFrames_eq_zero_iff]
    omega
  · rw [hleft.2]
    show (Function.update u.vif u.ifIdSelected _ u.ifIdSelected).txMulticast = true
    rw [Function.update_self, decide_eq_true hmore]
    unfold multicastsSearched
    rw [if_neg (by simp)]
    exact htx

def UnderWay (u : PsState) : Prop := u.loop.isSome = true ∨ u.saveBuf = none ∧ u.cmd = false

theorem UnderWay.call (h : UnderWay u) (ap : Nat → Bool) (e : GetTxEnv) :
    wsmGetTx ap e u = getTxTurn ap e (u.loop.getD ⟨true, false⟩) u := by
  unfold wsmGetTx
  cases hl : u.loop with
  | some loop => rfl
  | none =>
    rcases h with h | ⟨hs, hc⟩
    · rw [hl] at h
      cases h
    · rw [hs, hc]
      rfl

theorem getTxFrame_on {ap : Bool} {c : Fin 4} {mask : BitVec 32} {more : Bool}
    (hdata : (getTxFrame ap e i c mask more u).2 = none) (hcrash : (getTxFrame ap e i c mask more u).1.crashed = false) :
    (getTxFrame ap e i c mask more u).1.loop = some ⟨false, more⟩ ∧
      (getTxFrame ap e i c mask more u).1.ifIdSelected = u.ifIdSelected := by
  unfold getTxFrame at hdata hcrash ⊢
  dsimp only at hdata hcrash ⊢
  split
  · exact ⟨rfl, rfl⟩
  · next k hk =>
    rw [hk] at hdata hcrash
    dsimp only at hdata hcrash
    split
    · next hdrop =>
      rw [if_pos hdrop] at hcrash
      split
      · next hremove =>
        rw [if_pos hremove] at hcrash
        cases hcrash
      · exact ⟨rfl, rfl⟩
    · next hdrop =>
      rw [if_neg hdrop] at hdata
      cases hdata

theorem turnOn_spec (h : UnderWay u) (hon : turnOn ap e u = true) :
    (wsmGetTx ap e u).1.loop.isSome = true ∧ (wsmGetTx ap e u).1.ifIdSelected = u.ifIdSelected ^^^ 1 ∧
      (e.up u.ifIdSelected = false ∧ (wsmGetTx ap e u).1.queues = u.queues ∧ (wsmGetTx ap e u).1.vif = u.vif ∧
          moreBefore (wsmGetTx ap e u).1 = moreBefore u ∨
        (u.txLock = 0 ∧ e.bufsFull = false ∧ e.up u.ifIdSelected = true ∧ e.enabled u.ifIdSelected = true) ∧
          moreBefore (wsmGetTx ap e u).1 = moreAt e u) := by
  unfold turnOn at hon
  simp only [Bool.and_eq_true, Option.isNone_iff_eq_none, Bool.not_eq_true'] at hon
  obtain ⟨⟨hdata, hloop⟩, hcrash⟩ := hon
  refine ⟨hloop, ?_⟩
  have hnext : ∀ {loop : GetTxLoop} {w : PsState}, (nextTurn loop w).loop.isSome = true →
      moreBefore (nextTurn loop w) = loop.more := by
    intro loop w hsome
    unfold moreBefore nextTurn at *
    cases hp : loop.ifPending with
    | false =>
      rw [hp] at hsome
      cases hsome
    | true => rfl
  unfold moreAt
  rw [h.call ap e] at hdata hloop hcrash ⊢
  by_cases hstop : u.txLock ≠ 0 ∨ e.bufsFull = true
  · unfold getTxTurn at hloop
    rw [if_pos hstop] at hloop
    cases hloop
  rw [not_or, not_not, Bool.not_eq_true] at hstop
  cases hup : e.up u.ifIdSelected with
  | false =>
    rw [getTxTurn_absent hstop.1 hstop.2 hup] at hloop ⊢
    exact ⟨rfl, .inl ⟨rfl, rfl, rfl, hnext hloop⟩⟩
  | true =>
    cases hen : e.enabled u.ifIdSelected with
    | false =>
      rw [getTxTurn_disabled hstop.1 hstop.2 hup hen] at hloop
      cases hloop
    | true =>
      rw [getTxTurn_search hstop.1 hstop.2 hup hen] at hdata hloop hcrash ⊢
      unfold moreBefore at hnext ⊢
      rcases hfound : u.found e (u.loop.getD ⟨true, false⟩).more with ⟨_ | ⟨c, mask⟩, more⟩
      · rw [hfound] at hloop
        exact ⟨rfl, .inr ⟨⟨hstop.1, hstop.2, rfl, rfl⟩, hnext hloop⟩⟩
      · rw [hfound] at hdata hcrash
        obtain ⟨hmore, hsel⟩ := getTxFrame_on hdata hcrash
        refine ⟨hsel, .inr ⟨⟨hstop.1, hstop.2, rfl, rfl⟩, ?_⟩⟩
        unfold afterFound
        rw [hmore]
        rfl

/-- What holds before turn `n`: `more` is set if the interface just served delivers, and only if it or the one in turn
does. -/
structure MoreInv (up : Nat → Bool) (n : Nat) (u : PsState) : Prop where
  accounted : Accounted u.queues
  underWay : UnderWay u
  start : n = 0 → moreBefore u = false
  served : n ≠ 0 → Delivering up u (u.ifIdSelected ^^^ 1) → moreBefore u = true
  one : moreBefore u = true → Delivering up u (u.ifIdSelected ^^^ 1) ∨ Delivering up u u.ifIdSelected

/-- **A turn keeps it.** -/
theorem MoreInv.next {n : Nat} (h : MoreInv e.up n u) (hon : turnOn ap e u = true) :
    MoreInv e.up (n + 1) (wsmGetTx ap e u).1 := by
  obtain ⟨hloop, hsel, hturn⟩ := turnOn_spec h.underWay hon
  have hT := wsmGetTx_turned ap e u
  have hother : Delivering e.up (wsmGetTx ap e u).1 (u.ifIdSelected ^^^ 1) ↔
      Delivering e.up u (u.ifIdSelected ^^^ 1) := by
    obtain ⟨hframes, htx⟩ := hT.other h.accounted (partner_ne u.ifIdSelected)
    unfold Delivering
    rw [htx, ne_eq, hframes]
  have hown : Delivering e.up (wsmGetTx ap e u).1 u.ifIdSelected → Delivering e.up u u.ifIdSelected := by
    rintro ⟨hup, htx, hd⟩
    have hle := hT.frames_le u.ifIdSelected
    exact ⟨hup, hT.txMulticast htx, by omega⟩
  refine ⟨hT.accounted h.accounted, .inl hloop, nofun, fun _ => ?_, ?_⟩
  · rw [hsel, partner_partner]
    intro hd
    rcases hturn with ⟨hdown, -⟩ | ⟨⟨hlock, hbufs, hup, hen⟩, hmore⟩
    · exact absurd (hdown.symm.trans hd.1) Bool.false_ne_true
    · obtain ⟨-, htx, hframes⟩ := hown hd
      have hleft := (search_delivers ap (u.loop.getD ⟨true, false⟩) h.accounted hlock hbufs hup hen
        htx hframes).1
      rw [← h.underWay.call] at hleft
      rw [hmore, moreAt, found_more h.accounted _ htx hframes]
      exact decide_eq_true (hleft.mp hd.2.2)
  · rw [hsel, partner_partner]
    intro hm
    rcases hturn with ⟨hdown, -, -, hmore⟩ | ⟨⟨hlock, hbufs, hup, hen⟩, hmore⟩
    · rw [hmore] at hm
      rcases h.one hm with hd | hd
      · exact .inr (hother.mpr hd)
      · exact absurd (hdown.symm.trans hd.1) Bool.false_ne_true
    · rw [hmore] at hm
      unfold moreAt at hm
      by_cases hd : Delivering e.up u u.ifIdSelected
      · -- the frame taken had others behind it
        obtain ⟨-, htx, hframes⟩ := hd
        rw [found_more h.accounted _ htx hframes, decide_eq_true_eq] at hm
        have hleft := search_delivers ap (u.loop.getD ⟨true, false⟩) h.accounted hlock hbufs hup hen
          htx hframes
        rw [← h.underWay.call] at hleft
        exact .inl ⟨hup, hleft.2 hm, hleft.1.mpr hm⟩
      · rw [found_keeps h.accounted] at hm
        · rcases h.one hm with hd' | hd'
          · exact .inr (hother.mpr hd')
          · exact absurd hd' hd
        · intro htx
          by_contra hframes
          exact hd ⟨hup, htx, hframes⟩

theorem handed_present (h : UnderWay u)
    (hdata : (wsmGetTx ap e u).2 = some (.frame i t)) : e.up u.ifIdSelected = true := by
  rw [h.call] at hdata
  by_contra hup
  rw [Bool.not_eq_true] at hup
  by_cases hstop : u.txLock ≠ 0 ∨ e.bufsFull = true
  · unfold getTxTurn at hdata
    rw [if_pos hstop] at hdata
    cases hdata
  · rw [not_or, not_not, Bool.not_eq_true] at hstop
    rw [getTxTurn_absent hstop.1 hstop.2 hup] at hdata
    cases hdata

theorem CallReturns.underWay {env : Nat → GetTxEnv} {s : PsState} {n : Nat}
    (h : CallReturns ap env s n (some (.frame i t))) : UnderWay s := by
  by_contra hno
  have hl : s.loop = none := by
    rw [← Option.not_isSome_iff_eq_none]
    exact fun hl => hno (.inl hl)
  have hfirst : turnOn ap (env 0) s = false ∧ (wsmGetTx ap (env 0) s).2 ≠ some (.frame i t) := by
    unfold turnOn wsmGetTx
    rw [hl]
    dsimp only
    cases hs : s.saveBuf with
    | some vif =>
      dsimp only
      split
      · exact ⟨rfl, nofun⟩
      · refine ⟨?_, nofun⟩
        rw [hl]
        rfl
    | none =>
      cases hc : s.cmd with
      | true => exact ⟨rfl, nofun⟩
      | false => exact absurd (.inr ⟨hs, hc⟩) hno
  cases n with
  | zero => exact hfirst.2 h.data
  | succ n => exact absurd (hfirst.1.symm.trans (h.on 0 (Nat.succ_pos n))) Bool.false_ne_true

theorem moreInv_before {env : Nat → GetTxEnv} {s : PsState} (hacc : Accounted s.queues)
    (hl : s.loop = none) (hway : UnderWay s) (hup : ∀ m, (env m).up = (env 0).up) (n : Nat)
    (hon : ∀ m < n, turnOn ap (env m) (beforeTurn ap env s m) = true) :
    MoreInv (env 0).up n (beforeTurn ap env s n) := by
  have hmore : moreBefore s = false := by
    unfold moreBefore
    rw [hl]
    rfl
  induction n with
  | zero =>
    refine ⟨hacc, hway, fun _ => hmore, fun h => absurd rfl h, fun h => ?_⟩
    exact absurd (hmore.symm.trans h) Bool.false_ne_true
  | succ n ih =>
    have hn := ih fun m hm => hon m (Nat.lt_succ_of_lt hm)
    rw [← hup n] at hn ⊢
    exact hn.next (hon n (Nat.lt_succ_self n))

/-- **The bit in one turn**: it is right iff the frame is found by the search for multicasts, or `more` is clear. -/
theorem handed_more (hacc : Accounted u.queues) (hdata : (wsmGetTx ap e u).2 = some (.frame i t)) : i = u.ifIdSelected ∧
      ((moreAt e u = true ↔ OwesMoreData u (wsmGetTx ap e u).1 i t) ↔
        (u.vif i).txMulticast = true ∧ dtimFrames u i ≠ 0 ∨ moreBefore u = false) := by
  have hT := wsmGetTx_turned ap e u
  rw [hdata] at hT
  generalize (wsmGetTx ap e u).1 = u' at hT
  cases hT with
  | idle _ _ _ hno => exact absurd rfl (hno i t)
  | @handed m more c mask k _ _ hfound hsel ht hq _ =>
    refine ⟨rfl, ?_⟩
    by_cases hd : (u.vif u.ifIdSelected).txMulticast = true ∧ dtimFrames u u.ifIdSelected ≠ 0
    · refine iff_of_true ?_ (.inl hd)
      obtain ⟨htx, hframes⟩ := hd
      obtain ⟨c', hdtim, -⟩ := found_dtim hacc e m htx hframes
      rw [hfound, Prod.mk.injEq, Option.some.injEq, Prod.mk.injEq] at hdtim
      obtain ⟨⟨rfl, rfl⟩, -⟩ := hdtim
      have hcount := got_count (e := e) hsel
      have hleft : dtimFrames u' u.ifIdSelected + 1 = dtimFrames u u.ifIdSelected := by
        rw [dtimFrames, hq]
        exact hcount
      have hlink : t.linkId.toNat = dtimVirtualLinkId := by
        rw [ht]
        exact (bit_dtim_iff _).mp (selectItem_spec hsel).2
      rw [moreAt, found_more hacc _ htx hframes, decide_eq_true_eq]
      constructor
      · intro hm
        exact ⟨hlink, htx, by omega⟩
      · rintro ⟨-, -, h0⟩
        omega
    · have hkeeps : moreAt e u = moreBefore u := by
        apply found_keeps hacc
        intro htx
        by_contra hframes
        exact hd ⟨htx, hframes⟩
      have hno : ¬OwesMoreData u u' u.ifIdSelected t := by
        rintro ⟨hlink, htx, -⟩
        apply hd
        refine ⟨htx, fun h0 => ?_⟩
        -- the frame itself waited on the DTIM link
        have hmem : t ∈ backlog u.ifIdSelected u.queues c := by
          have hselect := select_backlog u.queues c u.ifIdSelected mask
          rw [hsel, Option.map_some, ← ht] at hselect
          exact List.mem_of_find?_eq_some hselect
        have hoff := (dtimFrames_zero u u.ifIdSelected).mp h0 c t hmem
        exact Bool.false_ne_true (hoff.symm.trans ((bit_dtim_iff _).mpr hlink))
      rw [hkeeps, or_iff_right hd]
      constructor
      · intro hiff
        rw [← Bool.not_eq_true]
        exact fun hm => hno (hiff.mp hm)
      · intro hm
        rw [hm]
        exact iff_of_false Bool.false_ne_true hno

end

/-- **MoreData, exactly.** -/
theorem more_data_iff {ap : Nat → Bool} (env : Nat → GetTxEnv) {s u : PsState} {n i : Nat} {t : AtbmTxpriv}
    (hq : Reach (queues.restrict OwnIds) s.queues) (hl : s.loop = none) (hup : ∀ m, (env m).up = (env 0).up)
    (h : CallReturns ap env s n (some (.frame i t))) (hu : beforeTurn ap env s n = u) (group : Bool) :
    (setsMoreData false group (moreAt (env n) u) = true ↔ OwesMoreData u (wsmGetTx ap (env n) u).1 i t) ↔
      n = 0 ∨ Delivering (env 0).up u i ∨ ¬Delivering (env 0).up u (i ^^^ 1) := by
  have hinv := moreInv_before (accounted_reach_ownIds hq) hl h.underWay hup n h.on
  have hdata := h.data
  rw [hu] at hinv hdata
  have hpresent : (env 0).up u.ifIdSelected = true := hup n ▸ handed_present hinv.underWay hdata
  obtain ⟨rfl, hturn⟩ := handed_more hinv.accounted hdata
  have hdeliver : (u.vif u.ifIdSelected).txMulticast = true ∧ dtimFrames u u.ifIdSelected ≠ 0 ↔
      Delivering (env 0).up u u.ifIdSelected := ⟨fun hd => ⟨hpresent, hd⟩, fun hd => hd.2⟩
  have hsets : setsMoreData false group (moreAt (env n) u) = moreAt (env n) u := rfl
  rw [hsets, hturn, hdeliver]
  constructor
  · rintro (hd | hm)
    · exact .inr (.inl hd)
    · by_cases hn : n = 0
      · exact .inl hn
      · refine .inr (.inr fun hd => ?_)
        exact Bool.false_ne_true (hm.symm.trans (hinv.served hn hd))
  · intro hc
    by_cases hd : Delivering (env 0).up u u.ifIdSelected
    · exact .inl hd
    · right
      rcases hc with hn | hd' | hno
      · exact hinv.start hn
      · exact absurd hd' hd
      · rw [← Bool.not_eq_true]
        intro hm
        exact (hinv.one hm).elim hno hd

def dtimPut (frame : Nat) (ifId : UInt8) : QEvent :=
  ⟨0, sampleEnv, .put ⟨frame, 0⟩ { sampleTxpriv ifId with linkId := 15, rawLinkId := 0 }⟩

def delivering (beaconing : Bool) (l : List QEvent) : PsState :=
  (apsWith l).setVif 0
    { AtbmVif.init with joinStatus := if beaconing then .ap else .passive, linkIdMap := BIT 1, txMulticast := true }

def twoMulticasts : PsState := delivering true [dtimPut 7 0, dtimPut 8 0]

theorem more_data_first :
    setsMoreData false true (moreAt bothUp twoMulticasts) = true ↔
      OwesMoreData twoMulticasts (wsmGetTx (fun _ => true) bothUp twoMulticasts).1 0
        { sampleTxpriv 0 with linkId := 15, rawLinkId := 0 } := by
  have hq : Reach (queues.restrict OwnIds) twoMulticasts.queues :=
    puts_reach (l := [dtimPut 7 0, dtimPut 8 0]) (by decide)
  have hret : CallReturns (fun _ => true) (fun _ => bothUp) twoMulticasts 0
      (some (.frame 0 { sampleTxpriv 0 with linkId := 15, rawLinkId := 0 })) :=
    ⟨fun m hm => absurd hm (Nat.not_lt_zero m), by decide +kernel, by decide +kernel⟩
  exact (more_data_iff (fun _ => bothUp) hq rfl (fun _ => rfl) hret rfl true).mpr (.inl rfl)

def droppedMulticast : PsState := delivering false [dtimPut 7 0, dtimPut 8 0, linkPut 9 1 1]

/-- **A unicast frame is marked**: interface 0 drops the first of its multicasts, and interface 1 has the next turn. -/
theorem unicast_marked :
    Reach (queues.restrict OwnIds) droppedMulticast.queues ∧ droppedMulticast.loop = none ∧
    CallReturns (fun _ => true) (fun _ => bothUp) droppedMulticast 1
      (some (.frame 1 { sampleTxpriv 1 with linkId := 1, rawLinkId := 1 })) ∧
    setsMoreData false false
      (moreAt bothUp (beforeTurn (fun _ => true) (fun _ => bothUp) droppedMulticast 1)) = true ∧
    ¬OwesMoreData (beforeTurn (fun _ => true) (fun _ => bothUp) droppedMulticast 1)
      (beforeTurn (fun _ => true) (fun _ => bothUp) droppedMulticast 2) 1
      { sampleTxpriv 1 with linkId := 1, rawLinkId := 1 } := by
  refine ⟨puts_reach (l := [dtimPut 7 0, dtimPut 8 0, linkPut 9 1 1]) (by decide), rfl,
    ⟨by decide +kernel, by decide +kernel, by decide +kernel⟩, by decide +kernel, ?_⟩
  rintro ⟨hlink, -⟩
  exact absurd hlink (by decide)

end AtbmWifi
