import AtbmWifi.Ap.Search
import AtbmWifi.Lib.InTurn

/-!
# The frames `wsm_get_tx` leaves behind

Only in its first turn does a call go on to the other interface when it finds nothing.  From then on it goes on only
while frames are dropped, one of each interface in turn, and ends with the first interface that has none left, is
absent or is not enabled.

On its own (`ownTurn`) each interface drops the frames ahead of its first sendable one (`lead`); the call is the two
of them in turn.

* `work_conserving_iff`: with a sendable frame, a frame is returned iff the interface that has it comes first (`InTime`).
-/

namespace AtbmWifi

open Transition InTurn

/-- There is device credit, and the interfaces do not change during the call. -/
structure Steady (env : Nat → GetTxEnv) : Prop where
  credit : ∀ n, (env n).bufsFull = false
  up : ∀ n, (env n).up = (env 0).up
  enabled : ∀ n, (env n).enabled = (env 0).enabled
  other : ∀ n, (env n).other = (env (n % 2)).other

section
variable (ap : Nat → Bool) (env : Nat → GetTxEnv) (s : PsState)

/-- The turn of a call that is the first of interface `i`. -/
def firstTurn (i : Nat) : Nat := if i = s.ifIdSelected then 0 else 1

/-- `wsm_handle_tx_data` drops the frame. -/
def dropsFrame (i : Nat) (t : AtbmTxpriv) : Bool :=
  wsmHandleTxData (ap i) (env (firstTurn s i)).other (s.vif i) t

/-- The interface is enabled, and a frame of it may transmit and is not dropped. -/
def Sendable (i : Nat) : Prop :=
  (env 0).up i = true ∧ (env 0).enabled i = true ∧
    ∃ c, ∃ t ∈ backlog i s.queues c, mayGo (s.vif i) t = true ∧ dropsFrame ap env s i t = false

/-- The frames of a backlog, in the order in which they are found if each is taken; a turn in two is the
interface's. -/
def searchOrder (i : Nat) : Nat → Nat → Backlog → List AtbmTxpriv
  | 0, _, _ => []
  | k + 1, n, b =>
    match nextFrame (scores (env n) i) s.txBurstIdx (s.vif i) b with
    | none => []
    | some (t, b') => t :: searchOrder i k (n + 2) b'

/-- The frames dropped ahead of the first sendable one, or all of them. -/
def lead (i : Nat) : Nat :=
  if (env 0).up i && (env 0).enabled i then
    (searchOrder env s i (∑ c, (backlog i s.queues c).length) (firstTurn s i) (backlog i s.queues)).findIdx
      fun t => !dropsFrame ap env s i t
  else 0

/-- The interface is absent, or is enabled and has no frame that may transmit. -/
def Passed (i : Nat) : Prop :=
  (env 0).up i = false ∨
    (env 0).enabled i = true ∧ ∀ c, ∀ t ∈ backlog i s.queues c, mayGo (s.vif i) t = false

/-- A sendable frame is reached before the other interface ends the call. -/
def InTime : Prop :=
  Sendable ap env s s.ifIdSelected ∧ lead ap env s s.ifIdSelected ≤ lead ap env s (s.ifIdSelected ^^^ 1) ∨
    Sendable ap env s (s.ifIdSelected ^^^ 1) ∧
      (lead ap env s (s.ifIdSelected ^^^ 1) < lead ap env s s.ifIdSelected ∨
        lead ap env s (s.ifIdSelected ^^^ 1) = 0 ∧ Passed env s s.ifIdSelected)

/-- A turn of interface `i`, by its number and backlog. -/
def ownTurn (i : Nat) (x : Nat × Backlog) : (Nat × Backlog) ⊕ Option (Nat × AtbmTxpriv) :=
  if !(env 0).up i then if x.1 = 0 then .inl (x.1 + 2, x.2) else .inr none
  else if !(env 0).enabled i then .inr none
  else
    match nextFrame (scores (env x.1) i) s.txBurstIdx (s.vif i) x.2 with
    | none => if x.1 = 0 then .inl (x.1 + 2, x.2) else .inr none
    | some (t, b) => if dropsFrame ap env s i t then .inl (x.1 + 2, b) else .inr (some (i, t))

end

section
variable {ap : Nat → Bool} {env : Nat → GetTxEnv} {s : PsState} {i n : Nat} {b : Backlog}

theorem scores_lt (e : GetTxEnv) (i : Nat) (second : Bool) (c : Fin 4) : scores e i second c < 4294967295 :=
  edcaScore_lt ..

variable (ap) in
theorem ownTurn_absent (hup : (env 0).up i = false) :
    ownTurn ap env s i (n, b) = if n = 0 then .inl (n + 2, b) else .inr none := by
  unfold ownTurn
  rw [hup, Bool.not_false, if_pos rfl]

theorem ownTurn_disabled (hup : (env 0).up i = true) (hen : (env 0).enabled i = false) :
    ownTurn ap env s i (n, b) = .inr none := by
  unfold ownTurn
  rw [hup, hen, Bool.not_true, Bool.not_false, if_neg Bool.false_ne_true, if_pos rfl]

variable (ap) in
theorem ownTurn_none (hup : (env 0).up i = true) (hen : (env 0).enabled i = true)
    (hnext : nextFrame (scores (env n) i) s.txBurstIdx (s.vif i) b = none) :
    ownTurn ap env s i (n, b) = if n = 0 then .inl (n + 2, b) else .inr none := by
  unfold ownTurn
  rw [hup, hen, Bool.not_true, if_neg Bool.false_ne_true, if_neg Bool.false_ne_true, hnext]

variable {b' : Backlog} {t : AtbmTxpriv}

variable (ap) in
theorem ownTurn_some (hup : (env 0).up i = true) (hen : (env 0).enabled i = true)
    (hnext : nextFrame (scores (env n) i) s.txBurstIdx (s.vif i) b = some (t, b')) :
    ownTurn ap env s i (n, b) =
      if dropsFrame ap env s i t = true then .inl (n + 2, b') else .inr (some (i, t)) := by
  unfold ownTurn
  rw [hup, hen, Bool.not_true, if_neg Bool.false_ne_true, if_neg Bool.false_ne_true, hnext]

theorem nextFrame_length {score : Bool → Fin 4 → Nat} {burst : Option (Fin 4)} {v : AtbmVif}
    (hscore : ∀ second c, score second c < 4294967295)
    (h : nextFrame score burst v b = some (t, b')) : ∑ c, (b c).length = ∑ c, (b' c).length + 1 := by
  obtain ⟨-, c, hperm, hother⟩ := nextFrame_spec hscore h
  have hlen : (b c).length = (b' c).length + 1 := by
    rw [hperm.length_eq, List.length_cons]
  have hrest : ∑ c' ∈ Finset.univ.erase c, (b c').length = ∑ c' ∈ Finset.univ.erase c, (b' c').length := by
    apply Finset.sum_congr rfl
    intro c' hc
    rw [hother c' (Finset.ne_of_mem_erase hc)]
  have h1 := Finset.add_sum_erase Finset.univ (fun c => (b c).length) (Finset.mem_univ c)
  have h2 := Finset.add_sum_erase Finset.univ (fun c => (b' c).length) (Finset.mem_univ c)
  omega

theorem nextFrame_mem {score : Bool → Fin 4 → Nat} {burst : Option (Fin 4)} {v : AtbmVif}
    (hscore : ∀ second c, score second c < 4294967295)
    (h : nextFrame score burst v b = some (t, b')) (t' : AtbmTxpriv) :
    (∃ c, t' ∈ b c) ↔ t' = t ∨ ∃ c, t' ∈ b' c := by
  obtain ⟨-, c, hperm, hother⟩ := nextFrame_spec hscore h
  constructor
  · rintro ⟨c', ht⟩
    by_cases hc : c' = c
    · subst hc
      rw [hperm.mem_iff, List.mem_cons] at ht
      exact ht.imp_right fun ht => ⟨c', ht⟩
    · rw [← hother c' hc] at ht
      exact .inr ⟨c', ht⟩
  · rintro (rfl | ⟨c', ht⟩)
    · exact ⟨c, hperm.mem_iff.mpr List.mem_cons_self⟩
    · by_cases hc : c' = c
      · subst hc
        exact ⟨c', hperm.mem_iff.mpr (List.mem_cons_of_mem _ ht)⟩
      · rw [hother c' hc] at ht
        exact ⟨c', ht⟩

variable (ap) in
theorem ends_searched (hup : (env 0).up i = true) (hen : (env 0).enabled i = true) {k : Nat}
    (hk : ∑ c, (b c).length ≤ k) (hn : n ≠ 0 ∨ ∃ c, ∃ t ∈ b c, mayGo (s.vif i) t = true) :
    ∃ r, Ends (ownTurn ap env s i) (n, b)
        ((searchOrder env s i k n b).findIdx fun t => !dropsFrame ap env s i t) r ∧
      (r.isSome = true ↔ ∃ c, ∃ t ∈ b c, mayGo (s.vif i) t = true ∧ dropsFrame ap env s i t = false) := by
  induction k generalizing n b with
  | zero =>
    have hempty : ∀ c, b c = [] := by
      intro c
      have hle := Finset.single_le_sum (f := fun c => (b c).length) (fun _ _ => Nat.zero_le _) (Finset.mem_univ c)
      exact List.length_eq_zero_iff.mp (Nat.le_zero.mp (hle.trans hk))
    have hno : ∀ c, ∀ t ∈ b c, mayGo (s.vif i) t = false := by
      intro c t ht
      rw [hempty c] at ht
      cases ht
    have hn0 : n ≠ 0 := by
      refine hn.resolve_right ?_
      rintro ⟨c, t, ht, -⟩
      rw [hempty c] at ht
      cases ht
    have hturn := ownTurn_none ap hup hen ((nextFrame_eq_none_iff (scores_lt (env n) i)).mpr hno)
    rw [if_neg hn0] at hturn
    refine ⟨none, .now hturn, iff_of_false Bool.false_ne_true ?_⟩
    rintro ⟨c, t, ht, -⟩
    rw [hempty c] at ht
    cases ht
  | succ k ih =>
    unfold searchOrder
    cases hnext : nextFrame (scores (env n) i) s.txBurstIdx (s.vif i) b with
    | none =>
      have hno := (nextFrame_eq_none_iff (scores_lt (env n) i)).mp hnext
      have hn0 : n ≠ 0 := by
        refine hn.resolve_right ?_
        rintro ⟨c, t, ht, hgo⟩
        exact Bool.false_ne_true ((hno c t ht).symm.trans hgo)
      have hturn := ownTurn_none ap hup hen hnext
      rw [if_neg hn0] at hturn
      refine ⟨none, .now hturn, iff_of_false Bool.false_ne_true ?_⟩
      rintro ⟨c, t, ht, hgo, -⟩
      exact Bool.false_ne_true ((hno c t ht).symm.trans hgo)
    | some p =>
      obtain ⟨t, b'⟩ := p
      have hgo := (nextFrame_spec (scores_lt (env n) i) hnext).1
      have hmem := nextFrame_mem (scores_lt (env n) i) hnext
      have hturn := ownTurn_some ap hup hen hnext
      dsimp only
      rw [List.findIdx_cons]
      cases hdrop : dropsFrame ap env s i t with
      | false =>
        rw [hdrop, if_neg Bool.false_ne_true] at hturn
        obtain ⟨c, ht⟩ := (hmem t).mpr (.inl rfl)
        exact ⟨some (i, t), .now hturn, iff_of_true rfl ⟨c, t, ht, hgo, hdrop⟩⟩
      | true =>
        rw [hdrop, if_pos rfl] at hturn
        have hlen := nextFrame_length (scores_lt (env n) i) hnext
        obtain ⟨r, hends, hr⟩ := ih (n := n + 2) (b := b') (by omega) (.inl (by omega))
        refine ⟨r, .later hturn hends, hr.trans ?_⟩
        constructor
        · rintro ⟨c, t', ht', hsend⟩
          obtain ⟨c', hc'⟩ := (hmem t').mpr (.inr ⟨c, ht'⟩)
          exact ⟨c', t', hc', hsend⟩
        · rintro ⟨c, t', ht', hsend⟩
          rcases (hmem t').mp ⟨c, ht'⟩ with rfl | ⟨c', hc'⟩
          · exact absurd (hsend.2.symm.trans hdrop) Bool.false_ne_true
          · exact ⟨c', t', hc', hsend⟩

end

/-- The interface as the call found it, but for the works of the multicasts; `tx_multicast` is cleared only once the
DTIM frames of `b` are gone. -/
def SameGate (b : Backlog) (v v' : AtbmVif) : Prop :=
  ∃ buffered stop tx, v' = { v with bufferedMulticasts := buffered, multicastStopWork := stop, txMulticast := tx } ∧
    (tx = v.txMulticast ∨ ∀ c, ∀ t ∈ b c, onMask (BIT dtimVirtualLinkId) t = false)

theorem SameGate.refl (b : Backlog) (v : AtbmVif) : SameGate b v v := ⟨_, _, _, rfl, .inl rfl⟩

theorem SameGate.search {b : Backlog} {v v' : AtbmVif} (h : SameGate b v v') (score : Bool → Fin 4 → Nat)
    (hscore : ∀ second c, score second c < 4294967295) (burst : Option (Fin 4)) :
    searchBacklog score burst v' b = searchBacklog score burst v b := by
  obtain ⟨buffered, stop, tx, rfl, htx | hno⟩ := h
  · subst htx
    rfl
  · exact searchBacklog_txMulticast hscore hno tx

theorem SameGate.drops {b : Backlog} {v v' : AtbmVif} (h : SameGate b v v') (ap other : Bool) (t : AtbmTxpriv) :
    wsmHandleTxData ap other v' t = wsmHandleTxData ap other v t := by
  obtain ⟨_, _, _, rfl, _⟩ := h
  rfl

theorem SameGate.searched {b b' : Backlog} {v v' : AtbmVif} {found more : Bool} (h : SameGate b v v')
    (hsub : ∀ c, ∀ t ∈ b' c, t ∈ b c)
    (hclear : v'.txMulticast = true → (found = false ∨ more = false) →
      ∀ c, ∀ t ∈ b' c, onMask (BIT dtimVirtualLinkId) t = false) :
    SameGate b' v (multicastsSearched found more v') := by
  obtain ⟨buffered, stop, tx, rfl, htx⟩ := h
  have htx' : tx = v.txMulticast ∨ ∀ c, ∀ t ∈ b' c, onMask (BIT dtimVirtualLinkId) t = false :=
    htx.imp_right fun hno c t ht => hno c t (hsub c t ht)
  unfold multicastsSearched
  split
  · next hc =>
    refine ⟨_, _, false, rfl, ?_⟩
    cases tx with
    | false => exact htx'
    | true =>
      right
      apply hclear rfl
      simp only [Bool.and_eq_true, Bool.or_eq_true, Bool.not_eq_true'] at hc
      exact hc.1.2
  · exact ⟨buffered, stop, tx, rfl, htx'⟩

theorem dtimFrames_eq_zero_iff (i : Nat) (s : TxQueues) :
    waitingAll (dtimOf i) s = 0 ↔ ∀ c, ∀ t ∈ backlog i s c, onMask (BIT dtimVirtualLinkId) t = false := by
  have hF : dtimOf i = onLinks i (BIT dtimVirtualLinkId) := by
    funext t
    unfold dtimOf onLinks
    congr 1
    rw [Bool.eq_iff_iff, beq_iff_eq, bit_dtim_iff]
  have hzero : ∀ c, waiting (dtimOf i) (s.txQueue c) = 0 ↔
      ∀ t ∈ backlog i s c, onMask (BIT dtimVirtualLinkId) t = false := by
    intro c
    rw [hF, ← Int.natCast_eq_zero, waiting_backlog, ← not_iff_not]
    rw [← ne_eq, countOn_ne_zero_iff]
    simp only [not_forall, Bool.not_eq_false, exists_prop]
  unfold waitingAll
  rw [Finset.sum_eq_zero_iff]
  simp only [Finset.mem_univ, true_implies, hzero]

section
variable (ap : Nat → Bool) (env : Nat → GetTxEnv) (s : PsState)

/-- Turn `n` of the call that began in `s`, interface `i` in turn; `x` says of each interface when its next turn is and
what waits. -/
structure InCall (n i : Nat) (x : Nat → Nat × Backlog) (u : PsState) : Prop where
  call : ∃ more, wsmGetTx ap (env n) u = getTxTurn ap (env n) ⟨n == 0, more⟩ u
  inTurn : u.ifIdSelected = i
  side : i = if n % 2 = 0 then s.ifIdSelected else s.ifIdSelected ^^^ 1
  lock : u.txLock = 0
  crashed : u.crashed = false
  burst : u.txBurstIdx = s.txBurstIdx
  accounted : Accounted u.queues
  backlog : ∀ j, (x j).2 = backlog j u.queues
  turn : (x i).1 = n
  otherTurn : (x (i ^^^ 1)).1 = n + 1
  gate : ∀ j, SameGate (x j).2 (s.vif j) (u.vif j)

def handed (r : Option (Nat × AtbmTxpriv)) : Option TxData := r.map fun p => .frame p.1 p.2

/-- The turn does what the interface does on its own. -/
def NextIs (n i : Nat) (x : Nat → Nat × Backlog) (u : PsState) : (Nat × Backlog) ⊕ Option (Nat × AtbmTxpriv) → Prop
  | .inl y => turnOn ap (env n) u = true ∧
      InCall ap env s (n + 1) (i ^^^ 1) (Function.update x i y) (wsmGetTx ap (env n) u).1
  | .inr r => turnOn ap (env n) u = false ∧ (wsmGetTx ap (env n) u).2 = handed r

end

section
variable {ap : Nat → Bool} {env : Nat → GetTxEnv} {s u : PsState} {n i : Nat} {x : Nat → Nat × Backlog}

theorem partner_ne (i : Nat) : i ^^^ 1 ≠ i := by
  intro h
  have h1 := Nat.xor_right_injective (h.trans (Nat.xor_zero i).symm)
  cases h1

theorem partner_partner (i : Nat) : i ^^^ 1 ^^^ 1 = i := by
  rw [Nat.xor_assoc, Nat.xor_self, Nat.xor_zero]

theorem InCall.firstTurn (h : InCall ap env s n i x u) : firstTurn s i = n % 2 := by
  unfold AtbmWifi.firstTurn
  have hside := h.side
  by_cases hn : n % 2 = 0
  · rw [if_pos hn] at hside
    rw [if_pos hside, hn]
  · rw [if_neg hn] at hside
    rw [if_neg (hside ▸ partner_ne _)]
    omega

theorem InCall.drops (h : InCall ap env s n i x u) (he : Steady env) (t : AtbmTxpriv) :
    wsmHandleTxData (ap i) (env n).other (u.vif i) t = dropsFrame ap env s i t := by
  unfold dropsFrame
  rw [(h.gate i).drops, h.firstTurn, ← he.other]

variable {more : Bool} {e : GetTxEnv} {c : Fin 4} {k : Nat} {mask : BitVec 32}

theorem InCall.goOn (h : InCall ap env s n i x u) {w : PsState} {b : Backlog}
    (hloop : w.loop = some ⟨false, more⟩) (hsel : w.ifIdSelected = i ^^^ 1) (hlock : w.txLock = u.txLock)
    (hcrash : w.crashed = u.crashed) (hburst : w.txBurstIdx = u.txBurstIdx) (hacc : Accounted w.queues)
    (hback : ∀ j, AtbmWifi.backlog j w.queues = if j = i then b else AtbmWifi.backlog j u.queues)
    (hother : ∀ j ≠ i, w.vif j = u.vif j) (hgate : SameGate b (s.vif i) (w.vif i)) :
    InCall ap env s (n + 1) (i ^^^ 1) (Function.update x i (n + 2, b)) w where
  call := by
    refine ⟨more, ?_⟩
    unfold wsmGetTx
    rw [hloop]
    rfl
  inTurn := hsel
  side := by
    have hside := h.side
    by_cases hn : n % 2 = 0
    · rw [if_pos hn] at hside
      rw [if_neg (by omega), hside]
    · rw [if_neg hn] at hside
      rw [if_pos (by omega), hside, partner_partner]
  lock := hlock.trans h.lock
  crashed := hcrash.trans h.crashed
  burst := hburst.trans h.burst
  accounted := hacc
  backlog j := by
    rw [hback j]
    by_cases hj : j = i
    · subst hj
      rw [Function.update_self, if_pos rfl]
    · rw [Function.update_of_ne hj, if_neg hj]
      exact h.backlog j
  turn := by
    rw [Function.update_of_ne (partner_ne i)]
    exact h.otherTurn
  otherTurn := by
    rw [partner_partner, Function.update_self]
  gate j := by
    by_cases hj : j = i
    · subst hj
      rw [Function.update_self]
      exact hgate
    · rw [Function.update_of_ne hj, hother j hj]
      exact h.gate j

theorem InCall.nothing (h : InCall ap env s n i x u) {w : PsState}
    (hcall : wsmGetTx ap (env n) u = (nextTurn ⟨n == 0, more⟩ w, none)) (hsel : w.ifIdSelected = i ^^^ 1)
    (hlock : w.txLock = u.txLock) (hcrash : w.crashed = u.crashed) (hburst : w.txBurstIdx = u.txBurstIdx)
    (hqueues : w.queues = u.queues) (hother : ∀ j ≠ i, w.vif j = u.vif j)
    (hgate : SameGate (x i).2 (s.vif i) (w.vif i)) :
    NextIs ap env s n i x u (if n = 0 then .inl (n + 2, (x i).2) else .inr none) := by
  have hback : ∀ j, AtbmWifi.backlog j w.queues = if j = i then (x i).2 else AtbmWifi.backlog j u.queues := by
    intro j
    rw [hqueues]
    split
    · next hj => rw [hj, h.backlog]
    · rfl
  have hacc : Accounted w.queues := hqueues ▸ h.accounted
  by_cases hn : n = 0
  · subst hn
    rw [if_pos rfl]
    unfold NextIs turnOn
    rw [hcall]
    have hcrash' : w.crashed = false := hcrash.trans h.crashed
    refine ⟨by simp [nextTurn, hcrash'], ?_⟩
    exact h.goOn (w := nextTurn ⟨true, more⟩ w) rfl hsel hlock hcrash hburst hacc hback hother hgate
  · rw [if_neg hn]
    have hpending : (n == 0) = false := beq_eq_false_iff_ne.mpr hn
    unfold NextIs turnOn
    rw [hcall]
    exact ⟨by simp [nextTurn, hpending], rfl⟩

theorem getTxTurn_absent {loop : GetTxLoop} (hlock : u.txLock = 0) (hbufs : e.bufsFull = false)
    (hup : e.up u.ifIdSelected = false) : getTxTurn ap e loop u = (nextTurn loop u.inTurn, none) := by
  have hgo : ¬(u.txLock ≠ 0 ∨ e.bufsFull = true) := by simp [hlock, hbufs]
  have hskip : (!e.up u.ifIdSelected) = true := by rw [hup, Bool.not_false]
  unfold getTxTurn
  rw [if_neg hgo]
  dsimp only
  rw [if_pos hskip]
  rfl

theorem getTxTurn_disabled {loop : GetTxLoop} (hlock : u.txLock = 0) (hbufs : e.bufsFull = false)
    (hup : e.up u.ifIdSelected = true) (hen : e.enabled u.ifIdSelected = false) :
    getTxTurn ap e loop u = ({ u.inTurn with loop := none }, none) := by
  have hgo : ¬(u.txLock ≠ 0 ∨ e.bufsFull = true) := by simp [hlock, hbufs]
  have hskip : ¬(!e.up u.ifIdSelected) = true := by simp [hup]
  have hstop : (!e.enabled u.ifIdSelected) = true := by rw [hen, Bool.not_false]
  unfold getTxTurn
  rw [if_neg hgo]
  dsimp only
  rw [if_neg hskip, if_pos hstop]
  rfl

theorem getTxFrame_dropped {ap : Bool}
    (hacc : Accounted u.queues) (hsel : selectItem (u.queues.txQueue c) i mask.toNat = some k)
    (hdrop : wsmHandleTxData ap e.other (u.vif i) ((u.queues.txQueue c).pool k).txpriv = true) :
    getTxFrame ap e i c mask more u =
      ({ u with
          queues := (u.queues.step ⟨c, e.q, .get i mask.toNat⟩).step
            ⟨c, e.q, .remove (issuedId (u.queues.txQueue c) k)⟩
          loop := some ⟨false, more⟩ }, none) := by
  have hremove : ¬(atbmQueueRemove e.q (issuedId (u.queues.txQueue c) k)
      ((u.queues.step ⟨c, e.q, .get i mask.toNat⟩).view c)).2 ≠ 0 := not_not.mpr (remove_got hacc hsel)
  unfold getTxFrame
  simp only [hsel, hdrop, if_true]
  rw [if_neg hremove]

theorem getTxFrame_sent {ap : Bool} (more : Bool) (hsel : selectItem (u.queues.txQueue c) i mask.toNat = some k)
    (hsend : wsmHandleTxData ap e.other (u.vif i) ((u.queues.txQueue c).pool k).txpriv = false) :
    (getTxFrame ap e i c mask more u).2 = some (.frame i ((u.queues.txQueue c).pool k).txpriv) := by
  unfold getTxFrame
  simp only [hsel, hsend, Bool.false_eq_true, if_false]

theorem found_last (e : GetTxEnv) (m : Bool) (hacc : Accounted u.queues) (hfound : u.found e m = (some (c, mask), more))
    (hsel : selectItem (u.queues.txQueue c) u.ifIdSelected mask.toNat = some k)
    (htx : (u.vif u.ifIdSelected).txMulticast = true) (hmore : more = false) :
    ∀ c', ∀ t ∈ takenFrom (backlog u.ifIdSelected u.queues) c mask c', onMask (BIT dtimVirtualLinkId) t = false := by
  have hgot := backlog_get (e := e.q) hsel u.ifIdSelected
  rw [if_pos rfl] at hgot
  rw [← hgot]
  apply (dtimFrames_eq_zero_iff _ _).mp
  have hle := waitingAll_drains (dtimOf u.ifIdSelected) u.queues ⟨c, e.q, .get u.ifIdSelected mask.toNat⟩ rfl
  by_cases hd : dtimFrames u u.ifIdSelected = 0
  · unfold dtimFrames at hd
    omega
  · obtain ⟨c', hdtim, -⟩ := found_dtim hacc e m htx hd
    rw [hfound, Prod.mk.injEq, Option.some.injEq, Prod.mk.injEq] at hdtim
    obtain ⟨⟨rfl, rfl⟩, hlast⟩ := hdtim
    rw [hmore, eq_comm, decide_eq_false_iff_not] at hlast
    exact got_last (by omega) hsel

theorem InCall.none_found (h : InCall ap env s n i x u) {m : Bool} (hcall : wsmGetTx ap (env n) u =
      (nextTurn ⟨n == 0, more⟩ (u.inTurn.setVif i (multicastsSearched false more (u.vif i))), none))
    (hfound : u.found (env n) m = (none, more)) :
    NextIs ap env s n i x u (if n = 0 then .inl (n + 2, (x i).2) else .inr none) := by
  refine h.nothing hcall (congrArg (· ^^^ 1) h.inTurn) rfl rfl rfl rfl (fun j hj => Function.update_of_ne hj _ _) ?_
  show SameGate (x i).2 (s.vif i) (Function.update u.vif i (multicastsSearched false more (u.vif i)) i)
  rw [Function.update_self]
  refine (h.gate i).searched (fun _ _ ht => ht) ?_
  intro htx _
  -- a DTIM frame would have been found
  rw [h.backlog i]
  apply (dtimFrames_eq_zero_iff _ _).mp
  by_contra hd
  have hi := h.inTurn
  subst hi
  obtain ⟨c, hdtim, -⟩ := found_dtim h.accounted (env n) m htx hd
  rw [hfound] at hdtim
  cases hdtim

theorem searched_drops (found more : Bool) (v : AtbmVif) (ap other : Bool) (t : AtbmTxpriv) :
    wsmHandleTxData ap other (multicastsSearched found more v) t = wsmHandleTxData ap other v t := by
  unfold multicastsSearched
  split <;> rfl

theorem InCall.drops_found (h : InCall ap env s n i x u) (he : Steady env) (more : Bool) (t : AtbmTxpriv) :
    wsmHandleTxData (ap i) (env n).other ((u.inTurn.setVif i (multicastsSearched true more (u.vif i))).vif i) t =
      dropsFrame ap env s i t := by
  have hvif : (u.inTurn.setVif i (multicastsSearched true more (u.vif i))).vif i =
      multicastsSearched true more (u.vif i) := Function.update_self ..
  rw [hvif, searched_drops, h.drops he]

theorem InCall.dropped (h : InCall ap env s n i x u) (he : Steady env) {m : Bool}
   
    (hcall : wsmGetTx ap (env n) u =
      getTxFrame (ap i) (env n) i c mask more (u.inTurn.setVif i (multicastsSearched true more (u.vif i))))
    (hfound : u.found (env n) m = (some (c, mask), more))
    (hsel : selectItem (u.queues.txQueue c) i mask.toNat = some k)
    (hdrop : dropsFrame ap env s i ((u.queues.txQueue c).pool k).txpriv = true) :
    NextIs ap env s n i x u (.inl (n + 2, takenFrom (x i).2 c mask)) := by
  have hgate : SameGate (takenFrom (x i).2 c mask) (s.vif i) (multicastsSearched true more (u.vif i)) := by
    refine (h.gate i).searched ?_ ?_
    · intro c' t ht
      unfold takenFrom at ht
      by_cases hc : c' = c
      · subst hc
        rw [Function.update_self] at ht
        exact List.mem_of_mem_eraseP ht
      · rw [Function.update_of_ne hc] at ht
        exact ht
    · intro htx hmore
      have hi := h.inTurn
      subst hi
      rw [h.backlog]
      exact found_last (env n) m h.accounted hfound hsel htx (hmore.resolve_left nofun)
  have hacc : Accounted (u.inTurn.setVif i (multicastsSearched true more (u.vif i))).queues := h.accounted
  rw [getTxFrame_dropped hacc hsel ((h.drops_found he more _).trans hdrop)] at hcall
  unfold NextIs turnOn
  rw [hcall]
  refine ⟨?_, h.goOn rfl (congrArg (· ^^^ 1) h.inTurn) rfl rfl rfl ?_ ?_ (fun j hj => Function.update_of_ne hj _ _) ?_⟩
  · simp [PsState.setVif, PsState.inTurn, h.crashed]
  · exact accounted_remove (accounted_get h.accounted ..) (env n).q (outstanding_get h.accounted (env n).q hsel)
  · intro j
    rw [h.backlog i]
    exact backlog_dropped h.accounted hsel (env n).q j
  · show SameGate _ _ (Function.update u.vif i (multicastsSearched true more (u.vif i)) i)
    rw [Function.update_self]
    exact hgate

theorem InCall.sent (h : InCall ap env s n i x u) (he : Steady env)
   
    (hcall : wsmGetTx ap (env n) u =
      getTxFrame (ap i) (env n) i c mask more (u.inTurn.setVif i (multicastsSearched true more (u.vif i))))
    (hsel : selectItem (u.queues.txQueue c) i mask.toNat = some k)
    (hsend : dropsFrame ap env s i ((u.queues.txQueue c).pool k).txpriv = false) :
    NextIs ap env s n i x u (.inr (some (i, ((u.queues.txQueue c).pool k).txpriv))) := by
  have hdata := getTxFrame_sent (u := u.inTurn.setVif i (multicastsSearched true more (u.vif i))) more hsel
    ((h.drops_found he more _).trans hsend)
  unfold NextIs turnOn
  rw [hcall, hdata]
  exact ⟨rfl, rfl⟩

theorem InCall.searched (h : InCall ap env s n i x u) (he : Steady env) (hup : (env 0).up i = true)
    (hen : (env 0).enabled i = true) : NextIs ap env s n i x u (ownTurn ap env s i (n, (x i).2)) := by
  obtain ⟨more₀, hcall⟩ := h.call
  have hi := h.inTurn
  have hup' : (env n).up u.ifIdSelected = true := by rw [he.up, hi, hup]
  have hen' : (env n).enabled u.ifIdSelected = true := by rw [he.enabled, hi, hen]
  rw [getTxTurn_search h.lock (he.credit n) hup' hen'] at hcall
  have hsearch : (u.found (env n) more₀).1 = searchBacklog (scores (env n) i) s.txBurstIdx (s.vif i) (x i).2 := by
    rw [found_eq h.accounted, hi, h.burst, ← h.backlog i]
    exact (h.gate i).search _ (scores_lt (env n) i) _
  rw [hi] at hcall
  rcases hfound : u.found (env n) more₀ with ⟨_ | ⟨c, mask⟩, more⟩
  · rw [hfound] at hcall hsearch
    have hnext : nextFrame (scores (env n) i) s.txBurstIdx (s.vif i) (x i).2 = none := by
      unfold nextFrame
      rw [← hsearch]
      rfl
    rw [ownTurn_none ap hup hen hnext]
    exact h.none_found hcall hfound
  · rw [hfound] at hcall hsearch
    have hsel := select_backlog u.queues c i mask
    rw [← h.backlog i] at hsel
    obtain ⟨t, ht, hm⟩ := countOn_ne_zero_iff.mp (searchBacklog_spec (scores_lt (env n) i) hsearch.symm).1
    cases hk : selectItem (u.queues.txQueue c) i mask.toNat with
    | none =>
      rw [hk] at hsel
      exact absurd hm (List.find?_eq_none.mp hsel t ht)
    | some k =>
      rw [hk] at hsel
      have hnext : nextFrame (scores (env n) i) s.txBurstIdx (s.vif i) (x i).2 =
          some (((u.queues.txQueue c).pool k).txpriv, takenFrom (x i).2 c mask) := by
        unfold nextFrame
        rw [← hsearch, Option.bind_some, hsel]
        rfl
      rw [ownTurn_some ap hup hen hnext]
      cases hdrop : dropsFrame ap env s i ((u.queues.txQueue c).pool k).txpriv with
      | true => exact h.dropped he hcall hfound hk hdrop
      | false => exact h.sent he hcall hk hdrop

/-- **A turn of the call is a turn of the interface on its own.** -/
theorem InCall.next (h : InCall ap env s n i x u) (he : Steady env) :
    NextIs ap env s n i x u (ownTurn ap env s i (x i)) := by
  have hi := h.inTurn
  have hx : x i = (n, (x i).2) := by rw [← h.turn]
  rw [hx]
  cases hup : (env 0).up i with
  | false =>
    obtain ⟨more, hcall⟩ := h.call
    have hup' : (env n).up u.ifIdSelected = false := by rw [he.up, hi, hup]
    rw [getTxTurn_absent h.lock (he.credit n) hup'] at hcall
    rw [ownTurn_absent ap hup]
    exact h.nothing hcall (congrArg (· ^^^ 1) hi) rfl rfl rfl rfl (fun _ _ => rfl) (h.gate i)
  | true =>
    cases hen : (env 0).enabled i with
    | false =>
      obtain ⟨more, hcall⟩ := h.call
      have hup' : (env n).up u.ifIdSelected = true := by rw [he.up, hi, hup]
      have hen' : (env n).enabled u.ifIdSelected = false := by rw [he.enabled, hi, hen]
      rw [getTxTurn_disabled h.lock (he.credit n) hup' hen'] at hcall
      rw [ownTurn_disabled hup hen]
      unfold NextIs turnOn
      rw [hcall]
      exact ⟨rfl, rfl⟩
    | true => exact h.searched he hup hen

def atStart (s : PsState) (j : Nat) : Nat × Backlog := (firstTurn s j, backlog j s.queues)

variable (ap env) in
theorem inCall_start (hs : Begins s) (hacc : Accounted s.queues) :
    InCall ap env s 0 s.ifIdSelected (atStart s) s where
  call := by
    refine ⟨false, ?_⟩
    unfold wsmGetTx
    rw [hs.loop, hs.saveBuf, hs.cmd]
    rfl
  inTurn := rfl
  side := rfl
  lock := hs.lock
  crashed := hs.crashed
  burst := rfl
  accounted := hacc
  backlog _ := rfl
  turn := if_pos rfl
  otherTurn := if_neg (partner_ne _)
  gate _ := .refl ..

theorem InCall.returns (he : Steady env) {r : Option (Nat × AtbmTxpriv)}
    (hr : Race (ownTurn ap env s) (· ^^^ 1) i x k r) (h : InCall ap env s n i x (beforeTurn ap env s n))
    (hon : ∀ m < n, turnOn ap (env m) (beforeTurn ap env s m) = true) : CallReturns ap env s (n + k) (handed r) := by
  induction hr generalizing n with
  | now hend =>
    have hnext := h.next he
    rw [hend] at hnext
    exact ⟨hon, hnext.1, hnext.2⟩
  | @later i x y k r hgo _ ih =>
    have hnext := h.next he
    rw [hgo] at hnext
    have hon' : ∀ m < n + 1, turnOn ap (env m) (beforeTurn ap env s m) = true := by
      intro m hm
      rcases Nat.lt_succ_iff_lt_or_eq.mp hm with hm | rfl
      · exact hon m hm
      · exact hnext.1
    rw [← Nat.add_assoc, Nat.add_right_comm]
    exact ih hnext.2 hon'

variable (ap) in
theorem ends_passed (hp : Passed env s i) (hi : firstTurn s i = 0) :
    Ends (ownTurn ap env s i) (atStart s i) 1 none := by
  have hskip : ∀ n, ownTurn ap env s i (n, backlog i s.queues) =
      if n = 0 then .inl (n + 2, backlog i s.queues) else .inr none := by
    intro n
    rcases hp with hup | ⟨hen, hno⟩
    · exact ownTurn_absent ap hup
    · cases hup : (env 0).up i with
      | false => exact ownTurn_absent ap hup
      | true => exact ownTurn_none ap hup hen ((nextFrame_eq_none_iff (scores_lt (env n) i)).mpr hno)
  unfold atStart
  rw [hi]
  exact .later (hskip 0) (.now (hskip 2))

variable (ap) in
theorem lead_passed (hp : Passed env s i) : lead ap env s i = 0 := by
  unfold lead
  split
  · next hsearch =>
    rw [Bool.and_eq_true] at hsearch
    rcases hp with hup | ⟨-, hno⟩
    · exact absurd (hup.symm.trans hsearch.1) Bool.false_ne_true
    · have hempty : ∀ k n, searchOrder env s i k n (backlog i s.queues) = [] := by
        intro k n
        cases k with
        | zero => rfl
        | succ k =>
          unfold searchOrder
          rw [(nextFrame_eq_none_iff (scores_lt (env n) i)).mpr hno]
      rw [hempty]
      rfl
  · rfl

variable (ap) in
theorem not_sendable_passed (hp : Passed env s i) : ¬Sendable ap env s i := by
  rintro ⟨hup, -, c, t, ht, hgo, -⟩
  rcases hp with hdown | ⟨-, hno⟩
  · exact Bool.false_ne_true (hdown.symm.trans hup)
  · exact Bool.false_ne_true ((hno c t ht).symm.trans hgo)

variable (ap env) in
theorem ends_own (hp : firstTurn s i = 0 → ¬Passed env s i) :
    ∃ r, Ends (ownTurn ap env s i) (atStart s i) (lead ap env s i) r ∧ (r.isSome = true ↔ Sendable ap env s i) := by
  unfold lead atStart
  cases hup : (env 0).up i with
  | false =>
    have hi : firstTurn s i ≠ 0 := fun hi => hp hi (.inl hup)
    have hturn := ownTurn_absent ap (s := s) (n := firstTurn s i) (b := backlog i s.queues) hup
    rw [if_neg hi] at hturn
    refine ⟨none, .now hturn, iff_of_false Bool.false_ne_true ?_⟩
    rintro ⟨h, -⟩
    exact Bool.false_ne_true (hup.symm.trans h)
  | true =>
    cases hen : (env 0).enabled i with
    | false =>
      refine ⟨none, .now (ownTurn_disabled hup hen), iff_of_false Bool.false_ne_true ?_⟩
      rintro ⟨-, h, -⟩
      exact Bool.false_ne_true (hen.symm.trans h)
    | true =>
      rw [Bool.and_true, if_pos rfl]
      have hgo : firstTurn s i ≠ 0 ∨ ∃ c, ∃ t ∈ backlog i s.queues c, mayGo (s.vif i) t = true := by
        by_cases hi : firstTurn s i = 0
        · right
          by_contra hno
          apply hp hi
          refine .inr ⟨hen, fun c t ht => ?_⟩
          rw [← Bool.not_eq_true]
          exact fun hgo => hno ⟨c, t, ht, hgo⟩
        · exact .inl hi
      obtain ⟨r, hends, hr⟩ := ends_searched ap hup hen le_rfl hgo
      exact ⟨r, hends, hr.trans ⟨fun h => ⟨hup, hen, h⟩, fun h => h.2.2⟩⟩

variable (ap) in
theorem call_ends (hs : Begins s) (hacc : Accounted s.queues) (he : Steady env) :
    ∃ k r, CallReturns ap env s k (handed r) ∧ (r.isSome = true ↔ InTime ap env s) := by
  have hstart := inCall_start ap env hs hacc
  have hfirst : firstTurn s s.ifIdSelected = 0 := if_pos rfl
  have hsecond : firstTurn s (s.ifIdSelected ^^^ 1) ≠ 0 := by
    unfold firstTurn
    rw [if_neg (partner_ne _)]
    exact Nat.one_ne_zero
  obtain ⟨r', hends', hr'⟩ := ends_own ap env fun h => absurd h hsecond
  by_cases hp : Passed env s s.ifIdSelected
  · obtain ⟨k, hrace⟩ := (ends_passed ap hp hfirst).race partner_ne partner_partner hends'
    refine ⟨_, _, hstart.returns he hrace nofun, ?_⟩
    have hno := not_sendable_passed ap hp
    have hlead := lead_passed ap hp
    unfold InTime
    rw [hlead]
    by_cases hl : 1 ≤ lead ap env s (s.ifIdSelected ^^^ 1)
    · rw [if_pos hl]
      refine iff_of_false Bool.false_ne_true ?_
      rintro (⟨h, -⟩ | ⟨-, h | ⟨h, -⟩⟩)
      · exact hno h
      · omega
      · omega
    · rw [if_neg hl, hr']
      constructor
      · intro h
        exact .inr ⟨h, .inr ⟨by omega, hp⟩⟩
      · rintro (⟨h, -⟩ | ⟨h, -⟩)
        · exact absurd h hno
        · exact h
  · obtain ⟨r, hends, hr⟩ := ends_own ap env fun _ => hp
    obtain ⟨k, hrace⟩ := hends.race partner_ne partner_partner hends'
    refine ⟨_, _, hstart.returns he hrace nofun, ?_⟩
    unfold InTime
    by_cases hl : lead ap env s s.ifIdSelected ≤ lead ap env s (s.ifIdSelected ^^^ 1)
    · rw [if_pos hl, hr]
      constructor
      · intro h
        exact .inl ⟨h, hl⟩
      · rintro (⟨h, -⟩ | ⟨-, h | ⟨-, h⟩⟩)
        · exact h
        · omega
        · exact absurd h hp
    · rw [if_neg hl, hr']
      constructor
      · intro h
        exact .inr ⟨h, .inl (by omega)⟩
      · rintro (⟨-, h⟩ | ⟨h, -⟩)
        · exact absurd h hl
        · exact h

/-- **Work conserving, exactly.** -/
theorem work_conserving_iff (hs : Begins s) (hq : Reach (queues.restrict OwnIds) s.queues) (he : Steady env) :
    ((∃ i, Sendable ap env s i) → ∃ n i t, CallReturns ap env s n (some (.frame i t))) ↔
      (∀ i, ¬Sendable ap env s i) ∨ InTime ap env s := by
  obtain ⟨k, r, hret, hr⟩ := call_ends ap hs (accounted_reach_ownIds hq) he
  have hframe : (∃ n i t, CallReturns ap env s n (some (.frame i t))) ↔ InTime ap env s := by
    rw [← hr]
    constructor
    · rintro ⟨n, i, t, h⟩
      have hd := (hret.unique h).2
      cases r with
      | none => cases hd
      | some p => rfl
    · intro h
      obtain ⟨p, rfl⟩ := Option.isSome_iff_exists.mp h
      exact ⟨k, p.1, p.2, hret⟩
  rw [hframe]
  constructor
  · intro h
    by_cases hsend : ∃ i, Sendable ap env s i
    · exact .inr (h hsend)
    · exact .inl fun i hi => hsend ⟨i, hi⟩
  · rintro (hno | h) ⟨i, hi⟩
    · exact absurd hi (hno i)
    · exact h

end

/-- A frame for station `raw` of interface `ifId`. -/
def linkPut (frame : Nat) (ifId raw : UInt8) : QEvent :=
  ⟨0, sampleEnv, .put ⟨frame, 0⟩ { sampleTxpriv ifId with linkId := raw, rawLinkId := raw }⟩

/-- Two APs whose only station is station 1; interface 0 is in turn. -/
def apsWith (l : List QEvent) : PsState where
  queues := (TxQueues.start fun _ => 1000).run l
  vif _ := { AtbmVif.init with joinStatus := .ap, linkIdMap := BIT 1 }
  mcastTimeout _ := false
  txLock := 0
  saveBuf := none
  cmd := false
  ifIdSelected := 0
  txBurstIdx := none
  loop := none
  crashed := false

theorem begins_apsWith (l : List QEvent) : Begins (apsWith l) := ⟨rfl, rfl, rfl, rfl, rfl⟩

theorem puts_reach {l : List QEvent} (hl : ∀ ev ∈ l, ev.op.isPut = true ∧ ev.op.vifOk) :
    Reach (queues.restrict OwnIds) (apsWith l).queues := by
  apply Follows.reach_start
  generalize TxQueues.start (fun _ => 1000) = q
  induction l generalizing q with
  | nil => trivial
  | cons ev l ih =>
    refine ⟨?_, ih (fun ev' hev' => hl ev' (List.mem_cons_of_mem _ hev')) _⟩
    obtain ⟨hput, hvif⟩ := hl ev List.mem_cons_self
    obtain ⟨c, e, op⟩ := ev
    cases op with
    | put skb t => exact ⟨nofun, valid_of_vif hvif rfl nofun⟩
    | get _ _ | requeue _ _ | remove _ | gc _ | clear _ | lock _ | unlock _ => cases hput

theorem steady_sample (e : GetTxEnv) (hcredit : e.bufsFull = false) : Steady fun _ => e :=
  ⟨fun _ => hcredit, fun _ => rfl, fun _ => rfl, fun _ => rfl⟩

/-- An expired frame ahead of one that can be sent, and an expired frame of the other interface. -/
def dropsOnBoth : PsState := apsWith [linkPut 7 0 3, linkPut 8 0 1, linkPut 9 1 3]

def bothUp : GetTxEnv := { sampleGetTx with up := fun _ => true }

theorem sendable_dropsOnBoth : Sendable (fun _ => true) (fun _ => bothUp) dropsOnBoth 0 :=
  ⟨rfl, rfl, 0, { sampleTxpriv 0 with linkId := 1, rawLinkId := 1 }, by decide +kernel, by decide +kernel,
    by decide +kernel⟩

theorem work_conserving_sent : ∃ n i t, CallReturns (fun _ => true) (fun _ => bothUp) dropsOnBoth n
    (some (.frame i t)) :=
  (work_conserving_iff (begins_apsWith _) (puts_reach (by decide)) (steady_sample _ rfl)).mpr
    (.inr (.inl ⟨sendable_dropsOnBoth, by decide +kernel⟩)) ⟨0, sendable_dropsOnBoth⟩

def expiredAhead : PsState := apsWith [linkPut 7 0 3, linkPut 8 0 1]

/-- **A frame is left behind**: the expired one is dropped, and the absent interface ends the call. -/
theorem frame_left_behind :
    Begins expiredAhead ∧ Reach (queues.restrict OwnIds) expiredAhead.queues ∧ Steady (fun _ => sampleGetTx) ∧
    Sendable (fun _ => true) (fun _ => sampleGetTx) expiredAhead 0 ∧
    ¬∃ n i t, CallReturns (fun _ => true) (fun _ => sampleGetTx) expiredAhead n (some (.frame i t)) := by
  have hnone : CallReturns (fun _ => true) (fun _ => sampleGetTx) expiredAhead 1 none :=
    ⟨by decide +kernel, by decide +kernel, by decide +kernel⟩
  refine ⟨begins_apsWith _, puts_reach (by decide), steady_sample _ rfl,
    ⟨rfl, rfl, 0, { sampleTxpriv 0 with linkId := 1, rawLinkId := 1 }, by decide +kernel, by decide +kernel,
      by decide +kernel⟩, ?_⟩
  rintro ⟨n, i, t, h⟩
  cases (hnone.unique h).2

end AtbmWifi
