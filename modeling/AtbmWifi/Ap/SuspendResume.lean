import AtbmWifi.Ap.Model
import AtbmWifi.Lib.Reader
import Mathlib.Data.List.Count
import Mathlib.Data.List.Perm.Basic

/-!
# Suspend and resume for whichever slot the AP has

`wsm_suspend_resume_indication` looks for the AP interface and passes the indication on
to `atbm_suspend_resume`.  Its `arg` lies on the stack, and `link_id` is written only
when the loop passes an interface that is not the AP: `stack` is what stood there.
`shl` is what the machine makes of `BIT` of a negative number, which the language
leaves open.  The wakeups of the bottom half are left out.

* `suspendResume_sameEffect_iff`: when that is so.
-/

namespace AtbmWifi

open Mask

/-- `struct wsm_suspend_resume`, with `link_id` as the C int that it is -/
structure SuspendArg where
  ifId : Nat
  linkId : Int
  stop : Bool
  multicast : Bool
  queue : Nat
  deriving DecidableEq, Repr

/-- `__atbm_sta_notify` once `bit` is computed; `one` says that it is about one link. -/
def staNotifyBits (cmd : StaNotifyCmd) (bit : BitVec 32) (one : Bool) (v : AtbmVif) : AtbmVif :=
  match cmd with
  | .sleep =>
    if v.staAsleepMask &&& bit = 0 then
      { v with
        multicastStartWork := v.multicastStartWork || (v.bufferedMulticasts && v.staAsleepMask == 0)
        staAsleepMask := v.staAsleepMask ||| bit }
    else v
  | .awake =>
    if v.staAsleepMask &&& bit ≠ 0 then
      { v with
        staAsleepMask := v.staAsleepMask &&& ~~~bit
        pspollMask := v.pspollMask &&& ~~~bit
        multicastStopWork :=
          v.multicastStopWork || (v.txMulticast && one && v.staAsleepMask &&& ~~~bit == 0) }
    else v

theorem staNotify_eq_bits (cmd : StaNotifyCmd) (l : Nat) (v : AtbmVif) :
    staNotify cmd l v = staNotifyBits cmd (notifyBit cmd l v) (l != 0) v := by
  cases cmd <;> rfl

section
variable (shl : Int → BitVec 32)

/-- `BIT(link_id)` -/
def linkBit (l : Int) : BitVec 32 := if l < 0 then shl l else BIT l.toNat

/-- `bit` of `__atbm_sta_notify`, for a link id that may be any int -/
def notifyBitOf (cmd : StaNotifyCmd) (l : Int) (v : AtbmVif) : BitVec 32 :=
  if l ≠ 0 then linkBit shl l
  else if cmd ≠ .awake then 0
  else v.linkIdMap

/-- `atbm_ps_notify`, for a link id that may be any int -/
def psNotifyOf (l : Int) (ps : Bool) (v : AtbmVif) : AtbmVif :=
  if (maxStaInApMode : Int) < l then v
  else
    let cmd := if ps then StaNotifyCmd.sleep else .awake
    staNotifyBits cmd (notifyBitOf shl cmd l v) (l != 0) v

theorem psNotifyOf_natCast (l : Nat) (ps : Bool) (v : AtbmVif) :
    psNotifyOf shl l ps v = atbmPsNotify l ps v := by
  have hbit : ∀ cmd, notifyBitOf shl cmd l v = notifyBit cmd l v := by
    intro cmd
    unfold notifyBitOf notifyBit linkBit
    rw [if_neg (show ¬(l : Int) < 0 by omega), Int.toNat_natCast]
    by_cases h : l = 0
    · rw [if_neg (by omega), if_neg (not_not_intro h)]
    · rw [if_pos (by omega), if_pos h]
  have hone : ((l : Int) != 0) = (l != 0) := by
    by_cases h : l = 0
    · subst h
      rfl
    · rw [bne_iff_ne.mpr h, bne_iff_ne.mpr (by omega)]
  unfold psNotifyOf atbmPsNotify
  by_cases h : maxStaInApMode < l
  · rw [if_pos h, if_pos (by omega)]
  · rw [if_neg h, if_neg (by omega), staNotify_eq_bits]
    dsimp only
    rw [hbit, hone]

/-- `atbm_suspend_resume`; the second part says that `mcast_timeout` is cancelled. -/
def suspendResumeOf (arg : SuspendArg) (v : AtbmVif) : AtbmVif × Bool :=
  if arg.multicast then
    if arg.stop then ({ v with txMulticast := false }, false)
    else
      ({ v with txMulticast := v.aid0BitSet && v.bufferedMulticasts }, v.aid0BitSet && v.bufferedMulticasts)
  else (psNotifyOf shl arg.linkId arg.stop v, false)

end

/-- What the indication reads of `hw_priv`: whether `wsm_cbc.suspend_resume` is set, the
interfaces in the slots it goes through, and the one in the slot after them. -/
structure SuspendHost where
  cbc : Bool
  vifs : List (Option AtbmVif)
  generic : Option AtbmVif
  length_eq : vifs.length = maxVifs

def SuspendHost.vifpriv (h : SuspendHost) (ifId : Nat) : Option AtbmVif :=
  if maxVifs < ifId then none else ((h.vifs ++ [h.generic])[ifId]?).join

def SuspendHost.setVif (h : SuspendHost) (ifId : Nat) (v : AtbmVif) : SuspendHost :=
  if h1 : ifId < maxVifs then
    { h with vifs := h.vifs.set ifId (some v), length_eq := by rw [List.length_set]; exact h.length_eq }
  else { h with generic := some v }

/-- The loop of `wsm_suspend_resume_indication`, from slot `i` on -/
def suspendFindAp : List (Option AtbmVif) → Nat → SuspendArg → SuspendArg
  | [], _, arg => arg
  | none :: rest, i, arg => suspendFindAp rest (i + 1) arg
  | some priv :: rest, i, arg =>
    if priv.joinStatus = .ap then { arg with ifId := i }
    else suspendFindAp rest (i + 1) { arg with linkId := 0 }

/-- The returned value, the state and whether `mcast_timeout` was cancelled -/
structure SuspendEnd where
  ret : Int
  host : SuspendHost
  cancelled : Bool

def EINVAL : Int := 22

def suspendFlags (payload : List UInt8) : Nat := Wire.ofBytes (payload.take 4)

def suspendStop (payload : List UInt8) : Bool := !(suspendFlags payload).testBit 0

def suspendMulticast (payload : List UInt8) : Bool := (suspendFlags payload).testBit 3

/-- `wsm_suspend_resume_indication` -/
def wsmSuspendResumeInd (shl : Int → BitVec 32) (interfaceLinkId : Nat) (payload : List UInt8) (stack : Int)
    (h : SuspendHost) : SuspendEnd :=
  if h.cbc then
    let arg := suspendFindAp h.vifs 0 ⟨interfaceLinkId, stack, false, false, 0⟩
    if payload.length < 4 then ⟨-EINVAL, h, false⟩
    else
      let arg := { arg with
        stop := suspendStop payload
        multicast := suspendMulticast payload
        queue := suspendFlags payload / 2 % 4 }
      match h.vifpriv arg.ifId with
      | none => ⟨0, h, false⟩
      | some priv =>
        let r := suspendResumeOf shl arg priv
        ⟨0, h.setVif arg.ifId r.1, r.2⟩
  else ⟨0, h, false⟩

def isApVif : Option AtbmVif → Bool
  | none => false
  | some v => decide (v.joinStatus = .ap)

/-- The states differ at most in the slots of their interfaces, one of which is the AP. -/
structure DifferInSlot (h₁ h₂ : SuspendHost) : Prop where
  cbc : h₁.cbc = h₂.cbc
  generic : h₁.generic = h₂.generic
  perm : h₁.vifs.Perm h₂.vifs
  oneAp : h₁.vifs.countP isApVif = 1

/-- Only stations that the indication is about change between sleep and awake: all of them when
it resumes unicast, else none. -/
def OnlyAddressed (payload : List UInt8) (h h' : SuspendHost) : Prop :=
  ∀ (i : Nat) (v v' : AtbmVif), h.vifs[i]? = some (some v) → h'.vifs[i]? = some (some v') → ∀ l,
    v'.staAsleepMask.getLsbD l ≠ v.staAsleepMask.getLsbD l →
      suspendMulticast payload = false ∧ suspendStop payload = false ∧ v.linkIdMap.getLsbD l = true

/-- Whatever the stack held, the two runs end alike, and only the stations addressed change. -/
def SameEffect (shl : Int → BitVec 32) (interfaceLinkId : Nat) (payload : List UInt8) (h₁ h₂ : SuspendHost) :
    Prop :=
  ∀ stack₁ stack₂,
    let r₁ := wsmSuspendResumeInd shl interfaceLinkId payload stack₁ h₁
    let r₂ := wsmSuspendResumeInd shl interfaceLinkId payload stack₂ h₂
    DifferInSlot r₁.host r₂.host ∧ r₁.ret = r₂.ret ∧ r₁.cancelled = r₂.cancelled ∧
      OnlyAddressed payload h₁ r₁.host ∧ OnlyAddressed payload h₂ r₂.host

def aheadOfAp : List (Option AtbmVif) → Bool
  | [] => false
  | none :: rest => aheadOfAp rest
  | some v :: _ => !decide (v.joinStatus = .ap)

/-- No link id that may stand on the stack makes a difference: each station to be put to sleep
sleeps already, or none that may be woken sleeps. -/
def Indifferent (shl : Int → BitVec 32) (stop : Bool) (v : AtbmVif) : Prop :=
  if stop then
    ∀ l : Int, l ≤ maxStaInApMode → l ≠ 0 → linkBit shl l = 0 ∨ v.staAsleepMask &&& linkBit shl l ≠ 0
  else
    v.staAsleepMask &&& v.linkIdMap = 0 ∧
      ∀ l : Int, l ≤ maxStaInApMode → l ≠ 0 → v.staAsleepMask &&& linkBit shl l = 0

theorem exists_ap {l : List (Option AtbmVif)} (h : l.countP isApVif = 1) :
    ∃ pre v post, l = pre ++ some v :: post ∧ v.joinStatus = .ap ∧ (∀ x ∈ pre, isApVif x = false) ∧
      ∀ x ∈ post, isApVif x = false := by
  induction l with
  | nil => cases h
  | cons x rest ih =>
    cases hx : isApVif x with
    | false =>
      rw [List.countP_cons_of_neg (by rw [hx]; exact Bool.false_ne_true)] at h
      obtain ⟨pre, v, post, rfl, hv, hpre, hpost⟩ := ih h
      refine ⟨x :: pre, v, post, rfl, hv, ?_, hpost⟩
      intro y hy
      rcases List.mem_cons.mp hy with rfl | hy
      · exact hx
      · exact hpre y hy
    | true =>
      rw [List.countP_cons_of_pos hx] at h
      have hrest : rest.countP isApVif = 0 := by omega
      rw [List.countP_eq_zero] at hrest
      cases x with
      | none => cases hx
      | some v =>
        refine ⟨[], v, rest, rfl, of_decide_eq_true hx, ?_, ?_⟩
        · intro y hy
          cases hy
        · intro y hy
          exact Bool.eq_false_iff.mpr (hrest y hy)

/-- What the loop leaves in `link_id`. -/
def foundLink (stack : Int) (l : List (Option AtbmVif)) : Int := if aheadOfAp l then 0 else stack

theorem suspendFindAp_eq {pre post : List (Option AtbmVif)} {v : AtbmVif} (hv : v.joinStatus = .ap)
    (hpre : ∀ x ∈ pre, isApVif x = false) (i : Nat) (arg : SuspendArg) :
    suspendFindAp (pre ++ some v :: post) i arg =
      { arg with ifId := i + pre.length, linkId := foundLink arg.linkId (pre ++ some v :: post) } := by
  induction pre generalizing i arg with
  | nil =>
    show (if v.joinStatus = .ap then _ else _) = _
    rw [if_pos hv]
    unfold foundLink
    simp [aheadOfAp, hv]
  | cons x rest ih =>
    have hrest := ih fun y hy => hpre y (List.mem_cons_of_mem x hy)
    have hlen : i + 1 + rest.length = i + (x :: rest).length := by
      rw [List.length_cons]
      omega
    cases x with
    | none =>
      show suspendFindAp (rest ++ some v :: post) (i + 1) arg = _
      rw [hrest, hlen]
      rfl
    | some w =>
      have hw : ¬w.joinStatus = .ap := of_decide_eq_false (hpre (some w) List.mem_cons_self)
      show (if w.joinStatus = .ap then _ else _) = _
      rw [if_neg hw]
      show suspendFindAp (rest ++ some v :: post) (i + 1) _ = _
      rw [hrest, hlen]
      have hzero : foundLink 0 (rest ++ some v :: post) = 0 := by
        unfold foundLink
        exact ite_self 0
      have hahead : foundLink arg.linkId (some w :: rest ++ some v :: post) = 0 := by
        unfold foundLink
        simp [aheadOfAp, hw]
      dsimp only
      rw [hzero, hahead]

/-- What a long enough indication does to the AP, with `link` for `link_id`. -/
def suspendEffect (shl : Int → BitVec 32) (payload : List UInt8) (link : Int) (v : AtbmVif) : AtbmVif × Bool :=
  suspendResumeOf shl ⟨0, link, suspendStop payload, suspendMulticast payload, 0⟩ v

def Delivered (payload : List UInt8) (h : SuspendHost) : Prop := h.cbc = true ∧ 4 ≤ payload.length

theorem ind_not_delivered (shl : Int → BitVec 32) (il : Nat) {payload : List UInt8} {h : SuspendHost}
    (hd : ¬Delivered payload h) (stack : Int) :
    wsmSuspendResumeInd shl il payload stack h = ⟨if h.cbc then -EINVAL else 0, h, false⟩ := by
  unfold wsmSuspendResumeInd
  cases hc : h.cbc with
  | false => rfl
  | true =>
    have hlen : payload.length < 4 := by
      by_contra hlen
      exact hd ⟨hc, by omega⟩
    dsimp only
    rw [if_pos rfl, if_pos hlen, if_pos rfl]

theorem ind_delivered (shl : Int → BitVec 32) (il : Nat) {payload : List UInt8} {h : SuspendHost}
    (hd : Delivered payload h) {pre post : List (Option AtbmVif)} {v : AtbmVif}
    (hl : h.vifs = pre ++ some v :: post) (hv : v.joinStatus = .ap) (hpre : ∀ x ∈ pre, isApVif x = false)
    (stack : Int) :
    let r := wsmSuspendResumeInd shl il payload stack h
    let e := suspendEffect shl payload (foundLink stack h.vifs) v
    r.ret = 0 ∧ r.cancelled = e.2 ∧ r.host.cbc = h.cbc ∧ r.host.generic = h.generic ∧
      r.host.vifs = pre ++ some e.1 :: post := by
  have hlt : pre.length < maxVifs := by
    have := h.length_eq
    rw [hl, List.length_append, List.length_cons] at this
    omega
  have hget : h.vifpriv pre.length = some v := by
    unfold SuspendHost.vifpriv
    rw [if_neg (by omega), hl]
    simp
  have harg : suspendFindAp (pre ++ some v :: post) 0 ⟨il, stack, false, false, 0⟩ = _ :=
    suspendFindAp_eq hv hpre 0 _
  rw [← hl, Nat.zero_add] at harg
  dsimp only
  unfold wsmSuspendResumeInd
  rw [if_pos hd.1, if_neg (by have := hd.2; omega), harg]
  dsimp only
  rw [hget]
  dsimp only
  unfold SuspendHost.setVif
  rw [dif_pos hlt]
  refine ⟨rfl, rfl, rfl, rfl, ?_⟩
  show h.vifs.set pre.length _ = _
  rw [hl, List.set_append_right _ _ (Nat.le_refl _), Nat.sub_self, List.set_cons_zero]
  rfl

section
variable {shl : Int → BitVec 32}

theorem psNotifyOf_above (ps : Bool) (v : AtbmVif) : psNotifyOf shl 15 ps v = v := by
  unfold psNotifyOf
  exact if_pos (by decide)

variable {one : Bool} {v : AtbmVif}

theorem staNotifyBits_sleep_id {bit : BitVec 32}
    (h : staNotifyBits .sleep bit one v = v) : bit = 0 ∨ v.staAsleepMask &&& bit ≠ 0 := by
  by_cases hprev : v.staAsleepMask &&& bit = 0
  · left
    unfold staNotifyBits at h
    dsimp only at h
    rw [if_pos hprev] at h
    have hmask : v.staAsleepMask ||| bit = v.staAsleepMask := congrArg AtbmVif.staAsleepMask h
    -- what is added was there, and it was not there
    calc bit = (v.staAsleepMask ||| bit) &&& bit := by
          apply BitVec.eq_of_getLsbD_eq
          intro i _
          rw [BitVec.getLsbD_and, BitVec.getLsbD_or]
          cases v.staAsleepMask.getLsbD i <;> cases bit.getLsbD i <;> rfl
      _ = 0 := by rw [hmask, hprev]
  · exact .inr hprev

theorem staNotifyBits_awake_id {bit : BitVec 32}
    (h : staNotifyBits .awake bit one v = v) : v.staAsleepMask &&& bit = 0 := by
  by_contra hprev
  unfold staNotifyBits at h
  dsimp only at h
  rw [if_pos hprev] at h
  have hmask : v.staAsleepMask &&& ~~~bit = v.staAsleepMask := congrArg AtbmVif.staAsleepMask h
  apply hprev
  calc v.staAsleepMask &&& bit = v.staAsleepMask &&& ~~~bit &&& bit := by rw [hmask]
    _ = 0 := by
      apply BitVec.eq_of_getLsbD_eq
      intro i _
      rw [BitVec.getLsbD_and, BitVec.getLsbD_and, BitVec.getLsbD_not]
      cases v.staAsleepMask.getLsbD i <;> cases bit.getLsbD i <;> simp

theorem psNotifyOf_link {l : Int} (hle : l ≤ maxStaInApMode) (ps : Bool) (v : AtbmVif) :
    psNotifyOf shl l ps v =
      staNotifyBits (if ps then .sleep else .awake) (notifyBitOf shl (if ps then .sleep else .awake) l v) (l != 0) v := by
  unfold psNotifyOf
  exact if_neg (by omega)

theorem staNotifyBits_sleep_zero (hm : v.staAsleepMask ≠ 0) : staNotifyBits .sleep 0 one v = v := by
  unfold staNotifyBits
  dsimp only
  have hbeq : (v.staAsleepMask == 0) = false := beq_false_of_ne hm
  rw [if_pos (show v.staAsleepMask &&& 0 = 0 from BitVec.and_zero), hbeq, Bool.and_false, Bool.or_false,
    show v.staAsleepMask ||| 0 = v.staAsleepMask from BitVec.or_zero]

theorem psNotifyOf_of_indifferent {stop : Bool} (h : Indifferent shl stop v) (l : Int) :
    psNotifyOf shl l stop v = v := by
  by_cases hle : l ≤ maxStaInApMode
  · rw [psNotifyOf_link hle]
    unfold Indifferent at h
    unfold notifyBitOf
    cases stop with
    | true =>
      rw [if_pos rfl] at h ⊢
      -- the first station has a bit of its own, so some station sleeps
      have hm : v.staAsleepMask ≠ 0 := by
        intro hm
        rcases h 1 (by decide) (by decide) with h1 | h1
        · have hbit : linkBit shl 1 = BIT 1 := if_neg (by decide)
          rw [hbit] at h1
          exact absurd h1 (by decide)
        · rw [hm] at h1
          exact h1 BitVec.zero_and
      by_cases hl : l = 0
      · rw [if_neg (not_not_intro hl), if_pos (by decide)]
        exact staNotifyBits_sleep_zero hm
      · rw [if_pos hl]
        rcases h l hle hl with hz | hz
        · rw [hz]
          exact staNotifyBits_sleep_zero hm
        · unfold staNotifyBits
          exact if_neg hz
    | false =>
      rw [if_neg Bool.false_ne_true] at h ⊢
      unfold staNotifyBits
      by_cases hl : l = 0
      · rw [if_neg (not_not_intro hl), if_neg (not_not_intro rfl)]
        exact if_neg (not_not_intro h.1)
      · rw [if_pos hl]
        exact if_neg (not_not_intro (h.2 l hle hl))
  · unfold psNotifyOf
    exact if_pos (by omega)

theorem psNotifyOf_const_iff (stop : Bool) (v : AtbmVif) :
    (∀ l, psNotifyOf shl l stop v = psNotifyOf shl 0 stop v) ↔ Indifferent shl stop v := by
  constructor
  · intro h
    have hzero : psNotifyOf shl 0 stop v = v := by
      rw [← h 15, psNotifyOf_above]
    have hid : ∀ l, psNotifyOf shl l stop v = v := by
      intro l
      rw [h l, hzero]
    unfold Indifferent
    cases stop with
    | true =>
      rw [if_pos rfl]
      intro l hle hl
      have := hid l
      rw [psNotifyOf_link hle, if_pos rfl] at this
      unfold notifyBitOf at this
      rw [if_pos hl] at this
      exact staNotifyBits_sleep_id this
    | false =>
      rw [if_neg Bool.false_ne_true]
      constructor
      · rw [psNotifyOf_link (by decide), if_neg Bool.false_ne_true] at hzero
        exact staNotifyBits_awake_id hzero
      · intro l hle hl
        have := hid l
        rw [psNotifyOf_link hle, if_neg Bool.false_ne_true] at this
        unfold notifyBitOf at this
        rw [if_pos hl] at this
        exact staNotifyBits_awake_id this
  · intro h l
    rw [psNotifyOf_of_indifferent h, psNotifyOf_of_indifferent h]

end

/-! ## The indication, whichever slot the AP has -/

section
variable {shl : Int → BitVec 32}

theorem joinStatus_staNotifyBits (cmd : StaNotifyCmd) (bit : BitVec 32) (one : Bool) (v : AtbmVif) :
    (staNotifyBits cmd bit one v).joinStatus = v.joinStatus := by
  unfold staNotifyBits
  cases cmd with
  | sleep => exact (apply_ite AtbmVif.joinStatus _ _ _).trans (ite_self _)
  | awake => exact (apply_ite AtbmVif.joinStatus _ _ _).trans (ite_self _)

theorem joinStatus_psNotifyOf (l : Int) (ps : Bool) (v : AtbmVif) :
    (psNotifyOf shl l ps v).joinStatus = v.joinStatus := by
  unfold psNotifyOf
  by_cases h : (maxStaInApMode : Int) < l
  · rw [if_pos h]
  · rw [if_neg h]
    exact joinStatus_staNotifyBits _ _ _ v

theorem joinStatus_suspendEffect (payload : List UInt8) (link : Int) (v : AtbmVif) :
    (suspendEffect shl payload link v).1.joinStatus = v.joinStatus := by
  unfold suspendEffect suspendResumeOf
  cases suspendMulticast payload with
  | true => cases suspendStop payload <;> rfl
  | false => exact joinStatus_psNotifyOf link _ v

variable {v : AtbmVif} {payload : List UInt8} {h₁ h₂ : SuspendHost}

theorem psNotifyOf_zero_bits {ps : Bool} {l : Nat}
    (h : (psNotifyOf shl 0 ps v).staAsleepMask.getLsbD l ≠ v.staAsleepMask.getLsbD l) :
    ps = false ∧ v.linkIdMap.getLsbD l = true := by
  rw [psNotifyOf_link (by decide)] at h
  cases ps with
  | true =>
    exfalso
    apply h
    show (staNotifyBits .sleep 0 false v).staAsleepMask.getLsbD l = _
    unfold staNotifyBits
    dsimp only
    rw [if_pos (show v.staAsleepMask &&& 0 = 0 from BitVec.and_zero)]
    show (v.staAsleepMask ||| 0#32).getLsbD l = _
    rw [BitVec.or_zero]
  | false =>
    refine ⟨rfl, ?_⟩
    by_contra hmap
    apply h
    show (staNotifyBits .awake v.linkIdMap false v).staAsleepMask.getLsbD l = _
    unfold staNotifyBits
    dsimp only
    by_cases hprev : v.staAsleepMask &&& v.linkIdMap = 0
    · rw [if_neg (not_not_intro hprev)]
    · rw [if_pos hprev]
      show (v.staAsleepMask &&& ~~~v.linkIdMap).getLsbD l = _
      by_cases hl : l < 32
      · rw [BitVec.getLsbD_and, BitVec.getLsbD_not, Bool.eq_false_iff.mpr hmap]
        simp [hl]
      · rw [BitVec.getLsbD_of_ge _ _ (by omega), BitVec.getLsbD_of_ge _ _ (by omega)]

/-- What comes out of one indication is fixed, by the payload and the AP alone. -/
def StackFree (shl : Int → BitVec 32) (payload : List UInt8) (l : List (Option AtbmVif)) (v : AtbmVif) : Prop :=
  suspendMulticast payload = true ∨ aheadOfAp l = true ∨ Indifferent shl (suspendStop payload) v

theorem suspendEffect_stackFree {l : List (Option AtbmVif)} (h : StackFree shl payload l v) (stack : Int) :
    suspendEffect shl payload (foundLink stack l) v = suspendEffect shl payload 0 v := by
  unfold suspendEffect suspendResumeOf
  rcases h with h | h | h
  · rw [h, if_pos rfl, if_pos rfl]
  · unfold foundLink
    rw [if_pos h]
  · dsimp only
    rw [psNotifyOf_of_indifferent h, psNotifyOf_of_indifferent h]

theorem stackFree_of_const {l : List (Option AtbmVif)}
    (h : ∀ stack, suspendEffect shl payload (foundLink stack l) v = suspendEffect shl payload 0 v) :
    StackFree shl payload l v := by
  by_cases hm : suspendMulticast payload = true
  · exact .inl hm
  · by_cases ha : aheadOfAp l = true
    · exact .inr (.inl ha)
    · right
      right
      rw [← psNotifyOf_const_iff]
      intro link
      have := congrArg Prod.fst (h link)
      unfold suspendEffect suspendResumeOf foundLink at this
      dsimp only at this
      rwa [if_neg hm, if_neg hm, if_neg ha] at this

theorem suspendEffect_addressed {l : Nat}
    (h : (suspendEffect shl payload 0 v).1.staAsleepMask.getLsbD l ≠ v.staAsleepMask.getLsbD l) :
    suspendMulticast payload = false ∧ suspendStop payload = false ∧ v.linkIdMap.getLsbD l = true := by
  unfold suspendEffect suspendResumeOf at h
  cases hm : suspendMulticast payload with
  | true =>
    exfalso
    apply h
    rw [hm]
    cases suspendStop payload <;> rfl
  | false =>
    rw [hm] at h
    exact ⟨rfl, psNotifyOf_zero_bits h⟩

theorem onlyAddressed_of_effect {h h' : SuspendHost} {pre post : List (Option AtbmVif)}
    (hl : h.vifs = pre ++ some v :: post)
    (hl' : h'.vifs = pre ++ some (suspendEffect shl payload 0 v).1 :: post) : OnlyAddressed payload h h' := by
  intro i w w' hw hw' l hne
  rw [hl] at hw
  rw [hl'] at hw'
  by_cases hi : i = pre.length
  · subst hi
    rw [List.getElem?_append_right (Nat.le_refl _), Nat.sub_self] at hw hw'
    cases hw
    cases hw'
    exact suspendEffect_addressed hne
  · exfalso
    have hsame : (pre ++ some v :: post)[i]? = (pre ++ some (suspendEffect shl payload 0 v).1 :: post)[i]? := by
      by_cases hlt : i < pre.length
      · rw [List.getElem?_append_left hlt, List.getElem?_append_left hlt]
      · rw [List.getElem?_append_right (by omega), List.getElem?_append_right (by omega)]
        obtain ⟨k, hk⟩ : ∃ k, i - pre.length = k + 1 := ⟨i - pre.length - 1, by omega⟩
        rw [hk, List.getElem?_cons_succ, List.getElem?_cons_succ]
    rw [hsame, hw'] at hw
    cases hw
    exact hne rfl

theorem filter_ap {pre post : List (Option AtbmVif)} (hv : v.joinStatus = .ap)
    (hpre : ∀ x ∈ pre, isApVif x = false) (hpost : ∀ x ∈ post, isApVif x = false) :
    (pre ++ some v :: post).filter isApVif = [some v] := by
  have hnone : ∀ l : List (Option AtbmVif), (∀ x ∈ l, isApVif x = false) → l.filter isApVif = [] := by
    intro l hl
    rw [List.filter_eq_nil_iff]
    intro x hx
    exact Bool.eq_false_iff.mp (hl x hx)
  have hap : isApVif (some v) = true := decide_eq_true hv
  rw [List.filter_append, List.filter_cons_of_pos hap, hnone pre hpre, hnone post hpost]
  rfl

theorem ap_eq_of_perm {pre₁ post₁ pre₂ post₂ : List (Option AtbmVif)} {v₁ v₂ : AtbmVif}
    (hv₁ : v₁.joinStatus = .ap) (hpre₁ : ∀ x ∈ pre₁, isApVif x = false) (hpost₁ : ∀ x ∈ post₁, isApVif x = false)
    (hv₂ : v₂.joinStatus = .ap) (hpre₂ : ∀ x ∈ pre₂, isApVif x = false) (hpost₂ : ∀ x ∈ post₂, isApVif x = false)
    (h : (pre₁ ++ some v₁ :: post₁).Perm (pre₂ ++ some v₂ :: post₂)) : v₁ = v₂ := by
  have hf := h.filter isApVif
  rw [filter_ap hv₁ hpre₁ hpost₁, filter_ap hv₂ hpre₂ hpost₂, List.singleton_perm_singleton] at hf
  exact Option.some.inj hf

structure ApSlots (h₁ h₂ : SuspendHost) (v : AtbmVif) (pre₁ post₁ pre₂ post₂ : List (Option AtbmVif)) : Prop where
  isAp : v.joinStatus = .ap
  vifs₁ : h₁.vifs = pre₁ ++ some v :: post₁
  vifs₂ : h₂.vifs = pre₂ ++ some v :: post₂
  pre₁ : ∀ x ∈ pre₁, isApVif x = false
  post₁ : ∀ x ∈ post₁, isApVif x = false
  pre₂ : ∀ x ∈ pre₂, isApVif x = false
  post₂ : ∀ x ∈ post₂, isApVif x = false

theorem exists_apSlots (hd : DifferInSlot h₁ h₂) :
    ∃ v pre₁ post₁ pre₂ post₂, ApSlots h₁ h₂ v pre₁ post₁ pre₂ post₂ := by
  have hone : h₂.vifs.countP isApVif = 1 := by
    rw [← hd.perm.countP_eq, hd.oneAp]
  obtain ⟨pre₁, v, post₁, hl₁, hv₁, hpre₁, hpost₁⟩ := exists_ap hd.oneAp
  obtain ⟨pre₂, w, post₂, hl₂, hv₂, hpre₂, hpost₂⟩ := exists_ap hone
  have hperm := hd.perm
  rw [hl₁, hl₂] at hperm
  obtain rfl := ap_eq_of_perm hv₁ hpre₁ hpost₁ hv₂ hpre₂ hpost₂ hperm
  exact ⟨v, pre₁, post₁, pre₂, post₂, hv₁, hl₁, hl₂, hpre₁, hpost₁, hpre₂, hpost₂⟩

theorem sameEffect_of_not_delivered (il : Nat)
    (hd : DifferInSlot h₁ h₂) (hn : ¬Delivered payload h₁) : SameEffect shl il payload h₁ h₂ := by
  intro stack₁ stack₂
  have hn₂ : ¬Delivered payload h₂ := by
    unfold Delivered at hn ⊢
    rw [← hd.cbc]
    exact hn
  have hself : ∀ h : SuspendHost, OnlyAddressed payload h h := by
    intro h i v v' hv hv' l hne
    rw [hv] at hv'
    cases hv'
    exact absurd rfl hne
  dsimp only
  rw [ind_not_delivered shl il hn, ind_not_delivered shl il hn₂, hd.cbc]
  exact ⟨hd, rfl, rfl, hself h₁, hself h₂⟩

theorem sameEffect_iff_stackFree (il : Nat) (hd : DifferInSlot h₁ h₂) {pre₁ post₁ pre₂ post₂ : List (Option AtbmVif)}
    (hs : ApSlots h₁ h₂ v pre₁ post₁ pre₂ post₂) (hdel : Delivered payload h₁) :
    SameEffect shl il payload h₁ h₂ ↔ StackFree shl payload h₁.vifs v ∧ StackFree shl payload h₂.vifs v := by
  have hdel₂ : Delivered payload h₂ := ⟨hd.cbc ▸ hdel.1, hdel.2⟩
  have hind₁ := ind_delivered shl il hdel hs.vifs₁ hs.isAp hs.pre₁
  have hind₂ := ind_delivered shl il hdel₂ hs.vifs₂ hs.isAp hs.pre₂
  have hap : ∀ link, (suspendEffect shl payload link v).1.joinStatus = .ap := by
    intro link
    rw [joinStatus_suspendEffect, hs.isAp]
  constructor
  · intro h
    have heq : ∀ stack₁ stack₂, suspendEffect shl payload (foundLink stack₁ h₁.vifs) v =
        suspendEffect shl payload (foundLink stack₂ h₂.vifs) v := by
      intro stack₁ stack₂
      obtain ⟨hsame, -, hcancel, -, -⟩ := h stack₁ stack₂
      obtain ⟨-, hc₁, -, -, hv₁⟩ := hind₁ stack₁
      obtain ⟨-, hc₂, -, -, hv₂⟩ := hind₂ stack₂
      have hperm := hsame.perm
      rw [hv₁, hv₂] at hperm
      have hvif := ap_eq_of_perm (hap _) hs.pre₁ hs.post₁ (hap _) hs.pre₂ hs.post₂ hperm
      rw [hc₁, hc₂] at hcancel
      exact Prod.ext hvif hcancel
    have hzero : ∀ l, foundLink 0 l = 0 := fun l => ite_self 0
    constructor
    · apply stackFree_of_const
      intro stack
      rw [heq stack 0, hzero]
    · apply stackFree_of_const
      intro stack
      rw [← heq 0 stack, hzero]
  · rintro ⟨hf₁, hf₂⟩ stack₁ stack₂
    obtain ⟨hr₁, hc₁, hcbc₁, hg₁, hv₁⟩ := hind₁ stack₁
    obtain ⟨hr₂, hc₂, hcbc₂, hg₂, hv₂⟩ := hind₂ stack₂
    rw [suspendEffect_stackFree hf₁] at hc₁ hv₁
    rw [suspendEffect_stackFree hf₂] at hc₂ hv₂
    have hrest : (pre₁ ++ post₁).Perm (pre₂ ++ post₂) := by
      have hperm := hd.perm
      rw [hs.vifs₁, hs.vifs₂] at hperm
      exact (List.perm_middle.symm.trans (hperm.trans List.perm_middle)).cons_inv
    refine ⟨⟨?_, ?_, ?_, ?_⟩, ?_, ?_, onlyAddressed_of_effect hs.vifs₁ hv₁, onlyAddressed_of_effect hs.vifs₂ hv₂⟩
    · rw [hcbc₁, hcbc₂, hd.cbc]
    · rw [hg₁, hg₂, hd.generic]
    · rw [hv₁, hv₂]
      exact List.perm_middle.trans ((hrest.cons _).trans List.perm_middle.symm)
    · rw [hv₁, List.countP_eq_length_filter, filter_ap (hap 0) hs.pre₁ hs.post₁]
      rfl
    · rw [hr₁, hr₂]
    · rw [hc₁, hc₂]

/-- The indication has the same effect whichever slot the AP has exactly when it is not passed
on, is about multicast, finds another interface ahead of the AP in both states, or changes
nothing for any link id. -/
theorem suspendResume_sameEffect_iff (shl : Int → BitVec 32) (il : Nat) (payload : List UInt8)
    (h₁ h₂ : SuspendHost) (hd : DifferInSlot h₁ h₂) :
    SameEffect shl il payload h₁ h₂ ↔
      h₁.cbc = false ∨ payload.length < 4 ∨ suspendMulticast payload = true ∨
        (aheadOfAp h₁.vifs = true ∧ aheadOfAp h₂.vifs = true) ∨
        ∀ v, some v ∈ h₁.vifs → v.joinStatus = .ap → Indifferent shl (suspendStop payload) v := by
  by_cases hdel : Delivered payload h₁
  · obtain ⟨v, pre₁, post₁, pre₂, post₂, hs⟩ := exists_apSlots hd
    have honly : (∀ w, some w ∈ h₁.vifs → w.joinStatus = .ap → Indifferent shl (suspendStop payload) w) ↔
        Indifferent shl (suspendStop payload) v := by
      constructor
      · intro h
        refine h v ?_ hs.isAp
        rw [hs.vifs₁]
        exact List.mem_append_right _ List.mem_cons_self
      · intro h w hw hap
        have hmem : some w ∈ h₁.vifs.filter isApVif := List.mem_filter.mpr ⟨hw, decide_eq_true hap⟩
        rw [hs.vifs₁, filter_ap hs.isAp hs.pre₁ hs.post₁, List.mem_singleton] at hmem
        rw [Option.some.inj hmem]
        exact h
    rw [sameEffect_iff_stackFree il hd hs hdel, honly]
    unfold StackFree
    have hcbc : ¬h₁.cbc = false := by
      rw [hdel.1]
      exact Bool.noConfusion
    have hlen : ¬payload.length < 4 := by
      have := hdel.2
      omega
    tauto
  · refine iff_of_true (sameEffect_of_not_delivered il hd hdel) ?_
    by_cases hcbc : h₁.cbc = true
    · right
      left
      by_contra hlen
      exact hdel ⟨hcbc, by omega⟩
    · exact .inl (Bool.eq_false_iff.mpr hcbc)

end

def apOfTwo : AtbmVif := { AtbmVif.init with joinStatus := .ap, linkIdMap := 0x6 }

def staVif : AtbmVif := { AtbmVif.init with joinStatus := .sta }

def apFirst : SuspendHost := ⟨true, [some apOfTwo, some staVif], none, rfl⟩

def apSecond : SuspendHost := ⟨true, [some staVif, some apOfTwo], none, rfl⟩

theorem apFirst_apSecond : DifferInSlot apFirst apSecond := by
  refine ⟨rfl, rfl, List.Perm.swap _ _ _, ?_⟩
  decide

theorem suspendResume_sameEffect_iff_two :
    DifferInSlot apFirst apSecond ∧
      (SameEffect (fun _ => 0) 0 [8, 0, 0, 0] apFirst apSecond ↔
        apFirst.cbc = false ∨ ([8, 0, 0, 0] : List UInt8).length < 4 ∨ suspendMulticast [8, 0, 0, 0] = true ∨
          (aheadOfAp apFirst.vifs = true ∧ aheadOfAp apSecond.vifs = true) ∨
          ∀ v, some v ∈ apFirst.vifs → v.joinStatus = .ap →
            Indifferent (fun _ => 0) (suspendStop [8, 0, 0, 0]) v) :=
  ⟨apFirst_apSecond, suspendResume_sameEffect_iff (fun _ => 0) 0 [8, 0, 0, 0] apFirst apSecond apFirst_apSecond⟩

/-- With 3 on the stack the AP in the first slot puts station 3 to sleep, in the second none. -/
theorem suspendResume_not_sameEffect : ¬SameEffect (fun _ => 0) 0 [0, 0, 0, 0] apFirst apSecond := by
  intro h
  have hperm := ((h 3 0).1.perm).map fun x => x.map AtbmVif.staAsleepMask
  revert hperm
  decide

end AtbmWifi
