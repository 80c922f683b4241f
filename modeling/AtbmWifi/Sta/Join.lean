import Mathlib.Tactic.Common
import AtbmWifi.Lib.Transition

/-!
# Joining and leaving a BSS

`atbm_do_join` and `atbm_do_unjoin` of one station interface: the fields they
decide on, and the requests they send to the firmware with the results of
`wsm_join` and `wsm_reset` (those of the others are only warned about).

* `JoinOk`: `join_status` and `join_bssid` tell what the firmware's last join or
  reset was, no join was sent while another BSS was joined, and a failed
  `atbm_do_join` leaves the interface unjoined.

The unjoin inside `atbm_do_join` names the new BSS, so `atbm_do_unjoin` refuses it.
-/

namespace AtbmWifi

open Transition

abbrev Mac := BitVec 48

inductive JoinStatus
  | passive
  | staListen
  | monitor
  | ibss
  | sta
  | ap
  | simpleMonitor
  deriving DecidableEq, Repr

def JoinStatus.toNat : JoinStatus → Nat
  | .passive => 0
  | .staListen => 1
  | .monitor => 2
  | .ibss => 3
  | .sta => 4
  | .ap => 5
  | .simpleMonitor => 6

/-- What `atbm_do_join` reads of a `cfg80211_bss`; the elements are optional. -/
structure Bss where
  bssid : Mac
  ibss : Bool
  beaconInterval : Nat
  band5G : Bool
  channel : Nat
  ssid : Option (List UInt8)
  dtimPeriod : Option Nat
  deriving DecidableEq, Repr

/-- `struct wsm_join`, as far as it comes from the BSS -/
structure WsmJoin where
  ibss : Bool
  band5G : Bool
  channelNumber : Nat
  bssid : Mac
  beaconInterval : Nat
  dtimPeriod : Nat
  ssid : List UInt8
  deriving DecidableEq, Repr

/-- Requests of one interface to the firmware; a join and a reset with success or failure. -/
inductive FwReq
  | keepAlivePeriod (seconds : Nat)
  | reset (ok : Bool)
  | setOperationalMode
  | setupMac
  | setBlockAckPolicy
  | updateFiltering
  | setPm (mode : Nat)
  | setProtectedMgmtPolicy
  | join (arg : WsmJoin) (ok : Bool)
  deriving DecidableEq, Repr

/-- The part of `struct atbm_vif` the two functions decide on. -/
structure JoinVif where
  enabled : Bool
  joinStatus : JoinStatus
  joinBssid : Mac
  joinDtimPeriod : Nat
  beaconInt : Nat
  /-- `bss_params.aid && setbssparams_done` -/
  associated : Bool
  /-- `powersave_mode`, 0 when cleared -/
  powersaveMode : Nat
  firmwarePsMode : Nat
  disableBeaconFilter : Bool
  /-- `BUG_ON(1)` of `atbm_do_unjoin` -/
  bug : Bool
  /-- history: what was sent, newest first -/
  requests : List FwReq
  /-- history: whether the last call was `atbm_do_join`, and its result -/
  lastCall : Option (Bool × Int)
  deriving DecidableEq, Repr

def send (r : FwReq) (s : JoinVif) : JoinVif := { s with requests := r :: s.requests }

def atbmSetPm (s : JoinVif) : JoinVif :=
  if s.joinStatus = .sta ∧ s.associated = true ∧ s.powersaveMode ≠ s.firmwarePsMode then
    send (.setPm s.powersaveMode) { s with firmwarePsMode := s.powersaveMode }
  else s

/-- `atbm_do_unjoin`, once the BSSID is found to be the one joined. -/
def unjoinReset (resetOk : Bool) (s : JoinVif) : JoinVif :=
  let s := { s with joinBssid := 0, joinStatus := .passive }
  let s := send .setOperationalMode (send (.reset resetOk) (send (.keepAlivePeriod 0) s))
  let s := send .setBlockAckPolicy (send .setupMac { s with joinDtimPeriod := 0 })
  let s := send .updateFiltering { s with disableBeaconFilter := false }
  atbmSetPm { s with associated := false, firmwarePsMode := 0 }

def atbmDoUnjoin (term : Bool) (bssid : Mac) (resetOk : Bool) (s : JoinVif) : JoinVif × Int :=
  if term then (s, -1)
  else if JoinStatus.sta.toNat < s.joinStatus.toNat then ({ s with bug := true }, 0)
  else if s.joinStatus ≠ .sta then (s, 0)
  else if bssid ≠ s.joinBssid then (s, -1)
  else (unjoinReset resetOk s, 0)

/-- The `join` of `atbm_do_join`; an SSID is cut at 32 bytes. -/
def joinArg (bss : Bss) : WsmJoin where
  ibss := bss.ibss
  band5G := bss.band5G
  channelNumber := bss.channel
  bssid := bss.bssid
  beaconInterval := bss.beaconInterval
  dtimPeriod := match bss.dtimPeriod with
    | some p => if 1 < p then p else 1
    | none => 1
  ssid := (bss.ssid.getD []).take 32

/-- `atbm_do_join`, from the join's arguments to the requests before `wsm_join`. -/
def joinPrepare (bss : Bss) (s : JoinVif) : JoinVif :=
  let s := { s with
    joinDtimPeriod := if 1 < (joinArg bss).dtimPeriod then (joinArg bss).dtimPeriod else s.joinDtimPeriod
    beaconInt := bss.beaconInterval
    joinBssid := bss.bssid
    powersaveMode := 0 }
  send .setProtectedMgmtPolicy (send .setBlockAckPolicy (send .setOperationalMode (atbmSetPm s)))

/-- `atbm_do_join`, from `wsm_join` on. -/
def joinFinish (bss : Bss) (joinOk : Bool) (s : JoinVif) : JoinVif × Int :=
  let s := send (.join (joinArg bss) joinOk) s
  if joinOk then (send .updateFiltering { s with joinStatus := .sta, disableBeaconFilter := true }, 0)
  else ({ s with joinBssid := 0 }, -1)

def atbmDoJoin (bss : Bss) (term joinOk resetOk : Bool) (s : JoinVif) : JoinVif × Int :=
  if s.enabled = false then (s, -1)
  else if s.joinStatus = .sta ∧ bss.bssid = s.joinBssid then (s, 0)
  else
    let s := if s.joinStatus = .sta then (atbmDoUnjoin term bss.bssid resetOk s).1 else s
    joinFinish bss joinOk (joinPrepare bss s)

inductive JoinAct
  | doJoin (bss : Bss) (term joinOk resetOk : Bool)
  | doUnjoin (bssid : Mac) (term resetOk : Bool)
  /-- what mac80211 configures between calls -/
  | bssInfo (associated : Bool) (powersaveMode : Nat)
  deriving DecidableEq, Repr

def JoinAct.next (s : JoinVif) : JoinAct → JoinVif
  | .doJoin bss term joinOk resetOk =>
    let r := atbmDoJoin bss term joinOk resetOk s
    { r.1 with lastCall := some (true, r.2) }
  | .doUnjoin bssid term resetOk =>
    let r := atbmDoUnjoin term bssid resetOk s
    { r.1 with lastCall := some (false, r.2) }
  | .bssInfo associated powersaveMode => { s with associated, powersaveMode, lastCall := none }

/-- An interface that was never joined: any status below STA, no BSSID. -/
def JoinVif.fresh (s : JoinVif) : Prop :=
  s.joinStatus.toNat < JoinStatus.sta.toNat ∧ s.joinBssid = 0 ∧ s.bug = false ∧ s.requests = [] ∧
    s.lastCall = none

def joining : Sys JoinVif JoinAct := .ofNext JoinVif.fresh (fun _ _ => True) JoinAct.next

/-- The BSSID of the last join or reset, if that was a successful join. -/
def lastJoin : List FwReq → Option Mac
  | [] => none
  | .join j true :: _ => some j.bssid
  | .join _ false :: _ => none
  | .reset _ :: _ => none
  | _ :: l => lastJoin l

/-- The BSS the firmware is joined to: a successful join and no reset since. -/
def fwJoined : List FwReq → Option Mac
  | [] => none
  | .join j true :: _ => some j.bssid
  | .reset _ :: _ => none
  | _ :: l => fwJoined l

/-- No join was sent while another BSS was joined. -/
def Orderly : List FwReq → Prop
  | [] => True
  | .join j _ :: l => (∀ b, fwJoined l = some b → b = j.bssid) ∧ Orderly l
  | _ :: l => Orderly l

structure JoinOk (s : JoinVif) : Prop where
  sta : s.joinStatus = .sta ↔ (lastJoin s.requests).isSome
  bssid : ∀ b, lastJoin s.requests = some b → s.joinBssid = b
  orderly : Orderly s.requests
  failed : s.lastCall = some (true, -1) → s.joinStatus ≠ .sta ∧ s.joinBssid = 0

/-- No `atbm_do_join` for another BSS while the interface is joined. -/
def LeavesFirst (s : JoinVif) : JoinAct → Prop
  | .doJoin bss _ _ _ => s.enabled = true → s.joinStatus = .sta → bss.bssid = s.joinBssid
  | _ => True

instance decLeavesFirst (s : JoinVif) : ∀ a, Decidable (LeavesFirst s a)
  | .doJoin .. => inferInstanceAs (Decidable (_ → _ → _))
  | .doUnjoin .. | .bssInfo .. => isTrue trivial

structure JoinInv (e : Bool) (s : JoinVif) : Prop where
  enabled : s.enabled = e
  noBug : s.bug = false
  below : s.joinStatus.toNat ≤ JoinStatus.sta.toNat
  disabled : e = false → s.joinStatus ≠ .sta
  unjoined : s.joinStatus ≠ .sta → s.joinBssid = 0 ∧ fwJoined s.requests = none

variable {s : JoinVif} {e : Bool} {a : JoinAct}

theorem joinInv_fresh (h : s.fresh) : JoinInv s.enabled s := by
  obtain ⟨hlt, hb, hbug, hr, -⟩ := h
  have hne : s.joinStatus ≠ .sta := by
    intro hs
    rw [hs] at hlt
    exact absurd hlt (Nat.lt_irrefl _)
  exact ⟨rfl, hbug, Nat.le_of_lt hlt, fun _ => hne, fun _ => ⟨hb, by rw [hr]; rfl⟩⟩

theorem joinOk_fresh (h : s.fresh) : JoinOk s := by
  obtain ⟨hlt, hb, -, hr, hl⟩ := h
  have hne : s.joinStatus ≠ .sta := by
    intro hs
    rw [hs] at hlt
    exact absurd hlt (Nat.lt_irrefl _)
  exact ⟨by simp [hr, lastJoin, hne], by simp [hr, lastJoin], by simp [hr, Orderly], by simp [hl]⟩

theorem fwJoined_of_lastJoin {l : List FwReq} {b : Mac} (h : lastJoin l = some b) : fwJoined l = some b := by
  induction l with
  | nil => cases h
  | cons r l ih =>
    cases r with
    | join j ok =>
      cases ok with
      | true => exact h
      | false => cases h
    | reset ok => cases h
    | keepAlivePeriod | setOperationalMode | setupMac | setBlockAckPolicy | updateFiltering | setPm
    | setProtectedMgmtPolicy => exact ih h

theorem unjoinReset_fields (resetOk : Bool) (s : JoinVif) :
    (unjoinReset resetOk s).enabled = s.enabled ∧ (unjoinReset resetOk s).bug = s.bug ∧
    (unjoinReset resetOk s).joinStatus = .passive ∧ (unjoinReset resetOk s).joinBssid = 0 ∧
    (unjoinReset resetOk s).requests = .updateFiltering :: .setBlockAckPolicy :: .setupMac ::
      .setOperationalMode :: .reset resetOk :: .keepAlivePeriod 0 :: s.requests := by
  simp [unjoinReset, atbmSetPm, send]

theorem atbmDoUnjoin_cases (hI : JoinInv e s) (term : Bool) (bssid : Mac) (resetOk : Bool) :
    atbmDoUnjoin term bssid resetOk s = (s, -1) ∨
    (atbmDoUnjoin term bssid resetOk s = (s, 0) ∧ s.joinStatus ≠ .sta) ∨
    (atbmDoUnjoin term bssid resetOk s = (unjoinReset resetOk s, 0) ∧ bssid = s.joinBssid) := by
  have hbelow : ¬ JoinStatus.sta.toNat < s.joinStatus.toNat := Nat.not_lt.mpr hI.below
  unfold atbmDoUnjoin
  split
  · exact .inl rfl
  split
  · next hs => exact .inr (.inl ⟨rfl, hs⟩)
  split
  · exact .inl rfl
  · next hb => exact .inr (.inr ⟨rfl, Decidable.of_not_not hb⟩)

theorem doUnjoin_keeps (hI : JoinInv e s) (hJ : JoinOk s) (bssid : Mac) (term resetOk : Bool) :
    JoinInv e (JoinAct.next s (.doUnjoin bssid term resetOk)) ∧
    JoinOk (JoinAct.next s (.doUnjoin bssid term resetOk)) := by
  have same : ∀ r : Int, JoinInv e { s with lastCall := some (false, r) } ∧
      JoinOk { s with lastCall := some (false, r) } := fun r =>
    ⟨⟨hI.enabled, hI.noBug, hI.below, hI.disabled, hI.unjoined⟩,
      ⟨hJ.sta, hJ.bssid, hJ.orderly, by simp⟩⟩
  rcases atbmDoUnjoin_cases hI term bssid resetOk with h | ⟨h, -⟩ | ⟨h, -⟩
  · simp only [JoinAct.next, h]
    exact same _
  · simp only [JoinAct.next, h]
    exact same _
  · obtain ⟨hen, hbug, hst, hb, hr⟩ := unjoinReset_fields resetOk s
    simp only [JoinAct.next, h]
    refine ⟨⟨hen.trans hI.enabled, hbug.trans hI.noBug, ?_, fun _ => ?_, fun _ => ⟨hb, ?_⟩⟩, ⟨?_, ?_, ?_, by simp⟩⟩
    · simp [hst, JoinStatus.toNat]
    · simp [hst]
    · simp [hr, fwJoined]
    · simp [hst, hr, lastJoin]
    · simp [hr, lastJoin]
    · simpa [hr, Orderly] using hJ.orderly

theorem joinPrepare_requests (bss : Bss) (s : JoinVif) :
    fwJoined (joinPrepare bss s).requests = fwJoined s.requests ∧
    (Orderly (joinPrepare bss s).requests ↔ Orderly s.requests) := by
  unfold joinPrepare atbmSetPm
  simp only
  split <;> exact ⟨rfl, Iff.rfl⟩

theorem joinPrepare_fields (bss : Bss) (s : JoinVif) :
    (joinPrepare bss s).enabled = s.enabled ∧ (joinPrepare bss s).bug = s.bug ∧
    (joinPrepare bss s).joinStatus = s.joinStatus ∧ (joinPrepare bss s).joinBssid = bss.bssid := by
  unfold joinPrepare atbmSetPm
  simp only
  split <;> exact ⟨rfl, rfl, rfl, rfl⟩

theorem atbmDoJoin_unjoined (he : s.enabled = true) (hs : s.joinStatus ≠ .sta) (bss : Bss)
    (term joinOk resetOk : Bool) :
    atbmDoJoin bss term joinOk resetOk s = joinFinish bss joinOk (joinPrepare bss s) := by
  simp [atbmDoJoin, he, hs]

theorem joinFinish_true (bss : Bss) (s : JoinVif) :
    (joinFinish bss true s).2 = 0 ∧ (joinFinish bss true s).1.enabled = s.enabled ∧
    (joinFinish bss true s).1.bug = s.bug ∧ (joinFinish bss true s).1.joinStatus = .sta ∧
    (joinFinish bss true s).1.joinBssid = s.joinBssid ∧
    (joinFinish bss true s).1.requests = .updateFiltering :: .join (joinArg bss) true :: s.requests :=
  ⟨rfl, rfl, rfl, rfl, rfl, rfl⟩

theorem joinFinish_false (bss : Bss) (s : JoinVif) :
    (joinFinish bss false s).2 = -1 ∧ (joinFinish bss false s).1.enabled = s.enabled ∧
    (joinFinish bss false s).1.bug = s.bug ∧ (joinFinish bss false s).1.joinStatus = s.joinStatus ∧
    (joinFinish bss false s).1.joinBssid = 0 ∧
    (joinFinish bss false s).1.requests = .join (joinArg bss) false :: s.requests :=
  ⟨rfl, rfl, rfl, rfl, rfl, rfl⟩

theorem join_unjoined_keeps (hI : JoinInv e s) (hJ : JoinOk s) (hen : s.enabled = true)
    (hs : s.joinStatus ≠ .sta) (bss : Bss) (joinOk : Bool) (u : JoinVif × Int)
    (hu : u = joinFinish bss joinOk (joinPrepare bss s)) :
    JoinInv e { u.1 with lastCall := some (true, u.2) } ∧ JoinOk { u.1 with lastCall := some (true, u.2) } := by
  obtain ⟨hfw, hord⟩ := joinPrepare_requests bss s
  obtain ⟨pen, pbug, pst, pb⟩ := joinPrepare_fields bss s
  have hnone := (hI.unjoined hs).2
  cases joinOk with
  | true =>
    obtain ⟨hret, hen', hbug, hst, hb, hr⟩ := joinFinish_true bss (joinPrepare bss s)
    rw [← hu] at hret hen' hbug hst hb hr
    refine ⟨⟨?_, ?_, ?_, fun h => ?_, fun h => absurd hst h⟩, ⟨?_, fun b h => ?_, ?_, fun h => ?_⟩⟩
    · exact hen'.trans (pen.trans hI.enabled)
    · exact hbug.trans (pbug.trans hI.noBug)
    · simp [hst]
    · rw [← hI.enabled, hen] at h
      cases h
    · simp [hst, hr, lastJoin]
    · simp only [hr, lastJoin] at h
      simp only [hb, pb]
      exact Option.some.inj h
    · simp only [hr, Orderly, hfw, hnone, hord]
      exact ⟨by simp, hJ.orderly⟩
    · simp [hret] at h
  | false =>
    obtain ⟨hret, hen', hbug, hst, hb, hr⟩ := joinFinish_false bss (joinPrepare bss s)
    rw [← hu] at hret hen' hbug hst hb hr
    rw [pst] at hst
    refine ⟨⟨?_, ?_, ?_, fun _ => ?_, fun _ => ⟨hb, ?_⟩⟩, ⟨?_, ?_, ?_, fun _ => ⟨?_, hb⟩⟩⟩
    · exact hen'.trans (pen.trans hI.enabled)
    · exact hbug.trans (pbug.trans hI.noBug)
    · simp only [hst]
      exact hI.below
    · simp only [hst]
      exact hs
    · simp [hr, fwJoined, hfw, hnone]
    · simp [hst, hr, lastJoin, hs]
    · simp [hr, lastJoin]
    · simp only [hr, Orderly, hfw, hnone, hord]
      exact ⟨by simp, hJ.orderly⟩
    · simp only [hst]
      exact hs

theorem doJoin_keeps (hI : JoinInv e s) (hJ : JoinOk s) (bss : Bss)
    (term joinOk resetOk : Bool) (hC : LeavesFirst s (.doJoin bss term joinOk resetOk)) :
    JoinInv e (JoinAct.next s (.doJoin bss term joinOk resetOk)) ∧
    JoinOk (JoinAct.next s (.doJoin bss term joinOk resetOk)) := by
  by_cases hen : s.enabled = true
  · by_cases hs : s.joinStatus = .sta
    · have heq : atbmDoJoin bss term joinOk resetOk s = (s, 0) := by
        simp [atbmDoJoin, hen, hs, hC hen hs]
      simp only [JoinAct.next, heq]
      exact ⟨⟨hI.enabled, hI.noBug, hI.below, hI.disabled, hI.unjoined⟩,
        ⟨hJ.sta, hJ.bssid, hJ.orderly, by simp⟩⟩
    · exact join_unjoined_keeps hI hJ hen hs bss joinOk _ (atbmDoJoin_unjoined hen hs ..)
  · have hen := Bool.eq_false_iff.mpr hen
    have hs : s.joinStatus ≠ .sta := hI.disabled (by rw [← hI.enabled, hen])
    have heq : atbmDoJoin bss term joinOk resetOk s = (s, -1) := by simp [atbmDoJoin, hen]
    simp only [JoinAct.next, heq]
    exact ⟨⟨hI.enabled, hI.noBug, hI.below, hI.disabled, hI.unjoined⟩,
      ⟨hJ.sta, hJ.bssid, hJ.orderly, fun _ => ⟨hs, (hI.unjoined hs).1⟩⟩⟩

theorem doJoin_loses (hI : JoinInv e s) (hJ : JoinOk s) {bss : Bss}
    {term joinOk resetOk : Bool} (ht : JoinOk (JoinAct.next s (.doJoin bss term joinOk resetOk))) :
    LeavesFirst s (.doJoin bss term joinOk resetOk) := by
  intro hen hs
  apply Decidable.byContradiction
  intro hb
  obtain ⟨b, hlast⟩ := Option.isSome_iff_exists.mp (hJ.sta.mp hs)
  have hjb := hJ.bssid b hlast
  -- the inner unjoin names the new BSS and is refused
  have hun : (atbmDoUnjoin term bss.bssid resetOk s).1 = s := by
    rcases atbmDoUnjoin_cases hI term bss.bssid resetOk with h | ⟨h, -⟩ | ⟨-, h⟩
    · rw [h]
    · rw [h]
    · exact absurd h hb
  have hreq : ∃ l, (JoinAct.next s (.doJoin bss term joinOk resetOk)).requests =
      l ++ .join (joinArg bss) joinOk :: (joinPrepare bss s).requests ∧ ∀ r ∈ l, r = .updateFiltering := by
    simp only [JoinAct.next, atbmDoJoin, hen, hs, hb, and_false, Bool.true_eq_false, if_false, if_true, hun]
    cases joinOk with
    | true => exact ⟨[.updateFiltering], rfl, by simp⟩
    | false => exact ⟨[], rfl, by simp⟩
  obtain ⟨l, hl, hupd⟩ := hreq
  have hord := ht.orderly
  rw [hl] at hord
  have hjoin : Orderly (.join (joinArg bss) joinOk :: (joinPrepare bss s).requests) := by
    clear hl
    induction l with
    | nil => exact hord
    | cons r l ih =>
      obtain rfl := hupd r List.mem_cons_self
      exact ih (fun r hr => hupd r (List.mem_cons_of_mem _ hr)) hord
  apply hb
  rw [hjb]
  refine (hjoin.1 b ?_).symm
  rw [(joinPrepare_requests bss s).1]
  exact fwJoined_of_lastJoin hlast

theorem bssInfo_keeps (hI : JoinInv e s) (hJ : JoinOk s) (associated : Bool) (powersaveMode : Nat) :
    JoinInv e (JoinAct.next s (.bssInfo associated powersaveMode)) ∧
    JoinOk (JoinAct.next s (.bssInfo associated powersaveMode)) :=
  ⟨⟨hI.enabled, hI.noBug, hI.below, hI.disabled, hI.unjoined⟩,
    ⟨hJ.sta, hJ.bssid, hJ.orderly, by simp [JoinAct.next]⟩⟩

theorem join_step_keeps (hI : JoinInv e s) (hJ : JoinOk s)
    (hC : LeavesFirst s a) : JoinInv e (a.next s) ∧ JoinOk (a.next s) := by
  cases a with
  | doJoin bss term joinOk resetOk => exact doJoin_keeps hI hJ bss term joinOk resetOk hC
  | doUnjoin bssid term resetOk => exact doUnjoin_keeps hI hJ bssid term resetOk
  | bssInfo associated powersaveMode => exact bssInfo_keeps hI hJ associated powersaveMode

theorem join_step_loses (hI : JoinInv e s) (hJ : JoinOk s) (ht : JoinOk (a.next s)) : LeavesFirst s a := by
  cases a with
  | doJoin bss term joinOk resetOk => exact doJoin_loses hI hJ ht
  | doUnjoin | bssInfo => trivial

theorem joinInv_run {l : List (JoinVif × JoinAct)} {t : JoinVif} (hp : Path joining s l t)
    (hC : ∀ p ∈ l, LeavesFirst p.1 p.2) (hI : JoinInv e s) (hJ : JoinOk s) : JoinInv e t ∧ JoinOk t := by
  refine hp.keep (I := fun s => JoinInv e s ∧ JoinOk s) ?_ hC ⟨hI, hJ⟩
  rintro s a t ⟨hI, hJ⟩ ⟨-, rfl⟩ hC
  exact join_step_keeps hI hJ hC

/-- What a call returns and sends, and whether and where it leaves the interface joined. -/
structure SameCall (s u s' u' : JoinVif) : Prop where
  result : u.lastCall = u'.lastCall
  requests : ∃ new, u.requests = new ++ s.requests ∧ u'.requests = new ++ s'.requests
  sta : u.joinStatus = .sta ↔ u'.joinStatus = .sta
  bssid : u.joinBssid = u'.joinBssid

theorem sameCall_of_unjoined {s' : JoinVif} (hI : JoinInv e s) (hI' : JoinInv e s')
    (hs : s.joinStatus ≠ .sta) (hs' : s'.joinStatus ≠ .sta)
    (ha : ∀ as pm, a ≠ .bssInfo as pm) : SameCall s (a.next s) s' (a.next s') := by
  have hb : s.joinBssid = s'.joinBssid := (hI.unjoined hs).1.trans (hI'.unjoined hs').1.symm
  cases a with
  | bssInfo as pm => exact absurd rfl (ha as pm)
  | doUnjoin bssid term resetOk =>
    have hun : ∀ {v : JoinVif}, JoinInv e v → v.joinStatus ≠ .sta →
        atbmDoUnjoin term bssid resetOk v = (v, if term then -1 else 0) := by
      intro v hv hne
      cases term with
      | true => rfl
      | false => simp [atbmDoUnjoin, Nat.not_lt.mpr hv.below, hne]
    simp only [JoinAct.next, hun hI hs, hun hI' hs']
    exact ⟨rfl, ⟨[], rfl, rfl⟩, by simp [hs, hs'], hb⟩
  | doJoin bss term joinOk resetOk =>
    by_cases hen : e = true
    · have hpre : ∀ {v : JoinVif}, v.joinStatus ≠ .sta → (joinPrepare bss v).requests =
          .setProtectedMgmtPolicy :: .setBlockAckPolicy :: .setOperationalMode :: v.requests := by
        intro v hne
        simp [joinPrepare, atbmSetPm, send, hne]
      simp only [JoinAct.next, atbmDoJoin_unjoined (hI.enabled.trans hen) hs,
        atbmDoJoin_unjoined (hI'.enabled.trans hen) hs']
      obtain ⟨-, -, pst, pb⟩ := joinPrepare_fields bss s
      obtain ⟨-, -, pst', pb'⟩ := joinPrepare_fields bss s'
      cases joinOk with
      | true =>
        obtain ⟨hret, -, -, hst, hb, hr⟩ := joinFinish_true bss (joinPrepare bss s)
        obtain ⟨hret', -, -, hst', hb', hr'⟩ := joinFinish_true bss (joinPrepare bss s')
        refine ⟨by simp [hret, hret'], ⟨[.updateFiltering, .join (joinArg bss) true, .setProtectedMgmtPolicy,
          .setBlockAckPolicy, .setOperationalMode], ?_, ?_⟩, by simp [hst, hst'], by simp [hb, hb', pb, pb']⟩
        · simp [hr, hpre hs]
        · simp [hr', hpre hs']
      | false =>
        obtain ⟨hret, -, -, hst, hb, hr⟩ := joinFinish_false bss (joinPrepare bss s)
        obtain ⟨hret', -, -, hst', hb', hr'⟩ := joinFinish_false bss (joinPrepare bss s')
        refine ⟨by simp [hret, hret'], ⟨[.join (joinArg bss) false, .setProtectedMgmtPolicy,
          .setBlockAckPolicy, .setOperationalMode], ?_, ?_⟩, by simp [hst, hst', pst, pst', hs, hs'],
          by simp [hb, hb']⟩
        · simp [hr, hpre hs]
        · simp [hr', hpre hs']
    · have hdis : ∀ {v : JoinVif}, JoinInv e v → atbmDoJoin bss term joinOk resetOk v = (v, -1) := by
        intro v hv
        have : v.enabled = false := by
          rw [hv.enabled]
          exact Bool.eq_false_iff.mpr hen
        simp [atbmDoJoin, this]
      simp only [JoinAct.next, hdis hI, hdis hI']
      exact ⟨rfl, ⟨[], rfl, rfl⟩, by simp [hs, hs'], hb⟩

/-- **The join state machine.**  Along every run from a fresh interface, `JoinOk` holds in every
state exactly when every step is `LeavesFirst`; and then, after a failed `atbm_do_join`, the
next call goes as from the start of the run. -/
theorem join_agrees {s t : JoinVif} {l : List (JoinVif × JoinAct)} (hs : s.fresh) (hp : Path joining s l t) :
    (((∀ p ∈ l, JoinOk p.1) ∧ JoinOk t) ↔ ∀ p ∈ l, LeavesFirst p.1 p.2) ∧
    ((∀ p ∈ l, LeavesFirst p.1 p.2) → t.lastCall = some (true, -1) → ∀ a,
      (∀ as pm, a ≠ .bssInfo as pm) → SameCall t (JoinAct.next t a) s (JoinAct.next s a)) := by
  refine ⟨Path.exact (I := JoinInv s.enabled) ?_ ?_ hp (joinInv_fresh hs) (joinOk_fresh hs), ?_⟩
  · rintro s a t hI hJ ⟨-, rfl⟩ hC
    exact join_step_keeps hI hJ hC
  · rintro s a t hI hJ ⟨-, rfl⟩ ht
    exact join_step_loses hI hJ ht
  · intro hC hfail a ha
    obtain ⟨hI, hJ⟩ := joinInv_run hp hC (joinInv_fresh hs) (joinOk_fresh hs)
    have hne : s.joinStatus ≠ .sta := by
      intro h
      have := hs.1
      rw [h] at this
      exact absurd this (Nat.lt_irrefl _)
    exact sameCall_of_unjoined hI (joinInv_fresh hs) (hJ.failed hfail).1 hne ha

def freshSta : JoinVif where
  enabled := true
  joinStatus := .passive
  joinBssid := 0
  joinDtimPeriod := 0
  beaconInt := 0
  associated := false
  powersaveMode := 0
  firmwarePsMode := 0
  disableBeaconFilter := false
  bug := false
  requests := []
  lastCall := none

def sampleBss (bssid : Mac) : Bss := ⟨bssid, false, 100, false, 6, none, some 3⟩

def joinLeaveFail : List JoinAct :=
  [.doJoin (sampleBss 1) false true true, .doUnjoin 1 false true, .doJoin (sampleBss 2) false false true]

theorem join_agrees_leaveFail :
    JoinOk (joinLeaveFail.foldl JoinAct.next freshSta) ∧
    SameCall (joinLeaveFail.foldl JoinAct.next freshSta)
      (JoinAct.next (joinLeaveFail.foldl JoinAct.next freshSta) (.doJoin (sampleBss 3) false true true))
      freshSta (JoinAct.next freshSta (.doJoin (sampleBss 3) false true true)) := by
  have hp : Path joining freshSta (trace JoinAct.next freshSta joinLeaveFail)
      (joinLeaveFail.foldl JoinAct.next freshSta) := Path.ofFires ⟨trivial, trivial, trivial, trivial⟩
  have hfresh : freshSta.fresh := ⟨by decide, rfl, rfl, rfl, rfl⟩
  have h := join_agrees hfresh hp
  exact ⟨(h.1.mpr (by decide +kernel)).2, h.2 (by decide +kernel) (by decide +kernel) _ (by simp)⟩

/-- **The failing run.**  A station joined to one BSS is told to join another and fails: a join is
sent while the firmware is joined elsewhere, and the interface still says joined, with no
BSSID and after a failed join; it cannot be unjoined. -/
theorem roam_fails_joined :
    ∃ s, Reach joining s ∧ s.lastCall = some (true, -1) ∧ s.joinStatus = .sta ∧ s.joinBssid = 0 ∧
      lastJoin s.requests = none ∧ ¬ Orderly s.requests ∧
      (JoinAct.next s (.doUnjoin 1 false true)).lastCall = some (false, -1) := by
  refine ⟨[JoinAct.doJoin (sampleBss 1) false true true, .doJoin (sampleBss 2) false false true].foldl
    JoinAct.next freshSta, ?_, by decide +kernel, by decide +kernel, by decide +kernel, by decide +kernel,
    ?_, by decide +kernel⟩
  · exact Reach.fires (.init ⟨by decide, rfl, rfl, rfl, rfl⟩) ⟨trivial, trivial, trivial⟩
  · rintro ⟨h, -⟩
    exact absurd (h 1 (by decide +kernel)) (by decide +kernel)

end AtbmWifi
