import AtbmWifi.Sta.RemainOnChannel

/-!
# Who owns the channel

* `remainOnChannel_owned`: every state of a run of orderly steps is owned.
-/

namespace AtbmWifi

open Transition

def RocFlushPc.locks : RocFlushPc → Bool
  | late _ | check _ => true
  | _ => false

/-- The next step calls `wsm_unlock_tx`. -/
def RocFlushPc.unlocks (ok : Bool) : RocFlushPc → Bool
  | late _ => true
  | check _ => !ok
  | _ => false

namespace RocPc

/-- `atbm_remain_on_channel` has `scan.lock`, and `remain_on_channel` is not set. -/
def holds : RocPc → Bool
  | lock | setIf | flush _ | unlockTx | setRoc | clear | cookie false | unlock false | up => true
  | _ => false

def crit : RocPc → Bool
  | setIf | flush _ | unlockTx | setRoc | arm | clear | cookie _ | unlock _ => true
  | _ => false

/-- `roc_if_id` is set and `remain_on_channel` not decided. -/
def setsIf : RocPc → Bool
  | flush _ | unlockTx | setRoc | clear => true
  | _ => false

def locks : RocPc → Bool
  | flush f => f.locks
  | unlockTx => true
  | _ => false

def unlocks (ok : Bool) : RocPc → Bool
  | flush f => f.unlocks ok
  | unlockTx => true
  | _ => false

end RocPc

namespace RocTimeoutPc

/-- Past its test of `remain_on_channel`, which it will clear. -/
def engaged : RocTimeoutPc → Bool
  | test | unlock | up => false
  | _ => true

def reported : RocTimeoutPc → Bool
  | test | expired | unlock | up => false
  | _ => true

/-- `remain_on_channel` is clear, and `scan.lock` not yet given back. -/
def ending : RocTimeoutPc → Bool
  | unlock | up => true
  | _ => false

def crit : RocTimeoutPc → Bool
  | readIf | flush _ | unlockTx | clear | unlock => true
  | _ => false

def locks : RocTimeoutPc → Bool
  | flush f => f.locks
  | unlockTx => true
  | _ => false

def unlocks (ok : Bool) : RocTimeoutPc → Bool
  | flush f => f.unlocks ok
  | unlockTx => true
  | _ => false

end RocTimeoutPc

namespace RocRemovePc

def holds : RocRemovePc → Bool
  | lock | clear | unlock | up => true
  | _ => false

def crit : RocRemovePc → Bool
  | clear | unlock => true
  | _ => false

end RocRemovePc

namespace RocDriver

/-- Executions of `atbm_rem_chan_timeout` at a place that meets `P`. -/
def execs (f : RocExec → Option RocTimeoutPc) (P : RocTimeoutPc → Bool) : Nat :=
  ((f .work).any P).toNat + ((f .cancel).any P).toNat + ((f .bh).any P).toNat

/-- How often `scan.lock` is held for a remain-on-channel. -/
def holders (s : RocDriver) : Nat := s.caller.holds.toNat + s.active.isSome.toNat + execs s.timeout RocTimeoutPc.ending

structure Owned (s : RocDriver) : Prop where
  /-- scans, a removal and remain-on-channel share `scan.lock` -/
  scanLock : s.scanLock + s.scans + s.remover.holds.toNat + s.holders = 1
  balance : s.downs = s.ups + s.holders
  flag : s.remainOnChannel = s.active.isSome
  ifId : s.confMutex = none → s.rocIfId = s.active.map Prod.fst
  /-- what is active will be ended -/
  due : s.active ≠ none → s.remChanTimeout = true ∨ (∃ e p, s.timeout e = some p ∧ p.ending = false) ∨
    s.caller = .arm ∨ s.caller = .test2
  expired : s.expired = s.ended ∨ ∃ a, s.active = some a ∧ s.expired = s.ended ++ [a.2]
  early : s.early = false
  txLock : s.txLock = (s.caller.locks.toNat + execs s.timeout RocTimeoutPc.locks : Nat)
  vifs : s.badVif = false

end RocDriver

/-- The condition on a step: TX is not unlocked with `bh_error` set; the timeout function does not pass its test while another
execution has passed it and not yet cleared the flag; and the expiry is not reported before the cookie is stored. -/
def RocAct.Orderly (s : RocDriver) : RocAct → Prop
  | .call ok => s.caller.unlocks ok = true → s.bhError = false
  | .timeout e ok =>
    match s.timeout e with
    | some .test => s.remainOnChannel = true → ∀ e' ∈ [RocExec.work, .cancel, .bh], (s.timeout e').any (·.engaged) = false
    | some .expired => s.caller.unrecorded = false
    | some p => p.unlocks ok = true → s.bhError = false
    | none => True
  | _ => True

instance RocAct.decOrderly (s : RocDriver) (a : RocAct) : Decidable (a.Orderly s) :=
  match a with
  | .call _ => inferInstanceAs (Decidable (_ → _))
  | .timeout e ok => by
    delta RocAct.Orderly
    dsimp only
    exact match s.timeout e with
      | some .test => inferInstanceAs (Decidable (_ → _))
      | some .expired => inferInstanceAs (Decidable (_ = _))
      | some .lock | some .readIf | some (.flush _) | some .unlockTx | some .clear | some .unlock | some .up =>
        inferInstanceAs (Decidable (_ → _))
      | none => .isTrue trivial
  | .remain .. | .cancel | .work | .bhTerm | .add _ | .remove _ | .removal | .scanDown | .scanUp | .mutexLock | .mutexUnlock
  | .bhError | .bhGone => .isTrue trivial

namespace RocDriver

/-- The parts of the invariant about `scan.lock` and `conf_mutex`. -/
structure Locks (s : RocDriver) : Prop where
  scanLock : s.scanLock + s.scans + s.remover.holds.toNat + s.holders = 1
  balance : s.downs = s.ups + s.holders
  callerMutex : s.caller.crit = true → s.confMutex = some .caller
  execMutex : ∀ e p, s.timeout e = some p → p.crit = true → s.confMutex = some (.exec e)
  removerMutex : s.remover.crit = true → s.confMutex = some .remover

structure Channel (s : RocDriver) : Prop where
  flag : s.remainOnChannel = s.active.isSome
  engaged : ∀ e p, s.timeout e = some p → p.engaged = true → s.active ≠ none
  single : ∀ e e' p p', s.timeout e = some p → s.timeout e' = some p' → p.engaged = true → p'.engaged = true → e = e'
  ifSome : ∀ a, s.active = some a → s.rocIfId = some a.1
  ifNone : s.active = none → s.caller.setsIf = false → s.rocIfId = none
  ifCall : s.caller.setsIf = true → s.rocIfId = some s.callIf
  fresh : s.caller.unrecorded = true → s.active = some (s.callIf, s.callCookie)
  cookie : ∀ a, s.active = some a → s.caller.unrecorded = false → s.rocCookie = a.2
  run : s.timeout .cancel ≠ none → s.caller = .run
  due : s.active ≠ none → s.remChanTimeout = true ∨ (∃ e p, s.timeout e = some p ∧ p.ending = false) ∨
    s.caller = .arm ∨ s.caller = .test2
  expiredIn : ∀ e p, s.timeout e = some p → p.reported = true → ∃ a, s.active = some a ∧ s.expired = s.ended ++ [a.2]
  expiredOut : (∀ e p, s.timeout e = some p → p.reported = false) → s.expired = s.ended
  early : s.early = false

structure Vifs (s : RocDriver) : Prop where
  active : ∀ a, s.active = some a → s.vifList a.1 = true
  call : s.caller.remains = true → s.vifList s.callIf = true
  apart : s.remover ≠ .idle → s.caller.remains = true → s.removeIf ≠ s.callIf
  vifs : s.badVif = false

structure Inv (s : RocDriver) : Prop where
  locks : s.Locks
  channel : s.Channel
  vifs : s.Vifs
  txLock : s.txLock = (s.caller.locks.toNat + execs s.timeout RocTimeoutPc.locks : Nat)

theorem execs_update (f : RocExec → Option RocTimeoutPc) (P : RocTimeoutPc → Bool) (e : RocExec) (o : Option RocTimeoutPc) :
    execs (Function.update f e o) P + ((f e).any P).toNat = execs f P + (o.any P).toNat := by
  cases e <;> simp [execs] <;> omega

theorem execs_pos {f : RocExec → Option RocTimeoutPc} {P : RocTimeoutPc → Bool} {e : RocExec} {p : RocTimeoutPc}
    (h : f e = some p) (hp : P p = true) : 0 < execs f P := by
  cases e <;> simp only [execs, h, Option.any_some, hp, Bool.toNat_true] <;> omega

variable {s : RocDriver}

theorem Inv.owned (h : s.Inv) : s.Owned where
  scanLock := h.locks.scanLock
  balance := h.locks.balance
  flag := h.channel.flag
  ifId hm := by
    have hc : s.caller.crit = false := by
      cases hc : s.caller.crit with
      | false => rfl
      | true => rw [h.locks.callerMutex hc] at hm; cases hm
    cases ha : s.active with
    | some a => exact h.channel.ifSome a ha
    | none =>
      refine h.channel.ifNone ha ?_
      revert hc
      cases s.caller <;> simp [RocPc.crit, RocPc.setsIf]
  due := h.channel.due
  expired := by
    by_cases hr : ∃ e p, s.timeout e = some p ∧ p.reported = true
    · obtain ⟨e, p, hp, hr⟩ := hr
      exact .inr (h.channel.expiredIn e p hp hr)
    · refine .inl (h.channel.expiredOut fun e p hp => ?_)
      cases hr' : p.reported with
      | false => rfl
      | true => exact absurd ⟨e, p, hp, hr'⟩ hr
  early := h.channel.early
  txLock := h.txLock
  vifs := h.vifs.vifs

theorem inv_start : rocDriverStart.Inv where
  locks := by constructor <;> simp [rocDriverStart, holders, execs, RocPc.holds, RocPc.crit, RocRemovePc.holds, RocRemovePc.crit]
  channel := by constructor <;> simp [rocDriverStart, RocPc.setsIf, RocPc.unrecorded]
  vifs := by constructor <;> simp [rocDriverStart, RocPc.remains]
  txLock := by simp [rocDriverStart, execs, RocPc.locks]

theorem Locks.active_alone (h : s.Locks) (ha : s.active ≠ none) :
    s.caller.holds = false ∧ (∀ e p, s.timeout e = some p → p.ending = false) ∧ s.remover.holds = false := by
  have hs := h.scanLock
  have hone : s.active.isSome.toNat = 1 := by
    cases hs : s.active with
    | none => exact absurd hs ha
    | some a => rfl
  unfold holders at hs
  refine ⟨?_, fun e p hp => ?_, ?_⟩
  · cases hc : s.caller.holds with
    | false => rfl
    | true => simp [hc] at hs; omega
  · cases hc : p.ending with
    | false => rfl
    | true => have := execs_pos (P := RocTimeoutPc.ending) hp hc; omega
  · cases hc : s.remover.holds with
    | false => rfl
    | true => simp [hc] at hs; omega

theorem Locks.holds_alone (h : s.Locks) (hc : s.caller.holds = true) : s.active = none := by
  cases ha : s.active with
  | none => rfl
  | some a =>
    have := (h.active_alone (by simp [ha])).1
    rw [hc] at this
    cases this

theorem Locks.crit_alone (h : s.Locks) {e : RocExec} {p : RocTimeoutPc} (hp : s.timeout e = some p) (hc : p.crit = true) :
    s.caller.crit = false := by
  cases hb : s.caller.crit with
  | false => rfl
  | true =>
    have h1 := h.callerMutex hb
    rw [h.execMutex e p hp hc] at h1
    cases h1

@[simp] theorem wsmUnlockTx_eq (h : s.bhError = false) : s.wsmUnlockTx = { s with txLock := s.txLock - 1 } := by
  simp [wsmUnlockTx, h]

theorem atbmFlush_fst (ok : Bool) {f : RocFlushPc} (h : f.unlocks ok = true → s.bhError = false) :
    ∃ n : Int, (s.atbmFlush ok f).1 = { s with txLock := n } ∧
      n - s.txLock = (match (s.atbmFlush ok f).2 with | .inl f' => f'.locks.toNat | .inr r => r.toNat) - (f.locks.toNat : Int) := by
  cases f with
  | wait drop =>
    unfold atbmFlush
    dsimp only
    split
    · exact ⟨s.txLock, rfl, by simp [RocFlushPc.locks]⟩
    · exact ⟨s.txLock + 1, rfl, by simp only [RocFlushPc.locks, Bool.toNat_true, Bool.toNat_false]; omega⟩
  | late drop =>
    have hb := h rfl
    unfold atbmFlush
    dsimp only
    split
    · exact ⟨s.txLock - 1, by simp [hb], by simp only [RocFlushPc.locks, Bool.toNat_true, Bool.toNat_false]; omega⟩
    · exact ⟨s.txLock - 1, by simp [hb], by simp only [RocFlushPc.locks, Bool.toNat_true, Bool.toNat_false]; omega⟩
  | lockTx drop =>
    refine ⟨s.txLock + 1, rfl, ?_⟩
    show s.txLock + 1 - s.txLock = (1 : Int) - 0
    omega
  | check drop =>
    unfold atbmFlush
    dsimp only
    split
    · exact ⟨s.txLock, rfl, by simp [RocFlushPc.locks]⟩
    · next hok =>
      have hb := h (by simpa [RocFlushPc.unlocks] using hok)
      exact ⟨s.txLock - 1, by simp [hb], by simp only [RocFlushPc.locks, Bool.toNat_true, Bool.toNat_false]; omega⟩

/-- Two places with the same claims on `scan.lock`, `conf_mutex` and the channel. -/
structure Moves (a b : RocPc) : Prop where
  holds : b.holds = a.holds
  crit : b.crit = a.crit
  setsIf : b.setsIf = a.setsIf
  remains : b.remains = false ∨ a.remains = true
  unrecorded : b.unrecorded = a.unrecorded

theorem Vifs.caller (h : s.Vifs) {b : RocPc} (hr : b.remains = true → s.caller.remains = true) :
    Vifs { s with caller := b } :=
  { h with
    call := fun hb => h.call (hr hb)
    apart := fun hn hb => h.apart hn (hr hb) }

theorem Moves.vifs {b : RocPc} (hm : Moves s.caller b) (hb : b.remains = true) : s.caller.remains = true :=
  hm.remains.resolve_left (by simp [hb])

theorem Channel.caller (h : s.Channel) {a b : RocPc} (hs : s.caller = a) (hrun : s.timeout .cancel = none)
    (ha : a.setsIf = false ∧ a.unrecorded = false) (hb : b.setsIf = false ∧ b.unrecorded = false)
    (hd : s.active ≠ none → a ≠ .arm ∧ a ≠ .test2) : Channel { s with caller := b } :=
  { h with
    ifNone := fun hn _ => h.ifNone hn (hs ▸ ha.1)
    ifCall := fun hc => absurd hc (by simp [hb.1])
    fresh := fun hc => absurd hc (by simp [hb.2])
    cookie := fun x hx _ => h.cookie x hx (hs ▸ ha.2)
    run := fun hr => absurd hrun hr
    due := fun hn => by
      rcases h.due hn with hd' | hd' | hd' | hd'
      · exact .inl hd'
      · exact .inr (.inl hd')
      · exact absurd (hs ▸ hd') (hd hn).1
      · exact absurd (hs ▸ hd') (hd hn).2 }

theorem Inv.move (h : s.Inv) {a b : RocPc} {n : Int} (hs : s.caller = a) (hm : Moves a b) (hrun : s.timeout .cancel = none)
    (hd : s.active ≠ none → a ≠ .arm ∧ (a = .test2 → b = .test2))
    (hn : n - s.txLock = b.locks.toNat - (a.locks.toNat : Int)) : ({ s with txLock := n, caller := b } : RocDriver).Inv where
  locks := by
    obtain ⟨scanLock, balance, callerMutex, execMutex, removerMutex⟩ := h.locks
    rw [hs] at callerMutex
    refine ⟨?_, ?_, fun h => callerMutex (hm.crit ▸ h), execMutex, removerMutex⟩
    · simpa only [holders, hm.holds, hs] using scanLock
    · simpa only [holders, hm.holds, hs] using balance
  channel :=
    { h.channel with
      ifNone := fun ha hc => h.channel.ifNone ha (by rw [hs, ← hm.setsIf]; exact hc)
      ifCall := fun hc => h.channel.ifCall (by rw [hs, ← hm.setsIf]; exact hc)
      fresh := fun hc => h.channel.fresh (by rw [hs, ← hm.unrecorded]; exact hc)
      cookie := fun x hx hc => h.channel.cookie x hx (by rw [hs, ← hm.unrecorded]; exact hc)
      run := fun hr => absurd hrun hr
      due := fun ha => by
        rcases h.channel.due ha with hd' | hd' | hd' | hd'
        · exact .inl hd'
        · exact .inr (.inl hd')
        · exact absurd (hs ▸ hd') (hd ha).1
        · exact .inr (.inr (.inr ((hd ha).2 (hs ▸ hd')))) }
  vifs := { h.vifs.caller (Moves.vifs (hs ▸ hm)) with }
  txLock := by
    have := h.txLock
    rw [hs] at this
    dsimp only
    omega

theorem Inv.go (h : s.Inv) {a b : RocPc} (hs : s.caller = a) (hm : Moves a b) (hrun : s.timeout .cancel = none)
    (hd : s.active ≠ none → a ≠ .arm ∧ (a = .test2 → b = .test2)) (hl : b.locks = a.locks) :
    ({ s with caller := b } : RocDriver).Inv :=
  h.move (n := s.txLock) hs hm hrun hd (by rw [hl]; omega)

theorem useVif_eq {i : Nat} (h : s.vifList i = true) : s.useVif i = s := by
  cases s
  simp only [useVif]
  simp_all

theorem Inv.down (h : s.Inv) (hs : s.caller = .down) (hl : 0 < s.scanLock) (hrun : s.timeout .cancel = none) :
    ({ s with scanLock := s.scanLock - 1, downs := s.downs + 1, caller := .lock } : RocDriver).Inv where
  locks := by
    obtain ⟨scanLock, balance, -, execMutex, removerMutex⟩ := h.locks
    simp only [holders, hs, RocPc.holds, Bool.toNat_false] at scanLock balance
    refine ⟨?_, ?_, fun h => (nomatch h), execMutex, removerMutex⟩
    · simp only [holders, RocPc.holds, Bool.toNat_true]
      omega
    · simp only [holders, RocPc.holds, Bool.toNat_true]
      omega
  channel := { h.channel.caller (b := .lock) hs hrun ⟨rfl, rfl⟩ ⟨rfl, rfl⟩ (by simp) with }
  vifs := { h.vifs.caller (b := .lock) fun _ => by rw [hs]; rfl with }
  txLock := by simpa only [hs, RocPc.locks] using h.txLock

theorem Inv.lock (h : s.Inv) (hs : s.caller = .lock) (hm : s.confMutex = none) (hrun : s.timeout .cancel = none) :
    ({ s with confMutex := some .caller, caller := .setIf } : RocDriver).Inv where
  locks := by
    obtain ⟨scanLock, balance, -, execMutex, removerMutex⟩ := h.locks
    simp only [holders, hs, RocPc.holds] at scanLock balance
    refine ⟨scanLock, balance, fun _ => rfl, fun e p hp hc => ?_, fun hc => ?_⟩
    · have := execMutex e p hp hc
      rw [hm] at this
      cases this
    · have := removerMutex hc
      rw [hm] at this
      cases this
  channel := { h.channel.caller (b := .setIf) hs hrun ⟨rfl, rfl⟩ ⟨rfl, rfl⟩ (by simp) with }
  vifs := { h.vifs.caller (b := .setIf) fun _ => by rw [hs]; rfl with }
  txLock := by simpa only [hs, RocPc.locks] using h.txLock

theorem Inv.setIf (h : s.Inv) {b : RocPc} (hs : s.caller = .setIf) (hb : b = .clear ∨ ∃ drop, b = .flush (.wait drop))
    (hrun : s.timeout .cancel = none) : ({ s with rocIfId := some s.callIf, caller := b } : RocDriver).Inv := by
  have hact : s.active = none := h.locks.holds_alone (by rw [hs]; rfl)
  have hh : b.holds = true ∧ b.crit = true ∧ b.setsIf = true ∧ b.unrecorded = false ∧ b.locks = false := by
    obtain rfl | ⟨drop, rfl⟩ := hb <;> exact ⟨rfl, rfl, rfl, rfl, rfl⟩
  obtain ⟨hholds, hcrit, hsets, hun, hlocks⟩ := hh
  constructor
  case locks =>
    obtain ⟨scanLock, balance, callerMutex, execMutex, removerMutex⟩ := h.locks
    simp only [holders, hs, RocPc.holds] at scanLock balance
    refine ⟨?_, ?_, fun _ => callerMutex (by rw [hs]; rfl), execMutex, removerMutex⟩
    · simpa only [holders, hholds] using scanLock
    · simpa only [holders, hholds] using balance
  case channel =>
    exact
      { h.channel with
        ifSome := fun a ha => absurd (hact.symm.trans ha) (by simp)
        ifNone := fun _ hc => absurd hsets (by simp [hc])
        ifCall := fun _ => rfl
        fresh := fun hc => absurd hun (by simp [hc])
        cookie := fun a ha => absurd (hact.symm.trans ha) (by simp)
        run := fun hr => absurd hrun hr
        due := fun ha => absurd hact ha }
  case vifs => exact { h.vifs.caller (b := b) fun _ => by rw [hs]; rfl with }
  case txLock =>
    have := h.txLock
    simp only [hs, RocPc.locks] at this
    simpa only [hlocks] using this

theorem Inv.setRoc (h : s.Inv) (hs : s.caller = .setRoc) (hrun : s.timeout .cancel = none) :
    ({ s with remainOnChannel := true, active := some (s.callIf, s.callCookie), caller := .arm } : RocDriver).Inv := by
  have hact : s.active = none := h.locks.holds_alone (by rw [hs]; rfl)
  have hnone : ∀ e p, s.timeout e = some p → p.engaged = false := by
    intro e p hp
    cases he : p.engaged with
    | false => rfl
    | true => exact absurd hact (h.channel.engaged e p hp he)
  have hrep : ∀ e p, s.timeout e = some p → p.reported = false := by
    intro e p hp
    have := hnone e p hp
    revert this
    cases p <;> simp [RocTimeoutPc.engaged, RocTimeoutPc.reported]
  have hr : s.caller.remains = true := by rw [hs]; rfl
  constructor
  case locks =>
    obtain ⟨scanLock, balance, callerMutex, execMutex, removerMutex⟩ := h.locks
    simp only [holders, hs, hact, RocPc.holds] at scanLock balance
    refine ⟨?_, ?_, fun _ => callerMutex (by rw [hs]; rfl), execMutex, removerMutex⟩
    · simpa [holders, RocPc.holds] using scanLock
    · simpa [holders, RocPc.holds] using balance
  case channel =>
    exact
      { h.channel with
        flag := rfl
        engaged := fun e p hp he => absurd (hnone e p hp) (by simp [he])
        ifSome := fun a ha => by
          cases ha
          exact h.channel.ifCall (by rw [hs]; rfl)
        ifNone := nofun
        ifCall := nofun
        fresh := fun _ => rfl
        cookie := fun _ _ => nofun
        run := fun hr => absurd hrun hr
        due := fun _ => .inr (.inr (.inl rfl))
        expiredIn := fun e p hp he => absurd (hrep e p hp) (by simp [he]) }
  case vifs =>
    refine ⟨fun a ha => ?_, fun _ => h.vifs.call hr, fun h1 _ => h.vifs.apart h1 hr, h.vifs.vifs⟩
    cases ha
    exact h.vifs.call hr
  case txLock => simpa only [hs, RocPc.locks] using h.txLock

theorem Inv.arm (h : s.Inv) (hs : s.caller = .arm) (hrun : s.timeout .cancel = none) :
    ({ s with remChanTimeout := true, caller := .cookie true } : RocDriver).Inv := by
  constructor
  case locks =>
    obtain ⟨scanLock, balance, callerMutex, execMutex, removerMutex⟩ := h.locks
    simp only [holders, hs, RocPc.holds] at scanLock balance
    exact ⟨scanLock, balance, fun _ => callerMutex (by rw [hs]; rfl), execMutex, removerMutex⟩
  case channel =>
    have hact : s.active = some (s.callIf, s.callCookie) := h.channel.fresh (by rw [hs]; rfl)
    exact
      { h.channel with
        ifNone := fun ha => absurd (ha.symm.trans hact) (by simp)
        ifCall := nofun
        fresh := fun _ => hact
        cookie := fun _ _ => nofun
        run := fun hr => absurd hrun hr
        due := fun _ => .inl rfl }
  case vifs => exact { h.vifs.caller (b := .cookie true) fun _ => by rw [hs]; rfl with }
  case txLock => simpa only [hs, RocPc.locks] using h.txLock

theorem Inv.clear (h : s.Inv) (hs : s.caller = .clear) (hrun : s.timeout .cancel = none) :
    ({ s with rocIfId := none, remainOnChannel := false, caller := .cookie false } : RocDriver).Inv := by
  have hact : s.active = none := h.locks.holds_alone (by rw [hs]; rfl)
  constructor
  case locks =>
    obtain ⟨scanLock, balance, callerMutex, execMutex, removerMutex⟩ := h.locks
    simp only [holders, hs, RocPc.holds] at scanLock balance
    exact ⟨scanLock, balance, fun _ => callerMutex (by rw [hs]; rfl), execMutex, removerMutex⟩
  case channel =>
    exact
      { h.channel with
        flag := by rw [hact]; rfl
        ifSome := fun a ha => absurd (hact.symm.trans ha) (by simp)
        ifNone := fun _ _ => rfl
        ifCall := nofun
        fresh := nofun
        cookie := fun a ha => absurd (hact.symm.trans ha) (by simp)
        run := fun hr => absurd hrun hr
        due := fun ha => absurd hact ha }
  case vifs => exact { h.vifs.caller (b := .cookie false) fun _ => by rw [hs]; rfl with }
  case txLock => simpa only [hs, RocPc.locks] using h.txLock

theorem Inv.cookie (h : s.Inv) {ok : Bool} (hs : s.caller = .cookie ok) (hrun : s.timeout .cancel = none) :
    ({ s with rocCookie := s.callCookie, caller := .unlock ok } : RocDriver).Inv := by
  constructor
  case locks =>
    obtain ⟨scanLock, balance, callerMutex, execMutex, removerMutex⟩ := h.locks
    have hh : (RocPc.unlock ok).holds = s.caller.holds := by rw [hs]; cases ok <;> rfl
    refine ⟨?_, ?_, fun _ => callerMutex (by rw [hs]; rfl), execMutex, removerMutex⟩
    · simpa only [holders, hh] using scanLock
    · simpa only [holders, hh] using balance
  case channel =>
    have hstored : ∀ a, s.active = some a → s.callCookie = a.2 := by
      intro a ha
      cases ok with
      | true =>
        cases (h.channel.fresh (by rw [hs]; rfl)).symm.trans ha
        rfl
      | false => cases (h.locks.holds_alone (by rw [hs]; rfl)).symm.trans ha
    exact
      { h.channel with
        ifNone := fun ha _ => h.channel.ifNone ha (by rw [hs]; rfl)
        ifCall := nofun
        fresh := nofun
        cookie := fun a ha _ => hstored a ha
        run := fun hr => absurd hrun hr
        due := by simpa [hs] using h.channel.due }
  case vifs => exact { h.vifs.caller (b := .unlock ok) fun _ => by rw [hs]; rfl with }
  case txLock => simpa only [hs, RocPc.locks] using h.txLock

theorem Inv.unlock (h : s.Inv) {ok : Bool} (hs : s.caller = .unlock ok) (hrun : s.timeout .cancel = none) :
    ({ s with confMutex := none, caller := if ok = true then .idle else .up } : RocDriver).Inv := by
  have hown := h.locks.callerMutex (by rw [hs]; rfl)
  constructor
  case locks =>
    obtain ⟨scanLock, balance, callerMutex, execMutex, removerMutex⟩ := h.locks
    have hh : (if ok = true then RocPc.idle else .up).holds = s.caller.holds := by rw [hs]; cases ok <;> rfl
    have hc : (if ok = true then RocPc.idle else .up).crit = false := by cases ok <;> rfl
    refine ⟨?_, ?_, fun h => ?_, fun e p hp hc => ?_, fun hc => ?_⟩
    · simpa only [holders, hh] using scanLock
    · simpa only [holders, hh] using balance
    · rw [hc] at h; cases h
    · cases (execMutex e p hp hc).symm.trans hown
    · cases (removerMutex hc).symm.trans hown
  case channel =>
    exact { h.channel.caller hs hrun ⟨rfl, rfl⟩ (by cases ok <;> exact ⟨rfl, rfl⟩) (by simp) with }
  case vifs => exact { h.vifs.caller fun _ => by rw [hs]; rfl with }
  case txLock =>
    have hl : (if ok = true then RocPc.idle else .up).locks = s.caller.locks := by rw [hs]; cases ok <;> rfl
    simpa only [hl] using h.txLock

theorem Inv.up (h : s.Inv) (hs : s.caller = .up) (hrun : s.timeout .cancel = none) :
    ({ s with scanLock := s.scanLock + 1, ups := s.ups + 1, caller := .idle } : RocDriver).Inv := by
  constructor
  case locks =>
    obtain ⟨scanLock, balance, -, execMutex, removerMutex⟩ := h.locks
    simp only [holders, hs, RocPc.holds, Bool.toNat_true] at scanLock balance
    refine ⟨?_, ?_, fun h => (nomatch h), execMutex, removerMutex⟩
    · simp only [holders, RocPc.holds, Bool.toNat_false]
      omega
    · simp only [holders, RocPc.holds, Bool.toNat_false]
      omega
  case channel => exact { h.channel.caller (b := .idle) hs hrun ⟨rfl, rfl⟩ ⟨rfl, rfl⟩ (by simp) with }
  case vifs => exact { h.vifs.caller (b := .idle) nofun with }
  case txLock => simpa only [hs, RocPc.locks] using h.txLock

/-- `atbm_cancel_remain_on_channel` has taken the pending work away: it will run it itself if the flag is still set. -/
theorem Inv.cancelWork (h : s.Inv) (hs : s.caller = .cancelWork) (hrun : s.timeout .cancel = none) :
    ({ s with remChanTimeout := false, caller := .test2 } : RocDriver).Inv := by
  constructor
  case locks =>
    obtain ⟨scanLock, balance, -, execMutex, removerMutex⟩ := h.locks
    simp only [holders, hs, RocPc.holds] at scanLock balance
    exact ⟨scanLock, balance, fun h => (nomatch h), execMutex, removerMutex⟩
  case channel =>
    exact
      { h.channel.caller (b := .test2) hs hrun ⟨rfl, rfl⟩ ⟨rfl, rfl⟩ (by simp) with
        due := fun _ => .inr (.inr (.inr rfl)) }
  case vifs => exact { h.vifs.caller (b := .test2) nofun with }
  case txLock => simpa only [hs, RocPc.locks] using h.txLock

theorem Inv.begin (h : s.Inv) {e : RocExec} {b : RocPc} {w : Bool} (he : s.timeout e = none) (hm : Moves s.caller b)
    (hrun : e ≠ .cancel ∧ b = s.caller ∨ e = .cancel ∧ b = .run) (hl : b.locks = s.caller.locks) :
    ({ s with remChanTimeout := w, timeout := Function.update s.timeout e (some .test), caller := b } : RocDriver).Inv := by
  have hex : ∀ P : RocTimeoutPc → Bool, P .test = false →
      execs (Function.update s.timeout e (some .test)) P = execs s.timeout P := by
    intro P hP
    have := execs_update s.timeout P e (some .test)
    simpa [he, hP] using this
  have hold : ∀ (P : RocTimeoutPc → Bool), P .test = false → ∀ e' p,
      Function.update s.timeout e (some .test) e' = some p → P p = true → s.timeout e' = some p := by
    intro P hP e' p hp hPp
    by_cases h' : e' = e
    · rw [h', Function.update_self] at hp
      cases hp
      rw [hP] at hPp
      cases hPp
    · rwa [Function.update_of_ne h'] at hp
  constructor
  case locks =>
    obtain ⟨scanLock, balance, callerMutex, execMutex, removerMutex⟩ := h.locks
    refine ⟨?_, ?_, fun h => callerMutex (hm.crit ▸ h), fun e' p hp hc => ?_, removerMutex⟩
    · simpa only [holders, hm.holds, hex RocTimeoutPc.ending rfl] using scanLock
    · simpa only [holders, hm.holds, hex RocTimeoutPc.ending rfl] using balance
    · exact execMutex e' p (hold RocTimeoutPc.crit rfl e' p hp hc) hc
  case channel =>
    exact
      { h.channel with
        engaged := fun e' p hp hc => h.channel.engaged e' p (hold _ rfl e' p hp hc) hc
        single := fun e' e'' p p' hp hp' hc hc' =>
          h.channel.single e' e'' p p' (hold _ rfl e' p hp hc) (hold _ rfl e'' p' hp' hc') hc hc'
        ifNone := fun ha hc => h.channel.ifNone ha (hm.setsIf ▸ hc)
        ifCall := fun hc => h.channel.ifCall (hm.setsIf ▸ hc)
        fresh := fun hc => h.channel.fresh (hm.unrecorded ▸ hc)
        cookie := fun a ha hc => h.channel.cookie a ha (hm.unrecorded ▸ hc)
        run := fun hr => by
          obtain ⟨hne, rfl⟩ | ⟨-, rfl⟩ := hrun
          · exact h.channel.run fun hn => hr ((Function.update_of_ne (Ne.symm hne) ..).trans hn)
          · rfl
        due := fun _ => .inr (.inl ⟨e, .test, Function.update_self .., rfl⟩)
        expiredIn := fun e' p hp hc => h.channel.expiredIn e' p (hold _ rfl e' p hp hc) hc
        expiredOut := fun hall => by
          refine h.channel.expiredOut fun e' p hp => hall e' p ?_
          have hne : e' ≠ e := fun h' => by rw [h', he] at hp; cases hp
          exact (Function.update_of_ne hne ..).trans hp }
  case vifs => exact { h.vifs.caller hm.vifs with }
  case txLock =>
    have := h.txLock
    simpa only [hl, hex RocTimeoutPc.locks rfl] using this

theorem Inv.call (h : s.Inv) {ok : Bool} (he : (RocAct.call ok).Enabled s) (ho : (RocAct.call ok).Orderly s) :
    (s.callStep ok).Inv := by
  have hrun : s.timeout .cancel = none := by
    cases hr : s.timeout .cancel with
    | none => rfl
    | some p =>
      have := h.channel.run (by simp [hr])
      simp [RocAct.Enabled, this] at he
  unfold callStep
  cases hs : s.caller with
  | idle => simp [RocAct.Enabled, hs] at he
  | run => simp [RocAct.Enabled, hs] at he
  | testTerm =>
    dsimp only
    split
    · exact h.go hs ⟨rfl, rfl, rfl, .inr rfl, rfl⟩ hrun (by simp) rfl
    · exact h.go hs ⟨rfl, rfl, rfl, .inr rfl, rfl⟩ hrun (by simp) rfl
  | down => exact h.down hs (by simpa [RocAct.Enabled, hs] using he) hrun
  | lock => exact h.lock hs (by simpa [RocAct.Enabled, hs] using he) hrun
  | setIf =>
    have hv : s.vifList s.callIf = true := h.vifs.call (by rw [hs]; rfl)
    dsimp only
    rw [useVif_eq hv]
    refine h.setIf hs ?_ hrun
    split
    · exact .inr ⟨_, rfl⟩
    · exact .inl rfl
  | flush f =>
    obtain ⟨n, hn, hd⟩ := atbmFlush_fst (s := s) (f := f) ok (by simpa [RocAct.Orderly, hs, RocPc.unlocks] using ho)
    dsimp only
    revert hn hd
    rcases s.atbmFlush ok f with ⟨s', f' | r⟩
    · rintro rfl hd
      exact h.move hs ⟨rfl, rfl, rfl, .inr rfl, rfl⟩ hrun (by simp) hd
    · cases r
      · rintro rfl hd
        exact h.move hs ⟨rfl, rfl, rfl, .inr rfl, rfl⟩ hrun (by simp) hd
      · rintro rfl hd
        exact h.move hs ⟨rfl, rfl, rfl, .inr rfl, rfl⟩ hrun (by simp) hd
  | unlockTx =>
    have hb : s.bhError = false := by simpa [RocAct.Orderly, hs, RocPc.unlocks] using ho
    have hv : s.vifList s.callIf = true := h.vifs.call (by rw [hs]; rfl)
    dsimp only
    rw [useVif_eq hv, wsmUnlockTx_eq hb]
    exact h.move hs ⟨rfl, rfl, rfl, .inr rfl, rfl⟩ hrun (by simp) (by simp only [RocPc.locks, Bool.toNat_true, Bool.toNat_false]; omega)
  | setRoc => exact h.setRoc hs hrun
  | arm => exact h.arm hs hrun
  | clear => exact h.clear hs hrun
  | cookie ok' => exact h.cookie hs hrun
  | unlock ok' => exact h.unlock hs hrun
  | up => exact h.up hs hrun
  | test1 =>
    dsimp only
    split
    · exact h.go hs ⟨rfl, rfl, rfl, .inl rfl, rfl⟩ hrun (by simp) rfl
    · exact h.go hs ⟨rfl, rfl, rfl, .inl rfl, rfl⟩ hrun (by simp) rfl
  | cancelWork => exact h.cancelWork hs hrun
  | test2 =>
    dsimp only
    split
    · exact h.begin hrun (by rw [hs]; exact ⟨rfl, rfl, rfl, .inl rfl, rfl⟩) (.inr ⟨rfl, rfl⟩) (by rw [hs]; rfl)
    · next hr =>
      have hn : s.active = none := by
        have := h.channel.flag
        cases ha : s.active with
        | none => rfl
        | some a => simp [ha] at this; exact absurd this hr
      exact h.go hs ⟨rfl, rfl, rfl, .inl rfl, rfl⟩ hrun (fun ha => absurd hn ha) rfl

theorem of_update {e e' : RocExec} {o : Option RocTimeoutPc} {p : RocTimeoutPc} (hne : e' ≠ e)
    (hp : Function.update s.timeout e o e' = some p) : s.timeout e' = some p :=
  (Function.update_of_ne hne ..).symm.trans hp

/-- Two places with the same claims on `conf_mutex` and the channel, before the flag is cleared. -/
structure ExecMoves (p q : RocTimeoutPc) : Prop where
  crit : q.crit = p.crit
  engaged : p.engaged = true
  engaged' : q.engaged = true
  reported : q.reported = p.reported

theorem not_ending {p : RocTimeoutPc} (h : p.engaged = true) : p.ending = false := by
  cases p <;> first | rfl | cases h

theorem engaged_of_reported {p : RocTimeoutPc} (h : p.reported = true) : p.engaged = true := by
  cases p <;> first | rfl | cases h

theorem Channel.only (h : s.Channel) {e e' : RocExec} {p p' : RocTimeoutPc} (hp : s.timeout e = some p)
    (hp' : s.timeout e' = some p') (he : p.engaged = true) (hne : e' ≠ e) : p'.engaged = false := by
  cases h' : p'.engaged with
  | false => rfl
  | true => exact absurd (h.single e' e p' p hp' hp h' he) hne

theorem Channel.others (h : s.Channel) {e : RocExec} {p : RocTimeoutPc} (hp : s.timeout e = some p)
    (he : p.engaged = true) (e' : RocExec) (p' : RocTimeoutPc) (hp' : s.timeout e' = some p') (hne : e' ≠ e) :
    p'.engaged = false :=
  h.only hp hp' he hne

theorem execs_same {e : RocExec} {p : RocTimeoutPc} {o : Option RocTimeoutPc} {P : RocTimeoutPc → Bool}
    (hp : s.timeout e = some p) (h : o.any P = P p) : execs (Function.update s.timeout e o) P = execs s.timeout P := by
  have := execs_update s.timeout P e o
  rw [hp, h, Option.any_some] at this
  omega

theorem only_of_update {e : RocExec} {q : RocTimeoutPc}
    (hothers : ∀ e' p', s.timeout e' = some p' → e' ≠ e → p'.engaged = false) (e' : RocExec) (p' : RocTimeoutPc)
    (hp' : Function.update s.timeout e (some q) e' = some p') (hc : p'.engaged = true) : e' = e := by
  by_cases hne : e' = e
  · exact hne
  · rw [hothers e' p' (of_update hne hp') hne] at hc
    cases hc

theorem run_of_update {f : RocExec → Option RocTimeoutPc} {c : RocPc} {e : RocExec} {p q : RocTimeoutPc}
    (hp : f e = some p) (run : f .cancel ≠ none → c = .run) (hr : Function.update f e (some q) .cancel ≠ none) :
    c = .run := by
  by_cases hne : RocExec.cancel = e
  · exact run (by rw [hne, hp]; simp)
  · exact run fun hn => hr ((Function.update_of_ne hne ..).trans hn)

theorem Locks.exec (h : s.Locks) {e : RocExec} {p q : RocTimeoutPc} (hp : s.timeout e = some p)
    (hend : q.ending = p.ending) (hcrit : q.crit = p.crit) (n : Int) (x : List Nat) (b : Bool) :
    ({ s with
      txLock := n
      expired := x
      early := b
      timeout := Function.update s.timeout e (some q) } : RocDriver).Locks := by
  have hending : execs (Function.update s.timeout e (some q)) RocTimeoutPc.ending = execs s.timeout RocTimeoutPc.ending :=
    execs_same hp hend
  obtain ⟨scanLock, balance, callerMutex, execMutex, removerMutex⟩ := h
  refine ⟨?_, ?_, callerMutex, fun e' p' hp' hc => ?_, removerMutex⟩
  · simpa only [holders, hending] using scanLock
  · simpa only [holders, hending] using balance
  · by_cases hne : e' = e
    · subst hne
      cases (Function.update_self ..).symm.trans hp'
      exact execMutex e' p hp (hcrit ▸ hc)
    · exact execMutex e' p' (of_update hne hp') hc

theorem Channel.settled (h : s.Channel) {e : RocExec} {p : RocTimeoutPc} (hp : s.timeout e = some p)
    (hothers : ∀ e' p', s.timeout e' = some p' → e' ≠ e → p'.engaged = false) (hr : p.reported = false) :
    s.expired = s.ended := by
  refine h.expiredOut fun e' p' hp' => ?_
  by_cases hne : e' = e
  · subst hne
    cases hp.symm.trans hp'
    exact hr
  · cases hr' : p'.reported with
    | false => rfl
    | true =>
      have := hothers e' p' hp' hne
      rw [engaged_of_reported hr'] at this
      cases this

theorem Channel.exec (h : s.Channel) {e : RocExec} {p q : RocTimeoutPc} (hp : s.timeout e = some p)
    (hothers : ∀ e' p', s.timeout e' = some p' → e' ≠ e → p'.engaged = false) (hq : q.engaged = true)
    (hact : s.active ≠ none) {x : List Nat} (hin : q.reported = true → ∃ a, s.active = some a ∧ x = s.ended ++ [a.2])
    (hout : q.reported = false → x = s.ended) :
    Channel { s with expired := x, timeout := Function.update s.timeout e (some q) } :=
  have only := only_of_update (q := q) hothers
  { h with
    engaged := fun _ _ _ _ => hact
    single := fun e1 e2 p1 p2 hp1 hp2 hc1 hc2 => by rw [only e1 p1 hp1 hc1, only e2 p2 hp2 hc2]
    run := fun hr => run_of_update hp h.run hr
    due := fun _ => .inr (.inl ⟨e, q, Function.update_self .., not_ending hq⟩)
    expiredIn := fun e' p' hp' hc => by
      have he := only e' p' hp' (engaged_of_reported hc)
      subst he
      cases (Function.update_self ..).symm.trans hp'
      exact hin hc
    expiredOut := fun hall => hout (hall e q (Function.update_self ..)) }

theorem Inv.execMove (h : s.Inv) {e : RocExec} {p q : RocTimeoutPc} {n : Int} (hp : s.timeout e = some p)
    (hm : ExecMoves p q) (hn : n - s.txLock = q.locks.toNat - (p.locks.toNat : Int)) :
    ({ s with txLock := n, timeout := Function.update s.timeout e (some q) } : RocDriver).Inv := by
  constructor
  case locks =>
    have hending : q.ending = p.ending := by rw [not_ending hm.engaged, not_ending hm.engaged']
    exact h.locks.exec hp hending hm.crit n s.expired s.early
  case channel =>
    have hothers := h.channel.others hp hm.engaged
    exact
      { h.channel.exec hp hothers hm.engaged' (h.channel.engaged e p hp hm.engaged)
          (fun hr => h.channel.expiredIn e p hp (hm.reported ▸ hr))
          fun hr => h.channel.settled hp hothers (hm.reported ▸ hr) with }
  case vifs => exact { h.vifs with }
  case txLock =>
    have := h.txLock
    have hex := execs_update s.timeout RocTimeoutPc.locks e (some q)
    rw [hp, Option.any_some, Option.any_some] at hex
    dsimp only
    omega

theorem Inv.execTest (h : s.Inv) {e : RocExec} (hp : s.timeout e = some .test) (hroc : s.remainOnChannel = true)
    (hothers : ∀ e' p', s.timeout e' = some p' → p'.engaged = false) :
    ({ s with timeout := Function.update s.timeout e (some .expired) } : RocDriver).Inv := by
  have hlocks : execs (Function.update s.timeout e (some .expired)) RocTimeoutPc.locks = execs s.timeout RocTimeoutPc.locks :=
    execs_same hp rfl
  have hact : s.active ≠ none := by
    have := h.channel.flag
    rw [hroc] at this
    intro hn
    rw [hn] at this
    cases this
  constructor
  case locks =>
    exact h.locks.exec (q := .expired) hp rfl rfl s.txLock s.expired s.early
  case channel =>
    exact
      { h.channel.exec (q := .expired) hp (fun e' p' hp' _ => hothers e' p' hp') rfl hact nofun
          fun _ => h.channel.settled hp (fun e' p' hp' _ => hothers e' p' hp') rfl with }
  case vifs => exact { h.vifs with }
  case txLock => simpa only [hlocks] using h.txLock

theorem Inv.execDone (h : s.Inv) {e : RocExec} {p : RocTimeoutPc} {k : Nat} (hp : s.timeout e = some p)
    (hk : p = .test ∧ s.remainOnChannel = false ∧ k = 0 ∨ p = .up ∧ k = 1) :
    ({ s with
      scanLock := s.scanLock + k
      ups := s.ups + k
      timeout := Function.update s.timeout e none
      caller := if e = .cancel then .idle else s.caller } : RocDriver).Inv := by
  have hfree : p.crit = false ∧ p.engaged = false ∧ p.reported = false ∧ p.locks = false ∧ p.ending.toNat = k := by
    obtain ⟨rfl, -, rfl⟩ | ⟨rfl, rfl⟩ := hk <;> exact ⟨rfl, rfl, rfl, rfl, rfl⟩
  obtain ⟨hcrit, heng, hrep, hloc, hending⟩ := hfree
  have hact : s.active = none := by
    obtain ⟨-, hroc, -⟩ | ⟨rfl, -⟩ := hk
    · have := h.channel.flag
      rw [hroc] at this
      cases ha : s.active with
      | none => rfl
      | some a => rw [ha] at this; cases this
    · cases ha : s.active with
      | none => rfl
      | some a => exact absurd ((h.locks.active_alone (by simp [ha])).2.1 e .up hp) (by simp [RocTimeoutPc.ending])
  have hm : Moves s.caller (if e = .cancel then .idle else s.caller) ∧
      (if e = .cancel then RocPc.idle else s.caller).locks = s.caller.locks := by
    by_cases he : e = .cancel
    · have hs : s.caller = .run := h.channel.run (by rw [← he, hp]; simp)
      rw [if_pos he, hs]
      exact ⟨⟨rfl, rfl, rfl, .inl rfl, rfl⟩, rfl⟩
    · rw [if_neg he]
      refine ⟨⟨rfl, rfl, rfl, ?_, rfl⟩, rfl⟩
      cases s.caller.remains <;> simp
  obtain ⟨hm, hl⟩ := hm
  have hother : ∀ e' p', Function.update s.timeout e none e' = some p' → s.timeout e' = some p' := by
    intro e' p' hp'
    by_cases hne : e' = e
    · rw [hne, Function.update_self] at hp'; cases hp'
    · exact of_update hne hp'
  constructor
  case locks =>
    obtain ⟨scanLock, balance, callerMutex, execMutex, removerMutex⟩ := h.locks
    have hex := execs_update s.timeout RocTimeoutPc.ending e none
    rw [hp, Option.any_some, hending] at hex
    simp only [Option.any_none, Bool.toNat_false] at hex
    refine ⟨?_, ?_, fun h => callerMutex (hm.crit ▸ h), fun e' p' hp' hc => execMutex e' p' (hother e' p' hp') hc, removerMutex⟩
    · simp only [holders, hm.holds] at scanLock ⊢
      omega
    · simp only [holders, hm.holds] at balance ⊢
      omega
  case channel =>
    exact
      { h.channel with
        engaged := fun e' p' hp' hc => h.channel.engaged e' p' (hother e' p' hp') hc
        single := fun e1 e2 p1 p2 hp1 hp2 => h.channel.single e1 e2 p1 p2 (hother e1 p1 hp1) (hother e2 p2 hp2)
        ifNone := fun ha hc => h.channel.ifNone ha (hm.setsIf ▸ hc)
        ifCall := fun hc => h.channel.ifCall (hm.setsIf ▸ hc)
        fresh := fun hc => h.channel.fresh (hm.unrecorded ▸ hc)
        cookie := fun a ha hc => h.channel.cookie a ha (hm.unrecorded ▸ hc)
        run := fun hr => by
          by_cases hne : e = .cancel
          · exact absurd (show Function.update s.timeout e none .cancel = none by rw [hne, Function.update_self]) hr
          · dsimp only
            rw [if_neg hne]
            exact h.channel.run fun hn => hr ((Function.update_of_ne (Ne.symm hne) ..).trans hn)
        due := fun ha => absurd hact ha
        expiredIn := fun e' p' hp' hc => h.channel.expiredIn e' p' (hother e' p' hp') hc
        expiredOut := fun hall => h.channel.expiredOut fun e' p' hp' => by
          by_cases hne : e' = e
          · subst hne
            cases hp.symm.trans hp'
            exact hrep
          · exact hall e' p' ((Function.update_of_ne hne ..).trans hp') }
  case vifs =>
    exact { h.vifs.caller hm.vifs with }
  case txLock =>
    have hlocks : execs (Function.update s.timeout e none) RocTimeoutPc.locks = execs s.timeout RocTimeoutPc.locks :=
      execs_same hp (by rw [Option.any_none, hloc])
    simpa only [hlocks, hl] using h.txLock

theorem Inv.execExpired (h : s.Inv) {e : RocExec} (hp : s.timeout e = some .expired) (hu : s.caller.unrecorded = false) :
    ({ s with
      expired := s.expired ++ [s.rocCookie]
      early := s.early || s.caller.unrecorded
      timeout := Function.update s.timeout e (some .lock) } : RocDriver).Inv := by
  have hlocks : execs (Function.update s.timeout e (some .lock)) RocTimeoutPc.locks = execs s.timeout RocTimeoutPc.locks :=
    execs_same hp rfl
  have hact := h.channel.engaged e .expired hp rfl
  have hothers := h.channel.others hp rfl
  constructor
  case locks =>
    exact h.locks.exec (q := .lock) hp rfl rfl s.txLock (s.expired ++ [s.rocCookie]) (s.early || s.caller.unrecorded)
  case channel =>
    obtain ⟨a, ha⟩ := Option.ne_none_iff_exists'.mp hact
    have hnew : s.expired ++ [s.rocCookie] = s.ended ++ [a.2] := by
      rw [h.channel.settled hp hothers rfl, h.channel.cookie a ha hu]
    exact { h.channel.exec (q := .lock) hp hothers rfl hact (fun _ => ⟨a, ha, hnew⟩) nofun with
      early := by simp [h.channel.early, hu] }
  case vifs => exact { h.vifs with }
  case txLock => simpa only [hlocks] using h.txLock

theorem Locks.free (h : s.Locks) (hm : s.confMutex = none) :
    s.caller.crit = false ∧ (∀ e p, s.timeout e = some p → p.crit = false) ∧ s.remover.crit = false := by
  have hfree : ∀ {o : RocParty}, s.confMutex ≠ some o := by simp [hm]
  refine ⟨?_, fun e p hp => ?_, ?_⟩
  · cases hc : s.caller.crit with
    | false => rfl
    | true => exact absurd (h.callerMutex hc) hfree
  · cases hc : p.crit with
    | false => rfl
    | true => exact absurd (h.execMutex e p hp hc) hfree
  · cases hc : s.remover.crit with
    | false => rfl
    | true => exact absurd (h.removerMutex hc) hfree

theorem Inv.execLock (h : s.Inv) {e : RocExec} (hp : s.timeout e = some .lock) (hm : s.confMutex = none) :
    ({ s with confMutex := some (.exec e), timeout := Function.update s.timeout e (some .readIf) } : RocDriver).Inv := by
  obtain ⟨hcaller, hno, hremover⟩ := h.locks.free hm
  have hend : execs (Function.update s.timeout e (some .readIf)) RocTimeoutPc.ending = execs s.timeout RocTimeoutPc.ending :=
    execs_same hp rfl
  have hlocks : execs (Function.update s.timeout e (some .readIf)) RocTimeoutPc.locks = execs s.timeout RocTimeoutPc.locks :=
    execs_same hp rfl
  have hothers := h.channel.others hp rfl
  constructor
  case locks =>
    obtain ⟨scanLock, balance, -, -, -⟩ := h.locks
    refine ⟨?_, ?_, fun hc => ?_, fun e' p' hp' hc => ?_, fun hc => ?_⟩
    · simpa only [holders, hend] using scanLock
    · simpa only [holders, hend] using balance
    · rw [hcaller] at hc; cases hc
    · by_cases hne : e' = e
      · rw [hne]
      · rw [hno e' p' (of_update hne hp')] at hc
        cases hc
    · rw [hremover] at hc; cases hc
  case channel =>
    exact { h.channel.exec (q := .readIf) hp hothers rfl (h.channel.engaged e .lock hp rfl)
      (fun _ => h.channel.expiredIn e .lock hp rfl) nofun with }
  case vifs => exact { h.vifs with }
  case txLock => simpa only [hlocks] using h.txLock

theorem Inv.execClear (h : s.Inv) {e : RocExec} (hp : s.timeout e = some .clear) :
    ({ s with
      remainOnChannel := false
      rocIfId := none
      ended := s.ended ++ s.active.toList.map Prod.snd
      active := none
      timeout := Function.update s.timeout e (some .unlock) } : RocDriver).Inv := by
  have hlocks : execs (Function.update s.timeout e (some .unlock)) RocTimeoutPc.locks = execs s.timeout RocTimeoutPc.locks :=
    execs_same hp rfl
  have hch := h.channel
  have hact := hch.engaged e .clear hp rfl
  obtain ⟨a, ha, hexp⟩ := hch.expiredIn e .clear hp rfl
  have halone := h.locks.active_alone hact
  have hcrit := h.locks.crit_alone hp rfl
  have hsets : s.caller.setsIf = false ∧ s.caller.unrecorded = false := by
    revert hcrit
    cases s.caller <;> simp [RocPc.crit, RocPc.setsIf, RocPc.unrecorded]
  have hnone : ∀ e' p', Function.update s.timeout e (some .unlock) e' = some p' → p'.engaged = false := by
    intro e' p' hp'
    by_cases hne : e' = e
    · subst hne
      cases (Function.update_self ..).symm.trans hp'
      rfl
    · exact hch.only hp (of_update hne hp') rfl hne
  constructor
  case locks =>
    obtain ⟨scanLock, balance, callerMutex, execMutex, removerMutex⟩ := h.locks
    have hex := execs_update s.timeout RocTimeoutPc.ending e (some .unlock)
    rw [hp] at hex
    simp only [Option.any_some, RocTimeoutPc.ending, Bool.toNat_false, Bool.toNat_true] at hex
    simp only [holders, ha, Option.isSome_some, Bool.toNat_true] at scanLock balance
    refine ⟨?_, ?_, callerMutex, fun e' p' hp' hc => ?_, removerMutex⟩
    · simp only [holders, Option.isSome_none, Bool.toNat_false]
      omega
    · simp only [holders, Option.isSome_none, Bool.toNat_false]
      omega
    · by_cases hne : e' = e
      · subst hne
        exact execMutex e' .clear hp rfl
      · exact execMutex e' p' (of_update hne hp') hc
  case channel =>
    exact
      { h.channel with
        flag := rfl
        engaged := fun e' p' hp' hc => absurd (hnone e' p' hp') (by simp [hc])
        single := fun e1 _ p1 _ hp1 _ hc1 => absurd (hnone e1 p1 hp1) (by simp [hc1])
        ifSome := nofun
        ifNone := fun _ _ => rfl
        ifCall := fun hc => absurd hsets.1 (by simp [hc])
        fresh := fun hc => absurd hsets.2 (by simp [hc])
        cookie := nofun
        run := fun hr => run_of_update hp h.channel.run hr
        due := fun ha => absurd rfl ha
        expiredIn := fun e' p' hp' hc => absurd (hnone e' p' hp') (by simp [engaged_of_reported hc])
        expiredOut := fun _ => by
          dsimp only
          rw [hexp, ha]
          rfl }
  case vifs => exact ⟨fun a ha => (nomatch ha), h.vifs.call, h.vifs.apart, h.vifs.vifs⟩
  case txLock => simpa only [hlocks] using h.txLock

theorem Inv.execUnlock (h : s.Inv) {e : RocExec} (hp : s.timeout e = some .unlock) :
    ({ s with confMutex := none, timeout := Function.update s.timeout e (some .up) } : RocDriver).Inv := by
  have hend : execs (Function.update s.timeout e (some .up)) RocTimeoutPc.ending = execs s.timeout RocTimeoutPc.ending :=
    execs_same hp rfl
  have hlocks : execs (Function.update s.timeout e (some .up)) RocTimeoutPc.locks = execs s.timeout RocTimeoutPc.locks :=
    execs_same hp rfl
  have hown := h.locks.execMutex e .unlock hp rfl
  have hact : s.active = none := by
    cases ha : s.active with
    | none => rfl
    | some a => exact absurd ((h.locks.active_alone (by simp [ha])).2.1 e .unlock hp) (by simp [RocTimeoutPc.ending])
  have hold : ∀ (P : RocTimeoutPc → Bool), P .up = false → ∀ e' p',
      Function.update s.timeout e (some .up) e' = some p' → P p' = true → e' ≠ e ∧ s.timeout e' = some p' := by
    intro P hP e' p' hp' hPp
    by_cases hne : e' = e
    · subst hne
      cases (Function.update_self ..).symm.trans hp'
      rw [hP] at hPp
      cases hPp
    · exact ⟨hne, of_update hne hp'⟩
  constructor
  case locks =>
    obtain ⟨scanLock, balance, callerMutex, execMutex, removerMutex⟩ := h.locks
    refine ⟨?_, ?_, fun hc => ?_, fun e' p' hp' hc => ?_, fun hc => ?_⟩
    · simpa only [holders, hend] using scanLock
    · simpa only [holders, hend] using balance
    · cases (callerMutex hc).symm.trans hown
    · obtain ⟨hne, hq⟩ := hold RocTimeoutPc.crit rfl e' p' hp' hc
      cases (execMutex e' p' hq hc).symm.trans hown
      exact absurd rfl hne
    · cases (removerMutex hc).symm.trans hown
  case channel =>
    exact
      { h.channel with
        engaged := fun e' p' hp' hc => h.channel.engaged e' p' (hold _ rfl e' p' hp' hc).2 hc
        single := fun e1 e2 p1 p2 hp1 hp2 hc1 hc2 =>
          h.channel.single e1 e2 p1 p2 (hold _ rfl e1 p1 hp1 hc1).2 (hold _ rfl e2 p2 hp2 hc2).2 hc1 hc2
        run := fun hr => run_of_update hp h.channel.run hr
        due := fun ha => absurd hact ha
        expiredIn := fun e' p' hp' hc => h.channel.expiredIn e' p' (hold _ rfl e' p' hp' hc).2 hc
        expiredOut := fun hall => h.channel.expiredOut fun e' p' hp' => by
          by_cases hne : e' = e
          · subst hne
            cases hp.symm.trans hp'
            rfl
          · exact hall e' p' ((Function.update_of_ne hne ..).trans hp') }
  case vifs => exact { h.vifs with }
  case txLock => simpa only [hlocks] using h.txLock

theorem timeoutStep_some {e : RocExec} {ok : Bool} {p q : RocTimeoutPc} {s' : RocDriver}
    (h : s.atbmRemChanTimeout e ok p = (s', some q)) :
    s.timeoutStep e ok p = { s' with timeout := Function.update s'.timeout e (some q) } := by
  simp [timeoutStep, h]

theorem Inv.timeoutStep (h : s.Inv) {e : RocExec} {ok : Bool} {p : RocTimeoutPc} (hp : s.timeout e = some p)
    (he : (RocAct.timeout e ok).Enabled s) (ho : (RocAct.timeout e ok).Orderly s) : (s.timeoutStep e ok p).Inv := by
  simp only [RocAct.Orderly, hp] at ho
  cases p with
  | test =>
    cases hroc : s.remainOnChannel with
    | true =>
      have hstep : s.atbmRemChanTimeout e ok .test = (s, some .expired) := by simp [atbmRemChanTimeout, hroc]
      rw [timeoutStep_some hstep]
      refine h.execTest hp hroc fun e' p' hp' => ?_
      have := ho hroc e' (by cases e' <;> simp)
      simpa [hp'] using this
    | false =>
      have := h.execDone hp (.inl ⟨rfl, hroc, rfl⟩)
      simpa [RocDriver.timeoutStep, atbmRemChanTimeout, hroc] using this
  | expired =>
    rw [timeoutStep_some (p := .expired) rfl]
    exact h.execExpired hp ho
  | lock =>
    rw [timeoutStep_some (p := .lock) rfl]
    exact h.execLock hp (by simpa [RocAct.Enabled, hp] using he)
  | readIf =>
    obtain ⟨a, ha⟩ := Option.ne_none_iff_exists'.mp (h.channel.engaged e .readIf hp rfl)
    have hif := h.channel.ifSome a ha
    by_cases hterm : s.bhIsTerm = true
    · have hstep : s.atbmRemChanTimeout e ok .readIf = (s, some .clear) := by simp [atbmRemChanTimeout, hif, hterm]
      rw [timeoutStep_some hstep]
      exact h.execMove (n := s.txLock) hp ⟨rfl, rfl, rfl, rfl⟩ (by simp [RocTimeoutPc.locks])
    · have hstep : s.atbmRemChanTimeout e ok .readIf = (s, some (.flush (.wait false))) := by
        simp [atbmRemChanTimeout, hif, hterm, h.vifs.active a ha]
      rw [timeoutStep_some hstep]
      exact h.execMove (n := s.txLock) hp ⟨rfl, rfl, rfl, rfl⟩ (by simp [RocTimeoutPc.locks, RocFlushPc.locks])
  | flush f =>
    obtain ⟨n, hn, hd⟩ := atbmFlush_fst (s := s) (f := f) ok ho
    have hr := Eq.refl (s.atbmRemChanTimeout e ok (.flush f))
    conv at hr => rhs; unfold atbmRemChanTimeout
    dsimp only at hr
    revert hn hd hr
    rcases s.atbmFlush ok f with ⟨s', f' | r⟩
    · rintro rfl hd hr
      rw [timeoutStep_some hr]
      exact h.execMove hp ⟨rfl, rfl, rfl, rfl⟩ hd
    · cases r
      · rintro rfl hd hr
        rw [timeoutStep_some hr]
        exact h.execMove hp ⟨rfl, rfl, rfl, rfl⟩ hd
      · rintro rfl hd hr
        rw [timeoutStep_some hr]
        exact h.execMove hp ⟨rfl, rfl, rfl, rfl⟩ hd
  | unlockTx =>
    obtain ⟨a, ha⟩ := Option.ne_none_iff_exists'.mp (h.channel.engaged e .unlockTx hp rfl)
    have hif := h.channel.ifSome a ha
    have hstep : s.atbmRemChanTimeout e ok .unlockTx = ({ s with txLock := s.txLock - 1 }, some .clear) := by
      simp [atbmRemChanTimeout, hif, useVif_eq (h.vifs.active a ha), ho rfl]
    rw [timeoutStep_some hstep]
    exact h.execMove (n := s.txLock - 1) hp ⟨rfl, rfl, rfl, rfl⟩ (by simp only [RocTimeoutPc.locks, Bool.toNat_true, Bool.toNat_false]; omega)
  | clear =>
    rw [timeoutStep_some (p := .clear) rfl]
    exact h.execClear hp
  | unlock =>
    rw [timeoutStep_some (p := .unlock) rfl]
    exact h.execUnlock hp
  | up =>
    have := h.execDone hp (.inr ⟨rfl, rfl⟩)
    simpa [RocDriver.timeoutStep, atbmRemChanTimeout] using this

theorem Inv.others (h : s.Inv) {m : Option RocParty} {k n i : Nat} {r : RocRemovePc} {v : Nat → Bool} {b b' : Bool}
    (hl : Locks { s with
      confMutex := m, scanLock := k, scans := n, remover := r, removeIf := i, vifList := v, bhError := b, bhGone := b' })
    (hv : Vifs { s with
      confMutex := m, scanLock := k, scans := n, remover := r, removeIf := i, vifList := v, bhError := b, bhGone := b' }) :
    Inv { s with
      confMutex := m, scanLock := k, scans := n, remover := r, removeIf := i, vifList := v, bhError := b, bhGone := b' } where
  locks := hl
  channel := { h.channel with }
  vifs := hv
  txLock := h.txLock

theorem Locks.mutex (h : s.Locks) {m : Option RocParty} {r : RocRemovePc} (hh : r.holds = s.remover.holds)
    (hm : s.confMutex = none ∧ (r.crit = true → m = some .remover) ∨
      s.confMutex = some .other ∧ r = s.remover ∨ s.confMutex = some .remover ∧ r.crit = false) :
    Locks { s with confMutex := m, remover := r } := by
  have hno : (∀ e, s.confMutex ≠ some (.exec e)) ∧ s.confMutex ≠ some .caller := by
    obtain ⟨hm, -⟩ | ⟨hm, -⟩ | ⟨hm, -⟩ := hm <;> simp [hm]
  refine ⟨by simpa only [holders, hh] using h.scanLock, h.balance, fun hc => ?_, fun e p hp hc => ?_, fun hc => ?_⟩
  · exact absurd (h.callerMutex hc) hno.2
  · exact absurd (h.execMutex e p hp hc) (hno.1 e)
  · obtain ⟨-, hr⟩ | ⟨hm, hr⟩ | ⟨-, hr⟩ := hm
    · exact hr hc
    · subst hr
      cases (h.removerMutex hc).symm.trans hm
    · have hc : r.crit = true := hc
      rw [hr] at hc
      cases hc

theorem Inv.removal (h : s.Inv) (he : RocAct.removal.Enabled s) : s.removeStep.Inv := by
  unfold removeStep
  cases hs : s.remover with
  | idle => exact h
  | down =>
    have hpos : 0 < s.scanLock := by simpa [RocAct.Enabled, hs] using he
    obtain ⟨scanLock, balance, callerMutex, execMutex, -⟩ := h.locks
    simp only [hs, RocRemovePc.holds, Bool.toNat_false] at scanLock
    refine h.others (r := .lock) ⟨?_, balance, callerMutex, execMutex, fun hc => (nomatch hc)⟩
      ⟨h.vifs.active, h.vifs.call, fun _ => h.vifs.apart (by simp [hs]), h.vifs.vifs⟩
    simp only [holders, RocRemovePc.holds, Bool.toNat_true] at scanLock ⊢
    omega
  | lock =>
    have hm : s.confMutex = none := by simpa [RocAct.Enabled, hs] using he
    exact h.others (r := .clear) (h.locks.mutex (by rw [hs]; rfl) (.inl ⟨hm, fun _ => rfl⟩))
      ⟨h.vifs.active, h.vifs.call, fun _ => h.vifs.apart (by simp [hs]), h.vifs.vifs⟩
  | clear =>
    have hact : s.active = none := by
      cases ha : s.active with
      | none => rfl
      | some a =>
        have := (h.locks.active_alone (by simp [ha])).2.2
        rw [hs] at this
        cases this
    obtain ⟨scanLock, balance, callerMutex, execMutex, removerMutex⟩ := h.locks
    rw [hs] at scanLock removerMutex
    refine h.others (r := .unlock) ⟨scanLock, balance, callerMutex, execMutex, fun _ => removerMutex rfl⟩
      ⟨fun a ha => ?_, fun hr => ?_, fun _ => h.vifs.apart (by simp [hs]), h.vifs.vifs⟩
    · cases hact.symm.trans ha
    · have hne := h.vifs.apart (by simp [hs]) hr
      dsimp only
      rw [Function.update_of_ne (Ne.symm hne)]
      exact h.vifs.call hr
  | unlock =>
    have hm := h.locks.removerMutex (by rw [hs]; rfl)
    exact h.others (r := .up) (h.locks.mutex (by rw [hs]; rfl) (.inr (.inr ⟨hm, rfl⟩)))
      ⟨h.vifs.active, h.vifs.call, fun _ => h.vifs.apart (by simp [hs]), h.vifs.vifs⟩
  | up =>
    obtain ⟨scanLock, balance, callerMutex, execMutex, -⟩ := h.locks
    simp only [hs, RocRemovePc.holds, Bool.toNat_true] at scanLock
    refine h.others (r := .idle) ⟨?_, balance, callerMutex, execMutex, fun hc => (nomatch hc)⟩
      ⟨h.vifs.active, h.vifs.call, fun hn => absurd rfl hn, h.vifs.vifs⟩
    simp only [holders, RocRemovePc.holds, Bool.toNat_false] at scanLock ⊢
    omega

theorem Inv.next (h : s.Inv) {a : RocAct} (he : a.Enabled s) (ho : a.Orderly s) : (a.next s).Inv := by
  cases a with
  | remain i cookie =>
    obtain ⟨hs, hv, hr⟩ := he
    have hrun : s.timeout .cancel = none := by
      cases hr : s.timeout .cancel with
      | none => rfl
      | some p => cases hs.symm.trans (h.channel.run (by simp [hr]))
    show ({ s with caller := .testTerm, callIf := i, callCookie := cookie } : RocDriver).Inv
    constructor
    case locks =>
      obtain ⟨scanLock, balance, -, execMutex, removerMutex⟩ := h.locks
      simp only [holders, hs, RocPc.holds] at scanLock balance
      exact ⟨scanLock, balance, fun hc => (nomatch hc), execMutex, removerMutex⟩
    case channel => exact { h.channel.caller (b := .testTerm) hs hrun ⟨rfl, rfl⟩ ⟨rfl, rfl⟩ (by simp) with ifCall := nofun, fresh := nofun }
    case vifs => exact ⟨h.vifs.active, fun _ => hv, fun hn _ => hr.resolve_left hn, h.vifs.vifs⟩
    case txLock => simpa only [hs, RocPc.locks] using h.txLock
  | cancel =>
    have hs : s.caller = .idle := he
    have hrun : s.timeout .cancel = none := by
      cases hr : s.timeout .cancel with
      | none => rfl
      | some p => cases hs.symm.trans (h.channel.run (by simp [hr]))
    exact h.go hs ⟨rfl, rfl, rfl, .inl rfl, rfl⟩ hrun (by simp) rfl
  | call ok => exact h.call he ho
  | work => exact h.begin (w := false) he.2 ⟨rfl, rfl, rfl, by cases s.caller.remains <;> simp, rfl⟩ (.inl ⟨by simp, rfl⟩) rfl
  | bhTerm =>
    unfold RocAct.next
    dsimp only
    split
    · exact h.begin (w := false) he.2 ⟨rfl, rfl, rfl, by cases s.caller.remains <;> simp, rfl⟩ (.inl ⟨by simp, rfl⟩) rfl
    · exact h
  | timeout e ok =>
    cases hp : s.timeout e with
    | none => simp [RocAct.Enabled, hp] at he
    | some p =>
      simp only [RocAct.next, hp]
      exact h.timeoutStep hp he ho
  | add i =>
    refine h.others { h.locks with } ⟨fun a ha => ?_, fun hr => ?_, h.vifs.apart, h.vifs.vifs⟩
    · by_cases hi : a.1 = i
      · rw [hi]; exact Function.update_self ..
      · exact (Function.update_of_ne hi ..).trans (h.vifs.active a ha)
    · by_cases hi : s.callIf = i
      · rw [hi]; exact Function.update_self ..
      · exact (Function.update_of_ne hi ..).trans (h.vifs.call hr)
  | remove i =>
    obtain ⟨hs, -, hr⟩ := he
    obtain ⟨scanLock, balance, callerMutex, execMutex, -⟩ := h.locks
    rw [hs] at scanLock
    refine h.others (r := .down) ⟨scanLock, balance, callerMutex, execMutex, fun hc => (nomatch hc)⟩
      ⟨h.vifs.active, h.vifs.call, fun _ hc heq => ?_, h.vifs.vifs⟩
    rcases hr with hr | hr
    · rw [hr] at hc; cases hc
    · exact hr heq.symm
  | removal => exact h.removal he
  | scanDown =>
    have he : 0 < s.scanLock := he
    obtain ⟨scanLock, balance, callerMutex, execMutex, removerMutex⟩ := h.locks
    refine h.others ⟨?_, balance, callerMutex, execMutex, removerMutex⟩ { h.vifs with }
    simp only [holders] at scanLock ⊢
    omega
  | scanUp =>
    have he : 0 < s.scans := he
    obtain ⟨scanLock, balance, callerMutex, execMutex, removerMutex⟩ := h.locks
    refine h.others ⟨?_, balance, callerMutex, execMutex, removerMutex⟩ { h.vifs with }
    simp only [holders] at scanLock ⊢
    omega
  | mutexLock =>
    refine h.others (h.locks.mutex rfl (.inl ⟨he, fun hc => ?_⟩)) { h.vifs with }
    rw [(h.locks.free he).2.2] at hc
    cases hc
  | mutexUnlock =>
    exact h.others (h.locks.mutex rfl (.inr (.inl ⟨he, rfl⟩))) { h.vifs with }
  | bhError =>
    exact h.others { h.locks with } { h.vifs with }
  | bhGone =>
    exact h.others { h.locks with } { h.vifs with }

end RocDriver

theorem remainOnChannel_owned {s : RocDriver} {l : List (RocDriver × RocAct)} (h : Path rocDrivers rocDriverStart l s)
    (ho : ∀ p ∈ l, p.2.Orderly p.1) : s.Owned := by
  refine (h.keep (I := RocDriver.Inv) (C := fun s a => a.Orderly s) ?_ ho RocDriver.inv_start).owned
  rintro s a t hI ⟨he, rfl⟩ ho
  exact hI.next he ho

/-- `atbm_remain_on_channel` on interface 0 up to its `queue_delayed_work`, and to its end. -/
def remainToArm : List RocAct := [.remain 0 7] ++ List.replicate 10 (.call true)
def remainToEnd : List RocAct := remainToArm ++ List.replicate 2 (.call true)

def remainTwice : List RocAct :=
  [.add 0] ++ remainToEnd ++ [.work] ++ List.replicate 11 (.timeout .work true) ++ remainToEnd ++ [.cancel] ++
    List.replicate 3 (.call true) ++ List.replicate 11 (.timeout .cancel true)

theorem remainOnChannel_owned_twice : (remainTwice.foldl RocAct.next rocDriverStart).Owned := by
  have h : Fires (fun s a => RocAct.Enabled s a) RocAct.next rocDriverStart remainTwice := by decide +kernel
  exact remainOnChannel_owned (Path.ofFires h) (by decide +kernel)

def workTooEarly : List RocAct := [.add 0] ++ remainToArm ++ [.work] ++ List.replicate 2 (.timeout .work true)

/-- The terminating bus-handler thread takes the pending work, and a cancel finds the flag still set. -/
def cancelAndTerm : List RocAct :=
  [.add 0] ++ remainToEnd ++ [.bhTerm, .cancel] ++ List.replicate 3 (.call true) ++
    [.timeout .cancel true, .timeout .bh true] ++ List.replicate 10 (.timeout .cancel true) ++ List.replicate 6 (.timeout .bh true)

/-- `bh_error` comes while the timeout function has TX locked. -/
def errorWhileLocked : List RocAct :=
  [.add 0] ++ remainToEnd ++ [.work] ++ List.replicate 7 (.timeout .work true) ++ [.bhError] ++
    List.replicate 4 (.timeout .work true)

/-- An expiry is reported with the cookie of another; one remain-on-channel is ended twice, `scan.lock` becomes 2 and entry -1
of the interfaces is read; and `tx_lock` stays taken. -/
theorem remainOnChannel_disowned :
    (∃ s, Reach rocDrivers s ∧ s.active = some (0, 7) ∧ s.expired = [0]) ∧
    (∃ s, Reach rocDrivers s ∧ s.ended = [7] ∧ s.expired = [7, 7] ∧ s.scanLock = 2 ∧ s.badVif = true) ∧
    ∃ s, Reach rocDrivers s ∧ s.caller = .idle ∧ s.timeout .work = none ∧ s.active = none ∧ s.txLock = 1 := by
  refine ⟨⟨workTooEarly.foldl RocAct.next rocDriverStart, ?_, by decide +kernel⟩,
    ⟨cancelAndTerm.foldl RocAct.next rocDriverStart, ?_, by decide +kernel⟩,
    ⟨errorWhileLocked.foldl RocAct.next rocDriverStart, ?_, by decide +kernel⟩⟩
  · exact Reach.fires (.init rfl) (by decide +kernel)
  · exact Reach.fires (.init rfl) (by decide +kernel)
  · exact Reach.fires (.init rfl) (by decide +kernel)

end AtbmWifi
