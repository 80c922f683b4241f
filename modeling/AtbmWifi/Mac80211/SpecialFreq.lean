import AtbmWifi.Lib.Transition
import Mathlib.Data.List.Nodup
import Mathlib.Logic.Function.Basic

/-!
# The table of special frequencies

`atbm_internal_freq_set` moves a channel to another frequency: it enters the frequency
in `special_freq_list`, marks the channel, and then tells the firmware.  Channels are
pointers; `ieee80211_get_channel`, their own frequencies and the hash of a pointer are
parameters.  The text of the command always fits.  `fw` is history: the frequency of
the last command for a channel that the firmware took.

`wsm_write_mib` returns 0 as well when the bus is gone (`gone`).
-/

namespace AtbmWifi

open Transition

variable {C : Type} [DecidableEq C]

structure SpecialFreq (C : Type) where
  channel : C
  freq : Nat
  deriving DecidableEq

structure FreqHw (C : Type) where
  getChannel : Nat → Option C
  centerFreq : C → Nat
  hashIndex : C → Nat

def FreqHw.chnumToChannel (hw : FreqHw C) (channel : Nat) : Option C :=
  if channel = 0 then none
  else if channel < 14 then hw.getChannel (2412 + (channel - 1) * 5)
  else if channel = 14 then hw.getChannel 2484
  else hw.getChannel (5000 + 5 * channel)

structure FreqState (C : Type) where
  table : Nat → List (SpecialFreq C)
  special : C → Bool
  fw : C → Option Nat
  warned : Bool

def FreqState.start : FreqState C := ⟨fun _ => [], fun _ => false, fun _ => none, false⟩

def setEntry (req : SpecialFreq C) : List (SpecialFreq C) → List (SpecialFreq C)
  | [] => []
  | e :: l => if req.channel = e.channel then req :: l else e :: setEntry req l

def dropEntry (c : C) : List (SpecialFreq C) → List (SpecialFreq C)
  | [] => []
  | e :: l => if c = e.channel then l else e :: dropEntry c l

def hasEntry (c : C) (l : List (SpecialFreq C)) : Bool := l.any fun e => decide (c = e.channel)

/-- `ieee80211_special_freq_update`; `none` is false, and nothing is changed. -/
def specialFreqUpdate (hw : FreqHw C) (alloc : Bool) (special : SpecialFreq C) (s : FreqState C) :
    Option (FreqState C) :=
  let i := hw.hashIndex special.channel
  if hasEntry special.channel (s.table i) then
    some { s with
      table := Function.update s.table i (setEntry special (s.table i))
      special := Function.update s.special special.channel true }
  else if alloc then
    some { s with
      table := Function.update s.table i (special :: s.table i)
      special := Function.update s.special special.channel true }
  else none

def specialFreqClear (hw : FreqHw C) (special : SpecialFreq C) (s : FreqState C) : FreqState C :=
  let i := hw.hashIndex special.channel
  let s := { s with special := Function.update s.special special.channel false }
  if hasEntry special.channel (s.table i) then
    { s with table := Function.update s.table i (dropEntry special.channel (s.table i)) }
  else { s with warned := true }

/-- What comes of the command: it is taken, it fails, or the bus is gone. -/
inductive FwReply
  | accepted
  | refused
  | gone
  deriving DecidableEq, Repr

/-- `wsm_write_mib` -/
def FwReply.ret : FwReply → Int
  | .accepted => 0
  | .refused => -12
  | .gone => 0

/-- A request with what the call meets: the device idle or not, and the allocations. -/
structure FreqCall where
  channelNum : Nat
  freq : Nat
  set : Bool
  idle : Bool
  cmdAlloc : Bool
  nodeAlloc : Bool
  reply : FwReply

/-- `special_req`, if the call gets that far -/
def freqRequest (hw : FreqHw C) (call : FreqCall) : Option (SpecialFreq C) :=
  match hw.chnumToChannel call.channelNum with
  | none => none
  | some channel =>
    let freq := if call.set = false then hw.centerFreq channel else call.freq
    if freq < 2300 ∨ 2600 < freq then none
    else if !call.idle then none
    else if !call.cmdAlloc then none
    else some ⟨channel, freq⟩

def fwCommand (special : SpecialFreq C) (reply : FwReply) (s : FreqState C) : FreqState C :=
  match reply with
  | .accepted => { s with fw := Function.update s.fw special.channel (some special.freq) }
  | .refused => s
  | .gone => s

def internalFreqSet (hw : FreqHw C) (s : FreqState C) (call : FreqCall) : Bool × FreqState C :=
  match freqRequest hw call with
  | none => (false, s)
  | some special =>
    let entered :=
      if hw.centerFreq special.channel ≠ special.freq then specialFreqUpdate hw call.nodeAlloc special s
      else some (specialFreqClear hw special s)
    match entered with
    | none => (false, s)
    | some s₁ =>
      let s₂ := fwCommand special call.reply s₁
      if call.reply.ret < 0 then (false, specialFreqClear hw special s₂)
      else (true, s₂)

def freqNext (hw : FreqHw C) (s : FreqState C) (call : FreqCall) : FreqState C := (internalFreqSet hw s call).2

def entryIn (c : C) (l : List (SpecialFreq C)) : Option Nat :=
  (l.find? fun e => decide (c = e.channel)).map SpecialFreq.freq

def entryOf (hw : FreqHw C) (s : FreqState C) (c : C) : Option Nat := entryIn c (s.table (hw.hashIndex c))

/-- Every entry is in the bucket of its channel, and no bucket has two for one channel. -/
structure Neat (hw : FreqHw C) (s : FreqState C) : Prop where
  place : ∀ i, ∀ e ∈ s.table i, hw.hashIndex e.channel = i
  nodup : ∀ i, ((s.table i).map SpecialFreq.channel).Nodup

theorem hasEntry_iff (c : C) (l : List (SpecialFreq C)) : hasEntry c l = true ↔ c ∈ l.map SpecialFreq.channel := by
  unfold hasEntry
  rw [List.any_eq_true, List.mem_map]
  constructor
  · rintro ⟨e, he, hc⟩
    exact ⟨e, he, (of_decide_eq_true hc).symm⟩
  · rintro ⟨e, he, rfl⟩
    exact ⟨e, he, decide_eq_true rfl⟩

theorem entryIn_eq_none_iff (c : C) (l : List (SpecialFreq C)) : entryIn c l = none ↔ hasEntry c l = false := by
  unfold entryIn hasEntry
  rw [Option.map_eq_none_iff, List.find?_eq_none, List.any_eq_false]

theorem entryIn_cons (c : C) (e : SpecialFreq C) (l : List (SpecialFreq C)) :
    entryIn c (e :: l) = if c = e.channel then some e.freq else entryIn c l := by
  unfold entryIn
  rw [List.find?_cons]
  by_cases h : c = e.channel
  · rw [decide_eq_true h, if_pos h]
    rfl
  · rw [decide_eq_false h, if_neg h]

theorem mem_iff_entryIn {c : C} {f : Nat} {l : List (SpecialFreq C)} (h : (l.map SpecialFreq.channel).Nodup) :
    ⟨c, f⟩ ∈ l ↔ entryIn c l = some f := by
  induction l with
  | nil => exact ⟨nofun, nofun⟩
  | cons e l ih =>
    rw [List.map_cons, List.nodup_cons] at h
    rw [List.mem_cons, entryIn_cons, ih h.2]
    by_cases hc : c = e.channel
    · rw [if_pos hc]
      constructor
      · rintro (rfl | hl)
        · rfl
        · exfalso
          rw [← ih h.2] at hl
          exact h.1 (hc ▸ List.mem_map_of_mem hl)
      · intro hf
        left
        rw [hc, ← Option.some.inj hf]
    · rw [if_neg hc]
      constructor
      · rintro (rfl | hl)
        · exact absurd rfl hc
        · exact hl
      · exact .inr

theorem mem_table_iff {hw : FreqHw C} {s : FreqState C} (h : Neat hw s) (c : C) (f : Nat) :
    (∃ i, ⟨c, f⟩ ∈ s.table i) ↔ entryOf hw s c = some f := by
  unfold entryOf
  rw [← mem_iff_entryIn (h.nodup _)]
  constructor
  · rintro ⟨i, hi⟩
    rw [show hw.hashIndex c = i from h.place i _ hi]
    exact hi
  · intro hi
    exact ⟨_, hi⟩

theorem map_setEntry (req : SpecialFreq C) (l : List (SpecialFreq C)) :
    (setEntry req l).map SpecialFreq.channel = l.map SpecialFreq.channel := by
  induction l with
  | nil => rfl
  | cons e l ih =>
    unfold setEntry
    by_cases h : req.channel = e.channel
    · rw [if_pos h, List.map_cons, List.map_cons, h]
    · rw [if_neg h, List.map_cons, List.map_cons, ih]

theorem entryIn_setEntry (req : SpecialFreq C) (c : C) (l : List (SpecialFreq C)) (h : hasEntry req.channel l = true) :
    entryIn c (setEntry req l) = if c = req.channel then some req.freq else entryIn c l := by
  induction l with
  | nil => cases h
  | cons e l ih =>
    unfold setEntry
    by_cases he : req.channel = e.channel
    · rw [if_pos he, entryIn_cons, entryIn_cons, ← he]
      by_cases hc : c = req.channel
      · rw [if_pos hc, if_pos hc]
      · rw [if_neg hc, if_neg hc, if_neg hc]
    · have hl : hasEntry req.channel l = true := by
        unfold hasEntry at h ⊢
        rw [List.any_cons, decide_eq_false he, Bool.false_or] at h
        exact h
      rw [if_neg he, entryIn_cons, entryIn_cons, ih hl]
      by_cases hc : c = e.channel
      · rw [if_pos hc, if_pos hc, if_neg (by rw [hc]; exact fun h => he h.symm)]
      · rw [if_neg hc, if_neg hc]

theorem dropEntry_sublist (c : C) (l : List (SpecialFreq C)) : (dropEntry c l).Sublist l := by
  induction l with
  | nil => exact .slnil
  | cons e l ih =>
    unfold dropEntry
    by_cases h : c = e.channel
    · rw [if_pos h]
      exact List.sublist_cons_self e l
    · rw [if_neg h]
      exact ih.cons_cons e

theorem entryIn_dropEntry (d c : C) (l : List (SpecialFreq C)) (h : (l.map SpecialFreq.channel).Nodup) :
    entryIn c (dropEntry d l) = if c = d then none else entryIn c l := by
  induction l with
  | nil => exact (ite_self none).symm
  | cons e l ih =>
    rw [List.map_cons, List.nodup_cons] at h
    unfold dropEntry
    by_cases hd : d = e.channel
    · rw [if_pos hd, entryIn_cons, ← hd]
      by_cases hc : c = d
      · rw [if_pos hc, entryIn_eq_none_iff, Bool.eq_false_iff, Ne, hasEntry_iff, hc, hd]
        exact h.1
      · rw [if_neg hc, if_neg hc]
    · rw [if_neg hd, entryIn_cons, entryIn_cons, ih h.2]
      by_cases hc : c = e.channel
      · rw [if_pos hc, if_pos hc, if_neg (by rw [hc]; exact fun h => hd h.symm)]
      · rw [if_neg hc, if_neg hc]

theorem hasEntry_iff_entryOf (hw : FreqHw C) (s : FreqState C) (c : C) :
    hasEntry c (s.table (hw.hashIndex c)) = true ↔ entryOf hw s c ≠ none := by
  unfold entryOf
  rw [Ne, entryIn_eq_none_iff, Bool.not_eq_false]

theorem neat_update {hw : FreqHw C} {s s' : FreqState C} (h : Neat hw s) (c : C) (l : List (SpecialFreq C))
    (hplace : ∀ e ∈ l, hw.hashIndex e.channel = hw.hashIndex c) (hnodup : (l.map SpecialFreq.channel).Nodup)
    (hs' : s'.table = Function.update s.table (hw.hashIndex c) l) : Neat hw s' := by
  constructor
  · intro i e he
    rw [hs'] at he
    by_cases hi : i = hw.hashIndex c
    · subst hi
      rw [Function.update_self] at he
      exact hplace e he
    · rw [Function.update_of_ne hi] at he
      exact h.place i e he
  · intro i
    rw [hs']
    by_cases hi : i = hw.hashIndex c
    · subst hi
      rw [Function.update_self]
      exact hnodup
    · rw [Function.update_of_ne hi]
      exact h.nodup i

theorem entryOf_update {hw : FreqHw C} {s s' : FreqState C} (c : C) (l : List (SpecialFreq C)) (v : Option Nat)
    (hl : ∀ d, entryIn d l = if d = c then v else entryIn d (s.table (hw.hashIndex c)))
    (hs' : s'.table = Function.update s.table (hw.hashIndex c) l) :
    entryOf hw s' = Function.update (entryOf hw s) c v := by
  funext d
  unfold entryOf
  rw [hs']
  by_cases hi : hw.hashIndex d = hw.hashIndex c
  · rw [hi, Function.update_self, hl]
    by_cases hd : d = c
    · subst hd
      rw [if_pos rfl, Function.update_self]
    · rw [if_neg hd, Function.update_of_ne hd, hi]
  · have hd : d ≠ c := fun h => hi (congrArg hw.hashIndex h)
    rw [Function.update_of_ne hi, Function.update_of_ne hd]

/-- `ieee80211_special_freq_update` fails only for want of memory for a new entry; else it sets
the entry and the mark of the channel. -/
theorem specialFreqUpdate_spec {hw : FreqHw C} (alloc : Bool) (req : SpecialFreq C) {s : FreqState C}
    (h : Neat hw s) :
    (entryOf hw s req.channel = none ∧ alloc = false ∧ specialFreqUpdate hw alloc req s = none) ∨
      ((entryOf hw s req.channel ≠ none ∨ alloc = true) ∧
        ∃ s', specialFreqUpdate hw alloc req s = some s' ∧ Neat hw s' ∧
          entryOf hw s' = Function.update (entryOf hw s) req.channel (some req.freq) ∧
          s'.special = Function.update s.special req.channel true ∧ s'.fw = s.fw ∧ s'.warned = s.warned) := by
  unfold specialFreqUpdate
  dsimp only
  by_cases he : hasEntry req.channel (s.table (hw.hashIndex req.channel)) = true
  · right
    rw [if_pos he]
    refine ⟨.inl ((hasEntry_iff_entryOf hw s _).mp he), _, rfl, ?_, ?_, rfl, rfl, rfl⟩
    · apply neat_update h req.channel (setEntry req (s.table (hw.hashIndex req.channel)))
      · intro e hmem
        have hc : e.channel ∈ (s.table (hw.hashIndex req.channel)).map SpecialFreq.channel := by
          rw [← map_setEntry req]
          exact List.mem_map_of_mem hmem
        obtain ⟨e', he', hee⟩ := List.mem_map.mp hc
        rw [← hee]
        exact h.place _ e' he'
      · rw [map_setEntry]
        exact h.nodup _
      · rfl
    · apply entryOf_update req.channel (setEntry req (s.table (hw.hashIndex req.channel)))
      · intro d
        exact entryIn_setEntry req d _ he
      · rfl
  · rw [if_neg he]
    have hnone : entryOf hw s req.channel = none := by
      by_contra hne
      exact he ((hasEntry_iff_entryOf hw s _).mpr hne)
    cases alloc with
    | false => exact .inl ⟨hnone, rfl, rfl⟩
    | true =>
      right
      rw [if_pos rfl]
      refine ⟨.inr rfl, _, rfl, ?_, ?_, rfl, rfl, rfl⟩
      · apply neat_update h req.channel (req :: s.table (hw.hashIndex req.channel))
        · intro e hmem
          rcases List.mem_cons.mp hmem with rfl | hmem
          · rfl
          · exact h.place _ e hmem
        · rw [List.map_cons, List.nodup_cons]
          exact ⟨fun hmem => he ((hasEntry_iff _ _).mpr hmem), h.nodup _⟩
        · rfl
      · apply entryOf_update req.channel (req :: s.table (hw.hashIndex req.channel))
        · intro d
          exact entryIn_cons d req _
        · rfl

/-- `ieee80211_special_freq_clear` takes entry and mark of the channel away, and warns when there
was no entry. -/
theorem specialFreqClear_spec {hw : FreqHw C} (req : SpecialFreq C) {s : FreqState C} (h : Neat hw s) :
    Neat hw (specialFreqClear hw req s) ∧
      entryOf hw (specialFreqClear hw req s) = Function.update (entryOf hw s) req.channel none ∧
      (specialFreqClear hw req s).special = Function.update s.special req.channel false ∧
      (specialFreqClear hw req s).fw = s.fw ∧
      ((specialFreqClear hw req s).warned = true ↔ s.warned = true ∨ entryOf hw s req.channel = none) := by
  unfold specialFreqClear
  dsimp only
  by_cases he : hasEntry req.channel (s.table (hw.hashIndex req.channel)) = true
  · have hsome := (hasEntry_iff_entryOf hw s _).mp he
    rw [if_pos he]
    refine ⟨?_, ?_, rfl, rfl, ?_⟩
    · apply neat_update h req.channel (dropEntry req.channel (s.table (hw.hashIndex req.channel)))
      · intro e hmem
        exact h.place _ e ((dropEntry_sublist _ _).subset hmem)
      · exact ((dropEntry_sublist _ _).map _).nodup (h.nodup _)
      · rfl
    · apply entryOf_update req.channel (dropEntry req.channel (s.table (hw.hashIndex req.channel)))
      · intro d
        exact entryIn_dropEntry _ d _ (h.nodup _)
      · rfl
    · exact ⟨.inl, fun hw => hw.resolve_right hsome⟩
  · have hnone : entryOf hw s req.channel = none := by
      by_contra hne
      exact he ((hasEntry_iff_entryOf hw s _).mpr hne)
    rw [if_neg he]
    refine ⟨⟨h.place, h.nodup⟩, ?_, rfl, rfl, ?_⟩
    · show entryOf hw s = _
      rw [← hnone, Function.update_eq_self]
    · exact ⟨fun _ => .inr hnone, fun _ => rfl⟩

theorem specialFreqClear_update {hw : FreqHw C} {req : SpecialFreq C} {s s' : FreqState C}
    (hnone : entryOf hw s req.channel = none) (hmark : s.special req.channel = false) {alloc : Bool}
    (h : specialFreqUpdate hw alloc req s = some s') : specialFreqClear hw req s' = s := by
  have he : ¬hasEntry req.channel (s.table (hw.hashIndex req.channel)) = true := by
    intro he
    exact (hasEntry_iff_entryOf hw s _).mp he hnone
  unfold specialFreqUpdate at h
  dsimp only at h
  rw [if_neg he] at h
  cases alloc with
  | false => cases h
  | true =>
    rw [if_pos rfl] at h
    cases h
    have hself : Function.update s.table (hw.hashIndex req.channel) (req :: s.table (hw.hashIndex req.channel))
        (hw.hashIndex req.channel) = req :: s.table (hw.hashIndex req.channel) := Function.update_self _ _ _
    have hhas : hasEntry req.channel (Function.update s.table (hw.hashIndex req.channel)
        (req :: s.table (hw.hashIndex req.channel)) (hw.hashIndex req.channel)) = true := by
      unfold hasEntry
      rw [hself, List.any_cons, decide_eq_true rfl, Bool.true_or]
    have hdrop : dropEntry req.channel (req :: s.table (hw.hashIndex req.channel)) =
        s.table (hw.hashIndex req.channel) := if_pos rfl
    unfold specialFreqClear
    dsimp only
    rw [if_pos hhas, hself, hdrop, Function.update_idem, Function.update_eq_self, Function.update_idem]
    have hspecial : Function.update s.special req.channel false = s.special := by
      rw [← hmark, Function.update_eq_self]
    rw [hspecial]

/-- The firmware has the channel on another frequency. -/
def MovedTo (hw : FreqHw C) (s : FreqState C) (c : C) (f : Nat) : Prop := s.fw c = some f ∧ f ≠ hw.centerFreq c

/-- Each channel has at most one entry, entries and marks are those of the channels moved, and
no `WARN_ON` was met. -/
structure FreqFollows (hw : FreqHw C) (s : FreqState C) : Prop where
  neat : Neat hw s
  entries : ∀ c f, (∃ i, ⟨c, f⟩ ∈ s.table i) ↔ MovedTo hw s c f
  marks : ∀ c, s.special c = true ↔ ∃ f, MovedTo hw s c f
  noWarn : s.warned = false

def FreqUndone (hw : FreqHw C) (s : FreqState C) (call : FreqCall) : Prop :=
  (internalFreqSet hw s call).1 = false → (internalFreqSet hw s call).2 = s

/-- A reset needs an entry and the firmware's consent; another frequency must not be refused
when there is an entry, and if the bus is gone it must be the one entered or find no memory. -/
def FreqKept (hw : FreqHw C) (s : FreqState C) (call : FreqCall) : Prop :=
  ∀ req, freqRequest hw call = some req →
    if hw.centerFreq req.channel ≠ req.freq then
      match call.reply with
      | .accepted => True
      | .refused => entryOf hw s req.channel = none
      | .gone => entryOf hw s req.channel = some req.freq ∨
          (entryOf hw s req.channel = none ∧ call.nodeAlloc = false)
    else entryOf hw s req.channel ≠ none ∧ call.reply = .accepted

theorem entryOf_of_follows {hw : FreqHw C} {s : FreqState C} (h : FreqFollows hw s) (c : C) (f : Nat) :
    entryOf hw s c = some f ↔ MovedTo hw s c f := by
  rw [← mem_table_iff h.neat, h.entries]

theorem special_of_follows {hw : FreqHw C} {s : FreqState C} (h : FreqFollows hw s) (c : C) :
    s.special c = (entryOf hw s c).isSome := by
  rw [Bool.eq_iff_iff, h.marks, Option.isSome_iff_exists]
  exact exists_congr fun f => (entryOf_of_follows h c f).symm

theorem follows_start (hw : FreqHw C) : FreqFollows hw .start where
  neat := ⟨fun _ _ h => (List.not_mem_nil h).elim, fun _ => List.nodup_nil⟩
  entries c f := by
    constructor
    · rintro ⟨i, h⟩
      cases h
    · rintro ⟨h, -⟩
      cases h
  marks c := by
    constructor
    · nofun
    · rintro ⟨f, h, -⟩
      cases h
  noWarn := rfl

theorem follows_of_entryOf {hw : FreqHw C} {s : FreqState C} (hn : Neat hw s)
    (he : ∀ c f, entryOf hw s c = some f ↔ MovedTo hw s c f) (hm : ∀ c, s.special c = (entryOf hw s c).isSome)
    (hw' : s.warned = false) : FreqFollows hw s where
  neat := hn
  entries c f := by rw [mem_table_iff hn, he]
  marks c := by
    rw [hm, Option.isSome_iff_exists]
    exact exists_congr (he c)
  noWarn := hw'

theorem follows_moved {hw : FreqHw C} {s s' : FreqState C} (h : FreqFollows hw s) {c : C} {f : Nat} {v : Option Nat}
    (hn : Neat hw s') (he : entryOf hw s' = Function.update (entryOf hw s) c v)
    (hm : s'.special = Function.update s.special c v.isSome) (hf : s'.fw = Function.update s.fw c (some f))
    (hv : v = if hw.centerFreq c ≠ f then some f else none) (hw' : s'.warned = false) : FreqFollows hw s' := by
  apply follows_of_entryOf hn
  · intro d g
    unfold MovedTo
    rw [he, hf]
    by_cases hd : d = c
    · subst hd
      rw [Function.update_self, Function.update_self, hv]
      by_cases hc : hw.centerFreq d ≠ f
      · rw [if_pos hc]
        constructor
        · intro h
          cases h
          exact ⟨rfl, Ne.symm hc⟩
        · exact And.left
      · rw [if_neg hc]
        constructor
        · nofun
        · rintro ⟨h, hne⟩
          cases h
          exact absurd (not_not.mp hc).symm hne
    · rw [Function.update_of_ne hd, Function.update_of_ne hd]
      exact entryOf_of_follows h d g
  · intro d
    rw [he, hm]
    by_cases hd : d = c
    · subst hd
      rw [Function.update_self, Function.update_self]
    · rw [Function.update_of_ne hd, Function.update_of_ne hd]
      exact special_of_follows h d
  · exact hw'

section
variable {hw : FreqHw C} {s : FreqState C} {call : FreqCall} {req : SpecialFreq C}

theorem freqSet_none (hreq : freqRequest hw call = none) : internalFreqSet hw s call = (false, s) := by
  unfold internalFreqSet
  rw [hreq]

theorem freqSet_noMem (hreq : freqRequest hw call = some req) (hc : hw.centerFreq req.channel ≠ req.freq)
    (hup : specialFreqUpdate hw call.nodeAlloc req s = none) : internalFreqSet hw s call = (false, s) := by
  unfold internalFreqSet
  rw [hreq]
  dsimp only
  rw [if_pos hc, hup]

/-- The firmware's part of the call, after the table was changed to `s₁` -/
def afterReply (hw : FreqHw C) (reply : FwReply) (req : SpecialFreq C) (s₁ : FreqState C) : Bool × FreqState C :=
  match reply with
  | .accepted => (true, { s₁ with fw := Function.update s₁.fw req.channel (some req.freq) })
  | .refused => (false, specialFreqClear hw req s₁)
  | .gone => (true, s₁)

theorem freqSet_moved {s₁ : FreqState C} (hreq : freqRequest hw call = some req)
    (hc : hw.centerFreq req.channel ≠ req.freq) (hup : specialFreqUpdate hw call.nodeAlloc req s = some s₁) :
    internalFreqSet hw s call = afterReply hw call.reply req s₁ := by
  unfold internalFreqSet
  rw [hreq]
  dsimp only
  rw [if_pos hc, hup]
  cases call.reply <;> rfl

theorem freqSet_own (hreq : freqRequest hw call = some req) (hc : ¬hw.centerFreq req.channel ≠ req.freq) :
    internalFreqSet hw s call = afterReply hw call.reply req (specialFreqClear hw req s) := by
  unfold internalFreqSet
  rw [hreq]
  dsimp only
  rw [if_neg hc]
  cases call.reply <;> rfl

theorem freqKept_moved (hreq : freqRequest hw call = some req) (hc : hw.centerFreq req.channel ≠ req.freq) :
    FreqKept hw s call ↔ match call.reply with
      | .accepted => True
      | .refused => entryOf hw s req.channel = none
      | .gone => entryOf hw s req.channel = some req.freq ∨
          (entryOf hw s req.channel = none ∧ call.nodeAlloc = false) := by
  unfold FreqKept
  constructor
  · intro h
    have := h req hreq
    rwa [if_pos hc] at this
  · intro h req' hreq'
    obtain rfl : req = req' := Option.some.inj (hreq.symm.trans hreq')
    rwa [if_pos hc]

theorem freqKept_own (hreq : freqRequest hw call = some req) (hc : ¬hw.centerFreq req.channel ≠ req.freq) :
    FreqKept hw s call ↔ entryOf hw s req.channel ≠ none ∧ call.reply = .accepted := by
  unfold FreqKept
  constructor
  · intro h
    have := h req hreq
    rwa [if_neg hc] at this
  · intro h req' hreq'
    obtain rfl : req = req' := Option.some.inj (hreq.symm.trans hreq')
    rwa [if_neg hc]

theorem step_moved {s₁ : FreqState C} (h : FreqFollows hw s) (hreq : freqRequest hw call = some req)
    (hc : hw.centerFreq req.channel ≠ req.freq) (hup : specialFreqUpdate hw call.nodeAlloc req s = some s₁)
    (hmem : entryOf hw s req.channel ≠ none ∨ call.nodeAlloc = true) (hn : Neat hw s₁)
    (he : entryOf hw s₁ = Function.update (entryOf hw s) req.channel (some req.freq))
    (hm : s₁.special = Function.update s.special req.channel true) (hf : s₁.fw = s.fw)
    (hw' : s₁.warned = s.warned) :
    FreqFollows hw (freqNext hw s call) ∧ FreqUndone hw s call ↔ FreqKept hw s call := by
  rw [freqKept_moved hreq hc]
  unfold freqNext FreqUndone
  rw [freqSet_moved hreq hc hup]
  cases call.reply with
  | accepted =>
    refine iff_of_true ⟨?_, nofun⟩ trivial
    refine follows_moved h (c := req.channel) (f := req.freq) (v := some req.freq) ⟨hn.place, hn.nodup⟩ he hm ?_
      (if_pos hc).symm (hw'.trans h.noWarn)
    show Function.update s₁.fw req.channel (some req.freq) = _
    rw [hf]
  | refused =>
    show FreqFollows hw (specialFreqClear hw req s₁) ∧ (false = false → specialFreqClear hw req s₁ = s) ↔ _
    constructor
    · rintro ⟨-, hback⟩
      have hgone := (specialFreqClear_spec req hn).2.1
      rw [hback rfl] at hgone
      show entryOf hw s req.channel = none
      rw [hgone, Function.update_self]
    · intro hnone
      have hmark : s.special req.channel = false := by
        rw [special_of_follows h, hnone]
        rfl
      rw [specialFreqClear_update hnone hmark hup]
      exact ⟨h, fun _ => rfl⟩
  | gone =>
    show FreqFollows hw s₁ ∧ (true = false → s₁ = s) ↔ _
    constructor
    · rintro ⟨h₁, -⟩
      left
      rw [entryOf_of_follows h]
      unfold MovedTo
      rw [← hf]
      apply (entryOf_of_follows h₁ _ _).mp
      rw [he, Function.update_self]
    · rintro (hsame | ⟨hnone, halloc⟩)
      · refine ⟨?_, nofun⟩
        -- the entry is what it was, so that nothing changed that counts
        have hentries : entryOf hw s₁ = entryOf hw s := by
          rw [he, ← hsame, Function.update_eq_self]
        have hspecial : s₁.special = s.special := by
          have hmark : s.special req.channel = true := by
            rw [special_of_follows h, hsame]
            rfl
          rw [hm, ← hmark, Function.update_eq_self]
        apply follows_of_entryOf hn
        · intro c f
          unfold MovedTo
          rw [hentries, hf]
          exact entryOf_of_follows h c f
        · intro c
          rw [hentries, hspecial]
          exact special_of_follows h c
        · exact hw'.trans h.noWarn
      · exfalso
        rcases hmem with hmem | hmem
        · exact hmem hnone
        · rw [halloc] at hmem
          cases hmem

theorem step_own (h : FreqFollows hw s) (hreq : freqRequest hw call = some req)
    (hc : ¬hw.centerFreq req.channel ≠ req.freq) :
    FreqFollows hw (freqNext hw s call) ∧ FreqUndone hw s call ↔ FreqKept hw s call := by
  obtain ⟨hn, he, hm, hf, hwarn⟩ := specialFreqClear_spec req h.neat
  rw [freqKept_own hreq hc]
  unfold freqNext FreqUndone
  rw [freqSet_own hreq hc]
  by_cases hnone : entryOf hw s req.channel = none
  · -- the first clear has warned, and nothing takes that back
    have hw₁ : (specialFreqClear hw req s).warned = true := hwarn.mpr (.inr hnone)
    refine iff_of_false ?_ fun hk => hk.1 hnone
    rintro ⟨hfol, -⟩
    have hw₂ := hfol.noWarn
    revert hw₂
    cases call.reply with
    | accepted => exact fun hw₂ => Bool.noConfusion (hw₁.symm.trans hw₂)
    | refused =>
      have := (specialFreqClear_spec req hn).2.2.2.2.mpr (.inl hw₁)
      exact fun hw₂ => Bool.noConfusion (this.symm.trans hw₂)
    | gone => exact fun hw₂ => Bool.noConfusion (hw₁.symm.trans hw₂)
  · have hw₁ : (specialFreqClear hw req s).warned = false := by
      rw [Bool.eq_false_iff]
      intro hw₁
      rcases hwarn.mp hw₁ with hs | hs
      · rw [h.noWarn] at hs
        cases hs
      · exact hnone hs
    have hgone : entryOf hw (specialFreqClear hw req s) req.channel = none := by
      rw [he, Function.update_self]
    cases call.reply with
    | accepted =>
      refine iff_of_true ⟨?_, nofun⟩ ⟨hnone, rfl⟩
      refine follows_moved h (c := req.channel) (f := req.freq) (v := none) ⟨hn.place, hn.nodup⟩ he hm ?_
        (if_neg hc).symm hw₁
      show Function.update (specialFreqClear hw req s).fw req.channel (some req.freq) = _
      rw [hf]
    | refused =>
      refine iff_of_false ?_ fun hk => nomatch hk.2
      rintro ⟨hfol, -⟩
      have hw₂ := (specialFreqClear_spec req hn).2.2.2.2.mpr (.inr hgone)
      exact Bool.noConfusion (hw₂.symm.trans hfol.noWarn)
    | gone =>
      refine iff_of_false ?_ fun hk => nomatch hk.2
      rintro ⟨hfol, -⟩
      -- the firmware still has the channel moved, and the entry is gone
      obtain ⟨f, hfreq⟩ := Option.ne_none_iff_exists'.mp hnone
      have hmoved : MovedTo hw (specialFreqClear hw req s) req.channel f := by
        unfold MovedTo
        rw [hf]
        exact (entryOf_of_follows h _ _).mp hfreq
      have := (entryOf_of_follows hfol _ _).mpr hmoved
      change entryOf hw (specialFreqClear hw req s) req.channel = some f at this
      rw [hgone] at this
      cases this

theorem freqFollows_step (h : FreqFollows hw s) :
    FreqFollows hw (freqNext hw s call) ∧ FreqUndone hw s call ↔ FreqKept hw s call := by
  cases hreq : freqRequest hw call with
  | none =>
    unfold freqNext FreqUndone
    rw [freqSet_none hreq]
    refine iff_of_true ⟨h, fun _ => rfl⟩ ?_
    intro req hreq'
    rw [hreq] at hreq'
    cases hreq'
  | some req =>
    by_cases hc : hw.centerFreq req.channel ≠ req.freq
    · rcases specialFreqUpdate_spec call.nodeAlloc req h.neat with
        ⟨hnone, halloc, hup⟩ | ⟨hmem, s₁, hup, hn, he, hm, hf, hw'⟩
      · rw [freqKept_moved hreq hc]
        unfold freqNext FreqUndone
        rw [freqSet_noMem hreq hc hup]
        refine iff_of_true ⟨h, fun _ => rfl⟩ ?_
        cases call.reply with
        | accepted => trivial
        | refused => exact hnone
        | gone => exact .inr ⟨hnone, halloc⟩
      · exact step_moved h hreq hc hup hmem hn he hm hf hw'
    · exact step_own h hreq hc

end

/-- **The special frequencies follow the firmware.**  From an empty table, table and marks say
after each call what the firmware was told last, calls that fail change nothing and no warning is
met, exactly when each call is `FreqKept`. -/
theorem specialFreq_follows_iff (hw : FreqHw C) (calls : List FreqCall) :
    ((∀ p ∈ trace (freqNext hw) .start calls, FreqFollows hw p.1 ∧ FreqUndone hw p.1 p.2) ∧
        FreqFollows hw (calls.foldl (freqNext hw) .start)) ↔
      ∀ p ∈ trace (freqNext hw) .start calls, FreqKept hw p.1 p.2 := by
  have hfires : Fires (fun _ _ => True) (freqNext hw) FreqState.start calls := by
    generalize FreqState.start = s
    induction calls generalizing s with
    | nil => trivial
    | cons call calls ih => exact ⟨trivial, ih _⟩
  have hpath : Path (.ofNext (fun _ => True) (fun _ _ => True) (freqNext hw)) FreqState.start _ _ :=
    Path.ofFires hfires
  refine hpath.exactSteps (I := fun _ => True) (P := FreqFollows hw) ?_ ?_ trivial (follows_start hw)
  · rintro s call t - hs ⟨-, rfl⟩ hk
    exact ⟨trivial, (freqFollows_step hs).mpr hk⟩
  · rintro s call t - hs ⟨-, rfl⟩ ht hq
    exact (freqFollows_step hs).mp ⟨ht, hq⟩

def freqHwOne : FreqHw (Fin 1) := ⟨fun f => if f = 2412 then some 0 else none, fun _ => 2412, fun _ => 0⟩

def freqOverwrite : List FreqCall :=
  [⟨1, 2420, true, true, true, true, .accepted⟩, ⟨1, 2430, true, true, true, true, .refused⟩]

/-- The refused call leaves the channel without the entry of the frequency it has. -/
theorem freqOverwrite_lost :
    ¬((∀ p ∈ trace (freqNext freqHwOne) .start freqOverwrite,
        FreqFollows freqHwOne p.1 ∧ FreqUndone freqHwOne p.1 p.2) ∧
      FreqFollows freqHwOne (freqOverwrite.foldl (freqNext freqHwOne) .start)) := by
  rintro ⟨-, h⟩
  have hmoved : MovedTo freqHwOne (freqOverwrite.foldl (freqNext freqHwOne) .start) 0 2420 := ⟨rfl, by decide⟩
  have hmark := (h.marks 0).mpr ⟨2420, hmoved⟩
  exact absurd hmark (by decide)

end AtbmWifi
