import Mathlib.Data.List.Basic
import AtbmWifi.Scan.ChannelSelectBest

/-!
# The weights, the lists and the whole selection

What a result adds to the weight of a channel depends on the distance only (`contribution`), so that the weights are
sums (`reqResults_eq`).  With them, and with the channels that are not skipped, the selection is the fold of
`pick_best_iff`.
-/

namespace AtbmWifi

namespace ChannelSelect

open Memory

variable {c : Channel} {w : Wiphy} {n : Nat} {weight : Nat → UInt32} {sta : ScanSta} {allowed ignore : Nat → Bool}
  {busy : Nat → UInt8} {r : SelectResults} {p : SelectResults × Bool}

theorem freq_le (hb : w.build ≠ .full5g) (hc : c ∈ w.channels) :
    c.centerFreq ≤ 5220 ∧ 1 ≤ c.hwValue ∧ c.hwValue ≤ maxScanChannelIndex := by
  have hall : ∀ b : Build, b ≠ .full5g → ∀ c ∈ chantable2g ++ chantable5g b,
      c.centerFreq ≤ 5220 ∧ 1 ≤ c.hwValue ∧ c.hwValue ≤ maxScanChannelIndex := by
    intro b hb
    cases b with
    | only2g => decide
    | pretend5g => decide
    | full5g => exact absurd rfl hb
  exact hall w.build hb c hc

theorem number_le (hb : w.build ≠ .full5g) (hn : channelValid w n = true) : 1 ≤ n ∧ n ≤ maxScanChannelIndex := by
  unfold channelValid chnumToChannel at hn
  by_cases h0 : n = 0
  · rw [if_pos h0] at hn
    cases hn
  · rw [if_neg h0] at hn
    obtain ⟨c, hc⟩ := Option.isSome_iff_exists.mp hn
    have hfreq := (freq_le hb (List.mem_of_find?_eq_some hc)).1
    have heq : c.centerFreq = chnumToFreq n := by simpa using List.find?_some hc
    rw [heq] at hfreq
    unfold chnumToFreq at hfreq
    refine ⟨by omega, ?_⟩
    unfold maxScanChannelIndex
    split at hfreq
    · omega
    · split at hfreq <;> omega

def distance (a b : Nat) : Nat := max a b - min a b

/-- What a result adds to the weight of channel `n`. -/
def contribution (w : Wiphy) (version : UInt8) (sta : ScanSta) (n : Nat) : UInt32 :=
  if n = sta.channel.toNat then addedWeight version (toS8 sta.signal) 0
  else if numberInSpecial w sta.channel.toNat = false ∧ sta.channel.toNat ≤ 13 ∧ 1 ≤ n ∧ n ≤ 13 ∧
      distance n sta.channel.toNat ≤ 3 ∧ numberInSpecial w n = false then
    addedWeight version (toS8 sta.signal) (distance n sta.channel.toNat)
  else 0

/-- The weight of channel `n` with the results added. -/
def grown (w : Wiphy) (r : SelectResults) (stas : List ScanSta) (n : Nat) : UInt32 :=
  stas.foldl (fun v sta => v + contribution w r.version sta n) (r.weight (n - 1))

theorem grown_perm (w : Wiphy) (r : SelectResults) {stas stas' : List ScanSta} (h : stas.Perm stas') (n : Nat) :
    grown w r stas n = grown w r stas' n := by
  unfold grown
  apply h.foldl_eq'
  intro a _ b _ v
  rw [UInt32.add_assoc, UInt32.add_assoc, UInt32.add_comm (contribution w r.version a n)]

theorem addWeight_eq (h : n ≤ maxScanChannelIndex) (v : UInt32) :
    addWeight weight n v = some (setAt weight (n - 1) (weight (n - 1) + v)) :=
  if_pos (by unfold maxScanChannelIndex at *; omega)

theorem setAt_number {α : Type} {f : Nat → α} {k : Nat} (hn : 1 ≤ n) (hk : 1 ≤ k) (v : α) :
    setAt f (n - 1) v (k - 1) = if k = n then v else f (k - 1) := by
  by_cases h : k = n
  · subst h
    rw [if_pos rfl, setAt_self]
  · rw [if_neg h, setAt_of_ne (by omega)]

theorem spread_eq (w : Wiphy) (version : UInt8) (sta : ScanSta) (l : List Nat) (hnodup : l.Nodup)
    (hl : ∀ n ∈ l, 1 ≤ n ∧ n ≤ 13) (weight : Nat → UInt32) :
    ∃ weight', l.foldlM (spreadTo w version sta) weight = some weight' ∧
      ∀ n, 1 ≤ n → weight' (n - 1) = weight (n - 1) +
        if n ∈ l ∧ numberInSpecial w n = false then addedWeight version (toS8 sta.signal) (distance n sta.channel.toNat)
        else 0 := by
  induction l generalizing weight with
  | nil => exact ⟨weight, rfl, fun n _ => by simp⟩
  | cons a l ih =>
    obtain ⟨ha, hnodup⟩ := List.nodup_cons.mp hnodup
    have ha1 := hl a List.mem_cons_self
    have hrest := ih hnodup fun n hn => hl n (List.mem_cons_of_mem _ hn)
    by_cases hspecial : numberInSpecial w a = true
    · obtain ⟨weight', hw, hval⟩ := hrest weight
      refine ⟨weight', ?_, fun n hn => ?_⟩
      · rw [List.foldlM_cons]
        unfold spreadTo
        rw [if_pos hspecial]
        exact hw
      · rw [hval n hn]
        by_cases hna : n = a
        · subst hna
          simp [hspecial]
        · simp [hna]
    · obtain ⟨weight', hw, hval⟩ := hrest (setAt weight (a - 1)
        (weight (a - 1) + addedWeight version (toS8 sta.signal) (distance a sta.channel.toNat)))
      refine ⟨weight', ?_, fun n hn => ?_⟩
      · rw [List.foldlM_cons]
        unfold spreadTo
        rw [if_neg hspecial, addWeight_eq (by unfold maxScanChannelIndex; omega)]
        exact hw
      · rw [hval n hn, setAt_number ha1.1 hn]
        by_cases hna : n = a
        · subst hna
          simp [ha, hspecial]
        · simp [hna]

theorem neighbours_nodup : ∀ cur < 14, 1 ≤ cur → (neighbours cur).Nodup := by
  decide

theorem neighbours_le : ∀ cur < 14, 1 ≤ cur → ∀ n ∈ neighbours cur, n ≠ cur ∧ 1 ≤ n ∧ n ≤ 13 := by
  decide

theorem mem_neighbours : ∀ cur < 14, 1 ≤ cur → ∀ n < 14, n ∈ neighbours cur ↔ n ≠ cur ∧ 1 ≤ n ∧ distance n cur ≤ 3 := by
  decide

/-- **One result**: it is added to each weight by its distance. -/
theorem handle_eq (hb : w.build ≠ .full5g) (r : SelectResults)
    (hvalid : channelValid w sta.channel.toNat = true) (hcca : sta.cca = true) :
    ∃ r', handle w r sta = some (r', true) ∧ r'.version = r.version ∧ r'.ignoreChannels = r.ignoreChannels ∧
      r'.channels = r.channels ∧ ∀ n, 1 ≤ n → r'.weight (n - 1) = r.weight (n - 1) + contribution w r.version sta n := by
  obtain ⟨hlo, hhi⟩ := number_le hb hvalid
  have hown (n : Nat) (hn : 1 ≤ n) : setAt r.weight (sta.channel.toNat - 1)
      (r.weight (sta.channel.toNat - 1) + addedWeight r.version (toS8 sta.signal) 0) (n - 1) =
      r.weight (n - 1) + if n = sta.channel.toNat then addedWeight r.version (toS8 sta.signal) 0 else 0 := by
    rw [setAt_number hlo hn]
    by_cases h : n = sta.channel.toNat
    · rw [if_pos h, if_pos h, h]
    · rw [if_neg h, if_neg h, UInt32.add_zero]
  unfold handle
  dsimp only
  rw [if_neg (by simp [hvalid]), if_neg (by simp [hcca]), addWeight_eq hhi, addWeight_eq hhi]
  by_cases hspecial : numberInSpecial w sta.channel.toNat = true
  · refine ⟨_, if_pos hspecial, rfl, rfl, rfl, fun n hn => ?_⟩
    show setAt r.weight _ _ (n - 1) = _
    rw [hown n hn]
    unfold contribution
    simp [hspecial]
  · have hnot : numberInSpecial w sta.channel.toNat = false := by simpa using hspecial
    by_cases h13 : sta.channel.toNat ≤ 13
    · have hnodup := neighbours_nodup _ (Nat.lt_succ_of_le h13) hlo
      have hin := neighbours_le _ (Nat.lt_succ_of_le h13) hlo
      have hmem := mem_neighbours _ (Nat.lt_succ_of_le h13) hlo
      obtain ⟨weight', hw, hval⟩ := spread_eq w r.version sta (neighbours sta.channel.toNat) hnodup
        (fun n hn => (hin n hn).2) (setAt r.weight (sta.channel.toNat - 1)
          (r.weight (sta.channel.toNat - 1) + addedWeight r.version (toS8 sta.signal) 0))
      refine ⟨{ r with
        nAps := setAt r.nAps (sta.channel.toNat - 1) (r.nAps (sta.channel.toNat - 1) + 1)
        weight := weight' }, ?_, rfl, rfl, rfl, fun n hn => ?_⟩
      · show (if numberInSpecial w sta.channel.toNat = true then _ else _) = _
        rw [if_neg hspecial, if_pos h13]
        show Option.bind ((neighbours sta.channel.toNat).foldlM _ _) _ = _
        rw [hw]
        rfl
      · show weight' (n - 1) = _
        rw [hval n hn, hown n hn, UInt32.add_assoc]
        congr 1
        unfold contribution
        by_cases hcur : n = sta.channel.toNat
        · rw [if_pos hcur, if_pos hcur, if_neg fun h => (hin n h.1).1 hcur, UInt32.add_zero]
        · rw [if_neg hcur, if_neg hcur, UInt32.zero_add]
          by_cases hn13 : n ≤ 13
          · have hiff := hmem n (Nat.lt_succ_of_le hn13)
            simp only [hiff, hnot, h13, hn, hn13, hcur, true_and, ne_eq, not_false_eq_true]
          · have hout : n ∉ neighbours sta.channel.toNat := fun h => hn13 (hin n h).2.2
            simp [hout, hn13]
    · refine ⟨{ r with
        nAps := setAt r.nAps (sta.channel.toNat - 1) (r.nAps (sta.channel.toNat - 1) + 1)
        weight := setAt r.weight (sta.channel.toNat - 1)
          (r.weight (sta.channel.toNat - 1) + addedWeight r.version (toS8 sta.signal) 0) }, ?_, rfl, rfl, rfl, fun n hn => ?_⟩
      · show (if numberInSpecial w sta.channel.toNat = true then _ else _) = _
        rw [if_neg hspecial, if_neg h13]
      · show setAt r.weight _ _ (n - 1) = _
        rw [hown n hn]
        unfold contribution
        simp [h13]

/-- **All the results.** -/
theorem reqResults_eq (hb : w.build ≠ .full5g) (stas : List ScanSta)
    (hstas : ∀ sta ∈ stas, channelValid w sta.channel.toNat = true ∧ sta.cca = true) (r : SelectResults) :
    ∃ r', reqResults w r stas = some (r', true) ∧ r'.ignoreChannels = r.ignoreChannels ∧ r'.channels = r.channels ∧
      ∀ n, 1 ≤ n → r'.weight (n - 1) = grown w r stas n := by
  induction stas generalizing r with
  | nil => exact ⟨r, rfl, rfl, rfl, fun _ _ => rfl⟩
  | cons sta stas ih =>
    obtain ⟨hvalid, hcca⟩ := hstas sta List.mem_cons_self
    obtain ⟨r1, h1, hversion, hignore, hchannels, hweight⟩ := handle_eq hb r hvalid hcca
    obtain ⟨r', h', hignore', hchannels', hweight'⟩ := ih (fun s hs => hstas s (List.mem_cons_of_mem _ hs)) r1
    refine ⟨r', ?_, hignore'.trans hignore, hchannels'.trans hchannels, fun n hn => ?_⟩
    · unfold reqResults
      rw [List.foldlM_cons, if_pos rfl]
      show Option.bind (handle w r sta) _ = _
      rw [h1]
      exact h'
    · rw [hweight' n hn]
      unfold grown
      rw [List.foldl_cons, hversion, hweight n hn]

theorem maskOf_eq (hb : w.build ≠ .full5g) (l : List UInt8) (hl : ∀ n ∈ l, channelValid w n.toNat = true)
    (old : Nat → Bool) :
    ∃ m, maskOf w l old = some (some m) ∧
      ∀ k, 1 ≤ k → (m (k - 1) = true ↔ k ∈ l.map UInt8.toNat ∨ old (k - 1) = true) := by
  induction l generalizing old with
  | nil => exact ⟨old, rfl, fun k _ => by simp⟩
  | cons a l ih =>
    have hvalid := hl a List.mem_cons_self
    obtain ⟨hlo, hhi⟩ := number_le hb hvalid
    obtain ⟨m, hm, hiff⟩ := ih (fun n hn => hl n (List.mem_cons_of_mem _ hn)) (setAt old (a.toNat - 1) true)
    refine ⟨m, ?_, fun k hk => ?_⟩
    · have hlt : a.toNat - 1 < maxScanChannelIndex := by omega
      unfold maskOf
      rw [List.foldlM_cons]
      dsimp only
      rw [if_neg (by simp [hvalid]), if_pos hlt]
      exact hm
    · rw [hiff k hk, setAt_number hlo hk, List.map_cons, List.mem_cons]
      by_cases hka : k = a.toNat
      · simp [hka]
      · simp [hka]

def Eligible (w : Wiphy) (busy : Nat → UInt8) (r : SelectResults) (c : Channel) : Prop :=
  busy (c.hwValue - 1) ≠ 0 ∧ c.hwValue ∉ r.ignoreChannels.map UInt8.toNat ∧
    (r.channels = [] ∨ c.hwValue ∈ r.channels.map UInt8.toNat) ∧ w.special c.centerFreq = false

instance (w : Wiphy) (busy : Nat → UInt8) (r : SelectResults) : DecidablePred (Eligible w busy r) :=
  fun _ => inferInstanceAs (Decidable (_ ∧ _ ∧ _ ∧ _))

/-- The numbers of the eligible channels, in the order of the wiphy. -/
def eligible (w : Wiphy) (busy : Nat → UInt8) (r : SelectResults) : List Nat :=
  (w.channels.filter fun c => Eligible w busy r c).map Channel.hwValue

theorem turn_eq (hlo : 1 ≤ c.hwValue) (hhi : c.hwValue ≤ maxScanChannelIndex)
    (hignore : ignore (c.hwValue - 1) = true ↔ c.hwValue ∈ r.ignoreChannels.map UInt8.toNat)
    (hallowed : allowed (c.hwValue - 1) = true ↔ c.hwValue ∈ r.channels.map UInt8.toNat ∨ r.channels = []) (p : Pick) :
    turn w weight busy ignore allowed p c =
      some (if Eligible w busy r c then
        p.consider (fun n => (weight (n - 1)).toNat) (fun n => (busy (n - 1)).toNat) c.hwValue else p) := by
  have hentry : entry busy c.hwValue = some (busy (c.hwValue - 1)) := if_pos (by omega)
  unfold turn
  rw [hentry, Option.bind_eq_bind, Option.bind_some]
  by_cases hbusy : busy (c.hwValue - 1) = 0
  · rw [if_pos hbusy, if_neg fun h => h.1 hbusy]
  · rw [if_neg hbusy]
    by_cases hig : ignore (c.hwValue - 1) = true
    · rw [if_pos hig, if_neg fun h => h.2.1 (hignore.mp hig)]
    · rw [if_neg hig]
      by_cases hal : allowed (c.hwValue - 1) = true
      · rw [if_neg (by simp [hal])]
        by_cases hspecial : w.special c.centerFreq = true
        · rw [if_pos hspecial, if_neg fun h => by simp [h.2.2.2] at hspecial]
        · have helig : Eligible w busy r c :=
            ⟨hbusy, fun h => hig (hignore.mpr h), (hallowed.mp hal).symm, by simpa using hspecial⟩
          rw [if_neg hspecial, if_pos helig]
      · have hno : ¬ Eligible w busy r c := fun h => hal (hallowed.mpr h.2.2.1.symm)
        rw [if_pos (by simpa using hal), if_neg hno]

theorem turns_eq (hignore : ∀ k, 1 ≤ k → (ignore (k - 1) = true ↔ k ∈ r.ignoreChannels.map UInt8.toNat))
    (hallowed : ∀ k, 1 ≤ k → (allowed (k - 1) = true ↔ k ∈ r.channels.map UInt8.toNat ∨ r.channels = []))
    (l : List Channel) (hl : ∀ c ∈ l, 1 ≤ c.hwValue ∧ c.hwValue ≤ maxScanChannelIndex) (p : Pick) :
    l.foldlM (turn w weight busy ignore allowed) p =
      some (((l.filter fun c => Eligible w busy r c).map Channel.hwValue).foldl
        (Pick.consider (fun n => (weight (n - 1)).toNat) (fun n => (busy (n - 1)).toNat)) p) := by
  induction l generalizing p with
  | nil => rfl
  | cons c l ih =>
    obtain ⟨hlo, hhi⟩ := hl c List.mem_cons_self
    have hrest := ih fun c hc => hl c (List.mem_cons_of_mem _ hc)
    rw [List.foldlM_cons, turn_eq hlo hhi (hignore _ hlo) (hallowed _ hlo), Option.bind_eq_bind, Option.bind_some, hrest]
    by_cases he : Eligible w busy r c
    · rw [if_pos he, List.filter_cons_of_pos (by simpa using he), List.map_cons, List.foldl_cons]
    · rw [if_neg he, List.filter_cons_of_neg (by simpa using he)]

theorem handle_true (hvalid : channelValid w sta.channel.toNat = true)
    (hcca : sta.cca = true) (h : handle w r sta = some p) : p.2 = true := by
  unfold handle at h
  dsimp only at h
  rw [if_neg (by simp [hvalid]), if_neg (by simp [hcca])] at h
  obtain ⟨nAps, -, h⟩ := Option.bind_eq_some_iff.mp h
  obtain ⟨own, -, h⟩ := Option.bind_eq_some_iff.mp h
  split at h
  · exact (Option.some.inj h) ▸ rfl
  · split at h
    · obtain ⟨weight, -, h⟩ := Option.bind_eq_some_iff.mp h
      exact (Option.some.inj h) ▸ rfl
    · exact (Option.some.inj h) ▸ rfl

theorem handle_lists (h : handle w r sta = some p) :
    p.1.ignoreChannels = r.ignoreChannels ∧ p.1.channels = r.channels := by
  unfold handle at h
  dsimp only at h
  split at h
  · exact (Option.some.inj h) ▸ ⟨rfl, rfl⟩
  split at h
  · exact (Option.some.inj h) ▸ ⟨rfl, rfl⟩
  obtain ⟨nAps, -, h⟩ := Option.bind_eq_some_iff.mp h
  obtain ⟨own, -, h⟩ := Option.bind_eq_some_iff.mp h
  split at h
  · exact (Option.some.inj h) ▸ ⟨rfl, rfl⟩
  · split at h
    · obtain ⟨weight, -, h⟩ := Option.bind_eq_some_iff.mp h
      exact (Option.some.inj h) ▸ ⟨rfl, rfl⟩
    · exact (Option.some.inj h) ▸ ⟨rfl, rfl⟩

theorem reqResults_true (stas : List ScanSta)
    (hstas : ∀ sta ∈ stas, channelValid w sta.channel.toNat = true ∧ sta.cca = true)
    (h : reqResults w r stas = some p) :
    p.2 = true ∧ p.1.ignoreChannels = r.ignoreChannels ∧ p.1.channels = r.channels := by
  induction stas generalizing r with
  | nil => exact (Option.some.inj h) ▸ ⟨rfl, rfl, rfl⟩
  | cons sta stas ih =>
    obtain ⟨hvalid, hcca⟩ := hstas sta List.mem_cons_self
    unfold reqResults at h
    rw [List.foldlM_cons, if_pos rfl] at h
    obtain ⟨q, hq, h⟩ := Option.bind_eq_some_iff.mp h
    have htrue := handle_true hvalid hcca hq
    have hlists := handle_lists hq
    obtain ⟨q1, q2⟩ := q
    obtain rfl : q2 = true := htrue
    obtain ⟨hp, hignore, hchannels⟩ := ih (fun s hs => hstas s (List.mem_cons_of_mem _ hs)) h
    exact ⟨hp, hignore.trans hlists.1, hchannels.trans hlists.2⟩

theorem maskOf_valid (l : List UInt8) (hl : ∀ n ∈ l, channelValid w n.toNat = true) (old : Nat → Bool) :
    maskOf w l old ≠ some none := by
  induction l generalizing old with
  | nil => exact nofun
  | cons a l ih =>
    have hrest := ih (fun n hn => hl n (List.mem_cons_of_mem _ hn)) (setAt old (a.toNat - 1) true)
    unfold maskOf at *
    rw [List.foldlM_cons]
    dsimp only
    rw [if_neg (by simp [hl a List.mem_cons_self])]
    by_cases hlt : a.toNat - 1 < maxScanChannelIndex
    · rw [if_pos hlt]
      exact hrest
    · rw [if_neg hlt]
      exact nofun

theorem turns_outside (hc : maxScanChannelIndex < c.hwValue) (l : List Channel) (hl : c ∈ l) (p : Pick) :
    l.foldlM (turn w weight busy ignore allowed) p = none := by
  induction l generalizing p with
  | nil => exact absurd hl List.not_mem_nil
  | cons a l ih =>
    rw [List.foldlM_cons]
    rcases List.mem_cons.mp hl with rfl | hl
    · have hentry : entry busy c.hwValue = none := if_neg (by omega)
      unfold turn
      rw [hentry]
      rfl
    · cases turn w weight busy ignore allowed p a with
      | none => rfl
      | some q => exact ih hl q

theorem autoSelect_full5g (hb : w.build = .full5g) (busy : Nat → UInt8) (stas : List ScanSta) (r : SelectResults)
    (hstas : ∀ sta ∈ stas, channelValid w sta.channel.toNat = true ∧ sta.cca = true)
    (hignore : ∀ n ∈ r.ignoreChannels, channelValid w n.toNat = true)
    (hchannels : ∀ n ∈ r.channels, channelValid w n.toNat = true) : autoSelect w busy stas r = none := by
  have hmem : chan5g 100 ∈ w.channels := by
    unfold Wiphy.channels
    rw [hb]
    decide
  unfold autoSelect
  cases hreq : reqResults w r stas with
  | none => rfl
  | some q =>
    obtain ⟨htrue, hig, hch⟩ := reqResults_true stas hstas hreq
    rw [Option.bind_eq_bind, Option.bind_some]
    dsimp only
    rw [if_neg (by simp [htrue])]
    rw [← hig] at hignore
    rw [← hch] at hchannels
    cases hi : maskOf w q.1.ignoreChannels (fun _ => false) with
    | none => rfl
    | some mi =>
      cases mi with
      | none => exact absurd hi (maskOf_valid _ hignore _)
      | some ignore =>
        cases ha : maskOf w q.1.channels (fun _ => q.1.channels.isEmpty) with
        | none => simp [ha]
        | some ma =>
          cases ma with
          | none => exact absurd ha (maskOf_valid _ hchannels _)
          | some allowed =>
            have hnone : w.channels.foldlM (turn w q.1.weight busy ignore allowed) Pick.start = none :=
              turns_outside (by decide : maxScanChannelIndex < (chan5g 100).hwValue) w.channels hmem Pick.start
            simp [ha, hnone]

theorem pick_congr {weight weight' ratio : Nat → Nat} {l : List Nat} (h : ∀ e ∈ l, weight e = weight' e) :
    pick weight ratio l = pick weight' ratio l := by
  unfold pick
  apply List.foldl_ext
  intro p e he
  unfold Pick.consider
  rw [h e he]

theorem eligible_pos (hb : w.build ≠ .full5g) (busy : Nat → UInt8) (r : SelectResults) :
    ∀ e ∈ eligible w busy r, e ≠ 0 := by
  intro e he
  obtain ⟨c, hc, rfl⟩ := List.mem_map.mp he
  have hlo := (freq_le hb (List.mem_filter.mp hc).1).2.1
  omega

/-- The channel is found exactly when there is an eligible one, it is the best of these, and the weights are sums that do
not depend on the order of the results. -/
structure AutoSelected (w : Wiphy) (busy : Nat → UInt8) (stas : List ScanSta) (r : SelectResults) (out : Selected) : Prop where
  found : out.ok = true ↔ eligible w busy r ≠ []
  best : out.ok = true → Best (fun n => (grown w r stas n).toNat) (fun n => (busy (n - 1)).toNat) (eligible w busy r)
    out.results.susgestChannel
  weights : ∀ stas' : List ScanSta, stas.Perm stas' → ∀ n, 1 ≤ n → out.results.weight (n - 1) = grown w r stas' n

theorem autoSelect_eq (hb : w.build ≠ .full5g) (busy : Nat → UInt8) (stas : List ScanSta) (r : SelectResults)
    (hstas : ∀ sta ∈ stas, channelValid w sta.channel.toNat = true ∧ sta.cca = true)
    (hignore : ∀ n ∈ r.ignoreChannels, channelValid w n.toNat = true)
    (hchannels : ∀ n ∈ r.channels, channelValid w n.toNat = true) :
    ∃ out, autoSelect w busy stas r = some out ∧ (∀ n, 1 ≤ n → out.results.weight (n - 1) = grown w r stas n) ∧
      (out.ok = true ↔ (pick (fun n => (grown w r stas n).toNat) (fun n => (busy (n - 1)).toNat)
        (eligible w busy r)).channel ≠ 0) ∧
      (out.ok = true → out.results.susgestChannel =
        (pick (fun n => (grown w r stas n).toNat) (fun n => (busy (n - 1)).toNat) (eligible w busy r)).channel) := by
  obtain ⟨r', hreq, hig, hch, hweight⟩ := reqResults_eq hb stas hstas r
  obtain ⟨ignore, hi, hmi⟩ := maskOf_eq hb r.ignoreChannels hignore fun _ => false
  obtain ⟨allowed, ha, hma⟩ := maskOf_eq hb r.channels hchannels fun _ => r.channels.isEmpty
  have hturns : w.channels.foldlM (turn w r'.weight busy ignore allowed) Pick.start =
      some (((w.channels.filter fun c => Eligible w busy r c).map Channel.hwValue).foldl
        (Pick.consider (fun n => (r'.weight (n - 1)).toNat) (fun n => (busy (n - 1)).toNat)) Pick.start) :=
    turns_eq (fun k hk => by simpa using hmi k hk) (fun k hk => by simpa using hma k hk) w.channels
      (fun c hc => (freq_le hb hc).2) Pick.start
  have hpick : ((w.channels.filter fun c => Eligible w busy r c).map Channel.hwValue).foldl
      (Pick.consider (fun n => (r'.weight (n - 1)).toNat) (fun n => (busy (n - 1)).toNat)) Pick.start =
      pick (fun n => (grown w r stas n).toNat) (fun n => (busy (n - 1)).toNat) (eligible w busy r) := by
    show pick (fun n => (r'.weight (n - 1)).toNat) (fun n => (busy (n - 1)).toNat) (eligible w busy r) = _
    apply pick_congr
    intro e he
    have hpos := eligible_pos hb busy r e he
    show (r'.weight (e - 1)).toNat = (grown w r stas e).toNat
    rw [hweight e (by omega)]
  rw [hpick] at hturns
  rw [← hig] at hi
  rw [← hch] at ha
  have hrun : autoSelect w busy stas r = some (if (pick (fun n => (grown w r stas n).toNat)
      (fun n => (busy (n - 1)).toNat) (eligible w busy r)).channel = 0 then ⟨r', false⟩
      else ⟨{ r' with
        busyRatio := fun i => if i < maxScanChannelIndex then busy i else r'.busyRatio i
        susgestChannel := (pick (fun n => (grown w r stas n).toNat) (fun n => (busy (n - 1)).toNat)
          (eligible w busy r)).channel }, true⟩) := by
    unfold autoSelect
    rw [hreq, Option.bind_eq_bind, Option.bind_some]
    dsimp only
    rw [if_neg (by decide), hi]
    simp only [Option.bind_eq_bind, Option.bind_some, ha, hturns]
    split
    · rfl
    · rfl
  refine ⟨_, hrun, ?_⟩
  by_cases h0 : (pick (fun n => (grown w r stas n).toNat) (fun n => (busy (n - 1)).toNat) (eligible w busy r)).channel = 0
  · rw [if_pos h0]
    exact ⟨hweight, ⟨nofun, fun h => absurd h0 h⟩, nofun⟩
  · rw [if_neg h0]
    exact ⟨hweight, ⟨fun _ => h0, fun _ => rfl⟩, fun _ => rfl⟩

/-- A network on channel 1 and one on channel 3, with channels 1, 6 and 11 measured. -/
def twoNetworks : List ScanSta := [⟨1, -40, true⟩, ⟨3, -70, true⟩]

def measured : Nat → UInt8 := fun i => if i = 0 then 20 else if i = 5 then 30 else if i = 10 then 110 else 0

def fresh : SelectResults := ⟨fun _ => 0, fun _ => 0, fun _ => 0, 0, [], [], 1⟩

end ChannelSelect

end AtbmWifi
