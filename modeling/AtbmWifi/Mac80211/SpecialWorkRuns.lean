import AtbmWifi.Mac80211.SpecialWork

/-!
# Runs of the work for special requests

`SpecialSound` is what is wanted of a state: every buffer freed once, every request kept to the interface it was made
for, and every extra IE the last one set, a single element.  `special_sound_iff`: it holds all along a
run exactly when every turn of the work meets `SpecialOk`.
-/

namespace AtbmWifi

open Memory Transition

def SpecialState.lastSet (s : SpecialState) (i : Nat) (kind : ExtraKind) : Option (List UInt8) :=
  ((s.sets.filter fun x => x.iface = i ∧ x.kind = kind).getLast?).map (·.ie)

/-- Nothing, or an element that announces the bytes that follow. -/
def SingleElement (ie : List UInt8) : Prop := ie = [] ∨ ∃ eid len body, ie = eid :: len :: body ∧ len.toNat = body.length

structure SpecialSound (s : SpecialState) : Prop where
  freed : ∀ n < s.nextId, (s.freed ++ s.queue.map (·.id)).count n = 1
  own : ∀ a ∈ s.acts, a.iface = a.made ∧ a.running = true
  stored : ∀ i f kind ie, s.ifaces i = some f → f.extra kind = some ie → s.lastSet i kind = some ie ∧ SingleElement ie

/-- The turn finds the interface of its request, or has found none before; and an IE that takes effect has at most
255 bytes. -/
def SpecialOk (s : SpecialState) : SpecialAction → Prop
  | .turn alloc => ∀ skb ∈ s.queue.head?, (s.found skb = true ∨ s.work = some none) ∧
      (s.found skb = true → ∀ f kind ie, s.ifaces skb.sdata = some f → skb.request = .update kind ie →
        f.takes kind = true → alloc = true → ie.length ≤ 257)
  | _ => True

structure SpecialInv (s : SpecialState) : Prop where
  ids : ∀ n ∈ s.freed ++ s.queue.map (·.id), n < s.nextId
  element : ∀ skb ∈ s.queue, ∀ kind ie, skb.request = .update kind ie →
    ie = [] ∨ ∃ eid body, ie = eid :: UInt8.ofNat body.length :: body

section
variable {s : SpecialState} {valid : UInt8 → Bool}

theorem singleElement_length {ie : List UInt8} (h : SingleElement ie) : ie.length ≤ 257 := by
  rcases h with rfl | ⟨eid, len, body, rfl, hlen⟩
  · exact Nat.zero_le _
  · have := len.toNat_lt
    rw [List.length_cons, List.length_cons]
    omega

theorem singleElement_of_length {ie : List UInt8} (h : ie = [] ∨ ∃ eid body, ie = eid :: UInt8.ofNat body.length :: body)
    (hlen : ie.length ≤ 257) : SingleElement ie := by
  rcases h with rfl | ⟨eid, body, rfl⟩
  · exact .inl rfl
  · rw [List.length_cons, List.length_cons] at hlen
    refine .inr ⟨eid, _, body, rfl, ?_⟩
    exact UInt8.toNat_ofNat_of_lt' (by show body.length < 256; omega)

theorem lastSet_set (l : List ExtraSet) (i : Nat) (kind : ExtraKind) (ie : List UInt8) (h : s.sets = l ++ [⟨i, kind, ie⟩]) :
    s.lastSet i kind = some ie := by
  unfold SpecialState.lastSet
  rw [h, List.filter_append, List.filter_cons_of_pos (by simp), List.filter_nil, List.getLast?_concat]
  rfl

theorem lastSet_other {t : SpecialState} {i j : Nat} {kind kind' : ExtraKind} {ie : List UInt8}
    (h : t.sets = s.sets ++ [⟨i, kind, ie⟩]) (hne : ¬(j = i ∧ kind' = kind)) : t.lastSet j kind' = s.lastSet j kind' := by
  unfold SpecialState.lastSet
  rw [h, List.filter_append, List.filter_cons_of_neg, List.filter_nil, List.append_nil]
  intro heq
  rw [decide_eq_true_eq] at heq
  exact hne ⟨heq.1.symm, heq.2.symm⟩

theorem accept_element {call : SpecialCall} {f : SpecialSdata} {kind : ExtraKind} {ie : List UInt8}
    (h : call.accept valid f = some (.update kind ie)) :
    ie = [] ∨ ∃ eid body, ie = eid :: UInt8.ofNat body.length :: body := by
  have hupdate : ∀ (k : ExtraKind) (eid : UInt8) (arg : ArgBuf), updateSpecialIe k eid arg = .update kind ie →
      ie = [] ∨ ∃ eid body, ie = eid :: UInt8.ofNat body.length :: body := by
    intro k eid arg heq
    unfold updateSpecialIe at heq
    split at heq
    · cases heq
      exact .inr ⟨_, _, rfl⟩
    · cases heq
      exact .inl rfl
  cases call with
  | apUpdateSpecialBeacon arg => exact hupdate _ _ _ (Option.some.inj (Option.ite_none_right_eq_some.mp h).2)
  | apUpdateSpecialProbeResponse arg => exact hupdate _ _ _ (Option.some.inj (Option.ite_none_right_eq_some.mp h).2)
  | apUpdateSpecialProbeRequest arg => exact hupdate _ _ _ (Option.some.inj (Option.ite_none_right_eq_some.mp h).2)
  | apUpdateVendorProbeRequest arg => exact hupdate _ _ _ (Option.some.inj (Option.ite_none_right_eq_some.mp h).2)
  | staTrigerPassiveScan channels =>
    have := (Option.ite_none_right_eq_some.mp h).2
    cases this
  | staTrigerPositiveScan channels ssid body bssid =>
    have := (Option.ite_none_right_eq_some.mp h).2
    cases this

theorem sound_ifaces {g : Nat → Option SpecialSdata} (hs : SpecialSound s)
    (hg : ∀ i f kind ie, g i = some f → f.extra kind = some ie → ∃ f', s.ifaces i = some f' ∧ f'.extra kind = some ie) :
    SpecialSound { s with ifaces := g } := by
  refine ⟨hs.freed, hs.own, ?_⟩
  intro i f kind ie hi hie
  obtain ⟨f', hf', hie'⟩ := hg i f kind ie hi hie
  exact hs.stored i f' kind ie hf' hie'

theorem sound_onIface {g : SpecialSdata → SpecialSdata} (hs : SpecialSound s) (i : Nat)
    (hg : ∀ f kind ie, (g f).extra kind = some ie → f.extra kind = some ie) :
    SpecialSound (SpecialAction.onIface s i g) := by
  apply sound_ifaces hs
  intro j f kind ie hj hie
  by_cases hji : j = i
  · subst hji
    rw [setAt_self] at hj
    cases hf : s.ifaces j with
    | none =>
      rw [hf] at hj
      cases hj
    | some f' =>
      rw [hf] at hj
      cases hj
      exact ⟨f', rfl, hg f' kind ie hie⟩
  · rw [setAt_of_ne hji] at hj
    exact ⟨f, hj, hie⟩

theorem actOn_frame (s : SpecialState) (i : Nat) (alloc : Bool) (r : SpecialRequest) :
    ∃ ifaces sets scans, actOn s i alloc r = { s with ifaces := ifaces, sets := sets, scans := scans } := by
  cases r with
  | scan positive scan => exact ⟨_, _, _, rfl⟩
  | update kind ie =>
    unfold actOn
    dsimp only
    cases s.ifaces i with
    | none => exact ⟨_, _, _, rfl⟩
    | some f => exact ⟨_, _, _, rfl⟩

theorem actOn_update {i : Nat} {alloc : Bool} {kind : ExtraKind} {ie : List UInt8} {f : SpecialSdata}
    (hi : s.ifaces i = some f) :
    ((f.takes kind && alloc) = true ∧ actOn s i alloc (.update kind ie) =
        { s with
          ifaces := setAt s.ifaces i (some { f with extra := setAt f.extra kind (some ie) })
          sets := s.sets ++ [⟨i, kind, ie⟩] }) ∨
      ((f.takes kind && alloc) = false ∧ actOn s i alloc (.update kind ie) = { s with ifaces := setAt s.ifaces i (some f) }) := by
  unfold actOn
  dsimp only
  rw [hi]
  dsimp only
  have hset : (if ie.isEmpty = true then clearExtraIe f kind alloc else updataExtraIe f kind ie alloc) =
      if (f.takes kind && alloc) = true then (true, { f with extra := setAt f.extra kind (some ie) }) else (false, f) := by
    unfold clearExtraIe updataExtraIe
    cases ie with
    | nil => cases f.takes kind <;> cases alloc <;> rfl
    | cons x ie => cases f.takes kind <;> cases alloc <;> rfl
  rw [hset]
  cases h : f.takes kind && alloc with
  | true => exact .inl ⟨rfl, rfl⟩
  | false => exact .inr ⟨rfl, rfl⟩

def SpecialState.taken (s : SpecialState) (skb : SpecialSkb) (rest : List SpecialSkb) (sdata : Option Nat) : SpecialState :=
  { s with queue := rest, work := some sdata, freed := s.freed ++ [skb.id] }

/-- The state after a request that was processed on the interface `i` -/
def SpecialState.acted (s : SpecialState) (skb : SpecialSkb) (rest : List SpecialSkb) (i : Nat) (alloc : Bool) :
    SpecialState :=
  { actOn (s.taken skb rest (some i)) i alloc skb.request with acts := s.acts ++ [⟨i, skb.sdata, s.found skb⟩] }

inductive TurnPost (s : SpecialState) (alloc : Bool) : SpecialState → Prop
  | done : s.queue = [] → TurnPost s alloc { s with work := none }
  | dropped {skb : SpecialSkb} {rest : List SpecialSkb} : s.queue = skb :: rest → s.found skb = false →
      s.work.join = none → TurnPost s alloc (s.taken skb rest none)
  | own {skb : SpecialSkb} {rest : List SpecialSkb} : s.queue = skb :: rest → s.found skb = true →
      TurnPost s alloc (s.acted skb rest skb.sdata alloc)
  | stale {skb : SpecialSkb} {rest : List SpecialSkb} {i : Nat} : s.queue = skb :: rest → s.found skb = false →
      s.work.join = some i → TurnPost s alloc (s.acted skb rest i alloc)

theorem specialWork_post (s : SpecialState) (alloc : Bool) : TurnPost s alloc (specialWork s alloc) := by
  unfold specialWork
  split
  case h_1 hq => exact .done hq
  case h_2 skb rest hq =>
    cases hf : s.found skb with
    | true =>
      have := @TurnPost.own s alloc _ _ hq hf
      unfold SpecialState.acted at this
      rw [hf] at this
      exact this
    | false =>
      cases hw : s.work.join with
      | none => exact .dropped hq hf hw
      | some i =>
        have := @TurnPost.stale s alloc _ _ _ hq hf hw
        unfold SpecialState.acted at this
        rw [hf] at this
        exact this

theorem acted_frame (s : SpecialState) (skb : SpecialSkb) (rest : List SpecialSkb) (i : Nat) (alloc : Bool) :
    ∃ ifaces sets scans, s.acted skb rest i alloc =
      { s.taken skb rest (some i) with
        ifaces := ifaces, sets := sets, scans := scans, acts := s.acts ++ [⟨i, skb.sdata, s.found skb⟩] } := by
  obtain ⟨ifaces, sets, scans, h⟩ := actOn_frame (s.taken skb rest (some i)) i alloc skb.request
  refine ⟨ifaces, sets, scans, ?_⟩
  unfold SpecialState.acted
  rw [h]

variable {skb : SpecialSkb} {rest : List SpecialSkb}

theorem ids_taken (hq : s.queue = skb :: rest) :
    s.freed ++ [skb.id] ++ rest.map (·.id) = s.freed ++ s.queue.map (·.id) := by
  rw [hq, List.append_assoc]
  rfl

theorem inv_taken (hq : s.queue = skb :: rest) (hs : SpecialInv s) (sdata : Option Nat) :
    SpecialInv (s.taken skb rest sdata) := by
  refine ⟨fun n hn => ?_, fun k hk => ?_⟩
  · change n ∈ s.freed ++ [skb.id] ++ rest.map (·.id) at hn
    rw [ids_taken hq] at hn
    exact hs.ids n hn
  · exact hs.element k (by rw [hq]; exact List.mem_cons_of_mem _ hk)

theorem inv_turn (hs : SpecialInv s) (alloc : Bool) : SpecialInv (specialWork s alloc) := by
  have hacted : ∀ {skb rest i}, s.queue = skb :: rest → SpecialInv (s.acted skb rest i alloc) := by
    intro skb rest i hq
    obtain ⟨ifaces, sets, scans, h⟩ := acted_frame s skb rest i alloc
    rw [h]
    have := inv_taken hq hs (some i)
    exact ⟨this.ids, this.element⟩
  have hpost := specialWork_post s alloc
  generalize specialWork s alloc = t at hpost ⊢
  cases hpost with
  | done hq => exact ⟨hs.ids, hs.element⟩
  | dropped hq hf hw => exact inv_taken hq hs none
  | own hq hf => exact hacted hq
  | stale hq hf hw => exact hacted hq

theorem sound_taken (hq : s.queue = skb :: rest) (hs : SpecialSound s) (sdata : Option Nat) :
    SpecialSound (s.taken skb rest sdata) := by
  refine ⟨fun n hn => ?_, hs.own, hs.stored⟩
  change (s.freed ++ [skb.id] ++ rest.map (·.id)).count n = 1
  rw [ids_taken hq]
  exact hs.freed n hn

theorem found_iface (h : s.found skb = true) : ∃ f, s.ifaces skb.sdata = some f ∧ f.running = true := by
  unfold SpecialState.found at h
  cases hi : s.ifaces skb.sdata with
  | none =>
    rw [hi] at h
    cases h
  | some f =>
    rw [hi] at h
    exact ⟨f, rfl, h⟩

theorem sound_acts {a : SpecialAct} (hs : SpecialSound s) (ha : a.iface = a.made ∧ a.running = true) :
    SpecialSound { s with acts := s.acts ++ [a] } := by
  refine ⟨hs.freed, fun b hb => ?_, hs.stored⟩
  rcases List.mem_append.mp hb with hb | hb
  · exact hs.own b hb
  · rw [List.mem_singleton.mp hb]
    exact ha

theorem sound_set {i : Nat} {f : SpecialSdata} {kind : ExtraKind} {ie : List UInt8} (hs : SpecialSound s)
    (hi : s.ifaces i = some f) (hie : SingleElement ie) :
    SpecialSound { s with
      ifaces := setAt s.ifaces i (some { f with extra := setAt f.extra kind (some ie) })
      sets := s.sets ++ [⟨i, kind, ie⟩] } := by
  refine ⟨hs.freed, hs.own, fun j g kind' ie' hj hg => ?_⟩
  by_cases hsame : j = i ∧ kind' = kind
  · obtain ⟨rfl, rfl⟩ := hsame
    change setAt s.ifaces j _ j = some g at hj
    rw [setAt_self] at hj
    cases hj
    change setAt f.extra kind' (some ie) kind' = some ie' at hg
    rw [setAt_self] at hg
    cases hg
    exact ⟨lastSet_set s.sets j kind' ie rfl, hie⟩
  · rw [lastSet_other (s := s) rfl hsame]
    by_cases hji : j = i
    · subst hji
      change setAt s.ifaces j _ j = some g at hj
      rw [setAt_self] at hj
      cases hj
      have hk : kind' ≠ kind := fun h => hsame ⟨rfl, h⟩
      change setAt f.extra kind (some ie) kind' = some ie' at hg
      rw [setAt_of_ne hk] at hg
      exact hs.stored j f kind' ie' hi hg
    · change setAt s.ifaces i _ j = some g at hj
      rw [setAt_of_ne hji] at hj
      exact hs.stored j g kind' ie' hj hg

theorem actOn_acts (s : SpecialState) (i : Nat) (alloc : Bool) (r : SpecialRequest) : (actOn s i alloc r).acts = s.acts := by
  obtain ⟨ifaces, sets, scans, h⟩ := actOn_frame s i alloc r
  rw [h]

/-- An IE that takes effect fits its length byte. -/
def SpecialFits (s : SpecialState) (skb : SpecialSkb) (alloc : Bool) : Prop :=
  ∀ f kind ie, s.ifaces skb.sdata = some f → skb.request = .update kind ie → f.takes kind = true → alloc = true →
    ie.length ≤ 257

theorem sound_own (hq : s.queue = skb :: rest) (hf : s.found skb = true) (hI : SpecialInv s) (hs : SpecialSound s)
    {alloc : Bool} (hfits : SpecialFits s skb alloc) : SpecialSound (s.acted skb rest skb.sdata alloc) := by
  have ht := sound_taken hq hs (some skb.sdata)
  obtain ⟨f, hi, -⟩ := found_iface hf
  have hact : SpecialSound (actOn (s.taken skb rest (some skb.sdata)) skb.sdata alloc skb.request) := by
    cases hr : skb.request with
    | scan positive scan => exact ⟨ht.freed, ht.own, ht.stored⟩
    | update kind ie =>
      rcases @actOn_update (s.taken skb rest (some skb.sdata)) skb.sdata alloc kind ie f hi with
        ⟨htakes, h⟩ | ⟨-, h⟩
      · rw [h]
        obtain ⟨htakes, halloc⟩ := (Bool.and_eq_true _ _).mp htakes
        have helement := hI.element skb (by rw [hq]; exact List.mem_cons_self) kind ie hr
        exact sound_set ht hi (singleElement_of_length helement (hfits f kind ie hi hr htakes halloc))
      · rw [h]
        apply sound_ifaces ht
        intro j g kind' ie' hj hg
        by_cases hji : j = skb.sdata
        · subst hji
          rw [setAt_self] at hj
          cases hj
          exact ⟨f, hi, hg⟩
        · rw [setAt_of_ne hji] at hj
          exact ⟨g, hj, hg⟩
  have := sound_acts hact (a := ⟨skb.sdata, skb.sdata, s.found skb⟩) ⟨rfl, hf⟩
  rw [actOn_acts] at this
  exact this

theorem fits_of_sound (hf : s.found skb = true) {alloc : Bool} (h : SpecialSound (s.acted skb rest skb.sdata alloc)) :
    SpecialFits s skb alloc := by
  intro f kind ie hi hr htakes halloc
  have hset : (s.acted skb rest skb.sdata alloc).ifaces skb.sdata =
      some { f with extra := setAt f.extra kind (some ie) } := by
    show (actOn (s.taken skb rest (some skb.sdata)) skb.sdata alloc skb.request).ifaces skb.sdata = _
    rw [hr]
    rcases @actOn_update (s.taken skb rest (some skb.sdata)) skb.sdata alloc kind ie f hi with
      ⟨-, h⟩ | ⟨hnot, -⟩
    · rw [h]
      exact setAt_self _ _ _
    · rw [htakes, halloc] at hnot
      cases hnot
  exact singleElement_length (h.stored skb.sdata _ kind ie hset (setAt_self _ _ _)).2

theorem sound_turn (hI : SpecialInv s) (hs : SpecialSound s) {alloc : Bool} (hok : SpecialOk s (.turn alloc)) :
    SpecialSound (specialWork s alloc) := by
  have hpost := specialWork_post s alloc
  generalize specialWork s alloc = t at hpost ⊢
  cases hpost with
  | done hq => exact ⟨hs.freed, hs.own, hs.stored⟩
  | dropped hq hf hw => exact sound_taken hq hs none
  | @own skb rest hq hf => exact sound_own hq hf hI hs ((hok skb (by rw [hq]; rfl)).2 hf)
  | @stale skb rest i hq hf hw =>
    rcases (hok skb (by rw [hq]; rfl)).1 with hfound | hnone
    · rw [hf] at hfound
      cases hfound
    · rw [hnone] at hw
      cases hw

theorem ok_of_sound {alloc : Bool} (hen : s.work.isSome = true) (h : SpecialSound (specialWork s alloc)) :
    SpecialOk s (.turn alloc) := by
  intro skb hskb
  have hhead : ∀ {k rest}, s.queue = k :: rest → k = skb := by
    intro k rest hq
    rw [hq] at hskb
    exact Option.some.inj hskb
  have hpost := specialWork_post s alloc
  generalize specialWork s alloc = t at hpost h
  cases hpost with
  | done hq =>
    rw [hq] at hskb
    cases hskb
  | dropped hq hf hw =>
    obtain rfl := hhead hq
    obtain ⟨w, hw'⟩ := Option.isSome_iff_exists.mp hen
    rw [hw'] at hw
    refine ⟨.inr (by rw [hw']; exact congrArg some hw), fun hfound => ?_⟩
    rw [hf] at hfound
    cases hfound
  | own hq hf =>
    obtain rfl := hhead hq
    exact ⟨.inl hf, fun _ => fits_of_sound hf h⟩
  | @stale k rest i hq hf hw =>
    have hrun := (h.own ⟨i, k.sdata, s.found k⟩ (List.mem_append_right _ (List.mem_singleton.mpr rfl))).2
    rw [hf] at hrun
    cases hrun

theorem inv_request (hs : SpecialInv s) (i : Nat) {f : SpecialSdata} {call : SpecialCall} {r : SpecialRequest}
    (hacc : call.accept valid f = some r) :
    SpecialInv { s with queue := s.queue ++ [⟨s.nextId, i, r⟩], nextId := s.nextId + 1 } := by
  refine ⟨fun n hn => ?_, fun k hk kind ie hreq => ?_⟩
  · rw [List.map_append, ← List.append_assoc] at hn
    rcases List.mem_append.mp hn with hn | hn
    · exact Nat.lt_succ_of_lt (hs.ids n hn)
    · rw [List.mem_singleton.mp hn]
      exact Nat.lt_succ_self _
  · rcases List.mem_append.mp hk with hk | hk
    · exact hs.element k hk kind ie hreq
    · rw [List.mem_singleton.mp hk] at hreq
      change r = _ at hreq
      subst hreq
      exact accept_element hacc

theorem inv_next {a : SpecialAction} (hs : SpecialInv s) : SpecialInv (a.next valid s) := by
  have hkeep : ∀ {t : SpecialState}, t.nextId = s.nextId → t.queue = s.queue → t.freed = s.freed → SpecialInv t := by
    intro t hid hq hfreed
    refine ⟨?_, ?_⟩
    · rw [hid, hq, hfreed]
      exact hs.ids
    · rw [hq]
      exact hs.element
  cases a with
  | request i call alloc =>
    unfold SpecialAction.next
    dsimp only
    cases hr : (s.ifaces i).bind fun f => call.accept valid f with
    | none => exact hs
    | some r =>
      obtain ⟨f, -, hacc⟩ := Option.bind_eq_some_iff.mp hr
      cases alloc with
      | false => exact hs
      | true => exact inv_request hs i hacc
  | turn alloc => exact inv_turn hs alloc
  | purge =>
    refine ⟨fun n hn => hs.ids n ?_, nofun⟩
    rw [← List.append_nil (s.freed ++ s.queue.map (·.id))]
    exact hn
  | start => exact hkeep rfl rfl rfl
  | up i => exact hkeep rfl rfl rfl
  | down i => exact hkeep rfl rfl rfl
  | remove i => exact hkeep rfl rfl rfl
  | changeType i type runs => exact hkeep rfl rfl rfl
  | addBeacon i => exact hkeep rfl rfl rfl
  | delBeacon i => exact hkeep rfl rfl rfl

theorem stop_extra {f : SpecialSdata} {kind : ExtraKind} {ie : List UInt8} (h : f.stop.extra kind = some ie) :
    f.extra kind = some ie := by
  cases kind
  all_goals
    change (if _ then none else _) = some ie at h
    exact (Option.ite_none_left_eq_some.mp h).2

theorem delBeacon_extra {f : SpecialSdata} {kind : ExtraKind} {ie : List UInt8} (h : f.delBeacon.extra kind = some ie) :
    f.extra kind = some ie := by
  by_cases hk : kind = .beacon
  · subst hk
    change setAt f.extra .beacon none .beacon = some ie at h
    rw [setAt_self] at h
    cases h
  · change setAt f.extra .beacon none kind = some ie at h
    rwa [setAt_of_ne hk] at h

theorem sound_request (hI : SpecialInv s) (hs : SpecialSound s) (i : Nat) (r : SpecialRequest) :
    SpecialSound { s with queue := s.queue ++ [⟨s.nextId, i, r⟩], nextId := s.nextId + 1 } := by
  refine ⟨fun n hn => ?_, hs.own, hs.stored⟩
  change (s.freed ++ List.map SpecialSkb.id (s.queue ++ [⟨s.nextId, i, r⟩])).count n = 1
  rw [List.map_append, ← List.append_assoc, List.count_append]
  rcases Nat.lt_succ_iff_lt_or_eq.mp hn with hn | rfl
  · rw [hs.freed n hn, List.count_eq_zero_of_not_mem]
    intro hmem
    rw [List.mem_singleton.mp hmem] at hn
    exact Nat.lt_irrefl _ hn
  · rw [List.count_eq_zero_of_not_mem, List.map_singleton, List.count_singleton_self]
    intro hmem
    exact Nat.lt_irrefl _ (hI.ids _ hmem)

theorem sound_next {a : SpecialAction} (hI : SpecialInv s) (hs : SpecialSound s) (hok : SpecialOk s a) :
    SpecialSound (a.next valid s) := by
  cases a with
  | request i call alloc =>
    unfold SpecialAction.next
    dsimp only
    split
    · exact hs
    · split
      · exact sound_request hI hs i _
      · exact hs
  | start => exact ⟨hs.freed, hs.own, hs.stored⟩
  | turn alloc => exact sound_turn hI hs hok
  | up i => exact sound_onIface hs i fun f kind ie h => h
  | down i => exact sound_onIface hs i fun f kind ie h => stop_extra h
  | remove i =>
    apply sound_ifaces hs
    intro j f kind ie hj hie
    by_cases hji : j = i
    · subst hji
      rw [setAt_self] at hj
      cases hj
    · rw [setAt_of_ne hji] at hj
      exact ⟨f, hj, hie⟩
  | changeType i type runs => exact sound_onIface hs i fun f kind ie h => by cases h
  | addBeacon i => exact sound_onIface hs i fun f kind ie h => h
  | delBeacon i => exact sound_onIface hs i fun f kind ie h => delBeacon_extra h
  | purge =>
    refine ⟨fun n hn => ?_, hs.own, hs.stored⟩
    change (s.freed ++ List.map SpecialSkb.id s.queue ++ []).count n = 1
    rw [List.append_nil]
    exact hs.freed n hn

theorem ok_of_next {a : SpecialAction} (hen : a.Enabled s) (h : SpecialSound (a.next valid s)) : SpecialOk s a := by
  cases a with
  | turn alloc => exact ok_of_sound hen h
  | request | start | up | down | remove | changeType | addBeacon | delBeacon | purge => trivial

theorem SpecialState.Start.inv (h : s.Start) : SpecialInv s := by
  refine ⟨?_, ?_⟩
  · rw [h.freed, h.queue]
    nofun
  · rw [h.queue]
    nofun

theorem SpecialState.Start.sound (h : s.Start) : SpecialSound s := by
  refine ⟨?_, ?_, fun i f kind ie hi hie => ?_⟩
  · rw [h.nextId]
    nofun
  · rw [h.acts]
    nofun
  · rw [h.extra i f hi kind] at hie
    cases hie

end

/-- **Special requests.**  Along a run every buffer is freed once, every request acts only on the interface it was made
for, running, and every extra IE is the last one that took effect, a single element, exactly when every turn of the work
meets `SpecialOk`. -/
theorem special_sound_iff {valid : UInt8 → Bool} {s t : SpecialState} {l : List (SpecialState × SpecialAction)}
    (h : Path (specialSys valid) s l t) (hs : s.Start) :
    ((∀ p ∈ l, SpecialSound p.1) ∧ SpecialSound t) ↔ ∀ p ∈ l, SpecialOk p.1 p.2 := by
  refine h.exact (I := SpecialInv) ?_ ?_ hs.inv hs.sound
  · rintro s a t hI hP ⟨-, rfl⟩ hC
    exact ⟨inv_next hI, sound_next hI hP hC⟩
  · rintro s a t hI hP ⟨hen, rfl⟩ ht
    exact ok_of_next hen ht

def twoAps : SpecialState where
  ifaces i := if i < 2 then some ⟨true, .ap, true, fun _ => none⟩ else none
  queue := []
  work := none
  nextId := 0
  freed := []
  acts := []
  sets := []
  scans := []

theorem twoAps_start : twoAps.Start where
  extra i f hi kind := by
    change (if i < 2 then some _ else none) = some f at hi
    obtain ⟨-, hf⟩ := Option.ite_none_right_eq_some.mp hi
    cases hf
    rfl
  queue := rfl
  work := rfl
  nextId := rfl
  freed := rfl
  acts := rfl
  sets := rfl
  scans := rfl

theorem special_sound_twoAps :
    SpecialSound ([.request 1 (.apUpdateSpecialBeacon ⟨true, [5]⟩) true, .start, .turn true].foldl
      (SpecialAction.next fun _ => true) twoAps) := by
  have hfires : Fires SpecialAction.Enabled (SpecialAction.next fun _ => true) twoAps
      [.request 1 (.apUpdateSpecialBeacon ⟨true, [5]⟩) true, .start, .turn true] := by decide
  refine ((special_sound_iff (Path.ofFires hfires) twoAps_start).mpr fun p hp => ?_).2
  rcases List.mem_cons.mp hp with rfl | hp
  · trivial
  rcases List.mem_cons.mp hp with rfl | hp
  · trivial
  rw [List.mem_singleton.mp hp]
  intro skb hskb
  obtain rfl := Option.some.inj hskb
  refine ⟨.inl rfl, fun _ f kind ie hi hr _ _ => ?_⟩
  cases hr
  decide

theorem special_stale : ¬∀ (valid : UInt8 → Bool) (s t : SpecialState) (l : List (SpecialState × SpecialAction)),
    Path (specialSys valid) s l t → s.Start → SpecialSound t := by
  intro h
  have hfires : Fires SpecialAction.Enabled (SpecialAction.next fun _ => true) twoAps
      [.request 0 (.apUpdateSpecialBeacon ⟨true, [5]⟩) true, .request 1 (.apUpdateSpecialBeacon ⟨true, [6]⟩) true,
        .down 1, .start, .turn true, .turn true] := by decide
  have hacts := (h _ _ _ _ (Path.ofFires hfires) twoAps_start).own ⟨0, 1, false⟩ (by decide)
  exact Bool.false_ne_true hacts.2

end AtbmWifi
