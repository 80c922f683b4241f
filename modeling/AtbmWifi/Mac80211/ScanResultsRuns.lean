import AtbmWifi.Mac80211.ScanResults

/-!
# Runs over the table of internal scan results

The accounts of nodes and of special-IE buffers are kept apart (`NodeLedger`, `IeLedger`), and so is what a reader relies on
while the lock is dropped (`ReaderOk`).

* `scanTable_good`: in every run of clean steps every state is good.
-/

namespace AtbmWifi

open Transition Cursor

namespace ScanTable

structure NodeLedger (linked : List Nat) (held : Nat → Option Nat) (freed : List Nat) (nodes : Nat) : Prop where
  once : OneOwner (linked ++ freed) held
  kept : ∀ n < nodes, n ∈ freed ∨ n ∈ linked ∨ ∃ t, held t = some n
  fresh : ∀ n, n ∈ freed ∨ n ∈ linked ∨ (∃ t, held t = some n) → n < nodes

structure IeLedger (live : Nat → Prop) (s : ScanTable) : Prop where
  once : OneOwner s.freedIes fun n => (s.sta n).ie
  kept : ∀ i < s.ies, i ∈ s.freedIes ∨ ∃ n, live n ∧ (s.sta n).ie = some i
  fresh : ∀ i, (i ∈ s.freedIes ∨ ∃ n, (s.sta n).ie = some i) → i < s.ies
  dead : ∀ n, ¬ live n → (s.sta n).ie = none

/-- What a reader has seen does not come again, and the node it has saved is linked. -/
structure ReaderOk (list : List (List Nat)) (nodes : Nat) (r : ScanReader) : Prop where
  nodup : (r.handed ++ [r.node]).Nodup
  saved : ∀ m, r.next = some m → m ∈ chain list r.hashIndex
  passed : ∀ n ∈ r.handed ++ [r.node], n ∉ ahead list r.hashIndex r.next
  seen : ∀ n ∈ r.handed ++ [r.node], n < nodes

structure Entries (hash : List UInt8 → Fin hashEntries) (s : ScanTable) : Prop where
  chains : s.list.length = hashEntries
  count : s.nResults = s.linked.length
  distinct : ∀ n ∈ s.linked, ∀ m ∈ s.linked,
    (s.sta n).bssid = (s.sta m).bssid → (s.sta n).ssid = (s.sta m).ssid → n = m
  placed : ∀ h n, n ∈ chain s.list h → h = hashIndex hash (s.sta n).ssid

structure Inv (hash : List UInt8 → Fin hashEntries) (s : ScanTable) : Prop where
  entries : s.Entries hash
  nodes : NodeLedger s.linked s.held s.freed s.nodes
  ies : IeLedger s.Live s
  readers : ∀ t r, s.readers t = some r → ReaderOk s.list s.nodes r
  links : s.dangling = false

variable {hash : List UInt8 → Fin hashEntries} {s : ScanTable} {n : Nat}

theorem Inv.good (h : s.Inv hash) : s.Good hash where
  count := h.entries.count
  distinct := h.entries.distinct
  placed := h.entries.placed
  nodeOnce := h.nodes.once
  nodeKept := h.nodes.kept
  ieOnce := h.ies.once
  ieKept := h.ies.kept
  links := h.links
  handed t r hr := (h.readers t r hr).nodup

theorem Inv.nodup (h : s.Inv hash) : s.list.flatten.Nodup := (List.nodup_append.mp h.nodes.once.nodup).1

theorem inv_start (hash : List UInt8 → Fin hashEntries) : scanTableStart.Inv hash := by
  have hl : scanTableStart.linked = [] := by decide
  have hh : ∀ t, scanTableStart.held t = none := fun _ => rfl
  refine ⟨⟨?_, ?_, ?_, ?_⟩, ⟨⟨?_, ?_, ?_⟩, ?_, ?_⟩, ⟨⟨?_, ?_, ?_⟩, ?_, ?_, ?_⟩, ?_, rfl⟩
  · simp [scanTableStart]
  · rw [hl]; rfl
  · simp [hl]
  · intro h n hn
    have : n ∈ scanTableStart.linked := mem_flatten.mpr ⟨h, hn⟩
    simp [hl] at this
  · rw [hl]; simp [scanTableStart]
  · simp [hh]
  · simp [hh]
  · simp [scanTableStart]
  · rintro n (hn | hn | ⟨t, hn⟩)
    · cases hn
    · rw [hl] at hn; cases hn
    · cases hn
  · simp [scanTableStart]
  · simp [scanTableStart, ScanSta.zero]
  · simp [scanTableStart, ScanSta.zero]
  · simp [scanTableStart]
  · simp [scanTableStart, ScanSta.zero]
  · simp [scanTableStart, ScanSta.zero]
  · simp [scanTableStart]

@[simp] theorem freeIe_list : (s.freeIe n).list = s.list := by unfold freeIe; split <;> rfl
@[simp] theorem freeIe_nResults : (s.freeIe n).nResults = s.nResults := by unfold freeIe; split <;> rfl
@[simp] theorem freeIe_readers : (s.freeIe n).readers = s.readers := by unfold freeIe; split <;> rfl
@[simp] theorem freeIe_nodes : (s.freeIe n).nodes = s.nodes := by unfold freeIe; split <;> rfl
@[simp] theorem freeIe_freed : (s.freeIe n).freed = s.freed := by unfold freeIe; split <;> rfl
@[simp] theorem freeIe_ies : (s.freeIe n).ies = s.ies := by unfold freeIe; split <;> rfl
@[simp] theorem freeIe_dangling : (s.freeIe n).dangling = s.dangling := by unfold freeIe; split <;> rfl

@[simp] theorem freeIe_bssid (m : Nat) : ((s.freeIe n).sta m).bssid = (s.sta m).bssid := by
  unfold freeIe
  split
  · by_cases h : m = n
    · subst h; simp
    · simp [h]
  · rfl

@[simp] theorem freeIe_ssid (m : Nat) : ((s.freeIe n).sta m).ssid = (s.sta m).ssid := by
  unfold freeIe
  split
  · by_cases h : m = n
    · subst h; simp
    · simp [h]
  · rfl

theorem freeIe_ie : (fun m => ((s.freeIe n).sta m).ie) = Function.update (fun m => (s.sta m).ie) n none := by
  funext m
  unfold freeIe
  by_cases h : m = n
  · subst h
    split
    · simp
    · next hn => simp [hn]
  · split <;> simp [h]

theorem freeIe_freedIes : (s.freeIe n).freedIes = (s.sta n).ie.toList ++ s.freedIes := by
  unfold freeIe
  split
  · next hn => simp [hn]
  · next hn => simp [hn]

theorem IeLedger.congr {live live' : Nat → Prop} {s' : ScanTable} (h : IeLedger live s) (hs : s'.sta = s.sta)
    (hf : s'.freedIes = s.freedIes) (hi : s'.ies = s.ies) (hl : ∀ n, live' n ↔ live n) : IeLedger live' s' where
  once := by rw [hs, hf]; exact h.once
  kept i h' := by
    rw [hs, hf]
    exact (h.kept i (hi ▸ h')).imp id fun ⟨n, hn, he⟩ => ⟨n, (hl n).mpr hn, he⟩
  fresh i h' := by
    rw [hs, hf] at h'
    exact hi ▸ h.fresh i h'
  dead n hn := by
    rw [hs]
    exact h.dead n fun h => hn ((hl n).mpr h)

theorem IeLedger.freeIe {live : Nat → Prop} (h : IeLedger live s) : IeLedger (fun m => live m ∧ m ≠ n) (s.freeIe n) where
  once := by
    rw [freeIe_ie, freeIe_freedIes]
    cases he : (s.sta n).ie with
    | none =>
      have : Function.update (fun m => (s.sta m).ie) n none = fun m => (s.sta m).ie := by
        rw [Function.update_eq_self_iff, he]
      rw [this]
      exact h.once
    | some i => exact h.once.take he
  kept i hi := by
    rw [freeIe_freedIes]
    rw [freeIe_ies] at hi
    rcases h.kept i hi with hf | ⟨m, hm, he⟩
    · exact .inl (List.mem_append_right _ hf)
    · by_cases hmn : m = n
      · subst hmn
        exact .inl (by simp [he])
      · refine .inr ⟨m, ⟨hm, hmn⟩, ?_⟩
        rw [congrFun freeIe_ie m, Function.update_of_ne hmn]
        exact he
  fresh i hi := by
    rw [freeIe_ies]
    rw [freeIe_freedIes] at hi
    rcases hi with hf | ⟨m, he⟩
    · rcases List.mem_append.mp hf with hf | hf
      · exact h.fresh i (.inr ⟨n, by simpa using hf⟩)
      · exact h.fresh i (.inl hf)
    · rw [congrFun freeIe_ie m] at he
      by_cases hmn : m = n
      · subst hmn; simp at he
      · rw [Function.update_of_ne hmn] at he
        exact h.fresh i (.inr ⟨m, he⟩)
  dead m hm := by
    rw [congrFun freeIe_ie m]
    by_cases hmn : m = n
    · subst hmn; simp
    · rw [Function.update_of_ne hmn]
      exact h.dead m fun h => hm ⟨h, hmn⟩

theorem IeLedger.put {live : Nat → Prop} (h : IeLedger live s) {ies : Nat} {result : ScanSta} (hn : (s.sta n).ie = none)
    (hr : result.ie = none ∧ ies = s.ies ∨ result.ie = some s.ies ∧ ies = s.ies + 1) :
    IeLedger (fun m => live m ∨ m = n) { s with sta := Function.update s.sta n result, ies := ies } := by
  have hie : (fun m => (Function.update s.sta n result m).ie) = Function.update (fun m => (s.sta m).ie) n result.ie := by
    funext m
    by_cases hmn : m = n
    · subst hmn; simp
    · simp [hmn]
  obtain ⟨hr, rfl⟩ | ⟨hr, rfl⟩ := hr
  · have hsame : Function.update (fun m => (s.sta m).ie) n result.ie = fun m => (s.sta m).ie := by
      rw [hr, Function.update_eq_self_iff, hn]
    rw [hsame] at hie
    refine ⟨by dsimp only; rw [hie]; exact h.once, fun i hi => ?_, fun i hi => ?_, fun m hm => ?_⟩
    · exact (h.kept i hi).imp id fun ⟨m, hm, he⟩ => ⟨m, .inl hm, (congrFun hie m).trans he⟩
    · exact h.fresh i (hi.imp id fun ⟨m, he⟩ => ⟨m, (congrFun hie m).symm.trans he⟩)
    · exact (congrFun hie m).trans (h.dead m fun h => hm (.inl h))
  · have hnew : OneOwner (s.ies :: s.freedIes) fun m => (s.sta m).ie :=
      h.once.add (fun hm => Nat.lt_irrefl _ (h.fresh _ (.inl hm))) fun m hm => Nat.lt_irrefl _ (h.fresh _ (.inr ⟨m, hm⟩))
    refine ⟨by dsimp only; rw [hie, hr]; exact hnew.give, fun i hi => ?_, fun i hi => ?_, fun m hm => ?_⟩
    · rcases Nat.lt_succ_iff_lt_or_eq.mp hi with hi | rfl
      · refine (h.kept i hi).imp id fun ⟨m, hm, he⟩ => ⟨m, .inl hm, ?_⟩
        have hmn : m ≠ n := fun h => by rw [h, hn] at he; cases he
        rw [congrFun hie m, Function.update_of_ne hmn]
        exact he
      · exact .inr ⟨n, .inr rfl, by simp [hr]⟩
    · rcases hi with hi | ⟨m, he⟩
      · exact Nat.lt_succ_of_lt (h.fresh i (.inl hi))
      · rw [congrFun hie m] at he
        by_cases hmn : m = n
        · subst hmn
          rw [Function.update_self, hr] at he
          cases he
          exact Nat.lt_succ_self _
        · rw [Function.update_of_ne hmn] at he
          exact Nat.lt_succ_of_lt (h.fresh i (.inr ⟨m, he⟩))
    · rw [congrFun hie m, Function.update_of_ne fun h => hm (.inr h)]
      exact h.dead m fun h => hm (.inl h)

section
variable {linked linked' freed : List Nat} {held : Nat → Option Nat} {nodes t : Nat}

theorem NodeLedger.toFreed (h : NodeLedger linked held freed nodes) (hp : linked.Perm (n :: linked')) :
    NodeLedger linked' held (n :: freed) nodes where
  once := h.once.perm (List.perm_middle.trans (hp.symm.append_right freed))
  kept m hm := by
    rcases h.kept m hm with hm | hm | hm
    · exact .inl (List.mem_cons_of_mem _ hm)
    · rcases List.mem_cons.mp (hp.mem_iff.mp hm) with rfl | hm
      · exact .inl List.mem_cons_self
      · exact .inr (.inl hm)
    · exact .inr (.inr hm)
  fresh m hm := by
    rcases hm with hm | hm | hm
    · rcases List.mem_cons.mp hm with rfl | hm
      · exact h.fresh m (.inr (.inl (hp.mem_iff.mpr List.mem_cons_self)))
      · exact h.fresh m (.inl hm)
    · exact h.fresh m (.inr (.inl (hp.mem_iff.mpr (List.mem_cons_of_mem _ hm))))
    · exact h.fresh m (.inr (.inr hm))

theorem NodeLedger.hold (h : NodeLedger linked held freed nodes) (hp : linked.Perm (n :: linked')) (ht : held t = none) :
    NodeLedger linked' (Function.update held t (some n)) freed nodes where
  once := (h.once.perm (hp.symm.append_right freed)).give
  kept m hm := by
    rcases h.kept m hm with hm | hm | ⟨t', hm⟩
    · exact .inl hm
    · rcases List.mem_cons.mp (hp.mem_iff.mp hm) with rfl | hm
      · exact .inr (.inr ⟨t, Function.update_self ..⟩)
      · exact .inr (.inl hm)
    · have hne : t' ≠ t := fun h' => by rw [h', ht] at hm; cases hm
      exact .inr (.inr ⟨t', by rw [Function.update_of_ne hne]; exact hm⟩)
  fresh m hm := by
    rcases hm with hm | hm | ⟨t', hm⟩
    · exact h.fresh m (.inl hm)
    · exact h.fresh m (.inr (.inl (hp.mem_iff.mpr (List.mem_cons_of_mem _ hm))))
    · by_cases ht' : t' = t
      · rw [ht', Function.update_self] at hm
        cases hm
        exact h.fresh _ (.inr (.inl (hp.mem_iff.mpr List.mem_cons_self)))
      · rw [Function.update_of_ne ht'] at hm
        exact h.fresh m (.inr (.inr ⟨t', hm⟩))

theorem NodeLedger.release (h : NodeLedger linked held freed nodes) (ht : held t = some n) :
    NodeLedger linked (Function.update held t none) (n :: freed) nodes where
  once := (h.once.take ht).perm List.perm_middle
  kept m hm := by
    rcases h.kept m hm with hm | hm | ⟨t', hm⟩
    · exact .inl (List.mem_cons_of_mem _ hm)
    · exact .inr (.inl hm)
    · by_cases ht' : t' = t
      · rw [ht', ht] at hm
        cases hm
        exact .inl List.mem_cons_self
      · exact .inr (.inr ⟨t', by rw [Function.update_of_ne ht']; exact hm⟩)
  fresh m hm := by
    rcases hm with hm | hm | ⟨t', hm⟩
    · rcases List.mem_cons.mp hm with rfl | hm
      · exact h.fresh m (.inr (.inr ⟨t, ht⟩))
      · exact h.fresh m (.inl hm)
    · exact h.fresh m (.inr (.inl hm))
    · by_cases ht' : t' = t
      · rw [ht', Function.update_self] at hm; cases hm
      · rw [Function.update_of_ne ht'] at hm
        exact h.fresh m (.inr (.inr ⟨t', hm⟩))

theorem NodeLedger.insert (h : NodeLedger linked held freed nodes) (hp : linked'.Perm (nodes :: linked)) :
    NodeLedger linked' held freed (nodes + 1) where
  once := by
    have hL : nodes ∉ linked ++ freed := by
      intro hm
      refine Nat.lt_irrefl _ (h.fresh nodes ?_)
      exact (List.mem_append.mp hm).elim (fun h => .inr (.inl h)) .inl
    exact (h.once.add hL fun t ht => Nat.lt_irrefl _ (h.fresh nodes (.inr (.inr ⟨t, ht⟩)))).perm (hp.append_right freed)
  kept m hm := by
    rcases Nat.lt_succ_iff_lt_or_eq.mp hm with hm | rfl
    · exact (h.kept m hm).imp id (.imp (fun hm => hp.mem_iff.mpr (List.mem_cons_of_mem _ hm)) id)
    · exact .inr (.inl (hp.mem_iff.mpr List.mem_cons_self))
  fresh m hm := by
    rcases hm with hm | hm | hm
    · exact Nat.lt_succ_of_lt (h.fresh m (.inl hm))
    · rcases List.mem_cons.mp (hp.mem_iff.mp hm) with rfl | hm
      · exact Nat.lt_succ_self _
      · exact Nat.lt_succ_of_lt (h.fresh m (.inr (.inl hm)))
    · exact Nat.lt_succ_of_lt (h.fresh m (.inr (.inr hm)))

end

section
variable {list : List (List Nat)} {nodes h : Nat} {r : ScanReader}

theorem ReaderOk.unlink (hr : ReaderOk list nodes r) (hn : r.next ≠ some n) : ReaderOk (unlink list n) nodes r where
  nodup := hr.nodup
  saved m hm := by
    rw [chain_unlink]
    exact List.mem_filter.mpr ⟨hr.saved m hm, by simpa using fun h : m = n => hn (h ▸ hm)⟩
  passed m hm ha := hr.passed m hm (mem_ahead_unlink hn ha)
  seen := hr.seen

theorem ReaderOk.push (hr : ReaderOk list nodes r) (hlt : ∀ m ∈ list.flatten, m < nodes) :
    ReaderOk (push list h nodes) (nodes + 1) r where
  nodup := hr.nodup
  saved m hm := by
    rw [chain_push]
    split
    · exact List.mem_cons_of_mem _ (hr.saved m hm)
    · exact hr.saved m hm
  passed m hm ha := by
    have hn : r.next ≠ some nodes := fun h => Nat.lt_irrefl _ (hlt _ (mem_flatten.mpr ⟨_, hr.saved _ h⟩))
    rcases mem_ahead_push hn ha with rfl | ha
    · exact Nat.lt_irrefl _ (hr.seen m hm)
    · exact hr.passed m hm ha
  seen m hm := Nat.lt_succ_of_lt (hr.seen m hm)

theorem ReaderOk.visit (hL : list.flatten.Nodup) (hn : n ∈ chain list h) (hlt : n < nodes) (hd : r.handed.Nodup)
    (hs : ∀ m ∈ r.handed, m < nodes) (hp : ∀ m ∈ r.handed, m ∉ n :: ahead list h (succ (chain list h) n)) :
    ReaderOk list nodes { r with hashIndex := h, node := n, next := succ (chain list h) n } where
  nodup := by
    rw [List.nodup_append]
    refine ⟨hd, List.nodup_singleton n, fun m hm m' hm' h' => hp m hm ?_⟩
    rw [h', List.mem_singleton.mp hm']
    exact List.mem_cons_self
  saved m hm := mem_of_succ hm
  passed m hm := by
    rcases List.mem_append.mp hm with hm | hm
    · exact fun ha => hp m hm (List.mem_cons_of_mem _ ha)
    · rw [List.mem_singleton.mp hm]
      exact not_mem_ahead_succ hL hn
  seen m hm := by
    rcases List.mem_append.mp hm with hm | hm
    · exact hs m hm
    · rw [List.mem_singleton.mp hm]
      exact hlt

end

theorem Entries.congr {s' : ScanTable} (h : s.Entries hash) (hl : s'.list = s.list) (hc : s'.nResults = s.nResults)
    (hb : ∀ n, (s'.sta n).bssid = (s.sta n).bssid) (hs : ∀ n, (s'.sta n).ssid = (s.sta n).ssid) : s'.Entries hash where
  chains := by rw [hl]; exact h.chains
  count := by rw [hc, linked, hl]; exact h.count
  distinct n hn m hm := by
    rw [linked, hl] at hn hm
    rw [hb, hb, hs, hs]
    exact h.distinct n hn m hm
  placed k n hn := by
    rw [hl] at hn
    rw [hs]
    exact h.placed k n hn

theorem Entries.del (h : s.Entries hash) (hL : s.list.flatten.Nodup) (hn : n ∈ s.linked) : (s.del n).Entries hash where
  chains := by simp [ScanTable.del, Cursor.unlink, h.chains]
  count := by
    have := (perm_unlink hL hn).length_eq
    have hc := h.count
    simp only [ScanTable.del, linked, List.length_cons] at *
    omega
  distinct m hm m' hm' := by
    rw [linked, ScanTable.del, flatten_unlink] at hm hm'
    exact h.distinct m (List.mem_of_mem_filter hm) m' (List.mem_of_mem_filter hm')
  placed k m hm := by
    rw [ScanTable.del, chain_unlink] at hm
    exact h.placed k m (List.mem_of_mem_filter hm)

theorem target_some {result : ScanSta} {hlist : List Nat} (h : s.target result hlist = some n) :
    n ∈ hlist ∧ (s.sta n).bssid = result.bssid ∧ (s.sta n).ssid = result.ssid := by
  unfold target at h
  cases hf : s.firstMatch result hlist with
  | none => simp [hf] at h
  | some m =>
    have hm := List.mem_of_find?_eq_some hf
    have hp : result.ssid.length = (s.sta m).ssid.length ∧ result.bssid = (s.sta m).bssid := by
      simpa using List.find?_some hf
    simp only [hf] at h
    split at h
    · next hs =>
      cases h
      refine ⟨hm, hp.2.symm, ?_⟩
      rcases hs with hs | hs
      · rw [hs] at hp ⊢
        exact List.eq_nil_of_length_eq_zero hp.1.symm
      · exact hs
    · cases h

theorem target_none {result : ScanSta} {hlist : List Nat} (h : s.target result hlist = none)
    (hc : ∀ n ∈ hlist, (s.sta n).bssid = result.bssid → (s.sta n).ssid = result.ssid → s.firstMatch result hlist = some n) :
    ∀ n ∈ hlist, (s.sta n).bssid = result.bssid → (s.sta n).ssid ≠ result.ssid := by
  intro n hn hb hs
  simp [target, hc n hn hb hs, hs] at h

theorem held_congr {s' : ScanTable} (h : s'.readers = s.readers) : s'.held = s.held := by
  funext t
  simp only [held, h]

theorem Inv.lt_nodes (h : s.Inv hash) : ∀ m ∈ s.list.flatten, m < s.nodes := fun m hm => h.nodes.fresh m (.inr (.inl hm))

theorem hashIndex_lt (ssid : List UInt8) : hashIndex hash ssid < hashEntries := by
  unfold hashIndex
  split
  · decide
  · exact (hash ssid).isLt

theorem staInfo_ie (result : ScanSta) :
    (s.staInfo result).ie = none ∧ (if result.ieLen = 0 then s.ies else s.ies + 1) = s.ies ∨
    (s.staInfo result).ie = some s.ies ∧ (if result.ieLen = 0 then s.ies else s.ies + 1) = s.ies + 1 := by
  by_cases h : result.ieLen = 0
  · exact .inl ⟨by simp [staInfo, h], by simp [h]⟩
  · exact .inr ⟨by simp [staInfo, h], by simp [h]⟩

theorem Inv.insert (h : s.Inv hash) (result : ScanSta) (ies : Nat)
    (hi : result.ie = none ∧ ies = s.ies ∨ result.ie = some s.ies ∧ ies = s.ies + 1)
    (hn : ∀ n ∈ chain s.list (hashIndex hash result.ssid), (s.sta n).bssid = result.bssid → (s.sta n).ssid ≠ result.ssid) :
    ({ s with
      nResults := s.nResults + 1
      list := push s.list (hashIndex hash result.ssid) s.nodes
      sta := Function.update s.sta s.nodes result
      nodes := s.nodes + 1
      ies := ies } : ScanTable).Inv hash := by
  have hp : (push s.list (hashIndex hash result.ssid) s.nodes).flatten.Perm (s.nodes :: s.list.flatten) :=
    perm_push (h.entries.chains ▸ hashIndex_lt _)
  have hold : ∀ m ∈ s.linked, m ≠ s.nodes := fun m hm he => Nat.lt_irrefl _ (he ▸ h.lt_nodes m hm)
  have hdead : ¬ s.Live s.nodes := fun hl => Nat.lt_irrefl _ (h.nodes.fresh _ (.inr hl))
  -- an entry with the BSSID and the SSID of the result would be in its chain
  have hnew : ∀ m ∈ s.linked, (s.sta m).bssid = result.bssid → (s.sta m).ssid ≠ result.ssid := by
    intro m hm hb hs
    obtain ⟨k, hk⟩ := mem_flatten.mp hm
    have := h.entries.placed k m hk
    rw [hs] at this
    exact hn m (this ▸ hk) hb hs
  refine ⟨⟨?_, ?_, ?_, ?_⟩, h.nodes.insert hp, ?_, fun t r hr => (h.readers t r hr).push h.lt_nodes, h.links⟩
  · simp [Cursor.push, h.entries.chains]
  · have := hp.length_eq
    have hc := h.entries.count
    simp only [linked, List.length_cons] at *
    omega
  · intro n hn' m hm hb hs
    rcases List.mem_cons.mp (hp.mem_iff.mp hn') with rfl | hn'
    · rcases List.mem_cons.mp (hp.mem_iff.mp hm) with rfl | hm
      · rfl
      · simp only [Function.update_self, Function.update_of_ne (hold m hm)] at hb hs
        exact absurd hs.symm (hnew m hm hb.symm)
    · rcases List.mem_cons.mp (hp.mem_iff.mp hm) with rfl | hm
      · simp only [Function.update_self, Function.update_of_ne (hold n hn')] at hb hs
        exact absurd hs (hnew n hn' hb)
      · simp only [Function.update_of_ne (hold n hn'), Function.update_of_ne (hold m hm)] at hb hs
        exact h.entries.distinct n hn' m hm hb hs
  · intro k m hm
    dsimp only at hm ⊢
    rw [chain_push] at hm
    have hm' : k = hashIndex hash result.ssid ∧ m = s.nodes ∨ m ∈ chain s.list k := by
      split at hm
      · next hk =>
        rcases List.mem_cons.mp hm with hm | hm
        · exact .inl ⟨hk.1, hm⟩
        · exact .inr hm
      · exact .inr hm
    rcases hm' with ⟨hk, rfl⟩ | hm
    · rw [Function.update_self, hk]
    · rw [Function.update_of_ne (hold m (mem_flatten.mpr ⟨k, hm⟩))]
      exact h.entries.placed k m hm
  · refine (h.ies.put (h.ies.dead _ hdead) hi).congr rfl rfl rfl fun m => ?_
    constructor
    · rintro (hm | hm)
      · rcases List.mem_cons.mp (hp.mem_iff.mp hm) with rfl | hm
        · exact .inr rfl
        · exact .inl (.inl hm)
      · exact .inl (.inr hm)
    · rintro ((hm | hm) | rfl)
      · exact .inl (hp.mem_iff.mpr (List.mem_cons_of_mem _ hm))
      · exact .inr hm
      · exact .inl (hp.mem_iff.mpr List.mem_cons_self)

theorem Inv.refresh (h : s.Inv hash) (hl : n ∈ s.linked) (result : ScanSta) (ies : Nat)
    (hi : result.ie = none ∧ ies = s.ies ∨ result.ie = some s.ies ∧ ies = s.ies + 1)
    (hb : (s.sta n).bssid = result.bssid) (hs : (s.sta n).ssid = result.ssid) :
    ({ s.freeIe n with sta := Function.update (s.freeIe n).sta n result, ies := ies } : ScanTable).Inv hash := by
  have hheld : (s.freeIe n).held = s.held := held_congr freeIe_readers
  have hlink : (s.freeIe n).linked = s.linked := by simp [linked]
  refine ⟨h.entries.congr freeIe_list freeIe_nResults (fun m => ?_) (fun m => ?_), ?_, ?_, ?_, ?_⟩
  · by_cases hm : m = n
    · subst hm; simp [hb]
    · simp [hm]
  · by_cases hm : m = n
    · subst hm; simp [hs]
    · simp [hm]
  · show NodeLedger (s.freeIe n).linked (s.freeIe n).held (s.freeIe n).freed (s.freeIe n).nodes
    rw [hheld, hlink, freeIe_freed, freeIe_nodes]
    exact h.nodes
  · refine ((h.ies.freeIe (n := n)).put ?_ (by simpa using hi)).congr rfl rfl rfl fun m => ?_
    · exact (congrFun freeIe_ie n).trans (Function.update_self ..)
    · show (m ∈ (s.freeIe n).linked ∨ ∃ t, (s.freeIe n).held t = some m) ↔ _
      rw [hlink, hheld]
      by_cases hm : m = n
      · subst hm; simp [hl]
      · simp [hm, Live]
  · intro t r hr
    show ReaderOk (s.freeIe n).list (s.freeIe n).nodes r
    rw [freeIe_list, freeIe_nodes]
    exact h.readers t r ((congrFun freeIe_readers t).symm.trans hr)
  · exact freeIe_dangling.trans h.links

theorem freeIe_with_ies (k : Nat) : ({ s with ies := k } : ScanTable).freeIe n = { s.freeIe n with ies := k } := by
  unfold freeIe
  dsimp only
  split <;> rfl

theorem Inv.update (h : s.Inv hash) (alloc : Bool) (result : ScanSta)
    (hc : (ScanTableAct.update alloc result).Clean hash s) : (s.internalUpdate hash alloc result).Inv hash := by
  obtain ⟨hfirst, hleak⟩ := hc
  have hi := staInfo_ie (s := s) result
  unfold internalUpdate scanRxInternalUpdate
  dsimp only
  split
  · next ht =>
    have ht : s.target result (chain s.list (hashIndex hash result.ssid)) = none := ht
    split
    · exact h.insert (s.staInfo result) _ hi (target_none ht hfirst)
    · next ha =>
      have hz := hleak (by simpa using ha) ht
      simpa [hz] using h
  · next n ht =>
    have ht : s.target result (chain s.list (hashIndex hash result.ssid)) = some n := ht
    obtain ⟨hn, hb, hs⟩ := target_some ht
    split
    · next hd =>
      have hz : result.ieLen = 0 := hd.2
      simpa [hz] using h
    · rw [freeIe_with_ies]
      exact h.refresh (mem_flatten.mpr ⟨_, hn⟩) (s.staInfo result) _ hi hb hs

theorem Inv.dropNode (h : s.Inv hash) (hn : n ∈ s.linked) (hr : ∀ t r, s.readers t = some r → r.next ≠ some n) :
    ((s.del n).freeNode n).Inv hash := by
  have hL := h.nodup
  have hp : s.linked.Perm (n :: (s.del n).linked) := perm_unlink hL hn
  have hnot : n ∉ (s.del n).linked := (List.nodup_cons.mp (hp.nodup_iff.mp hL)).1
  have hheld : ((s.del n).freeNode n).held = s.held := held_congr freeIe_readers
  have hlink : ((s.del n).freeNode n).linked = (s.del n).linked := by simp [linked, freeNode]
  refine ⟨?_, ?_, ?_, ?_, ?_⟩
  · exact (h.entries.del hL hn).congr freeIe_list freeIe_nResults (fun m => freeIe_bssid m) fun m => freeIe_ssid m
  · rw [hheld, hlink]
    simp only [freeNode, freeIe_freed, freeIe_nodes]
    exact h.nodes.toFreed hp
  · have hdel : IeLedger s.Live (s.del n) := h.ies.congr rfl rfl rfl fun _ => Iff.rfl
    refine (hdel.freeIe (n := n)).congr rfl rfl rfl fun m => ?_
    show (m ∈ ((s.del n).freeNode n).linked ∨ ∃ t, ((s.del n).freeNode n).held t = some m) ↔ (_ ∨ _) ∧ _
    rw [hlink, hheld, hp.mem_iff, List.mem_cons]
    by_cases hm : m = n
    · subst hm
      have hu : ¬ ∃ t, s.held t = some m := fun ⟨t, ht⟩ => h.nodes.once.apart t m ht (List.mem_append_left _ hn)
      simp [hnot, hu]
    · simp [hm]
  · intro t r ht
    have ht : s.readers t = some r := by simpa [freeNode, ScanTable.del] using ht
    show ReaderOk ((s.del n).freeIe n).list ((s.del n).freeIe n).nodes r
    rw [freeIe_list, freeIe_nodes]
    exact (h.readers t r ht).unlink (hr t r ht)
  · exact freeIe_dangling.trans h.links

@[simp] theorem freeNode_readers : (s.freeNode n).readers = s.readers := freeIe_readers
@[simp] theorem freeNode_list : (s.freeNode n).list = s.list := freeIe_list
@[simp] theorem freeNode_nodes : (s.freeNode n).nodes = s.nodes := freeIe_nodes

theorem Inv.listFlush (h : s.Inv hash) (hr : ∀ n ∈ s.linked, ∀ t r, s.readers t = some r → r.next ≠ some n) :
    s.scanInternalListFlush.Inv hash := by
  have hloop : ∀ (l : List Nat) (s : ScanTable), s.Inv hash → l.Nodup → (∀ n ∈ l, n ∈ s.linked) →
      (∀ n ∈ l, ∀ t r, s.readers t = some r → r.next ≠ some n) →
      (l.foldl (fun s n => (s.del n).freeNode n) s).Inv hash := by
    intro l
    induction l with
    | nil => exact fun s h _ _ _ => h
    | cons n l ih =>
      intro s h hnd hl hr
      obtain ⟨hn, hnd⟩ := List.nodup_cons.mp hnd
      refine ih _ (h.dropNode (hl n List.mem_cons_self) (hr n List.mem_cons_self)) hnd ?_ ?_
      · intro m hm
        have hmn : m ≠ n := fun h => hn (h ▸ hm)
        rw [linked, freeNode_list, ScanTable.del, flatten_unlink]
        exact List.mem_filter.mpr ⟨hl m (List.mem_cons_of_mem _ hm), by simpa using hmn⟩
      · intro m hm t r ht
        exact hr m (List.mem_cons_of_mem _ hm) t r (by simpa [ScanTable.del] using ht)
  exact hloop s.linked s h h.nodup (fun _ hn => hn) hr

theorem held_update (t : Nat) (r : Option ScanReader) :
    ({ s with readers := Function.update s.readers t r } : ScanTable).held =
      Function.update s.held t (r.bind fun r => if r.flush = true then some r.node else none) := by
  funext t'
  by_cases h : t' = t
  · subst h; simp [held]
  · simp [held, h]

theorem readers_update {list : List (List Nat)} {nodes t : Nat} {o : Option ScanReader}
    (h : ∀ t' r', t' ≠ t → s.readers t' = some r' → ReaderOk list nodes r') (ho : ∀ r', o = some r' → ReaderOk list nodes r') :
    ∀ t' r', Function.update s.readers t o t' = some r' → ReaderOk list nodes r' := by
  intro t' r' hr
  by_cases ht : t' = t
  · subst ht
    rw [Function.update_self] at hr
    exact ho r' hr
  · rw [Function.update_of_ne ht] at hr
    exact h t' r' ht hr

theorem Inv.release (h : s.Inv hash) {t : Nat} {r : ScanReader} (ht : s.readers t = some r) :
    ({ (if r.flush = true then s.freeNode r.node else s) with
      readers := Function.update s.readers t none } : ScanTable).Inv hash := by
  have hrd := readers_update (s := s) (t := t) (o := none) (fun t' r' _ => h.readers t' r') (by simp)
  cases hf : r.flush with
  | false =>
    have hheld : Function.update s.held t none = s.held := by
      rw [Function.update_eq_self_iff]
      simp [held, ht, hf]
    let s' : ScanTable := { s with readers := Function.update s.readers t none }
    have hh : s'.held = s.held := (held_update t none).trans hheld
    refine ⟨h.entries.congr rfl rfl (fun _ => rfl) fun _ => rfl, hh ▸ h.nodes, ?_, hrd, h.links⟩
    refine h.ies.congr rfl rfl rfl fun m => ?_
    show (m ∈ s'.linked ∨ ∃ t', s'.held t' = some m) ↔ _
    rw [hh]
    rfl
  | true =>
    have hn : s.held t = some r.node := by simp [held, ht, hf]
    have hnl : r.node ∉ s.linked := fun hl => h.nodes.once.apart t r.node hn (List.mem_append_left _ hl)
    let s' : ScanTable := { s.freeNode r.node with readers := Function.update s.readers t none }
    have hh : s'.held = Function.update s.held t none := held_update (s := s) t none
    have hl : s'.linked = s.linked := congrArg List.flatten (freeNode_list (s := s))
    refine ⟨h.entries.congr freeIe_list freeIe_nResults (fun m => freeIe_bssid m) fun m => freeIe_ssid m, ?_, ?_, ?_, ?_⟩
    · show NodeLedger s'.linked s'.held s'.freed s'.nodes
      rw [hh, hl, show s'.freed = r.node :: s.freed from congrArg (r.node :: ·) freeIe_freed,
        show s'.nodes = s.nodes from freeIe_nodes]
      exact h.nodes.release hn
    · refine (h.ies.freeIe (n := r.node)).congr rfl rfl rfl fun m => ?_
      show (m ∈ s'.linked ∨ ∃ t', s'.held t' = some m) ↔ _
      rw [hh, hl]
      constructor
      · rintro (hm | ⟨t', hm⟩)
        · exact ⟨.inl hm, fun h => hnl (h ▸ hm)⟩
        · by_cases ht' : t' = t
          · rw [ht', Function.update_self] at hm; cases hm
          · rw [Function.update_of_ne ht'] at hm
            exact ⟨.inr ⟨t', hm⟩, fun h' => ht' (h.nodes.once.once t' t m hm (h' ▸ hn))⟩
      · rintro ⟨hm | ⟨t', hm⟩, hne⟩
        · exact .inl hm
        · refine .inr ⟨t', ?_⟩
          have ht' : t' ≠ t := fun h' => hne (Option.some.inj ((h' ▸ hm).symm.trans hn))
          rw [Function.update_of_ne ht']
          exact hm
    · intro t' r' hr
      show ReaderOk (s.freeIe r.node).list (s.freeIe r.node).nodes r'
      rw [freeIe_list, freeIe_nodes]
      exact hrd t' r' hr
    · exact freeIe_dangling.trans h.links

theorem Inv.visit (h : s.Inv hash) {t k : Nat} {r : ScanReader} (ht : s.readers t = none) (hn : n ∈ chain s.list k)
    (hd : r.handed.Nodup) (hs : ∀ m ∈ r.handed, m < s.nodes)
    (hp : ∀ m ∈ r.handed, m ∉ n :: ahead s.list k (succ (chain s.list k) n))
    (hother : r.flush = true → ∀ t' r', s.readers t' = some r' → r'.next ≠ some n) : (s.visit t r k n).Inv hash := by
  have hL := h.nodup
  have hl : n ∈ s.linked := mem_flatten.mpr ⟨k, hn⟩
  let r' : ScanReader := { r with hashIndex := k, node := n, next := succ (chain s.list k) n }
  have hok : ReaderOk s.list s.nodes r' := ReaderOk.visit hL hn (h.lt_nodes n hl) hd hs hp
  have ht0 : s.held t = none := by simp [held, ht]
  cases hf : r.flush with
  | false =>
    let s' := s.visit t r k n
    have hs' : s' = { s with readers := Function.update s.readers t (some r') } := by simp [s', r', ScanTable.visit, hf]
    have hh : s'.held = s.held := by
      rw [hs', held_update, Function.update_eq_self_iff, ht0]
      simp [r', hf]
    show s'.Inv hash
    have hnodes : NodeLedger s'.linked s'.held s'.freed s'.nodes := by rw [hh, hs']; exact h.nodes
    have hlive : ∀ m, s'.Live m ↔ s.Live m := by intro m; simp only [Live, hh]; rw [hs']; rfl
    refine ⟨?_, hnodes, ?_, ?_, ?_⟩
    · rw [hs']; exact h.entries.congr rfl rfl (fun _ => rfl) fun _ => rfl
    · exact h.ies.congr (by rw [hs']) (by rw [hs']) (by rw [hs']) hlive
    · rw [hs']
      exact readers_update (fun t' r' _ => h.readers t' r') (by rintro _ ⟨⟩; exact hok)
    · rw [hs']; exact h.links
  | true =>
    let s' := s.visit t r k n
    have hs' : s' = { s.del n with readers := Function.update s.readers t (some r') } := by
      simp [s', r', ScanTable.visit, hf, ScanTable.del]
    have hp : s.linked.Perm (n :: (unlink s.list n).flatten) := perm_unlink hL hl
    have hh : s'.held = Function.update s.held t (some n) := by
      rw [hs']
      refine (held_update (s := s.del n) t _).trans ?_
      simp only [Option.bind_some, r', hf, if_true]
      rfl
    have hl' : s'.linked = (unlink s.list n).flatten := by rw [hs']; rfl
    have hsucc : succ (chain s.list k) n ≠ some n := by
      intro he
      have := not_mem_ahead_succ hL hn
      rw [he] at this
      exact this (List.mem_append_left _ (after_succ (nodup_chain hL) hn ▸ List.mem_cons_self))
    show s'.Inv hash
    have hnodes : NodeLedger s'.linked s'.held s'.freed s'.nodes := by
      rw [hh, hl', hs']
      exact h.nodes.hold hp ht0
    have hlive : ∀ m, s'.Live m ↔ s.Live m := by
      intro m
      show (m ∈ s'.linked ∨ ∃ t', s'.held t' = some m) ↔ (m ∈ s.linked ∨ ∃ t', s.held t' = some m)
      rw [hh, hl', hp.mem_iff, List.mem_cons]
      constructor
      · rintro (hm | ⟨t', hm⟩)
        · exact .inl (.inr hm)
        · by_cases ht' : t' = t
          · rw [ht', Function.update_self] at hm
            exact .inl (.inl (Option.some.inj hm).symm)
          · rw [Function.update_of_ne ht'] at hm
            exact .inr ⟨t', hm⟩
      · rintro ((rfl | hm) | ⟨t', hm⟩)
        · exact .inr ⟨t, Function.update_self ..⟩
        · exact .inl hm
        · have ht' : t' ≠ t := fun h' => by rw [h', ht0] at hm; cases hm
          exact .inr ⟨t', by rw [Function.update_of_ne ht']; exact hm⟩
    refine ⟨?_, hnodes, ?_, ?_, ?_⟩
    · rw [hs']; exact (h.entries.del hL hl).congr rfl rfl (fun _ => rfl) fun _ => rfl
    · exact h.ies.congr (by rw [hs']; rfl) (by rw [hs']; rfl) (by rw [hs']; rfl) hlive
    · rw [hs']
      refine readers_update (fun t' r' _ hr => (h.readers t' r' hr).unlink (hother hf t' r' hr)) ?_
      rintro _ ⟨⟩
      exact hok.unlink hsucc
    · rw [hs']; exact h.links

theorem Inv.request (h : s.Inv hash) {t : Nat} {flush handler : Bool} (ht : s.readers t = none)
    (hc : (ScanTableAct.request t flush handler).Clean hash s) : (s.scanInternalReqResults t flush handler).Inv hash := by
  unfold scanInternalReqResults
  cases hf : first 0 s.list with
  | none => exact h
  | some p =>
    obtain ⟨k, n⟩ := p
    obtain ⟨-, l, hl⟩ := first_some (L := s.list) (h := 0) hf
    refine h.visit ht (by simp [hl]) List.nodup_nil (by simp) (by simp) ?_
    intro hfl t' r' hr
    have hfl : flush = true := hfl
    refine hc n (by simp [ScanTableAct.unlinked, hfl, hf]) t' r' hr ?_
    intro he
    have he : t = t' := Option.some.inj he
    rw [← he, ht] at hr
    cases hr

theorem visit_of_update (t k : Nat) (r : ScanReader) (o : Option ScanReader) :
    ({ s with readers := Function.update s.readers t o } : ScanTable).visit t r k n = s.visit t r k n := by
  unfold ScanTable.visit
  split <;> simp [ScanTable.del]

theorem Inv.handled (h : s.Inv hash) {t : Nat} {r : ScanReader} (ht : s.readers t = some r) {answer : Bool}
    (hc : (ScanTableAct.handled t answer).Clean hash s) : (s.reqResultsNext t answer r).Inv hash := by
  have hr := h.readers t r ht
  have hrel := h.release ht
  have hfree : (if r.flush = true then s.freeNode r.node else s).list = s.list ∧
      (if r.flush = true then s.freeNode r.node else s).readers = s.readers ∧
      (if r.flush = true then s.freeNode r.node else s).nodes = s.nodes := by split <;> simp
  unfold reqResultsNext
  dsimp only
  generalize (if r.flush = true then s.freeNode r.node else s) = s1 at hrel hfree ⊢
  obtain ⟨hlist, hreaders, hnodes⟩ := hfree
  rw [← hreaders] at hrel
  cases hn : Cursor.next s1.list r.hashIndex r.next with
  | none => exact hrel
  | some p =>
    obtain ⟨k, n⟩ := p
    rw [hlist] at hn
    obtain ⟨hmem, hahead⟩ := ahead_next h.nodup hr.saved hn
    have hpass := hr.passed
    rw [hahead] at hpass
    dsimp only
    rw [if_pos (hlist ▸ hmem), ← visit_of_update t k _ none]
    refine hrel.visit (Function.update_self ..) (hlist ▸ hmem) hr.nodup (hnodes ▸ hr.seen) ?_ ?_
    · show ∀ m ∈ r.handed ++ [r.node], m ∉ n :: ahead s1.list k (succ (chain s1.list k) n)
      rw [hlist]
      exact hpass
    · intro hf t' r' hr'
      have hf : r.flush = true := hf
      by_cases ht' : t' = t
      · rw [ht'] at hr'
        cases (Function.update_self t none s1.readers).symm.trans hr'
      · have hr' : s.readers t' = some r' := by
          rw [← hreaders]
          exact (Function.update_of_ne ht' ..).symm.trans hr'
        refine hc n (by simp [ScanTableAct.unlinked, ht, hf, hn]) t' r' hr' ?_
        exact fun h => ht' (Option.some.inj h).symm

end ScanTable

theorem scanTable_good (hash : List UInt8 → Fin ScanTable.hashEntries) {s : ScanTable} {l : List (ScanTable × ScanTableAct)}
    (h : Path (scanTables hash) scanTableStart l s) (hc : ∀ p ∈ l, p.2.Clean hash p.1) : s.Good hash := by
  refine (h.keep (I := ScanTable.Inv hash) (C := fun s a => a.Clean hash s) ?_ hc (ScanTable.inv_start hash)).good
  rintro s a t hI ⟨he, rfl⟩ hc
  cases a with
  | update alloc result => exact hI.update alloc result hc
  | listFlush => exact hI.listFlush fun n hn t r hr => hc n hn t r hr (by simp [ScanTableAct.caller])
  | request t flush handler => exact hI.request he hc
  | handled t answer =>
    cases ht : s.readers t with
    | none => exact absurd ht he
    | some r =>
      simp only [ScanTableAct.next, ht]
      exact hI.handled ht hc

/-! ## A flush with one reader, and what unclean steps do -/

namespace ScanTableAct

variable {hash : List UInt8 → Fin ScanTable.hashEntries}

theorem readers_listFlush (s : ScanTable) : s.scanInternalListFlush.readers = s.readers := by
  unfold ScanTable.scanInternalListFlush
  generalize s.linked = l
  induction l generalizing s with
  | nil => rfl
  | cons n l ih => exact (ih _).trans (by simp [ScanTable.del])

theorem readers_visit (s : ScanTable) {t t' k n : Nat} {r : ScanReader} (h : t' ≠ t) :
    (s.visit t r k n).readers t' = s.readers t' := by
  unfold ScanTable.visit
  split <;> simp [ScanTable.del, h]

theorem readers_next (s : ScanTable) (a : ScanTableAct) {t : Nat} (h : a.caller ≠ some t) :
    (a.next hash s).readers t = s.readers t := by
  cases a with
  | update alloc result =>
    unfold next ScanTable.internalUpdate ScanTable.scanRxInternalUpdate
    dsimp only
    split <;> split <;> simp
  | listFlush => exact congrFun (readers_listFlush s) t
  | request t' flush handler =>
    have ht : t ≠ t' := fun h' => h (by rw [caller, h'])
    unfold next ScanTable.scanInternalReqResults
    dsimp only
    split
    · exact readers_visit s ht
    · rfl
  | handled t' answer =>
    have ht : t ≠ t' := fun h' => h (by rw [caller, h'])
    unfold next
    dsimp only
    cases s.readers t' with
    | none => rfl
    | some r =>
      have hs : (if r.flush = true then s.freeNode r.node else s).readers = s.readers := by split <;> simp
      unfold ScanTable.reqResultsNext
      dsimp only
      generalize (if r.flush = true then s.freeNode r.node else s) = s1 at hs ⊢
      rw [← hs]
      split
      · split
        · exact readers_visit _ ht
        · simp [ht]
      · simp [ht]

/-- `Clean` where thread 0 is the only reader. -/
def CleanAlone (hash : List UInt8 → Fin ScanTable.hashEntries) (s : ScanTable) : ScanTableAct → Prop
  | update alloc result => (update alloc result).Clean hash s
  | listFlush => s.readers 0 = none
  | request t _ _ | handled t _ => t = 0

instance decCleanAlone (s : ScanTable) (a : ScanTableAct) : Decidable (a.CleanAlone hash s) :=
  match a with
  | update _ _ => inferInstanceAs (Decidable ((∀ n ∈ _, _ → _ → _) ∧ (_ → _ → _)))
  | listFlush => inferInstanceAs (Decidable (s.readers 0 = none))
  | request t _ _ | handled t _ => inferInstanceAs (Decidable (t = 0))

theorem CleanAlone.clean {s : ScanTable} {a : ScanTableAct} (h : a.CleanAlone hash s) (hs : ∀ t, t ≠ 0 → s.readers t = none) :
    a.Clean hash s := by
  have alone : ∀ t r, s.readers t = some r → t = 0 := fun t r hr =>
    Decidable.byContradiction fun ht => by rw [hs t ht] at hr; cases hr
  cases a with
  | update => exact h
  | listFlush =>
    intro n _ t r hr _
    have h : s.readers 0 = none := h
    rw [alone t r hr, h] at hr
    cases hr
  | request t0 =>
    intro n _ t r hr hne
    exact absurd (by rw [caller, alone t r hr, show t0 = 0 from h]) hne
  | handled t0 =>
    intro n _ t r hr hne
    exact absurd (by rw [caller, alone t r hr, show t0 = 0 from h]) hne

theorem clean_trace {l : List ScanTableAct} {s : ScanTable} (hs : ∀ t, t ≠ 0 → s.readers t = none)
    (h : ∀ p ∈ trace (next hash) s l, p.2.CleanAlone hash p.1) : ∀ p ∈ trace (next hash) s l, p.2.Clean hash p.1 := by
  induction l generalizing s with
  | nil => exact fun _ hp => nomatch hp
  | cons a l ih =>
    intro p hp
    have ha := h (s, a) List.mem_cons_self
    rcases List.mem_cons.mp hp with rfl | hp
    · exact ha.clean hs
    · refine ih (fun t ht => ?_) (fun p hp => h p (List.mem_cons_of_mem _ hp)) p hp
      rw [readers_next s a ?_, hs t ht]
      cases a with
      | update => simp [caller]
      | listFlush => simp [caller]
      | request => simpa [caller, show _ = 0 from ha] using Ne.symm ht
      | handled => simpa [caller, show _ = 0 from ha] using Ne.symm ht

end ScanTableAct

/-- A hash that puts every SSID in one chain; a hidden one is in chain 0 under any hash. -/
def oneChain : List UInt8 → Fin ScanTable.hashEntries := fun _ => 0

/-- A result of a hidden SSID, without special IE when `ieLen` is 0. -/
def hiddenSta (mac : UInt8) (ieLen : UInt8) : ScanSta :=
  { ScanSta.zero with bssid := Vector.replicate 6 mac, channel := 1, signal := 40, beacon := true, ieLen := ieLen }

/-- Two access points, handed over and flushed; one of them again, and a flush. -/
def scanAndFlush : List ScanTableAct :=
  [.update true (hiddenSta 1 3), .update true (hiddenSta 2 0), .update true (hiddenSta 1 5), .request 0 true true,
    .handled 0 true, .handled 0 false, .update true (hiddenSta 1 4), .listFlush]

theorem scanTable_good_flushed :
    (scanAndFlush.foldl (ScanTableAct.next oneChain) scanTableStart).Good oneChain := by
  have h : Fires (fun s a => ScanTableAct.Enabled s a) (ScanTableAct.next oneChain) scanTableStart scanAndFlush := by
    decide +kernel
  exact scanTable_good _ (Path.ofFires h) (ScanTableAct.clean_trace (fun _ _ => rfl) (by decide +kernel))

def flushUnderReader : List ScanTableAct :=
  [.update true (hiddenSta 1 0), .update true (hiddenSta 2 0), .request 0 false true, .listFlush, .handled 0 true]

/-- One access point under two SSIDs of one length and one chain. -/
def twoSsids : List ScanTableAct :=
  [.update true { hiddenSta 1 0 with ssid := [97] }, .update true { hiddenSta 1 0 with ssid := [98] },
    .update true { hiddenSta 1 0 with ssid := [97] }]

/-- A reader follows the link of a freed node; a buffer is in no node and is never freed; two nodes have one BSSID and SSID. -/
theorem scanTable_broken :
    (∃ s, Reach (scanTables oneChain) s ∧ s.dangling = true) ∧
    (∃ s, Reach (scanTables oneChain) s ∧ s.ies = 1 ∧ s.freedIes = [] ∧ s.nodes = 0) ∧
    (∃ s, Reach (scanTables oneChain) s ∧ s.linked = [2, 1, 0] ∧
      (s.sta 0).bssid = (s.sta 2).bssid ∧ (s.sta 0).ssid = (s.sta 2).ssid) := by
  refine ⟨⟨flushUnderReader.foldl (ScanTableAct.next oneChain) scanTableStart, ?_, by decide +kernel⟩,
    ⟨[ScanTableAct.update false (hiddenSta 1 3)].foldl (ScanTableAct.next oneChain) scanTableStart, ?_, by decide +kernel⟩,
    ⟨twoSsids.foldl (ScanTableAct.next oneChain) scanTableStart, ?_, by decide +kernel⟩⟩
  · exact Reach.fires (.init rfl) (by decide +kernel)
  · exact Reach.fires (.init rfl) (by decide +kernel)
  · exact Reach.fires (.init rfl) (by decide +kernel)

end AtbmWifi
