import AtbmWifi.Sta.InterfaceSlots

/-!
# The slots of the keys

`atbm_set_key` with `atbm_alloc_key`, `atbm_free_key` and `atbm_free_keys`.  `K` are
mac80211's keys; `installed` is their `KEY_FLAG_UPLOADED_TO_HARDWARE`, set when
`SET_KEY` returned 0 and cleared by `DISABLE_KEY` whatever it returned.

* `KeysOk`: installed keys have slots of their own, `key_map` is the set of these slots,
  and each slot knows its index.
* `KeyFits`: a key that is installed was not; a `SET_KEY` that fails names the cipher the
  interface has; a terminated driver is asked to install no new key and to disable
  none; and the last interface goes without installed keys.
* `keys_accounted`: along every run, `KeysOk` holds in every state and `clean` of every
  call exactly when every call is `KeyFits`.

`atbm_set_key` records the cipher before it knows whether the key has a slot, and the last
interface takes all keys with it.
-/

namespace AtbmWifi

open Mask Transition

def wlanCipherSuiteWep40 : Nat := 0x000FAC01
def wlanCipherSuiteTkip : Nat := 0x000FAC02
def wlanCipherSuiteCcmp : Nat := 0x000FAC04
def wlanCipherSuiteWep104 : Nat := 0x000FAC05
def wlanCipherSuiteAesCmac : Nat := 0x000FAC06
def wlanCipherSuiteSms4 : Nat := 0x00147201

structure KeyConf where
  cipher : Nat
  keylen : Nat
  key : List UInt8
  keyidx : Nat
  pairwise : Bool
  deriving DecidableEq, Repr

def KeyConf.bytes (c : KeyConf) (off n : Nat) : List UInt8 := (c.key.drop off).take n

/-- The `switch` of `atbm_set_key`: `type` and the union, or the error.  `peer` is the address of the
station, which a pairwise key has; `wapi` is the `CONFIG_ATBM_APOLLO_WAPI_SUPPORT` build. -/
def fillKey (wapi : Bool) (mode : IfType) (c : KeyConf) (peer : Mac) : Except Int (Nat × WsmKeyData) :=
  if c.cipher = wlanCipherSuiteWep40 ∨ c.cipher = wlanCipherSuiteWep104 then
    if 16 < c.keylen then .error eInval
    else if c.pairwise then .ok (1, .wepPairwise peer (c.bytes 0 c.keylen) c.keylen)
    else .ok (0, .wepGroup (c.bytes 0 c.keylen) c.keylen c.keyidx)
  else if c.cipher = wlanCipherSuiteTkip then
    if c.pairwise then .ok (3, .tkipPairwise peer (c.bytes 0 16) (c.bytes 16 8) (c.bytes 24 8))
    else .ok (2, .tkipGroup (c.bytes 0 16) (c.bytes (if mode = .ap then 16 else 24) 8) c.keyidx)
  else if c.cipher = wlanCipherSuiteCcmp then
    if c.pairwise then .ok (5, .aesPairwise peer (c.bytes 0 16))
    else .ok (4, .aesGroup (c.bytes 0 16) c.keyidx)
  else if c.cipher = wlanCipherSuiteAesCmac then .ok (8, .igtkGroup (c.bytes 0 16) c.keyidx)
  else if wapi ∧ c.cipher = wlanCipherSuiteSms4 then
    if c.pairwise then .ok (7, .wapiPairwise peer (c.bytes 0 16) (c.bytes 16 16) c.keyidx)
    else .ok (6, .wapiGroup (c.bytes 0 16) (c.bytes 16 16) c.keyidx)
  else .error eOpnotsupp

def wsmKeyMaxIdx : Nat := 20

namespace HwPriv

variable {V : Type}

/-- `ffs(~key_map) - 1`, if it is a slot -/
def freeSlot (h : HwPriv V) : Option Nat :=
  ((List.range 32).find? fun i => !h.keyMap.getLsbD i).filter fun i => decide (i ≤ wsmKeyMaxIndex)

def atbmAllocKey (h : HwPriv V) : HwPriv V × Option Nat :=
  match h.freeSlot with
  | some idx =>
    ({ h with
        keyMap := h.keyMap ||| BIT idx
        keys := Function.update h.keys idx { h.keys idx with entryIndex := idx } }, some idx)
  | none => (h, none)

def atbmFreeKey (idx : Nat) (h : HwPriv V) : HwPriv V :=
  if h.keyMap.getLsbD idx then
    { h with keys := Function.update h.keys idx .zero, keyMap := h.keyMap &&& ~~~BIT idx }
  else h

variable [DecidableEq V]

/-- `atbm_set_key(SET_KEY)` with `atbm_bh_is_term` and the result of `wsm_add_key`: its result, and what it
writes to `hw_key_idx`. -/
def setKey (wapi term addOk : Bool) (v : V) (c : KeyConf) (peer : Mac) (h : HwPriv V) :
    HwPriv V × Int × Option Nat :=
  if term then (h, 0, none)
  else
    let r := h.atbmAllocKey
    let h := r.1.onPriv v fun p => { p with cipherType := c.cipher }
    match r.2 with
    | none => (h, eInval, none)
    | some idx =>
      match fillKey wapi (h.priv v).mode c peer with
      | .error e => (h.atbmFreeKey idx, e, none)
      | .ok (type, data) =>
        let h := { h with keys := Function.update h.keys idx { h.keys idx with type, data } }
        if addOk then (h, 0, some idx) else (h.atbmFreeKey idx, 1, none)

end HwPriv

def HwPriv.disableKey {V : Type} (term : Bool) (removed : Int) (idx : Nat) (h : HwPriv V) : HwPriv V × Int :=
  if term then (h, 0)
  else if wsmKeyMaxIdx < idx then (h, eInval)
  else (h.atbmFreeKey idx, removed)

structure KeyState (V K : Type) where
  hw : HwPriv V
  hwKeyIdx : K → Nat
  installed : K → Bool

inductive KeyAct (V K : Type)
  | iface (a : IfaceAct V)
  | set (v : V) (k : K) (c : KeyConf) (sta : Option Mac) (term addOk : Bool)
  | disable (k : K) (term : Bool) (removed : Int)

section
variable {V K : Type} [DecidableEq V] [DecidableEq K]

def KeyAct.next (wapi : Bool) (s : KeyState V K) : KeyAct V K → KeyState V K
  | .iface a => { s with hw := a.next s.hw }
  | .set v k c sta term addOk =>
    let r := s.hw.setKey wapi term addOk v c (sta.getD 0)
    { hw := r.1
      hwKeyIdx := match r.2.2 with
        | some idx => Function.update s.hwKeyIdx k idx
        | none => s.hwKeyIdx
      installed := if r.2.1 = 0 then Function.update s.installed k true else s.installed }
  | .disable k term removed =>
    { s with
      hw := (s.hw.disableKey term removed (s.hwKeyIdx k)).1
      installed := Function.update s.installed k false }

/-- A pairwise key is one of a station; keys that were installed are disabled. -/
def KeyAct.enabled (s : KeyState V K) : KeyAct V K → Prop
  | .iface _ => True
  | .set _ _ c sta _ _ => c.pairwise = true → sta ≠ none
  | .disable k _ _ => s.installed k = true

def keying (wapi : Bool) (V K : Type) [DecidableEq V] [DecidableEq K] : Sys (KeyState V K) (KeyAct V K) :=
  .ofNext (fun s => s.hw.Start ∧ ∀ k, s.installed k = false) KeyAct.enabled (KeyAct.next wapi)

structure KeysOk (s : KeyState V K) : Prop where
  slot : ∀ k, s.installed k = true → s.hwKeyIdx k ≤ wsmKeyMaxIndex
  distinct : ∀ k k', s.installed k = true → s.installed k' = true → s.hwKeyIdx k = s.hwKeyIdx k' → k = k'
  keyMap : ∀ i, s.hw.keyMap.getLsbD i = true ↔ ∃ k, s.installed k = true ∧ s.hwKeyIdx k = i
  entryIndex : ∀ k, s.installed k = true → (s.hw.keys (s.hwKeyIdx k)).entryIndex = s.hwKeyIdx k

def KeyAct.clean (wapi : Bool) (s : KeyState V K) : KeyAct V K → Prop
  | .iface _ => True
  | .set v _ c sta term addOk =>
    let r := s.hw.setKey wapi term addOk v c (sta.getD 0)
    r.2.1 ≠ 0 → r.1.keyMap = s.hw.keyMap ∧ r.1.keys = s.hw.keys ∧
      (r.1.priv v).cipherType = (s.hw.priv v).cipherType
  | .disable k term removed =>
    let r := s.hw.disableKey term removed (s.hwKeyIdx k)
    ∀ k', k' ≠ k → s.installed k' = true →
      r.1.keyMap.getLsbD (s.hwKeyIdx k') = s.hw.keyMap.getLsbD (s.hwKeyIdx k') ∧
      r.1.keys (s.hwKeyIdx k') = s.hw.keys (s.hwKeyIdx k')

/-- There is a slot, the cipher and the length are ones the driver knows, and the firmware takes the key. -/
def HwPriv.installs (wapi addOk : Bool) (v : V) (c : KeyConf) (peer : Mac) (h : HwPriv V) : Bool :=
  h.freeSlot.isSome && (fillKey wapi (h.priv v).mode c peer).toBool && addOk

def HwPriv.lastGone (v : V) (h : HwPriv V) : Prop := h.removes v = true ∧ h.numVifs = 1

def KeyFits (wapi : Bool) (s : KeyState V K) : KeyAct V K → Prop
  | .iface (.remove v) => s.hw.lastGone v → ∀ k, s.installed k = false
  | .iface (.change v type p2p _) =>
    s.hw.changes v type p2p = true → s.hw.lastGone v → ∀ k, s.installed k = false
  | .iface _ => True
  | .set v k c sta term addOk =>
    if term then s.installed k = true
    else if s.hw.installs wapi addOk v c (sta.getD 0) then s.installed k = false
    else (s.hw.priv v).cipherType = c.cipher
  | .disable _ term _ => term = false

structure KeyInv (h : HwPriv V) : Prop where
  empty : ∀ i, h.keyMap.getLsbD i = false → h.keys i = .zero
  small : ∀ i, h.keyMap.getLsbD i = true → i ≤ wsmKeyMaxIndex

end

section
variable {V : Type}

namespace HwPriv

variable {h : HwPriv V} {idx : Nat} {c : KeyConf} {peer : Mac} {wapi : Bool}

theorem freeSlot_some (hs : h.freeSlot = some idx) : idx ≤ wsmKeyMaxIndex ∧ h.keyMap.getLsbD idx = false := by
  unfold freeSlot at hs
  rw [Option.filter_eq_some_iff, decide_eq_true_eq] at hs
  have hfree := List.find?_some hs.1
  exact ⟨hs.2, by simpa using hfree⟩

theorem lt_of_slot (h : idx ≤ wsmKeyMaxIndex) : idx < 32 := by
  have : wsmKeyMaxIndex = 10 := rfl
  omega

theorem free_alloc (hI : KeyInv h) (hbit : h.keyMap.getLsbD idx = false) (hidx : idx < 32)
    {g : HwPriv V} (hmap : g.keyMap = h.keyMap ||| BIT idx) (hkeys : ∀ j, j ≠ idx → g.keys j = h.keys j) :
    (g.atbmFreeKey idx).keyMap = h.keyMap ∧ (g.atbmFreeKey idx).keys = h.keys ∧ (g.atbmFreeKey idx).vif = g.vif := by
  have hset : g.keyMap.getLsbD idx = true := by
    rw [hmap]
    show (h.keyMap ||| bit 32 idx).getLsbD idx = true
    rw [getLsbD_insert]
    simp [hidx]
  unfold atbmFreeKey
  rw [if_pos hset]
  refine ⟨?_, ?_, rfl⟩
  · apply BitVec.eq_of_getLsbD_eq
    intro j _
    show (g.keyMap &&& ~~~bit 32 idx).getLsbD j = _
    rw [getLsbD_erase, hmap]
    show ((h.keyMap ||| bit 32 idx).getLsbD j && _) = _
    rw [getLsbD_insert]
    by_cases hj : idx = j
    · subst hj
      rw [hbit]
      simp
    · simp [hj]
  · funext j
    show Function.update g.keys idx .zero j = _
    by_cases hj : j = idx
    · subst hj
      rw [Function.update_self, hI.empty j hbit]
    · rw [Function.update_of_ne hj, hkeys j hj]

theorem freeKey_fields (hI : KeyInv h) (idx : Nat) :
    (∀ j, (h.atbmFreeKey idx).keyMap.getLsbD j = (h.keyMap.getLsbD j && !decide (idx = j))) ∧
    (∀ j, j ≠ idx → (h.atbmFreeKey idx).keys j = h.keys j) ∧ (h.atbmFreeKey idx).keys idx = .zero := by
  unfold atbmFreeKey
  split
  · refine ⟨fun j => ?_, fun j hj => ?_, ?_⟩
    · exact getLsbD_erase h.keyMap idx j
    · exact Function.update_of_ne hj ..
    · exact Function.update_self ..
  · next hno =>
    have hbit : h.keyMap.getLsbD idx = false := by simpa using hno
    refine ⟨fun j => ?_, fun _ _ => rfl, hI.empty idx hbit⟩
    by_cases hj : idx = j
    · subst hj
      rw [hbit]
      rfl
    · simp [hj]

theorem fillKey_error {mode : IfType} {e : Int} (h : fillKey wapi mode c peer = .error e) : e ≠ 0 := by
  have hcase : e = eInval ∨ e = eOpnotsupp := by
    unfold fillKey at h
    repeat' split at h
    all_goals first | (cases h; exact .inl rfl) | (cases h; exact .inr rfl) | cases h
  rcases hcase with rfl | rfl <;> decide

variable [DecidableEq V]

theorem cipherType_onPriv (v : V) (c : Nat) (h : HwPriv V) :
    ((h.onPriv v fun p => { p with cipherType := c }).priv v).cipherType = c := by
  simp [onPriv, priv]

theorem mode_onPriv (v : V) (c : Nat) (h : HwPriv V) :
    ((h.onPriv v fun p => { p with cipherType := c }).priv v).mode = (h.priv v).mode := by
  simp [onPriv, priv]

theorem setKey_installs {addOk : Bool} {v : V} (hok : h.installs wapi addOk v c peer = true) :
    ∃ idx, idx ≤ wsmKeyMaxIndex ∧ h.keyMap.getLsbD idx = false ∧
      (h.setKey wapi false addOk v c peer).1.keyMap = h.keyMap ||| BIT idx ∧
      ((h.setKey wapi false addOk v c peer).1.keys idx).entryIndex = idx ∧
      (∀ j, j ≠ idx → (h.setKey wapi false addOk v c peer).1.keys j = h.keys j) ∧
      (h.setKey wapi false addOk v c peer).2 = (0, some idx) := by
  simp only [installs, Bool.and_eq_true] at hok
  obtain ⟨⟨hslot, hfill⟩, hadd⟩ := hok
  obtain ⟨idx, hidx⟩ := Option.isSome_iff_exists.mp hslot
  obtain ⟨hle, hbit⟩ := freeSlot_some hidx
  cases hf : fillKey wapi (h.priv v).mode c peer with
  | error e =>
    rw [hf] at hfill
    cases hfill
  | ok td =>
    obtain ⟨type, data⟩ := td
    refine ⟨idx, hle, hbit, ?_⟩
    simp only [setKey, atbmAllocKey, hidx, Bool.false_eq_true, if_false, mode_onPriv]
    have hmode : ({ h with
        keyMap := h.keyMap ||| BIT idx
        keys := Function.update h.keys idx { h.keys idx with entryIndex := idx } } : HwPriv V).priv v = h.priv v := rfl
    rw [hmode, hf]
    simp only [hadd, if_true]
    refine ⟨rfl, ?_, fun j hj => ?_, trivial⟩
    · simp [onPriv]
    · simp [onPriv, hj]

theorem setKey_fails {addOk : Bool} {v : V} (hI : KeyInv h) (hno : h.installs wapi addOk v c peer = false) :
    (h.setKey wapi false addOk v c peer).2.1 ≠ 0 ∧ (h.setKey wapi false addOk v c peer).2.2 = none ∧
    (h.setKey wapi false addOk v c peer).1.keyMap = h.keyMap ∧
    (h.setKey wapi false addOk v c peer).1.keys = h.keys ∧
    ((h.setKey wapi false addOk v c peer).1.priv v).cipherType = c.cipher := by
  simp only [setKey, Bool.false_eq_true, if_false]
  cases hslot : h.freeSlot with
  | none =>
    simp only [atbmAllocKey, hslot]
    exact ⟨by decide, trivial, rfl, rfl, cipherType_onPriv v c.cipher h⟩
  | some idx =>
    obtain ⟨hle, hbit⟩ := freeSlot_some hslot
    have hidx := lt_of_slot hle
    simp only [atbmAllocKey, hslot, mode_onPriv]
    generalize hg : ({ h with
        keyMap := h.keyMap ||| BIT idx
        keys := Function.update h.keys idx { h.keys idx with entryIndex := idx } } : HwPriv V) = g
    have hmap : g.keyMap = h.keyMap ||| BIT idx := by rw [← hg]
    have hkeys : ∀ j, j ≠ idx → g.keys j = h.keys j := by
      intro j hj
      rw [← hg]
      exact Function.update_of_ne hj ..
    have hmode : (g.priv v).mode = (h.priv v).mode := by rw [← hg]; rfl
    have hcipher : ∀ g' : HwPriv V, g'.vif = (g.onPriv v fun p => { p with cipherType := c.cipher }).vif →
        (g'.priv v).cipherType = c.cipher := by
      intro g' hv
      unfold priv
      rw [hv]
      exact cipherType_onPriv v c.cipher g
    rw [hmode]
    cases hf : fillKey wapi (h.priv v).mode c peer with
    | error e =>
      have he : e ≠ 0 := fillKey_error hf
      obtain ⟨h1, h2, h3⟩ := free_alloc hI hbit hidx (g := g.onPriv v fun p => { p with cipherType := c.cipher })
        hmap hkeys
      exact ⟨he, rfl, h1, h2, hcipher _ h3⟩
    | ok td =>
      have hadd : addOk = false := by
        simpa [installs, hslot, hf, Except.toBool] using hno
      obtain ⟨type, data⟩ := td
      simp only [hadd, Bool.false_eq_true, if_false]
      generalize hk : ({ type, entryIndex := _, data } : WsmAddKey) = wk
      obtain ⟨h1, h2, h3⟩ := free_alloc hI hbit hidx
        (g := { g.onPriv v (fun p => { p with cipherType := c.cipher }) with
          keys := Function.update g.keys idx wk }) hmap
        (fun j hj => (Function.update_of_ne hj ..).trans (hkeys j hj))
      exact ⟨Int.one_ne_zero, trivial, h1, h2, hcipher _ h3⟩

def SameKeys (h h' : HwPriv V) : Prop := h'.keyMap = h.keyMap ∧ h'.keys = h.keys

theorem sameKeys_setPrivQueueCap (v : V) (h : HwPriv V) : h.SameKeys (h.setPrivQueueCap v) := by
  obtain ⟨q, hq⟩ := h.setPrivQueueCap_caps v
  rw [hq]
  exact ⟨rfl, rfl⟩

theorem sameKeys_clearPrivQueueCap (v : V) (h : HwPriv V) : h.SameKeys (h.clearPrivQueueCap v) := by
  obtain ⟨q, hq⟩ := h.clearPrivQueueCap_caps v
  rw [hq]
  exact ⟨rfl, rfl⟩

theorem sameKeys_add (e : AddEnv) (v : V) (h : HwPriv V) : h.SameKeys (h.atbmAddInterface e v).1 := by
  rcases atbmAddInterface_cases e v h with ⟨heq, -⟩ | ⟨heq, -⟩ | ⟨i, -, -, -, heq⟩
  · rw [heq]
    exact ⟨rfl, rfl⟩
  · rw [heq]
    exact ⟨rfl, rfl⟩
  · rw [heq]
    exact ⟨rfl, rfl⟩

theorem sameKeys_doJoin (v : V) (bss : Bss) (term joinOk resetOk : Bool) (h : HwPriv V) :
    h.SameKeys (h.doJoin v bss term joinOk resetOk) := by
  simp only [doJoin]
  split
  · exact sameKeys_setPrivQueueCap v (h.onPriv v _)
  · exact ⟨rfl, rfl⟩

theorem sameKeys_doUnjoin (v : V) (bssid : Mac) (term resetOk : Bool) (h : HwPriv V) :
    h.SameKeys (h.doUnjoin v bssid term resetOk) := by
  simp only [doUnjoin]
  split
  · exact sameKeys_clearPrivQueueCap v (h.onPriv v _)
  · exact ⟨rfl, rfl⟩

theorem sameKeys_updateBeaconing (v : V) (term : Bool) (conf : Beaconing) (dtimPeriod : Nat) (h : HwPriv V) :
    h.SameKeys (h.updateBeaconing v term conf dtimPeriod) := by
  unfold updateBeaconing
  split
  · exact ⟨rfl, rfl⟩
  split
  · exact ⟨rfl, rfl⟩
  split
  · unfold startAp
    split
    · exact sameKeys_setPrivQueueCap v ((h.onPriv v _).onPriv v _)
    · exact ⟨rfl, rfl⟩
  · exact ⟨rfl, rfl⟩

theorem keys_remove (v : V) (h : HwPriv V) :
    (h.lastGone v → (h.atbmRemoveInterface v).keyMap = 0 ∧ (h.atbmRemoveInterface v).keys = fun _ => .zero) ∧
    (¬ h.lastGone v → h.SameKeys (h.atbmRemoveInterface v)) := by
  unfold lastGone
  cases hr : h.removes v with
  | false =>
    have hsame : h.atbmRemoveInterface v = h := by
      simp [atbmRemoveInterface, hr]
    rw [hsame]
    exact ⟨fun hno => absurd hno.1 (by decide), fun _ => ⟨rfl, rfl⟩⟩
  | true =>
    obtain ⟨q, hq⟩ := atbmRemoveInterface_eq hr
    rw [hq]
    show (true = true ∧ _ → (unregister _ _).keyMap = 0 ∧ (unregister _ _).keys = _) ∧
      (_ → (unregister _ _).keyMap = _ ∧ (unregister _ _).keys = _)
    simp only [unregister]
    have hnum : ((h.shutDown v).withCaps q).numVifs = h.numVifs := rfl
    rw [hnum]
    constructor
    · rintro ⟨-, hone⟩
      rw [if_pos (by omega)]
      exact ⟨rfl, rfl⟩
    · intro hno
      have hne : ¬ h.numVifs - 1 = 0 := fun h0 => hno ⟨trivial, by omega⟩
      rw [if_neg hne]
      exact ⟨rfl, rfl⟩

end HwPriv

def IfaceAct.takesKeys [DecidableEq V] (h : HwPriv V) : IfaceAct V → Prop
  | .remove v => h.lastGone v
  | .change v type p2p _ => h.changes v type p2p = true ∧ h.lastGone v
  | _ => False

theorem keys_iface [DecidableEq V] (h : HwPriv V) (a : IfaceAct V) :
    (a.takesKeys h → (a.next h).keyMap = 0 ∧ (a.next h).keys = fun _ => .zero) ∧
    (¬ a.takesKeys h → h.SameKeys (a.next h)) := by
  cases a with
  | add v e => exact ⟨fun hno => hno.elim, fun _ => h.sameKeys_add e v⟩
  | change v type p2p e =>
    by_cases hch : h.changes v type p2p = true
    · have hnext : IfaceAct.next h (.change v type p2p e) =
          (((h.atbmRemoveInterface v).retyped v type p2p).atbmAddInterface e v).1 := by
        show (h.atbmChangeInterface e v type p2p).1 = _
        rw [HwPriv.atbmChangeInterface, if_pos hch]
      obtain ⟨hlast, hsame⟩ := h.keys_remove v
      obtain ⟨h1, h2⟩ := ((h.atbmRemoveInterface v).retyped v type p2p).sameKeys_add e v
      rw [hnext]
      constructor
      · rintro ⟨-, hl⟩
        obtain ⟨h3, h4⟩ := hlast hl
        exact ⟨h1.trans h3, h2.trans h4⟩
      · intro hno
        obtain ⟨h3, h4⟩ := hsame fun hl => hno ⟨hch, hl⟩
        exact ⟨h1.trans h3, h2.trans h4⟩
    · have hnext : IfaceAct.next h (.change v type p2p e) = h := by
        show (h.atbmChangeInterface e v type p2p).1 = _
        rw [HwPriv.atbmChangeInterface, if_neg hch]
      rw [hnext]
      exact ⟨fun h1 => absurd h1.1 hch, fun _ => ⟨rfl, rfl⟩⟩
  | remove v => exact h.keys_remove v
  | join v bss term joinOk resetOk => exact ⟨fun hno => hno.elim, fun _ => h.sameKeys_doJoin v bss term joinOk resetOk⟩
  | unjoin v bssid term resetOk => exact ⟨fun hno => hno.elim, fun _ => h.sameKeys_doUnjoin v bssid term resetOk⟩
  | beaconing v term conf dtimPeriod =>
    exact ⟨fun hno => hno.elim, fun _ => h.sameKeys_updateBeaconing v term conf dtimPeriod⟩

variable {K : Type} [DecidableEq V]

variable {a : IfaceAct V} {s : KeyState V K} {wapi term : Bool} {k : K}

theorem keyFits_iface : KeyFits wapi s (.iface a) ↔ (a.takesKeys s.hw → ∀ k, s.installed k = false) := by
  cases a with
  | change v type p2p e => exact ⟨fun h1 h2 => h1 h2.1 h2.2, fun h1 h2 h3 => h1 ⟨h2, h3⟩⟩
  | remove v => exact Iff.rfl
  | add | join | unjoin | beaconing => exact ⟨fun _ hno => hno.elim, fun _ => trivial⟩

theorem iface_keeps (hI : KeyInv s.hw) (hP : KeysOk s)
    (hC : KeyFits wapi s (.iface a)) : KeyInv (a.next s.hw) ∧ KeysOk { s with hw := a.next s.hw } := by
  obtain ⟨hclear, hsame⟩ := keys_iface s.hw a
  by_cases ht : a.takesKeys s.hw
  · obtain ⟨hmap, hkeys⟩ := hclear ht
    have hnone := keyFits_iface.mp hC ht
    have hbit : ∀ i, (a.next s.hw).keyMap.getLsbD i = false := by
      intro i
      rw [hmap]
      exact BitVec.getLsbD_zero
    constructor
    · refine ⟨fun i _ => by rw [hkeys], fun i hi => ?_⟩
      rw [hbit i] at hi
      cases hi
    · refine ⟨fun k hk => ?_, fun k _ hk => ?_, fun i => ?_, fun k hk => ?_⟩
      · exact absurd hk (by simp [hnone k])
      · exact absurd hk (by simp [hnone k])
      · constructor
        · intro hi
          rw [hbit i] at hi
          cases hi
        · rintro ⟨k, hk, -⟩
          exact absurd hk (by simp [hnone k])
      · exact absurd hk (by simp [hnone k])
  · obtain ⟨hmap, hkeys⟩ := hsame ht
    constructor
    · constructor
      · intro i
        rw [hmap, hkeys]
        exact hI.empty i
      · intro i
        rw [hmap]
        exact hI.small i
    · refine ⟨hP.slot, hP.distinct, fun i => ?_, fun k hk => ?_⟩
      · show (a.next s.hw).keyMap.getLsbD i = true ↔ _
        rw [hmap]
        exact hP.keyMap i
      · show ((a.next s.hw).keys _).entryIndex = _
        rw [hkeys]
        exact hP.entryIndex k hk

theorem iface_loses (hPt : KeysOk { s with hw := a.next s.hw }) :
    KeyFits wapi s (.iface a) := by
  rw [keyFits_iface]
  intro ht k
  by_contra hk
  have hin : s.installed k = true := by simpa using hk
  have hbit := (hPt.keyMap (s.hwKeyIdx k)).mpr ⟨k, hin, rfl⟩
  have hzero : (a.next s.hw).keyMap = 0 := ((keys_iface s.hw a).1 ht).1
  have hbit' : (a.next s.hw).keyMap.getLsbD (s.hwKeyIdx k) = true := hbit
  rw [hzero] at hbit'
  simp at hbit'

omit [DecidableEq V] in
theorem set_installs_keeps [DecidableEq K] (hI : KeyInv s.hw) (hP : KeysOk s)
    (hk : s.installed k = false) {g : HwPriv V} {idx : Nat} (hle : idx ≤ wsmKeyMaxIndex)
    (hbit : s.hw.keyMap.getLsbD idx = false) (hmap : g.keyMap = s.hw.keyMap ||| BIT idx)
    (hent : (g.keys idx).entryIndex = idx) (hkeys : ∀ j, j ≠ idx → g.keys j = s.hw.keys j) :
    KeyInv g ∧
      KeysOk (⟨g, Function.update s.hwKeyIdx k idx, Function.update s.installed k true⟩ : KeyState V K) := by
  have h32 := HwPriv.lt_of_slot hle
  have hget : ∀ j, g.keyMap.getLsbD j = (s.hw.keyMap.getLsbD j || decide (idx = j)) := by
    intro j
    rw [hmap]
    show (s.hw.keyMap ||| bit 32 idx).getLsbD j = _
    rw [getLsbD_insert]
    by_cases hj : idx = j
    · subst hj
      simp [h32]
    · simp [hj]
  -- who was installed has another slot
  have hother : ∀ k', s.installed k' = true → k' ≠ k ∧ s.hwKeyIdx k' ≠ idx := by
    intro k' hk'
    refine ⟨fun heq => absurd hk' (by simp [heq, hk]), fun heq => ?_⟩
    have := (hP.keyMap idx).mpr ⟨k', hk', heq⟩
    rw [hbit] at this
    cases this
  have hcase : ∀ k', Function.update s.installed k true k' = true →
      (k' = k ∧ Function.update s.hwKeyIdx k idx k' = idx) ∨
      (k' ≠ k ∧ s.installed k' = true ∧ Function.update s.hwKeyIdx k idx k' = s.hwKeyIdx k') := by
    intro k' hk'
    by_cases heq : k' = k
    · subst heq
      exact .inl ⟨rfl, Function.update_self ..⟩
    · rw [Function.update_of_ne heq] at hk'
      exact .inr ⟨heq, hk', Function.update_of_ne heq ..⟩
  constructor
  · constructor
    · intro j hj
      rw [hget, Bool.or_eq_false_iff, decide_eq_false_iff_not] at hj
      rw [hkeys j (Ne.symm hj.2)]
      exact hI.empty j hj.1
    · intro j hj
      rw [hget, Bool.or_eq_true, decide_eq_true_eq] at hj
      rcases hj with hj | rfl
      · exact hI.small j hj
      · exact hle
  · refine ⟨fun k' hk' => ?_, fun k' k'' hk' hk'' hidx => ?_, fun i => ?_, fun k' hk' => ?_⟩
    · show Function.update s.hwKeyIdx k idx k' ≤ _
      rcases hcase k' hk' with ⟨-, h1⟩ | ⟨-, h1, h2⟩
      · rw [h1]
        exact hle
      · rw [h2]
        exact hP.slot k' h1
    · change Function.update s.hwKeyIdx k idx k' = Function.update s.hwKeyIdx k idx k'' at hidx
      rcases hcase k' hk' with ⟨h1, h2⟩ | ⟨-, h1, h2⟩
      · rcases hcase k'' hk'' with ⟨h3, -⟩ | ⟨-, h3, h4⟩
        · rw [h1, h3]
        · rw [h2, h4] at hidx
          exact absurd hidx.symm (hother k'' h3).2
      · rcases hcase k'' hk'' with ⟨-, h4⟩ | ⟨-, h3, h4⟩
        · rw [h2, h4] at hidx
          exact absurd hidx (hother k' h1).2
        · rw [h2, h4] at hidx
          exact hP.distinct k' k'' h1 h3 hidx
    · show g.keyMap.getLsbD i = true ↔ ∃ k', Function.update s.installed k true k' = true ∧
        Function.update s.hwKeyIdx k idx k' = i
      rw [hget, Bool.or_eq_true, decide_eq_true_eq, hP.keyMap]
      constructor
      · rintro (⟨k', hk', hi⟩ | rfl)
        · have hne := (hother k' hk').1
          exact ⟨k', by rw [Function.update_of_ne hne, hk'], by rw [Function.update_of_ne hne, hi]⟩
        · exact ⟨k, Function.update_self .., Function.update_self ..⟩
      · rintro ⟨k', hk', hi⟩
        rcases hcase k' hk' with ⟨-, h2⟩ | ⟨-, h1, h2⟩
        · exact .inr (h2.symm.trans hi)
        · exact .inl ⟨k', h1, h2.symm.trans hi⟩
    · show (g.keys (Function.update s.hwKeyIdx k idx k')).entryIndex = Function.update s.hwKeyIdx k idx k'
      rcases hcase k' hk' with ⟨-, h2⟩ | ⟨-, h1, h2⟩
      · rw [h2, hent]
      · rw [h2, hkeys _ (hother k' h1).2]
        exact hP.entryIndex k' h1

omit [DecidableEq V] in
theorem KeysOk.same (hI : KeyInv s.hw) (hP : KeysOk s) {g : HwPriv V}
    (hs : g.keyMap = s.hw.keyMap ∧ g.keys = s.hw.keys) : KeyInv g ∧ KeysOk { s with hw := g } := by
  obtain ⟨hmap, hkeys⟩ := hs
  refine ⟨⟨fun i => ?_, fun i => ?_⟩, hP.slot, hP.distinct, fun i => ?_, fun k hk => ?_⟩
  · rw [hmap, hkeys]
    exact hI.empty i
  · rw [hmap]
    exact hI.small i
  · show g.keyMap.getLsbD i = true ↔ _
    rw [hmap]
    exact hP.keyMap i
  · show (g.keys _).entryIndex = _
    rw [hkeys]
    exact hP.entryIndex k hk

variable [DecidableEq K]

omit [DecidableEq V] in
theorem KeyState.again (hk : s.installed k = true) : Function.update s.installed k true = s.installed := by
  rw [← hk]
  exact Function.update_eq_self k s.installed

theorem set_keeps (hI : KeyInv s.hw) (hP : KeysOk s) {v : V} {c : KeyConf}
    {sta : Option Mac} {addOk : Bool} (hC : KeyFits wapi s (.set v k c sta term addOk)) :
    let s' := KeyAct.next wapi s (.set v k c sta term addOk)
    KeyInv s'.hw ∧ KeysOk s' ∧ KeyAct.clean wapi s (.set v k c sta term addOk) := by
  simp only [KeyFits] at hC
  simp only [KeyAct.next, KeyAct.clean]
  cases term with
  | true =>
    have hset : s.hw.setKey wapi true addOk v c (sta.getD 0) = (s.hw, 0, none) := rfl
    rw [if_pos rfl] at hC
    rw [hset]
    show KeyInv s.hw ∧ KeysOk (⟨s.hw, s.hwKeyIdx, Function.update s.installed k true⟩ : KeyState V K) ∧ _
    rw [KeyState.again hC]
    exact ⟨hI, hP, fun hno => absurd rfl hno⟩
  | false =>
    rw [if_neg (by decide)] at hC
    cases hok : s.hw.installs wapi addOk v c (sta.getD 0) with
    | true =>
      rw [hok, if_pos rfl] at hC
      obtain ⟨idx, hle, hbit, hmap, hent, hkeys, hret⟩ := HwPriv.setKey_installs hok
      rw [hret]
      obtain ⟨h1, h2⟩ := set_installs_keeps hI hP hC hle hbit hmap hent hkeys
      exact ⟨h1, h2, fun hno => absurd rfl hno⟩
    | false =>
      rw [hok, if_neg (by decide)] at hC
      obtain ⟨hret, hidx, hmap, hkeys, hcipher⟩ := HwPriv.setKey_fails hI hok
      rw [hidx, if_neg hret]
      obtain ⟨h1, h2⟩ := KeysOk.same hI hP ⟨hmap, hkeys⟩
      exact ⟨h1, h2, fun _ => ⟨hmap, hkeys, hcipher.trans hC.symm⟩⟩

theorem set_loses (hI : KeyInv s.hw) (hP : KeysOk s) {v : V} {c : KeyConf}
    {sta : Option Mac} {addOk : Bool} (hPt : KeysOk (KeyAct.next wapi s (.set v k c sta term addOk)))
    (hQ : KeyAct.clean wapi s (.set v k c sta term addOk)) : KeyFits wapi s (.set v k c sta term addOk) := by
  simp only [KeyFits]
  simp only [KeyAct.next] at hPt
  simp only [KeyAct.clean] at hQ
  cases term with
  | true =>
    rw [if_pos rfl]
    -- the key is marked without a slot of its own
    have hPt' : KeysOk (⟨s.hw, s.hwKeyIdx, Function.update s.installed k true⟩ : KeyState V K) := hPt
    obtain ⟨k', hk', hidx⟩ := (hP.keyMap (s.hwKeyIdx k)).mp
      ((hPt'.keyMap (s.hwKeyIdx k)).mpr ⟨k, Function.update_self .., rfl⟩)
    have hmark : Function.update s.installed k true k' = true := by
      by_cases heq : k' = k
      · rw [heq, Function.update_self]
      · rw [Function.update_of_ne heq, hk']
    have heq : k' = k := hPt'.distinct k' k hmark (Function.update_self ..) hidx
    rwa [heq] at hk'
  | false =>
    rw [if_neg (by decide)]
    cases hok : s.hw.installs wapi addOk v c (sta.getD 0) with
    | true =>
      rw [if_pos rfl]
      obtain ⟨idx, hle, hbit, hmap, -, -, hret⟩ := HwPriv.setKey_installs hok
      rw [hret] at hPt
      by_contra hk
      have hin : s.installed k = true := by simpa using hk
      -- the old slot is in the mask, and no key has it now
      have hold : s.hw.keyMap.getLsbD (s.hwKeyIdx k) = true := (hP.keyMap _).mpr ⟨k, hin, rfl⟩
      have hne : s.hwKeyIdx k ≠ idx := by
        intro heq
        rw [heq, hbit] at hold
        cases hold
      have hnew : (s.hw.setKey wapi false addOk v c (sta.getD 0)).1.keyMap.getLsbD (s.hwKeyIdx k) = true := by
        rw [hmap, BitVec.getLsbD_or, hold, Bool.true_or]
      obtain ⟨k', hk', hidx⟩ := (hPt.keyMap (s.hwKeyIdx k)).mp hnew
      change Function.update s.installed k true k' = true at hk'
      change Function.update s.hwKeyIdx k idx k' = s.hwKeyIdx k at hidx
      by_cases heq : k' = k
      · rw [heq, Function.update_self] at hidx
        exact hne hidx.symm
      · rw [Function.update_of_ne heq] at hk' hidx
        exact heq (hP.distinct k' k hk' hin hidx)
    | false =>
      rw [if_neg (by decide)]
      obtain ⟨hret, -, -, -, hcipher⟩ := HwPriv.setKey_fails hI hok
      exact (hQ hret).2.2.symm.trans hcipher

omit [DecidableEq V] [DecidableEq K] in
theorem disable_spec (hP : KeysOk s) (hk : s.installed k = true) (removed : Int) :
    (s.hw.disableKey false removed (s.hwKeyIdx k)).1 = s.hw.atbmFreeKey (s.hwKeyIdx k) := by
  have hle := hP.slot k hk
  have hmax : wsmKeyMaxIndex ≤ wsmKeyMaxIdx := by decide
  unfold HwPriv.disableKey
  rw [if_neg (by decide), if_neg (by omega)]

theorem disable_keeps (hI : KeyInv s.hw) (hP : KeysOk s) {removed : Int} (hk : s.installed k = true) :
    let s' := KeyAct.next wapi s (.disable k false removed)
    KeyInv s'.hw ∧ KeysOk s' ∧ KeyAct.clean wapi s (.disable k false removed) := by
  simp only [KeyAct.next, KeyAct.clean]
  rw [disable_spec hP hk removed]
  obtain ⟨hmap, hkeys, hzero⟩ := HwPriv.freeKey_fields hI (s.hwKeyIdx k)
  have hother : ∀ k', Function.update s.installed k false k' = true →
      k' ≠ k ∧ s.installed k' = true ∧ s.hwKeyIdx k' ≠ s.hwKeyIdx k := by
    intro k' hk'
    have hne : k' ≠ k := by
      rintro rfl
      rw [Function.update_self] at hk'
      cases hk'
    rw [Function.update_of_ne hne] at hk'
    exact ⟨hne, hk', fun heq => hne (hP.distinct k' k hk' hk heq)⟩
  refine ⟨⟨fun i hi => ?_, fun i hi => ?_⟩, ⟨fun k' hk' => ?_, fun k' k'' hk' hk'' => ?_, fun i => ?_, fun k' hk' => ?_⟩,
    fun k' hne hk' => ?_⟩
  · by_cases heq : i = s.hwKeyIdx k
    · rw [heq, hzero]
    · rw [hmap, decide_eq_false (Ne.symm heq), Bool.not_false, Bool.and_true] at hi
      rw [hkeys i heq]
      exact hI.empty i hi
  · rw [hmap, Bool.and_eq_true] at hi
    exact hI.small i hi.1
  · exact hP.slot k' (hother k' hk').2.1
  · exact hP.distinct k' k'' (hother k' hk').2.1 (hother k'' hk'').2.1
  · show (s.hw.atbmFreeKey (s.hwKeyIdx k)).keyMap.getLsbD i = true ↔
      ∃ k', Function.update s.installed k false k' = true ∧ s.hwKeyIdx k' = i
    rw [hmap, Bool.and_eq_true, Bool.not_eq_true', decide_eq_false_iff_not, hP.keyMap]
    constructor
    · rintro ⟨⟨k', hk', rfl⟩, hne⟩
      have hkk : k' ≠ k := fun heq => hne (by rw [heq])
      exact ⟨k', by rw [Function.update_of_ne hkk, hk'], rfl⟩
    · rintro ⟨k', hk', rfl⟩
      obtain ⟨-, h1, h2⟩ := hother k' hk'
      exact ⟨⟨k', h1, rfl⟩, h2.symm⟩
  · obtain ⟨-, h1, h2⟩ := hother k' hk'
    show ((s.hw.atbmFreeKey (s.hwKeyIdx k)).keys (s.hwKeyIdx k')).entryIndex = _
    rw [hkeys _ h2]
    exact hP.entryIndex k' h1
  · have hidx : s.hwKeyIdx k' ≠ s.hwKeyIdx k := fun heq => hne (hP.distinct k' k hk' hk heq)
    rw [hmap, hkeys _ hidx, decide_eq_false hidx.symm]
    exact ⟨by rw [Bool.not_false, Bool.and_true], rfl⟩

theorem disable_loses (hP : KeysOk s) {removed : Int}
    (hk : s.installed k = true) (hPt : KeysOk (KeyAct.next wapi s (.disable k term removed))) : term = false := by
  by_contra hterm
  have ht : term = true := by simpa using hterm
  rw [ht] at hPt
  have hPt' : KeysOk (⟨s.hw, s.hwKeyIdx, Function.update s.installed k false⟩ : KeyState V K) := hPt
  obtain ⟨k', hk', hidx⟩ := (hPt'.keyMap (s.hwKeyIdx k)).mp ((hP.keyMap _).mpr ⟨k, hk, rfl⟩)
  change Function.update s.installed k false k' = true at hk'
  by_cases heq : k' = k
  · rw [heq, Function.update_self] at hk'
    cases hk'
  · rw [Function.update_of_ne heq] at hk'
    exact heq (hP.distinct k' k hk' hk hidx)

theorem keying_keep (s : KeyState V K) (a : KeyAct V K) (t : KeyState V K) (hI : KeyInv s.hw)
    (hP : KeysOk s) (hst : (keying wapi V K).step s a t) (hC : KeyFits wapi s a) :
    KeyInv t.hw ∧ KeysOk t ∧ a.clean wapi s := by
  obtain ⟨hen, rfl⟩ := hst
  cases a with
  | iface a =>
    obtain ⟨h1, h2⟩ := iface_keeps hI hP hC
    exact ⟨h1, h2, trivial⟩
  | set v k c sta term addOk => exact set_keeps hI hP hC
  | disable k term removed =>
    obtain rfl : term = false := hC
    exact disable_keeps hI hP hen

theorem keying_lose (s : KeyState V K) (a : KeyAct V K) (t : KeyState V K) (hI : KeyInv s.hw)
    (hP : KeysOk s) (hst : (keying wapi V K).step s a t) (hPt : KeysOk t) (hQ : a.clean wapi s) :
    KeyFits wapi s a := by
  obtain ⟨hen, rfl⟩ := hst
  cases a with
  | iface a => exact iface_loses hPt
  | set v k c sta term addOk => exact set_loses hI hP hPt hQ
  | disable k term removed => exact disable_loses hP hen hPt

/-- **Keys and slots agree, and failed calls leave nothing** -/
theorem keys_accounted {wapi : Bool} {s t : KeyState V K} {l : List (KeyState V K × KeyAct V K)}
    (h : Path (keying wapi V K) s l t) (hs : s.hw.Start) (hnone : ∀ k, s.installed k = false) :
    ((∀ p ∈ l, KeysOk p.1 ∧ p.2.clean wapi p.1) ∧ KeysOk t) ↔ ∀ p ∈ l, KeyFits wapi p.1 p.2 := by
  obtain ⟨-, -, -, hmap, hkeys, -⟩ := hs
  have hbit : ∀ i, s.hw.keyMap.getLsbD i = false := by
    intro i
    rw [hmap]
    exact BitVec.getLsbD_zero
  have hno : ∀ {k}, s.installed k ≠ true := fun {k} hk => by simp [hnone k] at hk
  refine h.exactSteps (I := fun s => KeyInv s.hw) keying_keep keying_lose ⟨fun i _ => hkeys i, fun i hi => ?_⟩
    ⟨fun _ hk => absurd hk hno, fun _ _ hk => absurd hk hno, fun i => ?_, fun _ hk => absurd hk hno⟩
  · exact absurd hi (by simp [hbit i])
  · rw [hbit i]
    exact ⟨fun hi => (by cases hi), fun ⟨_, hk, _⟩ => absurd hk hno⟩

end

section
variable {V : Type} [DecidableEq V]

instance decLastGone (v : V) (h : HwPriv V) : Decidable (h.lastGone v) := inferInstanceAs (Decidable (_ ∧ _))

instance decNoKey (s : KeyState V Bool) : Decidable (∀ k, s.installed k = false) :=
  decidable_of_iff (s.installed false = false ∧ s.installed true = false)
    (Bool.forall_bool (p := fun k => s.installed k = false)).symm

instance decKeyEnabled (s : KeyState V Bool) : (a : KeyAct V Bool) → Decidable (a.enabled s)
  | .iface _ => .isTrue trivial
  | .set _ _ _ none _ _ => inferInstanceAs (Decidable (_ = true → _ ≠ _))
  | .set _ _ _ (some _) _ _ => .isTrue fun _ => Option.some_ne_none _
  | .disable k _ _ => inferInstanceAs (Decidable (s.installed k = true))

instance decKeyFits (wapi : Bool) (s : KeyState V Bool) : (a : KeyAct V Bool) → Decidable (KeyFits wapi s a)
  | .iface (.remove v) => inferInstanceAs (Decidable (s.hw.lastGone v → _))
  | .iface (.change v type p2p _) =>
    inferInstanceAs (Decidable (s.hw.changes v type p2p = true → s.hw.lastGone v → _))
  | .iface (.add ..) | .iface (.join ..) | .iface (.unjoin ..) | .iface (.beaconing ..) => .isTrue trivial
  | .set v k c sta term addOk =>
    inferInstanceAs (Decidable (if term then s.installed k = true
      else if s.hw.installs wapi addOk v c (sta.getD 0) then s.installed k = false
      else (s.hw.priv v).cipherType = c.cipher))
  | .disable _ term _ => inferInstanceAs (Decidable (term = false))

end

def sampleKeys : KeyState Bool Bool := ⟨sampleHw .station, fun _ => 0, fun _ => false⟩

def sampleCcmp : KeyConf := ⟨wlanCipherSuiteCcmp, 16, List.replicate 16 7, 0, true⟩

def keyRun : List (KeyAct Bool Bool) :=
  [.iface (.add false (sampleAdd 2 true)), .set false false sampleCcmp (some 9) false true,
    .set false true sampleCcmp (some 8) false true, .disable false false 0]

theorem keys_accounted_two : KeysOk (keyRun.foldl (KeyAct.next false) sampleKeys) :=
  have h : Fires KeyAct.enabled (KeyAct.next false) sampleKeys keyRun := by decide +kernel
  ((keys_accounted (Path.ofFires h) (sampleHw_start .station) (fun _ => rfl)).mpr (by decide +kernel)).2

/-- The interface goes with its key installed, and comes back for another. -/
def keyRunLast : List (KeyAct Bool Bool) :=
  [.iface (.add false (sampleAdd 2 true)), .set false false sampleCcmp (some 9) false true,
    .iface (.remove false), .iface (.add false (sampleAdd 2 true)), .set false true sampleCcmp (some 8) false true]

/-- A cipher that the driver does not know is recorded all the same; and two installed keys have one slot. -/
theorem keys_miscounted :
    (∃ s, Reach (keying false Bool Bool) s ∧
      let r := s.hw.setKey false false true false ⟨0x000FAC08, 16, [], 0, false⟩ 0
      r.2.1 = eOpnotsupp ∧ (s.hw.priv false).cipherType = 0 ∧ (r.1.priv false).cipherType = 0x000FAC08) ∧
    ∃ s, Reach (keying false Bool Bool) s ∧
      s.installed false = true ∧ s.installed true = true ∧ s.hwKeyIdx false = s.hwKeyIdx true :=
  have h0 : Reach (keying false Bool Bool) sampleKeys := .init ⟨sampleHw_start .station, fun _ => rfl⟩
  ⟨⟨_, h0.fires (l := [.iface (.add false (sampleAdd 2 true))]) (by decide +kernel), by decide +kernel⟩,
    _, h0.fires (l := keyRunLast) (by decide +kernel), by decide +kernel⟩

end AtbmWifi
