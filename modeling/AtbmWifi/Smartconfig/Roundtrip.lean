import Mathlib.Data.Finset.Card
import Mathlib.Data.Finset.Range
import AtbmWifi.Smartconfig.PayloadBounds
import AtbmWifi.Smartconfig.Symbols

/-!
# Decoding undoes the sender's encoding

Of the symbols of one SSID and password, received in any order and number, a slot of the buffer holds nothing or
the symbol that belongs there, and the count is the number of the slots that hold one (`Kept`).  So the count is
complete only with every data symbol in its place, and then the checksum is right only with the SSID length.
-/

namespace AtbmWifi

open Memory

section

variable (ssid password : List UInt8)

/-- Data symbol `i`, which belongs to slot `i + 1`. -/
def symbolAt (i : Nat) : BitVec 16 := dataSymbol i ((encryptPayload (password ++ ssid)).getD i 0)

theorem length_nibbles : (encryptPayload (password ++ ssid)).length = 2 * (ssid.length + password.length) := by
  rw [length_encryptPayload, List.length_append, Nat.add_comm]

theorem dataSymbols_eq :
    dataSymbols ssid password = (List.range (2 * (ssid.length + password.length))).map (symbolAt ssid password) := by
  have hlen := length_nibbles ssid password
  unfold dataSymbols
  apply List.ext_getElem
  · rw [List.length_mapIdx, List.length_map, List.length_range, hlen]
  · intro i h1 h2
    rw [List.length_mapIdx] at h1
    rw [List.getElem_mapIdx, List.getElem_map, List.getElem_range]
    unfold symbolAt
    rw [List.getD_eq_getElem _ _ h1]

theorem mem_smartconfigSend {c : BitVec 16 × Nat} (h : c ∈ smartconfigSend ssid password) :
    c.1 = totalSymbol (ssid.length + password.length) ∨
    c.1 = complementSymbol (totalSymbol (ssid.length + password.length)) ∨
    c.1 = ssidSymbol ssid.length ∨
    (∃ i < 2 * (ssid.length + password.length), c = (symbolAt ssid password i, i / 16)) ∨
    c.1 = checksumSymbol (checksumSend ssid password) := by
  unfold smartconfigSend at h
  simp only [List.mem_append, List.mem_cons, List.not_mem_nil, or_false, List.mem_mapIdx] at h
  rcases h with ((rfl | rfl | rfl) | ⟨i, hi, rfl⟩) | rfl
  · exact .inl rfl
  · exact .inr (.inl rfl)
  · exact .inr (.inr (.inl rfl))
  · have hlen : (dataSymbols ssid password).length = 2 * (ssid.length + password.length) := by
      rw [dataSymbols_eq, List.length_map, List.length_range]
    have hget : (dataSymbols ssid password)[i] = symbolAt ssid password i := by
      simp only [dataSymbols_eq, List.getElem_map, List.getElem_range]
    rw [hget]
    exact .inr (.inr (.inr (.inl ⟨i, hlen ▸ hi, rfl⟩)))
  · exact .inr (.inr (.inr (.inr rfl)))

theorem low7_add {w : Nat} (hw : 7 ≤ w) (x y : BitVec w) : low7 (x + y) = low7 x + low7 y := BitVec.setWidth_add x y hw

theorem low7_signExtend (x : BitVec 16) : low7 (x.signExtend 32) = low7 x := by
  unfold low7
  apply BitVec.eq_of_getLsbD_eq
  intro k hk
  interval_cases k <;> simp [BitVec.getElem_signExtend]

theorem low7_slotSum (p : Nat → BitVec 16) (n : Nat) :
    low7 (slotSum p n) = ((List.range n).map fun j => low7 (p j)).sum := by
  unfold slotSum
  induction n with
  | zero => rfl
  | succ n ih =>
    rw [List.range_succ, List.map_append, List.map_append, List.sum_append, List.sum_append, low7_add (by decide), ih]
    simp [low7_signExtend]

theorem low7_foldl (l : List (BitVec 16)) (x : BitVec 16) : low7 (l.foldl (· + ·) x) = low7 x + (l.map low7).sum := by
  induction l generalizing x with
  | nil => simp
  | cons y l ih =>
    rw [List.foldl_cons, ih, low7_add (by decide), List.map_cons, List.sum_cons, BitVec.add_assoc]

theorem checksumMatches_iff {p : Nat → BitVec 16} {len : Nat} {s : BitVec 16} (hp : p len = checksumSymbol s) :
    checksumMatches p len = true ↔ low7 (slotSum p len) = low7 s := by
  have hrecv (t : BitVec 32) : checksumOf t &&& 0xffff#32 = (low7 t).setWidth 32 ||| 0x300#32 := by
    unfold checksumOf low7 stcRandomDataMask stcPaloadFCsum
    apply BitVec.eq_of_getLsbD_eq
    intro k hk
    interval_cases k <;> simp
  have hsend : (checksumSymbol s).signExtend 32 = (low7 s).setWidth 32 ||| 0x300#32 := by
    unfold checksumSymbol low7 stcPaloadFCsum
    apply BitVec.eq_of_getLsbD_eq
    intro k hk
    interval_cases k <;> simp [BitVec.getElem_signExtend, BitVec.msb_eq_getLsbD_last]
  have hback (x : BitVec 7) : (x.setWidth 32 ||| 0x300#32).setWidth 7 = x := by
    apply BitVec.eq_of_getLsbD_eq
    intro k hk
    interval_cases k <;> simp
  unfold checksumMatches
  rw [beq_iff_eq, hp, hrecv, hsend]
  constructor
  · intro h
    have hcut := congrArg (BitVec.setWidth 7) h
    rwa [hback, hback] at hcut
  · intro h
    rw [h]

/-- `hmac_cfg` holds the SSID and the password. -/
structure HmacConfigure.Holds (cfg : HmacConfigure) : Prop where
  ssidLen : cfg.ssidLen.toNat = ssid.length
  passwordLen : cfg.passwordLen.toNat = password.length
  ssid : cfg.ssid.val.take ssid.length = ssid
  password : cfg.password.val.take password.length = password

variable {ssid password} {p : Nat → BitVec 16}

theorem nibblesOver_symbols (be : Bool) (hdata : ∀ i < 2 * (ssid.length + password.length), p (1 + i) = symbolAt ssid password i)
    {j : Nat} (hj : j < 2 * (ssid.length + password.length)) :
    nibblesOver be (bytesOf be p) (2 * (ssid.length + password.length)) j =
      (encryptPayload (password ++ ssid)).getD j 0 &&& 0xf := by
  unfold nibblesOver payloadHdrLen
  rw [if_pos hj, shortsOf_bytesOf, hdata j hj]
  exact lowByte_dataSymbol j _

theorem joinedByte_symbols (be : Bool) (hdata : ∀ i < 2 * (ssid.length + password.length), p (1 + i) = symbolAt ssid password i)
    {k : Nat} (hk : k < (password ++ ssid).length) :
    joinedByte (nibblesOver be (bytesOf be p) (2 * (ssid.length + password.length))) k = (password ++ ssid)[k] := by
  have hlen : (password ++ ssid).length = ssid.length + password.length := by
    rw [List.length_append, Nat.add_comm]
  obtain ⟨hlow, hhigh⟩ := encryptPayload_nibbles (password ++ ssid) hk
  unfold joinedByte
  rw [nibblesOver_symbols be hdata (by omega), nibblesOver_symbols be hdata (by omega), List.getD_eq_getElem?_getD,
    List.getD_eq_getElem?_getD, hlow, hhigh]
  exact joined_nibbles _

theorem payloadBuildData_holds (be : Bool) (cfg : HmacConfigure) (h0 : p 0 = ssidSymbol ssid.length)
    (hdata : ∀ i < 2 * (ssid.length + password.length), p (1 + i) = symbolAt ssid password i)
    (hssid : ssid.length ≤ 32) (hpwd : password.length ≤ 64) :
    ∃ r, payloadBuildData be p (2 * (ssid.length + password.length)) cfg = some r ∧ r.2.Holds ssid password := by
  have hssidlen : ssidlenOf p = ssid.length := by
    unfold ssidlenOf
    rw [h0]
    exact ssidSymbol_octet _ (by omega)
  have hhalf : (2 * (ssid.length + password.length) + 1) / 2 = ssid.length + password.length := by omega
  have hlen : 2 * (ssid.length + password.length) / 2 = ssid.length + password.length := by omega
  have hrest : ssid.length + password.length - ssid.length = password.length := by omega
  obtain ⟨a, ha, hbytes⟩ := ssidPassword_eq (nibblesOver be (bytesOf be p) (2 * (ssid.length + password.length)))
    (n := ssid.length + password.length) (by omega)
  have hpair : a.val.take (ssid.length + password.length) = password ++ ssid := by
    rw [hbytes]
    apply List.ext_getElem
    · rw [List.length_map, List.length_range, List.length_append, Nat.add_comm]
    · intro k h1 h2
      rw [List.getElem_map, List.getElem_range]
      exact joinedByte_symbols be hdata h2
  obtain ⟨c, hc, hcs, hcp, hpwdEq, hssidEq⟩ := copyConfig_eq a password.length ssid.length cfg (by omega) hssid hpwd
  refine ⟨(shortsOf be (nibblesOver be (bytesOf be p) (2 * (ssid.length + password.length))), c), ?_, ?_⟩
  · unfold payloadBuildData
    rw [dencryptPayload_eq be _ (by unfold stPayloadBufSz; omega)]
    show Option.bind (ssidPassword _ ((2 * (ssid.length + password.length) + 1) / 2)) _ = _
    rw [hhalf, ha]
    show Option.bind (buildConfig a (ssidlenOf p) _ cfg) _ = _
    unfold buildConfig
    rw [hssidlen, hlen, if_pos (by omega), hrest, hc]
    rfl
  · constructor
    · show c.ssidLen.toNat = _
      rw [hcs, UInt8.toNat_ofNat_of_lt' (Nat.lt_of_le_of_lt hssid (by decide))]
    · show c.passwordLen.toNat = _
      rw [hcp, UInt8.toNat_ofNat_of_lt' (Nat.lt_of_le_of_lt hpwd (by decide))]
    · have hcut : (a.val.drop password.length).take ssid.length =
          (a.val.take (ssid.length + password.length)).drop password.length := by
        rw [List.drop_take]
        congr 1
        omega
      rw [show (shortsOf be _, c).2.ssid.val.take ssid.length = _ from hssidEq, hcut, hpair, List.drop_left]
    · have hcut : a.val.take password.length = (a.val.take (ssid.length + password.length)).take password.length := by
        rw [List.take_take]
        congr 1
        omega
      rw [show (shortsOf be _, c).2.password.val.take password.length = _ from hpwdEq, hcut, hpair, List.take_left]

/-! ## What the decoder has of the symbols -/

variable (ssid password) in
def filled (p : Nat → BitVec 16) : Finset Nat :=
  (Finset.range (2 * (ssid.length + password.length))).filter fun i => p (1 + i) ≠ 0

namespace SmartconfigDecoder

variable (ssid password) in
/-- Each slot holds nothing or its symbol, and the count is right. -/
structure Kept (d : SmartconfigDecoder) : Prop where
  header : d.oriPayload 0 = 0 ∨ d.oriPayload 0 = ssidSymbol ssid.length
  data : ∀ i < 2 * (ssid.length + password.length), d.oriPayload (1 + i) = 0 ∨ d.oriPayload (1 + i) = symbolAt ssid password i
  count : d.payloaddatalen = (filled ssid password d.oriPayload).card

variable (ssid password) in
/-- What the decoder is in when it has received nothing but symbols of the transmission. -/
def Follows (d : SmartconfigDecoder) : Prop :=
  match d.smartconfgSt with
  | .payload => True
  | .rePayload => Kept ssid password d
  | .getTotallen => Kept ssid password d ∧ d.oriData0 = totalSymbol (ssid.length + password.length)
  | .getPayload => Kept ssid password d ∧ d.totallen = 2 * (ssid.length + password.length) + 2
  | .getPayloadCsum => Kept ssid password d ∧ d.totallen = 2 * (ssid.length + password.length) + 2
  | .doneSuccess => d.hmacCfg.Holds ssid password
  | _ => False

variable {d d' : SmartconfigDecoder} {be : Bool}

theorem symbolAt_ne_zero (i : Nat) : symbolAt ssid password i ≠ 0 := dataSymbol_ne_zero i _

theorem slotOf_symbolAt (i : Nat) : slotOf (symbolAt ssid password i) (i / 16) = 1 + i := by
  unfold slotOf symbolAt payloadHdrLen
  rw [payloaddataId_dataSymbol]
  omega

theorem kept_clear : Kept ssid password d.clear where
  header := .inl rfl
  data _ _ := .inl rfl
  count := by
    show 0 = (filled ssid password fun _ => 0).card
    simp [filled]

variable {i j : Nat} {c : BitVec 16 × Nat}

theorem filled_setAt {p : Nat → BitVec 16} (hi : i < 2 * (ssid.length + password.length)) :
    filled ssid password (setAt p (1 + i) (symbolAt ssid password i)) = insert i (filled ssid password p) := by
  unfold filled
  ext j
  simp only [Finset.mem_filter, Finset.mem_range, Finset.mem_insert]
  by_cases hj : j = i
  · subst hj
    simpa [hi] using symbolAt_ne_zero j
  · rw [setAt_of_ne (by omega)]
    simp [hj]

theorem Kept.setAt_data (hd : Kept ssid password d) (hi : i < 2 * (ssid.length + password.length)) :
    ∀ j < 2 * (ssid.length + password.length), setAt d.oriPayload (1 + i) (symbolAt ssid password i) (1 + j) = 0 ∨
      setAt d.oriPayload (1 + i) (symbolAt ssid password i) (1 + j) = symbolAt ssid password j := by
  intro j hj
  by_cases hij : j = i
  · subst hij
    exact .inr (setAt_self _ _ _)
  · rw [setAt_of_ne (by omega)]
    exact hd.data j hj

theorem Kept.complete (hd : Kept ssid password d) (hcount : d.payloaddatalen = 2 * (ssid.length + password.length)) :
    ∀ i < 2 * (ssid.length + password.length), d.oriPayload (1 + i) = symbolAt ssid password i := by
  have hall : filled ssid password d.oriPayload = Finset.range (2 * (ssid.length + password.length)) := by
    apply Finset.eq_of_subset_of_card_le (Finset.filter_subset _ _)
    show _ ≤ (filled ssid password d.oriPayload).card
    rw [Finset.card_range, ← hd.count, hcount]
  intro i hi
  have hmem : i ∈ filled ssid password d.oriPayload := by
    rw [hall]
    exact Finset.mem_range.mpr hi
  exact (hd.data i hi).resolve_left (Finset.mem_filter.mp hmem).2

theorem noteData_fields (d : SmartconfigDecoder) (x : BitVec 16) (t : Nat) :
    (d.noteData x t).oriPayload = d.oriPayload ∧ (d.noteData x t).payloaddatalen = d.payloaddatalen ∧
      ((d.noteData x t).smartconfgSt = d.smartconfgSt ∨ (d.noteData x t).smartconfgSt = .getPayloadCsum) := by
  unfold noteData
  dsimp only
  split
  · exact ⟨rfl, rfl, .inr rfl⟩
  · exact ⟨rfl, rfl, .inl rfl⟩

theorem setAt_same {ι α : Type} [DecidableEq ι] {f : ι → α} {i : ι} {v : α} (h : f i = v) : setAt f i v = f := by
  funext j
  by_cases hj : j = i
  · subst hj
    rw [setAt_self, h]
  · exact setAt_of_ne hj f v

theorem storeData_symbol (hd : Kept ssid password d) (htot : d.totallen = 2 * (ssid.length + password.length) + 2)
    (hi : i < 2 * (ssid.length + password.length)) :
    (d.storeData (symbolAt ssid password i) (i / 16)).oriPayload = setAt d.oriPayload (1 + i) (symbolAt ssid password i) ∧
    (d.storeData (symbolAt ssid password i) (i / 16)).payloaddatalen =
      (if d.oriPayload (1 + i) = 0 then d.payloaddatalen + 1 else d.payloaddatalen) ∧
    ((d.storeData (symbolAt ssid password i) (i / 16)).smartconfgSt = d.smartconfgSt ∨
      (d.storeData (symbolAt ssid password i) (i / 16)).smartconfgSt = .getPayloadCsum) := by
  have hin : ¬ d.totallen - payloadHdrLen ≤ 1 + i := by
    unfold payloadHdrLen
    omega
  unfold storeData
  dsimp only
  rw [slotOf_symbolAt]
  by_cases h0 : d.oriPayload (1 + i) = 0
  · rw [if_pos h0, if_neg hin, if_pos h0]
    exact noteData_fields _ _ _
  · have hsame := setAt_same ((hd.data i hi).resolve_left h0)
    rw [if_neg h0, if_neg h0, hsame]
    split
    · exact noteData_fields _ _ _
    · exact noteData_fields _ _ _

theorem kept_storeData (hd : Kept ssid password d) (htot : d.totallen = 2 * (ssid.length + password.length) + 2)
    (hi : i < 2 * (ssid.length + password.length)) : Kept ssid password (d.storeData (symbolAt ssid password i) (i / 16)) := by
  obtain ⟨hp, hlen, -⟩ := storeData_symbol hd htot hi
  constructor
  · rw [hp, setAt_of_ne (by omega)]
    exact hd.header
  · rw [hp]
    exact hd.setAt_data hi
  · rw [hp, hlen, filled_setAt hi, hd.count]
    by_cases h0 : d.oriPayload (1 + i) = 0
    · rw [if_pos h0, Finset.card_insert_of_notMem (by simp [filled, h0])]
    · have hmem : i ∈ filled ssid password d.oriPayload := Finset.mem_filter.mpr ⟨Finset.mem_range.mpr hi, h0⟩
      rw [if_neg h0, Finset.insert_eq_of_mem hmem]

theorem Kept.congr (hd : Kept ssid password d) (h0 : d'.oriPayload 0 = 0 ∨ d'.oriPayload 0 = ssidSymbol ssid.length)
    (hslots : ∀ i < 2 * (ssid.length + password.length), d'.oriPayload (1 + i) = d.oriPayload (1 + i))
    (hlen : d'.payloaddatalen = d.payloaddatalen) : Kept ssid password d' where
  header := h0
  data i hi := by
    rw [hslots i hi]
    exact hd.data i hi
  count := by
    have hfilled : filled ssid password d'.oriPayload = filled ssid password d.oriPayload := by
      unfold filled
      apply Finset.filter_congr
      intro i hi
      rw [hslots i (Finset.mem_range.mp hi)]
    rw [hlen, hfilled]
    exact hd.count

theorem kept_checksum (hd : Kept ssid password d) (htot : d.totallen = 2 * (ssid.length + password.length) + 2) (x : BitVec 16)
    (hp : d'.oriPayload = setAt d.oriPayload (d.totallen - 1) x) (hlen : d'.payloaddatalen = d.payloaddatalen) :
    Kept ssid password d' := by
  apply hd.congr
  · rw [hp, setAt_of_ne (by omega)]
    exact hd.header
  · intro i hi
    rw [hp, setAt_of_ne (by omega)]
  · exact hlen

theorem checksum_complete {p : Nat → BitVec 16} (h0 : p 0 = 0 ∨ p 0 = ssidSymbol ssid.length)
    (hdata : ∀ i < 2 * (ssid.length + password.length), p (1 + i) = symbolAt ssid password i)
    (hsum : p (2 * (ssid.length + password.length) + 1) = checksumSymbol (checksumSend ssid password))
    (hpos : 0 < ssid.length) (hssid : ssid.length ≤ 32) :
    checksumMatches p (2 * (ssid.length + password.length) + 1) = true ↔ p 0 = ssidSymbol ssid.length := by
  have hrecv : low7 (slotSum p (2 * (ssid.length + password.length) + 1)) = low7 (p 0) +
      ((List.range (2 * (ssid.length + password.length))).map fun i => low7 (symbolAt ssid password i)).sum := by
    rw [low7_slotSum, List.range_succ_eq_map, List.map_cons, List.sum_cons, List.map_map]
    congr 2
    apply List.map_congr_left
    intro i hi
    show low7 (p (i + 1)) = _
    rw [Nat.add_comm, hdata i (List.mem_range.mp hi)]
  have hsend : low7 (checksumSend ssid password) = low7 (ssidSymbol ssid.length) +
      ((List.range (2 * (ssid.length + password.length))).map fun i => low7 (symbolAt ssid password i)).sum := by
    unfold checksumSend
    rw [low7_foldl, dataSymbols_eq, List.map_map]
    rfl
  rw [checksumMatches_iff hsum, hrecv, hsend]
  constructor
  · intro h
    refine h0.resolve_left fun hzero => ?_
    have hlow := BitVec.add_left_inj _ |>.mp h
    rw [hzero, low7_ssidSymbol] at hlow
    have hnat := congrArg BitVec.toNat hlow
    rw [BitVec.toNat_ofNat, Nat.mod_eq_of_lt (by omega)] at hnat
    have hz : (low7 (0 : BitVec 16)).toNat = 0 := by decide
    omega
  · intro h
    rw [h]

theorem isTotallen_total (hc : c ∈ smartconfigSend ssid password) (h : isTotallen c.1) :
    c.1 = totalSymbol (ssid.length + password.length) := by
  have hkind : c.1 &&& stcStctypeFMask = stcTotallenFTotalLen := eq_of_beq h
  rcases mem_smartconfigSend ssid password hc with hx | hx | hx | ⟨i, -, rfl⟩ | hx
  · exact hx
  · rw [hx, complementSymbol_kind] at hkind
    exact absurd hkind (by decide)
  · rw [hx, kind_of_isSsidlen (isSsidlen_ssidSymbol _)] at hkind
    exact absurd hkind (by decide)
  · rw [symbolAt, dataSymbol_kind] at hkind
    exact absurd hkind (by decide)
  · rw [hx, checksumSymbol_kind] at hkind
    exact absurd hkind (by decide)

theorem recvPayload_other {x k : BitVec 16} (hx : x &&& stcStctypeFMask = k) (h1 : k ≠ stcPaloadFSsidrandom)
    (h2 : k ≠ stcPaloadFData) (h3 : k ≠ stcPaloadFCsum) (t : Nat) : d.recvPayload be x t = some d := by
  have hdata : isPayloadData x = false := by
    unfold isPayloadData
    rw [hx]
    exact beq_eq_false_iff_ne.mpr h2
  have hcsum : isPayloadCsum x = false := by
    unfold isPayloadCsum
    rw [hx]
    exact beq_eq_false_iff_ne.mpr h3
  unfold recvPayload
  rw [isSsidlen_false hx h1, hdata, hcsum]
  rfl

theorem follows_recvTotallen (hd : Kept ssid password d)
    (hst : d.smartconfgSt = .payload ∨ d.smartconfgSt = .rePayload) (hc : c ∈ smartconfigSend ssid password) :
    (d.recvTotallen c.1).Follows ssid password := by
  unfold recvTotallen
  dsimp only
  split
  · rename_i h
    exact ⟨hd.congr hd.header (fun _ _ => rfl) rfl, isTotallen_total hc h.2⟩
  · rcases hst with hst | hst
    · unfold Follows
      simp only [hst]
    · unfold Follows
      simp only [hst]
      exact hd.congr hd.header (fun _ _ => rfl) rfl

theorem follows_recvTotallenCsum (hn : ssid.length + password.length < 97)
    (hd : Kept ssid password d) (hst : d.smartconfgSt = .getTotallen)
    (htot : d.oriData0 = totalSymbol (ssid.length + password.length)) (hc : c ∈ smartconfigSend ssid password) :
    (d.recvTotallenCsum c.1).Follows ssid password := by
  unfold recvTotallenCsum
  dsimp only
  split
  · split
    · trivial
    · split
      · trivial
      · refine ⟨hd.congr hd.header (fun _ _ => rfl) rfl, ?_⟩
        show (d.oriData0 &&& 0xff#16).toNat = _
        rw [htot]
        exact totalSymbol_octet _ hn
  · split
    · rename_i h
      unfold Follows
      simp only [hst]
      exact ⟨hd.congr hd.header (fun _ _ => rfl) rfl, isTotallen_total hc h⟩
    · trivial

/-- The checksum: too early it is ignored, without the SSID length it does not match, and else the credentials are
there. -/
theorem follows_recvCsum (be : Bool) (hpos : 0 < ssid.length) (hssid : ssid.length ≤ 32) (hpwd : password.length ≤ 64)
    (hd : Kept ssid password d) (htot : d.totallen = 2 * (ssid.length + password.length) + 2) :
    ∃ d', d.recvCsum be (checksumSymbol (checksumSend ssid password)) = some d' ∧ d'.Follows ssid password ∧
      (d.oriPayload 0 = ssidSymbol ssid.length → d.payloaddatalen = 2 * (ssid.length + password.length) →
        d'.smartconfgSt = .doneSuccess) := by
  have hindex : d.totallen - 1 = 2 * (ssid.length + password.length) + 1 := by omega
  have hneed : d.totallen - payloadHdrLen - 1 = 2 * (ssid.length + password.length) := by
    unfold payloadHdrLen
    omega
  have hin : 2 * (ssid.length + password.length) + 1 < stPayloadBufSz := by
    unfold stPayloadBufSz
    omega
  obtain ⟨p, hp⟩ : ∃ p, p = setAt d.oriPayload (2 * (ssid.length + password.length) + 1)
      (checksumSymbol (checksumSend ssid password)) := ⟨_, rfl⟩
  have hother {j : Nat} (hj : j ≤ 2 * (ssid.length + password.length)) : p j = d.oriPayload j := by
    rw [hp]
    exact setAt_of_ne (by omega) _ _
  unfold recvCsum
  rw [hindex, writeSlot_eq hin, ← hp, hneed]
  show ∃ d', (if d.payloaddatalen = 2 * (ssid.length + password.length) then
    ({ d with oriPayload := p } : SmartconfigDecoder).finish be
    else some { d with oriPayload := p, smartconfgSt := .rePayload }) = some d' ∧ _
  by_cases hcount : d.payloaddatalen = 2 * (ssid.length + password.length)
  · have hdata (i : Nat) (hi : i < 2 * (ssid.length + password.length)) : p (1 + i) = symbolAt ssid password i := by
      rw [hother (by omega)]
      exact hd.complete hcount i hi
    have hsum := checksum_complete (hother (Nat.zero_le _) ▸ hd.header) hdata (by rw [hp, setAt_self]) hpos hssid
    rw [if_pos hcount]
    unfold finish
    dsimp only
    rw [hcount, payloadchecksum_eq p hin]
    by_cases hmatch : checksumMatches p (2 * (ssid.length + password.length) + 1) = true
    · obtain ⟨r, hr, hholds⟩ := payloadBuildData_holds be d.hmacCfg (hsum.mp hmatch) hdata hssid hpwd
      rw [hmatch, hr]
      exact ⟨_, rfl, hholds, fun _ _ => rfl⟩
    · rw [Bool.eq_false_of_not_eq_true hmatch]
      refine ⟨_, rfl, trivial, ?_⟩
      intro h0 _
      exact absurd (hsum.mpr ((hother (Nat.zero_le _)).trans h0)) hmatch
  · rw [if_neg hcount]
    refine ⟨_, rfl, ?_, fun _ h => absurd h hcount⟩
    exact kept_checksum hd htot _ (by rw [hindex]; exact hp) rfl

theorem follows_recvPayload (hpos : 0 < ssid.length) (hssid : ssid.length ≤ 32)
    (hpwd : password.length ≤ 64) (hd : Kept ssid password d)
    (htot : d.totallen = 2 * (ssid.length + password.length) + 2)
    (hst : d.smartconfgSt = .getPayload ∨ d.smartconfgSt = .getPayloadCsum) (hc : c ∈ smartconfigSend ssid password) :
    ∃ d', d.recvPayload be c.1 c.2 = some d' ∧ d'.Follows ssid password := by
  have hn : ssid.length + password.length < 97 := by omega
  have hstay (e : SmartconfigDecoder) (he : Kept ssid password e)
      (hest : e.smartconfgSt = d.smartconfgSt ∨ e.smartconfgSt = .getPayloadCsum) (hlen : e.totallen = d.totallen) :
      e.Follows ssid password := by
    have hlen' := hlen.trans htot
    unfold Follows
    rcases hst with hst | hst <;> rw [hst] at hest <;> rcases hest with hest | hest <;>
      simp only [hest] <;> exact ⟨he, hlen'⟩
  rcases mem_smartconfigSend ssid password hc with hx | hx | hx | ⟨i, hi, rfl⟩ | hx
  · refine ⟨d, ?_, hstay d hd (.inl rfl) rfl⟩
    rw [hx]
    exact recvPayload_other (totalSymbol_kind _ hn) (by decide) (by decide) (by decide) _
  · refine ⟨d, ?_, hstay d hd (.inl rfl) rfl⟩
    rw [hx]
    exact recvPayload_other (complementSymbol_kind _) (by decide) (by decide) (by decide) _
  · refine ⟨{ d with oriPayload := setAt d.oriPayload 0 c.1, ssidLen := c.1 &&& stcSsidlenDataMask }, ?_, ?_⟩
    · unfold recvPayload
      rw [hx, if_pos (isSsidlen_ssidSymbol _)]
      rfl
    · have hk : Kept ssid password { d with oriPayload := setAt d.oriPayload 0 c.1, ssidLen := c.1 &&& stcSsidlenDataMask } := by
        apply hd.congr
        · show setAt d.oriPayload 0 c.1 0 = 0 ∨ setAt d.oriPayload 0 c.1 0 = _
          rw [setAt_self, hx]
          exact .inr rfl
        · intro j _
          show setAt d.oriPayload 0 c.1 (1 + j) = _
          exact setAt_of_ne (by omega) _ _
        · rfl
      exact hstay _ hk (.inl rfl) rfl
  · refine ⟨d.storeData (symbolAt ssid password i) (i / 16), ?_, ?_⟩
    · have hslot : slotOf (symbolAt ssid password i) (i / 16) < stPayloadBufSz := by
        rw [slotOf_symbolAt]
        unfold stPayloadBufSz
        omega
      unfold recvPayload
      rw [show isSsidlen (symbolAt ssid password i) = false from isSsidlen_dataSymbol i _,
        show isPayloadData (symbolAt ssid password i) = true from isPayloadData_dataSymbol i _]
      exact if_pos hslot
    · exact hstay _ (kept_storeData hd htot hi) (storeData_symbol hd htot hi).2.2 totallen_storeData
  · obtain ⟨d', hd', hfollows, -⟩ := follows_recvCsum be hpos hssid hpwd hd htot
    refine ⟨d', ?_, hfollows⟩
    unfold recvPayload
    rw [hx, isSsidlen_checksumSymbol, isPayloadData_checksumSymbol, isPayloadCsum_checksumSymbol]
    exact hd'

/-- **One symbol** of the transmission, in any state that its symbols lead to. -/
theorem follows_step (be : Bool) (hpos : 0 < ssid.length) (hssid : ssid.length ≤ 32)
    (hpwd : password.length ≤ 64) (hd : d.Follows ssid password) (hc : c ∈ smartconfigSend ssid password) :
    ∃ d', d.funRecvPayload be c.1 c.2 = some d' ∧ d'.Follows ssid password := by
  have hn : ssid.length + password.length < 97 := by omega
  unfold funRecvPayload
  unfold Follows at hd
  split
  case h_1 hst => exact ⟨_, rfl, follows_recvTotallen kept_clear (.inl hst) hc⟩
  case h_2 hst =>
    simp only [hst] at hd
    exact ⟨_, rfl, follows_recvTotallen hd (.inr hst) hc⟩
  case h_3 hst =>
    simp only [hst] at hd
    exact ⟨_, rfl, follows_recvTotallenCsum hn hd.1 hst hd.2 hc⟩
  case h_4 hst =>
    simp only [hst] at hd
    exact follows_recvPayload hpos hssid hpwd hd.1 hd.2 (.inl hst) hc
  case h_5 hst =>
    simp only [hst] at hd
    exact follows_recvPayload hpos hssid hpwd hd.1 hd.2 (.inr hst) hc
  case h_6 => exact ⟨d, rfl, hd⟩

theorem recvAll_cons (be : Bool) (d : SmartconfigDecoder) (c : BitVec 16 × Nat) (calls : List (BitVec 16 × Nat)) :
    d.recvAll be (c :: calls) = (d.funRecvPayload be c.1 c.2).bind fun e => e.recvAll be calls := rfl

theorem follows_run (be : Bool) (hpos : 0 < ssid.length) (hssid : ssid.length ≤ 32) (hpwd : password.length ≤ 64)
    {got : List (BitVec 16 × Nat)} (hgot : got ⊆ smartconfigSend ssid password) (hd : d.Follows ssid password) :
    ∃ d', d.recvAll be got = some d' ∧ d'.Follows ssid password := by
  induction got generalizing d with
  | nil => exact ⟨d, rfl, hd⟩
  | cons c got ih =>
    obtain ⟨hc, hrest⟩ := List.cons_subset.mp hgot
    obtain ⟨e, he, hfollows⟩ := follows_step be hpos hssid hpwd hd hc
    rw [recvAll_cons, he]
    exact ih hrest hfollows

theorem recvAll_append (be : Bool) (d : SmartconfigDecoder) (l l' : List (BitVec 16 × Nat)) :
    d.recvAll be (l ++ l') = (d.recvAll be l).bind fun e => e.recvAll be l' := by
  unfold recvAll
  rw [List.foldlM_append]
  rfl

variable (ssid password) in
/-- The SSID length and the first `j` data symbols are in. -/
structure Collected (d : SmartconfigDecoder) (j : Nat) : Prop where
  kept : Kept ssid password d
  totallen : d.totallen = 2 * (ssid.length + password.length) + 2
  st : d.smartconfgSt = .getPayload ∨ d.smartconfgSt = .getPayloadCsum
  header : d.oriPayload 0 = ssidSymbol ssid.length
  data : ∀ i < j, d.oriPayload (1 + i) = symbolAt ssid password i

theorem funRecvPayload_collected (be : Bool) (hd : Collected ssid password d j) (x : BitVec 16) (t : Nat) :
    d.funRecvPayload be x t = d.recvPayload be x t := by
  unfold funRecvPayload
  rcases hd.st with hst | hst
  · rw [hst]
  · rw [hst]

theorem collected_step (be : Bool) (hssid : ssid.length ≤ 32) (hpwd : password.length ≤ 64)
    (hj : j < 2 * (ssid.length + password.length)) (hd : Collected ssid password d j) :
    ∃ d', d.funRecvPayload be (symbolAt ssid password j) (j / 16) = some d' ∧ Collected ssid password d' (j + 1) := by
  have hslot : slotOf (symbolAt ssid password j) (j / 16) < stPayloadBufSz := by
    rw [slotOf_symbolAt]
    unfold stPayloadBufSz
    omega
  obtain ⟨hp, -, hst⟩ := storeData_symbol hd.kept hd.totallen hj
  refine ⟨d.storeData (symbolAt ssid password j) (j / 16), ?_, kept_storeData hd.kept hd.totallen hj, ?_, ?_, ?_, ?_⟩
  · rw [funRecvPayload_collected be hd]
    unfold recvPayload
    rw [show isSsidlen (symbolAt ssid password j) = false from isSsidlen_dataSymbol j _,
      show isPayloadData (symbolAt ssid password j) = true from isPayloadData_dataSymbol j _]
    exact if_pos hslot
  · exact totallen_storeData.trans hd.totallen
  · rcases hst with hst | hst
    · rw [hst]
      exact hd.st
    · exact .inr hst
  · rw [hp, setAt_of_ne (by omega)]
    exact hd.header
  · intro i hi
    rw [hp]
    by_cases hij : i = j
    · subst hij
      exact setAt_self _ _ _
    · rw [setAt_of_ne (by omega)]
      exact hd.data i (by omega)

theorem collected_run (be : Bool) (hssid : ssid.length ≤ 32) (hpwd : password.length ≤ 64)
    (hd : Collected ssid password d 0) (j : Nat) (hj : j ≤ 2 * (ssid.length + password.length)) :
    ∃ d', d.recvAll be ((List.range j).map fun i => (symbolAt ssid password i, i / 16)) = some d' ∧
      Collected ssid password d' j := by
  induction j with
  | zero => exact ⟨d, rfl, hd⟩
  | succ j ih =>
    obtain ⟨e, he, hcol⟩ := ih (by omega)
    obtain ⟨d', hd', hcol'⟩ := collected_step be hssid hpwd (by omega) hcol
    refine ⟨d', ?_, hcol'⟩
    rw [List.range_succ, List.map_append, recvAll_append, he]
    show e.recvAll be [(symbolAt ssid password j, j / 16)] = _
    rw [recvAll_cons, hd']
    rfl

theorem Collected.count (hd : Collected ssid password d j) (hj : 2 * (ssid.length + password.length) ≤ j) :
    d.payloaddatalen = 2 * (ssid.length + password.length) := by
  have hall : filled ssid password d.oriPayload = Finset.range (2 * (ssid.length + password.length)) := by
    apply Finset.filter_true_of_mem
    intro i hi
    have hlt := Finset.mem_range.mp hi
    rw [hd.data i (by omega)]
    exact symbolAt_ne_zero i
  rw [hd.kept.count, hall, Finset.card_range]

theorem collected_header (be : Bool) (hssid : ssid.length ≤ 32) (hpwd : password.length ≤ 64)
    (hmin : 2 ≤ ssid.length + password.length) (hst : d.smartconfgSt = .payload) :
    ∃ d', d.recvAll be [(totalSymbol (ssid.length + password.length), 0),
        (complementSymbol (totalSymbol (ssid.length + password.length)), 0), (ssidSymbol ssid.length, 0)] = some d' ∧
      Collected ssid password d' 0 := by
  have hn : ssid.length + password.length < 97 := by omega
  have htotal : isTotallen (totalSymbol (ssid.length + password.length)) = true := beq_iff_eq.mpr (totalSymbol_kind _ hn)
  have hcsum : isTotallenCsum (complementSymbol (totalSymbol (ssid.length + password.length))) = true :=
    beq_iff_eq.mpr (complementSymbol_kind _)
  have hoctet := totalSymbol_octet _ hn
  have h1 : d.funRecvPayload be (totalSymbol (ssid.length + password.length)) 0 = some { d.clear with
      payloaddataIdPre := 0, oriData0 := totalSymbol (ssid.length + password.length), smartconfgSt := .getTotallen } := by
    unfold funRecvPayload
    rw [hst]
    unfold recvTotallen
    simp only [totalSymbol_magic _ hn hmin, htotal, and_self, if_true]
  obtain ⟨e, he⟩ : ∃ e, e = ({ d.clear with
      payloaddataIdPre := 0, oriData0 := totalSymbol (ssid.length + password.length),
      smartconfgSt := .getTotallen } : SmartconfigDecoder) := ⟨_, rfl⟩
  have hkept : Kept ssid password e := by
    rw [he]
    exact (kept_clear (d := d)).congr (.inl rfl) (fun _ _ => rfl) rfl
  have h2 : e.funRecvPayload be (complementSymbol (totalSymbol (ssid.length + password.length))) 0 = some { e with
      oriData1 := complementSymbol (totalSymbol (ssid.length + password.length)),
      totallen := 2 * (ssid.length + password.length) + 2, smartconfgSt := .getPayload } := by
    have hest : e.smartconfgSt = .getTotallen := by rw [he]
    have hori : e.oriData0 = totalSymbol (ssid.length + password.length) := by rw [he]
    have hsize : ¬ 2 * (ssid.length + password.length) + 2 < smartconfigMiniLen := by
      unfold smartconfigMiniLen
      omega
    unfold funRecvPayload
    rw [hest]
    unfold recvTotallenCsum
    rw [if_pos hcsum]
    simp only [hori, complementSymbol_eq, ne_eq, not_true_eq_false, if_false, hoctet, hsize]
  refine ⟨{ e with
      oriData1 := complementSymbol (totalSymbol (ssid.length + password.length)),
      totallen := 2 * (ssid.length + password.length) + 2, smartconfgSt := .getPayload,
      oriPayload := setAt e.oriPayload 0 (ssidSymbol ssid.length), ssidLen := ssidSymbol ssid.length &&& stcSsidlenDataMask },
    ?_, ?_, rfl, .inl rfl, ?_, fun i hi => absurd hi (Nat.not_lt_zero i)⟩
  · rw [recvAll_cons, h1, ← he]
    show e.recvAll be _ = _
    rw [recvAll_cons, h2]
    show Option.bind (SmartconfigDecoder.recvPayload be _ (ssidSymbol ssid.length) 0) _ = _
    unfold recvPayload
    rw [if_pos (isSsidlen_ssidSymbol _)]
    rfl
  · apply hkept.congr
    · right
      exact setAt_self e.oriPayload 0 (ssidSymbol ssid.length)
    · intro i _
      exact setAt_of_ne (show 1 + i ≠ 0 by omega) e.oriPayload (ssidSymbol ssid.length)
    · rfl
  · exact setAt_self e.oriPayload 0 (ssidSymbol ssid.length)

theorem smartconfigSend_eq (ssid password : List UInt8) : smartconfigSend ssid password =
    [(totalSymbol (ssid.length + password.length), 0),
      (complementSymbol (totalSymbol (ssid.length + password.length)), 0), (ssidSymbol ssid.length, 0)] ++
    (List.range (2 * (ssid.length + password.length))).map (fun i => (symbolAt ssid password i, i / 16)) ++
    [(checksumSymbol (checksumSend ssid password), 0)] := by
  have hturns : (dataSymbols ssid password).mapIdx (fun i x => (x, i / 16)) =
      (List.range (2 * (ssid.length + password.length))).map fun i => (symbolAt ssid password i, i / 16) := by
    rw [dataSymbols_eq]
    apply List.ext_getElem
    · simp
    · intro i h1 h2
      simp
  unfold smartconfigSend
  dsimp only
  rw [hturns]

theorem done_of_send (be : Bool) (hpos : 0 < ssid.length) (hssid : ssid.length ≤ 32) (hpwd : password.length ≤ 64)
    (hmin : 2 ≤ ssid.length + password.length) (hst : d.smartconfgSt = .payload) :
    ∃ d', d.recvAll be (smartconfigSend ssid password) = some d' ∧ d'.smartconfgSt = .doneSuccess := by
  obtain ⟨d1, h1, hc1⟩ := collected_header be hssid hpwd hmin hst
  obtain ⟨d2, h2, hc2⟩ := collected_run be hssid hpwd hc1 _ (Nat.le_refl _)
  obtain ⟨d3, h3, -, hdone⟩ := follows_recvCsum be hpos hssid hpwd hc2.kept hc2.totallen
  refine ⟨d3, ?_, hdone hc2.header (hc2.count (Nat.le_refl _))⟩
  rw [smartconfigSend_eq, recvAll_append, recvAll_append, h1]
  show Option.bind (d1.recvAll be _) _ = _
  rw [h2]
  show d2.recvAll be _ = _
  rw [recvAll_cons, funRecvPayload_collected be hc2]
  unfold recvPayload
  rw [isSsidlen_checksumSymbol, isPayloadData_checksumSymbol, isPayloadCsum_checksumSymbol]
  show Option.bind (d2.recvCsum be _) _ = _
  rw [h3]
  rfl

end SmartconfigDecoder

end

/-- **Decoding undoes the encoding.**  Whatever is received of any number of transmissions of an SSID and a password,
the decoder stays inside its buffers, and when it reports success `hmac_cfg` holds the SSID and the password.  A
transmission without losses succeeds, if SSID and password have two bytes or more between them. -/
theorem smartconfig_roundtrip (be : Bool) (ssid password : List UInt8) (d : SmartconfigDecoder)
    (hpos : 0 < ssid.length) (hssid : ssid.length ≤ 32) (hpwd : password.length ≤ 64) (hst : d.smartconfgSt = .payload) :
    (∀ times got, Lossy (List.replicate times (smartconfigSend ssid password)).flatten got →
      ∃ d', d.recvAll be got = some d' ∧ (d'.smartconfgSt = .doneSuccess → d'.hmacCfg.Holds ssid password)) ∧
    (2 ≤ ssid.length + password.length →
      ∃ d', d.recvAll be (smartconfigSend ssid password) = some d' ∧ d'.smartconfgSt = .doneSuccess ∧
        d'.hmacCfg.Holds ssid password) := by
  have hstart : d.Follows ssid password := by
    unfold SmartconfigDecoder.Follows
    rw [hst]
    trivial
  have hrun (got : List (BitVec 16 × Nat)) (hgot : got ⊆ smartconfigSend ssid password) : ∃ d', d.recvAll be got = some d' ∧
      (d'.smartconfgSt = .doneSuccess → d'.hmacCfg.Holds ssid password) := by
    obtain ⟨d', hd', hfollows⟩ := SmartconfigDecoder.follows_run be hpos hssid hpwd hgot hstart
    refine ⟨d', hd', fun hdone => ?_⟩
    unfold SmartconfigDecoder.Follows at hfollows
    simpa only [hdone] using hfollows
  refine ⟨?_, ?_⟩
  · intro times got hlossy
    apply hrun
    intro c hc
    obtain ⟨l, hl, hcl⟩ := List.mem_flatten.mp (hlossy.subset hc)
    rwa [List.eq_of_mem_replicate hl] at hcl
  · intro hmin
    obtain ⟨d', hd', hdone⟩ := SmartconfigDecoder.done_of_send be hpos hssid hpwd hmin hst
    obtain ⟨e, he, hholds⟩ := hrun _ (List.Subset.refl _)
    obtain rfl : d' = e := Option.some.inj (hd'.symm.trans he)
    exact ⟨d', hd', hdone, hholds hdone⟩

theorem smartconfig_roundtrip_ab :
    ∃ d', freshDecoder.recvAll false (smartconfigSend [0x61] [0x62]) = some d' ∧ d'.smartconfgSt = .doneSuccess ∧
      d'.hmacCfg.Holds [0x61] [0x62] :=
  (smartconfig_roundtrip false [0x61] [0x62] freshDecoder (by decide) (by decide) (by decide) rfl).2 (by decide)

/-- An open network with a one-byte SSID: the total length is 4, which may also be the magic. -/
theorem smartconfig_short : ¬ ∀ (be : Bool) (ssid password : List UInt8) (d : SmartconfigDecoder),
    0 < ssid.length → ssid.length ≤ 32 → password.length ≤ 64 → d.smartconfgSt = .payload →
    ∃ d', d.recvAll be (smartconfigSend ssid password) = some d' ∧ d'.smartconfgSt = .doneSuccess := by
  intro h
  obtain ⟨d', hd', hdone⟩ := h false [0x61] [] freshDecoder (by decide) (by decide) (by decide) rfl
  have hstays : (freshDecoder.recvAll false (smartconfigSend [0x61] [])).map SmartconfigDecoder.smartconfgSt = some .payload := by
    decide
  rw [hd'] at hstays
  have hpayload : d'.smartconfgSt = .payload := Option.some.inj hstays
  rw [hpayload] at hdone
  exact absurd hdone (by decide)

end AtbmWifi
