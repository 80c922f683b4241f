import AtbmWifi.Smartconfig.Payload

/-!
# What the payload decoder touches

A call leaves the buffers in two ways only: the slot of a data symbol is looked at before it is compared with the
total length, and the credentials are unpacked and copied by lengths that nobody compares with the arrays.
`CallFits` excludes exactly these.
-/

namespace AtbmWifi

open Memory

variable {i n len : Nat} {m : Nat → UInt8}

theorem readSlot_eq {p : Nat → BitVec 16} (h : i < stPayloadBufSz) : readSlot p i = some (p i) := if_pos h

theorem writeSlot_eq {p : Nat → BitVec 16} (h : i < stPayloadBufSz) (x : BitVec 16) :
    writeSlot p i x = some (setAt p i x) :=
  if_pos h

theorem readByte_eq (h : i < 2 * stPayloadBufSz) : readByte m i = some (m i) := if_pos h

theorem writeByte_eq (h : i < 2 * stPayloadBufSz) (b : UInt8) : writeByte m i b = some (setAt m i b) :=
  if_pos h

/-- The sum of the first `n` slots, as an `int`. -/
def slotSum (p : Nat → BitVec 16) (n : Nat) : BitVec 32 := ((List.range n).map fun j => (p j).signExtend 32).sum

theorem checksumRecv_eq (p : Nat → BitVec 16) (h : n ≤ stPayloadBufSz) : checksumRecv p n = some (slotSum p n) := by
  induction n with
  | zero => rfl
  | succ n ih =>
    unfold checksumRecv
    rw [ih (by omega), readSlot_eq (by omega)]
    show some (slotSum p n + (p n).signExtend 32) = some (slotSum p (n + 1))
    unfold slotSum
    rw [List.range_succ, List.map_append, List.sum_append]
    simp

/-- What `payloadchecksum` answers when it stays inside. -/
def checksumMatches (p : Nat → BitVec 16) (len : Nat) : Bool :=
  checksumOf (slotSum p len) &&& 0xffff#32 == (p len).signExtend 32

theorem payloadchecksum_eq (p : Nat → BitVec 16) (h : len < stPayloadBufSz) :
    payloadchecksum p len = some (checksumMatches p len) := by
  unfold payloadchecksum
  rw [checksumRecv_eq p (by omega), readSlot_eq h]
  rfl

/-- The buffer after `n` nibbles: no nibble is written before the symbol it stands on has been read. -/
def nibblesOver (be : Bool) (m : Nat → UInt8) (n : Nat) : Nat → UInt8 := fun j =>
  if j < n then lowByte (shortsOf be m (payloadHdrLen + j) &&& 0xf#16) else m j

theorem shortsOf_congr {be : Bool} {m' : Nat → UInt8} (h0 : m (2 * i) = m' (2 * i))
    (h1 : m (2 * i + 1) = m' (2 * i + 1)) : shortsOf be m i = shortsOf be m' i := by
  unfold shortsOf
  rw [h0, h1]

theorem dencryptPayload_eq (be : Bool) (m : Nat → UInt8) (h : n < stPayloadBufSz) :
    dencryptPayload be m n = some (nibblesOver be m n) := by
  induction n with
  | zero => rfl
  | succ n ih =>
    have hslot : payloadHdrLen + n < stPayloadBufSz := by
      unfold payloadHdrLen
      omega
    have hread : shortsOf be (nibblesOver be m n) (payloadHdrLen + n) = shortsOf be m (payloadHdrLen + n) := by
      apply shortsOf_congr
      · exact if_neg (by unfold payloadHdrLen; omega)
      · exact if_neg (by unfold payloadHdrLen; omega)
    unfold dencryptPayload
    rw [ih (by omega)]
    show (readSlot (shortsOf be (nibblesOver be m n)) (payloadHdrLen + n)).bind _ = _
    rw [readSlot_eq hslot, hread]
    show writeByte (nibblesOver be m n) n _ = _
    rw [writeByte_eq (by omega)]
    congr 1
    funext j
    by_cases hj : j = n
    · subst hj
      rw [setAt_self]
      exact (if_pos (Nat.lt_succ_self j)).symm
    · rw [setAt_of_ne hj]
      unfold nibblesOver
      by_cases hlt : j < n
      · rw [if_pos hlt, if_pos (by omega)]
      · rw [if_neg hlt, if_neg (by omega)]

theorem ByteArr.copy_eq (a : ByteArr n) (pos : Nat) (w : List UInt8) (h : pos + w.length ≤ n) :
    ∃ b, a.copy pos w = some b ∧ b.val = a.val.take pos ++ w ++ a.val.drop (pos + w.length) :=
  ⟨_, dif_pos h, rfl⟩

theorem ByteArr.copy_isSome (a : ByteArr n) (pos : Nat) (w : List UInt8) :
    (a.copy pos w).isSome ↔ pos + w.length ≤ n := by
  unfold ByteArr.copy
  split <;> simp [*]

theorem ByteArr.copy_front {a b : ByteArr n} {w : List UInt8} (h : a.copy 0 w = some b) : b.val.take w.length = w := by
  have hfit : 0 + w.length ≤ n := (a.copy_isSome 0 w).mp (by rw [h]; rfl)
  obtain ⟨b', hcopy, hval⟩ := a.copy_eq 0 w hfit
  obtain rfl : b' = b := Option.some.inj (hcopy.symm.trans h)
  rw [hval, List.take_zero, List.nil_append, List.take_left]

def joinedByte (m : Nat → UInt8) (k : Nat) : UInt8 := m (2 * k) ||| m (2 * k + 1) <<< 4

theorem ssidPassword_eq (m : Nat → UInt8) (h : n ≤ 96) :
    ∃ a, ssidPassword m n = some a ∧ a.val.take n = (List.range n).map (joinedByte m) := by
  induction n with
  | zero => exact ⟨_, rfl, rfl⟩
  | succ n ih =>
    obtain ⟨a, ha, hval⟩ := ih (by omega)
    have hlow : readByte m (2 * n) = some (m (2 * n)) := readByte_eq (by unfold stPayloadBufSz; omega)
    have hhigh : readByte m (2 * n + 1) = some (m (2 * n + 1)) := readByte_eq (by unfold stPayloadBufSz; omega)
    obtain ⟨b, hb, hb'⟩ := a.copy_eq n [joinedByte m n] (show n + 1 ≤ 96 from h)
    refine ⟨b, ?_, ?_⟩
    · unfold ssidPassword
      rw [ha, hlow, hhigh]
      exact hb
    · have hlen : (a.val.take n ++ [joinedByte m n]).length = n + 1 := by
        rw [List.length_append, List.length_take, a.property]
        show min n 96 + 1 = n + 1
        omega
      rw [hb', List.take_append_of_le_length (Nat.le_of_eq hlen.symm), List.take_of_length_le (Nat.le_of_eq hlen), hval,
        List.range_succ, List.map_append]
      rfl

theorem ssidPassword_none (m : Nat → UInt8) (h : 96 < n) : ssidPassword m n = none := by
  induction n with
  | zero => omega
  | succ n ih =>
    unfold ssidPassword
    by_cases hn : 96 < n
    · rw [ih hn]
      rfl
    · obtain rfl : n = 96 := by omega
      obtain ⟨a, ha, -⟩ := ssidPassword_eq m (Nat.le_refl 96)
      have hlow : readByte m (2 * 96) = some (m (2 * 96)) := readByte_eq (by decide)
      have hhigh : readByte m (2 * 96 + 1) = some (m (2 * 96 + 1)) := readByte_eq (by decide)
      rw [ha, hlow, hhigh]
      show a.copy 96 [joinedByte m 96] = none
      exact dif_neg (by show ¬ 96 + 1 ≤ 96; omega)

theorem ByteArr.sub_eq (a : ByteArr n) {pos : Nat} (h : pos + len ≤ n) :
    a.sub pos len = some ((a.val.drop pos).take len) :=
  if_pos h

theorem ByteArr.length_sub (a : ByteArr n) {pos : Nat} (h : pos + len ≤ n) :
    ((a.val.drop pos).take len).length = len := by
  rw [List.length_take, List.length_drop, a.property]
  omega

/-- The lengths of the credentials fit the arrays. -/
def CredentialsFit (ssidlen len : Nat) : Prop := len ≤ 2 * 96 ∧ (ssidlen ≤ len / 2 → ssidlen ≤ 32 ∧ len / 2 - ssidlen ≤ 64)

theorem copyConfig_eq (a : ByteArr 96) (passwordLen ssidlen : Nat) (cfg : HmacConfigure)
    (hsum : passwordLen + ssidlen ≤ 96) (hssid : ssidlen ≤ 32) (hpwd : passwordLen ≤ 64) :
    ∃ c, copyConfig a passwordLen ssidlen cfg = some c ∧ c.ssidLen = UInt8.ofNat ssidlen ∧
      c.passwordLen = UInt8.ofNat passwordLen ∧ c.password.val.take passwordLen = a.val.take passwordLen ∧
      c.ssid.val.take ssidlen = (a.val.drop passwordLen).take ssidlen := by
  have hsub : 0 + passwordLen ≤ 96 := by omega
  have hl0 := a.length_sub hsub
  have hl1 := a.length_sub hsum
  obtain ⟨password, hp, -⟩ := cfg.password.copy_eq 0 ((a.val.drop 0).take passwordLen) (by omega)
  obtain ⟨ssid, hs, -⟩ := cfg.ssid.copy_eq 0 ((a.val.drop passwordLen).take ssidlen) (by omega)
  have hcopy : copyConfig a passwordLen ssidlen cfg = some {
      ssid := ssid
      ssidLen := UInt8.ofNat ssidlen
      passwordLen := UInt8.ofNat passwordLen
      password := password
      privacy := privacyOf passwordLen cfg.privacy } := by
    unfold copyConfig
    rw [a.sub_eq hsub, a.sub_eq hsum]
    show Option.bind (cfg.password.copy 0 _) _ = _
    rw [hp]
    show Option.bind (cfg.ssid.copy 0 _) _ = _
    rw [hs]
    rfl
  refine ⟨_, hcopy, rfl, rfl, ?_, ?_⟩
  · have h := ByteArr.copy_front hp
    rwa [hl0] at h
  · have h := ByteArr.copy_front hs
    rwa [hl1] at h

theorem copyConfig_isSome (a : ByteArr 96) {passwordLen ssidlen : Nat} (cfg : HmacConfigure)
    (hsum : passwordLen + ssidlen ≤ 96) :
    (copyConfig a passwordLen ssidlen cfg).isSome ↔ ssidlen ≤ 32 ∧ passwordLen ≤ 64 := by
  constructor
  · intro h
    obtain ⟨c, hc⟩ := Option.isSome_iff_exists.mp h
    unfold copyConfig at hc
    rw [a.sub_eq (by omega : 0 + passwordLen ≤ 96), a.sub_eq hsum] at hc
    have hpwd : Option.bind (cfg.password.copy 0 _) _ = some c := hc
    obtain ⟨password, hp, hc⟩ := Option.bind_eq_some_iff.mp hpwd
    have hname : Option.bind (cfg.ssid.copy 0 _) _ = some c := hc
    obtain ⟨ssid, hs, -⟩ := Option.bind_eq_some_iff.mp hname
    have h0 := (cfg.password.copy_isSome 0 ((a.val.drop 0).take passwordLen)).mp (Option.isSome_of_eq_some hp)
    have h1 := (cfg.ssid.copy_isSome 0 ((a.val.drop passwordLen).take ssidlen)).mp (Option.isSome_of_eq_some hs)
    rw [a.length_sub (by omega)] at h0
    rw [a.length_sub hsum] at h1
    omega
  · rintro ⟨hssid, hpwd⟩
    obtain ⟨c, hc, -⟩ := copyConfig_eq a passwordLen ssidlen cfg hsum hssid hpwd
    rw [hc]
    rfl

theorem buildConfig_isSome (a : ByteArr 96) {ssidlen : Nat} (cfg : HmacConfigure) (hlen : len ≤ 2 * 96) :
    (buildConfig a ssidlen len cfg).isSome ↔ (ssidlen ≤ len / 2 → ssidlen ≤ 32 ∧ len / 2 - ssidlen ≤ 64) := by
  unfold buildConfig
  by_cases hle : ssidlen ≤ len / 2
  · rw [if_pos hle, copyConfig_isSome a cfg (by omega)]
    simp [hle]
  · rw [if_neg hle]
    simp [hle]

theorem payloadBuildData_isSome (be : Bool) (p : Nat → BitVec 16) (cfg : HmacConfigure)
    (h : len < stPayloadBufSz) : (payloadBuildData be p len cfg).isSome ↔ CredentialsFit (ssidlenOf p) len := by
  unfold payloadBuildData CredentialsFit
  rw [dencryptPayload_eq be _ h]
  show (Option.bind (ssidPassword _ ((len + 1) / 2)) _).isSome ↔ _
  by_cases hlen : len ≤ 2 * 96
  · obtain ⟨a, ha, -⟩ := ssidPassword_eq (nibblesOver be (bytesOf be p) len) (n := (len + 1) / 2) (by omega)
    rw [ha]
    show (Option.bind (buildConfig a (ssidlenOf p) len cfg) _).isSome ↔ _
    rw [← buildConfig_isSome a cfg hlen]
    cases buildConfig a (ssidlenOf p) len cfg <;> simp [hlen]
  · rw [ssidPassword_none _ (by omega)]
    simp [hlen]

/-- Everything a call touches is inside: the slot of a data symbol is below the size of the buffer, and the
credentials that the checksum completes fit their arrays. -/
def CallFits (d : SmartconfigDecoder) (rxdata : BitVec 16) (turnId : Nat) : Prop :=
  d.smartconfgSt = .getPayload ∨ d.smartconfgSt = .getPayloadCsum → isSsidlen rxdata = false →
    (isPayloadData rxdata → SmartconfigDecoder.slotOf rxdata turnId < stPayloadBufSz) ∧
    (isPayloadCsum rxdata → d.payloaddatalen = d.totallen - payloadHdrLen - 1 →
      checksumMatches (setAt d.oriPayload (d.totallen - 1) rxdata) (d.payloaddatalen + 1) →
      CredentialsFit (ssidlenOf d.oriPayload) d.payloaddatalen)

namespace SmartconfigDecoder

/-- The total length that the payload is collected with is one octet and not too short. -/
def Sized (d : SmartconfigDecoder) : Prop :=
  d.smartconfgSt = .getPayload ∨ d.smartconfgSt = .getPayloadCsum → smartconfigMiniLen ≤ d.totallen ∧ d.totallen < 256

variable {d d' : SmartconfigDecoder} {be : Bool} {rxdata : BitVec 16} {turnId : Nat}

theorem recvData_isSome : (d.recvData rxdata turnId).isSome ↔ slotOf rxdata turnId < stPayloadBufSz := by
  unfold recvData
  split <;> simp [*]

theorem finish_isSome (be : Bool) (d : SmartconfigDecoder) (h : d.payloaddatalen + 1 < stPayloadBufSz) :
    (d.finish be).isSome ↔ (checksumMatches d.oriPayload (d.payloaddatalen + 1) →
      CredentialsFit (ssidlenOf d.oriPayload) d.payloaddatalen) := by
  have hbuild := payloadBuildData_isSome be d.oriPayload d.hmacCfg (show d.payloaddatalen < stPayloadBufSz by omega)
  unfold finish
  rw [payloadchecksum_eq _ h, ← hbuild]
  show (if checksumMatches _ _ = true then _ else _ : Option SmartconfigDecoder).isSome = true ↔ _
  by_cases hsum : checksumMatches d.oriPayload (d.payloaddatalen + 1)
  · rw [if_pos hsum]
    cases payloadBuildData be d.oriPayload d.payloaddatalen d.hmacCfg <;> simp [hsum]
  · rw [if_neg hsum]
    simp [hsum]

theorem recvCsum_isSome (hsize : smartconfigMiniLen ≤ d.totallen ∧ d.totallen < 256) :
    (d.recvCsum be rxdata).isSome ↔ (d.payloaddatalen = d.totallen - payloadHdrLen - 1 →
      checksumMatches (setAt d.oriPayload (d.totallen - 1) rxdata) (d.payloaddatalen + 1) →
      CredentialsFit (ssidlenOf d.oriPayload) d.payloaddatalen) := by
  obtain ⟨hmin, hmax⟩ := hsize
  unfold smartconfigMiniLen at hmin
  have hlt : d.totallen - 1 < stPayloadBufSz := by
    unfold stPayloadBufSz
    omega
  have hssid : ssidlenOf (setAt d.oriPayload (d.totallen - 1) rxdata) = ssidlenOf d.oriPayload := by
    unfold ssidlenOf
    rw [setAt_of_ne (by omega)]
  unfold recvCsum
  rw [writeSlot_eq hlt]
  show (if d.payloaddatalen = d.totallen - payloadHdrLen - 1 then _ else _ : Option SmartconfigDecoder).isSome = true ↔ _
  by_cases hlen : d.payloaddatalen = d.totallen - payloadHdrLen - 1
  · have hpay : d.payloaddatalen + 1 < stPayloadBufSz := by
      unfold payloadHdrLen at hlen
      unfold stPayloadBufSz
      omega
    rw [if_pos hlen, finish_isSome be { d with oriPayload := setAt d.oriPayload (d.totallen - 1) rxdata } hpay, hssid]
    exact ⟨fun h _ => h, fun h => h hlen⟩
  · rw [if_neg hlen]
    simp [hlen]

/-- **One call** stays inside the buffers exactly when it fits. -/
theorem funRecvPayload_isSome (be : Bool) (rxdata : BitVec 16) (turnId : Nat) (hsize : d.Sized) :
    (d.funRecvPayload be rxdata turnId).isSome ↔ CallFits d rxdata turnId := by
  have hpayload (hst : d.smartconfgSt = .getPayload ∨ d.smartconfgSt = .getPayloadCsum) :
      (d.recvPayload be rxdata turnId).isSome ↔ CallFits d rxdata turnId := by
    unfold recvPayload CallFits
    by_cases hssid : isSsidlen rxdata
    · rw [if_pos hssid]
      simp [hssid, writeSlot, stPayloadBufSz]
    · rw [if_neg hssid]
      by_cases hdata : isPayloadData rxdata
      · have hcsum : isPayloadCsum rxdata = false := by
          unfold isPayloadData isPayloadCsum at *
          rw [beq_iff_eq] at hdata
          rw [hdata]
          decide
        rw [if_pos hdata, recvData_isSome]
        simp [hst, hssid, hdata, hcsum]
      · rw [if_neg hdata]
        by_cases hcsum : isPayloadCsum rxdata
        · rw [if_pos hcsum, recvCsum_isSome (hsize hst)]
          simp [hst, hssid, hdata, hcsum]
        · rw [if_neg hcsum]
          simp [hdata, hcsum]
  have hother (h1 : d.smartconfgSt ≠ .getPayload) (h2 : d.smartconfgSt ≠ .getPayloadCsum) : CallFits d rxdata turnId :=
    fun hst => (hst.elim h1 h2).elim
  unfold funRecvPayload
  split
  case h_4 hst => exact hpayload (.inl hst)
  case h_5 hst => exact hpayload (.inr hst)
  case h_6 hp hr hg h1 h2 => simpa using hother h1 h2
  all_goals
    rename_i hst
    simpa using hother (by simp [hst]) (by simp [hst])

theorem Sized.of_not (h1 : d.smartconfgSt ≠ .getPayload) (h2 : d.smartconfgSt ≠ .getPayloadCsum) : d.Sized :=
  fun hst => (hst.elim h1 h2).elim

theorem sized_recvTotallen (hd : d.Sized) : (d.recvTotallen rxdata).Sized := by
  unfold recvTotallen
  show Sized (if _ then _ else _)
  split
  · exact .of_not (by simp) (by simp)
  · exact hd

theorem sized_recvTotallenCsum (h1 : d.smartconfgSt ≠ .getPayload) (h2 : d.smartconfgSt ≠ .getPayloadCsum) :
    (d.recvTotallenCsum rxdata).Sized := by
  unfold recvTotallenCsum
  split
  · show Sized (if _ then _ else (if _ then _ else _))
    split
    · exact .of_not (by simp) (by simp)
    · split
      · exact .of_not (by simp) (by simp)
      · rename_i hlen
        intro _
        refine ⟨Nat.not_lt.mp hlen, ?_⟩
        show (d.oriData0 &&& 0xff#16).toNat < 256
        rw [BitVec.toNat_and]
        exact Nat.lt_succ_of_le Nat.and_le_right
  · split
    · exact .of_not h1 h2
    · exact .of_not (by simp) (by simp)

theorem totallen_noteData : (d.noteData rxdata turnId).totallen = d.totallen := by
  unfold noteData
  show totallen (if _ then _ else _) = _
  split <;> rfl

theorem totallen_storeData : (d.storeData rxdata turnId).totallen = d.totallen := by
  unfold storeData
  show totallen (if _ then (if _ then _ else _) else (if _ then _ else _)) = _
  split
  · split
    · rfl
    · exact totallen_noteData
  · split
    · exact totallen_noteData
    · exact totallen_noteData

theorem finish_cases (h : d.finish be = some d') :
    (payloadchecksum d.oriPayload (d.payloaddatalen + 1) = some false ∧
      d' = { d with smartconfgSt := .payload, payloaddatalen := 0 }) ∨
    (payloadchecksum d.oriPayload (d.payloaddatalen + 1) = some true ∧
      ∃ r, payloadBuildData be d.oriPayload d.payloaddatalen d.hmacCfg = some r ∧
        d' = { d with oriPayload := r.1, hmacCfg := r.2, smartconfgSt := .doneSuccess }) := by
  obtain ⟨ok, hsum, h⟩ := Option.bind_eq_some_iff.mp h
  cases ok with
  | false => exact .inl ⟨hsum, (Option.some.inj h).symm⟩
  | true =>
    have hbuild : Option.bind (payloadBuildData be d.oriPayload d.payloaddatalen d.hmacCfg) _ = some d' := h
    obtain ⟨r, hr, h⟩ := Option.bind_eq_some_iff.mp hbuild
    exact .inr ⟨hsum, r, hr, (Option.some.inj h).symm⟩

theorem recvCsum_cases (h : d.recvCsum be rxdata = some d') :
    ∃ p, writeSlot d.oriPayload (d.totallen - 1) rxdata = some p ∧
      (d.payloaddatalen = d.totallen - payloadHdrLen - 1 ∧ { d with oriPayload := p }.finish be = some d' ∨
        d.payloaddatalen ≠ d.totallen - payloadHdrLen - 1 ∧ d' = { d with oriPayload := p, smartconfgSt := .rePayload }) := by
  obtain ⟨p, hp, h⟩ := Option.bind_eq_some_iff.mp h
  by_cases hlen : d.payloaddatalen = d.totallen - payloadHdrLen - 1
  · rw [if_pos hlen] at h
    exact ⟨p, hp, .inl ⟨hlen, h⟩⟩
  · rw [if_neg hlen] at h
    exact ⟨p, hp, .inr ⟨hlen, (Option.some.inj h).symm⟩⟩

theorem recvPayload_cases (h : d.recvPayload be rxdata turnId = some d') :
    (isSsidlen rxdata = true ∧
      d' = { d with oriPayload := setAt d.oriPayload 0 rxdata, ssidLen := rxdata &&& stcSsidlenDataMask }) ∨
    (isPayloadData rxdata = true ∧ d' = d.storeData rxdata turnId) ∨
    (isPayloadCsum rxdata = true ∧ d.recvCsum be rxdata = some d') ∨ d' = d := by
  unfold recvPayload at h
  by_cases hssid : isSsidlen rxdata
  · rw [if_pos hssid] at h
    exact .inl ⟨hssid, (Option.some.inj h).symm⟩
  · rw [if_neg hssid] at h
    by_cases hdata : isPayloadData rxdata
    · rw [if_pos hdata] at h
      refine .inr (.inl ⟨hdata, ?_⟩)
      unfold recvData at h
      split at h
      · exact (Option.some.inj h).symm
      · cases h
    · rw [if_neg hdata] at h
      by_cases hcsum : isPayloadCsum rxdata
      · rw [if_pos hcsum] at h
        exact .inr (.inr (.inl ⟨hcsum, h⟩))
      · rw [if_neg hcsum] at h
        exact .inr (.inr (.inr (Option.some.inj h).symm))

theorem sized_recvPayload (hd : smartconfigMiniLen ≤ d.totallen ∧ d.totallen < 256)
    (h : d.recvPayload be rxdata turnId = some d') : d'.Sized := by
  have hkeep (hlen : d'.totallen = d.totallen) : d'.Sized := fun _ => by rwa [hlen]
  rcases recvPayload_cases h with ⟨-, rfl⟩ | ⟨-, rfl⟩ | ⟨-, hcsum⟩ | rfl
  · exact hkeep rfl
  · exact hkeep totallen_storeData
  · obtain ⟨p, -, ⟨-, hf⟩ | ⟨-, rfl⟩⟩ := recvCsum_cases hcsum
    · rcases finish_cases hf with ⟨-, rfl⟩ | ⟨-, r, -, rfl⟩
      · exact .of_not (by simp) (by simp)
      · exact .of_not (by simp) (by simp)
    · exact .of_not (by simp) (by simp)
  · exact hkeep rfl

theorem sized_step (hd : d.Sized) (h : d.funRecvPayload be rxdata turnId = some d') : d'.Sized := by
  unfold funRecvPayload at h
  split at h
  case h_1 =>
    obtain rfl := Option.some.inj h
    exact sized_recvTotallen hd
  case h_2 =>
    obtain rfl := Option.some.inj h
    exact sized_recvTotallen hd
  case h_3 hst =>
    obtain rfl := Option.some.inj h
    exact sized_recvTotallenCsum (by simp [hst]) (by simp [hst])
  case h_4 hst => exact sized_recvPayload (hd (.inl hst)) h
  case h_5 hst => exact sized_recvPayload (hd (.inr hst)) h
  case h_6 =>
    obtain rfl := Option.some.inj h
    exact hd

/-- Every call of the sequence fits in the state it is made in. -/
def AllFit (be : Bool) (d : SmartconfigDecoder) : List (BitVec 16 × Nat) → Prop
  | [] => True
  | c :: calls => CallFits d c.1 c.2 ∧ ∀ d', d.funRecvPayload be c.1 c.2 = some d' → AllFit be d' calls

theorem recvAll_isSome (calls : List (BitVec 16 × Nat)) (hd : d.Sized) :
    (d.recvAll be calls).isSome ↔ AllFit be d calls := by
  induction calls generalizing d with
  | nil => exact ⟨fun _ => trivial, fun _ => rfl⟩
  | cons c calls ih =>
    have hstep := funRecvPayload_isSome be c.1 c.2 hd
    show (Option.bind (d.funRecvPayload be c.1 c.2) fun d => d.recvAll be calls).isSome ↔ _
    unfold AllFit
    rw [← hstep]
    cases hc : d.funRecvPayload be c.1 c.2 with
    | none => simp
    | some d' =>
      have hrest := ih (sized_step hd hc)
      simpa using hrest

end SmartconfigDecoder

/-- **Payload decoding in bounds.**  Whatever symbols come in the payload phase, everything the decoder touches is
inside its buffers exactly when every call fits: no data symbol is for a slot from 256 on, and no checksum completes
credentials of more than 192 nibbles, with an SSID of more than 32 bytes or with a password of more than 64. -/
theorem recvAll_inBounds_iff (be : Bool) (d : SmartconfigDecoder) (calls : List (BitVec 16 × Nat))
    (hstart : d.smartconfgSt = .payload) : (d.recvAll be calls).isSome ↔ d.AllFit be calls := by
  apply SmartconfigDecoder.recvAll_isSome
  exact .of_not (by simp [hstart]) (by simp [hstart])

def freshDecoder : SmartconfigDecoder where
  smartconfgSt := .payload
  oriData0 := 0
  oriData1 := 0
  oriPayload := fun _ => 0
  payloaddatalen := 0
  payloaderrorCnt := 0
  payloaddataIdPre := 0
  totallen := 0
  ssidLen := 0
  hmacCfg := {
    ssid := .zero 32
    ssidLen := 0
    passwordLen := 0
    password := .zero 64
    privacy := false }

/-- A total length, its complement, and a data symbol of turn 16, from an address that ends in 0x13. -/
def farSymbols : List (BitVec 16 × Nat) := [(0x6, 0), (0x4f9, 0), (0x201, turnIdOf false 0x13)]

theorem recvAll_inBounds_iff_fresh :
    (freshDecoder.recvAll false (farSymbols.take 2)).isSome ↔ freshDecoder.AllFit false (farSymbols.take 2) :=
  recvAll_inBounds_iff false freshDecoder (farSymbols.take 2) rfl

theorem recvAll_far : ¬ ∀ (be : Bool) (d : SmartconfigDecoder) (calls : List (BitVec 16 × Nat)),
    d.smartconfgSt = .payload → (∀ c ∈ calls, TurnIdDerived c.2) → (d.recvAll be calls).isSome := by
  intro h
  have hturn : ∀ c ∈ farSymbols, TurnIdDerived c.2 := by
    intro c hc
    simp only [farSymbols, List.mem_cons, List.not_mem_nil, or_false] at hc
    rcases hc with rfl | rfl | rfl
    · exact ⟨false, 0, rfl⟩
    · exact ⟨false, 0, rfl⟩
    · exact ⟨false, 0x13, rfl⟩
  have hsome := h false freshDecoder farSymbols rfl hturn
  have hnone : freshDecoder.recvAll false farSymbols = none := by decide
  rw [hnone] at hsome
  exact absurd hsome (by decide)

end AtbmWifi
