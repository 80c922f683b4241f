import Mathlib.Tactic.IntervalCases
import AtbmWifi.Smartconfig.Payload

/-!
# The symbols of the smartconfig sender

`smartconfig_send_main` without its magic phase: what one transmission of an SSID and a password consists of, and
what the decoder reads off each symbol.
-/

namespace AtbmWifi

/-- `encrypt_payload`: the low nibble of each byte, then the high one. -/
def encryptPayload (bytes : List UInt8) : List UInt8 := bytes.flatMap fun b => [b &&& 0xf, (b >>> 4) &&& 0xf]

/-- The total length of `n` bytes. -/
def totalSymbol (n : Nat) : BitVec 16 := stcTotallenFTotalLen ||| BitVec.ofNat 16 (2 * n + 2)

/-- The complement that follows the total length `shortData`. -/
def complementSymbol (shortData : BitVec 16) : BitVec 16 := stcTotallenFCsum ||| (~~~shortData &&& 0xff#16)

def ssidSymbol (lenSsid : Nat) : BitVec 16 := stcPaloadFSsidrandom ||| (BitVec.ofNat 16 lenSsid &&& 0x7f#16)

def dataSymbol (i : Nat) (b : UInt8) : BitVec 16 :=
  stcPaloadFData ||| (b.toBitVec.setWidth 16 &&& stcPaloadDataMask) ||| (stcPaloadDataSnMask &&& (BitVec.ofNat 16 i <<< 4))

def checksumSymbol (checksumSend : BitVec 16) : BitVec 16 := (checksumSend &&& 0x7f#16) ||| stcPaloadFCsum

/-- The data symbols of one transmission; `password_ssid` is the password and then the SSID. -/
def dataSymbols (ssid password : List UInt8) : List (BitVec 16) := (encryptPayload (password ++ ssid)).mapIdx dataSymbol

def checksumSend (ssid password : List UInt8) : BitVec 16 :=
  (dataSymbols ssid password).foldl (· + ·) (ssidSymbol ssid.length)

def smartconfigSend (ssid password : List UInt8) : List (BitVec 16 × Nat) :=
  let total := totalSymbol (ssid.length + password.length)
  [(total, 0), (complementSymbol total, 0), (ssidSymbol ssid.length, 0)] ++
    (dataSymbols ssid password).mapIdx (fun i x => (x, i / 16)) ++ [(checksumSymbol (checksumSend ssid password), 0)]

/-- What is received of `sent`: symbols are lost, and symbols are received more than once. -/
inductive Lossy {α : Type} : List α → List α → Prop
  | done : Lossy [] []
  | lost {x : α} {sent got : List α} : Lossy sent got → Lossy (x :: sent) got
  | received {x : α} {sent got : List α} : Lossy sent got → Lossy (x :: sent) (x :: got)
  | again {x : α} {sent got : List α} : Lossy (x :: sent) got → Lossy (x :: sent) (x :: got)

theorem Lossy.subset {α : Type} {sent got : List α} (h : Lossy sent got) : got ⊆ sent := by
  induction h with
  | done => exact List.Subset.refl _
  | lost _ ih => exact List.subset_cons_of_subset _ ih
  | received _ ih => exact List.cons_subset_cons _ ih
  | again _ ih => exact List.cons_subset.mpr ⟨List.mem_cons_self, ih⟩

/-! ## What the decoder reads off a symbol -/

def low7 {w : Nat} (x : BitVec w) : BitVec 7 := x.setWidth 7

theorem kind_of_isSsidlen {x : BitVec 16} (h : isSsidlen x) : x &&& stcStctypeFMask = stcPaloadFSsidrandom := by
  have hx : x &&& stcPaloadFMask = stcSsidrandomFSsidlen := eq_of_beq h
  have hmask : stcStctypeFMask = stcPaloadFMask &&& stcStctypeFMask := by decide
  rw [hmask, ← BitVec.and_assoc, hx]
  decide

theorem isSsidlen_false {x k : BitVec 16} (hx : x &&& stcStctypeFMask = k) (hk : k ≠ stcPaloadFSsidrandom) :
    isSsidlen x = false := by
  by_contra h
  exact hk (hx.symm.trans (kind_of_isSsidlen (by simpa using h)))

theorem dataSymbol_kind (i : Nat) (b : UInt8) : dataSymbol i b &&& stcStctypeFMask = stcPaloadFData := by
  unfold dataSymbol stcPaloadFData stcPaloadDataMask stcPaloadDataSnMask stcStctypeFMask
  apply BitVec.eq_of_getLsbD_eq
  intro k hk
  interval_cases k <;> simp

theorem isPayloadData_dataSymbol (i : Nat) (b : UInt8) : isPayloadData (dataSymbol i b) = true :=
  beq_iff_eq.mpr (dataSymbol_kind i b)

theorem isSsidlen_dataSymbol (i : Nat) (b : UInt8) : isSsidlen (dataSymbol i b) = false :=
  isSsidlen_false (dataSymbol_kind i b) (by decide)

theorem dataSymbol_ne_zero (i : Nat) (b : UInt8) : dataSymbol i b ≠ 0 := by
  intro h
  have hkind := dataSymbol_kind i b
  rw [h] at hkind
  exact absurd hkind (by decide)

theorem payloaddataId_dataSymbol (i : Nat) (b : UInt8) : payloaddataId (dataSymbol i b) = i % 16 := by
  have hbits : (dataSymbol i b &&& stcPaloadDataSnMask) >>> 4 = BitVec.ofNat 16 i &&& 0xf#16 := by
    unfold dataSymbol stcPaloadFData stcPaloadDataMask stcPaloadDataSnMask
    apply BitVec.eq_of_getLsbD_eq
    intro k hk
    interval_cases k <;> simp
  unfold payloaddataId
  rw [hbits, BitVec.toNat_and, BitVec.toNat_ofNat]
  show (i % 65536) &&& (2 ^ 4 - 1) = i % 16
  rw [Nat.and_two_pow_sub_one_eq_mod]
  omega

theorem lowByte_dataSymbol (i : Nat) (b : UInt8) : lowByte (dataSymbol i b &&& 0xf#16) = b &&& 0xf := by
  apply UInt8.eq_of_toBitVec_eq
  show (dataSymbol i b &&& 0xf#16).extractLsb' 0 8 = b.toBitVec &&& 0xf#8
  unfold dataSymbol stcPaloadFData stcPaloadDataMask stcPaloadDataSnMask
  apply BitVec.eq_of_getLsbD_eq
  intro k hk
  interval_cases k <;> simp

theorem checksumSymbol_kind (s : BitVec 16) : checksumSymbol s &&& stcStctypeFMask = stcPaloadFCsum := by
  unfold checksumSymbol stcPaloadFCsum stcStctypeFMask
  apply BitVec.eq_of_getLsbD_eq
  intro k hk
  interval_cases k <;> simp

theorem isPayloadCsum_checksumSymbol (s : BitVec 16) : isPayloadCsum (checksumSymbol s) = true :=
  beq_iff_eq.mpr (checksumSymbol_kind s)

theorem isSsidlen_checksumSymbol (s : BitVec 16) : isSsidlen (checksumSymbol s) = false :=
  isSsidlen_false (checksumSymbol_kind s) (by decide)

theorem isPayloadData_checksumSymbol (s : BitVec 16) : isPayloadData (checksumSymbol s) = false := by
  unfold isPayloadData
  rw [checksumSymbol_kind]
  decide

theorem isSsidlen_ssidSymbol (n : Nat) : isSsidlen (ssidSymbol n) = true := by
  apply beq_iff_eq.mpr
  unfold ssidSymbol stcPaloadFSsidrandom stcPaloadFMask stcSsidrandomFSsidlen
  apply BitVec.eq_of_getLsbD_eq
  intro k hk
  interval_cases k <;> simp

theorem low7_ssidSymbol (n : Nat) : low7 (ssidSymbol n) = BitVec.ofNat 7 n := by
  unfold low7 ssidSymbol stcPaloadFSsidrandom
  apply BitVec.eq_of_getLsbD_eq
  intro k hk
  interval_cases k <;> simp

theorem complementSymbol_kind (d : BitVec 16) : complementSymbol d &&& stcStctypeFMask = stcTotallenFCsum := by
  unfold complementSymbol stcTotallenFCsum stcStctypeFMask
  apply BitVec.eq_of_getLsbD_eq
  intro k hk
  interval_cases k <;> simp

theorem complementSymbol_eq (d : BitVec 16) : complementSymbol d = totallenComplement d := BitVec.or_comm _ _

theorem totalSymbol_kind : ∀ n < 97, totalSymbol n &&& stcStctypeFMask = stcTotallenFTotalLen := by decide

theorem totalSymbol_octet : ∀ n < 97, (totalSymbol n &&& 0xff#16).toNat = 2 * n + 2 := by decide

theorem totalSymbol_magic : ∀ n < 97, 2 ≤ n → smartconfigMagic.slt (totalSymbol n) = true := by decide

theorem ssidSymbol_octet : ∀ n < 97, (ssidSymbol n &&& 0xff#16).toNat = n := by decide

theorem length_encryptPayload (bytes : List UInt8) : (encryptPayload bytes).length = 2 * bytes.length := by
  induction bytes with
  | nil => rfl
  | cons b bytes ih =>
    show (encryptPayload bytes).length + 2 = 2 * (bytes.length + 1)
    omega

theorem encryptPayload_nibbles (bytes : List UInt8) {k : Nat} (hk : k < bytes.length) :
    (encryptPayload bytes)[2 * k]? = some (bytes[k] &&& 0xf) ∧
      (encryptPayload bytes)[2 * k + 1]? = some ((bytes[k] >>> 4) &&& 0xf) := by
  induction bytes generalizing k with
  | nil => exact absurd hk (by simp)
  | cons b bytes ih =>
    cases k with
    | zero => exact ⟨rfl, rfl⟩
    | succ k => exact ih (Nat.lt_of_succ_lt_succ hk)

theorem joined_nibbles (b : UInt8) :
    ((b &&& (0xf : UInt8)) &&& (0xf : UInt8)) ||| ((((b >>> 4) &&& (0xf : UInt8)) &&& (0xf : UInt8)) <<< 4) = b := by
  apply UInt8.eq_of_toBitVec_eq
  apply BitVec.eq_of_getLsbD_eq
  intro k hk
  interval_cases k <;> simp

theorem shortsOf_bytesOf (be : Bool) (p : Nat → BitVec 16) (i : Nat) : shortsOf be (bytesOf be p) i = p i := by
  have h0 : 2 * i % 2 = 0 := by omega
  have h1 : ¬ (2 * i + 1) % 2 = 0 := by omega
  have hi0 : 2 * i / 2 = i := by omega
  have hi1 : (2 * i + 1) / 2 = i := by omega
  have hsplit : (p i).extractLsb' 8 8 ++ (p i).extractLsb' 0 8 = p i := by
    apply BitVec.eq_of_getLsbD_eq
    intro k hk
    rw [BitVec.getLsbD_append]
    interval_cases k <;> simp
  unfold shortsOf bytesOf
  cases be
  · simp only [h0, h1, hi0, hi1, decide_true, decide_false, Bool.true_eq_false, if_true, if_false]
    exact hsplit
  · simp only [h0, h1, hi0, hi1, decide_true, decide_false, Bool.false_eq_true, if_true, if_false]
    exact hsplit

end AtbmWifi
