import AtbmWifi.Wsm.CmdBuffer

/-!
# Growing the buffer of the commands

`wsm_buf_reserve` and the `WSM_PUT`s of an encoder on any buffer, with the sums of a `size_t` and every copy recorded
with the block it goes to.  The size asked for is the one wanted only up to two blocks and at the multiples of a block.

-/

namespace AtbmWifi

open Block

inductive SizeT
  | bits32
  | bits64
  deriving DecidableEq, Repr

def SizeT.count : SizeT → Nat
  | .bits32 => 2 ^ 32
  | .bits64 => 2 ^ 64

/-- `wsm_buf_reserve` on any argument: its sum is one of a `size_t`. -/
def wsmBufReserveT (z : SizeT) (b : WsmBuf) (extra : Nat) (memory : Bool) : WsmBuf × Bool :=
  if memory then
    (⟨some (resize none (reserveSize ((b.data + extra) % z.count)) (b.begin.getD [])), b.data⟩, true)
  else (⟨none, 0⟩, false)

/-- A copy of `len` bytes to offset `pos` of a block of `size`. -/
structure WsmCopy where
  pos : Nat
  len : Nat
  size : Nat
  deriving DecidableEq, Repr

/-- The `WSM_PUT`s of a command from any buffer, with their copies; false for the nomem exit. -/
def wsmPutsT (z : SizeT) (b : WsmBuf) : List (List UInt8) → List Bool → List WsmCopy × WsmBuf × Bool
  | [], _ => ([], b, true)
  | field :: fields, memory =>
    match if b.size < b.data + field.length then wsmBufReserveT z b field.length (memory.headD true) else (b, true) with
    | (b, true) =>
      let r := wsmPutsT z (b.copy field) fields memory.tail
      (⟨b.data, field.length, b.size⟩ :: r.1, r.2)
    | (b, false) => ([], b, false)

structure WsmUpdateIe where
  what : Nat
  count : Nat
  ies : List UInt8

def wsmUpdateIe (arg : WsmUpdateIe) (ifId : Option Nat) : WsmCommand :=
  ⟨0x001b, ifId, [le16 arg.what, le16 arg.count, arg.ies]⟩

/-- `HI_MSG_ID_BLE_BASE` on the interface 3 -/
def wsmBleXmit (xmit : List UInt8) : WsmCommand := ⟨0x0900, some 3, [xmit]⟩

def wsmWriteShmem (address : Nat) (buffer : List UInt8) : WsmCommand :=
  ⟨0x0001, some 0, [le32 address, le16 buffer.length, le16 0, buffer]⟩

structure Reserved (b : WsmBuf) (extra : Nat) (b' : WsmBuf) : Prop where
  bytes : (b'.begin.getD []).take b.data = (b.begin.getD []).take b.data
  pos : b'.data = b.data
  room : b'.data + extra ≤ b'.size

/-- What is wanted of an encoder: its copies stay inside, and what it finishes are the fields after what there was. -/
structure Finished (b : WsmBuf) (fields : List (List UInt8)) (r : List WsmCopy × WsmBuf × Bool) : Prop where
  inside : ∀ c ∈ r.1, c.pos + c.len ≤ c.size
  message : r.2.2 = true →
    (r.2.1.begin.getD []).take r.2.1.data = (b.begin.getD []).take b.data ++ fields.flatten.map some

/-- A size that is not cut: it is a multiple of a block or less than two. -/
def RightSize (z : SizeT) (n : Nat) : Prop := n < z.count ∧ (n % sdioBlockSize = 0 ∨ n < 2 * sdioBlockSize)

instance (z : SizeT) (n : Nat) : Decidable (RightSize z n) := inferInstanceAs (Decidable (_ ∧ (_ ∨ _)))

/-- Every size asked for is right, until `krealloc` fails. -/
def growsRight (z : SizeT) (size data : Nat) : List (List UInt8) → List Bool → Bool
  | [], _ => true
  | field :: fields, memory =>
    if size < data + field.length then
      !memory.headD true || decide (RightSize z (data + field.length)) &&
        growsRight z (reserveSize (data + field.length)) (data + field.length) fields memory.tail
    else growsRight z size (data + field.length) fields memory.tail

theorem SizeT.blocks_lt (z : SizeT) : 2 * sdioBlockSize < z.count := by
  cases z <;> decide

variable {z : SizeT} {b : WsmBuf} {data size : Nat} {fields : List (List UInt8)} {memory : List Bool}
  {done : List UInt8} {h : List Cell}

theorem reserveSize_mod {n : Nat} (h : RightSize z n) : reserveSize (n % z.count) = reserveSize n := by
  rw [Nat.mod_eq_of_lt h.1]

theorem rightSize_iff (z : SizeT) (n : Nat) : n ≤ reserveSize (n % z.count) ↔ RightSize z n := by
  constructor
  · intro h
    by_cases hn : n < z.count
    · rw [Nat.mod_eq_of_lt hn] at h
      exact ⟨hn, (le_reserveSize_iff n).mp h⟩
    · -- the sum has wrapped: what is asked for is less than the number of values, or two blocks
      have hlt : n % z.count < z.count := Nat.mod_lt _ (by have := z.blocks_lt; omega)
      have hblocks : 512 < z.count := z.blocks_lt
      rcases reserveSize_eq (n % z.count) with ⟨hr, -⟩ | ⟨hr, -⟩
      · omega
      · omega
  · intro h
    rw [reserveSize_mod h]
    exact (le_reserveSize_iff n).mpr h.2

theorem size_reserve (z : SizeT) (b : WsmBuf) (extra : Nat) :
    (wsmBufReserveT z b extra true).1.size = reserveSize ((b.data + extra) % z.count) :=
  length_resize ..

/-- **A growth is as wanted iff its size is right.** -/
theorem reserve_iff (z : SizeT) (hb : b.data ≤ b.size) (extra : Nat) :
    (∀ memory b', wsmBufReserveT z b extra memory = (b', true) → Reserved b extra b') ↔
      RightSize z (b.data + extra) := by
  rw [← rightSize_iff, ← size_reserve]
  constructor
  · intro h
    exact (h true _ rfl).room
  · rintro hroom memory b' hr
    cases memory with
    | false => cases hr
    | true =>
      obtain rfl : (wsmBufReserveT z b extra true).1 = b' := congrArg Prod.fst hr
      refine ⟨?_, rfl, hroom⟩
      have hdata : b.data ≤ reserveSize ((b.data + extra) % z.count) := by
        rw [size_reserve] at hroom
        omega
      show (resize none (reserveSize ((b.data + extra) % z.count)) (b.begin.getD [])).take b.data = _
      rw [resize, List.take_append_of_le_length, List.take_take, Nat.min_eq_left hdata]
      rw [List.length_take]
      exact Nat.le_min.mpr ⟨hdata, hb⟩

theorem wsmPutsT_cons (z : SizeT) (b : WsmBuf) (field : List UInt8) (fields : List (List UInt8)) (memory : List Bool) :
    (b.data + field.length ≤ b.size ∧ wsmPutsT z b (field :: fields) memory =
      (⟨b.data, field.length, b.size⟩ :: (wsmPutsT z (b.copy field) fields memory.tail).1,
        (wsmPutsT z (b.copy field) fields memory.tail).2)) ∨
    (b.size < b.data + field.length ∧ memory.headD true = true ∧ ∃ g, g = (wsmBufReserveT z b field.length true).1 ∧
      wsmPutsT z b (field :: fields) memory =
        (⟨b.data, field.length, g.size⟩ :: (wsmPutsT z (g.copy field) fields memory.tail).1,
          (wsmPutsT z (g.copy field) fields memory.tail).2)) ∨
    (b.size < b.data + field.length ∧ memory.headD true = false ∧
      wsmPutsT z b (field :: fields) memory = ([], ⟨none, 0⟩, false)) := by
  by_cases h : b.size < b.data + field.length
  · cases hm : memory.headD true with
    | true =>
      refine .inr (.inl ⟨h, rfl, _, rfl, ?_⟩)
      rw [wsmPutsT, if_pos h, hm]
      rfl
    | false =>
      refine .inr (.inr ⟨h, rfl, ?_⟩)
      rw [wsmPutsT, if_pos h, hm]
      rfl
  · refine .inl ⟨Nat.le_of_not_lt h, ?_⟩
    rw [wsmPutsT, if_neg h]

theorem growsRight_fits {field : List UInt8} (h : data + field.length ≤ size) :
    growsRight z size data (field :: fields) memory = growsRight z size (data + field.length) fields memory.tail :=
  if_neg (Nat.not_lt.mpr h)

theorem growsRight_grows {field : List UInt8} (h : size < data + field.length) (hm : memory.headD true = true) :
    growsRight z size data (field :: fields) memory = true ↔ RightSize z (data + field.length) ∧
      growsRight z (reserveSize (data + field.length)) (data + field.length) fields memory.tail = true := by
  rw [growsRight, if_pos h, hm, Bool.not_true, Bool.false_or, Bool.and_eq_true, decide_eq_true_eq]

theorem inside_iff (z : SizeT) (fields : List (List UInt8)) (memory : List Bool) (hb : b.data ≤ b.size) :
    (∀ c ∈ (wsmPutsT z b fields memory).1, c.pos + c.len ≤ c.size) ↔
      growsRight z b.size b.data fields memory = true := by
  induction fields generalizing b memory with
  | nil => exact iff_of_true nofun rfl
  | cons field fields ih =>
    rcases wsmPutsT_cons z b field fields memory with ⟨h, hp⟩ | ⟨h, hm, g, hg, hp⟩ | ⟨h, hm, hp⟩
    · rw [hp, List.forall_mem_cons, and_iff_right h, growsRight_fits h, ih memory.tail (by simpa using h), size_copy,
        data_copy]
    · have hsize : g.size = reserveSize ((b.data + field.length) % z.count) := hg ▸ size_reserve ..
      have hdata : g.data = b.data := hg ▸ rfl
      rw [hp, List.forall_mem_cons, growsRight_grows h hm]
      -- beyond a block that is too small nothing is known, but the copy itself has left it
      have hfirst : b.data + field.length ≤ g.size ↔ RightSize z (b.data + field.length) := by
        rw [hsize]
        exact rightSize_iff z _
      rw [hfirst]
      refine and_congr_right fun hright => ?_
      rw [ih memory.tail (by rw [size_copy, data_copy, hdata]; exact hfirst.mpr hright), size_copy, data_copy, hdata,
        hsize, reserveSize_mod hright]
    · rw [hp]
      refine iff_of_true nofun ?_
      rw [growsRight, if_pos h, hm]
      rfl

theorem encoded_take (he : Encoded h done b) : (b.begin.getD []).take b.data = h ++ done.map some := by
  obtain ⟨⟨rest, hb⟩, hd⟩ := he
  rw [hb, hd, Option.getD_some]
  exact List.take_left' (by rw [List.length_append, List.length_map])

theorem Encoded.reserve (he : Encoded h done b) {n : Nat}
    (hn : RightSize z (b.data + n)) : Encoded h done (wsmBufReserveT z b n true).1 := by
  have hb : b.data ≤ b.size := by
    obtain ⟨⟨rest, hb⟩, hd⟩ := he
    rw [WsmBuf.size, hb, Option.getD_some, hd]
    simp only [List.length_append, List.length_map]
    omega
  have hkept := (reserve_iff z hb n).mpr hn true _ rfl
  have hdata : b.data = (h ++ done.map some).length := by
    rw [he.data, List.length_append, List.length_map]
  have htake := hkept.bytes.trans (encoded_take he)
  refine ⟨?_, he.data⟩
  refine ⟨(resize none (reserveSize ((b.data + n) % z.count)) (b.begin.getD [])).drop b.data, ?_⟩
  rw [← htake]
  exact congrArg some (List.take_append_drop ..).symm

theorem wsmPutsT_encoded (he : Encoded h done b) (hroom : growsRight z b.size b.data fields memory = true)
    (hp : (wsmPutsT z b fields memory).2.2 = true) :
    Encoded h (done ++ fields.flatten) (wsmPutsT z b fields memory).2.1 := by
  induction fields generalizing b memory done with
  | nil =>
    rw [List.flatten_nil, List.append_nil]
    exact he
  | cons field fields ih =>
    rw [List.flatten_cons, ← List.append_assoc]
    rcases wsmPutsT_cons z b field fields memory with ⟨hf, hput⟩ | ⟨hf, hm, g, hg, hput⟩ | ⟨-, -, hput⟩
    · rw [hput] at hp ⊢
      rw [growsRight_fits hf] at hroom
      exact ih (he.copy hf) (by rwa [size_copy]) hp
    · rw [hput] at hp ⊢
      obtain ⟨hright, hroom⟩ := (growsRight_grows hf hm).mp hroom
      have hsize : g.size = reserveSize (b.data + field.length) := by
        rw [hg, size_reserve, reserveSize_mod hright]
      have hdata : g.data = b.data := hg ▸ rfl
      have hle := (rightSize_iff z _).mpr hright
      rw [reserveSize_mod hright] at hle
      refine ih ((hg ▸ he.reserve hright : Encoded h done g).copy (by rw [hsize, hdata]; exact hle)) ?_ hp
      rw [size_copy, data_copy, hsize, hdata]
      exact hroom
    · rw [hput] at hp
      cases hp

theorem wsmPutsT_null
    (hroom : growsRight z 0 0 fields memory = true) (hp : (wsmPutsT z ⟨none, 0⟩ fields memory).2.2 = true) :
    ((wsmPutsT z ⟨none, 0⟩ fields memory).2.1.begin.getD []).take (wsmPutsT z ⟨none, 0⟩ fields memory).2.1.data =
      fields.flatten.map some := by
  induction fields generalizing memory with
  | nil => rfl
  | cons field fields ih =>
    rcases wsmPutsT_cons z ⟨none, 0⟩ field fields memory with ⟨hf, hput⟩ | ⟨hf, hm, g, hg, hput⟩ | ⟨-, -, hput⟩
    · -- only an empty field fits
      obtain rfl : field = [] := List.eq_nil_of_length_eq_zero (by simpa [WsmBuf.size] using hf)
      rw [growsRight_fits (Nat.le_refl 0)] at hroom
      rw [hput] at hp ⊢
      exact ih hroom hp
    · rw [hput] at hp ⊢
      obtain ⟨hright, hroom⟩ := (growsRight_grows hf hm).mp hroom
      have hsize : g.size = reserveSize (0 + field.length) := by
        rw [hg, size_reserve, reserveSize_mod hright]
      have hdata : g.data = 0 := hg ▸ rfl
      have hle := (rightSize_iff z _).mpr hright
      rw [reserveSize_mod hright] at hle
      have he : Encoded [] [] g := hg ▸ ⟨⟨_, rfl⟩, rfl⟩
      have hcopy : Encoded [] field (g.copy field) := he.copy (by rw [hsize, hdata]; exact hle)
      rw [encoded_take (wsmPutsT_encoded hcopy (by rw [size_copy, data_copy, hsize, hdata]; exact hroom) hp)]
      rfl
    · rw [hput] at hp
      cases hp

/-- **An encoder is as wanted iff its growths ask for right sizes.** -/
theorem puts_iff (z : SizeT) (hb : b.data ≤ b.size) (fields : List (List UInt8)) (memory : List Bool) :
    Finished b fields (wsmPutsT z b fields memory) ↔ growsRight z b.size b.data fields memory = true := by
  constructor
  · exact fun h => (inside_iff z fields memory hb).mp h.inside
  · intro h
    refine ⟨(inside_iff z fields memory hb).mpr h, fun hp => ?_⟩
    obtain ⟨block, data⟩ := b
    cases block with
    | none =>
      obtain rfl : data = 0 := Nat.le_zero.mp hb
      exact wsmPutsT_null h hp
    | some mem =>
      have hlen : data ≤ mem.length := hb
      have he : Encoded (mem.take data) [] ⟨some mem, data⟩ := by
        constructor
        · exact ⟨mem.drop data, by rw [List.map_nil, List.append_nil, List.take_append_drop]⟩
        · rw [List.length_take, Nat.min_eq_left hlen]
          rfl
      rw [encoded_take (wsmPutsT_encoded he h hp)]
      rfl

theorem growsRight_append {heads : List (List UInt8)} (h : data + heads.flatten.length ≤ size) :
    growsRight z size data (heads ++ fields) [] = growsRight z size (data + heads.flatten.length) fields [] := by
  induction heads generalizing data with
  | nil => rfl
  | cons head heads ih =>
    rw [List.flatten_cons, List.length_append, ← Nat.add_assoc] at h ⊢
    rw [List.cons_append, growsRight_fits (by omega), List.tail_nil, ih h]

theorem payload_iff (z : SizeT) {heads : List (List UInt8)}
    (hb : b.data + heads.flatten.length ≤ b.size) (payload : List UInt8) :
    Finished b (heads ++ [payload]) (wsmPutsT z b (heads ++ [payload]) []) ↔
      b.data + heads.flatten.length + payload.length ≤ b.size ∨
        RightSize z (b.data + heads.flatten.length + payload.length) := by
  rw [puts_iff z (by omega), growsRight_append hb]
  by_cases hfit : b.data + heads.flatten.length + payload.length ≤ b.size
  · rw [growsRight_fits hfit]
    exact iff_of_true rfl (.inl hfit)
  · rw [growsRight_grows (by omega) rfl, or_iff_right hfit, growsRight, and_iff_left rfl]

/-- What the commands with a payload can carry on the buffer of the probe, the header with them. -/
def Carries (z : SizeT) (bus : Bus) (n : Nat) : Prop := n ≤ bus.maxWsmBufLen ∨ RightSize z n

theorem carries_iff (z : SizeT) (bus : Bus) (heads : List (List UInt8)) (h : heads.flatten.length ≤ 8)
    (payload : List UInt8) :
    Finished (wsmBufInit bus true) (heads ++ [payload]) (wsmPutsT z (wsmBufInit bus true) (heads ++ [payload]) []) ↔
      Carries z bus (bus.hdrSize + heads.flatten.length + payload.length) := by
  have hdata : (wsmBufInit bus true).data = bus.hdrSize := rfl
  have hsize : (wsmBufInit bus true).size = bus.maxWsmBufLen := by
    show (overwrite _ _ _).length = _
    rw [length_overwrite, List.length_replicate]
  have hroom : bus.hdrSize + 8 ≤ bus.maxWsmBufLen := by
    rcases bus with _ | ⟨_ | _⟩ | _ <;> decide
  rw [payload_iff z (by omega), hdata, hsize]
  rfl

/-- **How long the payload of a command may be.** -/
theorem payload_commands (z : SizeT) (bus : Bus) (ifId : Option Nat) (payload : List UInt8) :
    let Sends := fun c : WsmCommand =>
      Finished (wsmBufInit bus true) c.fields (wsmPutsT z (wsmBufInit bus true) c.fields [])
    (∀ mibId, Sends (wsmWriteMib mibId payload ifId) ↔ Carries z bus (bus.hdrSize + 4 + payload.length)) ∧
      (∀ what count, Sends (wsmUpdateIe ⟨what, count, payload⟩ ifId) ↔
        Carries z bus (bus.hdrSize + 4 + payload.length)) ∧
      (Sends (wsmBleXmit payload) ↔ Carries z bus (bus.hdrSize + 0 + payload.length)) ∧
      ∀ address, Sends (wsmWriteShmem address payload) ↔ Carries z bus (bus.hdrSize + 8 + payload.length) := by
  refine ⟨fun mibId => ?_, fun what count => ?_, ?_, fun address => ?_⟩
  · exact carries_iff z bus [le16 mibId, le16 payload.length] (Nat.le_of_ble_eq_true rfl) payload
  · exact carries_iff z bus [le16 what, le16 count] (Nat.le_of_ble_eq_true rfl) payload
  · exact carries_iff z bus [] (Nat.le_of_ble_eq_true rfl) payload
  · exact carries_iff z bus [le32 address, le16 payload.length, le16 0] (Nat.le_of_ble_eq_true rfl) payload

/-- **A buffer that grows keeps what it has and gets the room wanted exactly at a right size, and an encoder stays in its
blocks and gives the message of its fields exactly when each growth up to a failed `krealloc` has one.** -/
theorem buf_grow_iff (z : SizeT) {b : WsmBuf} (hb : b.data ≤ b.size) :
    (∀ extra, (∀ memory b', wsmBufReserveT z b extra memory = (b', true) → Reserved b extra b') ↔
      RightSize z (b.data + extra)) ∧
    ∀ fields memory, Finished b fields (wsmPutsT z b fields memory) ↔
      growsRight z b.size b.data fields memory = true :=
  ⟨reserve_iff z hb, puts_iff z hb⟩

def mib3 : WsmCommand := wsmWriteMib 0x1002 [0x40, 0x41, 0x42] (some 0)

def full256 : WsmBuf := ⟨some (List.replicate 256 none), 256⟩

theorem buf_grow_iff_mib3 :
    Reserved full256 3 (wsmBufReserveT .bits64 full256 3 true).1 ∧
      Finished full256 mib3.fields (wsmPutsT .bits64 full256 mib3.fields []) := by
  have hb : full256.data ≤ full256.size := by decide +kernel
  have hgrow := buf_grow_iff .bits64 hb
  exact ⟨(hgrow.1 3).mpr (by decide) true _ rfl, (hgrow.2 mib3.fields []).mpr (by decide +kernel)⟩

/-- A MIB of 517 bytes on the buffer of the SDIO bus: 529 bytes are wanted, `krealloc` is asked for 256, and the copy
goes to offset 12 of them. -/
theorem buf_overrun :
    ¬ ∀ (z : SizeT) (b : WsmBuf) (c : WsmCommand) (memory : List Bool), b.data ≤ b.size →
      Finished b c.fields (wsmPutsT z b c.fields memory) := by
  intro h
  have hb : (wsmBufInit (.sdio true) true).data ≤ (wsmBufInit (.sdio true) true).size := by decide +kernel
  have hput := (puts_iff .bits64 hb _ []).mp
    (h .bits64 _ (wsmWriteMib 0x1002 (List.replicate 517 0x40) (some 0)) [] hb)
  revert hput
  decide +kernel

end AtbmWifi
