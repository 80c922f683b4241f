import AtbmWifi.Lib.Transition
import Mathlib.Data.Nat.Bitwise

/-!
# The packet id of a TX frame

`atbm_queue_make_packet_id` packs six `u8` values into one `u32`;
`atbm_queue_parse_id` unpacks them.  Fields (low bit, width): item id (0, 8),
item generation (8, 8), queue id (16, 4), interface id (20, 4), link id (24, 4),
queue generation (28, 4).  The link id is not masked when packed, so a raw link
id of 16 or more spills into the queue generation; the four lower fields come
back for every link id (`parse_make`).  `atbm_queue_get` rewrites the queue
generation alone (`setGeneration`).
-/

namespace AtbmWifi

/-- The queues are numbered `0` to `3`. -/
instance instNeZeroFour : NeZero 4 := ⟨by decide⟩

/-- The out-parameters of `atbm_queue_parse_id`. -/
structure ParsedId where
  queueGeneration : Nat
  queueId : Nat
  itemGeneration : Nat
  itemId : Nat
  ifId : Nat
  linkId : Nat
deriving DecidableEq

def atbmQueueParseId (packetID : Nat) : ParsedId where
  itemId := (packetID >>> 0) &&& 0xFF
  itemGeneration := (packetID >>> 8) &&& 0xFF
  queueId := (packetID >>> 16) &&& 0xF
  ifId := (packetID >>> 20) &&& 0xF
  linkId := (packetID >>> 24) &&& 0xF
  queueGeneration := (packetID >>> 28) &&& 0xF

/-- `atbm_queue_make_packet_id`; the last shift drops what leaves the 32 bits. -/
def atbmQueueMakePacketId (queueGeneration queueId itemGeneration itemId ifId linkId : Nat) : Nat :=
  (itemId <<< 0) ||| (itemGeneration <<< 8) ||| (queueId <<< 16) ||| (ifId <<< 20) |||
    (linkId <<< 24) ||| ((queueGeneration <<< 28) % 2 ^ 32)

/-- The rewrite of bits 28..31 in `atbm_queue_get`. -/
def setGeneration (packetID generation : Nat) : Nat :=
  (packetID &&& 0x0fffffff) ||| ((generation &&& 0xF) <<< 28)

/-- Bit field `[o, o + w)` of a number. -/
def field (o w p : Nat) : Nat := (p >>> o) &&& (2 ^ w - 1)

theorem testBit_field (o w p i : Nat) : (field o w p).testBit i = (decide (i < w) && p.testBit (o + i)) := by
  unfold field
  rw [Nat.testBit_and, Nat.testBit_shiftRight, Nat.testBit_two_pow_sub_one, Bool.and_comm]

theorem field_lt (o w p : Nat) : field o w p < 2 ^ w := by
  unfold field
  exact Nat.and_lt_two_pow _ (Nat.sub_lt (Nat.two_pow_pos w) Nat.one_pos)

theorem testBit_of_lt {x w i : Nat} (h : x < 2 ^ w) (hi : w ≤ i) : x.testBit i = false :=
  Nat.testBit_lt_two_pow (Nat.lt_of_lt_of_le h (Nat.pow_le_pow_right (by omega) hi))

theorem atbmQueueParseId_eq (p : Nat) :
    atbmQueueParseId p =
      { itemId := field 0 8 p, itemGeneration := field 8 8 p, queueId := field 16 4 p,
        ifId := field 20 4 p, linkId := field 24 4 p, queueGeneration := field 28 4 p } := rfl

theorem field_eq_of_bits {o w p x : Nat} (hx : x < 2 ^ w)
    (h : ∀ i, i < w → p.testBit (o + i) = x.testBit i) : field o w p = x := by
  apply Nat.eq_of_testBit_eq
  intro i
  rw [testBit_field]
  by_cases hi : i < w
  · simp [hi, h i hi]
  · rw [testBit_of_lt hx (Nat.le_of_not_lt hi)]
    simp [hi]

section
variable (qg qid ig k i l : Nat) (hig : ig < 2 ^ 8) (hk : k < 2 ^ 8) (hqid : qid < 2 ^ 4)
  (hi : i < 2 ^ 4)
include hig hk hqid hi

/-- **Unpacking a packed id**: the four lower fields come back, whatever the
link id and the queue generation. -/
theorem parse_make :
    (atbmQueueParseId (atbmQueueMakePacketId qg qid ig k i l)).itemId = k ∧
    (atbmQueueParseId (atbmQueueMakePacketId qg qid ig k i l)).itemGeneration = ig ∧
    (atbmQueueParseId (atbmQueueMakePacketId qg qid ig k i l)).queueId = qid ∧
    (atbmQueueParseId (atbmQueueMakePacketId qg qid ig k i l)).ifId = i := by
  have bit : ∀ j, j < 24 → (atbmQueueMakePacketId qg qid ig k i l).testBit j =
      (k.testBit j || (decide (8 ≤ j) && ig.testBit (j - 8)) ||
        (decide (16 ≤ j) && qid.testBit (j - 16)) || (decide (20 ≤ j) && i.testBit (j - 20))) := by
    intro j hj
    have top : ((qg <<< 28) % 2 ^ 32).testBit j = false := by
      rw [Nat.testBit_mod_two_pow, Nat.testBit_shiftLeft]
      simp [show ¬ 28 ≤ j by omega]
    unfold atbmQueueMakePacketId
    simp only [Nat.testBit_or, Nat.testBit_shiftLeft, top]
    simp [show ¬ 24 ≤ j by omega]
  rw [atbmQueueParseId_eq]
  refine ⟨field_eq_of_bits hk fun j hj => ?_, field_eq_of_bits hig fun j hj => ?_,
    field_eq_of_bits hqid fun j hj => ?_, field_eq_of_bits hi fun j hj => ?_⟩
  · rw [bit _ (by omega)]
    simp [show ¬ 8 ≤ j by omega, show ¬ 16 ≤ j by omega, show ¬ 20 ≤ j by omega]
  · rw [bit _ (by omega), testBit_of_lt hk (by omega)]
    simp [show ¬ 16 ≤ 8 + j by omega, show ¬ 20 ≤ 8 + j by omega]
  · rw [bit _ (by omega), testBit_of_lt hk (by omega), testBit_of_lt hig (by omega)]
    simp [show ¬ 20 ≤ 16 + j by omega]
  · rw [bit _ (by omega), testBit_of_lt hk (by omega), testBit_of_lt hig (by omega),
      testBit_of_lt hqid (by omega)]
    simp

end

/-- **The rewrite of `atbm_queue_get`** sets the queue generation and keeps the rest. -/
theorem parse_setGeneration (p g : Nat) :
    atbmQueueParseId (setGeneration p g) =
      { atbmQueueParseId p with queueGeneration := g &&& 0xF } := by
  have bit : ∀ j, (setGeneration p g).testBit j =
      if 28 ≤ j then (g &&& 0xF).testBit (j - 28) else p.testBit j := by
    intro j
    unfold setGeneration
    rw [Nat.testBit_or, Nat.testBit_and, Nat.testBit_shiftLeft,
      show (0x0fffffff : Nat) = 2 ^ 28 - 1 from rfl, Nat.testBit_two_pow_sub_one]
    by_cases h : 28 ≤ j
    · simp [h, show ¬ j < 28 by omega]
    · simp [h, show j < 28 by omega]
  have low : ∀ o w, o + w ≤ 28 → field o w (setGeneration p g) = field o w p := by
    intro o w h
    refine field_eq_of_bits (field_lt o w p) fun j hj => ?_
    rw [bit, if_neg (by omega), testBit_field]
    simp [hj]
  have hg : g &&& 0xF < 2 ^ 4 := Nat.and_lt_two_pow _ (by omega)
  have top : field 28 4 (setGeneration p g) = g &&& 0xF :=
    field_eq_of_bits hg fun j _ => by rw [bit, if_pos (by omega)]; congr 1; omega
  rw [atbmQueueParseId_eq, atbmQueueParseId_eq, low 0 8 (by omega), low 8 8 (by omega),
    low 16 4 (by omega), low 20 4 (by omega), low 24 4 (by omega), top]

theorem parse_ifId_lt (p : Nat) : (atbmQueueParseId p).ifId < 16 := field_lt 20 4 p

end AtbmWifi
