import AtbmWifi.Lib.Memory

/-!
# Lists of elements with an id and a length

An element is a byte that names it, a byte that counts its data, and the data.  Whoever
walks such a list in a buffer goes from an element to the next by the length byte alone:
`Visits` is where a walk comes to that needs some bytes to be left; it comes to one place
after the other (`Visits.split`).  Where the buffer holds the elements of a list, it comes to
each of them (`Visits.of_encode`).
-/

namespace Tlv

open Memory

structure Element where
  id : UInt8
  data : List UInt8
  fits : data.length < 256

def Element.size (e : Element) : Nat := e.data.length + 2

def Element.bytes (e : Element) : List UInt8 := e.id :: UInt8.ofNat e.data.length :: e.data

def encode (es : List Element) : List UInt8 := es.flatMap Element.bytes

@[simp] theorem Element.length_bytes (e : Element) : e.bytes.length = e.size := rfl

theorem encode_cons (e : Element) (es : List Element) : encode (e :: es) = e.bytes ++ encode es := rfl

theorem encode_append (es fs : List Element) : encode (es ++ fs) = encode es ++ encode fs :=
  List.flatMap_append

theorem length_encode_cons (e : Element) (es : List Element) :
    (encode (e :: es)).length = e.size + (encode es).length := by
  rw [encode_cons, List.length_append, Element.length_bytes]

theorem size_le_encode {e : Element} {es : List Element} (h : e ∈ es) : e.size ≤ (encode es).length := by
  obtain ⟨as, bs, rfl⟩ := List.append_of_mem h
  rw [encode_append, List.length_append, length_encode_cons]
  omega

/-- The buffer holds the elements from `p` on. -/
def Holds (m : Nat → UInt8) (p : Nat) (es : List Element) : Prop := read m p (encode es).length = encode es

variable {m : Nat → UInt8} {p e : Nat} {x : Element} {es fs : List Element}

theorem holds_nil : Holds m p [] := rfl

theorem holds_append : Holds m p (es ++ fs) ↔ Holds m p es ∧ Holds m (p + (encode es).length) fs := by
  unfold Holds
  rw [encode_append, List.length_append, read_add]
  constructor
  · intro h
    exact List.append_inj h (length_read _ _ _)
  · rintro ⟨h, h'⟩
    rw [h, h']

theorem holds_cons : Holds m p (x :: es) ↔ read m p x.size = x.bytes ∧ Holds m (p + x.size) es := by
  have h : Holds m p ([x] ++ es) ↔ Holds m p [x] ∧ Holds m (p + (encode [x]).length) es := holds_append
  have hx : encode [x] = x.bytes := List.append_nil _
  unfold Holds at h ⊢
  rw [hx, Element.length_bytes] at h
  exact h

theorem Holds.head (h : Holds m p (x :: es)) :
    m p = x.id ∧ (m (p + 1)).toNat = x.data.length ∧ ∀ i (hi : i < x.data.length), m (p + 2 + i) = x.data[i] := by
  have hx := (holds_cons.mp h).1
  have hat : ∀ i (hi : i < x.bytes.length), m (p + i) = x.bytes[i] := by
    intro i hi
    have hr : i < (read m p x.size).length := by rwa [length_read, ← Element.length_bytes]
    rw [← getElem_read hr]
    exact List.getElem_of_eq hx hr
  have hsize : x.bytes.length = x.data.length + 2 := rfl
  refine ⟨hat 0 (by omega), ?_, ?_⟩
  · rw [hat 1 (by omega)]
    show (UInt8.ofNat x.data.length).toNat = x.data.length
    rw [UInt8.toNat_ofNat']
    exact Nat.mod_eq_of_lt x.fits
  · intro i hi
    rw [show p + 2 + i = p + (i + 2) by omega, hat (i + 2) (by omega)]
    rfl

/-- The walk over the bytes from `p` up to `e` comes to `q`, and `least` bytes are left there. -/
inductive Visits (m : Nat → UInt8) (least e : Nat) : Nat → Nat → Prop
  | here {p : Nat} : p + least ≤ e → Visits m least e p p
  | next {p q : Nat} : p + least ≤ e → Visits m least e (p + ((m (p + 1)).toNat + 2)) q → Visits m least e p q

theorem Visits.left {least q : Nat} (h : Visits m least e p q) : p + least ≤ e := by
  cases h with
  | here h => exact h
  | next h => exact h

theorem Visits.le {least q : Nat} (h : Visits m least e p q) : p ≤ q := by
  induction h with
  | here => exact Nat.le_refl _
  | next _ _ ih => omega

theorem Visits.left_at {least q : Nat} (h : Visits m least e p q) : q + least ≤ e := by
  induction h with
  | here h => exact h
  | next _ _ ih => exact ih

theorem Visits.trans {least q r : Nat} (h : Visits m least e p q) (h' : Visits m least e q r) :
    Visits m least e p r := by
  induction h with
  | here => exact h'
  | next hl _ ih => exact .next hl (ih h')

theorem visits_iff {least q : Nat} :
    Visits m least e p q ↔ p + least ≤ e ∧ (q = p ∨ Visits m least e (p + ((m (p + 1)).toNat + 2)) q) := by
  constructor
  · intro h
    cases h with
    | here h => exact ⟨h, .inl rfl⟩
    | next h hq => exact ⟨h, .inr hq⟩
  · rintro ⟨h, rfl | hq⟩
    · exact .here h
    · exact .next h hq

/-- Of two places that a walk comes to, it comes to the later one from the one before. -/
theorem Visits.split {least q r : Nat} (h : Visits m least e p q) (h' : Visits m least e p r) (hqr : q ≤ r) :
    Visits m least e q r := by
  induction h with
  | here => exact h'
  | next hl hq ih =>
    have hle := hq.le
    rcases (visits_iff.mp h').2 with rfl | h'
    · omega
    · exact ih h' hqr

theorem Visits.of_encode {least : Nat} (h : Holds m p (es ++ fs))
    (hl : p + (encode es).length + least ≤ e) :
    Visits m least e p (p + (encode es).length) := by
  induction es generalizing p with
  | nil => exact .here hl
  | cons x es ih =>
    rw [length_encode_cons] at hl ⊢
    have hnext : p + ((m (p + 1)).toNat + 2) = p + x.size := by rw [h.head.2.1]; rfl
    have hrest := (holds_cons.mp h).2
    apply Visits.next (by omega)
    rw [hnext, ← Nat.add_assoc]
    exact ih hrest (by omega)

end Tlv
