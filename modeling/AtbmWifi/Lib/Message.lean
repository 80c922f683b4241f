import AtbmWifi.Lib.Reader

/-!
# Parsers that act, and the format of a message

A parser takes the fields of a message one after the other, each checked against the
limit, and acts in between: what it has done stays done when a later field does not fit.
Its `script` on a memory is the list of its fields and acts there, as if nothing were ever
cut off.  The script and the limit alone decide how a parse goes:

* `run_val`, `run_cut`: it ends with its `result` there if the fields fit, and is cut off otherwise;
* `run_reads`: it reads the fields up to the first that does not fit;
* `run_acts_eq_nil`: one that is cut off has done nothing exactly when no act stands
  before that field.
-/

namespace Wire

/-- `size` bytes from `off` on. -/
structure Span where
  off : Nat
  size : Nat
  deriving DecidableEq, Repr

/-- Every byte of the span is one of the first `n`. -/
def Span.Within (n : Nat) (s : Span) : Prop := ∀ i < s.size, s.off + i < n

instance (n : Nat) (s : Span) : Decidable (s.Within n) := inferInstanceAs (Decidable (∀ i < s.size, _))

theorem Span.within_iff {n : Nat} {s : Span} : s.Within n ↔ s.size = 0 ∨ s.off + s.size ≤ n := by
  constructor
  · intro h
    by_cases h0 : s.size = 0
    · exact Or.inl h0
    · have := h (s.size - 1) (by omega)
      right
      omega
  · rintro h i hi
    omega

theorem Span.within_of_pos {a b n : Nat} (h : 0 < b) : (Span.mk a b).Within n ↔ a + b ≤ n :=
  Span.within_iff.trans (or_iff_right (Nat.ne_of_gt h))

theorem Span.Within.mono {m n : Nat} {s : Span} (h : s.Within m) (hmn : m ≤ n) : s.Within n := fun i hi =>
  Nat.lt_of_lt_of_le (h i hi) hmn

def Cursor.advance (n : Nat) (c : Cursor) : Cursor := { c with pos := c.pos + n }

@[simp] theorem Cursor.advance_pos (n : Nat) (c : Cursor) : (c.advance n).pos = c.pos + n := (rfl)
@[simp] theorem Cursor.advance_lim (n : Nat) (c : Cursor) : (c.advance n).lim = c.lim := (rfl)

/-- A parser that acts with `ε` and returns an `α`. -/
inductive Parse (ε α : Type) : Type
  | ret (a : α)
  /-- the next `n` bytes -/
  | take (n : Nat) (k : List UInt8 → Parse ε α)
  /-- `n` bytes that are checked and not read -/
  | skip (n : Nat) (k : Parse ε α)
  /-- the next `n` bytes, if the message goes on so far -/
  | opt (n : Nat) (k : Option (List UInt8) → Parse ε α)
  | act (e : ε) (k : Parse ε α)

/-- What came of a parse: its value, none if it was cut off, what it read and what it did. -/
structure Parsed (ε α : Type) where
  val : Option α
  reads : List Span
  acts : List ε
  deriving Repr

namespace Parsed

variable {ε α : Type}

def read (s : Span) (r : Parsed ε α) : Parsed ε α := { r with reads := s :: r.reads }

def did (e : ε) (r : Parsed ε α) : Parsed ε α := { r with acts := e :: r.acts }

@[simp] theorem read_val (s : Span) (r : Parsed ε α) : (r.read s).val = r.val := rfl
@[simp] theorem read_reads (s : Span) (r : Parsed ε α) : (r.read s).reads = s :: r.reads := rfl
@[simp] theorem read_acts (s : Span) (r : Parsed ε α) : (r.read s).acts = r.acts := rfl
@[simp] theorem did_val (e : ε) (r : Parsed ε α) : (r.did e).val = r.val := rfl
@[simp] theorem did_reads (e : ε) (r : Parsed ε α) : (r.did e).reads = r.reads := rfl
@[simp] theorem did_acts (e : ε) (r : Parsed ε α) : (r.did e).acts = e :: r.acts := rfl

end Parsed

namespace Parse

variable {ε α β : Type}

def bind : Parse ε α → (α → Parse ε β) → Parse ε β
  | ret a, f => f a
  | take n k, f => take n fun l => (k l).bind f
  | skip n k, f => skip n (k.bind f)
  | opt n k, f => opt n fun l => (k l).bind f
  | act e k, f => act e (k.bind f)

instance : Monad (Parse ε) where
  pure := ret
  bind := bind

/-- The parse of the message under `c`. -/
def run : Parse ε α → Cursor → Parsed ε α
  | ret a, _ => ⟨some a, [], []⟩
  | take n k, c =>
    if c.pos + n ≤ c.lim then ((k (c.bytes n)).run (c.advance n)).read ⟨c.pos, n⟩ else ⟨none, [], []⟩
  | skip n k, c => if c.pos + n ≤ c.lim then k.run (c.advance n) else ⟨none, [], []⟩
  | opt n k, c =>
    if c.pos + n ≤ c.lim then ((k (some (c.bytes n))).run (c.advance n)).read ⟨c.pos, n⟩ else (k none).run c
  | act e k, c => (k.run c).did e

/-- The next `n` bytes. -/
def bytes (n : Nat) : Parse ε (List UInt8) := take n ret

/-- A number of `n` bytes. -/
def number (n : Nat) : Parse ε Nat := take n fun l => ret (ofBytes l)

def skipBytes (n : Nat) : Parse ε Unit := skip n (ret ())

/-- A number of `n` bytes, if the message goes on so far. -/
def optNumber (n : Nat) : Parse ε (Option Nat) := opt n fun l => ret (l.map ofBytes)

def does (e : ε) : Parse ε Unit := act e (ret ())

end Parse

/-- An item of a format. -/
inductive Item
  | get (n : Nat)
  | skip (n : Nat)
  | act
  deriving DecidableEq, Repr

namespace Item

def size : Item → Nat
  | get n => n
  | skip n => n
  | act => 0

/-- Every field ends at the limit or before. -/
def Fits : List Item → Nat → Nat → Prop
  | [], _, _ => True
  | act :: l, pos, lim => Fits l pos lim
  | get n :: l, pos, lim => pos + n ≤ lim ∧ Fits l (pos + n) lim
  | skip n :: l, pos, lim => pos + n ≤ lim ∧ Fits l (pos + n) lim

/-- No act stands before the first field that does not fit. -/
def Quiet : List Item → Nat → Nat → Prop
  | [], _, _ => True
  | act :: _, _, _ => False
  | get n :: l, pos, lim => pos + n ≤ lim → Quiet l (pos + n) lim
  | skip n :: l, pos, lim => pos + n ≤ lim → Quiet l (pos + n) lim

/-- The bytes of the fields, up to the first that does not fit. -/
def taken : List Item → Nat → Nat → List Span
  | [], _, _ => []
  | act :: l, pos, lim => taken l pos lim
  | get n :: l, pos, lim => if pos + n ≤ lim then ⟨pos, n⟩ :: taken l (pos + n) lim else []
  | skip n :: l, pos, lim => if pos + n ≤ lim then taken l (pos + n) lim else []

instance decFits : ∀ (l : List Item) (pos lim : Nat), Decidable (Fits l pos lim)
  | [], _, _ => isTrue trivial
  | act :: l, pos, lim => decFits l pos lim
  | get n :: l, pos, lim => @instDecidableAnd _ _ _ (decFits l (pos + n) lim)
  | skip n :: l, pos, lim => @instDecidableAnd _ _ _ (decFits l (pos + n) lim)

instance decQuiet : ∀ (l : List Item) (pos lim : Nat), Decidable (Quiet l pos lim)
  | [], _, _ => isTrue trivial
  | act :: _, _, _ => isFalse id
  | get n :: l, pos, lim =>
    have := decQuiet l (pos + n) lim
    inferInstanceAs (Decidable (pos + n ≤ lim → Quiet l (pos + n) lim))
  | skip n :: l, pos, lim =>
    have := decQuiet l (pos + n) lim
    inferInstanceAs (Decidable (pos + n ≤ lim → Quiet l (pos + n) lim))

theorem taken_within {l : List Item} {pos lim : Nat} : ∀ s ∈ taken l pos lim, s.off + s.size ≤ lim := by
  induction l generalizing pos with
  | nil => exact fun s hs => absurd hs List.not_mem_nil
  | cons x l ih =>
    intro s hs
    cases x with
    | act => exact ih s hs
    | get n =>
      unfold taken at hs
      split at hs
      · next hle =>
        rcases List.mem_cons.mp hs with rfl | hs
        · exact hle
        · exact ih s hs
      · exact absurd hs List.not_mem_nil
    | skip n =>
      unfold taken at hs
      split at hs
      · exact ih s hs
      · exact absurd hs List.not_mem_nil

end Item

namespace Parse

variable {ε α β : Type}

open Item

/-- The fields and the acts of the parser on this memory; of the limit only what it says of the optional
fields. -/
def script : Parse ε α → Cursor → List Item
  | ret _, _ => []
  | take n k, c => .get n :: (k (c.bytes n)).script (c.advance n)
  | skip n k, c => .skip n :: k.script (c.advance n)
  | opt n k, c =>
    if c.pos + n ≤ c.lim then .get n :: (k (some (c.bytes n))).script (c.advance n) else (k none).script c
  | act _ k, c => .act :: k.script c

/-- What the parser ends with on this memory; of the limit only what it says of the optional fields. -/
def result : Parse ε α → Cursor → α
  | ret a, _ => a
  | take n k, c => (k (c.bytes n)).result (c.advance n)
  | skip n k, c => k.result (c.advance n)
  | opt n k, c => if c.pos + n ≤ c.lim then (k (some (c.bytes n))).result (c.advance n) else (k none).result c
  | act _ k, c => k.result c

/-- **A parse ends** -/
theorem run_val {p : Parse ε α} {c : Cursor} (h : Fits (p.script c) c.pos c.lim) :
    (p.run c).val = some (p.result c) := by
  induction p generalizing c with
  | ret a => rfl
  | take n k ih =>
    obtain ⟨hle, h⟩ := h
    unfold run result
    rw [if_pos hle]
    exact ih _ h
  | skip n k ih =>
    obtain ⟨hle, h⟩ := h
    unfold run result
    rw [if_pos hle]
    exact ih h
  | opt n k ih =>
    unfold script at h
    unfold run result
    by_cases hle : c.pos + n ≤ c.lim
    · rw [if_pos hle] at h ⊢
      rw [if_pos hle]
      exact ih _ h.2
    · rw [if_neg hle] at h ⊢
      rw [if_neg hle]
      exact ih _ h
  | act e k ih => exact ih h

/-- **A parse is cut off** if the fields do not fit. -/
theorem run_cut {p : Parse ε α} {c : Cursor} (h : ¬ Fits (p.script c) c.pos c.lim) : (p.run c).val = none := by
  induction p generalizing c with
  | ret a => exact absurd trivial h
  | take n k ih =>
    unfold run
    by_cases hle : c.pos + n ≤ c.lim
    · rw [if_pos hle]
      exact ih _ fun hf => h ⟨hle, hf⟩
    · rw [if_neg hle]
  | skip n k ih =>
    unfold run
    by_cases hle : c.pos + n ≤ c.lim
    · rw [if_pos hle]
      exact ih fun hf => h ⟨hle, hf⟩
    · rw [if_neg hle]
  | opt n k ih =>
    unfold script at h
    unfold run
    by_cases hle : c.pos + n ≤ c.lim
    · rw [if_pos hle] at h ⊢
      exact ih _ fun hf => h ⟨hle, hf⟩
    · rw [if_neg hle] at h ⊢
      exact ih _ h
  | act e k ih => exact ih h

/-- **A parse reads** -/
theorem run_reads (p : Parse ε α) (c : Cursor) : (p.run c).reads = taken (p.script c) c.pos c.lim := by
  induction p generalizing c with
  | ret a => rfl
  | take n k ih =>
    unfold run script taken
    by_cases h : c.pos + n ≤ c.lim
    · rw [if_pos h, if_pos h, Parsed.read_reads, ih]
      rfl
    · rw [if_neg h, if_neg h]
  | skip n k ih =>
    unfold run script taken
    by_cases h : c.pos + n ≤ c.lim
    · rw [if_pos h, if_pos h, ih]
      rfl
    · rw [if_neg h, if_neg h]
  | opt n k ih =>
    unfold run script
    by_cases h : c.pos + n ≤ c.lim
    · rw [if_pos h, if_pos h, Parsed.read_reads, ih]
      simp [taken, h]
    · rw [if_neg h, if_neg h, ih]
  | act e k ih =>
    unfold run script taken
    rw [Parsed.did_reads, ih]

/-- **A parse that is cut off has done nothing** -/
theorem run_acts_eq_nil (p : Parse ε α) (c : Cursor) (hcut : (p.run c).val = none) :
    (p.run c).acts = [] ↔ Quiet (p.script c) c.pos c.lim := by
  induction p generalizing c with
  | ret a => exact absurd hcut (by simp [run])
  | take n k ih =>
    unfold run at hcut ⊢
    unfold script
    by_cases h : c.pos + n ≤ c.lim
    · rw [if_pos h] at hcut ⊢
      rw [Parsed.read_acts, ih _ _ hcut]
      simp [Quiet, h]
    · simp [Quiet, h]
  | skip n k ih =>
    unfold run at hcut ⊢
    unfold script
    by_cases h : c.pos + n ≤ c.lim
    · rw [if_pos h] at hcut ⊢
      rw [ih _ hcut]
      simp [Quiet, h]
    · simp [Quiet, h]
  | opt n k ih =>
    unfold run at hcut ⊢
    unfold script
    by_cases h : c.pos + n ≤ c.lim
    · rw [if_pos h] at hcut ⊢
      rw [if_pos h, Parsed.read_acts, ih _ _ hcut]
      simp [Quiet, h]
    · rw [if_neg h] at hcut ⊢
      rw [if_neg h, ih _ _ hcut]
  | act e k _ =>
    unfold run script
    simp [Quiet]

section
variable (n : Nat) (e : ε) (c : Cursor)

@[simp] theorem script_pure (a : α) : (pure a : Parse ε α).script c = [] := rfl
@[simp] theorem result_pure (a : α) : (pure a : Parse ε α).result c = a := rfl

@[simp] theorem script_ite (P : Prop) [Decidable P] (p q : Parse ε α) :
    (if P then p else q).script c = if P then p.script c else q.script c := apply_ite (script · c) P p q
@[simp] theorem result_ite (P : Prop) [Decidable P] (p q : Parse ε α) :
    (if P then p else q).result c = if P then p.result c else q.result c := apply_ite (result · c) P p q

@[simp] theorem script_number (f : Nat → Parse ε α) :
    (number n >>= f).script c = .get n :: (f (ofBytes (c.bytes n))).script (c.advance n) := rfl
@[simp] theorem result_number (f : Nat → Parse ε α) :
    (number n >>= f).result c = (f (ofBytes (c.bytes n))).result (c.advance n) := rfl

@[simp] theorem script_bytes (f : List UInt8 → Parse ε α) :
    (bytes n >>= f).script c = .get n :: (f (c.bytes n)).script (c.advance n) := rfl
@[simp] theorem result_bytes (f : List UInt8 → Parse ε α) :
    (bytes n >>= f).result c = (f (c.bytes n)).result (c.advance n) := rfl

@[simp] theorem script_skipBytes (f : Unit → Parse ε α) :
    (skipBytes n >>= f).script c = .skip n :: (f ()).script (c.advance n) := rfl
@[simp] theorem result_skipBytes (f : Unit → Parse ε α) :
    (skipBytes n >>= f).result c = (f ()).result (c.advance n) := rfl

@[simp] theorem script_optNumber (f : Option Nat → Parse ε α) :
    (optNumber n >>= f).script c =
      if c.pos + n ≤ c.lim then .get n :: (f (some (ofBytes (c.bytes n)))).script (c.advance n)
      else (f none).script c := rfl
@[simp] theorem result_optNumber (f : Option Nat → Parse ε α) :
    (optNumber n >>= f).result c =
      if c.pos + n ≤ c.lim then (f (some (ofBytes (c.bytes n)))).result (c.advance n) else (f none).result c := rfl

@[simp] theorem script_does (f : Unit → Parse ε α) : (does e >>= f).script c = .act :: (f ()).script c := rfl
@[simp] theorem result_does (f : Unit → Parse ε α) : (does e >>= f).result c = (f ()).result c := rfl

end

end Parse

end Wire
