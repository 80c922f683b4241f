import Mathlib.Data.BitVec
import Mathlib.Tactic.Common

/-!
# Reading a message under a limit

A message lies in memory from offset 0.  A field is taken when it ends at the limit
or before; the limit is what the message says of its own length, and nothing here
knows how much of it was received.  A reader that fails leaves the position where it
stopped, so that what it has read so far is known.
-/

namespace Wire

/-- Memory with the position of the reading and the limit. -/
structure Cursor where
  mem : Nat → UInt8
  pos : Nat
  lim : Nat

/-- The value, none when a field did not fit, and the position it stopped at. -/
def Reader (α : Type) := Cursor → Option α × Cursor

variable {α β : Type}

def Reader.pure (a : α) : Reader α := fun c => (some a, c)

def Reader.bind (x : Reader α) (f : α → Reader β) : Reader β := fun c =>
  match x c with
  | (some a, c') => f a c'
  | (none, c') => (none, c')

instance : Monad Reader where
  pure := Reader.pure
  bind := Reader.bind

theorem bind_eq_some {x : Reader α} {f : α → Reader β} {c c' : Cursor} {b : β} :
    (x >>= f) c = (some b, c') ↔ ∃ a d, x c = (some a, d) ∧ f a d = (some b, c') := by
  show x.bind f c = _ ↔ _
  unfold Reader.bind
  rcases x c with ⟨_ | a, d⟩
  · simp
  · simp

/-- The next `n` bytes. -/
def Cursor.bytes (c : Cursor) (n : Nat) : List UInt8 := (List.range n).map fun i => c.mem (c.pos + i)

def getBytes (n : Nat) : Reader (List UInt8) := fun c =>
  if c.pos + n ≤ c.lim then (some (c.bytes n), { c with pos := c.pos + n }) else (none, c)

/-- The number with these bytes, the lowest first. -/
def ofBytes (l : List UInt8) : Nat := l.foldr (fun b n => b.toNat + 256 * n) 0

/-- A field of `n` bytes. -/
def getNumber (n : Nat) : Reader Nat := fun c => ((getBytes n c).1.map ofBytes, (getBytes n c).2)

def get8 : Reader Nat := getNumber 1
def get16 : Reader Nat := getNumber 2
def get32 : Reader Nat := getNumber 4

end Wire
