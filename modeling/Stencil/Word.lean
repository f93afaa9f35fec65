import Stencil.Text.Basic

/-!
# Words

Integers of 64 bits. Arithmetic is that of the integers; where the result does not fit, there is
none. Division and remainder go toward zero.
-/

namespace Stencil

/-- An integer that fits in 64 bits with sign. -/
structure Word where
  val : Int
  fits : -0x8000000000000000 ≤ val ∧ val < 0x8000000000000000
  deriving DecidableEq

namespace Word

/-- The integer as a word, if it fits. -/
def ofInt? (n : Int) : Option Word :=
  if h : -0x8000000000000000 ≤ n ∧ n < 0x8000000000000000 then some ⟨n, h⟩ else none

def zero : Word := ⟨0, by decide⟩

def one : Word := ⟨1, by decide⟩

/-- The greatest word. -/
def greatest : Word := ⟨0x7fffffffffffffff, by decide⟩

/-- A count as a word; a count too large for a word is taken as the greatest one. -/
def ofCount (n : Nat) : Word := (ofInt? n).getD greatest

def neg? (a : Word) : Option Word := ofInt? (-a.val)

def add? (a b : Word) : Option Word := ofInt? (a.val + b.val)

def sub? (a b : Word) : Option Word := ofInt? (a.val - b.val)

def mul? (a b : Word) : Option Word := ofInt? (a.val * b.val)

/-- The quotient, rounded toward zero. -/
def div? (a b : Word) : Option Word := ofInt? (a.val.tdiv b.val)

/-- What the quotient leaves over. There is no remainder where the quotient does not fit. -/
def rem? (a b : Word) : Option Word := (a.div? b).bind fun _ => ofInt? (a.val.tmod b.val)

/-- The decimal digits, after a minus sign if the word is negative. -/
def text (a : Word) : Text :=
  if a.val < 0 then '-' :: Nat.toDigits 10 a.val.natAbs else Nat.toDigits 10 a.val.natAbs

theorem ofInt?_eq_some_iff {n : Int} {a : Word} : ofInt? n = some a ↔ a.val = n := by
  unfold ofInt?
  constructor
  · intro h
    split at h
    · exact (Option.some.inj h) ▸ rfl
    · exact absurd h (by simp)
  · rintro rfl
    rw [dif_pos a.fits]

@[simp] theorem ofInt?_val (a : Word) : ofInt? a.val = some a :=
  ofInt?_eq_some_iff.2 rfl

end Word

end Stencil
