import PointStream.Number.Power

/-!
# Counter-based random words

A block of four words is a keyed mixing of a counter of 256 bits: ten rounds of multiplication and
exclusive or. A stream hands out the words of consecutive blocks one by one; it advances the
counter before it mixes a block, so a stream that starts at a counter begins with the block behind
it.
-/

namespace PointStream.Philox

structure Key where
  low : UInt64
  high : UInt64
deriving DecidableEq, Repr

structure Block where
  w0 : UInt64
  w1 : UInt64
  w2 : UInt64
  w3 : UInt64
deriving DecidableEq, Repr

/-- The key that a number of 128 bits gives, low word first. -/
def Key.ofNat (n : Nat) : Key :=
  ⟨UInt64.ofNat n, UInt64.ofNat (n / 2 ^ 64)⟩

/-- The four words of a counter, low word first. -/
def Block.ofCounter (n : Nat) : Block :=
  ⟨UInt64.ofNat n, UInt64.ofNat (n / 2 ^ 64), UInt64.ofNat (n / 2 ^ 128),
    UInt64.ofNat (n / 2 ^ 192)⟩

/-- The high word of the product of two words, from the products of their halves. -/
def highProduct (a b : UInt64) : UInt64 :=
  let low (w : UInt64) : UInt64 := w % 0x100000000
  let high (w : UInt64) : UInt64 := w / 0x100000000
  let inner := low a * high b
  let carry := high (low a * low b) + low inner + high a * low b
  high a * high b + high inner + high carry

theorem div_mul_halves (a₀ a₁ b₀ b₁ : Nat) :
    a₁ * b₁ + a₀ * b₁ / 2 ^ 32 + (a₀ * b₀ / 2 ^ 32 + a₀ * b₁ % 2 ^ 32 + a₁ * b₀) / 2 ^ 32 =
      (a₁ * 2 ^ 32 + a₀) * (b₁ * 2 ^ 32 + b₀) / 2 ^ 64 := by
  have expanded : (a₁ * 2 ^ 32 + a₀) * (b₁ * 2 ^ 32 + b₀) =
      a₁ * b₁ * 2 ^ 64 + (a₀ * b₁ + a₁ * b₀) * 2 ^ 32 + a₀ * b₀ := by grind
  rw [expanded]
  omega

theorem mul_halves_le {x y : Nat} (hx : x < 2 ^ 32) (hy : y < 2 ^ 32) :
    x * y ≤ (2 ^ 32 - 1) * (2 ^ 32 - 1) :=
  Nat.mul_le_mul (by omega) (by omega)

/-- Nothing is lost in the products and sums of halves. -/
theorem toNat_highProduct (a b : UInt64) :
    (highProduct a b).toNat = a.toNat * b.toNat / 2 ^ 64 := by
  have ha := a.toNat_lt
  have hb := b.toNat_lt
  have a₀ : a.toNat % 2 ^ 32 < 2 ^ 32 := Nat.mod_lt _ (by decide)
  have a₁ : a.toNat / 2 ^ 32 < 2 ^ 32 := by omega
  have b₀ : b.toNat % 2 ^ 32 < 2 ^ 32 := Nat.mod_lt _ (by decide)
  have b₁ : b.toNat / 2 ^ 32 < 2 ^ 32 := by omega
  have h₀₀ := mul_halves_le a₀ b₀
  have h₀₁ := mul_halves_le a₀ b₁
  have h₁₀ := mul_halves_le a₁ b₀
  have h₁₁ := mul_halves_le a₁ b₁
  have product := div_mul_halves (a.toNat % 2 ^ 32) (a.toNat / 2 ^ 32) (b.toNat % 2 ^ 32)
    (b.toNat / 2 ^ 32)
  rw [Nat.div_add_mod' a.toNat, Nat.div_add_mod' b.toNat] at product
  have word : a.toNat * b.toNat / 2 ^ 64 < 2 ^ 64 :=
    Nat.div_lt_of_lt_mul (Nat.mul_lt_mul'' ha hb)
  rw [← product] at word ⊢
  simp only [highProduct, UInt64.toNat_add, UInt64.toNat_mul, UInt64.toNat_div, UInt64.toNat_mod,
    UInt64.reduceToNat]
  generalize a.toNat % 2 ^ 32 * (b.toNat % 2 ^ 32) = p at *
  generalize a.toNat % 2 ^ 32 * (b.toNat / 2 ^ 32) = q at *
  generalize a.toNat / 2 ^ 32 * (b.toNat % 2 ^ 32) = r at *
  generalize a.toNat / 2 ^ 32 * (b.toNat / 2 ^ 32) = s at *
  omega

def multiplier0 : UInt64 := 0xD2E7470EE14C6C93

def multiplier2 : UInt64 := 0xCA5A826395121157

/-- One round of mixing. -/
def Block.mixOnce (b : Block) (k : Key) : Block :=
  ⟨highProduct multiplier2 b.w2 ^^^ b.w1 ^^^ k.low, multiplier2 * b.w2,
    highProduct multiplier0 b.w0 ^^^ b.w3 ^^^ k.high, multiplier0 * b.w0⟩

def Key.advance (k : Key) : Key :=
  ⟨k.low + 0x9E3779B97F4A7C15, k.high + 0xBB67AE8584CAA73B⟩

/-- A number of rounds of mixing, each with the key after that of the round before. -/
def mix : Nat → Key → Block → Block
  | 0, _, b => b
  | rounds + 1, k, b => mix rounds k.advance (b.mixOnce k)

def block (k : Key) (counter : Nat) : Block :=
  mix 10 k (Block.ofCounter counter)

/-- The words of consecutive blocks, with those of the current block that are still to come. -/
structure Stream where
  key : Key
  counter : Nat
  pending : List UInt64
deriving DecidableEq, Repr

/-- The stream that begins with the block behind a counter. -/
def Stream.start (k : Key) (counter : Nat) : Stream :=
  ⟨k, counter, []⟩

/-- The next word of a stream, and the stream behind it. -/
def Stream.next (s : Stream) : UInt64 × Stream :=
  match s.pending with
  | w :: ws => (w, { s with pending := ws })
  | [] =>
    let counter := s.counter + 1
    let b := block s.key counter
    (b.w0, ⟨s.key, counter, [b.w1, b.w2, b.w3]⟩)

end PointStream.Philox
