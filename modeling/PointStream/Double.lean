/-!
# Doubles

A double is a number of double precision, given by its 64 bits: the sign bit, eleven bits of
exponent and 52 bits of fraction. Without the sign bit the bits are the *magnitude* of the double.
Magnitudes are in the order of the numbers that they stand for, up to that of infinity; those above
it belong to the NaNs.

A NaN has a sign like every double, and arithmetic keeps it: an operation that meets a NaN gives
that NaN, and an operation on numbers that has no result gives the negative one. What an operation
gives on numbers is left to the arithmetic of `Float`, which tells no NaN from another.
-/

namespace PointStream

/-- A number of double precision, by its bits. Two doubles are equal when all bits are. -/
structure Double where
  bits : UInt64
deriving DecidableEq, Repr

namespace Double

/-- The bit that makes a double negative. -/
def signBit : UInt64 := 0x8000000000000000

/-- The magnitude of infinity. -/
def infiniteMagnitude : UInt64 := 0x7FF0000000000000

/-- The bits of a double without its sign. -/
def magnitude (x : Double) : UInt64 :=
  x.bits % signBit

def isNegative (x : Double) : Bool :=
  signBit ≤ x.bits

def isNaN (x : Double) : Bool :=
  infiniteMagnitude < x.magnitude

def isInfinite (x : Double) : Bool :=
  x.magnitude == infiniteMagnitude

def isFinite (x : Double) : Bool :=
  x.magnitude < infiniteMagnitude

def zero : Double :=
  ⟨0⟩

def infinity : Double :=
  ⟨infiniteMagnitude⟩

/-- The NaN without a sign. -/
def nan : Double :=
  ⟨0x7FF8000000000000⟩

def neg (x : Double) : Double :=
  ⟨x.bits ^^^ signBit⟩

def abs (x : Double) : Double :=
  ⟨x.magnitude⟩

/-- A word whose order is that of the numbers. Zero has one rank for both its signs. -/
def rank (x : Double) : UInt64 :=
  if x.isNegative then signBit - x.magnitude else signBit + x.magnitude

/-- Whether one double is a number below another. -/
def below (x y : Double) : Bool :=
  !x.isNaN && !y.isNaN && x.rank < y.rank

/-- Whether two doubles are the same number; a NaN is no number. -/
def sameNumber (x y : Double) : Bool :=
  !x.isNaN && !y.isNaN && x.rank == y.rank

def toFloat (x : Double) : Float :=
  Float.ofBits x.bits

def ofFloat (x : Float) : Double :=
  ⟨x.toBits⟩

/-- The result of an operation on two doubles: the first NaN among them, else what the operation
gives on numbers. -/
@[inline]
def combine (operation : Float → Float → Float) (x y : Double) : Double :=
  if x.isNaN then x
  else if y.isNaN then y
  else
    let z := ofFloat (operation x.toFloat y.toFloat)
    if z.isNaN then nan.neg else z

def add (x y : Double) : Double :=
  combine (· + ·) x y

def sub (x y : Double) : Double :=
  combine (· - ·) x y

def mul (x y : Double) : Double :=
  combine (· * ·) x y

def div (x y : Double) : Double :=
  combine (· / ·) x y

instance : Neg Double := ⟨neg⟩

instance : Add Double := ⟨add⟩

instance : Sub Double := ⟨sub⟩

instance : Mul Double := ⟨mul⟩

instance : Div Double := ⟨div⟩

instance : LT Double := ⟨fun x y => x.below y = true⟩

instance (x y : Double) : Decidable (x < y) :=
  inferInstanceAs (Decidable (x.below y = true))

end Double

end PointStream
