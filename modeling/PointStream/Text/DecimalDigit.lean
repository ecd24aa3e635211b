namespace PointStream.Text

/-- The code points of the zeros, one for each run of decimal digits, in ascending order. -/
def zeroDigits : List Nat :=
  [0x30, 0x660, 0x6F0, 0x7C0, 0x966, 0x9E6, 0xA66, 0xAE6, 0xB66, 0xBE6, 0xC66, 0xCE6, 0xD66,
    0xDE6, 0xE50, 0xED0, 0xF20, 0x1040, 0x1090, 0x17E0, 0x1810, 0x1946, 0x19D0, 0x1A80, 0x1A90,
    0x1B50, 0x1BB0, 0x1C40, 0x1C50, 0xA620, 0xA8D0, 0xA900, 0xA9D0, 0xA9F0, 0xAA50, 0xABF0,
    0xFF10, 0x104A0, 0x10D30, 0x11066, 0x110F0, 0x11136, 0x111D0, 0x112F0, 0x11450, 0x114D0,
    0x11650, 0x116C0, 0x11730, 0x118E0, 0x11950, 0x11C50, 0x11D50, 0x11DA0, 0x16A60, 0x16AC0,
    0x16B50, 0x1D7CE, 0x1D7D8, 0x1D7E2, 0x1D7EC, 0x1D7F6, 0x1E140, 0x1E2F0, 0x1E950, 0x1FBF0]

/-- The value of a decimal digit of any script. -/
def decimalDigit? (c : Char) : Option Nat :=
  (zeroDigits.find? fun start => start ≤ c.toNat && c.toNat < start + 10).map (c.toNat - ·)

/-- The digit that writes a number below ten. -/
def digitChar (n : Nat) : Char :=
  Char.ofNat (0x30 + n)

/-- A decimal digit of any script becomes the plain digit of the same value; any other character
stays. -/
def plainDigit (c : Char) : Char :=
  match decimalDigit? c with
  | some n => digitChar n
  | none => c

def isPlainDigit (c : Char) : Bool :=
  '0' ≤ c && c ≤ '9'

def digitValue (c : Char) : Nat :=
  c.toNat - 0x30

/-- The number that a row of plain digits writes, most significant digit first. -/
def natOfDigits (cs : List Char) : Nat :=
  cs.foldl (fun n c => 10 * n + digitValue c) 0

/-- The plain digits of a number before some characters that follow them. -/
def digitsBefore (n : Nat) (rest : List Char) : List Char :=
  if n < 10 then digitChar n :: rest else digitsBefore (n / 10) (digitChar (n % 10) :: rest)

/-- The plain digits of a number, most significant first; zero has one digit. -/
def digitsOfNat (n : Nat) : List Char :=
  digitsBefore n []

theorem digitsBefore_eq (n : Nat) (rest : List Char) :
    digitsBefore n rest = digitsOfNat n ++ rest := by
  induction n using Nat.strongRecOn generalizing rest with
  | ind n ih =>
    unfold digitsOfNat digitsBefore
    split
    · rfl
    · next h =>
      have smaller : n / 10 < n := Nat.div_lt_self (by omega) (by decide)
      rw [ih _ smaller, ih _ smaller [digitChar (n % 10)]]
      simp

theorem digitsOfNat_eq (n : Nat) :
    digitsOfNat n =
      if n < 10 then [digitChar n] else digitsOfNat (n / 10) ++ [digitChar (n % 10)] := by
  rw [digitsOfNat, digitsBefore]
  split
  · rfl
  · rw [digitsBefore_eq]

/-- A whole number in plain digits, with a minus sign when it is negative. -/
def intChars (n : Int) : List Char :=
  if n < 0 then '-' :: digitsOfNat n.natAbs else digitsOfNat n.natAbs

def intText (n : Int) : String :=
  String.ofList (intChars n)

def natText (n : Nat) : String :=
  String.ofList (digitsOfNat n)

/-- A number in plain digits, with a comma before every group of three but the first. -/
def groupedText (n : Nat) : String :=
  if n < 1000 then natText n
  else
    groupedText (n / 1000) ++ ","
      ++ String.ofList [digitChar (n / 100 % 10), digitChar (n / 10 % 10), digitChar (n % 10)]

end PointStream.Text
