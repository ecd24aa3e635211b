namespace PointStream.Text

/-- The capitals of a character: the small letters a to z, and the few further characters whose
capitals are ASCII letters. Every other character stays as it is. -/
def capitals (c : Char) : List Char :=
  if 'a' ≤ c && c ≤ 'z' then [Char.ofNat (c.toNat - 0x20)]
  else match c.toNat with
    | 0xDF => ['S', 'S']
    | 0x131 => ['I']
    | 0x17F => ['S']
    | 0xFB00 => ['F', 'F']
    | 0xFB01 => ['F', 'I']
    | 0xFB02 => ['F', 'L']
    | 0xFB03 => ['F', 'F', 'I']
    | 0xFB04 => ['F', 'F', 'L']
    | 0xFB05 => ['S', 'T']
    | 0xFB06 => ['S', 'T']
    | _ => [c]

def capitalized (s : String) : String :=
  String.ofList (s.toList.flatMap capitals)

/-- The small letter of a capital A to Z, or of the kelvin sign; every other character stays as
it is. -/
def smallLetter (c : Char) : Char :=
  if 'A' ≤ c && c ≤ 'Z' then Char.ofNat (c.toNat + 0x20)
  else if c.toNat = 0x212A then 'k'
  else c

def uncapitalized (s : String) : String :=
  String.ofList (s.toList.map smallLetter)

end PointStream.Text
