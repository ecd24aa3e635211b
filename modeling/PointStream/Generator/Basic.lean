import PointStream.Decimal.Binary
import PointStream.Failure
import PointStream.Generator.Philox

namespace PointStream

/-- What a source of points was set up to make. -/
structure Generator where
  bounds : Bounds
  total : Nat
  mode : Mode
  schema : Schema
  seed : Nat

namespace Generator

/-- The point of a box for an index, by mode. In ramp mode the way from the minimum corner is the
index over the greatest index; in random mode it is drawn. -/
def place {α : Type} [Add α] [Sub α] [Mul α] [Div α] (ofNat : Nat → α) (box : Box α) (mode : Mode)
    (total : Nat) (drawn : Triple α) (index : Nat) : Triple α :=
  match mode with
  | .constant => box.minimum
  | .ramp =>
    if total ≤ 1 then box.minimum
    else box.interpolate (Triple.all (ofNat index / ofNat (total - 1)))
  | .random => box.interpolate drawn

/-- The double in the unit interval that the 53 high bits of a word give: their number divided by
`2 ^ 53`, which loses nothing. The highest bit of the number gives the exponent, and the bits behind
it the fraction. -/
def unitOfWord (w : UInt64) : Double :=
  let n := w >>> 11
  if n = 0 then .zero else ⟨((n.log2 + 969) <<< 52) + (n <<< (52 - n.log2))⟩

/-- The place in the box that the first three words of a block give. -/
def drawOfBlock (b : Philox.Block) : Triple Double :=
  ⟨unitOfWord b.w0, unitOfWord b.w1, unitOfWord b.w2⟩

def key (g : Generator) : Philox.Key :=
  Philox.Key.ofNat g.seed

/-- The point with a given global index. -/
def pointAt (g : Generator) (index : Nat) : Point :=
  place Double.ofNat g.bounds g.mode g.total (drawOfBlock (Philox.block g.key (index + 1))) index

/-- The next four words of a stream as a place in the box, of which the last word is not used. -/
def draw (s : Philox.Stream) : Triple Double × Philox.Stream :=
  let (x, s) := s.next
  let (y, s) := s.next
  let (z, s) := s.next
  let (_, s) := s.next
  (⟨unitOfWord x, unitOfWord y, unitOfWord z⟩, s)

/-- The places that a stream gives to a row of points. -/
def draws : Nat → Philox.Stream → List (Triple Double)
  | 0, _ => []
  | n + 1, s =>
    let (t, s) := draw s
    t :: draws n s

/-- The global indices of a row of points as words. A first index that is no word, or whose
successor is needed and is none, is out of range; later indices wrap around. -/
def indices (start : Int) (count : Nat) : Except Failure (List UInt64) :=
  if start < 0 ∨ 2 ^ 64 ≤ start ∨ (2 ≤ count ∧ 2 ^ 64 ≤ start + 1) then
    .error (.number .outOfRange)
  else .ok ((List.range count).map fun r => UInt64.ofNat (start.toNat + r))

def points (g : Generator) (indices : List UInt64) : Except Failure (List Point) :=
  match g.mode with
  | .constant => .ok (indices.map fun _ => g.bounds.minimum)
  | .ramp =>
    match Double.ofInt? (g.total - 1 : Nat) with
    | .error fault => .error (.number fault)
    | .ok _ =>
      .ok (indices.map fun i => place Double.ofNat g.bounds .ramp g.total (Triple.all 0) i.toNat)
  | .random =>
    match indices with
    | [] => .ok []
    | first :: _ =>
      let drawn := draws indices.length (Philox.Stream.start g.key first.toNat)
      .ok (indices.zipWith (fun i t => place Double.ofNat g.bounds .random g.total t i.toNat) drawn)

end Generator

end PointStream
