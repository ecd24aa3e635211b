import PointStream.Crs.Transform

namespace PointStream.Mercator

/-- The two systems. -/
inductive Kind where
  | geographic
  | mercator
deriving DecidableEq, Repr

def Kind.key : Kind → String
  | geographic => "EPSG:4326"
  | mercator => "EPSG:3857"

def Kind.name : Kind → String
  | geographic => "WGS 84"
  | mercator => "WGS 84 / Pseudo-Mercator"

def kind? (descriptor : String) : Option Kind :=
  [Kind.geographic, Kind.mercator].find? fun k => k.key == descriptor

def systemOf (k : Kind) : System :=
  ⟨k.key, k.name, k.key⟩

def find (descriptor : String) : Except String System :=
  match kind? descriptor with
  | some k => .ok (systemOf k)
  | none => .error ("Invalid projection: " ++ descriptor)

/-- The radius of the sphere in metres. -/
def radius : Float := 6378137.0

/-- Half the circumference of the unit circle. -/
def pi : Float := 3.141592653589793

def radians (v : Float) : Float :=
  v * (pi / 180.0)

def degrees (v : Float) : Float :=
  v * (180.0 / pi)

/-- How far an angle may be beyond its bounds by rounding, in radians. -/
def slack : Float := 1e-12

/-- A longitude in radians without its whole turns, within half a turn of the meridian. One that is
beyond half a turn by rounding stays. -/
def withinTurn (longitude : Float) : Float :=
  if longitude.abs < pi + slack then longitude
  else
    let east := longitude + pi
    east - 2.0 * pi * (east / (2.0 * pi)).floor - pi

/-- A latitude in radians that ends at the poles; none is farther than by rounding from there. -/
def uptoPole? (latitude : Float) : Option Float :=
  if slack < latitude.abs - pi / 2.0 then none
  else if pi / 2.0 < latitude then some (pi / 2.0)
  else if latitude < -(pi / 2.0) then some (-(pi / 2.0))
  else some latitude

/-- The projection of a place. A longitude of more than ten radians is none. -/
def project? (p : Point) : Option Point := do
  let longitude := radians p.x.toFloat
  let latitude ← uptoPole? (radians p.y.toFloat)
  if 10.0 < longitude.abs then none
  else
    pure ⟨.ofFloat (radius * withinTurn longitude),
      .ofFloat (radius * Float.asinh (Float.tan latitude)), p.z⟩

/-- The place of a projection. -/
def locate (p : Point) : Point :=
  let scale := 1.0 / radius
  ⟨.ofFloat (degrees (withinTurn (p.x.toFloat * scale))),
    .ofFloat (degrees (Float.atan (Float.sinh (p.y.toFloat * scale)))), p.z⟩

/-- Whether all coordinates of a point are known. A coordinate that is not known is marked by
positive infinity. -/
def isKnown (p : Point) : Bool :=
  p.toList.all fun v => v != .infinity

/-- The image of a point, if it has one. -/
def image? (source target : Kind) (p : Point) : Option Point :=
  match source, target with
  | .geographic, .mercator => if isKnown p then project? p else none
  | .mercator, .geographic => if isKnown p then some (locate p) else none
  | _, _ => some p

def transform (source target : Kind) (p : Point) : Except String Point :=
  match image? source target p with
  | some q => .ok q
  | none => .error "transform error: Invalid coordinate"

/-- The operation on a row of points, which is refused with any of its points. -/
def transformAll (source target : Kind) : List Point → Except String (List Point)
  | [] => .ok []
  | p :: ps =>
    match transform source target p with
    | .error e => .error e
    | .ok q => (transformAll source target ps).map (q :: ·)

theorem length_of_transformAll {source target : Kind} {ps qs : List Point}
    (h : transformAll source target ps = .ok qs) : qs.length = ps.length := by
  induction ps generalizing qs with
  | nil =>
    cases h
    rfl
  | cons p ps ih =>
    unfold transformAll at h
    split at h
    · cases h
    · cases hrest : transformAll source target ps with
      | error e => simp [hrest, Except.map] at h
      | ok rs =>
        simp only [hrest, Except.map, Except.ok.injEq] at h
        simp [← h, ih hrest]

def connect (source target : System) : Except String Operation :=
  match kind? source.key, kind? target.key with
  | some a, some b => .ok ⟨transform a b, transformAll a b, length_of_transformAll⟩
  | _, _ => .error "no operation found"

/-- The backend of geographic and Mercator coordinates. -/
def backend : Backend :=
  ⟨find, connect⟩

end PointStream.Mercator
