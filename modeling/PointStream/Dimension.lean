import PointStream.Text.Blank
import PointStream.Text.Casing

namespace PointStream

/-- The types in which values are stored. -/
inductive Storage where
  | float64
  | int32
  | uint64
  | uint16
  | uint8
  | int8
deriving DecidableEq, Repr

namespace Storage

def width : Storage → Nat
  | float64 => 8
  | int32 => 4
  | uint64 => 8
  | uint16 => 2
  | uint8 => 1
  | int8 => 1

/-- The name of a storage type. -/
def name : Storage → String
  | float64 => "float64"
  | int32 => "int32"
  | uint64 => "uint64"
  | uint16 => "uint16"
  | uint8 => "uint8"
  | int8 => "int8"

/-- The two characters that a dimension gives for its storage type. -/
def code : Storage → String
  | float64 => "f8"
  | int32 => "i4"
  | uint64 => "u8"
  | uint16 => "u2"
  | uint8 => "u1"
  | int8 => "i1"

/-- Whether a whole number type has negative values. -/
def signed : Storage → Bool
  | int32 => true
  | int8 => true
  | _ => false

end Storage

/-- The attributes of points. -/
inductive Dimension where
  | xF64
  | yF64
  | zF64
  | xI32
  | yI32
  | zI32
  | timeU64
  | gpsTimeF64
  | intensityU16
  | returnNumberU8
  | numberOfReturnsU8
  | classificationU8
  | scanAngleRankI8
  | userDataU8
  | pointSourceIdU16
  | redU8
  | greenU8
  | blueU8
  | redU16
  | greenU16
  | blueU16
deriving DecidableEq, Repr

namespace Dimension

def all : List Dimension :=
  [xF64, yF64, zF64, xI32, yI32, zI32, timeU64, gpsTimeF64, intensityU16, returnNumberU8,
    numberOfReturnsU8, classificationU8, scanAngleRankI8, userDataU8, pointSourceIdU16, redU8,
    greenU8, blueU8, redU16, greenU16, blueU16]

/-- The identifier of a dimension: its attribute and its storage type in capitals. -/
def id : Dimension → String
  | xF64 => "X_F64"
  | yF64 => "Y_F64"
  | zF64 => "Z_F64"
  | xI32 => "X_I32"
  | yI32 => "Y_I32"
  | zI32 => "Z_I32"
  | timeU64 => "TIME_U64"
  | gpsTimeF64 => "GPS_TIME_F64"
  | intensityU16 => "INTENSITY_U16"
  | returnNumberU8 => "RETURN_NUMBER_U8"
  | numberOfReturnsU8 => "NUMBER_OF_RETURNS_U8"
  | classificationU8 => "CLASSIFICATION_U8"
  | scanAngleRankI8 => "SCAN_ANGLE_RANK_I8"
  | userDataU8 => "USER_DATA_U8"
  | pointSourceIdU16 => "POINT_SOURCE_ID_U16"
  | redU8 => "RED_U8"
  | greenU8 => "GREEN_U8"
  | blueU8 => "BLUE_U8"
  | redU16 => "RED_U16"
  | greenU16 => "GREEN_U16"
  | blueU16 => "BLUE_U16"

/-- The name of the attribute, which dimensions of several storage types may share. -/
def name : Dimension → String
  | xF64 => "X"
  | yF64 => "Y"
  | zF64 => "Z"
  | xI32 => "X"
  | yI32 => "Y"
  | zI32 => "Z"
  | timeU64 => "Time"
  | gpsTimeF64 => "GpsTime"
  | intensityU16 => "Intensity"
  | returnNumberU8 => "ReturnNumber"
  | numberOfReturnsU8 => "NumberOfReturns"
  | classificationU8 => "Classification"
  | scanAngleRankI8 => "ScanAngleRank"
  | userDataU8 => "UserData"
  | pointSourceIdU16 => "PointSourceId"
  | redU8 => "Red"
  | greenU8 => "Green"
  | blueU8 => "Blue"
  | redU16 => "Red"
  | greenU16 => "Green"
  | blueU16 => "Blue"

def storage : Dimension → Storage
  | xF64 => .float64
  | yF64 => .float64
  | zF64 => .float64
  | xI32 => .int32
  | yI32 => .int32
  | zI32 => .int32
  | timeU64 => .uint64
  | gpsTimeF64 => .float64
  | intensityU16 => .uint16
  | returnNumberU8 => .uint8
  | numberOfReturnsU8 => .uint8
  | classificationU8 => .uint8
  | scanAngleRankI8 => .int8
  | userDataU8 => .uint8
  | pointSourceIdU16 => .uint16
  | redU8 => .uint8
  | greenU8 => .uint8
  | blueU8 => .uint8
  | redU16 => .uint16
  | greenU16 => .uint16
  | blueU16 => .uint16

def width (d : Dimension) : Nat :=
  d.storage.width

def ofId? (id : String) : Option Dimension :=
  all.find? fun d => d.id == id

/-- The dimension that a key names: its identifier in any case, with blanks around it. -/
def ofKey? (key : String) : Option Dimension :=
  ofId? (Text.capitalized (Text.trim key))

def describe (d : Dimension) : String :=
  "Dimension(" ++ d.id ++ ")"

end Dimension

end PointStream
