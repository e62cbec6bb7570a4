import LiveTables.Value

namespace LiveTables

/-- An integer of one of the machine widths. The word-sized widths have 64 bits. -/
inductive Integer where
  | int8 (n : Int8)
  | int16 (n : Int16)
  | int32 (n : Int32)
  | int64 (n : Int64)
  | intWord (n : Int64)
  | uint8 (n : UInt8)
  | uint16 (n : UInt16)
  | uint32 (n : UInt32)
  | uint64 (n : UInt64)
  | uintWord (n : UInt64)
deriving DecidableEq, Repr

namespace Integer

def toInt : Integer → Int
  | int8 n => n.toInt
  | int16 n => n.toInt
  | int32 n => n.toInt
  | int64 n | intWord n => n.toInt
  | uint8 n => n.toNat
  | uint16 n => n.toNat
  | uint32 n => n.toNat
  | uint64 n | uintWord n => n.toNat

/-- A signed integer becomes a signed value and an unsigned one an unsigned value. -/
def toValue : Integer → Value
  | int8 n => .int n.toInt64
  | int16 n => .int n.toInt64
  | int32 n => .int n.toInt64
  | int64 n | intWord n => .int n
  | uint8 n => .uint n.toUInt64
  | uint16 n => .uint n.toUInt64
  | uint32 n => .uint n.toUInt64
  | uint64 n | uintWord n => .uint n

end Integer

namespace Value

def ofSinglePattern (pattern : UInt32) : Value := .float (.ofSinglePattern pattern)

def ofChar (c : Char) : Value := .text (String.singleton c)

/-- A missing value is null. -/
def ofOption : Option Value → Value := (·.getD .null)

end Value

end LiveTables
