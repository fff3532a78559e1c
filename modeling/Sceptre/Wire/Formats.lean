import Mathlib.Algebra.Group.Int.Defs
import Mathlib.Algebra.Group.Nat.Defs
import Mathlib.Data.Rat.Defs

namespace Sceptre

abbrev Bytes := List UInt8

def fromBytes (b : Bytes) : Nat := b.foldl (fun value byte => 256 * value + byte.toNat) 0

/-- The two's complement reading of an unsigned value of `bits` bits (`struct` formats `q` and `h`). -/
def signed (bits value : Nat) : Int :=
  if value < 2 ^ (bits - 1) then value else (value : Int) - 2 ^ bits

def packetTypeIfData : Nat := 1
def packetTypeIfContext : Nat := 4

def w0PacketTypeShift : Nat := 28
def w0ClassIdBit : Nat := 27
def w0TrailerBit : Nat := 26
def w0TsiShift : Nat := 22
def w0TsfShift : Nat := 20
def w0CounterShift : Nat := 16
def w0PacketSizeMask : Nat := 0xFFFF

def packetTypesWithStreamId : List Nat := [1, 3, 4, 5]

def word0Size : Nat := 4
def streamIdSize : Nat := 4
def classIdSize : Nat := 8
def intTsSize : Nat := 4
def fracTsSize : Nat := 8
def trailerSize : Nat := 4

def headerLength (hasStreamId hasClassId : Bool) (tsi tsf : Nat) : Nat :=
  word0Size
    + (if hasStreamId then streamIdSize else 0)
    + (if hasClassId then classIdSize else 0)
    + (if tsi ≠ 0 then intTsSize else 0)
    + (if tsf ≠ 0 then fracTsSize else 0)

def contextFieldChangeBit : Nat := 31
def cifBandwidth : Nat := 29
def cifRfRefFreq : Nat := 27
def cifGain : Nat := 23
def cifSampleRate : Nat := 21
def cifDataPayloadFormat : Nat := 15
def cifFormattedGps : Nat := 14
def cifEcefEphemeris : Nat := 12

def fieldSizes : List (Nat × Nat) :=
  [(30, 4), (cifBandwidth, 8), (28, 8), (cifRfRefFreq, 8), (26, 8), (25, 8), (24, 4), (cifGain, 4),
    (22, 4), (cifSampleRate, 8), (20, 8), (19, 4), (18, 4), (17, 8), (16, 4),
    (cifDataPayloadFormat, 8), (cifFormattedGps, 44), (13, 44), (cifEcefEphemeris, 52), (11, 52), (10, 4)]

def fieldSize (bit : Nat) : Option Nat := fieldSizes.lookup bit

def itemFormatSignedFixed : Nat := 0b00000
def itemFormatUnsignedFixed : Nat := 0b10000
def itemFormatIeeeFloat32 : Nat := 0b01110
def itemFormatIeeeFloat64 : Nat := 0b01111

def itemFormatDtypes : List ((Nat × Nat) × String) :=
  [((itemFormatSignedFixed, 8), ">i1"),
    ((itemFormatSignedFixed, 16), ">i2"),
    ((itemFormatSignedFixed, 32), ">i4"),
    ((itemFormatUnsignedFixed, 8), ">u1"),
    ((itemFormatUnsignedFixed, 16), ">u2"),
    ((itemFormatUnsignedFixed, 32), ">u4"),
    ((itemFormatIeeeFloat32, 32), ">f4"),
    ((itemFormatIeeeFloat64, 64), ">f8")]

def rcTypeReal : Nat := 0b00
def rcTypeComplexCartesian : Nat := 0b01

def radixFreqHz : ℚ := 1048576
def radixGainDb : ℚ := 128

inductive Exn where
  | valueError (message : String)
  | zeroDivisionError
  | typeError (message : String)
  | consumer (call : Nat)
  deriving DecidableEq, Repr

structure DType where
  kind : Char
  itemsize : Nat
  deriving DecidableEq, Repr

def DType.numeric (dt : DType) : Bool := dt.kind ∈ ['i', 'u', 'f']

/-- What the program takes from outside its sources: how a float operation rounds its exact result,
    and what `np.dtype` finds for a name (`none` where it raises TypeError). numpy knows the eight
    component names of the wire formats. -/
class Platform where
  fl : ℚ → ℚ
  dtype : String → Option DType
  wireNames : ∀ entry ∈ itemFormatDtypes,
    ∃ dt, dtype entry.2 = some dt ∧ dt.numeric = true ∧ dt.itemsize = entry.1.2 / 8

end Sceptre
