import Mathlib.Data.List.Induction
import Mathlib.Data.List.Sort
import Mathlib.Tactic.Ring
import Sceptre.Wire.Header

namespace Sceptre

/-- The `size` bytes of an unsigned value, the most significant first (`struct` formats `I` and `Q`). -/
def packed : Nat → Nat → Bytes
  | 0, _ => []
  | size + 1, value => UInt8.ofNat (value / 256 ^ size % 256) :: packed size value

@[simp] theorem packed_length (size value : Nat) : (packed size value).length = size := by
  induction size with
  | zero => rfl
  | succ size ih => rw [packed, List.length_cons, ih]

theorem foldl_packed (size value before : Nat) :
    (packed size value).foldl (fun value byte => 256 * value + byte.toNat) before =
      256 ^ size * before + value % 256 ^ size := by
  induction size generalizing before with
  | zero => simp [packed, Nat.mod_one]
  | succ size ih =>
    have byte : (UInt8.ofNat (value / 256 ^ size % 256)).toNat = value / 256 ^ size % 256 := by simp
    have split : value % 256 ^ (size + 1) = value % 256 ^ size + 256 ^ size * (value / 256 ^ size % 256) := by
      rw [Nat.pow_succ, Nat.mod_mul]
    rw [packed, List.foldl_cons, ih, byte, split, Nat.pow_succ]
    ring

theorem fromBytes_packed {size value : Nat} (fits : value < 256 ^ size) : fromBytes (packed size value) = value := by
  rw [fromBytes, foldl_packed, Nat.mul_zero, Nat.zero_add, Nat.mod_eq_of_lt fits]

theorem packed_snoc (size value : Nat) :
    packed (size + 1) value = packed size (value / 256) ++ [UInt8.ofNat (value % 256)] := by
  induction size with
  | zero => simp [packed]
  | succ size ih =>
    have high : value / 256 / 256 ^ size = value / 256 ^ (size + 1) := by
      rw [Nat.div_div_eq_div_mul, Nat.pow_succ, Nat.mul_comm]
    rw [packed, ih, packed, high]
    rfl

theorem packed_fromBytes (b : Bytes) : packed b.length (fromBytes b) = b := by
  induction b using List.reverseRecOn with
  | nil => rfl
  | append_singleton front last ih =>
    have small : last.toNat < 256 := last.toNat_lt
    have value : fromBytes (front ++ [last]) = 256 * fromBytes front + last.toNat := by
      rw [fromBytes, fromBytes, List.foldl_append]
      rfl
    rw [List.length_append, List.length_singleton, packed_snoc, value]
    have high : (256 * fromBytes front + last.toNat) / 256 = fromBytes front := by omega
    have low : (256 * fromBytes front + last.toNat) % 256 = last.toNat := by omega
    rw [high, low, ih, UInt8.ofNat_toNat]

def packedSigned (size : Nat) (value : Int) : Bytes := packed size (value % 256 ^ size).toNat

structure HeaderFields where
  packetType : Nat
  totalWords : Nat
  streamId : Nat
  counter : Nat
  intTs : Nat
  fracTs : Nat
  classId : Option Bytes
  trailer : Bool
  tsi : Nat := 1
  tsf : Nat := 2

def buildHeader (f : HeaderFields) : Bytes :=
  let word0 :=
    ((f.packetType &&& 0xF) <<< 28)
      ||| (f.classId.isSome.toNat <<< 27)
      ||| (f.trailer.toNat <<< 26)
      ||| ((f.tsi &&& 0x3) <<< 22)
      ||| ((f.tsf &&& 0x3) <<< 20)
      ||| ((f.counter &&& 0xF) <<< 16)
      ||| (f.totalWords &&& 0xFFFF)
  packed 4 word0 ++ packed 4 f.streamId
    ++ f.classId.getD []
    ++ (if f.tsi ≠ 0 then packed 4 f.intTs else [])
    ++ (if f.tsf ≠ 0 then packed 8 f.fracTs else [])

def headerLenFor (classId : Bool) (tsi tsf : Nat) : Nat :=
  8 + (if classId then 8 else 0) + (if tsi ≠ 0 then 4 else 0) + (if tsf ≠ 0 then 8 else 0)

def dataClassId : Bytes := [0x00, 0xff, 0xff, 0xfa, 0x00, 0x16, 0x00, 0x00]
def contextClassId : Bytes := [0x00, 0xff, 0xff, 0xfa, 0x20, 0x11, 0x00, 0x03]

structure PacketFields where
  streamId : Nat := 123
  counter : Nat := 0
  intTs : Nat := 1750000000
  fracTs : Nat := 0
  classId : Bool := true
  tsi : Nat := 1
  tsf : Nat := 2

def buildPacket (packetType : Nat) (classIdBytes : Bytes) (trailer : Bool) (f : PacketFields) (body : Bytes) : Bytes :=
  buildHeader {
    packetType := packetType
    totalWords := (headerLenFor f.classId f.tsi f.tsf + body.length) / 4
    streamId := f.streamId
    counter := f.counter
    intTs := f.intTs
    fracTs := f.fracTs
    classId := if f.classId then some classIdBytes else none
    trailer := trailer
    tsi := f.tsi
    tsf := f.tsf } ++ body

/-- `fields` maps a CIF bit to the bytes of its field; they are laid out in descending bit order. -/
def buildContextPacket (fields : List (Nat × Bytes)) (f : PacketFields) : Bytes :=
  let cif := fields.foldl (fun cif field => cif ||| (1 <<< field.1)) 0
  let body := packed 4 cif ++ (fields.insertionSort fun a b => a.1 ≥ b.1).flatMap Prod.snd
  buildPacket packetTypeIfContext contextClassId false f body

def buildDataPacket (payload : Bytes) (f : PacketFields) (trailer : Bool := true) (pad : Bytes := []) : Bytes :=
  buildPacket packetTypeIfData dataClassId trailer f
    (payload ++ pad ++ (if trailer then [0xAA, 0xAA, 0xAA, 0xAA] else []))

def encodePayloadFormatU64 (realComplexCode : Nat := 0b01) (dataItemFormat : Nat := 0b01110) (packingBits : Nat := 32)
    (itemBits : Nat := 32) (packingMethod : Nat := 0) (eventTag : Nat := 0) (channelTag : Nat := 0) : Nat :=
  ((packingMethod &&& 0b1) <<< 63)
    ||| ((realComplexCode &&& 0b11) <<< 61)
    ||| ((dataItemFormat &&& 0x1F) <<< 56)
    ||| ((eventTag &&& 0x7) <<< 52)
    ||| ((channelTag &&& 0xF) <<< 48)
    ||| (((packingBits - 1) &&& 0x3F) <<< 38)
    ||| (((itemBits - 1) &&& 0x3F) <<< 32)

def standardContextFields (bandwidthHz rfHz sampleRateHz : Int) (payloadFormatU64 : Nat) : List (Nat × Bytes) :=
  [(29, packedSigned 8 (bandwidthHz * 2 ^ 20)),
    (27, packedSigned 8 (rfHz * 2 ^ 20)),
    (21, packedSigned 8 (sampleRateHz * 2 ^ 20)),
    (15, packed 8 payloadFormatU64)]

namespace Exact

def dtypes : List (String × DType) :=
  [(">i1", ⟨'i', 1⟩), (">i2", ⟨'i', 2⟩), (">i4", ⟨'i', 4⟩), (">u1", ⟨'u', 1⟩), (">u2", ⟨'u', 2⟩), (">u4", ⟨'u', 4⟩),
    (">f4", ⟨'f', 4⟩), (">f8", ⟨'f', 8⟩)]

/-- The platform on values a float holds exactly. -/
scoped instance platform : Platform where
  fl := id
  dtype name := dtypes.lookup name
  wireNames := by
    have all : ∀ entry ∈ itemFormatDtypes,
        ((dtypes.lookup entry.2).any fun dt => dt.numeric && dt.itemsize == entry.1.2 / 8) = true := by
      decide +kernel
    intro entry member
    obtain ⟨dt, found, fits⟩ := (Option.any_eq_true _ _).mp (all entry member)
    rw [Bool.and_eq_true, beq_iff_eq] at fits
    exact ⟨dt, found, fits⟩

end Exact

end Sceptre
