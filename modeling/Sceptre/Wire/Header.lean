import Sceptre.Wire.Formats

namespace Sceptre

/-- `dict[int | None, ...]` keys: the stream id of a header, `none` where its packet type has none. -/
abbrev StreamId := Option Nat

instance : LawfulBEq StreamId := inferInstance

structure Header where
  packetType : Nat
  classId : Option Bytes
  hasTrailer : Bool
  tsi : Nat
  tsf : Nat
  packetCounter : Nat
  packetSize : Nat
  streamId : StreamId
  intTs : Option Nat
  fracPs : Option Nat
  headerLen : Nat
  deriving DecidableEq, Repr

/-- Seconds since the epoch; an absent field counts as 0. The picoseconds, up to 64 bits, are a float before they are
    divided. -/
def Header.timestamp [Platform] (hdr : Header) : ℚ :=
  Platform.fl (hdr.intTs.getD 0 + Platform.fl (Platform.fl (hdr.fracPs.getD 0) / 1000000000000))

/-- `if present: field = b[off : off + size]; off += size`, with the offset that follows. -/
def optionalField (b : Bytes) (present : Bool) (off size : Nat) : Option Bytes × Nat :=
  if present then (some (b.extract off (off + size)), off + size) else (none, off)

def parseHeader (b : Bytes) : Except Exn Header :=
  if b.length < word0Size then
    .error (.valueError s!"packet too short for VITA-49 word0: {b.length} < {word0Size} bytes")
  else
    let word0 := fromBytes (b.extract 0 word0Size)
    let packetType := (word0 >>> w0PacketTypeShift) &&& 0xF
    let hasClassId := (word0 >>> w0ClassIdBit) &&& 1 == 1
    let hasTrailer := (word0 >>> w0TrailerBit) &&& 1 == 1
    let tsi := (word0 >>> w0TsiShift) &&& 0x3
    let tsf := (word0 >>> w0TsfShift) &&& 0x3
    let hasStreamId := decide (packetType ∈ packetTypesWithStreamId)
    let expectedLen := headerLength hasStreamId hasClassId tsi tsf
    if b.length < expectedLen then
      .error (.valueError s!"packet too short for its word0 flags: {b.length} < {expectedLen} bytes")
    else
      let streamId := optionalField b hasStreamId word0Size streamIdSize
      let classId := optionalField b hasClassId streamId.2 classIdSize
      let intTs := optionalField b (tsi ≠ 0) classId.2 intTsSize
      let fracPs := optionalField b (tsf ≠ 0) intTs.2 fracTsSize
      .ok {
        packetType := packetType
        classId := classId.1
        hasTrailer := hasTrailer
        tsi := tsi
        tsf := tsf
        packetCounter := (word0 >>> w0CounterShift) &&& 0xF
        packetSize := word0 &&& w0PacketSizeMask
        streamId := streamId.1.map fromBytes
        intTs := intTs.1.map fromBytes
        fracPs := fracPs.1.map fromBytes
        headerLen := fracPs.2 }

theorem parseHeader_absent {b : Bytes} {hdr : Header} (parsed : parseHeader b = .ok hdr) :
    (hdr.tsi = 0 → hdr.intTs = none) ∧ (hdr.tsf = 0 → hdr.fracPs = none) := by
  unfold parseHeader at parsed
  split at parsed
  · cases parsed
  · dsimp only at parsed
    split at parsed
    · cases parsed
    · cases parsed
      constructor
      · intro absent
        dsimp only at absent ⊢
        rw [absent]
        rfl
      · intro absent
        dsimp only at absent ⊢
        rw [absent]
        rfl

end Sceptre
