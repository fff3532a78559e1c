import Sceptre.Wire.Header

namespace Sceptre

structure PayloadFormat where
  isComplex : Bool
  rcType : Nat
  dataItemFormat : Nat
  packingMethod : Nat
  itemBits : Nat
  itemPackingBits : Nat
  eventTag : Nat
  channelTag : Nat
  sampleComponentRepeat : Nat
  fractionSize : Nat
  repeatCount : Nat
  vectorSize : Nat
  componentDtype : Option String
  bytesPerSample : Option Int
  supported : Bool
  deriving DecidableEq, Repr

def decodePayloadFormat (u : Nat) : PayloadFormat :=
  let packingMethod := (u >>> 63) &&& 1
  let rcType := (u >>> 61) &&& 0b11
  let dataItemFormat := (u >>> 56) &&& 0x1F
  let sampleComponentRepeat := (u >>> 55) &&& 1
  let eventTag := (u >>> 52) &&& 0x7
  let channelTag := (u >>> 48) &&& 0xF
  let fractionSize := (u >>> 44) &&& 0xF
  let itemPackingBits := ((u >>> 38) &&& 0x3F) + 1
  let itemBits := ((u >>> 32) &&& 0x3F) + 1
  let repeatCount := (u >>> 16) &&& 0xFFFF
  let vectorSize := u &&& 0xFFFF
  let componentDtype := itemFormatDtypes.lookup (dataItemFormat, itemBits)
  let supported := decide (
    packingMethod = 0
    ∧ rcType ∈ [rcTypeReal, rcTypeComplexCartesian]
    ∧ componentDtype ≠ none
    ∧ itemPackingBits = itemBits
    ∧ eventTag = 0
    ∧ channelTag = 0
    ∧ sampleComponentRepeat = 0
    ∧ fractionSize = 0
    ∧ repeatCount = 0
    ∧ vectorSize = 0)
  let isComplex := decide (rcType = rcTypeComplexCartesian)
  { isComplex, rcType, dataItemFormat, packingMethod, itemBits, itemPackingBits, eventTag, channelTag,
    sampleComponentRepeat, fractionSize, repeatCount, vectorSize,
    componentDtype := if supported then componentDtype else none
    bytesPerSample := if supported then some ((if isComplex then 2 else 1) * (itemBits / 8 : Nat)) else none
    supported }

inductive ContextKey where
  | contextFieldChange | bandwidthHz | rfHz | gainDb | sampleRateHz
  | supported | componentDtype | bytesPerSample | isComplex | dataItemFormat
  deriving DecidableEq, Repr

inductive ContextValue where
  | flag (value : Bool)
  | number (value : ℚ)
  | text (value : String)
  deriving DecidableEq, Repr

/-- A context dict: `none` is an absent key; the two keys that can hold `None` nest a second option. -/
structure Context where
  contextFieldChange : Option Bool := none
  bandwidthHz : Option ℚ := none
  rfHz : Option ℚ := none
  gainDb : Option ℚ := none
  sampleRateHz : Option ℚ := none
  supported : Option Bool := none
  componentDtype : Option (Option String) := none
  bytesPerSample : Option (Option Int) := none
  isComplex : Option Bool := none
  dataItemFormat : Option Nat := none
  deriving DecidableEq, Repr

def Context.get (ctx : Context) : ContextKey → Option ContextValue
  | .contextFieldChange => ctx.contextFieldChange.map .flag
  | .bandwidthHz => ctx.bandwidthHz.map .number
  | .rfHz => ctx.rfHz.map .number
  | .gainDb => ctx.gainDb.map .number
  | .sampleRateHz => ctx.sampleRateHz.map .number
  | .supported => ctx.supported.map .flag
  | .componentDtype => ctx.componentDtype.join.map .text
  | .bytesPerSample => ctx.bytesPerSample.join.map fun n => .number n
  | .isComplex => ctx.isComplex.map .flag
  | .dataItemFormat => ctx.dataItemFormat.map fun n => .number n

def decodeField [Platform] (bit : Nat) (field : Bytes) (ctx : Context) : Context :=
  if bit = cifBandwidth then
    { ctx with bandwidthHz := some (Platform.fl (signed 64 (fromBytes field) / radixFreqHz)) }
  else if bit = cifRfRefFreq then
    { ctx with rfHz := some (Platform.fl (signed 64 (fromBytes field) / radixFreqHz)) }
  else if bit = cifGain then
    let stage2 := signed 16 (fromBytes (field.extract 0 2))
    let stage1 := signed 16 (fromBytes (field.extract 2 4))
    { ctx with gainDb := some (Platform.fl (Platform.fl (stage2 / radixGainDb) + Platform.fl (stage1 / radixGainDb))) }
  else if bit = cifSampleRate then
    { ctx with sampleRateHz := some (Platform.fl (signed 64 (fromBytes field) / radixFreqHz)) }
  else if bit = cifDataPayloadFormat then
    let fmt := decodePayloadFormat (fromBytes field)
    { ctx with
      supported := some fmt.supported
      componentDtype := some fmt.componentDtype
      bytesPerSample := some fmt.bytesPerSample
      isComplex := some fmt.isComplex
      dataItemFormat := some fmt.dataItemFormat }
  else ctx

def walkCif [Platform] (b : Bytes) (endLimit cif : Nat) : List Nat → Nat → Context → Except Exn Context
  | [], _, ctx => .ok ctx
  | bit :: bits, offset, ctx =>
    if (cif >>> bit) &&& 1 = 0 then walkCif b endLimit cif bits offset ctx
    else if bit = contextFieldChangeBit then
      walkCif b endLimit cif bits offset { ctx with contextFieldChange := some true }
    else match fieldSize bit with
      | none => .ok ctx
      | some size =>
        if offset + size > endLimit then
          .error (.valueError
            s!"context packet truncated inside CIF bit {bit} field ({endLimit - offset} of {size} bytes)")
        else
          walkCif b endLimit cif bits (offset + size) (decodeField bit (b.extract offset (offset + size)) ctx)

def decodeContext [Platform] (b : Bytes) (hdr : Header) : Except Exn Context :=
  let endLimit := min b.length (hdr.packetSize * 4)
  if endLimit < hdr.headerLen + 4 then
    .error (.valueError s!"context packet truncated before CIF: {endLimit} usable bytes")
  else
    let cif := fromBytes (b.extract hdr.headerLen (hdr.headerLen + 4))
    walkCif b endLimit cif (List.range 32).reverse (hdr.headerLen + 4) {}

end Sceptre
