import Sceptre.Foundation.OrderedDict
import Sceptre.Wire.Context
import Sceptre.Wire.Data

namespace Sceptre

open Foundation

structure Metadata where
  streamId : StreamId
  counter : Nat
  timestamp : Option ℚ
  packetSize : Nat
  dtype : Option String
  bytesPerSample : Option Int
  isComplex : Option Bool
  gapBefore : Bool
  deriving DecidableEq, Repr

/-- A typed record: a context record has no data, a data record no context. -/
inductive Record where
  | context (metadata : Metadata) (context : Option Context)
  | data (metadata : Metadata) (data : Bytes)
  deriving DecidableEq, Repr

def Record.metadata : Record → Metadata
  | .context metadata _ => metadata
  | .data metadata _ => metadata

structure Interpreter where
  maxStreams : Int
  errors : Nat
  dropped : Nat
  contexts : OrderedDict StreamId Context
  lastCounter : OrderedDict StreamId Nat

namespace Interpreter

variable [Platform]

def new (maxStreams : Int) : Interpreter := ⟨maxStreams, 0, 0, .empty, .empty⟩

def metadata (hdr : Header) (ctx : Context) (gapBefore : Bool) : Metadata where
  streamId := hdr.streamId
  counter := hdr.packetCounter
  timestamp := some hdr.timestamp
  packetSize := hdr.packetSize
  dtype := ctx.componentDtype.join
  bytesPerSample := ctx.bytesPerSample.join
  isComplex := ctx.isComplex
  gapBefore := gapBefore

def drop (i : Interpreter) : Interpreter := { i with dropped := i.dropped + 1 }

def processContext (raw : Bytes) (hdr : Header) : Method Exn Interpreter (Option Record) := fun i =>
  if hdr.streamId ∉ i.contexts.keys ∧ (i.contexts.size : Int) ≥ i.maxStreams then
    (.ok none, i.drop)
  else match decodeContext raw hdr with
    | .error e => (.error e, i)
    | .ok ctx =>
      (.ok (some (.context (metadata hdr ctx false) (some ctx))),
        { i with contexts := i.contexts.insert hdr.streamId ctx })

/-- `prev is not None and counter != (prev + 1) % 16`. -/
def gapAfter (prev : Option Nat) (counter : Nat) : Bool :=
  prev.any fun prev => counter ≠ (prev + 1) % 16

def processData (raw : Bytes) (hdr : Header) : Method Exn Interpreter (Option Record) := fun i =>
  match i.contexts.get? hdr.streamId with
  | none => (.ok none, i.drop)
  | some ctx =>
    if ctx.supported = some false then (.ok none, i.drop)
    else match ctx.bytesPerSample.join with
      | none => (.ok none, i.drop)
      | some bytesPerSample =>
        match trimData raw hdr bytesPerSample with
        | .error e => (.error e, i)
        | .ok (body, _) =>
          let gapBefore := gapAfter (i.lastCounter.get? hdr.streamId) hdr.packetCounter
          (.ok (some (.data (metadata hdr ctx gapBefore) body)),
            { i with lastCounter := i.lastCounter.insert hdr.streamId hdr.packetCounter })

/-- `_process`: may raise; what it changed before stays. -/
def processRaw (raw : Bytes) : Method Exn Interpreter (Option Record) := fun i =>
  match parseHeader raw with
  | .error e => (.error e, i)
  | .ok hdr =>
    if hdr.packetType ∉ [packetTypeIfData, packetTypeIfContext] then (.ok none, i.drop)
    else if hdr.packetType = packetTypeIfContext then processContext raw hdr i
    else processData raw hdr i

def process (raw : Bytes) : Method Exn Interpreter (Option Record) := fun i =>
  match processRaw raw i with
  | (.ok record, i') => (.ok record, i')
  | (.error _, i') => (.ok none, { i' with errors := i'.errors + 1 })

end Interpreter

end Sceptre
