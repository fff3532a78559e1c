import Sceptre.Interpreter.Model

namespace Sceptre

open Foundation

/-- A numpy array as the program sees it: the bytes it was converted from and its number of elements. -/
structure NdArray where
  raw : Bytes
  size : Nat
  deriving DecidableEq, Repr

/-- `np.frombuffer(raw, dtype=name)`; `np.dtype(None)` is float64. -/
def frombuffer [Platform] (raw : Bytes) (name : Option String) : Except Exn (NdArray × DType) :=
  match name.elim (some ⟨'f', 8⟩) Platform.dtype with
  | none => .error (.typeError "data type not understood")
  | some dt =>
    if dt.itemsize = 0 then .error (.valueError "itemsize cannot be zero in type")
    else if raw.length % dt.itemsize ≠ 0 then
      .error (.valueError "buffer size must be a multiple of element size")
    else .ok (⟨raw, raw.length / dt.itemsize⟩, dt)

/-- `.astype(np.float32)`: only a numeric kind converts. -/
def astypeFloat32 (arr : NdArray × DType) : Except Exn NdArray :=
  if arr.2.numeric then .ok arr.1 else .error (.valueError "could not convert to float32")

def viewComplex64 (arr : NdArray) : Except Exn NdArray :=
  if arr.size % 2 ≠ 0 then .error (.valueError "size must be a multiple of the new itemsize")
  else .ok { arr with size := arr.size / 2 }

structure EmitUnit where
  samples : NdArray
  context : Option Context
  startTimestamp : Option ℚ
  numSamples : Int
  streamId : StreamId
  componentDtype : Option String
  isComplex : Option Bool
  bytesPerSample : Option Int
  deriving DecidableEq, Repr

/-- The emit callback: what its calls were given so far, and which calls raise. -/
structure Consumer where
  sent : List EmitUnit
  raises : Nat → Option Exn

def Consumer.quiet : Consumer := ⟨[], fun _ => none⟩

def Consumer.emit (k : Consumer) (unit : EmitUnit) : Except Exn Unit × Consumer :=
  ((k.raises k.sent.length).elim (.ok ()) .error, { k with sent := k.sent ++ [unit] })

def defaultFlushFields : List ContextKey := [.rfHz, .sampleRateHz, .componentDtype, .isComplex]

structure IngestBuffer where
  maxSamples : Int
  maxAgeS : ℚ
  streamId : StreamId
  flushFields : List ContextKey
  chunks : List Bytes := []
  numSamples : Int := 0
  componentDtype : Option String := none
  bytesPerSample : Option Int := none
  isComplex : Option Bool := none
  startTimestamp : Option ℚ := none
  firstArrival : Option ℚ := none
  currentContext : Option Context := none
  inert : Bool := false
  dropped : Nat := 0

namespace IngestBuffer

variable [Platform]

abbrev Action (α : Type) := Method Exn (IngestBuffer × Consumer) α

def modify (f : IngestBuffer → IngestBuffer) : Action Unit := Method.update fun s => (f s.1, s.2)

def convert (b : IngestBuffer) : Except Exn NdArray := do
  let raw ← frombuffer b.chunks.flatten b.componentDtype
  let arr ← astypeFloat32 raw
  if b.isComplex = some true then viewComplex64 arr else return arr

def unit (b : IngestBuffer) (samples : NdArray) : EmitUnit where
  samples := samples
  context := b.currentContext
  startTimestamp := b.startTimestamp
  numSamples := b.numSamples
  streamId := b.streamId
  componentDtype := b.componentDtype
  isComplex := b.isComplex
  bytesPerSample := b.bytesPerSample

def reset (b : IngestBuffer) : IngestBuffer :=
  { b with
    chunks := []
    numSamples := 0
    componentDtype := none
    bytesPerSample := none
    isComplex := none
    startTimestamp := none
    firstArrival := none }

/-- The state is reset before the emit call, so a raise there does not keep the window. -/
def flush : Action Unit := fun (b, k) =>
  if b.chunks = [] then (.ok (), b, k)
  else match b.convert with
    | .error e => (.error e, b, k)
    | .ok samples =>
      let emitted := k.emit (b.unit samples)
      (emitted.1, b.reset, emitted.2)

def differs (b : IngestBuffer) (newCtx : Context) : Bool :=
  match b.currentContext with
  | none => true
  | some old => b.flushFields.any fun f => old.get f ≠ newCtx.get f

def adopt (ctx : Context) (b : IngestBuffer) : IngestBuffer :=
  { b with
    currentContext := some ctx
    inert := decide (ctx.supported = some false ∨ ctx.componentDtype.join = none) }

def pushContext : Option Context → Action Unit
  | none => pure ()
  | some ctx => do
    let s ← Method.read
    Method.when (s.1.chunks ≠ [] ∧ s.1.differs ctx) flush
    modify (adopt ctx)

def drop (b : IngestBuffer) : IngestBuffer := { b with dropped := b.dropped + 1 }

def latch (b : IngestBuffer) (dtype : String) (isComplex : Bool) (bps : Int) : Option IngestBuffer :=
  match Platform.dtype dtype with
  | none => none
  | some dt =>
    if dt.numeric ∧ ((dt.itemsize * (if isComplex then 2 else 1) : Nat) : Int) = bps then
      some { b with
        componentDtype := some dtype
        isComplex := some isComplex
        bytesPerSample := some bps }
    else none

def openWindow (b : IngestBuffer) (md : Metadata) (dtype : String) (bps : Int) (now : ℚ) : Option IngestBuffer :=
  if b.chunks = [] then
    (b.latch dtype (md.isComplex.getD false) bps).map fun b =>
      { b with startTimestamp := md.timestamp, firstArrival := some now }
  else some b

def appendChunk (data : Bytes) (bps : Int) (b : IngestBuffer) : IngestBuffer :=
  { b with
    chunks := b.chunks ++ [data]
    numSamples := b.numSamples + Int.fdiv data.length bps }

/-- The part of `_push_data` after the early flushes: open or extend the window, then the size trigger. -/
def append (md : Metadata) (data : Bytes) (dtype : String) (bps : Int) (now : ℚ) : Action Unit := do
  let s ← Method.read
  match s.1.openWindow md dtype bps now with
  | none => modify drop
  | some opened =>
    modify fun _ => opened.appendChunk data bps
    Method.when ((opened.appendChunk data bps).numSamples ≥ opened.maxSamples) flush

/-- The window was latched with another sample interpretation than `dtype`, `isComplex` and `bps`. -/
def mixes (b : IngestBuffer) (dtype : String) (isComplex : Bool) (bps : Int) : Prop :=
  some dtype ≠ b.componentDtype ∨ some isComplex ≠ b.isComplex ∨ some bps ≠ b.bytesPerSample

instance (b : IngestBuffer) (dtype : String) (isComplex : Bool) (bps : Int) :
    Decidable (b.mixes dtype isComplex bps) := inferInstanceAs (Decidable (_ ∨ _ ∨ _))

def pushData (md : Metadata) (data : Bytes) (now : ℚ) : Action Unit := do
  let s ← Method.read
  if s.1.currentContext = none ∨ s.1.inert then modify drop
  else match md.dtype, md.bytesPerSample with
    | some dtype, some bps =>
      if bps = 0 ∨ Int.fmod data.length bps ≠ 0 then modify drop
      else do
        Method.when (s.1.chunks ≠ [] ∧ md.gapBefore) flush
        let s ← Method.read
        Method.when (s.1.chunks ≠ [] ∧ s.1.mixes dtype (md.isComplex.getD false) bps) flush
        Method.when (data ≠ []) (append md data dtype bps now)
    | _, _ => modify drop

def push : Record → ℚ → Action Unit
  | .context _ ctx, _ => pushContext ctx
  | .data md data, now => pushData md data now

def maybeFlushOnAge (now : ℚ) : Action Unit := do
  let s ← Method.read
  Method.when (s.1.chunks ≠ [] ∧ s.1.firstArrival.any fun first => now - first ≥ s.1.maxAgeS) flush

end IngestBuffer

end Sceptre
