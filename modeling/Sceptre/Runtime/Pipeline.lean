import Sceptre.Buffer.Router

namespace Sceptre

open Foundation

/-- The objects Thread B works on; `sourceStopped` is whether `source.stop()` has been called. -/
structure Runtime where
  interpreter : Interpreter
  router : BufferRouter
  consumer : Consumer
  sourceStopped : Bool := false

inductive Dequeued where
  | shutdown
  | timeout
  | item (raw : Bytes)
  deriving DecidableEq

/-- One iteration of the loop, with the clock readings it takes: at the first chunk of a window, and
    at the age poll of each stream's buffer. -/
structure Tick where
  got : Dequeued
  arrival : ℚ
  readings : StreamId → ℚ

inductive Event where
  | datagram (raw : Bytes) (arrival : ℚ)
  | poll (readings : StreamId → ℚ)
  | flushAll

namespace Runtime

variable [Platform]

abbrev Action (α : Type) := Method Exn Runtime α

def process (raw : Bytes) : Action (Option Record) :=
  Method.within Runtime.interpreter (fun i s => { s with interpreter := i }) (Interpreter.process raw)

def routing (body : BufferRouter.Action Unit) : Action Unit :=
  Method.within (fun s => (s.router, s.consumer)) (fun t s => { s with router := t.1, consumer := t.2 }) body

def push (record : Option Record) (now : ℚ) : Action Unit :=
  match record with
  | none => pure ()
  | some record => routing (BufferRouter.push record now)

def maybeFlushOnAge (readings : StreamId → ℚ) : Action Unit := routing (BufferRouter.maybeFlushOnAge readings)

def flushAll : Action Unit := routing BufferRouter.flushAll

def handle : Event → Action Unit
  | .datagram raw arrival => do
    let record ← process raw
    push record arrival
  | .poll readings => maybeFlushOnAge readings
  | .flushAll => flushAll

def drive : List Event → Action Unit
  | [] => pure ()
  | event :: rest => do
    handle event
    drive rest

end Runtime

namespace Pipeline

variable [Platform]

open Sceptre.Runtime

/-- One iteration of the loop of `run`; false is the `break`. -/
def iterate (tick : Tick) : Action Bool :=
  match tick.got with
  | .shutdown => return false
  | .timeout => do
    maybeFlushOnAge tick.readings
    return true
  | .item raw => do
    let record ← Method.attempt (process raw)
    match record with
    | .error _ => do
      Method.update fun s => { s with interpreter := { s.interpreter with errors := s.interpreter.errors + 1 } }
      return true
    | .ok record => do
      push record tick.arrival
      maybeFlushOnAge tick.readings
      return true

def loop : List Tick → Action Unit
  | [] => pure ()
  | tick :: rest => do
    let more ← iterate tick
    if more then loop rest else pure ()

def stopSource : Action Unit := Method.update fun s => { s with sourceStopped := true }

def run (ticks : List Tick) : Action Unit :=
  Method.ensure (loop ticks) (Method.ensure flushAll stopSource)

end Pipeline

/-- The part of `_build_runtime` Thread B uses: one bound and the default flush fields for both. -/
def buildRuntime (maxStreams maxSamples : Int) (maxAgeS : ℚ) (emit : Consumer) : Runtime where
  interpreter := Interpreter.new maxStreams
  router := BufferRouter.new maxSamples maxAgeS defaultFlushFields maxStreams
  consumer := emit

end Sceptre
