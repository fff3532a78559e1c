import Mathlib.Data.List.Sort
import Sceptre.Buffer.Model
import Sceptre.Foundation.Rounding

namespace Sceptre

open Foundation

structure TimedWindow where
  ts : ℚ
  rate : ℚ
  n : Int
  deriving DecidableEq, Repr

/-- The order of the tuples, the one `heapq` pops by. -/
def TimedWindow.Precedes (a b : TimedWindow) : Prop :=
  a.ts < b.ts ∨ (a.ts = b.ts ∧ (a.rate < b.rate ∨ (a.rate = b.rate ∧ a.n ≤ b.n)))

instance : DecidableRel TimedWindow.Precedes := fun _ _ => inferInstanceAs (Decidable (_ ∨ _))

def reorderWindow : Nat := 64

/-- `_StreamStat`. `pending` is the heap in the order it pops; `lastEnd` and `curRate` are set together. -/
structure StreamStat where
  totalSamples : Int := 0
  delivered : Int := 0
  expected : ℚ := 0
  lastEnd : Option ℚ := none
  curRate : Option ℚ := none
  pending : List TimedWindow := []
  rate : Option ℚ := none
  bandwidth : Option ℚ := none
  rateChanged : Bool := false
  deriving DecidableEq, Repr

namespace StreamStat

def gapLoss (s : StreamStat) (ts : ℚ) : ℚ :=
  match s.lastEnd with
  | none => 0
  | some lastEnd => if ts - lastEnd > 0 then s.curRate.getD 0 * (ts - lastEnd) else 0

def commit (s : StreamStat) (w : TimedWindow) : StreamStat :=
  let stop := w.ts + w.n / w.rate
  let s := { s with expected := s.expected + s.gapLoss w.ts + w.n, delivered := s.delivered + w.n }
  if s.lastEnd.all fun lastEnd => stop > lastEnd then { s with lastEnd := some stop, curRate := some w.rate } else s

def add (s : StreamStat) (w : TimedWindow) : StreamStat :=
  match s.pending.orderedInsert TimedWindow.Precedes w with
  | [] => s
  | oldest :: rest =>
    if (oldest :: rest).length > reorderWindow then { s with pending := rest }.commit oldest
    else { s with pending := oldest :: rest }

def drain : List TimedWindow → StreamStat → StreamStat
  | [], s => { s with pending := [] }
  | oldest :: rest, s => drain rest ({ s with pending := rest }.commit oldest)

def finalize (s : StreamStat) : StreamStat := drain s.pending s

end StreamStat

/-- What the meter reads of a unit, each with `.get`: an absent entry reads as None. -/
structure Tallied where
  numSamples : Option Int
  bytesPerSample : Option Int
  context : Option Context
  startTimestamp : Option ℚ
  streamId : StreamId
  deriving DecidableEq, Repr

def EmitUnit.tallied (u : EmitUnit) : Tallied where
  numSamples := some u.numSamples
  bytesPerSample := u.bytesPerSample
  context := u.context
  startTimestamp := u.startTimestamp
  streamId := u.streamId

def StreamStat.tally (s : StreamStat) (u : Tallied) : StreamStat :=
  let numSamples := u.numSamples.getD 0
  let s := { s with totalSamples := s.totalSamples + numSamples }
  match u.context.bind Context.sampleRateHz with
  | none => s
  | some rate =>
    let s := { s with
      rateChanged := s.rateChanged || s.rate.any fun earlier => rate ≠ earlier
      rate := some rate
      bandwidth := (u.context.bind Context.bandwidthHz).or s.bandwidth }
    match u.startTimestamp with
    | none => s
    | some ts => if rate > 0 ∧ numSamples > 0 then s.add ⟨ts, rate, numSamples⟩ else s

structure ThroughputMeter where
  totalSamples : Int
  totalBytes : Int
  unitCount : Nat
  streams : OrderedDict StreamId StreamStat

namespace ThroughputMeter

def new : ThroughputMeter := ⟨0, 0, 0, .empty⟩

/-- `__call__`, up to the call of the wrapped consumer. -/
def call (m : ThroughputMeter) (u : Tallied) : ThroughputMeter where
  totalSamples := m.totalSamples + u.numSamples.getD 0
  totalBytes := m.totalBytes + u.numSamples.getD 0 * u.bytesPerSample.getD 0
  unitCount := m.unitCount + 1
  streams := m.streams.insert u.streamId (((m.streams.get? u.streamId).getD {}).tally u)

/-- The meter as the emit callback of a run: it was called with the units sent. -/
def metered (k : Consumer) : ThroughputMeter := (k.sent.map EmitUnit.tallied).foldl call new

inductive Verdict where
  | ok
  | partialLoss
  | severeLoss
  deriving DecidableEq, Repr

def verdict (pct : ℚ) : Verdict :=
  if pct ≥ 90 then .ok else if pct ≥ 50 then .partialLoss else .severeLoss

/-- `round(q, 1)`: of the double that `q` is, to the nearest tenth. -/
def roundTenth (q : ℚ) : ℚ := nearestEven (10 * binary64 q) / 10

inductive CaptureReport where
  | rateUnknown
  | windowTooShort
  | steady (deliveredRate rate pct : ℚ) (bandwidth : Option ℚ) (verdict : Verdict)
  | flagged (pct : ℚ) (measurable declared : Nat) (rateChanged : Bool) (notAssessable : Nat)
      (undeclared : Nat) (undeclaredSamples : Int) (verdict : Verdict)
  deriving DecidableEq, Repr

def finalizeAll (m : ThroughputMeter) : ThroughputMeter :=
  { m with streams := m.streams.map fun _ stat => stat.finalize }

def declared (m : ThroughputMeter) : List (StreamId × StreamStat) :=
  m.streams.entries.filter fun e => e.2.rate ≠ none

def measurable (m : ThroughputMeter) : List (StreamId × StreamStat) :=
  m.declared.filter fun e => e.2.expected > 0

def undeclared (m : ThroughputMeter) : List (StreamId × StreamStat) :=
  m.streams.entries.filter fun e => e.2.rate = none

def efficiency (stat : StreamStat) : ℚ := 100 * stat.delivered / stat.expected

/-- `min(per_stream, key=per_stream.get)`: the first stream with the least percentage. -/
def worst : List (StreamId × StreamStat) → Option (StreamId × StreamStat)
  | [] => none
  | e :: rest =>
    match worst rest with
    | none => some e
    | some later => if efficiency later.2 < efficiency e.2 then some later else some e

def report (m : ThroughputMeter) : CaptureReport :=
  if m.declared = [] then .rateUnknown
  else match worst m.measurable with
    | none => .windowTooShort
    | some (_, stat) =>
      let notAssessable := m.declared.length - m.measurable.length
      let pct := roundTenth (efficiency stat)
      let retuned := m.declared.any fun e => e.2.rateChanged
      if m.declared.length = 1 ∧ notAssessable = 0 ∧ m.undeclared = [] ∧ ¬ retuned then
        .steady (pct / 100 * stat.rate.getD 0) (stat.rate.getD 0) pct stat.bandwidth (verdict pct)
      else
        .flagged pct m.measurable.length m.declared.length retuned notAssessable m.undeclared.length
          (m.undeclared.map fun e => e.2.totalSamples).sum (verdict pct)

/-- `capture_summary`: no line when nothing was emitted; otherwise every stream is finalized first. -/
def captureSummary (m : ThroughputMeter) : Option CaptureReport × ThroughputMeter :=
  if m.totalSamples = 0 then (none, m) else (some (report m.finalizeAll), m.finalizeAll)

end ThroughputMeter

end Sceptre
