import Sceptre.Buffer.Model

namespace Sceptre

open Foundation

structure BufferRouter where
  maxSamples : Int
  maxAgeS : ℚ
  flushFields : List ContextKey
  maxStreams : Int
  buffers : OrderedDict StreamId IngestBuffer
  dropped : Nat

namespace BufferRouter

variable [Platform]

abbrev Action (α : Type) := Method Exn (BufferRouter × Consumer) α

def new (maxSamples : Int) (maxAgeS : ℚ) (flushFields : List ContextKey) (maxStreams : Int) : BufferRouter :=
  ⟨maxSamples, maxAgeS, flushFields, maxStreams, .empty, 0⟩

def bufferFor (r : BufferRouter) (sid : StreamId) : IngestBuffer :=
  (r.buffers.get? sid).getD
    { maxSamples := r.maxSamples, maxAgeS := r.maxAgeS, streamId := sid, flushFields := r.flushFields }

def push (record : Record) (now : ℚ) : Action Unit := fun (r, k) =>
  let sid := record.metadata.streamId
  if sid ∉ r.buffers.keys ∧ (r.buffers.size : Int) ≥ r.maxStreams then
    (.ok (), { r with dropped := r.dropped + 1 }, k)
  else
    Method.within (fun s => (s.1.bufferFor sid, s.2))
      (fun t s => ({ s.1 with buffers := s.1.buffers.insert sid t.1 }, t.2))
      (IngestBuffer.push record now) (r, k)

def forBuffers (body : IngestBuffer.Action Unit) : Action Unit :=
  Method.within (fun s => (s.1.buffers, s.2)) (fun t s => ({ s.1 with buffers := t.1 }, t.2))
    (OrderedDict.forValues body)

/-- `readings` holds the clock reading each buffer's poll takes, by stream id. -/
def maybeFlushOnAge (readings : StreamId → ℚ) : Action Unit :=
  forBuffers fun s => IngestBuffer.maybeFlushOnAge (readings s.1.streamId) s

def flushAll : Action Unit := forBuffers IngestBuffer.flush

end BufferRouter

end Sceptre
