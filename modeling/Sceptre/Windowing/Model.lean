import Mathlib.Algebra.Ring.Int.Defs
import Sceptre.Buffer.Model
import Sceptre.Foundation.Segments
import Sceptre.Wire.Classification

namespace Sceptre

open Foundation

/-- A data record of one stream, with the clock reading at its arrival and the context then in force. -/
structure Packet where
  metadata : Metadata
  data : Bytes
  arrival : ℚ
  context : Context

structure Window where
  label : Option Context
  packets : List Packet

/-- What one stream's buffering is for: cut the stream's packets into windows. `received` and `closed`
    are the packets and the windows so far, `packets` the open window. -/
structure Lane where
  context : Option Context
  last : Option Nat
  packets : List Packet
  closed : List Window
  received : List Packet

structure Limits where
  maxSamples : Int
  maxAgeS : ℚ

namespace Packet

def counter (p : Packet) : Nat := p.metadata.counter

def samples (p : Packet) : Int := Int.fdiv p.data.length (p.metadata.bytesPerSample.getD 0)

def Stray (p : Packet) : Prop := p.data = []

def Follows (p q : Packet) : Prop := q.counter = (p.counter + 1) % 16

structure Reads (p : Packet) (name : String) (complex : Bool) (group : Nat) : Prop where
  dtype : p.metadata.dtype = some name
  isComplex : p.metadata.isComplex = some complex
  bytesPerSample : p.metadata.bytesPerSample = some (group : Int)
  whole : group ∣ p.data.length

end Packet

def SameIdentity (c d : Context) : Prop := ∀ key ∈ defaultFlushFields, c.get key = d.get key

instance (c d : Context) : Decidable (SameIdentity c d) :=
  inferInstanceAs (Decidable (∀ key ∈ defaultFlushFields, c.get key = d.get key))

def windowSamples (packets : List Packet) : Int := (packets.map Packet.samples).sum

def joined (packets : List Packet) : Bytes := packets.flatMap Packet.data

namespace Window

def render (s : StreamId) (w : Window) : EmitUnit where
  samples := ⟨joined w.packets, (windowSamples w.packets).toNat⟩
  context := w.label
  startTimestamp := (w.packets.head?.bind fun p => p.metadata.timestamp)
  numSamples := windowSamples w.packets
  streamId := s
  componentDtype := w.packets.head?.bind fun p => p.metadata.dtype
  isComplex := w.packets.head?.bind fun p => p.metadata.isComplex
  bytesPerSample := w.packets.head?.bind fun p => p.metadata.bytesPerSample

end Window

namespace Lane

def initial : Lane := ⟨none, none, [], [], []⟩

def close (l : Lane) : Lane :=
  if l.packets = [] then l
  else { l with packets := [], closed := l.closed ++ [⟨l.context, l.packets⟩] }

def closeIf (condition : Prop) [Decidable condition] (l : Lane) : Lane := if condition then l.close else l

def adopt (ctx : Context) (l : Lane) : Lane :=
  { l.closeIf (l.context.any fun old => ¬ SameIdentity old ctx) with context := some ctx }

def join (p : Packet) (l : Lane) : Lane :=
  if p.data = [] ∧ l.packets = [] then l else { l with packets := l.packets ++ [p] }

def record (p : Packet) (l : Lane) : Lane :=
  { l.join p with last := some p.counter, received := l.received ++ [p] }

/-- A counter that is not the successor of the stream's last one closes the window before the packet,
    a full window closes after it. -/
def packet (limits : Limits) (p : Packet) (l : Lane) : Lane :=
  let recorded := (l.closeIf (Interpreter.gapAfter l.last p.counter)).record p
  recorded.closeIf (p.data ≠ [] ∧ windowSamples recorded.packets ≥ limits.maxSamples)

def poll (limits : Limits) (now : ℚ) (l : Lane) : Lane :=
  l.closeIf (l.packets.head?.any fun p => now - p.arrival ≥ limits.maxAgeS)

inductive Input where
  | adopt (ctx : Context)
  | packet (p : Packet)
  | poll (now : ℚ)
  | flush

def step (limits : Limits) (l : Lane) : Input → Lane
  | .adopt ctx => l.adopt ctx
  | .packet p => l.packet limits p
  | .poll now => l.poll limits now
  | .flush => l.close

end Lane

end Sceptre
