import Sceptre.Runtime.Sender
import Sceptre.Threads.Balance

namespace Sceptre

open Foundation

def Message.payload (s : StreamId) : Message → List Bytes
  | .block h samples _ _ => if h.streamId = s then samples else []
  | _ => []

section
variable [Platform] {settings : Settings} {size : StreamId → Nat} {m : Message} {messages heard : List Message}

/-- The message of a sender that keeps one sample size for each stream. -/
inductive Message.Steady (size : StreamId → Nat) : Message → Prop where
  | announce {h : Header} {fields : ContextFields} {rest : Bytes} (well : h.WellFormed)
      (kind : h.packetType = packetTypeIfContext) (valid : fields.Valid)
      (declared : h.headerLen + fields.encode.length ≤ 4 * h.packetSize)
      (sized : (fields.context Platform.fl).bytesPerSample.join = some (size h.streamId : Int)) :
      Steady size (.announce h fields rest)
  | block {h : Header} {samples : List Bytes} {pad trailer : Bytes} (well : h.WellFormed)
      (kind : h.packetType = packetTypeIfData) (full : ∀ sample ∈ samples, sample.length = size h.streamId)
      (short : pad.length < size h.streamId)
      (flagged : trailer.length = if h.hasTrailer then trailerSize else 0)
      (filled : h.headerLen + samples.flatten.length + pad.length + trailer.length = 4 * h.packetSize) :
      Steady size (.block h samples pad trailer)
  | noise {raw : Bytes} (foreign : ∀ hdr, parseHeader raw = .ok hdr →
      hdr.packetType ∉ [packetTypeIfData, packetTypeIfContext]) : Steady size (.noise raw)

def Settings.Of (size : StreamId → Nat) (settings : Settings) : Prop :=
  ∀ s bytes, settings.sampleSize s = some bytes → bytes = size s

theorem Message.Steady.legal (steady : m.Steady size) (known : settings.Of size) : m.Legal settings := by
  cases steady with
  | announce well kind valid declared sized => exact .announce well kind valid declared
  | @block h samples pad trailer well kind full short flagged filled =>
    apply Message.Legal.block well kind
    intro group sized
    have same : group = size h.streamId := Int.ofNat.inj (known _ _ sized)
    rw [same]
    exact ⟨full, short, flagged, filled⟩
  | noise foreign => exact .noise foreign

theorem Message.Steady.announced (steady : m.Steady size) (known : settings.Of size) :
    (m.announced settings).Of size := by
  cases steady with
  | @announce h fields rest well kind valid declared sized =>
    intro s bytes held
    rw [Settings.sampleSize, Message.announced, Function.update_apply] at held
    split at held
    · rename_i own
      rw [own]
      rw [Option.bind_some, sized] at held
      exact (Option.some.inj held).symm
    · exact known s bytes held
  | block => exact known
  | noise => exact known

theorem legal_of_steady (steady : ∀ m ∈ messages, m.Steady size) (known : settings.Of size) :
    Legal settings messages := by
  induction messages generalizing settings with
  | nil => trivial
  | cons m rest ih =>
    have first := steady m List.mem_cons_self
    exact ⟨first.legal known, ih (fun other member => steady other (List.mem_cons_of_mem _ member))
      (first.announced known)⟩

end

def carriedIn (content : Metadata × Bytes × Context) : List Sample :=
  readSamples (some content.2.2) content.1.bytesPerSample content.2.1

section
variable [Platform] {limits : Limits} {maxStreams maxsize : Int} {queue : BoundedRawQueue RawItem} {mode : Mode}
  {labels : List (Label × Clock)} {P : Program} {lanes : StreamId → Lane}

namespace Program

theorem Balanced.delivered (balanced : Balanced limits maxStreams queue mode labels P lanes) {heard : List Message}
    (said : handled (launch limits maxStreams queue mode) labels = heard.map Message.wire)
    (legal : Legal (fun _ => none) heard) {ids : List StreamId} (room : (ids.dedup.length : Int) ≤ maxStreams)
    (among : ∀ s ∈ heard.filterMap Message.announces?, s ∈ ids) :
    P.runtime.interpreter.errors + P.runtime.interpreter.dropped = unread (fun _ => none) heard ∧
      ∀ s, (unitsOf s P.runtime.consumer.sent).flatMap EmitUnit.convertedFrom ++
        (lanes s).packets.flatMap Packet.carried =
        sent s (fun _ => none) heard := by
  have messages : datagrams ((handled (launch limits maxStreams queue mode) labels).map fun raw => .datagram raw 0) =
      heard.map Message.wire := (datagrams_map _ 0).trans said
  obtain ⟨counted, all⟩ := (Informed.initial maxStreams ids).run messages legal room among
  constructor
  · rw [balanced.interpreter, ← datagrams_map (handled _ _) 0, counted]
    exact Nat.zero_add _
  · intro s
    have content : ∀ packets : List Packet, packets.flatMap Packet.carried =
      (packets.map Packet.content).flatMap carriedIn := by
      intro packets
      rw [List.flatMap_map]
      rfl
    rw [balanced.wired.emitted, (balanced.wired.sound s).carried s, content, balanced.received, contentsOf,
      ← content, all]

theorem Balanced.heard (balanced : Balanced limits maxStreams queue mode labels P lanes)
    (ran : runs Program.step (launch limits maxStreams queue mode) labels = some P)
    (created : BoundedRawQueue.new maxsize = .ok queue) {size : StreamId → Nat} {messages : List Message}
    (steady : ∀ m ∈ messages, m.Steady size)
    (room : ((messages.filterMap Message.announces?).dedup.length : Int) ≤ maxStreams)
    (put : datagramsPut (labels.map Prod.fst) = messages.map Message.wire) :
    ∃ heard, heard.Sublist messages ∧ handled (launch limits maxStreams queue mode) labels = heard.map Message.wire ∧
      P.runtime.interpreter.errors + P.runtime.interpreter.dropped = unread (fun _ => none) heard ∧
      ∀ s, (unitsOf s P.runtime.consumer.sent).flatMap EmitUnit.convertedFrom ++
        (lanes s).packets.flatMap Packet.carried =
        sent s (fun _ => none) heard := by
  have ordered := Program.taken_ordered created ran balanced.taken
  rw [put, List.append_assoc] at ordered
  obtain ⟨heard, lost, said⟩ := List.sublist_map_iff.mp ((List.sublist_append_left _ _).trans ordered)
  have known : Settings.Of size (fun _ => none) := by
    intro s bytes held
    cases held
  have legal := legal_of_steady (fun m member => steady m (lost.subset member)) known
  obtain ⟨counted, delivered⟩ := balanced.delivered said legal room (lost.filterMap Message.announces?).subset
  exact ⟨heard, lost, said, counted, delivered⟩

end Program

end

namespace Session

open Exact

end Session

end Sceptre
