import Sceptre.Interpreter.Slots
import Sceptre.Runtime.Isolation
import Sceptre.Wire.Encoding

namespace Sceptre

open Foundation

section Sender

variable [Platform]

/-- What a sender emits on stream `s` under one context: packet `k` carries `samples k` samples at sample
    time `time k`, and the packets abut in sample time. -/
structure Transmission (s : StreamId) where
  context : Context
  name : String
  complex : Bool
  group : Nat
  usable : context.Usable name complex group
  rate : ℚ
  positive : 0 < rate
  declared : context.sampleRateHz = some rate
  samples : Nat → Nat
  carries : ∀ k, 1 ≤ samples k
  time : Nat → ℚ
  time_succ : ∀ k, time (k + 1) = time k + samples k / rate
  firstCounter : Nat

namespace Transmission

variable {s : StreamId} (t : Transmission s)

def IsPacket (k : Nat) (raw : Bytes) : Prop :=
  ∃ hdr body, parseHeader raw = .ok hdr ∧ hdr.packetType = packetTypeIfData ∧ hdr.streamId = s ∧
    hdr.packetCounter = (t.firstCounter + k) % 16 ∧ hdr.timestamp = t.time k ∧
    trimData raw hdr t.group = .ok (body, t.samples k)

def IsHeartbeat (raw : Bytes) : Prop :=
  ∃ hdr, parseHeader raw = .ok hdr ∧ hdr.packetType = packetTypeIfContext ∧ hdr.streamId = s ∧
    decodeContext raw hdr = .ok t.context

/-- The bytes are nothing of the stream: they do not concern it, or they are a data packet that is cut short
    or a context packet that does not decode. -/
def IsGarbage (raw : Bytes) : Prop :=
  concerns s raw = false ∨ ∃ hdr e, parseHeader raw = .ok hdr ∧ hdr.streamId = s ∧
    (hdr.packetType = packetTypeIfData ∧ trimData raw hdr t.group = .error e ∨
      hdr.packetType = packetTypeIfContext ∧ decodeContext raw hdr = .error e)

/-- The events deliver the packets `ks` in this order, between heartbeats, other streams' traffic, garbage,
    age polls and flushes. -/
inductive Delivers : List Nat → List Event → Prop where
  | nil : Delivers [] []
  | packet {k : Nat} {ks : List Nat} {raw : Bytes} {events : List Event} (arrival : ℚ)
      (packet : t.IsPacket k raw) (rest : Delivers ks events) :
      Delivers (k :: ks) (.datagram raw arrival :: events)
  | heartbeat {ks : List Nat} {raw : Bytes} {events : List Event} (arrival : ℚ)
      (heartbeat : t.IsHeartbeat raw) (rest : Delivers ks events) : Delivers ks (.datagram raw arrival :: events)
  | garbage {ks : List Nat} {raw : Bytes} {events : List Event} (arrival : ℚ)
      (garbage : t.IsGarbage raw) (rest : Delivers ks events) : Delivers ks (.datagram raw arrival :: events)
  | poll {ks : List Nat} {events : List Event} (readings : StreamId → ℚ) (rest : Delivers ks events) :
      Delivers ks (.poll readings :: events)
  | flushAll {ks : List Nat} {events : List Event} (rest : Delivers ks events) : Delivers ks (.flushAll :: events)

structure Carries (k : Nat) (p : Packet) : Prop where
  counter : p.counter = (t.firstCounter + k) % 16
  timestamp : p.metadata.timestamp = some (t.time k)
  samples : p.samples = t.samples k
  context : p.context = t.context
  solid : p.data ≠ []

variable {t}

theorem IsPacket.carried {k : Nat} {raw : Bytes} (packet : t.IsPacket k raw) (arrival : ℚ) {i : Interpreter}
    (inForce : i.contexts.get? s = some t.context) :
    ∃ p, ((Event.datagram raw arrival).input? s i).bind Lane.Input.packet? = some p ∧ t.Carries k p ∧
      (Interpreter.after raw i).contexts.get? s = some t.context := by
  obtain ⟨hdr, body, parsed, kind, rfl, counter, timestamp, trimmed⟩ := packet
  have supported : t.context.supported ≠ some false := by simp [t.usable.supported]
  have sized : t.context.bytesPerSample.join = some (t.group : Int) := by simp [t.usable.bytesPerSample]
  obtain ⟨out, state⟩ := Interpreter.after_trimmed (i := i) parsed kind inForce supported sized trimmed
  obtain ⟨-, whole, counted⟩ := trimData_ok t.usable.positive trimmed
  have some' := t.carries k
  have length : t.samples k = body.length / t.group := Int.natCast_inj.mp counted
  have taken : ((Event.datagram raw arrival).input? hdr.streamId i).bind Lane.Input.packet? =
      some ⟨Interpreter.metadata hdr t.context
        (Interpreter.gapAfter (i.lastCounter.get? hdr.streamId) hdr.packetCounter), body, arrival, t.context⟩ := by
    simp [Event.input?, out, Record.metadata, Interpreter.metadata, Record.input?, inForce, Lane.Input.packet?]
  refine ⟨_, taken, ?_, ?_⟩
  · refine ⟨counter, congrArg some timestamp, ?_, rfl, ?_⟩
    · show Int.fdiv body.length (t.context.bytesPerSample.join.getD 0) = t.samples k
      rw [sized, Option.getD_some, Int.fdiv_eq_ediv_of_nonneg _ (by omega), length, Int.natCast_ediv]
    · rintro rfl
      rw [length] at some'
      simp at some'
  · rw [state]
    exact inForce

theorem IsHeartbeat.kept {raw : Bytes} (heartbeat : t.IsHeartbeat raw) (arrival : ℚ) {i : Interpreter}
    (inForce : i.contexts.get? s = some t.context) :
    ((Event.datagram raw arrival).input? s i).bind Lane.Input.packet? = none ∧
      (Interpreter.after raw i).contexts.get? s = some t.context := by
  obtain ⟨hdr, parsed, kind, rfl, decoded⟩ := heartbeat
  obtain ⟨out, state⟩ := Interpreter.after_decoded (i := i) parsed kind decoded
    (.inl ((OrderedDict.mem_keys_iff ..).mpr ⟨_, inForce⟩))
  constructor
  · simp [Event.input?, out, Record.metadata, Interpreter.metadata, Record.input?, Lane.Input.packet?]
  · rw [state]
    exact OrderedDict.get?_insert_self ..

theorem IsGarbage.ignored {raw : Bytes} (garbage : t.IsGarbage raw) (arrival : ℚ) {i : Interpreter}
    (inForce : i.contexts.get? s = some t.context) :
    ((Event.datagram raw arrival).input? s i).bind Lane.Input.packet? = none ∧
      (Interpreter.after raw i).contexts.get? s = some t.context := by
  rcases garbage with foreign | ⟨hdr, e, parsed, rfl, ⟨data, failed⟩ | ⟨context, failed⟩⟩
  · have unseen : (Event.datagram raw arrival).view s = none := by
      simp only [Event.view, foreign, Bool.false_eq_true, if_false]
    obtain ⟨ignored, -, slot⟩ := unseen_outputs (i := i) unseen
    exact ⟨by rw [ignored, Option.bind_none], slot.context.trans inForce⟩
  · have supported : t.context.supported ≠ some false := by simp [t.usable.supported]
    have sized : t.context.bytesPerSample.join = some (t.group : Int) := by simp [t.usable.bytesPerSample]
    obtain ⟨out, state⟩ := Interpreter.after_untrimmed (i := i) parsed data inForce supported sized failed
    refine ⟨by simp [Event.input?, out], ?_⟩
    rw [state]
    exact inForce
  · obtain ⟨out, slot⟩ := Interpreter.after_undecoded (s := hdr.streamId) (i := i) parsed context failed
    exact ⟨by simp [Event.input?, out], slot.context.trans inForce⟩

theorem Delivers.received {ks : List Nat} {events : List Event} (delivers : t.Delivers ks events)
    {i : Interpreter} (inForce : i.contexts.get? s = some t.context) :
    List.Forall₂ t.Carries ks (packetsOf s i events) := by
  induction delivers generalizing i with
  | nil => exact .nil
  | packet arrival packet rest ih =>
    obtain ⟨p, taken, carries, after⟩ := packet.carried arrival inForce
    rw [packetsOf_cons, taken]
    exact .cons carries (ih after)
  | heartbeat arrival heartbeat rest ih =>
    obtain ⟨taken, after⟩ := heartbeat.kept arrival inForce
    rw [packetsOf_cons, taken]
    exact ih after
  | garbage arrival garbage rest ih =>
    obtain ⟨ignored, after⟩ := garbage.ignored arrival inForce
    rw [packetsOf_cons, ignored]
    exact ih after
  | poll readings rest ih => exact ih inForce
  | flushAll rest ih => exact ih inForce

end Transmission

end Sender

namespace Exact

def contextPacket : Bytes :=
  buildContextPacket (standardContextFields 2 97 4 (encodePayloadFormatU64 0b00 0b00000 16 16)) {}

def declared : Context where
  bandwidthHz := some 2
  rfHz := some 97
  sampleRateHz := some 4
  supported := some true
  componentDtype := some (some ">i2")
  bytesPerSample := some (some 2)
  isComplex := some false
  dataItemFormat := some 0

def contextHeader : Header where
  packetType := packetTypeIfContext
  classId := some contextClassId
  hasTrailer := false
  tsi := 1
  tsf := 2
  packetCounter := 0
  packetSize := 16
  streamId := some 123
  intTs := some 1750000000
  fracPs := some 0
  headerLen := 28

def payload : Bytes := [1, 2, 3, 4, 5, 6, 7, 8]

def dataPacket (k : Nat) : Bytes :=
  buildDataPacket payload { counter := k, intTs := 1750000000 + k }

def dataHeader (k : Nat) : Header where
  packetType := packetTypeIfData
  classId := some dataClassId
  hasTrailer := true
  tsi := 1
  tsf := 2
  packetCounter := k % 16
  packetSize := 10
  streamId := some 123
  intTs := some (1750000000 + k)
  fracPs := some 0
  headerLen := 28

def secondly : Transmission (some 123) where
  context := declared
  name := ">i2"
  complex := false
  group := 2
  usable := ⟨rfl, rfl, rfl, rfl, ⟨'i', 2⟩, by decide +kernel⟩
  rate := 4
  positive := by decide
  declared := rfl
  samples _ := 4
  carries _ := by decide
  time k := 1750000000 + k
  time_succ k := by push_cast; norm_num; ring
  firstCounter := 0

theorem contextHeader_parsed : parseHeader contextPacket = .ok contextHeader := by decide +kernel

theorem declared_decoded : decodeContext contextPacket contextHeader = .ok declared := by decide +kernel

theorem isHeartbeat : secondly.IsHeartbeat contextPacket :=
  ⟨contextHeader, contextHeader_parsed, rfl, rfl, declared_decoded⟩

theorem isPacket {k : Nat} (member : k ∈ [0, 1, 4]) : secondly.IsPacket k (dataPacket k) := by
  have parsed : ∀ k ∈ [0, 1, 4], parseHeader (dataPacket k) = .ok (dataHeader k) := by decide +kernel
  have trimmed : ∀ k ∈ [0, 1, 4], trimData (dataPacket k) (dataHeader k) 2 = .ok (payload, 4) := by decide +kernel
  have timed : ∀ k ∈ [0, 1, 4], (dataHeader k).timestamp = secondly.time k := by decide +kernel
  exact ⟨dataHeader k, payload, parsed k member, rfl, rfl, by simp [dataHeader, secondly], timed k member,
    trimmed k member⟩

end Exact
end Sceptre
