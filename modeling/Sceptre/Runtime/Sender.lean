import Sceptre.Foundation.Groups
import Sceptre.Interpreter.Datagram
import Sceptre.Runtime.Conservation
import Sceptre.Wire.ContextLayout

namespace Sceptre

open Foundation

/-- A sample as it is meant: the values of the flush fields it was taken under, and its bytes. -/
structure Sample where
  identity : List (Option ContextValue)
  bytes : Bytes
  deriving DecidableEq, Repr

def Context.identity (c : Context) : List (Option ContextValue) := defaultFlushFields.map c.get

def readSamples (c : Option Context) (bytesPerSample : Option Int) (data : Bytes) : List Sample :=
  (groups (bytesPerSample.getD 0).toNat data).map (Sample.mk (c.elim [] Context.identity))

/-- The samples on the wire that a unit's array was converted from, told apart by the unit's own labels. The array
    holds them as float32 numbers, to which `flush` rounds what is wider. -/
def EmitUnit.convertedFrom (u : EmitUnit) : List Sample := readSamples u.context u.bytesPerSample u.samples.raw

def Packet.carried (p : Packet) : List Sample := readSamples (some p.context) p.metadata.bytesPerSample p.data

/-- What stands on the wire: the settings of a stream, a block of its samples, or a datagram of neither kind. -/
inductive Message where
  | announce (h : Header) (fields : ContextFields) (rest : Bytes)
  | block (h : Header) (samples : List Bytes) (pad trailer : Bytes)
  | noise (raw : Bytes)

abbrev Settings := StreamId → Option Context

def Settings.sampleSize (settings : Settings) (s : StreamId) : Option Int :=
    (settings s).bind fun ctx => ctx.bytesPerSample.join

namespace Message

def wire : Message → Bytes
  | .announce h fields rest => h.encode ++ fields.encode ++ rest
  | .block h samples pad trailer => h.encode ++ samples.flatten ++ pad ++ trailer
  | .noise raw => raw

def announces? : Message → Option StreamId
  | .announce h _ _ => some h.streamId
  | _ => none

def announced [Platform] (settings : Settings) : Message → Settings
  | .announce h fields _ => Function.update settings h.streamId (some (fields.context Platform.fl))
  | _ => settings

def readable (settings : Settings) : Message → Bool
  | .announce _ _ _ => true
  | .block h _ _ _ => (settings.sampleSize h.streamId).isSome
  | .noise _ => false

def samples (s : StreamId) (settings : Settings) : Message → List Sample
  | .block h samples pad trailer =>
    if h.streamId = s ∧ readable settings (.block h samples pad trailer) then
      samples.map (Sample.mk ((settings s).elim [] Context.identity))
    else []
  | _ => []

/-- The message is built as its sender should: a context with its fields, whole samples of the announced size, padded
    to the declared words. -/
inductive Legal (settings : Settings) : Message → Prop where
  | announce {h : Header} {fields : ContextFields} {rest : Bytes} (well : h.WellFormed)
      (kind : h.packetType = packetTypeIfContext) (valid : fields.Valid)
      (declared : h.headerLen + fields.encode.length ≤ 4 * h.packetSize) : Legal settings (.announce h fields rest)
  | block {h : Header} {samples : List Bytes} {pad trailer : Bytes} (well : h.WellFormed)
      (kind : h.packetType = packetTypeIfData)
      (shaped : ∀ group : Nat, settings.sampleSize h.streamId = some (group : Int) →
        (∀ sample ∈ samples, sample.length = group) ∧ pad.length < group ∧
          trailer.length = (if h.hasTrailer then trailerSize else 0) ∧
          h.headerLen + samples.flatten.length + pad.length + trailer.length = 4 * h.packetSize) :
      Legal settings (.block h samples pad trailer)
  | noise {raw : Bytes} (foreign : ∀ hdr, parseHeader raw = .ok hdr →
      hdr.packetType ∉ [packetTypeIfData, packetTypeIfContext]) : Legal settings (.noise raw)

end Message

section
variable [Platform]

def Legal : Settings → List Message → Prop
  | _, [] => True
  | settings, m :: rest => m.Legal settings ∧ Legal (m.announced settings) rest

/-- The samples of stream `s` that a session means, each under the settings announced last before it. -/
def sent (s : StreamId) : Settings → List Message → List Sample
  | _, [] => []
  | settings, m :: rest => m.samples s settings ++ sent s (m.announced settings) rest

def unread : Settings → List Message → Nat
  | _, [] => 0
  | settings, m :: rest => (if m.readable settings then 0 else 1) + unread (m.announced settings) rest

end

theorem sameIdentity_iff (c d : Context) : SameIdentity c d ↔ c.identity = d.identity := by
  rw [Context.identity, Context.identity, List.map_inj_left]
  rfl

section
variable [Platform] {limits : Limits} {maxStreams : Int} {σ : Runtime} {lanes : StreamId → Lane} {settings : Settings}
  {m : Message} {i : Interpreter} {ids : List StreamId}

theorem Lane.Sound.delivered {l : Lane} (sound : l.Sound) (s : StreamId) {w : Window} (member : w ∈ l.closed) :
    (w.render s).convertedFrom = w.packets.flatMap Packet.carried := by
  obtain ⟨c, name, complex, group, first, rest, label, usable, split, -, covered⟩ := sound.window member
  have reads : ∀ p ∈ w.packets, p.Reads name complex group := fun p inside => (covered p inside).2
  obtain ⟨-, -, size, -⟩ := Window.render_reads (s := s) split reads
  have whole : ∀ p ∈ w.packets, group ∣ p.data.length := fun p inside => (reads p inside).whole
  have unit : (w.render s).convertedFrom = (groups group (w.packets.flatMap Packet.data)).map
    (Sample.mk c.identity) := by
    rw [EmitUnit.convertedFrom, readSamples, size, show (w.render s).context = w.label from rfl, label]
    rfl
  rw [unit, groups_flatMap usable.positive _ _ whole, List.map_flatMap]
  apply List.flatMap_congr
  intro p inside
  have identity : p.context.identity = c.identity := (sameIdentity_iff ..).mp (covered p inside).1
  rw [Packet.carried, readSamples, (reads p inside).bytesPerSample, Option.elim_some, identity]
  rfl

theorem Lane.Sound.carried {l : Lane} (sound : l.Sound) (s : StreamId) :
    (l.closed.map (Window.render s)).flatMap EmitUnit.convertedFrom ++ l.packets.flatMap Packet.carried =
      l.received.flatMap Packet.carried := by
  have weightless : ∀ p : Packet, p.Stray → p.carried = [] := by
    intro p stray
    rw [Packet.carried, readSamples, stray, groups_nil, List.map_nil]
  have kept := sound.cut.conserved Packet.carried weightless
  rw [← List.flatMap_def, List.flatMap_assoc] at kept
  rw [kept, List.flatMap_map]
  congr 1
  apply List.flatMap_congr
  intro w member
  exact sound.delivered s member

namespace Message

theorem process_announce {h : Header} {fields : ContextFields} (rest : Bytes) (well : h.WellFormed)
    (kind : h.packetType = packetTypeIfContext) (valid : fields.Valid)
    (declared : h.headerLen + fields.encode.length ≤ 4 * h.packetSize)
    (admitted : h.streamId ∈ i.contexts.keys ∨ (i.contexts.size : Int) < i.maxStreams) :
    Interpreter.process (wire (.announce h fields rest)) i =
      (.ok (some (.context (Interpreter.metadata h (fields.context Platform.fl) false)
        (some (fields.context Platform.fl)))),
          { i with contexts := i.contexts.insert h.streamId (fields.context Platform.fl) }) := by
  have parsed : parseHeader (wire (.announce h fields rest)) = .ok h := by
    rw [wire, List.append_assoc]
    exact well.parse _
  have handled : ¬ h.packetType ∉ [packetTypeIfData, packetTypeIfContext] := by
    rw [kind]
    decide
  have room : ¬ (h.streamId ∉ i.contexts.keys ∧ (i.contexts.size : Int) ≥ i.maxStreams) := by
    rintro ⟨absent, full⟩
    rcases admitted with present | below
    · exact absent present
    · omega
  rw [Interpreter.process, Interpreter.processRaw, parsed]
  dsimp only
  rw [if_neg handled, if_pos kind, Interpreter.processContext, if_neg room, wire, valid.decode well declared]

theorem processRaw_block {h : Header} {samples : List Bytes} {pad trailer : Bytes} (well : h.WellFormed)
    (kind : h.packetType = packetTypeIfData) :
    Interpreter.processRaw (wire (.block h samples pad trailer)) i =
      Interpreter.processData (wire (.block h samples pad trailer)) h i := by
  have parsed : parseHeader (wire (.block h samples pad trailer)) = .ok h := by
    rw [wire, List.append_assoc, List.append_assoc]
    exact well.parse _
  have handled : ¬ h.packetType ∉ [packetTypeIfData, packetTypeIfContext] := by
    rw [kind]
    decide
  have data : h.packetType ≠ packetTypeIfContext := by
    rw [kind]
    decide
  rw [Interpreter.processRaw, parsed]
  dsimp only
  rw [if_neg handled, if_neg data]

theorem process_block {h : Header} {samples : List Bytes} {pad trailer : Bytes} {ctx : Context} {group : Nat}
    (well : h.WellFormed) (kind : h.packetType = packetTypeIfData) (tracked : i.contexts.get? h.streamId = some ctx)
    (supported : ctx.supported ≠ some false) (sized : ctx.bytesPerSample.join = some (group : Int))
    (full : ∀ sample ∈ samples, sample.length = group) (short : pad.length < group)
    (flagged : trailer.length = if h.hasTrailer then trailerSize else 0)
    (filled : h.headerLen + samples.flatten.length + pad.length + trailer.length = 4 * h.packetSize) :
    Interpreter.process (wire (.block h samples pad trailer)) i =
      (.ok (some (.data (Interpreter.metadata h ctx
          (Interpreter.gapAfter (i.lastCounter.get? h.streamId) h.packetCounter)) samples.flatten)),
        { i with lastCounter := i.lastCounter.insert h.streamId h.packetCounter }) := by
  have whole := flatten_whole samples full
  rw [Interpreter.process, processRaw_block well kind, Interpreter.processData, tracked]
  dsimp only
  rw [if_neg supported, sized]
  dsimp only
  rw [wire, trimData_encoded well whole short flagged filled]

theorem process_unreadable {h : Header} (samples : List Bytes) (pad trailer : Bytes) (well : h.WellFormed)
    (kind : h.packetType = packetTypeIfData)
    (unsized : ∀ ctx, i.contexts.get? h.streamId = some ctx → ctx.bytesPerSample.join = none) :
    Interpreter.process (wire (.block h samples pad trailer)) i = (.ok none, i.drop) := by
  rw [Interpreter.process, processRaw_block well kind, Interpreter.processData]
  cases tracked : i.contexts.get? h.streamId with
  | none => rfl
  | some ctx =>
    dsimp only
    rw [unsized ctx tracked]
    by_cases unsupported : ctx.supported = some false
    · rw [if_pos unsupported]
    · rw [if_neg unsupported]

end Message

structure Informed (maxStreams : Int) (ids : List StreamId) (settings : Settings) (i : Interpreter) : Prop where
  tracking : i.Tracking maxStreams
  contexts : ∀ s, i.contexts.get? s = settings s
  within : ∀ s ∈ i.contexts.keys, s ∈ ids

theorem Informed.initial (maxStreams : Int) (ids : List StreamId) : Informed maxStreams ids (fun _ => none)
    (.new maxStreams) where
  tracking := Interpreter.tracking_new maxStreams
  contexts := fun _ => rfl
  within := by intro s member; cases member

theorem Informed.admitted (informed : Informed maxStreams ids settings i) (room : (ids.dedup.length : Int) ≤ maxStreams)
    {s : StreamId} (member : s ∈ ids) : s ∈ i.contexts.keys ∨ (i.contexts.size : Int) < i.maxStreams := by
  by_cases present : s ∈ i.contexts.keys
  · exact .inl present
  · have among : (s :: i.contexts.keys).Subperm ids.dedup := by
      apply List.subperm_of_subset (List.nodup_cons.mpr ⟨present, i.contexts.keys_nodup⟩)
      intro t inside
      rcases List.mem_cons.mp inside with here | there
      · rw [here]
        exact List.mem_dedup.mpr member
      · exact List.mem_dedup.mpr (informed.within t there)
    have fewer := among.length_le
    rw [List.length_cons, ← OrderedDict.size_eq] at fewer
    right
    rw [informed.tracking.bound]
    omega

def Event.carried (s : StreamId) (i : Interpreter) (event : Event) : List Sample :=
  ((event.input? s i).bind Lane.Input.packet?).toList.flatMap Packet.carried

theorem Informed.announce (informed : Informed maxStreams ids settings i) {h : Header} {fields : ContextFields}
    {rest : Bytes} (legal : Message.Legal settings (.announce h fields rest))
    (room : (ids.dedup.length : Int) ≤ maxStreams) (member : h.streamId ∈ ids) :
    Informed maxStreams ids (Message.announced settings (.announce h fields rest))
        (Interpreter.after (Message.wire (.announce h fields rest)) i) ∧
      (Interpreter.after (Message.wire (.announce h fields rest)) i).errors = i.errors ∧
      (Interpreter.after (Message.wire (.announce h fields rest)) i).dropped = i.dropped ∧
      ∀ s arrival, (Event.datagram (Message.wire (.announce h fields rest)) arrival).carried s i = [] := by
  cases legal with
  | announce well kind valid declared =>
    have processed := Message.process_announce rest well kind valid declared (informed.admitted room member)
    have tracking := informed.tracking.step (Interpreter.processed (Message.wire (.announce h fields rest)) i)
    have output : Interpreter.output (Message.wire (.announce h fields rest)) i = some
        (.context (Interpreter.metadata h (fields.context Platform.fl) false) (some (fields.context Platform.fl))) := by
      rw [Interpreter.output, processed]
      rfl
    have after : Interpreter.after (Message.wire (.announce h fields rest)) i =
        { i with contexts := i.contexts.insert h.streamId (fields.context Platform.fl) } := by
      rw [Interpreter.after, processed]
    rw [after] at tracking ⊢
    refine ⟨⟨tracking, ?_, ?_⟩, rfl, rfl, ?_⟩
    · intro s
      rw [OrderedDict.get?_insert, Message.announced, Function.update_apply]
      split
      · rfl
      · exact informed.contexts s
    · intro s inside
      rcases (OrderedDict.mem_keys_insert ..).mp inside with here | earlier
      · rw [here]
        exact member
      · exact informed.within s earlier
    · intro s arrival
      rw [Event.carried, Event.input?, output, Option.bind_some]
      split <;> rfl

theorem Informed.block (informed : Informed maxStreams ids settings i) {h : Header} {samples : List Bytes}
    {pad trailer : Bytes} (legal : Message.Legal settings (.block h samples pad trailer)) :
    Informed maxStreams ids settings (Interpreter.after (Message.wire (.block h samples pad trailer)) i) ∧
      (Interpreter.after (Message.wire (.block h samples pad trailer)) i).errors = i.errors ∧
      (Interpreter.after (Message.wire (.block h samples pad trailer)) i).dropped =
        i.dropped + (if Message.readable settings (.block h samples pad trailer) then 0 else 1) ∧
      ∀ s arrival, (Event.datagram (Message.wire (.block h samples pad trailer)) arrival).carried s i =
        Message.samples s settings (.block h samples pad trailer) := by
  have tracking := informed.tracking.step (Interpreter.processed (Message.wire (.block h samples pad trailer)) i)
  cases legal with
  | block well kind shaped =>
    cases size : settings.sampleSize h.streamId with
    | none =>
      have unsized : ∀ ctx, i.contexts.get? h.streamId = some ctx → ctx.bytesPerSample.join = none := by
        intro ctx tracked
        rw [informed.contexts] at tracked
        rwa [Settings.sampleSize, tracked, Option.bind_some] at size
      have processed := Message.process_unreadable samples pad trailer well kind unsized
      have output : Interpreter.output (Message.wire (.block h samples pad trailer)) i = none := by
        rw [Interpreter.output, processed]
        rfl
      have after : Interpreter.after (Message.wire (.block h samples pad trailer)) i = i.drop := by
        rw [Interpreter.after, processed]
      have unread : Message.readable settings (.block h samples pad trailer) = false := by
        rw [Message.readable, size]
        rfl
      rw [after] at tracking ⊢
      refine ⟨⟨tracking, informed.contexts, informed.within⟩, rfl, ?_, ?_⟩
      · rw [unread]
        rfl
      · intro s arrival
        rw [Event.carried, Event.input?, output, Message.samples, if_neg fun both => ?_]
        · rfl
        · rw [unread] at both
          exact absurd both.2 (by decide)
    | some bytesPerSample =>
      obtain ⟨ctx, inForce, sized⟩ := Option.bind_eq_some_iff.mp size
      have tracked : i.contexts.get? h.streamId = some ctx := (informed.contexts _).trans inForce
      rcases informed.tracking.classified _ _ tracked with ⟨name, complex, group, usable⟩ | unusable
      · have grouped : ctx.bytesPerSample.join = some (group : Int) := by
          rw [usable.bytesPerSample]
          rfl
        obtain ⟨full, short, flagged, filled⟩ := shaped group (by
          rw [Settings.sampleSize, inForce]
          exact grouped)
        have supported : ctx.supported ≠ some false := by
          rw [usable.supported]
          decide
        have processed := Message.process_block well kind tracked supported grouped full short flagged filled
        have output : Interpreter.output (Message.wire (.block h samples pad trailer)) i = some (.data
            (Interpreter.metadata h ctx (Interpreter.gapAfter (i.lastCounter.get? h.streamId) h.packetCounter))
            samples.flatten) := by
          rw [Interpreter.output, processed]
          rfl
        have after : Interpreter.after (Message.wire (.block h samples pad trailer)) i =
            { i with lastCounter := i.lastCounter.insert h.streamId h.packetCounter } := by
          rw [Interpreter.after, processed]
        have read : Message.readable settings (.block h samples pad trailer) = true := by
          rw [Message.readable, size]
          rfl
        rw [after] at tracking ⊢
        refine ⟨⟨tracking, informed.contexts, informed.within⟩, rfl, ?_, ?_⟩
        · rw [read]
          rfl
        · intro s arrival
          rw [Event.carried, Event.input?, output, Option.bind_some, Message.samples]
          have stream : Record.metadata (.data (Interpreter.metadata h ctx
              (Interpreter.gapAfter (i.lastCounter.get? h.streamId) h.packetCounter)) samples.flatten) =
              Interpreter.metadata h ctx (Interpreter.gapAfter (i.lastCounter.get? h.streamId) h.packetCounter) := rfl
          rw [stream, show (Interpreter.metadata h ctx _).streamId = h.streamId from rfl]
          by_cases own : h.streamId = s
          · subst own
            have packet : readSamples (some ctx) ctx.bytesPerSample.join samples.flatten =
                samples.map (Sample.mk ((settings h.streamId).elim [] Context.identity)) := by
              rw [readSamples, grouped, inForce, Option.getD_some, Int.toNat_natCast,
                groups_flatten usable.positive samples full]
            rw [if_pos rfl, if_pos ⟨rfl, read⟩, ← packet, Record.input?, tracked]
            exact List.append_nil _
          · rw [if_neg own, if_neg (fun both => own both.1)]
            rfl
      · rw [unusable.bytesPerSample] at sized
        cases sized

theorem Informed.noise (informed : Informed maxStreams ids settings i) {raw : Bytes}
    (legal : Message.Legal settings (.noise raw)) :
    Informed maxStreams ids settings (Interpreter.after raw i) ∧
      (Interpreter.after raw i).errors + (Interpreter.after raw i).dropped = i.errors + i.dropped + 1 ∧
      ∀ s arrival, (Event.datagram raw arrival).carried s i = [] := by
  have outcome := Interpreter.processed raw i
  have tracking := informed.tracking.step outcome
  cases legal with
  | noise foreign =>
    simp only [Event.carried, Event.input?]
    generalize Interpreter.output raw i = out at *
    generalize Interpreter.after raw i = i' at *
    cases outcome with
    | rejected =>
      refine ⟨⟨tracking, informed.contexts, informed.within⟩, ?_, fun s arrival => rfl⟩
      dsimp only
      omega
    | dropped =>
      refine ⟨⟨tracking, informed.contexts, informed.within⟩, ?_, fun s arrival => rfl⟩
      dsimp only [Interpreter.drop]
      omega
    | @context hdr ctx parsed kind =>
      refine absurd ?_ (foreign hdr parsed)
      rw [kind]
      decide
    | @data hdr ctx bytesPerSample numSamples body parsed kind =>
      refine absurd ?_ (foreign hdr parsed)
      rw [kind]
      decide

theorem Informed.step (informed : Informed maxStreams ids settings i) (legal : m.Legal settings)
    (room : (ids.dedup.length : Int) ≤ maxStreams) (among : ∀ s ∈ m.announces?, s ∈ ids) :
    Informed maxStreams ids (m.announced settings) (Interpreter.after m.wire i) ∧
      (Interpreter.after m.wire i).errors + (Interpreter.after m.wire i).dropped =
        i.errors + i.dropped + (if m.readable settings then 0 else 1) ∧
      ∀ s arrival, (Event.datagram m.wire arrival).carried s i = m.samples s settings := by
  cases m with
  | announce h fields rest =>
    obtain ⟨later, errors, dropped, carried⟩ := informed.announce legal room (among _ rfl)
    exact ⟨later, by rw [errors, dropped]; rfl, carried⟩
  | block h samples pad trailer =>
    obtain ⟨later, errors, dropped, carried⟩ := informed.block legal
    exact ⟨later, by rw [errors, dropped, Nat.add_assoc], carried⟩
  | noise raw => exact informed.noise legal

theorem Informed.run (informed : Informed maxStreams ids settings i) {events : List Event} {messages : List Message}
    (carried : datagrams events = messages.map Message.wire) (legal : Legal settings messages)
    (room : (ids.dedup.length : Int) ≤ maxStreams) (among : ∀ s ∈ messages.filterMap Message.announces?, s ∈ ids) :
    (Interpreter.run (datagrams events) i).errors + (Interpreter.run (datagrams events) i).dropped =
        i.errors + i.dropped + unread settings messages ∧
      ∀ s, (packetsOf s i events).flatMap Packet.carried = sent s settings messages := by
  induction events generalizing messages settings i with
  | nil =>
    have none : messages = [] := List.map_eq_nil_iff.mp carried.symm
    rw [none]
    exact ⟨rfl, fun s => rfl⟩
  | cons event rest ih =>
    cases event with
    | datagram raw arrival =>
      cases messages with
      | nil => cases carried
      | cons m messages =>
        obtain ⟨wire, later⟩ :=
          List.cons.inj (show raw :: datagrams rest = m.wire :: messages.map Message.wire from carried)
        subst wire
        have own : ∀ s ∈ m.announces?, s ∈ ids := by
          intro s announced
          exact among s (List.mem_filterMap.mpr ⟨m, List.mem_cons_self, announced⟩)
        obtain ⟨informed', counted, samples⟩ := informed.step legal.1 room own
        obtain ⟨counts, all⟩ := ih informed' later legal.2 fun s member => by
          obtain ⟨other, inside, announced⟩ := List.mem_filterMap.mp member
          exact among s (List.mem_filterMap.mpr ⟨other, List.mem_cons_of_mem _ inside, announced⟩)
        constructor
        · rw [show datagrams (.datagram m.wire arrival :: rest) = m.wire :: datagrams rest from rfl,
            Interpreter.run_cons, counts, counted, unread, Nat.add_assoc]
        · intro s
          rw [packetsOf_cons, List.flatMap_append, sent, ← samples s arrival, ← all s]
          rfl
    | poll readings => exact ih informed carried legal among
    | flushAll => exact ih informed carried legal among

theorem Pipeline.run_interpreter (limits : Limits) (maxStreams : Int) (ticks : List Tick) {out : Except Exn Unit}
    (returned : Pipeline.run ticks (buildRuntime maxStreams limits.maxSamples limits.maxAgeS .quiet) = (out, σ)) :
    σ.interpreter = Interpreter.run (dequeued ticks) (.new maxStreams) := by
  obtain ⟨σ', looped, interpreter, wired⟩ := driven limits maxStreams (calls ticks)
  obtain ⟨σ'', flushed, kept, -, -⟩ := wired.handle .flushAll
  have whole : run ticks (buildRuntime maxStreams limits.maxSamples limits.maxAgeS .quiet) =
      (.ok (), { σ'' with sourceStopped := true }) := by
    rw [run, loop_eq_drive]
    exact Method.ensure_returns looped (Method.ensure_returns flushed rfl)
  rw [whole] at returned
  cases returned
  exact kept.trans interpreter

/-- What was sent is what is converted: however the polls and the windows cut the session, a stream's units are made
    of the bytes of each sent sample once, in order, under the settings it was sent with; only messages nobody could
    read count. -/
theorem session_delivered (maxStreams maxSamples : Int) (maxAgeS : ℚ) (messages : List Message)
    (legal : Legal (fun _ => none) messages)
    (room : ((messages.filterMap Message.announces?).dedup.length : Int) ≤ maxStreams) (ticks : List Tick)
    (carried : Pipeline.dequeued ticks = messages.map Message.wire) :
    ∃ σ, Pipeline.run ticks (buildRuntime maxStreams maxSamples maxAgeS .quiet) = (.ok (), σ) ∧
      σ.interpreter.errors + σ.interpreter.dropped = unread (fun _ => none) messages ∧ σ.router.dropped = 0 ∧
      ∀ s, (unitsOf s σ.consumer.sent).flatMap EmitUnit.convertedFrom = sent s (fun _ => none) messages := by
  obtain ⟨σ, returned, wired⟩ := Pipeline.run_returns ⟨maxSamples, maxAgeS⟩ maxStreams ticks
  have dequeued : datagrams (Pipeline.calls ticks ++ [.flushAll]) = Pipeline.dequeued ticks := by
    simp [datagrams, Pipeline.dequeued, Event.raw?]
  obtain ⟨counted, all⟩ := (Informed.initial maxStreams (messages.filterMap Message.announces?)).run
    (dequeued.trans carried) legal room fun s member => member
  refine ⟨_, returned, ?_, wired.dropped, ?_⟩
  · have interpreter := Pipeline.run_interpreter ⟨maxSamples, maxAgeS⟩ maxStreams ticks returned
    rw [interpreter, ← dequeued, counted]
    exact Nat.zero_add _
  · intro s
    have finished : (laneOf ⟨maxSamples, maxAgeS⟩ s (Interpreter.new maxStreams)
        (Pipeline.calls ticks ++ [.flushAll])).packets = [] := by
      rw [laneOf, trace_append, List.foldl_append]
      exact Lane.close_packets _
    have carried := (wired.sound s).carried s
    rw [finished, List.flatMap_nil, List.append_nil, laneOf_received, all] at carried
    rw [wired.emitted, carried]

end

namespace Exact

def oneSample : List Message :=
  [.announce (fullHeader 17 packetTypeIfContext) someFields [],
    .block (fullHeader 11) [[1, 2, 3, 4, 5, 6, 7, 8]] [0, 0, 0, 0] [0xAA, 0xAA, 0xAA, 0xAA], .noise [0x18]]

theorem someFields_valid : someFields.Valid := by
  refine ⟨by decide, by decide, by decide, by decide, by decide, ?_⟩
  intro bit bytes held
  simp only [someFields] at held
  split at held
  · subst bit
    cases held
    rfl
  · cases held

theorem oneSample_legal : Legal (fun _ => none) oneSample := by
  refine ⟨?_, ?_, ?_, trivial⟩
  · exact .announce (fullHeader_wellFormed 17 (by decide) (.inr rfl)) rfl someFields_valid (by decide +kernel)
  · apply Message.Legal.block (fullHeader_wellFormed 11 (by decide) (.inl rfl)) rfl
    intro group size
    have eight : (8 : Nat) = group := by
      have known : Settings.sampleSize (Message.announced (fun _ => none)
          (.announce (fullHeader 17 packetTypeIfContext) someFields [])) (fullHeader 11).streamId = some (8 : Nat) := by
        decide +kernel
      rw [known] at size
      exact Int.ofNat.inj (Option.some.inj size)
    subst eight
    decide
  · apply Message.Legal.noise
    intro hdr parsed
    cases parsed

theorem session_delivered_oneSample :
    let ticks := oneSample.map fun m => (⟨.item m.wire, 0, fun _ => 0⟩ : Tick)
    ∃ σ, Pipeline.run ticks (buildRuntime 1 100 10 .quiet) = (.ok (), σ) ∧
      σ.interpreter.errors + σ.interpreter.dropped = 1 ∧
      (unitsOf (some 123) σ.consumer.sent).flatMap EmitUnit.convertedFrom =
        [⟨(someFields.context id).identity, [1, 2, 3, 4, 5, 6, 7, 8]⟩] := by
  intro ticks
  obtain ⟨σ, returned, counted, -, delivered⟩ :=
    session_delivered 1 100 10 oneSample oneSample_legal (by decide) ticks rfl
  refine ⟨σ, returned, ?_, ?_⟩
  · rw [counted]
    decide +kernel
  · rw [delivered]
    decide +kernel

end Exact

end Sceptre
