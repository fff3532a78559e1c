import Sceptre.Interpreter.Outcomes
import Sceptre.Windowing.Routing

namespace Sceptre

open Foundation

variable [Platform]

def Event.raw? : Event → Option Bytes
  | .datagram raw _ => some raw
  | _ => none

def datagrams (events : List Event) : List Bytes := events.filterMap Event.raw?

omit [Platform] in
theorem datagrams_append (first second : List Event) :
    datagrams (first ++ second) = datagrams first ++ datagrams second := List.filterMap_append ..

def Record.input? (arrival : ℚ) (inForce : Option Context) : Record → Option Lane.Input
  | .context _ ctx => ctx.map .adopt
  | .data md body => inForce.map fun ctx => .packet ⟨md, body, arrival, ctx⟩

def Event.input? (s : StreamId) (i : Interpreter) : Event → Option Lane.Input
  | .datagram raw arrival =>
    (Interpreter.output raw i).bind fun record =>
      if record.metadata.streamId = s then record.input? arrival (i.contexts.get? s) else none
  | .poll readings => some (.poll (readings s))
  | .flushAll => some .flush

def Event.advance (event : Event) (i : Interpreter) : Interpreter :=
  event.raw?.elim i fun raw => Interpreter.after raw i

def trace (s : StreamId) : Interpreter → List Event → List Lane.Input
  | _, [] => []
  | i, event :: rest => (event.input? s i).toList ++ trace s (event.advance i) rest

theorem trace_append (s : StreamId) (i : Interpreter) (first second : List Event) :
    trace s i (first ++ second) = trace s i first ++ trace s (Interpreter.run (datagrams first) i) second := by
  induction first generalizing i with
  | nil => rfl
  | cons event rest ih =>
    rw [List.cons_append, trace, trace, ih, List.append_assoc]
    cases event with
    | datagram raw arrival =>
      rw [show datagrams (.datagram raw arrival :: rest) = raw :: datagrams rest from rfl, Interpreter.run_cons]
      rfl
    | poll readings => rfl
    | flushAll => rfl

def laneOf (limits : Limits) (s : StreamId) (i : Interpreter) (events : List Event) : Lane :=
  (trace s i events).foldl (Lane.step limits) .initial

def Lane.feed (limits : Limits) (l : Lane) (input : Option Lane.Input) : Lane := input.elim l (l.step limits)

/-- What ties the interpreter, the router and the consumer together: per stream, the buffer holds the
    lane's open window and the units sent are the lane's closed windows. -/
structure Wired (limits : Limits) (maxStreams : Int) (σ : Runtime) (lanes : StreamId → Lane) : Prop where
  tracking : σ.interpreter.Tracking maxStreams
  maxStreams : σ.router.maxStreams = maxStreams
  maxSamples : σ.router.maxSamples = limits.maxSamples
  maxAgeS : σ.router.maxAgeS = limits.maxAgeS
  flushFields : σ.router.flushFields = defaultFlushFields
  dropped : σ.router.dropped = 0
  keys : σ.router.buffers.keys = σ.interpreter.contexts.keys
  quiet : σ.consumer.Quiet
  sound : ∀ s, (lanes s).Sound
  refines : ∀ s, Refines limits s (σ.router.bufferFor s) (lanes s)
  context : ∀ s, (lanes s).context = σ.interpreter.contexts.get? s
  last : ∀ s, (lanes s).last = σ.interpreter.lastCounter.get? s
  emitted : ∀ s, unitsOf s σ.consumer.sent = (lanes s).closed.map (Window.render s)

variable {limits : Limits} {maxStreams : Int} {σ : Runtime} {lanes : StreamId → Lane}

omit [Platform] in
@[simp] theorem bufferFor_insert (r : BufferRouter) (s s' : StreamId) (b : IngestBuffer) :
    BufferRouter.bufferFor { r with buffers := r.buffers.insert s b } s' =
      if s' = s then b else r.bufferFor s' := by
  unfold BufferRouter.bufferFor
  dsimp only
  rw [OrderedDict.get?_insert]
  split <;> rfl

omit [Platform] in
theorem bufferFor_map (r : BufferRouter) (f : IngestBuffer → IngestBuffer) {s : StreamId} {b : IngestBuffer}
    (found : r.buffers.get? s = some b) :
    BufferRouter.bufferFor { r with buffers := r.buffers.map fun _ b => f b } s = f b := by
  simp [BufferRouter.bufferFor, found]

omit [Platform] in
theorem bufferFor_map_absent (r : BufferRouter) (f : IngestBuffer → IngestBuffer) {s : StreamId}
    (absent : r.buffers.get? s = none) :
    BufferRouter.bufferFor { r with buffers := r.buffers.map fun _ b => f b } s = r.bufferFor s := by
  simp [BufferRouter.bufferFor, absent]

omit [Platform] in
theorem bufferFor_found {r : BufferRouter} {s : StreamId} {b : IngestBuffer}
    (found : r.buffers.get? s = some b) : r.bufferFor s = b := by
  simp [BufferRouter.bufferFor, found]

theorem Wired.initial (limits : Limits) (maxStreams : Int) :
    Wired limits maxStreams (buildRuntime maxStreams limits.maxSamples limits.maxAgeS .quiet) fun _ => .initial where
  tracking := Interpreter.tracking_new maxStreams
  maxStreams := rfl
  maxSamples := rfl
  maxAgeS := rfl
  flushFields := rfl
  dropped := rfl
  keys := rfl
  quiet := fun _ => rfl
  sound := fun _ => Lane.sound_initial
  refines := fun _ => ⟨⟨rfl, rfl, rfl, rfl, rfl, rfl, rfl⟩, ⟨rfl, rfl, rfl, rfl, rfl, rfl, rfl⟩⟩
  context := fun _ => rfl
  last := fun _ => rfl
  emitted := fun _ => rfl

theorem Wired.found (wired : Wired limits maxStreams σ lanes) {s : StreamId} {b : IngestBuffer}
    (found : σ.router.buffers.get? s = some b) : Refines limits s b (lanes s) := by
  have refines := wired.refines s
  rwa [bufferFor_found found] at refines

theorem Wired.absent (wired : Wired limits maxStreams σ lanes) {s : StreamId}
    (absent : σ.router.buffers.get? s = none) : (lanes s).packets = [] := by
  have untracked : σ.interpreter.contexts.get? s = none := by
    rw [OrderedDict.get?_eq_none_iff, ← wired.keys]
    exact (OrderedDict.get?_eq_none_iff ..).mp absent
  by_contra opened
  obtain ⟨c, inForce, -⟩ := (wired.sound s).covered opened
  rw [wired.context, untracked] at inForce
  cases inForce

omit [Platform] in
theorem Lane.closeIf_nil {l : Lane} (closed : l.packets = []) (condition : Prop) [Decidable condition] :
    l.closeIf condition = l := by
  unfold Lane.closeIf
  split
  · exact if_pos closed
  · rfl

omit [Platform] in
theorem routing_returns {body : BufferRouter.Action Unit} {r : BufferRouter} {k : Consumer}
    (returned : body (σ.router, σ.consumer) = (.ok (), r, k)) :
    Runtime.routing body σ = (.ok (), { σ with router := r, consumer := k }) := by
  simp only [Runtime.routing, Method.within, returned]

theorem Wired.loop (wired : Wired limits maxStreams σ lanes) (body : IngestBuffer.Action Unit)
    (due : StreamId → Bool)
    (implements : ∀ s b, Refines limits s b (lanes s) →
      Implements limits s b (lanes s) ((lanes s).closeIf (due s = true)) body) :
    ∃ σ', Runtime.routing (BufferRouter.forBuffers body) σ = (.ok (), σ') ∧ σ'.interpreter = σ.interpreter ∧
      σ'.sourceStopped = σ.sourceStopped ∧
      Wired limits maxStreams σ' fun s => (lanes s).closeIf (due s = true) := by
  obtain ⟨f, units, returned, stepped, silent⟩ :=
    forBuffers_routes (fun s l => l.closeIf (due s = true)) wired.quiet fun e member =>
      implements e.1 e.2 (wired.found (σ.router.buffers.get?_of_mem member))
  refine ⟨_, routing_returns returned, rfl, rfl, ?_⟩
  refine { wired with keys := ?_, quiet := ?_, sound := ?_, refines := ?_, context := ?_, last := ?_, emitted := ?_ }
  · simpa using wired.keys
  · exact wired.quiet.accept units
  · exact fun s => (wired.sound s).closeIf _
  · intro s
    cases found : σ.router.buffers.get? s with
    | some b =>
      rw [bufferFor_map _ f found]
      exact (stepped s b found).1
    | none =>
      rw [bufferFor_map_absent _ f found, Lane.closeIf_nil (wired.absent found)]
      exact wired.refines s
  · intro s
    rw [Lane.closeIf_context]
    exact wired.context s
  · intro s
    rw [Lane.closeIf_last]
    exact wired.last s
  · intro s
    change unitsOf s (σ.consumer.sent ++ units) = _
    rw [unitsOf_append, wired.emitted]
    cases found : σ.router.buffers.get? s with
    | some b => exact (stepped s b found).2.symm
    | none => rw [silent s found, Lane.closeIf_nil (wired.absent found), List.append_nil]

omit [Platform] in
@[simp] theorem Lane.adopt_last (l : Lane) (ctx : Context) : (l.adopt ctx).last = l.last :=
  l.closeIf_last _

omit [Platform] in
@[simp] theorem Lane.packet_context (limits : Limits) (l : Lane) (p : Packet) :
    (l.packet limits p).context = l.context := by
  simp [Lane.packet]

omit [Platform] in
@[simp] theorem Lane.packet_last (limits : Limits) (l : Lane) (p : Packet) :
    (l.packet limits p).last = some p.counter := by
  rw [Lane.packet, Lane.closeIf_last]
  rfl

/-- A record that fits its lane is pushed to its own buffer; every other lane stays as it is. -/
theorem Wired.push (wired : Wired limits maxStreams σ lanes) (record : Record) (arrival : ℚ)
    (input : Lane.Input) {i' : Interpreter}
    (room : record.metadata.streamId ∈ σ.router.buffers.keys ∨ (σ.router.buffers.size : Int) < maxStreams)
    (fits : (lanes record.metadata.streamId).Fits input)
    (implements : ∀ b, Refines limits record.metadata.streamId b (lanes record.metadata.streamId) →
      Implements limits record.metadata.streamId b (lanes record.metadata.streamId)
        ((lanes record.metadata.streamId).step limits input) (IngestBuffer.push record arrival))
    (tracking : i'.Tracking maxStreams)
    (keys : ∀ b, (σ.router.buffers.insert record.metadata.streamId b).keys = i'.contexts.keys)
    (context : ∀ s, i'.contexts.get? s = if s = record.metadata.streamId
      then ((lanes s).step limits input).context else σ.interpreter.contexts.get? s)
    (last : ∀ s, i'.lastCounter.get? s = if s = record.metadata.streamId
      then ((lanes s).step limits input).last else σ.interpreter.lastCounter.get? s) :
    ∃ σ', Runtime.push (some record) arrival { σ with interpreter := i' } = (.ok (), σ') ∧ σ'.interpreter = i' ∧
      σ'.sourceStopped = σ.sourceStopped ∧
      Wired limits maxStreams σ' fun s =>
        if s = record.metadata.streamId then (lanes s).step limits input else lanes s := by
  obtain ⟨b', fresh, refines, closed, returned⟩ :=
    push_routes (by rwa [wired.maxStreams]) wired.quiet (implements _ (wired.refines _))
  refine ⟨_, routing_returns (σ := { σ with interpreter := i' }) returned, rfl, rfl, ?_⟩
  refine { wired with
    tracking := tracking, keys := keys b', quiet := wired.quiet.accept _, sound := ?_, refines := ?_,
    context := ?_, last := ?_,
    emitted := ?_ }
  · intro s
    split
    · rename_i own
      subst own
      exact (wired.sound _).step limits fits
    · exact wired.sound s
  · intro s
    rw [bufferFor_insert]
    split
    · rename_i own
      rw [own]
      exact refines
    · exact wired.refines s
  · intro s
    rw [context]
    split
    · rfl
    · exact wired.context s
  · intro s
    rw [last]
    split
    · rfl
    · exact wired.last s
  · intro s
    change unitsOf s (σ.consumer.sent ++ fresh.map (Window.render _)) = _
    rw [unitsOf_append, unitsOf_render, wired.emitted]
    by_cases own : record.metadata.streamId = s
    · subst own
      rw [if_pos rfl, if_pos rfl, closed, List.map_append]
    · rw [if_neg own, if_neg fun h => own h.symm, List.append_nil]

theorem process_returns (raw : Bytes) (σ : Runtime) :
    Runtime.process raw σ = (.ok (Interpreter.output raw σ.interpreter),
      { σ with interpreter := Interpreter.after raw σ.interpreter }) :=
  Method.within_returns (Interpreter.process_returns raw σ.interpreter).1

theorem Interpreter.Tracking.reads {i : Interpreter} (tracking : i.Tracking maxStreams) {raw body : Bytes}
    {hdr : Header} {ctx : Context} {bytesPerSample numSamples : Int} {gap : Bool} {arrival : ℚ}
    (tracked : i.contexts.get? hdr.streamId = some ctx) (sized : ctx.bytesPerSample.join = some bytesPerSample)
    (trimmed : trimData raw hdr bytesPerSample = .ok (body, numSamples)) :
    ∃ name complex group, ctx.Usable name complex group ∧
      Packet.Reads ⟨Interpreter.metadata hdr ctx gap, body, arrival, ctx⟩ name complex group := by
  rcases tracking.classified _ _ tracked with ⟨name, complex, group, usable⟩ | unusable
  · have size := usable.bytesPerSample
    rw [size, Option.join_some, Option.some.injEq] at sized
    subst sized
    obtain ⟨-, whole, -⟩ := trimData_ok usable.positive trimmed
    refine ⟨name, complex, group, usable, ?_, usable.isComplex, ?_, whole⟩
    · simp [Interpreter.metadata, usable.componentDtype]
    · simp [Interpreter.metadata, size]
  · rw [unusable.bytesPerSample] at sized
    cases sized

/-- One datagram: the interpreter does not raise, and its record is a step of its own lane. -/
theorem Wired.datagram (wired : Wired limits maxStreams σ lanes) (raw : Bytes) (arrival : ℚ) :
    ∃ σ', Runtime.handle (.datagram raw arrival) σ = (.ok (), σ') ∧
      σ'.interpreter = Interpreter.after raw σ.interpreter ∧ σ'.sourceStopped = σ.sourceStopped ∧
      Wired limits maxStreams σ' fun s =>
        (lanes s).feed limits ((Event.datagram raw arrival).input? s σ.interpreter) := by
  have outcome := Interpreter.processed raw σ.interpreter
  have tracking := wired.tracking.step outcome
  simp only [Runtime.handle, Event.input?]
  rw [Method.bind_returns (process_returns raw σ)]
  generalize Interpreter.output raw σ.interpreter = out at *
  generalize Interpreter.after raw σ.interpreter = i' at *
  cases outcome with
  | rejected => exact ⟨_, rfl, rfl, rfl, { wired with tracking := tracking }⟩
  | dropped => exact ⟨_, rfl, rfl, rfl, { wired with tracking := tracking }⟩
  | @context hdr ctx parsed kind admitted decoded =>
    have room : hdr.streamId ∈ σ.router.buffers.keys ∨ (σ.router.buffers.size : Int) < maxStreams := by
      rw [OrderedDict.size_eq, wired.keys, ← OrderedDict.size_eq, ← wired.tracking.bound]
      exact admitted
    have pushed := wired.push (.context (Interpreter.metadata hdr ctx false) (some ctx)) arrival
      (.adopt ctx) room (decodeContext_classified decoded)
      (fun b refines => pushContext_implements refines (wired.sound _) ctx) tracking
      (fun b => by rw [OrderedDict.keys_insert, OrderedDict.keys_insert, wired.keys]; rfl)
      (fun s => by rw [OrderedDict.get?_insert]; rfl)
      (fun s => by
        split
        · exact (wired.last s).symm.trans (Lane.adopt_last _ ctx).symm
        · rfl)
    obtain ⟨σ', returned, interpreter, stopped, wired'⟩ := pushed
    refine ⟨σ', returned, interpreter, stopped, ?_⟩
    convert wired' using 2 with s
    by_cases own : s = hdr.streamId
    · subst own
      simp [Interpreter.metadata, Record.metadata, Record.input?, Lane.feed]
    · have other : ¬ hdr.streamId = s := fun h => own h.symm
      simp [Interpreter.metadata, Record.metadata, Lane.feed, own, other]
  | @data hdr ctx bytesPerSample numSamples body parsed kind tracked supported sized trimmed =>
    have inForce : (lanes hdr.streamId).context = some ctx := (wired.context _).trans tracked
    have present : hdr.streamId ∈ σ.interpreter.contexts.keys := (OrderedDict.mem_keys_iff ..).mpr ⟨ctx, tracked⟩
    have fits : (lanes hdr.streamId).Fits (.packet ⟨Interpreter.metadata hdr ctx
        (Interpreter.gapAfter (σ.interpreter.lastCounter.get? hdr.streamId) hdr.packetCounter), body, arrival, ctx⟩) :=
      ⟨inForce, by rw [wired.last]; rfl, wired.tracking.reads tracked sized trimmed⟩
    have pushed := wired.push (.data (Interpreter.metadata hdr ctx
        (Interpreter.gapAfter (σ.interpreter.lastCounter.get? hdr.streamId) hdr.packetCounter)) body) arrival
      (.packet _) (.inl (by rw [wired.keys]; exact present)) fits
      (fun b refines => pushData_implements refines (wired.sound _) fits) tracking
      (fun b => by
        rw [OrderedDict.keys_insert, wired.keys]
        exact if_pos present)
      (fun s => by
        split
        · exact (wired.context s).symm.trans (Lane.packet_context ..).symm
        · rfl)
      (fun s => by
        rw [OrderedDict.get?_insert, Lane.step, Lane.packet_last]
        rfl)
    obtain ⟨σ', returned, interpreter, stopped, wired'⟩ := pushed
    refine ⟨σ', returned, interpreter, stopped, ?_⟩
    convert wired' using 2 with s
    by_cases own : s = hdr.streamId
    · subst own
      simp [Interpreter.metadata, Record.metadata, Record.input?, Lane.feed, tracked]
    · have other : ¬ hdr.streamId = s := fun h => own h.symm
      simp [Interpreter.metadata, Record.metadata, Lane.feed, own, other]

theorem Wired.handle (wired : Wired limits maxStreams σ lanes) (event : Event) :
    ∃ σ', Runtime.handle event σ = (.ok (), σ') ∧ σ'.interpreter = event.advance σ.interpreter ∧
      σ'.sourceStopped = σ.sourceStopped ∧
      Wired limits maxStreams σ' fun s => (lanes s).feed limits (event.input? s σ.interpreter) := by
  cases event with
  | datagram raw arrival => exact wired.datagram raw arrival
  | poll readings =>
    obtain ⟨σ', returned, interpreter, stopped, wired'⟩ := wired.loop
      (fun t => IngestBuffer.maybeFlushOnAge (readings t.1.streamId) t)
      (fun s => (lanes s).packets.head?.any fun p => readings s - p.arrival ≥ limits.maxAgeS) (by
        intro s b refines
        obtain ⟨b', fresh, refines', closed, returned⟩ :=
          maybeFlushOnAge_implements refines (wired.sound s) (readings s)
        refine ⟨b', fresh, refines', closed, ?_⟩
        intro k quiet
        show IngestBuffer.maybeFlushOnAge (readings b.streamId) (b, k) = _
        rw [refines.labels.streamId]
        exact returned k quiet)
    exact ⟨σ', returned, interpreter, stopped, wired'⟩
  | flushAll =>
    obtain ⟨σ', returned, interpreter, stopped, wired'⟩ := wired.loop IngestBuffer.flush (fun _ => true)
      fun s b refines => flush_implements refines (wired.sound s)
    exact ⟨σ', returned, interpreter, stopped, wired'⟩

theorem Wired.drive (wired : Wired limits maxStreams σ lanes) (events : List Event) :
    ∃ σ', Runtime.drive events σ = (.ok (), σ') ∧
      σ'.interpreter = Interpreter.run (datagrams events) σ.interpreter ∧ σ'.sourceStopped = σ.sourceStopped ∧
      Wired limits maxStreams σ' fun s => (trace s σ.interpreter events).foldl (Lane.step limits) (lanes s) := by
  induction events generalizing σ lanes with
  | nil => exact ⟨σ, rfl, rfl, rfl, wired⟩
  | cons event rest ih =>
    obtain ⟨σ', returned, interpreter, stopped, wired'⟩ := wired.handle event
    obtain ⟨σ'', returned', interpreter', stopped', wired''⟩ := ih wired'
    refine ⟨σ'', ?_, ?_, stopped'.trans stopped, ?_⟩
    · rw [Runtime.drive, Method.bind_returns returned, returned']
    · rw [interpreter', interpreter]
      cases event with
      | datagram raw arrival => exact (Interpreter.run_cons ..).symm
      | poll readings => rfl
      | flushAll => rfl
    · rw [interpreter] at wired''
      convert wired'' using 2 with s
      rw [trace, List.foldl_append]
      cases event.input? s σ.interpreter <;> rfl

theorem driven (limits : Limits) (maxStreams : Int) (events : List Event) :
    ∃ σ, Runtime.drive events (buildRuntime maxStreams limits.maxSamples limits.maxAgeS .quiet) = (.ok (), σ) ∧
      σ.interpreter = Interpreter.run (datagrams events) (Interpreter.new maxStreams) ∧
      Wired limits maxStreams σ fun s => laneOf limits s (Interpreter.new maxStreams) events := by
  obtain ⟨σ, returned, interpreter, -, wired⟩ := (Wired.initial limits maxStreams).drive events
  exact ⟨σ, returned, interpreter, wired⟩

end Sceptre
