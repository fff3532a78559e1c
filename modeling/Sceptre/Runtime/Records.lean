import Sceptre.Runtime.Wiring

namespace Sceptre

open Foundation

def Record.dataOf? (s : StreamId) : Record → Option (Metadata × Bytes)
  | .data md body => if md.streamId = s then some (md, body) else none
  | .context _ _ => none

def Record.contextOf? (s : StreamId) : Record → Option Context
  | .context md ctx => if md.streamId = s then ctx else none
  | .data _ _ => none

def dataRecords (s : StreamId) (returned : List (Option Record)) : List (Metadata × Bytes) :=
  returned.filterMap fun record => record.bind (Record.dataOf? s)

def latestContext (s : StreamId) (returned : List (Option Record)) : Option Context :=
  (returned.filterMap fun record => record.bind (Record.contextOf? s)).getLast?

theorem dataRecords_cons (s : StreamId) (record : Option Record) (rest : List (Option Record)) :
    dataRecords s (record :: rest) = (record.bind (Record.dataOf? s)).toList ++ dataRecords s rest := by
  rw [dataRecords, List.filterMap_cons, dataRecords]
  cases record.bind (Record.dataOf? s) <;> rfl

def Lane.Input.packet? : Lane.Input → Option Packet
  | .packet p => some p
  | _ => none

variable [Platform]

def packetsOf (s : StreamId) (i : Interpreter) (events : List Event) : List Packet :=
  (trace s i events).filterMap Lane.Input.packet?

omit [Platform] in
theorem step_received (limits : Limits) (l : Lane) (input : Lane.Input) :
    (l.step limits input).received = l.received ++ input.packet?.toList := by
  cases input with
  | adopt ctx =>
    show (l.closeIf _).received = _
    simp [Lane.Input.packet?]
  | packet p =>
    simp [Lane.step, Lane.packet, Lane.record, Lane.Input.packet?]
  | poll now => simp [Lane.step, Lane.poll, Lane.Input.packet?]
  | flush => simp [Lane.step, Lane.Input.packet?]

omit [Platform] in
theorem steps_received (limits : Limits) (l : Lane) (inputs : List Lane.Input) :
    (inputs.foldl (Lane.step limits) l).received = l.received ++ inputs.filterMap Lane.Input.packet? := by
  induction inputs generalizing l with
  | nil => simp
  | cons input rest ih =>
    rw [List.foldl_cons, ih, step_received, List.append_assoc, List.filterMap_cons]
    cases input.packet? <;> rfl

theorem laneOf_received (limits : Limits) (s : StreamId) (i : Interpreter) (events : List Event) :
    (laneOf limits s i events).received = packetsOf s i events := by
  rw [laneOf, steps_received]
  rfl

theorem packetsOf_cons (s : StreamId) (i : Interpreter) (event : Event) (rest : List Event) :
    packetsOf s i (event :: rest) =
      ((event.input? s i).bind Lane.Input.packet?).toList ++ packetsOf s (event.advance i) rest := by
  rw [packetsOf, trace, List.filterMap_append, packetsOf]
  cases event.input? s i with
  | none => rfl
  | some input =>
    rw [Option.bind_some, Option.toList_some, List.filterMap_cons]
    cases input.packet? <;> rfl

theorem packetsOf_append (s : StreamId) (i : Interpreter) (first second : List Event) :
    packetsOf s i (first ++ second) =
      packetsOf s i first ++ packetsOf s (Interpreter.run (datagrams first) i) second := by
  rw [packetsOf, trace_append, List.filterMap_append]
  rfl

theorem input?_packet (s : StreamId) (i : Interpreter) (raw : Bytes) (arrival : ℚ) :
    (((Event.datagram raw arrival).input? s i).bind Lane.Input.packet?).map (fun p => (p.metadata, p.data)) =
      (Interpreter.output raw i).bind (Record.dataOf? s) := by
  have outcome := Interpreter.processed raw i
  simp only [Event.input?]
  generalize Interpreter.output raw i = out at *
  generalize Interpreter.after raw i = i' at *
  cases outcome with
  | rejected => rfl
  | dropped => rfl
  | @context hdr ctx parsed kind admitted decoded =>
    by_cases own : hdr.streamId = s <;>
      simp [Record.metadata, Interpreter.metadata, Record.input?, Record.dataOf?, Lane.Input.packet?, own]
  | @data hdr ctx bytesPerSample numSamples body parsed kind tracked supported sized trimmed =>
    by_cases own : hdr.streamId = s
    · subst own
      simp [Record.metadata, Interpreter.metadata, Record.input?, Record.dataOf?, Lane.Input.packet?, tracked]
    · simp [Record.metadata, Interpreter.metadata, Record.dataOf?, own]

theorem packetsOf_records (s : StreamId) (i : Interpreter) (events : List Event) :
    (packetsOf s i events).map (fun p => (p.metadata, p.data)) =
      dataRecords s (Interpreter.outputs (datagrams events) i) := by
  induction events generalizing i with
  | nil => rfl
  | cons event rest ih =>
    rw [packetsOf_cons, List.map_append, ih]
    cases event with
    | datagram raw arrival =>
      have first := input?_packet s i raw arrival
      show _ = dataRecords s (Interpreter.output raw i :: Interpreter.outputs (datagrams rest) _)
      rw [dataRecords_cons, ← first]
      cases ((Event.datagram raw arrival).input? s i).bind Lane.Input.packet? <;> rfl
    | poll readings => rfl
    | flushAll => rfl

theorem mem_packetsOf {s : StreamId} {i : Interpreter} {events : List Event} {p : Packet}
    (member : p ∈ packetsOf s i events) :
    ∃ earlier raw later, events = earlier ++ .datagram raw p.arrival :: later ∧
      Interpreter.output raw (Interpreter.run (datagrams earlier) i) = some (.data p.metadata p.data) ∧
      p.metadata.streamId = s ∧
      (Interpreter.run (datagrams earlier) i).contexts.get? s = some p.context := by
  induction events generalizing i with
  | nil => cases member
  | cons event rest ih =>
    rw [packetsOf_cons] at member
    rcases List.mem_append.mp member with here | there
    · rw [Option.mem_toList, Option.bind_eq_some_iff] at here
      obtain ⟨input, given, packet⟩ := here
      cases input with
      | packet q =>
        cases packet
        cases event with
        | datagram raw arrival =>
          rw [Event.input?, Option.bind_eq_some_iff] at given
          obtain ⟨record, returned, own⟩ := given
          split at own
          · rename_i same
            cases record with
            | context md ctx => cases ctx <;> cases own
            | data md body =>
              obtain ⟨ctx, inForce, built⟩ := Option.map_eq_some_iff.mp own
              cases built
              exact ⟨[], raw, rest, rfl, returned, same, inForce⟩
          · cases own
        | poll readings => cases given
        | flushAll => cases given
      | adopt ctx => cases packet
      | poll now => cases packet
      | flush => cases packet
    · obtain ⟨earlier, raw, later, split, returned, own, inForce⟩ := ih there
      refine ⟨event :: earlier, raw, later, by rw [split, List.cons_append], ?_⟩
      cases event with
      | datagram raw' arrival =>
        rw [show datagrams (.datagram raw' arrival :: earlier) = raw' :: datagrams earlier from rfl,
          Interpreter.run_cons]
        exact ⟨returned, own, inForce⟩
      | poll readings => exact ⟨returned, own, inForce⟩
      | flushAll => exact ⟨returned, own, inForce⟩

theorem packetsOf_mem {s : StreamId} {i : Interpreter} {earlier later : List Event} {raw : Bytes} {arrival : ℚ}
    {md : Metadata} {body : Bytes} {ctx : Context}
    (returned : Interpreter.output raw (Interpreter.run (datagrams earlier) i) = some (.data md body))
    (own : md.streamId = s) (inForce : (Interpreter.run (datagrams earlier) i).contexts.get? s = some ctx) :
    ⟨md, body, arrival, ctx⟩ ∈ packetsOf s i (earlier ++ .datagram raw arrival :: later) := by
  rw [packetsOf_append, packetsOf_cons]
  apply List.mem_append_right
  apply List.mem_append_left
  simp [Event.input?, returned, Record.metadata, Record.input?, own, inForce, Lane.Input.packet?]

theorem contexts_latest (s : StreamId) (raws : List Bytes) (i : Interpreter) :
    (Interpreter.run raws i).contexts.get? s =
      (latestContext s (Interpreter.outputs raws i)).or (i.contexts.get? s) := by
  induction raws generalizing i with
  | nil => rfl
  | cons raw rest ih =>
    rw [Interpreter.run_cons, ih, Interpreter.outputs, latestContext, latestContext, List.filterMap_cons]
    have outcome := Interpreter.processed raw i
    generalize Interpreter.output raw i = out at *
    generalize Interpreter.after raw i = i' at *
    generalize (Interpreter.outputs rest i').filterMap _ = later
    cases outcome with
    | rejected => rfl
    | dropped => rfl
    | @context hdr ctx parsed kind admitted decoded =>
      dsimp only
      rw [OrderedDict.get?_insert]
      by_cases own : hdr.streamId = s
      · subst own
        simp [Record.contextOf?, Interpreter.metadata, List.getLast?_cons]
      · have other : s ≠ hdr.streamId := fun h => own h.symm
        simp [Record.contextOf?, Interpreter.metadata, own, other]
    | data => rfl

end Sceptre
