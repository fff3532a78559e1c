import Mathlib.Data.List.Dedup
import Mathlib.Data.List.Perm.Subperm
import Sceptre.Foundation.Unwinding
import Sceptre.Interpreter.Slots
import Sceptre.Runtime.Records

namespace Sceptre

open Foundation

inductive Seen where
  | datagram (raw : Bytes) (arrival : ℚ)
  | poll (now : ℚ)
  | flush
  deriving DecidableEq

/-- Datagrams of other streams and garbage are not seen, nor are the other streams' clock readings. -/
def Event.view (s : StreamId) : Event → Option Seen
  | .datagram raw arrival => if concerns s raw then some (.datagram raw arrival) else none
  | .poll readings => some (.poll (readings s))
  | .flushAll => some .flush

def recordsOf (s : StreamId) (returned : List (Option Record)) : List Record :=
  returned.filterMap fun record => record.filter fun r => r.metadata.streamId = s

variable [Platform]

def decodedStreams (raws : List Bytes) : List StreamId := (raws.filterMap decodedStream?).dedup

def Event.record? (s : StreamId) (i : Interpreter) (event : Event) : Option Record :=
  event.raw?.bind fun raw => (Interpreter.output raw i).filter fun r => r.metadata.streamId = s

variable {s : StreamId} {Open : Interpreter → Prop} {Allowed : Event → Prop}

theorem advance_run (events : List Event) (i : Interpreter) :
    events.foldl (fun i event => event.advance i) i = Interpreter.run (datagrams events) i := by
  induction events generalizing i with
  | nil => rfl
  | cons event rest ih =>
    rw [List.foldl_cons, ih]
    cases event with
    | datagram raw arrival => exact (Interpreter.run_cons ..).symm
    | poll readings => rfl
    | flushAll => rfl

theorem trace_eq_observe (s : StreamId) (i : Interpreter) (events : List Event) :
    trace s i events =
      observe (fun i event => event.advance i) (fun i event => (event.input? s i).toList) i events := by
  induction events generalizing i with
  | nil => rfl
  | cons event rest ih => rw [trace, observe, ih]

theorem recordsOf_eq_observe (s : StreamId) (i : Interpreter) (events : List Event) :
    recordsOf s (Interpreter.outputs (datagrams events) i) =
      observe (fun i event => event.advance i) (fun i event => (event.record? s i).toList) i events := by
  induction events generalizing i with
  | nil => rfl
  | cons event rest ih =>
    rw [observe, ← ih]
    cases event with
    | datagram raw arrival =>
      show recordsOf s (Interpreter.output raw i :: Interpreter.outputs (datagrams rest) _) = _
      rw [recordsOf, List.filterMap_cons]
      show _ = ((Interpreter.output raw i).filter _).toList ++ _
      cases (Interpreter.output raw i).filter fun r => r.metadata.streamId = s <;> rfl
    | poll readings => rfl
    | flushAll => rfl

structure Agree (s : StreamId) (Open : Interpreter → Prop) (i j : Interpreter) : Prop where
  same : Interpreter.SameSlot s i j
  left : Open i
  right : Open j

structure KeepsRoom (s : StreamId) (Allowed : Event → Prop) (Open : Interpreter → Prop) : Prop where
  kept : ∀ i event, Open i → Allowed event → Open (event.advance i)
  room : ∀ i raw arrival, Open i → Allowed (.datagram raw arrival) → decodedStream? raw = some s →
    Interpreter.Room s i

omit [Platform] in
theorem view_datagram {raw : Bytes} {arrival : ℚ} {v : Seen}
    (seen : (Event.datagram raw arrival).view s = some v) : concerns s raw = true ∧ v = .datagram raw arrival := by
  simp only [Event.view] at seen
  split at seen
  · rename_i own
    exact ⟨own, (Option.some.inj seen).symm⟩
  · cases seen

theorem unseen_outputs {i : Interpreter} {event : Event} (unseen : event.view s = none) :
    event.input? s i = none ∧ event.record? s i = none ∧ Interpreter.SameSlot s (event.advance i) i := by
  cases event with
  | datagram raw arrival =>
    have other : concerns s raw = false := by
      simp only [Event.view] at unseen
      split at unseen
      · cases unseen
      · rename_i foreign
        exact Bool.eq_false_iff.mpr foreign
    obtain ⟨foreign, slot⟩ := Interpreter.after_other (i := i) other
    refine ⟨?_, ?_, slot⟩
    · show ((Interpreter.output raw i).bind _) = none
      cases returned : Interpreter.output raw i with
      | none => rfl
      | some record => exact if_neg (foreign record returned)
    · show (Interpreter.output raw i).filter _ = none
      cases returned : Interpreter.output raw i with
      | none => rfl
      | some record => simp [foreign record returned]
  | poll readings => cases unseen
  | flushAll => cases unseen

theorem seen_outputs {i j : Interpreter} {event event' : Event} {v : Seen} (keeps : KeepsRoom s Allowed Open)
    (agree : Agree s Open i j) (allowed : Allowed event) (allowed' : Allowed event')
    (seen : event.view s = some v) (seen' : event'.view s = some v) :
    event.input? s i = event'.input? s j ∧ event.record? s i = event'.record? s j ∧
      Interpreter.SameSlot s (event.advance i) (event'.advance j) := by
  cases event with
  | datagram raw arrival =>
    obtain ⟨own, rfl⟩ := view_datagram seen
    cases event' with
    | datagram raw' arrival' =>
      obtain ⟨-, alike⟩ := view_datagram seen'
      cases alike
      obtain ⟨out, slot⟩ := Interpreter.after_own own agree.same fun decodes =>
        ⟨keeps.room i raw arrival agree.left allowed decodes, keeps.room j raw arrival agree.right allowed' decodes⟩
      refine ⟨?_, ?_, slot⟩
      · simp only [Event.input?, out, agree.same.context]
      · simp only [Event.record?, Event.raw?, Option.bind_some, out]
    | poll readings => cases seen'
    | flushAll => cases seen'
  | poll readings =>
    cases seen
    cases event' with
    | datagram raw arrival => cases (view_datagram seen').2
    | poll readings' =>
      have alike : readings s = readings' s := by
        have same := Option.some.inj seen'
        cases h : readings' s
        rw [h] at same
        injection same with now
        exact now.symm
      exact ⟨congrArg (fun now => some (Lane.Input.poll now)) alike, rfl, agree.same⟩
    | flushAll => cases seen'
  | flushAll =>
    cases seen
    cases event' with
    | datagram raw arrival => cases (view_datagram seen').2
    | poll readings => cases seen'
    | flushAll => exact ⟨rfl, rfl, agree.same⟩

theorem KeepsRoom.runs (keeps : KeepsRoom s Allowed Open) {i j : Interpreter} (agree : Agree s Open i j)
    {events events' : List Event} (allowed : ∀ event ∈ events, Allowed event)
    (allowed' : ∀ event ∈ events', Allowed event)
    (alike : events.filterMap (Event.view s) = events'.filterMap (Event.view s)) :
    recordsOf s (Interpreter.outputs (datagrams events) i) = recordsOf s (Interpreter.outputs (datagrams events') j) ∧
      trace s i events = trace s j events' ∧
      Interpreter.SameSlot s (Interpreter.run (datagrams events) i) (Interpreter.run (datagrams events') j) := by
  have symm : ∀ i j, Agree s Open i j → Agree s Open j i :=
    fun i j agree => ⟨agree.same.symm, agree.right, agree.left⟩
  have silent : ∀ i j event, Agree s Open i j → Allowed event → event.view s = none →
      Agree s Open (event.advance i) j := by
    intro i j event agree allowed unseen
    obtain ⟨-, -, slot⟩ := unseen_outputs (i := i) unseen
    exact ⟨⟨slot.context.trans agree.same.context, slot.counter.trans agree.same.counter⟩,
      keeps.kept i event agree.left allowed, agree.right⟩
  have visible : ∀ i j event event' v, Agree s Open i j → Allowed event → Allowed event' →
      event.view s = some v → event'.view s = some v →
      Agree s Open (event.advance i) (event'.advance j) := by
    intro i j event event' v agree allowed allowed' seen seen'
    obtain ⟨-, -, slot⟩ := seen_outputs keeps agree allowed allowed' seen seen'
    exact ⟨slot, keeps.kept i event agree.left allowed, keeps.kept j event' agree.right allowed'⟩
  have records : Unwinding (fun i event => event.advance i) (fun i event => (event.record? s i).toList)
      (Event.view s) Allowed (Agree s Open) :=
    ⟨symm, fun i j event agree allowed unseen =>
      ⟨by rw [(unseen_outputs (i := i) unseen).2.1, Option.toList_none], silent i j event agree allowed unseen⟩,
    fun i j event event' v agree allowed allowed' seen seen' =>
      ⟨by rw [(seen_outputs keeps agree allowed allowed' seen seen').2.1],
        visible i j event event' v agree allowed allowed' seen seen'⟩⟩
  have inputs : Unwinding (fun i event => event.advance i) (fun i event => (event.input? s i).toList)
      (Event.view s) Allowed (Agree s Open) :=
    ⟨symm, fun i j event agree allowed unseen =>
      ⟨by rw [(unseen_outputs (i := i) unseen).1, Option.toList_none], silent i j event agree allowed unseen⟩,
    fun i j event event' v agree allowed allowed' seen seen' =>
      ⟨by rw [(seen_outputs keeps agree allowed allowed' seen seen').1],
        visible i j event event' v agree allowed allowed' seen seen'⟩⟩
  obtain ⟨sameRecords, final⟩ := records.runs agree allowed allowed' alike
  obtain ⟨sameInputs, -⟩ := inputs.runs agree allowed allowed' alike
  rw [advance_run, advance_run] at final
  rw [recordsOf_eq_observe, recordsOf_eq_observe, trace_eq_observe, trace_eq_observe]
  exact ⟨sameRecords, sameInputs, final.same⟩

theorem keepsRoom_tracked (s : StreamId) : KeepsRoom s (fun _ => True) fun i => s ∈ i.contexts.keys where
  kept := by
    intro i event tracked _
    cases event with
    | datagram raw arrival =>
      have kept := Interpreter.tracked_kept tracked [raw]
      rwa [Interpreter.run_cons, Interpreter.run_nil] at kept
    | poll readings => exact tracked
    | flushAll => exact tracked
  room := fun _ _ _ tracked _ _ => .inl tracked

theorem keepsRoom_capped (s : StreamId) {maxStreams : Int} {streams : List StreamId}
    (capped : (streams.length : Int) ≤ maxStreams) :
    KeepsRoom s (fun event => ∀ raw, event.raw? = some raw → ∀ t, decodedStream? raw = some t → t ∈ streams)
      fun i => i.maxStreams = maxStreams ∧ ∀ t ∈ i.contexts.keys, t ∈ streams where
  kept := by
    rintro i event ⟨bound, listed⟩ allowed
    cases event with
    | datagram raw arrival =>
      have outcome := Interpreter.processed raw i
      show (Interpreter.after raw i).maxStreams = maxStreams ∧ _
      generalize Interpreter.output raw i = out at outcome
      generalize same : Interpreter.after raw i = i' at outcome
      show i'.maxStreams = maxStreams ∧ ∀ t ∈ (Interpreter.after raw i).contexts.keys, t ∈ streams
      rw [same]
      cases outcome with
      | @context hdr ctx parsed kind admitted decoded =>
        refine ⟨bound, fun t member => ?_⟩
        rcases (OrderedDict.mem_keys_insert ..).mp member with rfl | earlier
        · exact allowed raw rfl _ (by simp [decodedStream?, parsed, kind, decoded, Except.toOption])
        · exact listed t earlier
      | rejected => exact ⟨bound, listed⟩
      | dropped => exact ⟨bound, listed⟩
      | data => exact ⟨bound, listed⟩
    | poll readings => exact ⟨bound, listed⟩
    | flushAll => exact ⟨bound, listed⟩
  room := by
    rintro i raw arrival ⟨bound, listed⟩ allowed decodes
    by_cases tracked : s ∈ i.contexts.keys
    · exact .inl tracked
    · have distinct : (s :: i.contexts.keys).Nodup := List.nodup_cons.mpr ⟨tracked, i.contexts.keys_nodup⟩
      have inside : s :: i.contexts.keys ⊆ streams :=
        List.cons_subset.mpr ⟨allowed raw rfl s decodes, listed⟩
      have fits := (List.subperm_of_subset distinct inside).length_le
      rw [List.length_cons, ← OrderedDict.size_eq] at fits
      exact .inr (by omega)

def Indistinguishable (maxStreams maxSamples : Int) (maxAgeS : ℚ) (s : StreamId) (events events' : List Event) :
    Prop :=
  ∃ σ σ', Runtime.drive events (buildRuntime maxStreams maxSamples maxAgeS .quiet) = (.ok (), σ) ∧
    Runtime.drive events' (buildRuntime maxStreams maxSamples maxAgeS .quiet) = (.ok (), σ') ∧
    recordsOf s (Interpreter.outputs (datagrams events) (Interpreter.new maxStreams)) =
      recordsOf s (Interpreter.outputs (datagrams events') (Interpreter.new maxStreams)) ∧
    σ.interpreter.contexts.get? s = σ'.interpreter.contexts.get? s ∧
    σ.interpreter.lastCounter.get? s = σ'.interpreter.lastCounter.get? s ∧
    unitsOf s σ.consumer.sent = unitsOf s σ'.consumer.sent

theorem Indistinguishable.of_trace {maxStreams maxSamples : Int} {maxAgeS : ℚ} {events events' : List Event}
    (records : recordsOf s (Interpreter.outputs (datagrams events) (Interpreter.new maxStreams)) =
      recordsOf s (Interpreter.outputs (datagrams events') (Interpreter.new maxStreams)))
    (inputs : trace s (Interpreter.new maxStreams) events = trace s (Interpreter.new maxStreams) events')
    (slot : Interpreter.SameSlot s (Interpreter.run (datagrams events) (Interpreter.new maxStreams))
      (Interpreter.run (datagrams events') (Interpreter.new maxStreams))) :
    Indistinguishable maxStreams maxSamples maxAgeS s events events' := by
  obtain ⟨σ, returned, interpreter, wired⟩ := driven ⟨maxSamples, maxAgeS⟩ maxStreams events
  obtain ⟨σ', returned', interpreter', wired'⟩ := driven ⟨maxSamples, maxAgeS⟩ maxStreams events'
  refine ⟨σ, σ', returned, returned', records, ?_, ?_, ?_⟩
  · rw [interpreter, interpreter', slot.context]
  · rw [interpreter, interpreter', slot.counter]
  · rw [wired.emitted, wired'.emitted, laneOf, laneOf, inputs]

/-- Streams are isolated: once a stream has its slot, datagrams that do not concern it change nothing of it,
    and while every stream can have a slot, each one is handled as if it came alone. -/
theorem streams_isolated (maxStreams maxSamples : Int) (maxAgeS : ℚ) (s : StreamId) :
    (∀ earlier events events' : List Event,
      s ∈ (Interpreter.run (datagrams earlier) (Interpreter.new maxStreams)).contexts.keys →
      events.filterMap (Event.view s) = events'.filterMap (Event.view s) →
      Indistinguishable maxStreams maxSamples maxAgeS s (earlier ++ events) (earlier ++ events')) ∧
    ∀ events : List Event, ((decodedStreams (datagrams events)).length : Int) ≤ maxStreams →
      Indistinguishable maxStreams maxSamples maxAgeS s events
        (events.filter fun event => (event.view s).isSome) := by
  constructor
  · intro earlier events events' tracked alike
    obtain ⟨records, inputs, slot⟩ := (keepsRoom_tracked s).runs ⟨⟨rfl, rfl⟩, tracked, tracked⟩
      (fun _ _ => trivial) (fun _ _ => trivial) alike
    refine .of_trace ?_ ?_ ?_
    · rw [datagrams_append, datagrams_append, Interpreter.outputs_append, Interpreter.outputs_append, recordsOf,
        recordsOf, List.filterMap_append, List.filterMap_append]
      exact congrArg _ records
    · rw [trace_append, trace_append, inputs]
    · rw [datagrams_append, datagrams_append, Interpreter.run_append, Interpreter.run_append]
      exact slot
  · intro events capped
    have listed : ∀ event ∈ events, ∀ raw, event.raw? = some raw → ∀ t, decodedStream? raw = some t →
        t ∈ decodedStreams (datagrams events) := by
      intro event member raw bytes t decodes
      exact List.mem_dedup.mpr (List.mem_filterMap.mpr
        ⟨raw, List.mem_filterMap.mpr ⟨event, member, bytes⟩, decodes⟩)
    have fresh : Agree s (fun i => i.maxStreams = maxStreams ∧
        ∀ t ∈ i.contexts.keys, t ∈ decodedStreams (datagrams events))
        (Interpreter.new maxStreams) (Interpreter.new maxStreams) :=
      ⟨⟨rfl, rfl⟩, ⟨rfl, fun t member => by cases member⟩, ⟨rfl, fun t member => by cases member⟩⟩
    have alike : events.filterMap (Event.view s) =
        (events.filter fun event => (event.view s).isSome).filterMap (Event.view s) := by
      rw [List.filterMap_filter]
      refine List.filterMap_congr fun event _ => ?_
      cases event.view s <;> rfl
    obtain ⟨records, inputs, slot⟩ := (keepsRoom_capped s capped).runs fresh listed
      (fun event member => listed event (List.mem_of_mem_filter member)) alike
    exact .of_trace records inputs slot

end Sceptre
