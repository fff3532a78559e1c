import Sceptre.Buffer.Accounts
import Sceptre.Runtime.Agreement
import Sceptre.Wire.Encoding

namespace Sceptre

open Foundation

def IngestBuffer.pendingUnit [Platform] (b : IngestBuffer) : Option EmitUnit :=
  if b.chunks = [] then none else b.convert.toOption.map b.unit

def openUnits [Platform] (entries : List (StreamId × IngestBuffer)) : List EmitUnit :=
  entries.filterMap fun e => e.2.pendingUnit

theorem dataRecords_append (s : StreamId) (first second : List (Option Record)) :
    dataRecords s (first ++ second) = dataRecords s first ++ dataRecords s second := List.filterMap_append ..

section

variable [Platform] {raises : Nat → Option Exn} {r : BufferRouter} {k : Consumer} {returned : List (Option Record)}
  {σ : Runtime}

structure Recorded (raises : Nat → Option Exn) (r : BufferRouter) (k : Consumer) (returned : List (Option Record)) :
    Prop where
  raises : k.raises = raises
  buffers : ∀ s b, r.buffers.get? s = some b → b.Valid ∧ b.streamId = s
  accounts : ∀ s, (r.bufferFor s).Accounts (unitsOf s k.sent) (dataRecords s returned)

theorem Recorded.initial (maxSamples : Int) (maxAgeS : ℚ) (flushFields : List ContextKey) (maxStreams : Int)
    (raises : Nat → Option Exn) :
    Recorded raises (.new maxSamples maxAgeS flushFields maxStreams) ⟨[], raises⟩ [] where
  raises := rfl
  buffers := by
    intro s b found
    cases found
  accounts := by
    intro s
    refine ⟨[], [], List.Forall₂.nil, ⟨rfl, ?_, rfl⟩, List.Sublist.refl []⟩
    intro r member
    cases member

theorem Recorded.later (recorded : Recorded raises r k returned) (more : List (Option Record)) :
    Recorded raises r k (returned ++ more) where
  raises := recorded.raises
  buffers := recorded.buffers
  accounts := fun s => by
    rw [dataRecords_append]
    exact (recorded.accounts s).later _

theorem Recorded.bufferFor (recorded : Recorded raises r k returned) (s : StreamId) :
    (r.bufferFor s).Valid ∧ (r.bufferFor s).streamId = s := by
  cases found : r.buffers.get? s with
  | some b =>
    rw [bufferFor_found found]
    exact recorded.buffers s b found
  | none =>
    rw [BufferRouter.bufferFor, found]
    exact ⟨.closed ⟨rfl, rfl, rfl, rfl, rfl, rfl, rfl⟩, rfl⟩

theorem Recorded.update (recorded : Recorded raises r k returned) {s : StreamId} {after : IngestBuffer × Consumer}
    {records : List (Metadata × Bytes)} {more : List (Option Record)}
    (keeps : IngestBuffer.Keeps records (r.bufferFor s, k) after)
    (own : dataRecords s more = records) (others : ∀ s', s' ≠ s → dataRecords s' more = []) :
    Recorded raises { r with buffers := r.buffers.insert s after.1 } after.2 (returned ++ more) := by
  have streamId := (recorded.bufferFor s).2
  obtain ⟨fresh, sent, tagged, accounts⟩ := keeps.sent
  refine ⟨keeps.raises.trans recorded.raises, ?_, ?_⟩
  · intro s' b found
    dsimp only at found
    rw [OrderedDict.get?_insert] at found
    split at found
    · rename_i same
      cases found
      exact ⟨keeps.valid, (keeps.streamId.trans streamId).trans same.symm⟩
    · exact recorded.buffers s' b found
  · intro s'
    rw [bufferFor_insert, sent, unitsOf_append, dataRecords_append]
    split
    · rename_i same
      subst same
      have all : unitsOf s' fresh = fresh :=
        List.filter_eq_self.mpr fun u member => decide_eq_true ((tagged u member).trans streamId)
      rw [all, own]
      exact accounts _ _ (recorded.accounts s')
    · rename_i other
      have nothing : unitsOf s' fresh = [] :=
        List.filter_eq_nil_iff.mpr fun u member chosen =>
          other ((of_decide_eq_true chosen).symm.trans ((tagged u member).trans streamId))
      rw [nothing, others s' other, List.append_nil, List.append_nil]
      exact recorded.accounts s'

theorem push_upholds {b : IngestBuffer} (valid : b.Valid) (record : Record) (now : ℚ) :
    IngestBuffer.Upholds b (IngestBuffer.push record now)
      (record.dataOf? record.metadata.streamId).toList (fun _ => True) := by
  cases record with
  | context md ctx => exact IngestBuffer.pushContext_upholds valid ctx
  | data md data =>
    have own : ((Record.data md data).dataOf? md.streamId).toList = [(md, data)] := by simp [Record.dataOf?]
    show IngestBuffer.Upholds b (IngestBuffer.pushData md data now)
      ((Record.data md data).dataOf? md.streamId).toList (fun _ => True)
    rw [own]
    exact IngestBuffer.pushData_upholds valid md data now

omit [Platform] in
theorem dataRecords_single (s : StreamId) (record : Record) :
    dataRecords s [some record] = (record.dataOf? s).toList := by
  rw [dataRecords_cons]
  simp [dataRecords]

theorem Recorded.push (recorded : Recorded raises r k returned) (record : Record) (now : ℚ) :
    Recorded raises (BufferRouter.push record now (r, k)).2.1 (BufferRouter.push record now (r, k)).2.2
      (returned ++ [some record]) := by
  unfold BufferRouter.push
  dsimp only
  split
  · have later := recorded.later [some record]
    exact ⟨later.raises, later.buffers, later.accounts⟩
  · refine recorded.update (push_upholds (recorded.bufferFor _).1 record now k).1 (dataRecords_single _ _) ?_
    intro s' other
    rw [dataRecords_single]
    cases record with
    | context md ctx => rfl
    | data md data =>
      have apart : ¬ md.streamId = s' := fun same => other same.symm
      simp [Record.dataOf?, apart]

theorem Recorded.forBuffers (recorded : Recorded raises r k returned) {body : IngestBuffer.Action Unit}
    (upholds : ∀ b, b.Valid → IngestBuffer.Upholds b body [] (fun _ => True)) :
    Recorded raises (BufferRouter.forBuffers body (r, k)).2.1 (BufferRouter.forBuffers body (r, k)).2.2 returned := by
  refine OrderedDict.forValues_invariant (fun d c => Recorded raises { r with buffers := d } c returned) r.buffers k
    recorded ?_
  intro d c s b holds found
  have keeps := (upholds b (holds.buffers s b found).1 c).1
  rw [← bufferFor_found (r := { r with buffers := d }) found] at keeps
  have updated := holds.update keeps (rfl : dataRecords s [] = []) fun _ _ => rfl
  rw [List.append_nil, bufferFor_found (r := { r with buffers := d }) found] at updated
  exact updated

def Event.outputs (event : Event) (i : Interpreter) : List (Option Record) :=
  Interpreter.outputs event.raw?.toList i

theorem outputs_events (event : Event) (rest : List Event) (i : Interpreter) :
    Interpreter.outputs (datagrams (event :: rest)) i =
      event.outputs i ++ Interpreter.outputs (datagrams rest) (event.advance i) := by
  cases event <;> rfl

theorem Recorded.handle (recorded : Recorded raises σ.router σ.consumer returned) (event : Event) :
    Recorded raises (Runtime.handle event σ).2.router (Runtime.handle event σ).2.consumer
        (returned ++ event.outputs σ.interpreter) ∧
      (Runtime.handle event σ).2.interpreter = event.advance σ.interpreter := by
  cases event with
  | datagram raw arrival =>
    rw [Runtime.handle, Method.bind_returns (process_returns raw σ), Event.outputs]
    change Recorded raises _ _ (returned ++ [Interpreter.output raw σ.interpreter]) ∧ _
    cases Interpreter.output raw σ.interpreter with
    | none => exact ⟨recorded.later [none], rfl⟩
    | some record => exact ⟨recorded.push record arrival, rfl⟩
  | poll readings =>
    refine ⟨?_, rfl⟩
    show Recorded raises _ _ (returned ++ [])
    rw [List.append_nil]
    exact recorded.forBuffers fun b valid k => IngestBuffer.maybeFlushOnAge_upholds valid _ k
  | flushAll =>
    refine ⟨?_, rfl⟩
    show Recorded raises _ _ (returned ++ [])
    rw [List.append_nil]
    exact recorded.forBuffers fun b valid => (IngestBuffer.flush_upholds valid).weaken fun _ _ => trivial

theorem Recorded.drive (recorded : Recorded raises σ.router σ.consumer returned) (events : List Event) :
    Recorded raises (Runtime.drive events σ).2.router (Runtime.drive events σ).2.consumer
      (returned ++ Interpreter.outputs (datagrams events) σ.interpreter) := by
  induction events generalizing σ returned with
  | nil => exact recorded.later []
  | cons event rest ih =>
    obtain ⟨handled, interpreter⟩ := recorded.handle event
    rw [outputs_events, ← List.append_assoc, Runtime.drive, Method.bind_run]
    cases ran : Runtime.handle event σ with
    | mk result σ' =>
      rw [ran] at handled interpreter
      cases result with
      | error e => exact handled.later _
      | ok _ =>
        rw [← interpreter]
        exact ih handled

theorem openUnits_none {s : StreamId} {b : IngestBuffer} {rest : List (StreamId × IngestBuffer)}
    (nothing : b.pendingUnit = none) : openUnits ((s, b) :: rest) = openUnits rest :=
  List.filterMap_cons_none nothing

theorem openUnits_some {s : StreamId} {b : IngestBuffer} {rest : List (StreamId × IngestBuffer)} {u : EmitUnit}
    (pending : b.pendingUnit = some u) : openUnits ((s, b) :: rest) = u :: openUnits rest :=
  List.filterMap_cons_some pending

/-- The final drain passes the open windows to the consumer in turn, up to the first call that raises. -/
theorem drain (entries : List (StreamId × IngestBuffer)) (k : Consumer) (valid : ∀ e ∈ entries, e.2.Valid) :
    ∃ m, m ≤ (openUnits entries).length ∧
      (OrderedDict.forEntries IngestBuffer.flush entries k).2.2.sent =
        k.sent ++ (openUnits entries).take m ∧
      (∀ n, n + 1 < m → k.raises (k.sent.length + n) = none) ∧
      (m < (openUnits entries).length →
        ∃ n, m = n + 1 ∧ k.raises (k.sent.length + n) ≠ none) := by
  induction entries generalizing k with
  | nil => exact ⟨0, Nat.le_refl _, (List.append_nil _).symm, nofun, nofun⟩
  | cons entry rest ih =>
    obtain ⟨s, b⟩ := entry
    have later : ∀ e ∈ rest, e.2.Valid := fun e member => valid e (List.mem_cons_of_mem _ member)
    cases valid (s, b) (List.mem_cons_self ..) with
    | closed empty =>
      have nothing : b.pendingUnit = none := if_pos empty.chunks
      have returned : IngestBuffer.flush (b, k) = (.ok (), b, k) := if_pos empty.chunks
      rw [openUnits_none nothing, OrderedDict.forEntries, returned]
      exact ih k later
    | opened window =>
      obtain ⟨samples, converted, -⟩ := window.convert
      have pending : b.pendingUnit = some (b.unit samples) := by
        rw [IngestBuffer.pendingUnit, if_neg window.nonempty, converted]
        rfl
      have flushed : IngestBuffer.flush (b, k) =
          ((k.raises k.sent.length).elim (.ok ()) .error, b.reset, { k with sent := k.sent ++ [b.unit samples] }) := by
        rw [IngestBuffer.flush, if_neg window.nonempty, converted]
        rfl
      rw [openUnits_some pending, OrderedDict.forEntries, flushed]
      cases raised : k.raises k.sent.length with
      | some e =>
        refine ⟨1, by simp, rfl, ?_, ?_⟩
        · intro n few
          omega
        · intro _
          exact ⟨0, rfl, by simp [raised]⟩
      | none =>
        obtain ⟨m, most, sent, quiet, stopped⟩ := ih { k with sent := k.sent ++ [b.unit samples] } later
        refine ⟨m + 1, Nat.succ_le_succ most, ?_, ?_, ?_⟩
        · rw [List.take_succ_cons]
          exact sent.trans (List.append_assoc ..)
        · intro n few
          cases n with
          | zero => exact raised
          | succ n =>
            have next := quiet n (by omega)
            rw [List.length_append, List.length_singleton, Nat.add_right_comm] at next
            exact next
        · intro more
          rw [List.length_cons] at more
          obtain ⟨n, rfl, raises⟩ := stopped (by omega)
          rw [List.length_append, List.length_singleton, Nat.add_right_comm] at raises
          exact ⟨n + 1, rfl, raises⟩

theorem pendingUnit_streamId {b : IngestBuffer} {u : EmitUnit} (pending : b.pendingUnit = some u) :
    u.streamId = b.streamId := by
  unfold IngestBuffer.pendingUnit at pending
  split at pending
  · cases pending
  · obtain ⟨samples, -, rfl⟩ := Option.map_eq_some_iff.mp pending
    rfl

theorem pendingUnit_opened {b : IngestBuffer} (valid : b.Valid) (opened : b.chunks ≠ []) :
    ∃ u, b.pendingUnit = some u := by
  cases valid with
  | closed empty => exact absurd empty.chunks opened
  | opened window =>
    obtain ⟨samples, converted, -⟩ := window.convert
    refine ⟨b.unit samples, ?_⟩
    rw [IngestBuffer.pendingUnit, if_neg opened, converted]
    rfl

theorem Recorded.owed (recorded : Recorded raises r k returned) {s : StreamId} {b : IngestBuffer} {u : EmitUnit}
    (found : r.buffers.get? s = some b) (pending : b.pendingUnit = some u) :
    unitsOf s (openUnits r.buffers.entries) = [u] := by
  have own := OrderedDict.filter_contributions r.buffers (fun b => b.pendingUnit.toList) EmitUnit.streamId
    (fun e member u inside => by
      have tracked := recorded.buffers e.1 e.2 (r.buffers.get?_of_mem member)
      exact (pendingUnit_streamId (Option.mem_toList.mp inside)).trans tracked.2) s
  rw [found, Option.elim_some, pending] at own
  rw [unitsOf, openUnits, List.filterMap_eq_flatMap_toList]
  exact own

namespace Pipeline

/-- `run` leaves its `finally` block with the source stopped, however the loop and the final flush ended. -/
theorem run_left (ticks : List Tick) (σ : Runtime) :
    (run ticks σ).2 = { (Runtime.flushAll (loop ticks σ).2).2 with sourceStopped := true } := by
  have inner : (Method.ensure Runtime.flushAll stopSource (loop ticks σ).2).2 =
      { (Runtime.flushAll (loop ticks σ).2).2 with sourceStopped := true } := by
    rw [Method.ensure_run]
    rfl
  rw [run, ← inner, Method.ensure_run]
  cases Method.ensure Runtime.flushAll stopSource (loop ticks σ).2 with
  | mk result left => cases result <;> rfl

/-- What `run` owes when it leaves its `finally` block: every window open when the loop ended was passed to the
    consumer once, no window was passed twice, and the source is stopped. -/
structure FinalFlush (ticks : List Tick) (start : Runtime) : Prop where
  reached : ∀ s b, (loop ticks start).2.router.buffers.get? s = some b → b.chunks ≠ [] →
    ∃ u, b.pendingUnit = some u ∧
      unitsOf s ((run ticks start).2.consumer.sent.drop (loop ticks start).2.consumer.sent.length) = [u]
  once : ∀ s, EmittedOnce (unitsOf s (run ticks start).2.consumer.sent)
    (dataRecords s (Interpreter.outputs (dequeued ticks) start.interpreter))
  stopped : (run ticks start).2.sourceStopped = true

theorem run_once (recorded : Recorded raises σ.router σ.consumer []) (ticks : List Tick) (s : StreamId) :
    EmittedOnce (unitsOf s (run ticks σ).2.consumer.sent)
      (dataRecords s (Interpreter.outputs (dequeued ticks) σ.interpreter)) := by
  have looped := recorded.drive (calls ticks)
  rw [← loop_eq_drive] at looped
  have flushed := (looped.handle .flushAll).1
  have accounts := (flushed.accounts s).emittedOnce
  rw [run_left]
  change EmittedOnce _ (dataRecords s (([] ++ Interpreter.outputs (dequeued ticks) σ.interpreter) ++ [])) at accounts
  rwa [List.append_nil, List.nil_append] at accounts

theorem reached_iff (recorded : Recorded raises σ.router σ.consumer returned) :
    (∀ s b, σ.router.buffers.get? s = some b → b.chunks ≠ [] → ∃ u, b.pendingUnit = some u ∧
        unitsOf s ((Runtime.flushAll σ).2.consumer.sent.drop σ.consumer.sent.length) = [u]) ↔
      ∀ n, n + 1 < (openUnits σ.router.buffers.entries).length →
        raises (σ.consumer.sent.length + n) = none := by
  have valid : ∀ e ∈ σ.router.buffers.entries, e.2.Valid := fun e member =>
    (recorded.buffers e.1 e.2 (σ.router.buffers.get?_of_mem member)).1
  obtain ⟨m, most, sent, quiet, stopped⟩ := drain σ.router.buffers.entries σ.consumer valid
  rw [recorded.raises] at quiet stopped
  have left : (Runtime.flushAll σ).2.consumer.sent.drop σ.consumer.sent.length =
      (openUnits σ.router.buffers.entries).take m := by
    show (OrderedDict.forEntries IngestBuffer.flush σ.router.buffers.entries σ.consumer).2.2.sent.drop _ = _
    rw [sent, List.drop_left]
  rw [left]
  constructor
  · intro reached n few
    rcases Nat.lt_or_ge m (openUnits σ.router.buffers.entries).length with cut | whole
    · -- the unit after the last one passed on is of a stream that got none
      have split : openUnits σ.router.buffers.entries = (openUnits σ.router.buffers.entries).take m ++
          (openUnits σ.router.buffers.entries)[m] :: (openUnits σ.router.buffers.entries).drop (m + 1) := by
        rw [← List.drop_eq_getElem_cons cut, List.take_append_drop]
      obtain ⟨e, member, pending⟩ := List.mem_filterMap.mp (List.getElem_mem cut)
      generalize (openUnits σ.router.buffers.entries)[m] = next at split pending
      have found := σ.router.buffers.get?_of_mem member
      have opened : e.2.chunks ≠ [] := by
        intro closed
        rw [IngestBuffer.pendingUnit, if_pos closed] at pending
        cases pending
      obtain ⟨u, -, got⟩ := reached e.1 e.2 found opened
      have own : next.streamId = e.1 := (pendingUnit_streamId pending).trans (recorded.buffers e.1 e.2 found).2
      have all := recorded.owed found pending
      rw [split, unitsOf_append, got, unitsOf, List.filter_cons, if_pos (decide_eq_true own)] at all
      cases all
    · exact quiet n (by omega)
  · intro silent s b found opened
    have whole : m = (openUnits σ.router.buffers.entries).length := by
      by_contra short
      obtain ⟨n, rfl, raised⟩ := stopped (by omega)
      exact raised (silent n (by omega))
    obtain ⟨u, pending⟩ := pendingUnit_opened (recorded.buffers s b found).1 opened
    rw [whole, List.take_length]
    exact ⟨u, pending, recorded.owed found pending⟩

/-- The final flush keeps its promise in exactly those runs whose consumer raises at no call of the drain but, at
    most, the one for the last open window. -/
theorem final_flush_iff (i : Interpreter) (maxSamples : Int) (maxAgeS : ℚ) (flushFields : List ContextKey)
    (maxStreams : Int) (raises : Nat → Option Exn) (ticks : List Tick) :
    let start : Runtime := ⟨i, .new maxSamples maxAgeS flushFields maxStreams, ⟨[], raises⟩, false⟩
    let ended := (loop ticks start).2
    FinalFlush ticks start ↔ ∀ n, n + 1 < (openUnits ended.router.buffers.entries).length →
      raises (ended.consumer.sent.length + n) = none := by
  intro start ended
  have initial : Recorded raises start.router start.consumer [] :=
    .initial maxSamples maxAgeS flushFields maxStreams raises
  have looped := initial.drive (calls ticks)
  rw [← loop_eq_drive] at looped
  have left : (run ticks start).2.consumer = (Runtime.flushAll ended).2.consumer := by rw [run_left]
  constructor
  · intro final
    have reached := final.reached
    rw [left] at reached
    exact (reached_iff looped).mp reached
  · intro silent
    refine ⟨?_, run_once initial ticks, by rw [run_left]⟩
    rw [left]
    exact (reached_iff looped).mpr silent

end Pipeline

end

namespace Pipeline

open Exact

def openStream (streamId : Nat) : List Tick :=
  [buildContextPacket (standardContextFields 2 97 4 (encodePayloadFormatU64 0b00 0b00000 16 16))
    { streamId := streamId }, buildDataPacket [1, 2, 3, 4, 5, 6, 7, 8] { streamId := streamId }].map fun raw =>
    ⟨.item raw, 0, fun _ => 0⟩

def twoStreams : List Tick := openStream 1 ++ openStream 2 ++ [⟨.shutdown, 0, fun _ => 0⟩]

/-- The consumer raises at its first call, the final flush of stream 1: stream 2's window is lost. -/
theorem final_flush_stops_short :
    let start : Runtime := ⟨.new 256, .new 100 10 defaultFlushFields 256,
      ⟨[], fun call => if call = 0 then some (.consumer 0) else none⟩, false⟩
    ((loop twoStreams start).2.router.buffers.get? (some 2)).any (fun b => b.chunks ≠ []) = true ∧
      unitsOf (some 2) (run twoStreams start).2.consumer.sent = [] ∧ ¬ FinalFlush twoStreams start := by
  intro start
  have opened : ((loop twoStreams start).2.router.buffers.get? (some 2)).any (fun b => b.chunks ≠ []) = true := by
    decide +kernel
  have silent : unitsOf (some 2) (run twoStreams start).2.consumer.sent = [] := by decide +kernel
  have lost : unitsOf (some 2)
      ((run twoStreams start).2.consumer.sent.drop (loop twoStreams start).2.consumer.sent.length) = [] := by
    decide +kernel
  refine ⟨opened, silent, ?_⟩
  intro final
  obtain ⟨b, found, nonempty⟩ := (Option.any_eq_true _ _).mp opened
  obtain ⟨u, -, got⟩ := final.reached (some 2) b found (of_decide_eq_true nonempty)
  rw [lost] at got
  cases got

end Pipeline

end Sceptre
