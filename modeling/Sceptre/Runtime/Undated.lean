import Sceptre.Buffer.Undated
import Sceptre.Runtime.Agreement

namespace Sceptre

open Foundation Method

structure BufferRouter.Same (r r' : BufferRouter) : Prop where
  maxSamples : r.maxSamples = r'.maxSamples
  maxAgeS : r.maxAgeS = r'.maxAgeS
  flushFields : r.flushFields = r'.flushFields
  maxStreams : r.maxStreams = r'.maxStreams
  dropped : r.dropped = r'.dropped
  buffers : OrderedDict.Alike Undated r.buffers.entries r'.buffers.entries

namespace BufferRouter

variable {r r' : BufferRouter}

theorem Same.refl (r : BufferRouter) : r.Same r :=
  ⟨rfl, rfl, rfl, rfl, rfl, List.forall₂_same.mpr fun e _ => ⟨rfl, .refl e.2⟩⟩

theorem Same.bufferFor (same : r.Same r') (s : StreamId) : Undated (r.bufferFor s) (r'.bufferFor s) := by
  unfold BufferRouter.bufferFor
  rcases same.buffers.get? s with ⟨absent, absent'⟩ | ⟨b, b', found, found', undated⟩
  · rw [absent, absent', same.maxSamples, same.maxAgeS, same.flushFields]
    exact .refl _
  · rw [found, found']
    exact undated

theorem Same.insert (same : r.Same r') (s : StreamId) {b b' : IngestBuffer} (undated : Undated b b') :
    BufferRouter.Same { r with buffers := r.buffers.insert s b } { r' with buffers := r'.buffers.insert s b' } :=
  { same with buffers := same.buffers.assign s undated }

variable [Platform]

theorem push_alike (record : Record) (now now' : ℚ) :
    Alike (fun s t => s.1.Same t.1 ∧ s.2 = t.2) (BufferRouter.push record now) (BufferRouter.push record now') := by
  intro s t related
  obtain ⟨r, k⟩ := s
  obtain ⟨r', k'⟩ := t
  obtain ⟨same, consumers⟩ := related
  dsimp only at same consumers
  subst consumers
  have keys : r.buffers.keys = r'.buffers.keys := same.buffers.keys
  have size : r.buffers.size = r'.buffers.size := by rw [OrderedDict.size_eq, OrderedDict.size_eq, keys]
  have alike : (record.metadata.streamId ∉ r.buffers.keys ∧ (r.buffers.size : Int) ≥ r.maxStreams) ↔
      (record.metadata.streamId ∉ r'.buffers.keys ∧ (r'.buffers.size : Int) ≥ r'.maxStreams) := by
    rw [keys, size, same.maxStreams]
  unfold AlikeAt BufferRouter.push
  dsimp only
  by_cases flood : record.metadata.streamId ∉ r.buffers.keys ∧ (r.buffers.size : Int) ≥ r.maxStreams
  · rw [if_pos flood, if_pos (alike.mp flood)]
    exact ⟨rfl, { same with dropped := congrArg (· + 1) same.dropped }, rfl⟩
  · rw [if_neg flood, if_neg fun other => flood (alike.mpr other)]
    obtain ⟨result, undated, consumers⟩ := IngestBuffer.push_alike record now now'
      (r.bufferFor record.metadata.streamId, k) (r'.bufferFor record.metadata.streamId, k) ⟨same.bufferFor _, rfl⟩
    exact ⟨result, same.insert _ undated, consumers⟩

theorem flushAll_alike :
    Alike (fun s t => s.1.Same t.1 ∧ s.2 = t.2) BufferRouter.flushAll BufferRouter.flushAll := by
  rintro ⟨r, k⟩ ⟨r', _⟩ ⟨same, rfl⟩
  obtain ⟨ended, entries, shared⟩ :=
    OrderedDict.Alike.forEntries IngestBuffer.flush_alike k same.buffers
  exact ⟨ended, { same with buffers := entries }, shared⟩

def aged (r : BufferRouter) (readings : StreamId → ℚ) : List StreamId :=
  (r.buffers.entries.filter fun e => ¬ e.2.Young (readings e.2.streamId)).map Prod.fst

theorem maybeFlushOnAge_young {readings : StreamId → ℚ} (young : r.aged readings = []) (k : Consumer) :
    BufferRouter.maybeFlushOnAge readings (r, k) = (.ok (), r, k) := by
  have each : ∀ e ∈ r.buffers.entries, e.2.Young (readings e.2.streamId) := by
    intro e member
    by_contra old
    exact List.filter_eq_nil_iff.mp (List.map_eq_nil_iff.mp young) e member (decide_eq_true old)
  have looped : OrderedDict.forValues (fun s => IngestBuffer.maybeFlushOnAge (readings s.1.streamId) s) (r.buffers, k) =
      (.ok (), r.buffers.map (fun _ b => b), r.buffers.entries.foldl (fun c _ => c) k) :=
    OrderedDict.forValues_returns (fun b => b) (fun _ c => c) (fun _ => True) r.buffers k trivial
      fun e member c _ => ⟨IngestBuffer.maybeFlushOnAge_young (each e member) c, trivial⟩
  have kept : (r.buffers.map fun _ b => b) = r.buffers :=
    OrderedDict.ext_entries (List.map_id' r.buffers.entries)
  have still : ∀ entries : List (StreamId × IngestBuffer), entries.foldl (fun c _ => c) k = k := by
    intro entries
    induction entries with
    | nil => rfl
    | cons e rest ih => exact ih
  rw [kept, still] at looped
  unfold BufferRouter.maybeFlushOnAge BufferRouter.forBuffers
  simp only [within, looped]

end BufferRouter

namespace Runtime

structure Same (σ τ : Runtime) : Prop where
  interpreter : σ.interpreter = τ.interpreter
  router : σ.router.Same τ.router
  consumer : σ.consumer = τ.consumer
  sourceStopped : σ.sourceStopped = τ.sourceStopped

theorem Same.refl (σ : Runtime) : σ.Same σ := ⟨rfl, .refl _, rfl, rfl⟩

variable [Platform]

omit [Platform] in
theorem routing_alike {body body' : BufferRouter.Action Unit}
    (alike : Alike (fun s t => s.1.Same t.1 ∧ s.2 = t.2) body body') : Alike Same (routing body) (routing body') := by
  intro σ τ same
  refine AlikeAt.within (alike _ _ ⟨same.router, same.consumer⟩) ?_
  rintro ⟨r, k⟩ ⟨r', _⟩ ⟨routers, rfl⟩
  exact ⟨same.interpreter, routers, rfl, same.sourceStopped⟩

theorem process_alike (raw : Bytes) : Alike Same (process raw) (process raw) := by
  rintro ⟨i, r, k, stopped⟩ ⟨i', r', k', stopped'⟩ ⟨same, routers, consumers, stops⟩
  dsimp only at same
  subst same
  exact ⟨rfl, rfl, routers, consumers, stops⟩

theorem datagram_alike (raw : Bytes) (arrival arrival' : ℚ) :
    Alike Same (handle (.datagram raw arrival)) (handle (.datagram raw arrival')) := by
  refine (process_alike raw).bind ?_
  intro record
  cases record with
  | none => exact Alike.nothing ()
  | some record => exact routing_alike (BufferRouter.push_alike record arrival arrival')

theorem flushAll_alike : Alike Same flushAll flushAll := routing_alike BufferRouter.flushAll_alike

theorem maybeFlushOnAge_young {σ : Runtime} {readings : StreamId → ℚ} (young : σ.router.aged readings = []) :
    maybeFlushOnAge readings σ = (.ok (), σ) :=
  routing_returns (BufferRouter.maybeFlushOnAge_young young σ.consumer)

end Runtime

def Tick.aged [Platform] (tick : Tick) (σ : Runtime) : List StreamId :=
  match tick.got with
  | .shutdown => []
  | .timeout => σ.router.aged tick.readings
  | .item raw =>
    match Runtime.handle (.datagram raw tick.arrival) σ with
    | (.ok _, σ') => σ'.router.aged tick.readings
    | (.error _, _) => []

theorem Pipeline.iterate_timeout [Platform] {σ : Runtime} {tick : Tick} (got : tick.got = .timeout)
    (young : tick.aged σ = []) : iterate tick σ = (.ok true, σ) := by
  rw [Tick.aged, got] at young
  rw [iterate, got]
  exact bind_returns (Runtime.maybeFlushOnAge_young young) _

theorem Pipeline.iterate_alike [Platform] {σ τ : Runtime} (same : σ.Same τ) {tick : Tick} {raw : Bytes}
    (got : tick.got = .item raw) (young : tick.aged σ = []) (arrival : ℚ) :
    ((iterate tick σ).1 = .ok true ∧ (Runtime.handle (.datagram raw arrival) τ).1 = .ok () ∨
      ∃ e, (iterate tick σ).1 = .error e ∧ (Runtime.handle (.datagram raw arrival) τ).1 = .error e) ∧
      (iterate tick σ).2.Same (Runtime.handle (.datagram raw arrival) τ).2 := by
  obtain ⟨result, states⟩ := Runtime.datagram_alike raw tick.arrival arrival σ τ same
  rw [Tick.aged, got] at young
  dsimp only at young
  rw [iterate_item got, bind_run]
  cases ran : Runtime.handle (.datagram raw tick.arrival) σ with
  | mk ended σ' =>
    rw [ran] at result states young
    rw [← result]
    cases ended with
    | error e => exact ⟨.inr ⟨e, rfl, rfl⟩, states⟩
    | ok _ =>
      dsimp only
      rw [bind_returns (Runtime.maybeFlushOnAge_young young)]
      exact ⟨.inl ⟨rfl, rfl⟩, states⟩

end Sceptre
