import Sceptre.Runtime.Pipeline
import Sceptre.Windowing.Refinement

namespace Sceptre

open Foundation

variable [Platform]

def unitsOf (s : StreamId) (units : List EmitUnit) : List EmitUnit := units.filter fun u => u.streamId = s

omit [Platform] in
@[simp] theorem unitsOf_append (s : StreamId) (first second : List EmitUnit) :
    unitsOf s (first ++ second) = unitsOf s first ++ unitsOf s second := List.filter_append ..

omit [Platform] in
theorem unitsOf_render (s sid : StreamId) (windows : List Window) :
    unitsOf s (windows.map (Window.render sid)) = if sid = s then windows.map (Window.render s) else [] := by
  by_cases same : sid = s
  · subst same
    rw [if_pos rfl]
    exact List.filter_eq_self.mpr fun u member => by
      obtain ⟨w, -, rfl⟩ := List.mem_map.mp member
      simp [Window.render]
  · rw [if_neg same]
    exact List.filter_eq_nil_iff.mpr fun u member => by
      obtain ⟨w, -, rfl⟩ := List.mem_map.mp member
      exact fun chosen => same (of_decide_eq_true chosen)

section Router

variable {limits : Limits} {r : BufferRouter} {k : Consumer}

theorem push_routes {record : Record} {now : ℚ} {l l' : Lane}
    (room : record.metadata.streamId ∈ r.buffers.keys ∨ (r.buffers.size : Int) < r.maxStreams) (quiet : k.Quiet)
    (implements : Implements limits record.metadata.streamId (r.bufferFor record.metadata.streamId) l l'
      (IngestBuffer.push record now)) :
    ∃ b' fresh, Refines limits record.metadata.streamId b' l' ∧ l'.closed = l.closed ++ fresh ∧
      BufferRouter.push record now (r, k) =
        (.ok (), { r with buffers := r.buffers.insert record.metadata.streamId b' },
          k.accept (fresh.map (Window.render record.metadata.streamId))) := by
  obtain ⟨b', fresh, refines, closed, returned⟩ := implements
  refine ⟨b', fresh, refines, closed, ?_⟩
  have admitted : ¬ (record.metadata.streamId ∉ r.buffers.keys ∧ (r.buffers.size : Int) ≥ r.maxStreams) := by
    rintro ⟨absent, full⟩
    rcases room with present | room
    · exact absent present
    · omega
  unfold BufferRouter.push
  dsimp only
  rw [if_neg admitted]
  simp only [Method.within, returned k quiet]

omit [Platform] in
theorem forBuffers_routes (step : StreamId → Lane → Lane) {body : IngestBuffer.Action Unit} {lanes : StreamId → Lane}
    (quiet : k.Quiet)
    (implements : ∀ e ∈ r.buffers.entries, Implements limits e.1 e.2 (lanes e.1) (step e.1 (lanes e.1)) body) :
    ∃ (f : IngestBuffer → IngestBuffer) (units : List EmitUnit),
      BufferRouter.forBuffers body (r, k) =
        (.ok (), { r with buffers := r.buffers.map fun _ b => f b }, k.accept units) ∧
      (∀ s b, r.buffers.get? s = some b → Refines limits s (f b) (step s (lanes s)) ∧
        (step s (lanes s)).closed.map (Window.render s) =
          (lanes s).closed.map (Window.render s) ++ unitsOf s units) ∧
      ∀ s, r.buffers.get? s = none → unitsOf s units = [] := by
  let f : IngestBuffer → IngestBuffer := fun b => (body (b, .quiet)).2.1
  let contribution : IngestBuffer → List EmitUnit := fun b => (body (b, .quiet)).2.2.sent
  have each : ∀ e ∈ r.buffers.entries, ∃ fresh, Refines limits e.1 (f e.2) (step e.1 (lanes e.1)) ∧
      (step e.1 (lanes e.1)).closed = (lanes e.1).closed ++ fresh ∧
      contribution e.2 = fresh.map (Window.render e.1) ∧
      ∀ k : Consumer, k.Quiet → body (e.2, k) = (.ok (), f e.2, k.accept (contribution e.2)) := by
    intro e member
    obtain ⟨b', fresh, refines, closed, returned⟩ := implements e member
    have alone := returned .quiet fun _ => rfl
    have left : f e.2 = b' := by simp only [f, alone]
    have emitted : contribution e.2 = fresh.map (Window.render e.1) := by
      show (body (e.2, .quiet)).2.2.sent = _
      rw [alone]
      rfl
    exact ⟨fresh, left ▸ refines, closed, emitted, fun k quiet => by rw [returned k quiet, left, emitted]⟩
  have looped : OrderedDict.forValues body (r.buffers, k) = (.ok (), r.buffers.map fun _ b => f b,
      r.buffers.entries.foldl (fun c e => c.accept (contribution e.2)) k) := by
    refine OrderedDict.forValues_returns f (fun b c => c.accept (contribution b)) Consumer.Quiet r.buffers k quiet
      fun e member c holds => ?_
    obtain ⟨fresh, -, -, -, returned⟩ := each e member
    exact ⟨returned c holds, holds.accept _⟩
  have folded : ∀ (entries : List (StreamId × IngestBuffer)) (k : Consumer),
      entries.foldl (fun c e => c.accept (contribution e.2)) k =
        k.accept (entries.flatMap fun e => contribution e.2) := by
    intro entries
    induction entries with
    | nil => intro k; simp
    | cons e rest ih => intro k; rw [List.foldl_cons, ih, Consumer.accept_accept, List.flatMap_cons]
  have own := OrderedDict.filter_contributions r.buffers contribution EmitUnit.streamId fun e member u inside => by
    obtain ⟨fresh, -, -, emitted, -⟩ := each e member
    rw [emitted] at inside
    obtain ⟨w, -, rfl⟩ := List.mem_map.mp inside
    rfl
  refine ⟨f, r.buffers.entries.flatMap fun e => contribution e.2, ?_, ?_, ?_⟩
  · rw [BufferRouter.forBuffers]
    simp only [Method.within, looped, folded]
  · intro s b found
    have member := r.buffers.mem_of_get? found
    obtain ⟨fresh, refines, closed, emitted, -⟩ := each (s, b) member
    refine ⟨refines, ?_⟩
    rw [unitsOf, own, found, Option.elim_some, emitted, closed, List.map_append]
  · intro s absent
    rw [unitsOf, own, absent, Option.elim_none]

end Router

end Sceptre
