import Sceptre.Runtime.Agreement
import Sceptre.Windowing.Gapless

namespace Sceptre

open Foundation

variable [Platform] {limits : Limits} {maxStreams : Int} {σ : Runtime} {lanes : StreamId → Lane}

theorem laneOf_cut (limits : Limits) (s : StreamId) (i : Interpreter) (events : List Event)
    (sound : (laneOf limits s i events).Sound) :
    Segmentation (fun r => r.2 = []) Consecutive (dataRecords s (Interpreter.outputs (datagrams events) i))
      ((laneOf limits s i events).closed.map fun w => w.packets.map fun p => (p.metadata, p.data))
      ((laneOf limits s i events).packets.map fun p => (p.metadata, p.data)) := by
  have cut := sound.cut.map (fun r => r.2 = []) Consecutive (fun p : Packet => (p.metadata, p.data))
    (fun _ => Iff.rfl) (fun _ _ link => link)
  rw [laneOf_received, packetsOf_records, List.map_map] at cut
  exact cut

theorem Wired.closes_before (wired : Wired limits maxStreams σ lanes) {raw : Bytes} {md : Metadata}
    {body : Bytes} (arrival : ℚ) (returned : Interpreter.output raw σ.interpreter = some (.data md body))
    (opened : (σ.router.bufferFor md.streamId).chunks ≠ []) :
    ∃ σ' fresh, Runtime.handle (.datagram raw arrival) σ = (.ok (), σ') ∧
      unitsOf md.streamId σ'.consumer.sent = unitsOf md.streamId σ.consumer.sent ++ fresh ∧
      ((∃ u ∈ fresh, u.samples.raw = (σ.router.bufferFor md.streamId).chunks.flatten) ↔
        Interpreter.gapAfter (σ.interpreter.lastCounter.get? md.streamId) md.counter = true) := by
  obtain ⟨σ', handled, -, -, wired'⟩ := wired.handle (.datagram raw arrival)
  have refines := wired.refines md.streamId
  have open' : (lanes md.streamId).packets ≠ [] := fun none =>
    opened ((refines.chunks_nil (wired.sound _)).mpr none)
  obtain ⟨ctx, inForce, -⟩ := (wired.sound md.streamId).covered open'
  have held : σ.interpreter.contexts.get? md.streamId = some ctx := (wired.context _).symm.trans inForce
  have input : (Event.datagram raw arrival).input? md.streamId σ.interpreter =
      some (.packet ⟨md, body, arrival, ctx⟩) := by
    simp [Event.input?, returned, Record.metadata, Record.input?, held]
  obtain ⟨fresh, closed, before⟩ := Lane.packet_closes limits open' ⟨md, body, arrival, ctx⟩
  refine ⟨σ', fresh.map (Window.render md.streamId), handled, ?_, ?_⟩
  · rw [wired'.emitted, wired.emitted, input, ← List.map_append, ← closed]
    rfl
  · rw [refines.chunks_flatten, ← wired.last]
    refine Iff.trans ?_ before
    constructor
    · rintro ⟨u, member, same⟩
      obtain ⟨w, inside, rfl⟩ := List.mem_map.mp member
      exact ⟨w, inside, same⟩
    · rintro ⟨w, member, same⟩
      exact ⟨_, List.mem_map_of_mem member, same⟩

/-- Windows are gapless: the units of a stream are its data records cut where a counter does not follow,
    a data record cuts only there, and so a cut hides no loss but one of a multiple of 16 packets. -/
theorem windows_gapless (maxStreams maxSamples : Int) (maxAgeS : ℚ) (events : List Event) (s : StreamId) :
    ∃ σ windows current,
      Runtime.drive events (buildRuntime maxStreams maxSamples maxAgeS .quiet) = (.ok (), σ) ∧
      Segmentation (fun r => r.2 = []) Consecutive
        (dataRecords s (Interpreter.outputs (datagrams events) (Interpreter.new maxStreams))) windows current ∧
      (unitsOf s σ.consumer.sent).map (fun u => u.samples.raw) = windows.map (List.flatMap Prod.snd) ∧
      (σ.router.bufferFor s).chunks.flatten = current.flatMap Prod.snd ∧
      (∀ w ∈ windows, w.IsChain fun r r' => r'.1.counter = (r.1.counter + 1) % 16) ∧
      (∀ raw arrival md body, Interpreter.output raw σ.interpreter = some (.data md body) → md.streamId = s →
        (σ.router.bufferFor s).chunks ≠ [] →
        ∃ σ' fresh, Runtime.handle (.datagram raw arrival) σ = (.ok (), σ') ∧
          unitsOf s σ'.consumer.sent = unitsOf s σ.consumer.sent ++ fresh ∧
          ((∃ u ∈ fresh, u.samples.raw = (σ.router.bufferFor s).chunks.flatten) ↔
            ∃ prev, (dataRecords s (Interpreter.outputs (datagrams events) (Interpreter.new maxStreams))).getLast? =
              some prev ∧ md.counter ≠ (prev.1.counter + 1) % 16)) ∧
      ∀ numbered : List (Nat × Metadata × Bytes),
        numbered.map Prod.snd = dataRecords s (Interpreter.outputs (datagrams events) (Interpreter.new maxStreams)) →
        (∀ r ∈ numbered, r.2.1.counter = r.1 % 16) → numbered.IsChain (fun r r' => r.1 < r'.1) →
        ∀ w, w <:+: numbered → w.map Prod.snd ∈ windows →
          w.IsChain fun r r' => ∃ m, r'.1 = r.1 + 1 + 16 * m := by
  obtain ⟨σ, returned, -, wired⟩ := driven ⟨maxSamples, maxAgeS⟩ maxStreams events
  have sound := wired.sound s
  have cut := laneOf_cut ⟨maxSamples, maxAgeS⟩ s (Interpreter.new maxStreams) events sound
  have refines := wired.refines s
  have linked := cut.chain.1
  have last : σ.interpreter.lastCounter.get? s =
      (dataRecords s (Interpreter.outputs (datagrams events) (Interpreter.new maxStreams))).getLast?.map
        fun r => r.1.counter := by
    rw [← wired.last, sound.last, ← packetsOf_records, ← laneOf_received ⟨maxSamples, maxAgeS⟩, List.getLast?_map,
      Option.map_map]
    rfl
  refine ⟨σ, _, _, returned, cut, ?_, ?_, linked, ?_, ?_⟩
  · rw [wired.emitted, List.map_map, List.map_map]
    refine List.map_congr_left fun w _ => ?_
    simp [Window.render, joined, List.flatMap_map]
  · rw [refines.chunks_flatten, List.flatMap_map]
    rfl
  · rintro raw arrival md body record rfl opened
    obtain ⟨σ', fresh, handled, units, before⟩ := wired.closes_before arrival record opened
    refine ⟨σ', fresh, handled, units, ?_⟩
    rw [before, last]
    cases (dataRecords md.streamId _).getLast? with
    | none => simp [Interpreter.gapAfter]
    | some prev => simp [Interpreter.gapAfter]
  · intro numbered records counted ordered w inside member
    exact Consecutive.loss (linked _ member) (fun r here => counted r (inside.subset here))
      (isChain_within ordered inside)

end Sceptre
