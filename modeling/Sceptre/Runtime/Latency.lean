import Mathlib.Tactic.Linarith
import Sceptre.Runtime.Sender
import Sceptre.Windowing.Bounded

namespace Sceptre

open Foundation

def Event.arrival? : Event → Option ℚ
  | .datagram _ arrival => some arrival
  | _ => none

section
variable [Platform] {limits : Limits}

theorem packetsOf_arrivals (s : StreamId) (i : Interpreter) (events : List Event) :
    List.Sublist ((packetsOf s i events).map Packet.arrival) (events.filterMap Event.arrival?) := by
  induction events generalizing i with
  | nil => exact List.Sublist.slnil
  | cons event rest ih =>
    rw [packetsOf_cons, List.map_append]
    cases event with
    | datagram raw arrival =>
      have later := ih ((Event.datagram raw arrival).advance i)
      rw [List.filterMap_cons]
      show List.Sublist _ ([arrival] ++ rest.filterMap Event.arrival?)
      refine List.Sublist.append ?_ later
      cases read : ((Event.datagram raw arrival).input? s i).bind Lane.Input.packet? with
      | none => exact List.nil_sublist _
      | some p =>
        have member : p ∈ packetsOf s i [.datagram raw arrival] := by
          rw [packetsOf_cons, read]
          exact List.mem_append_left _ (List.mem_singleton_self p)
        obtain ⟨earlier, raw', later, split, -⟩ := mem_packetsOf member
        have same : arrival = p.arrival := by
          cases earlier with
          | nil =>
            cases split
            rfl
          | cons first earlier =>
            obtain ⟨-, none⟩ := List.cons.inj split
            exact absurd none.symm (by simp)
        rw [Option.toList_some, List.map_singleton, same]
    | poll readings => exact ih i
    | flushAll => exact ih i

omit [Platform] in
theorem Lane.poll_young {l : Lane} {now : ℚ} (ordered : (l.packets.map Packet.arrival).Pairwise (· ≤ ·)) :
    ∀ p ∈ (l.poll limits now).packets, now - p.arrival < limits.maxAgeS := by
  intro p member
  by_cases old : l.packets.head?.any (fun first => now - first.arrival ≥ limits.maxAgeS) = true
  · rw [Lane.poll, Lane.closeIf, if_pos old, close_packets] at member
    cases member
  · rw [Lane.poll, Lane.closeIf, if_neg old] at member
    cases packets : l.packets with
    | nil =>
      rw [packets] at member
      cases member
    | cons first rest =>
      rw [packets] at member ordered old
      have young : now - first.arrival < limits.maxAgeS := by
        apply lt_of_not_ge
        simpa using old
      have before : first.arrival ≤ p.arrival := by
        rcases List.mem_cons.mp member with here | there
        · rw [here]
        · exact (List.pairwise_cons.mp ordered).1 p.arrival (List.mem_map_of_mem there)
      linarith

omit [Platform] in
theorem Pipeline.calls_snoc (ticks : List Tick) (tick : Tick) (running : ∀ t ∈ ticks ++ [tick], t.got ≠ .shutdown) :
    ∃ earlier, calls (ticks ++ [tick]) = earlier ++ [.poll tick.readings] := by
  induction ticks with
  | nil =>
    rw [List.nil_append, calls]
    cases got : tick.got with
    | shutdown => exact absurd got (running tick (by simp))
    | timeout => exact ⟨[], rfl⟩
    | item raw => exact ⟨[.datagram raw tick.arrival], rfl⟩
  | cons first rest ih =>
    obtain ⟨earlier, same⟩ := ih fun t member => running t (List.mem_cons_of_mem _ member)
    rw [List.cons_append, calls]
    cases got : first.got with
    | shutdown => exact absurd got (running first (by simp))
    | timeout => exact ⟨.poll first.readings :: earlier, by rw [same]; rfl⟩
    | item raw => exact ⟨.datagram raw first.arrival :: .poll first.readings :: earlier, by rw [same]; rfl⟩

/-- The delay of a sample is bounded: after every iteration, all of a stream that has not been emitted is a last part
    of it, younger than the age bound at the iteration's own reading and short of a full window. -/
theorem delay_bounded (maxStreams maxSamples : Int) (maxAgeS : ℚ) (ticks : List Tick) (tick : Tick)
    (running : ∀ t ∈ ticks ++ [tick], t.got ≠ .shutdown)
    (steady : ((Pipeline.calls (ticks ++ [tick])).filterMap Event.arrival?).Pairwise (· ≤ ·)) :
    ∃ σ, Pipeline.loop (ticks ++ [tick]) (buildRuntime maxStreams maxSamples maxAgeS .quiet) = (.ok (), σ) ∧
      ∀ s, ∃ emitted waiting,
        packetsOf s (Interpreter.new maxStreams) (Pipeline.calls (ticks ++ [tick])) = emitted ++ waiting ∧
        (unitsOf s σ.consumer.sent).flatMap (fun u => u.samples.raw) = joined emitted ∧
        (∀ p ∈ waiting, tick.readings s - p.arrival < maxAgeS) ∧
        (waiting ≠ [] → windowSamples waiting < maxSamples) := by
  obtain ⟨σ, returned, -, wired⟩ := driven ⟨maxSamples, maxAgeS⟩ maxStreams (Pipeline.calls (ticks ++ [tick]))
  refine ⟨σ, by rw [Pipeline.loop_eq_drive]; exact returned, fun s => ?_⟩
  obtain ⟨earlier, calls⟩ := Pipeline.calls_snoc ticks tick running
  have sound := wired.sound s
  have received := laneOf_received ⟨maxSamples, maxAgeS⟩ s (Interpreter.new maxStreams)
    (Pipeline.calls (ticks ++ [tick]))
  have emitted := wired.emitted s
  have below : (laneOf ⟨maxSamples, maxAgeS⟩ s (Interpreter.new maxStreams) (Pipeline.calls (ticks ++ [tick]))).Below
      ⟨maxSamples, maxAgeS⟩ := Lane.below_initial.steps _
  have polled : laneOf ⟨maxSamples, maxAgeS⟩ s (Interpreter.new maxStreams) (Pipeline.calls (ticks ++ [tick])) =
      (laneOf ⟨maxSamples, maxAgeS⟩ s (Interpreter.new maxStreams) earlier).poll ⟨maxSamples, maxAgeS⟩
        (tick.readings s) := by
    rw [calls, laneOf, trace_append, List.foldl_append]
    rfl
  generalize laneOf ⟨maxSamples, maxAgeS⟩ s (Interpreter.new maxStreams) (Pipeline.calls (ticks ++ [tick])) = l at *
  obtain ⟨front, whole⟩ := sound.cut.isSuffix
  refine ⟨front, l.packets, by rw [← received, whole], ?_, ?_, below⟩
  · -- what the closed windows hold is what stands before the open one
    have kept := sound.cut.conserved Packet.data fun _ stray => stray
    rw [← whole, List.flatMap_append] at kept
    have same := List.append_cancel_right kept
    rw [emitted, List.flatMap_map, joined, same, ← List.flatMap_def, List.flatMap_assoc]
    rfl
  · rw [polled]
    apply Lane.poll_young
    have ordered : ((laneOf ⟨maxSamples, maxAgeS⟩ s (Interpreter.new maxStreams) earlier).received.map
        Packet.arrival).Pairwise (· ≤ ·) := by
      rw [laneOf_received]
      refine List.Pairwise.sublist (packetsOf_arrivals s _ earlier) ?_
      rw [calls, List.filterMap_append] at steady
      exact (List.pairwise_append.mp steady).1
    have before : (laneOf ⟨maxSamples, maxAgeS⟩ s (Interpreter.new maxStreams) earlier).Sound := by
      obtain ⟨σ', -, -, wired'⟩ := driven ⟨maxSamples, maxAgeS⟩ maxStreams earlier
      exact wired'.sound s
    exact List.Pairwise.sublist (before.cut.isSuffix.sublist.map Packet.arrival) ordered

end

namespace Exact

def quietPeriod : List Tick :=
  [⟨.item (Message.announce (fullHeader 17 packetTypeIfContext) someFields []).wire, 0, fun _ => 0⟩,
    ⟨.item (Message.block (fullHeader 11) [[1, 2, 3, 4, 5, 6, 7, 8]] [0, 0, 0, 0] [0xAA, 0xAA, 0xAA, 0xAA]).wire, 5,
      fun _ => 5⟩]

theorem delay_bounded_quietPeriod :
    ∃ σ, Pipeline.loop (quietPeriod ++ [⟨.timeout, 20, fun _ => 20⟩]) (buildRuntime 1 100 10 .quiet) = (.ok (), σ) ∧
      ∀ s, ∃ emitted waiting,
        packetsOf s (Interpreter.new 1) (Pipeline.calls (quietPeriod ++ [⟨.timeout, 20, fun _ => 20⟩])) =
          emitted ++ waiting ∧
        (unitsOf s σ.consumer.sent).flatMap (fun u => u.samples.raw) = joined emitted ∧
        ∀ p ∈ waiting, 20 - p.arrival < 10 := by
  have steady : ((Pipeline.calls (quietPeriod ++ [⟨.timeout, 20, fun _ => 20⟩])).filterMap Event.arrival?).Pairwise
    (· ≤ ·) := by
    show [(0 : ℚ), 5].Pairwise (· ≤ ·)
    simp
  obtain ⟨σ, returned, delays⟩ :=
    delay_bounded 1 100 10 quietPeriod ⟨.timeout, 20, fun _ => 20⟩ (by simp [quietPeriod]) steady
  refine ⟨σ, returned, fun s => ?_⟩
  obtain ⟨emitted, waiting, split, joined, young, -⟩ := delays s
  exact ⟨emitted, waiting, split, joined, young⟩

end Exact

end Sceptre
