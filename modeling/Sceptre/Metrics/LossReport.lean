import Sceptre.Metrics.Transmission
import Sceptre.Metrics.Windows

namespace Sceptre

open Foundation

section Report

variable [Platform] {s : StreamId} (t : Transmission s)

def Window.timed (rate : ℚ) (w : Window) : TimedWindow :=
  ⟨(w.packets.head?.bind fun p => p.metadata.timestamp).getD 0, rate, windowSamples w.packets⟩

def Packet.span (rate : ℚ) (p : Packet) : Span ℚ := ⟨p.metadata.timestamp.getD 0, rate, p.samples⟩

namespace Transmission

def Near (k k' : Nat) : Prop := k < k' ∧ k' ≤ k + 16

variable {t}

theorem Carries.span {k : Nat} {p : Packet} (carries : t.Carries k p) :
    p.span t.rate = ⟨t.time k, t.rate, (t.samples k : ℚ)⟩ := by
  simp [Packet.span, carries.timestamp, carries.samples]

theorem Carries.abuts {k k' : Nat} {p q : Packet} (first : t.Carries k p) (second : t.Carries k' q)
    (near : Near k k') (follows : p.Follows q) : Ledger.Abuts (p.span t.rate) (q.span t.rate) := by
  have counters : (t.firstCounter + k') % 16 = ((t.firstCounter + k) % 16 + 1) % 16 := by
    rw [← second.counter, ← first.counter]
    exact follows
  have next : k' = k + 1 := by
    obtain ⟨later, close⟩ := near
    omega
  rw [first.span, second.span, next]
  exact ⟨rfl, t.time_succ k⟩

theorem time_strictMono : StrictMono t.time :=
  Ledger.time_mono (fun k => (t.samples k : ℚ)) t.positive
    (fun k => Nat.cast_pos.mpr (t.carries k)) t.time_succ

theorem carried_mem {ks : List Nat} {received : List Packet} (carried : List.Forall₂ t.Carries ks received)
    {p : Packet} (member : p ∈ received) : ∃ k ∈ ks, t.Carries k p := by
  induction carried with
  | nil => cases member
  | @cons k q ks received carries rest ih =>
    rcases List.mem_cons.mp member with rfl | later
    · exact ⟨k, List.mem_cons_self .., carries⟩
    · obtain ⟨k', inside, carries'⟩ := ih later
      exact ⟨k', List.mem_cons_of_mem _ inside, carries'⟩

theorem received_near {ks : List Nat} {received : List Packet} (carried : List.Forall₂ t.Carries ks received)
    (inOrder : ks.IsChain Near) :
    received.IsChain fun p q => ∃ k k', t.Carries k p ∧ t.Carries k' q ∧ Near k k' := by
  induction carried with
  | nil => exact List.isChain_nil
  | @cons k p ks received carries rest ih =>
    refine List.isChain_cons.mpr ⟨?_, ih (List.isChain_cons.mp inOrder).2⟩
    intro q head
    cases rest with
    | nil => cases head
    | cons carries' rest =>
      rw [List.head?_cons, Option.mem_some_iff] at head
      subst head
      exact ⟨k, _, carries, carries', (List.isChain_cons_cons.mp inOrder).1⟩

theorem received_ordered {ks : List Nat} {received : List Packet} (carried : List.Forall₂ t.Carries ks received)
    (inOrder : ks.IsChain Near) :
    received.Pairwise fun p q => (p.span t.rate).start < (q.span t.rate).start := by
  have increasing : ks.Pairwise (· < ·) := (inOrder.imp fun _ _ near => near.1).pairwise
  clear inOrder
  induction carried with
  | nil => exact .nil
  | @cons k p ks received carries rest ih =>
    obtain ⟨first, increasing'⟩ := List.pairwise_cons.mp increasing
    refine List.pairwise_cons.mpr ⟨fun q member => ?_, ih increasing'⟩
    obtain ⟨k', inside, carries'⟩ := carried_mem rest member
    rw [carries.span, carries'.span]
    exact time_strictMono (first k' inside)

theorem commit_carried {ks : List Nat} {received : List Packet} (carried : List.Forall₂ t.Carries ks received)
    (l : Ledger ℚ) :
    received.foldl (fun l p => l.commit (p.span t.rate)) l =
      ks.foldl (fun l k => l.commit ⟨t.time k, t.rate, (t.samples k : ℚ)⟩) l := by
  induction carried generalizing l with
  | nil => rfl
  | cons carries rest ih => rw [List.foldl_cons, List.foldl_cons, ih, carries.span]

theorem commit_window {w : Window} (opened : w.packets ≠ [])
    (carried : ∀ p ∈ w.packets, ∃ k, t.Carries k p)
    (abut : w.packets.IsChain fun p q => Ledger.Abuts (p.span t.rate) (q.span t.rate)) (l : Ledger ℚ) :
    l.commit (w.timed t.rate).span = w.packets.foldl (fun l p => l.commit (p.span t.rate)) l := by
  obtain ⟨p, rest, split⟩ := List.exists_cons_of_ne_nil opened
  have run := l.commit_run (p.span t.rate) (rest.map fun p => p.span t.rate) t.positive
    (fun w' member => by
      obtain ⟨q, inside, rfl⟩ := List.mem_map.mp member
      obtain ⟨k, carries⟩ := carried q (by simp [split, inside])
      rw [carries.span]
      exact Nat.cast_pos.mpr (t.carries k))
    (by
      rw [split] at abut
      exact (List.isChain_map (fun p : Packet => p.span t.rate) (l := p :: rest)).mpr abut)
  rw [← List.map_cons (f := fun p : Packet => p.span t.rate)] at run
  rw [split, ← List.foldl_map, ← run]
  have total : ((windowSamples (p :: rest) : Int) : ℚ) =
      (((p :: rest).map fun p => p.span t.rate).map Span.amount).sum := by
    have cast := map_list_sum (Int.castRingHom ℚ) ((p :: rest).map Packet.samples)
    rw [List.map_map] at cast ⊢
    exact cast
  rw [← total]
  simp only [Window.timed, TimedWindow.span, split, List.head?_cons, Option.bind_some]
  rfl

theorem commit_windows {windows : List Window} (opened : ∀ w ∈ windows, w.packets ≠ [])
    (carried : ∀ w ∈ windows, ∀ p ∈ w.packets, ∃ k, t.Carries k p)
    (abut : ∀ w ∈ windows, w.packets.IsChain fun p q => Ledger.Abuts (p.span t.rate) (q.span t.rate))
    (l : Ledger ℚ) :
    (windows.map (Window.timed t.rate)).foldl (fun l w => l.commit w.span) l =
      (windows.map Window.packets).flatten.foldl (fun l p => l.commit (p.span t.rate)) l := by
  induction windows generalizing l with
  | nil => rfl
  | cons w rest ih =>
    rw [List.map_cons, List.foldl_cons, List.map_cons, List.flatten_cons, List.foldl_append,
      commit_window (opened w (by simp)) (carried w (by simp)) (abut w (by simp)) l]
    exact ih (fun w' member => opened w' (List.mem_cons_of_mem _ member))
      (fun w' member => carried w' (List.mem_cons_of_mem _ member))
      (fun w' member => abut w' (List.mem_cons_of_mem _ member)) _

theorem windows_ordered {windows : List Window} (opened : ∀ w ∈ windows, w.packets ≠ [])
    (ordered : (windows.map Window.packets).flatten.Pairwise
      fun p q => (p.span t.rate).start < (q.span t.rate).start) :
    (windows.map (Window.timed t.rate)).Pairwise fun w w' => w.ts < w'.ts := by
  rw [List.pairwise_flatten] at ordered
  rw [List.pairwise_map]
  have apart := List.pairwise_map.mp ordered.2
  refine List.Pairwise.imp_of_mem ?_ apart
  intro w w' member member' before
  obtain ⟨p, rest, split⟩ := List.exists_cons_of_ne_nil (opened w member)
  obtain ⟨p', rest', split'⟩ := List.exists_cons_of_ne_nil (opened w' member')
  have heads := before p (by simp [split]) p' (by simp [split'])
  simp only [Window.timed, split, split', List.head?_cons, Option.bind_some]
  exact heads

end Transmission

/-- What a lane holds of a transmission once it is flushed: windows that abut inside, labelled with its rate. -/
theorem Transmission.windows {t : Transmission s} {l : Lane} (sound : l.Sound) {ks : List Nat}
    (carried : List.Forall₂ t.Carries ks l.received) (inOrder : ks.IsChain Transmission.Near)
    (finished : l.packets = []) :
    (∀ w ∈ l.closed, w.packets ≠ []) ∧ l.received = (l.closed.map Window.packets).flatten ∧
      (∀ w ∈ l.closed, ∀ p ∈ w.packets, ∃ k, t.Carries k p) ∧
      (∀ w ∈ l.closed, w.packets.IsChain fun p q => Ledger.Abuts (p.span t.rate) (q.span t.rate)) ∧
      ∀ w ∈ l.closed, (w.render s).tallied.Timed (w.timed t.rate) := by
  have solid : ∀ p ∈ l.received, ¬ p.Stray := fun p member => by
    obtain ⟨k, -, carries⟩ := Transmission.carried_mem carried member
    exact carries.solid
  have tiled := sound.cut.tiled solid
  rw [finished, List.append_nil] at tiled
  have inside : ∀ w ∈ l.closed, w.packets <:+: l.received := fun w member =>
    sound.cut.isInfix w.packets (List.mem_map_of_mem member)
  have each : ∀ w ∈ l.closed, ∀ p ∈ w.packets, ∃ k, t.Carries k p := fun w member p here => by
    obtain ⟨k, -, carries⟩ := Transmission.carried_mem carried ((inside w member).subset here)
    exact ⟨k, carries⟩
  refine ⟨fun w member => ?_, tiled, each, fun w member => ?_, fun w member => ?_⟩
  · obtain ⟨p, rest, split, -⟩ := sound.cut.head.1 w.packets (List.mem_map_of_mem member)
    rw [split]
    exact List.cons_ne_nil _ _
  · have near := isChain_within (Transmission.received_near carried inOrder) (inside w member)
    have follows := sound.cut.chain.1 w.packets (List.mem_map_of_mem member)
    refine (isChain_both near follows).imp ?_
    rintro p q ⟨⟨k, k', first, second, near⟩, follows⟩
    exact first.abuts second near follows
  · obtain ⟨first, rest, split, tallies⟩ := sound.tallies s member
    obtain ⟨k, carries⟩ := each w member first tallies.member
    have declared : first.context.sampleRateHz = some t.rate := by rw [carries.context, t.declared]
    have timed := tallies.timed declared t.positive carries.timestamp
    rw [Window.timed, split, List.head?_cons, Option.bind_some, carries.timestamp, Option.getD_some, ← split]
    exact timed

/-- The silent-loss report is exact: however the windows of a transmission were cut, delivered are the
    samples of the packets that arrived, and expected those of all packets from the first to the last. -/
theorem loss_report_exact (maxStreams maxSamples : Int) (maxAgeS : ℚ) (earlier events : List Event) {first : Nat}
    {ks : List Nat}
    (inForce : (Interpreter.run (datagrams earlier) (Interpreter.new maxStreams)).contexts.get? s = some t.context)
    (unheard : dataRecords s (Interpreter.outputs (datagrams earlier) (Interpreter.new maxStreams)) = [])
    (delivers : t.Delivers (first :: ks) events) (inOrder : (first :: ks).IsChain Transmission.Near) :
    ∃ σ stat, Runtime.drive (earlier ++ events ++ [.flushAll])
        (buildRuntime maxStreams maxSamples maxAgeS .quiet) = (.ok (), σ) ∧
      (ThroughputMeter.metered σ.consumer).streams.get? s = some stat ∧
      stat.finalize.delivered = ((first :: ks).map t.samples).sum ∧
      stat.finalize.expected =
        ((∑ k ∈ Finset.Icc first ((first :: ks).getLast (List.cons_ne_nil _ _)), t.samples k : Nat) : ℚ) := by
  obtain ⟨σ, returned, -, wired⟩ := driven ⟨maxSamples, maxAgeS⟩ maxStreams (earlier ++ events ++ [.flushAll])
  obtain ⟨l, lane⟩ : ∃ l, laneOf ⟨maxSamples, maxAgeS⟩ s (Interpreter.new maxStreams)
    (earlier ++ events ++ [.flushAll]) = l := ⟨_, rfl⟩
  have sound := wired.sound s
  have emitted := wired.emitted s
  have received := laneOf_received ⟨maxSamples, maxAgeS⟩ s (Interpreter.new maxStreams)
    (earlier ++ events ++ [.flushAll])
  rw [lane] at sound emitted received
  have silent : packetsOf s (Interpreter.new maxStreams) earlier = [] := by
    rw [← packetsOf_records] at unheard
    exact List.map_eq_nil_iff.mp unheard
  have carried : List.Forall₂ t.Carries (first :: ks) l.received := by
    have flush : ∀ i, packetsOf s i [.flushAll] = [] := fun _ => rfl
    rw [received, packetsOf_append, packetsOf_append, silent, List.nil_append, flush, List.append_nil]
    exact delivers.received inForce
  have finished : l.packets = [] := by
    rw [← lane, laneOf, trace_append, List.foldl_append]
    exact Lane.close_packets _
  obtain ⟨opened, tiled, each, abut, timed⟩ := Transmission.windows sound carried inOrder finished
  have some' : unitsOf s σ.consumer.sent ≠ [] := by
    rw [emitted]
    intro none
    rw [List.map_eq_nil_iff] at none
    rw [none] at tiled
    rw [tiled] at carried
    cases carried
  have ordered := Transmission.windows_ordered opened (t := t) (by
    rw [← tiled]
    exact Transmission.received_ordered carried inOrder)
  have tallied : List.Forall₂ Tallied.Timed ((unitsOf s σ.consumer.sent).map EmitUnit.tallied)
      (l.closed.map (Window.timed t.rate)) := by
    rw [emitted, List.map_map, List.forall₂_map_left_iff, List.forall₂_map_right_iff, List.forall₂_same]
    exact timed
  have settled := StreamStat.settles_new.tally_all tallied ordered fun p member => by cases member
  rw [Transmission.commit_windows opened each abut, ← tiled, Transmission.commit_carried carried] at settled
  have books := settled.finalize
  obtain ⟨delivered, expected⟩ := Ledger.commit_received (fun k => (t.samples k : ℚ)) t.positive
    (fun k => Nat.cast_pos.mpr (t.carries k)) t.time_succ (inOrder.imp fun _ _ near => near.1)
  refine ⟨σ, _, returned, by rw [metered_stream, if_neg some'], ?_, ?_⟩
  · have total := books.delivered.trans delivered
    have cast := map_list_sum (Nat.castRingHom ℚ) ((first :: ks).map t.samples)
    rw [List.map_map] at cast
    exact Int.cast_injective (α := ℚ) (by rw [total, Int.cast_natCast]; exact cast.symm)
  · rw [books.expected, expected, Ledger.reached, List.getLast?_eq_some_getLast (List.cons_ne_nil _ _)]
    simp only [Option.map_some, Option.getD_some]
    rw [Finset.Ico_add_one_right_eq_Icc]
    exact (map_sum (Nat.castRingHom ℚ) t.samples _).symm

end Report

open Exact in
theorem loss_report_exact_lossy :
    ∃ σ stat, Runtime.drive ([.datagram contextPacket 0] ++ [.datagram (dataPacket 0) 1, .poll fun _ => 1,
          .datagram contextPacket 2, .datagram (dataPacket 1) 2, .datagram [0] 2,
          .datagram (buildDataPacket payload { streamId := 7 }) 3, .datagram (dataPacket 4) 5] ++ [.flushAll])
        (buildRuntime 256 6 10 .quiet) = (.ok (), σ) ∧
      (ThroughputMeter.metered σ.consumer).streams.get? (some 123) = some stat ∧
      stat.finalize.delivered = 12 ∧ stat.finalize.expected = 20 := by
  have garbage : ∀ raw ∈ [[0], buildDataPacket payload { streamId := 7 }], concerns (some 123) raw = false := by
    decide +kernel
  have delivers : secondly.Delivers [0, 1, 4] [.datagram (dataPacket 0) 1, .poll fun _ => 1,
      .datagram contextPacket 2, .datagram (dataPacket 1) 2, .datagram [0] 2,
      .datagram (buildDataPacket payload { streamId := 7 }) 3, .datagram (dataPacket 4) 5] :=
    .packet 1 (isPacket (by decide)) <| .poll _ <| .heartbeat 2 isHeartbeat <| .packet 2 (isPacket (by decide)) <|
      .garbage 2 (.inl (garbage _ (by simp))) <| .garbage 3 (.inl (garbage _ (by simp))) <|
      .packet 5 (isPacket (by decide)) .nil
  obtain ⟨σ, stat, returned, metered, delivered, expected⟩ :=
    loss_report_exact secondly 256 6 10 [.datagram contextPacket 0] _ (by decide +kernel) (by decide +kernel) delivers
      (by simp [Transmission.Near])
  exact ⟨σ, stat, returned, metered, delivered, expected⟩

end Sceptre
