import Sceptre.Threads.Replay
import Sceptre.Wire.Encoding

namespace Sceptre

open Foundation

/-- A live session to its end: the source has stopped, Thread B has drained the queue, which never overflowed, and no
    cap of the recorder was reached. -/
structure LiveSession [Platform] (queue : BoundedRawQueue RawItem) (recorder : Recorder) (start : Runtime)
    (labels : List (Label × Clock)) (P : Program) (r : Recorder) : Prop where
  ran : runs Program.step (.main queue (.live (some recorder)) start) labels = some P
  ended : P.threads.source = .live .terminated
  finished : P.threads.consumer = .finished
  recorded : P.threads.recorder = some r
  uncapped : r.capped = false
  kept : P.threads.queue.dropped = 0
  drained : P.threads.queue.items = []
  young : Program.aged (.main queue (.live (some recorder)) start) labels = []

/-- A replay of a capture to its end, which nothing stops from outside, and whose queue never overflowed. -/
structure ReplaySession [Platform] (queue : BoundedRawQueue RawItem) (pace : Pace) (capture : Capture) (start : Runtime)
    (labels : List (Label × Clock)) (P : Program) : Prop where
  ran : runs Program.step (.main queue (.replay pace) start) labels = some P
  undisturbed : ∀ action ∈ sourceActions (labels.map Prod.fst), ReplayPc.Undisturbed capture.packets action
  unstopped : ∀ label ∈ labels, ¬ label.1.stops
  finished : P.threads.consumer = .finished
  kept : P.threads.queue.dropped = 0
  young : Program.aged (.main queue (.replay pace) start) labels = []

theorem datagrams_inj {raws raws' : List Bytes} (same : raws.map RawItem.datagram = raws'.map RawItem.datagram) :
    raws = raws' :=
  List.map_injective_iff.mpr (fun _ _ same => RawItem.datagram.inj same) same

theorem before_shutdown {raws raws' : List Bytes} {rest : List RawItem}
    (same : raws.map RawItem.datagram ++ .shutdown :: rest = raws'.map RawItem.datagram ++ [.shutdown]) :
    raws = raws' := by
  induction raws generalizing raws' with
  | nil =>
    cases raws' with
    | nil => rfl
    | cons raw rest' => cases same
  | cons raw more ih =>
    cases raws' with
    | nil => cases same
    | cons raw' more' =>
      obtain ⟨head, tail⟩ := List.cons.inj same
      rw [RawItem.datagram.inj head, ih tail]

theorem within_shutdown {raws raws' : List Bytes} {rest : List RawItem}
    (same : raws.map RawItem.datagram ++ rest = raws'.map RawItem.datagram ++ [.shutdown]) : raws <+: raws' := by
  induction raws generalizing raws' with
  | nil => exact List.nil_prefix
  | cons raw more ih =>
    cases raws' with
    | nil => cases same
    | cons raw' more' =>
      obtain ⟨head, tail⟩ := List.cons.inj same
      rw [RawItem.datagram.inj head]
      exact List.cons_prefix_cons.mpr ⟨rfl, ih tail⟩

theorem captured {maxPackets maxBytes : Option Int} {actions : List SourceAction} {r : Recorder}
    (ran : runs LivePc.step .creating actions = some .terminated)
    (recorded : Recorder.after (some (.new maxPackets maxBytes)) actions = some r) (uncapped : r.capped = false) :
    r.packets.map CapturePacket.payload = (received actions).map Prod.fst ∧
      putItems actions = ((received actions).map Prod.fst).map RawItem.datagram := by
  obtain ⟨puts, records⟩ := LivePc.runs_io ran
  obtain ⟨-, packets⟩ := Recorder.after_uncapped recorded uncapped
  change _ = _ ++ [] at puts records
  rw [List.append_nil] at puts records
  constructor
  · rw [packets, records, List.map_map]
    rfl
  · rw [← puts, List.map_map]
    rfl

section

variable [Platform] {queue : BoundedRawQueue RawItem} {maxsize : Int} {start : Runtime} {labels : List (Label × Clock)}
  {P : Program}

theorem LiveSession.handled {maxPackets maxBytes : Option Int} {r : Recorder}
    (session : LiveSession queue (.new maxPackets maxBytes) start labels P r)
    (created : BoundedRawQueue.new maxsize = .ok queue) :
    Program.handled (.main queue (.live (some (.new maxPackets maxBytes))) start) labels =
      r.packets.map CapturePacket.payload := by
  have threads : runs Threads.step (Threads.main queue (.live (some (.new maxPackets maxBytes))))
    (labels.map Prod.fst) =
      some P.threads := Program.runs_threads session.ran
  have source := Threads.runs_source threads
  rw [session.ended] at source
  have recorded := (Threads.runs_recorder threads).symm.trans session.recorded
  obtain ⟨payloads, puts⟩ := captured source recorded session.uncapped
  have accounts := queue.accounts created (queueOps (labels.map Prod.fst))
  have final := Threads.runs_queue threads
  have kept := session.kept
  have drained := session.drained
  rw [final] at kept drained
  have all := accounts.kept kept
  rw [drained, List.append_nil, puts_queueOps] at all
  have taken := (Program.runs_follows session.ran session.young).taken
  rw [session.finished, all] at taken
  rcases taken with ⟨shutdown, -⟩ | ⟨same, -⟩
  · have last : RawItem.shutdown ∈ putItems (sourceActions (labels.map Prod.fst)) := by
      rw [putItems, shutdown]
      exact List.mem_append_right _ (List.mem_singleton.mpr rfl)
    rw [puts] at last
    obtain ⟨raw, -, other⟩ := List.mem_map.mp last
    cases other
  · rw [payloads]
    exact datagrams_inj (same.symm.trans puts)

theorem feed_prefix {raws all : List Bytes} (front : raws <+: all) (clean : (feed all.dropLast start).1 = .ok ()) :
    (feed raws.dropLast start).1 = .ok () := by
  have shorter : raws.dropLast <+: all.dropLast := by
    obtain ⟨more, rfl⟩ := front
    rcases List.eq_nil_or_concat' more with rfl | ⟨rest, last, rfl⟩
    · rw [List.append_nil]
    · rw [← List.append_assoc, List.dropLast_concat]
      exact (List.dropLast_prefix raws).trans (List.prefix_append raws rest)
  obtain ⟨more, split⟩ := shorter
  by_contra raised
  rw [← split, feed_append raised] at clean
  exact raised clean

theorem ReplaySession.handled {pace : Pace} {capture : Capture}
    (session : ReplaySession queue pace capture start labels P) (created : BoundedRawQueue.new maxsize = .ok queue)
    (clean : (feed (capture.packets.map CapturePacket.payload).dropLast start).1 = .ok ()) :
    Program.handled (.main queue (.replay pace) start) labels =
      pace.payloads none (capture.packets.map CapturePacket.entry) := by
  have threads : runs Threads.step (Threads.main queue (.replay pace)) (labels.map Prod.fst) = some P.threads :=
    Program.runs_threads session.ran
  obtain ⟨pc, ran⟩ := (Threads.runs_source threads).replay
  obtain ⟨more, puts, -⟩ := ReplayPc.runs_undisturbed ran session.undisturbed
  have clean := feed_prefix (pace.payloads_prefix capture.packets none) clean
  generalize pace.payloads none (capture.packets.map CapturePacket.entry) = payloads at puts clean ⊢
  have accounts := queue.accounts created (queueOps (labels.map Prod.fst))
  have kept := session.kept
  rw [Threads.runs_queue threads] at kept
  have all := accounts.kept kept
  rw [puts_queueOps] at all
  change _ = putItems _ at all
  rw [← all, List.append_assoc] at puts
  have taken := (Program.runs_follows session.ran session.young).taken
  rw [session.finished] at taken
  rcases taken with ⟨shutdown, -⟩ | ⟨same, why⟩
  · rw [shutdown, List.append_assoc] at puts
    exact before_shutdown puts
  · rw [same] at puts
    obtain ⟨more, split⟩ := within_shutdown puts
    rcases List.eq_nil_or_concat' more with nil | ⟨front, last, concat⟩
    · rw [nil, List.append_nil] at split
      exact split
    · rcases why with raised | ⟨label, member, stops⟩
      · rw [← split, concat, ← List.append_assoc, List.dropLast_concat, feed_append raised] at clean
        exact absurd clean raised
      · exact absurd stops (session.unstopped label member)

def recordedTimes (actions : List SourceAction) : List Int := (entries actions).map CapturePacket.tsNs

omit [Platform] in
theorem recorded_payloads {maxPackets maxBytes : Option Int} {actions : List SourceAction} {r : Recorder} {pace : Pace}
    (recorded : Recorder.after (some (.new maxPackets maxBytes)) actions = some r) (uncapped : r.capped = false) :
    pace.payloads none (r.packets.map CapturePacket.entry) = r.packets.map CapturePacket.payload ↔
      (recordedTimes actions).IsChain pace.Reaches := by
  obtain ⟨-, packets⟩ := Recorder.after_uncapped recorded uncapped
  rw [Pace.payloads_eq_iff, packets]
  rfl

/-- Record and replay. An undisturbed replay of what a live source recorded comes to its end, and has then put the
    received payloads in the received order and SHUTDOWN exactly when, if it is paced, no recorded time rises by more
    than `wait` takes or differs by more than a float holds; and exactly then interpreter and router, driven by the
    replay from the same start, return the same records and emit the same units as in the live session. -/
theorem replay_reproduces (maxPackets maxBytes : Option Int) (startTimeNs : Int) (durationSeconds : ℚ) (pace : Pace) :
    (∀ (actions : List SourceAction) (r : Recorder), runs LivePc.step .creating actions = some .terminated →
      Recorder.after (some (.new maxPackets maxBytes)) actions = some r → r.capped = false →
      ∀ (replay : List SourceAction) (pc : ReplayPc), runs (ReplayPc.step pace) .loading replay = some pc →
        (∀ action ∈ replay, ReplayPc.Undisturbed (r.save startTimeNs durationSeconds).packets action) →
        replay.length ≤ 3 * (received actions).length + 3 ∧
        (∃ more, runs (ReplayPc.step pace) pc more = some .terminated ∧
          ∀ action ∈ more, ReplayPc.Undisturbed (r.save startTimeNs durationSeconds).packets action) ∧
        (pc = .terminated →
          (putItems replay = ((received actions).map Prod.fst).map RawItem.datagram ++ [.shutdown] ↔
            (recordedTimes actions).IsChain pace.Reaches))) ∧
    ∀ (liveMax replayMax : Int) (liveQueue replayQueue : BoundedRawQueue RawItem),
      BoundedRawQueue.new liveMax = .ok liveQueue → BoundedRawQueue.new replayMax = .ok replayQueue →
      ∀ (start : Runtime) (live replay : List (Label × Clock)) (recorded replayed : Program) (r : Recorder),
        LiveSession liveQueue (.new maxPackets maxBytes) start live recorded r →
        ReplaySession replayQueue pace (r.save startTimeNs durationSeconds) start replay replayed →
        (Program.returned (.main replayQueue (.replay pace) start) replay =
              Program.returned (.main liveQueue (.live (some (.new maxPackets maxBytes))) start) live ∧
            replayed.runtime.consumer.sent = recorded.runtime.consumer.sent ↔
          (recordedTimes (sourceActions (live.map Prod.fst))).IsChain pace.Reaches) := by
  constructor
  · intro actions r ran recorded uncapped replay pc replays undisturbed
    obtain ⟨payloads, -⟩ := captured ran recorded uncapped
    obtain ⟨more, puts, last, calls⟩ := ReplayPc.runs_undisturbed replays undisturbed
    have length : (r.save startTimeNs durationSeconds).packets.length = (received actions).length := by
      have same := congrArg List.length payloads
      rw [List.length_map, List.length_map] at same
      exact same
    rw [length] at calls
    refine ⟨calls, ReplayPc.completes pace _ pc, fun ended => ?_⟩
    rw [last ended, List.append_nil] at puts
    rw [puts, ← payloads, ← recorded_payloads recorded uncapped, List.append_cancel_right_eq]
    exact ⟨datagrams_inj, congrArg _⟩
  · intro liveMax replayMax liveQueue replayQueue liveNew replayNew start live replay recorded replayed r lived replays
    have follows := Program.runs_follows lived.ran lived.young
    have follows' := Program.runs_follows replays.ran replays.young
    have handled := lived.handled liveNew
    have earlier := follows.earlier
    rw [handled] at earlier
    have handled' := replays.handled replayNew earlier
    have threads : runs Threads.step (Threads.main liveQueue (.live (some (.new maxPackets maxBytes))))
      (live.map Prod.fst) =
        some recorded.threads := Program.runs_threads lived.ran
    rw [← recorded_payloads ((Threads.runs_recorder threads).symm.trans lived.recorded) lived.uncapped]
    constructor
    · rintro ⟨records, -⟩
      -- a record is returned for each datagram handled, so as many were handled
      have counts := congrArg List.length records
      rw [follows'.records, follows.records, Interpreter.outputs_length, Interpreter.outputs_length, handled,
        handled'] at counts
      exact (pace.payloads_prefix r.packets none).eq_of_length counts
    · intro all
      rw [Recorder.save, all] at handled'
      have same := follows.same
      have same' := follows'.same
      rw [lived.finished, handled] at same
      rw [replays.finished, handled'] at same'
      constructor
      · rw [follows'.records, follows.records, handled, handled']
      · rw [same'.consumer, same.consumer]

end

namespace Session

open Exact

def rawQueue : BoundedRawQueue RawItem := ⟨4, [], 0, by decide, by decide⟩

def start : Runtime := buildRuntime 256 100 10 .quiet

def context : Bytes := buildContextPacket (standardContextFields 2 97 4 (encodePayloadFormatU64 0b00 0b00000 16 16)) {}

def data : Bytes := buildDataPacket [1, 2, 3, 4, 5, 6, 7, 8] {}

def sender : Address := ("192.168.0.2", 4991)

def atZero (labels : List Label) : List (Label × Clock) := labels.map fun label => (label, ⟨0, fun _ => 0⟩)

def receive (tsNs : Int) (raw : Bytes) : List Label :=
  [.isSet false, .recvfrom (.datagram raw sender), .put (.datagram raw), .append tsNs sender raw].map Label.source

def consume : List Label := [.isSet false, .get, .handle false].map Label.consumer

def liveAt (second : Int) : List (Label × Clock) :=
  atZero ([.consumer .start] ++ [.socket false, .bind (.ok ("0.0.0.0", 4991)), .setReady].map Label.source ++
    receive 20 context ++ receive second data ++ consume ++ consume ++
    [.isSet false, .interrupt, .flushAll false, .stopSource].map Label.consumer ++ [.source (.isSet true)])

def recordedAt (second : Int) : List CapturePacket :=
  [⟨20, sender.1, sender.2, context⟩, ⟨second, sender.1, sender.2, data⟩]

def live : List (Label × Clock) := liveAt 10

def replay : List (Label × Clock) :=
  atZero ([.consumer .start] ++
    [.load (some ((recordedAt 10).map CapturePacket.entry)), .isSet false, .put (.datagram context), .isSet false,
      .put (.datagram data), .put .shutdown].map Label.source ++ consume ++ consume ++
    [.isSet false, .get, .flushAll false, .stopSource].map Label.consumer)

def paced : Pace := ⟨true, 9223372036⟩

theorem live_reaches {second : Int} {units : Nat}
    (ran : (runs Program.step (.main rawQueue (.live (some (.new none (some 1000)))) start)
    (liveAt second)).any (fun P =>
      P.threads.source = .live .terminated ∧ P.threads.consumer = .finished ∧
        P.threads.recorder.any (fun r => r.capped = false ∧ r.packets = recordedAt second) ∧
        P.threads.queue.dropped = 0 ∧ P.threads.queue.items = [] ∧ P.runtime.consumer.sent.length = units) = true)
    (young : Program.aged (.main rawQueue (.live (some (.new none (some 1000)))) start) (liveAt second) = []) :
    ∃ P r, LiveSession rawQueue (.new none (some 1000)) start (liveAt second) P r ∧
      r.save 0 1 = ⟨0, 1, recordedAt second⟩ ∧ P.runtime.consumer.sent.length = units := by
  obtain ⟨P, ran, facts⟩ := (Option.any_eq_true _ _).mp ran
  obtain ⟨ended, finished, recorder, kept, drained, emitted⟩ := of_decide_eq_true facts
  obtain ⟨r, recorded, holds⟩ := (Option.any_eq_true _ _).mp recorder
  obtain ⟨uncapped, packets⟩ := of_decide_eq_true holds
  exact ⟨P, r, ⟨ran, ended, finished, recorded, uncapped, kept, drained, young⟩, by rw [Recorder.save,
    packets], emitted⟩

theorem replay_reaches {packets : List CapturePacket} {replay : List (Label × Clock)} {units : Nat}
    (ran : (runs Program.step (.main rawQueue (.replay paced) start) replay).any (fun P =>
      P.threads.consumer = .finished ∧ P.threads.queue.dropped = 0 ∧ P.runtime.consumer.sent.length = units) = true)
    (young : Program.aged (.main rawQueue (.replay paced) start) replay = [])
    (undisturbed : ∀ action ∈ sourceActions (replay.map Prod.fst), ReplayPc.Undisturbed packets action)
    (unstopped : ∀ label ∈ replay, ¬ label.1.stops) :
    ∃ P, ReplaySession rawQueue paced ⟨0, 1, packets⟩ start replay P ∧ P.runtime.consumer.sent.length = units := by
  obtain ⟨P, ran, facts⟩ := (Option.any_eq_true _ _).mp ran
  obtain ⟨finished, kept, emitted⟩ := of_decide_eq_true facts
  exact ⟨P, ⟨ran, undisturbed, unstopped, finished, kept, young⟩, emitted⟩

theorem live_session : ∃ P r, LiveSession rawQueue (.new none (some 1000)) start live P r ∧
    r.save 0 1 = ⟨0, 1, recordedAt 10⟩ ∧ P.runtime.consumer.sent.length = 1 :=
  live_reaches (by decide +kernel) (by decide +kernel)

theorem replay_session : ∃ P, ReplaySession rawQueue paced ⟨0, 1, recordedAt 10⟩ start replay P ∧
    P.runtime.consumer.sent.length = 1 :=
  replay_reaches (by decide +kernel) (by decide +kernel) (by decide +kernel)
    (by simp [replay, atZero, consume, Label.stops])

theorem replay_reproduces_session :
    ∃ (recorded replayed : Program) (r : Recorder), LiveSession rawQueue (.new none (some 1000)) start live recorded r ∧
      ReplaySession rawQueue paced (r.save 0 1) start replay replayed ∧ recorded.runtime.consumer.sent.length = 1 ∧
      Program.returned (.main rawQueue (.replay paced) start) replay =
        Program.returned (.main rawQueue (.live (some (.new none (some 1000)))) start) live ∧
      replayed.runtime.consumer.sent = recorded.runtime.consumer.sent := by
  obtain ⟨recorded, r, lived, saved, emitted⟩ := live_session
  obtain ⟨replayed, replays, -⟩ := replay_session
  rw [← saved] at replays
  obtain ⟨-, session⟩ := replay_reproduces none (some 1000) 0 1 paced
  have falling : (recordedTimes (sourceActions (live.map Prod.fst))).IsChain paced.Reaches := by decide +kernel
  obtain ⟨records, units⟩ :=
    (session 4 4 rawQueue rawQueue rfl rfl start live replay recorded replayed r lived replays).mpr
    falling
  exact ⟨recorded, replayed, r, lived, replays, emitted, records, units⟩

/-- The second packet is recorded `10 ^ 19` nanoseconds after the first: the paced replay fails at its wait. -/
def distant : Int := 20 + 10 ^ 19

def replayDistant : List (Label × Clock) :=
  atZero ([.consumer .start] ++
    [.load (some ((recordedAt distant).map CapturePacket.entry)), .isSet false, .put (.datagram context), .isSet false,
      .wait none, .setFailed, .put .shutdown].map Label.source ++ consume ++
    [.isSet false, .get, .flushAll false, .stopSource].map Label.consumer)

theorem replay_distant :
    ∃ (recorded replayed : Program) (r : Recorder),
      LiveSession rawQueue (.new none (some 1000)) start (liveAt distant) recorded r ∧
      ReplaySession rawQueue paced (r.save 0 1) start replayDistant replayed ∧
      received (sourceActions ((liveAt distant).map Prod.fst)) = [(context, sender), (data, sender)] ∧
      putItems (sourceActions (replayDistant.map Prod.fst)) = [.datagram context, .shutdown] ∧
      recorded.runtime.consumer.sent.length = 1 ∧ replayed.runtime.consumer.sent = [] := by
  obtain ⟨recorded, r, lived, saved, emitted⟩ :
      ∃ P r, LiveSession rawQueue (.new none (some 1000)) start (liveAt distant) P r ∧
        r.save 0 1 = ⟨0, 1, recordedAt distant⟩ ∧ P.runtime.consumer.sent.length = 1 :=
    live_reaches (by decide +kernel) (by decide +kernel)
  obtain ⟨replayed, replays, nothing⟩ :
      ∃ P, ReplaySession rawQueue paced ⟨0, 1, recordedAt distant⟩ start replayDistant P ∧
        P.runtime.consumer.sent.length = 0 :=
    replay_reaches (by decide +kernel) (by decide +kernel) (by decide +kernel)
      (by simp [replayDistant, atZero, consume, Label.stops])
  rw [← saved] at replays
  exact ⟨recorded, replayed, r, lived, replays, rfl, rfl, emitted, List.length_eq_zero_iff.mp nothing⟩

end Session

end Sceptre
