import Mathlib.Algebra.GroupWithZero.Nat
import Sceptre.Foundation.Admission
import Sceptre.Threads.Accounting
import Sceptre.Threads.Capture

namespace Sceptre

open Foundation

def recordedBytes (packets : List CapturePacket) : Nat := (packets.map fun p => p.payload.length).sum

namespace Recorder

def Fits (maxPackets maxBytes : Option Int) (recorded : List CapturePacket) (packet : CapturePacket) : Prop :=
  (∀ bound ∈ maxPackets, (recorded.length + 1 : Int) ≤ bound) ∧
    ∀ bound ∈ maxBytes, (recordedBytes (recorded ++ [packet]) : Int) ≤ bound

instance (maxPackets maxBytes : Option Int) (recorded : List CapturePacket) (packet : CapturePacket) :
    Decidable (Fits maxPackets maxBytes recorded packet) := inferInstanceAs (Decidable (_ ∧ _))

def log (r : Recorder) : Log CapturePacket := ⟨r.packets, r.capped⟩

structure Records (maxPackets maxBytes : Option Int) (r : Recorder) (answers : List (CapturePacket × Bool)) : Prop where
  packetCap : r.maxPackets = maxPackets
  byteCap : r.maxBytes = maxBytes
  total : r.totalBytes = recordedBytes r.packets
  answered : r.log.Answered (Fits maxPackets maxBytes) answers

variable {maxPackets maxBytes : Option Int} {r : Recorder} {answers : List (CapturePacket × Bool)}

theorem records_new : (new maxPackets maxBytes).Records maxPackets maxBytes [] :=
  ⟨rfl, rfl, rfl, Log.answered_empty⟩

theorem recordedBytes_snoc (recorded : List CapturePacket) (packet : CapturePacket) :
    recordedBytes (recorded ++ [packet]) = recordedBytes recorded + packet.payload.length := by
  rw [recordedBytes, List.map_append, List.sum_append]
  simp [recordedBytes]

theorem Records.append_offer (records : r.Records maxPackets maxBytes answers) (tsNs : Int) (addr : Address)
    (data : Bytes) :
    ((r.append tsNs addr data).1, (r.append tsNs addr data).2.log) =
        r.log.offer (Fits maxPackets maxBytes) ⟨tsNs, addr.1, addr.2, data⟩ ∧
      (r.append tsNs addr data).2.maxPackets = r.maxPackets ∧ (r.append tsNs addr data).2.maxBytes = r.maxBytes ∧
      (r.append tsNs addr data).2.totalBytes = recordedBytes (r.append tsNs addr data).2.packets := by
  have full : (r.maxPackets.any (fun bound => (r.packets.length : Int) ≥ bound) ∨
      r.maxBytes.any (fun bound => (r.totalBytes + data.length : Int) > bound)) ↔
      ¬ Fits maxPackets maxBytes r.packets ⟨tsNs, addr.1, addr.2, data⟩ := by
    rw [records.packetCap, records.byteCap, records.total, Fits, recordedBytes_snoc, not_and_or]
    apply or_congr
    · cases maxPackets with
      | none => simp
      | some bound =>
        simp only [Option.any_some, decide_eq_true_eq, Option.mem_some_iff, forall_eq']
        omega
    · cases maxBytes with
      | none => simp
      | some bound =>
        simp only [Option.any_some, decide_eq_true_eq, Option.mem_some_iff, forall_eq']
        omega
  unfold Recorder.append Log.offer
  by_cases capped : r.capped = true
  · have shut : r.log.closed = true := capped
    rw [if_pos capped, if_pos shut]
    exact ⟨rfl, rfl, rfl, records.total⟩
  · have opened : ¬ r.log.closed = true := capped
    rw [if_neg capped, if_neg opened]
    by_cases fits : Fits maxPackets maxBytes r.packets ⟨tsNs, addr.1, addr.2, data⟩
    · have room : Fits maxPackets maxBytes r.log.kept ⟨tsNs, addr.1, addr.2, data⟩ := fits
      rw [if_neg (full.not.mpr (not_not.mpr fits)), if_pos room]
      refine ⟨?_, rfl, rfl, ?_⟩
      · simp [log, capped]
      · rw [recordedBytes_snoc, ← records.total]
    · have none : ¬ Fits maxPackets maxBytes r.log.kept ⟨tsNs, addr.1, addr.2, data⟩ := fits
      rw [if_pos (full.mpr fits), if_neg none]
      exact ⟨rfl, rfl, rfl, records.total⟩

theorem Records.append (records : r.Records maxPackets maxBytes answers) (tsNs : Int) (addr : Address) (data : Bytes) :
    (r.append tsNs addr data).2.Records maxPackets maxBytes
      (answers ++ [(⟨tsNs, addr.1, addr.2, data⟩, (r.append tsNs addr data).1)]) := by
  obtain ⟨offered, packetCap, byteCap, total⟩ := records.append_offer tsNs addr data
  obtain ⟨returned, log⟩ := Prod.mk.inj offered
  refine ⟨packetCap.trans records.packetCap, byteCap.trans records.byteCap, total, ?_⟩
  rw [log, returned]
  exact records.answered.offer _

theorem after_entries (r : Recorder) (actions : List SourceAction) :
    after (some r) actions =
      some ((entries actions).foldl (fun r p => (r.append p.tsNs (p.ip, p.port) p.payload).2) r) := by
  induction actions generalizing r with
  | nil => rfl
  | cons action rest ih =>
    cases action with
    | append tsNs addr data => exact ih (r.append tsNs addr data).2
    | _ => exact ih r

end Recorder

namespace Threads

variable {queue : BoundedRawQueue RawItem} {mode : Mode} {labels : List Label} {σ σ' : Threads}
  {maxPackets maxBytes : Option Int}

def appends (σ : Threads) : Label → List (CapturePacket × Bool)
  | .source (.append tsNs addr data) =>
    σ.recorder.toList.map fun r => (⟨tsNs, addr.1, addr.2, data⟩, (r.append tsNs addr data).1)
  | _ => []

/-- Thread A is not between receiving a datagram and offering it to the recorder. -/
def Settled (σ : Threads) : Prop :=
  ∀ data addr, σ.source ≠ .live (.putting data addr) ∧ σ.source ≠ .live (.appending data addr)

theorem step_records {label : Label} (stepped : σ.step label = some σ') {r : Recorder}
    {answers : List (CapturePacket × Bool)} (held : σ.recorder = some r)
    (records : r.Records maxPackets maxBytes answers) :
    ∃ r', σ'.recorder = some r' ∧ r'.Records maxPackets maxBytes (answers ++ σ.appends label) ∧
      (σ.appends label).map Prod.fst = entries label.source?.toList := by
  have recorder := step_recorder stepped
  rw [held] at recorder
  have unchanged : Recorder.after (some r) label.source?.toList = some r → σ.appends label = [] →
      entries label.source?.toList = [] →
      ∃ r', σ'.recorder = some r' ∧ r'.Records maxPackets maxBytes (answers ++ σ.appends label) ∧
        (σ.appends label).map Prod.fst = entries label.source?.toList := by
    intro same silent none
    refine ⟨r, recorder.trans same, ?_, ?_⟩
    · rw [silent, List.append_nil]
      exact records
    · rw [silent, none]
      rfl
  cases label with
  | source action =>
    cases action with
    | append tsNs addr data =>
      have answered : σ.appends (.source (.append tsNs addr data)) =
          [(⟨tsNs, addr.1, addr.2, data⟩, (r.append tsNs addr data).1)] := by
        rw [appends, held]
        rfl
      refine ⟨_, recorder, ?_, ?_⟩
      · rw [answered]
        exact records.append tsNs addr data
      · rw [answered]
        rfl
    | _ => exact unchanged rfl rfl rfl
  | watchdog => exact unchanged rfl rfl rfl
  | consumer action => exact unchanged rfl rfl rfl

theorem runs_records (ran : runs step (main queue (.live (some (.new maxPackets maxBytes)))) labels = some σ) :
    ∃ r, σ.recorder = some r ∧
      r.Records maxPackets maxBytes
        (outputsAlong step appends (main queue (.live (some (.new maxPackets maxBytes)))) labels) ∧
      (outputsAlong step appends (main queue (.live (some (.new maxPackets maxBytes)))) labels).map Prod.fst =
        entries (sourceActions labels) := by
  refine runs_invariant (fun labels σ => ∃ r, σ.recorder = some r ∧
    r.Records maxPackets maxBytes
      (outputsAlong step appends (main queue (.live (some (.new maxPackets maxBytes)))) labels) ∧
    (outputsAlong step appends (main queue (.live (some (.new maxPackets maxBytes)))) labels).map Prod.fst =
      entries (sourceActions labels)) ⟨_, rfl, Recorder.records_new, rfl⟩ ?_ ran
  rintro labels σ label σ' ran ⟨r, held, records, offered⟩ stepped
  obtain ⟨r', held', records', offered'⟩ := step_records stepped held records
  rw [outputsAlong_concat appends ran]
  refine ⟨r', held', records', ?_⟩
  rw [List.map_append, offered, offered', sourceActions, sourceActions, filterMap_concat, entries, entries, entries,
    List.filterMap_append]

theorem runs_received {recorder : Option Recorder} (ran : runs step (main queue (.live recorder)) labels = some σ) :
    ∃ pending, received (sourceActions labels) = (entries (sourceActions labels)).map CapturePacket.source ++ pending ∧
      pending.length ≤ 1 ∧
      (σ.Settled → pending = [] ∧
        (received (sourceActions labels)).map (fun r => RawItem.datagram r.1) = putItems (sourceActions labels)) := by
  have follows := runs_source ran
  cases source : σ.source with
  | liveIdle =>
    rw [source] at follows
    rw [show sourceActions labels = [] from follows]
    exact ⟨[], rfl, Nat.zero_le 1, fun _ => ⟨rfl, rfl⟩⟩
  | live pc =>
    rw [source] at follows
    obtain ⟨puts, recorded⟩ := LivePc.runs_io follows
    refine ⟨pc.unrecorded, recorded, ?_, ?_⟩
    · cases pc with
      | putting data addr => exact Nat.le_refl 1
      | appending data addr => exact Nat.le_refl 1
      | _ => exact Nat.zero_le 1
    · intro settled
      cases pc with
      | putting data addr => exact absurd source (settled data addr).1
      | appending data addr => exact absurd source (settled data addr).2
      | _ => exact ⟨rfl, puts.trans (List.append_nil _)⟩
  | replayIdle pace =>
    rw [source] at follows
    exact absurd follows id
  | replay pace pc =>
    rw [source] at follows
    exact absurd follows id

end Threads

/-- Recording does not depend on the live path: the recorder holds the longest prefix of what was received that its
    caps admit, whatever the queue evicts and whatever Thread B does, and answers True to that and nothing else. -/
theorem recording_independent {maxsize : Int} {maxPackets maxBytes : Option Int} {queue : BoundedRawQueue RawItem}
    {labels : List Label} {σ : Threads} (created : BoundedRawQueue.new maxsize = .ok queue)
    (ran : runs Threads.step (.main queue (.live (some (.new maxPackets maxBytes)))) labels = some σ) :
    let actions := sourceActions labels
    let answers :=
      outputsAlong Threads.step Threads.appends (.main queue (.live (some (.new maxPackets maxBytes)))) labels
    ∃ r, σ.recorder = some r ∧
      LongestAdmissible (Recorder.Fits maxPackets maxBytes) r.packets (entries actions) ∧
      r.totalBytes = recordedBytes r.packets ∧
      answers = r.packets.map (fun p => (p, true)) ++
        ((entries actions).drop r.packets.length).map (fun p => (p, false)) ∧
      (∃ pending, received actions = (entries actions).map CapturePacket.source ++ pending ∧ pending.length ≤ 1 ∧
        (σ.Settled → pending = [])) ∧
      σ.queue.dropped = (BoundedRawQueue.evictions (queueOps labels) queue).length ∧
      (σ.Settled → (received actions).length =
        σ.queue.dropped + σ.queue.items.length + (BoundedRawQueue.run (queueOps labels) queue).1.length) ∧
      ∀ (maxsize' : Int) (queue' : BoundedRawQueue RawItem) (labels' : List Label) (σ' : Threads),
        BoundedRawQueue.new maxsize' = .ok queue' →
        runs Threads.step (.main queue' (.live (some (.new maxPackets maxBytes)))) labels' = some σ' →
        entries (sourceActions labels') = entries actions →
        σ'.recorder = some r ∧
          outputsAlong Threads.step Threads.appends (.main queue' (.live (some (.new maxPackets maxBytes)))) labels' =
            answers := by
  intro actions answers
  obtain ⟨r, held, records, offered⟩ := Threads.runs_records ran
  obtain ⟨pending, split, few, settled⟩ := Threads.runs_received ran
  have accounts := queue.accounts created (queueOps labels)
  have final := Threads.runs_queue ran
  have longest := records.answered.longest
  have answered := records.answered.answers_eq
  rw [offered] at longest answered
  refine ⟨r, held, longest, records.total, answered, ⟨pending, split, few, fun ended => (settled ended).1⟩, ?_, ?_, ?_⟩
  · rw [final]
    exact accounts.dropped
  · intro ended
    have puts := congrArg List.length (settled ended).2
    have total := accounts.total
    rw [puts_queueOps] at total
    rw [List.length_map] at puts
    rw [final]
    calc (received actions).length = (putItems (sourceActions labels)).length := puts
      _ = (BoundedRawQueue.run (queueOps labels) queue).1.length +
        (BoundedRawQueue.run (queueOps labels) queue).2.dropped +
          (BoundedRawQueue.run (queueOps labels) queue).2.items.length := total
      _ = _ := by omega
  · intro maxsize' queue' labels' σ' _ ran' same
    obtain ⟨r', held', records', offered'⟩ := Threads.runs_records ran'
    have after := (Threads.runs_recorder ran).symm.trans held
    have after' := (Threads.runs_recorder ran').symm.trans held'
    rw [Threads.main, Recorder.after_entries] at after after'
    rw [same] at after'
    have equal : some r' = some r := after'.symm.trans after
    have answered' := records'.answered.answers_eq
    rw [offered', same, Option.some.inj equal] at answered'
    exact ⟨held'.trans equal, answered'.trans answered.symm⟩

namespace Capped

def rawQueue : BoundedRawQueue RawItem := ⟨1, [], 0, by decide, by decide⟩

def packet (tsNs : Int) (size : Nat) : CapturePacket := ⟨tsNs, "192.168.0.2", 4991, List.replicate size 0⟩

def receive (p : CapturePacket) : List Label :=
  [.isSet false, .recvfrom (.datagram p.payload (p.ip, p.port)), .put (.datagram p.payload),
    .append p.tsNs (p.ip, p.port) p.payload].map Label.source

def labels : List Label :=
  [.consumer .start] ++ [.socket false, .bind (.ok ("0.0.0.0", 4991)), .setReady].map Label.source ++
    receive (packet 30 8) ++ receive (packet 10 16) ++ receive (packet 20 4) ++
    [.isSet false, .get, .handle false].map Label.consumer

theorem recording_independent_capped :
    ∃ σ r, runs Threads.step (.main rawQueue (.live (some (.new none (some 20))))) labels = some σ ∧
      σ.recorder = some r ∧ r.packets = [packet 30 8] ∧
      outputsAlong Threads.step Threads.appends (.main rawQueue (.live (some (.new none (some 20))))) labels =
        [(packet 30 8, true), (packet 10 16, false), (packet 20 4, false)] ∧
      σ.queue.dropped = 2 ∧ 3 = σ.queue.dropped + σ.queue.items.length + 1 := by
  have ran : (runs Threads.step (.main rawQueue (.live (some (.new none (some 20))))) labels).any (fun σ =>
      σ.source = .live .checking ∧ σ.recorder.any (fun r => r.packets = [packet 30 8]) ∧
        σ.queue.dropped = 2) = true := by
    decide +kernel
  obtain ⟨σ, ran, facts⟩ := (Option.any_eq_true _ _).mp ran
  obtain ⟨checking, recorded, dropped⟩ := of_decide_eq_true facts
  obtain ⟨r', held', packets⟩ := (Option.any_eq_true _ _).mp recorded
  have created : BoundedRawQueue.new 1 = .ok rawQueue := rfl
  obtain ⟨r, held, -, -, answers, -, -, counted, -⟩ := recording_independent created ran
  have same : r' = r := Option.some.inj (held'.symm.trans held)
  subst same
  have kept := of_decide_eq_true packets
  have settled : σ.Settled := by
    intro data addr
    rw [checking]
    exact ⟨nofun, nofun⟩
  refine ⟨σ, r', ran, held, kept, ?_, dropped, counted settled⟩
  rw [answers, kept]
  decide +kernel

end Capped

end Sceptre
