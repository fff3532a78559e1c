import Mathlib.Algebra.GroupWithZero.Nat
import Sceptre.Metrics.Efficiency
import Sceptre.Threads.Balance
import Sceptre.Threads.Recording
import Sceptre.Wire.SampleSize

namespace Sceptre

open Foundation

def totalLength (chunks : List Bytes) : Nat := (chunks.map List.length).sum

theorem totalLength_append (first second : List Bytes) :
    totalLength (first ++ second) = totalLength first + totalLength second := by
  rw [totalLength, List.map_append, List.sum_append]
  rfl

theorem totalLength_le {chunks : List Bytes} {most : Nat} (bounded : ∀ chunk ∈ chunks, chunk.length ≤ most) :
    totalLength chunks ≤ chunks.length * most := by
  induction chunks with
  | nil => simp [totalLength]
  | cons chunk rest ih =>
    have first := bounded chunk (List.mem_cons_self ..)
    have later := ih fun other member => bounded other (List.mem_cons_of_mem _ member)
    rw [totalLength, List.map_cons, List.sum_cons, List.length_cons, Nat.succ_mul]
    change chunk.length + totalLength rest ≤ _
    omega

theorem length_le_of_keys {κ ν μ : Type} [DecidableEq κ] {d : OrderedDict κ ν} {e : OrderedDict κ μ}
    (subset : ∀ key ∈ d.keys, key ∈ e.keys) : d.size ≤ e.size := by
  rw [OrderedDict.size_eq, OrderedDict.size_eq]
  exact (List.subperm_of_subset d.keys_nodup subset).length_le

namespace Recorder

theorem Records.bounded {maxPackets maxBytes : Option Int} {r : Recorder} {answers : List (CapturePacket × Bool)}
    (records : r.Records maxPackets maxBytes answers) :
    (∀ bound ∈ maxPackets, 0 ≤ bound → (r.packets.length : Int) ≤ bound) ∧
      ∀ bound ∈ maxBytes, 0 ≤ bound → (r.totalBytes : Int) ≤ bound := by
  rw [records.total]
  rcases List.eq_nil_or_concat' r.packets with none | ⟨earlier, last, split⟩
  · rw [none]
    exact ⟨fun bound _ positive => positive, fun bound _ positive => positive⟩
  · obtain ⟨packets, bytes⟩ := records.answered.admissible earlier last [] split
    rw [split]
    refine ⟨fun bound member _ => ?_, fun bound member _ => bytes bound member⟩
    have room := packets bound member
    rw [List.length_append, List.length_singleton]
    omega

end Recorder

namespace ThroughputMeter

theorem metered_keys {k : Consumer} {s : StreamId} (tracked : s ∈ (metered k).streams.keys) :
    ∃ u ∈ k.sent, u.streamId = s := by
  obtain ⟨stat, found⟩ := (OrderedDict.mem_keys_iff ..).mp tracked
  rw [metered, call_stream] at found
  split at found
  · cases found
  · rename_i some
    obtain ⟨tallied, member⟩ := List.exists_mem_of_ne_nil _ some
    obtain ⟨inside, own⟩ := List.mem_filter.mp member
    obtain ⟨u, sent, rfl⟩ := List.mem_map.mp inside
    exact ⟨u, sent, of_decide_eq_true own⟩

theorem metered_pending {k : Consumer} {s : StreamId} {stat : StreamStat}
    (found : (metered k).streams.get? s = some stat) :
    stat.pending.length ≤ reorderWindow := by
  rw [stream_eq found]
  exact StreamStat.tally_all_pending_length _ (Nat.zero_le _)

end ThroughputMeter

section

variable [Platform] {limits : Limits} {maxStreams : Int} {σ : Runtime} {lanes : StreamId → Lane}

theorem Wired.unit_tracked (wired : Wired limits maxStreams σ lanes) {u : EmitUnit} (member : u ∈ σ.consumer.sent) :
    u.streamId ∈ σ.interpreter.contexts.keys := by
  obtain ⟨w, closed, -⟩ := wired.unit member
  obtain ⟨-, -, -, -, first, rest, -, -, split, -, -⟩ := (wired.sound u.streamId).window closed
  have inside := (wired.sound u.streamId).cut.isInfix w.packets (List.mem_map_of_mem closed)
  have received : (lanes u.streamId).received ≠ [] := by
    intro none
    rw [none, split] at inside
    exact absurd (List.eq_nil_of_infix_nil inside) (List.cons_ne_nil _ _)
  obtain ⟨last, known⟩ := Option.ne_none_iff_exists'.mp fun none => received (List.getLast?_eq_none_iff.mp none)
  have counter := wired.last u.streamId
  rw [(wired.sound u.streamId).last, known] at counter
  exact wired.tracking.counters _ ((OrderedDict.mem_keys_iff ..).mpr ⟨_, counter.symm⟩)

theorem Wired.window_bounded (wired : Wired limits maxStreams σ lanes) (below : ∀ s, (lanes s).Below limits)
    (small : ∀ s ctx, σ.interpreter.contexts.get? s = some ctx → ctx.SmallSamples) {s : StreamId} {b : IngestBuffer}
    (found : σ.router.buffers.get? s = some b) (opened : b.chunks ≠ []) :
    b.numSamples < limits.maxSamples ∧ (b.chunks.length : Int) ≤ b.numSamples ∧
      (b.chunks.flatten.length : Int) ≤ 16 * b.numSamples := by
  have refines := wired.found found
  have packets : (lanes s).packets ≠ [] := fun none => opened ((refines.chunks_nil (wired.sound s)).mpr none)
  obtain ⟨ctx, inForce, name, complex, group, usable, covered⟩ := (wired.sound s).covered packets
  have reads : ∀ p ∈ (lanes s).packets, p.Reads name complex group := fun p member => (covered p member).2
  obtain ⟨n, length, count⟩ := joined_counted usable.positive reads
  have sized : (group : Int) ≤ 16 := by
    refine small s ctx ((wired.context s).symm.trans inForce) group ?_
    rw [usable.bytesPerSample]
    rfl
  rw [refines.chunks_flatten, refines.window.chunks, refines.window.numSamples, length, count]
  refine ⟨by rw [← count]; exact below s packets, ?_, ?_⟩
  · rw [← count]
    exact chunks_counted usable.positive reads
  · rw [Int.natCast_mul, Int.mul_comm]
    exact Int.mul_le_mul_of_nonneg_right sized (Int.natCast_nonneg n)

end

namespace Program

def openChunks (P : Program) : List Bytes := P.runtime.router.buffers.entries.map fun e => e.2.chunks.flatten

/-- The bytes of received datagrams that the queue, Thread B and the open windows hold. -/
def retainedBytes (P : Program) : Nat :=
  totalLength (datagramsOf P.threads.queue.items ++ P.threads.consumer.inHandRaw ++ P.openChunks)

end Program

section

variable [Platform]

/-- The memory of the program is bounded in any run, whatever datagrams flood it: the queue, the tracked streams,
    their windows, the meter and the recorder never hold more than their limits, and so many bytes of the received
    datagrams. -/
theorem memory_bounded (maxsize : Int) (queue : BoundedRawQueue RawItem)
    (created : BoundedRawQueue.new maxsize = .ok queue) (mode : Mode) (maxStreams : Int) (limits : Limits)
    (labels : List (Label × Clock)) (P : Program)
    (ran : runs Program.step (Program.launch limits maxStreams queue mode) labels = some P) (most : Nat)
    (sized : ∀ raw ∈ datagramsPut (labels.map Prod.fst), raw.length ≤ most) :
    P.retainedBytes ≤ (maxsize.toNat + 1) * most + maxStreams.toNat * (16 * (limits.maxSamples.toNat - 1)) ∧
      P.threads.queue.items.length ≤ maxsize.toNat ∧
      P.runtime.interpreter.contexts.size ≤ maxStreams.toNat ∧ P.runtime.interpreter.lastCounter.size ≤
        maxStreams.toNat ∧
      P.runtime.router.buffers.size ≤ maxStreams.toNat ∧
      (∀ s b, P.runtime.router.buffers.get? s = some b → b.chunks.length ≤ limits.maxSamples.toNat - 1) ∧
      (ThroughputMeter.metered P.runtime.consumer).streams.size ≤ maxStreams.toNat ∧
      (∀ s stat, (ThroughputMeter.metered P.runtime.consumer).streams.get? s = some stat →
        stat.pending.length ≤ reorderWindow) ∧
      ∀ maxPackets maxBytes, mode = .live (some (.new maxPackets maxBytes)) → ∃ r, P.threads.recorder = some r ∧
        (∀ bound ∈ maxPackets, 0 ≤ bound → (r.packets.length : Int) ≤ bound) ∧
        ∀ bound ∈ maxBytes, 0 ≤ bound → (r.totalBytes : Int) ≤ bound := by
  obtain ⟨lanes, balanced⟩ := Program.balanced_runs ran
  have wired := balanced.wired
  have threads := Program.runs_threads ran
  have size := (BoundedRawQueue.new_tracks created).2
  have small : ∀ s ctx, P.runtime.interpreter.contexts.get? s = some ctx → ctx.SmallSamples := by
    rw [balanced.interpreter]
    exact Interpreter.small_run maxStreams _
  have windows : ∀ s b, P.runtime.router.buffers.get? s = some b →
      b.chunks.length ≤ limits.maxSamples.toNat - 1 ∧ b.chunks.flatten.length ≤ 16 * (limits.maxSamples.toNat - 1) := by
    intro s b found
    by_cases opened : b.chunks = []
    · rw [opened]
      exact ⟨Nat.zero_le _, Nat.zero_le _⟩
    · obtain ⟨below, chunks, bytes⟩ := wired.window_bounded balanced.below small found opened
      omega
  have queued : P.threads.queue.items.length ≤ maxsize.toNat := by
    have bounded := P.threads.queue.bounded
    have same : P.threads.queue.maxsize = queue.maxsize := by
      rw [Threads.runs_queue threads]
      exact BoundedRawQueue.run_maxsize ..
    omega
  have buffers : P.runtime.router.buffers.size ≤ maxStreams.toNat := by
    rw [OrderedDict.size_eq, wired.keys, ← OrderedDict.size_eq]
    exact wired.tracking.size
  refine ⟨?_, queued, wired.tracking.size, ?_, buffers, fun s b found => (windows s b found).1, ?_, ?_, ?_⟩
  · have received : ∀ raw ∈ datagramsOf P.threads.queue.items ++ P.threads.consumer.inHandRaw, raw.length ≤ most := by
      intro raw member
      apply sized raw
      apply (Program.taken_ordered created ran balanced.taken).subset
      rw [List.append_assoc]
      exact List.mem_append_right _ ((List.mem_append.mp member).symm.elim (List.mem_append_left _)
        (List.mem_append_right _))
    have waiting := totalLength_le received
    have opened : totalLength P.openChunks ≤ P.openChunks.length * (16 * (limits.maxSamples.toNat - 1)) := by
      apply totalLength_le
      intro chunk member
      obtain ⟨⟨s, b⟩, inside, rfl⟩ := List.mem_map.mp member
      exact (windows s b (OrderedDict.get?_of_mem _ inside)).2
    have items : (datagramsOf P.threads.queue.items ++ P.threads.consumer.inHandRaw).length ≤ maxsize.toNat + 1 := by
      have among : (datagramsOf P.threads.queue.items).length ≤ P.threads.queue.items.length :=
        List.length_filterMap_le ..
      have hand : P.threads.consumer.inHandRaw.length ≤ 1 := by
        cases P.threads.consumer with
        | handling item => cases item <;> simp [RunPc.inHandRaw]
        | _ => simp [RunPc.inHandRaw]
      rw [List.length_append]
      omega
    have streams : P.openChunks.length ≤ maxStreams.toNat := by
      rw [Program.openChunks, List.length_map]
      exact buffers
    rw [Program.retainedBytes, totalLength_append]
    exact Nat.add_le_add (waiting.trans (Nat.mul_le_mul_right _ items)) (opened.trans (Nat.mul_le_mul_right _ streams))
  · exact (length_le_of_keys wired.tracking.counters).trans wired.tracking.size
  · refine (length_le_of_keys ?_).trans wired.tracking.size
    intro s tracked
    obtain ⟨u, sent, rfl⟩ := ThroughputMeter.metered_keys tracked
    exact wired.unit_tracked sent
  · exact fun s stat found => ThroughputMeter.metered_pending found
  · rintro maxPackets maxBytes rfl
    obtain ⟨r, held, records, -⟩ := Threads.runs_records threads
    exact ⟨r, held, records.bounded⟩

end

namespace Session

open Exact

theorem memory_bounded_session :
    ∃ P, runs Program.step (.launch ⟨100, 10⟩ 256 rawQueue (.live (some (.new none (some 1000))))) live = some P ∧
      P.retainedBytes ≤ 5 * 1000 + 256 * (16 * 99) := by
  obtain ⟨P, r, session, -⟩ := live_session
  have sized : ∀ raw ∈ datagramsPut (live.map Prod.fst), raw.length ≤ 1000 := by decide +kernel
  obtain ⟨bounded, -⟩ :=
    memory_bounded 4 rawQueue rfl (.live (some (.new none (some 1000)))) 256 ⟨100, 10⟩ live P session.ran 1000 sized
  exact ⟨P, session.ran, bounded⟩

end Session

end Sceptre
