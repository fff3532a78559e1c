import Sceptre.Runtime.Counters
import Sceptre.Threads.Balance

namespace Sceptre

open Foundation

section
variable [Platform] {limits : Limits} {maxStreams : Int} {queue : BoundedRawQueue RawItem} {mode : Mode}
  {labels : List (Label × Clock)} {P : Program} {lanes : StreamId → Lane}

namespace Program

theorem Balanced.segmented (balanced : Balanced limits maxStreams queue mode labels P lanes) (s : StreamId) :
    ∃ windows current, Segmentation (fun r => r.2 = []) Consecutive
      (dataRecords s (returned (launch limits maxStreams queue mode) labels)) windows current ∧
      (unitsOf s P.runtime.consumer.sent).map (fun u => u.samples.raw) = windows.map (List.flatMap Prod.snd) ∧
      P.openBytes s = current.flatMap Prod.snd := by
  have cut := (balanced.wired.sound s).cut.map (fun r => r.2 = []) Consecutive (fun p : Packet => (p.metadata, p.data))
    (fun _ => Iff.rfl) (fun _ _ link => link)
  rw [balanced.recorded] at cut
  refine ⟨_, _, cut, ?_, ?_⟩
  · rw [balanced.wired.emitted, List.map_map, List.map_map, List.map_map]
    refine List.map_congr_left fun w _ => ?_
    simp [Window.render, joined, List.flatMap_map]
  · rw [balanced.openBytes, List.flatMap_map]
    rfl

end Program

/-- Loss is seen, up to multiples of 16. The sender numbers the data packets of a stream; whatever is lost of them on
    the way to the source, or evicted by the queue, rejected or dropped, in any interleaving: the data records of the
    stream are those of some of its packets in their order; a record is flagged just when the number of packets
    missing before it is no multiple of 16, the first one never; and no unit or open window goes over such a gap. -/
theorem losses_flagged (maxsize : Int) (queue : BoundedRawQueue RawItem)
    (created : BoundedRawQueue.new maxsize = .ok queue) (mode : Mode) (maxStreams : Int) (limits : Limits)
    (labels : List (Label × Clock)) (P : Program)
    (ran : runs Program.step (Program.launch limits maxStreams queue mode) labels = some P) (s : StreamId) (base : Nat)
    (transmitted : List Bytes) (numbered : Numbered base s transmitted)
    (arrived : (datagramsPut (labels.map Prod.fst)).Sublist transmitted) :
    ∃ (placed : List (Nat × Metadata × Bytes)) (windows : List (List (Nat × Metadata × Bytes)))
      (current : List (Nat × Metadata × Bytes)),
      placed.map Prod.snd = dataRecords s (Program.returned (Program.launch limits maxStreams queue mode) labels) ∧
      (∀ r ∈ placed, ∃ raw, (dataPackets s transmitted)[r.1]? = some raw ∧ MadeOf s raw r.2) ∧
      (∀ r ∈ placed.head?, r.2.1.gapBefore = false) ∧
      placed.IsChain (fun r r' => r.1 < r'.1 ∧ (r'.2.1.gapBefore = true ↔ ¬ 16 ∣ r'.1 - (r.1 + 1))) ∧
      Segmentation (fun r => r.2.2 = []) (fun r r' => r.1 < r'.1 ∧ 16 ∣ r'.1 - (r.1 + 1)) placed windows current ∧
      (unitsOf s P.runtime.consumer.sent).map (fun u => u.samples.raw) = windows.map (List.flatMap fun r => r.2.2) ∧
      P.openBytes s = current.flatMap fun r => r.2.2 := by
  obtain ⟨lanes, balanced⟩ := Program.balanced_runs ran
  have ordered := (Program.taken_ordered created ran balanced.taken).trans arrived
  rw [List.append_assoc] at ordered
  obtain ⟨placed, records, places, first, linked⟩ :=
    numbered.placed ((List.sublist_append_left _ _).trans ordered) maxStreams
  rw [← balanced.records] at records
  obtain ⟨windows', current', cut, units, opened⟩ := balanced.segmented s
  obtain ⟨windows, current, rfl, rfl, placedCut⟩ := cut.unmap Prod.snd records
  refine ⟨placed, windows, current, records, places, first, ?_, ?_, ?_, ?_⟩
  · exact linked.imp fun r r' link => ⟨link.1, link.2.1⟩
  · exact placedCut.relink linked fun r r' follows link => ⟨link.1, link.2.2 follows⟩
  · rw [units, List.map_map]
    exact List.map_congr_left fun w _ => List.flatMap_map ..
  · rw [opened, List.flatMap_map]

end

namespace Session

open Exact

def transmission : List Bytes := context :: [0, 1, 2].map fun n => buildDataPacket [1, 2, 3, 4, 5, 6, 7, 8]
    { counter := n }

def losingOne : List (Label × Clock) :=
  atZero ([.consumer .start] ++ [.socket false, .bind (.ok ("0.0.0.0", 4991)), .setReady].map Label.source ++
    (transmission.eraseIdx 2).flatMap (receive 0) ++ consume ++ consume ++ consume ++
    [.isSet false, .interrupt, .flushAll false, .stopSource].map Label.consumer)

theorem losses_flagged_one :
    ∃ P, runs Program.step (.launch ⟨100, 10⟩ 1 rawQueue (.live none)) losingOne = some P ∧
      ∃ placed : List (Nat × Metadata × Bytes),
        placed.map Prod.snd = dataRecords (some 123)
          (Program.returned (.launch ⟨100, 10⟩ 1 rawQueue (.live none)) losingOne) ∧
        placed.length = 2 ∧
        placed.IsChain (fun r r' => r.1 < r'.1 ∧ (r'.2.1.gapBefore = true ↔ ¬ 16 ∣ r'.1 - (r.1 + 1))) := by
  have ran : (runs Program.step (.launch ⟨100, 10⟩ 1 rawQueue (.live none)) losingOne).isSome = true := by
    decide +kernel
  have two :
    (dataRecords (some 123) (Program.returned (.launch ⟨100, 10⟩ 1 rawQueue (.live none)) losingOne)).length = 2 := by
    decide +kernel
  obtain ⟨P, ran⟩ := Option.isSome_iff_exists.mp ran
  obtain ⟨placed, -, -, records, -, -, flagged, -⟩ :=
    losses_flagged 4 rawQueue rfl (.live none) 1 ⟨100, 10⟩ losingOne P ran
    (some 123) 0 transmission (by decide +kernel) (by decide +kernel)
  refine ⟨P, ran, placed, records, ?_, flagged⟩
  rw [← two, ← records, List.length_map]

end Session

end Sceptre
