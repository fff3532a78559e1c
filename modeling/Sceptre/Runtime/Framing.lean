import Sceptre.Buffer.Stitching
import Sceptre.Interpreter.Slots
import Sceptre.Wire.Encoding
import Sceptre.Wire.HeaderLayout

namespace Sceptre

open Foundation

def Header.overhead (hdr : Header) : Nat := hdr.headerLen + if hdr.hasTrailer then trailerSize else 0

def WellFramed (hdr : Header) (raw : Bytes) : Prop := hdr.overhead ≤ 4 * hdr.packetSize ∧
    4 * hdr.packetSize ≤ raw.length

instance (hdr : Header) (raw : Bytes) : Decidable (WellFramed hdr raw) := inferInstanceAs (Decidable (_ ∧ _))

theorem trimData_truncated {raw : Bytes} {hdr : Header} (bytesPerSample : Int)
    (short : raw.length < 4 * hdr.packetSize) :
    ∃ e, trimData raw hdr bytesPerSample = .error e := by
  have cut : raw.length < hdr.packetSize * 4 := by omega
  rw [trimData, if_pos cut]
  exact ⟨_, rfl⟩

theorem trimData_returns {raw : Bytes} {hdr : Header} {bytesPerSample : Int} (whole : 4 * hdr.packetSize ≤ raw.length)
    (nonzero : bytesPerSample ≠ 0) : ∃ body numSamples, trimData raw hdr bytesPerSample = .ok (body, numSamples) := by
  have uncut : ¬ raw.length < hdr.packetSize * 4 := by omega
  rw [trimData, if_neg uncut]
  dsimp only
  rw [if_neg nonzero]
  exact ⟨_, _, rfl⟩

theorem trimData_clamped {raw : Bytes} {hdr : Header} {bytesPerSample : Int} (whole : 4 * hdr.packetSize ≤ raw.length)
    (small : 4 * hdr.packetSize < hdr.overhead) (nonzero : bytesPerSample ≠ 0) :
    trimData raw hdr bytesPerSample = .ok ([], 0) := by
  have uncut : ¬ raw.length < hdr.packetSize * 4 := by omega
  have stop : max hdr.headerLen (min raw.length (hdr.packetSize * 4) - if hdr.hasTrailer then trailerSize else 0) =
      hdr.headerLen := by
    rw [Header.overhead] at small
    omega
  have none : raw.extract hdr.headerLen hdr.headerLen = [] := by
    rw [List.extract_eq_take_drop, Nat.sub_self, List.take_zero]
  rw [trimData, if_neg uncut]
  dsimp only
  rw [if_neg nonzero, stop, none]
  simp

open Interpreter

section

variable [Platform] {i j : Interpreter} {raw : Bytes} {hdr : Header} {ctx : Context} {bytesPerSample : Int}

/-- What a data packet must not hide: it is ingested only when it is well framed; else it is counted and changes
    nothing more, so that the next good packet of the stream has the gap before it, and is not stitched over it. -/
structure KeepsGap (i : Interpreter) (raw : Bytes) (hdr : Header) : Prop where
  ingested : (∃ md body, output raw i = some (.data md body)) ∨ (after raw i).lastCounter ≠ i.lastCounter →
    WellFramed hdr raw
  rejected : ¬ WellFramed hdr raw → output raw i = none ∧ after raw i = { i with errors := i.errors + 1 }
  signalled : ¬ WellFramed hdr raw → ∀ others, (∀ other ∈ others, concerns hdr.streamId other = false) →
    ∀ next hdr', parseHeader next = .ok hdr' → hdr'.packetType = packetTypeIfData → hdr'.streamId = hdr.streamId →
      WellFramed hdr' next → ∀ prev, i.lastCounter.get? hdr.streamId = some prev →
        hdr'.packetCounter ≠ (prev + 1) % 16 →
        ∃ md body, output next (run others (after raw i)) = some (.data md body) ∧ md.gapBefore = true ∧
          ∀ before now, IngestBuffer.Unstitched before body (IngestBuffer.push (.data md body) now before).2

theorem run_others {s : StreamId} (others : List Bytes) (i : Interpreter)
    (elsewhere : ∀ other ∈ others, concerns s other = false) : SameSlot s (run others i) i := by
  induction others generalizing i with
  | nil => exact ⟨rfl, rfl⟩
  | cons other rest ih =>
    have later := ih (after other i) fun later member => elsewhere later (List.mem_cons_of_mem _ member)
    have here := (after_other (i := i) (elsewhere other (List.mem_cons_self ..))).2
    rw [run_cons]
    exact ⟨later.context.trans here.context, later.counter.trans here.counter⟩

theorem wellFramed_ingested (parsed : parseHeader raw = .ok hdr) (kind : hdr.packetType = packetTypeIfData)
    (tracked : i.contexts.get? hdr.streamId = some ctx) (supported : ctx.supported ≠ some false)
    (sized : ctx.bytesPerSample.join = some bytesPerSample) (nonzero : bytesPerSample ≠ 0) (whole : WellFramed hdr raw)
    {prev : Nat} (ingested : i.lastCounter.get? hdr.streamId = some prev)
    (skipped : hdr.packetCounter ≠ (prev + 1) % 16) :
    ∃ md body, output raw i = some (.data md body) ∧ md.gapBefore = true := by
  obtain ⟨body, numSamples, trimmed⟩ := trimData_returns whole.2 nonzero
  obtain ⟨returned, -⟩ := after_trimmed parsed kind tracked supported sized trimmed
  refine ⟨_, body, returned, ?_⟩
  show gapAfter (i.lastCounter.get? hdr.streamId) hdr.packetCounter = true
  rw [ingested]
  exact decide_eq_true skipped

/-- A data packet of a supported stream keeps the gap exactly unless the datagram is as long as the size it declares
    and that size does not hold its own header and trailer. -/
theorem keepsGap_iff (parsed : parseHeader raw = .ok hdr) (kind : hdr.packetType = packetTypeIfData)
    (tracked : i.contexts.get? hdr.streamId = some ctx) (supported : ctx.supported ≠ some false)
    (sized : ctx.bytesPerSample.join = some bytesPerSample) (nonzero : bytesPerSample ≠ 0) :
    KeepsGap i raw hdr ↔ ¬ (4 * hdr.packetSize ≤ raw.length ∧ 4 * hdr.packetSize < hdr.overhead) := by
  constructor
  · rintro keeps ⟨whole, small⟩
    have misframed : ¬ WellFramed hdr raw := fun well => absurd well.1 (Nat.not_le_of_lt small)
    obtain ⟨returned, -⟩ := after_trimmed parsed kind tracked supported sized (trimData_clamped whole small nonzero)
    have none := (keeps.rejected misframed).1
    rw [returned] at none
    cases none
  · intro unclamped
    have rejected : ¬ WellFramed hdr raw → output raw i = none ∧ after raw i = { i with errors := i.errors + 1 } := by
      intro misframed
      have short : raw.length < 4 * hdr.packetSize := by
        unfold WellFramed at misframed
        omega
      obtain ⟨e, raised⟩ := trimData_truncated bytesPerSample short
      exact after_untrimmed parsed kind tracked supported sized raised
    constructor
    · intro ingested
      by_contra misframed
      obtain ⟨none, unchanged⟩ := rejected misframed
      rcases ingested with ⟨md, body, returned⟩ | moved
      · rw [none] at returned
        cases returned
      · rw [unchanged] at moved
        exact moved rfl
    · exact rejected
    · intro misframed others elsewhere next hdr' parsed' kind' own well prev ingested skipped
      obtain ⟨-, unchanged⟩ := rejected misframed
      have slot := run_others others (after raw i) elsewhere
      rw [unchanged] at slot ⊢
      have tracked' := slot.context.trans tracked
      have ingested' := slot.counter.trans ingested
      rw [← own] at tracked' ingested'
      obtain ⟨md, body, returned, gap⟩ :=
        wellFramed_ingested parsed' kind' tracked' supported sized nonzero well ingested'
        skipped
      exact ⟨md, body, returned, gap, fun before now => IngestBuffer.push_unstitched before md body now gap⟩

end

namespace Forged

open Exact

def context : Bytes := buildContextPacket (standardContextFields 2 97 4 (encodePayloadFormatU64 0b00 0b00000 16 16)) {}

def data (counter : Nat) : Bytes := buildDataPacket [1, 2, 3, UInt8.ofNat counter] { counter := counter }

def forged : Bytes := (data 1).take 2 ++ packed 2 3 ++ (data 1).drop 4

def primed : Interpreter := run [context, data 0] (.new 256)

def fed (records : List (Option Record)) : IngestBuffer × Consumer :=
  records.foldl (fun s record => record.elim s fun record => (IngestBuffer.push record 0 s).2)
    ({ maxSamples := 100, maxAgeS := 10, streamId := some 123, flushFields := defaultFlushFields }, .quiet)

/-- The forged packet is ingested with an empty payload, the packet after it has no gap before it, and the buffer
    has it in one window with the packet before. -/
theorem forged_hides_gap :
    parseHeader forged = .ok (headerOf forged) ∧ ¬ KeepsGap primed forged (headerOf forged) ∧
      (outputs [forged, data 2] primed).map (fun record => record.map fun record =>
        (record.metadata.counter, record.metadata.gapBefore)) = [some (1, false), some (2, false)] ∧
      (fed (outputs [context, data 0, forged, data 2] (.new 256))).1.chunks = [[1, 2, 3, 0], [1, 2, 3, 2]] := by
  have misframed : ¬ WellFramed (headerOf forged) forged := by decide +kernel
  have ingested : output forged primed ≠ none := by decide +kernel
  refine ⟨by decide +kernel, ?_, by decide +kernel, by decide +kernel⟩
  intro keeps
  exact ingested (keeps.rejected misframed).1

theorem keepsGap_iff_truncated :
    KeepsGap primed ((data 1).take 30) (headerOf ((data 1).take 30)) := by
  have tracked : (primed.contexts.get? (headerOf ((data 1).take 30)).streamId).any (fun ctx =>
      ctx.supported ≠ some false ∧ ctx.bytesPerSample.join = some 2) = true := by decide +kernel
  obtain ⟨ctx, found, supported⟩ := (Option.any_eq_true _ _).mp tracked
  obtain ⟨supported, sized⟩ := of_decide_eq_true supported
  exact (keepsGap_iff (by decide +kernel) (by decide +kernel) found supported sized (by decide)).mpr (by decide +kernel)

end Forged

end Sceptre
