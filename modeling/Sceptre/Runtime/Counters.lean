import Sceptre.Runtime.Gapless

namespace Sceptre

open Foundation

def dataCounter? (s : StreamId) (raw : Bytes) : Option Nat :=
  match parseHeader raw with
  | .ok hdr => if hdr.packetType = packetTypeIfData ∧ hdr.streamId = s then some hdr.packetCounter else none
  | .error _ => none

def dataPackets (s : StreamId) (raws : List Bytes) : List Bytes := raws.filter fun raw => (dataCounter? s raw).isSome

def Numbered (base : Nat) (s : StreamId) (raws : List Bytes) : Prop :=
  ∀ k raw, (dataPackets s raws)[k]? = some raw → dataCounter? s raw = some ((base + k) % 16)

instance (base : Nat) (s : StreamId) (raws : List Bytes) : Decidable (Numbered base s raws) :=
  decidable_of_iff (∀ k < (dataPackets s raws).length,
    (dataPackets s raws)[k]?.bind (dataCounter? s) = some ((base + k) % 16)) <| by
    constructor
    · intro all k raw here
      have counted := all k (List.getElem?_eq_some_iff.mp here).1
      rwa [here] at counted
    · intro numbered k inside
      rw [List.getElem?_eq_getElem inside]
      exact numbered k _ (List.getElem?_eq_getElem inside)

variable [Platform] {s : StreamId} {raws : List Bytes}

/-- The data record is what some interpreter makes of the datagram. -/
def MadeOf (s : StreamId) (raw : Bytes) (record : Metadata × Bytes) : Prop :=
  dataCounter? s raw = some record.1.counter ∧ ∃ i, Interpreter.output raw i = some (.data record.1 record.2)

namespace Interpreter

theorem output_flagged (s : StreamId) (raw : Bytes) (i : Interpreter) :
    ((output raw i).bind (Record.dataOf? s) = none ∧ (after raw i).lastCounter.get? s = i.lastCounter.get? s) ∨
      ∃ record, (output raw i).bind (Record.dataOf? s) = some record ∧ MadeOf s raw record ∧
        record.1.gapBefore = gapAfter (i.lastCounter.get? s) record.1.counter ∧
        (after raw i).lastCounter.get? s = some record.1.counter := by
  have outcome := processed raw i
  generalize returned : output raw i = out at *
  generalize after raw i = i' at *
  cases outcome with
  | rejected => exact .inl ⟨rfl, rfl⟩
  | dropped => exact .inl ⟨rfl, rfl⟩
  | context => exact .inl ⟨rfl, rfl⟩
  | @data hdr ctx bytesPerSample numSamples body parsed kind tracked supported sized trimmed =>
    by_cases own : hdr.streamId = s
    · subst own
      refine .inr ⟨_, if_pos rfl, ⟨?_, i, returned⟩, rfl, OrderedDict.get?_insert_self ..⟩
      rw [dataCounter?, parsed]
      exact if_pos ⟨kind, rfl⟩
    · exact .inl ⟨if_neg own, OrderedDict.get?_insert_of_ne _ _ fun same => own same.symm⟩

theorem outputs_made (s : StreamId) (raws : List Bytes) (i : Interpreter) :
    ∃ sources, sources.Sublist (dataPackets s raws) ∧
      List.Forall₂ (MadeOf s) sources (dataRecords s (outputs raws i)) := by
  induction raws generalizing i with
  | nil => exact ⟨[], List.Sublist.slnil, .nil⟩
  | cons raw rest ih =>
    obtain ⟨sources, part, made⟩ := ih (after raw i)
    rw [outputs, dataRecords_cons]
    rcases output_flagged s raw i with ⟨none, -⟩ | ⟨record, returned, own, -⟩
    · rw [none]
      refine ⟨sources, part.trans ?_, made⟩
      exact (List.sublist_cons_self raw rest).filter _
    · rw [returned]
      have packet : dataPackets s (raw :: rest) = raw :: dataPackets s rest :=
        List.filter_cons_of_pos (by rw [own.1]; rfl)
      exact ⟨raw :: sources, packet ▸ part.cons_cons raw, .cons own made⟩

theorem outputs_flagged (s : StreamId) (raws : List Bytes) (i : Interpreter) :
    (∀ r ∈ (dataRecords s (outputs raws i)).head?, r.1.gapBefore = gapAfter (i.lastCounter.get? s) r.1.counter) ∧
      (dataRecords s (outputs raws i)).IsChain fun r r' => r'.1.gapBefore =
        gapAfter (some r.1.counter) r'.1.counter := by
  induction raws generalizing i with
  | nil => exact ⟨fun r member => (nomatch member), List.isChain_nil⟩
  | cons raw rest ih =>
    obtain ⟨first, linked⟩ := ih (after raw i)
    rw [outputs, dataRecords_cons]
    rcases output_flagged s raw i with ⟨none, kept⟩ | ⟨record, returned, -, flag, last⟩
    · rw [none]
      rw [kept] at first
      exact ⟨first, linked⟩
    · rw [returned]
      rw [last] at first
      refine ⟨fun r member => ?_, List.isChain_cons.mpr ⟨first, linked⟩⟩
      rw [← Option.some.inj member]
      exact flag

end Interpreter

theorem Numbered.placed {base : Nat} {all : List Bytes} (numbered : Numbered base s all) (part : raws.Sublist all)
    (maxStreams : Int) : ∃ placed : List (Nat × Metadata × Bytes),
      placed.map Prod.snd = dataRecords s (Interpreter.outputs raws (.new maxStreams)) ∧
      (∀ r ∈ placed, ∃ raw, (dataPackets s all)[r.1]? = some raw ∧ MadeOf s raw r.2) ∧
      (∀ r ∈ placed.head?, r.2.1.gapBefore = false) ∧
      placed.IsChain fun r r' => r.1 < r'.1 ∧ (r'.2.1.gapBefore = true ↔ ¬ 16 ∣ r'.1 - (r.1 + 1)) ∧
        (Consecutive r.2 r'.2 → 16 ∣ r'.1 - (r.1 + 1)) := by
  obtain ⟨sources, sources_part, made⟩ := Interpreter.outputs_made s raws (.new maxStreams)
  obtain ⟨placed, records, places, ordered⟩ := places_of_sublist (sources_part.trans (part.filter _)) made
  obtain ⟨first, flags⟩ := Interpreter.outputs_flagged s raws (.new maxStreams)
  have counters : ∀ r ∈ placed, r.2.1.counter = (base + r.1) % 16 := by
    intro r member
    obtain ⟨raw, here, own, -⟩ := places r member
    exact Option.some.inj (own.symm.trans (numbered r.1 raw here))
  refine ⟨placed, records, places, ?_, ?_⟩
  · intro r member
    rw [← records, List.head?_map] at first
    exact first r.2 (Option.mem_map_of_mem Prod.snd member)
  · rw [← records, List.isChain_map] at flags
    refine (isChain_both ordered flags).imp_of_mem_imp ?_
    rintro r r' member member' ⟨later, flag⟩
    rw [Consecutive, flag, Interpreter.gapAfter, Option.any_some, decide_eq_true_iff, counters r member,
      counters r' member']
    refine ⟨later, ?_, ?_⟩ <;> omega

end Sceptre
