import Sceptre.Buffer.Model
import Sceptre.Foundation.Triple

namespace Sceptre

open Foundation

namespace IngestBuffer

variable [Platform] {s : IngestBuffer × Consumer} {post raises : IngestBuffer × Consumer → Prop}

/-- The rule of `append`: a window that numpy cannot convert is not opened; any other gets the chunk, and is then
    flushed or not by its size. -/
theorem append_rule {pre : IngestBuffer × Consumer → Prop} {md : Metadata} {data : Bytes} {dtype : String} {bps : Int}
    {now : ℚ} (unopened : ∀ s, pre s → s.1.openWindow md dtype bps now = none → post (s.1.drop, s.2))
    (opened : ∀ s b, pre s → s.1.openWindow md dtype bps now = some b →
      Triple (· = (b.appendChunk data bps, s.2))
        (Method.when ((b.appendChunk data bps).numSamples ≥ b.maxSamples) IngestBuffer.flush) (fun _ => post) raises) :
    Triple pre (append md data dtype bps now) (fun _ => post) raises := by
  apply Triple.read
  intro s before
  cases window : s.1.openWindow md dtype bps now with
  | none =>
    apply Triple.update
    rintro t rfl
    exact unopened t before window
  | some b =>
    apply Triple.bind fun _ s' => s' = (b.appendChunk data bps, s.2)
    · apply Triple.update
      rintro _ rfl
      rfl
    · exact fun _ => opened s b before window

/-- The rule of `_push_data`: the record is dropped, or the gap flush, the flush of a window that was read otherwise
    and `append` follow one another, with `first` and `second` between them. -/
theorem pushData_rule {md : Metadata} {data : Bytes} {now : ℚ} (first : IngestBuffer × Consumer → Prop)
    (second : String → Int → IngestBuffer × Consumer → Prop) (dropped : post (s.1.drop, s.2))
    (gap : Triple (· = s) (Method.when (s.1.chunks ≠ [] ∧ md.gapBefore) IngestBuffer.flush) (fun _ => first) raises)
    (mixed : ∀ dtype bps t, first t →
      Triple (· = t) (Method.when (t.1.chunks ≠ [] ∧ t.1.mixes dtype (md.isComplex.getD false) bps) IngestBuffer.flush)
        (fun _ => second dtype bps) raises)
    (filled : ∀ dtype bps, data ≠ [] → Int.fmod data.length bps = 0 →
      Triple (second dtype bps) (append md data dtype bps now) (fun _ => post) raises)
    (empty : ∀ dtype bps t, data = [] → second dtype bps t → post t) :
    Triple (· = s) (pushData md data now) (fun _ => post) raises := by
  have drops : Triple (· = s) (IngestBuffer.modify drop) (fun _ => post) raises := by
    apply Triple.update
    rintro _ rfl
    exact dropped
  apply Triple.read
  rintro t rfl
  split
  · exact drops
  · split
    · rename_i dtype bps _ _
      split
      · exact drops
      · rename_i usable
        have whole : Int.fmod data.length bps = 0 := by
          by_contra partly
          exact usable (.inr partly)
        apply Triple.bind _ gap
        intro _
        apply Triple.read
        intro t between
        apply Triple.bind _ (mixed dtype bps t between)
        intro _
        apply Triple.when
        · exact fun solid => filled dtype bps solid whole
        · exact fun skipped t later => empty dtype bps t (not_not.mp skipped) later
    · exact drops

end IngestBuffer

end Sceptre
