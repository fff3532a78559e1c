import Sceptre.Buffer.Router
import Sceptre.Foundation.Relational

namespace Sceptre

open Foundation Method

def Undated (b b' : IngestBuffer) : Prop := ∃ reading, b' = { b with firstArrival := reading }

theorem Undated.refl (b : IngestBuffer) : Undated b b := ⟨b.firstArrival, rfl⟩

namespace IngestBuffer

def Same (s t : IngestBuffer × Consumer) : Prop := Undated s.1 t.1 ∧ s.2 = t.2

variable [Platform]

theorem flush_alike : Alike Same IngestBuffer.flush IngestBuffer.flush := by
  rintro ⟨b, k⟩ ⟨_, _⟩ ⟨⟨reading, rfl⟩, rfl⟩
  have convert : convert { b with firstArrival := reading } = b.convert := rfl
  unfold IngestBuffer.flush AlikeAt
  dsimp only
  rw [convert]
  by_cases closed : b.chunks = []
  · rw [if_pos closed, if_pos closed]
    exact ⟨rfl, ⟨reading, rfl⟩, rfl⟩
  · rw [if_neg closed, if_neg closed]
    cases b.convert with
    | error e => exact ⟨rfl, ⟨reading, rfl⟩, rfl⟩
    | ok samples => exact ⟨rfl, .refl _, rfl⟩

theorem pushContext_alike (ctx : Option Context) : Alike Same (pushContext ctx) (pushContext ctx) := by
  cases ctx with
  | none => exact Alike.nothing ()
  | some ctx =>
    apply Alike.read
    rintro ⟨b, k⟩ ⟨_, _⟩ ⟨⟨reading, rfl⟩, rfl⟩
    have before : Same (b, k) ({ b with firstArrival := reading }, k) := ⟨⟨reading, rfl⟩, rfl⟩
    refine AlikeAt.bind (AlikeAt.when before Iff.rfl fun _ => flush_alike _ _ before) ?_
    rintro _ ⟨b, k⟩ ⟨_, _⟩ ⟨⟨reading, rfl⟩, rfl⟩
    exact AlikeAt.update ⟨⟨reading, rfl⟩, rfl⟩

theorem latch_undated (b : IngestBuffer) (dtype : String) (complex : Bool) (bps : Int) (reading : Option ℚ) :
    latch { b with firstArrival := reading } dtype complex bps =
      (b.latch dtype complex bps).map fun latched => { latched with firstArrival := reading } := by
  unfold latch
  cases Platform.dtype dtype with
  | none => rfl
  | some dt =>
    dsimp only
    by_cases fits : dt.numeric ∧ ((dt.itemsize * (if complex then 2 else 1) : Nat) : Int) = bps
    · rw [if_pos fits, if_pos fits]
      rfl
    · rw [if_neg fits, if_neg fits]
      rfl

theorem openWindow_alike (b : IngestBuffer) (md : Metadata) (dtype : String) (bps : Int) (now now' : ℚ)
    (reading : Option ℚ) :
    (b.openWindow md dtype bps now = none ∧
        openWindow { b with firstArrival := reading } md dtype bps now' = none) ∨
      ∃ opened reading', b.openWindow md dtype bps now = some opened ∧
        openWindow { b with firstArrival := reading } md dtype bps now' =
          some { opened with firstArrival := reading' } := by
  unfold openWindow
  rw [latch_undated b dtype (md.isComplex.getD false) bps reading]
  dsimp only
  by_cases closed : b.chunks = []
  · rw [if_pos closed, if_pos closed]
    cases b.latch dtype (md.isComplex.getD false) bps with
    | none => exact .inl ⟨rfl, rfl⟩
    | some latched => exact .inr ⟨_, some now', rfl, rfl⟩
  · rw [if_neg closed, if_neg closed]
    exact .inr ⟨b, reading, rfl, rfl⟩

theorem append_alike (md : Metadata) (data : Bytes) (dtype : String) (bps : Int) (now now' : ℚ) :
    Alike Same (append md data dtype bps now) (append md data dtype bps now') := by
  apply Alike.read
  rintro ⟨b, k⟩ ⟨_, _⟩ ⟨⟨reading, rfl⟩, rfl⟩
  dsimp only
  rcases openWindow_alike b md dtype bps now now' reading with ⟨none, none'⟩ | ⟨opened, reading', some, some'⟩
  · rw [none, none']
    exact AlikeAt.update ⟨⟨reading, rfl⟩, rfl⟩
  · rw [some, some']
    refine AlikeAt.bind (AlikeAt.update ⟨⟨reading', rfl⟩, rfl⟩) ?_
    intro _ s t related
    exact AlikeAt.when related Iff.rfl fun _ => flush_alike s t related

theorem pushData_alike (md : Metadata) (data : Bytes) (now now' : ℚ) :
    Alike Same (pushData md data now) (pushData md data now') := by
  apply Alike.read
  rintro ⟨b, k⟩ ⟨_, _⟩ ⟨⟨reading, rfl⟩, rfl⟩
  have before : Same (b, k) ({ b with firstArrival := reading }, k) := ⟨⟨reading, rfl⟩, rfl⟩
  have dropped : AlikeAt Same (b, k) ({ b with firstArrival := reading }, k) (IngestBuffer.modify drop)
      (IngestBuffer.modify drop) := AlikeAt.update ⟨⟨reading, rfl⟩, rfl⟩
  dsimp only
  by_cases deaf : b.currentContext = none ∨ b.inert
  · rw [if_pos deaf, if_pos deaf]
    exact dropped
  · rw [if_neg deaf, if_neg deaf]
    split
    · rename_i dtype bps _ _
      by_cases partly : bps = 0 ∨ Int.fmod data.length bps ≠ 0
      · rw [if_pos partly, if_pos partly]
        exact dropped
      · rw [if_neg partly, if_neg partly]
        refine AlikeAt.bind (AlikeAt.when before Iff.rfl fun _ => flush_alike _ _ before) ?_
        intro _
        apply Alike.read
        rintro ⟨b, k⟩ ⟨_, _⟩ ⟨⟨reading, rfl⟩, rfl⟩
        have between : Same (b, k) ({ b with firstArrival := reading }, k) := ⟨⟨reading, rfl⟩, rfl⟩
        refine AlikeAt.bind (AlikeAt.when between Iff.rfl fun _ => flush_alike _ _ between) ?_
        intro _ s t related
        exact AlikeAt.when related Iff.rfl fun _ => append_alike md data dtype bps now now' s t related
    · exact dropped

theorem push_alike (record : Record) (now now' : ℚ) :
    Alike Same (IngestBuffer.push record now) (IngestBuffer.push record now') := by
  cases record with
  | context md ctx => exact pushContext_alike ctx
  | data md data => exact pushData_alike md data now now'

def Young (b : IngestBuffer) (now : ℚ) : Prop :=
  ¬ (b.chunks ≠ [] ∧ b.firstArrival.any fun first => now - first ≥ b.maxAgeS)

omit [Platform] in
instance (b : IngestBuffer) (now : ℚ) : Decidable (b.Young now) := inferInstanceAs (Decidable (¬ _))

theorem maybeFlushOnAge_young {b : IngestBuffer} {now : ℚ} (young : b.Young now) (k : Consumer) :
    maybeFlushOnAge now (b, k) = (.ok (), b, k) := by
  rw [maybeFlushOnAge, Method.read_bind, Method.when_false young]
  rfl

end IngestBuffer

end Sceptre
