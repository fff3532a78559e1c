import Sceptre.Buffer.Router

namespace Sceptre

open Foundation

def DType.sampleSize (dt : DType) (complex : Bool) : Nat := dt.itemsize * (if complex then 2 else 1)

theorem flatten_dvd {size : Nat} {chunks : List Bytes} (whole : ∀ chunk ∈ chunks, size ∣ chunk.length) :
    size ∣ chunks.flatten.length := by
  induction chunks with
  | nil => simp
  | cons chunk rest ih =>
    rw [List.flatten_cons, List.length_append]
    apply Nat.dvd_add
    · exact whole chunk (List.mem_cons_self ..)
    · exact ih fun later member => whole later (List.mem_cons_of_mem _ member)

namespace IngestBuffer

variable [Platform] {b b' : IngestBuffer}

structure Empty (b : IngestBuffer) : Prop where
  chunks : b.chunks = []
  numSamples : b.numSamples = 0
  componentDtype : b.componentDtype = none
  bytesPerSample : b.bytesPerSample = none
  isComplex : b.isComplex = none
  startTimestamp : b.startTimestamp = none
  firstArrival : b.firstArrival = none

/-- The open window holds whole samples of the interpretation it latched, and numpy can convert it. -/
structure Opened (b : IngestBuffer) (name : String) (dt : DType) (complex : Bool) : Prop where
  nonempty : b.chunks ≠ []
  componentDtype : b.componentDtype = some name
  known : Platform.dtype name = some dt
  numeric : dt.numeric = true
  isComplex : b.isComplex = some complex
  bytesPerSample : b.bytesPerSample = some (dt.sampleSize complex : Int)
  positive : 0 < dt.sampleSize complex
  solid : ∀ chunk ∈ b.chunks, chunk ≠ []
  whole : ∀ chunk ∈ b.chunks, dt.sampleSize complex ∣ chunk.length
  numSamples : b.numSamples = (b.chunks.flatten.length / dt.sampleSize complex : Nat)

inductive Valid (b : IngestBuffer) : Prop where
  | closed (empty : b.Empty)
  | opened {name : String} {dt : DType} {complex : Bool} (window : b.Opened name dt complex)

omit [Platform] in
theorem reset_empty (b : IngestBuffer) : b.reset.Empty := ⟨rfl, rfl, rfl, rfl, rfl, rfl, rfl⟩

theorem Valid.empty (valid : b.Valid) (closed : b.chunks = []) : b.Empty := by
  cases valid with
  | closed empty => exact empty
  | opened window => exact absurd closed window.nonempty

theorem Opened.convert {name : String} {dt : DType} {complex : Bool} (window : b.Opened name dt complex) :
    ∃ samples, b.convert = .ok samples ∧ samples.raw = b.chunks.flatten := by
  obtain ⟨n, length⟩ := flatten_dvd window.whole
  have size : 0 < dt.itemsize := Nat.pos_of_mul_pos_right window.positive
  have length' : b.chunks.flatten.length = dt.itemsize * ((if complex then 2 else 1) * n) := by
    rw [length, DType.sampleSize, Nat.mul_assoc]
  have components : b.chunks.flatten.length / dt.itemsize = (if complex then 2 else 1) * n := by
    rw [length', Nat.mul_div_cancel_left _ size]
  have raw : frombuffer b.chunks.flatten b.componentDtype =
      .ok (⟨b.chunks.flatten, (if complex then 2 else 1) * n⟩, dt) := by
    rw [frombuffer, window.componentDtype, Option.elim_some, window.known]
    dsimp only
    rw [if_neg (by omega), if_neg (by rw [length', Nat.mul_mod_right]; simp), components]
  rw [IngestBuffer.convert, raw, window.isComplex]
  cases complex with
  | false =>
    refine ⟨⟨b.chunks.flatten, n⟩, ?_, rfl⟩
    simp [astypeFloat32, window.numeric, Bind.bind, Except.bind, Pure.pure, Except.pure]
  | true =>
    refine ⟨⟨b.chunks.flatten, n⟩, ?_, rfl⟩
    simp [astypeFloat32, window.numeric, viewComplex64, Bind.bind, Except.bind]

omit [Platform] in
theorem mixes_not {dtype : String} {complex : Bool} {bps : Int} (alike : ¬ b.mixes dtype complex bps) :
    b.componentDtype = some dtype ∧ b.isComplex = some complex ∧ b.bytesPerSample = some bps := by
  simp only [mixes, not_or, not_not] at alike
  exact ⟨alike.1.symm, alike.2.1.symm, alike.2.2.symm⟩

theorem latch_cases {dtype : String} {complex : Bool} {bps : Int} (latched : b.latch dtype complex bps = some b') :
    ∃ dt, Platform.dtype dtype = some dt ∧ dt.numeric = true ∧ (dt.sampleSize complex : Int) = bps ∧
      b' = { b with componentDtype := some dtype, isComplex := some complex, bytesPerSample := some bps } := by
  unfold latch at latched
  cases known : Platform.dtype dtype with
  | none => simp [known] at latched
  | some dt =>
    rw [known] at latched
    by_cases fits : dt.numeric ∧ (dt.sampleSize complex : Int) = bps
    · have same := (if_pos fits).symm.trans latched
      cases same
      exact ⟨dt, rfl, fits.1, fits.2, rfl⟩
    · have same := (if_neg fits).symm.trans latched
      cases same

theorem Valid.appendChunk (valid : b.Valid) {md : Metadata} {data : Bytes} {dtype : String} {bps : Int} {now : ℚ}
    (solid : data ≠ []) (whole : Int.fmod data.length bps = 0)
    (alike : b.chunks ≠ [] → ¬ b.mixes dtype (md.isComplex.getD false) bps)
    (opened : b.openWindow md dtype bps now = some b') :
    ∃ name dt complex, (b'.appendChunk data bps).Opened name dt complex := by
  unfold openWindow at opened
  split at opened
  · rename_i closed
    obtain ⟨latched, same, rfl⟩ := Option.map_eq_some_iff.mp opened
    have empty := valid.empty closed
    obtain ⟨dt, known, numeric, rfl, rfl⟩ := latch_cases same
    have divides : dt.sampleSize (md.isComplex.getD false) ∣ data.length :=
      Int.natCast_dvd_natCast.mp (Int.dvd_of_fmod_eq_zero whole)
    have positive : 0 < dt.sampleSize (md.isComplex.getD false) := by
      apply Nat.pos_of_dvd_of_pos divides
      exact List.length_pos_iff.mpr solid
    refine ⟨dtype, dt, md.isComplex.getD false, ?_, rfl, known, numeric, rfl, rfl, positive, ?_, ?_, ?_⟩
    · simp [IngestBuffer.appendChunk]
    · simp [IngestBuffer.appendChunk, closed, solid]
    · simpa [IngestBuffer.appendChunk, closed] using divides
    · simp [IngestBuffer.appendChunk, closed, empty.numSamples, Int.fdiv_eq_ediv_of_nonneg]
  · rename_i nonempty
    cases opened
    obtain ⟨componentDtype, isComplex, bytesPerSample⟩ := mixes_not (alike nonempty)
    cases valid with
    | closed empty => exact absurd empty.chunks nonempty
    | @opened name dt complex window =>
      have size := window.bytesPerSample
      rw [bytesPerSample, Option.some.injEq] at size
      subst size
      have divides : dt.sampleSize complex ∣ data.length := Int.natCast_dvd_natCast.mp (Int.dvd_of_fmod_eq_zero whole)
      refine ⟨name, dt, complex, ?_, window.componentDtype, window.known, window.numeric, window.isComplex,
        window.bytesPerSample, window.positive, ?_, ?_, ?_⟩
      · simp [IngestBuffer.appendChunk]
      · intro chunk member
        rcases List.mem_append.mp member with earlier | here
        · exact window.solid chunk earlier
        · rw [List.mem_singleton.mp here]
          exact solid
      · intro chunk member
        rcases List.mem_append.mp member with earlier | here
        · exact window.whole chunk earlier
        · rw [List.mem_singleton.mp here]
          exact divides
      · obtain ⟨n, total⟩ := flatten_dvd window.whole
        show b.numSamples + Int.fdiv data.length _ = _
        rw [window.numSamples, Int.fdiv_eq_ediv_of_nonneg _ (by omega), IngestBuffer.appendChunk,
          List.flatten_append, List.length_append, total, Nat.mul_add_div window.positive,
          Nat.mul_div_cancel_left _ window.positive]
        simp

end IngestBuffer

end Sceptre
