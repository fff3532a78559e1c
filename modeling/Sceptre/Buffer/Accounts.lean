import Sceptre.Buffer.Rules
import Sceptre.Buffer.Valid

namespace Sceptre

open Foundation

structure EmitUnit.MadeOf (u : EmitUnit) (records : List (Metadata × Bytes)) : Prop where
  nonempty : records ≠ []
  solid : ∀ r ∈ records, r.2 ≠ []
  raw : u.samples.raw = records.flatMap Prod.snd
  start : u.startTimestamp = records.head?.bind fun r => r.1.timestamp

def EmittedOnce (units : List EmitUnit) (records : List (Metadata × Bytes)) : Prop :=
  ∃ windows, List.Forall₂ EmitUnit.MadeOf units windows ∧ windows.flatten.Sublist records

namespace IngestBuffer

structure Holds (b : IngestBuffer) (records : List (Metadata × Bytes)) : Prop where
  chunks : b.chunks = records.map Prod.snd
  solid : ∀ r ∈ records, r.2 ≠ []
  start : b.startTimestamp = records.head?.bind fun r => r.1.timestamp

def Accounts (b : IngestBuffer) (units : List EmitUnit) (records : List (Metadata × Bytes)) : Prop :=
  ∃ windows current, List.Forall₂ EmitUnit.MadeOf units windows ∧ b.Holds current ∧
    (windows.flatten ++ current).Sublist records

variable {b b' : IngestBuffer} {units : List EmitUnit} {records earlier : List (Metadata × Bytes)}

theorem Accounts.later (accounts : b.Accounts units earlier) (more : List (Metadata × Bytes)) :
    b.Accounts units (earlier ++ more) := by
  obtain ⟨windows, current, made, holds, own⟩ := accounts
  exact ⟨windows, current, made, holds, own.trans (List.sublist_append_left _ _)⟩

theorem Accounts.emittedOnce (accounts : b.Accounts units records) : EmittedOnce units records := by
  obtain ⟨windows, current, made, -, own⟩ := accounts
  exact ⟨windows, made, (List.sublist_append_left _ _).trans own⟩

theorem Accounts.kept (accounts : b.Accounts units records) (chunks : b'.chunks = b.chunks)
    (start : b'.startTimestamp = b.startTimestamp) : b'.Accounts units records := by
  obtain ⟨windows, current, made, holds, own⟩ := accounts
  exact ⟨windows, current, made, ⟨chunks.trans holds.chunks, holds.solid, start.trans holds.start⟩, own⟩

/-- What a call on a buffer keeps, whether it returns or raises; `records` are the data records it was given. -/
structure Keeps (records : List (Metadata × Bytes)) (before after : IngestBuffer × Consumer) [Platform] : Prop where
  valid : after.1.Valid
  streamId : after.1.streamId = before.1.streamId
  raises : after.2.raises = before.2.raises
  sent : ∃ fresh, after.2.sent = before.2.sent ++ fresh ∧ (∀ u ∈ fresh, u.streamId = before.1.streamId) ∧
    ∀ units earlier, before.1.Accounts units earlier → after.1.Accounts (units ++ fresh) (earlier ++ records)

variable [Platform]

theorem Keeps.trans {first second : List (Metadata × Bytes)} {s s' s'' : IngestBuffer × Consumer}
    (head : Keeps first s s') (tail : Keeps second s' s'') : Keeps (first ++ second) s s'' := by
  obtain ⟨fresh, sent, tagged, accounts⟩ := head.sent
  obtain ⟨fresh', sent', tagged', accounts'⟩ := tail.sent
  refine ⟨tail.valid, tail.streamId.trans head.streamId, tail.raises.trans head.raises, fresh ++ fresh', ?_, ?_, ?_⟩
  · rw [sent', sent, List.append_assoc]
  · intro u member
    rcases List.mem_append.mp member with early | late
    · exact tagged u early
    · exact (tagged' u late).trans head.streamId
  · intro units earlier before
    rw [← List.append_assoc, ← List.append_assoc]
    exact accounts' _ _ (accounts _ _ before)

theorem Keeps.silent {k : Consumer} (valid : b'.Valid) (streamId : b'.streamId = b.streamId)
    (accounts : ∀ units earlier, b.Accounts units earlier → b'.Accounts units (earlier ++ records)) :
    Keeps records (b, k) (b', k) := by
  refine ⟨valid, streamId, rfl, [], ?_, ?_, ?_⟩
  · exact (List.append_nil k.sent).symm
  · intro u member
    cases member
  · intro units earlier before
    rw [List.append_nil]
    exact accounts units earlier before

theorem Keeps.refl {k : Consumer} (valid : b.Valid) (records : List (Metadata × Bytes)) :
    Keeps records (b, k) (b, k) :=
  .silent valid rfl fun _ _ before => before.later records

def Upholds (b : IngestBuffer) (body : Action Unit) (records : List (Metadata × Bytes))
    (post : IngestBuffer → Prop) : Prop :=
  ∀ k, Keeps records (b, k) (body (b, k)).2 ∧ ((body (b, k)).1 = .ok () → post (body (b, k)).2.1)

theorem upholds_of_triple {body : Action Unit} {post : IngestBuffer → Prop}
    (triple : ∀ k, Triple (· = (b, k)) body (fun _ s => Keeps records (b, k) s ∧ post s.1)
      fun s => Keeps records (b, k) s) :
    Upholds b body records post := by
  intro k
  have ended := Triple.iff_runs.mp (triple k) (b, k) rfl
  cases ran : body (b, k) with
  | mk result s =>
    rw [ran] at ended
    cases result with
    | ok _ => exact ⟨ended.1, fun _ => ended.2⟩
    | error e => exact ⟨ended, nofun⟩

theorem Keeps.upholds {earlier : List (Metadata × Bytes)} {s t : IngestBuffer × Consumer} (keeps : Keeps earlier s t)
    {body : Action Unit} {post : IngestBuffer → Prop} (upholds : Upholds t.1 body records post) :
    Triple (· = t) body (fun _ s' => Keeps (earlier ++ records) s s' ∧ post s'.1)
      fun s' => Keeps (earlier ++ records) s s' := by
  rw [Triple.iff_runs]
  rintro t rfl
  obtain ⟨keeps', returns⟩ := upholds t.2
  cases ran : body t with
  | mk result s' =>
    have ran' : body (t.1, t.2) = (result, s') := ran
    rw [ran'] at keeps' returns
    cases result with
    | ok _ => exact ⟨keeps.trans keeps', returns rfl⟩
    | error e => exact keeps.trans keeps'

theorem Upholds.weaken {body : Action Unit} {post post' : IngestBuffer → Prop}
    (upholds : Upholds b body records post) (implied : ∀ b', post b' → post' b') : Upholds b body records post' :=
  fun k => ⟨(upholds k).1, fun returned => implied _ ((upholds k).2 returned)⟩

theorem flush_upholds (valid : b.Valid) : Upholds b IngestBuffer.flush [] (fun b' => b'.chunks = []) := by
  intro k
  unfold IngestBuffer.flush
  by_cases closed : b.chunks = []
  · dsimp only
    rw [if_pos closed]
    exact ⟨.refl valid [], fun _ => closed⟩
  · cases valid with
    | closed empty => exact absurd empty.chunks closed
    | opened window =>
      obtain ⟨samples, converted, raw⟩ := window.convert
      simp only [closed, if_false, converted]
      refine ⟨⟨.closed (reset_empty b), rfl, rfl, [b.unit samples], rfl, ?_, ?_⟩, fun _ => rfl⟩
      · intro u member
        rw [List.mem_singleton.mp member]
        rfl
      · rintro units earlier ⟨windows, current, made, holds, own⟩
        refine ⟨windows ++ [current], [], ?_, ⟨rfl, nofun, rfl⟩, ?_⟩
        · apply List.rel_append made
          refine List.Forall₂.cons ⟨?_, holds.solid, ?_, holds.start⟩ List.Forall₂.nil
          · rintro rfl
            exact closed holds.chunks
          · rw [List.flatMap_def, ← holds.chunks]
            exact raw
        · simpa using own

theorem Keeps.flushWhen {s t : IngestBuffer × Consumer} (keeps : Keeps records s t) (more : List (Metadata × Bytes))
    (condition : Prop) [Decidable condition] :
    Triple (· = t) (Method.when condition IngestBuffer.flush)
      (fun _ s' => Keeps records s s' ∧ (s'.1.chunks = [] ∨ (s' = t ∧ ¬ condition)))
      fun s' => Keeps (records ++ more) s s' := by
  apply Triple.when
  · intro _
    have flushed := keeps.upholds (flush_upholds keeps.valid)
    rw [List.append_nil] at flushed
    apply (flushed.weaken fun _ _ kept => ⟨kept.1, .inl kept.2⟩).weakenRaises
    exact fun s' kept => kept.trans (.refl kept.valid more)
  · rintro skipped _ rfl
    exact ⟨keeps, .inr ⟨rfl, skipped⟩⟩

theorem Valid.kept (valid : b.Valid)
    (same : b'.chunks = b.chunks ∧ b'.numSamples = b.numSamples ∧ b'.componentDtype = b.componentDtype ∧
      b'.bytesPerSample = b.bytesPerSample ∧ b'.isComplex = b.isComplex ∧ b'.startTimestamp = b.startTimestamp ∧
      b'.firstArrival = b.firstArrival) : b'.Valid := by
  obtain ⟨chunks, numSamples, componentDtype, bytesPerSample, isComplex, startTimestamp, firstArrival⟩ := same
  cases valid with
  | closed empty =>
    refine .closed ⟨chunks.trans empty.chunks, numSamples.trans empty.numSamples,
      componentDtype.trans empty.componentDtype, bytesPerSample.trans empty.bytesPerSample,
      isComplex.trans empty.isComplex, startTimestamp.trans empty.startTimestamp,
      firstArrival.trans empty.firstArrival⟩
  | @opened name dt complex window =>
    obtain ⟨nonempty, dtype, known, numeric, pairs, size, positive, solid, whole, counted⟩ := window
    rw [← chunks] at nonempty solid whole counted
    exact .opened ⟨nonempty, componentDtype.trans dtype, known, numeric, isComplex.trans pairs,
      bytesPerSample.trans size, positive, solid, whole, numSamples.trans counted⟩

theorem Keeps.drop (valid : b.Valid) {k : Consumer} (records : List (Metadata × Bytes)) :
    Keeps records (b, k) (b.drop, k) := by
  apply Keeps.silent
  · exact valid.kept ⟨rfl, rfl, rfl, rfl, rfl, rfl, rfl⟩
  · rfl
  · exact fun units earlier before => (before.later records).kept rfl rfl

theorem pushContext_upholds (valid : b.Valid) (ctx : Option Context) :
    Upholds b (pushContext ctx) [] (fun _ => True) := by
  apply upholds_of_triple
  intro k
  cases ctx with
  | none =>
    apply Triple.nothing
    rintro _ rfl
    exact ⟨.refl valid [], trivial⟩
  | some ctx =>
    apply Triple.read
    rintro _ rfl
    apply Triple.bind _ ((Keeps.refl valid []).flushWhen [] _)
    intro _
    apply Triple.update
    rintro s ⟨keeps, -⟩
    refine ⟨keeps.trans (.silent ?_ rfl ?_), trivial⟩
    · exact keeps.valid.kept ⟨rfl, rfl, rfl, rfl, rfl, rfl, rfl⟩
    · intro units earlier before
      rw [List.append_nil]
      exact before.kept rfl rfl

theorem maybeFlushOnAge_upholds (valid : b.Valid) (now : ℚ) :
    Upholds b (maybeFlushOnAge now) [] (fun _ => True) := by
  apply upholds_of_triple
  intro k
  apply Triple.read
  rintro _ rfl
  apply ((Keeps.refl valid []).flushWhen [] _).weaken
  exact fun _ _ kept => ⟨kept.1, trivial⟩

theorem openWindow_frame {md : Metadata} {dtype : String} {bps : Int} {now : ℚ}
    (opened : b.openWindow md dtype bps now = some b') :
    b'.chunks = b.chunks ∧ b'.streamId = b.streamId ∧
      b'.startTimestamp = if b.chunks = [] then md.timestamp else b.startTimestamp := by
  unfold openWindow at opened
  split at opened
  · rename_i closed
    obtain ⟨latched, same, rfl⟩ := Option.map_eq_some_iff.mp opened
    rw [if_pos closed]
    obtain ⟨dt, -, -, -, rfl⟩ := latch_cases same
    exact ⟨rfl, rfl, rfl⟩
  · rename_i nonempty
    cases opened
    rw [if_neg nonempty]
    exact ⟨rfl, rfl, rfl⟩

theorem Accounts.append {md : Metadata} {data : Bytes} {dtype : String} {bps : Int} {now : ℚ}
    (accounts : b.Accounts units earlier) (solid : data ≠ []) (opened : b.openWindow md dtype bps now = some b') :
    (b'.appendChunk data bps).Accounts units (earlier ++ [(md, data)]) := by
  obtain ⟨windows, current, made, holds, own⟩ := accounts
  obtain ⟨chunks, -, start⟩ := openWindow_frame opened
  refine ⟨windows, current ++ [(md, data)], made, ⟨?_, ?_, ?_⟩, ?_⟩
  · show b'.chunks ++ [data] = _
    rw [chunks, holds.chunks, List.map_append, List.map_singleton]
  · intro r member
    rcases List.mem_append.mp member with before | here
    · exact holds.solid r before
    · rw [List.mem_singleton.mp here]
      exact solid
  · show b'.startTimestamp = _
    rw [start, holds.chunks, holds.start]
    cases current with
    | nil => rfl
    | cons first rest => rfl
  · rw [← List.append_assoc]
    exact own.append_right _

theorem append_upholds (valid : b.Valid) {md : Metadata} {data : Bytes} {dtype : String} {bps : Int} {now : ℚ}
    (solid : data ≠ []) (whole : Int.fmod data.length bps = 0)
    (alike : b.chunks ≠ [] → ¬ b.mixes dtype (md.isComplex.getD false) bps) :
    Upholds b (append md data dtype bps now) [(md, data)] (fun _ => True) := by
  apply upholds_of_triple
  intro k
  apply append_rule
  · rintro _ rfl -
    exact ⟨.drop valid _, trivial⟩
  · rintro _ b' rfl opened
    obtain ⟨name, dt, complex, window⟩ := valid.appendChunk solid whole alike opened
    have appended : Keeps [(md, data)] (b, k) (b'.appendChunk data bps, k) :=
      .silent (.opened window) (openWindow_frame opened).2.1 fun _ _ before => before.append solid opened
    apply (appended.flushWhen [] _).weaken
    exact fun _ _ kept => ⟨kept.1, trivial⟩

theorem pushData_upholds (valid : b.Valid) (md : Metadata) (data : Bytes) (now : ℚ) :
    Upholds b (pushData md data now) [(md, data)] (fun _ => True) := by
  apply upholds_of_triple
  intro k
  apply pushData_rule (fun t => Keeps [] (b, k) t) fun dtype bps t =>
    Keeps [] (b, k) t ∧ (t.1.chunks ≠ [] → ¬ t.1.mixes dtype (md.isComplex.getD false) bps)
  · exact ⟨.drop valid _, trivial⟩
  · apply ((Keeps.refl valid []).flushWhen [(md, data)] _).weaken
    exact fun _ _ kept => kept.1
  · intro dtype bps t keeps
    apply (keeps.flushWhen [(md, data)] _).weaken
    rintro _ s' ⟨keeps', flushed⟩
    refine ⟨keeps', ?_⟩
    intro opened mixed
    rcases flushed with closed | ⟨rfl, unflushed⟩
    · exact opened closed
    · exact unflushed ⟨opened, mixed⟩
  · intro dtype bps solid whole
    apply Triple.each
    rintro t ⟨keeps, alike⟩
    exact keeps.upholds (append_upholds keeps.valid solid whole alike)
  · rintro dtype bps t - ⟨keeps, -⟩
    exact ⟨keeps.trans (.refl keeps.valid _), trivial⟩

end IngestBuffer

end Sceptre
