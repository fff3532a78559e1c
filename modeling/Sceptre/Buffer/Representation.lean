import Sceptre.Buffer.Accounts
import Sceptre.Buffer.Rules
import Sceptre.Wire.Encoding

namespace Sceptre

open Foundation

structure Arrival where
  metadata : Metadata
  data : Bytes
  reading : ℚ
  deriving DecidableEq

def samplesIn (size : Nat) (arrivals : List Arrival) : Nat := (arrivals.flatMap Arrival.data).length / size

def FrontBelow (maxSamples : Int) (size : Nat) (window : List Arrival) : Prop :=
  (samplesIn size window.dropLast : Int) < maxSamples ∨ (maxSamples ≤ 0 ∧ window.dropLast = [])

structure EmitUnit.Cut (maxSamples : Int) (u : EmitUnit) (window : List Arrival) : Prop where
  nonempty : window ≠ []
  raw : u.samples.raw = window.flatMap Arrival.data
  start : u.startTimestamp = window.head?.bind fun a => a.metadata.timestamp
  sized : ∃ size : Nat, 0 < size ∧ u.bytesPerSample = some (size : Int) ∧ u.numSamples = samplesIn size window ∧
    (∀ a ∈ window, a.data ≠ [] ∧ size ∣ a.data.length) ∧ FrontBelow maxSamples size window

namespace IngestBuffer

/-- The open window of the buffer is made of these records. -/
structure Represents (b : IngestBuffer) (current : List Arrival) [Platform] : Prop where
  valid : b.Valid
  chunks : b.chunks = current.map Arrival.data
  start : b.startTimestamp = current.head?.bind fun a => a.metadata.timestamp
  first : b.firstArrival = current.head?.map Arrival.reading
  front : ∀ size : Nat, b.bytesPerSample = some (size : Int) → FrontBelow b.maxSamples size current

def Below (b : IngestBuffer) : Prop := b.chunks ≠ [] → b.numSamples < b.maxSamples

variable [Platform]

structure Accounted (taken : List Arrival) (s : IngestBuffer × Consumer) : Prop where
  quiet : s.2.raises = Consumer.quiet.raises
  windows : ∃ windows current, windows.flatten ++ current = taken ∧
    List.Forall₂ (EmitUnit.Cut s.1.maxSamples) s.2.sent windows ∧ s.1.Represents current

variable {b b' : IngestBuffer} {current taken : List Arrival} {s : IngestBuffer × Consumer}

omit [Platform] in
theorem flatMap_data (arrivals : List Arrival) : arrivals.flatMap Arrival.data = (arrivals.map Arrival.data).flatten :=
  List.flatMap_def ..

theorem Accounted.nothing (accounted : Accounted taken s) : Accounted (taken ++ []) s := by
  rw [List.append_nil]
  exact accounted

theorem represents_empty (empty : b.Empty) : b.Represents [] where
  valid := .closed empty
  chunks := empty.chunks
  start := empty.startTimestamp
  first := empty.firstArrival
  front := by
    intro size sized
    rw [empty.bytesPerSample] at sized
    cases sized

theorem Represents.cut (represents : b.Represents current) {name : String} {dt : DType} {complex : Bool}
    (window : b.Opened name dt complex) {samples : NdArray} (raw : samples.raw = b.chunks.flatten) :
    (b.unit samples).Cut b.maxSamples current := by
  have chunks := represents.chunks
  constructor
  · rintro rfl
    exact window.nonempty chunks
  · rw [flatMap_data, ← chunks]
    exact raw
  · exact represents.start
  · refine ⟨dt.sampleSize complex, window.positive, window.bytesPerSample, ?_, ?_,
      represents.front _ window.bytesPerSample⟩
    · show b.numSamples = _
      rw [window.numSamples, samplesIn, flatMap_data, chunks]
    · intro a member
      have chunk : a.data ∈ b.chunks := by
        rw [chunks]
        exact List.mem_map_of_mem member
      exact ⟨window.solid _ chunk, window.whole _ chunk⟩

theorem flush_accounted (accounted : Accounted taken s) :
    Triple (· = s) IngestBuffer.flush
      (fun _ s' => Accounted taken s' ∧ s'.1.reset = s.1.reset ∧ s'.1.chunks = []) (fun _ => False) := by
  rw [Triple.iff_runs]
  rintro ⟨b, k⟩ rfl
  obtain ⟨quiet, windows, current, whole, cut, represents⟩ := accounted
  unfold IngestBuffer.flush
  by_cases closed : b.chunks = []
  · dsimp only
    rw [if_pos closed]
    exact ⟨⟨quiet, windows, current, whole, cut, represents⟩, rfl, closed⟩
  · cases represents.valid with
    | closed empty => exact absurd empty.chunks closed
    | opened window =>
      obtain ⟨samples, converted, raw⟩ := window.convert
      have silent : k.raises k.sent.length = none := by
        rw [show k.raises = _ from quiet]
        rfl
      simp only [closed, if_false, converted, Consumer.emit, silent, Option.elim_none]
      refine ⟨⟨quiet, windows ++ [current], [], ?_, ?_, represents_empty (reset_empty b)⟩, rfl, rfl⟩
      · rw [List.flatten_append, List.flatten_singleton, List.append_nil]
        exact whole
      · exact List.rel_append cut (.cons (represents.cut window raw) .nil)

theorem flushWhen_accounted (accounted : Accounted taken s) (condition : Prop) [Decidable condition] :
    Triple (· = s) (Method.when condition IngestBuffer.flush)
      (fun _ s' => Accounted taken s' ∧ s'.1.reset = s.1.reset ∧ (s'.1.chunks = [] ∨ (s' = s ∧ ¬ condition)))
      (fun _ => False) := by
  apply Triple.when
  · intro _
    apply (flush_accounted accounted).weaken
    exact fun _ _ flushed => ⟨flushed.1, flushed.2.1, .inl flushed.2.2⟩
  · rintro skipped _ rfl
    exact ⟨accounted, rfl, .inr ⟨rfl, skipped⟩⟩

theorem flushWhen_below (accounted : Accounted taken s) (below : s.1.Below) (condition : Prop) [Decidable condition] :
    Triple (· = s) (Method.when condition IngestBuffer.flush)
      (fun _ s' => (Accounted taken s' ∧ s'.1.Below ∧ s'.1.reset = s.1.reset) ∧
        (s'.1.chunks = [] ∨ (s' = s ∧ ¬ condition))) (fun _ => False) := by
  apply (flushWhen_accounted accounted condition).weaken
  rintro _ s' ⟨accounted', frame, closed | ⟨rfl, skipped⟩⟩
  · exact ⟨⟨accounted', fun opened => absurd closed opened, frame⟩, .inl closed⟩
  · exact ⟨⟨accounted', below, frame⟩, .inr ⟨rfl, skipped⟩⟩

theorem Represents.kept (represents : b.Represents current) (limit : b'.maxSamples = b.maxSamples)
    (same : b'.chunks = b.chunks ∧ b'.numSamples = b.numSamples ∧ b'.componentDtype = b.componentDtype ∧
      b'.bytesPerSample = b.bytesPerSample ∧ b'.isComplex = b.isComplex ∧ b'.startTimestamp = b.startTimestamp ∧
      b'.firstArrival = b.firstArrival) : b'.Represents current where
  valid := represents.valid.kept same
  chunks := same.1.trans represents.chunks
  start := same.2.2.2.2.2.1.trans represents.start
  first := same.2.2.2.2.2.2.trans represents.first
  front := by
    intro size sized
    rw [limit]
    exact represents.front size (same.2.2.2.1.symm.trans sized)

theorem Accounted.kept (accounted : Accounted taken s) (limit : b'.maxSamples = s.1.maxSamples)
    (same : b'.chunks = s.1.chunks ∧ b'.numSamples = s.1.numSamples ∧ b'.componentDtype = s.1.componentDtype ∧
      b'.bytesPerSample = s.1.bytesPerSample ∧ b'.isComplex = s.1.isComplex ∧
      b'.startTimestamp = s.1.startTimestamp ∧ b'.firstArrival = s.1.firstArrival) : Accounted taken (b', s.2) := by
  obtain ⟨quiet, windows, current, whole, cut, represents⟩ := accounted
  refine ⟨quiet, windows, current, whole, ?_, represents.kept limit same⟩
  rw [show ((b', s.2) : IngestBuffer × Consumer).1.maxSamples = s.1.maxSamples from limit]
  exact cut

theorem openWindow_cases {md : Metadata} {dtype : String} {bps : Int} {now : ℚ}
    (opened : b.openWindow md dtype bps now = some b') :
    (b.chunks = [] ∧ b' = { b with
        componentDtype := some dtype
        isComplex := some (md.isComplex.getD false)
        bytesPerSample := some bps
        startTimestamp := md.timestamp
        firstArrival := some now }) ∨
      (b.chunks ≠ [] ∧ b' = b) := by
  unfold openWindow at opened
  split at opened
  · rename_i closed
    obtain ⟨latched, same, rfl⟩ := Option.map_eq_some_iff.mp opened
    obtain ⟨dt, -, -, -, rfl⟩ := latch_cases same
    exact .inl ⟨closed, rfl⟩
  · rename_i nonempty
    cases opened
    exact .inr ⟨nonempty, rfl⟩

omit [Platform] in
theorem frontBelow_singleton (maxSamples : Int) (size : Nat) (a : Arrival) : FrontBelow maxSamples size [a] := by
  have none : samplesIn size [a].dropLast = 0 := Nat.zero_div size
  by_cases positive : 0 < maxSamples
  · left
    rw [none]
    exact positive
  · exact .inr ⟨Int.not_lt.mp positive, rfl⟩

theorem Represents.counted (represents : b.Represents current) {name : String} {dt : DType} {complex : Bool}
    (window : b.Opened name dt complex) : b.numSamples = samplesIn (dt.sampleSize complex) current := by
  rw [window.numSamples, samplesIn, flatMap_data, represents.chunks]

theorem Represents.appendChunk (represents : b.Represents current) (below : b.Below) {md : Metadata} {data : Bytes}
    {dtype : String} {bps : Int} {now : ℚ} (solid : data ≠ []) (whole : Int.fmod data.length bps = 0)
    (alike : b.chunks ≠ [] → ¬ b.mixes dtype (md.isComplex.getD false) bps)
    (opened : b.openWindow md dtype bps now = some b') :
    (b'.appendChunk data bps).Represents (current ++ [⟨md, data, now⟩]) := by
  obtain ⟨name, dt, complex, window⟩ := represents.valid.appendChunk solid whole alike opened
  rcases openWindow_cases opened with ⟨closed, rfl⟩ | ⟨nonempty, rfl⟩
  · have none : current = [] := List.map_eq_nil_iff.mp (represents.chunks.symm.trans closed)
    subst none
    refine ⟨.opened window, ?_, rfl, rfl, fun size _ => frontBelow_singleton b.maxSamples size _⟩
    show b.chunks ++ [data] = _
    rw [closed]
    rfl
  · have some : current ≠ [] := by
      rintro rfl
      exact nonempty represents.chunks
    have head : (current ++ [(⟨md, data, now⟩ : Arrival)]).head? = current.head? := List.head?_append_of_ne_nil _ some
    refine ⟨.opened window, ?_, ?_, ?_, ?_⟩
    · show b'.chunks ++ [data] = _
      rw [represents.chunks, List.map_append, List.map_singleton]
    · rw [head]
      exact represents.start
    · rw [head]
      exact represents.first
    · intro size sized
      left
      rw [List.dropLast_concat]
      cases represents.valid with
      | closed empty => exact absurd empty.chunks nonempty
      | opened window =>
        have same := Int.ofNat_inj.mp (Option.some.inj (window.bytesPerSample.symm.trans sized))
        rw [← same, ← represents.counted window]
        exact below nonempty

theorem reset_openWindow {md : Metadata} {dtype : String} {bps : Int} {now : ℚ}
    (opened : b.openWindow md dtype bps now = some b') : b'.reset = b.reset := by
  rcases openWindow_cases opened with ⟨-, rfl⟩ | ⟨-, rfl⟩
  · rfl
  · rfl

theorem pushContext_accounted (accounted : Accounted taken s) (below : s.1.Below) (ctx : Context) :
    Triple (· = s) (pushContext (some ctx))
      (fun _ s' => Accounted taken s' ∧ s'.1.Below ∧ s'.1.reset = s.1.reset.adopt ctx) (fun _ => False) := by
  apply Triple.read
  rintro t rfl
  apply Triple.bind _ (flushWhen_below accounted below _)
  · intro _
    apply Triple.update
    rintro s' ⟨⟨accounted', below', frame⟩, -⟩
    refine ⟨accounted'.kept rfl ⟨rfl, rfl, rfl, rfl, rfl, rfl, rfl⟩, below', ?_⟩
    exact congrArg (adopt ctx) frame

theorem maybeFlushOnAge_accounted (accounted : Accounted taken s) (below : s.1.Below) (now : ℚ) :
    Triple (· = s) (maybeFlushOnAge now)
      (fun _ s' => Accounted taken s' ∧ s'.1.Below ∧ s'.1.reset = s.1.reset ∧
        (s'.1.chunks ≠ [] → ∀ first ∈ s'.1.firstArrival, now - first < s'.1.maxAgeS)) (fun _ => False) := by
  apply Triple.read
  rintro t rfl
  apply (flushWhen_below accounted below _).weaken
  rintro _ s' ⟨⟨accounted', below', frame⟩, closed | ⟨rfl, young⟩⟩
  · exact ⟨accounted', below', frame, fun opened => absurd closed opened⟩
  · refine ⟨accounted', below', frame, ?_⟩
    intro opened first started
    apply Rat.not_le.mp
    intro old
    apply young
    constructor
    · exact opened
    · rw [show s'.1.firstArrival = some first from started]
      exact decide_eq_true old

theorem append_accounted (accounted : Accounted taken s) (below : s.1.Below) {md : Metadata} {data : Bytes}
    {dtype : String} {bps : Int} (now : ℚ) (solid : data ≠ []) (whole : Int.fmod data.length bps = 0)
    (alike : s.1.chunks ≠ [] → ¬ s.1.mixes dtype (md.isComplex.getD false) bps) :
    Triple (· = s) (append md data dtype bps now)
      (fun _ s' => s'.1.Below ∧ ((Accounted taken s' ∧ s'.1.reset = s.1.reset.drop) ∨
        (Accounted (taken ++ [⟨md, data, now⟩]) s' ∧ s'.1.reset = s.1.reset))) (fun _ => False) := by
  apply append_rule
  · rintro t rfl -
    exact ⟨below, .inl ⟨accounted.kept rfl ⟨rfl, rfl, rfl, rfl, rfl, rfl, rfl⟩, rfl⟩⟩
  · rintro t b rfl opened
    have frame := reset_openWindow opened
    have limit : (b.appendChunk data bps).maxSamples = t.1.maxSamples := (congrArg IngestBuffer.maxSamples frame :)
    have extended : Accounted (taken ++ [⟨md, data, now⟩]) (b.appendChunk data bps, t.2) := by
      obtain ⟨quiet, windows, current, together, cut, represents⟩ := accounted
      refine ⟨quiet, windows, current ++ [⟨md, data, now⟩], ?_, ?_, ?_⟩
      · rw [← List.append_assoc, together]
      · rw [show ((b.appendChunk data bps, t.2) : IngestBuffer × Consumer).1.maxSamples = t.1.maxSamples from limit]
        exact cut
      · exact represents.appendChunk below solid whole alike opened
    apply (flushWhen_accounted extended _).weaken
    rintro _ s' ⟨accounted', frame', closed | ⟨rfl, small⟩⟩
    · exact ⟨fun nonempty => absurd closed nonempty, .inr ⟨accounted', frame'.trans frame⟩⟩
    · refine ⟨?_, .inr ⟨accounted', frame⟩⟩
      intro _
      exact Int.not_le.mp small

theorem pushData_accounted (accounted : Accounted taken s) (below : s.1.Below) (md : Metadata) (data : Bytes)
    (now : ℚ) :
    Triple (· = s) (pushData md data now)
      (fun _ s' => s'.1.Below ∧ ((Accounted taken s' ∧ s'.1.reset = s.1.reset.drop) ∨
        (Accounted (taken ++ if data = [] then [] else [⟨md, data, now⟩]) s' ∧ s'.1.reset = s.1.reset)))
      (fun _ => False) := by
  apply pushData_rule (fun s' => Accounted taken s' ∧ s'.1.Below ∧ s'.1.reset = s.1.reset) fun dtype bps s' =>
    (Accounted taken s' ∧ s'.1.Below ∧ s'.1.reset = s.1.reset) ∧
      (s'.1.chunks ≠ [] → ¬ s'.1.mixes dtype (md.isComplex.getD false) bps)
  · exact ⟨below, .inl ⟨accounted.kept rfl ⟨rfl, rfl, rfl, rfl, rfl, rfl, rfl⟩, rfl⟩⟩
  · exact (flushWhen_below accounted below _).weaken fun _ _ flushed => flushed.1
  · rintro dtype bps t ⟨accounted', below', frame⟩
    apply (flushWhen_below accounted' below' _).weaken
    rintro _ s' ⟨⟨accounted'', below'', frame'⟩, flushed⟩
    refine ⟨⟨accounted'', below'', frame'.trans frame⟩, ?_⟩
    intro opened mixed
    rcases flushed with closed | ⟨rfl, unflushed⟩
    · exact opened closed
    · exact unflushed ⟨opened, mixed⟩
  · intro dtype bps solid whole
    rw [if_neg solid]
    apply Triple.each
    rintro t ⟨⟨accounted', below', frame⟩, alike⟩
    rw [← frame]
    exact append_accounted accounted' below' now solid whole alike
  · rintro dtype bps t empty ⟨⟨accounted', below', frame⟩, -⟩
    rw [if_pos empty, List.append_nil]
    exact ⟨below', .inr ⟨accounted', frame⟩⟩

inductive Operation where
  | push (record : Option Record) (now : ℚ)
  | maybeFlushOnAge (now : ℚ)
  | flush

def perform : Operation → Action Unit
  | .push none _ => pure ()
  | .push (some record) now => IngestBuffer.push record now
  | .maybeFlushOnAge now => IngestBuffer.maybeFlushOnAge now
  | .flush => IngestBuffer.flush

def performAll : List Operation → Action Unit
  | [] => pure ()
  | op :: rest => do
    perform op
    performAll rest

/-- The record an operation puts in a window: a data record that is not empty and is not counted as dropped. -/
def takenBy (op : Operation) (s : IngestBuffer × Consumer) : List Arrival :=
  match op with
  | .push (some (.data md data)) now =>
    if data ≠ [] ∧ (IngestBuffer.push (.data md data) now s).2.1.dropped = s.1.dropped then [⟨md, data, now⟩] else []
  | _ => []

def takenByAll : List Operation → IngestBuffer × Consumer → List Arrival
  | [], _ => []
  | op :: rest, s => takenBy op s ++ takenByAll rest (perform op s).2

structure Relabels (op : Operation) (b b' : IngestBuffer) : Prop where
  limits : b'.maxSamples = b.maxSamples ∧ b'.maxAgeS = b.maxAgeS ∧ b'.streamId = b.streamId ∧
    b'.flushFields = b.flushFields
  adopted : ∀ md ctx now, op = .push (some (.context md (some ctx))) now →
    b'.currentContext = some ctx ∧ b'.inert = decide (ctx.supported = some false ∨ ctx.componentDtype.join = none)
  kept : (∀ md ctx now, op ≠ .push (some (.context md (some ctx))) now) →
    b'.currentContext = b.currentContext ∧ b'.inert = b.inert

omit [Platform] in
theorem relabels_of_reset {op : Operation} (other : ∀ md ctx now, op ≠ .push (some (.context md (some ctx))) now)
    (same : b'.reset = b.reset ∨ b'.reset = b.reset.drop) : Relabels op b b' := by
  have fields : ∀ {α : Type} (f : IngestBuffer → α), (∀ b, f b.reset = f b) → (∀ b, f b.drop = f b) → f b' = f b := by
    intro α f reset drop
    rcases same with same | same
    · rw [← reset b', same, reset b]
    · rw [← reset b', same, drop, reset b]
  refine ⟨⟨?_, ?_, ?_, ?_⟩, fun md ctx now adopts => absurd adopts (other md ctx now), fun _ => ⟨?_, ?_⟩⟩
  · exact fields IngestBuffer.maxSamples (fun _ => rfl) fun _ => rfl
  · exact fields IngestBuffer.maxAgeS (fun _ => rfl) fun _ => rfl
  · exact fields IngestBuffer.streamId (fun _ => rfl) fun _ => rfl
  · exact fields IngestBuffer.flushFields (fun _ => rfl) fun _ => rfl
  · exact fields IngestBuffer.currentContext (fun _ => rfl) fun _ => rfl
  · exact fields IngestBuffer.inert (fun _ => rfl) fun _ => rfl

structure Kept (op : Operation) (taken : List Arrival) (s s' : IngestBuffer × Consumer) : Prop where
  accounted : Accounted (taken ++ takenBy op s) s'
  below : s'.1.Below
  relabels : Relabels op s.1 s'.1
  young : ∀ now, op = .maybeFlushOnAge now → s'.1.chunks ≠ [] → ∀ first ∈ s'.1.firstArrival, now - first < s'.1.maxAgeS

theorem perform_kept (accounted : Accounted taken s) (below : s.1.Below) (op : Operation) :
    ∃ s', perform op s = (.ok (), s') ∧ Kept op taken s s' := by
  cases op with
  | push record now =>
    cases record with
    | none =>
      exact ⟨s, rfl, accounted.nothing, below, relabels_of_reset (by simp) (.inl rfl), nofun⟩
    | some record =>
      cases record with
      | context md ctx =>
        cases ctx with
        | none =>
          exact ⟨s, rfl, accounted.nothing, below, relabels_of_reset (by simp) (.inl rfl), nofun⟩
        | some ctx =>
          obtain ⟨_, s', returned, accounted', below', reset⟩ :=
            (pushContext_accounted accounted below ctx).returned rfl
          refine ⟨s', returned, accounted'.nothing, below', ?_, nofun⟩
          constructor
          · exact ⟨(congrArg IngestBuffer.maxSamples reset :), (congrArg IngestBuffer.maxAgeS reset :),
              (congrArg IngestBuffer.streamId reset :), (congrArg IngestBuffer.flushFields reset :)⟩
          · intro md' ctx' now' same
            cases same
            exact ⟨(congrArg IngestBuffer.currentContext reset :), (congrArg IngestBuffer.inert reset :)⟩
          · intro other
            exact absurd rfl (other md ctx now)
      | data md data =>
        obtain ⟨_, s', returned, below', outcome⟩ := (pushData_accounted accounted below md data now).returned rfl
        have after : (IngestBuffer.push (.data md data) now s).2 = s' := congrArg Prod.snd returned
        refine ⟨s', returned, ?_, below', ?_, nofun⟩
        · rw [takenBy, after]
          rcases outcome with ⟨accounted', dropped⟩ | ⟨accounted', same⟩
          · have counted : s'.1.dropped = s.1.dropped + 1 := (congrArg IngestBuffer.dropped dropped :)
            rw [if_neg (by omega), List.append_nil]
            exact accounted'
          · have counted : s'.1.dropped = s.1.dropped := (congrArg IngestBuffer.dropped same :)
            by_cases empty : data = []
            · rw [if_pos empty] at accounted'
              rw [if_neg fun filled => filled.1 empty]
              exact accounted'
            · rw [if_neg empty] at accounted'
              rw [if_pos ⟨empty, counted⟩]
              exact accounted'
        · apply relabels_of_reset
          · simp
          · rcases outcome with ⟨-, dropped⟩ | ⟨-, same⟩
            · exact .inr dropped
            · exact .inl same
  | maybeFlushOnAge now =>
    obtain ⟨_, s', returned, accounted', below', reset, young⟩ :=
      (maybeFlushOnAge_accounted accounted below now).returned rfl
    refine ⟨s', returned, accounted'.nothing, below', relabels_of_reset (by simp) (.inl reset), ?_⟩
    intro now' same
    cases same
    exact young
  | flush =>
    obtain ⟨_, s', returned, accounted', reset, closed⟩ := (flush_accounted accounted).returned rfl
    exact ⟨s', returned, accounted'.nothing, fun opened => absurd closed opened, relabels_of_reset (by simp)
      (.inl reset), nofun⟩

theorem performAll_accounted (ops : List Operation) (accounted : Accounted taken s) (below : s.1.Below) :
    ∃ s', performAll ops s = (.ok (), s') ∧ Accounted (taken ++ takenByAll ops s) s' ∧ s'.1.Below ∧
      s'.1.maxSamples = s.1.maxSamples ∧ s'.1.maxAgeS = s.1.maxAgeS := by
  induction ops generalizing taken s with
  | nil =>
    refine ⟨s, rfl, ?_, below, rfl, rfl⟩
    rw [takenByAll, List.append_nil]
    exact accounted
  | cons op rest ih =>
    obtain ⟨s', returned, kept⟩ := perform_kept accounted below op
    obtain ⟨s'', returned', accounted', below', maxSamples, maxAgeS⟩ := ih kept.accounted kept.below
    refine ⟨s'', ?_, ?_, below', maxSamples.trans kept.relabels.limits.1, maxAgeS.trans kept.relabels.limits.2.1⟩
    · rw [performAll, Method.bind_returns returned]
      exact returned'
    · rw [takenByAll, returned, ← List.append_assoc]
      exact accounted'

/-- The representation invariant of a buffer, after any operations with any records and clock readings, with an emit
    that does not raise: the window is reset, or it holds whole samples below the size limit, of the records taken
    since the last unit; no operation raises, a poll leaves no old window, and only a context is adopted as the label. -/
theorem buffer_represents (maxSamples : Int) (maxAgeS : ℚ) (streamId : StreamId) (flushFields : List ContextKey)
    (ops : List Operation) :
    let start : IngestBuffer × Consumer :=
      ({ maxSamples := maxSamples, maxAgeS := maxAgeS, streamId := streamId, flushFields := flushFields }, .quiet)
    ∃ s, performAll ops start = (.ok (), s) ∧
      (s.1.Empty ∨ ∃ name dt complex, s.1.Opened name dt complex ∧ s.1.numSamples < maxSamples) ∧
      (∃ windows current, windows.flatten ++ current = takenByAll ops start ∧
        List.Forall₂ (EmitUnit.Cut maxSamples) s.2.sent windows ∧
        s.1.chunks = current.map Arrival.data ∧
        s.1.startTimestamp = (current.head?.bind fun a => a.metadata.timestamp) ∧
        s.1.firstArrival = current.head?.map Arrival.reading) ∧
      ∀ op, ∃ s', perform op s = (.ok (), s') ∧ Relabels op s.1 s'.1 ∧
        ∀ now, op = .maybeFlushOnAge now → s'.1.chunks ≠ [] →
          ∃ first, s'.1.firstArrival = some first ∧ now - first < maxAgeS := by
  intro start
  have initial : Accounted [] start := ⟨rfl, [], [], rfl, .nil, represents_empty ⟨rfl, rfl, rfl, rfl, rfl, rfl, rfl⟩⟩
  obtain ⟨s, returned, accounted, below, limit, age⟩ := performAll_accounted ops initial fun opened => absurd rfl opened
  refine ⟨s, returned, ?_, ?_, ?_⟩
  · obtain ⟨-, windows, current, -, -, represents⟩ := accounted
    cases represents.valid with
    | closed empty => exact .inl empty
    | @opened name dt complex window =>
      right
      refine ⟨name, dt, complex, window, ?_⟩
      rw [← show s.1.maxSamples = maxSamples from limit]
      exact below window.nonempty
  · obtain ⟨-, windows, current, whole, cut, represents⟩ := accounted
    rw [show s.1.maxSamples = maxSamples from limit] at cut
    exact ⟨windows, current, whole, cut, represents.chunks, represents.start, represents.first⟩
  · intro op
    obtain ⟨s', returned', kept⟩ := perform_kept accounted below op
    refine ⟨s', returned', kept.relabels, ?_⟩
    intro now poll opened
    have age' : s'.1.maxAgeS = maxAgeS := kept.relabels.limits.2.1.trans age
    obtain ⟨-, windows, current, -, -, represents⟩ := kept.accounted
    cases current with
    | nil => exact absurd represents.chunks opened
    | cons first rest =>
      refine ⟨first.reading, represents.first, ?_⟩
      rw [← age']
      exact kept.young now poll opened first.reading represents.first

end IngestBuffer

namespace ZeroLimit

open Exact IngestBuffer

def metadata : Metadata := ⟨some 123, 0, some 100, 10, some ">i2", some 2, some false, false⟩

def operations : List Operation :=
  [.push (some (.context metadata (some { supported := some true, componentDtype := some (some ">i2") }))) 0,
    .push (some (.data metadata [1, 2, 3, 4])) 0]

def start : IngestBuffer × Consumer :=
  ({ maxSamples := 0, maxAgeS := 1, streamId := some 123, flushFields := defaultFlushFields }, .quiet)

/-- With a limit of 0 a unit without its only record has 0 samples, which is not below the limit. -/
theorem unit_front_not_below :
    (takenByAll operations start).map Arrival.data = [[1, 2, 3, 4]] ∧
      (performAll operations start).2.2.sent.map (fun u => u.samples.raw) = [[1, 2, 3, 4]] ∧
      ¬ ∃ windows, List.Forall₂ (fun u window => u.samples.raw = List.flatMap Arrival.data window ∧
        ∀ size : Nat, u.bytesPerSample = some (size : Int) →
          (samplesIn size window.dropLast : Int) < start.1.maxSamples)
            (performAll operations start).2.2.sent windows := by
  have sizes : (performAll operations start).2.2.sent.map (fun u => u.bytesPerSample) = [some 2] := by decide +kernel
  refine ⟨by decide +kernel, by decide +kernel, ?_⟩
  rintro ⟨windows, related⟩
  generalize (performAll operations start).2.2.sent = sent at sizes related
  cases related with
  | nil => cases sizes
  | cons front rest =>
    have size := (List.cons.inj sizes).1
    have below := front.2 2 size
    have limit : start.1.maxSamples = 0 := rfl
    omega

end ZeroLimit

end Sceptre
