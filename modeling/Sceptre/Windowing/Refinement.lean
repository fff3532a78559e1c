import Sceptre.Windowing.Sound

namespace Sceptre

open Foundation

def Consumer.Quiet (k : Consumer) : Prop := ∀ call, k.raises call = none

def Consumer.accept (k : Consumer) (units : List EmitUnit) : Consumer := { k with sent := k.sent ++ units }

theorem Consumer.Quiet.accept {k : Consumer} (quiet : k.Quiet) (units : List EmitUnit) :
    (k.accept units).Quiet := quiet

theorem Consumer.Quiet.emit {k : Consumer} (quiet : k.Quiet) (unit : EmitUnit) :
    k.emit unit = (.ok (), k.accept [unit]) := by
  simp [Consumer.emit, quiet k.sent.length, Consumer.accept]

@[simp] theorem Consumer.accept_nil (k : Consumer) : k.accept [] = k := by
  simp [Consumer.accept]

theorem Consumer.accept_accept (k : Consumer) (first second : List EmitUnit) :
    (k.accept first).accept second = k.accept (first ++ second) := by
  simp [Consumer.accept]

def Context.inert (c : Context) : Bool := decide (c.supported = some false ∨ c.componentDtype.join = none)

structure Labels (limits : Limits) (s : StreamId) (b : IngestBuffer) (ctx : Option Context) : Prop where
  maxSamples : b.maxSamples = limits.maxSamples
  maxAgeS : b.maxAgeS = limits.maxAgeS
  streamId : b.streamId = s
  flushFields : b.flushFields = defaultFlushFields
  context : b.currentContext = ctx
  inert : b.inert = ctx.any Context.inert
  dropped : b.dropped = 0

structure Accumulates (b : IngestBuffer) (packets : List Packet) : Prop where
  chunks : b.chunks = (packets.map Packet.data).filter (· ≠ [])
  numSamples : b.numSamples = windowSamples packets
  componentDtype : b.componentDtype = packets.head?.bind fun p => p.metadata.dtype
  isComplex : b.isComplex = packets.head?.bind fun p => p.metadata.isComplex
  bytesPerSample : b.bytesPerSample = packets.head?.bind fun p => p.metadata.bytesPerSample
  startTimestamp : b.startTimestamp = packets.head?.bind fun p => p.metadata.timestamp
  firstArrival : b.firstArrival = packets.head?.map Packet.arrival

/-- The buffer of stream `s` holds what the lane says. -/
structure Refines (limits : Limits) (s : StreamId) (b : IngestBuffer) (l : Lane) : Prop where
  labels : Labels limits s b l.context
  window : Accumulates b l.packets

/-- From `b`, `body` returns whatever the quiet consumer, leaves a buffer that refines `l'`, and emits
    exactly the windows `l'` closed. -/
def Implements (limits : Limits) (s : StreamId) (b : IngestBuffer) (l l' : Lane)
    (body : IngestBuffer.Action Unit) : Prop :=
  ∃ b' fresh, Refines limits s b' l' ∧ l'.closed = l.closed ++ fresh ∧
    ∀ k : Consumer, k.Quiet → body (b, k) = (.ok (), b', k.accept (fresh.map (Window.render s)))

theorem Implements.nothing {limits : Limits} {s : StreamId} {b : IngestBuffer} {l : Lane}
    (refines : Refines limits s b l) : Implements limits s b l l (pure ()) :=
  ⟨b, [], refines, (List.append_nil _).symm, fun k _ => by simp [Method.pure_run]⟩

theorem Implements.bind {limits : Limits} {s : StreamId} {b : IngestBuffer} {l l' l'' : Lane}
    {first second : IngestBuffer.Action Unit} (head : Implements limits s b l l' first)
    (tail : ∀ b', Refines limits s b' l' → Implements limits s b' l' l'' second) :
    Implements limits s b l l'' (first >>= fun _ => second) := by
  obtain ⟨b', fresh, refines, closed, returned⟩ := head
  obtain ⟨b'', fresh', refines', closed', returned'⟩ := tail b' refines
  refine ⟨b'', fresh ++ fresh', refines', by rw [closed', closed, List.append_assoc], ?_⟩
  intro k quiet
  rw [Method.bind_returns (returned k quiet), returned' _ (quiet.accept _), Consumer.accept_accept,
    List.map_append]

theorem Implements.read {limits : Limits} {s : StreamId} {b : IngestBuffer} {l l' : Lane}
    {body : IngestBuffer × Consumer → IngestBuffer.Action Unit}
    (blind : ∀ k k', body (b, k) = body (b, k'))
    (holds : Implements limits s b l l' (body (b, .quiet))) :
    Implements limits s b l l' (Method.read >>= body) := by
  obtain ⟨b', fresh, refines, closed, returned⟩ := holds
  exact ⟨b', fresh, refines, closed, fun k quiet => by
    rw [Method.read_bind, blind k .quiet]
    exact returned k quiet⟩

theorem joined_counted {packets : List Packet} {name : String} {complex : Bool} {group : Nat}
    (positive : 0 < group) (reads : ∀ p ∈ packets, p.Reads name complex group) :
    ∃ n : Nat, (joined packets).length = n * group ∧ windowSamples packets = n := by
  induction packets with
  | nil => exact ⟨0, by simp [joined], rfl⟩
  | cons p rest ih =>
    obtain ⟨n, length, count⟩ := ih fun q member => reads q (List.mem_cons_of_mem _ member)
    obtain ⟨m, whole⟩ := (reads p (List.mem_cons_self ..)).whole
    have samples : p.samples = m := by
      rw [Packet.samples, (reads p (List.mem_cons_self ..)).bytesPerSample, Option.getD_some,
        Int.fdiv_eq_ediv_of_nonneg _ (by omega), ← Int.natCast_ediv, whole, Nat.mul_div_cancel_left _ positive]
    refine ⟨m + n, ?_, ?_⟩
    · rw [joined, List.flatMap_cons, List.length_append, whole]
      change _ + (joined rest).length = _
      rw [length, Nat.add_mul, Nat.mul_comm group m]
    · rw [windowSamples, List.map_cons, List.sum_cons, samples]
      change _ + windowSamples rest = _
      rw [count, Int.natCast_add]

theorem Window.render_counted {s : StreamId} {w : Window} {first : Packet} {rest : List Packet} {name : String}
    {complex : Bool} {group : Nat} (positive : 0 < group) (split : w.packets = first :: rest)
    (solid : first.data ≠ []) (reads : ∀ p ∈ w.packets, p.Reads name complex group) :
    ∃ n : Nat, 1 ≤ n ∧ (w.render s).samples.raw.length = n * group ∧ (w.render s).samples.size = n ∧
      (w.render s).numSamples = n := by
  obtain ⟨n, length, count⟩ := joined_counted positive reads
  have nonempty : 0 < (joined w.packets).length := by
    rw [split, joined, List.flatMap_cons, List.length_append]
    have := List.length_pos_iff.mpr solid
    omega
  have one : 1 ≤ n := by
    rcases Nat.eq_zero_or_pos n with none | some
    · rw [length, none, Nat.zero_mul] at nonempty
      omega
    · exact some
  refine ⟨n, one, length, ?_, count⟩
  show (windowSamples w.packets).toNat = n
  rw [count, Int.toNat_natCast]

theorem Window.render_reads {s : StreamId} {w : Window} {first : Packet} {rest : List Packet} {name : String}
    {complex : Bool} {group : Nat} (split : w.packets = first :: rest)
    (reads : ∀ p ∈ w.packets, p.Reads name complex group) :
    (w.render s).componentDtype = some name ∧ (w.render s).isComplex = some complex ∧
      (w.render s).bytesPerSample = some (group : Int) ∧
      (w.render s).startTimestamp = first.metadata.timestamp := by
  have head : first.Reads name complex group := reads first (by simp [split])
  simp [Window.render, split, head.dtype, head.isComplex, head.bytesPerSample]

section Buffer

variable [Platform] {limits : Limits} {s : StreamId} {b : IngestBuffer} {l : Lane}

theorem Refines.chunks_nil (refines : Refines limits s b l) (sound : l.Sound) :
    b.chunks = [] ↔ l.packets = [] := by
  rw [refines.window.chunks]
  constructor
  · intro none
    by_contra opened
    obtain ⟨p, rest, same, solid⟩ := sound.cut.head.2 opened
    have member : p.data ∈ (l.packets.map Packet.data).filter (· ≠ []) := by
      simp [same, show p.data ≠ [] from solid]
    rw [none] at member
    cases member
  · intro none
    simp [none]

omit [Platform] in
theorem Refines.chunks_flatten (refines : Refines limits s b l) : b.chunks.flatten = joined l.packets := by
  rw [refines.window.chunks, List.flatten_filter_ne_nil, joined, List.flatMap_def]

theorem Refines.convert (refines : Refines limits s b l) (sound : l.Sound) (opened : l.packets ≠ []) :
    b.convert = .ok ⟨joined l.packets, (windowSamples l.packets).toNat⟩ := by
  obtain ⟨p, rest, same, -⟩ := sound.cut.head.2 opened
  obtain ⟨c, -, name, complex, group, usable, covered⟩ := sound.covered opened
  obtain ⟨n, length, count⟩ := joined_counted usable.positive fun q member => (covered q member).2
  have head : p.Reads name complex group := (covered p (by simp [same])).2
  have dtype : b.componentDtype = some name := by simp [refines.window.componentDtype, same, head.dtype]
  have isComplex : b.isComplex = some complex := by simp [refines.window.isComplex, same, head.isComplex]
  obtain ⟨dt, known, numeric, positive, size⟩ := usable.wire
  have nonzero : dt.itemsize ≠ 0 := by omega
  have whole : (joined l.packets).length % dt.itemsize = 0 := by
    rw [length, size, ← Nat.mul_assoc, Nat.mul_mod_left]
  have components : (joined l.packets).length / dt.itemsize = n * (if complex then 2 else 1) := by
    rw [length, size, ← Nat.mul_assoc, Nat.mul_div_cancel _ positive]
  have raw : frombuffer b.chunks.flatten b.componentDtype =
      .ok (⟨joined l.packets, n * (if complex then 2 else 1)⟩, dt) := by
    simp [frombuffer, refines.chunks_flatten, dtype, known, nonzero, whole, components]
  rw [IngestBuffer.convert, raw, isComplex, count]
  cases complex <;>
    simp [astypeFloat32, numeric, viewComplex64, Bind.bind, Except.bind, Pure.pure, Except.pure]

omit [Platform] in
theorem Labels.reset {context : Option Context} (labels : Labels limits s b context) :
    Labels limits s b.reset context := { labels with }

omit [Platform] in
theorem Refines.reset (refines : Refines limits s b l) : Refines limits s b.reset l.close := by
  constructor
  · rw [Lane.close_context]
    exact refines.labels.reset
  · rw [Lane.close_packets]
    exact ⟨rfl, rfl, rfl, rfl, rfl, rfl, rfl⟩

theorem flush_implements (refines : Refines limits s b l) (sound : l.Sound) :
    Implements limits s b l l.close IngestBuffer.flush := by
  by_cases opened : l.packets = []
  · have empty : b.chunks = [] := (refines.chunks_nil sound).mpr opened
    have same : l.close = l := if_pos opened
    rw [same]
    exact ⟨b, [], refines, (List.append_nil _).symm, fun k _ => by simp [IngestBuffer.flush, empty]⟩
  · have nonempty : b.chunks ≠ [] := fun empty => opened ((refines.chunks_nil sound).mp empty)
    refine ⟨b.reset, [⟨l.context, l.packets⟩], refines.reset, by rw [Lane.close, if_neg opened], ?_⟩
    intro k quiet
    have unit : b.unit ⟨joined l.packets, (windowSamples l.packets).toNat⟩ =
        Window.render s ⟨l.context, l.packets⟩ := by
      simp [IngestBuffer.unit, Window.render, refines.labels.context, refines.window.startTimestamp,
        refines.window.numSamples, refines.labels.streamId, refines.window.componentDtype, refines.window.isComplex,
          refines.window.bytesPerSample]
    simp [IngestBuffer.flush, nonempty, refines.convert sound opened, quiet.emit, unit]

theorem flushWhen_implements (refines : Refines limits s b l) (sound : l.Sound)
    (concrete abstract : Prop) [Decidable concrete] [Decidable abstract]
    (same : l.packets ≠ [] → (concrete ↔ abstract)) (guarded : concrete → l.packets ≠ []) :
    Implements limits s b l (l.closeIf abstract) (Method.when concrete IngestBuffer.flush) := by
  by_cases holds : concrete
  · rw [Method.when_true holds, Lane.closeIf, if_pos ((same (guarded holds)).mp holds)]
    exact flush_implements refines sound
  · rw [Method.when_false holds]
    have unchanged : l.closeIf abstract = l := by
      unfold Lane.closeIf Lane.close
      split
      · split
        · rfl
        · rename_i triggered opened
          exact absurd ((same opened).mpr triggered) holds
      · rfl
    rw [unchanged]
    exact .nothing refines

omit [Platform] in
theorem modify_implements {l' : Lane} {f : IngestBuffer → IngestBuffer} (refines : Refines limits s (f b) l')
    (closed : l'.closed = l.closed) : Implements limits s b l l' (IngestBuffer.modify f) :=
  ⟨f b, [], refines, by simp [closed], fun k _ => by simp [IngestBuffer.modify, Method.update_run]⟩

omit [Platform] in
theorem Refines.adopt (refines : Refines limits s b l) (ctx : Context) :
    Refines limits s (b.adopt ctx) { l with context := some ctx } where
  labels := { refines.labels with context := rfl, inert := rfl }
  window := { refines.window with }

omit [Platform] in
theorem Refines.differs (refines : Refines limits s b l) {old : Context} (inForce : l.context = some old)
    (ctx : Context) : b.differs ctx = true ↔ ¬ SameIdentity old ctx := by
  simp [IngestBuffer.differs, refines.labels.context, inForce, refines.labels.flushFields, SameIdentity]

theorem pushContext_implements (refines : Refines limits s b l) (sound : l.Sound) (ctx : Context) :
    Implements limits s b l (l.adopt ctx) (IngestBuffer.pushContext (some ctx)) := by
  have flushed : Implements limits s b l (l.closeIf (l.context.any (fun old => ¬ SameIdentity old ctx) = true))
      (Method.when (b.chunks ≠ [] ∧ b.differs ctx) IngestBuffer.flush) := by
    refine flushWhen_implements refines sound _ _ ?_ ?_
    · intro opened
      obtain ⟨old, inForce, -⟩ := sound.covered opened
      have nonempty : b.chunks ≠ [] := fun empty => opened ((refines.chunks_nil sound).mp empty)
      simp [nonempty, refines.differs inForce, inForce]
    · intro concrete empty
      exact concrete.1 ((refines.chunks_nil sound).mpr empty)
  exact Implements.read (fun k k' => rfl)
    (flushed.bind fun b' refines' => modify_implements (refines'.adopt ctx) rfl)

theorem maybeFlushOnAge_implements (refines : Refines limits s b l) (sound : l.Sound) (now : ℚ) :
    Implements limits s b l (l.poll limits now) (IngestBuffer.maybeFlushOnAge now) := by
  refine Implements.read (fun k k' => rfl) (flushWhen_implements refines sound _ _ ?_ ?_)
  · intro opened
    have nonempty : b.chunks ≠ [] := fun empty => opened ((refines.chunks_nil sound).mp empty)
    simp [nonempty, refines.window.firstArrival, refines.labels.maxAgeS, Option.any_map]
  · intro concrete empty
    exact concrete.1 ((refines.chunks_nil sound).mpr empty)

omit [Platform] in
theorem windowSamples_append (packets : List Packet) (p : Packet) :
    windowSamples (packets ++ [p]) = windowSamples packets + p.samples := by
  simp [windowSamples]

omit [Platform] in
theorem Accumulates.head_eq {packets packets' : List Packet} {b' : IngestBuffer}
    (window : Accumulates b packets) (head : packets'.head? = packets.head?)
    (latched : b'.componentDtype = b.componentDtype ∧ b'.isComplex = b.isComplex ∧
      b'.bytesPerSample = b.bytesPerSample ∧ b'.startTimestamp = b.startTimestamp ∧
      b'.firstArrival = b.firstArrival)
    (chunks : b'.chunks = (packets'.map Packet.data).filter (· ≠ []))
    (samples : b'.numSamples = windowSamples packets') : Accumulates b' packets' := by
  obtain ⟨dtype, complex, size, timestamp, arrival⟩ := latched
  refine ⟨chunks, samples, ?_, ?_, ?_, ?_, ?_⟩ <;> rw [head]
  · exact dtype.trans window.componentDtype
  · exact complex.trans window.isComplex
  · exact size.trans window.bytesPerSample
  · exact timestamp.trans window.startTimestamp
  · exact arrival.trans window.firstArrival

omit [Platform] in
theorem Refines.record_empty (refines : Refines limits s b l) {p : Packet} (empty : p.data = []) :
    Refines limits s b (l.record p) := by
  have samples : p.samples = 0 := by simp [Packet.samples, empty]
  by_cases opened : l.packets = []
  · have same : l.record p = { l with last := some p.counter, received := l.received ++ [p] } := by
      rw [Lane.record, Lane.join, if_pos ⟨empty, opened⟩]
    rw [same]
    exact ⟨refines.labels, refines.window⟩
  · have same : l.record p =
        { l with packets := l.packets ++ [p], last := some p.counter, received := l.received ++ [p] } := by
      rw [Lane.record, Lane.join, if_neg fun stray => opened stray.2]
    rw [same]
    refine ⟨refines.labels, refines.window.head_eq (List.head?_append_of_ne_nil _ opened)
      ⟨rfl, rfl, rfl, rfl, rfl⟩ ?_ ?_⟩
    · simp [refines.window.chunks, empty]
    · rw [windowSamples_append, samples, Int.add_zero]
      exact refines.window.numSamples

theorem openWindow_refines (refines : Refines limits s b l) (sound : l.Sound) {p : Packet} {name : String}
    {complex : Bool} {group : Nat} (usable : p.context.Usable name complex group)
    (reads : p.Reads name complex group) (solid : p.data ≠ []) :
    ∃ opened, b.openWindow p.metadata name group p.arrival = some opened ∧
      opened.maxSamples = limits.maxSamples ∧
      Refines limits s (opened.appendChunk p.data group) (l.record p) := by
  have samples : p.samples = Int.fdiv p.data.length group := by simp [Packet.samples, reads.bytesPerSample]
  have same : l.record p =
      { l with packets := l.packets ++ [p], last := some p.counter, received := l.received ++ [p] } := by
    rw [Lane.record, Lane.join, if_neg fun stray => solid stray.1]
  rw [same]
  by_cases opened : l.packets = []
  · obtain ⟨dt, known, numeric, positive, size⟩ := usable.wire
    have latched : dt.numeric = true ∧ ((dt.itemsize * (if complex then 2 else 1) : Nat) : Int) = group :=
      ⟨numeric, by rw [size, Nat.mul_comm]⟩
    have empty : b.chunks = [] := (refines.chunks_nil sound).mpr opened
    refine ⟨{ b with
        componentDtype := some name, isComplex := some complex, bytesPerSample := some (group : Int)
        startTimestamp := p.metadata.timestamp, firstArrival := some p.arrival }, ?_,
      refines.labels.maxSamples, { refines.labels with }, ?_⟩
    · rw [IngestBuffer.openWindow, if_pos empty, IngestBuffer.latch, known]
      simp only [reads.isComplex, Option.getD_some, latched, and_self, if_true, Option.map_some]
    · constructor
      · simp [IngestBuffer.appendChunk, empty, opened, solid]
      · simp [IngestBuffer.appendChunk, refines.window.numSamples, opened, windowSamples, samples]
      all_goals simp [IngestBuffer.appendChunk, opened, reads.dtype, reads.isComplex, reads.bytesPerSample]
  · have nonempty : b.chunks ≠ [] := fun empty => opened ((refines.chunks_nil sound).mp empty)
    refine ⟨b, by rw [IngestBuffer.openWindow, if_neg nonempty], refines.labels.maxSamples,
      { refines.labels with }, refines.window.head_eq (List.head?_append_of_ne_nil _ opened)
        ⟨rfl, rfl, rfl, rfl, rfl⟩ ?_ ?_⟩
    · simp [IngestBuffer.appendChunk, refines.window.chunks, solid]
    · simp [IngestBuffer.appendChunk, refines.window.numSamples, windowSamples_append, samples]

theorem append_implements (refines : Refines limits s b l) (sound : l.Sound) {p : Packet} {name : String}
    {complex : Bool} {group : Nat} (usable : p.context.Usable name complex group)
    (reads : p.Reads name complex group) (solid : p.data ≠ []) (recorded : (l.record p).Sound) :
    Implements limits s b l
      ((l.record p).closeIf (p.data ≠ [] ∧ windowSamples (l.record p).packets ≥ limits.maxSamples))
      (IngestBuffer.append p.metadata p.data name group p.arrival) := by
  obtain ⟨opened, found, bound, refines'⟩ := openWindow_refines refines sound usable reads solid
  refine Implements.read (fun k k' => rfl) ?_
  dsimp only
  rw [found]
  refine (modify_implements refines' (Lane.record_closed l p)).bind fun b' refines'' => ?_
  refine flushWhen_implements refines'' recorded _ _ ?_ ?_
  · intro _
    rw [refines'.window.numSamples]
    simp [bound, solid]
  · intro _
    simp [Lane.record, Lane.join, solid]

theorem Refines.not_mixes (refines : Refines limits s b l) (sound : l.Sound) {c : Context} {name : String}
    {complex : Bool} {group : Nat} (inForce : l.context = some c) (usable : c.Usable name complex group) :
    ¬ (b.chunks ≠ [] ∧ b.mixes name complex group) := by
  rintro ⟨nonempty, mixed⟩
  have opened : l.packets ≠ [] := fun none => nonempty ((refines.chunks_nil sound).mpr none)
  obtain ⟨p, rest, same, -⟩ := sound.cut.head.2 opened
  obtain ⟨c', inForce', name', complex', group', usable', covered⟩ := sound.covered opened
  have reads := (covered p (by simp [same])).2
  cases inForce.symm.trans inForce'
  have dtype := usable.componentDtype.symm.trans usable'.componentDtype
  have complex_eq := usable.isComplex.symm.trans usable'.isComplex
  have size := usable.bytesPerSample.symm.trans usable'.bytesPerSample
  simp only [Option.some.injEq, Int.natCast_inj] at dtype complex_eq size
  simp [IngestBuffer.mixes, refines.window.componentDtype, refines.window.isComplex,
    refines.window.bytesPerSample, same, reads.dtype, reads.isComplex, reads.bytesPerSample,
    dtype, complex_eq, size] at mixed

theorem pushData_implements (refines : Refines limits s b l) (sound : l.Sound) {p : Packet}
    (fits : l.Fits (.packet p)) :
    Implements limits s b l (l.packet limits p) (IngestBuffer.pushData p.metadata p.data p.arrival) := by
  obtain ⟨inForce, gap, name, complex, group, usable, reads⟩ := fits
  have recorded := sound.record ⟨inForce, gap, name, complex, group, usable, reads⟩
  have closed := sound.closeIf (Interpreter.gapAfter l.last p.counter = true)
  have context : b.currentContext = some p.context := refines.labels.context.trans inForce
  have live : b.inert = false := by
    simp [refines.labels.inert, inForce, Context.inert, usable.supported, usable.componentDtype]
  have positive := usable.positive
  have divides : ¬ ((group : Int) = 0 ∨ Int.fmod p.data.length group ≠ 0) := by
    rw [Int.fmod_eq_emod_of_nonneg _ (by omega)]
    have whole := Int.emod_eq_zero_of_dvd (Int.natCast_dvd_natCast.mpr reads.whole)
    omega
  have early : Implements limits s b l (l.closeIf (Interpreter.gapAfter l.last p.counter = true))
      (Method.when (b.chunks ≠ [] ∧ p.metadata.gapBefore) IngestBuffer.flush) := by
    refine flushWhen_implements refines sound _ _ ?_ ?_
    · intro opened
      have nonempty : b.chunks ≠ [] := fun empty => opened ((refines.chunks_nil sound).mp empty)
      simp [nonempty, gap]
    · intro concrete empty
      exact concrete.1 ((refines.chunks_nil sound).mpr empty)
  refine Implements.read (fun k k' => rfl) ?_
  simp only [context, live, reads.dtype, reads.bytesPerSample, divides, Option.some_ne_none, or_self, if_false,
    Bool.false_eq_true]
  refine early.bind fun b' refines' => ?_
  have context' : (l.closeIf (Interpreter.gapAfter l.last p.counter = true)).context = some p.context := by
    rw [Lane.closeIf_context, inForce]
  unfold Lane.packet
  generalize l.closeIf (Interpreter.gapAfter l.last p.counter = true) = m at *
  refine Implements.read (fun k k' => rfl) ?_
  dsimp only
  rw [reads.isComplex, Option.getD_some, Method.when_false (refines'.not_mixes closed context' usable)]
  refine (Implements.nothing refines').bind fun b'' refines'' => ?_
  by_cases solid : p.data = []
  · rw [Method.when_false (fun h => h solid)]
    have kept : ∀ m' : Lane, m'.closeIf (p.data ≠ [] ∧ windowSamples m'.packets ≥ limits.maxSamples) = m' :=
      fun m' => if_neg fun full => full.1 solid
    rw [kept]
    exact ⟨b'', [], refines''.record_empty solid, by simp, fun k _ => by simp [Method.pure_run]⟩
  · rw [Method.when_true solid]
    exact append_implements refines'' closed usable reads solid recorded

end Buffer

end Sceptre
