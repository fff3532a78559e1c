import Sceptre.Interpreter.Model
import Sceptre.Wire.Classification
import Mathlib.Tactic.Common

namespace Sceptre.Interpreter

open Foundation

variable [Platform]

/-- What one datagram does to the interpreter, with every check that was passed on the way. -/
inductive Processed (i : Interpreter) (raw : Bytes) : Option Record → Interpreter → Prop where
  | rejected : Processed i raw none { i with errors := i.errors + 1 }
  | dropped : Processed i raw none i.drop
  | context {hdr : Header} {ctx : Context} (parsed : parseHeader raw = .ok hdr)
      (kind : hdr.packetType = packetTypeIfContext)
      (admitted : hdr.streamId ∈ i.contexts.keys ∨ (i.contexts.size : Int) < i.maxStreams)
      (decoded : decodeContext raw hdr = .ok ctx) :
      Processed i raw (some (.context (metadata hdr ctx false) (some ctx)))
        { i with contexts := i.contexts.insert hdr.streamId ctx }
  | data {hdr : Header} {ctx : Context} {bytesPerSample numSamples : Int} {body : Bytes}
      (parsed : parseHeader raw = .ok hdr) (kind : hdr.packetType = packetTypeIfData)
      (tracked : i.contexts.get? hdr.streamId = some ctx) (supported : ctx.supported ≠ some false)
      (sized : ctx.bytesPerSample.join = some bytesPerSample)
      (trimmed : trimData raw hdr bytesPerSample = .ok (body, numSamples)) :
      Processed i raw
        (some (.data (metadata hdr ctx (gapAfter (i.lastCounter.get? hdr.streamId) hdr.packetCounter)) body))
        { i with lastCounter := i.lastCounter.insert hdr.streamId hdr.packetCounter }

def output (raw : Bytes) (i : Interpreter) : Option Record := (process raw i).1.toOption.join

def after (raw : Bytes) (i : Interpreter) : Interpreter := (process raw i).2

theorem processData_cases {raw : Bytes} {hdr : Header} (i : Interpreter)
    (parsed : parseHeader raw = .ok hdr) (kind : hdr.packetType = packetTypeIfData) :
    (∃ out, (processData raw hdr i).1 = .ok out ∧ Processed i raw out (processData raw hdr i).2) ∨
      ∃ e, processData raw hdr i = (.error e, i) := by
  unfold processData
  cases tracked : i.contexts.get? hdr.streamId with
  | none => exact .inl ⟨_, rfl, .dropped⟩
  | some ctx =>
    dsimp only
    by_cases unsupported : ctx.supported = some false
    · rw [if_pos unsupported]
      exact .inl ⟨_, rfl, .dropped⟩
    · rw [if_neg unsupported]
      cases sized : ctx.bytesPerSample.join with
      | none => exact .inl ⟨_, rfl, .dropped⟩
      | some bytesPerSample =>
        dsimp only
        cases trimmed : trimData raw hdr bytesPerSample with
        | error e => exact .inr ⟨e, rfl⟩
        | ok trim =>
          obtain ⟨body, numSamples⟩ := trim
          exact .inl ⟨_, rfl, .data parsed kind tracked unsupported sized trimmed⟩

theorem processContext_cases {raw : Bytes} {hdr : Header} (i : Interpreter)
    (parsed : parseHeader raw = .ok hdr) (kind : hdr.packetType = packetTypeIfContext) :
    (∃ out, (processContext raw hdr i).1 = .ok out ∧ Processed i raw out (processContext raw hdr i).2) ∨
      ∃ e, processContext raw hdr i = (.error e, i) := by
  unfold processContext
  by_cases flood : hdr.streamId ∉ i.contexts.keys ∧ (i.contexts.size : Int) ≥ i.maxStreams
  · rw [if_pos flood]
    exact .inl ⟨_, rfl, .dropped⟩
  · rw [if_neg flood]
    cases decoded : decodeContext raw hdr with
    | error e => exact .inr ⟨e, rfl⟩
    | ok ctx =>
      have admitted : hdr.streamId ∈ i.contexts.keys ∨ (i.contexts.size : Int) < i.maxStreams := by
        by_cases present : hdr.streamId ∈ i.contexts.keys
        · exact .inl present
        · exact .inr (Int.not_le.mp fun full => flood ⟨present, full⟩)
      exact .inl ⟨_, rfl, .context parsed kind admitted decoded⟩

theorem processRaw_cases (raw : Bytes) (i : Interpreter) :
    (∃ out, (processRaw raw i).1 = .ok out ∧ Processed i raw out (processRaw raw i).2) ∨
      ∃ e, processRaw raw i = (.error e, i) := by
  unfold processRaw
  cases parsed : parseHeader raw with
  | error e => exact .inr ⟨e, rfl⟩
  | ok hdr =>
    dsimp only
    by_cases handled : hdr.packetType ∉ [packetTypeIfData, packetTypeIfContext]
    · rw [if_pos handled]
      exact .inl ⟨_, rfl, .dropped⟩
    · rw [if_neg handled]
      by_cases context : hdr.packetType = packetTypeIfContext
      · rw [if_pos context]
        exact processContext_cases i parsed context
      · rw [if_neg context]
        have kind : hdr.packetType = packetTypeIfData := by
          simpa [context] using handled
        exact processData_cases i parsed kind

theorem process_returns (raw : Bytes) (i : Interpreter) :
    process raw i = (.ok (output raw i), after raw i) ∧ Processed i raw (output raw i) (after raw i) := by
  rcases processRaw_cases raw i with ⟨out, returned, outcome⟩ | ⟨e, raised⟩
  · have guarded : process raw i = (.ok out, (processRaw raw i).2) := by
      unfold process
      rw [show processRaw raw i = (.ok out, (processRaw raw i).2) from Prod.ext returned rfl]
    have out_eq : output raw i = out := by simp [output, guarded, Except.toOption]
    have after_eq : after raw i = (processRaw raw i).2 := by simp [after, guarded]
    rw [out_eq, after_eq]
    exact ⟨guarded, outcome⟩
  · have guarded : process raw i = (.ok none, { i with errors := i.errors + 1 }) := by
      simp [process, raised]
    have out_eq : output raw i = none := by simp [output, guarded, Except.toOption]
    have after_eq : after raw i = { i with errors := i.errors + 1 } := by simp [after, guarded]
    rw [out_eq, after_eq]
    exact ⟨guarded, .rejected⟩

theorem processed (raw : Bytes) (i : Interpreter) : Processed i raw (output raw i) (after raw i) :=
  (process_returns raw i).2

def processAll : List Bytes → Method Exn Interpreter (List (Option Record))
  | [] => pure []
  | raw :: rest => do
    let record ← process raw
    let records ← processAll rest
    return record :: records

def run (datagrams : List Bytes) (i : Interpreter) : Interpreter := (processAll datagrams i).2

def outputs : List Bytes → Interpreter → List (Option Record)
  | [], _ => []
  | raw :: rest, i => output raw i :: outputs rest (after raw i)

theorem outputs_length (datagrams : List Bytes) (i : Interpreter) :
    (outputs datagrams i).length = datagrams.length := by
  induction datagrams generalizing i with
  | nil => rfl
  | cons raw rest ih => exact congrArg Nat.succ (ih _)

theorem processAll_returns (datagrams : List Bytes) (i : Interpreter) :
    processAll datagrams i = (.ok (outputs datagrams i), datagrams.foldl (fun i raw => after raw i) i) := by
  induction datagrams generalizing i with
  | nil => rfl
  | cons raw rest ih =>
    simp only [processAll, outputs, List.foldl_cons]
    rw [Method.bind_returns (process_returns raw i).1, Method.bind_returns (ih _)]
    rfl

theorem run_eq (datagrams : List Bytes) (i : Interpreter) :
    run datagrams i = datagrams.foldl (fun i raw => after raw i) i := by
  rw [run, processAll_returns]

@[simp] theorem run_nil (i : Interpreter) : run [] i = i := rfl

theorem run_cons (raw : Bytes) (rest : List Bytes) (i : Interpreter) :
    run (raw :: rest) i = run rest (after raw i) := by
  rw [run_eq, run_eq, List.foldl_cons]

theorem run_append (first second : List Bytes) (i : Interpreter) :
    run (first ++ second) i = run second (run first i) := by
  rw [run_eq, run_eq, run_eq, List.foldl_append]

theorem outputs_append (first second : List Bytes) (i : Interpreter) :
    outputs (first ++ second) i = outputs first i ++ outputs second (run first i) := by
  induction first generalizing i with
  | nil => rfl
  | cons raw rest ih => rw [List.cons_append, outputs, outputs, ih, run_cons, List.cons_append]

/-- The run rule: what every outcome preserves holds after every sequence of datagrams. -/
theorem run_invariant (Holds : Interpreter → Prop) (initial : Interpreter) (holds : Holds initial)
    (step : ∀ i raw out i', Holds i → Processed i raw out i' → Holds i') (datagrams : List Bytes) :
    Holds (run datagrams initial) := by
  induction datagrams generalizing initial with
  | nil => exact holds
  | cons raw rest ih =>
    rw [run_cons]
    exact ih _ (step _ _ _ _ holds (processed raw initial))

structure Tracking (maxStreams : Int) (i : Interpreter) : Prop where
  bound : i.maxStreams = maxStreams
  size : i.contexts.size ≤ maxStreams.toNat
  counters : ∀ s ∈ i.lastCounter.keys, s ∈ i.contexts.keys
  classified : ∀ s ctx, i.contexts.get? s = some ctx → ctx.Classified

theorem tracking_new (maxStreams : Int) : Tracking maxStreams (new maxStreams) where
  bound := rfl
  size := Nat.zero_le _
  counters := by intro s member; cases member
  classified := by intro s ctx found; cases found

theorem Tracking.step {maxStreams : Int} {i i' : Interpreter} {raw : Bytes} {out : Option Record}
    (tracking : Tracking maxStreams i) (outcome : Processed i raw out i') : Tracking maxStreams i' := by
  cases outcome with
  | rejected => exact ⟨tracking.bound, tracking.size, tracking.counters, tracking.classified⟩
  | dropped => exact ⟨tracking.bound, tracking.size, tracking.counters, tracking.classified⟩
  | @context hdr ctx parsed kind admitted decoded =>
    refine ⟨tracking.bound, ?_, ?_, ?_⟩
    · rcases admitted with present | room
      · exact (OrderedDict.size_insert_of_mem _ ctx present).trans_le tracking.size
      · have grown := OrderedDict.size_insert_le i.contexts hdr.streamId ctx
        have bound := tracking.bound
        change (i.contexts.insert hdr.streamId ctx).size ≤ _
        omega
    · intro s member
      exact (OrderedDict.mem_keys_insert ..).mpr (.inr (tracking.counters s member))
    · intro s found stored
      dsimp only at stored
      rw [OrderedDict.get?_insert] at stored
      split at stored
      · cases stored
        exact decodeContext_classified decoded
      · exact tracking.classified s found stored
  | @data hdr ctx bytesPerSample numSamples body parsed kind tracked supported sized trimmed =>
    refine ⟨tracking.bound, tracking.size, ?_, tracking.classified⟩
    intro s member
    rcases (OrderedDict.mem_keys_insert ..).mp member with rfl | earlier
    · exact (OrderedDict.mem_keys_iff ..).mpr ⟨ctx, tracked⟩
    · exact tracking.counters s earlier

theorem tracking_run (maxStreams : Int) (datagrams : List Bytes) :
    Tracking maxStreams (run datagrams (new maxStreams)) :=
  run_invariant _ _ (tracking_new maxStreams) (fun _ _ _ _ holds outcome => holds.step outcome) datagrams

theorem tracked_kept {i : Interpreter} {s : StreamId} (tracked : s ∈ i.contexts.keys)
    (datagrams : List Bytes) : s ∈ (run datagrams i).contexts.keys := by
  refine run_invariant (fun i => s ∈ i.contexts.keys) i tracked ?_ datagrams
  intro i raw out i' member outcome
  cases outcome with
  | context => exact (OrderedDict.mem_keys_insert ..).mpr (.inr member)
  | _ => exact member

theorem Processed.counted {i i' : Interpreter} {raw : Bytes} {out : Option Record}
    (outcome : Processed i raw out i') :
    (out ≠ none ∧ i'.errors = i.errors ∧ i'.dropped = i.dropped) ∨
      (out = none ∧ i'.errors = i.errors + 1 ∧ i'.dropped = i.dropped) ∨
      (out = none ∧ i'.errors = i.errors ∧ i'.dropped = i.dropped + 1) := by
  cases outcome <;> simp [drop]

theorem outputs_counted (datagrams : List Bytes) (i : Interpreter) :
    (outputs datagrams i).countP Option.isSome + (run datagrams i).errors + (run datagrams i).dropped =
      datagrams.length + i.errors + i.dropped := by
  induction datagrams generalizing i with
  | nil => simp [outputs]
  | cons raw rest ih =>
    have later := ih (after raw i)
    rw [run_cons, outputs, List.countP_cons, List.length_cons]
    rcases (processed raw i).counted with ⟨some, errors, dropped⟩ | ⟨none, errors, dropped⟩ |
        ⟨none, errors, dropped⟩
    · rw [if_pos (Option.isSome_iff_ne_none.mpr some)]
      omega
    · simp only [none, Option.isSome_none, Bool.false_eq_true, if_false]
      omega
    · simp only [none, Option.isSome_none, Bool.false_eq_true, if_false]
      omega

theorem Processed.framed {i i' : Interpreter} {raw : Bytes} {out : Option Record}
    (outcome : Processed i raw out i') :
    (out = none → i'.contexts = i.contexts ∧ i'.lastCounter = i.lastCounter) ∧
      (∀ md ctx, out = some (.context md ctx) → i'.lastCounter = i.lastCounter ∧
        ∀ s, s ≠ md.streamId → i'.contexts.get? s = i.contexts.get? s) ∧
      (∀ md body, out = some (.data md body) → i'.contexts = i.contexts ∧
        ∀ s, s ≠ md.streamId → i'.lastCounter.get? s = i.lastCounter.get? s) := by
  cases outcome with
  | rejected => simp
  | dropped => simp [drop]
  | context =>
    refine ⟨by simp, ?_, by simp⟩
    rintro md ctx same
    cases same
    exact ⟨rfl, fun s other => OrderedDict.get?_insert_of_ne _ _ other⟩
  | data =>
    refine ⟨by simp, by simp, ?_⟩
    rintro md body same
    cases same
    exact ⟨rfl, fun s other => OrderedDict.get?_insert_of_ne _ _ other⟩

/-- Exactly one outcome per datagram: from every reachable interpreter, for every byte string. -/
theorem one_outcome_per_datagram (maxStreams : Int) (datagrams : List Bytes) :
    let i := run datagrams (new maxStreams)
    (∀ raw, ∃ out i', process raw i = (.ok out, i') ∧
      ((out ≠ none ∧ i'.errors = i.errors ∧ i'.dropped = i.dropped) ∨
        (out = none ∧ i'.errors = i.errors + 1 ∧ i'.dropped = i.dropped) ∨
        (out = none ∧ i'.errors = i.errors ∧ i'.dropped = i.dropped + 1)) ∧
      (out = none → i'.contexts = i.contexts ∧ i'.lastCounter = i.lastCounter) ∧
      (∀ md ctx, out = some (.context md ctx) → i'.lastCounter = i.lastCounter ∧
        ∀ s, s ≠ md.streamId → i'.contexts.get? s = i.contexts.get? s) ∧
      (∀ md body, out = some (.data md body) → i'.contexts = i.contexts ∧
        ∀ s, s ≠ md.streamId → i'.lastCounter.get? s = i.lastCounter.get? s)) ∧
    (outputs datagrams (new maxStreams)).countP Option.isSome + i.errors + i.dropped = datagrams.length ∧
    i.contexts.size ≤ maxStreams.toNat ∧
    (∀ s ∈ i.lastCounter.keys, s ∈ i.contexts.keys) ∧
    ∀ s ∈ i.contexts.keys, ∀ more, s ∈ (run (datagrams ++ more) (new maxStreams)).contexts.keys := by
  intro i
  have tracking : Tracking maxStreams i := tracking_run maxStreams datagrams
  refine ⟨?_, ?_, tracking.size, tracking.counters, ?_⟩
  · intro raw
    obtain ⟨returned, outcome⟩ := process_returns raw i
    exact ⟨_, _, returned, outcome.counted, outcome.framed⟩
  · exact outputs_counted datagrams (new maxStreams)
  · intro s tracked more
    rw [run_append]
    exact tracked_kept tracked more

end Sceptre.Interpreter
