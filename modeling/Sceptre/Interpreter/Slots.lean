import Sceptre.Interpreter.Outcomes

namespace Sceptre

open Foundation

def concerns (s : StreamId) (raw : Bytes) : Bool :=
  match parseHeader raw with
  | .error _ => false
  | .ok hdr => decide (hdr.packetType ∈ [packetTypeIfData, packetTypeIfContext] ∧ hdr.streamId = s)

theorem concerns_of_parsed {s : StreamId} {raw : Bytes} {hdr : Header} (parsed : parseHeader raw = .ok hdr) :
    concerns s raw = true ↔ hdr.packetType ∈ [packetTypeIfData, packetTypeIfContext] ∧ hdr.streamId = s := by
  simp only [concerns, parsed, decide_eq_true_eq]

variable [Platform]

def decodedStream? (raw : Bytes) : Option StreamId :=
  match parseHeader raw with
  | .error _ => none
  | .ok hdr =>
    if hdr.packetType = packetTypeIfContext then (decodeContext raw hdr).toOption.map fun _ => hdr.streamId else none

namespace Interpreter

def Room (s : StreamId) (i : Interpreter) : Prop := s ∈ i.contexts.keys ∨ (i.contexts.size : Int) < i.maxStreams

structure SameSlot (s : StreamId) (i j : Interpreter) : Prop where
  context : i.contexts.get? s = j.contexts.get? s
  counter : i.lastCounter.get? s = j.lastCounter.get? s

variable {s : StreamId} {raw : Bytes} {i j : Interpreter}

omit [Platform] in
theorem SameSlot.symm (same : SameSlot s i j) : SameSlot s j i := ⟨same.context.symm, same.counter.symm⟩

theorem after_other (other : concerns s raw = false) :
    (∀ record, output raw i = some record → record.metadata.streamId ≠ s) ∧ SameSlot s (after raw i) i := by
  have foreign : ∀ hdr, parseHeader raw = .ok hdr →
      hdr.packetType ∈ [packetTypeIfData, packetTypeIfContext] → hdr.streamId ≠ s := by
    intro hdr parsed kind own
    rw [(concerns_of_parsed parsed).mpr ⟨kind, own⟩] at other
    cases other
  have outcome := processed raw i
  generalize output raw i = out at *
  generalize after raw i = i' at *
  cases outcome with
  | rejected => exact ⟨by simp, rfl, rfl⟩
  | dropped => exact ⟨by simp, rfl, rfl⟩
  | @context hdr ctx parsed kind admitted decoded =>
    have elsewhere := foreign hdr parsed (by simp [kind])
    refine ⟨?_, ?_, rfl⟩
    · intro record same
      cases same
      exact elsewhere
    · exact OrderedDict.get?_insert_of_ne _ _ elsewhere.symm
  | @data hdr ctx bytesPerSample numSamples body parsed kind tracked supported sized trimmed =>
    have elsewhere := foreign hdr parsed (by simp [kind])
    refine ⟨?_, rfl, ?_⟩
    · intro record same
      cases same
      exact elsewhere
    · exact OrderedDict.get?_insert_of_ne _ _ elsewhere.symm

theorem process_of_raw {out : Option Record} {i' : Interpreter} (returned : processRaw raw i = (.ok out, i')) :
    output raw i = out ∧ after raw i = i' := by
  simp [output, after, process, returned, Except.toOption]

theorem process_of_raise {e : Exn} {i' : Interpreter} (raised : processRaw raw i = (.error e, i')) :
    output raw i = none ∧ after raw i = { i' with errors := i'.errors + 1 } := by
  simp [output, after, process, raised, Except.toOption]

theorem processRaw_context {hdr : Header} (parsed : parseHeader raw = .ok hdr)
    (kind : hdr.packetType = packetTypeIfContext) : processRaw raw i = processContext raw hdr i := by
  simp [processRaw, parsed, kind, packetTypeIfContext, packetTypeIfData]

theorem processRaw_data {hdr : Header} (parsed : parseHeader raw = .ok hdr)
    (kind : hdr.packetType = packetTypeIfData) : processRaw raw i = processData raw hdr i := by
  simp [processRaw, parsed, kind, packetTypeIfContext, packetTypeIfData]

theorem after_undecoded {hdr : Header} {e : Exn} (parsed : parseHeader raw = .ok hdr)
    (kind : hdr.packetType = packetTypeIfContext) (failed : decodeContext raw hdr = .error e) :
    output raw i = none ∧ SameSlot s (after raw i) i := by
  have reached := processRaw_context (i := i) parsed kind
  by_cases flood : hdr.streamId ∉ i.contexts.keys ∧ (i.contexts.size : Int) ≥ i.maxStreams
  · rw [processContext, if_pos flood] at reached
    obtain ⟨out, state⟩ := process_of_raw reached
    exact ⟨out, by rw [state]; exact ⟨rfl, rfl⟩⟩
  · rw [processContext, if_neg flood, failed] at reached
    obtain ⟨out, state⟩ := process_of_raise reached
    exact ⟨out, by rw [state]; exact ⟨rfl, rfl⟩⟩

theorem after_decoded {hdr : Header} {ctx : Context} (parsed : parseHeader raw = .ok hdr)
    (kind : hdr.packetType = packetTypeIfContext) (decoded : decodeContext raw hdr = .ok ctx)
    (room : Room hdr.streamId i) :
    output raw i = some (.context (metadata hdr ctx false) (some ctx)) ∧
      after raw i = { i with contexts := i.contexts.insert hdr.streamId ctx } := by
  have admitted : ¬ (hdr.streamId ∉ i.contexts.keys ∧ (i.contexts.size : Int) ≥ i.maxStreams) := by
    rintro ⟨absent, full⟩
    rcases room with present | free
    · exact absent present
    · omega
  have reached := processRaw_context (i := i) parsed kind
  rw [processContext, if_neg admitted, decoded] at reached
  exact process_of_raw reached

theorem after_trimmed {hdr : Header} {ctx : Context} {bytesPerSample numSamples : Int} {body : Bytes}
    (parsed : parseHeader raw = .ok hdr) (kind : hdr.packetType = packetTypeIfData)
    (tracked : i.contexts.get? hdr.streamId = some ctx) (supported : ctx.supported ≠ some false)
    (sized : ctx.bytesPerSample.join = some bytesPerSample)
    (trimmed : trimData raw hdr bytesPerSample = .ok (body, numSamples)) :
    output raw i =
        some (.data (metadata hdr ctx (gapAfter (i.lastCounter.get? hdr.streamId) hdr.packetCounter)) body) ∧
      after raw i = { i with lastCounter := i.lastCounter.insert hdr.streamId hdr.packetCounter } := by
  have reached := processRaw_data (i := i) parsed kind
  rw [processData, tracked] at reached
  dsimp only at reached
  rw [if_neg supported, sized] at reached
  dsimp only at reached
  rw [trimmed] at reached
  exact process_of_raw reached

theorem after_untrimmed {hdr : Header} {ctx : Context} {bytesPerSample : Int} {e : Exn}
    (parsed : parseHeader raw = .ok hdr) (kind : hdr.packetType = packetTypeIfData)
    (tracked : i.contexts.get? hdr.streamId = some ctx) (supported : ctx.supported ≠ some false)
    (sized : ctx.bytesPerSample.join = some bytesPerSample) (failed : trimData raw hdr bytesPerSample = .error e) :
    output raw i = none ∧ after raw i = { i with errors := i.errors + 1 } := by
  have reached := processRaw_data (i := i) parsed kind
  rw [processData, tracked] at reached
  dsimp only at reached
  rw [if_neg supported, sized] at reached
  dsimp only at reached
  rw [failed] at reached
  exact process_of_raise reached

theorem output_data {md : Metadata} {body : Bytes} (returned : output raw i = some (.data md body)) :
    ∃ hdr ctx bytesPerSample numSamples, parseHeader raw = .ok hdr ∧ hdr.packetType = packetTypeIfData ∧
      i.contexts.get? hdr.streamId = some ctx ∧ ctx.supported ≠ some false ∧
      ctx.bytesPerSample.join = some bytesPerSample ∧ trimData raw hdr bytesPerSample = .ok (body, numSamples) ∧
      md = metadata hdr ctx (gapAfter (i.lastCounter.get? hdr.streamId) hdr.packetCounter) := by
  have outcome := processed raw i
  rw [returned] at outcome
  generalize after raw i = i' at outcome
  cases outcome with
  | data parsed kind tracked supported sized trimmed =>
    exact ⟨_, _, _, _, parsed, kind, tracked, supported, sized, trimmed, rfl⟩

theorem after_data {hdr : Header} (parsed : parseHeader raw = .ok hdr) (kind : hdr.packetType = packetTypeIfData)
    (same : SameSlot hdr.streamId i j) :
    output raw i = output raw j ∧ SameSlot hdr.streamId (after raw i) (after raw j) := by
  have reached := processRaw_data (i := i) parsed kind
  have reached' := processRaw_data (i := j) parsed kind
  rw [processData] at reached reached'
  rw [← same.context, ← same.counter] at reached'
  have unchanged : ∀ {out : Option Record}, processRaw raw i = (.ok out, i.drop) →
      processRaw raw j = (.ok out, j.drop) →
      output raw i = output raw j ∧ SameSlot hdr.streamId (after raw i) (after raw j) := by
    intro out left right
    obtain ⟨out, state⟩ := process_of_raw left
    obtain ⟨out', state'⟩ := process_of_raw right
    exact ⟨out.trans out'.symm, by rw [state, state']; exact ⟨same.context, same.counter⟩⟩
  cases tracked : i.contexts.get? hdr.streamId with
  | none =>
    rw [tracked] at reached reached'
    exact unchanged reached reached'
  | some ctx =>
    rw [tracked] at reached reached'
    dsimp only at reached reached'
    by_cases unsupported : ctx.supported = some false
    · rw [if_pos unsupported] at reached reached'
      exact unchanged reached reached'
    · rw [if_neg unsupported] at reached reached'
      cases sized : ctx.bytesPerSample.join with
      | none =>
        rw [sized] at reached reached'
        exact unchanged reached reached'
      | some bytesPerSample =>
        rw [sized] at reached reached'
        dsimp only at reached reached'
        cases trimmed : trimData raw hdr bytesPerSample with
        | error e =>
          rw [trimmed] at reached reached'
          obtain ⟨out, state⟩ := process_of_raise reached
          obtain ⟨out', state'⟩ := process_of_raise reached'
          exact ⟨out.trans out'.symm, by rw [state, state']; exact ⟨same.context, same.counter⟩⟩
        | ok trim =>
          rw [trimmed] at reached reached'
          obtain ⟨out, state⟩ := process_of_raw reached
          obtain ⟨out', state'⟩ := process_of_raw reached'
          refine ⟨out.trans out'.symm, ?_⟩
          rw [state, state']
          exact ⟨same.context, by simp⟩

/-- A datagram of stream `s` does the same in two interpreters that hold the same of `s`, when both have
    room for `s` should it be a context. -/
theorem after_own (own : concerns s raw = true) (same : SameSlot s i j)
    (room : decodedStream? raw = some s → Room s i ∧ Room s j) :
    output raw i = output raw j ∧ SameSlot s (after raw i) (after raw j) := by
  cases parsed : parseHeader raw with
  | error e => simp [concerns, parsed] at own
  | ok hdr =>
    obtain ⟨kind, rfl⟩ := (concerns_of_parsed parsed).mp own
    rcases List.mem_pair.mp kind with data | context
    · exact after_data parsed data same
    · cases decoded : decodeContext raw hdr with
      | error e =>
        obtain ⟨out, slot⟩ := after_undecoded (s := hdr.streamId) (i := i) parsed context decoded
        obtain ⟨out', slot'⟩ := after_undecoded (s := hdr.streamId) (i := j) parsed context decoded
        exact ⟨out.trans out'.symm, slot.context.trans (same.context.trans slot'.context.symm),
          slot.counter.trans (same.counter.trans slot'.counter.symm)⟩
      | ok ctx =>
        obtain ⟨left, right⟩ := room (by simp [decodedStream?, parsed, context, decoded, Except.toOption])
        obtain ⟨out, state⟩ := after_decoded parsed context decoded left
        obtain ⟨out', state'⟩ := after_decoded parsed context decoded right
        refine ⟨out.trans out'.symm, ?_⟩
        rw [state, state']
        exact ⟨by simp, same.counter⟩

end Interpreter

end Sceptre
