import Mathlib.Algebra.GroupWithZero.Nat
import Sceptre.Interpreter.Logging

namespace Sceptre

open Foundation

section
variable [Platform]

theorem walkCifLogging_spec (b : Bytes) (endLimit cif : Nat) (bits : List Nat) (offset : Nat) (ctx : Context)
    (logs : Logs) :
    (walkCifLogging b endLimit cif bits offset ctx logs).1 = walkCif b endLimit cif bits offset ctx ∧
      logs.Kept (walkCifLogging b endLimit cif bits offset ctx logs).2 := by
  induction bits generalizing offset ctx logs with
  | nil => exact ⟨rfl, .refl logs⟩
  | cons bit bits ih =>
    rw [walkCifLogging, walkCif]
    dsimp only
    by_cases unset : (cif >>> bit) &&& 1 = 0
    · rw [if_pos unset, if_pos unset]
      exact ih offset ctx logs
    · rw [if_neg unset, if_neg unset]
      by_cases indicator : bit = contextFieldChangeBit
      · rw [if_pos indicator, if_pos indicator]
        exact ih offset _ logs
      · rw [if_neg indicator, if_neg indicator]
        cases fieldSize bit with
        | none => exact ⟨rfl, Logs.warnModule_kept rfl⟩
        | some size =>
          dsimp only
          by_cases cut : offset + size > endLimit
          · rw [if_pos cut, if_pos cut]
            exact ⟨rfl, .refl logs⟩
          · rw [if_neg cut, if_neg cut]
            have field : logs.Kept (if bit = cifDataPayloadFormat then
                logs.formatDecoded (fromBytes (b.extract offset (offset + size))) else logs) := by
              split
              · exact Logs.formatDecoded_kept _
              · exact .refl logs
            obtain ⟨erased, kept⟩ := ih (offset + size) (decodeField bit (b.extract offset (offset + size)) ctx) _
            exact ⟨erased, field.trans kept⟩

theorem decodeContextLogging_spec (b : Bytes) (hdr : Header) (logs : Logs) :
    (decodeContextLogging b hdr logs).1 = decodeContext b hdr ∧ logs.Kept (decodeContextLogging b hdr logs).2 := by
  unfold decodeContextLogging decodeContext
  dsimp only
  by_cases cut : min b.length (hdr.packetSize * 4) < hdr.headerLen + 4
  · rw [if_pos cut, if_pos cut]
    exact ⟨rfl, .refl logs⟩
  · rw [if_neg cut, if_neg cut]
    exact walkCifLogging_spec ..

omit [Platform] in
theorem trimDataLogging_spec (b : Bytes) (hdr : Header) (bytesPerSample : Int) (logs : Logs) :
    (trimDataLogging b hdr bytesPerSample logs).1 = trimData b hdr bytesPerSample ∧
      logs.Kept (trimDataLogging b hdr bytesPerSample logs).2 := by
  refine ⟨rfl, ?_⟩
  unfold trimDataLogging
  dsimp only
  split
  · exact Logs.warnModule_kept rfl
  · exact .refl logs

namespace Interpreter

def dropReasons : List String := ["unknown-packet-type", "stream-flood", "no-context", "unsupported-data"]

inductive Logged (i : Interpreter) (logs : Logs) : Option Record → Interpreter → Logs → Prop where
  | rejected {quiet : Logs} {w : Warning} (kept : logs.Kept quiet)
    (own : w.limit? = some (.ofInterpreter, "unparseable")) :
      Logged i logs none { i with errors := i.errors + 1 } (quiet.warn "unparseable" w)
  | dropped {reason : String} {w : Warning} (listed : reason ∈ dropReasons)
      (own : w.limit? = some (.ofInterpreter, reason)) : Logged i logs none i.drop (logs.warn reason w)
  | context {quiet : Logs} {i' : Interpreter} {md : Metadata} {ctx : Option Context} (kept : logs.Kept quiet)
      (errors : i'.errors = i.errors) (dropped : i'.dropped = i.dropped) :
        Logged i logs (some (.context md ctx)) i' quiet
  | data {quiet : Logs} {i' : Interpreter} {md : Metadata} {body : Bytes} {w : Warning} (kept : logs.Kept quiet)
      (errors : i'.errors = i.errors) (dropped : i'.dropped = i.dropped)
      (own : w.limit? = some (.ofInterpreter, "counter-gap")) :
      Logged i logs (some (.data md body)) i' (if md.gapBefore then quiet.warn "counter-gap" w else quiet)

/-- With warnings or without, the same is returned or raised, and the interpreter is left the same. -/
inductive Agrees (i : Interpreter) (logs : Logs) :
    Except Exn (Option Record) × Interpreter → Except Exn (Option Record) × Interpreter × Logs → Prop where
  | returned {out : Option Record} {i' : Interpreter} {logs' : Logs} (logged : Logged i logs out i' logs') :
      Agrees i logs (.ok out, i') (.ok out, i', logs')
  | raised {e : Exn} {quiet : Logs} (kept : logs.Kept quiet) : Agrees i logs (.error e, i) (.error e, i, quiet)

theorem processContextLogging_agrees (raw : Bytes) (hdr : Header) (i : Interpreter) (logs : Logs) :
    Agrees i logs (processContext raw hdr i) (processContextLogging raw hdr (i, logs)) := by
  unfold processContext processContextLogging
  dsimp only
  by_cases flood : hdr.streamId ∉ i.contexts.keys ∧ (i.contexts.size : Int) ≥ i.maxStreams
  · rw [if_pos flood, if_pos flood]
    exact .returned (.dropped (by decide) rfl)
  · rw [if_neg flood, if_neg flood]
    obtain ⟨erased, kept⟩ := decodeContextLogging_spec raw hdr logs
    rw [← erased]
    generalize decodeContextLogging raw hdr logs = decoded at kept
    obtain ⟨result, quiet⟩ := decoded
    cases result with
    | error e => exact .raised kept
    | ok ctx => exact .returned (.context kept rfl rfl)

theorem processDataLogging_agrees (raw : Bytes) (hdr : Header) (i : Interpreter) (logs : Logs) :
    Agrees i logs (processData raw hdr i) (processDataLogging raw hdr (i, logs)) := by
  unfold processData processDataLogging
  dsimp only
  cases i.contexts.get? hdr.streamId with
  | none => exact .returned (.dropped (by decide) rfl)
  | some ctx =>
    dsimp only
    by_cases unsupported : ctx.supported = some false
    · rw [if_pos unsupported, if_pos unsupported]
      exact .returned (.dropped (by decide) rfl)
    · rw [if_neg unsupported, if_neg unsupported]
      cases ctx.bytesPerSample.join with
      | none => exact .returned (.dropped (by decide) rfl)
      | some bytesPerSample =>
        dsimp only
        obtain ⟨erased, kept⟩ := trimDataLogging_spec raw hdr bytesPerSample logs
        rw [← erased]
        generalize trimDataLogging raw hdr bytesPerSample logs = trimmed at kept
        obtain ⟨result, quiet⟩ := trimmed
        cases result with
        | error e => exact .raised kept
        | ok trim => exact .returned (.data kept rfl rfl rfl)

theorem processRawLogging_agrees (raw : Bytes) (i : Interpreter) (logs : Logs) :
    Agrees i logs (processRaw raw i) (processRawLogging raw (i, logs)) := by
  unfold processRaw processRawLogging
  dsimp only
  cases parseHeader raw with
  | error e => exact .raised (.refl logs)
  | ok hdr =>
    dsimp only
    by_cases handled : hdr.packetType ∉ [packetTypeIfData, packetTypeIfContext]
    · rw [if_pos handled, if_pos handled]
      exact .returned (.dropped (by decide) rfl)
    · rw [if_neg handled, if_neg handled]
      by_cases context : hdr.packetType = packetTypeIfContext
      · rw [if_pos context, if_pos context]
        exact processContextLogging_agrees raw hdr i logs
      · rw [if_neg context, if_neg context]
        exact processDataLogging_agrees raw hdr i logs

theorem processLogging_spec (raw : Bytes) (i : Interpreter) (logs : Logs) :
    ∃ logs', processLogging raw (i, logs) = (.ok (output raw i), after raw i, logs') ∧
      Logged i logs (output raw i) (after raw i) logs' := by
  have agrees := processRawLogging_agrees raw i logs
  unfold processLogging output after process
  generalize processRaw raw i = plain at agrees
  generalize processRawLogging raw (i, logs) = logging at agrees
  cases agrees with
  | @returned out i' logs' logged => exact ⟨logs', by cases out <;> rfl, by cases out <;> exact logged⟩
  | raised kept => exact ⟨_, rfl, .rejected kept rfl⟩

def gapped : Option Record → Bool
  | some (.data md _) => md.gapBefore
  | _ => false

structure Audited (i : Interpreter) (gaps : Nat) (logs : Logs) : Prop where
  accounted : logs.Accounted
  errors : i.errors = logs.asked .ofInterpreter "unparseable"
  dropped : i.dropped = (dropReasons.map (logs.asked .ofInterpreter)).sum
  gaps : gaps = logs.asked .ofInterpreter "counter-gap"

omit [Platform] in
theorem audited_fresh (maxStreams : Int) : Audited (new maxStreams) 0 {} where
  accounted := Logs.accounted_fresh
  errors := rfl
  dropped := rfl
  gaps := rfl

omit [Platform] in
theorem Audited.kept {i : Interpreter} {gaps : Nat} {logs quiet : Logs} (audited : Audited i gaps logs)
    (kept : logs.Kept quiet) : Audited i gaps quiet := by
  have same : quiet.asked .ofInterpreter = logs.asked .ofInterpreter := by
    funext reason
    show quiet.log.count reason = logs.log.count reason
    rw [kept.log]
  refine ⟨kept.accounted audited.accounted, ?_, ?_, ?_⟩
  · rw [same]
    exact audited.errors
  · rw [same]
    exact audited.dropped
  · rw [same]
    exact audited.gaps

omit [Platform] in
/-- One datagram: one case per outcome, each of which asks for its own reason. -/
theorem Audited.step {i i' : Interpreter} {gaps : Nat} {logs logs' : Logs} {out : Option Record}
    (audited : Audited i gaps logs) (logged : Logged i logs out i' logs') :
    Audited i' (gaps + (gapped out).toNat) logs' := by
  cases logged with
  | @rejected quiet w kept own =>
    obtain ⟨accounted, errors, dropped, gaps⟩ := audited.kept kept
    refine ⟨accounted.warnFrom own, ?_, ?_, ?_⟩
    · rw [Logs.warn, Logs.asked_warnFrom, ← errors]
      rfl
    · simp only [dropReasons, List.map_cons, List.map_nil, Logs.warn, Logs.asked_warnFrom] at dropped ⊢
      simpa using dropped
    · rw [Logs.warn, Logs.asked_warnFrom, ← gaps]
      rfl
  | @dropped reason w listed own =>
    obtain ⟨accounted, errors, dropped, gaps⟩ := audited
    refine ⟨accounted.warnFrom own, ?_, ?_, ?_⟩
    · rw [Logs.warn, Logs.asked_warnFrom, ← errors, if_neg]
      · rfl
      · rintro ⟨-, rfl⟩
        exact absurd listed (by decide)
    · rw [show i.drop.dropped = i.dropped + 1 from rfl, dropped]
      simp only [dropReasons, List.map_cons, List.map_nil, List.sum_cons, List.sum_nil, Logs.warn, Logs.asked_warnFrom]
      simp only [dropReasons, List.mem_cons, List.not_mem_nil, or_false] at listed
      rcases listed with rfl | rfl | rfl | rfl <;> simp <;> omega
    · rw [Logs.warn, Logs.asked_warnFrom, ← gaps, if_neg]
      · rfl
      · rintro ⟨-, rfl⟩
        exact absurd listed (by decide)
  | @context quiet i' md ctx kept errors dropped =>
    obtain ⟨accounted, errors', dropped', gaps'⟩ := audited.kept kept
    exact ⟨accounted, errors.trans errors', dropped.trans dropped', gaps'⟩
  | @data quiet i' md body w kept errors dropped own =>
    obtain ⟨accounted, errors', dropped', gaps'⟩ := audited.kept kept
    by_cases gap : md.gapBefore = true
    · rw [if_pos gap]
      refine ⟨accounted.warnFrom own, ?_, ?_, ?_⟩
      · rw [Logs.warn, Logs.asked_warnFrom, errors, ← errors']
        rfl
      · rw [dropped, dropped']
        simp only [dropReasons, List.map_cons, List.map_nil, Logs.warn, Logs.asked_warnFrom]
        simp
      · rw [Logs.warn, Logs.asked_warnFrom, ← gaps', gapped, gap]
        rfl
    · rw [if_neg gap, gapped, Bool.eq_false_iff.mpr gap]
      exact ⟨accounted, errors.trans errors', dropped.trans dropped', gaps'⟩

theorem processAllLogging_spec (datagrams : List Bytes) {i : Interpreter} {gaps : Nat} {logs : Logs}
    (audited : Audited i gaps logs) :
    ∃ logs', processAllLogging datagrams (i, logs) = (.ok (outputs datagrams i), run datagrams i, logs') ∧
      Audited (run datagrams i) (gaps + (outputs datagrams i).countP gapped) logs' := by
  induction datagrams generalizing i gaps logs with
  | nil => exact ⟨logs, rfl, audited⟩
  | cons raw rest ih =>
    obtain ⟨first, processed, logged⟩ := processLogging_spec raw i logs
    obtain ⟨last, later, audited'⟩ := ih (audited.step logged)
    refine ⟨last, ?_, ?_⟩
    · rw [processAllLogging, Method.bind_returns processed, Method.bind_returns later, run_cons, outputs]
      rfl
    · rw [run_cons, outputs, List.countP_cons]
      cases here : gapped (output raw i) with
      | false => simpa [here] using audited'
      | true =>
        rw [here] at audited'
        simpa [here, Nat.add_assoc, Nat.add_comm 1] using audited'

/-- The log is exact and bounded. Warnings change nothing that is returned; whatever arrives, a reason that occurred
    `n` times has `min n 5 + n / 1000` lines, the counters are the numbers of occurrences, and of all unsupported
    format words at most 64 are written, each once. -/
theorem logging_exact (maxStreams : Int) (datagrams : List Bytes) :
    ∃ logs, processAllLogging datagrams (new maxStreams, {}) =
        (.ok (outputs datagrams (new maxStreams)), run datagrams (new maxStreams), logs) ∧
      (∀ limiter reason, (logs.lines limiter reason).length =
        min (logs.asked limiter reason) 5 + logs.asked limiter reason / 1000) ∧
      (run datagrams (new maxStreams)).errors = logs.asked .ofInterpreter "unparseable" ∧
      (run datagrams (new maxStreams)).dropped = (dropReasons.map (logs.asked .ofInterpreter)).sum ∧
      (outputs datagrams (new maxStreams)).countP gapped = logs.asked .ofInterpreter "counter-gap" ∧
      (logs.written.filterMap Warning.word?).Nodup ∧ (logs.written.filterMap Warning.word?).length ≤ 64 ∧
      (∀ u ∈ logs.written.filterMap Warning.word?, (decodePayloadFormat u).supported = false) ∧
      logs.written.countP Warning.cap? ≤ 1 ∧
      (logs.written.countP Warning.cap? = 1 → (logs.written.filterMap Warning.word?).length = 64) := by
  obtain ⟨logs, returned, accounted, errors, dropped, gaps⟩ :=
    processAllLogging_spec datagrams (audited_fresh maxStreams)
  refine ⟨logs, returned, ?_, errors, dropped, ?_, ?_, ?_, ?_, ?_, ?_⟩
  · intro limiter reason
    obtain ⟨firstN, every⟩ := accounted.defaults limiter
    rw [accounted.limited, RateLimitedLog.shown, firstN, every]
  · rw [← gaps, Nat.zero_add]
  · rw [accounted.words]
    exact accounted.nodup
  · rw [accounted.words]
    exact accounted.capped
  · rw [accounted.words]
    exact accounted.unsupported
  · rw [accounted.announced]
    exact Bool.toNat_le _
  · rw [accounted.announced, accounted.words]
    intro announced
    exact accounted.full (by simpa using announced)

end Interpreter

end

end Sceptre
