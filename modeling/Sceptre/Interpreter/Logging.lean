import Sceptre.Interpreter.Outcomes

namespace Sceptre

open Foundation

/-- `_RateLimitedLog`. A count taken modulo zero raises, so `every` is positive. -/
structure RateLimitedLog where
  firstN : Nat := 5
  every : Nat := 1000
  counts : OrderedDict String Nat := .empty
  positive : 0 < every := by decide

namespace RateLimitedLog

def count (l : RateLimitedLog) (reason : String) : Nat := (l.counts.get? reason).getD 0

def shouldLog (reason : String) (l : RateLimitedLog) : Bool × RateLimitedLog :=
  let n := l.count reason + 1
  (decide (n ≤ l.firstN ∨ n % l.every = 0), { l with counts := l.counts.insert reason n })

def shown (l : RateLimitedLog) (n : Nat) : Nat := min n l.firstN + n / l.every

end RateLimitedLog

inductive Warning where
  | unsupportedFormat (u : Nat) (fields : PayloadFormat)
  | unsupportedCap (words : Nat)
  | cif0Stop (bit decoded : Nat)
  | lengthMismatch (length packetSize declared : Nat)
  | unparseable (size : Nat) (exc : Exn)
  | unknownPacketType (packetType : Nat)
  | streamFlood (streamId : StreamId) (maxStreams : Int)
  | noContext (streamId : StreamId)
  | unsupportedData (streamId : StreamId)
  | counterGap (streamId : StreamId) (prev : Option Nat) (counter : Nat)
  deriving DecidableEq, Repr

inductive Limiter where
  | ofModule
  | ofInterpreter
  deriving DecidableEq, Repr

/-- The limiter a warning is asked of and its reason there; the two about formats are limited by the set of words. -/
def Warning.limit? : Warning → Option (Limiter × String)
  | .unsupportedFormat _ _ => none
  | .unsupportedCap _ => none
  | .cif0Stop bit _ => some (.ofModule, s!"cif0-stop-bit-{bit}")
  | .lengthMismatch _ _ _ => some (.ofModule, "trim-length-mismatch")
  | .unparseable _ _ => some (.ofInterpreter, "unparseable")
  | .unknownPacketType _ => some (.ofInterpreter, "unknown-packet-type")
  | .streamFlood _ _ => some (.ofInterpreter, "stream-flood")
  | .noContext _ => some (.ofInterpreter, "no-context")
  | .unsupportedData _ => some (.ofInterpreter, "unsupported-data")
  | .counterGap _ _ _ => some (.ofInterpreter, "counter-gap")

def unsupportedWordsCap : Nat := 64

structure Logs where
  unsupportedWordsLogged : List Nat := []
  unsupportedCapAnnounced : Bool := false
  moduleLog : RateLimitedLog := {}
  log : RateLimitedLog := {}
  written : List Warning := []

namespace Logs

def write (w : Warning) (logs : Logs) : Logs := { logs with written := logs.written ++ [w] }

def limiter (logs : Logs) : Limiter → RateLimitedLog
  | .ofModule => logs.moduleLog
  | .ofInterpreter => logs.log

def setLimiter (logs : Logs) (l : RateLimitedLog) : Limiter → Logs
  | .ofModule => { logs with moduleLog := l }
  | .ofInterpreter => { logs with log := l }

def warnFrom (limiter : Limiter) (reason : String) (w : Warning) (logs : Logs) : Logs :=
  let asked := (logs.limiter limiter).shouldLog reason
  let logs := logs.setLimiter asked.2 limiter
  if asked.1 then logs.write w else logs

def warnModule (reason : String) (w : Warning) (logs : Logs) : Logs := logs.warnFrom .ofModule reason w

def warn (reason : String) (w : Warning) (logs : Logs) : Logs := logs.warnFrom .ofInterpreter reason w

def logUnsupportedFormat (u : Nat) (fields : PayloadFormat) (logs : Logs) : Logs :=
  if u ∈ logs.unsupportedWordsLogged then logs
  else if logs.unsupportedWordsLogged.length ≥ unsupportedWordsCap then
    if logs.unsupportedCapAnnounced then logs
    else { logs with unsupportedCapAnnounced := true }.write (.unsupportedCap unsupportedWordsCap)
  else
    { logs with unsupportedWordsLogged := logs.unsupportedWordsLogged ++ [u] }.write (.unsupportedFormat u fields)

def formatDecoded (u : Nat) (logs : Logs) : Logs :=
  if (decodePayloadFormat u).supported then logs else logs.logUnsupportedFormat u (decodePayloadFormat u)

end Logs

def Context.size (ctx : Context) : Nat :=
  [ctx.contextFieldChange.isSome, ctx.bandwidthHz.isSome, ctx.rfHz.isSome, ctx.gainDb.isSome, ctx.sampleRateHz.isSome,
    ctx.supported.isSome, ctx.componentDtype.isSome, ctx.bytesPerSample.isSome, ctx.isComplex.isSome,
    ctx.dataItemFormat.isSome].count true

namespace RateLimitedLog

theorem count_shouldLog (l : RateLimitedLog) (reason other : String) :
    (l.shouldLog reason).2.count other = l.count other + if other = reason then 1 else 0 := by
  show (((l.counts.insert reason (l.count reason + 1)).get? other).getD 0 : Nat) = _
  rw [OrderedDict.get?_insert]
  by_cases same : other = reason
  · rw [if_pos same, if_pos same, same, Option.getD_some]
  · rw [if_neg same, if_neg same]
    rfl

theorem shown_succ (l : RateLimitedLog) (first : l.firstN < l.every) (n : Nat) :
    l.shown (n + 1) = l.shown n + if n + 1 ≤ l.firstN ∨ (n + 1) % l.every = 0 then 1 else 0 := by
  rw [shown, shown, Nat.succ_div]
  by_cases early : n + 1 ≤ l.firstN
  · have none : ¬ l.every ∣ n + 1 := fun divides => by
      have least := Nat.le_of_dvd (Nat.succ_pos n) divides
      omega
    rw [if_neg none, if_pos (.inl early)]
    omega
  · by_cases divides : l.every ∣ n + 1
    · rw [if_pos divides, if_pos (.inr (Nat.mod_eq_zero_of_dvd divides))]
      omega
    · have not : ¬ (n + 1 ≤ l.firstN ∨ (n + 1) % l.every = 0) := by
        rintro (before | whole)
        · exact early before
        · exact divides (Nat.dvd_of_mod_eq_zero whole)
      rw [if_neg divides, if_neg not]
      omega

end RateLimitedLog

def Warning.word? : Warning → Option Nat
  | .unsupportedFormat u _ => some u
  | _ => none

def Warning.cap? : Warning → Bool
  | .unsupportedCap _ => true
  | _ => false

namespace Logs

variable {logs logs' logs'' : Logs} {reason : String} {w : Warning}

def asked (logs : Logs) (limiter : Limiter) (reason : String) : Nat := (logs.limiter limiter).count reason

def lines (logs : Logs) (limiter : Limiter) (reason : String) : List Warning :=
  logs.written.filter fun w => w.limit? = some (limiter, reason)

structure Accounted (logs : Logs) : Prop where
  defaults : ∀ limiter, (logs.limiter limiter).firstN = 5 ∧ (logs.limiter limiter).every = 1000
  limited : ∀ limiter reason, (logs.lines limiter reason).length =
    (logs.limiter limiter).shown (logs.asked limiter reason)
  words : logs.written.filterMap Warning.word? = logs.unsupportedWordsLogged
  nodup : logs.unsupportedWordsLogged.Nodup
  unsupported : ∀ u ∈ logs.unsupportedWordsLogged, (decodePayloadFormat u).supported = false
  capped : logs.unsupportedWordsLogged.length ≤ unsupportedWordsCap
  announced : logs.written.countP Warning.cap? = logs.unsupportedCapAnnounced.toNat
  full : logs.unsupportedCapAnnounced = true → logs.unsupportedWordsLogged.length = unsupportedWordsCap

theorem accounted_fresh : Accounted {} where
  defaults := by intro limiter; cases limiter <;> exact ⟨rfl, rfl⟩
  limited := by
    intro limiter reason
    cases limiter <;> simp [lines, asked, Logs.limiter, RateLimitedLog.count, RateLimitedLog.shown]
  words := rfl
  nodup := List.nodup_nil
  unsupported := by intro u member; cases member
  capped := Nat.zero_le _
  announced := rfl
  full := by intro announced; cases announced

theorem limiter_setLimiter (logs : Logs) (l : RateLimitedLog) (limiter other : Limiter) :
    (logs.setLimiter l limiter).limiter other = if other = limiter then l else logs.limiter other := by
  cases limiter <;> cases other <;> rfl

theorem setLimiter_rest (logs : Logs) (l : RateLimitedLog) (limiter : Limiter) :
    (logs.setLimiter l limiter).written = logs.written ∧
      (logs.setLimiter l limiter).unsupportedWordsLogged = logs.unsupportedWordsLogged ∧
      (logs.setLimiter l limiter).unsupportedCapAnnounced = logs.unsupportedCapAnnounced := by
  cases limiter <;> exact ⟨rfl, rfl, rfl⟩

theorem limiter_warnFrom (logs : Logs) (limiter other : Limiter) (reason : String) (w : Warning) :
    (logs.warnFrom limiter reason w).limiter other =
      if other = limiter then ((logs.limiter limiter).shouldLog reason).2 else logs.limiter other := by
  unfold warnFrom
  dsimp only
  rw [← limiter_setLimiter]
  split
  · cases other <;> rfl
  · rfl

theorem asked_warnFrom (logs : Logs) (limiter other : Limiter) (reason reason' : String) (w : Warning) :
    (logs.warnFrom limiter reason w).asked other reason' =
      logs.asked other reason' + if other = limiter ∧ reason' = reason then 1 else 0 := by
  rw [asked, limiter_warnFrom, asked]
  by_cases same : other = limiter
  · subst same
    rw [if_pos rfl, RateLimitedLog.count_shouldLog]
    simp
  · rw [if_neg same, if_neg fun both => same both.1]
    rfl

theorem written_warnFrom (logs : Logs) (limiter : Limiter) (reason : String) (w : Warning) :
    (logs.warnFrom limiter reason w).written =
      logs.written ++ if ((logs.limiter limiter).shouldLog reason).1 then [w] else [] := by
  unfold warnFrom
  dsimp only
  split
  · rw [write, (logs.setLimiter_rest _ limiter).1]
  · rw [(logs.setLimiter_rest _ limiter).1, List.append_nil]

theorem words_warnFrom (logs : Logs) (limiter : Limiter) (reason : String) (w : Warning) :
    (logs.warnFrom limiter reason w).unsupportedWordsLogged = logs.unsupportedWordsLogged ∧
      (logs.warnFrom limiter reason w).unsupportedCapAnnounced = logs.unsupportedCapAnnounced := by
  unfold warnFrom
  dsimp only
  split
  · exact (logs.setLimiter_rest _ limiter).2
  · exact (logs.setLimiter_rest _ limiter).2

theorem Accounted.warnFrom (accounted : logs.Accounted) {limiter : Limiter} (own : w.limit? = some (limiter, reason)) :
    (logs.warnFrom limiter reason w).Accounted := by
  have plain : w.word? = none ∧ w.cap? = false := by
    cases w <;> first | exact ⟨rfl, rfl⟩ | cases own
  obtain ⟨words, announced⟩ := logs.words_warnFrom limiter reason w
  have settings : ∀ other, ((logs.warnFrom limiter reason w).limiter other).firstN = (logs.limiter other).firstN ∧
      ((logs.warnFrom limiter reason w).limiter other).every = (logs.limiter other).every := by
    intro other
    rw [limiter_warnFrom]
    split
    · rename_i same
      rw [same]
      exact ⟨rfl, rfl⟩
    · exact ⟨rfl, rfl⟩
  constructor
  · intro other
    rw [(settings other).1, (settings other).2]
    exact accounted.defaults other
  · intro other reason'
    have before := accounted.limited other reason'
    have shown : ∀ n, ((logs.warnFrom limiter reason w).limiter other).shown n = (logs.limiter other).shown n := by
      intro n
      rw [RateLimitedLog.shown, RateLimitedLog.shown, (settings other).1, (settings other).2]
    rw [shown, asked_warnFrom, lines, written_warnFrom, List.filter_append, List.length_append, ← lines, before]
    by_cases same : other = limiter ∧ reason' = reason
    · obtain ⟨rfl, rfl⟩ := same
      have first : (logs.limiter other).firstN < (logs.limiter other).every := by
        rw [(accounted.defaults other).1, (accounted.defaults other).2]
        decide
      have once : (if other = other ∧ reason' = reason' then 1 else 0) = 1 := if_pos ⟨rfl, rfl⟩
      rw [once, RateLimitedLog.shown_succ _ first]
      congr 1
      have number : ((logs.limiter other).shouldLog reason').1 = true ↔ logs.asked other reason' + 1 ≤
          (logs.limiter other).firstN ∨ (logs.asked other reason' + 1) % (logs.limiter other).every = 0 :=
            decide_eq_true_iff
      by_cases due : ((logs.limiter other).shouldLog reason').1 = true
      · rw [if_pos due, if_pos (number.mp due)]
        simp [own]
      · rw [if_neg due, if_neg fun holds => due (number.mpr holds)]
        rfl
    · rw [if_neg same, Nat.add_zero]
      have other' : ¬ w.limit? = some (other, reason') := by
        rw [own]
        intro equal
        cases equal
        exact same ⟨rfl, rfl⟩
      split <;> simp [other']
  · rw [words, written_warnFrom, List.filterMap_append, accounted.words]
    split <;> simp [plain.1]
  · rw [words]
    exact accounted.nodup
  · rw [words]
    exact accounted.unsupported
  · rw [words]
    exact accounted.capped
  · rw [announced, written_warnFrom, List.countP_append, accounted.announced]
    split <;> simp [plain.2]
  · rw [announced, words]
    exact accounted.full

theorem Accounted.logUnsupportedFormat (accounted : logs.Accounted) {u : Nat}
    (unsupported : (decodePayloadFormat u).supported = false) :
    (logs.logUnsupportedFormat u (decodePayloadFormat u)).Accounted := by
  unfold Logs.logUnsupportedFormat
  by_cases known : u ∈ logs.unsupportedWordsLogged
  · rw [if_pos known]
    exact accounted
  · rw [if_neg known]
    by_cases full : logs.unsupportedWordsLogged.length ≥ unsupportedWordsCap
    · rw [if_pos full]
      by_cases announced : logs.unsupportedCapAnnounced = true
      · rw [if_pos announced]
        exact accounted
      · rw [if_neg announced]
        refine ⟨accounted.defaults, ?_, ?_, accounted.nodup, accounted.unsupported, accounted.capped, ?_, ?_⟩
        · intro limiter reason
          have before := accounted.limited limiter reason
          rw [lines] at before
          rw [lines, write, List.filter_append, List.length_append, before]
          exact Nat.add_zero _
        · rw [write, List.filterMap_append, accounted.words]
          exact List.append_nil _
        · rw [write, List.countP_append, accounted.announced, Bool.eq_false_iff.mpr announced]
          rfl
        · intro _
          exact Nat.le_antisymm accounted.capped full
    · rw [if_neg full]
      have room : logs.unsupportedWordsLogged.length < unsupportedWordsCap := Nat.lt_of_not_le full
      refine ⟨accounted.defaults, ?_, ?_, ?_, ?_, ?_, ?_, ?_⟩
      · intro limiter reason
        have before := accounted.limited limiter reason
        rw [lines] at before
        rw [lines, write, List.filter_append, List.length_append, before]
        exact Nat.add_zero _
      · rw [write, List.filterMap_append, accounted.words]
        rfl
      · exact List.nodup_append.mpr ⟨accounted.nodup, List.nodup_singleton u, by
          intro a member b here same
          rw [List.mem_singleton.mp here] at same
          exact known (same ▸ member)⟩
      · intro v member
        rcases List.mem_append.mp member with earlier | here
        · exact accounted.unsupported v earlier
        · rw [List.mem_singleton.mp here]
          exact unsupported
      · show (logs.unsupportedWordsLogged ++ [u]).length ≤ _
        rw [List.length_append]
        exact room
      · rw [write, List.countP_append, accounted.announced]
        exact Nat.add_zero _
      · intro announced
        exact absurd (accounted.full announced) room.ne

structure Kept (logs logs' : Logs) : Prop where
  accounted : logs.Accounted → logs'.Accounted
  log : logs'.log = logs.log

theorem Kept.refl (logs : Logs) : Kept logs logs := ⟨id, rfl⟩

theorem Kept.trans (first : Kept logs logs') (second : Kept logs' logs'') : Kept logs logs'' :=
  ⟨second.accounted ∘ first.accounted, second.log.trans first.log⟩

theorem warnModule_kept (own : w.limit? = some (.ofModule, reason)) : Kept logs (logs.warnModule reason w) where
  accounted := fun accounted => accounted.warnFrom own
  log := (logs.limiter_warnFrom .ofModule .ofInterpreter reason w).trans (if_neg (by decide))

theorem formatDecoded_kept (u : Nat) : Kept logs (logs.formatDecoded u) := by
  unfold formatDecoded
  by_cases supported : (decodePayloadFormat u).supported = true
  · rw [if_pos supported]
    exact .refl logs
  · rw [if_neg supported]
    refine ⟨fun accounted => accounted.logUnsupportedFormat (Bool.eq_false_iff.mpr supported), ?_⟩
    unfold logUnsupportedFormat
    split
    · rfl
    · split
      · split <;> rfl
      · rfl

end Logs

section
variable [Platform]

def walkCifLogging (b : Bytes) (endLimit cif : Nat) : List Nat → Nat → Context → Method Exn Logs Context
  | [], _, ctx => fun logs => (.ok ctx, logs)
  | bit :: bits, offset, ctx => fun logs =>
    if (cif >>> bit) &&& 1 = 0 then walkCifLogging b endLimit cif bits offset ctx logs
    else if bit = contextFieldChangeBit then
      walkCifLogging b endLimit cif bits offset { ctx with contextFieldChange := some true } logs
    else match fieldSize bit with
      | none => (.ok ctx, logs.warnModule s!"cif0-stop-bit-{bit}" (.cif0Stop bit ctx.size))
      | some size =>
        if offset + size > endLimit then
          (.error (.valueError
            s!"context packet truncated inside CIF bit {bit} field ({endLimit - offset} of {size} bytes)"),
            logs)
        else
          let field := b.extract offset (offset + size)
          walkCifLogging b endLimit cif bits (offset + size) (decodeField bit field ctx)
            (if bit = cifDataPayloadFormat then logs.formatDecoded (fromBytes field) else logs)

def decodeContextLogging (b : Bytes) (hdr : Header) : Method Exn Logs Context := fun logs =>
  let endLimit := min b.length (hdr.packetSize * 4)
  if endLimit < hdr.headerLen + 4 then
    (.error (.valueError s!"context packet truncated before CIF: {endLimit} usable bytes"), logs)
  else
    let cif := fromBytes (b.extract hdr.headerLen (hdr.headerLen + 4))
    walkCifLogging b endLimit cif (List.range 32).reverse (hdr.headerLen + 4) {} logs

/-- The warning stands after the check of the length and before the trim. -/
def trimDataLogging (b : Bytes) (hdr : Header) (bytesPerSample : Int) : Method Exn Logs (Bytes × Int) := fun logs =>
  let declared := hdr.packetSize * 4
  (trimData b hdr bytesPerSample,
    if b.length > declared then
      logs.warnModule "trim-length-mismatch" (.lengthMismatch b.length hdr.packetSize declared)
    else logs)

namespace Interpreter

def processContextLogging (raw : Bytes) (hdr : Header) : Method Exn (Interpreter × Logs) (Option Record) :=
    fun (i, logs) =>
  if hdr.streamId ∉ i.contexts.keys ∧ (i.contexts.size : Int) ≥ i.maxStreams then
    (.ok none, i.drop, logs.warn "stream-flood" (.streamFlood hdr.streamId i.maxStreams))
  else match decodeContextLogging raw hdr logs with
    | (.error e, logs) => (.error e, i, logs)
    | (.ok ctx, logs) =>
      (.ok (some (.context (metadata hdr ctx false) (some ctx))),
        { i with contexts := i.contexts.insert hdr.streamId ctx }, logs)

def processDataLogging (raw : Bytes) (hdr : Header) : Method Exn (Interpreter × Logs) (Option Record) :=
    fun (i, logs) =>
  match i.contexts.get? hdr.streamId with
  | none => (.ok none, i.drop, logs.warn "no-context" (.noContext hdr.streamId))
  | some ctx =>
    if ctx.supported = some false then
      (.ok none, i.drop, logs.warn "unsupported-data" (.unsupportedData hdr.streamId))
    else match ctx.bytesPerSample.join with
      | none => (.ok none, i.drop, logs.warn "unsupported-data" (.unsupportedData hdr.streamId))
      | some bytesPerSample =>
        match trimDataLogging raw hdr bytesPerSample logs with
        | (.error e, logs) => (.error e, i, logs)
        | (.ok (body, _), logs) =>
          let prev := i.lastCounter.get? hdr.streamId
          let gapBefore := gapAfter prev hdr.packetCounter
          let logs := if gapBefore then
            logs.warn "counter-gap" (.counterGap hdr.streamId prev hdr.packetCounter) else logs
          (.ok (some (.data (metadata hdr ctx gapBefore) body)),
            { i with lastCounter := i.lastCounter.insert hdr.streamId hdr.packetCounter }, logs)

def processRawLogging (raw : Bytes) : Method Exn (Interpreter × Logs) (Option Record) := fun (i, logs) =>
  match parseHeader raw with
  | .error e => (.error e, i, logs)
  | .ok hdr =>
    if hdr.packetType ∉ [packetTypeIfData, packetTypeIfContext] then
      (.ok none, i.drop, logs.warn "unknown-packet-type" (.unknownPacketType hdr.packetType))
    else if hdr.packetType = packetTypeIfContext then processContextLogging raw hdr (i, logs)
    else processDataLogging raw hdr (i, logs)

def processLogging (raw : Bytes) : Method Exn (Interpreter × Logs) (Option Record) := fun s =>
  match processRawLogging raw s with
  | (.ok record, s') => (.ok record, s')
  | (.error e, (i, logs)) =>
    (.ok none, { i with errors := i.errors + 1 }, logs.warn "unparseable" (.unparseable raw.length e))

def processAllLogging : List Bytes → Method Exn (Interpreter × Logs) (List (Option Record))
  | [] => pure []
  | raw :: rest => do
    let record ← processLogging raw
    let records ← processAllLogging rest
    return record :: records

end Interpreter

end

end Sceptre
