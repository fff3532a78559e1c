import Sceptre.Threads.Accounting
import Sceptre.Threads.Program

namespace Sceptre

open Foundation

def feed [Platform] (raws : List Bytes) : Runtime.Action Unit := Runtime.drive (raws.map fun raw => .datagram raw 0)

def RunPc.inHand : RunPc → List RawItem
  | .handling (some raw) => [.datagram raw]
  | _ => []

def RunPc.settle [Platform] : RunPc → Runtime → Runtime
  | .stopping, σ => (Runtime.flushAll σ).2
  | .finished, σ => { (Runtime.flushAll σ).2 with sourceStopped := true }
  | _, σ => σ

def Label.stops (label : Label) : Prop := label = .consumer .interrupt ∨ label = .consumer (.isSet true)

/-- The items the gets returned, against the datagrams Thread B has handled: where it has left its loop, it has taken
    SHUTDOWN, or handling the last datagram raised, or it was stopped. -/
def RunPc.Taken (returned : List RawItem) (raws : List Bytes) (result : Except Exn Unit) (stopped : Prop)
    (pc : RunPc) : Prop :=
  match pc with
  | .flushing | .stopping | .finished =>
    (returned = raws.map .datagram ++ [.shutdown] ∧ result = .ok ()) ∨
      (returned = raws.map .datagram ∧ (result ≠ .ok () ∨ stopped))
  | pc => returned = raws.map .datagram ++ pc.inHand ∧ result = .ok ()

theorem RunPc.Taken.mono {returned : List RawItem} {raws : List Bytes} {result : Except Exn Unit} {before after : Prop}
    {pc : RunPc} (taken : pc.Taken returned raws result before) (later : before → after) :
    pc.Taken returned raws result after := by
  have left : (returned = raws.map .datagram ++ [.shutdown] ∧ result = .ok ()) ∨
        (returned = raws.map .datagram ∧ (result ≠ .ok () ∨ before)) →
      (returned = raws.map .datagram ++ [.shutdown] ∧ result = .ok ()) ∨
        (returned = raws.map .datagram ∧ (result ≠ .ok () ∨ after)) := by
    rintro (shutdown | ⟨all, raised | stopped⟩)
    · exact .inl shutdown
    · exact .inr ⟨all, .inl raised⟩
    · exact .inr ⟨all, .inr (later stopped)⟩
  cases pc with
  | flushing => exact left taken
  | stopping => exact left taken
  | finished => exact left taken
  | _ => exact taken

variable [Platform]

theorem feed_snoc {raws : List Bytes} {σ τ : Runtime} (ran : feed raws σ = (.ok (), τ)) (raw : Bytes) :
    feed (raws ++ [raw]) σ = Runtime.handle (.datagram raw 0) τ := by
  induction raws generalizing σ with
  | nil =>
    cases ran
    show Runtime.drive [.datagram raw 0] τ = _
    rw [Runtime.drive, Runtime.drive, Method.bind_run]
    cases Runtime.handle (.datagram raw 0) τ with
    | mk result σ' => cases result <;> rfl
  | cons first rest ih =>
    change (Runtime.handle (.datagram first 0) >>= fun _ => feed rest) σ = _ at ran
    show (Runtime.handle (.datagram first 0) >>= fun _ => feed (rest ++ [raw])) σ = _
    rw [Method.bind_run] at ran ⊢
    cases handled : Runtime.handle (.datagram first 0) σ with
    | mk result σ' =>
      rw [handled] at ran
      cases result with
      | error e => cases ran
      | ok _ => exact ih ran

theorem feed_append {raws more : List Bytes} {σ : Runtime} (raised : (feed raws σ).1 ≠ .ok ()) :
    feed (raws ++ more) σ = feed raws σ := by
  induction raws generalizing σ with
  | nil => exact absurd rfl raised
  | cons first rest ih =>
    change ((Runtime.handle (.datagram first 0) >>= fun _ => feed rest) σ).1 ≠ _ at raised
    show (Runtime.handle (.datagram first 0) >>= fun _ => feed (rest ++ more)) σ =
      (Runtime.handle (.datagram first 0) >>= fun _ => feed rest) σ
    rw [Method.bind_run] at raised ⊢
    rw [Method.bind_run]
    cases handled : Runtime.handle (.datagram first 0) σ with
    | mk result σ' =>
      rw [handled] at raised
      cases result with
      | error e => rfl
      | ok _ => exact ih raised

theorem datagram_interpreter (raw : Bytes) (arrival : ℚ) (σ : Runtime) :
    (Runtime.handle (.datagram raw arrival) σ).2.interpreter = Interpreter.after raw σ.interpreter := by
  rw [Runtime.handle, Method.bind_returns (process_returns raw σ)]
  cases Interpreter.output raw σ.interpreter <;> rfl

namespace Program

variable {queue : BoundedRawQueue RawItem} {mode : Mode} {start : Runtime} {labels : List (Label × Clock)}
  {P P' : Program}

/-- What a run of the program has done, when the age trigger never fired. -/
structure Follows (queue : BoundedRawQueue RawItem) (mode : Mode) (start : Runtime) (labels : List (Label × Clock))
    (P : Program) : Prop where
  interpreter : P.runtime.interpreter = Interpreter.run (handled (main queue mode start) labels) start.interpreter
  records : returned (main queue mode start) labels =
    Interpreter.outputs (handled (main queue mode start) labels) start.interpreter
  earlier : (feed (handled (main queue mode start) labels).dropLast start).1 = .ok ()
  same : P.runtime.Same (P.threads.consumer.settle (feed (handled (main queue mode start) labels) start).2)
  taken : P.threads.consumer.Taken (BoundedRawQueue.run (queueOps (labels.map Prod.fst)) queue).1
    (handled (main queue mode start) labels) (feed (handled (main queue mode start) labels) start).1
    (∃ label ∈ labels, label.1.stops)

theorem handled_concat {label : Label × Clock} (ran : runs step P labels = some P') :
    handled P (labels ++ [label]) = handled P labels ++ P'.handles label := outputsAlong_concat _ ran label

theorem returned_concat {label : Label × Clock} (ran : runs step (main queue mode start) labels = some P) :
    (BoundedRawQueue.run (queueOps ((labels ++ [label]).map Prod.fst)) queue).1 =
      (BoundedRawQueue.run (queueOps (labels.map Prod.fst)) queue).1 ++
        (BoundedRawQueue.run label.1.op?.toList P.threads.queue).1 := by
  have before := Threads.runs_queue (runs_threads ran)
  rw [List.map_append, queueOps, List.filterMap_append, BoundedRawQueue.run_append, ← queueOps, ← before]
  rfl

omit [Platform] in
theorem handles_nil {label : Label × Clock} (other : ∀ raised, label.1 ≠ .consumer (.handle raised)) :
    P.handles label = [] := by
  unfold handles
  split
  · rename_i raised _ _ _
    exact absurd ‹_› (other raised)
  · rfl

omit [Platform] in
theorem gets_run {q : BoundedRawQueue RawItem} {item : Option RawItem} (got : q.get.1 = item) :
    (BoundedRawQueue.run (Label.consumer .get).op?.toList q).1 = item.toList := by
  rw [← got]
  exact List.append_nil _

theorem Follows.quiet (follows : Follows queue mode start labels P) {label : Label × Clock} {got : List RawItem}
    (ran : runs step (main queue mode start) labels = some P) (other : ∀ raised, label.1 ≠ .consumer (.handle raised))
    (gets : (BoundedRawQueue.run label.1.op?.toList P.threads.queue).1 = got)
    (interpreter : P'.runtime.interpreter = P.runtime.interpreter)
    (same : ∀ τ, P.runtime.Same (P.threads.consumer.settle τ) → P'.runtime.Same (P'.threads.consumer.settle τ))
    (taken : ∀ returned raws result stopped, P.threads.consumer.Taken returned raws result stopped →
      P'.threads.consumer.Taken (returned ++ got) raws result (stopped ∨ label.1.stops)) :
    Follows queue mode start (labels ++ [label]) P' := by
  have handled : handled (main queue mode start) (labels ++ [label]) = handled (main queue mode start) labels := by
    rw [handled_concat ran, handles_nil other, List.append_nil]
  have returned : returned (main queue mode start) (labels ++ [label]) = returned (main queue mode start) labels := by
    rw [Program.returned, outputsAlong_concat _ ran, returns, handles_nil other]
    exact List.append_nil _
  constructor
  · rw [interpreter, handled]
    exact follows.interpreter
  · rw [returned, handled]
    exact follows.records
  · rw [handled]
    exact follows.earlier
  · rw [handled]
    exact same _ follows.same
  · rw [handled, returned_concat ran, gets]
    apply (taken _ _ _ _ follows.taken).mono
    rintro (⟨earlier, member, stops⟩ | stops)
    · exact ⟨earlier, List.mem_append_left _ member, stops⟩
    · exact ⟨label, List.mem_append_right _ (List.mem_singleton.mpr rfl), stops⟩

theorem Follows.silent (follows : Follows queue mode start labels P) {label : Label × Clock}
    (ran : runs step (main queue mode start) labels = some P) (other : ∀ raised, label.1 ≠ .consumer (.handle raised))
    (gets : (BoundedRawQueue.run label.1.op?.toList P.threads.queue).1 = [])
    (interpreter : P'.runtime.interpreter = P.runtime.interpreter)
    (same : ∀ τ, P.runtime.Same (P.threads.consumer.settle τ) → P'.runtime.Same (P'.threads.consumer.settle τ))
    (taken : ∀ returned raws result stopped, P.threads.consumer.Taken returned raws result stopped →
      P'.threads.consumer.Taken returned raws result (stopped ∨ label.1.stops)) :
    Follows queue mode start (labels ++ [label]) P' := by
  apply follows.quiet ran other gets interpreter same
  intro returned raws result stopped before
  rw [List.append_nil]
  exact taken returned raws result stopped before

theorem Follows.handle (follows : Follows queue mode start labels P) {raised : Bool} {clock : Clock}
    {item : Option Bytes} (ran : runs step (main queue mode start) labels = some P)
    (handling : P.threads.consumer = .handling item)
    (called : call raised (Pipeline.iterate (tick item clock)) P.runtime = some P'.runtime)
    (left : P'.threads.consumer = if raised then .flushing else .checking)
    (young : (tick item clock).aged P.runtime = []) :
    Follows queue mode start (labels ++ [(.consumer (.handle raised), clock)]) P' := by
  have taken := follows.taken
  have same := follows.same
  rw [handling] at taken same
  obtain ⟨took, clean⟩ := taken
  change P.runtime.Same (feed (handled (main queue mode start) labels) start).2 at same
  obtain ⟨after, result⟩ := call_cases called
  have silent :
    (BoundedRawQueue.run (queueOps ((labels ++ [(Label.consumer (.handle raised), clock)]).map Prod.fst)) queue).1 =
      (BoundedRawQueue.run (queueOps (labels.map Prod.fst)) queue).1 := by
    rw [returned_concat ran]
    exact List.append_nil _
  have handled : handled (main queue mode start) (labels ++ [(.consumer (.handle raised), clock)]) =
      handled (main queue mode start) labels ++ item.toList := by
    rw [handled_concat ran, handles, handling]
    cases item <;> rfl
  have returned : returned (main queue mode start) (labels ++ [(.consumer (.handle raised), clock)]) =
      returned (main queue mode start) labels ++ Interpreter.outputs item.toList P.runtime.interpreter := by
    rw [Program.returned, outputsAlong_concat _ ran, returns, handles, handling]
    cases item <;> rfl
  cases item with
  | none =>
    have still := Pipeline.iterate_timeout rfl young
    rw [still] at after result
    change P.runtime = P'.runtime at after
    rcases result with ⟨rfl, -⟩ | ⟨-, e, error⟩
    · rw [Option.toList_none, List.append_nil] at handled
      constructor
      · rw [← after, handled]
        exact follows.interpreter
      · rw [returned, handled]
        exact (List.append_nil _).trans follows.records
      · rw [handled]
        exact follows.earlier
      · rw [← after, handled, left]
        exact same
      · rw [handled, silent, left]
        exact ⟨took, clean⟩
    · cases error
  | some raw =>
    cases fed : feed (Program.handled (main queue mode start) labels) start with
    | mk ended τ =>
      rw [fed] at same clean
      change ended = .ok () at clean
      subst clean
      obtain ⟨results, states⟩ := Pipeline.iterate_alike same rfl young 0
      rw [after] at states
      rw [Option.toList_some] at handled
      have next := feed_snoc fed raw
      constructor
      · rw [states.interpreter, datagram_interpreter, handled, Interpreter.run_append, ← follows.interpreter,
          ← same.interpreter, Interpreter.run_cons, Interpreter.run_nil]
      · rw [returned, handled, Interpreter.outputs_append, ← follows.records, ← follows.interpreter]
        rfl
      · rw [handled, List.dropLast_concat, fed]
      · rw [handled, next, left]
        cases raised <;> exact states
      · rw [handled, silent, next, left, took]
        have all : (Program.handled (main queue mode start) labels).map RawItem.datagram ++
          RunPc.inHand (.handling (some raw)) =
            (Program.handled (main queue mode start) labels ++ [raw]).map RawItem.datagram := by
          rw [List.map_append]
          rfl
        rw [all]
        rcases results with ⟨fine, fine'⟩ | ⟨e, error, error'⟩
        · rcases result with ⟨rfl, -⟩ | ⟨-, e, error⟩
          · exact ⟨(List.append_nil _).symm, fine'⟩
          · rw [fine] at error
            cases error
        · rcases result with ⟨-, more, fine⟩ | ⟨rfl, -⟩
          · rw [fine] at error
            cases error
          · refine .inr ⟨rfl, .inl ?_⟩
            rw [error']
            intro fine
            cases fine

theorem Follows.step (follows : Follows queue mode start labels P) {label : Label × Clock}
    (ran : runs step (main queue mode start) labels = some P) (stepped : P.step label = some P')
    (young : P.ages label = []) : Follows queue mode start (labels ++ [label]) P' := by
  obtain ⟨moved, worked⟩ := step_parts stepped
  obtain ⟨label, clock⟩ := label
  -- a step of another thread leaves Thread B where it is, and gets nothing
  have elsewhere : P'.threads.consumer = P.threads.consumer → P'.runtime = P.runtime → label.op?.toList = [] ∨
    (∃ item, label.op? = some (.put item)) →
      (∀ raised, label ≠ .consumer (.handle raised)) → Follows queue mode start (labels ++ [(label, clock)]) P' := by
    intro consumer runtime op other
    have nothing : (BoundedRawQueue.run label.op?.toList P.threads.queue).1 = [] := by
      rcases op with none | ⟨item, put⟩
      · rw [none]
        rfl
      · rw [put]
        rfl
    apply follows.silent ran other nothing
    · rw [runtime]
    · rw [runtime, consumer]
      exact fun τ same => same
    · rw [consumer]
      intro returned raws result stopped taken
      exact taken.mono .inl
  cases label with
  | source action =>
    obtain ⟨source, -, rest⟩ := Option.bind_eq_some_iff.mp moved
    obtain ⟨σ, performed, threads⟩ := Option.map_eq_some_iff.mp rest
    apply elsewhere
    · rw [← threads]
      exact (Threads.perform_frame performed).2.2.1
    · exact (Option.some.inj worked).symm
    · cases action with
      | put item => exact .inr ⟨item, rfl⟩
      | _ => exact .inl rfl
    · intro raised same
      cases same
  | watchdog =>
    apply elsewhere
    · exact (Threads.stepWatchdog_frame moved).1
    · exact (Option.some.inj worked).symm
    · exact .inl rfl
    · intro raised same
      cases same
  | consumer action =>
    obtain ⟨threads, runtime⟩ := P'
    cases Threads.stepConsumer_consumed moved with
    | handle raised item handling =>
      rw [work, handling] at worked
      rw [ages, handling] at young
      exact follows.handle ran handling worked rfl young
    | start idle =>
      cases worked
      refine follows.silent ran (by intro raised same; cases same) rfl rfl ?_ ?_
      · intro τ same
        rwa [idle] at same
      · rw [idle]
        intro returned raws result stopped taken
        exact taken
    | running checking stop =>
      cases worked
      refine follows.silent ran (by intro raised same; cases same) rfl rfl ?_ ?_
      · intro τ same
        rwa [checking] at same
      · rw [checking]
        intro returned raws result stopped taken
        exact taken
    | stopped checking stop =>
      cases worked
      refine follows.silent ran (by intro raised same; cases same) rfl rfl ?_ ?_
      · intro τ same
        rwa [checking] at same
      · rw [checking]
        rintro returned raws result stopped ⟨took, -⟩
        exact .inr ⟨by rw [took]; exact List.append_nil _, .inr (.inr (.inr rfl))⟩
    | interrupt looping =>
      have still : P.runtime = runtime ∧ P.threads.consumer.inHand = [] ∧ ∀ σ, P.threads.consumer.settle σ = σ := by
        rcases looping with checking | getting | ⟨item, handling⟩
        · rw [work, checking] at worked
          rw [checking]
          exact ⟨Option.some.inj worked, rfl, fun σ => rfl⟩
        · rw [work, getting] at worked
          rw [getting]
          exact ⟨Option.some.inj worked, rfl, fun σ => rfl⟩
        · rw [work, handling] at worked
          cases worked
      obtain ⟨rfl, free, settled⟩ := still
      refine follows.silent ran (by intro raised same; cases same) rfl rfl ?_ ?_
      · intro τ same
        rwa [settled] at same
      · intro returned raws result stopped taken
        have took : returned = raws.map .datagram ++ P.threads.consumer.inHand := by
          rcases looping with here | here | ⟨item, here⟩
          all_goals
            rw [here] at taken ⊢
            exact taken.1
        exact .inr ⟨by rw [took, free]; exact List.append_nil _, .inr (.inr (.inl rfl))⟩
    | timeout getting got =>
      cases worked
      refine follows.quiet ran (by intro raised same; cases same) (gets_run got) rfl ?_ ?_
      · intro τ same
        rwa [getting] at same
      · rw [getting]
        rintro returned raws result stopped ⟨took, fine⟩
        exact ⟨by simp [took, RunPc.inHand], fine⟩
    | shutdown getting got =>
      cases worked
      refine follows.quiet ran (by intro raised same; cases same) (gets_run got) rfl ?_ ?_
      · intro τ same
        rwa [getting] at same
      · rw [getting]
        rintro returned raws result stopped ⟨took, fine⟩
        exact .inl ⟨by simp [took, RunPc.inHand], fine⟩
    | datagram getting raw got =>
      cases worked
      refine follows.quiet ran (by intro raised same; cases same) (gets_run got) rfl ?_ ?_
      · intro τ same
        rwa [getting] at same
      · rw [getting]
        rintro returned raws result stopped ⟨took, fine⟩
        exact ⟨by simp [took, RunPc.inHand], fine⟩
    | flushAll raised flushing =>
      obtain ⟨after, -⟩ := call_cases worked
      refine follows.silent ran (by intro raised same; cases same) rfl ?_ ?_ ?_
      · rw [← after]
        rfl
      · rw [flushing]
        intro τ same
        rw [← after]
        exact (Runtime.flushAll_alike _ _ same).2
      · rw [flushing]
        intro returned raws result stopped taken
        exact taken.mono .inl
    | stopSource stopping =>
      cases worked
      refine follows.silent ran (by intro raised same; cases same) rfl rfl ?_ ?_
      · rw [stopping]
        intro τ same
        exact ⟨same.interpreter, same.router, same.consumer, rfl⟩
      · rw [stopping]
        intro returned raws result stopped taken
        exact taken.mono .inl

theorem runs_follows (ran : runs step (main queue mode start) labels = some P)
    (young : aged (main queue mode start) labels = []) : Follows queue mode start labels P := by
  have general := runs_invariant (fun labels P => aged (main queue mode start) labels = [] →
    Follows queue mode start labels P) ?_ ?_ ran
  · exact general young
  · intro _
    exact ⟨rfl, rfl, rfl, .refl _, rfl, rfl⟩
  · intro labels P label P' ran follows stepped young
    have split : aged (main queue mode start) (labels ++ [label]) = aged (main queue mode start) labels ++
      P.ages label :=
      outputsAlong_concat _ ran label
    rw [split, List.append_eq_nil_iff] at young
    exact (follows young.1).step ran stepped young.2

end Program

end Sceptre
