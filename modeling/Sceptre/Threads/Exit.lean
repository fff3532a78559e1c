import Sceptre.Threads.Ending

namespace Sceptre

open Foundation

theorem LivePc.step_announcing {pc : LivePc} {action : SourceAction} {exc : Raised}
    (stepped : pc.step action = some (.announcing (.error exc))) : action = .bind (.error exc) := by
  unfold LivePc.step at stepped
  split at stepped
  case h_2 => cases stepped; rfl
  case h_1 raised => cases raised <;> cases stepped
  case h_6 set => cases set <;> cases stepped
  case h_11 => split at stepped <;> cases stepped
  case h_12 => split at stepped <;> cases stepped
  all_goals cases stepped

theorem LivePc.step_failing {pc : LivePc} {action : SourceAction} (stepped : pc.step action = some .failing) :
    pc = .announcing (.error .osError) ∨ action = .recvfrom (.raised .osError) := by
  unfold LivePc.step at stepped
  split at stepped
  case h_4 => exact .inl rfl
  case h_9 => exact .inr rfl
  case h_1 raised => cases raised <;> cases stepped
  case h_6 set => cases set <;> cases stepped
  case h_11 => split at stepped <;> cases stepped
  case h_12 => split at stepped <;> cases stepped
  all_goals cases stepped

theorem LivePc.step_setFailed {pc pc' : LivePc} (stepped : pc.step .setFailed = some pc') : pc = .failing := by
  cases pc with
  | failing => rfl
  | announcing result =>
    rcases result with exc | addr
    · cases exc <;> cases stepped
    · cases stepped
  | _ => cases stepped

theorem LivePc.step_setReady {pc pc' : LivePc} (stepped : pc.step .setReady = some pc') :
    ∃ result, pc = .announcing result := by
  cases pc with
  | announcing result => exact ⟨result, rfl⟩
  | _ => cases stepped

namespace Threads

variable {queue : BoundedRawQueue RawItem} {mode : Mode} {σ σ' : Threads} {labels : List Label} {label : Label}

/-- The status `main` ends the process with: 1 by an exception that leaves `run`, a KeyboardInterrupt apart, or one
    that `recorder.save` raises; else what it returns by the two flags. -/
def exitCode (σ : Threads) (raised saveFails : Bool) : Nat :=
  if raised then 1
  else
    let code := if σ.bindFailed then 1 else if σ.failed then 1 else 0
    if σ.recorder.isSome ∧ saveFails then 1 else code

theorem exitCode_eq_zero {raised saveFails : Bool} : σ.exitCode raised saveFails = 0 ↔
    raised = false ∧ (σ.recorder.isSome → saveFails = false) ∧ σ.bindFailed = false ∧ σ.failed = false := by
  unfold exitCode
  cases raised <;> cases saveFails <;> cases σ.recorder <;> cases σ.bindFailed <;> cases σ.failed <;> simp

theorem perform_flags {action : SourceAction} (performed : σ.perform action = some σ') :
    σ'.bindFailed = σ.bindFailed ∧ (σ'.failed = true ↔ σ.failed = true ∨ action = .setFailed) := by
  cases action with
  | bind result => cases result <;> (cases performed; simp)
  | isSet set =>
    obtain ⟨-, rfl⟩ := perform_isSet performed
    simp
  | wait answer =>
    simp only [perform] at performed
    split at performed <;> cases performed
    simp
  | _ => cases performed; simp

theorem stepWatchdog_flags (stepped : σ.stepWatchdog = some σ') :
    σ'.failed = σ.failed ∧ σ'.ready = σ.ready ∧ σ'.boundAddress = σ.boundAddress ∧ σ'.watchdog ≠ .absent ∧
      (σ'.bindFailed = σ.bindFailed ∨ σ.watchdog = .woken ∧ σ.boundAddress = none) ∧
      (σ.bindFailed = true → σ'.bindFailed = true) ∧ (σ'.watchdog = .stopping → σ'.bindFailed = true) ∧
      (σ'.stop = σ.stop ∨ σ.watchdog = .stopping) := by
  simp only [stepWatchdog] at stepped
  split at stepped
  case h_1 waiting =>
    split at stepped <;> cases stepped
    simp [waiting]
  case h_2 woken =>
    split at stepped
    · rename_i unbound
      cases stepped
      simp [woken, unbound]
    · cases stepped
      simp [woken]
  case h_3 stopping =>
    cases stepped
    simp [stopping]
  case h_4 => cases stepped

structure Flags (labels : List Label) (σ : Threads) : Prop where
  watch : σ.watchdog = .stopping → σ.bindFailed = true
  unbound : σ.bindFailed = true → σ.ready = true ∧ σ.boundAddress = none ∧ σ.watchdog ≠ .absent
  failed : σ.failed = true ↔ .setFailed ∈ sourceActions labels
  announced : ∀ exc, σ.source = .live (.announcing (.error exc)) → .bind (.error exc) ∈ sourceActions labels
  ready : σ.ready = true → σ.boundAddress = none → ∃ exc, .bind (.error exc) ∈ sourceActions labels

theorem sourceActions_concat (labels : List Label) (label : Label) :
    sourceActions (labels ++ [label]) = sourceActions labels ++ label.source?.toList := filterMap_concat ..

theorem Flags.source (flags : Flags labels σ) (inv : Inv (main queue mode) labels σ) {action : SourceAction}
    {source : SourceThread} {τ : Threads} (moved : σ.source.step action = some source)
    (performed : σ.perform action = some τ) : Flags (labels ++ [.source action]) { τ with source := source } := by
  obtain ⟨-, watchdog, -, -, ready, bound, -⟩ := perform_frame performed
  obtain ⟨bindFailed, failed⟩ := perform_flags performed
  have more : sourceActions (labels ++ [.source action]) = sourceActions labels ++ [action] := sourceActions_concat ..
  have kept : ∀ other, other ∈ sourceActions labels → other ∈ sourceActions (labels ++ [.source action]) := by
    intro other member
    rw [more]
    exact List.mem_append_left _ member
  refine ⟨?_, ?_, ?_, ?_, ?_⟩
  · intro stopping
    exact bindFailed.trans (flags.watch (watchdog.symm.trans stopping))
  · intro set
    obtain ⟨wasReady, unbound, present⟩ := flags.unbound (bindFailed.symm.trans set)
    refine ⟨?_, ?_, fun absent => present (watchdog.symm.trans absent)⟩
    · rcases ready with same | ⟨-, now⟩
      · exact same.trans wasReady
      · exact now
    · rcases bound with same | ⟨addr, rfl, -⟩
      · exact same.trans unbound
      · -- an address is bound before the source is announced ready
        cases source' : σ.source with
        | live pc =>
          rw [source'] at moved
          obtain ⟨pc', moved', -⟩ := Option.map_eq_some_iff.mp moved
          have agrees := (inv.live pc source').1
          rw [LivePc.step_bind moved'] at agrees
          rw [agrees.1] at wasReady
          cases wasReady
        | replay pace pc =>
          rw [source'] at moved
          obtain ⟨pc', moved', -⟩ := Option.map_eq_some_iff.mp moved
          cases pc <;> cases moved'
        | liveIdle => rw [source'] at moved; cases moved
        | replayIdle pace => rw [source'] at moved; cases moved
  · rw [more, List.mem_append, List.mem_singleton, ← flags.failed, eq_comm (a := SourceAction.setFailed)]
    exact failed
  · intro exc announcing
    cases announcing
    rw [more]
    cases source' : σ.source with
    | live pc =>
      rw [source'] at moved
      obtain ⟨pc', moved', same⟩ := Option.map_eq_some_iff.mp moved
      cases same
      rw [LivePc.step_announcing moved']
      exact List.mem_append_right _ (List.mem_singleton.mpr rfl)
    | replay pace pc =>
      rw [source'] at moved
      obtain ⟨pc', -, same⟩ := Option.map_eq_some_iff.mp moved
      cases same
    | liveIdle => rw [source'] at moved; cases moved
    | replayIdle pace => rw [source'] at moved; cases moved
  · intro nowReady unbound
    have wasUnbound : σ.boundAddress = none := by
      rcases bound with same | ⟨addr, -, some⟩
      · exact same.symm.trans unbound
      · rw [show τ.boundAddress = none from unbound] at some
        cases some
    rcases ready with same | ⟨rfl, -⟩
    · obtain ⟨exc, member⟩ := flags.ready (same.symm.trans nowReady) wasUnbound
      exact ⟨exc, kept _ member⟩
    · cases source' : σ.source with
      | live pc =>
        rw [source'] at moved
        obtain ⟨pc', moved', -⟩ := Option.map_eq_some_iff.mp moved
        obtain ⟨result, rfl⟩ := LivePc.step_setReady moved'
        cases result with
        | error exc => exact ⟨exc, kept _ (flags.announced exc source')⟩
        | ok addr =>
          have agrees := (inv.live _ source').1.2
          rw [wasUnbound] at agrees
          cases agrees
      | replay pace pc =>
        rw [source'] at moved
        obtain ⟨pc', moved', -⟩ := Option.map_eq_some_iff.mp moved
        cases pc <;> cases moved'
      | liveIdle => rw [source'] at moved; cases moved
      | replayIdle pace => rw [source'] at moved; cases moved

theorem flags_runs (ran : runs step (main queue mode) labels = some σ) : Flags labels σ := by
  refine runs_invariant Flags ?_ ?_ ran
  · cases mode <;> exact ⟨by rintro ⟨⟩, by rintro ⟨⟩, by simp [main, sourceActions], by rintro exc ⟨⟩, by rintro ⟨⟩⟩
  · intro labels σ label σ' ran flags stepped
    have inv := inv_runs ran
    cases label with
    | source action =>
      obtain ⟨source, τ, moved, performed, rfl⟩ := stepSource_cases stepped
      exact flags.source inv moved performed
    | watchdog =>
      obtain ⟨-, -, source, -⟩ := stepWatchdog_frame stepped
      obtain ⟨failed, ready, bound, running, bindFailed, -, stopping, -⟩ := stepWatchdog_flags stepped
      have same : sourceActions (labels ++ [.watchdog]) = sourceActions labels := by
        rw [sourceActions_concat]
        exact List.append_nil _
      refine ⟨stopping, ?_, ?_, ?_, ?_⟩
      · intro set
        rw [ready, bound]
        rcases bindFailed with old | ⟨woken, unbound⟩
        · obtain ⟨wasReady, unbound, -⟩ := flags.unbound (old.symm.trans set)
          exact ⟨wasReady, unbound, running⟩
        · have watch := inv.watch
          rw [woken] at watch
          exact ⟨watch, unbound, running⟩
      · rw [failed, same]
        exact flags.failed
      · rw [source, same]
        exact flags.announced
      · rw [ready, bound, same]
        exact flags.ready
    | consumer action =>
      have same : sourceActions (labels ++ [.consumer action]) = sourceActions labels := by
        rw [sourceActions_concat]
        exact List.append_nil _
      cases stepConsumer_consumed stepped with
      | start idle =>
        refine ⟨flags.watch, flags.unbound, by rw [same]; exact flags.failed, ?_, by rw [same]; exact flags.ready⟩
        intro exc announcing
        cases source : σ.source with
        | live pc =>
          rw [same]
          refine flags.announced exc ?_
          rw [source]
          simpa [SourceThread.start, source] using announcing
        | _ => simp [SourceThread.start, source] at announcing
      | _ =>
        exact ⟨flags.watch, flags.unbound, by rw [same]; exact flags.failed, by rw [same]; exact flags.announced,
          by rw [same]; exact flags.ready⟩

def Heard (σ : Threads) : Prop := σ.bindFailed = true ∨ ∃ pace, σ.source = .replay pace .terminated

theorem Heard.step (heard : σ.Heard) (stepped : σ.step label = some σ') : σ'.Heard := by
  cases label with
  | source action =>
    obtain ⟨source, τ, moved, performed, rfl⟩ := stepSource_cases stepped
    rcases heard with set | ⟨pace, ended⟩
    · exact .inl ((perform_flags performed).1.trans set)
    · rw [ended] at moved
      cases action <;> cases moved
  | watchdog =>
    obtain ⟨-, -, source, -⟩ := stepWatchdog_frame stepped
    obtain ⟨-, -, -, -, -, later, -⟩ := stepWatchdog_flags stepped
    exact heard.imp later fun ⟨pace, ended⟩ => ⟨pace, source.trans ended⟩
  | consumer action =>
    cases stepConsumer_consumed stepped with
    | start idle => exact heard.imp_right fun ⟨pace, ended⟩ => ⟨pace, by simp [ended, SourceThread.start]⟩
    | _ => exact heard

structure Told (σ : Threads) : Prop where
  stop : σ.stop = true → σ.Heard
  sentinel : RawItem.shutdown ∈ σ.queue.items → σ.Heard
  left : σ.consumer ≠ .idle → ¬ σ.consumer.Looping → σ.Heard

end Threads

/-- The label is not an interrupt, and no call on the interpreter and the router raises at it. -/
def Label.Calm (label : Label) : Prop :=
  label ≠ .consumer .interrupt ∧ label ≠ .consumer (.handle true) ∧ label ≠ .consumer (.flushAll true)

theorem Label.Calm.raises {label : Label} (calm : label.Calm) : label.raises = false := by
  obtain ⟨-, handled, flushed⟩ := calm
  cases label with
  | consumer action =>
    cases action with
    | handle raised => exact Bool.eq_false_iff.mpr fun same => handled (by rw [show raised = true from same])
    | flushAll raised => exact Bool.eq_false_iff.mpr fun same => flushed (by rw [show raised = true from same])
    | _ => rfl
  | _ => rfl

namespace Threads

variable {queue : BoundedRawQueue RawItem} {mode : Mode} {σ σ' : Threads} {labels : List Label} {label : Label}

theorem Told.source (told : σ.Told) {action : SourceAction} {source : SourceThread} {τ : Threads}
    (moved : σ.source.step action = some source) (performed : σ.perform action = some τ)
    (later : σ.Heard → Heard { τ with source := source }) : Told { τ with source := source } := by
  obtain ⟨stop, -, consumer, -, -, -, queue⟩ := perform_frame performed
  refine ⟨fun set => later (told.stop (stop.symm.trans set)), ?_, ?_⟩
  · intro inside
    change RawItem.shutdown ∈ τ.queue.items at inside
    rcases queue with same | ⟨item, rfl, put⟩
    · rw [same] at inside
      exact later (told.sentinel inside)
    · rw [put] at inside
      rcases List.mem_append.mp (BoundedRawQueue.put_subset _ _ inside) with old | new
      · exact later (told.sentinel old)
      · cases List.mem_singleton.mp new
        -- only a replay puts SHUTDOWN, as its last call
        cases source' : σ.source with
        | live pc =>
          rw [source'] at moved
          obtain ⟨pc', moved', -⟩ := Option.map_eq_some_iff.mp moved
          exact absurd rfl (LivePc.step_puts moved')
        | replay pace pc =>
          rw [source'] at moved
          obtain ⟨pc', moved', rfl⟩ := Option.map_eq_some_iff.mp moved
          obtain ⟨-, ⟨raw, item, -⟩ | ⟨-, ended⟩ | ⟨none, -⟩⟩ := ReplayPc.step_puts moved'
          · cases item
          · exact .inr ⟨pace, by rw [ended]⟩
          · cases none
        | liveIdle => rw [source'] at moved; cases moved
        | replayIdle pace => rw [source'] at moved; cases moved
  · intro begun outside
    change τ.consumer ≠ .idle at begun
    change ¬ τ.consumer.Looping at outside
    rw [consumer] at begun outside
    exact later (told.left begun outside)

theorem Told.consumer (told : σ.Told) {action : RunAction} (calm : (Label.consumer action).Calm)
    (consumed : σ.Consumed action σ') (later : σ.Heard → σ'.Heard) : σ'.Told := by
  obtain ⟨interrupt, handled, -⟩ := calm
  have kept := fun set => later (told.stop set)
  have waiting := fun inside => later (told.sentinel inside)
  have got : RawItem.shutdown ∈ σ.queue.items.tail → σ'.Heard := fun inside => waiting (List.mem_of_mem_tail inside)
  cases consumed with
  | start idle => exact ⟨kept, waiting, fun _ outside => absurd (.inl rfl) outside⟩
  | stopped checking stop => exact ⟨kept, waiting, fun _ _ => kept stop⟩
  | running checking stop => exact ⟨kept, waiting, fun _ outside => absurd (.inr (.inl rfl)) outside⟩
  | timeout getting none => exact ⟨kept, got, fun _ outside => absurd (.inr (.inr ⟨_, rfl⟩)) outside⟩
  | shutdown getting some =>
    exact ⟨kept, got, fun _ _ => waiting (List.mem_of_mem_head? some)⟩
  | datagram getting raw some => exact ⟨kept, got, fun _ outside => absurd (.inr (.inr ⟨_, rfl⟩)) outside⟩
  | handle raised item handling =>
    cases raised with
    | true => exact absurd rfl handled
    | false => exact ⟨kept, waiting, fun _ outside => absurd (.inl rfl) outside⟩
  | interrupt looping => exact absurd rfl interrupt
  | flushAll raised flushing =>
    have left := told.left (by rw [flushing]; simp) (by rw [flushing]; simp [RunPc.Looping])
    exact ⟨kept, waiting, fun _ _ => later left⟩
  | stopSource stopping =>
    have left := told.left (by rw [stopping]; simp) (by rw [stopping]; simp [RunPc.Looping])
    exact ⟨fun _ => later left, waiting, fun _ _ => later left⟩

theorem Told.step (told : σ.Told) (flags : Flags labels σ) (calm : label.Calm) (stepped : σ.step label = some σ') :
    σ'.Told := by
  have later := fun heard : σ.Heard => heard.step stepped
  cases label with
  | source action =>
    obtain ⟨source, τ, moved, performed, rfl⟩ := stepSource_cases stepped
    exact told.source moved performed later
  | watchdog =>
    obtain ⟨consumer, queue, -, -⟩ := stepWatchdog_frame stepped
    obtain ⟨-, -, -, -, -, -, -, stop⟩ := stepWatchdog_flags stepped
    refine ⟨?_, ?_, ?_⟩
    · intro set
      rcases stop with same | stopping
      · exact later (told.stop (same.symm.trans set))
      · exact later (.inl (flags.watch stopping))
    · rw [queue]
      exact fun inside => later (told.sentinel inside)
    · rw [consumer]
      exact fun begun outside => later (told.left begun outside)
  | consumer action => exact told.consumer calm (stepConsumer_consumed stepped) later

theorem told_runs (empty : queue.items = []) (ran : runs step (main queue mode) labels = some σ)
    (calm : ∀ label ∈ labels, label.Calm) : σ.Told := by
  have general := runs_invariant (fun labels σ => (∀ label ∈ labels, label.Calm) → σ.Told) ?_ ?_ ran
  · exact general calm
  · intro _
    refine ⟨?_, ?_, fun begun => absurd rfl begun⟩
    · intro set
      cases set
    · intro inside
      change RawItem.shutdown ∈ queue.items at inside
      rw [empty] at inside
      cases inside
  · intro labels σ label σ' ran told stepped calm
    exact (told fun label member => calm label (List.mem_append_left _ member)).step (flags_runs ran)
      (calm label (by simp)) stepped

theorem unseen_runs {pace : Pace} (empty : queue.items = [])
    (ran : runs step (main queue (.replay pace)) labels = some σ) (calm : ∀ label ∈ labels, label.Calm) :
    ∀ action ∈ sourceActions labels, action ≠ .isSet true ∧ action ≠ .wait (some true) := by
  have general := runs_invariant (fun labels _ => (∀ label ∈ labels, label.Calm) →
    ∀ action ∈ sourceActions labels, action ≠ .isSet true ∧ action ≠ .wait (some true)) ?_ ?_ ran
  · exact general calm
  · intro _ action member
    cases member
  · intro labels σ label σ' ran earlier stepped calm action member
    have before : ∀ label ∈ labels, label.Calm := fun label member => calm label (List.mem_append_left _ member)
    rw [sourceActions_concat] at member
    rcases List.mem_append.mp member with old | new
    · exact earlier before action old
    · cases label with
      | source action' =>
        cases List.mem_singleton.mp new
        obtain ⟨source, τ, moved, performed, rfl⟩ := stepSource_cases stepped
        have unstopped : σ.stop ≠ true := by
          intro stop
          rcases (told_runs empty ran before).stop stop with bindFailed | ⟨pace', ended⟩
          · have mode := runs_source ran
            have absent : σ.watchdog = .absent := by
              cases source' : σ.source with
              | replayIdle pace' => exact (inv_runs ran).replay pace' (.inl source')
              | replay pace' pc => exact (inv_runs ran).replay pace' (.inr ⟨pc, source'⟩)
              | liveIdle => rw [source'] at mode; exact absurd mode id
              | live pc => rw [source'] at mode; exact absurd mode id
            exact ((flags_runs ran).unbound bindFailed).2.2 absent
          · rw [ended] at moved
            cases action <;> cases moved
        constructor
        · rintro rfl
          exact unstopped (perform_isSet performed).1.symm
        · rintro rfl
          simp only [perform] at performed
          split at performed
          · rename_i same
            exact unstopped same.symm
          · cases performed
      | watchdog => cases new
      | consumer action' => cases new

theorem bindFailed_runs (set : σ.bindFailed = true) (ran : runs step σ labels = some σ') : σ'.bindFailed = true := by
  refine runs_invariant (fun _ τ => τ.bindFailed = true) set ?_ ran
  intro _ τ label τ' _ set stepped
  cases label with
  | source action =>
    obtain ⟨source, ρ, -, performed, rfl⟩ := stepSource_cases stepped
    exact (perform_flags performed).1.trans set
  | watchdog => exact (stepWatchdog_flags stepped).2.2.2.2.2.1 set
  | consumer action =>
    cases stepConsumer_consumed stepped with
    | _ => exact set

theorem recorder_runs (ran : runs step (main queue mode) labels = some σ) (recording : σ.recorder.isSome) :
    ∃ recorder, mode = .live (some recorder) := by
  rw [runs_recorder ran] at recording
  have still : ∀ actions, Recorder.after none actions = none := by
    intro actions
    induction actions with
    | nil => rfl
    | cons action rest ih => cases action <;> exact ih
  cases mode with
  | live recorder =>
    cases recorder with
    | none => rw [show (main queue (.live none)).recorder = none from rfl, still] at recording; cases recording
    | some recorder => exact ⟨recorder, rfl⟩
  | replay pace => rw [show (main queue (.replay pace)).recorder = none from rfl, still] at recording; cases recording

theorem finished_runs (finished : σ.consumer = .finished) (ran : runs step σ labels = some σ') :
    σ'.consumer = .finished ∧ labels.any Label.raises = false := by
  refine runs_invariant (fun labels τ => τ.consumer = .finished ∧ labels.any Label.raises = false) ⟨finished,
    rfl⟩ ?_ ran
  rintro labels τ label τ' - ⟨finished, calm⟩ stepped
  rw [List.any_append, calm, Bool.false_or]
  cases label with
  | source action =>
    obtain ⟨source, ρ, -, performed, rfl⟩ := stepSource_cases stepped
    exact ⟨(perform_frame performed).2.2.1.trans finished, rfl⟩
  | watchdog => exact ⟨(stepWatchdog_frame stepped).1.trans finished, rfl⟩
  | consumer action =>
    cases stepConsumer_consumed stepped with
    | start idle => rw [finished] at idle; cases idle
    | stopped here => rw [finished] at here; cases here
    | running here => rw [finished] at here; cases here
    | timeout here => rw [finished] at here; cases here
    | shutdown here => rw [finished] at here; cases here
    | datagram here => rw [finished] at here; cases here
    | handle _ _ here => rw [finished] at here; cases here
    | interrupt here => rw [finished] at here; simp [RunPc.Looping] at here
    | flushAll _ here => rw [finished] at here; cases here
    | stopSource here => rw [finished] at here; cases here

theorem replayed_runs {pace : Pace} (ended : σ.source = .replay pace .terminated) (absent : σ.watchdog = .absent)
    (ran : runs step σ labels = some σ') :
    σ'.bindFailed = σ.bindFailed ∧ σ'.failed = σ.failed ∧ σ'.recorder = σ.recorder := by
  have kept := runs_invariant (fun _ τ => τ.source = .replay pace .terminated ∧ τ.watchdog = .absent ∧
    τ.bindFailed = σ.bindFailed ∧ τ.failed = σ.failed ∧ τ.recorder = σ.recorder) ⟨ended, absent, rfl, rfl, rfl⟩ ?_ ran
  · exact kept.2.2
  · rintro _ τ label τ' _ ⟨ended, absent, holds⟩ stepped
    cases label with
    | source action =>
      obtain ⟨source, ρ, moved, -, -⟩ := stepSource_cases stepped
      rw [ended] at moved
      cases action <;> cases moved
    | watchdog => simp [step, stepWatchdog, absent] at stepped
    | consumer action =>
      cases stepConsumer_consumed stepped with
      | start idle => exact ⟨by simp [ended, SourceThread.start], absent, holds⟩
      | _ => exact ⟨ended, absent, holds⟩

end Threads

theorem LivePc.runs_failed {actions : List SourceAction} {pc : LivePc}
    (ran : runs LivePc.step .creating actions = some pc) (fails : .setFailed ∈ actions ∨ pc = .failing) :
    (∃ exc, .bind (.error exc) ∈ actions) ∨ .recvfrom (.raised .osError) ∈ actions := by
  have general := runs_invariant (fun actions pc =>
    (.setFailed ∈ actions ∨ pc = .failing ∨ ∃ exc, pc = .announcing (.error exc)) →
      (∃ exc, .bind (.error exc) ∈ actions) ∨ .recvfrom (.raised .osError) ∈ actions) ?_ ?_ ran
  · exact general (fails.imp_right .inl)
  · simp
  · intro actions pc action pc' _ earlier stepped fails
    have now : (.setFailed ∈ actions ∨ pc = .failing ∨ ∃ exc, pc = .announcing (.error exc)) ∨
        (∃ exc, action = .bind (.error exc)) ∨ action = .recvfrom (.raised .osError) := by
      rcases fails with set | failing | ⟨exc, announcing⟩
      · rcases List.mem_append.mp set with old | new
        · exact .inl (.inl old)
        · cases List.mem_singleton.mp new
          exact .inl (.inr (.inl (LivePc.step_setFailed stepped)))
      · subst failing
        rcases LivePc.step_failing stepped with announcing | received
        · exact .inl (.inr (.inr ⟨_, announcing⟩))
        · exact .inr (.inr received)
      · subst announcing
        exact .inr (.inl ⟨exc, LivePc.step_announcing stepped⟩)
    rcases now with before | ⟨exc, rfl⟩ | rfl
    · exact (earlier before).imp (fun ⟨exc, member⟩ => ⟨exc, List.mem_append_left _ member⟩) (List.mem_append_left _)
    · exact .inl ⟨exc, by simp⟩
    · exact .inr (by simp)

namespace Threads

variable {queue : BoundedRawQueue RawItem} {mode : Mode} {σ σ' : Threads} {labels : List Label}

theorem failed_runs (ran : runs step (main queue mode) labels = some σ) (failed : σ.failed = true) :
    (∃ exc, .bind (.error exc) ∈ sourceActions labels) ∨ .recvfrom (.raised .osError) ∈ sourceActions labels ∨
      ∃ pace, mode = .replay pace ∧
        (.load none ∈ sourceActions labels ∨ ¬ pace.Whole none (loaded (sourceActions labels))) := by
  have set := (flags_runs ran).failed.mp failed
  have source := runs_source ran
  cases mode with
  | live recorder =>
    cases at' : σ.source with
    | live pc =>
      rw [at'] at source
      exact (LivePc.runs_failed source (.inl set)).imp_right .inl
    | liveIdle =>
      rw [at'] at source
      rw [show sourceActions labels = [] from source] at set
      cases set
    | replay pace pc => rw [at'] at source; exact absurd source id
    | replayIdle pace => rw [at'] at source; exact absurd source id
  | replay pace =>
    obtain ⟨pc, calls⟩ := source.replay
    rcases ReplayPc.runs_follows calls with ⟨-, none⟩ | follows
    · rw [none] at set
      cases set
    · exact .inr (.inr ⟨pace, rfl, follows.fails (.inl set)⟩)

theorem exitCode_bindFailed (set : σ.bindFailed = true) (saveFails : Bool) : σ.exitCode false saveFails = 1 := by
  simp [exitCode, set]

theorem calm_silent (calm : ∀ label ∈ labels, label.Calm) : labels.any Label.raises = false := by
  rw [List.any_eq_false]
  intro label member raised
  exact absurd raised (by simpa using (calm label member).raises)

theorem calm_live {recorder : Option Recorder} (empty : queue.items = [])
    (ran : runs step (main queue (.live recorder)) labels = some σ) (calm : ∀ label ∈ labels, label.Calm)
    (finished : σ.consumer = .finished) : σ.bindFailed = true := by
  have source := runs_source ran
  rcases (told_runs empty ran calm).left (by rw [finished]; simp) (by rw [finished]; simp [RunPc.Looping]) with
    set | ⟨pace, ended⟩
  · exact set
  · rw [ended] at source
    exact absurd source id

theorem replay_absent {pace : Pace} (ran : runs step (main queue (.replay pace)) labels = some σ) :
    σ.watchdog = .absent := by
  have inv := inv_runs ran
  have source := runs_source ran
  cases at' : σ.source with
  | replayIdle pace' => exact inv.replay pace' (.inl at')
  | replay pace' pc => exact inv.replay pace' (.inr ⟨pc, at'⟩)
  | liveIdle => rw [at'] at source; exact absurd source id
  | live pc => rw [at'] at source; exact absurd source id

theorem replay_bound {pace : Pace} (ran : runs step (main queue (.replay pace)) labels = some σ) :
    σ.bindFailed = false :=
  Bool.eq_false_iff.mpr fun set => ((flags_runs ran).unbound set).2.2 (replay_absent ran)

theorem replay_unrecorded {pace : Pace} (ran : runs step (main queue (.replay pace)) labels = some σ) :
    ¬ σ.recorder.isSome = true := by
  intro recording
  obtain ⟨recorder, other⟩ := recorder_runs ran recording
  cases other

theorem calm_replay {pace : Pace} (empty : queue.items = [])
    (ran : runs step (main queue (.replay pace)) labels = some σ) (calm : ∀ label ∈ labels, label.Calm)
    (finished : σ.consumer = .finished) : σ.source = .replay pace .terminated := by
  have source := runs_source ran
  rcases (told_runs empty ran calm).left (by rw [finished]; simp) (by rw [finished]; simp [RunPc.Looping]) with
    set | ⟨pace', ended⟩
  · rw [replay_bound ran] at set
    cases set
  · rw [ended] at source
    rw [ended, source.1]

/-- A calm replay has put what it owed, and has failed exactly when its capture was not whole. -/
theorem calm_replayed {pace : Pace} (empty : queue.items = [])
    (ran : runs step (main queue (.replay pace)) labels = some σ) (calm : ∀ label ∈ labels, label.Calm)
    (finished : σ.consumer = .finished) :
    putItems (sourceActions labels) =
        (pace.payloads none (loaded (sourceActions labels))).map .datagram ++ [.shutdown] ∧
      (σ.failed = true ↔
        .load none ∈ sourceActions labels ∨ ¬ pace.Whole none (loaded (sourceActions labels))) := by
  have source := runs_source ran
  rw [calm_replay empty ran calm finished] at source
  rcases ReplayPc.runs_follows source.2 with ⟨same, -⟩ | follows
  · cases same
  · obtain ⟨puts, doomed⟩ := follows.owes (unseen_runs empty ran calm)
    refine ⟨by simpa [ReplayPc.owed, ReplayPc.due] using puts, ?_⟩
    rw [(flags_runs ran).failed]
    constructor
    · exact fun set => follows.fails (.inl set)
    · exact fun broken => (doomed broken).resolve_right id

end Threads

open Threads

/-- The exit code of `main` is nonzero only when the consumer raised, the recording could not be saved, binding or
    receiving failed, or the capture could not be loaded or put as a whole. And when `run` returns with no interrupt
    and no raise, it says how the session went, and will not change: a live session has ended because the bind failed,
    and gives 1; a replay has put its capture up to the first entry that it cannot read or wait for, then SHUTDOWN,
    and gives 0 exactly when it has put the whole of it. -/
theorem exit_code_exact (maxsize : Int) (queue : BoundedRawQueue RawItem)
    (created : BoundedRawQueue.new maxsize = .ok queue) (mode : Mode) (labels : List Label) (σ : Threads)
    (ran : runs step (main queue mode) labels = some σ) (saveFails : Bool) :
    (σ.exitCode (labels.any Label.raises) saveFails ≠ 0 →
      (∃ label ∈ labels, label.raises = true) ∨ (saveFails = true ∧ ∃ recorder, mode = .live (some recorder)) ∨
        (∃ exc, .bind (.error exc) ∈ sourceActions labels) ∨ .recvfrom (.raised .osError) ∈ sourceActions labels ∨
        ∃ pace, mode = .replay pace ∧
          (.load none ∈ sourceActions labels ∨ ¬ pace.Whole none (loaded (sourceActions labels)))) ∧
    (σ.consumer = .finished → (∀ label ∈ labels, label.Calm) →
      (∀ recorder, mode = .live recorder →
        σ.exitCode (labels.any Label.raises) saveFails = 1 ∧ σ.boundAddress = none) ∧
      (∀ pace, mode = .replay pace →
        putItems (sourceActions labels) =
            (pace.payloads none (loaded (sourceActions labels))).map .datagram ++ [.shutdown] ∧
          (σ.exitCode (labels.any Label.raises) saveFails = 0 ↔
            .load none ∉ sourceActions labels ∧ pace.Whole none (loaded (sourceActions labels)))) ∧
      ∀ rest σ', runs step σ rest = some σ' →
        σ'.exitCode ((labels ++ rest).any Label.raises) saveFails =
          σ.exitCode (labels.any Label.raises) saveFails) := by
  constructor
  · intro nonzero
    by_cases raised : labels.any Label.raises = true
    · exact .inl (List.any_eq_true.mp raised)
    by_cases unsaved : σ.recorder.isSome = true ∧ saveFails = true
    · exact .inr (.inl ⟨unsaved.2, recorder_runs ran unsaved.1⟩)
    refine .inr (.inr ?_)
    by_cases bindFailed : σ.bindFailed = true
    · have flags := flags_runs ran
      obtain ⟨ready, unbound, -⟩ := flags.unbound bindFailed
      exact .inl (flags.ready ready unbound)
    · apply failed_runs ran
      by_contra unfailed
      apply nonzero
      rw [exitCode_eq_zero]
      simp_all
  · intro finished calm
    have empty : queue.items = [] := (BoundedRawQueue.new_tracks created).1.contents.symm
    have silent := calm_silent calm
    have later : ∀ rest σ', runs step σ rest = some σ' → (labels ++ rest).any Label.raises = false := by
      intro rest σ' more
      rw [List.any_append, silent, (finished_runs finished more).2, Bool.or_false]
    cases mode with
    | live recorder =>
      have bindFailed := calm_live empty ran calm finished
      refine ⟨?_, ?_, ?_⟩
      · rintro _ -
        exact ⟨by rw [silent, exitCode_bindFailed bindFailed], ((flags_runs ran).unbound bindFailed).2.1⟩
      · rintro pace ⟨⟩
      · intro rest σ' more
        rw [silent, later rest σ' more, exitCode_bindFailed bindFailed,
          exitCode_bindFailed (bindFailed_runs bindFailed more)]
    | replay pace =>
      refine ⟨?_, ?_, ?_⟩
      · rintro recorder ⟨⟩
      · rintro _ ⟨⟩
        obtain ⟨puts, failed⟩ := calm_replayed empty ran calm finished
        refine ⟨puts, ?_⟩
        rw [silent, exitCode_eq_zero, ← Bool.not_eq_true σ.failed, failed, not_or, not_not]
        simp [replay_bound ran, replay_unrecorded ran]
      · intro rest σ' more
        obtain ⟨bindFailed, failed, recorder⟩ :=
          replayed_runs (calm_replay empty ran calm finished) (replay_absent ran) more
        rw [silent, later rest σ' more, exitCode, exitCode, bindFailed, failed, recorder]

namespace Threads

def missing : List Label := missingCapture ++ [.isSet false, .get, .flushAll false, .stopSource].map Label.consumer

def missed : Threads := { unloaded with queue := (eightDeep.put .shutdown).get.2, consumer := .finished, stop := true }

theorem runs_missing : runs step (main eightDeep (.replay ⟨true, 9223372036⟩)) missing = some missed := rfl

theorem exit_code_exact_missing : missed.exitCode (missing.any Label.raises) false ≠ 0 ∧
    putItems (sourceActions missing) = [.shutdown] := by
  have calm : ∀ label ∈ missing, label.Calm := by simp [missing, missingCapture, Label.Calm]
  obtain ⟨puts, code⟩ := ((exit_code_exact 8 eightDeep rfl (.replay ⟨true, 9223372036⟩) missing missed runs_missing
    false).2 rfl calm).2.1 _ rfl
  refine ⟨?_, puts⟩
  rw [Ne, code]
  simp [missing, missingCapture, sourceActions, Label.source?]

end Threads

end Sceptre
