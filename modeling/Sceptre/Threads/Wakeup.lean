import Sceptre.Threads.System

namespace Sceptre

open Foundation

def LivePc.Agrees (ready : Bool) (bound : Option Address) : LivePc → Prop
  | .creating => ready = false ∧ bound = none
  | .binding => ready = false ∧ bound = none
  | .announcing result => ready = false ∧ bound = result.toOption
  | .checking => ready = true ∧ bound ≠ none
  | .receiving => ready = true ∧ bound ≠ none
  | .putting _ _ => ready = true ∧ bound ≠ none
  | .appending _ _ => ready = true ∧ bound ≠ none
  | .failing => ready = true
  | .terminated => ready = true ∨ bound = none

def WatchPc.Agrees (ready stop : Bool) (bound : Option Address) : WatchPc → Prop
  | .absent => True
  | .waiting => True
  | .woken => ready = true
  | .stopping => ready = true ∧ bound = none
  | .finished => ready = true ∧ (stop = true ∨ bound ≠ none)

open Threads

theorem LivePc.Agrees.step {σ σ' : Threads} {pc pc' : LivePc} {action : SourceAction}
    (agrees : pc.Agrees σ.ready σ.boundAddress) (stepped : pc.step action = some pc')
    (performed : σ.perform action = some σ') : pc'.Agrees σ'.ready σ'.boundAddress := by
  unfold LivePc.step at stepped
  split at stepped
  case h_1 raised =>
    cases performed
    cases raised
    · cases stepped
      exact agrees
    · cases stepped
      exact .inr agrees.2
  case h_2 result =>
    cases stepped
    cases result with
    | ok addr =>
      cases performed
      exact ⟨agrees.1, rfl⟩
    | error exc =>
      cases performed
      exact ⟨agrees.1, agrees.2⟩
  case h_3 addr =>
    cases stepped
    cases performed
    refine ⟨rfl, ?_⟩
    show σ.boundAddress ≠ none
    rw [agrees.2]
    simp [Except.toOption]
  case h_4 => cases stepped; cases performed; exact rfl
  case h_5 => cases stepped; cases performed; exact .inl rfl
  case h_6 set =>
    obtain ⟨-, rfl⟩ := perform_isSet performed
    cases set
    · cases stepped
      exact agrees
    · cases stepped
      exact .inl agrees.1
  case h_7 => cases stepped; cases performed; exact agrees
  case h_8 => cases stepped; cases performed; exact agrees
  case h_9 => cases stepped; cases performed; exact agrees.1
  case h_10 => cases stepped; cases performed; exact .inl agrees.1
  case h_11 =>
    split at stepped
    · cases stepped
      cases performed
      exact agrees
    · cases stepped
  case h_12 =>
    split at stepped
    · cases stepped
      cases performed
      exact agrees
    · cases stepped
  case h_13 => cases stepped; cases performed; exact .inl agrees
  case h_14 => cases stepped

theorem LivePc.step_puts {pc pc' : LivePc} {action : SourceAction} (stepped : pc.step action = some pc') :
    action ≠ .put .shutdown := by
  rintro rfl
  cases pc with
  | putting data addr => simp [LivePc.step] at stepped
  | announcing result =>
    rcases result with exc | addr
    · cases exc <;> cases stepped
    · cases stepped
  | creating => cases stepped
  | binding => cases stepped
  | checking => cases stepped
  | receiving => cases stepped
  | appending data addr => cases stepped
  | failing => cases stepped
  | terminated => cases stepped

namespace Threads

/-- Thread A ends while the stop Event is not set, because creating the socket or receiving raised. -/
def Fatal (σ : Threads) : Label → Prop
  | .source action => σ.stop = false ∧
      (σ.source = .live .creating ∧ action = .socket true ∨
        σ.source = .live .receiving ∧ action = .recvfrom (.raised .other) ∨
        σ.source = .live .failing ∧ action = .setFailed ∧ σ.boundAddress ≠ none)
  | _ => False

end Threads

theorem LivePc.ends {σ σ' : Threads} {pc : LivePc} {action : SourceAction} (source : σ.source = .live pc)
    (agrees : pc.Agrees σ.ready σ.boundAddress) (stepped : pc.step action = some .terminated)
    (performed : σ.perform action = some σ') :
    σ.stop = true ∨ (σ'.boundAddress = none ∧ σ'.ready = true) ∨ σ.Fatal (.source action) := by
  by_cases stop : σ.stop = true
  · exact .inl stop
  · right
    rw [Bool.not_eq_true] at stop
    unfold LivePc.step at stepped
    split at stepped
    case h_1 raised =>
      cases raised
      · cases stepped
      · exact .inr ⟨stop, .inl ⟨source, rfl⟩⟩
    case h_5 =>
      cases performed
      exact .inl ⟨agrees.2, rfl⟩
    case h_6 set =>
      obtain ⟨same, -⟩ := perform_isSet performed
      rw [stop] at same
      subst same
      cases stepped
    case h_10 => exact .inr ⟨stop, .inr (.inl ⟨source, rfl⟩)⟩
    case h_13 =>
      cases performed
      by_cases unbound : σ.boundAddress = none
      · exact .inl ⟨unbound, agrees⟩
      · exact .inr ⟨stop, .inr (.inr ⟨source, rfl, unbound⟩)⟩
    case h_11 => split at stepped <;> cases stepped
    case h_12 => split at stepped <;> cases stepped
    all_goals cases stepped

theorem LivePc.step_bind {pc pc' : LivePc} {result : Except Raised Address}
    (stepped : pc.step (.bind result) = some pc') : pc = .binding := by
  cases pc with
  | binding => rfl
  | announcing result' =>
    rcases result' with exc | addr
    · cases exc <;> cases stepped
    · cases stepped
  | creating => cases stepped
  | checking => cases stepped
  | receiving => cases stepped
  | putting data addr => cases stepped
  | appending data addr => cases stepped
  | failing => cases stepped
  | terminated => cases stepped

theorem WatchPc.Agrees.frame {w : WatchPc} {ready ready' stop stop' : Bool} {bound bound' : Option Address}
    (agrees : w.Agrees ready stop bound) (later : ready = true → ready' = true) (kept : stop = true → stop' = true)
    (address : bound' = bound ∨ ready = false) : w.Agrees ready' stop' bound' := by
  cases w with
  | absent => trivial
  | waiting => trivial
  | woken => exact later agrees
  | stopping =>
    rcases address with same | unready
    · rw [same]
      exact ⟨later agrees.1, agrees.2⟩
    · rw [agrees.1] at unready
      cases unready
  | finished =>
    rcases address with same | unready
    · rw [same]
      exact ⟨later agrees.1, agrees.2.imp_left kept⟩
    · rw [agrees.1] at unready
      cases unready

namespace Threads

variable {σ₀ σ σ' : Threads} {labels : List Label} {label : Label}

/-- Some step of the run was fatal. -/
def Fell (σ₀ : Threads) (labels : List Label) : Prop :=
  ∃ done label rest τ, labels = done ++ label :: rest ∧ runs step σ₀ done = some τ ∧ τ.Fatal label

theorem Fell.later (fell : Fell σ₀ labels) (label : Label) : Fell σ₀ (labels ++ [label]) := by
  obtain ⟨done, fatal, rest, τ, rfl, ran, falls⟩ := fell
  exact ⟨done, fatal, rest ++ [label], τ, by simp, ran, falls⟩

structure Inv (σ₀ : Threads) (labels : List Label) (σ : Threads) : Prop where
  watch : σ.watchdog.Agrees σ.ready σ.stop σ.boundAddress
  live : ∀ pc, σ.source = .live pc →
    pc.Agrees σ.ready σ.boundAddress ∧ σ.watchdog ≠ .absent ∧ Label.source (.put .shutdown) ∉ labels
  liveIdle : σ.source = .liveIdle →
    σ.ready = false ∧ σ.boundAddress = none ∧ σ.watchdog ≠ .absent ∧ Label.source (.put .shutdown) ∉ labels
  replay : ∀ pace, (σ.source = .replayIdle pace ∨ ∃ pc, σ.source = .replay pace pc) → σ.watchdog = .absent
  ended : σ.source = .live .terminated → σ.stop = true ∨ (σ.boundAddress = none ∧ σ.ready = true) ∨ Fell σ₀ labels
  replayed : ∀ pace, σ.source = .replay pace .terminated → Label.source (.put .shutdown) ∈ labels ∧
    (RawItem.shutdown ∈ σ.queue.items ∨ ¬ σ.consumer.Looping)
  unstarted : σ.consumer = .idle → σ.source = .liveIdle ∨ ∃ pace, σ.source = .replayIdle pace

theorem inv_main (queue : BoundedRawQueue RawItem) (mode : Mode) : Inv (main queue mode) [] (main queue mode) := by
  cases mode with
  | live recorder =>
    refine ⟨trivial, ?_, ?_, ?_, ?_, ?_, ?_⟩
    · rintro pc ⟨⟩
    · intro _
      exact ⟨rfl, rfl, by rintro ⟨⟩, by simp⟩
    · rintro pace (same | ⟨pc, same⟩) <;> cases same
    · rintro ⟨⟩
    · rintro pace ⟨⟩
    · exact fun _ => .inl rfl
  | replay pace =>
    refine ⟨trivial, ?_, ?_, ?_, ?_, ?_, ?_⟩
    · rintro pc ⟨⟩
    · rintro ⟨⟩
    · exact fun _ _ => rfl
    · rintro ⟨⟩
    · rintro pace' ⟨⟩
    · exact fun _ => .inr ⟨pace, rfl⟩

theorem Inv.beside (inv : Inv σ₀ labels σ) (other : label ≠ .source (.put .shutdown)) (source : σ'.source = σ.source)
    (ready : σ'.ready = σ.ready) (bound : σ'.boundAddress = σ.boundAddress) (stop : σ.stop = true → σ'.stop = true)
    (watch : σ'.watchdog.Agrees σ'.ready σ'.stop σ'.boundAddress)
    (present : σ'.watchdog = .absent ↔ σ.watchdog = .absent)
    (queue : RawItem.shutdown ∈ σ.queue.items ∨ ¬ σ.consumer.Looping →
      RawItem.shutdown ∈ σ'.queue.items ∨ ¬ σ'.consumer.Looping)
    (idle : σ'.consumer = .idle → σ.consumer = .idle) : Inv σ₀ (labels ++ [label]) σ' := by
  have fresh : Label.source (.put .shutdown) ∉ labels → Label.source (.put .shutdown) ∉ labels ++ [label] := by
    intro absent member
    rcases List.mem_append.mp member with earlier | here
    · exact absent earlier
    · exact other (List.mem_singleton.mp here).symm
  refine ⟨watch, ?_, ?_, ?_, ?_, ?_, ?_⟩
  · intro pc at'
    obtain ⟨agrees, guarded, silent⟩ := inv.live pc (source.symm.trans at')
    rw [ready, bound]
    exact ⟨agrees, fun absent => guarded (present.mp absent), fresh silent⟩
  · intro at'
    obtain ⟨unready, unbound, guarded, silent⟩ := inv.liveIdle (source.symm.trans at')
    exact ⟨ready.trans unready, bound.trans unbound, fun absent => guarded (present.mp absent), fresh silent⟩
  · intro pace at'
    rw [source] at at'
    exact present.mpr (inv.replay pace at')
  · intro at'
    rw [ready, bound]
    rcases inv.ended (source.symm.trans at') with stopped | unbound | fell
    · exact .inl (stop stopped)
    · exact .inr (.inl unbound)
    · exact .inr (.inr (fell.later label))
  · intro pace at'
    obtain ⟨put, kept⟩ := inv.replayed pace (source.symm.trans at')
    exact ⟨List.mem_append_left _ put, queue kept⟩
  · intro at'
    rw [source]
    exact inv.unstarted (idle at')

theorem stepSource_cases {action : SourceAction} (stepped : σ.stepSource action = some σ') :
    ∃ source τ, σ.source.step action = some source ∧ σ.perform action = some τ ∧ σ' = { τ with source := source } := by
  obtain ⟨source, moved, rest⟩ := Option.bind_eq_some_iff.mp stepped
  obtain ⟨τ, performed, same⟩ := Option.map_eq_some_iff.mp rest
  exact ⟨source, τ, moved, performed, same.symm⟩

theorem Inv.sourceLive (inv : Inv σ₀ labels σ) (ran : runs step σ₀ labels = some σ) {pc pc' : LivePc}
    {action : SourceAction} {τ : Threads} (source : σ.source = .live pc) (moved : pc.step action = some pc')
    (performed : σ.perform action = some τ) :
    Inv σ₀ (labels ++ [.source action]) { τ with source := .live pc' } := by
  obtain ⟨agrees, guarded, silent⟩ := inv.live pc source
  obtain ⟨stop, watchdog, consumer, -, ready, bound, -⟩ := perform_frame performed
  have settled := agrees.step moved performed
  refine ⟨?_, ?_, ?_, ?_, ?_, ?_, ?_⟩
  · show τ.watchdog.Agrees τ.ready τ.stop τ.boundAddress
    rw [watchdog]
    refine inv.watch.frame ?_ (fun stopped => stop.trans stopped) ?_
    · intro wasReady
      rcases ready with same | ⟨-, set⟩
      · exact same.trans wasReady
      · exact set
    · rcases bound with same | ⟨addr, rfl, -⟩
      · exact .inl same
      · rw [LivePc.step_bind moved] at agrees
        exact .inr agrees.1
  · rintro pc'' ⟨⟩
    refine ⟨settled, ?_, ?_⟩
    · show τ.watchdog ≠ .absent
      rw [watchdog]
      exact guarded
    · intro member
      rcases List.mem_append.mp member with earlier | here
      · exact silent earlier
      · have same : Label.source (.put .shutdown) = .source action := List.mem_singleton.mp here
        cases same
        exact LivePc.step_puts moved rfl
  · rintro ⟨⟩
  · rintro pace (same | ⟨pc, same⟩) <;> cases same
  · rintro ⟨⟩
    rcases LivePc.ends source agrees moved performed with stopped | announced | fatal
    · exact .inl (stop.trans stopped)
    · exact .inr (.inl announced)
    · exact .inr (.inr ⟨labels, .source action, [], σ, rfl, ran, fatal⟩)
  · rintro pace ⟨⟩
  · intro idle
    change τ.consumer = .idle at idle
    rw [consumer] at idle
    rcases inv.unstarted idle with same | ⟨pace, same⟩ <;> rw [source] at same <;> cases same

theorem Inv.sourceReplay (inv : Inv σ₀ labels σ) {pace : Pace} {pc pc' : ReplayPc} {action : SourceAction}
    {τ : Threads} (source : σ.source = .replay pace pc) (moved : pc.step pace action = some pc')
    (performed : σ.perform action = some τ) :
    Inv σ₀ (labels ++ [.source action]) { τ with source := .replay pace pc' } := by
  have unguarded := inv.replay pace (.inr ⟨pc, source⟩)
  obtain ⟨-, watchdog, consumer, -, -, -, queue⟩ := perform_frame performed
  refine ⟨?_, ?_, ?_, ?_, ?_, ?_, ?_⟩
  · show τ.watchdog.Agrees _ _ _
    rw [watchdog, unguarded]
    trivial
  · rintro pc'' ⟨⟩
  · rintro ⟨⟩
  · intro _ _
    exact watchdog.trans unguarded
  · rintro ⟨⟩
  · rintro pace' ⟨⟩
    -- the last step of a replay is the put of SHUTDOWN
    obtain ⟨-, kind⟩ := ReplayPc.step_puts moved
    rcases kind with ⟨raw, -, more⟩ | ⟨item, -⟩ | ⟨-, more⟩
    · exact absurd rfl more
    · have put : action = .put .shutdown := by
        cases action <;> cases item
        rfl
      subst put
      cases performed
      exact ⟨by simp, .inl (BoundedRawQueue.mem_put ..)⟩
    · exact absurd rfl more
  · intro idle
    change τ.consumer = .idle at idle
    rw [consumer] at idle
    rcases inv.unstarted idle with same | ⟨pace, same⟩ <;> rw [source] at same <;> cases same

theorem Inv.watchdog (inv : Inv σ₀ labels σ) (stepped : σ.stepWatchdog = some σ') :
    Inv σ₀ (labels ++ [.watchdog]) σ' := by
  have watch := inv.watch
  unfold stepWatchdog at stepped
  split at stepped
  case h_1 waiting =>
    split at stepped
    · rename_i ready
      cases stepped
      exact inv.beside (by simp) rfl rfl rfl id ready (by simp [waiting]) id id
    · cases stepped
  case h_2 woken =>
    rw [woken] at watch
    split at stepped
    · rename_i unbound
      cases stepped
      exact inv.beside (by simp) rfl rfl rfl id ⟨watch, unbound⟩ (by simp [woken]) id id
    · rename_i bound
      cases stepped
      exact inv.beside (by simp) rfl rfl rfl id ⟨watch, .inr bound⟩ (by simp [woken]) id id
  case h_3 stopping =>
    rw [stopping] at watch
    cases stepped
    exact inv.beside (by simp) rfl rfl rfl (fun _ => rfl) ⟨watch.1, .inl rfl⟩ (by simp [stopping]) id id
  case h_4 => cases stepped

theorem Inv.start (inv : Inv σ₀ labels σ) (idle : σ.consumer = .idle) :
    Inv σ₀ (labels ++ [.consumer .start]) { σ with source := σ.source.start, consumer := .checking } := by
  rcases inv.unstarted idle with source | ⟨pace, source⟩
  · obtain ⟨unready, unbound, guarded, silent⟩ := inv.liveIdle source
    rw [source]
    refine ⟨inv.watch, ?_, ?_, ?_, ?_, ?_, ?_⟩
    · rintro pc ⟨⟩
      exact ⟨⟨unready, unbound⟩, guarded, by simpa using silent⟩
    · rintro ⟨⟩
    · rintro pace (same | ⟨pc, same⟩) <;> cases same
    · rintro ⟨⟩
    · rintro pace ⟨⟩
    · rintro ⟨⟩
  · have unguarded := inv.replay pace (.inl source)
    rw [source]
    refine ⟨inv.watch, ?_, ?_, ?_, ?_, ?_, ?_⟩
    · rintro pc ⟨⟩
    · rintro ⟨⟩
    · exact fun _ _ => unguarded
    · rintro ⟨⟩
    · rintro pace' ⟨⟩
    · rintro ⟨⟩

theorem Inv.moves (inv : Inv σ₀ labels σ) (action : RunAction) {pc : RunPc} (again : pc.Looping → σ.consumer.Looping)
    (going : pc ≠ .idle) : Inv σ₀ (labels ++ [.consumer action]) { σ with consumer := pc } :=
  inv.beside (by simp) rfl rfl rfl id inv.watch Iff.rfl
    (fun kept => kept.imp_right fun outside inside => outside (again inside)) fun idle => absurd idle going

theorem Inv.get (inv : Inv σ₀ labels σ) (getting : σ.consumer = .getting) :
    Inv σ₀ (labels ++ [.consumer .get]) { σ with
      queue := σ.queue.get.2
      consumer := match σ.queue.get.1 with
        | none => .handling none
        | some .shutdown => .flushing
        | some (.datagram raw) => .handling (some raw) } := by
  refine inv.beside (by simp) rfl rfl rfl id inv.watch Iff.rfl ?_ ?_
  · intro kept
    have inside : RawItem.shutdown ∈ σ.queue.items := by
      rcases kept with inside | outside
      · exact inside
      · exact absurd (.inr (.inl getting)) outside
    show RawItem.shutdown ∈ σ.queue.items.tail ∨ ¬ RunPc.Looping (match σ.queue.items.head? with
      | none => .handling none
      | some .shutdown => .flushing
      | some (.datagram raw) => .handling (some raw))
    cases items : σ.queue.items with
    | nil =>
      rw [items] at inside
      cases inside
    | cons oldest rest =>
      rw [items] at inside
      cases oldest with
      | shutdown => exact .inr (by simp [RunPc.Looping])
      | datagram raw =>
        rcases List.mem_cons.mp inside with same | later
        · cases same
        · exact .inl later
  · intro idle
    dsimp only at idle
    split at idle <;> cases idle

theorem Inv.consumer (inv : Inv σ₀ labels σ) {action : RunAction} (stepped : σ.stepConsumer action = some σ') :
    Inv σ₀ (labels ++ [.consumer action]) σ' := by
  cases action with
  | start =>
    simp only [stepConsumer] at stepped
    split at stepped
    · rename_i idle
      cases stepped
      exact inv.start idle
    · cases stepped
  | isSet set =>
    simp only [stepConsumer] at stepped
    split at stepped
    · rename_i checking
      cases stepped
      exact inv.moves _ (fun _ => .inl checking.1) (by cases set <;> simp)
    · cases stepped
  | get =>
    simp only [stepConsumer] at stepped
    split at stepped
    · rename_i getting
      cases stepped
      exact inv.get getting
    · cases stepped
  | handle raised =>
    simp only [stepConsumer] at stepped
    split at stepped
    · rename_i item handling
      cases stepped
      exact inv.moves _ (fun _ => .inr (.inr ⟨item, handling⟩)) (by cases raised <;> simp)
    · cases stepped
  | interrupt =>
    simp only [stepConsumer] at stepped
    split at stepped
    · cases stepped
      exact inv.moves _ (by simp [RunPc.Looping]) (by simp)
    · cases stepped
      exact inv.moves _ (by simp [RunPc.Looping]) (by simp)
    · cases stepped
      exact inv.moves _ (by simp [RunPc.Looping]) (by simp)
    · cases stepped
  | flushAll raised =>
    simp only [stepConsumer] at stepped
    split at stepped
    · cases stepped
      exact inv.moves _ (by simp [RunPc.Looping]) (by simp)
    · cases stepped
  | stopSource =>
    simp only [stepConsumer] at stepped
    split at stepped
    · cases stepped
      exact inv.beside (by simp) rfl rfl rfl (fun _ => rfl) (inv.watch.frame id (fun _ => rfl) (.inl rfl)) Iff.rfl
        (fun _ => .inr (by simp [RunPc.Looping])) (by simp)
    · cases stepped

theorem inv_runs {queue : BoundedRawQueue RawItem} {mode : Mode}
    (ran : runs step (main queue mode) labels = some σ) : Inv (main queue mode) labels σ := by
  refine runs_invariant (Inv (main queue mode)) (inv_main queue mode) ?_ ran
  intro labels σ label σ' ran inv stepped
  cases label with
  | source action =>
    obtain ⟨source', τ, moved, performed, rfl⟩ := stepSource_cases stepped
    cases source : σ.source with
    | liveIdle =>
      rw [source] at moved
      cases moved
    | replayIdle pace =>
      rw [source] at moved
      cases moved
    | live pc =>
      rw [source] at moved
      obtain ⟨pc', moved', rfl⟩ := Option.map_eq_some_iff.mp moved
      exact inv.sourceLive ran source moved' performed
    | replay pace pc =>
      rw [source] at moved
      obtain ⟨pc', moved', rfl⟩ := Option.map_eq_some_iff.mp moved
      exact inv.sourceReplay source moved' performed
  | watchdog => exact inv.watchdog stepped
  | consumer action => exact inv.consumer stepped

def WatchdogStops (σ : Threads) : Prop :=
  σ.watchdog ≠ .finished ∧
    ∃ n τ, runs step σ (List.replicate n .watchdog) = some τ ∧ τ.stop = true

/-- When Thread A has ended, the stop Event is set, SHUTDOWN has been put, or the watchdog will set the Event;
    and a loop that Thread B is still in has one of these to end it. -/
structure Signalled (σ : Threads) (labels : List Label) : Prop where
  ended : σ.source.Terminated →
    σ.stop = true ∨ Label.source (.put .shutdown) ∈ labels ∨ σ.WatchdogStops
  loop : σ.source.Terminated → σ.consumer.Looping →
    σ.stop = true ∨ RawItem.shutdown ∈ σ.queue.items ∨ σ.WatchdogStops

theorem watchdogStops_of (agrees : σ.watchdog.Agrees σ.ready σ.stop σ.boundAddress) (guarded : σ.watchdog ≠ .absent)
    (unbound : σ.boundAddress = none) (ready : σ.ready = true) : σ.stop = true ∨ σ.WatchdogStops := by
  cases watchdog : σ.watchdog with
  | absent => exact absurd watchdog guarded
  | waiting =>
    refine .inr ⟨by simp [watchdog], 3, { σ with bindFailed := true, stop := true, watchdog := .finished }, ?_, rfl⟩
    simp [List.replicate, runs, step, stepWatchdog, watchdog, ready, unbound]
  | woken =>
    refine .inr ⟨by simp [watchdog], 2, { σ with bindFailed := true, stop := true, watchdog := .finished }, ?_, rfl⟩
    simp [List.replicate, runs, step, stepWatchdog, watchdog, unbound]
  | stopping =>
    refine .inr ⟨by simp [watchdog], 1, { σ with stop := true, watchdog := .finished }, ?_, rfl⟩
    simp [List.replicate, runs, step, stepWatchdog, watchdog]
  | finished =>
    rw [watchdog] at agrees
    rcases agrees.2 with stopped | bound
    · exact .inl stopped
    · exact absurd unbound bound

theorem Inv.signalled (inv : Inv σ₀ labels σ) (safe : ¬ Fell σ₀ labels) : σ.Signalled labels := by
  have live : σ.source = .live .terminated → σ.stop = true ∨ σ.WatchdogStops := by
    intro ended
    obtain ⟨-, guarded, -⟩ := inv.live _ ended
    rcases inv.ended ended with stopped | ⟨unbound, ready⟩ | fell
    · exact .inl stopped
    · exact watchdogStops_of inv.watch guarded unbound ready
    · exact absurd fell safe
  constructor
  · rintro (ended | ⟨pace, ended⟩)
    · exact (live ended).imp_right .inr
    · exact .inr (.inl (inv.replayed pace ended).1)
  · rintro (ended | ⟨pace, ended⟩) looping
    · exact (live ended).imp_right .inr
    · rcases (inv.replayed pace ended).2 with inside | outside
      · exact .inr (.inl inside)
      · exact absurd looping outside

/-- The watchdog will not set the stop Event: it still waits, or there is an address to find. -/
structure Unheeded (σ : Threads) : Prop where
  watch : σ.watchdog.Agrees σ.ready σ.stop σ.boundAddress
  unstopped : σ.stop = false
  useless : σ.ready = false ∨ σ.boundAddress ≠ none

theorem Unheeded.step (unheeded : σ.Unheeded) (stepped : σ.stepWatchdog = some σ') : σ'.Unheeded := by
  obtain ⟨watch, unstopped, useless⟩ := unheeded
  unfold stepWatchdog at stepped
  split at stepped
  case h_1 waiting =>
    split at stepped
    · rename_i ready
      cases stepped
      exact ⟨ready, unstopped, useless⟩
    · cases stepped
  case h_2 woken =>
    rw [woken] at watch
    change σ.ready = true at watch
    have bound : σ.boundAddress ≠ none := useless.resolve_left (by simp [watch])
    rw [if_neg bound] at stepped
    cases stepped
    exact ⟨⟨watch, .inr bound⟩, unstopped, .inr bound⟩
  case h_3 stopping =>
    rw [stopping] at watch
    obtain ⟨ready, unbound⟩ := watch
    rcases useless with unready | bound
    · rw [ready] at unready
      cases unready
    · exact absurd unbound bound
  case h_4 => cases stepped

theorem Unheeded.not_watchdogStops (unheeded : σ.Unheeded) : ¬ σ.WatchdogStops := by
  rintro ⟨-, n, τ, ran, stopped⟩
  have kept : τ.Unheeded := by
    induction n generalizing σ with
    | zero =>
      cases ran
      exact unheeded
    | succ n ih =>
      rw [List.replicate_succ, runs] at ran
      obtain ⟨σ', stepped, ran'⟩ := Option.bind_eq_some_iff.mp ran
      exact ih (unheeded.step stepped) ran'
  rw [kept.unstopped] at stopped
  cases stopped

theorem Inv.fatal (inv : Inv σ₀ labels σ) (fatal : σ.Fatal label) :
    ∃ τ, σ.step label = some τ ∧ ¬ τ.Signalled (labels ++ [label]) := by
  cases label with
  | watchdog => cases fatal
  | consumer action => cases fatal
  | source action =>
    have missed : ∀ τ : Threads, τ.source = .live .terminated → τ.stop = false →
        Label.source (.put .shutdown) ∉ labels → action ≠ .put .shutdown → ¬ τ.WatchdogStops →
        ¬ τ.Signalled (labels ++ [.source action]) := by
      intro τ ended unstopped silent other idle signalled
      rcases signalled.ended (.inl ended) with stopped | put | stops
      · rw [unstopped] at stopped
        cases stopped
      · rcases List.mem_append.mp put with earlier | here
        · exact silent earlier
        · have same : Label.source (.put .shutdown) = .source action := List.mem_singleton.mp here
          cases same
          exact other rfl
      · exact idle stops
    obtain ⟨unstopped, ⟨source, rfl⟩ | ⟨source, rfl⟩ | ⟨source, rfl, bound⟩⟩ := fatal
    · obtain ⟨agrees, -, silent⟩ := inv.live _ source
      refine ⟨{ σ with source := .live .terminated }, ?_, ?_⟩
      · simp [step, stepSource, source, SourceThread.step, LivePc.step, perform]
      · exact missed _ rfl unstopped silent (by simp) (Unheeded.not_watchdogStops ⟨inv.watch, unstopped, .inl agrees.1⟩)
    · obtain ⟨agrees, -, silent⟩ := inv.live _ source
      refine ⟨{ σ with source := .live .terminated }, ?_, ?_⟩
      · simp [step, stepSource, source, SourceThread.step, LivePc.step, perform]
      · exact missed _ rfl unstopped silent (by simp) (Unheeded.not_watchdogStops ⟨inv.watch, unstopped, .inr agrees.2⟩)
    · obtain ⟨-, -, silent⟩ := inv.live _ source
      refine ⟨{ σ with failed := true, source := .live .terminated }, ?_, ?_⟩
      · simp [step, stepSource, source, SourceThread.step, LivePc.step, perform]
      · exact missed _ rfl unstopped silent (by simp) (Unheeded.not_watchdogStops ⟨inv.watch, unstopped, .inr bound⟩)

end Threads

open Threads

/-- The end of the source reaches the consumer in every state of a run exactly when the source never ends,
    with the stop Event not set, because creating its socket or receiving raised. -/
theorem dead_source_signalled_iff (queue : BoundedRawQueue RawItem) (mode : Mode) (labels : List Label) :
    (∀ done rest σ, labels = done ++ rest → runs step (main queue mode) done = some σ → σ.Signalled done) ↔
      ∀ done label rest σ, labels = done ++ label :: rest → runs step (main queue mode) done = some σ →
        ¬ σ.Fatal label := by
  constructor
  · rintro signalled done label rest σ rfl ran fatal
    obtain ⟨τ, stepped, missed⟩ := (inv_runs ran).fatal fatal
    apply missed
    refine signalled (done ++ [label]) rest τ (by simp) ?_
    rw [runs_append, ran]
    simp [runs, stepped]
  · rintro safe done rest σ rfl ran
    apply (inv_runs ran).signalled
    rintro ⟨earlier, label, later, τ, rfl, ran', fatal⟩
    exact safe earlier label (later ++ rest) τ (by simp) ran' fatal

def brokenReceive : List Label :=
  [.consumer .start, .source (.socket false), .source (.bind (.ok ("0.0.0.0", 4991))), .source .setReady, .watchdog,
    .watchdog, .source (.isSet false), .source (.recvfrom (.raised .osError)), .source .setFailed]

def stalled (queue : BoundedRawQueue RawItem) : Threads where
  stop := false
  queue := queue
  ready := true
  boundAddress := some ("0.0.0.0", 4991)
  failed := true
  recorder := none
  bindFailed := false
  source := .live .terminated
  watchdog := .finished
  consumer := .checking

def pollTurn : List Label := [.consumer (.isSet false), .consumer .get, .consumer (.handle false)]

theorem stalled_unheeded (queue : BoundedRawQueue RawItem) : (stalled queue).Unheeded :=
  ⟨⟨rfl, .inr nofun⟩, rfl, .inr nofun⟩

theorem runs_pollTurn {queue : BoundedRawQueue RawItem} (empty : queue.items = []) :
    runs step (stalled queue) pollTurn = some (stalled queue) := by
  obtain ⟨maxlen, items, dropped, positive, bounded⟩ := queue
  cases empty
  rfl

/-- After it Thread A has ended, nothing tells Thread B so, and each of its turns leads back to where it began. -/
theorem broken_receive_stalls :
    ∃ queue, BoundedRawQueue.new 4096 = .ok queue ∧
      ∃ σ, runs step (main queue (.live none)) brokenReceive = some σ ∧ σ.source.Terminated ∧ σ.consumer.Looping ∧
        ¬ σ.Signalled brokenReceive ∧ ∀ n, runs step σ (List.replicate n pollTurn).flatten = some σ := by
  let queue : BoundedRawQueue RawItem := ⟨4096, [], 0, by decide, by decide⟩
  refine ⟨queue, rfl, stalled queue, rfl, .inl rfl, .inl rfl, ?_, ?_⟩
  · intro signalled
    rcases signalled.ended (.inl rfl) with stopped | put | stops
    · cases stopped
    · simp [brokenReceive] at put
    · exact (stalled_unheeded queue).not_watchdogStops stops
  · intro n
    induction n with
    | zero => rfl
    | succ n ih =>
      rw [List.replicate_succ, List.flatten_cons, runs_append, runs_pollTurn rfl]
      exact ih

end Sceptre
