import Sceptre.Foundation.Variant
import Sceptre.Threads.Capture
import Sceptre.Threads.Wakeup

namespace Sceptre

open Foundation

def LivePc.unwinding : LivePc → Nat
  | .creating => 4
  | .binding => 3
  | .announcing _ => 2
  | .checking => 1
  | .receiving => 4
  | .putting _ _ => 3
  | .appending _ _ => 2
  | .failing => 1
  | .terminated => 0

def LivePc.late : LivePc → Nat
  | .receiving => 1
  | .putting _ _ => 1
  | _ => 0

def ReplayPc.unwinding : ReplayPc → Nat
  | .loading => 3
  | .checking _ _ _ => 2
  | .waiting _ _ _ _ => 2
  | .putting _ _ _ => 3
  | .failing => 2
  | .ending => 1
  | .terminated => 0

def ReplayPc.late : ReplayPc → Nat
  | .putting _ _ _ => 1
  | _ => 0

def SourceThread.unwinding : SourceThread → Nat
  | .liveIdle => 4
  | .replayIdle _ => 3
  | .live pc => pc.unwinding
  | .replay _ pc => pc.unwinding

def SourceThread.late : SourceThread → Nat
  | .live pc => pc.late
  | .replay _ pc => pc.late
  | _ => 0

def WatchPc.unwinding : WatchPc → Nat
  | .waiting => 3
  | .woken => 2
  | .stopping => 1
  | _ => 0

def RunPc.unwinding : RunPc → Nat
  | .idle => 4
  | .checking => 3
  | .getting => 5
  | .handling _ => 4
  | .flushing => 2
  | .stopping => 1
  | .finished => 0

def RunPc.late : RunPc → Nat
  | .getting => 1
  | .handling _ => 1
  | _ => 0

def Label.putsDatagram : Label → Bool
  | .source (.put (.datagram _)) => true
  | _ => false

def Label.handles : Label → Bool
  | .consumer (.handle _) => true
  | _ => false

def SourceAction.answer? : SourceAction → Option Bool
  | .isSet set => some set
  | .wait answer => some (answer.getD false)
  | _ => none

def SourceAction.SeesStop (action : SourceAction) : Prop := ∀ set ∈ action.answer?, set = true

theorem LivePc.step_unwinds {pc pc' : LivePc} {action : SourceAction} (stepped : pc.step action = some pc')
    (sees : action.SeesStop) :
    pc'.unwinding < pc.unwinding ∧
      pc'.late + (if (Label.source action).putsDatagram then 1 else 0) ≤ pc.late := by
  unfold LivePc.step at stepped
  split at stepped
  case h_1 raised => cases raised <;> (cases stepped; decide)
  case h_6 set =>
    cases sees set rfl
    cases stepped
    decide
  case h_11 =>
    split at stepped
    · rename_i same
      cases stepped
      subst same
      exact ⟨Nat.lt_succ_self _, Nat.le_refl _⟩
    · cases stepped
  case h_12 =>
    split at stepped
    · cases stepped
      exact ⟨Nat.lt_succ_self _, Nat.le_refl _⟩
    · cases stepped
  case h_14 => cases stepped
  all_goals
    cases stepped
    exact ⟨by simp only [LivePc.unwinding]; omega, by simp [LivePc.late, Label.putsDatagram]⟩

theorem ReplayPc.next_unwinds (prev : Option Int) (packets : List CaptureEntry) :
    (ReplayPc.next prev packets).unwinding ≤ 2 ∧ (ReplayPc.next prev packets).late = 0 := by
  cases packets with
  | nil => exact ⟨Nat.le_succ _, rfl⟩
  | cons entry rest => exact ⟨Nat.le_refl _, rfl⟩

theorem ReplayPc.step_unwinds {pace : Pace} {pc pc' : ReplayPc} {action : SourceAction}
    (stepped : ReplayPc.step pace pc action = some pc') (sees : action.SeesStop) :
    pc'.unwinding < pc.unwinding ∧
      pc'.late + (if (Label.source action).putsDatagram then 1 else 0) ≤ pc.late := by
  have asked : ∀ unset, action.answer? = some unset → unset ≠ false := by
    intro unset told off
    rw [sees unset told] at off
    cases off
  cases ReplayPc.step_stepped stepped with
  | loaded packets =>
    obtain ⟨fewer, none⟩ := ReplayPc.next_unwinds none packets
    exact ⟨Nat.lt_succ_of_le fewer, by rw [none]; exact Nat.le_refl _⟩
  | put tsNs payload rest =>
    obtain ⟨fewer, none⟩ := ReplayPc.next_unwinds (some tsNs) rest
    exact ⟨Nat.lt_succ_of_le fewer, by rw [none]; exact Nat.le_refl _⟩
  | timeless => exact absurd rfl (asked _ rfl)
  | overflow => exact absurd rfl (asked _ rfl)
  | early => exact absurd rfl (asked _ rfl)
  | due => exact absurd rfl (asked _ rfl)
  | waited => exact absurd rfl (asked _ rfl)
  | refused => exact absurd rfl (asked _ rfl)
  | _ => exact ⟨by simp [ReplayPc.unwinding], by simp [ReplayPc.late, Label.putsDatagram]⟩

theorem SourceThread.step_unwinds {source source' : SourceThread} {action : SourceAction}
    (stepped : source.step action = some source') (sees : action.SeesStop) :
    source'.unwinding < source.unwinding ∧
      source'.late + (if (Label.source action).putsDatagram then 1 else 0) ≤ source.late := by
  cases source with
  | liveIdle => cases stepped
  | replayIdle pace => cases stepped
  | live pc =>
    obtain ⟨pc', moved, rfl⟩ := Option.map_eq_some_iff.mp stepped
    exact pc.step_unwinds moved sees
  | replay pace pc =>
    obtain ⟨pc', moved, rfl⟩ := Option.map_eq_some_iff.mp stepped
    exact ReplayPc.step_unwinds moved sees

theorem SourceThread.start_unwinds (source : SourceThread) :
    source.start.unwinding = source.unwinding ∧ source.start.late = source.late := by
  cases source <;> exact ⟨rfl, rfl⟩

theorem LivePc.enabled {pc : LivePc} (alive : pc ≠ .terminated) (stop : Bool) :
    ∃ action pc', pc.step action = some pc' ∧ ∀ set ∈ action.answer?, set = stop := by
  cases pc with
  | creating => exact ⟨.socket false, _, rfl, by simp [SourceAction.answer?]⟩
  | binding => exact ⟨.bind (.error .osError), _, rfl, by simp [SourceAction.answer?]⟩
  | announcing result =>
    rcases result with exc | addr
    · cases exc <;> exact ⟨.setReady, _, rfl, by simp [SourceAction.answer?]⟩
    · exact ⟨.setReady, _, rfl, by simp [SourceAction.answer?]⟩
  | checking => exact ⟨.isSet stop, _, rfl, by simp [SourceAction.answer?]⟩
  | receiving => exact ⟨.recvfrom .timeout, _, rfl, by simp [SourceAction.answer?]⟩
  | putting data addr => exact ⟨.put (.datagram data), _, if_pos rfl, by simp [SourceAction.answer?]⟩
  | appending data addr => exact ⟨.append 0 addr data, _, if_pos ⟨rfl, rfl⟩, by simp [SourceAction.answer?]⟩
  | failing => exact ⟨.setFailed, _, rfl, by simp [SourceAction.answer?]⟩
  | terminated => exact absurd rfl alive

theorem ReplayPc.enabled_any (pace : Pace) {pc : ReplayPc} (alive : pc ≠ .terminated) (stop : Bool) :
    ∃ action pc', ReplayPc.step pace pc action = some pc' ∧ ∀ set ∈ action.answer?, set = stop := by
  cases stop with
  | false =>
    obtain ⟨action, pc', undisturbed, moved⟩ := ReplayPc.enabled pace [] alive
    refine ⟨action, pc', moved, ?_⟩
    rintro set told
    cases action with
    | isSet set' => cases told; exact undisturbed
    | wait answer =>
      cases told
      rcases answer with _ | _ | _
      · rfl
      · rfl
      · exact absurd rfl undisturbed
    | _ => cases told
  | true =>
    cases pc with
    | loading => exact ⟨.load none, _, rfl, by simp [SourceAction.answer?]⟩
    | checking entry rest prev => exact ⟨.isSet true, .ending, by rw [ReplayPc.step], by simp [SourceAction.answer?]⟩
    | waiting prev tsNs payload rest => exact ⟨.wait (some true), _, rfl, by simp [SourceAction.answer?]⟩
    | putting tsNs payload rest => exact ⟨.put (.datagram payload), _, if_pos rfl, by simp [SourceAction.answer?]⟩
    | failing => exact ⟨.setFailed, _, rfl, by simp [SourceAction.answer?]⟩
    | ending => exact ⟨.put .shutdown, _, rfl, by simp [SourceAction.answer?]⟩
    | terminated => exact absurd rfl alive

namespace Threads

variable {queue : BoundedRawQueue RawItem} {mode : Mode} {σ σ' : Threads} {labels : List Label} {label : Label}

def unwinding (σ : Threads) : Nat := σ.source.unwinding + σ.watchdog.unwinding + σ.consumer.unwinding

theorem perform_sees {action : SourceAction} (stop : σ.stop = true) (performed : σ.perform action = some σ') :
    action.SeesStop := by
  cases action with
  | isSet set =>
    rintro _ ⟨⟩
    exact (perform_isSet performed).1.trans stop
  | wait answer =>
    simp only [perform] at performed
    split at performed
    · rename_i same
      rintro _ ⟨⟩
      exact same.trans stop
    · cases performed
  | _ => rintro _ ⟨⟩

theorem perform_enabled {action : SourceAction}
    (answers : ∀ set ∈ action.answer?, set = σ.stop) : ∃ σ', σ.perform action = some σ' := by
  cases action with
  | isSet set => exact ⟨σ, if_pos (answers set rfl)⟩
  | wait answer => exact ⟨σ, if_pos (answers _ rfl)⟩
  | bind result => cases result <;> exact ⟨_, rfl⟩
  | _ => exact ⟨_, rfl⟩

theorem stepWatchdog_unwinds (stepped : σ.stepWatchdog = some σ') :
    σ'.watchdog.unwinding < σ.watchdog.unwinding ∧ (σ.stop = true → σ'.stop = true) := by
  simp only [stepWatchdog] at stepped
  split at stepped
  case h_1 waiting =>
    split at stepped <;> cases stepped
    exact ⟨by simp [WatchPc.unwinding, waiting], id⟩
  case h_2 woken => split at stepped <;> (cases stepped; exact ⟨by simp [WatchPc.unwinding, woken], id⟩)
  case h_3 stopping =>
    cases stepped
    exact ⟨by simp [WatchPc.unwinding, stopping], fun _ => rfl⟩
  case h_4 => cases stepped

theorem stop_kept (stop : σ.stop = true) (stepped : σ.step label = some σ') : σ'.stop = true := by
  cases label with
  | source action =>
    obtain ⟨source, τ, -, performed, rfl⟩ := stepSource_cases stepped
    exact (perform_frame performed).1.trans stop
  | watchdog => exact (stepWatchdog_unwinds stepped).2 stop
  | consumer action =>
    cases stepConsumer_consumed stepped with
    | stopSource => rfl
    | _ => exact stop

theorem consumed_unwinds {action : RunAction} (stop : σ.stop = true) (consumed : σ.Consumed action σ') :
    σ'.consumer.unwinding < σ.consumer.unwinding ∧
      σ'.consumer.late + (if (Label.consumer action).handles then 1 else 0) ≤ σ.consumer.late := by
  cases consumed with
  | start idle => simp [RunPc.unwinding, Label.handles, RunPc.late, idle]
  | stopped checking => simp [RunPc.unwinding, Label.handles, RunPc.late, checking]
  | running checking going =>
    rw [stop] at going
    cases going
  | timeout getting => simp [RunPc.unwinding, Label.handles, RunPc.late, getting]
  | shutdown getting => simp [RunPc.unwinding, Label.handles, RunPc.late, getting]
  | datagram getting raw => simp [RunPc.unwinding, Label.handles, RunPc.late, getting]
  | handle raised item handling => cases raised <;> simp [RunPc.unwinding, Label.handles, RunPc.late, handling]
  | interrupt looping =>
    rcases looping with here | here | ⟨item, here⟩ <;> simp [RunPc.unwinding, Label.handles, RunPc.late, here]
  | flushAll raised flushing => simp [RunPc.unwinding, Label.handles, RunPc.late, flushing]
  | stopSource stopping => simp [RunPc.unwinding, Label.handles, RunPc.late, stopping]

theorem step_unwinds (stop : σ.stop = true) (stepped : σ.step label = some σ') :
    σ'.unwinding < σ.unwinding ∧
      σ'.source.late + (if label.putsDatagram then 1 else 0) ≤ σ.source.late ∧
      σ'.consumer.late + (if label.handles then 1 else 0) ≤ σ.consumer.late := by
  cases label with
  | source action =>
    obtain ⟨source, τ, moved, performed, rfl⟩ := stepSource_cases stepped
    obtain ⟨-, watchdog, consumer, -⟩ := perform_frame performed
    obtain ⟨fewer, late⟩ := SourceThread.step_unwinds moved (perform_sees stop performed)
    refine ⟨?_, late, by rw [← consumer]; exact Nat.le_refl _⟩
    simp only [unwinding, watchdog, consumer]
    omega
  | watchdog =>
    obtain ⟨consumer, -, source, -⟩ := stepWatchdog_frame stepped
    have fewer := (stepWatchdog_unwinds stepped).1
    refine ⟨?_, by rw [source]; exact Nat.le_refl _, by rw [consumer]; exact Nat.le_refl _⟩
    simp only [unwinding, source, consumer]
    omega
  | consumer action =>
    have consumed := stepConsumer_consumed stepped
    obtain ⟨fewer, late⟩ := consumed_unwinds stop consumed
    have apart : σ'.watchdog = σ.watchdog ∧ σ'.source.unwinding = σ.source.unwinding ∧
      σ'.source.late = σ.source.late := by
      cases consumed with
      | start => exact ⟨rfl, σ.source.start_unwinds⟩
      | _ => exact ⟨rfl, rfl, rfl⟩
    obtain ⟨watchdog, same, puts⟩ := apart
    refine ⟨?_, by rw [puts]; exact Nat.le_refl _, late⟩
    simp only [unwinding, watchdog, same]
    omega

theorem unwinds : Pays step (fun σ => σ.stop = true) (fun _ => true) unwinding where
  kept _ _ _ stop stepped := stop_kept stop stepped
  paid _ _ _ stop stepped := (step_unwinds stop stepped).1

theorem unwinds_puts : Pays step (fun σ => σ.stop = true) Label.putsDatagram (fun σ => σ.source.late) where
  kept _ _ _ stop stepped := stop_kept stop stepped
  paid _ _ _ stop stepped := (step_unwinds stop stepped).2.1

theorem unwinds_handles : Pays step (fun σ => σ.stop = true) Label.handles (fun σ => σ.consumer.late) where
  kept _ _ _ stop stepped := stop_kept stop stepped
  paid _ _ _ stop stepped := (step_unwinds stop stepped).2.2

theorem unwinding_le (σ : Threads) : σ.unwinding ≤ 12 ∧ σ.source.late ≤ 1 ∧ σ.consumer.late ≤ 1 := by
  have source : σ.source.unwinding ≤ 4 ∧ σ.source.late ≤ 1 := by
    cases σ.source with
    | live pc => cases pc <;> simp [SourceThread.unwinding, SourceThread.late, LivePc.unwinding, LivePc.late]
    | replay pace pc => cases pc <;> simp [SourceThread.unwinding, SourceThread.late, ReplayPc.unwinding, ReplayPc.late]
    | _ => simp [SourceThread.unwinding, SourceThread.late]
  have consumer : σ.consumer.unwinding ≤ 5 ∧ σ.consumer.late ≤ 1 := by
    cases σ.consumer <;> simp [RunPc.unwinding, RunPc.late]
  have watchdog : σ.watchdog.unwinding ≤ 3 := by cases σ.watchdog <;> decide
  refine ⟨?_, source.2, consumer.2⟩
  simp only [unwinding]
  omega

def Started (σ : Threads) : Prop :=
  (σ.source = .liveIdle ∨ ∃ pace, σ.source = .replayIdle pace) → σ.consumer = .idle

theorem started_runs (ran : runs step (main queue mode) labels = some σ) : σ.Started := by
  refine runs_invariant (fun _ σ => σ.Started) (fun _ => rfl) ?_ ran
  intro labels σ label σ' _ started stepped idle
  cases label with
  | source action =>
    obtain ⟨source, τ, moved, performed, rfl⟩ := stepSource_cases stepped
    rcases idle with same | ⟨pace, same⟩
    · cases same
      cases source' : σ.source <;> simp [source', SourceThread.step] at moved
    · cases same
      cases source' : σ.source <;> simp [source', SourceThread.step] at moved
  | watchdog =>
    obtain ⟨consumer, -, source, -⟩ := stepWatchdog_frame stepped
    rw [source] at idle
    exact consumer.trans (started idle)
  | consumer action =>
    cases stepConsumer_consumed stepped with
    | start _ => cases source : σ.source <;> simp [source, SourceThread.start] at idle
    | stopped here => rw [started idle] at here; cases here
    | running here => rw [started idle] at here; cases here
    | timeout here => rw [started idle] at here; cases here
    | shutdown here => rw [started idle] at here; cases here
    | datagram here => rw [started idle] at here; cases here
    | handle raised item here => rw [started idle] at here; cases here
    | interrupt looping => rw [started idle] at looping; simp [RunPc.Looping] at looping
    | flushAll raised here => rw [started idle] at here; cases here
    | stopSource here => rw [started idle] at here; cases here

theorem consumer_enabled (unfinished : σ.consumer ≠ .finished) : ∃ action, σ.step (.consumer action) ≠ none := by
  cases consumer : σ.consumer with
  | idle => exact ⟨.start, by simp [step, stepConsumer, consumer]⟩
  | checking => exact ⟨.isSet σ.stop, by simp [step, stepConsumer, consumer]⟩
  | getting => exact ⟨.get, by simp [step, stepConsumer, consumer]⟩
  | handling item => exact ⟨.handle false, by simp [step, stepConsumer, consumer]⟩
  | flushing => exact ⟨.flushAll false, by simp [step, stepConsumer, consumer]⟩
  | stopping => exact ⟨.stopSource, by simp [step, stepConsumer, consumer]⟩
  | finished => exact absurd consumer unfinished

theorem source_enabled (started : σ.Started) (begun : σ.consumer ≠ .idle) (alive : ¬ σ.source.Terminated) :
    ∃ action, σ.step (.source action) ≠ none := by
  have moves : ∃ action source, σ.source.step action = some source ∧
      ∀ set ∈ action.answer?, set = σ.stop := by
    cases source : σ.source with
    | liveIdle => exact absurd (started (.inl source)) begun
    | replayIdle pace => exact absurd (started (.inr ⟨pace, source⟩)) begun
    | live pc =>
      have going : pc ≠ .terminated := by
        rintro rfl
        exact alive (.inl source)
      obtain ⟨action, pc', moved, answers⟩ := LivePc.enabled going σ.stop
      exact ⟨action, .live pc', by rw [SourceThread.step, moved]; rfl, answers⟩
    | replay pace pc =>
      have going : pc ≠ .terminated := by
        rintro rfl
        exact alive (.inr ⟨pace, source⟩)
      obtain ⟨action, pc', moved, answers⟩ := ReplayPc.enabled_any pace going σ.stop
      exact ⟨action, .replay pace pc', by rw [SourceThread.step, moved]; rfl, answers⟩
  obtain ⟨action, source, moved, answers⟩ := moves
  obtain ⟨σ', performed⟩ := perform_enabled answers
  exact ⟨action, by simp [step, stepSource, moved, performed]⟩

theorem quiet_unwound (started : σ.Started) (quiet : ∀ label, σ.step label = none) :
    σ.source.Terminated ∧ σ.consumer = .finished := by
  have finished : σ.consumer = .finished := by
    by_contra unfinished
    obtain ⟨action, enabled⟩ := consumer_enabled unfinished
    exact enabled (quiet _)
  refine ⟨?_, finished⟩
  by_contra alive
  obtain ⟨action, enabled⟩ := source_enabled started (by rw [finished]; simp) alive
  exact enabled (quiet _)

end Threads

open Threads

/-- Once the stop Event is set, all threads together make at most twelve more steps, in which at most one more
    datagram is put and at most one handled; and however they are scheduled, they can only come to rest where Thread A
    has ended and `run` has returned. -/
theorem stop_unwinds (queue : BoundedRawQueue RawItem) (mode : Mode) (labels : List Label) (σ : Threads)
    (ran : runs step (main queue mode) labels = some σ) (stop : σ.stop = true) (rest : List Label) (σ' : Threads)
    (later : runs step σ rest = some σ') :
    rest.length ≤ 12 ∧ rest.countP Label.putsDatagram ≤ 1 ∧ rest.countP Label.handles ≤ 1 ∧ σ'.stop = true ∧
      ((∀ label, σ'.step label = none) → σ'.source.Terminated ∧ σ'.consumer = .finished) ∧
      ∃ more σ'', runs step σ' more = some σ'' ∧ σ''.source.Terminated ∧ σ''.consumer = .finished := by
  obtain ⟨all, puts, handles⟩ := σ.unwinding_le
  have whole : runs step (main queue mode) (labels ++ rest) = some σ' := by
    rw [runs_append, ran]
    exact later
  have stopped := (unwinds.runs stop later).1
  refine ⟨(unwinds.length_le stop later).trans all, (unwinds_puts.countP_le stop later).trans puts,
    (unwinds_handles.countP_le stop later).trans handles, stopped, quiet_unwound (started_runs whole), ?_⟩
  obtain ⟨more, σ'', settled, -, quiet⟩ := unwinds.settles stopped
  have final : runs step (main queue mode) (labels ++ rest ++ more) = some σ'' := by
    rw [runs_append, whole]
    exact settled
  exact ⟨more, σ'', settled, quiet_unwound (started_runs final) quiet⟩

def brokenBind : List Label :=
  [.consumer .start, .source (.socket false), .source (.bind (.error .osError)), .source .setReady,
    .watchdog, .watchdog, .watchdog]

def unbound (queue : BoundedRawQueue RawItem) : Threads where
  stop := true
  queue := queue
  ready := true
  boundAddress := none
  failed := false
  recorder := none
  bindFailed := true
  source := .live .failing
  watchdog := .finished
  consumer := .checking

def eightDeep : BoundedRawQueue RawItem := ⟨8, [], 0, by decide, by decide⟩

theorem stop_unwinds_unbound :
    ∃ more σ'', runs step (unbound eightDeep) more = some σ'' ∧ σ''.source.Terminated ∧ σ''.consumer = .finished :=
  (stop_unwinds eightDeep (.live none) brokenBind (unbound eightDeep) rfl rfl [] (unbound eightDeep) rfl).2.2.2.2.2

end Sceptre
