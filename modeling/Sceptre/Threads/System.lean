import Sceptre.Threads.Source

namespace Sceptre

open Foundation

inductive SourceThread where
  | liveIdle
  | replayIdle (pace : Pace)
  | live (pc : LivePc)
  | replay (pace : Pace) (pc : ReplayPc)
  deriving DecidableEq

def SourceThread.start : SourceThread → SourceThread
  | .liveIdle => .live .creating
  | .replayIdle pace => .replay pace .loading
  | running => running

def SourceThread.step : SourceThread → SourceAction → Option SourceThread
  | .live pc, action => (pc.step action).map .live
  | .replay pace pc, action => (pc.step pace action).map (.replay pace)
  | _, _ => none

def SourceThread.Terminated (t : SourceThread) : Prop := t = .live .terminated ∨ ∃ pace, t = .replay pace .terminated

inductive WatchPc where
  | absent
  | waiting
  | woken
  | stopping
  | finished
  deriving DecidableEq

/-- Thread B: where `Pipeline.run` is. `handling none` is the age poll after a timeout. -/
inductive RunPc where
  | idle
  | checking
  | getting
  | handling (item : Option Bytes)
  | flushing
  | stopping
  | finished
  deriving DecidableEq

def RunPc.Looping (pc : RunPc) : Prop := pc = .checking ∨ pc = .getting ∨ ∃ item, pc = .handling item

/-- A call of `Pipeline.run`; `interrupt` is a KeyboardInterrupt in the loop, and `raised` says that the calls
    on the interpreter and the router raised. -/
inductive RunAction where
  | start
  | isSet (set : Bool)
  | get
  | handle (raised : Bool)
  | interrupt
  | flushAll (raised : Bool)
  | stopSource
  deriving DecidableEq

structure Threads where
  stop : Bool
  queue : BoundedRawQueue RawItem
  ready : Bool
  boundAddress : Option Address
  failed : Bool
  recorder : Option Recorder
  bindFailed : Bool
  source : SourceThread
  watchdog : WatchPc
  consumer : RunPc

inductive Label where
  | source (action : SourceAction)
  | watchdog
  | consumer (action : RunAction)
  deriving DecidableEq

def Label.raises : Label → Bool
  | .consumer (.handle raised) => raised
  | .consumer (.flushAll raised) => raised
  | _ => false

inductive Mode where
  | live (recorder : Option Recorder)
  | replay (pace : Pace)
  deriving DecidableEq

namespace Threads

def main (queue : BoundedRawQueue RawItem) (mode : Mode) : Threads where
  stop := false
  queue := queue
  ready := false
  boundAddress := none
  failed := false
  recorder := match mode with
    | .live recorder => recorder
    | .replay _ => none
  bindFailed := false
  source := match mode with
    | .live _ => .liveIdle
    | .replay pace => .replayIdle pace
  watchdog := match mode with
    | .live _ => .waiting
    | .replay _ => .absent
  consumer := .idle

def perform (σ : Threads) : SourceAction → Option Threads
  | .socket _ => some σ
  | .bind (.ok addr) => some { σ with boundAddress := some addr }
  | .bind (.error _) => some σ
  | .setReady => some { σ with ready := true }
  | .isSet set => if set = σ.stop then some σ else none
  | .recvfrom _ => some σ
  | .put item => some { σ with queue := σ.queue.put item }
  | .append tsNs addr data => some { σ with recorder := σ.recorder.map fun r => (r.append tsNs addr data).2 }
  | .load _ => some σ
  | .wait answer => if answer.getD false = σ.stop then some σ else none
  | .setFailed => some { σ with failed := true }

def stepSource (σ : Threads) (action : SourceAction) : Option Threads :=
  (σ.source.step action).bind fun source => (σ.perform action).map fun σ' => { σ' with source := source }

def stepWatchdog (σ : Threads) : Option Threads :=
  match σ.watchdog with
  | .waiting => if σ.ready then some { σ with watchdog := .woken } else none
  | .woken =>
    if σ.boundAddress = none then some { σ with bindFailed := true, watchdog := .stopping }
    else some { σ with watchdog := .finished }
  | .stopping => some { σ with stop := true, watchdog := .finished }
  | _ => none

def stepConsumer (σ : Threads) : RunAction → Option Threads
  | .start => if σ.consumer = .idle then some { σ with source := σ.source.start, consumer := .checking } else none
  | .isSet set =>
    if σ.consumer = .checking ∧ set = σ.stop then some { σ with consumer := if set then .flushing else .getting }
    else none
  | .get =>
    if σ.consumer = .getting then
      some { σ with
        queue := σ.queue.get.2
        consumer := match σ.queue.get.1 with
          | none => .handling none
          | some .shutdown => .flushing
          | some (.datagram raw) => .handling (some raw) }
    else none
  | .handle raised =>
    match σ.consumer with
    | .handling _ => some { σ with consumer := if raised then .flushing else .checking }
    | _ => none
  | .interrupt =>
    match σ.consumer with
    | .checking => some { σ with consumer := .flushing }
    | .getting => some { σ with consumer := .flushing }
    | .handling _ => some { σ with consumer := .flushing }
    | _ => none
  | .flushAll _ => if σ.consumer = .flushing then some { σ with consumer := .stopping } else none
  | .stopSource => if σ.consumer = .stopping then some { σ with stop := true, consumer := .finished } else none

def step (σ : Threads) : Label → Option Threads
  | .source action => σ.stepSource action
  | .watchdog => σ.stepWatchdog
  | .consumer action => σ.stepConsumer action

variable {σ σ' : Threads}

theorem perform_frame {action : SourceAction} (performed : σ.perform action = some σ') :
    σ'.stop = σ.stop ∧ σ'.watchdog = σ.watchdog ∧ σ'.consumer = σ.consumer ∧ σ'.source = σ.source ∧
      (σ'.ready = σ.ready ∨ action = .setReady ∧ σ'.ready = true) ∧
      (σ'.boundAddress = σ.boundAddress ∨ ∃ addr, action = .bind (.ok addr) ∧ σ'.boundAddress = some addr) ∧
      (σ'.queue = σ.queue ∨ ∃ item, action = .put item ∧ σ'.queue = σ.queue.put item) := by
  cases action with
  | bind result =>
    cases result with
    | ok addr => cases performed; simp
    | error exc => cases performed; simp
  | isSet set =>
    simp only [perform] at performed
    split at performed
    · cases performed; simp
    · cases performed
  | wait answer =>
    simp only [perform] at performed
    split at performed
    · cases performed; simp
    · cases performed
  | socket raised => cases performed; simp
  | setReady => cases performed; simp
  | recvfrom received => cases performed; simp
  | put item => cases performed; simp
  | append tsNs addr data => cases performed; simp
  | load packets => cases performed; simp
  | setFailed => cases performed; simp

theorem perform_isSet {set : Bool} (performed : σ.perform (.isSet set) = some σ') : set = σ.stop ∧ σ' = σ := by
  simp only [perform] at performed
  split at performed
  · rename_i same
    cases performed
    exact ⟨same, rfl⟩
  · cases performed

theorem stepWatchdog_frame (stepped : σ.stepWatchdog = some σ') :
    σ'.consumer = σ.consumer ∧ σ'.queue = σ.queue ∧ σ'.source = σ.source ∧ σ'.recorder = σ.recorder := by
  simp only [stepWatchdog] at stepped
  split at stepped
  · split at stepped <;> cases stepped
    exact ⟨rfl, rfl, rfl, rfl⟩
  · split at stepped <;> (cases stepped; exact ⟨rfl, rfl, rfl, rfl⟩)
  · cases stepped
    exact ⟨rfl, rfl, rfl, rfl⟩
  · cases stepped

inductive Consumed (σ : Threads) : RunAction → Threads → Prop where
  | start (idle : σ.consumer = .idle) : Consumed σ .start { σ with source := σ.source.start, consumer := .checking }
  | stopped (checking : σ.consumer = .checking) (stop : σ.stop = true) :
      Consumed σ (.isSet true) { σ with consumer := .flushing }
  | running (checking : σ.consumer = .checking) (stop : σ.stop = false) :
      Consumed σ (.isSet false) { σ with consumer := .getting }
  | timeout (getting : σ.consumer = .getting) (got : σ.queue.get.1 = none) :
      Consumed σ .get { σ with queue := σ.queue.get.2, consumer := .handling none }
  | shutdown (getting : σ.consumer = .getting) (got : σ.queue.get.1 = some .shutdown) :
      Consumed σ .get { σ with queue := σ.queue.get.2, consumer := .flushing }
  | datagram (getting : σ.consumer = .getting) (raw : Bytes) (got : σ.queue.get.1 = some (.datagram raw)) :
      Consumed σ .get { σ with queue := σ.queue.get.2, consumer := .handling (some raw) }
  | handle (raised : Bool) (item : Option Bytes) (handling : σ.consumer = .handling item) :
      Consumed σ (.handle raised) { σ with consumer := if raised then .flushing else .checking }
  | interrupt (looping : σ.consumer.Looping) : Consumed σ .interrupt { σ with consumer := .flushing }
  | flushAll (raised : Bool) (flushing : σ.consumer = .flushing) :
      Consumed σ (.flushAll raised) { σ with consumer := .stopping }
  | stopSource (stopping : σ.consumer = .stopping) :
    Consumed σ .stopSource { σ with stop := true, consumer := .finished }

theorem stepConsumer_consumed {action : RunAction} (stepped : σ.stepConsumer action = some σ') :
    σ.Consumed action σ' := by
  cases action with
  | start =>
    simp only [stepConsumer] at stepped
    split at stepped <;> cases stepped
    exact .start ‹_›
  | isSet set =>
    simp only [stepConsumer] at stepped
    split at stepped <;> cases stepped
    obtain ⟨checking, same⟩ := ‹_ ∧ _›
    cases set
    · exact .running checking same.symm
    · exact .stopped checking same.symm
  | get =>
    simp only [stepConsumer] at stepped
    split at stepped <;> cases stepped
    cases got : σ.queue.get.1 with
    | none => exact .timeout ‹_› got
    | some item =>
      cases item with
      | shutdown => exact .shutdown ‹_› got
      | datagram raw => exact .datagram ‹_› raw got
  | handle raised =>
    simp only [stepConsumer] at stepped
    split at stepped <;> cases stepped
    exact .handle raised _ ‹_›
  | interrupt =>
    simp only [stepConsumer] at stepped
    split at stepped <;> cases stepped
    · exact .interrupt (.inl ‹_›)
    · exact .interrupt (.inr (.inl ‹_›))
    · exact .interrupt (.inr (.inr ⟨_, ‹_›⟩))
  | flushAll raised =>
    simp only [stepConsumer] at stepped
    split at stepped <;> cases stepped
    exact .flushAll raised ‹_›
  | stopSource =>
    simp only [stepConsumer] at stepped
    split at stepped <;> cases stepped
    exact .stopSource ‹_›

end Threads

end Sceptre
