import Sceptre.Threads.Captured
import Sceptre.Threads.Recording

namespace Sceptre

open Foundation

section
variable [Platform] {size : StreamId → Nat} {m : Message} {heard messages : List Message} {less more : Settings}

def Settings.Within (less more : Settings) : Prop := ∀ s, (less.sampleSize s).isSome → (more.sampleSize s).isSome

theorem Message.Steady.sampled (steady : m.Steady size) (settings : Settings) {s : StreamId}
    (own : m.announces? = some s) : ((m.announced settings).sampleSize s).isSome := by
  cases steady with
  | @announce h fields rest well kind valid declared sized =>
    cases own
    rw [Settings.sampleSize, Message.announced, Function.update_self, Option.bind_some, sized]
    rfl
  | block => cases own
  | noise => cases own

theorem announced_other (settings : Settings) {s : StreamId} (other : m.announces? ≠ some s) :
    (m.announced settings).sampleSize s = settings.sampleSize s := by
  cases m with
  | announce h fields rest =>
    have away : s ≠ h.streamId := fun same => other (congrArg some same.symm)
    rw [Settings.sampleSize, Message.announced, Function.update_of_ne away, Settings.sampleSize]
  | block => rfl
  | noise => rfl

theorem Settings.Within.announced (within : less.Within more) (steady : m.Steady size) :
    (m.announced less).Within (m.announced more) := by
  intro s known
  by_cases own : m.announces? = some s
  · exact steady.sampled more own
  · rw [announced_other _ own] at known ⊢
    exact within s known

theorem Settings.Within.lost (within : less.Within more) (steady : m.Steady size) : less.Within (m.announced more) := by
  intro s known
  by_cases own : m.announces? = some s
  · exact steady.sampled more own
  · rw [announced_other _ own]
    exact within s known

end

section
variable [Platform]

end

namespace Session

open Exact

end Session

end Sceptre
