import Sceptre.Threads.Delivery
import Sceptre.Threads.ReceiveUdp

namespace Sceptre

open Foundation

section
variable [Platform]

theorem Legal.front {settings : Settings} {first second : List Message} (legal : Legal settings (first ++ second)) :
    Legal settings first := by
  induction first generalizing settings with
  | nil => trivial
  | cons m rest ih =>
    obtain ⟨here, later⟩ := legal
    exact ⟨here, ih later⟩

namespace Program

variable {limits : Limits} {maxStreams maxsize : Int} {queue : BoundedRawQueue RawItem} {mode : Mode}
  {labels : List (Label × Clock)} {P : Program} {lanes : StreamId → Lane}

end Program

end

namespace Session

open Exact

def captured : List CapturePacket := oneSample.map fun m => ⟨7, sender.1, sender.2, m.wire⟩

end Session

end Sceptre
