import Mathlib.Tactic.Linarith
import Sceptre.Threads.Capture

namespace Sceptre

open Foundation

/-- A call of `receive_udp`, with the answer it gets; `interrupt` is a KeyboardInterrupt there. Prints that follow
    each other are one. -/
inductive ReceiveAction where
  | socket (raised : Bool)
  | bind (raised : Bool)
  | recvfrom (received : Received)
  | timeNs (tsNs : Int)
  | monotonic (now : ℚ)
  | append (tsNs : Int) (addr : Address) (data : Bytes)
  | print (raised : Bool)
  | settimeout (remaining : ℚ) (raised : Bool)
  | save (raised : Bool)
  | interrupt
  deriving DecidableEq

inductive ReceivePc where
  | creating
  | binding
  | greeting
  | waiting
  | quitting
  | stamping (data : Bytes) (addr : Address)
  | arming (startNs : Int) (data : Bytes) (addr : Address)
  | opening (startNs : Int) (deadline : ℚ) (data : Bytes) (addr : Address)
  | announcing (startNs : Int) (deadline : ℚ)
  | checking (startNs : Int) (deadline : ℚ)
  | limiting (startNs : Int) (deadline remaining : ℚ)
  | receiving (startNs : Int) (deadline : ℚ)
  | appending (startNs : Int) (deadline : ℚ) (data : Bytes) (addr : Address)
  | counting (startNs : Int) (deadline : ℚ)
  | leaving (startNs : Int)
  | saving (startNs : Int)
  | summing
  | returned
  | raised
  deriving DecidableEq

def ReceiveAction.received? : ReceiveAction → Option (Bytes × Address)
  | .recvfrom (.datagram data addr) => some (data, addr)
  | _ => none

def ReceiveAction.reading? : ReceiveAction → Option ℚ
  | .monotonic now => some now
  | _ => none

namespace ReceivePc

/-- Where an interrupt leads: the wait for the first datagram and the loop catch it, nothing else does. -/
def interrupted : ReceivePc → Option ReceivePc
  | .waiting => some .quitting
  | .checking startNs _ => some (.leaving startNs)
  | .limiting startNs _ _ => some (.leaving startNs)
  | .receiving startNs _ => some (.leaving startNs)
  | .appending startNs _ _ _ => some (.leaving startNs)
  | .counting startNs _ => some (.leaving startNs)
  | .returned => none
  | .raised => none
  | _ => some .raised

/-- `receive_udp`. The first `recvfrom` has no timeout; only a timeout and an interrupt end the loop with a save. -/
def step (duration : ℚ) : ReceivePc → ReceiveAction → Option ReceivePc
  | .creating, .socket failed => some (if failed then .raised else .binding)
  | .binding, .bind failed => some (if failed then .raised else .greeting)
  | .greeting, .print failed => some (if failed then .raised else .waiting)
  | .waiting, .recvfrom (.datagram data addr) => some (.stamping data addr)
  | .waiting, .recvfrom (.raised _) => some .raised
  | .quitting, .print failed => some (if failed then .raised else .returned)
  | .stamping data addr, .timeNs startNs => some (.arming startNs data addr)
  | .arming startNs data addr, .monotonic now => some (.opening startNs (now + duration) data addr)
  | .opening startNs deadline data addr, .append tsNs addr' data' =>
    if tsNs = startNs ∧ addr' = addr ∧ data' = data then some (.announcing startNs deadline) else none
  | .announcing startNs deadline, .print failed => some (if failed then .raised else .checking startNs deadline)
  | .checking startNs deadline, .monotonic now =>
    if deadline - now ≤ 0 then some (.saving startNs) else some (.limiting startNs deadline (deadline - now))
  | .limiting startNs deadline remaining, .settimeout timeout failed =>
    if timeout = remaining then some (if failed then .raised else .receiving startNs deadline) else none
  | .receiving startNs deadline, .recvfrom (.datagram data addr) => some (.appending startNs deadline data addr)
  | .receiving startNs _, .recvfrom .timeout => some (.saving startNs)
  | .receiving _ _, .recvfrom (.raised _) => some .raised
  | .appending startNs deadline data addr, .append _ addr' data' =>
    if addr' = addr ∧ data' = data then some (.counting startNs deadline) else none
  | .counting startNs deadline, .print failed => some (if failed then .raised else .checking startNs deadline)
  | .leaving startNs, .print failed => some (if failed then .raised else .saving startNs)
  | .saving _, .save failed => some (if failed then .raised else .summing)
  | .summing, .print failed => some (if failed then .raised else .returned)
  | pc, .interrupt => pc.interrupted
  | _, _ => none

def startNs? : ReceivePc → Option Int
  | .saving startNs => some startNs
  | _ => none

inductive Moves (duration : ℚ) : ReceivePc → ReceiveAction → ReceivePc → Prop where
  | socket : Moves duration .creating (.socket false) .binding
  | bind : Moves duration .binding (.bind false) .greeting
  | greet : Moves duration .greeting (.print false) .waiting
  | first (data : Bytes) (addr : Address) :
      Moves duration .waiting (.recvfrom (.datagram data addr)) (.stamping data addr)
  | stamp (startNs : Int) (data : Bytes) (addr : Address) :
      Moves duration (.stamping data addr) (.timeNs startNs) (.arming startNs data addr)
  | arm (startNs : Int) (now : ℚ) (data : Bytes) (addr : Address) :
      Moves duration (.arming startNs data addr) (.monotonic now) (.opening startNs (now + duration) data addr)
  | keep (startNs : Int) (deadline : ℚ) (data : Bytes) (addr : Address) :
      Moves duration (.opening startNs deadline data addr) (.append startNs addr data) (.announcing startNs deadline)
  | enter (startNs : Int) (deadline : ℚ) :
      Moves duration (.announcing startNs deadline) (.print false) (.checking startNs deadline)
  | late (startNs : Int) (deadline now : ℚ) (expired : deadline - now ≤ 0) :
      Moves duration (.checking startNs deadline) (.monotonic now) (.saving startNs)
  | early (startNs : Int) (deadline now : ℚ) (left : 0 < deadline - now) :
      Moves duration (.checking startNs deadline) (.monotonic now) (.limiting startNs deadline (deadline - now))
  | limit (startNs : Int) (deadline remaining : ℚ) :
      Moves duration (.limiting startNs deadline remaining) (.settimeout remaining false) (.receiving startNs deadline)
  | receive (startNs : Int) (deadline : ℚ) (data : Bytes) (addr : Address) :
      Moves duration (.receiving startNs deadline) (.recvfrom (.datagram data addr))
        (.appending startNs deadline data addr)
  | timeout (startNs : Int) (deadline : ℚ) :
      Moves duration (.receiving startNs deadline) (.recvfrom .timeout) (.saving startNs)
  | record (startNs tsNs : Int) (deadline : ℚ) (data : Bytes) (addr : Address) :
      Moves duration (.appending startNs deadline data addr) (.append tsNs addr data) (.counting startNs deadline)
  | count (startNs : Int) (deadline : ℚ) :
      Moves duration (.counting startNs deadline) (.print false) (.checking startNs deadline)
  | settle (startNs : Int) : Moves duration (.leaving startNs) (.print false) (.saving startNs)
  | save (startNs : Int) : Moves duration (.saving startNs) (.save false) .summing
  | sum : Moves duration .summing (.print false) .returned
  | stop : Moves duration .waiting .interrupt .quitting
  | quit : Moves duration .quitting (.print false) .returned
  | leave (pc : ReceivePc) (startNs : Int) (cut : pc.interrupted = some (.leaving startNs)) :
      Moves duration pc .interrupt (.leaving startNs)
  | fail (pc : ReceivePc) (action : ReceiveAction) (alive : pc ≠ .returned ∧ pc ≠ .raised)
      (quiet : action.received? = none ∧ ∀ tsNs addr data, action ≠ .append tsNs addr data)
        (lost : action ≠ .save false) :
      Moves duration pc action .raised

theorem interrupted_cases {duration : ℚ} {pc pc' : ReceivePc} (moved : pc.interrupted = some pc') :
    Moves duration pc .interrupt pc' := by
  cases pc with
  | waiting => cases moved; exact .stop
  | checking startNs deadline => cases moved; exact .leave _ _ rfl
  | limiting startNs deadline remaining => cases moved; exact .leave _ _ rfl
  | receiving startNs deadline => cases moved; exact .leave _ _ rfl
  | appending startNs deadline data addr => cases moved; exact .leave _ _ rfl
  | counting startNs deadline => cases moved; exact .leave _ _ rfl
  | returned => cases moved
  | raised => cases moved
  | _ => cases moved; exact .fail _ _ ⟨nofun, nofun⟩ ⟨rfl, nofun⟩ nofun

theorem step_moves {duration : ℚ} {pc pc' : ReceivePc} {action : ReceiveAction}
    (moved : pc.step duration action = some pc') : Moves duration pc action pc' := by
  have failing : ∀ {pc : ReceivePc} {action : ReceiveAction}, pc ≠ .returned ∧ pc ≠ .raised → action.received? = none →
      (∀ tsNs addr data, action ≠ .append tsNs addr data) → action ≠ .save false → Moves duration pc action .raised :=
    fun alive silent quiet lost => .fail _ _ alive ⟨silent, quiet⟩ lost
  unfold ReceivePc.step at moved
  split at moved
  case h_1 failed => cases failed <;> cases moved; exacts [.socket, failing ⟨nofun, nofun⟩ rfl nofun nofun]
  case h_2 failed => cases failed <;> cases moved; exacts [.bind, failing ⟨nofun, nofun⟩ rfl nofun nofun]
  case h_3 failed => cases failed <;> cases moved; exacts [.greet, failing ⟨nofun, nofun⟩ rfl nofun nofun]
  case h_4 => cases moved; exact .first ..
  case h_5 => cases moved; exact failing ⟨nofun, nofun⟩ rfl nofun nofun
  case h_6 failed => cases failed <;> cases moved; exacts [.quit, failing ⟨nofun, nofun⟩ rfl nofun nofun]
  case h_7 => cases moved; exact .stamp ..
  case h_8 => cases moved; exact .arm ..
  case h_9 =>
    split at moved <;> cases moved
    obtain ⟨rfl, rfl, rfl⟩ := ‹_ ∧ _›
    exact .keep ..
  case h_10 failed => cases failed <;> cases moved; exacts [.enter .., failing ⟨nofun, nofun⟩ rfl nofun nofun]
  case h_11 =>
    split at moved <;> cases moved
    · exact .late _ _ _ ‹_›
    · rename_i left
      exact .early _ _ _ (Rat.not_le.mp left)
  case h_12 failed =>
    split at moved <;> cases moved
    subst ‹_ = _›
    cases failed
    exacts [.limit .., failing ⟨nofun, nofun⟩ rfl nofun nofun]
  case h_13 => cases moved; exact .receive ..
  case h_14 => cases moved; exact .timeout ..
  case h_15 => cases moved; exact failing ⟨nofun, nofun⟩ rfl nofun nofun
  case h_16 =>
    split at moved <;> cases moved
    obtain ⟨rfl, rfl⟩ := ‹_ ∧ _›
    exact .record ..
  case h_17 failed => cases failed <;> cases moved; exacts [.count .., failing ⟨nofun, nofun⟩ rfl nofun nofun]
  case h_18 failed => cases failed <;> cases moved; exacts [.settle _, failing ⟨nofun, nofun⟩ rfl nofun nofun]
  case h_19 failed => cases failed <;> cases moved; exacts [.save _, failing ⟨nofun, nofun⟩ rfl nofun nofun]
  case h_20 failed => cases failed <;> cases moved; exacts [.sum, failing ⟨nofun, nofun⟩ rfl nofun nofun]
  case h_21 => exact interrupted_cases moved
  case h_22 => cases moved

end ReceivePc

def ReceivePc.Settled : ReceivePc → Prop
  | .leaving _ | .saving _ | .summing | .returned | .raised => True
  | _ => False

theorem ReceivePc.Settled.step {duration : ℚ} {pc pc' : ReceivePc} {action : ReceiveAction} (settled : pc.Settled)
    (moved : pc.step duration action = some pc') : action.received? = none ∧ pc'.Settled := by
  cases ReceivePc.step_moves moved with
  | settle => exact ⟨rfl, trivial⟩
  | save => exact ⟨rfl, trivial⟩
  | sum => exact ⟨rfl, trivial⟩
  | quit => exact ⟨rfl, trivial⟩
  | leave pc startNs cut => exact ⟨rfl, trivial⟩
  | fail pc action alive quiet lost => exact ⟨quiet.1, trivial⟩
  | _ => exact absurd settled id

structure ReceiveUdp where
  pc : ReceivePc
  recorder : Recorder
  saved : Option Capture

namespace ReceiveUdp

def start : ReceiveUdp := ⟨.creating, .new none none, none⟩

def perform (duration : ℚ) (σ : ReceiveUdp) : ReceiveAction → ReceiveUdp
  | .append tsNs addr data => { σ with recorder := (σ.recorder.append tsNs addr data).2 }
  | .save false => { σ with saved := σ.pc.startNs?.map fun startNs => σ.recorder.save startNs duration }
  | _ => σ

def step (duration : ℚ) (σ : ReceiveUdp) (action : ReceiveAction) : Option ReceiveUdp :=
  (σ.pc.step duration action).map fun pc => { σ.perform duration action with pc := pc }

end ReceiveUdp

def heardBy (actions : List ReceiveAction) : List (Bytes × Address) := actions.filterMap ReceiveAction.received?

def readings (actions : List ReceiveAction) : List ℚ := actions.filterMap ReceiveAction.reading?

theorem Recorder.append_unbounded {r : Recorder} (packets : r.maxPackets = none) (bytes : r.maxBytes = none)
    (uncapped : r.capped = false) (tsNs : Int) (addr : Address) (data : Bytes) :
    (r.append tsNs addr data).2 = { r with
      packets := r.packets ++ [⟨tsNs, addr.1, addr.2, data⟩]
      totalBytes := r.totalBytes + data.length } := by
  rw [Recorder.append, uncapped, packets, bytes]
  rfl

namespace ReceiveUdp

variable {duration : ℚ} {σ σ' : ReceiveUdp} {actions : List ReceiveAction} {heard : List (Bytes × Address)}

structure Holds (r : Recorder) (heard : List (Bytes × Address)) (interrupted : Prop) (startNs : Int) : Prop where
  first : r.packets.head?.map CapturePacket.tsNs = some startNs
  front : r.packets.map CapturePacket.source <+: heard
  within : heard.length ≤ r.packets.length + 1
  whole : ¬ interrupted → heard = r.packets.map CapturePacket.source

theorem Holds.all {r : Recorder} {interrupted : Prop} {startNs : Int}
    (first : r.packets.head?.map CapturePacket.tsNs = some startNs)
    (same : heard = r.packets.map CapturePacket.source) :
    Holds r heard interrupted startNs := by
  refine ⟨first, ?_, ?_, fun _ => same⟩
  · exact ⟨[], (List.append_nil _).trans same.symm⟩
  · rw [same, List.length_map]
    exact Nat.le_succ _

def Saved (duration : ℚ) (heard : List (Bytes × Address)) (interrupted : Prop) (σ : ReceiveUdp) : Prop :=
  ∃ startNs, Holds σ.recorder heard interrupted startNs ∧ σ.saved = some (σ.recorder.save startNs duration)

def Accounts (duration : ℚ) (heard : List (Bytes × Address)) (interrupted : Prop) (σ : ReceiveUdp) : Prop :=
  match σ.pc with
  | .creating | .binding | .greeting | .waiting | .quitting => heard = [] ∧ σ.recorder.packets = [] ∧ σ.saved = none
  | .stamping data addr | .arming _ data addr | .opening _ _ data addr =>
    heard = [(data, addr)] ∧ σ.recorder.packets = [] ∧ σ.saved = none
  | .announcing startNs _ | .checking startNs _ | .limiting startNs _ _ | .receiving startNs _ | .counting startNs _ =>
    heard = σ.recorder.packets.map CapturePacket.source ∧
      σ.recorder.packets.head?.map CapturePacket.tsNs = some startNs ∧ σ.saved = none
  | .appending startNs _ data addr =>
    heard = σ.recorder.packets.map CapturePacket.source ++ [(data, addr)] ∧
      σ.recorder.packets.head?.map CapturePacket.tsNs = some startNs ∧ σ.saved = none
  | .leaving startNs | .saving startNs => Holds σ.recorder heard interrupted startNs ∧ σ.saved = none
  | .summing => σ.Saved duration heard interrupted
  | .returned => (heard = [] ∧ σ.saved = none) ∨ σ.Saved duration heard interrupted
  | .raised => σ.saved = none ∨ σ.Saved duration heard interrupted

def Timed (duration : ℚ) (read : List ℚ) : ReceivePc → Prop
  | .opening _ deadline _ _ | .announcing _ deadline | .checking _ deadline | .receiving _ deadline
  | .appending _ deadline _ _ | .counting _ deadline => ∃ armed, read.head? = some armed ∧ deadline = armed + duration
  | .limiting _ deadline remaining => 0 < remaining ∧ ∃ armed last, read.head? = some armed ∧
      read.getLast? = some last ∧ deadline = armed + duration ∧ remaining = deadline - last
  | .creating | .binding | .greeting | .waiting | .stamping _ _ | .arming _ _ _ => read = []
  | _ => True

theorem Timed.step {pc pc' : ReceivePc} {action : ReceiveAction} {read : List ℚ} (timed : Timed duration read pc)
    (moved : pc.step duration action = some pc') : Timed duration (read ++ action.reading?.toList) pc' := by
  have started : ∀ {deadline : ℚ}, (∃ armed, read.head? = some armed ∧ deadline = armed + duration) →
      ∀ last, ∃ armed, (read ++ [last]).head? = some armed ∧ deadline = armed + duration := by
    rintro deadline ⟨armed, first, same⟩ last
    exact ⟨armed, by rw [List.head?_append, first]; rfl, same⟩
  cases ReceivePc.step_moves moved with
  | arm startNs now data addr =>
    rw [show read = [] from timed]
    exact ⟨now, rfl, rfl⟩
  | early startNs deadline now left =>
    obtain ⟨armed, first, same⟩ := started timed now
    exact ⟨left, armed, now, first, List.getLast?_concat, same, rfl⟩
  | limit startNs deadline remaining =>
    obtain ⟨-, armed, -, first, -, same, -⟩ := timed
    exact ⟨armed, by rw [← first]; simp [ReceiveAction.reading?], same⟩
  | late => trivial
  | timeout => trivial
  | settle => trivial
  | save => trivial
  | sum => trivial
  | stop => trivial
  | quit => trivial
  | leave => trivial
  | fail => trivial
  | _ =>
    rw [show Option.toList (ReceiveAction.reading? _) = [] from rfl, List.append_nil]
    exact timed

theorem Accounts.either {interrupted : Prop} (accounts : σ.Accounts duration heard interrupted) :
    σ.saved = none ∨ σ.Saved duration heard interrupted := by
  obtain ⟨pc, recorder, saved⟩ := σ
  cases pc with
  | leaving => exact .inl accounts.2
  | saving => exact .inl accounts.2
  | summing => exact .inr accounts
  | returned => exact accounts.imp_left And.right
  | raised => exact accounts
  | _ => exact .inl accounts.2.2

theorem Accounts.leave {interrupted : Prop} {startNs : Int} (accounts : σ.Accounts duration heard interrupted)
    (cut : σ.pc.interrupted = some (.leaving startNs)) : Holds σ.recorder heard True startNs ∧ σ.saved = none := by
  obtain ⟨pc, recorder, saved⟩ := σ
  cases pc with
  | checking | limiting | receiving | counting =>
    cases cut
    obtain ⟨same, first, unsaved⟩ := accounts
    exact ⟨.all first same, unsaved⟩
  | appending startNs deadline data addr =>
    cases cut
    obtain ⟨same, first, unsaved⟩ := accounts
    refine ⟨⟨first, ?_, ?_, fun never => absurd trivial never⟩, unsaved⟩
    · rw [same]
      exact List.prefix_append _ _
    · rw [same, List.length_append, List.length_map]
      exact le_refl _
  | _ => cases cut

theorem Holds.mono {r : Recorder} {before after : Prop} {startNs : Int} (holds : Holds r heard before startNs)
    (later : before → after) : Holds r heard after startNs :=
  ⟨holds.first, holds.front, holds.within, fun never => holds.whole fun cut => never (later cut)⟩

theorem Saved.mono {before after : Prop} (kept : σ.Saved duration heard before) (later : before → after) :
    σ.Saved duration heard after := by
  obtain ⟨startNs, holds, saved⟩ := kept
  exact ⟨startNs, holds.mono later, saved⟩

theorem Accounts.step {action : ReceiveAction} {interrupted : Prop} (accounts : σ.Accounts duration heard interrupted)
    (packetsFree : σ.recorder.maxPackets = none) (bytesFree : σ.recorder.maxBytes = none)
    (uncapped : σ.recorder.capped = false) (stepped : σ.step duration action = some σ') :
    σ'.Accounts duration (heard ++ action.received?.toList) (interrupted ∨ action = .interrupt) := by
  obtain ⟨pc, moved, rfl⟩ := Option.map_eq_some_iff.mp stepped
  obtain ⟨before, recorder, saved⟩ := σ
  have appended := Recorder.append_unbounded packetsFree bytesFree uncapped
  cases ReceivePc.step_moves moved with
  | first data addr =>
    obtain ⟨nothing, empty, unsaved⟩ := accounts
    rw [nothing]
    exact ⟨rfl, empty, unsaved⟩
  | keep startNs deadline data addr =>
    obtain ⟨one, empty, unsaved⟩ := accounts
    rw [one, perform, appended, empty]
    exact ⟨rfl, rfl, unsaved⟩
  | receive startNs deadline data addr =>
    obtain ⟨same, first, unsaved⟩ := accounts
    rw [same]
    exact ⟨rfl, first, unsaved⟩
  | record startNs tsNs deadline data addr =>
    obtain ⟨same, first, unsaved⟩ := accounts
    rw [same, perform, appended]
    refine ⟨?_, ?_, unsaved⟩
    · rw [List.map_append]
      exact List.append_nil _
    · rw [List.head?_append, Option.map_or, first]
      rfl
  | late startNs deadline now expired =>
    obtain ⟨same, first, unsaved⟩ := accounts
    exact ⟨.all first ((List.append_nil _).trans same), unsaved⟩
  | timeout startNs deadline =>
    obtain ⟨same, first, unsaved⟩ := accounts
    exact ⟨.all first ((List.append_nil _).trans same), unsaved⟩
  | settle startNs =>
    obtain ⟨holds, unsaved⟩ := accounts
    exact ⟨(List.append_nil heard).symm ▸ holds.mono .inl, unsaved⟩
  | save startNs =>
    obtain ⟨holds, -⟩ := accounts
    exact ⟨startNs, (List.append_nil heard).symm ▸ holds.mono .inl, rfl⟩
  | sum => exact .inr ((List.append_nil heard).symm ▸ Saved.mono accounts .inl)
  | quit =>
    obtain ⟨nothing, -, unsaved⟩ := accounts
    exact .inl ⟨(List.append_nil _).trans nothing, unsaved⟩
  | leave pc startNs cut =>
    obtain ⟨holds, unsaved⟩ := accounts.leave cut
    exact ⟨(List.append_nil heard).symm ▸ holds.mono fun _ => .inr rfl, unsaved⟩
  | fail pc action alive quiet lost =>
    have kept := accounts.either
    rw [quiet.1, Option.toList_none, List.append_nil]
    have same : perform duration ⟨before, recorder, saved⟩ action = ⟨before, recorder, saved⟩ := by
      cases action with
      | append tsNs addr data => exact absurd rfl (quiet.2 tsNs addr data)
      | save failed =>
        cases failed with
        | true => rfl
        | false => exact absurd rfl lost
      | _ => rfl
    rw [same]
    exact kept.imp_right fun holds => Saved.mono holds .inl
  | _ =>
    rw [show Option.toList (ReceiveAction.received? _) = [] from rfl, List.append_nil]
    exact accounts

theorem step_written {action : ReceiveAction} (stepped : σ.step duration action = some σ') :
    σ'.saved.isSome ↔ σ.saved.isSome ∨ action = .save false := by
  obtain ⟨pc, moved, rfl⟩ := Option.map_eq_some_iff.mp stepped
  obtain ⟨before, recorder, saved⟩ := σ
  cases ReceivePc.step_moves moved with
  | save startNs => simp [perform, ReceivePc.startNs?]
  | fail _ action alive quiet lost =>
    cases action with
    | save failed => cases failed <;> simp_all [perform]
    | _ => simp [perform]
  | _ => simp [perform]

structure Captures (duration : ℚ) (actions : List ReceiveAction) (σ : ReceiveUdp) : Prop where
  packetsFree : σ.recorder.maxPackets = none
  bytesFree : σ.recorder.maxBytes = none
  uncapped : σ.recorder.capped = false
  accounts : σ.Accounts duration (heardBy actions) (.interrupt ∈ actions)
  timed : Timed duration (readings actions) σ.pc
  written : σ.saved.isSome ↔ .save false ∈ actions

theorem Captures.start : Captures duration [] start := ⟨rfl, rfl, rfl, ⟨rfl, rfl, rfl⟩, rfl, by simp [ReceiveUdp.start]⟩

theorem Captures.step (captures : Captures duration actions σ) {action : ReceiveAction}
    (stepped : σ.step duration action = some σ') : Captures duration (actions ++ [action]) σ' := by
  obtain ⟨packetsFree, bytesFree, uncapped, accounts, timed, written⟩ := captures
  have accounts' := accounts.step packetsFree bytesFree uncapped stepped
  obtain ⟨pc, moved, rfl⟩ := Option.map_eq_some_iff.mp stepped
  have unbounded : (σ.perform duration action).recorder.maxPackets = none ∧
      (σ.perform duration action).recorder.maxBytes = none ∧ (σ.perform duration action).recorder.capped = false := by
    cases action with
    | append tsNs addr data =>
      rw [perform, Recorder.append_unbounded packetsFree bytesFree uncapped]
      exact ⟨packetsFree, bytesFree, uncapped⟩
    | save failed => cases failed <;> exact ⟨packetsFree, bytesFree, uncapped⟩
    | _ => exact ⟨packetsFree, bytesFree, uncapped⟩
  obtain ⟨packetsFree', bytesFree', uncapped'⟩ := unbounded
  refine ⟨packetsFree', bytesFree', uncapped', ?_, ?_, ?_⟩
  · rw [heardBy, filterMap_concat, List.mem_append, List.mem_singleton,
      (eq_comm : ReceiveAction.interrupt = action ↔ _)]
    exact accounts'
  · rw [readings, filterMap_concat]
    exact timed.step moved
  · rw [List.mem_append, List.mem_singleton, ← written, (eq_comm : ReceiveAction.save false = action ↔ _)]
    exact step_written stepped

theorem captures_runs (ran : runs (step duration) start actions = some σ) : Captures duration actions σ :=
  runs_invariant (Captures duration) .start (fun _ _ _ _ _ captures stepped => captures.step stepped) ran

theorem settled_runs {before after : ReceiveUdp} {more : List ReceiveAction} (settled : before.pc.Settled)
    (ran : runs (step duration) before more = some after) : heardBy more = [] := by
  induction more generalizing before with
  | nil => rfl
  | cons action rest ih =>
    obtain ⟨middle, stepped, ran'⟩ := Option.bind_eq_some_iff.mp ran
    obtain ⟨pc, moved, rfl⟩ := Option.map_eq_some_iff.mp stepped
    obtain ⟨silent, later⟩ := settled.step moved
    rw [heardBy, List.filterMap_cons_none silent]
    exact ih later ran'

theorem Captures.timeout (captures : Captures duration actions σ) {timeout : ℚ}
    {failed : Bool} (stepped : σ.step duration (.settimeout timeout failed) = some σ') : 0 < timeout ∧
      ∃ armed last, (readings actions).head? = some armed ∧ (readings actions).getLast? = some last ∧
        timeout = armed + duration - last := by
  obtain ⟨pc, moved, -⟩ := Option.map_eq_some_iff.mp stepped
  have timed := captures.timed
  cases place : σ.pc with
  | limiting startNs deadline remaining =>
    rw [place] at timed moved
    obtain ⟨left, armed, last, first, read, rfl, rfl⟩ := timed
    simp only [ReceivePc.step] at moved
    split at moved <;> cases moved
    subst ‹timeout = _›
    exact ⟨left, armed, last, first, read, rfl⟩
  | _ => rw [place] at moved; cases moved

theorem Captures.reached (captures : Captures duration actions σ) {now armed : ℚ}
    (first : (readings actions).head? = some armed) (expired : armed + duration ≤ now)
    (stepped : σ.step duration (.monotonic now) = some σ') : σ'.pc.Settled := by
  obtain ⟨pc, moved, rfl⟩ := Option.map_eq_some_iff.mp stepped
  have timed := captures.timed
  cases place : σ.pc with
  | arming startNs data addr =>
    rw [place] at timed
    rw [show readings actions = [] from timed] at first
    cases first
  | checking startNs deadline =>
    rw [place] at timed moved
    obtain ⟨armed', first', rfl⟩ := timed
    cases first.symm.trans first'
    have past : armed + duration - now ≤ 0 := sub_nonpos.mpr expired
    simp only [ReceivePc.step, if_pos past] at moved
    cases moved
    trivial
  | _ => rw [place] at moved; cases moved

theorem Accounts.saved {interrupted : Prop} {capture : Capture} (accounts : σ.Accounts duration heard interrupted)
    (saved : σ.saved = some capture) :
    ∃ startNs, Holds σ.recorder heard interrupted startNs ∧ capture = σ.recorder.save startNs duration := by
  rcases accounts.either with unsaved | ⟨startNs, holds, kept⟩
  · cases unsaved.symm.trans saved
  · exact ⟨startNs, holds, Option.some.inj (saved.symm.trans kept)⟩

theorem Holds.heard_ne {r : Recorder} {interrupted : Prop} {startNs : Int} (holds : Holds r heard interrupted startNs) :
    heard ≠ [] := by
  intro nothing
  have front := holds.front
  rw [nothing, List.prefix_nil, List.map_eq_nil_iff] at front
  have first := holds.first
  rw [front] at first
  cases first

end ReceiveUdp

/-- The capture tool, over any run of it: each timed wait is what the clock leaves of the deadline, and nothing is
    received once the clock has reached it; and a saved capture holds the received datagrams, in order and stamped
    from the first, all but the last where an interrupt cut it off. There is one from the moment `save` has returned,
    and a run that returns has saved one exactly when it has received a datagram. -/
theorem receive_udp_exact (duration : ℚ) (actions : List ReceiveAction) (σ : ReceiveUdp)
    (ran : runs (ReceiveUdp.step duration) .start actions = some σ) :
    (∀ before timeout failed after, actions = before ++ .settimeout timeout failed :: after → 0 < timeout ∧
      ∃ armed last, (readings before).head? = some armed ∧ (readings before).getLast? = some last ∧
        timeout = armed + duration - last) ∧
    (∀ before now after armed, actions = before ++ .monotonic now :: after → (readings before).head? = some armed →
      armed + duration ≤ now → heardBy after = []) ∧
    ((σ.saved.isSome ↔ .save false ∈ actions) ∧ (σ.pc = .returned → (σ.saved.isSome ↔ heardBy actions ≠ []))) ∧
    ∀ capture, σ.saved = some capture → capture.durationSeconds = duration ∧
      capture.packets.head?.map CapturePacket.tsNs = some capture.startTimeNs ∧
      capture.packets.map CapturePacket.source <+: heardBy actions ∧
      (heardBy actions).length ≤ capture.packets.length + 1 ∧
      (.interrupt ∉ actions → heardBy actions = capture.packets.map CapturePacket.source) := by
  have captures := ReceiveUdp.captures_runs ran
  have at' : ∀ before action after, actions = before ++ action :: after → ∃ middle next,
      ReceiveUdp.Captures duration before middle ∧ middle.step duration action = some next ∧
        runs (ReceiveUdp.step duration) next after = some σ := by
    rintro before action after rfl
    obtain ⟨middle, ran', rest⟩ := Option.bind_eq_some_iff.mp ((runs_append _ before _).symm.trans ran)
    obtain ⟨next, stepped, ran''⟩ := Option.bind_eq_some_iff.mp rest
    exact ⟨middle, next, ReceiveUdp.captures_runs ran', stepped, ran''⟩
  refine ⟨?_, ?_, ⟨captures.written, fun ended => ⟨?_, ?_⟩⟩, ?_⟩
  · intro before timeout failed after split
    obtain ⟨middle, next, earlier, stepped, -⟩ := at' before _ after split
    exact earlier.timeout stepped
  · intro before now after armed split first expired
    obtain ⟨middle, next, earlier, stepped, ran'⟩ := at' before _ after split
    exact ReceiveUdp.settled_runs (earlier.reached first expired stepped) ran'
  · intro some
    obtain ⟨capture, saved⟩ := Option.isSome_iff_exists.mp some
    obtain ⟨startNs, holds, -⟩ := captures.accounts.saved saved
    exact holds.heard_ne
  · intro something
    have accounts := captures.accounts
    rw [ReceiveUdp.Accounts, ended] at accounts
    obtain ⟨nothing, -⟩ | ⟨startNs, -, saved⟩ := accounts
    · exact absurd nothing something
    · rw [saved]
      rfl
  · intro capture saved
    obtain ⟨startNs, holds, rfl⟩ := captures.accounts.saved saved
    exact ⟨rfl, holds.first, holds.front, holds.within, holds.whole⟩

namespace ReceiveUdp

def cutOff : List ReceiveAction :=
  [.socket false, .bind false, .print false, .recvfrom (.datagram [1] ("192.168.0.2", 4991)), .timeNs 7, .monotonic 3,
    .append 7 ("192.168.0.2", 4991) [1], .print false, .monotonic 4, .settimeout 1 false,
    .recvfrom (.datagram [2] ("192.168.0.2", 4991)), .interrupt, .print false, .save false, .interrupt]

theorem receive_udp_exact_cutOff : ∃ σ capture, runs (step 2) start cutOff = some σ ∧ σ.pc = .raised ∧
    σ.saved = some capture ∧ capture.packets.map CapturePacket.source <+: heardBy cutOff ∧
      2 ≤ capture.packets.length + 1 := by
  have ran : (runs (step 2) start cutOff).any (fun σ => σ.pc = .raised) = true := by decide +kernel
  obtain ⟨σ, ran, ended⟩ := (Option.any_eq_true _ _).mp ran
  obtain ⟨-, -, ⟨written, -⟩, all⟩ := receive_udp_exact 2 cutOff σ ran
  obtain ⟨capture, saved⟩ := Option.isSome_iff_exists.mp (written.mpr (by decide))
  obtain ⟨-, -, front, within, -⟩ := all capture saved
  exact ⟨σ, capture, ran, of_decide_eq_true ended, saved, front, within⟩

end ReceiveUdp

end Sceptre
