import Sceptre.Threads.Projections

namespace Sceptre

open Foundation

structure Capture where
  startTimeNs : Int
  durationSeconds : ℚ
  packets : List CapturePacket
  deriving DecidableEq

def Recorder.save (r : Recorder) (startTimeNs : Int) (durationSeconds : ℚ) : Capture :=
  ⟨startTimeNs, durationSeconds, r.packets⟩

def CapturePacket.entry (p : CapturePacket) : CaptureEntry := ⟨some p.tsNs, some p.payload⟩

def SourceAction.received? : SourceAction → Option (Bytes × Address)
  | .recvfrom (.datagram data addr) => some (data, addr)
  | _ => none

def SourceAction.entry? : SourceAction → Option CapturePacket
  | .append tsNs addr data => some ⟨tsNs, addr.1, addr.2, data⟩
  | _ => none

def received (actions : List SourceAction) : List (Bytes × Address) := actions.filterMap SourceAction.received?

def putItems (actions : List SourceAction) : List RawItem := actions.filterMap SourceAction.item?

def entries (actions : List SourceAction) : List CapturePacket := actions.filterMap SourceAction.entry?

theorem filterMap_concat {α β : Type} (f : α → Option β) (items : List α) (last : α) :
    (items ++ [last]).filterMap f = items.filterMap f ++ (f last).toList := by
  rw [List.filterMap_append]
  cases found : f last <;> simp [found]

def CapturePacket.source (p : CapturePacket) : Bytes × Address := (p.payload, p.ip, p.port)

namespace LivePc

def unput : LivePc → List (Bytes × Address)
  | .putting data addr => [(data, addr)]
  | _ => []

def unrecorded : LivePc → List (Bytes × Address)
  | .putting data addr => [(data, addr)]
  | .appending data addr => [(data, addr)]
  | _ => []

theorem step_io {pc pc' : LivePc} {action : SourceAction} (stepped : pc.step action = some pc') :
    (pc.unput ++ action.received?.toList).map (fun r => RawItem.datagram r.1) =
        action.item?.toList ++ pc'.unput.map (fun r => RawItem.datagram r.1) ∧
      pc.unrecorded ++ action.received?.toList =
        action.entry?.toList.map CapturePacket.source ++ pc'.unrecorded := by
  unfold LivePc.step at stepped
  split at stepped
  case h_1 raised => cases raised <;> (cases stepped; exact ⟨rfl, rfl⟩)
  case h_6 set => cases set <;> (cases stepped; exact ⟨rfl, rfl⟩)
  case h_11 =>
    split at stepped
    · rename_i same
      cases stepped
      subst same
      exact ⟨rfl, rfl⟩
    · cases stepped
  case h_12 =>
    split at stepped
    · rename_i same
      cases stepped
      obtain ⟨rfl, rfl⟩ := same
      exact ⟨rfl, rfl⟩
    · cases stepped
  case h_14 => cases stepped
  all_goals
    cases stepped
    exact ⟨rfl, rfl⟩

theorem runs_io {actions : List SourceAction} {pc : LivePc} (ran : runs LivePc.step .creating actions = some pc) :
    (received actions).map (fun r => RawItem.datagram r.1) =
        putItems actions ++ pc.unput.map (fun r => RawItem.datagram r.1) ∧
      received actions = (entries actions).map CapturePacket.source ++ pc.unrecorded := by
  refine runs_invariant (fun actions pc => (received actions).map (fun r => RawItem.datagram r.1) =
      putItems actions ++ pc.unput.map (fun r => RawItem.datagram r.1) ∧
    received actions = (entries actions).map CapturePacket.source ++ pc.unrecorded) ⟨rfl, rfl⟩ ?_ ran
  intro actions pc action pc' _ holds stepped
  obtain ⟨puts, recorded⟩ := holds
  obtain ⟨put, record⟩ := step_io stepped
  rw [received, putItems, entries, filterMap_concat, filterMap_concat, filterMap_concat, List.map_append]
  change (received actions).map _ ++ _ = (putItems actions ++ _) ++ _ ∧
    received actions ++ _ = (entries actions ++ _).map _ ++ _
  constructor
  · rw [puts, List.append_assoc, List.append_assoc, ← put, List.map_append]
  · rw [recorded, List.append_assoc, record, List.map_append, List.append_assoc]

end LivePc

namespace Recorder

def after (r : Option Recorder) (actions : List SourceAction) : Option Recorder :=
  actions.foldl (fun r action => match action with
    | .append tsNs addr data => r.map fun r => (r.append tsNs addr data).2
    | _ => r) r

theorem append_uncapped {r : Recorder} {tsNs : Int} {addr : Address} {data : Bytes}
    (uncapped : (r.append tsNs addr data).2.capped = false) :
    r.capped = false ∧ (r.append tsNs addr data).2.packets = r.packets ++ [⟨tsNs, addr.1, addr.2, data⟩] := by
  unfold Recorder.append at uncapped ⊢
  split at uncapped
  · rename_i capped
    rw [capped] at uncapped
    cases uncapped
  · rename_i open'
    split at uncapped
    · cases uncapped
    · rename_i fits
      rw [if_neg open', if_neg fits]
      exact ⟨Bool.eq_false_iff.mpr open', rfl⟩

theorem after_uncapped {r r' : Recorder} {actions : List SourceAction} (recorded : after (some r) actions = some r')
    (uncapped : r'.capped = false) : r.capped = false ∧ r'.packets = r.packets ++ entries actions := by
  induction actions generalizing r with
  | nil =>
    cases recorded
    exact ⟨uncapped, (List.append_nil _).symm⟩
  | cons action rest ih =>
    cases action with
    | append tsNs addr data =>
      obtain ⟨before, packets⟩ := ih recorded
      obtain ⟨open', appended⟩ := append_uncapped before
      refine ⟨open', ?_⟩
      rw [packets, appended, List.append_assoc]
      rfl
    | _ => exact ih recorded

end Recorder

namespace Threads

variable {queue : BoundedRawQueue RawItem} {mode : Mode} {labels : List Label} {σ σ' : Threads}

theorem step_recorder {label : Label} (stepped : σ.step label = some σ') :
    σ'.recorder = Recorder.after σ.recorder label.source?.toList := by
  cases label with
  | source action =>
    obtain ⟨source, moved, rest⟩ := Option.bind_eq_some_iff.mp stepped
    obtain ⟨τ, performed, rfl⟩ := Option.map_eq_some_iff.mp rest
    cases action with
    | bind result => cases result <;> (cases performed; rfl)
    | isSet set =>
      obtain ⟨-, rfl⟩ := perform_isSet performed
      rfl
    | wait answer =>
      simp only [perform] at performed
      split at performed <;> cases performed
      rfl
    | _ => cases performed; rfl
  | watchdog => exact (stepWatchdog_frame stepped).2.2.2
  | consumer action =>
    cases stepConsumer_consumed stepped with
    | _ => rfl

theorem runs_recorder (ran : runs step (main queue mode) labels = some σ) :
    σ.recorder = Recorder.after (main queue mode).recorder (sourceActions labels) := by
  refine runs_invariant (fun labels σ => σ.recorder = Recorder.after (main queue mode).recorder (sourceActions labels))
    rfl ?_ ran
  intro labels σ label σ' _ same stepped
  rw [step_recorder stepped, same, sourceActions, sourceActions, filterMap_concat]
  exact (List.foldl_append ..).symm

end Threads

def SourceAction.loaded? : SourceAction → Option (List CaptureEntry)
  | .load packets => packets
  | _ => none

def loaded (actions : List SourceAction) : List CaptureEntry := (actions.filterMap SourceAction.loaded?).flatten

theorem loaded_concat (actions : List SourceAction) (action : SourceAction) :
    loaded (actions ++ [action]) = loaded actions ++ action.loaded?.getD [] := by
  rw [loaded, filterMap_concat, List.flatten_append, loaded]
  cases action.loaded? <;> simp

namespace Pace

variable {pace : Pace}

/-- The payloads a replay takes out of entries that follow one of time `prev`: it ends at the first that it cannot
    read, or cannot wait for. -/
def payloads (pace : Pace) : Option Int → List CaptureEntry → List Bytes
  | prev, ⟨some tsNs, some payload⟩ :: rest =>
    if ∀ earlier ∈ prev, pace.Reaches earlier tsNs then payload :: pace.payloads (some tsNs) rest else []
  | _, _ => []

/-- Nothing in the entries ends the replay before their last. -/
def Whole (pace : Pace) (prev : Option Int) (entries : List CaptureEntry) : Prop :=
  (pace.payloads prev entries).length = entries.length

theorem payloads_reached {prev : Option Int} {tsNs : Int} (payload : Bytes) (rest : List CaptureEntry)
    (reached : ∀ earlier ∈ prev, pace.Reaches earlier tsNs) :
    pace.payloads prev (⟨some tsNs, some payload⟩ :: rest) = payload :: pace.payloads (some tsNs) rest :=
  if_pos reached

theorem payloads_timeless (prev : Option Int) (payload : Option Bytes) (rest : List CaptureEntry) :
    pace.payloads prev (⟨none, payload⟩ :: rest) = [] := rfl

theorem payloads_beyond (pace : Pace) {prev tsNs : Int} (payload : Option Bytes) (rest : List CaptureEntry)
    (beyond : ¬ pace.Reaches prev tsNs) : pace.payloads (some prev) (⟨some tsNs, payload⟩ :: rest) = [] := by
  cases payload with
  | none => rfl
  | some payload => exact if_neg fun reached => beyond (reached prev rfl)

theorem whole_nil (prev : Option Int) : pace.Whole prev [] := rfl

theorem Whole.reached {prev : Option Int} {tsNs : Int} (payload : Bytes) (rest : List CaptureEntry)
    (reached : ∀ earlier ∈ prev, pace.Reaches earlier tsNs) :
    pace.Whole prev (⟨some tsNs, some payload⟩ :: rest) ↔ pace.Whole (some tsNs) rest := by
  rw [Whole, Whole, payloads_reached payload rest reached]
  exact Nat.succ_inj

theorem payloads_early {prev tsNs : Int} (payload : Option Bytes) (rest : List CaptureEntry)
    (reached : deltaS prev tsNs ≤ pace.timeoutMax → pace.Reaches prev tsNs)
    (within : deltaS prev tsNs ≤ pace.timeoutMax) :
    pace.payloads (some prev) (⟨some tsNs, payload⟩ :: rest) = pace.payloads none (⟨some tsNs, payload⟩ :: rest) := by
  cases payload with
  | none => rfl
  | some payload =>
    rw [payloads_reached payload rest (by simpa using reached within), payloads_reached payload rest (by simp)]

theorem not_whole {prev : Option Int} {entry : CaptureEntry} {rest : List CaptureEntry}
    (nothing : pace.payloads prev (entry :: rest) = []) : ¬ pace.Whole prev (entry :: rest) := by
  rw [Whole, nothing]
  exact Nat.succ_ne_zero _ ∘ Eq.symm

theorem whole_packets (packets : List CapturePacket) (prev : Option Int) :
    pace.Whole prev (packets.map CapturePacket.entry) ↔
      (prev.toList ++ packets.map CapturePacket.tsNs).IsChain pace.Reaches := by
  induction packets generalizing prev with
  | nil => cases prev <;> simp [whole_nil]
  | cons p rest ih =>
    have later := ih (some p.tsNs)
    by_cases reached : ∀ earlier ∈ prev, pace.Reaches earlier p.tsNs
    · rw [List.map_cons, CapturePacket.entry, Whole.reached p.payload _ reached, later]
      cases prev with
      | none => rfl
      | some earlier => exact (List.isChain_cons_cons.trans (and_iff_right (reached earlier rfl))).symm
    · cases prev with
      | none => simp at reached
      | some earlier =>
        have beyond : ¬ pace.Reaches earlier p.tsNs := by simpa using reached
        apply iff_of_false
        · exact not_whole (payloads_beyond _ _ _ beyond)
        · exact fun chain => beyond (List.isChain_cons_cons.mp chain).1

theorem payloads_packets {packets : List CapturePacket} {prev : Option Int}
    (whole : pace.Whole prev (packets.map CapturePacket.entry)) :
    pace.payloads prev (packets.map CapturePacket.entry) = packets.map CapturePacket.payload := by
  induction packets generalizing prev with
  | nil => rfl
  | cons p rest ih =>
    by_cases reached : ∀ earlier ∈ prev, pace.Reaches earlier p.tsNs
    · rw [List.map_cons, CapturePacket.entry, Whole.reached p.payload _ reached] at whole
      rw [List.map_cons, CapturePacket.entry, payloads_reached p.payload _ reached, ih whole, List.map_cons]
    · cases prev with
      | none => simp at reached
      | some earlier => exact absurd whole (not_whole (payloads_beyond _ _ _ (by simpa using reached)))

theorem payloads_eq_iff (packets : List CapturePacket) :
    pace.payloads none (packets.map CapturePacket.entry) = packets.map CapturePacket.payload ↔
      (packets.map CapturePacket.tsNs).IsChain pace.Reaches := by
  refine Iff.trans ⟨fun all => ?_, payloads_packets⟩ (whole_packets packets none)
  rw [Whole, all, List.length_map, List.length_map]

theorem payloads_prefix (pace : Pace) (packets : List CapturePacket) (prev : Option Int) :
    pace.payloads prev (packets.map CapturePacket.entry) <+: packets.map CapturePacket.payload := by
  induction packets generalizing prev with
  | nil => exact List.nil_prefix
  | cons p rest ih =>
    by_cases reached : ∀ earlier ∈ prev, pace.Reaches earlier p.tsNs
    · rw [List.map_cons, CapturePacket.entry, payloads_reached p.payload _ reached, List.map_cons]
      exact List.cons_prefix_cons.mpr ⟨rfl, ih _⟩
    · rw [List.map_cons, CapturePacket.entry, payloads, if_neg reached]
      exact List.nil_prefix

end Pace

namespace ReplayPc

variable {pace : Pace} {pc pc' : ReplayPc} {action : SourceAction} {actions : List SourceAction}

def due (pace : Pace) : ReplayPc → List Bytes
  | .checking entry rest prev => pace.payloads prev (entry :: rest)
  | .waiting prev tsNs payload rest =>
    if deltaS prev tsNs ≤ pace.timeoutMax then pace.payloads none (⟨some tsNs, payload⟩ :: rest) else []
  | .putting tsNs payload rest => payload :: pace.payloads (some tsNs) rest
  | _ => []

def Doomed (pace : Pace) : ReplayPc → Prop
  | .checking entry rest prev => ¬ pace.Whole prev (entry :: rest)
  | .waiting prev tsNs payload rest =>
    deltaS prev tsNs ≤ pace.timeoutMax → ¬ pace.Whole none (⟨some tsNs, payload⟩ :: rest)
  | .putting tsNs _ rest => ¬ pace.Whole (some tsNs) rest
  | .failing => True
  | _ => False

def owed (pace : Pace) (pc : ReplayPc) : List RawItem :=
  (pc.due pace).map .datagram ++ if pc = .terminated then [] else [.shutdown]

def remaining : ReplayPc → Nat
  | .loading => 0
  | .checking _ rest _ => 3 * rest.length + 4
  | .waiting _ _ _ rest => 3 * rest.length + 3
  | .putting _ _ rest => 3 * rest.length + 2
  | .failing => 2
  | .ending => 1
  | .terminated => 0

theorem next_owes (pace : Pace) (prev : Option Int) (packets : List CaptureEntry) :
    (ReplayPc.next prev packets).owed pace = (pace.payloads prev packets).map .datagram ++ [.shutdown] ∧
      ((ReplayPc.next prev packets).Doomed pace ↔ ¬ pace.Whole prev packets) ∧ ReplayPc.next prev packets ≠ .loading ∧
      (ReplayPc.next prev packets).remaining = 3 * packets.length + 1 := by
  cases packets with
  | nil => exact ⟨rfl, by simp [Doomed, ReplayPc.next, Pace.whole_nil], by simp [ReplayPc.next], rfl⟩
  | cons entry rest => exact ⟨by simp [owed, due, ReplayPc.next], Iff.rfl, by simp [ReplayPc.next], rfl⟩

theorem unpack_owes (pace : Pace) {prev : Option Int} {tsNs : Int} (payload : Option Bytes)
    (rest : List CaptureEntry)
    (reached : ∀ earlier ∈ prev, pace.Reaches earlier tsNs) :
    (ReplayPc.unpack tsNs rest payload).owed pace =
        (pace.payloads prev (⟨some tsNs, payload⟩ :: rest)).map .datagram ++ [.shutdown] ∧
      ((ReplayPc.unpack tsNs rest payload).Doomed pace ↔ ¬ pace.Whole prev (⟨some tsNs, payload⟩ :: rest)) ∧
      ReplayPc.unpack tsNs rest payload ≠ .loading ∧ (ReplayPc.unpack tsNs rest payload).remaining ≤
        3 * rest.length + 2 := by
  cases payload with
  | none => exact ⟨rfl, iff_of_true trivial (Pace.not_whole rfl), by simp [ReplayPc.unpack], Nat.le_add_left _ _⟩
  | some payload =>
    refine ⟨?_, not_congr (Pace.Whole.reached payload rest reached).symm, by simp [ReplayPc.unpack], le_rfl⟩
    rw [Pace.payloads_reached payload rest reached]
    simp [owed, due, ReplayPc.unpack]

structure Keeps (pace : Pace) (pc : ReplayPc) (action : SourceAction) (pc' : ReplayPc) : Prop where
  begun : pc' ≠ .loading
  fewer : pc'.remaining < pc.remaining
  loads : action.loaded? = none ∧ action ≠ .load none
  doomed : action = .setFailed ∨ pc'.Doomed pace → pc.Doomed pace
  owes : action ≠ .isSet true → action ≠ .wait (some true) → pc.owed pace = action.item?.toList ++ pc'.owed pace ∧
    (pc.Doomed pace → action = .setFailed ∨ pc'.Doomed pace)

theorem Keeps.quiet (going : pc' ≠ .loading ∧ pc'.remaining < pc.remaining)
    (silent : (action.loaded? = none ∧ action ≠ .load none) ∧ action ≠ .setFailed)
    (doomed : pc'.Doomed pace ↔ pc.Doomed pace) (owes : pc.owed pace = action.item?.toList ++ pc'.owed pace) :
    Keeps pace pc action pc' where
  begun := going.1
  fewer := going.2
  loads := silent.1
  doomed fails := doomed.mp (fails.resolve_left silent.2)
  owes _ _ := ⟨owes, fun fails => .inr (doomed.mpr fails)⟩

theorem step_keeps (moved : step pace pc action = some pc') (begun : pc ≠ .loading) : Keeps pace pc action pc' := by
  cases step_stepped moved with
  | unloaded => exact absurd rfl begun
  | loaded packets => exact absurd rfl begun
  | stopped entry rest prev =>
    exact ⟨by simp, by simp [remaining], by simp [SourceAction.loaded?], by simp [Doomed], by simp⟩
  | timeless payload rest prev =>
    have nothing := pace.payloads_timeless prev payload rest
    refine .quiet (by simp [remaining]) (by simp [SourceAction.loaded?]) (iff_of_true trivial (Pace.not_whole nothing))
      (by simp [owed, due, nothing, SourceAction.item?])
  | overflow prev tsNs payload rest far =>
    have nothing := pace.payloads_beyond payload rest far
    refine .quiet (by simp [remaining]) (by simp [SourceAction.loaded?]) (iff_of_true trivial (Pace.not_whole nothing))
      (by simp [owed, due, nothing, SourceAction.item?])
  | early prev tsNs payload rest on fits rises =>
    by_cases within : deltaS prev tsNs ≤ pace.timeoutMax
    · have same := pace.payloads_early payload rest (fun _ _ => ⟨fits, fun _ => within⟩) within
      refine .quiet (by simp [remaining]) (by simp [SourceAction.loaded?]) (by simp [Doomed, Pace.Whole, within, same])
        (by simp [owed, due, within, same, SourceAction.item?])
    · have nothing := pace.payloads_beyond payload rest fun reached => within ((reached on).2 rises)
      refine .quiet (by simp [remaining]) (by simp [SourceAction.loaded?])
        (iff_of_true (fun holds => absurd holds within) (Pace.not_whole nothing))
        (by simp [owed, due, within, nothing, SourceAction.item?])
  | due prev tsNs payload rest reached level =>
    obtain ⟨owes, doomed, going, fewer⟩ := unpack_owes pace payload rest reached
    refine .quiet ⟨going, lt_of_le_of_lt fewer (by simp [remaining])⟩ (by simp [SourceAction.loaded?]) doomed
      (by rw [owes]; simp [owed, ReplayPc.due, SourceAction.item?])
  | woken prev tsNs payload rest =>
    exact ⟨by simp, by simp [remaining], by simp [SourceAction.loaded?], by simp [Doomed], by simp⟩
  | waited prev tsNs payload rest within =>
    obtain ⟨owes, doomed, going, fewer⟩ := unpack_owes pace payload rest (by simp : ∀ earlier ∈ none, _)
    refine .quiet ⟨going, lt_of_le_of_lt fewer (by simp [remaining])⟩ (by simp [SourceAction.loaded?])
      (doomed.trans ⟨fun broken _ => broken, fun broken => broken within⟩)
      (by rw [owes]; simp [owed, ReplayPc.due, within, SourceAction.item?])
  | refused prev tsNs payload rest beyond =>
    refine .quiet (by simp [remaining]) (by simp [SourceAction.loaded?])
      (iff_of_true trivial fun within => absurd within beyond) (by simp [owed, due, beyond, SourceAction.item?])
  | put tsNs payload rest =>
    obtain ⟨owes, doomed, going, fewer⟩ := next_owes pace (some tsNs) rest
    refine .quiet ⟨going, by rw [fewer]; simp [remaining]⟩ (by simp [SourceAction.loaded?]) doomed
      (by rw [owes]; simp [owed, ReplayPc.due, SourceAction.item?])
  | failed =>
    exact ⟨by simp, by simp [remaining], by simp [SourceAction.loaded?], by simp [Doomed],
      by simp [owed, due, SourceAction.item?]⟩
  | ended =>
    exact .quiet (by simp [remaining]) (by simp [SourceAction.loaded?]) (by simp [Doomed])
      (by simp [owed, due, SourceAction.item?])

/-- What the calls of a replay that has loaded its capture, or failed to, have come to. -/
structure Follows (pace : Pace) (actions : List SourceAction) (pc : ReplayPc) : Prop where
  begun : pc ≠ .loading
  calls : actions.length + pc.remaining ≤ 3 * (loaded actions).length + 3
  loads : ∃ packets, .load packets ∈ actions ∧ loaded actions = packets.getD []
  fails : .setFailed ∈ actions ∨ pc.Doomed pace → .load none ∈ actions ∨ ¬ pace.Whole none (loaded actions)
  owes : (∀ action ∈ actions, action ≠ .isSet true ∧ action ≠ .wait (some true)) →
    putItems actions ++ pc.owed pace = (pace.payloads none (loaded actions)).map .datagram ++ [.shutdown] ∧
      (.load none ∈ actions ∨ ¬ pace.Whole none (loaded actions) → .setFailed ∈ actions ∨ pc.Doomed pace)

theorem Follows.load (moved : step pace .loading action = some pc) : Follows pace [action] pc := by
  cases step_stepped moved with
  | unloaded =>
    exact ⟨by simp, by simp [remaining, loaded, SourceAction.loaded?], ⟨none, by simp, rfl⟩, by simp,
      fun _ => ⟨rfl, fun _ => .inr trivial⟩⟩
  | loaded packets =>
    obtain ⟨owes, doomed, going, calls⟩ := next_owes pace none packets
    have all : Sceptre.loaded [.load (some packets)] = packets := List.append_nil _
    refine ⟨going, ?_, ⟨some packets, by simp, all⟩, ?_, fun _ => ⟨?_, ?_⟩⟩
    · rw [all, calls, List.length_singleton]
      omega
    · simp [all, doomed]
    · rw [all, owes]
      rfl
    · simp [all, doomed]

theorem Follows.step (follows : Follows pace actions pc) (moved : step pace pc action = some pc') :
    Follows pace (actions ++ [action]) pc' := by
  have keeps := step_keeps moved follows.begun
  have same : loaded (actions ++ [action]) = loaded actions := by
    rw [loaded_concat, keeps.loads.1]
    exact List.append_nil _
  have unloaded : .load none ∈ actions ++ [action] ↔ .load none ∈ actions := by
    rw [List.mem_append, List.mem_singleton, or_iff_left keeps.loads.2.symm]
  refine ⟨keeps.begun, ?_, ?_, ?_, ?_⟩
  · have fewer := keeps.fewer
    have calls := follows.calls
    rw [same, List.length_append, List.length_singleton]
    omega
  · obtain ⟨packets, member, all⟩ := follows.loads
    exact ⟨packets, List.mem_append_left _ member, same.trans all⟩
  · rw [same, unloaded, List.mem_append, List.mem_singleton, or_assoc]
    exact fun fails => follows.fails (fails.imp_right fun now => keeps.doomed (now.imp_left Eq.symm))
  · rw [same, unloaded]
    intro unseen
    obtain ⟨puts, doomed⟩ := follows.owes fun action member => unseen action (List.mem_append_left _ member)
    obtain ⟨seen, woken⟩ := unseen action (by simp)
    obtain ⟨owes, later⟩ := keeps.owes seen woken
    constructor
    · rw [putItems, filterMap_concat, List.append_assoc, ← owes]
      exact puts
    · intro broken
      rw [List.mem_append, List.mem_singleton, or_assoc]
      exact (doomed broken).imp_right fun now => (later now).imp_left Eq.symm

theorem runs_follows (ran : runs (step pace) .loading actions = some pc) :
    pc = .loading ∧ actions = [] ∨ Follows pace actions pc := by
  refine runs_invariant (fun actions pc => pc = .loading ∧ actions = [] ∨ Follows pace actions pc)
    (.inl ⟨rfl, rfl⟩) ?_ ran
  rintro actions pc action pc' - (⟨rfl, rfl⟩ | follows) moved
  · exact .inr (.load moved)
  · exact .inr (follows.step moved)

/-- The file is the capture, and the stop Event is not set. -/
def Undisturbed (capture : List CapturePacket) : SourceAction → Prop
  | .load packets => packets = some (capture.map CapturePacket.entry)
  | .isSet set => set = false
  | .wait answer => answer ≠ some true
  | _ => True

instance (capture : List CapturePacket) : DecidablePred (Undisturbed capture) := fun action =>
  match action with
  | .load packets => inferInstanceAs (Decidable (packets = some (capture.map CapturePacket.entry)))
  | .isSet set => inferInstanceAs (Decidable (set = false))
  | .wait answer => inferInstanceAs (Decidable (answer ≠ some true))
  | .socket _ => .isTrue trivial
  | .bind _ => .isTrue trivial
  | .setReady => .isTrue trivial
  | .recvfrom _ => .isTrue trivial
  | .put _ => .isTrue trivial
  | .append _ _ _ => .isTrue trivial
  | .setFailed => .isTrue trivial

theorem runs_undisturbed {capture : List CapturePacket} (ran : runs (step pace) .loading actions = some pc)
    (undisturbed : ∀ action ∈ actions, Undisturbed capture action) :
    ∃ more, putItems actions ++ more =
        (pace.payloads none (capture.map CapturePacket.entry)).map .datagram ++ [.shutdown] ∧
      (pc = .terminated → more = []) ∧ actions.length ≤ 3 * capture.length + 3 := by
  rcases runs_follows ran with ⟨rfl, rfl⟩ | follows
  · exact ⟨_, List.nil_append _, by rintro ⟨⟩, Nat.zero_le _⟩
  · obtain ⟨packets, member, all⟩ := follows.loads
    have file : loaded actions = capture.map CapturePacket.entry := by
      rw [all, show packets = some _ from undisturbed _ member]
      rfl
    have unseen : ∀ action ∈ actions, action ≠ .isSet true ∧ action ≠ .wait (some true) := by
      intro action member
      have here := undisturbed action member
      constructor
      · rintro rfl
        cases here
      · rintro rfl
        exact here rfl
    obtain ⟨puts, -⟩ := follows.owes unseen
    have calls := follows.calls
    rw [file] at puts calls
    rw [List.length_map] at calls
    refine ⟨_, puts, ?_, le_of_add_le_left calls⟩
    rintro rfl
    rfl

theorem enabled (pace : Pace) (capture : List CapturePacket) (alive : pc ≠ .terminated) :
    ∃ action pc', Undisturbed capture action ∧ step pace pc action = some pc' := by
  cases pc with
  | loading => exact ⟨.load (some (capture.map CapturePacket.entry)), _, rfl, rfl⟩
  | checking entry rest prev =>
    obtain ⟨tsNs, payload⟩ := entry
    have moves : (step pace (.checking ⟨tsNs, payload⟩ rest prev) (.isSet false)).isSome := by
      cases tsNs with
      | none => rfl
      | some tsNs =>
        cases prev with
        | none => rfl
        | some prev =>
          rw [step]
          split
          · split
            · rfl
            · split <;> rfl
          · rfl
    obtain ⟨pc', moved⟩ := Option.isSome_iff_exists.mp moves
    exact ⟨.isSet false, pc', rfl, moved⟩
  | waiting prev tsNs payload rest =>
    by_cases within : deltaS prev tsNs ≤ pace.timeoutMax
    · exact ⟨.wait (some false), _, by simp [Undisturbed], if_pos within⟩
    · exact ⟨.wait none, _, by simp [Undisturbed], if_neg within⟩
  | putting tsNs payload rest => exact ⟨.put (.datagram payload), _, trivial, if_pos rfl⟩
  | failing => exact ⟨.setFailed, _, trivial, rfl⟩
  | ending => exact ⟨.put .shutdown, _, trivial, rfl⟩
  | terminated => exact absurd rfl alive

theorem completes_begun (pace : Pace) (capture : List CapturePacket) (begun : pc ≠ .loading) :
    ∃ actions, runs (step pace) pc actions = some .terminated ∧ ∀ action ∈ actions, Undisturbed capture action := by
  induction calls : pc.remaining using Nat.strong_induction_on generalizing pc with
  | _ n ih =>
    by_cases ended : pc = .terminated
    · subst ended
      exact ⟨[], rfl, by simp⟩
    · obtain ⟨action, pc', undisturbed, moved⟩ := enabled pace capture ended
      have keeps := step_keeps moved begun
      obtain ⟨rest, ran, quiet⟩ := ih pc'.remaining (calls ▸ keeps.fewer) keeps.begun rfl
      refine ⟨action :: rest, ?_, List.forall_mem_cons.mpr ⟨undisturbed, quiet⟩⟩
      rw [runs, moved]
      exact ran

theorem completes (pace : Pace) (capture : List CapturePacket) (pc : ReplayPc) :
    ∃ actions, runs (step pace) pc actions = some .terminated ∧ ∀ action ∈ actions, Undisturbed capture action := by
  by_cases begun : pc = .loading
  · subst begun
    obtain ⟨-, -, going, -⟩ := next_owes pace none (capture.map CapturePacket.entry)
    obtain ⟨rest, ran, quiet⟩ := completes_begun pace capture going
    exact ⟨.load (some (capture.map CapturePacket.entry)) :: rest, ran, List.forall_mem_cons.mpr ⟨rfl, quiet⟩⟩
  · exact completes_begun pace capture begun

end ReplayPc

end Sceptre
