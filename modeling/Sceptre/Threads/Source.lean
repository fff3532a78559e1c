import Mathlib.Data.Rat.Cast.Order
import Mathlib.Tactic.Positivity
import Sceptre.Foundation.Rounding
import Sceptre.Foundation.Transitions
import Sceptre.Threads.Queue

namespace Sceptre

open Foundation

inductive RawItem where
  | datagram (raw : Bytes)
  | shutdown
  deriving DecidableEq, Repr

abbrev Address := String × Nat

structure CapturePacket where
  tsNs : Int
  ip : String
  port : Nat
  payload : Bytes
  deriving DecidableEq, Repr

structure Recorder where
  maxPackets : Option Int
  maxBytes : Option Int
  packets : List CapturePacket
  totalBytes : Nat
  capped : Bool
  deriving DecidableEq, Repr

namespace Recorder

def new (maxPackets maxBytes : Option Int) : Recorder := ⟨maxPackets, maxBytes, [], 0, false⟩

def append (r : Recorder) (tsNs : Int) (addr : Address) (data : Bytes) : Bool × Recorder :=
  if r.capped then (false, r)
  else if r.maxPackets.any (fun bound => (r.packets.length : Int) ≥ bound)
      ∨ r.maxBytes.any (fun bound => (r.totalBytes + data.length : Int) > bound) then
    (false, { r with capped := true })
  else
    (true, { r with
      packets := r.packets ++ [⟨tsNs, addr.1, addr.2, data⟩]
      totalBytes := r.totalBytes + data.length })

end Recorder

inductive Raised where
  | osError
  | other
  deriving DecidableEq, Repr

inductive Received where
  | datagram (data : Bytes) (addr : Address)
  | timeout
  | raised (exc : Raised)
  deriving DecidableEq, Repr

/-- An entry of a loaded capture: `packet[0]` and `packet[3]`, with `none` for an item that cannot be read. -/
structure CaptureEntry where
  tsNs : Option Int
  payload : Option Bytes
  deriving DecidableEq, Repr

/-- A call Thread A makes, with the answer it gets; `wait none` raises OverflowError. -/
inductive SourceAction where
  | socket (raised : Bool)
  | bind (result : Except Raised Address)
  | setReady
  | isSet (set : Bool)
  | recvfrom (received : Received)
  | put (item : RawItem)
  | append (tsNs : Int) (addr : Address) (data : Bytes)
  | load (packets : Option (List CaptureEntry))
  | wait (set : Option Bool)
  | setFailed
  deriving DecidableEq

/-- Where `LiveSource._run` is; the last call of `with sock` has been made at `terminated`. -/
inductive LivePc where
  | creating
  | binding
  | announcing (result : Except Raised Address)
  | checking
  | receiving
  | putting (data : Bytes) (addr : Address)
  | appending (data : Bytes) (addr : Address)
  | failing
  | terminated
  deriving DecidableEq

/-- `LiveSource._run`. The socket is created outside the `try`; `bind` is bind and getsockname. -/
def LivePc.step : LivePc → SourceAction → Option LivePc
  | .creating, .socket raised => some (if raised then .terminated else .binding)
  | .binding, .bind result => some (.announcing result)
  | .announcing (.ok _), .setReady => some .checking
  | .announcing (.error .osError), .setReady => some .failing
  | .announcing (.error .other), .setReady => some .terminated
  | .checking, .isSet set => some (if set then .terminated else .receiving)
  | .receiving, .recvfrom (.datagram data addr) => some (.putting data addr)
  | .receiving, .recvfrom .timeout => some .checking
  | .receiving, .recvfrom (.raised .osError) => some .failing
  | .receiving, .recvfrom (.raised .other) => some .terminated
  | .putting data addr, .put item => if item = .datagram data then some (.appending data addr) else none
  | .appending data addr, .append _ addr' data' => if addr' = addr ∧ data' = data then some .checking else none
  | .failing, .setFailed => some .terminated
  | _, _ => none

/-- `pace`, and the longest wait in seconds that `Event.wait` takes (`threading.TIMEOUT_MAX`). -/
structure Pace where
  on : Bool
  timeoutMax : ℚ
  deriving DecidableEq

def floatBound : Nat := 2 ^ 1024 - 2 ^ 970

/-- `delta_s`: the difference is a float before it is divided by `1e9`. -/
def deltaS (prev tsNs : Int) : ℚ := binary64 (binary64 (tsNs - prev) / 10 ^ 9)

/-- Where `ReplaySource._run` is: `rest` are the entries after the current one, `prev` is `prev_ts_ns`. -/
inductive ReplayPc where
  | loading
  | checking (entry : CaptureEntry) (rest : List CaptureEntry) (prev : Option Int)
  | waiting (prev tsNs : Int) (payload : Option Bytes) (rest : List CaptureEntry)
  | putting (tsNs : Int) (payload : Bytes) (rest : List CaptureEntry)
  | failing
  | ending
  | terminated
  deriving DecidableEq

namespace ReplayPc

def next (prev : Option Int) : List CaptureEntry → ReplayPc
  | [] => .ending
  | entry :: rest => .checking entry rest prev

/-- `packet[3]` is read only when the entry's time has come. -/
def unpack (tsNs : Int) (rest : List CaptureEntry) : Option Bytes → ReplayPc
  | none => .failing
  | some payload => .putting tsNs payload rest

/-- `ReplaySource._run`. Every exception is caught, and SHUTDOWN is put in the `finally`. -/
def step (pace : Pace) : ReplayPc → SourceAction → Option ReplayPc
  | .loading, .load none => some .failing
  | .loading, .load (some packets) => some (.next none packets)
  | .checking _ _ _, .isSet true => some .ending
  | .checking ⟨none, _⟩ _ _, .isSet false => some .failing
  | .checking ⟨some tsNs, payload⟩ rest none, .isSet false => some (.unpack tsNs rest payload)
  | .checking ⟨some tsNs, payload⟩ rest (some prev), .isSet false =>
    if pace.on then
      if (tsNs - prev).natAbs ≥ floatBound then some .failing
      else if deltaS prev tsNs > 0 then some (.waiting prev tsNs payload rest)
      else some (.unpack tsNs rest payload)
    else some (.unpack tsNs rest payload)
  | .waiting _ _ _ _, .wait (some true) => some .ending
  -- a wait that is not answered at once is asked of the lock, which takes no timeout above the limit
  | .waiting prev tsNs payload rest, .wait (some false) =>
    if deltaS prev tsNs ≤ pace.timeoutMax then some (.unpack tsNs rest payload) else none
  | .waiting prev tsNs _ _, .wait none => if deltaS prev tsNs ≤ pace.timeoutMax then none else some .failing
  | .putting tsNs payload rest, .put item =>
    if item = .datagram payload then some (.next (some tsNs) rest) else none
  | .failing, .setFailed => some .ending
  | .ending, .put .shutdown => some .terminated
  | _, _ => none

end ReplayPc

/-- An entry recorded at `tsNs` can be waited for after one recorded at `prev`. -/
def Pace.Reaches (pace : Pace) (prev tsNs : Int) : Prop :=
  pace.on = true → (tsNs - prev).natAbs < floatBound ∧ (prev < tsNs → deltaS prev tsNs ≤ pace.timeoutMax)

instance (pace : Pace) (prev tsNs : Int) : Decidable (pace.Reaches prev tsNs) :=
  inferInstanceAs (Decidable (_ → _ ∧ (_ → _)))

theorem deltaS_pos {prev tsNs : Int} : deltaS prev tsNs > 0 ↔ prev < tsNs := by
  constructor
  · intro positive
    by_contra level
    have nonpos : ((tsNs : ℚ) - prev) ≤ 0 := by
      have le : (tsNs : ℚ) ≤ prev := by exact_mod_cast not_lt.mp level
      linarith
    have zero : binary64 0 = 0 := by decide +kernel
    have difference : binary64 (tsNs - prev) ≤ 0 := (binary64_mono nonpos).trans zero.le
    have quotient := binary64_mono (div_nonpos_of_nonpos_of_nonneg difference (by positivity : (0 : ℚ) ≤ 10 ^ 9))
    exact absurd positive (quotient.trans zero.le).not_gt
  · intro rises
    have least : (1 : ℚ) ≤ tsNs - prev := by
      have next : ((prev + 1 : Int) : ℚ) ≤ tsNs := by exact_mod_cast rises
      push_cast at next
      linarith
    have one : binary64 1 = 1 := by decide +kernel
    have difference : 1 ≤ binary64 (tsNs - prev) := one.ge.trans (binary64_mono least)
    have nanosecond : 0 < binary64 (1 / 10 ^ 9) := by decide +kernel
    exact nanosecond.trans_le (binary64_mono (by gcongr))

def SourceAction.item? : SourceAction → Option RawItem
  | .put item => some item
  | _ => none

namespace ReplayPc

variable {pace : Pace} {pc pc' : ReplayPc} {action : SourceAction}

inductive Stepped (pace : Pace) : ReplayPc → SourceAction → ReplayPc → Prop where
  | unloaded : Stepped pace .loading (.load none) .failing
  | loaded (packets : List CaptureEntry) : Stepped pace .loading (.load (some packets)) (.next none packets)
  | stopped (entry : CaptureEntry) (rest : List CaptureEntry) (prev : Option Int) :
      Stepped pace (.checking entry rest prev) (.isSet true) .ending
  | timeless (payload : Option Bytes) (rest : List CaptureEntry) (prev : Option Int) :
      Stepped pace (.checking ⟨none, payload⟩ rest prev) (.isSet false) .failing
  | overflow (prev tsNs : Int) (payload : Option Bytes) (rest : List CaptureEntry) (far : ¬ pace.Reaches prev tsNs) :
      Stepped pace (.checking ⟨some tsNs, payload⟩ rest (some prev)) (.isSet false) .failing
  | early (prev tsNs : Int) (payload : Option Bytes) (rest : List CaptureEntry) (on : pace.on = true)
      (fits : (tsNs - prev).natAbs < floatBound) (rises : prev < tsNs) :
      Stepped pace (.checking ⟨some tsNs, payload⟩ rest (some prev)) (.isSet false) (.waiting prev tsNs payload rest)
  | due (prev : Option Int) (tsNs : Int) (payload : Option Bytes) (rest : List CaptureEntry)
      (reached : ∀ earlier ∈ prev, pace.Reaches earlier tsNs)
        (level : pace.on = true → ∀ earlier ∈ prev, tsNs ≤ earlier) :
      Stepped pace (.checking ⟨some tsNs, payload⟩ rest prev) (.isSet false) (.unpack tsNs rest payload)
  | woken (prev tsNs : Int) (payload : Option Bytes) (rest : List CaptureEntry) :
      Stepped pace (.waiting prev tsNs payload rest) (.wait (some true)) .ending
  | waited (prev tsNs : Int) (payload : Option Bytes) (rest : List CaptureEntry)
      (within : deltaS prev tsNs ≤ pace.timeoutMax) :
      Stepped pace (.waiting prev tsNs payload rest) (.wait (some false)) (.unpack tsNs rest payload)
  | refused (prev tsNs : Int) (payload : Option Bytes) (rest : List CaptureEntry)
      (beyond : ¬ deltaS prev tsNs ≤ pace.timeoutMax) :
      Stepped pace (.waiting prev tsNs payload rest) (.wait none) .failing
  | put (tsNs : Int) (payload : Bytes) (rest : List CaptureEntry) :
      Stepped pace (.putting tsNs payload rest) (.put (.datagram payload)) (.next (some tsNs) rest)
  | failed : Stepped pace .failing .setFailed .ending
  | ended : Stepped pace .ending (.put .shutdown) .terminated

theorem step_stepped (moved : step pace pc action = some pc') : Stepped pace pc action pc' := by
  unfold step at moved
  split at moved
  case h_1 => cases moved; exact .unloaded
  case h_2 => cases moved; exact .loaded _
  case h_3 => cases moved; exact .stopped _ _ _
  case h_4 => cases moved; exact .timeless _ _ _
  case h_5 => cases moved; exact .due _ _ _ _ (by simp) (by simp)
  case h_6 tsNs payload rest prev =>
    split at moved
    · rename_i on
      split at moved
      · rename_i large
        cases moved
        exact .overflow _ _ _ _ fun reached => absurd (reached on).1 (not_lt.mpr large)
      · rename_i fits
        split at moved <;> cases moved
        · exact .early _ _ _ _ on (not_le.mp fits) (deltaS_pos.mp ‹_›)
        · rename_i falls
          have level : tsNs ≤ prev := not_lt.mp fun rises => falls (deltaS_pos.mpr rises)
          refine .due _ _ _ _ ?_ (by simpa using fun _ => level)
          rintro _ ⟨⟩ _
          exact ⟨not_le.mp fits, fun rises => absurd level (not_le.mpr rises)⟩
    · rename_i off
      cases moved
      exact .due _ _ _ _ (fun _ _ on => absurd on off) fun on => absurd on off
  case h_7 => cases moved; exact .woken _ _ _ _
  case h_8 => split at moved <;> cases moved; exact .waited _ _ _ _ ‹_›
  case h_9 => split at moved <;> cases moved; exact .refused _ _ _ _ ‹_›
  case h_10 =>
    split at moved <;> cases moved
    subst ‹_ = _›
    exact .put _ _ _
  case h_11 => cases moved; exact .failed
  case h_12 => cases moved; exact .ended
  case h_13 => cases moved

theorem next_ne (prev : Option Int) (packets : List CaptureEntry) : ReplayPc.next prev packets ≠ .terminated := by
  cases packets with
  | nil => exact fun same => nomatch same
  | cons entry rest => exact fun same => nomatch same

theorem unpack_ne (tsNs : Int) (rest : List CaptureEntry) (payload : Option Bytes) :
    ReplayPc.unpack tsNs rest payload ≠ .terminated := by
  cases payload with
  | none => exact fun same => nomatch same
  | some payload => exact fun same => nomatch same

theorem step_puts (moved : step pace pc action = some pc') :
    pc ≠ .terminated ∧
      ((∃ raw, action.item? = some (.datagram raw) ∧ pc' ≠ .terminated) ∨
        (action.item? = some .shutdown ∧ pc' = .terminated) ∨ (action.item? = none ∧ pc' ≠ .terminated)) := by
  cases step_stepped moved with
  | loaded packets => simp [SourceAction.item?, next_ne]
  | put tsNs payload rest => simp [SourceAction.item?, next_ne]
  | due prev tsNs payload rest => simp [SourceAction.item?, unpack_ne]
  | waited prev tsNs payload rest => simp [SourceAction.item?, unpack_ne]
  | _ => simp [SourceAction.item?]

theorem runs_puts {actions : List SourceAction} (ran : runs (step pace) .loading actions = some pc) :
    ∃ sent : List Bytes, actions.filterMap SourceAction.item? =
      sent.map RawItem.datagram ++ if pc = .terminated then [.shutdown] else [] := by
  refine runs_invariant (fun actions pc => ∃ sent : List Bytes, actions.filterMap SourceAction.item? =
    sent.map RawItem.datagram ++ if pc = .terminated then [.shutdown] else []) ⟨[], rfl⟩ ?_ ran
  rintro earlier before action after - ⟨sent, puts⟩ stepped
  obtain ⟨alive, kind⟩ := step_puts stepped
  rw [if_neg alive, List.append_nil] at puts
  rw [List.filterMap_append, puts]
  rcases kind with ⟨raw, item, more⟩ | ⟨item, last⟩ | ⟨none, more⟩
  · exact ⟨sent ++ [raw], by simp [item, more]⟩
  · exact ⟨sent, by simp [item, last]⟩
  · exact ⟨sent, by simp [none, more]⟩

end ReplayPc

end Sceptre
