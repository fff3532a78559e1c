import Mathlib.Algebra.Order.Group.Int
import Sceptre.Foundation.Climb
import Sceptre.Threads.Capture

namespace Sceptre

open Foundation

def CaptureEntry.of (read : Int × Bytes) : CaptureEntry := ⟨some read.1, some read.2⟩

namespace ReplayPc

/-- The nanoseconds a call of `wait` is asked for, before they are seconds in a float. -/
def asked : ReplayPc → SourceAction → List Int
  | .waiting prev tsNs _ _, .wait _ => [tsNs - prev]
  | _, _ => []

def waited (pace : Pace) (actions : List SourceAction) : Int := (outputsAlong (step pace) asked .loading actions).sum

def pauses (pace : Pace) (times : List Int) : Int := if pace.on then climb times else 0

theorem pauses_concat (pace : Pace) (times : List Int) (tsNs : Int) :
    pauses pace (times ++ [tsNs]) =
      pauses pace times + if pace.on then times.getLast?.elim 0 fun last => max 0 (tsNs - last) else 0 := by
  unfold pauses
  cases pace.on with
  | false => rfl
  | true =>
    rcases List.eq_nil_or_concat' times with rfl | ⟨earlier, last, rfl⟩
    · rfl
    · rw [List.getLast?_concat]
      exact climb_concat earlier last tsNs

theorem pauses_level {pace : Pace} {times : List Int} {tsNs : Int}
    (level : pace.on = true → ∀ earlier ∈ times.getLast?, tsNs ≤ earlier) :
    pauses pace (times ++ [tsNs]) = pauses pace times := by
  rw [pauses_concat, add_eq_left]
  split
  · rename_i on
    cases last : times.getLast? with
    | none => rfl
    | some earlier => exact max_eq_left (sub_nonpos.mpr (level on earlier last))
  · rfl

theorem pauses_rise {pace : Pace} {times : List Int} {prev tsNs : Int} (on : pace.on = true)
    (last : times.getLast? = some prev) (rises : prev < tsNs) :
    pauses pace (times ++ [tsNs]) = pauses pace times + (tsNs - prev) := by
  rw [pauses_concat, if_pos on, last, Option.elim_some, max_eq_right (sub_nonneg.mpr rises.le)]

def Paced (pace : Pace) (packets : List CaptureEntry) (puts : List RawItem) (time : Int) : ReplayPc → Prop
  | .loading => puts = [] ∧ time = 0
  | .checking entry rest prev => ∃ done : List (Int × Bytes), packets = done.map .of ++ entry :: rest ∧
      puts = done.map (fun p => .datagram p.2) ∧ (done.map Prod.fst).getLast? = prev ∧
        time = pauses pace (done.map Prod.fst)
  | .waiting prev tsNs payload rest => ∃ done : List (Int × Bytes), packets = done.map .of ++
    ⟨some tsNs, payload⟩ :: rest ∧
      puts = done.map (fun p => .datagram p.2) ∧ pauses pace (done.map Prod.fst ++ [tsNs]) = time + (tsNs - prev)
  | .putting tsNs payload rest => ∃ done : List (Int × Bytes),
      packets = done.map .of ++ .of (tsNs, payload) :: rest ∧ puts = done.map (fun p => .datagram p.2) ∧
        pauses pace (done.map Prod.fst ++ [tsNs]) = time
  | _ => True

variable {pace : Pace} {packets : List CaptureEntry} {puts : List RawItem} {time : Int} {pc pc' : ReplayPc}
  {action : SourceAction}

variable (pace) in
theorem Paced.next {done : List (Int × Bytes)} {rest : List CaptureEntry} (whole : packets = done.map .of ++ rest) :
    Paced pace packets (done.map fun p => .datagram p.2) (pauses pace (done.map Prod.fst))
      (.next (done.map Prod.fst).getLast? rest) := by
  cases rest with
  | nil => trivial
  | cons entry rest => exact ⟨done, whole, rfl, rfl, rfl⟩

theorem Paced.unpack {done : List (Int × Bytes)} {tsNs : Int} {payload : Option Bytes} {rest : List CaptureEntry}
    (whole : packets = done.map .of ++ ⟨some tsNs, payload⟩ :: rest) (put : puts = done.map fun p => .datagram p.2)
    (paused : pauses pace (done.map Prod.fst ++ [tsNs]) = time) :
    Paced pace packets puts time (.unpack tsNs rest payload) := by
  cases payload with
  | none => trivial
  | some payload => exact ⟨done, whole, put, paused⟩

theorem Paced.step (paced : Paced pace packets puts time pc) (loaded : ∀ file, action = .load (some file) →
    file = packets)
    (moved : ReplayPc.step pace pc action = some pc') :
    Paced pace packets (puts ++ action.item?.toList) (time + (asked pc action).sum) pc' := by
  cases step_stepped moved with
  | loaded file =>
    obtain ⟨rfl, rfl⟩ := paced
    rw [loaded file rfl]
    have next := Paced.next pace (show packets = ([] : List (Int × Bytes)).map .of ++ packets from rfl)
    rw [show pauses pace (([] : List (Int × Bytes)).map Prod.fst) = 0 from ite_self 0] at next
    exact next
  | early prev tsNs payload rest on fits rises =>
    obtain ⟨done, whole, put, last, rfl⟩ := paced
    exact ⟨done, whole, (List.append_nil _).trans put, by rw [pauses_rise on last rises]; simp [asked]⟩
  | due prev tsNs payload rest reached level =>
    obtain ⟨done, whole, put, rfl, rfl⟩ := paced
    exact .unpack whole ((List.append_nil _).trans put) (by rw [pauses_level level]; simp [asked])
  | waited prev tsNs payload rest within =>
    obtain ⟨done, whole, put, paused⟩ := paced
    exact .unpack whole ((List.append_nil _).trans put) (by rw [paused]; simp [asked])
  | put tsNs payload rest =>
    obtain ⟨done, whole, rfl, rfl⟩ := paced
    have split : packets = (done ++ [(tsNs, payload)]).map .of ++ rest := by
      rw [whole, List.map_append, List.append_assoc]
      rfl
    have next := Paced.next pace split
    rw [List.map_append, List.map_append] at next
    rw [show (asked (.putting tsNs payload rest) (.put (.datagram payload))).sum = 0 from rfl, add_zero]
    rwa [show ((done.map Prod.fst) ++ [(tsNs, payload)].map Prod.fst).getLast? =
      some tsNs from List.getLast?_concat] at next
  | _ => trivial

end ReplayPc

namespace Session

end Session

end Sceptre
