import Sceptre.Windowing.Refinement

namespace Sceptre

open Foundation

def Lane.Below (limits : Limits) (l : Lane) : Prop := l.packets ≠ [] → windowSamples l.packets < limits.maxSamples

namespace Lane

variable {limits : Limits} {l : Lane}

theorem below_initial : initial.Below limits := fun opened => absurd rfl opened

theorem Below.closeIf (below : l.Below limits) (condition : Prop) [Decidable condition] :
    (l.closeIf condition).Below limits := by
  unfold Lane.closeIf
  split
  · intro opened
    exact absurd (close_packets l) opened
  · exact below

theorem samples_empty {p : Packet} (empty : p.data = []) : p.samples = 0 := by
  rw [Packet.samples, empty]
  exact Int.zero_fdiv _

theorem Below.packet (below : l.Below limits) (p : Packet) : (l.packet limits p).Below limits := by
  have closed := below.closeIf (Interpreter.gapAfter l.last p.counter = true)
  unfold Lane.packet
  dsimp only
  generalize l.closeIf (Interpreter.gapAfter l.last p.counter = true) = m at closed
  intro opened
  by_cases full : p.data ≠ [] ∧ windowSamples (m.record p).packets ≥ limits.maxSamples
  · rw [Lane.closeIf, if_pos full] at opened
    exact absurd (close_packets _) opened
  · rw [Lane.closeIf, if_neg full] at opened ⊢
    by_cases solid : p.data = []
    · -- a packet without samples adds nothing to the window it joins
      by_cases nothing : m.packets = []
      · rw [show m.record p = { m with last := some p.counter, received := m.received ++ [p] } by
          rw [Lane.record, Lane.join, if_pos ⟨solid, nothing⟩]] at opened
        exact absurd nothing opened
      · have joins : (m.record p).packets = m.packets ++ [p] := by
          rw [Lane.record, Lane.join, if_neg fun both => nothing both.2]
        have before := closed nothing
        rw [joins, windowSamples, List.map_append, List.sum_append, ← windowSamples]
        simpa [samples_empty solid] using before
    · exact Int.not_le.mp fun reached => full ⟨solid, reached⟩

theorem Below.step (below : l.Below limits) (input : Input) : (l.step limits input).Below limits := by
  cases input with
  | adopt ctx => exact below.closeIf _
  | packet p => exact below.packet p
  | poll now => exact below.closeIf _
  | flush =>
    intro opened
    exact absurd (close_packets l) opened

theorem Below.steps (below : l.Below limits) (inputs : List Input) :
    (inputs.foldl (Lane.step limits) l).Below limits := by
  induction inputs generalizing l with
  | nil => exact below
  | cons input rest ih => exact ih (below.step input)

theorem Below.feed (below : l.Below limits) (input : Option Input) :
    (input.elim l (l.step limits)).Below limits := by
  cases input with
  | none => exact below
  | some input => exact below.step input

end Lane

theorem chunks_counted {packets : List Packet} {name : String} {complex : Bool} {group : Nat}
    (positive : 0 < group) (reads : ∀ p ∈ packets, p.Reads name complex group) :
    (((packets.map Packet.data).filter (· ≠ [])).length : Int) ≤ windowSamples packets := by
  induction packets with
  | nil => exact Int.le_refl _
  | cons p rest ih =>
    have later := ih fun q member => reads q (List.mem_cons_of_mem _ member)
    obtain ⟨n, length, count⟩ := joined_counted positive fun q (member : q ∈ [p]) =>
      reads q (by rw [List.mem_singleton.mp member]; exact List.mem_cons_self ..)
    rw [joined, List.flatMap_singleton] at length
    rw [windowSamples, List.map_singleton, List.sum_singleton] at count
    have sum : windowSamples (p :: rest) = p.samples + windowSamples rest := by
      rw [windowSamples, List.map_cons, List.sum_cons]
      rfl
    rw [sum, count, List.map_cons, List.filter_cons]
    split
    · rename_i solid
      have bytes : p.data.length ≠ 0 := fun none => (of_decide_eq_true solid) (List.length_eq_zero_iff.mp none)
      have one : 0 < n := by
        apply Nat.pos_of_ne_zero
        rintro rfl
        rw [Nat.zero_mul] at length
        exact bytes length
      rw [List.length_cons]
      omega
    · omega

end Sceptre
