import Sceptre.Windowing.Sound

namespace Sceptre

variable {l : Lane}

def Consecutive (r r' : Metadata × Bytes) : Prop := r'.1.counter = (r.1.counter + 1) % 16

theorem Consecutive.loss {w : List (Nat × Metadata × Bytes)} (linked : (w.map Prod.snd).IsChain Consecutive)
    (numbered : ∀ r ∈ w, r.2.1.counter = r.1 % 16) (ordered : w.IsChain fun r r' => r.1 < r'.1) :
    w.IsChain fun r r' => ∃ m, r'.1 = r.1 + 1 + 16 * m := by
  rw [List.isChain_map] at linked
  refine (Foundation.isChain_both linked ordered).imp_of_mem_imp ?_
  rintro r r' member member' ⟨link, later⟩
  change r'.2.1.counter = (r.2.1.counter + 1) % 16 at link
  rw [numbered r member, numbered r' member'] at link
  exact ⟨(r'.1 - (r.1 + 1)) / 16, by omega⟩

theorem joined_append (packets : List Packet) (p : Packet) : joined (packets ++ [p]) = joined packets ++ p.data := by
  simp [joined]

theorem Lane.closeIf_closed (l : Lane) (condition : Prop) [Decidable condition] :
    ∃ fresh, (l.closeIf condition).closed = l.closed ++ fresh ∧
      ∀ w ∈ fresh, w.packets = l.packets ∧ condition := by
  unfold Lane.closeIf Lane.close
  split
  · rename_i holds
    split
    · exact ⟨[], by simp, by simp⟩
    · exact ⟨[⟨l.context, l.packets⟩], rfl, by simp [holds]⟩
  · exact ⟨[], by simp, by simp⟩

theorem Lane.packet_closes (limits : Limits) (opened : l.packets ≠ []) (p : Packet) :
    ∃ fresh, (l.packet limits p).closed = l.closed ++ fresh ∧
      ((∃ w ∈ fresh, joined w.packets = joined l.packets) ↔ Interpreter.gapAfter l.last p.counter = true) := by
  by_cases gap : Interpreter.gapAfter l.last p.counter = true
  · have early : l.closeIf (Interpreter.gapAfter l.last p.counter = true) = l.close := if_pos gap
    have first : ((l.close.record p)).closed = l.closed ++ [⟨l.context, l.packets⟩] := by
      rw [record_closed, Lane.close, if_neg opened]
    rw [Lane.packet, early]
    rcases Lane.closeIf_closed (l.close.record p)
      (p.data ≠ [] ∧ windowSamples (l.close.record p).packets ≥ limits.maxSamples) with ⟨fresh, closed, -⟩
    refine ⟨[⟨l.context, l.packets⟩] ++ fresh, by rw [closed, first, List.append_assoc], ?_⟩
    exact ⟨fun _ => gap, fun _ => ⟨⟨l.context, l.packets⟩, by simp, rfl⟩⟩
  · have early : l.closeIf (Interpreter.gapAfter l.last p.counter = true) = l := if_neg gap
    have joins : (l.record p).packets = l.packets ++ [p] := by
      rw [Lane.record, Lane.join, if_neg fun stray => opened stray.2]
    rw [Lane.packet, early]
    rcases Lane.closeIf_closed (l.record p)
      (p.data ≠ [] ∧ windowSamples (l.record p).packets ≥ limits.maxSamples) with ⟨fresh, closed, new⟩
    refine ⟨fresh, by rw [closed, record_closed], ?_⟩
    constructor
    · rintro ⟨w, member, same⟩
      obtain ⟨packets, full⟩ := new w member
      rw [packets, joins, joined_append] at same
      exact absurd (List.append_right_eq_self.mp same) full.1
    · exact fun gapped => absurd gapped gap

end Sceptre
