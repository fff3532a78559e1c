import Sceptre.Windowing.Model

namespace Sceptre

open Foundation

variable [Platform]

def Covers (c : Context) (packets : List Packet) : Prop :=
  ∃ name complex group, c.Usable name complex group ∧
    ∀ p ∈ packets, SameIdentity p.context c ∧ p.Reads name complex group

omit [Platform] in
theorem SameIdentity.refl (c : Context) : SameIdentity c c := fun _ _ => rfl

omit [Platform] in
theorem SameIdentity.trans {c d e : Context} (first : SameIdentity c d) (second : SameIdentity d e) :
    SameIdentity c e := fun key member => (first key member).trans (second key member)

omit [Platform] in
theorem SameIdentity.rfHz {c d : Context} (same : SameIdentity c d) : c.rfHz = d.rfHz := by
  have equal := same .rfHz (by decide)
  simp only [Context.get] at equal
  exact Option.map_injective (fun _ _ h => by cases h; rfl) equal

omit [Platform] in
theorem SameIdentity.sampleRateHz {c d : Context} (same : SameIdentity c d) :
    c.sampleRateHz = d.sampleRateHz := by
  have equal := same .sampleRateHz (by decide)
  simp only [Context.get] at equal
  exact Option.map_injective (fun _ _ h => by cases h; rfl) equal

omit [Platform] in
theorem SameIdentity.componentDtype {c d : Context} (same : SameIdentity c d) :
    c.componentDtype.join = d.componentDtype.join := by
  have equal := same .componentDtype (by decide)
  simp only [Context.get] at equal
  exact Option.map_injective (fun _ _ h => by cases h; rfl) equal

omit [Platform] in
theorem SameIdentity.isComplex {c d : Context} (same : SameIdentity c d) : c.isComplex = d.isComplex := by
  have equal := same .isComplex (by decide)
  simp only [Context.get] at equal
  exact Option.map_injective (fun _ _ h => by cases h; rfl) equal

theorem Context.Usable.positive {c : Context} {name : String} {complex : Bool} {group : Nat}
    (usable : c.Usable name complex group) : 0 < group := by
  obtain ⟨dt, known, numeric, positive, rfl⟩ := usable.wire
  cases complex <;> simp <;> omega

theorem Context.Usable.sameIdentity {c d : Context} {name : String} {complex : Bool} {group : Nat}
    (usable : c.Usable name complex group) (same : SameIdentity c d) (classified : d.Classified) :
    d.Usable name complex group := by
  have dtype := same.componentDtype
  rw [usable.componentDtype, Option.join_some] at dtype
  rcases classified with ⟨name', complex', group', usable'⟩ | unusable
  · rw [usable'.componentDtype, Option.join_some] at dtype
    have complex_eq := same.isComplex
    rw [usable.isComplex, usable'.isComplex] at complex_eq
    cases dtype
    cases complex_eq
    obtain ⟨dt, known, numeric, positive, size⟩ := usable.wire
    obtain ⟨dt', known', numeric', positive', size'⟩ := usable'.wire
    rw [known] at known'
    cases known'
    rw [size, ← size']
    exact usable'
  · rw [unusable.componentDtype] at dtype
    cases dtype

namespace Lane

structure Sound (l : Lane) : Prop where
  cut : Segmentation Packet.Stray Packet.Follows l.received (l.closed.map Window.packets) l.packets
  last : l.last = l.received.getLast?.map Packet.counter
  covered : l.packets ≠ [] → ∃ c, l.context = some c ∧ Covers c l.packets
  labelled : ∀ w ∈ l.closed, ∃ c, w.label = some c ∧ Covers c w.packets

/-- What the interpreter promises of each input: contexts are classified, a packet is read under the
    context in force, and its gap flag compares it with the stream's last packet. -/
def Fits (l : Lane) : Input → Prop
  | .adopt ctx => ctx.Classified
  | .packet p => l.context = some p.context ∧ p.metadata.gapBefore = Interpreter.gapAfter l.last p.counter ∧
      ∃ name complex group, p.context.Usable name complex group ∧ p.Reads name complex group
  | _ => True

theorem sound_initial : Sound initial where
  cut := .empty
  last := rfl
  covered := fun h => absurd rfl h
  labelled := by intro w member; cases member

theorem Sound.close {l : Lane} (sound : l.Sound) : l.close.Sound := by
  unfold Lane.close
  split
  · exact sound
  · rename_i opened
    refine ⟨?_, sound.last, fun h => absurd rfl h, ?_⟩
    · simpa using sound.cut.close opened
    · intro w member
      rcases List.mem_append.mp member with earlier | here
      · exact sound.labelled w earlier
      · rw [List.mem_singleton.mp here]
        exact sound.covered opened

theorem Sound.closeIf {l : Lane} (sound : l.Sound) (condition : Prop) [Decidable condition] :
    (l.closeIf condition).Sound := by
  unfold Lane.closeIf
  split
  · exact sound.close
  · exact sound

omit [Platform] in
@[simp] theorem close_context (l : Lane) : l.close.context = l.context := by
  unfold close; split <;> rfl

omit [Platform] in
@[simp] theorem close_last (l : Lane) : l.close.last = l.last := by
  unfold close; split <;> rfl

omit [Platform] in
@[simp] theorem close_received (l : Lane) : l.close.received = l.received := by
  unfold close; split <;> rfl

omit [Platform] in
@[simp] theorem close_packets (l : Lane) : l.close.packets = [] := by
  unfold close
  split
  · assumption
  · rfl

omit [Platform] in
@[simp] theorem closeIf_context (l : Lane) (condition : Prop) [Decidable condition] :
    (l.closeIf condition).context = l.context := by
  unfold closeIf; split <;> simp

omit [Platform] in
@[simp] theorem closeIf_last (l : Lane) (condition : Prop) [Decidable condition] :
    (l.closeIf condition).last = l.last := by
  unfold closeIf; split <;> simp

omit [Platform] in
@[simp] theorem closeIf_received (l : Lane) (condition : Prop) [Decidable condition] :
    (l.closeIf condition).received = l.received := by
  unfold closeIf; split <;> simp

omit [Platform] in
@[simp] theorem record_context (l : Lane) (p : Packet) : (l.record p).context = l.context := by
  unfold record join; split <;> rfl

omit [Platform] in
@[simp] theorem record_closed (l : Lane) (p : Packet) : (l.record p).closed = l.closed := by
  unfold record join; split <;> rfl

theorem Sound.adopt {l : Lane} (sound : l.Sound) {ctx : Context} (classified : ctx.Classified) :
    (l.adopt ctx).Sound := by
  have closed := sound.closeIf (l.context.any (fun old => ¬ SameIdentity old ctx) = true)
  refine ⟨closed.cut, closed.last, ?_, closed.labelled⟩
  intro opened
  change (l.closeIf _).packets ≠ [] at opened
  unfold Lane.closeIf at opened
  split at opened
  · simp at opened
  · rename_i kept
    obtain ⟨c, inForce, name, complex, group, usable, packets⟩ := sound.covered opened
    have same : SameIdentity c ctx := by simpa [inForce] using kept
    refine ⟨ctx, rfl, name, complex, group, usable.sameIdentity same classified, ?_⟩
    unfold Lane.adopt Lane.closeIf
    rw [if_neg kept]
    exact fun p member => ⟨(packets p member).1.trans same, (packets p member).2⟩

omit [Platform] in
theorem gapAfter_false {last : Option Nat} {counter : Nat} (noGap : ¬ Interpreter.gapAfter last counter = true)
    {prev : Nat} (known : last = some prev) : counter = (prev + 1) % 16 := by
  simpa [Interpreter.gapAfter, known] using noGap

theorem Sound.record {l : Lane} (sound : l.Sound) {p : Packet} (fits : l.Fits (.packet p)) :
    ((l.closeIf (Interpreter.gapAfter l.last p.counter = true)).record p).Sound := by
  obtain ⟨inForce, gap, name, complex, group, usable, reads⟩ := fits
  have closed := sound.closeIf (Interpreter.gapAfter l.last p.counter = true)
  have noGap : (l.closeIf (Interpreter.gapAfter l.last p.counter = true)).packets ≠ [] →
      ¬ Interpreter.gapAfter l.last p.counter = true := by
    intro opened gapped
    rw [Lane.closeIf, if_pos gapped, close_packets] at opened
    exact opened rfl
  generalize before : l.closeIf (Interpreter.gapAfter l.last p.counter = true) = m at closed noGap
  have context : m.context = some p.context := by rw [← before, closeIf_context, inForce]
  have last : m.last = l.last := by rw [← before, closeIf_last]
  have counted : some p.counter = (m.received ++ [p]).getLast?.map Packet.counter := by simp
  by_cases stray : p.data = [] ∧ m.packets = []
  · have same : m.record p = { m with last := some p.counter, received := m.received ++ [p] } := by
      rw [Lane.record, Lane.join, if_pos stray]
    rw [same]
    refine ⟨?_, counted, fun opened => absurd stray.2 opened, closed.labelled⟩
    have strays := closed.cut
    rw [stray.2] at strays
    dsimp only
    rw [stray.2]
    exact strays.stray stray.1
  · have same : m.record p =
        { m with packets := m.packets ++ [p], last := some p.counter, received := m.received ++ [p] } := by
      rw [Lane.record, Lane.join, if_neg stray]
    rw [same]
    refine ⟨?_, counted, ?_, closed.labelled⟩
    · rcases List.eq_nil_or_concat' m.packets with nil | ⟨earlier, q, split⟩
      · have start := closed.cut
        rw [nil] at start
        dsimp only
        rw [nil]
        exact start.start fun empty => stray ⟨empty, nil⟩
      · have extend := closed.cut
        rw [split] at extend
        have atEnd : m.received.getLast? = some q := by
          obtain ⟨front, whole⟩ := extend.isSuffix
          rw [← whole, ← List.append_assoc, List.getLast?_concat]
        have known : l.last = some q.counter := by rw [← last, closed.last, atEnd, Option.map_some]
        have follows : Packet.Follows q p := gapAfter_false (noGap (by simp [split])) known
        dsimp only
        rw [split]
        exact extend.extend follows
    · intro _
      refine ⟨p.context, context, name, complex, group, usable, ?_⟩
      intro q member
      rcases List.mem_append.mp member with earlier | here
      · obtain ⟨c, inForce', name', complex', group', usable', packets⟩ :=
          closed.covered (List.ne_nil_of_mem earlier)
        rw [context] at inForce'
        cases inForce'
        obtain ⟨identity, reads'⟩ := packets q earlier
        have dtype := usable.componentDtype.symm.trans usable'.componentDtype
        have complex_eq := usable.isComplex.symm.trans usable'.isComplex
        have size := usable.bytesPerSample.symm.trans usable'.bytesPerSample
        simp only [Option.some.injEq, Int.natCast_inj] at dtype complex_eq size
        rw [dtype, complex_eq, size]
        exact ⟨identity, reads'⟩
      · rw [List.mem_singleton.mp here]
        exact ⟨.refl _, reads⟩

theorem Sound.step {l : Lane} (sound : l.Sound) (limits : Limits) {input : Input} (fits : l.Fits input) :
    (l.step limits input).Sound := by
  cases input with
  | adopt ctx => exact sound.adopt fits
  | packet p => exact (sound.record fits).closeIf _
  | poll now => exact sound.closeIf _
  | flush => exact sound.close

theorem Sound.window {l : Lane} (sound : l.Sound) {w : Window} (member : w ∈ l.closed) :
    ∃ c name complex group first rest, w.label = some c ∧ c.Usable name complex group ∧
      w.packets = first :: rest ∧ first.data ≠ [] ∧
      ∀ p ∈ w.packets, SameIdentity p.context c ∧ p.Reads name complex group := by
  obtain ⟨c, label, name, complex, group, usable, covered⟩ := sound.labelled w member
  obtain ⟨first, rest, split, solid⟩ := sound.cut.head.1 w.packets (List.mem_map_of_mem member)
  exact ⟨c, name, complex, group, first, rest, label, usable, split, solid, covered⟩

end Lane

end Sceptre
