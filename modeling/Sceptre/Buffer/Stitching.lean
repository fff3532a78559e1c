import Sceptre.Buffer.Accounts
import Sceptre.Buffer.Rules

namespace Sceptre

open Foundation

namespace IngestBuffer

variable [Platform]

theorem frombuffer_raw {raw : Bytes} {name : Option String} {arr : NdArray × DType}
    (read : frombuffer raw name = .ok arr) : arr.1.raw = raw := by
  unfold frombuffer at read
  split at read
  · cases read
  · split at read
    · cases read
    · split at read
      · cases read
      · cases read
        rfl

theorem convert_raw {b : IngestBuffer} {samples : NdArray} (converted : b.convert = .ok samples) :
    samples.raw = b.chunks.flatten := by
  unfold IngestBuffer.convert at converted
  cases read : frombuffer b.chunks.flatten b.componentDtype with
  | error e =>
    rw [read] at converted
    cases converted
  | ok arr =>
    have same := frombuffer_raw read
    by_cases numeric : arr.2.numeric = true
    · have floats : astypeFloat32 arr = .ok arr.1 := if_pos numeric
      simp only [read, Bind.bind, Except.bind, floats] at converted
      split at converted
      · unfold viewComplex64 at converted
        split at converted
        · cases converted
        · cases converted
          exact same
      · cases converted
        exact same
    · have raised : astypeFloat32 arr = .error (.valueError "could not convert to float32") := if_neg numeric
      simp only [read, Bind.bind, Except.bind, raised] at converted
      cases converted

theorem flush_cases (b : IngestBuffer) (k : Consumer) :
    (∃ e, IngestBuffer.flush (b, k) = (.error e, b, k)) ∨
      (b.chunks = [] ∧ IngestBuffer.flush (b, k) = (.ok (), b, k)) ∨
      ∃ samples, b.chunks ≠ [] ∧ samples.raw = b.chunks.flatten ∧
        (IngestBuffer.flush (b, k)).2 = (b.reset, { k with sent := k.sent ++ [b.unit samples] }) := by
  unfold IngestBuffer.flush
  by_cases closed : b.chunks = []
  · exact .inr (.inl ⟨closed, if_pos closed⟩)
  · dsimp only
    rw [if_neg closed]
    cases converted : b.convert with
    | error e => exact .inl ⟨e, rfl⟩
    | ok samples => exact .inr (.inr ⟨samples, closed, convert_raw converted, rfl⟩)

structure Unstitched (before : IngestBuffer × Consumer) (body : Bytes) (after : IngestBuffer × Consumer) : Prop where
  window : after.1.chunks = before.1.chunks ∨ after.1.chunks = [] ∨ after.1.chunks = [body]
  units : ∃ fresh, after.2.sent = before.2.sent ++ fresh ∧
    ∀ u ∈ fresh, u.samples.raw = before.1.chunks.flatten ∨ u.samples.raw = body

variable {before s : IngestBuffer × Consumer} {body : Bytes}

omit [Platform] in
theorem Unstitched.refl (s : IngestBuffer × Consumer) (body : Bytes) : Unstitched s body s where
  window := .inl rfl
  units := ⟨[], (List.append_nil s.2.sent).symm, fun _ member => absurd member List.not_mem_nil⟩

omit [Platform] in
theorem Unstitched.kept (unstitched : Unstitched before body s) {b : IngestBuffer}
    (chunks : b.chunks = s.1.chunks ∨ b.chunks = [] ∨ b.chunks = [body]) : Unstitched before body (b, s.2) := by
  constructor
  · rcases chunks with same | other
    · rw [show ((b, s.2) : IngestBuffer × Consumer).1.chunks = s.1.chunks from same]
      exact unstitched.window
    · exact .inr other
  · exact unstitched.units

theorem flush_unstitched (before : IngestBuffer × Consumer) (body : Bytes) :
    Triple (Unstitched before body) IngestBuffer.flush
      (fun _ s => Unstitched before body s ∧ s.1.chunks = []) (Unstitched before body) := by
  rw [Triple.iff_runs]
  rintro ⟨b, k⟩ unstitched
  rcases flush_cases b k with ⟨e, raised⟩ | ⟨closed, returned⟩ | ⟨samples, opened, raw, emptied⟩
  · rw [raised]
    exact unstitched
  · rw [returned]
    exact ⟨unstitched, closed⟩
  · have flushed : Unstitched before body (IngestBuffer.flush (b, k)).2 := by
      rw [emptied]
      constructor
      · exact .inr (.inl rfl)
      · obtain ⟨fresh, sent, apart⟩ := unstitched.units
        refine ⟨fresh ++ [b.unit samples], ?_, ?_⟩
        · rw [← List.append_assoc, ← sent]
        · intro u member
          rcases List.mem_append.mp member with earlier | here
          · exact apart u earlier
          · rw [List.mem_singleton.mp here]
            rcases unstitched.window with same | empty | alone
            · left
              exact raw.trans (congrArg List.flatten same)
            · exact absurd empty opened
            · right
              rw [show (b.unit samples).samples.raw = b.chunks.flatten from raw, show b.chunks = [body] from alone,
                List.flatten_singleton]
    have closed : (IngestBuffer.flush (b, k)).2.1.chunks = [] := by
      rw [emptied]
      rfl
    cases ran : IngestBuffer.flush (b, k) with
    | mk result s' =>
      rw [ran] at flushed closed
      cases result with
      | ok _ => exact ⟨flushed, closed⟩
      | error e => exact flushed

theorem append_unstitched (before : IngestBuffer × Consumer) (md : Metadata) (body : Bytes) (dtype : String) (bps : Int)
    (now : ℚ) :
    Triple (fun s => Unstitched before body s ∧ s.1.chunks = []) (append md body dtype bps now)
      (fun _ => Unstitched before body) (Unstitched before body) := by
  apply append_rule
  · rintro s ⟨unstitched, -⟩ -
    exact unstitched.kept (.inl rfl)
  · rintro s b ⟨unstitched, closed⟩ opened
    obtain ⟨chunks, -, -⟩ := openWindow_frame opened
    have alone : (b.appendChunk body bps).chunks = [body] := by
      rw [appendChunk, chunks, closed, List.nil_append]
    have appended := unstitched.kept (.inr (.inr alone))
    apply Triple.when
    · intro _
      have flushed := (flush_unstitched before body).weaken fun _ _ flushed => flushed.1
      apply flushed.narrow
      rintro _ rfl
      exact appended
    · rintro - _ rfl
      exact appended

theorem push_unstitched (before : IngestBuffer × Consumer) (md : Metadata) (body : Bytes) (now : ℚ)
    (gap : md.gapBefore = true) : Unstitched before body (IngestBuffer.push (.data md body) now before).2 := by
  have triple : Triple (· = before) (pushData md body now) (fun _ => Unstitched before body)
      (Unstitched before body) := by
    apply pushData_rule (fun s => Unstitched before body s ∧ s.1.chunks = [])
      fun _ _ s => Unstitched before body s ∧ s.1.chunks = []
    · exact (Unstitched.refl before body).kept (.inl rfl)
    · apply Triple.when
      · intro _
        apply (flush_unstitched before body).narrow
        rintro _ rfl
        exact .refl _ body
      · rintro skipped s rfl
        have closed : s.1.chunks = [] := by
          by_contra opened
          exact skipped ⟨opened, gap⟩
        exact ⟨.refl s body, closed⟩
    · rintro dtype bps s ⟨unstitched, closed⟩
      apply Triple.when
      · rintro ⟨opened, -⟩
        exact absurd closed opened
      · rintro - _ rfl
        exact ⟨unstitched, closed⟩
    · exact fun dtype bps _ _ => append_unstitched before md body dtype bps now
    · exact fun _ _ _ _ later => later.1
  exact triple.always rfl

end IngestBuffer

end Sceptre
