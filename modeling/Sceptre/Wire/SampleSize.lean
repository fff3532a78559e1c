import Sceptre.Interpreter.Outcomes

namespace Sceptre

open Foundation

variable [Platform]

theorem walkCif_keeps {Holds : Context → Prop}
    (flag : ∀ ctx, Holds ctx → Holds { ctx with contextFieldChange := some true })
    (fields : ∀ bit field ctx, Holds ctx → Holds (decodeField bit field ctx)) {b : Bytes} {endLimit cif : Nat}
    {bits : List Nat} {offset : Nat} {start ctx : Context} (holds : Holds start)
    (walked : walkCif b endLimit cif bits offset start = .ok ctx) : Holds ctx := by
  induction bits generalizing offset start with
  | nil =>
    cases walked
    exact holds
  | cons bit rest ih =>
    simp only [walkCif] at walked
    split at walked
    · exact ih holds walked
    split at walked
    · exact ih (flag _ holds) walked
    split at walked
    · cases walked
      exact holds
    · split at walked
      · cases walked
      · exact ih (fields _ _ _ holds) walked

theorem decodeContext_keeps {Holds : Context → Prop}
    (flag : ∀ ctx, Holds ctx → Holds { ctx with contextFieldChange := some true })
    (fields : ∀ bit field ctx, Holds ctx → Holds (decodeField bit field ctx)) (start : Holds {}) {b : Bytes}
    {hdr : Header} {ctx : Context} (decoded : decodeContext b hdr = .ok ctx) : Holds ctx := by
  unfold decodeContext at decoded
  dsimp only at decoded
  split at decoded
  · cases decoded
  · exact walkCif_keeps flag fields start decoded

def Context.SmallSamples (ctx : Context) : Prop := ∀ size, ctx.bytesPerSample.join = some size → size ≤ 16

omit [Platform] in
theorem decodePayloadFormat_small (u : Nat) {size : Int} (sized : (decodePayloadFormat u).bytesPerSample = some size) :
    size ≤ 16 := by
  have bits : (decodePayloadFormat u).itemBits ≤ 64 := by
    show ((u >>> 32) &&& 0x3F) + 1 ≤ 64
    have masked : (u >>> 32) &&& 0x3F ≤ 0x3F := Nat.and_le_right
    omega
  have kept : (decodePayloadFormat u).bytesPerSample =
      if (decodePayloadFormat u).supported then
        (some ((if (decodePayloadFormat u).isComplex then 2 else 1) *
          ((decodePayloadFormat u).itemBits / 8 : Nat)) : Option Int) else none := rfl
  rw [kept] at sized
  split at sized
  · cases sized
    split <;> omega
  · cases sized

theorem decodeField_small (bit : Nat) (field : Bytes) (ctx : Context) (small : ctx.SmallSamples) :
    (decodeField bit field ctx).SmallSamples := by
  unfold decodeField
  split
  · exact small
  split
  · exact small
  split
  · exact small
  split
  · exact small
  split
  · exact fun size sized => decodePayloadFormat_small (fromBytes field) sized
  · exact small

theorem decodeContext_small {b : Bytes} {hdr : Header} {ctx : Context} (decoded : decodeContext b hdr = .ok ctx) :
    ctx.SmallSamples :=
  decodeContext_keeps (fun _ small => small) decodeField_small (fun _ sized => by cases sized) decoded

/-- The contexts of every reachable interpreter have small samples. -/
theorem Interpreter.small_run (maxStreams : Int) (datagrams : List Bytes) (s : StreamId) (ctx : Context)
    (inForce : (run datagrams (new maxStreams)).contexts.get? s = some ctx) : ctx.SmallSamples := by
  refine run_invariant (fun i => ∀ s ctx, i.contexts.get? s = some ctx →
    ctx.SmallSamples) _ ?_ ?_ datagrams s ctx inForce
  · intro s ctx found
    cases found
  · intro i raw out i' small outcome s ctx found
    cases outcome with
    | @context hdr decoded' parsed kind admitted decoded =>
      dsimp only at found
      rw [OrderedDict.get?_insert] at found
      split at found
      · cases found
        exact decodeContext_small decoded
      · exact small s ctx found
    | _ => exact small s ctx found

end Sceptre
