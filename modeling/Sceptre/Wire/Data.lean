import Sceptre.Wire.Header

namespace Sceptre

def trimData (b : Bytes) (hdr : Header) (bytesPerSample : Int) : Except Exn (Bytes × Int) :=
  let declared := hdr.packetSize * 4
  if b.length < declared then
    .error (.valueError
      s!"data packet truncated: {b.length} bytes < declared packet_size {hdr.packetSize} words ({declared} bytes)")
  else
    let start := hdr.headerLen
    let stop := max start (min b.length declared - (if hdr.hasTrailer then trailerSize else 0))
    let body := b.extract start stop
    if bytesPerSample = 0 then .error .zeroDivisionError
    else
      let numSamples := Int.fdiv body.length bytesPerSample
      .ok (body.take (numSamples * bytesPerSample).toNat, numSamples)

theorem trimData_ok {b : Bytes} {hdr : Header} {group : Nat} {body : Bytes} {numSamples : Int}
    (positive : 0 < group) (trimmed : trimData b hdr group = .ok (body, numSamples)) :
    hdr.packetSize * 4 ≤ b.length ∧ group ∣ body.length ∧ numSamples = (body.length / group : Nat) := by
  unfold trimData at trimmed
  have nonzero : (group : Int) ≠ 0 := by omega
  simp only [nonzero, if_false] at trimmed
  split at trimmed
  · cases trimmed
  · rename_i complete
    simp only [Except.ok.injEq, Prod.mk.injEq] at trimmed
    obtain ⟨taken, counted⟩ := trimmed
    rw [Int.fdiv_eq_ediv_of_nonneg _ (by omega)] at taken counted
    generalize b.extract _ _ = whole at taken counted
    have length : body.length = whole.length / group * group := by
      rw [← taken, List.length_take, ← Int.natCast_ediv, ← Int.natCast_mul, Int.toNat_natCast]
      exact Nat.min_eq_left (Nat.div_mul_le_self _ _)
    refine ⟨by omega, ⟨_, length.trans (Nat.mul_comm _ _)⟩, ?_⟩
    rw [length, Nat.mul_div_cancel _ positive, ← counted, Int.natCast_ediv]

end Sceptre
