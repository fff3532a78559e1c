import Sceptre.Interpreter.Model
import Sceptre.Wire.HeaderLayout

namespace Sceptre

open Foundation

theorem extract_append_left {b : Bytes} {start stop : Nat} (begins : start ≤ b.length) (ends : stop ≤ b.length)
    (rest : Bytes) : (b ++ rest).extract start stop = b.extract start stop := by
  rw [List.extract_eq_take_drop, List.extract_eq_take_drop, List.drop_append_of_le_length begins]
  apply List.take_append_of_le_length
  rw [List.length_drop]
  omega

theorem walkCif_append [Platform] {b : Bytes} {endLimit : Nat} (inside : endLimit ≤ b.length) (rest : Bytes)
    (cif : Nat) (bits : List Nat) (offset : Nat) (ctx : Context) :
    walkCif (b ++ rest) endLimit cif bits offset ctx = walkCif b endLimit cif bits offset ctx := by
  induction bits generalizing offset ctx with
  | nil => rfl
  | cons bit bits ih =>
    rw [walkCif, walkCif]
    by_cases unset : (cif >>> bit) &&& 1 = 0
    · rw [if_pos unset, if_pos unset]
      exact ih offset ctx
    · rw [if_neg unset, if_neg unset]
      by_cases indicator : bit = contextFieldChangeBit
      · rw [if_pos indicator, if_pos indicator]
        exact ih offset _
      · rw [if_neg indicator, if_neg indicator]
        cases fieldSize bit with
        | none => rfl
        | some size =>
          dsimp only
          by_cases cut : offset + size > endLimit
          · rw [if_pos cut, if_pos cut]
          · rw [if_neg cut, if_neg cut, extract_append_left (by omega) (by omega)]
            exact ih _ _

theorem decodeContext_append [Platform] {b : Bytes} {hdr : Header} (declared : b.length = 4 * hdr.packetSize)
    (rest : Bytes) : decodeContext (b ++ rest) hdr = decodeContext b hdr := by
  have limit : min (b ++ rest).length (hdr.packetSize * 4) = min b.length (hdr.packetSize * 4) := by
    rw [List.length_append]
    omega
  rw [decodeContext, decodeContext, limit]
  dsimp only
  by_cases cut : min b.length (hdr.packetSize * 4) < hdr.headerLen + 4
  · rw [if_pos cut, if_pos cut]
  · rw [if_neg cut, if_neg cut, extract_append_left (by omega) (by omega), walkCif_append (by omega)]

theorem trimData_append {b : Bytes} {hdr : Header} (declared : b.length = 4 * hdr.packetSize)
    (whole : hdr.headerLen ≤ b.length) (rest : Bytes) (bytesPerSample : Int) :
    trimData (b ++ rest) hdr bytesPerSample = trimData b hdr bytesPerSample := by
  have long : ¬ (b ++ rest).length < hdr.packetSize * 4 := by
    rw [List.length_append]
    omega
  have here : ¬ b.length < hdr.packetSize * 4 := by omega
  have limit : min (b ++ rest).length (hdr.packetSize * 4) = min b.length (hdr.packetSize * 4) := by
    rw [List.length_append]
    omega
  have stop : max hdr.headerLen (min b.length (hdr.packetSize * 4) - if hdr.hasTrailer then trailerSize else 0) ≤
      b.length := by omega
  rw [trimData, trimData, if_neg long, if_neg here, limit]
  dsimp only
  rw [extract_append_left whole stop]

/-- Bytes after the declared end of a datagram have no effect: the same result, and the same interpreter. -/
theorem process_ignores_tail [Platform] (i : Interpreter) (b tail : Bytes) (hdr : Header)
    (parsed : parseHeader b = .ok hdr) (declared : b.length = 4 * hdr.packetSize) (whole : hdr.headerLen ≤ b.length) :
    Interpreter.process (b ++ tail) i = Interpreter.process b i := by
  have raw : Interpreter.processRaw (b ++ tail) i = Interpreter.processRaw b i := by
    rw [Interpreter.processRaw, Interpreter.processRaw, parsed, parseHeader_append parsed]
    dsimp only
    rw [Interpreter.processContext, Interpreter.processContext, Interpreter.processData, Interpreter.processData,
      decodeContext_append declared]
    simp only [trimData_append declared whole]
  rw [Interpreter.process, Interpreter.process, raw]

namespace Exact

def oneStream : Interpreter :=
  { Interpreter.new 256 with
    contexts := OrderedDict.empty.insert (some 123)
      { supported := some true, componentDtype := some (some ">f4"), bytesPerSample := some (some 8),
        isComplex := some true } }

theorem process_ignores_glued :
    let b := (fullHeader 11).encode ++ [1, 2, 3, 4, 5, 6, 7, 8, 0, 0, 0, 0, 0xAA, 0xAA, 0xAA, 0xAA]
    Interpreter.process (b ++ b) oneStream = Interpreter.process b oneStream := by
  intro b
  have well := fullHeader_wellFormed 11 (by decide) (.inl rfl)
  exact process_ignores_tail oneStream b b (fullHeader 11) (well.parse _) (by decide +kernel) (by decide +kernel)

end Exact

theorem trimData_encoded {h : Header} (well : h.WellFormed) {group : Nat} {payload pad trailer : Bytes}
    (whole : group ∣ payload.length) (short : pad.length < group)
    (flagged : trailer.length = if h.hasTrailer then trailerSize else 0)
    (filled : h.headerLen + payload.length + pad.length + trailer.length = 4 * h.packetSize) :
    trimData (h.encode ++ payload ++ pad ++ trailer) h group = .ok (payload, (payload.length / group : Nat)) := by
  have header : h.encode.length = h.headerLen := by rw [well.encode_length, well.headerLen_eq]
  have length : (h.encode ++ payload ++ pad ++ trailer).length = h.packetSize * 4 := by
    rw [List.length_append, List.length_append, List.length_append, header]
    omega
  have stop : max h.headerLen (h.packetSize * 4 - if h.hasTrailer then trailerSize else 0) =
      h.headerLen + (payload ++ pad).length := by
    rw [← flagged, List.length_append]
    omega
  have body : (h.encode ++ payload ++ pad ++ trailer).extract h.headerLen (h.headerLen + (payload ++ pad).length) =
      payload ++ pad := by
    have split : h.encode ++ payload ++ pad ++ trailer = h.encode ++ ((payload ++ pad) ++ trailer) := by
      simp only [List.append_assoc]
    rw [split, List.extract_eq_take_drop, List.drop_left' header, Nat.add_sub_cancel_left, List.take_left]
  have count : (payload ++ pad).length / group = payload.length / group := by
    obtain ⟨samples, same⟩ := whole
    rw [List.length_append, same, Nat.mul_add_div (by omega), Nat.div_eq_of_lt short, Nat.add_zero,
      Nat.mul_div_cancel_left _ (by omega)]
  have nonzero : (group : Int) ≠ 0 := by omega
  have taken : (((payload.length / group : Nat) : Int) * group).toNat = payload.length := by
    rw [← Int.natCast_mul, Int.toNat_natCast, Nat.div_mul_cancel whole]
  rw [trimData, length, if_neg (by omega)]
  dsimp only
  rw [Nat.min_self, stop, body, if_neg nonzero, Int.fdiv_eq_ediv_of_nonneg _ (by omega), ← Int.natCast_ediv,
    count, taken, List.take_left]

/-- A data packet built from a header and a payload comes back as a record with exactly that payload. -/
theorem process_data_roundtrip [Platform] (i : Interpreter) (s group : Nat) (ctx : Context) (h : Header)
    (payload pad trailer : Bytes) (tracked : i.contexts.get? (some s) = some ctx)
    (supported : ctx.supported ≠ some false) (sized : ctx.bytesPerSample.join = some (group : Int))
    (well : h.WellFormed) (kind : h.packetType = packetTypeIfData) (own : h.streamId = some s)
    (whole : group ∣ payload.length) (short : pad.length < group)
    (flagged : trailer.length = if h.hasTrailer then trailerSize else 0)
    (filled : h.headerLen + payload.length + pad.length + trailer.length = 4 * h.packetSize) :
    let raw := h.encode ++ payload ++ pad ++ trailer
    trimData raw h group = .ok (payload, (payload.length / group : Nat)) ∧
      ∃ md, Interpreter.process raw i = (.ok (some (.data md payload)),
          { i with lastCounter := i.lastCounter.insert (some s) h.packetCounter }) ∧
        md.streamId = some s ∧ md.counter = h.packetCounter ∧ md.timestamp = some h.timestamp ∧
        md.dtype = ctx.componentDtype.join ∧ md.bytesPerSample = some (group : Int) ∧ md.isComplex = ctx.isComplex := by
  intro raw
  have trimmed := trimData_encoded well whole short flagged filled
  have parsed : parseHeader raw = .ok h := by
    have front : raw = h.encode ++ (payload ++ pad ++ trailer) := by simp only [raw, List.append_assoc]
    rw [front]
    exact well.parse _
  refine ⟨trimmed, Interpreter.metadata h ctx (Interpreter.gapAfter (i.lastCounter.get? (some s)) h.packetCounter), ?_,
    own, rfl, rfl, rfl, sized, rfl⟩
  have data : h.packetType ≠ packetTypeIfContext := by
    rw [kind]
    decide
  have handled : ¬ h.packetType ∉ [packetTypeIfData, packetTypeIfContext] := by
    rw [kind]
    decide
  have returned : Interpreter.processData raw h i = (.ok (some (.data
      (Interpreter.metadata h ctx (Interpreter.gapAfter (i.lastCounter.get? (some s)) h.packetCounter)) payload)),
      { i with lastCounter := i.lastCounter.insert (some s) h.packetCounter }) := by
    rw [Interpreter.processData, own, tracked]
    dsimp only
    rw [if_neg supported, sized]
    dsimp only
    rw [trimmed]
  rw [Interpreter.process, Interpreter.processRaw, parsed]
  dsimp only
  rw [if_neg handled, if_neg data, returned]

namespace Exact

theorem process_data_padded :
    let raw := (fullHeader 11).encode ++ [1, 2, 3, 4, 5, 6, 7, 8] ++ [0, 0, 0, 0] ++ [0xAA, 0xAA, 0xAA, 0xAA]
    trimData raw (fullHeader 11) (8 : Nat) = .ok ([1, 2, 3, 4, 5, 6, 7, 8], (1 : Nat)) ∧
      ∃ md, (Interpreter.process raw oneStream).1 = .ok (some (.data md [1, 2, 3, 4, 5, 6, 7, 8])) ∧ md.counter = 9 ∧
        md.dtype = some ">f4" := by
  intro raw
  have well := fullHeader_wellFormed 11 (by decide) (.inl rfl)
  obtain ⟨trimmed, md, returned, -, counter, -, dtype, -, -⟩ := process_data_roundtrip oneStream 123 8 _ (fullHeader 11)
    [1, 2, 3, 4, 5, 6, 7, 8] [0, 0, 0, 0] [0xAA, 0xAA, 0xAA, 0xAA] rfl (by decide) rfl well rfl rfl (by decide)
    (by decide) rfl rfl
  exact ⟨trimmed, md, by rw [returned], counter, dtype⟩

end Exact

end Sceptre
