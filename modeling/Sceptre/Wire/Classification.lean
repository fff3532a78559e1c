import Sceptre.Wire.Context

namespace Sceptre

variable [Platform]

/-- The format keys of a supported context: numpy reads `name` as a numeric component, and one sample
    is one component, or two when it is complex. -/
structure Context.Usable (ctx : Context) (name : String) (complex : Bool) (group : Nat) : Prop where
  supported : ctx.supported = some true
  componentDtype : ctx.componentDtype = some (some name)
  isComplex : ctx.isComplex = some complex
  bytesPerSample : ctx.bytesPerSample = some (some (group : Int))
  wire : ∃ dt, Platform.dtype name = some dt ∧ dt.numeric = true ∧ 0 < dt.itemsize ∧
    group = (if complex then 2 else 1) * dt.itemsize

structure Context.Unusable (ctx : Context) : Prop where
  supported : ctx.supported ≠ some true
  componentDtype : ctx.componentDtype.join = none
  bytesPerSample : ctx.bytesPerSample.join = none

def Context.Classified (ctx : Context) : Prop :=
  (∃ name complex group, ctx.Usable name complex group) ∨ ctx.Unusable

omit [Platform] in
theorem itemFormatDtypes_mem {format bits : Nat} {name : String}
    (found : itemFormatDtypes.lookup (format, bits) = some name) :
    ((format, bits), name) ∈ itemFormatDtypes := by
  obtain ⟨before, after, split, -⟩ := List.lookup_eq_some_iff.mp found
  rw [split]
  exact List.mem_append_right _ (List.mem_cons_self ..)

omit [Platform] in
theorem itemFormatDtypes_bits {format bits : Nat} {name : String}
    (member : ((format, bits), name) ∈ itemFormatDtypes) : 8 ≤ bits := by
  have all : ∀ entry ∈ itemFormatDtypes, 8 ≤ entry.1.2 := by decide
  exact all _ member

theorem decodePayloadFormat_supported (u : Nat) (supported : (decodePayloadFormat u).supported = true) :
    ∃ name dt, (decodePayloadFormat u).componentDtype = some name ∧
      Platform.dtype name = some dt ∧ dt.numeric = true ∧ 0 < dt.itemsize ∧
      (decodePayloadFormat u).bytesPerSample =
        some (((if (decodePayloadFormat u).isComplex then 2 else 1) * dt.itemsize : Nat) : Int) := by
  have listed : itemFormatDtypes.lookup
      ((decodePayloadFormat u).dataItemFormat, (decodePayloadFormat u).itemBits) ≠ none := by
    simp only [decodePayloadFormat, decide_eq_true_eq] at supported ⊢
    exact supported.2.2.1
  obtain ⟨name, found⟩ := Option.ne_none_iff_exists'.mp listed
  have member := itemFormatDtypes_mem found
  have bits := itemFormatDtypes_bits member
  obtain ⟨dt, known, numeric, size⟩ := Platform.wireNames _ member
  dsimp only at known size
  refine ⟨name, dt, ?_, known, numeric, by omega, ?_⟩
  · have kept : (decodePayloadFormat u).componentDtype =
        if (decodePayloadFormat u).supported then itemFormatDtypes.lookup
          ((decodePayloadFormat u).dataItemFormat, (decodePayloadFormat u).itemBits) else none := rfl
    rw [kept, if_pos supported, found]
  · have kept : (decodePayloadFormat u).bytesPerSample =
        if (decodePayloadFormat u).supported then
          (some ((if (decodePayloadFormat u).isComplex then 2 else 1) *
            ((decodePayloadFormat u).itemBits / 8 : Nat)) : Option Int) else none := rfl
    rw [kept, if_pos supported, size]
    cases (decodePayloadFormat u).isComplex <;> simp

omit [Platform] in
theorem decodePayloadFormat_unsupported (u : Nat) (unsupported : (decodePayloadFormat u).supported = false) :
    (decodePayloadFormat u).componentDtype = none ∧ (decodePayloadFormat u).bytesPerSample = none := by
  simp only [decodePayloadFormat] at unsupported ⊢
  simp only [unsupported, Bool.false_eq_true, if_false, and_self]

theorem decodeField_classified (bit : Nat) (field : Bytes) (ctx : Context) (classified : ctx.Classified) :
    (decodeField bit field ctx).Classified := by
  have frame : ∀ ctx' : Context, ctx'.supported = ctx.supported → ctx'.componentDtype = ctx.componentDtype →
      ctx'.isComplex = ctx.isComplex → ctx'.bytesPerSample = ctx.bytesPerSample → ctx'.Classified := by
    intro ctx' supported dtype complex size
    rcases classified with ⟨name, c, group, usable⟩ | unusable
    · exact Or.inl ⟨name, c, group, supported.trans usable.supported, dtype.trans usable.componentDtype,
        complex.trans usable.isComplex, size.trans usable.bytesPerSample, usable.wire⟩
    · exact Or.inr ⟨supported ▸ unusable.supported, dtype ▸ unusable.componentDtype,
        size ▸ unusable.bytesPerSample⟩
  unfold decodeField
  split
  · exact frame _ rfl rfl rfl rfl
  split
  · exact frame _ rfl rfl rfl rfl
  split
  · exact frame _ rfl rfl rfl rfl
  split
  · exact frame _ rfl rfl rfl rfl
  split
  · cases supported : (decodePayloadFormat (fromBytes field)).supported with
    | true =>
      obtain ⟨name, dt, dtype, known, numeric, positive, size⟩ :=
        decodePayloadFormat_supported (fromBytes field) supported
      exact Or.inl ⟨name, _, _, congrArg some supported, congrArg some dtype, rfl, congrArg some size,
        dt, known, numeric, positive, rfl⟩
    | false =>
      obtain ⟨dtype, size⟩ := decodePayloadFormat_unsupported _ supported
      exact Or.inr ⟨by simp [supported], by simp [dtype], by simp [size]⟩
  · exact classified

/-- Every decoded context is supported with a complete interpretation, or names none at all. -/
theorem decodeContext_classified {b : Bytes} {hdr : Header} {ctx : Context}
    (decoded : decodeContext b hdr = .ok ctx) : ctx.Classified := by
  have walk : ∀ (endLimit cif : Nat) (bits : List Nat) (offset : Nat) (start : Context), start.Classified →
      walkCif b endLimit cif bits offset start = .ok ctx → ctx.Classified := by
    intro endLimit cif bits
    induction bits with
    | nil =>
      intro offset start classified done
      cases done
      exact classified
    | cons bit bits ih =>
      intro offset start classified walked
      simp only [walkCif] at walked
      split at walked
      · exact ih _ _ classified walked
      split at walked
      · refine ih _ _ ?_ walked
        rcases classified with ⟨name, complex, group, usable⟩ | unusable
        · exact Or.inl ⟨name, complex, group, usable.supported, usable.componentDtype, usable.isComplex,
            usable.bytesPerSample, usable.wire⟩
        · exact Or.inr ⟨unusable.supported, unusable.componentDtype, unusable.bytesPerSample⟩
      split at walked
      · cases walked
        exact classified
      · split at walked
        · cases walked
        · exact ih _ _ (decodeField_classified _ _ _ classified) walked
  unfold decodeContext at decoded
  dsimp only at decoded
  split at decoded
  · cases decoded
  · exact walk _ _ _ _ _ (Or.inr ⟨by simp, rfl, rfl⟩) decoded

end Sceptre
