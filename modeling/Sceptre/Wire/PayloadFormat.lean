import Sceptre.Foundation.Windows
import Sceptre.Wire.Classification
import Sceptre.Wire.Encoding

namespace Sceptre

open Foundation.Windows

/-- The word of a (format, bits) entry: packing size equal to item size, every other window zero. -/
def canonicalWord (entry : Nat × Nat) (complex : Bool) : Nat :=
  encodePayloadFormatU64 (if complex then rcTypeComplexCartesian else rcTypeReal) entry.1 entry.2 entry.2

def payloadWidths : List Nat := [16, 16, 6, 6, 4, 4, 3, 1, 5, 2, 1]

def PayloadFormat.windows (fmt : PayloadFormat) : List Nat :=
  [fmt.vectorSize, fmt.repeatCount, fmt.itemBits - 1, fmt.itemPackingBits - 1, fmt.fractionSize, fmt.channelTag,
    fmt.eventTag, fmt.sampleComponentRepeat, fmt.dataItemFormat, fmt.rcType, fmt.packingMethod]

theorem decodePayloadFormat_windows (u : Nat) : (decodePayloadFormat u).windows = windows 0 payloadWidths u := rfl

theorem decodePayloadFormat_injective {u v : Nat} (small : u < 2 ^ 64) (small' : v < 2 ^ 64)
    (same : (decodePayloadFormat u).windows = (decodePayloadFormat v).windows) : u = v := by
  rw [decodePayloadFormat_windows, decodePayloadFormat_windows] at same
  exact windows_injective payloadWidths small small' same

theorem canonicalWord_windows {entry : (Nat × Nat) × String} (listed : entry ∈ itemFormatDtypes) (complex : Bool) :
    canonicalWord entry.1 complex < 2 ^ 64 ∧
      windows 0 payloadWidths (canonicalWord entry.1 complex) =
        [0, 0, entry.1.2 - 1, entry.1.2 - 1, 0, 0, 0, 0, entry.1.1,
          if complex then rcTypeComplexCartesian else rcTypeReal, 0] := by
  have all : ∀ entry ∈ itemFormatDtypes, ∀ complex : Bool, canonicalWord entry.1 complex < 2 ^ 64 ∧
      windows 0 payloadWidths (canonicalWord entry.1 complex) =
        [0, 0, entry.1.2 - 1, entry.1.2 - 1, 0, 0, 0, 0, entry.1.1,
          if complex then rcTypeComplexCartesian else rcTypeReal, 0] := by decide
  exact all entry listed complex

theorem canonicalWord_supported {entry : (Nat × Nat) × String} (listed : entry ∈ itemFormatDtypes) (complex : Bool) :
    (decodePayloadFormat (canonicalWord entry.1 complex)).supported = true := by
  have all : ∀ entry ∈ itemFormatDtypes, ∀ complex : Bool,
      (decodePayloadFormat (canonicalWord entry.1 complex)).supported = true := by decide
  exact all entry listed complex

theorem decodePayloadFormat_checks {u : Nat} {fmt : PayloadFormat} (decoded : decodePayloadFormat u = fmt)
    (supported : fmt.supported = true) :
    fmt.packingMethod = 0 ∧ fmt.rcType ∈ [rcTypeReal, rcTypeComplexCartesian] ∧
      itemFormatDtypes.lookup (fmt.dataItemFormat, fmt.itemBits) ≠ none ∧ fmt.itemPackingBits = fmt.itemBits ∧
      fmt.eventTag = 0 ∧ fmt.channelTag = 0 ∧ fmt.sampleComponentRepeat = 0 ∧ fmt.fractionSize = 0 ∧
      fmt.repeatCount = 0 ∧ fmt.vectorSize = 0 := by
  subst decoded
  exact of_decide_eq_true supported

theorem decodePayloadFormat_interpretation {u : Nat} {fmt : PayloadFormat} (decoded : decodePayloadFormat u = fmt)
    (supported : fmt.supported = true) :
    fmt.componentDtype = itemFormatDtypes.lookup (fmt.dataItemFormat, fmt.itemBits) ∧
      fmt.rcType = if fmt.isComplex then rcTypeComplexCartesian else rcTypeReal := by
  obtain ⟨-, type, -⟩ := decodePayloadFormat_checks decoded supported
  subst decoded
  constructor
  · exact if_pos supported
  · rcases List.mem_pair.mp type with real | complex
    · have single : (decodePayloadFormat u).isComplex = false := by
        apply decide_eq_false
        change ¬ (decodePayloadFormat u).rcType = _
        rw [real]
        decide
      rw [single, real]
      rfl
    · have pair : (decodePayloadFormat u).isComplex = true := decide_eq_true complex
      rw [pair, complex]
      rfl

theorem supported_canonical {u : Nat} (small : u < 2 ^ 64) (supported : (decodePayloadFormat u).supported = true) :
    ∃ entry ∈ itemFormatDtypes, (decodePayloadFormat u).componentDtype = some entry.2 ∧
      u = canonicalWord entry.1 (decodePayloadFormat u).isComplex := by
  have windows := decodePayloadFormat_windows u
  generalize decoded : decodePayloadFormat u = fmt at supported windows
  obtain ⟨method, -, listed, packing, event, channel, component, fraction, repeats, vector⟩ :=
    decodePayloadFormat_checks decoded supported
  obtain ⟨dtype, type⟩ := decodePayloadFormat_interpretation decoded supported
  obtain ⟨name, found⟩ := Option.ne_none_iff_exists'.mp listed
  have member := itemFormatDtypes_mem found
  obtain ⟨fits, canonical⟩ := canonicalWord_windows member fmt.isComplex
  refine ⟨_, member, dtype.trans found, ?_⟩
  apply windows_injective payloadWidths small fits
  rw [← windows, canonical, PayloadFormat.windows, method, packing, event, channel, component, fraction,
    repeats, vector, type]

theorem itemFormatDtypes_inj {entry entry' : (Nat × Nat) × String} (listed : entry ∈ itemFormatDtypes)
    (listed' : entry' ∈ itemFormatDtypes) (same : entry.2 = entry'.2) : entry = entry' := by
  have all : ∀ entry ∈ itemFormatDtypes, ∀ entry' ∈ itemFormatDtypes, entry.2 = entry'.2 → entry = entry' := by decide
  exact all entry listed entry' listed' same

/-- The classifier accepts exactly the canonical words: no bit of the word is ignored, an accepted word has the
    sample size of its interpretation, and no two words are accepted with the same interpretation. -/
theorem decodePayloadFormat_exact [Platform] (u : UInt64) :
    let fmt := decodePayloadFormat u.toNat
    (fmt.supported = true ↔ ∃ entry ∈ itemFormatDtypes, ∃ complex, u.toNat = canonicalWord entry.1 complex) ∧
    (fmt.supported = true → ∃ entry ∈ itemFormatDtypes, ∃ dt, fmt.componentDtype = some entry.2 ∧
      Platform.dtype entry.2 = some dt ∧
      fmt.bytesPerSample = some ((dt.itemsize * if fmt.isComplex then 2 else 1 : Nat) : Int) ∧
      u.toNat = canonicalWord entry.1 fmt.isComplex) ∧
    (fmt.supported = false → fmt.componentDtype = none ∧ fmt.bytesPerSample = none) ∧
    ∀ v : UInt64, (decodePayloadFormat v.toNat = fmt → v = u) ∧
      ((decodePayloadFormat v.toNat).supported = true → fmt.supported = true →
        (decodePayloadFormat v.toNat).componentDtype = fmt.componentDtype →
        (decodePayloadFormat v.toNat).isComplex = fmt.isComplex → v = u) := by
  intro fmt
  have small : ∀ w : UInt64, w.toNat < 2 ^ 64 := UInt64.toNat_lt
  refine ⟨?_, ?_, decodePayloadFormat_unsupported u.toNat, ?_⟩
  · constructor
    · intro supported
      obtain ⟨entry, listed, -, canonical⟩ := supported_canonical (small u) supported
      exact ⟨entry, listed, _, canonical⟩
    · rintro ⟨entry, listed, complex, canonical⟩
      show (decodePayloadFormat u.toNat).supported = true
      rw [canonical]
      exact canonicalWord_supported listed complex
  · intro supported
    obtain ⟨entry, listed, named, canonical⟩ := supported_canonical (small u) supported
    obtain ⟨name, dt, named', known, -, -, size⟩ := decodePayloadFormat_supported u.toNat supported
    have same : name = entry.2 := Option.some.inj (named'.symm.trans named)
    subst same
    refine ⟨entry, listed, dt, named, known, ?_, canonical⟩
    rw [Nat.mul_comm]
    exact size
  · intro v
    constructor
    · intro same
      apply UInt64.toNat.inj
      exact decodePayloadFormat_injective (small v) (small u) (congrArg PayloadFormat.windows same)
    · intro accepted supported dtype complex
      obtain ⟨entry, listed, named, canonical⟩ := supported_canonical (small u) supported
      obtain ⟨entry', listed', named', canonical'⟩ := supported_canonical (small v) accepted
      have same : entry'.2 = entry.2 := Option.some.inj ((named'.symm.trans dtype).trans named)
      have word : v.toNat = u.toNat := by
        rw [canonical', canonical, itemFormatDtypes_inj listed' listed same, complex]
      exact UInt64.toNat.inj word

end Sceptre
