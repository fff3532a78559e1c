import Mathlib.Algebra.BigOperators.Intervals
import Mathlib.Algebra.Order.BigOperators.Group.Finset
import Sceptre.Wire.Context
import Sceptre.Wire.HeaderLayout

namespace Sceptre

open Foundation

def sizeFrom (cif low : Nat) : Nat := ∑ bit ∈ Finset.Ico low 31 with cif.testBit bit, (fieldSize bit).getD 0

theorem sizeFrom_top (cif : Nat) : sizeFrom cif 31 = 0 := by
  rw [sizeFrom, Finset.Ico_self]
  rfl

theorem sizeFrom_succ (cif bit : Nat) (low : bit < 31) :
    sizeFrom cif bit = sizeFrom cif (bit + 1) + if cif.testBit bit then (fieldSize bit).getD 0 else 0 := by
  rw [sizeFrom, sizeFrom, Finset.sum_filter, Finset.sum_filter, Finset.sum_eq_sum_Ico_succ_bot low, Nat.add_comm]

theorem sizeFrom_antitone (cif : Nat) {low high : Nat} (below : low ≤ high) : sizeFrom cif high ≤ sizeFrom cif low := by
  apply Finset.sum_le_sum_of_subset
  apply Finset.filter_subset_filter
  exact Finset.Ico_subset_Ico_left below

def contextOf [Platform] (change : Bool) (field : Nat → Option Bytes) : Context where
  contextFieldChange := if change then some true else none
  bandwidthHz := (field cifBandwidth).map fun v => Platform.fl (signed 64 (fromBytes v) / radixFreqHz)
  rfHz := (field cifRfRefFreq).map fun v => Platform.fl (signed 64 (fromBytes v) / radixFreqHz)
  gainDb := (field cifGain).map fun v =>
    Platform.fl (Platform.fl (signed 16 (fromBytes (v.extract 0 2)) / radixGainDb) +
      Platform.fl (signed 16 (fromBytes (v.extract 2 4)) / radixGainDb))
  sampleRateHz := (field cifSampleRate).map fun v => Platform.fl (signed 64 (fromBytes v) / radixFreqHz)
  supported := (field cifDataPayloadFormat).map fun v => (decodePayloadFormat (fromBytes v)).supported
  componentDtype := (field cifDataPayloadFormat).map fun v => (decodePayloadFormat (fromBytes v)).componentDtype
  bytesPerSample := (field cifDataPayloadFormat).map fun v => (decodePayloadFormat (fromBytes v)).bytesPerSample
  isComplex := (field cifDataPayloadFormat).map fun v => (decodePayloadFormat (fromBytes v)).isComplex
  dataItemFormat := (field cifDataPayloadFormat).map fun v => (decodePayloadFormat (fromBytes v)).dataItemFormat

theorem contextOf_congr [Platform] (change : Bool) {field field' : Nat → Option Bytes}
    (same : ∀ bit, 10 ≤ bit → bit < 31 → field bit = field' bit) : contextOf change field =
    contextOf change field' := by
  rw [contextOf, contextOf, same cifBandwidth (by decide) (by decide), same cifRfRefFreq (by decide) (by decide),
    same cifGain (by decide) (by decide), same cifSampleRate (by decide) (by decide),
    same cifDataPayloadFormat (by decide) (by decide)]

theorem decodeField_contextOf [Platform] (change : Bool) (field : Nat → Option Bytes) (bit : Nat) (v : Bytes) :
    decodeField bit v (contextOf change field) = contextOf change (Function.update field bit (some v)) := by
  have other : ∀ key, key ≠ bit → Function.update field bit (some v) key = field key :=
    fun key apart => Function.update_of_ne apart ..
  have own : Function.update field bit (some v) bit = some v := Function.update_self ..
  unfold decodeField
  by_cases bandwidth : bit = cifBandwidth
  · subst bandwidth
    rw [if_pos rfl, contextOf, contextOf, own, other cifRfRefFreq (by decide), other cifGain (by decide),
      other cifSampleRate (by decide), other cifDataPayloadFormat (by decide)]
    rfl
  rw [if_neg bandwidth]
  by_cases rf : bit = cifRfRefFreq
  · subst rf
    rw [if_pos rfl, contextOf, contextOf, own, other cifBandwidth (by decide), other cifGain (by decide),
      other cifSampleRate (by decide), other cifDataPayloadFormat (by decide)]
    rfl
  rw [if_neg rf]
  by_cases gain : bit = cifGain
  · subst gain
    rw [if_pos rfl, contextOf, contextOf, own, other cifBandwidth (by decide), other cifRfRefFreq (by decide),
      other cifSampleRate (by decide), other cifDataPayloadFormat (by decide)]
    rfl
  rw [if_neg gain]
  by_cases rate : bit = cifSampleRate
  · subst rate
    rw [if_pos rfl, contextOf, contextOf, own, other cifBandwidth (by decide), other cifRfRefFreq (by decide),
      other cifGain (by decide), other cifDataPayloadFormat (by decide)]
    rfl
  rw [if_neg rate]
  by_cases format : bit = cifDataPayloadFormat
  · subst format
    rw [if_pos rfl, contextOf, contextOf, own, other cifBandwidth (by decide), other cifRfRefFreq (by decide),
      other cifGain (by decide), other cifSampleRate (by decide)]
    rfl
  rw [if_neg format, contextOf, contextOf, other cifBandwidth (Ne.symm bandwidth), other cifRfRefFreq (Ne.symm rf),
    other cifGain (Ne.symm gain), other cifSampleRate (Ne.symm rate), other cifDataPayloadFormat (Ne.symm format)]

theorem bit_unset (cif bit : Nat) : (cif >>> bit) &&& 1 = 0 ↔ cif.testBit bit = false := by
  simp [Nat.testBit, Nat.and_comm]

theorem walkCif_low [Platform] (b : Bytes) (endLimit cif : Nat) {n : Nat} (low : n ≤ 10) (offset : Nat)
    (ctx : Context) :
    walkCif b endLimit cif (List.range n).reverse offset ctx = .ok ctx := by
  induction n with
  | zero => rfl
  | succ bit ih =>
    have unsized : ∀ bit < 10, fieldSize bit = none := by decide
    rw [List.range_succ, List.reverse_append, List.reverse_singleton, List.singleton_append, walkCif]
    by_cases unset : (cif >>> bit) &&& 1 = 0
    · rw [if_pos unset]
      exact ih (by omega)
    · have plain : bit ≠ contextFieldChangeBit := by
        rw [contextFieldChangeBit]
        omega
      rw [if_neg unset, if_neg plain, unsized bit (by omega)]

section

variable [Platform] {b : Bytes} {endLimit cif start : Nat}

def fieldSlice (b : Bytes) (cif start bit : Nat) : Bytes :=
  b.extract (start + sizeFrom cif (bit + 1)) (start + sizeFrom cif (bit + 1) + (fieldSize bit).getD 0)

def fieldAt (b : Bytes) (cif start bit : Nat) : Option Bytes :=
  if cif.testBit bit then some (fieldSlice b cif start bit) else none

theorem walkCif_from (change : Bool) {n : Nat} (low : 10 ≤ n) (high : n ≤ 31)
    (passed : start + sizeFrom cif n ≤ endLimit) :
    (start + sizeFrom cif 10 ≤ endLimit →
      walkCif b endLimit cif (List.range n).reverse (start + sizeFrom cif n)
        (contextOf change fun bit => if n ≤ bit then fieldAt b cif start bit else none) =
          .ok (contextOf change (fieldAt b cif start))) ∧
      (endLimit < start + sizeFrom cif 10 →
        ∃ e, walkCif b endLimit cif (List.range n).reverse (start + sizeFrom cif n)
          (contextOf change fun bit => if n ≤ bit then fieldAt b cif start bit else none) = .error e) := by
  induction n, low using Nat.le_induction with
  | base =>
    rw [walkCif_low b endLimit cif (Nat.le_refl 10)]
    constructor
    · intro _
      apply congrArg Except.ok
      apply contextOf_congr
      intro bit above _
      rw [if_pos above]
    · intro cut
      omega
  | succ bit low ih =>
    have step := sizeFrom_succ cif bit (by omega)
    have sized : ∀ bit < 31, 10 ≤ bit → (fieldSize bit).isSome = true := by decide
    have plain : bit ≠ contextFieldChangeBit := by
      rw [contextFieldChangeBit]
      omega
    rw [List.range_succ, List.reverse_append, List.reverse_singleton, List.singleton_append, walkCif]
    by_cases unset : cif.testBit bit = false
    · have absent : (fun k => if bit + 1 ≤ k then fieldAt b cif start k else none) =
          fun k => if bit ≤ k then fieldAt b cif start k else none := by
        funext k
        rcases Nat.lt_trichotomy k bit with below | same | above
        · rw [if_neg (by omega), if_neg (by omega)]
        · rw [if_neg (by omega), if_pos (by omega), same, fieldAt, unset]
          rfl
        · rw [if_pos (by omega), if_pos (by omega)]
      rw [unset] at step
      rw [if_pos ((bit_unset cif bit).mpr unset), absent, show sizeFrom cif (bit + 1) = sizeFrom cif bit from step.symm]
      exact ih (by omega) (by rw [step]; exact passed)
    · have set : cif.testBit bit = true := Bool.eq_true_of_not_eq_false unset
      obtain ⟨size, found⟩ := Option.isSome_iff_exists.mp (sized bit (by omega) low)
      rw [set, if_pos rfl, found, Option.getD_some] at step
      rw [if_neg fun zero => unset ((bit_unset cif bit).mp zero), if_neg plain, found]
      dsimp only
      by_cases cut : start + sizeFrom cif (bit + 1) + size > endLimit
      · rw [if_pos cut]
        have most := sizeFrom_antitone cif low
        constructor
        · intro fits
          omega
        · intro _
          exact ⟨_, rfl⟩
      · have present : Function.update (fun k => if bit + 1 ≤ k then fieldAt b cif start k else none) bit
            (some (b.extract (start + sizeFrom cif (bit + 1)) (start + sizeFrom cif (bit + 1) + size))) =
              fun k => if bit ≤ k then fieldAt b cif start k else none := by
          funext k
          rcases Nat.lt_trichotomy k bit with below | same | above
          · rw [Function.update_of_ne (by omega), if_neg (by omega), if_neg (by omega)]
          · rw [same, Function.update_self, if_pos (Nat.le_refl _), fieldAt, if_pos set, fieldSlice, found]
            rfl
          · rw [Function.update_of_ne (by omega), if_pos (by omega), if_pos (by omega)]
        rw [if_neg cut, decodeField_contextOf, present, Nat.add_assoc, ← step]
        exact ih (by omega) (by omega)

/-- The decode raises exactly when the CIF word or a field ends behind the declared packet or the datagram. -/
theorem decodeContext_cases (b : Bytes) (hdr : Header) :
    let start := hdr.headerLen + 4
    let stop := min b.length (4 * hdr.packetSize)
    let cif := fromBytes (b.extract hdr.headerLen start)
    ((start > stop ∨ start + sizeFrom cif 10 > stop) ∧ ∃ e, decodeContext b hdr = .error e) ∨
      (start + sizeFrom cif 10 ≤ stop ∧
        decodeContext b hdr = .ok (contextOf (cif.testBit contextFieldChangeBit) (fieldAt b cif start))) := by
  intro start stop cif
  have limit : min b.length (hdr.packetSize * 4) = stop := by
    rw [Nat.mul_comm]
  rw [decodeContext, limit]
  dsimp only
  by_cases cut : stop < hdr.headerLen + 4
  · rw [if_pos cut]
    exact .inl ⟨.inl cut, _, rfl⟩
  · rw [if_neg cut]
    have empty : ∀ change : Bool, contextOf change (fun bit => if 31 ≤ bit then fieldAt b cif start bit else none) =
        { contextFieldChange := if change then some true else none } := fun _ => rfl
    have walked : walkCif b stop cif (List.range 32).reverse start {} =
        walkCif b stop cif (List.range 31).reverse (start + sizeFrom cif 31)
          (contextOf (cif.testBit contextFieldChangeBit) fun bit => if 31 ≤ bit then fieldAt b cif start bit
            else none) := by
      rw [List.range_succ, List.reverse_append, List.reverse_singleton, List.singleton_append, walkCif, sizeFrom_top,
        empty]
      by_cases unset : cif.testBit 31 = false
      · rw [if_pos ((bit_unset cif 31).mpr unset), contextFieldChangeBit, unset]
        rfl
      · rw [if_neg fun zero => unset ((bit_unset cif 31).mp zero), if_pos (show 31 = contextFieldChangeBit from rfl),
          contextFieldChangeBit,
          Bool.eq_true_of_not_eq_false unset]
        rfl
    change _ ∧ (∃ e, walkCif b stop cif (List.range 32).reverse start {} = .error e) ∨
      _ ∧ walkCif b stop cif (List.range 32).reverse start {} = _
    rw [walked]
    have passed : start + sizeFrom cif 31 ≤ stop := by
      rw [sizeFrom_top]
      omega
    obtain ⟨accepts, raises⟩ := walkCif_from (b := b) (cif.testBit contextFieldChangeBit) (by decide)
      (Nat.le_refl 31) passed
    by_cases fits : start + sizeFrom cif 10 ≤ stop
    · exact .inr ⟨fits, accepts fits⟩
    · exact .inl ⟨.inr (Nat.lt_of_not_le fits), raises (Nat.lt_of_not_le fits)⟩

end

def ContextKey.bit : ContextKey → Nat
  | .contextFieldChange => contextFieldChangeBit
  | .bandwidthHz => cifBandwidth
  | .rfHz => cifRfRefFreq
  | .gainDb => cifGain
  | .sampleRateHz => cifSampleRate
  | _ => cifDataPayloadFormat

def Context.has (ctx : Context) : ContextKey → Bool
  | .contextFieldChange => ctx.contextFieldChange.isSome
  | .bandwidthHz => ctx.bandwidthHz.isSome
  | .rfHz => ctx.rfHz.isSome
  | .gainDb => ctx.gainDb.isSome
  | .sampleRateHz => ctx.sampleRateHz.isSome
  | .supported => ctx.supported.isSome
  | .componentDtype => ctx.componentDtype.isSome
  | .bytesPerSample => ctx.bytesPerSample.isSome
  | .isComplex => ctx.isComplex.isSome
  | .dataItemFormat => ctx.dataItemFormat.isSome

theorem contextOf_has [Platform] (b : Bytes) (cif start : Nat) (key : ContextKey) :
    (contextOf (cif.testBit contextFieldChangeBit) (fieldAt b cif start)).has key = cif.testBit key.bit := by
  have present : ∀ bit, (fieldAt b cif start bit).isSome = cif.testBit bit := by
    intro bit
    rw [fieldAt]
    cases cif.testBit bit <;> rfl
  cases key with
  | contextFieldChange =>
    simp only [Context.has, contextOf, ContextKey.bit]
    cases cif.testBit contextFieldChangeBit <;> rfl
  | _ =>
    simp only [Context.has, contextOf, ContextKey.bit, Option.isSome_map]
    exact present _

theorem contextOf_get [Platform] {change change' : Bool} {field field' : Nat → Option Bytes} {key : ContextKey}
    (changes : key = .contextFieldChange → change = change') (same : field key.bit = field' key.bit) :
    (contextOf change field).get key = (contextOf change' field').get key := by
  cases key with
  | contextFieldChange => rw [Context.get, Context.get, contextOf, contextOf, changes rfl]
  | _ =>
    simp only [ContextKey.bit] at same
    simp only [Context.get, contextOf, same]

theorem signed_packedSigned_64 {v : Int} (low : -2 ^ 63 ≤ v) (high : v < 2 ^ 63) :
    signed 64 (fromBytes (packedSigned 8 v)) = v := by
  rw [packedSigned, fromBytes_packed (by norm_num; omega), signed]
  norm_num at low high ⊢
  split <;> omega

theorem signed_packedSigned_16 {v : Int} (low : -2 ^ 15 ≤ v) (high : v < 2 ^ 15) :
    signed 16 (fromBytes (packedSigned 2 v)) = v := by
  rw [packedSigned, fromBytes_packed (by norm_num; omega), signed]
  norm_num at low high ⊢
  split <;> omega

/-- The fixed-size fields of a context packet: the numbers of the decoded ones, and the bytes of the others. -/
structure ContextFields where
  change : Bool
  bandwidth : Option Int
  rfRefFreq : Option Int
  gain : Option (Int × Int)
  sampleRate : Option Int
  payloadFormat : Option Nat
  other : Nat → Option Bytes

namespace ContextFields

def decoded : List Nat := [cifBandwidth, cifRfRefFreq, cifGain, cifSampleRate, cifDataPayloadFormat]

def bytes (f : ContextFields) (bit : Nat) : Option Bytes :=
  if bit = cifBandwidth then f.bandwidth.map (packedSigned 8)
  else if bit = cifRfRefFreq then f.rfRefFreq.map (packedSigned 8)
  else if bit = cifGain then f.gain.map fun stages => packedSigned 2 stages.1 ++ packedSigned 2 stages.2
  else if bit = cifSampleRate then f.sampleRate.map (packedSigned 8)
  else if bit = cifDataPayloadFormat then f.payloadFormat.map (packed 8)
  else f.other bit

structure Valid (f : ContextFields) : Prop where
  bandwidth : ∀ v ∈ f.bandwidth, -2 ^ 63 ≤ v ∧ v < 2 ^ 63
  rfRefFreq : ∀ v ∈ f.rfRefFreq, -2 ^ 63 ≤ v ∧ v < 2 ^ 63
  gain : ∀ v ∈ f.gain, -2 ^ 15 ≤ v.1 ∧ v.1 < 2 ^ 15 ∧ -2 ^ 15 ≤ v.2 ∧ v.2 < 2 ^ 15
  sampleRate : ∀ v ∈ f.sampleRate, -2 ^ 63 ≤ v ∧ v < 2 ^ 63
  payloadFormat : ∀ v ∈ f.payloadFormat, v < 2 ^ 64
  other : ∀ bit bytes, f.other bit = some bytes → fieldSize bit = some bytes.length

def has (f : ContextFields) (bit : Nat) : Bool :=
  (f.bytes bit).isSome || (decide (bit = contextFieldChangeBit) && f.change)

def cifBelow (f : ContextFields) : Nat → Nat
  | 0 => 0
  | bit + 1 => f.cifBelow bit ||| if f.has bit then 2 ^ bit else 0

def encode (f : ContextFields) : Bytes :=
  packed 4 (f.cifBelow 32) ++ (List.range 31).reverse.flatMap fun bit => (f.bytes bit).getD []

def context (fl : ℚ → ℚ) (f : ContextFields) : Context where
  contextFieldChange := if f.change then some true else none
  bandwidthHz := f.bandwidth.map fun v => fl (v / radixFreqHz)
  rfHz := f.rfRefFreq.map fun v => fl (v / radixFreqHz)
  gainDb := f.gain.map fun stages => fl (fl (stages.1 / radixGainDb) + fl (stages.2 / radixGainDb))
  sampleRateHz := f.sampleRate.map fun v => fl (v / radixFreqHz)
  supported := f.payloadFormat.map fun u => (decodePayloadFormat u).supported
  componentDtype := f.payloadFormat.map fun u => (decodePayloadFormat u).componentDtype
  bytesPerSample := f.payloadFormat.map fun u => (decodePayloadFormat u).bytesPerSample
  isComplex := f.payloadFormat.map fun u => (decodePayloadFormat u).isComplex
  dataItemFormat := f.payloadFormat.map fun u => (decodePayloadFormat u).dataItemFormat

theorem cifBelow_testBit (f : ContextFields) (n bit : Nat) :
    (f.cifBelow n).testBit bit = (decide (bit < n) && f.has bit) := by
  induction n with
  | zero => simp [cifBelow]
  | succ n ih =>
    rw [cifBelow, Nat.testBit_or, ih]
    rcases Nat.lt_trichotomy bit n with below | rfl | above
    · have other : (if f.has n then 2 ^ n else 0).testBit bit = false := by
        split
        · exact Nat.testBit_two_pow_of_ne (by omega)
        · exact Nat.zero_testBit bit
      rw [other, decide_eq_true below, decide_eq_true (Nat.lt_succ_of_lt below), Bool.or_false]
    · rw [decide_eq_false (Nat.lt_irrefl bit), decide_eq_true (Nat.lt_succ_self bit), Bool.false_and, Bool.false_or,
        Bool.true_and]
      cases f.has bit with
      | true => exact Nat.testBit_two_pow_self
      | false => exact Nat.zero_testBit bit
    · have other : (if f.has n then 2 ^ n else 0).testBit bit = false := by
        split
        · exact Nat.testBit_two_pow_of_ne (by omega)
        · exact Nat.zero_testBit bit
      rw [other, decide_eq_false (by omega), decide_eq_false (by omega), Bool.or_false]

theorem cifBelow_lt (f : ContextFields) (n : Nat) : f.cifBelow n < 2 ^ n := by
  apply Nat.lt_pow_two_of_testBit
  intro bit above
  rw [cifBelow_testBit, decide_eq_false (by omega), Bool.false_and]

variable {f : ContextFields}

theorem Valid.bytes (valid : f.Valid) {bit : Nat} {v : Bytes} (held : f.bytes bit = some v) :
    fieldSize bit = some v.length := by
  unfold ContextFields.bytes at held
  split at held
  · obtain ⟨x, -, rfl⟩ := Option.map_eq_some_iff.mp held
    subst bit
    exact congrArg some (packed_length ..).symm
  split at held
  · obtain ⟨x, -, rfl⟩ := Option.map_eq_some_iff.mp held
    subst bit
    exact congrArg some (packed_length ..).symm
  split at held
  · obtain ⟨x, -, rfl⟩ := Option.map_eq_some_iff.mp held
    subst bit
    rw [List.length_append, packedSigned, packedSigned, packed_length, packed_length]
    rfl
  split at held
  · obtain ⟨x, -, rfl⟩ := Option.map_eq_some_iff.mp held
    subst bit
    exact congrArg some (packed_length ..).symm
  split at held
  · obtain ⟨x, -, rfl⟩ := Option.map_eq_some_iff.mp held
    subst bit
    exact congrArg some (packed_length ..).symm
  · exact valid.other bit v held

theorem Valid.size (valid : f.Valid) {bit : Nat} (below : bit < 31) :
    ((f.bytes bit).getD []).length = if (f.cifBelow 32).testBit bit then (fieldSize bit).getD 0 else 0 := by
  have plain : ¬ bit = contextFieldChangeBit := by
    rw [contextFieldChangeBit]
    omega
  rw [cifBelow_testBit, decide_eq_true (by omega), Bool.true_and, has, decide_eq_false plain, Bool.false_and,
    Bool.or_false]
  cases held : f.bytes bit with
  | none => rfl
  | some v =>
    rw [valid.bytes held]
    rfl

theorem offset_range (size : Nat → Nat) {n bit : Nat} (below : bit < n) :
    Layout.offset size (List.range n).reverse bit = ∑ k ∈ Finset.Ico (bit + 1) n, size k := by
  induction n with
  | zero => omega
  | succ n ih =>
    rw [List.range_succ, List.reverse_append, List.reverse_singleton, List.singleton_append, Layout.offset]
    by_cases here : n = bit
    · rw [if_pos here, here, Finset.Ico_self]
      rfl
    · rw [if_neg here, ih (by omega), Finset.sum_Ico_succ_top (by omega), Nat.add_comm]

theorem total_range (size : Nat → Nat) (n : Nat) :
    Layout.total size (List.range n).reverse = ∑ k ∈ Finset.Ico 0 n, size k := by
  induction n with
  | zero => rfl
  | succ n ih =>
    rw [List.range_succ, List.reverse_append, List.reverse_singleton, List.singleton_append, Layout.total,
      List.map_cons, List.sum_cons, Finset.sum_Ico_succ_top (Nat.zero_le n), ← ih, Layout.total, Nat.add_comm]

theorem Valid.sizeFrom_eq (valid : f.Valid) (low : Nat) :
    sizeFrom (f.cifBelow 32) low = ∑ k ∈ Finset.Ico low 31, ((f.bytes k).getD []).length := by
  rw [sizeFrom, Finset.sum_filter]
  apply Finset.sum_congr rfl
  intro bit member
  exact (valid.size (Finset.mem_Ico.mp member).2).symm

theorem Valid.encode_length (valid : f.Valid) : f.encode.length = 4 + sizeFrom (f.cifBelow 32) 0 := by
  rw [encode, List.length_append, packed_length, List.length_flatMap, valid.sizeFrom_eq, ← total_range]
  rfl

theorem Valid.fieldAt (valid : f.Valid) (front rest : Bytes) {bit : Nat} (below : bit < 31) :
    Sceptre.fieldAt (front ++ f.encode ++ rest) (f.cifBelow 32) (front.length + 4) bit = f.bytes bit := by
  have plain : ¬ bit = contextFieldChangeBit := by
    rw [contextFieldChangeBit]
    omega
  rw [Sceptre.fieldAt, cifBelow_testBit, decide_eq_true (by omega), Bool.true_and, has, decide_eq_false plain,
    Bool.false_and, Bool.or_false]
  cases held : f.bytes bit with
  | none => rfl
  | some v =>
    have sized : (fieldSize bit).getD 0 = ((f.bytes bit).getD []).length := by
      rw [valid.bytes held, held]
      rfl
    have member : bit ∈ (List.range 31).reverse := List.mem_reverse.mpr (List.mem_range.mpr below)
    have part := Layout.part_flatMap (fun bit => ((f.bytes bit).getD []).length) (fun bit => (f.bytes bit).getD [])
      rest (fun _ _ => rfl) member
    have split : front ++ f.encode ++ rest = (front ++ packed 4 (f.cifBelow 32)) ++
        ((List.range 31).reverse.flatMap (fun bit => (f.bytes bit).getD []) ++ rest) := by
      rw [encode]
      simp only [List.append_assoc]
    have length : (front ++ packed 4 (f.cifBelow 32)).length = front.length + 4 := by
      rw [List.length_append, packed_length]
    rw [if_pos (show (some v).isSome = true from rfl), fieldSlice, sized, ← extract_drop, split,
      List.drop_left' length, valid.sizeFrom_eq, ← offset_range _ below]
    exact congrArg some (part.trans (by rw [held]; rfl))

theorem Valid.contextOf [Platform] (valid : f.Valid) : contextOf f.change f.bytes = f.context Platform.fl := by
  have frequency : ∀ held : Option Int, (∀ v ∈ held, -2 ^ 63 ≤ v ∧ v < 2 ^ 63) →
      (held.map (packedSigned 8)).map (fun v => Platform.fl (signed 64 (fromBytes v) / radixFreqHz)) =
        held.map fun v => Platform.fl (v / radixFreqHz) := by
    intro held range
    cases held with
    | none => rfl
    | some v =>
      obtain ⟨low, high⟩ := range v rfl
      rw [Option.map_some, Option.map_some, signed_packedSigned_64 low high]
      rfl
  have stages : (f.gain.map fun stages => packedSigned 2 stages.1 ++ packedSigned 2 stages.2).map (fun v =>
      Platform.fl (Platform.fl (signed 16 (fromBytes (v.extract 0 2)) / radixGainDb) +
        Platform.fl (signed 16 (fromBytes (v.extract 2 4)) / radixGainDb))) =
      f.gain.map fun stages => Platform.fl (Platform.fl (stages.1 / radixGainDb) +
        Platform.fl (stages.2 / radixGainDb)) := by
    cases held : f.gain with
    | none => rfl
    | some stages =>
      obtain ⟨low, high, low', high'⟩ := valid.gain stages held
      have first : (packedSigned 2 stages.1 ++ packedSigned 2 stages.2).extract 0 2 = packedSigned 2 stages.1 := rfl
      have second : (packedSigned 2 stages.1 ++ packedSigned 2 stages.2).extract 2 4 = packedSigned 2 stages.2 := rfl
      rw [Option.map_some, Option.map_some, first, second, signed_packedSigned_16 low high,
        signed_packedSigned_16 low' high']
      rfl
  have words : ∀ {α : Type} (g : PayloadFormat → α),
    (f.payloadFormat.map (packed 8)).map (fun v => g (decodePayloadFormat (fromBytes v))) =
      f.payloadFormat.map fun u => g (decodePayloadFormat u) := by
    intro α g
    cases held : f.payloadFormat with
    | none => rfl
    | some u =>
      rw [Option.map_some, Option.map_some, fromBytes_packed (valid.payloadFormat u held)]
      rfl
  rw [Sceptre.contextOf, context, show f.bytes cifBandwidth = f.bandwidth.map (packedSigned 8) from rfl,
    show f.bytes cifRfRefFreq = f.rfRefFreq.map (packedSigned 8) from rfl,
    show f.bytes cifGain = f.gain.map (fun stages => packedSigned 2 stages.1 ++ packedSigned 2 stages.2) from rfl,
    show f.bytes cifSampleRate = f.sampleRate.map (packedSigned 8) from rfl,
    show f.bytes cifDataPayloadFormat = f.payloadFormat.map (packed 8) from rfl,
    frequency _ valid.bandwidth, frequency _ valid.rfRefFreq, frequency _ valid.sampleRate, stages,
    words PayloadFormat.supported, words PayloadFormat.componentDtype, words PayloadFormat.bytesPerSample,
    words PayloadFormat.isComplex, words PayloadFormat.dataItemFormat]

theorem Valid.decode [Platform] (valid : f.Valid) {h : Header} (well : h.WellFormed)
    (declared : h.headerLen + f.encode.length ≤ 4 * h.packetSize) (rest : Bytes) :
    decodeContext (h.encode ++ f.encode ++ rest) h = .ok (f.context Platform.fl) := by
  have header : h.encode.length = h.headerLen := by rw [well.encode_length, well.headerLen_eq]
  have first : (h.encode ++ f.encode ++ rest).extract h.headerLen (h.headerLen + 4) = packed 4 (f.cifBelow 32) := by
    have split : h.encode ++ f.encode ++ rest = h.encode ++ (packed 4 (f.cifBelow 32) ++
        ((List.range 31).reverse.flatMap (fun bit => (f.bytes bit).getD []) ++ rest)) := by
      rw [encode]
      simp only [List.append_assoc]
    rw [split, List.extract_eq_take_drop, List.drop_left' header, Nat.add_sub_cancel_left,
      List.take_left' (packed_length ..)]
  have cif : fromBytes ((h.encode ++ f.encode ++ rest).extract h.headerLen (h.headerLen + 4)) = f.cifBelow 32 := by
    rw [first]
    exact fromBytes_packed (f.cifBelow_lt 32)
  have length : (h.encode ++ f.encode ++ rest).length = h.headerLen + f.encode.length + rest.length := by
    rw [List.length_append, List.length_append, header]
  have most := sizeFrom_antitone (f.cifBelow 32) (Nat.zero_le 10)
  have size := valid.encode_length
  have change : (f.cifBelow 32).testBit contextFieldChangeBit = f.change := by
    have absent : f.bytes contextFieldChangeBit = none := by
      cases held : f.bytes contextFieldChangeBit with
      | none => rfl
      | some v => cases valid.bytes held
    rw [cifBelow_testBit, has, absent, decide_eq_true rfl]
    rfl
  have decided := decodeContext_cases (h.encode ++ f.encode ++ rest) h
  dsimp only at decided
  rw [cif] at decided
  rcases decided with ⟨exceeds, -⟩ | ⟨-, decoded⟩
  · omega
  · have fields : Sceptre.contextOf f.change (Sceptre.fieldAt (h.encode ++ f.encode ++ rest) (f.cifBelow 32)
      (h.headerLen + 4)) =
        Sceptre.contextOf f.change f.bytes := by
      apply contextOf_congr
      intro bit _ below
      rw [← header]
      exact valid.fieldAt h.encode rest below
    rw [decoded, change, fields, valid.contextOf]

end ContextFields

/-- The decode accepts exactly its layout: the keys of the result are those of the set bits, every value is read from
    the bytes of its own field, and an encoded set of fields is decoded to itself. -/
theorem decodeContext_exact [Platform] :
    (∀ (b : Bytes) (hdr : Header), parseHeader b = .ok hdr →
      let start := hdr.headerLen + 4
      let stop := min b.length (4 * hdr.packetSize)
      let cif := fromBytes (b.extract hdr.headerLen start)
      ((∃ e, decodeContext b hdr = .error e) ↔ start > stop ∨ start + sizeFrom cif 10 > stop) ∧
      ∀ ctx, decodeContext b hdr = .ok ctx →
        (∀ key, ctx.has key = cif.testBit key.bit) ∧
        ctx = contextOf (cif.testBit contextFieldChangeBit) (fieldAt b cif start) ∧
        ∀ (b' : Bytes) (hdr' : Header) (ctx' : Context), decodeContext b' hdr' = .ok ctx' →
          let start' := hdr'.headerLen + 4
          let cif' := fromBytes (b'.extract hdr'.headerLen start')
          ∀ key, cif.testBit key.bit = cif'.testBit key.bit →
            (cif.testBit key.bit = true → fieldSlice b cif start key.bit = fieldSlice b' cif' start' key.bit) →
            ctx.get key = ctx'.get key) ∧
    ∀ (f : ContextFields) (h : Header) (rest : Bytes), f.Valid → h.WellFormed →
      h.headerLen + f.encode.length ≤ 4 * h.packetSize →
      decodeContext (h.encode ++ f.encode ++ rest) h = .ok (f.context Platform.fl) ∧
        ((∀ q, Platform.fl q = q) → decodeContext (h.encode ++ f.encode ++ rest) h = .ok (f.context id)) := by
  have decoded : ∀ {b : Bytes} {hdr : Header} {ctx : Context}, decodeContext b hdr = .ok ctx →
      let cif := fromBytes (b.extract hdr.headerLen (hdr.headerLen + 4))
      ctx = contextOf (cif.testBit contextFieldChangeBit) (fieldAt b cif (hdr.headerLen + 4)) := by
    intro b hdr ctx returned
    rcases decodeContext_cases b hdr with ⟨-, e, raised⟩ | ⟨-, accepted⟩
    · rw [raised] at returned
      cases returned
    · rw [accepted] at returned
      exact (Except.ok.inj returned).symm
  constructor
  · intro b hdr _ start stop cif
    constructor
    · rcases decodeContext_cases b hdr with ⟨exceeds, raised⟩ | ⟨fits, accepted⟩
      · exact iff_of_true raised exceeds
      · change start + sizeFrom cif 10 ≤ stop at fits
        apply iff_of_false
        · rintro ⟨e, raised⟩
          rw [accepted] at raised
          cases raised
        · omega
    · intro ctx returned
      have value := decoded returned
      refine ⟨?_, value, ?_⟩
      · intro key
        rw [value]
        exact contextOf_has b cif start key
      · intro b' hdr' ctx' returned' start' cif' key bits slices
        rw [value, decoded returned']
        apply contextOf_get
        · rintro rfl
          exact bits
        · unfold fieldAt
          rw [← bits]
          by_cases set : cif.testBit key.bit = true
          · rw [if_pos set, if_pos set, slices set]
          · rw [if_neg set, if_neg set]
  · intro f h rest valid well declared
    have general := valid.decode well declared rest
    refine ⟨general, ?_⟩
    intro exact'
    have same : Platform.fl = id := funext exact'
    rw [general, same]

namespace Exact

def someFields : ContextFields where
  change := true
  bandwidth := some (10 ^ 6 * 2 ^ 20)
  rfRefFreq := none
  gain := some (-128, 64)
  sampleRate := none
  payloadFormat := some encodePayloadFormatU64
  other bit := if bit = 30 then some [1, 2, 3, 4] else none

theorem decodeContext_someFields :
    let raw := (fullHeader 17 packetTypeIfContext).encode ++ someFields.encode ++ [0xAA]
    decodeContext raw (fullHeader 17 packetTypeIfContext) = .ok (someFields.context id) ∧
      (someFields.context id).bandwidthHz = some 1000000 ∧
      (someFields.context id).has .rfHz = false := by
  intro raw
  have well := fullHeader_wellFormed 17 (by decide) (.inr rfl)
  have valid : someFields.Valid := by
    constructor
    · decide
    · decide
    · decide
    · decide
    · decide
    · intro bit bytes held
      simp only [someFields] at held
      split at held
      · subst bit
        cases held
        rfl
      · cases held
  have decoded := (decodeContext_exact.2 someFields (fullHeader 17 packetTypeIfContext)
    [0xAA] valid well (by decide +kernel)).2
    fun _ => rfl
  have parsed : parseHeader raw = .ok (fullHeader 17 packetTypeIfContext) := by
    rw [show raw = _ ++ (someFields.encode ++ [0xAA]) from List.append_assoc ..]
    exact well.parse _
  have keys := ((decodeContext_exact.1 raw _ parsed).2 _ decoded).1
  exact ⟨decoded, by decide +kernel, (keys .rfHz).trans (by decide +kernel)⟩

end Exact

end Sceptre
