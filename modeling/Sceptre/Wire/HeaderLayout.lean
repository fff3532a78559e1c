import Mathlib.Data.Nat.Bitwise
import Sceptre.Foundation.Layout
import Sceptre.Foundation.Windows
import Sceptre.Wire.Encoding

namespace Sceptre

open Foundation Foundation.Windows

theorem or_below (high bits : Nat) {low shift top : Nat} (adjacent : top = shift + bits) (small : low < 2 ^ bits) :
    (high <<< top) ||| (low <<< shift) = (2 ^ bits * high + low) <<< shift := by
  rw [adjacent, Nat.add_comm, Nat.shiftLeft_add, ← Nat.shiftLeft_or_distrib, Nat.shiftLeft_eq high, Nat.mul_comm,
    Nat.two_pow_add_eq_or_of_lt small]

def joinWord0 (packetType classId trailer tsi tsf counter size : Nat) : Nat :=
  (packetType <<< w0PacketTypeShift) ||| (classId <<< w0ClassIdBit) ||| (trailer <<< w0TrailerBit)
    ||| (tsi <<< w0TsiShift) ||| (tsf <<< w0TsfShift) ||| (counter <<< w0CounterShift) ||| size

/-- The widths of the windows of word0, from bit 0 up: size, counter, tsf, tsi, the two reserved bits, trailer, class
    id and packet type. -/
def word0Widths : List Nat := [16, 4, 2, 2, 2, 1, 1, 4]

theorem joinWord0_join (packetType : Nat) {classId trailer tsi tsf counter size : Nat} (h1 : classId < 2)
    (h2 : trailer < 2) (h3 : tsi < 4) (h4 : tsf < 4) (h5 : counter < 16) (h6 : size < 65536) :
    joinWord0 packetType classId trailer tsi tsf counter size =
      join word0Widths [size, counter, tsf, tsi, 0, trailer, classId, packetType] := by
  have spaced : tsi < 2 ^ 4 := Nat.lt_trans h3 (by decide)
  have lowest : size = size <<< 0 := rfl
  rw [joinWord0, or_below packetType 1 (show w0PacketTypeShift = w0ClassIdBit + 1 from rfl) h1,
    or_below _ 1 (show w0ClassIdBit = w0TrailerBit + 1 from rfl) h2,
    or_below _ 4 (show w0TrailerBit = w0TsiShift + 4 from rfl) spaced,
    or_below _ 2 (show w0TsiShift = w0TsfShift + 2 from rfl) h4,
    or_below _ 4 (show w0TsfShift = w0CounterShift + 4 from rfl) h5, lowest,
    or_below _ 16 (show w0CounterShift = 0 + 16 from rfl) h6, Nat.shiftLeft_zero, Nat.shiftLeft_zero]
  simp only [word0Widths, join]
  omega

inductive HeaderField where
  | streamId
  | classId
  | intTs
  | fracPs
  deriving DecidableEq

def headerFields : List HeaderField := [.streamId, .classId, .intTs, .fracPs]

def HeaderField.size (hasStreamId hasClassId : Bool) (tsi tsf : Nat) : HeaderField → Nat
  | .streamId => if hasStreamId then streamIdSize else 0
  | .classId => if hasClassId then classIdSize else 0
  | .intTs => if tsi ≠ 0 then intTsSize else 0
  | .fracPs => if tsf ≠ 0 then fracTsSize else 0

theorem headerLength_eq (hasStreamId hasClassId : Bool) (tsi tsf : Nat) :
    headerLength hasStreamId hasClassId tsi tsf =
      word0Size + Layout.total (HeaderField.size hasStreamId hasClassId tsi tsf) headerFields := by
  simp only [headerLength, headerFields, Layout.total, HeaderField.size, List.map_cons, List.map_nil, List.sum_cons,
    List.sum_nil]
  omega

def word0 (b : Bytes) : Nat := fromBytes (b.extract 0 word0Size)

def word0Type (w : Nat) : Nat := (w >>> w0PacketTypeShift) &&& 0xF
def word0ClassId (w : Nat) : Bool := (w >>> w0ClassIdBit) &&& 1 == 1
def word0Trailer (w : Nat) : Bool := (w >>> w0TrailerBit) &&& 1 == 1
def word0Tsi (w : Nat) : Nat := (w >>> w0TsiShift) &&& 0x3
def word0Tsf (w : Nat) : Nat := (w >>> w0TsfShift) &&& 0x3
def word0Counter (w : Nat) : Nat := (w >>> w0CounterShift) &&& 0xF
def word0StreamId (w : Nat) : Bool := decide (word0Type w ∈ packetTypesWithStreamId)

def word0Fields (w : Nat) : HeaderField → Nat :=
  HeaderField.size (word0StreamId w) (word0ClassId w) (word0Tsi w) (word0Tsf w)

def word0Length (w : Nat) : Nat := headerLength (word0StreamId w) (word0ClassId w) (word0Tsi w) (word0Tsf w)

def fieldOf (b : Bytes) (field : HeaderField) : Bytes :=
  Layout.part (word0Fields (word0 b)) headerFields (b.drop word0Size) field

def headerOf (b : Bytes) : Header where
  packetType := word0Type (word0 b)
  classId := if word0ClassId (word0 b) then some (fieldOf b .classId) else none
  hasTrailer := word0Trailer (word0 b)
  tsi := word0Tsi (word0 b)
  tsf := word0Tsf (word0 b)
  packetCounter := word0Counter (word0 b)
  packetSize := word0 b &&& w0PacketSizeMask
  streamId := if word0StreamId (word0 b) then some (fromBytes (fieldOf b .streamId)) else none
  intTs := if word0Tsi (word0 b) ≠ 0 then some (fromBytes (fieldOf b .intTs)) else none
  fracPs := if word0Tsf (word0 b) ≠ 0 then some (fromBytes (fieldOf b .fracPs)) else none
  headerLen := word0Length (word0 b)

theorem extract_drop (b : Bytes) (start offset size : Nat) :
    (b.drop start).extract offset (offset + size) = b.extract (start + offset) (start + offset + size) := by
  rw [List.extract_eq_take_drop, List.extract_eq_take_drop, List.drop_drop]
  congr 1
  omega

theorem optionalField_eq (b : Bytes) (present : Bool) (off size : Nat) :
    optionalField b present off size =
      (if present then some (b.extract off (off + size)) else none, off + if present then size else 0) := by
  cases present <;> rfl

theorem parseHeader_eq (b : Bytes) (enough : word0Size ≤ b.length) (fits : word0Length (word0 b) ≤ b.length) :
    parseHeader b = .ok (headerOf b) := by
  have first : ¬ b.length < word0Size := by omega
  have whole : ¬ b.length < word0Length (word0 b) := by omega
  have read : ∀ (field : HeaderField) (present : Bool) (off size : Nat),
      off = word0Size + Layout.offset (word0Fields (word0 b)) headerFields field →
      word0Fields (word0 b) field = (if present then size else 0) →
      (if present then some (b.extract off (off + size)) else none) = if present then some (fieldOf b field)
        else none := by
    intro field present off size same sized
    cases present with
    | false => rfl
    | true =>
      rw [if_pos rfl] at sized
      rw [if_pos rfl, if_pos rfl, fieldOf, Layout.part, sized, extract_drop, same]
  rw [parseHeader, if_neg first]
  change (if b.length < word0Length (word0 b) then Except.error _ else Except.ok _) = _
  rw [if_neg whole]
  apply congrArg Except.ok
  simp only [optionalField_eq]
  rw [Header.mk.injEq]
  refine ⟨rfl, ?_, rfl, rfl, rfl, rfl, rfl, ?_, ?_, ?_, ?_⟩
  · exact read .classId (word0ClassId (word0 b)) _ _ rfl rfl
  · have streamId := congrArg (Option.map fromBytes) (read .streamId (word0StreamId (word0 b)) _ _ rfl rfl)
    exact streamId.trans (apply_ite ..)
  · have intTs := congrArg (Option.map fromBytes) (read .intTs (word0Tsi (word0 b) ≠ 0) _ intTsSize
      (Nat.add_assoc ..) (by simp [word0Fields, HeaderField.size]))
    refine intTs.trans ?_
    simp only [decide_eq_true_eq]
    exact apply_ite ..
  · refine (congrArg (Option.map fromBytes) (read .fracPs (word0Tsf (word0 b) ≠ 0) _ fracTsSize ?_ ?_)).trans ?_
    · simp only [decide_eq_true_eq, Nat.add_assoc]
      simp [Layout.offset, headerFields, word0Fields, HeaderField.size, word0StreamId, word0Type,
        word0ClassId, word0Tsi, word0]
    · simp [word0Fields, HeaderField.size]
    · simp only [decide_eq_true_eq]
      exact apply_ite ..
  · simp only [headerOf, word0Length, headerLength, word0StreamId, decide_eq_true_eq]
    rfl

theorem word0_digits (w : Nat) :
    word0Type w = window 28 4 w ∧ (word0ClassId w).toNat = window 27 1 w ∧ (word0Trailer w).toNat = window 26 1 w ∧
      word0Tsi w = window 22 2 w ∧ word0Tsf w = window 20 2 w ∧ word0Counter w = window 16 4 w ∧
      w &&& w0PacketSizeMask = window 0 16 w := by
  have bit : ∀ shift, (window shift 1 w == 1).toNat = window shift 1 w := by
    intro shift
    rcases Nat.le_one_iff_eq_zero_or_eq_one.mp (Nat.le_of_lt_succ (window_lt shift 1 w)) with zero | one
    · rw [zero]
      rfl
    · rw [one]
      rfl
  exact ⟨rfl, bit 27, bit 26, rfl, rfl, rfl, rfl⟩

namespace Header

def firstWord (h : Header) : Nat :=
  joinWord0 h.packetType h.classId.isSome.toNat h.hasTrailer.toNat h.tsi h.tsf h.packetCounter h.packetSize

def bytesOf (h : Header) : HeaderField → Bytes
  | .streamId => h.streamId.elim [] (packed streamIdSize)
  | .classId => h.classId.getD []
  | .intTs => h.intTs.elim [] (packed intTsSize)
  | .fracPs => h.fracPs.elim [] (packed fracTsSize)

def encode (h : Header) : Bytes := packed word0Size h.firstWord ++ headerFields.flatMap h.bytesOf

/-- The optional fields are present exactly as the type and the flags say, and every value fits its width. -/
structure WellFormed (h : Header) : Prop where
  packetType : h.packetType < 16
  tsi : h.tsi < 4
  tsf : h.tsf < 4
  packetCounter : h.packetCounter < 16
  packetSize : h.packetSize < 65536
  hasStreamId : h.streamId.isSome = decide (h.packetType ∈ packetTypesWithStreamId)
  streamId : ∀ s ∈ h.streamId, s < 256 ^ streamIdSize
  classId : ∀ bytes ∈ h.classId, bytes.length = classIdSize
  hasIntTs : h.intTs.isSome = decide (h.tsi ≠ 0)
  intTs : ∀ seconds ∈ h.intTs, seconds < 256 ^ intTsSize
  hasFracPs : h.fracPs.isSome = decide (h.tsf ≠ 0)
  fracPs : ∀ picoseconds ∈ h.fracPs, picoseconds < 256 ^ fracTsSize
  headerLen : h.headerLen = headerLength h.streamId.isSome h.classId.isSome h.tsi h.tsf

end Header

theorem clear_reserved (w : Nat) :
    windows 0 word0Widths (w &&& 0xFCFFFFFF) =
      [window 0 16 w, window 16 4 w, window 20 2 w, window 22 2 w, 0, window 26 1 w, window 27 1 w, window 28 4 w] := by
  have full : ∀ shift width, window shift width w &&& (2 ^ width - 1) = window shift width w := by
    intro shift width
    rw [window, Nat.and_assoc, Nat.and_self]
  rw [windows_and]
  show [window 0 16 w &&& (2 ^ 16 - 1), window 16 4 w &&& (2 ^ 4 - 1), window 20 2 w &&& (2 ^ 2 - 1),
    window 22 2 w &&& (2 ^ 2 - 1), window 24 2 w &&& 0, window 26 1 w &&& (2 ^ 1 - 1), window 27 1 w &&& (2 ^ 1 - 1),
    window 28 4 w &&& (2 ^ 4 - 1)] = _
  rw [full, full, full, full, Nat.and_zero, full, full, full]

theorem headerOf_firstWord (b : Bytes) : (headerOf b).firstWord = word0 b &&& 0xFCFFFFFF := by
  obtain ⟨type, classId, trailer, tsi, tsf, counter, size⟩ := word0_digits (word0 b)
  have present : (headerOf b).classId.isSome = word0ClassId (word0 b) := by
    rw [headerOf]
    cases word0ClassId (word0 b) <;> rfl
  have joined := join_windows 0 word0Widths (word0 b &&& 0xFCFFFFFF)
  rw [clear_reserved, Nat.pow_zero, Nat.div_one, Nat.mod_eq_of_lt (Nat.and_lt_two_pow _ (by decide))] at joined
  rw [Header.firstWord, present, ← joined]
  simp only [headerOf, type, classId, trailer, tsi, tsf, counter, size]
  exact joinWord0_join _ (window_lt 27 1 _) (window_lt 26 1 _) (window_lt 22 2 _) (window_lt 20 2 _) (window_lt 16 4 _)
    (window_lt 0 16 _)

theorem fieldOf_length {b : Bytes} (fits : word0Length (word0 b) ≤ b.length) {field : HeaderField}
    (member : field ∈ headerFields) : (fieldOf b field).length = word0Fields (word0 b) field := by
  have total := headerLength_eq (word0StreamId (word0 b)) (word0ClassId (word0 b)) (word0Tsi (word0 b))
    (word0Tsf (word0 b))
  apply Layout.part_length member
  rw [List.length_drop]
  rw [word0Length] at fits
  unfold word0Fields
  omega

theorem headerOf_bytesOf {b : Bytes} (fits : word0Length (word0 b) ≤ b.length) {field : HeaderField}
    (member : field ∈ headerFields) : (headerOf b).bytesOf field = fieldOf b field := by
  have length := fieldOf_length fits member
  have absent : word0Fields (word0 b) field = 0 → fieldOf b field = [] := by
    intro none
    rw [none] at length
    exact List.length_eq_zero_iff.mp length
  have again : ∀ size, word0Fields (word0 b) field = size → packed size (fromBytes (fieldOf b field)) =
    fieldOf b field := by
    intro size sized
    rw [← sized, ← length]
    exact packed_fromBytes _
  cases field with
  | streamId =>
    simp only [Header.bytesOf, headerOf]
    by_cases present : word0StreamId (word0 b) = true
    · rw [if_pos present]
      exact again streamIdSize (if_pos present)
    · rw [if_neg present]
      exact (absent (if_neg present)).symm
  | classId =>
    simp only [Header.bytesOf, headerOf]
    by_cases present : word0ClassId (word0 b) = true
    · rw [if_pos present]
      rfl
    · rw [if_neg present]
      exact (absent (if_neg present)).symm
  | intTs =>
    simp only [Header.bytesOf, headerOf]
    by_cases present : word0Tsi (word0 b) ≠ 0
    · rw [if_pos present]
      exact again intTsSize (if_pos present)
    · rw [if_neg present]
      exact (absent (if_neg present)).symm
  | fracPs =>
    simp only [Header.bytesOf, headerOf]
    by_cases present : word0Tsf (word0 b) ≠ 0
    · rw [if_pos present]
      exact again fracTsSize (if_pos present)
    · rw [if_neg present]
      exact (absent (if_neg present)).symm

theorem headerOf_encode {b : Bytes} (fits : word0Length (word0 b) ≤ b.length) :
    (headerOf b).encode = packed word0Size (word0 b &&& 0xFCFFFFFF) ++ b.extract word0Size (headerOf b).headerLen := by
  have parts : headerFields.flatMap (headerOf b).bytesOf = headerFields.flatMap (fieldOf b) :=
    List.flatMap_congr fun field member => headerOf_bytesOf fits member
  have joined := Layout.flatMap_part (word0Fields (word0 b)) (by decide : headerFields.Nodup) (b.drop word0Size)
  have total := headerLength_eq (word0StreamId (word0 b)) (word0ClassId (word0 b)) (word0Tsi (word0 b))
    (word0Tsf (word0 b))
  have length : (headerOf b).headerLen - word0Size = Layout.total (word0Fields (word0 b)) headerFields := by
    show headerLength .. - word0Size = _
    rw [total]
    exact Nat.add_sub_cancel_left ..
  rw [Header.encode, headerOf_firstWord, parts, List.extract_eq_take_drop, length]
  exact congrArg _ joined

theorem Header.WellFormed.firstWord {h : Header} (well : h.WellFormed) :
    h.firstWord < 256 ^ word0Size ∧ word0Type h.firstWord = h.packetType ∧ word0ClassId h.firstWord = h.classId.isSome ∧
      word0Trailer h.firstWord = h.hasTrailer ∧ word0Tsi h.firstWord = h.tsi ∧ word0Tsf h.firstWord = h.tsf ∧
      word0Counter h.firstWord = h.packetCounter ∧ h.firstWord &&& w0PacketSizeMask = h.packetSize := by
  have classId := Bool.toNat_lt h.classId.isSome
  have trailer := Bool.toNat_lt h.hasTrailer
  have fit : List.Forall₂ (fun width value => value < 2 ^ width) word0Widths
      [h.packetSize, h.packetCounter, h.tsf, h.tsi, 0, h.hasTrailer.toNat, h.classId.isSome.toNat, h.packetType] :=
    .cons well.packetSize (.cons well.packetCounter (.cons well.tsf (.cons well.tsi (.cons (by decide) (.cons trailer
      (.cons classId (.cons well.packetType .nil)))))))
  have joined : h.firstWord = join word0Widths _ :=
    joinWord0_join h.packetType classId trailer well.tsi well.tsf well.packetCounter well.packetSize
  have digits := windows_join fit
  have small := join_lt fit
  rw [← joined] at digits small
  simp only [word0Widths, windows, List.cons.injEq, and_true] at digits
  obtain ⟨size', counter', tsf', tsi', -, trailer', classId', type'⟩ := digits
  obtain ⟨type, classBit, trailerBit, tsi, tsf, counter, size⟩ := word0_digits h.firstWord
  have flag : ∀ here there : Bool, here.toNat = there.toNat → here = there := by decide
  exact ⟨small, type.trans type', flag _ _ (classBit.trans classId'), flag _ _ (trailerBit.trans trailer'),
    tsi.trans tsi', tsf.trans tsf', counter.trans counter', size.trans size'⟩

theorem Header.WellFormed.bytesOf_length {h : Header} (well : h.WellFormed) (field : HeaderField) :
    (h.bytesOf field).length = word0Fields h.firstWord field := by
  obtain ⟨-, type, classId, -, tsi, tsf, -, -⟩ := well.firstWord
  cases field with
  | streamId =>
    have flag : word0StreamId h.firstWord = h.streamId.isSome := by rw [word0StreamId, type, well.hasStreamId]
    simp only [word0Fields, HeaderField.size, flag, Header.bytesOf]
    cases h.streamId with
    | none => rfl
    | some s => exact packed_length ..
  | classId =>
    simp only [word0Fields, HeaderField.size, classId, Header.bytesOf]
    cases held : h.classId with
    | none => rfl
    | some bytes => exact well.classId bytes held
  | intTs =>
    have flag := well.hasIntTs
    simp only [word0Fields, HeaderField.size, tsi, Header.bytesOf]
    cases held : h.intTs with
    | none =>
      rw [held] at flag
      rw [if_neg (of_decide_eq_false flag.symm)]
      rfl
    | some seconds =>
      rw [held] at flag
      rw [if_pos (of_decide_eq_true flag.symm)]
      exact packed_length ..
  | fracPs =>
    have flag := well.hasFracPs
    simp only [word0Fields, HeaderField.size, tsf, Header.bytesOf]
    cases held : h.fracPs with
    | none =>
      rw [held] at flag
      rw [if_neg (of_decide_eq_false flag.symm)]
      rfl
    | some picoseconds =>
      rw [held] at flag
      rw [if_pos (of_decide_eq_true flag.symm)]
      exact packed_length ..

theorem Header.WellFormed.encode_length {h : Header} (well : h.WellFormed) : h.encode.length =
    word0Length h.firstWord := by
  rw [Header.encode, List.length_append, packed_length, word0Length, headerLength_eq, List.length_flatMap, Layout.total]
  congr 3
  funext field
  exact well.bytesOf_length field

theorem Header.WellFormed.headerLen_eq {h : Header} (well : h.WellFormed) : h.headerLen = word0Length h.firstWord := by
  obtain ⟨-, type, classId, -, tsi, tsf, -, -⟩ := well.firstWord
  rw [well.headerLen, word0Length, word0StreamId, type, classId, tsi, tsf, well.hasStreamId]

theorem Header.WellFormed.parse {h : Header} (well : h.WellFormed) (rest : Bytes) :
    parseHeader (h.encode ++ rest) = .ok h := by
  obtain ⟨bound, type, classId, trailer, tsi, tsf, counter, size⟩ := well.firstWord
  have front : h.encode ++ rest = packed word0Size h.firstWord ++ (headerFields.flatMap h.bytesOf ++ rest) :=
    List.append_assoc ..
  have first : word0 (h.encode ++ rest) = h.firstWord := by
    rw [word0, front, List.extract_eq_take_drop, List.drop_zero, Nat.sub_zero, List.take_left' (packed_length ..)]
    exact fromBytes_packed bound
  have parts : ∀ field ∈ headerFields, fieldOf (h.encode ++ rest) field = h.bytesOf field := by
    intro field member
    rw [fieldOf, first, front, List.drop_left' (packed_length ..)]
    exact Layout.part_flatMap _ _ _ (fun field _ => well.bytesOf_length field) member
  have long : h.encode.length ≤ (h.encode ++ rest).length := by
    rw [List.length_append]
    omega
  have fits : word0Length (word0 (h.encode ++ rest)) ≤ (h.encode ++ rest).length := by
    rw [first, ← well.encode_length]
    exact long
  have enough : word0Size ≤ (h.encode ++ rest).length := by
    rw [front, List.length_append, packed_length]
    omega
  have streamId : word0StreamId h.firstWord = h.streamId.isSome := by rw [word0StreamId, type, well.hasStreamId]
  rw [parseHeader_eq _ enough fits]
  apply congrArg Except.ok
  rw [headerOf, parts .streamId (by decide), parts .classId (by decide), parts .intTs (by decide),
    parts .fracPs (by decide), first, type, classId, trailer, tsi, tsf, counter, size, streamId, ← well.headerLen_eq]
  have streamIds : (if h.streamId.isSome = true then some (fromBytes (h.bytesOf .streamId)) else none) =
    h.streamId := by
    cases held : h.streamId with
    | none => rfl
    | some s =>
      rw [Header.bytesOf, held]
      exact congrArg some (fromBytes_packed (well.streamId s held))
  have classIds : (if h.classId.isSome = true then some (h.bytesOf .classId) else none) = h.classId := by
    rw [Header.bytesOf]
    cases h.classId <;> rfl
  have seconds : (if h.tsi ≠ 0 then some (fromBytes (h.bytesOf .intTs)) else none) = h.intTs := by
    have flag := well.hasIntTs
    rw [Header.bytesOf]
    cases held : h.intTs with
    | none =>
      rw [held] at flag
      exact if_neg (of_decide_eq_false flag.symm)
    | some seconds =>
      rw [held] at flag
      rw [if_pos (of_decide_eq_true flag.symm)]
      exact congrArg some (fromBytes_packed (well.intTs seconds held))
  have picoseconds : (if h.tsf ≠ 0 then some (fromBytes (h.bytesOf .fracPs)) else none) = h.fracPs := by
    have flag := well.hasFracPs
    rw [Header.bytesOf]
    cases held : h.fracPs with
    | none =>
      rw [held] at flag
      exact if_neg (of_decide_eq_false flag.symm)
    | some picoseconds =>
      rw [held] at flag
      rw [if_pos (of_decide_eq_true flag.symm)]
      exact congrArg some (fromBytes_packed (well.fracPs picoseconds held))
  rw [streamIds, classIds, seconds, picoseconds]

/-- The parser raises exactly on the packets that are shorter than what their first word declares. -/
theorem parseHeader_cases (b : Bytes) :
    ((b.length < word0Size ∨ b.length < word0Length (word0 b)) ∧ ∃ e, parseHeader b = .error e) ∨
      (word0Size ≤ b.length ∧ word0Length (word0 b) ≤ b.length ∧ parseHeader b = .ok (headerOf b)) := by
  by_cases short : b.length < word0Size
  · exact .inl ⟨.inl short, _, if_pos short⟩
  · by_cases cut : b.length < word0Length (word0 b)
    · left
      rw [parseHeader, if_neg short]
      exact ⟨.inr cut, _, if_pos cut⟩
    · right
      have enough := Nat.le_of_not_lt short
      have fits := Nat.le_of_not_lt cut
      exact ⟨enough, fits, parseHeader_eq b enough fits⟩

theorem parseHeader_ok {b : Bytes} {hdr : Header} (parsed : parseHeader b = .ok hdr) :
    word0Size ≤ b.length ∧ word0Length (word0 b) ≤ b.length ∧ hdr = headerOf b := by
  rcases parseHeader_cases b with ⟨-, e, raised⟩ | ⟨enough, fits, returned⟩
  · rw [raised] at parsed
    cases parsed
  · rw [returned] at parsed
    exact ⟨enough, fits, (Except.ok.inj parsed).symm⟩

theorem parseHeader_append {b : Bytes} {hdr : Header} (parsed : parseHeader b = .ok hdr) (rest : Bytes) :
    parseHeader (b ++ rest) = .ok hdr := by
  obtain ⟨enough, fits, rfl⟩ := parseHeader_ok parsed
  have first : word0 (b ++ rest) = word0 b := by
    rw [word0, word0, List.extract_eq_take_drop, List.extract_eq_take_drop, List.drop_zero, List.drop_zero,
      Nat.sub_zero, List.take_append_of_le_length enough]
  have total : word0Length (word0 b) = _ := headerLength_eq ..
  have room : Layout.total (word0Fields (word0 b)) headerFields ≤ (b.drop word0Size).length := by
    rw [List.length_drop]
    unfold word0Fields
    omega
  have parts : ∀ field ∈ headerFields, fieldOf (b ++ rest) field = fieldOf b field := by
    intro field member
    rw [fieldOf, fieldOf, first, List.drop_append_of_le_length enough]
    exact Layout.part_append member room rest
  have long : b.length ≤ (b ++ rest).length := by
    rw [List.length_append]
    omega
  rw [parseHeader_eq (b ++ rest) (enough.trans long) (by rw [first]; exact fits.trans long)]
  apply congrArg Except.ok
  rw [headerOf, headerOf, first, parts .streamId (by decide), parts .classId (by decide), parts .intTs (by decide),
    parts .fracPs (by decide)]

/-- The parser accepts exactly the packets that hold what their first word declares; what it returns encodes to the
    bytes it read, and an encoded header, with anything after it, is parsed to itself. -/
theorem parseHeader_exact :
    (∀ b : Bytes,
      ((∃ e, parseHeader b = .error e) ↔ b.length < word0Size ∨ b.length < word0Length (word0 b)) ∧
      ∀ hdr, parseHeader b = .ok hdr →
        hdr.headerLen = word0Length (word0 b) ∧ hdr.headerLen ≤ b.length ∧
        (∀ field ∈ headerFields,
          let start := word0Size + Layout.offset (word0Fields (word0 b)) headerFields field
          let stop := start + word0Fields (word0 b) field
          stop ≤ hdr.headerLen ∧ hdr.bytesOf field = b.extract start stop) ∧
        hdr.encode = packed word0Size (word0 b &&& 0xFCFFFFFF) ++ b.extract word0Size hdr.headerLen) ∧
    ∀ h : Header, h.WellFormed → ∀ rest, parseHeader (h.encode ++ rest) = .ok h := by
  constructor
  · intro b
    constructor
    · rcases parseHeader_cases b with ⟨short, raised⟩ | ⟨enough, fits, parsed⟩
      · exact iff_of_true raised short
      · apply iff_of_false
        · rintro ⟨e, raised⟩
          rw [parsed] at raised
          cases raised
        · omega
    · intro hdr parsed
      obtain ⟨enough, fits, rfl⟩ := parseHeader_ok parsed
      refine ⟨rfl, fits, ?_, headerOf_encode fits⟩
      intro field member
      have inside := Layout.offset_add_le (word0Fields (word0 b)) member
      have total : word0Length (word0 b) = _ := headerLength_eq ..
      constructor
      · show _ ≤ word0Length (word0 b)
        rw [total]
        unfold word0Fields at inside ⊢
        omega
      · rw [headerOf_bytesOf fits member, fieldOf, Layout.part, extract_drop]
  · exact fun h well rest => well.parse rest

def fullHeader (packetSize : Nat) (packetType : Nat := packetTypeIfData) : Header :=
  { packetType := packetType, classId := some dataClassId, hasTrailer := true, tsi := 1, tsf := 2, packetCounter := 9,
    packetSize := packetSize, streamId := some 123, intTs := some 1750000000, fracPs := some 500, headerLen := 28 }

theorem fullHeader_wellFormed (packetSize : Nat) {packetType : Nat} (fits : packetSize < 65536)
    (kind : packetType = packetTypeIfData ∨ packetType = packetTypeIfContext) :
    (fullHeader packetSize packetType).WellFormed := by
  rcases kind with rfl | rfl
  all_goals
    constructor <;> simp [fullHeader, packetTypesWithStreamId, packetTypeIfData, packetTypeIfContext, streamIdSize,
      classIdSize, intTsSize, fracTsSize, dataClassId, headerLength, word0Size, fits]

theorem parseHeader_exact_full :
    parseHeader ((fullHeader 8).encode ++ [0xAA, 0xAA, 0xAA, 0xAA]) = .ok (fullHeader 8) ∧
      (fullHeader 8).encode.length = 28 ∧
      (fullHeader 8).encode = packed 4 (word0 ((fullHeader 8).encode ++ [0xAA, 0xAA, 0xAA, 0xAA]) &&& 0xFCFFFFFF) ++
        ((fullHeader 8).encode ++ [0xAA, 0xAA, 0xAA, 0xAA]).extract 4 28 := by
  have well := fullHeader_wellFormed 8 (by decide) (.inl rfl)
  have parsed := parseHeader_exact.2 (fullHeader 8) well [0xAA, 0xAA, 0xAA, 0xAA]
  obtain ⟨-, -, -, encoded⟩ := (parseHeader_exact.1 _).2 (fullHeader 8) parsed
  exact ⟨parsed, by decide, encoded⟩

end Sceptre
