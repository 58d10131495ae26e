import BrickTrace.Lib.Fallible
import BrickTrace.Lib.Numerals
import BrickTrace.Lib.Varint
import Mathlib.Tactic.Ring

/-!
# The root blob of a cursor-agent database

The root blob is a protobuf message.  Its field 1, repeated, names the blobs of the messages of a
session, each by 32 bytes.  The reader takes one byte for the tag of a field, and a tag has one
byte for the field numbers up to 15.
-/

set_option autoImplicit false

namespace BrickTrace

namespace RootBlob

/-! ## Messages -/

inductive FieldValue where
  | varint (value : UInt64)
  | bytes (payload : List UInt8) (fits : payload.length < 2 ^ 64)

structure Field where
  number : Nat
  valid : 1 ≤ number ∧ number < 2 ^ 29
  value : FieldValue

def Field.encode (field : Field) : List UInt8 :=
  match field.value with
  | .varint value => Varint.encode (field.number * 8) ++ Varint.encode value.toNat
  | .bytes payload _ =>
      Varint.encode (field.number * 8 + 2) ++ (Varint.encode payload.length ++ payload)

def encode (message : List Field) : List UInt8 := message.flatMap Field.encode

/-- Two hexadecimal digits for each byte. -/
def hexEncode (bytes : List UInt8) : String :=
  String.ofList (bytes.flatMap fun byte => Numerals.hexDigits 2 byte.toNat)

/-- The blob that a field names. -/
def Field.blobId (field : Field) : List String :=
  match field.value with
  | .bytes payload _ => if field.number = 1 ∧ payload.length = 32 then [hexEncode payload] else []
  | .varint _ => []

def blobIds (message : List Field) : List String := message.flatMap Field.blobId

/-! ## The reader -/

inductive ReadFailure where
  | outOfBounds
  | outOfFuel

def byteAt (bytes : List UInt8) (index : Nat) : Except ReadFailure UInt8 :=
  match bytes[index]? with
  | some byte => .ok byte
  | none => .error .outOfBounds

/-- `&bytes[start..stop]`. -/
def slice (bytes : List UInt8) (start stop : Nat) : Except ReadFailure (List UInt8) :=
  if start ≤ stop ∧ stop ≤ bytes.length then .ok ((bytes.take stop).drop start)
  else .error .outOfBounds

/-- `read_varint`: the value that the bytes start with and how many bytes it has. -/
def readVarintFrom (value : UInt64) (shift offset : Nat) : List UInt8 → Option (UInt64 × Nat)
  | [] => none
  | byte :: rest =>
      let value := value ||| (byte &&& 0x7f).toUInt64 <<< UInt64.ofNat shift
      if byte &&& 0x80 = 0 then some (value, offset + 1)
      else if 64 ≤ shift + 7 then none
      else readVarintFrom value (shift + 7) (offset + 1) rest

def readVarint (bytes : List UInt8) : Option (UInt64 × Nat) := readVarintFrom 0 0 0 bytes

/-- Advances past the bytes that say that another one follows. -/
def skipVarint (bytes : List UInt8) : Nat → Nat → Except ReadFailure Nat
  | 0, _ => .error .outOfFuel
  | fuel + 1, index =>
      if index < bytes.length then do
        let byte ← byteAt bytes index
        if byte &&& 0x80 ≠ 0 then skipVarint bytes fuel (index + 1) else return index
      else return index

/-- The loop from an index on.  A stop that saturates is past the end like any other. -/
def parseFrom (bytes : List UInt8) : Nat → Nat → List String → Except ReadFailure (List String)
  | 0, _, _ => .error .outOfFuel
  | fuel + 1, index, ids =>
      if index < bytes.length then do
        let tag ← byteAt bytes index
        let index := index + 1
        let field := tag >>> 3
        let wire := tag &&& 0x07
        if wire = 0 then
          let index ← skipVarint bytes (bytes.length + 1) index
          parseFrom bytes fuel (index + 1) ids
        else if wire = 2 then
          let rest ← slice bytes index bytes.length
          match readVarint rest with
          | none => return ids
          | some (len, consumed) =>
              let index := index + consumed
              let stop := index + len.toNat
              if bytes.length < stop then return ids
              else
                let chunk ← slice bytes index stop
                parseFrom bytes fuel stop
                  (if field = 1 ∧ chunk.length = 32 then ids ++ [hexEncode chunk] else ids)
        else return ids
      else return ids

def parseRootBlobIds (bytes : List UInt8) : Except ReadFailure (List String) :=
  parseFrom bytes (bytes.length + 1) 0 []

/-! ## Reading ends, and within the bytes -/

theorem byteAt_ok {bytes : List UInt8} {index : Nat} (inside : index < bytes.length) :
    ∃ byte, byteAt bytes index = .ok byte := by
  unfold byteAt
  rw [List.getElem?_eq_getElem inside]
  exact ⟨_, rfl⟩

theorem slice_ok {bytes : List UInt8} {start stop : Nat} (ordered : start ≤ stop)
    (inside : stop ≤ bytes.length) : slice bytes start stop = .ok ((bytes.take stop).drop start) :=
  if_pos ⟨ordered, inside⟩

theorem skipVarint_ok {bytes : List UInt8} {fuel index : Nat}
    (enough : bytes.length ≤ fuel + index) :
    ∃ reached, skipVarint bytes (fuel + 1) index = .ok reached ∧ index ≤ reached := by
  induction fuel generalizing index with
  | zero =>
      unfold skipVarint
      rw [if_neg (by omega)]
      exact ⟨index, rfl, Nat.le_refl _⟩
  | succ fuel ih =>
      unfold skipVarint
      by_cases inside : index < bytes.length
      · obtain ⟨byte, isByte⟩ := byteAt_ok inside
        rw [if_pos inside, isByte]
        by_cases continues : byte &&& 0x80 ≠ 0
        · obtain ⟨reached, skipped, after⟩ := @ih (index + 1) (by omega)
          refine ⟨reached, ?_, by omega⟩
          rw [← skipped]
          exact if_pos continues
        · exact ⟨index, if_neg continues, Nat.le_refl _⟩
      · rw [if_neg inside]
        exact ⟨index, rfl, Nat.le_refl _⟩

theorem readVarintFrom_consumed {value : UInt64} {shift offset : Nat} {bytes : List UInt8}
    {read : UInt64} {consumed : Nat}
    (isRead : readVarintFrom value shift offset bytes = some (read, consumed)) :
    offset < consumed ∧ consumed ≤ offset + bytes.length := by
  induction bytes generalizing value shift offset with
  | nil => cases isRead
  | cons byte rest ih =>
      unfold readVarintFrom at isRead
      dsimp only at isRead
      rw [List.length_cons]
      split at isRead
      · cases isRead
        omega
      · split at isRead
        · cases isRead
        · have later := ih isRead
          omega

theorem parseFrom_ok {bytes : List UInt8} {fuel index : Nat} (ids : List String)
    (enough : bytes.length ≤ fuel + index) :
    ∃ read, parseFrom bytes (fuel + 1) index ids = .ok read := by
  induction fuel generalizing index ids with
  | zero =>
      unfold parseFrom
      rw [if_neg (by omega)]
      exact ⟨ids, rfl⟩
  | succ fuel ih =>
      unfold parseFrom
      by_cases inside : index < bytes.length
      · obtain ⟨tag, isTag⟩ := byteAt_ok inside
        rw [if_pos inside, isTag]
        simp only [bind, Except.bind]
        split
        · have all : bytes.length ≤ bytes.length + (index + 1) := Nat.le_add_right ..
          obtain ⟨reached, skipped, after⟩ := skipVarint_ok all
          rw [skipped]
          exact ih ids (by omega)
        · split
          · rw [slice_ok (by omega) (Nat.le_refl _)]
            dsimp only
            cases isRead : readVarint _ with
            | none => exact ⟨ids, rfl⟩
            | some number =>
                obtain ⟨len, consumed⟩ := number
                have width := readVarintFrom_consumed isRead
                dsimp only
                split
                · exact ⟨ids, rfl⟩
                · rw [slice_ok (by omega) (by omega)]
                  exact ih _ (by omega)
          · exact ⟨ids, rfl⟩
      · rw [if_neg inside]
        exact ⟨ids, rfl⟩

/-- Reading ends, and no read is outside of the bytes. -/
theorem parseRootBlobIds_ok (bytes : List UInt8) : ∃ ids, parseRootBlobIds bytes = .ok ids :=
  parseFrom_ok [] (Nat.le_refl _)

/-! ## Numbers that are read -/

theorem and_0x80_eq_zero_iff (byte : UInt8) : byte &&& 0x80 = 0 ↔ Varint.continues byte = false := by
  simp [Varint.continues]

/-- The next seven bits go above the ones that were read. -/
theorem or_shiftLeft_toNat {read : UInt64} {shift low : Nat} (sevens : shift < 64)
    (lower : read.toNat < 2 ^ shift) (fits : low * 2 ^ shift < 2 ^ 64) {byte : UInt8}
    (isLow : (byte &&& 0x7f).toNat = low) :
    (read ||| (byte &&& 0x7f).toUInt64 <<< UInt64.ofNat shift).toNat =
      read.toNat + low * 2 ^ shift := by
  have shifted : (UInt64.ofNat shift).toNat % 64 = shift := by
    rw [UInt64.toNat_ofNat_of_lt' (Nat.lt_trans sevens (by decide))]
    exact Nat.mod_eq_of_lt sevens
  have high : ((byte &&& 0x7f).toUInt64 <<< UInt64.ofNat shift).toNat = 2 ^ shift * low := by
    rw [UInt64.toNat_shiftLeft, shifted, UInt8.toNat_toUInt64, isLow, Nat.shiftLeft_eq,
      Nat.mod_eq_of_lt fits, Nat.mul_comm]
  rw [UInt64.toNat_or, high, Nat.or_comm, ← Nat.two_pow_add_eq_or_of_lt lower, Nat.mul_comm,
    Nat.add_comm]

theorem readVarintFrom_encode (value : Nat) : ∀ (shift : Nat) (read : UInt64) (offset : Nat)
    (rest : List UInt8), shift < 64 → value * 2 ^ shift < 2 ^ 64 → read.toNat < 2 ^ shift →
    readVarintFrom read shift offset (Varint.encode value ++ rest) =
      some (UInt64.ofNat (read.toNat + value * 2 ^ shift),
        offset + (Varint.encode value).length) := by
  induction value using Varint.encode_induction with
  | last value small =>
      intro shift read offset rest sevens whole lower
      have isLow : (UInt8.ofNat value &&& 0x7f).toNat = value := by
        rw [Varint.low_toNat, Varint.toNat_ofNat_of_lt (by omega)]
        exact Nat.mod_eq_of_lt small
      have joined := or_shiftLeft_toNat sevens lower whole isLow
      rw [Varint.encode_of_lt small, List.singleton_append]
      unfold readVarintFrom
      dsimp only
      rw [if_pos ((and_0x80_eq_zero_iff _).mpr (Varint.continues_last small)), ← joined,
        UInt64.ofNat_toNat]
      rfl
  | more value large ih =>
      intro shift read offset rest sevens whole lower
      have parts := Nat.div_add_mod value 128
      have power : 2 ^ (shift + 7) = 2 ^ shift * 128 := Nat.pow_add 2 shift 7
      have split_value : value % 128 * 2 ^ shift + value / 128 * 2 ^ (shift + 7) =
          value * 2 ^ shift := by
        rw [power]
        conv_rhs => rw [← parts]
        ring
      have isLow : (UInt8.ofNat (value % 128 + 128) &&& 0x7f).toNat = value % 128 := by
        rw [Varint.low_toNat, Varint.toNat_ofNat_of_lt (by omega)]
        omega
      have joined := or_shiftLeft_toNat sevens lower (by omega) isLow
      have below : value % 128 * 2 ^ shift ≤ 127 * 2 ^ shift :=
        Nat.mul_le_mul_right _ (by omega)
      have more : shift + 7 < 64 := by
        by_contra late
        have grown : 2 ^ 64 ≤ 2 ^ (shift + 7) := Nat.pow_le_pow_right (by decide) (by omega)
        have positive : 1 * 2 ^ (shift + 7) ≤ value / 128 * 2 ^ (shift + 7) :=
          Nat.mul_le_mul_right _ (by omega)
        omega
      rw [Varint.encode_of_le large, List.cons_append]
      unfold readVarintFrom
      dsimp only
      rw [if_neg, if_neg (by omega), ih (shift + 7) _ (offset + 1) rest more (by omega)
        (by rw [joined]; omega), joined, Nat.add_assoc, split_value, List.length_cons,
        Nat.add_assoc, Nat.add_comm 1]
      rw [and_0x80_eq_zero_iff, Varint.continues_more]
      decide

theorem readVarint_encode {value : Nat} (fits : value < 2 ^ 64) (rest : List UInt8) :
    readVarint (Varint.encode value ++ rest) =
      some (UInt64.ofNat value, (Varint.encode value).length) := by
  have read := readVarintFrom_encode value 0 0 0 rest (by omega) (by simpa using fits) (by decide)
  simpa [readVarint] using read

/-! ## Fields that are read -/

theorem byteAt_append (before : List UInt8) (byte : UInt8) (rest : List UInt8) :
    byteAt (before ++ byte :: rest) before.length = .ok byte := by
  unfold byteAt
  rw [List.getElem?_append_right (Nat.le_refl _), Nat.sub_self]
  rfl

theorem slice_append {bytes : List UInt8} {start stop : Nat} (before middle rest : List UInt8)
    (isBytes : bytes = before ++ (middle ++ rest)) (starts : start = before.length)
    (stops : stop = before.length + middle.length) : slice bytes start stop = .ok middle := by
  subst isBytes starts stops
  rw [slice_ok (Nat.le_add_right ..) (by simp), ← List.append_assoc, ← List.length_append,
    List.take_left, List.drop_left]

theorem skipVarint_encode (value : Nat) : ∀ (before rest : List UInt8) (fuel : Nat),
    (Varint.encode value).length ≤ fuel →
    ∃ reached, skipVarint (before ++ (Varint.encode value ++ rest)) fuel before.length =
        .ok reached ∧ reached + 1 = before.length + (Varint.encode value).length := by
  induction value using Varint.encode_induction with
  | last value small =>
      intro before rest fuel enough
      rw [Varint.encode_of_lt small] at enough ⊢
      obtain ⟨fuel, rfl⟩ := Nat.exists_eq_succ_of_ne_zero (Nat.ne_of_gt enough)
      refine ⟨before.length, ?_, rfl⟩
      rw [List.singleton_append]
      unfold skipVarint
      rw [if_pos (by simp), byteAt_append]
      refine if_neg ?_
      rw [not_not, and_0x80_eq_zero_iff]
      exact Varint.continues_last small
  | more value large ih =>
      intro before rest fuel enough
      rw [Varint.encode_of_le large] at enough ⊢
      rw [List.length_cons] at enough
      obtain ⟨fuel, rfl⟩ := Nat.exists_eq_succ_of_ne_zero (Nat.ne_of_gt (Nat.zero_lt_of_lt enough))
      obtain ⟨reached, skipped, isReached⟩ :=
        ih (before ++ [UInt8.ofNat (value % 128 + 128)]) rest fuel (Nat.le_of_succ_le_succ enough)
      rw [List.length_append, List.length_singleton] at skipped isReached
      refine ⟨reached, ?_, by rw [isReached, List.length_cons]; omega⟩
      rw [List.cons_append]
      unfold skipVarint
      rw [if_pos (by simp), byteAt_append]
      rw [List.append_assoc, List.singleton_append] at skipped
      rw [← skipped]
      refine if_pos ?_
      rw [ne_eq, and_0x80_eq_zero_iff, Varint.continues_more]
      decide

/-- A tag of wire type 0 skips the number after it. -/
theorem parseFrom_varint {tag : UInt8} (wire : tag &&& 0x07 = 0) (value : Nat)
    (before rest : List UInt8) (fuel : Nat) (ids : List String) :
    parseFrom (before ++ tag :: (Varint.encode value ++ rest)) (fuel + 1) before.length ids =
      parseFrom (before ++ tag :: (Varint.encode value ++ rest)) fuel
        (before.length + 1 + (Varint.encode value).length) ids := by
  obtain ⟨reached, skipped, isReached⟩ := skipVarint_encode value (before ++ [tag]) rest
    ((before ++ tag :: (Varint.encode value ++ rest)).length + 1) (by simp; omega)
  have isLength : (before ++ [tag]).length = before.length + 1 := by simp
  rw [List.append_assoc, List.singleton_append, isLength] at skipped
  rw [isLength] at isReached
  conv_lhs => unfold parseFrom
  rw [if_pos (by simp), byteAt_append]
  simp only [bind, Except.bind, if_pos wire]
  rw [skipped, ← isReached]

/-- A tag of wire type 2 reads as many bytes as the number after it says. -/
theorem parseFrom_bytes {tag : UInt8} (wire : tag &&& 0x07 = 2) {chunk : List UInt8}
    (fits : chunk.length < 2 ^ 64) (before rest : List UInt8) (fuel : Nat) (ids : List String) :
    parseFrom (before ++ tag :: (Varint.encode chunk.length ++ (chunk ++ rest))) (fuel + 1)
        before.length ids =
      parseFrom (before ++ tag :: (Varint.encode chunk.length ++ (chunk ++ rest))) fuel
        (before.length + 1 + (Varint.encode chunk.length).length + chunk.length)
        (if tag >>> 3 = 1 ∧ chunk.length = 32 then ids ++ [hexEncode chunk] else ids) := by
  have len : (UInt64.ofNat chunk.length).toNat = chunk.length := UInt64.toNat_ofNat_of_lt' fits
  generalize isBytes :
    before ++ tag :: (Varint.encode chunk.length ++ (chunk ++ rest)) = bytes
  have isByte : byteAt bytes before.length = .ok tag := by
    rw [← isBytes]
    exact byteAt_append ..
  have isRest : slice bytes (before.length + 1) bytes.length =
      .ok (Varint.encode chunk.length ++ (chunk ++ rest)) := by
    refine slice_append (before ++ [tag]) _ [] ?_ ?_ ?_ <;> simp [← isBytes]
    omega
  have isChunk : slice bytes (before.length + 1 + (Varint.encode chunk.length).length)
      (before.length + 1 + (Varint.encode chunk.length).length + chunk.length) = .ok chunk := by
    refine slice_append (before ++ tag :: Varint.encode chunk.length) _ rest ?_ ?_ ?_ <;>
      simp [← isBytes] <;> omega
  have inside : before.length + 1 + (Varint.encode chunk.length).length + chunk.length ≤
      bytes.length := by
    simp [← isBytes]
    omega
  conv_lhs => unfold parseFrom
  have notVarint : ¬ tag &&& 0x07 = 0 := by
    rw [wire]
    decide
  rw [if_pos (by omega), isByte]
  simp only [bind, Except.bind, if_neg notVarint, if_pos wire, isRest, readVarint_encode fits, len]
  rw [if_neg (Nat.not_lt.mpr inside), isChunk]

theorem wire_toNat (tag : UInt8) : (tag &&& 0x07).toNat = tag.toNat % 8 := by
  rw [UInt8.toNat_and]
  exact Nat.and_two_pow_sub_one_eq_mod tag.toNat 3

theorem field_toNat (tag : UInt8) : (tag >>> 3).toNat = tag.toNat / 8 := by
  rw [UInt8.toNat_shiftRight]
  exact Nat.shiftRight_eq_div_pow ..

theorem parseFrom_field {field : Field} (small : field.number < 16) (before rest : List UInt8)
    (fuel : Nat) (ids : List String) :
    parseFrom (before ++ (field.encode ++ rest)) (fuel + 1) before.length ids =
      parseFrom (before ++ (field.encode ++ rest)) fuel (before.length + field.encode.length)
        (ids ++ field.blobId) := by
  unfold Field.encode Field.blobId
  cases field.value with
  | varint value =>
      dsimp only
      have isTag : (UInt8.ofNat (field.number * 8)).toNat = field.number * 8 :=
        Varint.toNat_ofNat_of_lt (by omega)
      have wire : UInt8.ofNat (field.number * 8) &&& 0x07 = 0 := by
        rw [← UInt8.toNat_inj, wire_toNat, isTag]
        exact Nat.mul_mod_left ..
      rw [Varint.encode_of_lt (by omega), List.append_nil, List.append_assoc,
        List.singleton_append, parseFrom_varint wire, List.length_append, List.length_singleton,
        Nat.add_assoc]
  | bytes payload fits =>
      dsimp only
      have isTag : (UInt8.ofNat (field.number * 8 + 2)).toNat = field.number * 8 + 2 :=
        Varint.toNat_ofNat_of_lt (by omega)
      have wire : UInt8.ofNat (field.number * 8 + 2) &&& 0x07 = 2 := by
        rw [← UInt8.toNat_inj, wire_toNat, isTag, Nat.mul_add_mod_self_right]
        rfl
      have isField : UInt8.ofNat (field.number * 8 + 2) >>> 3 = 1 ↔ field.number = 1 := by
        rw [← UInt8.toNat_inj, field_toNat, isTag]
        have one : (1 : UInt8).toNat = 1 := rfl
        omega
      rw [Varint.encode_of_lt (show field.number * 8 + 2 < 128 by omega), List.append_assoc,
        List.append_assoc, List.singleton_append, parseFrom_bytes wire fits, List.length_append,
        List.length_append, List.length_singleton]
      simp only [isField, Nat.add_assoc]
      split
      · rfl
      · rw [List.append_nil]

/-- Fields whose tags have one byte are read one after the other. -/
theorem parseFrom_encode {message : List Field} (small : ∀ field ∈ message, field.number < 16)
    (before : List UInt8) (fuel : Nat) (enough : message.length < fuel) (ids : List String) :
    parseFrom (before ++ encode message) fuel before.length ids = .ok (ids ++ blobIds message) := by
  induction message generalizing before fuel ids with
  | nil =>
      obtain ⟨fuel, rfl⟩ := Nat.exists_eq_succ_of_ne_zero (Nat.ne_of_gt enough)
      unfold parseFrom
      rw [if_neg (by simp [encode])]
      exact congrArg Except.ok (List.append_nil ids).symm
  | cons field rest ih =>
      obtain ⟨first, later⟩ := List.forall_mem_cons.mp small
      obtain ⟨fuel, rfl⟩ := Nat.exists_eq_succ_of_ne_zero (Nat.ne_of_gt (Nat.zero_lt_of_lt enough))
      have step := parseFrom_field first before (encode rest) fuel ids
      have others := ih later (before ++ field.encode) fuel (Nat.lt_of_succ_lt_succ enough)
        (ids ++ field.blobId)
      rw [List.append_assoc, List.length_append] at others
      rw [encode, List.flatMap_cons]
      refine step.trans (others.trans ?_)
      rw [blobIds, blobIds, List.flatMap_cons, List.append_assoc]

theorem length_le_encode (message : List Field) : message.length ≤ (encode message).length := by
  induction message with
  | nil => exact Nat.le_refl _
  | cons field rest ih =>
      have positive : 0 < field.encode.length := by
        unfold Field.encode
        split <;> rw [List.length_append]
        · exact Nat.add_pos_left (Varint.length_encode_pos _) _
        · exact Nat.add_pos_left (Varint.length_encode_pos _) _
      have whole : (encode (field :: rest)).length = field.encode.length + (encode rest).length := by
        rw [encode, List.flatMap_cons, List.length_append]
        rfl
      rw [List.length_cons]
      omega

theorem parseRootBlobIds_encode {message : List Field}
    (small : ∀ field ∈ message, field.number < 16) :
    parseRootBlobIds (encode message) = .ok (blobIds message) :=
  parseFrom_encode small [] _ (Nat.lt_succ_of_le (length_le_encode message)) []

/-! ## Tags of more bytes -/

/-- A blob of zeros. -/
def zeroBlob : Field where
  number := 1
  valid := by decide
  value := .bytes (List.replicate 32 0) (by decide)

theorem zeroBlob_encode : zeroBlob.encode = 10 :: 32 :: List.replicate 32 0 := by
  simp only [zeroBlob, Field.encode, List.length_replicate]
  rw [Varint.encode_of_lt (by decide), Varint.encode_of_lt (by decide)]
  rfl

/-- A payload that names the blob of zeros when it is read as a message from some byte on. -/
def hidingPayload (front back : Nat) : List UInt8 :=
  List.replicate front 0 ++ (zeroBlob.encode ++ List.replicate back 5)

theorem length_hidingPayload (front back : Nat) :
    (hidingPayload front back).length = front + (34 + back) := by
  simp [hidingPayload, zeroBlob_encode]
  omega

/-- A byte of another wire type ends the reading, and so does the end. -/
theorem parseFrom_replicate (before : List UInt8) (back fuel : Nat) (ids : List String) :
    parseFrom (before ++ List.replicate back 5) (fuel + 1) before.length ids = .ok ids := by
  unfold parseFrom
  cases back with
  | zero => exact if_neg (by simp)
  | succ back =>
      rw [if_pos (by simp), List.replicate_succ, byteAt_append]
      rfl

theorem parseFrom_hidden (before : List UInt8) (back fuel : Nat) (ids : List String) :
    parseFrom (before ++ (zeroBlob.encode ++ List.replicate back 5)) (fuel + 2) before.length ids =
      .ok (ids ++ [hexEncode (List.replicate 32 0)]) := by
  rw [parseFrom_field (by decide), ← List.append_assoc, ← List.length_append, parseFrom_replicate]
  rfl

/-- A payload can be so long that the bytes skipped for it end where it names the blob. -/
theorem exists_hidingPayload {skipped : Nat} (positive : 0 < skipped) (valid : skipped < 2 ^ 25) :
    ∃ front back, (Varint.encode (hidingPayload front back).length).length + front = skipped ∧
      (hidingPayload front back).length < 2 ^ 64 := by
  by_cases small : skipped < 90
  · refine ⟨skipped - 1, 0, ?_⟩
    rw [length_hidingPayload, Varint.encode_of_lt (by omega), List.length_singleton]
    omega
  · have large : (Varint.encode (2 ^ 28)).length = 5 := by
      rw [Varint.encode_of_le (by decide), Varint.encode_of_le (by decide),
        Varint.encode_of_le (by decide), Varint.encode_of_le (by decide),
        Varint.encode_of_lt (by decide)]
      rfl
    refine ⟨skipped - 5, 2 ^ 28 - 34 - (skipped - 5), ?_⟩
    have whole : skipped - 5 + (34 + (2 ^ 28 - 34 - (skipped - 5))) = 2 ^ 28 := by omega
    rw [length_hidingPayload, whole, large]
    omega

/-- The first byte of a longer tag is read as a tag, and the others as the length. -/
theorem parse_longTag {number : Nat} (large : 16 ≤ number) (front back : Nat)
    (valid : number < 2 ^ 29)
    (skips : (Varint.encode (hidingPayload front back).length).length + front = number / 16) :
    parseRootBlobIds (Varint.encode (number * 8 + 2) ++
        (Varint.encode (hidingPayload front back).length ++ hidingPayload front back)) =
      .ok [hexEncode (List.replicate 32 0)] := by
  generalize isTag : UInt8.ofNat ((number * 8 + 2) % 128 + 128) = tag
  generalize isChunk : Varint.encode (hidingPayload front back).length ++ List.replicate front 0 =
    chunk
  have length_chunk : chunk.length = number / 16 := by
    rw [← isChunk, List.length_append, List.length_replicate, skips]
  have tag_toNat : tag.toNat = (number * 8 + 2) % 128 + 128 := by
    rw [← isTag]
    exact Varint.toNat_ofNat_of_lt (by omega)
  have wire : tag &&& 0x07 = 2 := by
    have two : (2 : UInt8).toNat = 2 := rfl
    rw [← UInt8.toNat_inj, wire_toNat, tag_toNat, two]
    omega
  have isField : ¬ (tag >>> 3 = 1 ∧ chunk.length = 32) := by
    have one : (1 : UInt8).toNat = 1 := rfl
    rw [← UInt8.toNat_inj, field_toNat, tag_toNat, one]
    omega
  have isBytes : Varint.encode (number * 8 + 2) ++
      (Varint.encode (hidingPayload front back).length ++ hidingPayload front back) =
      [] ++ tag :: (Varint.encode chunk.length ++
        (chunk ++ (zeroBlob.encode ++ List.replicate back 5))) := by
    have rest : (number * 8 + 2) / 128 = number / 16 := by omega
    rw [Varint.encode_of_le (by omega), rest, isTag, length_chunk, ← isChunk, List.append_assoc]
    rfl
  have fits : chunk.length < 2 ^ 64 := by omega
  have hidden := parseFrom_hidden (tag :: (Varint.encode chunk.length ++ chunk)) back
  generalize isHidden : zeroBlob.encode ++ List.replicate back 5 = tail at isBytes hidden
  have isIndex : (tag :: (Varint.encode chunk.length ++ chunk)).length =
      ([] : List UInt8).length + 1 + (Varint.encode chunk.length).length + chunk.length := by
    simp
    omega
  have together : tag :: (Varint.encode chunk.length ++ chunk) ++ tail =
      [] ++ tag :: (Varint.encode chunk.length ++ (chunk ++ tail)) := by simp
  rw [together, isIndex] at hidden
  unfold parseRootBlobIds
  rw [isBytes]
  have enough : 2 ≤ ([] ++ tag :: (Varint.encode chunk.length ++ (chunk ++ tail))).length := by
    simp
    omega
  obtain ⟨fuel, isFuel⟩ := Nat.exists_eq_add_of_le' enough
  have step := parseFrom_bytes wire fits [] tail (fuel + 2) []
  rw [if_neg isField] at step
  rw [isFuel]
  exact step.trans (hidden fuel [])

/-- A field with a longer tag can hide the name of a blob, which is read although no field of the
message names it. -/
theorem exists_misread {number : Nat} (large : 16 ≤ number) (valid : number < 2 ^ 29) :
    ∃ field : Field, field.number = number ∧ blobIds [field] = [] ∧
      parseRootBlobIds (encode [field]) = .ok [hexEncode (List.replicate 32 0)] := by
  have positive : 0 < number / 16 := by omega
  obtain ⟨front, back, skips, fits⟩ := exists_hidingPayload positive (by omega)
  refine ⟨⟨number, ⟨by omega, valid⟩, .bytes (hidingPayload front back) fits⟩, rfl, ?_, ?_⟩
  · simp [blobIds, Field.blobId]
    omega
  · rw [encode, List.flatMap_singleton]
    exact parse_longTag large front back valid skips

/-! ## The root blob -/

/-- Every message whose field numbers are allowed is read right exactly when the tags of the
allowed fields have one byte; on any bytes the reader ends without a read outside of them. -/
theorem parse_root_blob_ids_iff (allowed : Nat → Prop) (bytes : List UInt8) :
    ((∀ message : List Field, (∀ field ∈ message, allowed field.number) →
        parseRootBlobIds (encode message) = .ok (blobIds message)) ↔
      ∀ number, 1 ≤ number → number < 2 ^ 29 → allowed number → number < 16) ∧
    ∃ ids, parseRootBlobIds bytes = .ok ids := by
  refine ⟨⟨fun right number _ valid isAllowed => ?_, fun small message are => ?_⟩,
    parseRootBlobIds_ok bytes⟩
  · by_contra large
    obtain ⟨field, rfl, unnamed, misread⟩ := exists_misread (Nat.not_lt.mp large) valid
    have read := right [field] (by simpa using isAllowed)
    rw [unnamed, misread] at read
    cases read
  · refine parseRootBlobIds_encode fun field member => ?_
    exact small field.number field.valid.1 field.valid.2 (are field member)

/-- The tag of field 16 has two bytes: the blob that is named after it is not found. -/
theorem blob_after_field_16 :
    let message : List Field := [⟨16, by decide, .varint 1⟩, zeroBlob]
    blobIds message = [hexEncode (List.replicate 32 0)] ∧
      parseRootBlobIds (encode message) = .ok [] := by
  have bytes : encode [⟨16, by decide, .varint 1⟩, zeroBlob] =
      128 :: 1 :: 1 :: 10 :: 32 :: List.replicate 32 0 := by
    rw [encode, List.flatMap_cons, List.flatMap_singleton, zeroBlob_encode, Field.encode]
    dsimp only
    rw [Varint.encode_of_le (by decide), Varint.encode_of_lt (by decide),
      Varint.encode_of_lt (by decide)]
    rfl
  refine ⟨rfl, ?_⟩
  rw [bytes]
  rfl

end RootBlob

end BrickTrace
