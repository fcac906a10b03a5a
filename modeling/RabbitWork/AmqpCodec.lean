import RabbitWork.AmqpFrame
import RabbitWork.BufferWires

/-!
# Basic encoders and decoders of librabbitmq

`amqp_private.h` declares, for each width, a function that writes a number at
an offset of a buffer and one that reads it, both with a check against the
length of the buffer.  They return a flag; their callers return a status when
it is 0.
-/

namespace RabbitWork

open Wire

/-- The statuses the codec returns.  The last four are none of the source:
`negativeOffset` is a length that is negative as an `int`, `aborted` is
`amqp_abort`, `undefinedBehaviour` an access outside the buffer or an undefined
operation of the language, and `outOfFuel` ends a recursion of this model. -/
inductive Status where
  | noMemory
  | badAmqpData
  | unknownClass
  | unknownMethod
  | invalidParameter
  | tableTooBig
  | negativeOffset
  | aborted
  | undefinedBehaviour
  | outOfFuel
  deriving DecidableEq, Repr

abbrev Encoder := BufferWriter UInt8 Status

abbrev Decoder (α : Type) := BufferScanner UInt8 Status α

/-- `if (!call) return status;` -/
def orReturn {α : Type} (status : Status) : Option α → Except Status α
  | some result => .ok result
  | none => .error status

/-- An encoder from the beginning of a buffer that ends in
`return (int)offset;`.  Its callers take a negative result for a status. -/
def returnOffset (encode : Encoder) (encoded : Bytes) :
    Except Status (Bytes × ℕ) := do
  let (encoded, offset) ← encode encoded 0
  let res := offset % 2 ^ 32
  if res < 2 ^ 31 then .ok (encoded, res) else .error .negativeOffset

/-- `amqp_encode_8`, `_16`, `_32` and `_64`, by the number of bytes. -/
def amqpEncode (width number : ℕ) (encoded : Bytes) (offset : ℕ) :
    Option (Bytes × ℕ) :=
  if offset + width ≤ encoded.length then
    some (splice encoded offset (bigEndian width number), offset + width)
  else
    none

def amqpEncode8 (input : UInt8) := amqpEncode 1 input.toNat

def amqpEncode16 (input : UInt16) := amqpEncode 2 input.toNat

def amqpEncode32 (input : UInt32) := amqpEncode 4 input.toNat

def amqpEncode64 (input : UInt64) := amqpEncode 8 input.toNat

/-- Nothing is checked for empty input. -/
def amqpEncodeBytes (input : Bytes) (encoded : Bytes) (offset : ℕ) :
    Option (Bytes × ℕ) :=
  if input.length = 0 then
    some (encoded, offset)
  else if offset + input.length ≤ encoded.length then
    some (splice encoded offset input, offset + input.length)
  else
    none

/-- `amqp_decode_8`, `_16`, `_32` and `_64`, by the number of bytes. -/
def amqpDecode (width : ℕ) (encoded : Bytes) (offset : ℕ) :
    Option (ℕ × ℕ) :=
  if offset + width ≤ encoded.length then
    some (ofBigEndian ((encoded.drop offset).take width), offset + width)
  else
    none

def amqpDecode8 (encoded : Bytes) (offset : ℕ) : Option (UInt8 × ℕ) :=
  (amqpDecode 1 encoded offset).map (Prod.map UInt8.ofNat id)

def amqpDecode16 (encoded : Bytes) (offset : ℕ) : Option (UInt16 × ℕ) :=
  (amqpDecode 2 encoded offset).map (Prod.map UInt16.ofNat id)

def amqpDecode32 (encoded : Bytes) (offset : ℕ) : Option (UInt32 × ℕ) :=
  (amqpDecode 4 encoded offset).map (Prod.map UInt32.ofNat id)

def amqpDecode64 (encoded : Bytes) (offset : ℕ) : Option (UInt64 × ℕ) :=
  (amqpDecode 8 encoded offset).map (Prod.map UInt64.ofNat id)

def amqpDecodeBytes (length : ℕ) (encoded : Bytes) (offset : ℕ) :
    Option (Bytes × ℕ) :=
  if offset + length ≤ encoded.length then
    some ((encoded.drop offset).take length, offset + length)
  else
    none

/-! ## What they write and read -/

section Returned

variable {encode : Encoder} {wire encoded : Bytes}

theorem returnOffset_ok_iff
    (hwrites : Writes encode wire) {written : Bytes} {size : ℕ} :
    returnOffset encode encoded = .ok (written, size) ↔
      (wire.length ≤ encoded.length ∧ wire.length % 2 ^ 32 < 2 ^ 31) ∧
        written = splice encoded 0 wire ∧ size = wire.length % 2 ^ 32 := by
  have hfits : Fits encoded 0 wire ↔ wire.length ≤ encoded.length := by
    rw [Fits, Nat.zero_add]
    constructor
    · rintro (hnil | hroom)
      · rw [hnil]
        exact Nat.zero_le _
      · exact hroom
    · exact Or.inr
  by_cases hroom : wire.length ≤ encoded.length
  · have hrun := (hwrites encoded 0).1 (hfits.mpr hroom)
    simp only [returnOffset, hrun, bind, Except.bind, Nat.zero_add]
    by_cases hint : wire.length % 2 ^ 32 < 2 ^ 31
    · rw [if_pos hint, Except.ok.injEq, Prod.mk.injEq]
      constructor
      · intro hsame
        exact ⟨⟨hroom, hint⟩, hsame.1.symm, hsame.2.symm⟩
      · intro hall
        exact ⟨hall.2.1.symm, hall.2.2.symm⟩
    · rw [if_neg hint]
      constructor
      · intro herror
        cases herror
      · intro hall
        exact (hint hall.1.2).elim
  · obtain ⟨status, hstatus⟩ :=
      (hwrites encoded 0).2 fun hfit => hroom (hfits.mp hfit)
    simp only [returnOffset, hstatus, bind, Except.bind, reduceCtorEq, hroom,
      false_and]

theorem returnOffset_run
    (hwrites : Writes encode wire) (hint : wire.length < 2 ^ 31)
    (hroom : wire.length ≤ encoded.length) :
    returnOffset encode encoded =
      .ok (splice encoded 0 wire, wire.length) := by
  have hsize : wire.length % 2 ^ 32 = wire.length :=
    Nat.mod_eq_of_lt (by omega)
  rw [returnOffset_ok_iff hwrites, hsize]
  exact ⟨⟨hroom, hint⟩, rfl, rfl⟩

theorem returnOffset_negative
    (hwrites : Writes encode wire) (hroom : wire.length ≤ encoded.length)
    (hint : ¬ wire.length % 2 ^ 32 < 2 ^ 31) :
    returnOffset encode encoded = .error .negativeOffset := by
  have hfits : Fits encoded 0 wire := by
    right
    rw [Nat.zero_add]
    exact hroom
  have hrun := (hwrites encoded 0).1 hfits
  simp only [returnOffset, hrun, bind, Except.bind, Nat.zero_add]
  exact if_neg hint

theorem returnOffset_refuses
    (hrefuses : ∃ status, encode encoded 0 = .error status) :
    ∃ status, returnOffset encode encoded = .error status := by
  obtain ⟨status, hstatus⟩ := hrefuses
  exact ⟨status, by simp only [returnOffset, hstatus, bind, Except.bind]⟩

theorem error_of_not_ok
    {α : Type} {result : Except Status α}
    (hnot : ∀ value, result ≠ .ok value) : ∃ status, result = .error status := by
  cases result with
  | error status => exact ⟨status, rfl⟩
  | ok value => exact (hnot value rfl).elim

end Returned

section Rules

variable (status : Status)

theorem writes_amqpEncode {width : ℕ} (hwidth : 0 < width) (number : ℕ) :
    Writes
      (fun encoded offset =>
        orReturn status (amqpEncode width number encoded offset))
      (bigEndian width number) := by
  intro encoded offset
  have hnonempty : bigEndian width number ≠ [] := by
    intro hnil
    have hlength := bigEndian_length width number
    rw [hnil, List.length_nil] at hlength
    omega
  simp only [Fits, hnonempty, false_or, bigEndian_length]
  constructor
  · intro hroom
    simp [amqpEncode, hroom, orReturn]
  · intro hfull
    simp [amqpEncode, hfull, orReturn]

theorem writes_amqpEncodeBytes (input : Bytes) :
    Writes
      (fun encoded offset =>
        orReturn status (amqpEncodeBytes input encoded offset))
      input := by
  intro encoded offset
  by_cases hempty : input = []
  · subst hempty
    simp [Fits, amqpEncodeBytes, orReturn, splice_nil]
  · have hlength : input.length ≠ 0 := by simpa using hempty
    simp only [Fits, hempty, false_or]
    constructor
    · intro hroom
      simp [amqpEncodeBytes, hempty, hroom, orReturn]
    · intro hfull
      simp [amqpEncodeBytes, hempty, hfull, orReturn]

theorem amqpDecode_of_holds
    {width number : ℕ} {encoded : Bytes} {offset : ℕ}
    (hnumber : number < 256 ^ width)
    (hholds : Holds encoded offset (bigEndian width number)) :
    amqpDecode width encoded offset = some (number, offset + width) := by
  obtain ⟨hroom, hbytes⟩ := hholds
  rw [bigEndian_length] at hroom hbytes
  rw [amqpDecode, if_pos hroom, hbytes, ofBigEndian_bigEndian,
    Nat.mod_eq_of_lt hnumber]

theorem scans_amqpDecode8 (value : UInt8) :
    Scans
      (fun encoded offset => orReturn status (amqpDecode8 encoded offset))
      (bigEndian 1 value.toNat) value := by
  intro encoded offset hholds
  simp [amqpDecode8, amqpDecode_of_holds value.toNat_lt hholds, orReturn]

theorem scans_amqpDecode16 (value : UInt16) :
    Scans
      (fun encoded offset => orReturn status (amqpDecode16 encoded offset))
      (bigEndian 2 value.toNat) value := by
  intro encoded offset hholds
  simp [amqpDecode16, amqpDecode_of_holds value.toNat_lt hholds, orReturn]

theorem scans_amqpDecode32 (value : UInt32) :
    Scans
      (fun encoded offset => orReturn status (amqpDecode32 encoded offset))
      (bigEndian 4 value.toNat) value := by
  intro encoded offset hholds
  simp [amqpDecode32, amqpDecode_of_holds value.toNat_lt hholds, orReturn]

theorem scans_amqpDecode64 (value : UInt64) :
    Scans
      (fun encoded offset => orReturn status (amqpDecode64 encoded offset))
      (bigEndian 8 value.toNat) value := by
  intro encoded offset hholds
  simp [amqpDecode64, amqpDecode_of_holds value.toNat_lt hholds, orReturn]

theorem scans_amqpDecodeBytes (bytes : Bytes) :
    Scans
      (fun encoded offset =>
        orReturn status (amqpDecodeBytes bytes.length encoded offset))
      bytes bytes := by
  intro encoded offset hholds
  obtain ⟨hroom, hbytes⟩ := hholds
  simp [amqpDecodeBytes, hroom, hbytes, orReturn]

section Reads

variable {encoded : Bytes} {room : ℕ}

theorem reads_orReturn
    {α : Type} {decode : Bytes → ℕ → Option (α × ℕ)}
    {relation : α → ℕ → Prop}
    (hdecode : ∀ offset value next, decode encoded offset = some (value, next) →
      ∃ count, next = offset + count ∧ next ≤ encoded.length ∧
        relation value count) :
    Reads encoded room status
      (fun encoded offset => orReturn status (decode encoded offset))
      relation := by
  intro offset _ _
  cases hresult : decode encoded offset with
  | none =>
      left
      simp only [hresult, orReturn]
  | some result =>
      right
      obtain ⟨value, next⟩ := result
      obtain ⟨count, hnext, hlength, hrelation⟩ :=
        hdecode offset value next hresult
      refine ⟨value, count, ?_, ?_, hrelation⟩
      · simp only [hresult, orReturn, hnext]
      · rw [← hnext]
        exact hlength

theorem amqpDecode_next
    {width offset : ℕ} {result : ℕ × ℕ}
    (hdecode : amqpDecode width encoded offset = some result) :
    result.2 = offset + width ∧ result.2 ≤ encoded.length := by
  unfold amqpDecode at hdecode
  split at hdecode
  · rename_i hroom
    simp only [Option.some.injEq] at hdecode
    subst hdecode
    exact ⟨rfl, hroom⟩
  · cases hdecode

theorem reads_amqpDecode
    {α : Type} (width : ℕ) (ofNat : ℕ → α) :
    Reads encoded room status
      (fun encoded offset => orReturn status
        ((amqpDecode width encoded offset).map (Prod.map ofNat id)))
      (fun _ count => count = width) := by
  apply reads_orReturn
  intro offset value next hdecode
  rw [Option.map_eq_some_iff] at hdecode
  rcases hdecode with ⟨result, hresult, hpair⟩
  obtain ⟨hnext, hlength⟩ := amqpDecode_next hresult
  have hsecond : next = result.2 := (congrArg Prod.snd hpair).symm
  rw [hsecond]
  exact ⟨width, hnext, hlength, rfl⟩

theorem reads_amqpDecode8 :
    Reads encoded room status
      (fun encoded offset => orReturn status (amqpDecode8 encoded offset))
      (fun _ count => count = 1) :=
  reads_amqpDecode status 1 UInt8.ofNat

theorem reads_amqpDecode16 :
    Reads encoded room status
      (fun encoded offset => orReturn status (amqpDecode16 encoded offset))
      (fun _ count => count = 2) :=
  reads_amqpDecode status 2 UInt16.ofNat

theorem reads_amqpDecode32 :
    Reads encoded room status
      (fun encoded offset => orReturn status (amqpDecode32 encoded offset))
      (fun _ count => count = 4) :=
  reads_amqpDecode status 4 UInt32.ofNat

theorem reads_amqpDecode64 :
    Reads encoded room status
      (fun encoded offset => orReturn status (amqpDecode64 encoded offset))
      (fun _ count => count = 8) :=
  reads_amqpDecode status 8 UInt64.ofNat

theorem reads_amqpDecodeBytes (length : ℕ) :
    Reads encoded room status
      (fun encoded offset =>
        orReturn status (amqpDecodeBytes length encoded offset))
      (fun bytes count => bytes.length = length ∧ count = length) := by
  apply reads_orReturn
  intro offset bytes next hdecode
  unfold amqpDecodeBytes at hdecode
  split at hdecode
  · rename_i hroom
    simp only [Option.some.injEq, Prod.mk.injEq] at hdecode
    rw [← hdecode.1, ← hdecode.2]
    refine ⟨length, rfl, hroom, ?_, rfl⟩
    simp only [List.length_take, List.length_drop]
    omega
  · cases hdecode

end Reads

end Rules

end RabbitWork
