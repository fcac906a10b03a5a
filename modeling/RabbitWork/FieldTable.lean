import RabbitWork.AmqpCodec

/-!
# Field tables

`amqp_table.c` writes a table as its size in bytes and its entries, each a
key, the kind of the value and the value; arrays and tables can be values
again.  The size is filled in after the entries have been written.

The decoder does not compare the end of an entry with the size it has read: an
entry that starts before the limit is read to its own end.

`wire` is the serialised form of a value by itself, without a buffer.  Memory
allocation is taken to succeed.
-/

namespace RabbitWork

open Wire

/-- `AMQP_FIELD_KIND_*`. -/
inductive FieldKind where
  | boolean
  | i8
  | u8
  | i16
  | u16
  | i32
  | u32
  | i64
  | u64
  | f32
  | f64
  | decimal
  | utf8
  | bytes
  | array
  | timestamp
  | table
  | void
  deriving DecidableEq, Repr

def FieldKind.code : FieldKind → UInt8
  | .boolean => 't'.toUInt8
  | .i8 => 'b'.toUInt8
  | .u8 => 'B'.toUInt8
  | .i16 => 's'.toUInt8
  | .u16 => 'u'.toUInt8
  | .i32 => 'I'.toUInt8
  | .u32 => 'i'.toUInt8
  | .i64 => 'l'.toUInt8
  | .u64 => 'L'.toUInt8
  | .f32 => 'f'.toUInt8
  | .f64 => 'd'.toUInt8
  | .decimal => 'D'.toUInt8
  | .utf8 => 'S'.toUInt8
  | .bytes => 'x'.toUInt8
  | .array => 'A'.toUInt8
  | .timestamp => 'T'.toUInt8
  | .table => 'F'.toUInt8
  | .void => 'V'.toUInt8

def FieldKind.all : List FieldKind :=
  [.boolean, .i8, .u8, .i16, .u16, .i32, .u32, .i64, .u64, .f32, .f64,
    .decimal, .utf8, .bytes, .array, .timestamp, .table, .void]

def FieldKind.ofCode (code : UInt8) : Option FieldKind :=
  FieldKind.all.find? fun kind => kind.code = code

@[simp] theorem FieldKind.ofCode_code (kind : FieldKind) :
    FieldKind.ofCode kind.code = some kind := by
  cases kind <;> rfl

/-- `amqp_field_value_t` with a kind the library knows.  Floating point values
are their bits, which is how they are read and written. -/
inductive FieldValue where
  | boolean (boolean : Bool)
  | i8 (i8 : Int8)
  | u8 (u8 : UInt8)
  | i16 (i16 : Int16)
  | u16 (u16 : UInt16)
  | i32 (i32 : Int32)
  | u32 (u32 : UInt32)
  | i64 (i64 : Int64)
  | u64 (u64 : UInt64)
  | f32 (bits : UInt32)
  | f64 (bits : UInt64)
  | decimal (decimals : UInt8) (value : UInt32)
  | utf8 (bytes : Bytes)
  | bytes (bytes : Bytes)
  | array (entries : List FieldValue)
  | timestamp (u64 : UInt64)
  | table (entries : List (Bytes × FieldValue))
  | void

/-! ## Encoding -/

/-- The body of `amqp_encode_array` and of `amqp_encode_table`: four bytes are
left free for the size of the entries. -/
def encodeSized (entries : Encoder) : Encoder :=
  fun encoded start => do
    let (encoded, offset) ← entries encoded (start + 4)
    let (encoded, _) ← orReturn .tableTooBig
      (amqpEncode32 (UInt32.ofNat (offset - start - 4)) encoded start)
    .ok (encoded, offset)

/-- The macro `FIELD_ENCODER`. -/
def fieldEncoder (encode : Bytes → ℕ → Option (Bytes × ℕ)) :
    Encoder :=
  fun encoded offset => orReturn .tableTooBig (encode encoded offset)

/-- `amqp_encode_32` of a length and `amqp_encode_bytes`. -/
def encodeLongBytes (bytes : Bytes) : Encoder :=
  fun encoded offset => do
    let (encoded, offset) ←
      fieldEncoder (amqpEncode32 (UInt32.ofNat bytes.length)) encoded offset
    fieldEncoder (amqpEncodeBytes bytes) encoded offset

/-- The kind, which every value starts with. -/
def encodeKind (kind : FieldKind) (value : Encoder) :
    Encoder :=
  fun encoded offset => do
    let (encoded, offset) ← orReturn .badAmqpData
      (amqpEncode8 kind.code encoded offset)
    value encoded offset

mutual

def amqpEncodeFieldValue : FieldValue → Encoder
  | .boolean boolean =>
      encodeKind .boolean (fieldEncoder (amqpEncode8 (if boolean then 1 else 0)))
  | .i8 i8 => encodeKind .i8 (fieldEncoder (amqpEncode8 i8.toUInt8))
  | .u8 u8 => encodeKind .u8 (fieldEncoder (amqpEncode8 u8))
  | .i16 i16 => encodeKind .i16 (fieldEncoder (amqpEncode16 i16.toUInt16))
  | .u16 u16 => encodeKind .u16 (fieldEncoder (amqpEncode16 u16))
  | .i32 i32 => encodeKind .i32 (fieldEncoder (amqpEncode32 i32.toUInt32))
  | .u32 u32 => encodeKind .u32 (fieldEncoder (amqpEncode32 u32))
  | .i64 i64 => encodeKind .i64 (fieldEncoder (amqpEncode64 i64.toUInt64))
  | .u64 u64 => encodeKind .u64 (fieldEncoder (amqpEncode64 u64))
  | .f32 bits => encodeKind .f32 (fieldEncoder (amqpEncode32 bits))
  | .f64 bits => encodeKind .f64 (fieldEncoder (amqpEncode64 bits))
  | .decimal decimals value =>
      encodeKind .decimal fun encoded offset => do
        let (encoded, offset) ←
          fieldEncoder (amqpEncode8 decimals) encoded offset
        fieldEncoder (amqpEncode32 value) encoded offset
  | .utf8 bytes => encodeKind .utf8 (encodeLongBytes bytes)
  | .bytes bytes => encodeKind .bytes (encodeLongBytes bytes)
  | .array entries =>
      encodeKind .array (encodeSized (encodeArrayEntries entries))
  | .timestamp u64 => encodeKind .timestamp (fieldEncoder (amqpEncode64 u64))
  | .table entries =>
      encodeKind .table (encodeSized (encodeTableEntries entries))
  | .void => encodeKind .void fun encoded offset => .ok (encoded, offset)

def encodeArrayEntries : List FieldValue → Encoder
  | [] => fun encoded offset => .ok (encoded, offset)
  | entry :: entries => fun encoded offset => do
    let (encoded, offset) ← amqpEncodeFieldValue entry encoded offset
    encodeArrayEntries entries encoded offset

/-- The length of a key is written as one byte, whatever it is. -/
def encodeTableEntries : List (Bytes × FieldValue) → Encoder
  | [] => fun encoded offset => .ok (encoded, offset)
  | (key, value) :: entries => fun encoded offset => do
    let (encoded, offset) ← orReturn .tableTooBig
      (amqpEncode8 (UInt8.ofNat key.length) encoded offset)
    let (encoded, offset) ← orReturn .tableTooBig
      (amqpEncodeBytes key encoded offset)
    let (encoded, offset) ← amqpEncodeFieldValue value encoded offset
    encodeTableEntries entries encoded offset

end

def amqpEncodeArray (input : List FieldValue) : Encoder :=
  encodeSized (encodeArrayEntries input)

def amqpEncodeTable (input : List (Bytes × FieldValue)) :
    Encoder :=
  encodeSized (encodeTableEntries input)

/-! ## Decoding -/

/-- The body of `amqp_decode_array` and of `amqp_decode_table`: the entries
are read up to a limit. -/
def decodeSized {α : Type} (entries : ℕ → Decoder α) :
    Decoder α :=
  fun encoded offset => do
    let (size, offset) ← orReturn .badAmqpData (amqpDecode32 encoded offset)
    entries (offset + size.toNat) encoded offset

/-- `amqp_decode_32` of a length and `amqp_decode_bytes`. -/
def decodeLongBytes : Decoder Bytes :=
  fun encoded offset => do
    let (length, offset) ← orReturn .badAmqpData (amqpDecode32 encoded offset)
    orReturn .badAmqpData (amqpDecodeBytes length.toNat encoded offset)

/-- The macros `SIMPLE_FIELD_DECODER` and `TRIVIAL_FIELD_DECODER`. -/
def fieldDecoder {α β : Type} (store : α → β) (result : Option (α × ℕ)) :
    Except Status (β × ℕ) := do
  let (value, offset) ← orReturn .badAmqpData result
  .ok (store value, offset)

/-- The switch of `amqp_decode_field_value`, with the loops of
`amqp_decode_array` and `amqp_decode_table` as parameters. -/
def decodeMember
    (arrayEntries : ℕ → Decoder (List FieldValue))
    (tableEntries : ℕ → Decoder (List (Bytes × FieldValue)))
    (kind : Option FieldKind) : Decoder FieldValue :=
  fun encoded offset =>
    match kind with
    | some .boolean =>
        fieldDecoder (fun val => .boolean (val ≠ 0))
          (amqpDecode8 encoded offset)
    | some .i8 =>
        fieldDecoder (fun val => .i8 val.toInt8) (amqpDecode8 encoded offset)
    | some .u8 => fieldDecoder .u8 (amqpDecode8 encoded offset)
    | some .i16 =>
        fieldDecoder (fun val => .i16 val.toInt16)
          (amqpDecode16 encoded offset)
    | some .u16 => fieldDecoder .u16 (amqpDecode16 encoded offset)
    | some .i32 =>
        fieldDecoder (fun val => .i32 val.toInt32)
          (amqpDecode32 encoded offset)
    | some .u32 => fieldDecoder .u32 (amqpDecode32 encoded offset)
    | some .i64 =>
        fieldDecoder (fun val => .i64 val.toInt64)
          (amqpDecode64 encoded offset)
    | some .u64 => fieldDecoder .u64 (amqpDecode64 encoded offset)
    | some .f32 => fieldDecoder .f32 (amqpDecode32 encoded offset)
    | some .f64 => fieldDecoder .f64 (amqpDecode64 encoded offset)
    | some .decimal => do
        let (decimals, offset) ← orReturn .badAmqpData
          (amqpDecode8 encoded offset)
        fieldDecoder (.decimal decimals) (amqpDecode32 encoded offset)
    | some .utf8 => do
        let (bytes, offset) ← decodeLongBytes encoded offset
        .ok (.utf8 bytes, offset)
    | some .bytes => do
        let (bytes, offset) ← decodeLongBytes encoded offset
        .ok (.bytes bytes, offset)
    | some .array => do
        let (entries, offset) ← decodeSized arrayEntries encoded offset
        .ok (.array entries, offset)
    | some .timestamp => fieldDecoder .timestamp (amqpDecode64 encoded offset)
    | some .table => do
        let (entries, offset) ← decodeSized tableEntries encoded offset
        .ok (.table entries, offset)
    | some .void => .ok (.void, offset)
    | none => .error .badAmqpData

mutual

def amqpDecodeFieldValue : ℕ → Decoder FieldValue
  | 0 => fun _ _ => .error .outOfFuel
  | fuel + 1 => fun encoded offset => do
    let (code, offset) ← orReturn .badAmqpData (amqpDecode8 encoded offset)
    decodeMember (decodeArrayEntries fuel) (decodeTableEntries fuel)
      (FieldKind.ofCode code) encoded offset

def decodeArrayEntries :
    ℕ → ℕ → Decoder (List FieldValue)
  | 0 => fun _ _ _ => .error .outOfFuel
  | fuel + 1 => fun limit encoded offset =>
    if offset < limit then do
      let (entry, offset) ← amqpDecodeFieldValue fuel encoded offset
      let (entries, offset) ← decodeArrayEntries fuel limit encoded offset
      .ok (entry :: entries, offset)
    else
      .ok ([], offset)

def decodeTableEntries :
    ℕ → ℕ → Decoder (List (Bytes × FieldValue))
  | 0 => fun _ _ _ => .error .outOfFuel
  | fuel + 1 => fun limit encoded offset =>
    if offset < limit then do
      let (keylen, offset) ← orReturn .badAmqpData (amqpDecode8 encoded offset)
      let (key, offset) ← orReturn .badAmqpData
        (amqpDecodeBytes keylen.toNat encoded offset)
      let (value, offset) ← amqpDecodeFieldValue fuel encoded offset
      let (entries, offset) ← decodeTableEntries fuel limit encoded offset
      .ok ((key, value) :: entries, offset)
    else
      .ok ([], offset)

end

/-- Every entry takes a byte at least, so this much fuel is never used up. -/
def amqpDecodeTable : Decoder (List (Bytes × FieldValue)) :=
  fun encoded offset =>
    decodeSized (decodeTableEntries (encoded.length + 2)) encoded offset

/-! ## The serialised form -/

def kindWire (kind : FieldKind) : Bytes :=
  bigEndian 1 kind.code.toNat

def longBytesWire (bytes : Bytes) : Bytes :=
  bigEndian 4 bytes.length ++ bytes

def sizedWire (entries : Bytes) : Bytes :=
  bigEndian 4 entries.length ++ entries

mutual

def FieldValue.wire : FieldValue → Bytes
  | .boolean boolean =>
      kindWire .boolean ++ bigEndian 1 (if boolean then 1 else 0)
  | .i8 i8 => kindWire .i8 ++ bigEndian 1 i8.toUInt8.toNat
  | .u8 u8 => kindWire .u8 ++ bigEndian 1 u8.toNat
  | .i16 i16 => kindWire .i16 ++ bigEndian 2 i16.toUInt16.toNat
  | .u16 u16 => kindWire .u16 ++ bigEndian 2 u16.toNat
  | .i32 i32 => kindWire .i32 ++ bigEndian 4 i32.toUInt32.toNat
  | .u32 u32 => kindWire .u32 ++ bigEndian 4 u32.toNat
  | .i64 i64 => kindWire .i64 ++ bigEndian 8 i64.toUInt64.toNat
  | .u64 u64 => kindWire .u64 ++ bigEndian 8 u64.toNat
  | .f32 bits => kindWire .f32 ++ bigEndian 4 bits.toNat
  | .f64 bits => kindWire .f64 ++ bigEndian 8 bits.toNat
  | .decimal decimals value =>
      kindWire .decimal ++
        (bigEndian 1 decimals.toNat ++ bigEndian 4 value.toNat)
  | .utf8 bytes => kindWire .utf8 ++ longBytesWire bytes
  | .bytes bytes => kindWire .bytes ++ longBytesWire bytes
  | .array entries => kindWire .array ++ sizedWire (arrayWire entries)
  | .timestamp u64 => kindWire .timestamp ++ bigEndian 8 u64.toNat
  | .table entries => kindWire .table ++ sizedWire (tableWire entries)
  | .void => kindWire .void ++ []

def arrayWire : List FieldValue → Bytes
  | [] => []
  | entry :: entries => entry.wire ++ arrayWire entries

def tableWire : List (Bytes × FieldValue) → Bytes
  | [] => []
  | (key, value) :: entries =>
      bigEndian 1 key.length ++ (key ++ (value.wire ++ tableWire entries))

end

mutual

/-- The lengths inside the value fit into the bytes that are there for
them. -/
def FieldValue.fits : FieldValue → Bool
  | .utf8 bytes => bytes.length < 256 ^ 4
  | .bytes bytes => bytes.length < 256 ^ 4
  | .array entries =>
      (arrayWire entries).length < 256 ^ 4 && arrayFits entries
  | .table entries =>
      (tableWire entries).length < 256 ^ 4 && tableFits entries
  | _ => true

def arrayFits : List FieldValue → Bool
  | [] => true
  | entry :: entries => entry.fits && arrayFits entries

def tableFits : List (Bytes × FieldValue) → Bool
  | [] => true
  | (key, value) :: entries =>
      key.length < 256 && value.fits && tableFits entries

end

end RabbitWork
