import RabbitWork.FieldTable

/-!
# Tables survive the wire

The encoder writes the serialised form of a table and nothing else, exactly
where there is room for it; the decoder reads that form back.  Conversely what
the decoder accepts is a table whose serialised form has the length of what
has been read.
-/

namespace RabbitWork

open Wire

/-- A table whose lengths fit into the bytes that are there for them. -/
structure AmqpTable where
  entries : List (Bytes × FieldValue)
  size_fits : (tableWire entries).length < 256 ^ 4
  entries_fit : tableFits entries = true

def AmqpTable.wire (table : AmqpTable) : Bytes :=
  sizedWire (tableWire table.entries)

/-! ## What the encoder writes -/

theorem writes_field8 (value : UInt8) :
    Writes (fieldEncoder (amqpEncode8 value)) (bigEndian 1 value.toNat) :=
  writes_amqpEncode .tableTooBig (by decide) value.toNat

theorem writes_field16 (value : UInt16) :
    Writes (fieldEncoder (amqpEncode16 value)) (bigEndian 2 value.toNat) :=
  writes_amqpEncode .tableTooBig (by decide) value.toNat

theorem writes_field32 (value : UInt32) :
    Writes (fieldEncoder (amqpEncode32 value)) (bigEndian 4 value.toNat) :=
  writes_amqpEncode .tableTooBig (by decide) value.toNat

theorem writes_field64 (value : UInt64) :
    Writes (fieldEncoder (amqpEncode64 value)) (bigEndian 8 value.toNat) :=
  writes_amqpEncode .tableTooBig (by decide) value.toNat

theorem writes_kind
    (kind : FieldKind) {value : Encoder} {items : Bytes}
    (hvalue : Writes value items) :
    Writes (encodeKind kind value) (kindWire kind ++ items) :=
  (writes_amqpEncode .badAmqpData (by decide) kind.code.toNat).andThen hvalue

theorem bigEndian_ofNat8 (length : ℕ) :
    bigEndian 1 (UInt8.ofNat length).toNat = bigEndian 1 length := by
  rw [UInt8.toNat_ofNat']
  exact bigEndian_mod 1 length

theorem bigEndian_ofNat32 (length : ℕ) :
    bigEndian 4 (UInt32.ofNat length).toNat = bigEndian 4 length := by
  rw [UInt32.toNat_ofNat']
  exact bigEndian_mod 4 length

theorem writes_longBytes (bytes : Bytes) :
    Writes (encodeLongBytes bytes) (longBytesWire bytes) := by
  have hlength := writes_field32 (UInt32.ofNat bytes.length)
  rw [bigEndian_ofNat32] at hlength
  exact hlength.andThen (writes_amqpEncodeBytes .tableTooBig bytes)

theorem encodeSized_eq_backpatch (entries : Encoder) :
    encodeSized entries =
      backpatch 4 (bigEndian 4) .tableTooBig entries := by
  funext encoded start
  unfold encodeSized backpatch
  cases entries encoded (start + 4) with
  | error status => rfl
  | ok result =>
      by_cases hroom : start + 4 ≤ result.1.length
      · simp only [bind, Except.bind, amqpEncode32, amqpEncode, if_pos hroom,
          orReturn, bigEndian_ofNat32]
      · simp only [bind, Except.bind, amqpEncode32, amqpEncode, if_neg hroom,
          orReturn]

theorem writes_sized
    {entries : Encoder} {items : Bytes}
    (hentries : Writes entries items) :
    Writes (encodeSized entries) (sizedWire items) := by
  rw [encodeSized_eq_backpatch]
  exact Writes.backpatch (by decide) (bigEndian_length 4) hentries

mutual

theorem writes_fieldValue : ∀ entry : FieldValue,
    Writes (amqpEncodeFieldValue entry) entry.wire
  | .boolean true => writes_kind .boolean (writes_field8 1)
  | .boolean false => writes_kind .boolean (writes_field8 0)
  | .i8 i8 => writes_kind .i8 (writes_field8 i8.toUInt8)
  | .u8 u8 => writes_kind .u8 (writes_field8 u8)
  | .i16 i16 => writes_kind .i16 (writes_field16 i16.toUInt16)
  | .u16 u16 => writes_kind .u16 (writes_field16 u16)
  | .i32 i32 => writes_kind .i32 (writes_field32 i32.toUInt32)
  | .u32 u32 => writes_kind .u32 (writes_field32 u32)
  | .i64 i64 => writes_kind .i64 (writes_field64 i64.toUInt64)
  | .u64 u64 => writes_kind .u64 (writes_field64 u64)
  | .f32 bits => writes_kind .f32 (writes_field32 bits)
  | .f64 bits => writes_kind .f64 (writes_field64 bits)
  | .decimal decimals value =>
      writes_kind .decimal
        ((writes_field8 decimals).andThen (writes_field32 value))
  | .utf8 bytes => writes_kind .utf8 (writes_longBytes bytes)
  | .bytes bytes => writes_kind .bytes (writes_longBytes bytes)
  | .array entries =>
      writes_kind .array (writes_sized (writes_arrayEntries entries))
  | .timestamp u64 => writes_kind .timestamp (writes_field64 u64)
  | .table entries =>
      writes_kind .table (writes_sized (writes_tableEntries entries))
  | .void => writes_kind .void writes_nothing

theorem writes_arrayEntries : ∀ entries : List FieldValue,
    Writes (encodeArrayEntries entries) (arrayWire entries)
  | [] => writes_nothing
  | entry :: entries =>
      (writes_fieldValue entry).andThen (writes_arrayEntries entries)

theorem writes_tableEntries : ∀ entries : List (Bytes × FieldValue),
    Writes (encodeTableEntries entries) (tableWire entries)
  | [] => writes_nothing
  | (key, value) :: entries => by
      have hlength := writes_field8 (UInt8.ofNat key.length)
      rw [bigEndian_ofNat8] at hlength
      have hkey := writes_amqpEncodeBytes .tableTooBig key
      have hrest :=
        (writes_fieldValue value).andThen (writes_tableEntries entries)
      exact hlength.andThen (hkey.andThen hrest)

end

theorem AmqpTable.writes (table : AmqpTable) :
    Writes (amqpEncodeTable table.entries) table.wire :=
  writes_sized (writes_tableEntries table.entries)

/-! ## What the decoder reads -/

theorem scans_kind
    {fuel : ℕ} {kind : FieldKind} {items : Bytes} {value : FieldValue}
    (hvalue :
      Scans
        (decodeMember (decodeArrayEntries fuel) (decodeTableEntries fuel)
          (some kind))
        items value) :
    Scans (amqpDecodeFieldValue (fuel + 1)) (kindWire kind ++ items) value := by
  have hkind := scans_amqpDecode8 .badAmqpData kind.code
  apply hkind.andThen fun code =>
    decodeMember (decodeArrayEntries fuel) (decodeTableEntries fuel)
      (FieldKind.ofCode code)
  rw [FieldKind.ofCode_code]
  exact hvalue

theorem toNat_ofNat32 {length : ℕ} (hlength : length < 256 ^ 4) :
    (UInt32.ofNat length).toNat = length := by
  rw [UInt32.toNat_ofNat']
  exact Nat.mod_eq_of_lt hlength

theorem scans_length32 {length : ℕ} (hlength : length < 256 ^ 4) :
    Scans
      (fun encoded offset =>
        orReturn .badAmqpData (amqpDecode32 encoded offset))
      (bigEndian 4 length) (UInt32.ofNat length) := by
  have hscans := scans_amqpDecode32 .badAmqpData (UInt32.ofNat length)
  rw [toNat_ofNat32 hlength] at hscans
  exact hscans

theorem scans_longBytes
    {bytes : Bytes} (hlength : bytes.length < 256 ^ 4) :
    Scans decodeLongBytes (longBytesWire bytes) bytes := by
  apply (scans_length32 hlength).andThen fun length encoded offset =>
    orReturn .badAmqpData (amqpDecodeBytes length.toNat encoded offset)
  rw [toNat_ofNat32 hlength]
  exact scans_amqpDecodeBytes .badAmqpData bytes

/-- The loop of a sized decoder, started at entries that end at its limit. -/
def ScansTo {α : Type} (entries : ℕ → Decoder α) (items : Bytes) (value : α) :
    Prop :=
  ∀ encoded offset, Holds encoded offset items →
    entries (offset + items.length) encoded offset =
      .ok (value, offset + items.length)

theorem scans_sized
    {α : Type} {entries : ℕ → Decoder α} {items : Bytes} {value : α}
    (hlength : items.length < 256 ^ 4)
    (hentries : ScansTo entries items value) :
    Scans (decodeSized entries) (sizedWire items) value := by
  intro encoded offset hholds
  obtain ⟨hsize, hitems⟩ := holds_append.mp hholds
  have hscans := scans_length32 hlength encoded offset hsize
  rw [bigEndian_length] at hitems hscans
  have hrun := hentries encoded (offset + 4) hitems
  simp only [decodeSized, hscans, bind, Except.bind, toNat_ofNat32 hlength,
    hrun, sizedWire, List.length_append, bigEndian_length]
  rw [Nat.add_assoc]

/-- With enough fuel for its length, every value that fits is read back. -/
structure ReadsBack (fuel : ℕ) : Prop where
  fieldValue : ∀ entry : FieldValue,
    entry.fits = true → entry.wire.length < fuel →
      Scans (amqpDecodeFieldValue fuel) entry.wire entry
  arrayEntries : ∀ entries : List FieldValue,
    arrayFits entries = true → (arrayWire entries).length + 1 < fuel →
      ScansTo (decodeArrayEntries fuel) (arrayWire entries) entries
  tableEntries : ∀ entries : List (Bytes × FieldValue),
    tableFits entries = true → (tableWire entries).length + 1 < fuel →
      ScansTo (decodeTableEntries fuel) (tableWire entries) entries

theorem ReadsBack.fieldValue_succ
    {fuel : ℕ} (hfuel : ReadsBack fuel) (entry : FieldValue)
    (hfits : entry.fits = true) (hlength : entry.wire.length < fuel + 1) :
    Scans (amqpDecodeFieldValue (fuel + 1)) entry.wire entry := by
  cases entry with
  | boolean boolean =>
      cases boolean with
      | true =>
          exact scans_kind ((scans_amqpDecode8 _ 1).map
            fun val => FieldValue.boolean (val ≠ 0))
      | false =>
          exact scans_kind ((scans_amqpDecode8 _ 0).map
            fun val => FieldValue.boolean (val ≠ 0))
  | i8 i8 =>
      exact scans_kind ((scans_amqpDecode8 _ i8.toUInt8).map
        fun val => FieldValue.i8 val.toInt8)
  | u8 u8 => exact scans_kind ((scans_amqpDecode8 _ u8).map FieldValue.u8)
  | i16 i16 =>
      exact scans_kind ((scans_amqpDecode16 _ i16.toUInt16).map
        fun val => FieldValue.i16 val.toInt16)
  | u16 u16 => exact scans_kind ((scans_amqpDecode16 _ u16).map FieldValue.u16)
  | i32 i32 =>
      exact scans_kind ((scans_amqpDecode32 _ i32.toUInt32).map
        fun val => FieldValue.i32 val.toInt32)
  | u32 u32 => exact scans_kind ((scans_amqpDecode32 _ u32).map FieldValue.u32)
  | i64 i64 =>
      exact scans_kind ((scans_amqpDecode64 _ i64.toUInt64).map
        fun val => FieldValue.i64 val.toInt64)
  | u64 u64 => exact scans_kind ((scans_amqpDecode64 _ u64).map FieldValue.u64)
  | f32 bits => exact scans_kind ((scans_amqpDecode32 _ bits).map FieldValue.f32)
  | f64 bits => exact scans_kind ((scans_amqpDecode64 _ bits).map FieldValue.f64)
  | decimal decimals value =>
      apply scans_kind
      apply (scans_amqpDecode8 .badAmqpData decimals).andThen
        fun decimals encoded offset =>
          fieldDecoder (FieldValue.decimal decimals)
            (amqpDecode32 encoded offset)
      exact (scans_amqpDecode32 _ value).map (FieldValue.decimal decimals)
  | utf8 bytes =>
      simp only [FieldValue.fits, decide_eq_true_eq] at hfits
      exact scans_kind ((scans_longBytes hfits).map FieldValue.utf8)
  | bytes bytes =>
      simp only [FieldValue.fits, decide_eq_true_eq] at hfits
      exact scans_kind ((scans_longBytes hfits).map FieldValue.bytes)
  | array entries =>
      simp only [FieldValue.fits, Bool.and_eq_true, decide_eq_true_eq] at hfits
      simp only [FieldValue.wire, kindWire, sizedWire, List.length_append,
        bigEndian_length] at hlength
      have hentries := hfuel.arrayEntries entries hfits.2 (by omega)
      exact scans_kind ((scans_sized hfits.1 hentries).map FieldValue.array)
  | timestamp u64 =>
      exact scans_kind ((scans_amqpDecode64 _ u64).map FieldValue.timestamp)
  | table entries =>
      simp only [FieldValue.fits, Bool.and_eq_true, decide_eq_true_eq] at hfits
      simp only [FieldValue.wire, kindWire, sizedWire, List.length_append,
        bigEndian_length] at hlength
      have hentries := hfuel.tableEntries entries hfits.2 (by omega)
      exact scans_kind ((scans_sized hfits.1 hentries).map FieldValue.table)
  | void => exact scans_kind (scans_nothing FieldValue.void)

/-- A value takes a byte at least, for its kind. -/
theorem FieldValue.wire_length_pos (entry : FieldValue) :
    0 < entry.wire.length := by
  cases entry <;>
    simp only [FieldValue.wire, kindWire, List.length_append,
      bigEndian_length] <;>
    omega

theorem ReadsBack.arrayEntries_succ
    {fuel : ℕ} (hfuel : ReadsBack fuel) (entries : List FieldValue)
    (hfits : arrayFits entries = true)
    (hlength : (arrayWire entries).length + 1 < fuel + 1) :
    ScansTo (decodeArrayEntries (fuel + 1)) (arrayWire entries) entries := by
  intro encoded offset hholds
  cases entries with
  | nil => simp [decodeArrayEntries, arrayWire]
  | cons entry entries =>
      simp only [arrayFits, Bool.and_eq_true] at hfits
      rw [arrayWire, List.length_append] at hlength
      obtain ⟨hentry, hrest⟩ := holds_append.mp hholds
      have hpos := entry.wire_length_pos
      have hvalue :=
        hfuel.fieldValue entry hfits.1 (by omega) encoded offset hentry
      have hloop :=
        hfuel.arrayEntries entries hfits.2 (by omega) encoded
          (offset + entry.wire.length) hrest
      have hlimit : offset < offset + (arrayWire (entry :: entries)).length := by
        rw [arrayWire, List.length_append]
        omega
      have hend :
          offset + (arrayWire (entry :: entries)).length =
            offset + entry.wire.length + (arrayWire entries).length := by
        rw [arrayWire, List.length_append, Nat.add_assoc]
      simp only [decodeArrayEntries, if_pos hlimit, hvalue, bind, Except.bind]
      rw [hend, hloop]

theorem ReadsBack.tableEntries_succ
    {fuel : ℕ} (hfuel : ReadsBack fuel)
    (entries : List (Bytes × FieldValue))
    (hfits : tableFits entries = true)
    (hlength : (tableWire entries).length + 1 < fuel + 1) :
    ScansTo (decodeTableEntries (fuel + 1)) (tableWire entries) entries := by
  intro encoded offset hholds
  cases entries with
  | nil => simp [decodeTableEntries, tableWire]
  | cons pair entries =>
      obtain ⟨key, value⟩ := pair
      simp only [tableFits, Bool.and_eq_true, decide_eq_true_eq] at hfits
      obtain ⟨⟨hkeyLength, hvalueFits⟩, hentriesFit⟩ := hfits
      have hkeylen : (UInt8.ofNat key.length).toNat = key.length := by
        rw [UInt8.toNat_ofNat']
        exact Nat.mod_eq_of_lt hkeyLength
      have hlimit :
          offset < offset + (tableWire ((key, value) :: entries)).length := by
        simp only [tableWire, List.length_append, bigEndian_length]
        omega
      simp only [tableWire, List.length_append, bigEndian_length] at hlength
      obtain ⟨hsize, htail⟩ := holds_append.mp hholds
      obtain ⟨hkey, htail⟩ := holds_append.mp htail
      obtain ⟨hvalue, hrest⟩ := holds_append.mp htail
      rw [bigEndian_length] at hkey hvalue hrest
      rw [← hkeylen] at hsize
      have hpos := value.wire_length_pos
      have hsizeRun := scans_amqpDecode8 .badAmqpData _ encoded offset hsize
      have hkeyRun := scans_amqpDecodeBytes .badAmqpData _ encoded _ hkey
      have hvalueRun :=
        hfuel.fieldValue value hvalueFits (by omega) encoded _ hvalue
      have hloop :=
        hfuel.tableEntries entries hentriesFit (by omega) encoded _ hrest
      have hend :
          offset + (tableWire ((key, value) :: entries)).length =
            offset + 1 + key.length + value.wire.length +
              (tableWire entries).length := by
        simp only [tableWire, List.length_append, bigEndian_length]
        omega
      rw [bigEndian_length] at hsizeRun
      simp only [decodeTableEntries, if_pos hlimit, hsizeRun, hkeylen, hkeyRun,
        hvalueRun, bind, Except.bind]
      rw [hend, hloop]

theorem readsBack (fuel : ℕ) : ReadsBack fuel := by
  induction fuel with
  | zero =>
      constructor <;>
      · intro _ _ hlength
        omega
  | succ fuel ih =>
      exact ⟨ih.fieldValue_succ, ih.arrayEntries_succ, ih.tableEntries_succ⟩

theorem AmqpTable.scans (table : AmqpTable) :
    Scans amqpDecodeTable table.wire table.entries := by
  intro encoded offset hholds
  have hroom := hholds.room
  simp only [AmqpTable.wire, sizedWire, List.length_append,
    bigEndian_length] at hroom
  have hloop :=
    (readsBack (encoded.length + 2)).tableEntries table.entries
      table.entries_fit (by omega)
  exact scans_sized table.size_fits hloop encoded offset hholds

/-! ## What the decoder accepts -/

section Accepting

variable (encoded : Bytes)

/-- The bytes read for a value are as many as it is written with. -/
def EntryTaken (entry : FieldValue) (count : ℕ) : Prop :=
  count = entry.wire.length ∧
    (encoded.length < 256 ^ 4 → entry.fits = true)

def ArrayTaken (entries : List FieldValue) (count : ℕ) : Prop :=
  count = (arrayWire entries).length ∧
    (encoded.length < 256 ^ 4 → arrayFits entries = true)

def TableTaken (entries : List (Bytes × FieldValue)) (count : ℕ) : Prop :=
  count = (tableWire entries).length ∧
    (encoded.length < 256 ^ 4 → tableFits entries = true)

theorem reads_longBytes {room : ℕ} :
    Reads encoded room .badAmqpData decodeLongBytes
      (fun bytes count =>
        count = (longBytesWire bytes).length ∧ bytes.length < 256 ^ 4) := by
  apply (reads_amqpDecode32 .badAmqpData).andThen fun length encoded offset =>
    orReturn .badAmqpData (amqpDecodeBytes length.toNat encoded offset)
  intro length count _ hcount
  apply (reads_amqpDecodeBytes .badAmqpData length.toNat).imp
  intro bytes more _ hmore
  have hlength := length.toNat_lt
  simp only [longBytesWire, List.length_append, bigEndian_length]
  omega

theorem reads_sized
    {α : Type} {room : ℕ} {entries : ℕ → Decoder α}
    {relation : α → ℕ → Prop}
    (hentries : 4 ≤ room → ∀ limit,
      Reads encoded (room - 4) .badAmqpData (entries limit) relation) :
    Reads encoded room .badAmqpData (decodeSized entries)
      (fun value count =>
        ∃ more, count = 4 + more ∧ more ≤ encoded.length ∧
          relation value more) := by
  intro offset hoffset hroom
  rcases reads_amqpDecode32 .badAmqpData offset hoffset hroom with
    hrefused | ⟨size, count, haccepts, hcount, hfour⟩
  · left
    simp only [decodeSized, hrefused, bind, Except.bind]
  · simp only [decodeSized, haccepts, bind, Except.bind]
    rcases hentries (by omega) (offset + count + size.toNat) (offset + count) hcount
      (by omega) with hrefused | ⟨value, more, hvalue, hmore, hrelation⟩
    · exact Or.inl hrefused
    · right
      refine ⟨value, count + more, ?_, by omega, more, ?_, by omega, hrelation⟩
      · rw [hvalue, Nat.add_assoc]
      · rw [hfour]

theorem entryTaken_of_size
    {entry : FieldValue} {count : ℕ} (hcount : count = entry.wire.length)
    (hfits : entry.fits = true) : EntryTaken encoded entry count :=
  ⟨hcount, fun _ => hfits⟩

/-- Reading a member of fixed width. -/
theorem reads_fieldDecoder
    {α : Type} {room width : ℕ} {decode : Bytes → ℕ → Option (α × ℕ)}
    (hdecode :
      Reads encoded room .badAmqpData
        (fun encoded offset => orReturn .badAmqpData (decode encoded offset))
        (fun _ count => count = width))
    (store : α → FieldValue)
    (hlength : ∀ value, (store value).wire.length = 1 + width)
    (hfits : ∀ value, (store value).fits = true) :
    Reads encoded room .badAmqpData
      (fun encoded offset => fieldDecoder store (decode encoded offset))
      (fun entry more => EntryTaken encoded entry (1 + more)) := by
  apply hdecode.map store
  intro value count _ hcount
  apply entryTaken_of_size encoded _ (hfits value)
  rw [hlength, hcount]

theorem reads_member
    {room : ℕ} {arrayEntries : ℕ → Decoder (List FieldValue)}
    {tableEntries : ℕ → Decoder (List (Bytes × FieldValue))}
    (harray : 4 ≤ room → ∀ limit,
      Reads encoded (room - 4) .badAmqpData (arrayEntries limit)
        (ArrayTaken encoded))
    (htable : 4 ≤ room → ∀ limit,
      Reads encoded (room - 4) .badAmqpData (tableEntries limit)
        (TableTaken encoded))
    (kind : Option FieldKind) :
    Reads encoded room .badAmqpData
      (decodeMember arrayEntries tableEntries kind)
      (fun entry more => EntryTaken encoded entry (1 + more)) := by
  rcases kind with none | kind
  · intro offset _ _
    exact Or.inl rfl
  cases kind with
  | boolean | i8 | u8 =>
      unfold decodeMember
      apply reads_fieldDecoder encoded (reads_amqpDecode8 _)
      · simp [FieldValue.wire, kindWire]
      · simp [FieldValue.fits]
  | i16 | u16 =>
      unfold decodeMember
      apply reads_fieldDecoder encoded (reads_amqpDecode16 _)
      · simp [FieldValue.wire, kindWire]
      · simp [FieldValue.fits]
  | i32 | u32 | f32 =>
      unfold decodeMember
      apply reads_fieldDecoder encoded (reads_amqpDecode32 _)
      · simp [FieldValue.wire, kindWire]
      · simp [FieldValue.fits]
  | i64 | u64 | f64 | timestamp =>
      unfold decodeMember
      apply reads_fieldDecoder encoded (reads_amqpDecode64 _)
      · simp [FieldValue.wire, kindWire]
      · simp [FieldValue.fits]
  | decimal =>
      apply (reads_amqpDecode8 .badAmqpData).andThen
        fun decimals encoded offset =>
          fieldDecoder (FieldValue.decimal decimals)
            (amqpDecode32 encoded offset)
      intro decimals first _ hfirst
      apply (reads_amqpDecode32 .badAmqpData).map (FieldValue.decimal decimals)
      intro value count _ hcount
      apply entryTaken_of_size
      · simp [FieldValue.wire, kindWire, hfirst, hcount]
      · rfl
  | utf8 =>
      apply (reads_longBytes encoded).map FieldValue.utf8
      intro bytes count _ hcount
      apply entryTaken_of_size
      · simp [FieldValue.wire, kindWire, hcount.1]
      · simp only [FieldValue.fits, hcount.2, decide_true]
  | bytes =>
      apply (reads_longBytes encoded).map FieldValue.bytes
      intro bytes count _ hcount
      apply entryTaken_of_size
      · simp [FieldValue.wire, kindWire, hcount.1]
      · simp only [FieldValue.fits, hcount.2, decide_true]
  | array =>
      apply (reads_sized encoded harray).map FieldValue.array
      rintro entries count _ ⟨more, hcount, hmore, hlength, hfits⟩
      constructor
      · simp [FieldValue.wire, kindWire, sizedWire, hcount, hlength]
      · intro hshort
        simp only [FieldValue.fits, Bool.and_eq_true, decide_eq_true_eq]
        exact ⟨by omega, hfits hshort⟩
  | table =>
      apply (reads_sized encoded htable).map FieldValue.table
      rintro entries count _ ⟨more, hcount, hmore, hlength, hfits⟩
      constructor
      · simp [FieldValue.wire, kindWire, sizedWire, hcount, hlength]
      · intro hshort
        simp only [FieldValue.fits, Bool.and_eq_true, decide_eq_true_eq]
        exact ⟨by omega, hfits hshort⟩
  | void =>
      apply (reads_nothing FieldValue.void).imp
      rintro entry count _ ⟨hentry, hcount⟩
      subst hentry
      apply entryTaken_of_size
      · simp [FieldValue.wire, kindWire, hcount]
      · rfl

/-- With enough fuel for the bytes that are left, the decoder accepts or
refuses, and what it accepts has the length of what it has read. -/
structure ReadsAny (fuel : ℕ) : Prop where
  fieldValue : ∀ room, room < fuel →
    Reads encoded room .badAmqpData (amqpDecodeFieldValue fuel)
      (EntryTaken encoded)
  arrayEntries : ∀ room, room + 1 < fuel → ∀ limit,
    Reads encoded room .badAmqpData (decodeArrayEntries fuel limit)
      (ArrayTaken encoded)
  tableEntries : ∀ room, room + 1 < fuel → ∀ limit,
    Reads encoded room .badAmqpData (decodeTableEntries fuel limit)
      (TableTaken encoded)

variable {encoded}

theorem ReadsAny.fieldValue_succ
    {fuel : ℕ} (hfuel : ReadsAny encoded fuel)
    (room : ℕ) (hroom : room < fuel + 1) :
    Reads encoded room .badAmqpData (amqpDecodeFieldValue (fuel + 1))
      (EntryTaken encoded) := by
  apply (reads_amqpDecode8 .badAmqpData).andThen fun code =>
    decodeMember (decodeArrayEntries fuel) (decodeTableEntries fuel)
      (FieldKind.ofCode code)
  intro code count hleft hcount
  subst hcount
  apply reads_member encoded
  · intro hsize limit
    exact hfuel.arrayEntries (room - 1 - 4) (by omega) limit
  · intro hsize limit
    exact hfuel.tableEntries (room - 1 - 4) (by omega) limit

/-- A loop that stops at its limit or reads one more entry. -/
theorem reads_loop
    {α : Type} {room limit : ℕ} {step : Decoder (List α)}
    {relation : List α → ℕ → Prop}
    (hnil : relation [] 0)
    (hstep : Reads encoded room .badAmqpData step relation) :
    Reads encoded room .badAmqpData
      (fun encoded offset =>
        if offset < limit then step encoded offset else .ok ([], offset))
      relation := by
  intro offset hoffset hroom
  by_cases hlimit : offset < limit
  · simp only [if_pos hlimit]
    exact hstep offset hoffset hroom
  · right
    refine ⟨[], 0, ?_, hoffset, hnil⟩
    simp only [if_neg hlimit, Nat.add_zero]

theorem ReadsAny.arrayEntries_succ
    {fuel : ℕ} (hfuel : ReadsAny encoded fuel)
    (room : ℕ) (hroom : room + 1 < fuel + 1) (limit : ℕ) :
    Reads encoded room .badAmqpData (decodeArrayEntries (fuel + 1) limit)
      (ArrayTaken encoded) := by
  apply reads_loop ⟨rfl, fun _ => rfl⟩
  apply (hfuel.fieldValue room (by omega)).andThen
    fun entry => scanMap (entry :: ·) (decodeArrayEntries fuel limit)
  rintro entry first hfirst ⟨hlength, hfits⟩
  have hpos := entry.wire_length_pos
  apply (hfuel.arrayEntries (room - first) (by omega) limit).map (entry :: ·)
  rintro entries more _ ⟨hmore, hentries⟩
  constructor
  · rw [arrayWire, List.length_append, hlength, hmore]
  · intro hshort
    simp only [arrayFits, Bool.and_eq_true]
    exact ⟨hfits hshort, hentries hshort⟩

theorem ReadsAny.tableEntries_succ
    {fuel : ℕ} (hfuel : ReadsAny encoded fuel)
    (room : ℕ) (hroom : room + 1 < fuel + 1) (limit : ℕ) :
    Reads encoded room .badAmqpData (decodeTableEntries (fuel + 1) limit)
      (TableTaken encoded) := by
  apply reads_loop ⟨rfl, fun _ => rfl⟩
  let decodeKey (keylen : UInt8) : Decoder Bytes := fun encoded offset =>
    orReturn .badAmqpData (amqpDecodeBytes keylen.toNat encoded offset)
  let decodeRest (key : Bytes) (value : FieldValue) :=
    scanMap ((key, value) :: ·) (decodeTableEntries fuel limit)
  apply (reads_amqpDecode8 .badAmqpData).andThen fun keylen =>
    scanThen (decodeKey keylen) fun key =>
      scanThen (amqpDecodeFieldValue fuel) (decodeRest key)
  intro keylen first hfirst hone
  apply (reads_amqpDecodeBytes .badAmqpData keylen.toNat).andThen fun key =>
    scanThen (amqpDecodeFieldValue fuel) (decodeRest key)
  rintro key second hsecond ⟨hkey, hkeylen⟩
  apply (hfuel.fieldValue (room - first - second) (by omega)).andThen
    (decodeRest key)
  rintro value third hthird ⟨hlength, hfits⟩
  apply (hfuel.tableEntries (room - first - second - third) (by omega)
    limit).map ((key, value) :: ·)
  rintro entries more _ ⟨hmore, hentries⟩
  have hbyte := keylen.toNat_lt
  constructor
  · simp only [tableWire, List.length_append, bigEndian_length]
    omega
  · intro hshort
    simp only [tableFits, Bool.and_eq_true, decide_eq_true_eq]
    exact ⟨⟨by omega, hfits hshort⟩, hentries hshort⟩

theorem readsAny (fuel : ℕ) : ReadsAny encoded fuel := by
  induction fuel with
  | zero =>
      constructor <;>
      · intro _ hroom
        omega
  | succ fuel ih =>
      exact ⟨ih.fieldValue_succ, ih.arrayEntries_succ, ih.tableEntries_succ⟩

end Accepting

theorem reads_amqpDecodeTable (encoded : Bytes) (room : ℕ)
    (hroom : room ≤ encoded.length) :
    Reads encoded room .badAmqpData amqpDecodeTable
      (fun entries count =>
        count = (sizedWire (tableWire entries)).length ∧
          (encoded.length < 256 ^ 4 →
            (tableWire entries).length < 256 ^ 4 ∧
              tableFits entries = true)) := by
  have hloop : 4 ≤ room → ∀ limit,
      Reads encoded (room - 4) .badAmqpData
        (decodeTableEntries (encoded.length + 2) limit)
        (TableTaken encoded) := by
    intro hsize limit
    exact (readsAny _).tableEntries (room - 4) (by omega) limit
  apply (reads_sized encoded hloop).imp
  rintro entries count _ ⟨more, hcount, hmore, hlength, hfits⟩
  constructor
  · simp only [sizedWire, List.length_append, bigEndian_length]
    omega
  · intro hshort
    exact ⟨by omega, hfits hshort⟩

/-! ## Round trips -/

/-- The encoder succeeds exactly where there is room; then the decoder reads
the table back and nothing outside of it has been written. -/
theorem amqpDecodeTable_amqpEncodeTable
    (table : AmqpTable) (buffer : Bytes) (offset : ℕ) :
    let next := offset + table.wire.length
    (next ≤ buffer.length →
      ∃ written,
        amqpEncodeTable table.entries buffer offset = .ok (written, next) ∧
          amqpDecodeTable written offset = .ok (table.entries, next) ∧
          written.take offset = buffer.take offset ∧
          written.drop next = buffer.drop next) ∧
    (buffer.length < next →
      ∃ status, amqpEncodeTable table.entries buffer offset = .error status) := by
  have hwrites := table.writes buffer offset
  constructor
  · intro hroom
    have hrun := hwrites.1 (Or.inr hroom)
    have hread := table.scans _ offset (holds_splice hroom)
    obtain ⟨hbefore, hafter⟩ := splice_outside hroom
    exact ⟨_, hrun, hread, hbefore, hafter⟩
  · intro hfull
    apply hwrites.2
    rintro (hnil | hroom)
    · have hlength := congrArg List.length hnil
      simp [AmqpTable.wire, sizedWire] at hlength
    · omega

/-- In a buffer shorter than `2 ^ 32` bytes the decoder refuses, or accepts a
table whose lengths fit and whose serialised form is as long as what has been
read; writing the table over it gives bytes that are read as the same
table. -/
theorem amqpDecodeTable_accepts
    (encoded : Bytes) (offset : ℕ) (hoffset : offset ≤ encoded.length)
    (hshort : encoded.length < 256 ^ 4) :
    amqpDecodeTable encoded offset = .error .badAmqpData ∨
      ∃ table : AmqpTable, ∃ written,
        let next := offset + table.wire.length
        amqpDecodeTable encoded offset = .ok (table.entries, next) ∧
          next ≤ encoded.length ∧
          amqpEncodeTable table.entries encoded offset =
            .ok (written, next) ∧
          amqpDecodeTable written offset = .ok (table.entries, next) := by
  have hreads := reads_amqpDecodeTable encoded encoded.length le_rfl
  rcases hreads offset hoffset (Nat.le_add_left _ _) with
    hrefused | ⟨entries, count, haccepts, hcount, hlength, hfit⟩
  · exact Or.inl hrefused
  · right
    let table : AmqpTable := ⟨entries, (hfit hshort).1, (hfit hshort).2⟩
    have hwire : count = table.wire.length := hlength
    have hroom : offset + table.wire.length ≤ encoded.length := by
      rw [← hwire]
      exact hcount
    have hrun := (table.writes encoded offset).1 (Or.inr hroom)
    have hread := table.scans _ offset (holds_splice hroom)
    rw [hwire] at haccepts
    exact ⟨table, _, haccepts, hroom, hrun, hread⟩

/-- One entry with the key `a` and an array of a void and a boolean, written as
seven; the size of the array ends inside the boolean. -/
def nestedTable : Bytes :=
  [0, 0, 0, 10, 1, 'a'.toUInt8, 'A'.toUInt8, 0, 0, 0, 2, 'V'.toUInt8,
    't'.toUInt8, 7]

theorem amqpDecodeTable_accepts_nested :
    amqpDecodeTable nestedTable 0 = .error .badAmqpData ∨
      ∃ table : AmqpTable, ∃ written,
        let next := 0 + table.wire.length
        amqpDecodeTable nestedTable 0 = .ok (table.entries, next) ∧
          next ≤ nestedTable.length ∧
          amqpEncodeTable table.entries nestedTable 0 =
            .ok (written, next) ∧
          amqpDecodeTable written 0 = .ok (table.entries, next) :=
  amqpDecodeTable_accepts nestedTable 0 (by decide) (by decide)

end RabbitWork
