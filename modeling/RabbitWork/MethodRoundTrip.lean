import Mathlib.Data.Nat.Bitwise
import RabbitWork.MethodCodec

/-!
# Methods and properties survive the wire

The cases of the generated encoder and decoder go through the same kinds in
the same order, so one induction over the argument kinds serves every method
and the properties of every class.  A string too long for the bytes of its
length is refused; only the lengths inside a table are not checked.
-/

namespace RabbitWork

open Wire

/-! ## Flags that share a byte -/

theorem testBit_bitBuffer (count : ℕ) (flags : Fin count → Bool) (index : ℕ) :
    (bitBuffer count flags).testBit index =
      if h : index < count then flags ⟨index, h⟩ else false := by
  induction count with
  | zero => simp [bitBuffer]
  | succ count ih =>
      have hearlier := ih fun index => flags index.castSucc
      unfold bitBuffer
      cases hlast : flags (Fin.last count) with
      | false =>
          simp only [Bool.false_eq_true, if_false, hearlier]
          by_cases hindex : index < count
          · simp [hindex, Nat.lt_succ_of_lt hindex]
          · by_cases heq : index = count
            · subst heq
              simp only [lt_irrefl, dite_false, Nat.lt_succ_self, dite_true]
              exact hlast.symm
            · have hover : ¬ index < count + 1 := by omega
              simp [hindex, hover]
      | true =>
          simp only [if_true, Nat.testBit_or, hearlier, Nat.one_shiftLeft,
            Nat.testBit_two_pow]
          by_cases hindex : index < count
          · have hne : count ≠ index := by omega
            simp [hindex, Nat.lt_succ_of_lt hindex, hne]
          · by_cases heq : index = count
            · subst heq
              simp only [lt_irrefl, dite_false, Nat.lt_succ_self, dite_true,
                decide_true, Bool.or_true]
              exact hlast.symm
            · have hover : ¬ index < count + 1 := by omega
              have hne : count ≠ index := by omega
              simp [hindex, hover, hne]

theorem bitBuffer_lt (count : ℕ) (flags : Fin count → Bool) :
    bitBuffer count flags < 2 ^ count := by
  apply Nat.lt_pow_two_of_testBit
  intro index hindex
  rw [testBit_bitBuffer, dif_neg (by omega)]

theorem and_shiftLeft_ne_zero (number index : ℕ) :
    (number &&& 1 <<< index ≠ 0) ↔ number.testBit index = true := by
  rw [Nat.one_shiftLeft, Nat.and_two_pow]
  cases number.testBit index <;> simp

/-! ## The serialised form -/

def argWire : (kind : ArgKind) → kind.Value → Bytes
  | .u8, value => bigEndian 1 (UInt8.toNat value)
  | .u16, value => bigEndian 2 (UInt16.toNat value)
  | .u32, value => bigEndian 4 (UInt32.toNat value)
  | .u64, value => bigEndian 8 (UInt64.toNat value)
  | .shortstr, (bytes : Bytes) => bigEndian 1 bytes.length ++ bytes
  | .longstr, bytes => longBytesWire bytes
  | .bits count, flags => bigEndian 1 (bitBuffer count flags)
  | .table, entries => sizedWire (tableWire entries)

def argsWire : (layout : List ArgKind) → Args layout → Bytes
  | [], _ => []
  | kind :: layout, (value, values) =>
      argWire kind value ++ argsWire layout values

/-- What the encoder checks: the length of a string can be written. -/
def argStringFits : (kind : ArgKind) → kind.Value → Bool
  | .shortstr, bytes => List.length bytes < 256
  | .longstr, bytes => List.length bytes < 256 ^ 4
  | _, _ => true

def argsStringsFit : (layout : List ArgKind) → Args layout → Bool
  | [], _ => true
  | kind :: layout, (value, values) =>
      argStringFits kind value && argsStringsFit layout values

/-- What it does not check: the lengths inside a table can be written. -/
def argTableFits : (kind : ArgKind) → kind.Value → Bool
  | .table, entries =>
      (tableWire entries).length < 256 ^ 4 && tableFits entries
  | _, _ => true

def argsTablesFit : (layout : List ArgKind) → Args layout → Bool
  | [], _ => true
  | kind :: layout, (value, values) =>
      argTableFits kind value && argsTablesFit layout values

/-! ## What the encoder writes -/

theorem writes_arg
    (kind : ArgKind) (value : kind.Value)
    (hfits : argStringFits kind value = true) :
    Writes (encodeArg kind value) (argWire kind value) := by
  cases kind with
  | u8 => exact writes_amqpEncode .badAmqpData (by decide) _
  | u16 => exact writes_amqpEncode .badAmqpData (by decide) _
  | u32 => exact writes_amqpEncode .badAmqpData (by decide) _
  | u64 => exact writes_amqpEncode .badAmqpData (by decide) _
  | shortstr =>
      simp only [argStringFits, decide_eq_true_eq] at hfits
      have hcheck : ¬ 255 < List.length value := by omega
      have hlength := writes_amqpEncode .badAmqpData Nat.one_pos
        (UInt8.ofNat (List.length value)).toNat
      rw [bigEndian_ofNat8] at hlength
      have hboth := hlength.andThen (writes_amqpEncodeBytes .badAmqpData value)
      intro encoded offset
      simp only [encodeArg, if_neg hcheck]
      exact hboth encoded offset
  | longstr =>
      simp only [argStringFits, decide_eq_true_eq] at hfits
      have hcheck : ¬ 4294967295 < List.length value := by omega
      have hlength := writes_amqpEncode .badAmqpData (show 0 < 4 by decide)
        (UInt32.ofNat (List.length value)).toNat
      rw [bigEndian_ofNat32] at hlength
      have hboth := hlength.andThen (writes_amqpEncodeBytes .badAmqpData value)
      intro encoded offset
      simp only [encodeArg, if_neg hcheck]
      exact hboth encoded offset
  | bits count =>
      have hbuffer := writes_amqpEncode .badAmqpData Nat.one_pos
        (UInt8.ofNat (bitBuffer count value)).toNat
      rw [bigEndian_ofNat8] at hbuffer
      exact hbuffer
  | table => exact writes_sized (writes_tableEntries value)

theorem writes_args
    (layout : List ArgKind) (values : Args layout)
    (hfits : argsStringsFit layout values = true) :
    Writes (encodeArgs layout values) (argsWire layout values) := by
  induction layout with
  | nil => exact writes_nothing
  | cons kind layout ih =>
      obtain ⟨value, values⟩ := values
      simp only [argsStringsFit, Bool.and_eq_true] at hfits
      exact (writes_arg kind value hfits.1).andThen (ih values hfits.2)

/-- A string that is too long is refused, wherever it is to be written. -/
theorem encodeArg_refuses
    (kind : ArgKind) (value : kind.Value)
    (hlong : argStringFits kind value = false) (encoded : Bytes)
    (offset : ℕ) :
    encodeArg kind value encoded offset = .error .badAmqpData := by
  cases kind with
  | shortstr =>
      simp only [argStringFits, decide_eq_false_iff_not] at hlong
      have hcheck : 255 < List.length value := by omega
      simp only [encodeArg, if_pos hcheck]
  | longstr =>
      simp only [argStringFits, decide_eq_false_iff_not] at hlong
      have hcheck : 4294967295 < List.length value := by omega
      simp only [encodeArg, if_pos hcheck]
  | u8 | u16 | u32 | u64 | bits | table => simp [argStringFits] at hlong

theorem encodeArgs_refuses
    (layout : List ArgKind) (values : Args layout)
    (hlong : argsStringsFit layout values = false) (encoded : Bytes)
    (offset : ℕ) :
    ∃ status, encodeArgs layout values encoded offset = .error status := by
  induction layout generalizing encoded offset with
  | nil => simp [argsStringsFit] at hlong
  | cons kind layout ih =>
      obtain ⟨value, values⟩ := values
      simp only [argsStringsFit, Bool.and_eq_false_iff] at hlong
      cases harg : encodeArg kind value encoded offset with
      | error status =>
          exact ⟨status, by simp [encodeArgs, harg, bind, Except.bind]⟩
      | ok result =>
          rcases hlong with hvalue | hrest
          · rw [encodeArg_refuses kind value hvalue] at harg
            cases harg
          · obtain ⟨status, hstatus⟩ := ih values hrest result.1 result.2
            exact ⟨status, by
              simp [encodeArgs, harg, bind, Except.bind, hstatus]⟩

/-! ## What the decoder reads -/

theorem scans_arg
    (kind : ArgKind) (value : kind.Value)
    (hstrings : argStringFits kind value = true)
    (htables : argTableFits kind value = true) :
    Scans (decodeArg kind) (argWire kind value) value := by
  cases kind with
  | u8 => exact scans_amqpDecode8 .badAmqpData value
  | u16 => exact scans_amqpDecode16 .badAmqpData value
  | u32 => exact scans_amqpDecode32 .badAmqpData value
  | u64 => exact scans_amqpDecode64 .badAmqpData value
  | shortstr =>
      simp only [argStringFits, decide_eq_true_eq] at hstrings
      have hlength :
          (UInt8.ofNat (List.length value)).toNat = List.length value := by
        rw [UInt8.toNat_ofNat']
        exact Nat.mod_eq_of_lt hstrings
      have hfirst :=
        scans_amqpDecode8 .badAmqpData (UInt8.ofNat (List.length value))
      rw [hlength] at hfirst
      apply hfirst.andThen fun length encoded offset =>
        orReturn .badAmqpData (amqpDecodeBytes length.toNat encoded offset)
      rw [hlength]
      exact scans_amqpDecodeBytes .badAmqpData value
  | longstr =>
      simp only [argStringFits, decide_eq_true_eq] at hstrings
      exact scans_longBytes hstrings
  | bits count =>
      have hbuffer : bitBuffer count value < 256 := by
        have hcount : (2 : ℕ) ^ count.val ≤ 2 ^ 8 :=
          Nat.pow_le_pow_right (by decide) (by omega)
        have hlt := bitBuffer_lt count value
        omega
      have hbyte :
          (UInt8.ofNat (bitBuffer count value)).toNat =
            bitBuffer count value := by
        rw [UInt8.toNat_ofNat']
        exact Nat.mod_eq_of_lt hbuffer
      have hfirst :=
        scans_amqpDecode8 .badAmqpData (UInt8.ofNat (bitBuffer count value))
      rw [hbyte] at hfirst
      have hflags :
          (fun index : Fin count =>
            decide ((UInt8.ofNat (bitBuffer count value)).toNat &&&
              1 <<< index.val ≠ 0)) = value := by
        funext index
        have hbit := testBit_bitBuffer count.val value index.val
        rw [dif_pos index.isLt] at hbit
        rw [hbyte, Bool.eq_iff_iff, decide_eq_true_eq, and_shiftLeft_ne_zero,
          hbit]
      have hmap := hfirst.map
        fun buffer (index : Fin count) =>
          decide (buffer.toNat &&& 1 <<< index.val ≠ 0)
      rw [hflags] at hmap
      exact hmap
  | table =>
      simp only [argTableFits, Bool.and_eq_true, decide_eq_true_eq] at htables
      exact AmqpTable.scans ⟨value, htables.1, htables.2⟩

theorem scans_args
    (layout : List ArgKind) (values : Args layout)
    (hstrings : argsStringsFit layout values = true)
    (htables : argsTablesFit layout values = true) :
    Scans (decodeArgs layout) (argsWire layout values) values := by
  induction layout with
  | nil => exact scans_nothing ()
  | cons kind layout ih =>
      obtain ⟨value, values⟩ := values
      simp only [argsStringsFit, Bool.and_eq_true] at hstrings
      simp only [argsTablesFit, Bool.and_eq_true] at htables
      have hfirst := scans_arg kind value hstrings.1 htables.1
      have hrest := ih values hstrings.2 htables.2
      apply hfirst.andThen fun value =>
        scanMap (fun values => (value, values)) (decodeArgs layout)
      exact hrest.map fun values => (value, values)

/-! ## What the decoder accepts -/

/-- The bytes read for an argument are as many as it is written with, and
writing it is not refused. -/
def ArgTaken (encoded : Bytes) (kind : ArgKind) (value : kind.Value)
    (count : ℕ) : Prop :=
  count = (argWire kind value).length ∧
    argStringFits kind value = true ∧
      (encoded.length < 256 ^ 4 → argTableFits kind value = true)

def ArgsTaken (encoded : Bytes) (layout : List ArgKind)
    (values : Args layout) (count : ℕ) : Prop :=
  count = (argsWire layout values).length ∧
    argsStringsFit layout values = true ∧
      (encoded.length < 256 ^ 4 → argsTablesFit layout values = true)

section Accepting

variable (encoded : Bytes) {room : ℕ} (hroom : room ≤ encoded.length)

include hroom

theorem reads_arg (kind : ArgKind) :
    Reads encoded room .badAmqpData (decodeArg kind)
      (ArgTaken encoded kind) := by
  cases kind with
  | u8 =>
      apply (reads_amqpDecode8 .badAmqpData).imp
      intro value count _ hcount
      exact ⟨by simp [argWire, hcount], rfl, fun _ => rfl⟩
  | u16 =>
      apply (reads_amqpDecode16 .badAmqpData).imp
      intro value count _ hcount
      exact ⟨by simp [argWire, hcount], rfl, fun _ => rfl⟩
  | u32 =>
      apply (reads_amqpDecode32 .badAmqpData).imp
      intro value count _ hcount
      exact ⟨by simp [argWire, hcount], rfl, fun _ => rfl⟩
  | u64 =>
      apply (reads_amqpDecode64 .badAmqpData).imp
      intro value count _ hcount
      exact ⟨by simp [argWire, hcount], rfl, fun _ => rfl⟩
  | shortstr =>
      apply (reads_amqpDecode8 .badAmqpData).andThen
        fun length encoded offset =>
          orReturn .badAmqpData (amqpDecodeBytes length.toNat encoded offset)
      intro length first _ hfirst
      apply (reads_amqpDecodeBytes .badAmqpData length.toNat).imp
      rintro bytes more _ ⟨hbytes, hmore⟩
      have hbyte := length.toNat_lt
      refine ⟨?_, ?_, fun _ => rfl⟩
      · simp only [argWire, List.length_append, bigEndian_length]
        omega
      · simp only [argStringFits, decide_eq_true_eq]
        omega
  | longstr =>
      apply (reads_longBytes encoded).imp
      rintro bytes count _ ⟨hcount, hlength⟩
      refine ⟨hcount, ?_, fun _ => rfl⟩
      simp only [argStringFits, decide_eq_true_eq]
      exact hlength
  | bits count =>
      apply (reads_amqpDecode8 .badAmqpData).map
        fun buffer (index : Fin count) =>
          decide (buffer.toNat &&& 1 <<< index.val ≠ 0)
      intro buffer size _ hsize
      exact ⟨by simp [argWire, hsize], rfl, fun _ => rfl⟩
  | table =>
      apply (reads_amqpDecodeTable encoded room hroom).imp
      rintro entries count _ ⟨hcount, hfits⟩
      refine ⟨hcount, rfl, ?_⟩
      intro hshort
      simp only [argTableFits, Bool.and_eq_true, decide_eq_true_eq]
      exact hfits hshort

theorem reads_args (layout : List ArgKind) :
    Reads encoded room .badAmqpData (decodeArgs layout)
      (ArgsTaken encoded layout) := by
  induction layout generalizing room with
  | nil =>
      apply (reads_nothing ()).imp
      rintro values count _ ⟨_, hcount⟩
      exact ⟨hcount, rfl, fun _ => rfl⟩
  | cons kind layout ih =>
      apply (reads_arg encoded hroom kind).andThen fun value =>
        scanMap (fun values => (value, values)) (decodeArgs layout)
      rintro value first hfirst ⟨hvalue, hstring, htable⟩
      apply (ih (by omega)).map fun values => (value, values)
      rintro values more _ ⟨hvalues, hstrings, htables⟩
      refine ⟨?_, ?_, ?_⟩
      · rw [argsWire, List.length_append, hvalue, hvalues]
      · rw [argsStringsFit, hstring, hstrings, Bool.and_self]
      · intro hshort
        rw [argsTablesFit, htable hshort, htables hshort, Bool.and_self]

end Accepting

/-! ## Methods -/

def Method.wire (method : Method) : Bytes :=
  argsWire method.id.layout method.decoded

def Method.stringsFit (method : Method) : Bool :=
  argsStringsFit method.id.layout method.decoded

def Method.tablesFit (method : Method) : Bool :=
  argsTablesFit method.id.layout method.decoded

theorem amqpEncodeMethod_eq
    (method : Method) (hstrings : method.stringsFit = true)
    (hint : method.wire.length < 2 ^ 31) {encoded : Bytes}
    (hroom : method.wire.length ≤ encoded.length) :
    amqpEncodeMethod method encoded =
      .ok (splice encoded 0 method.wire, method.wire.length) :=
  returnOffset_run (writes_args _ _ hstrings) hint hroom

theorem amqpEncodeMethod_ok_iff
    (method : Method) {encoded written : Bytes} {size : ℕ} :
    amqpEncodeMethod method encoded = .ok (written, size) ↔
      (method.stringsFit = true ∧ method.wire.length ≤ encoded.length ∧
        method.wire.length % 2 ^ 32 < 2 ^ 31) ∧
        written = splice encoded 0 method.wire ∧
          size = method.wire.length % 2 ^ 32 := by
  cases hstrings : method.stringsFit with
  | false =>
      obtain ⟨status, hstatus⟩ :=
        returnOffset_refuses (encodeArgs_refuses _ _ hstrings encoded 0)
      simp only [amqpEncodeMethod, hstatus, reduceCtorEq, false_and]
  | true =>
      have hwrites := writes_args method.id.layout method.decoded hstrings
      simp only [amqpEncodeMethod, returnOffset_ok_iff hwrites, true_and]
      rfl

theorem amqpEncodeMethod_refuses
    (method : Method) {encoded : Bytes}
    (hrefused :
      ¬ (method.stringsFit = true ∧ method.wire.length ≤ encoded.length ∧
        method.wire.length % 2 ^ 32 < 2 ^ 31)) :
    ∃ status, amqpEncodeMethod method encoded = .error status := by
  apply error_of_not_ok
  rintro ⟨written, size⟩ hok
  exact hrefused ((amqpEncodeMethod_ok_iff method).mp hok).1

theorem amqpDecodeMethod_wire
    (method : Method) (hstrings : method.stringsFit = true)
    (htables : method.tablesFit = true) (rest : Bytes) :
    amqpDecodeMethod method.id.number (method.wire ++ rest) = .ok method := by
  have hscans := scans_args _ _ hstrings htables
  have hrun := hscans _ 0 (holds_zero method.wire rest)
  simp only [amqpDecodeMethod, MethodId.ofNumber_number, hrun, bind,
    Except.bind]

/-- A method whose tables fit is encoded exactly if its strings fit, there is
room and the length is not negative as an `int`.  What has been encoded is
decoded to the same method, whatever follows it. -/
theorem amqpDecodeMethod_amqpEncodeMethod
    (method : Method) (htables : method.tablesFit = true) (buffer : Bytes) :
    ((∃ written size,
        amqpEncodeMethod method buffer = .ok (written, size)) ↔
      method.stringsFit = true ∧ method.wire.length ≤ buffer.length ∧
        method.wire.length % 2 ^ 32 < 2 ^ 31) ∧
    ∀ written size, amqpEncodeMethod method buffer = .ok (written, size) →
      method.wire.length < 2 ^ 32 →
      ∀ rest,
        amqpDecodeMethod method.id.number (written.take size ++ rest) =
          .ok method := by
  constructor
  · constructor
    · rintro ⟨written, size, hencode⟩
      exact ((amqpEncodeMethod_ok_iff method).mp hencode).1
    · intro haccepted
      exact ⟨_, _, (amqpEncodeMethod_ok_iff method).mpr ⟨haccepted, rfl, rfl⟩⟩
  · intro written size hencode hshort rest
    obtain ⟨⟨hstrings, _⟩, hwritten, hsize⟩ :=
      (amqpEncodeMethod_ok_iff method).mp hencode
    rw [Nat.mod_eq_of_lt hshort] at hsize
    have htake : written.take size = method.wire := by
      rw [hwritten, hsize]
      simp [splice]
    rw [htake]
    exact amqpDecodeMethod_wire method hstrings htables rest

/-- A `basic.consume` of the queue `q` with one argument. -/
def consumeMethod : Method where
  id := .basicConsume
  decoded :=
    ((0 : UInt16), ['q'.toUInt8], [], ![false, true, false, true],
      [(['p'.toUInt8], .array [.i32 5, .void])], ())

theorem amqpDecodeMethod_amqpEncodeMethod_consume :
    ((∃ written size,
        amqpEncodeMethod consumeMethod (List.replicate 40 0) =
          .ok (written, size)) ↔
      consumeMethod.stringsFit = true ∧
        consumeMethod.wire.length ≤ (List.replicate 40 (0 : UInt8)).length ∧
          consumeMethod.wire.length % 2 ^ 32 < 2 ^ 31) ∧
    ∀ written size,
      amqpEncodeMethod consumeMethod (List.replicate 40 0) =
        .ok (written, size) →
      consumeMethod.wire.length < 2 ^ 32 →
      ∀ rest,
        amqpDecodeMethod consumeMethod.id.number
          (written.take size ++ rest) = .ok consumeMethod :=
  amqpDecodeMethod_amqpEncodeMethod consumeMethod (by decide)
    (List.replicate 40 0)

theorem MethodId.number_of_ofNumber
    {number : UInt32} {id : MethodId}
    (hnumber : MethodId.ofNumber number = some id) : id.number = number := by
  have hfound := List.find?_some hnumber
  exact of_decide_eq_true hfound

/-- From less than `2 ^ 32` bytes the decoder refuses an unknown number, or
arguments that run past the end, or accepts a method that is no longer.  Such a
method can be encoded in its place, and is decoded to itself again, unless its
length is negative as an `int`. -/
theorem amqpDecodeMethod_accepts
    (methodNumber : UInt32) (encoded : Bytes)
    (hshort : encoded.length < 256 ^ 4) :
    (MethodId.ofNumber methodNumber = none ∧
        amqpDecodeMethod methodNumber encoded = .error .unknownMethod) ∨
      amqpDecodeMethod methodNumber encoded = .error .badAmqpData ∨
        ∃ method,
          amqpDecodeMethod methodNumber encoded = .ok method ∧
            method.id.number = methodNumber ∧
            method.wire.length ≤ encoded.length ∧
            (method.wire.length < 2 ^ 31 → ∃ written size,
              amqpEncodeMethod method encoded = .ok (written, size) ∧
                written.length = encoded.length ∧
                amqpDecodeMethod methodNumber written = .ok method) ∧
            (2 ^ 31 ≤ method.wire.length →
              amqpEncodeMethod method encoded = .error .negativeOffset) := by
  cases hid : MethodId.ofNumber methodNumber with
  | none => exact Or.inl ⟨rfl, by simp [amqpDecodeMethod, hid]⟩
  | some id =>
      right
      rcases reads_args encoded le_rfl id.layout 0 (Nat.zero_le _)
        (by omega) with
        hrefused | ⟨values, count, haccepts, hcount, hlength, hstrings,
          htables⟩
      · left
        simp [amqpDecodeMethod, hid, hrefused, bind, Except.bind]
      · right
        let method : Method := ⟨id, values⟩
        have hnumber := MethodId.number_of_ofNumber hid
        have hwire : method.wire.length ≤ encoded.length := by
          rw [Nat.zero_add, hlength] at hcount
          exact hcount
        have hdecode : amqpDecodeMethod methodNumber encoded = .ok method := by
          simp [amqpDecodeMethod, hid, haccepts, bind, Except.bind, method]
        refine ⟨method, hdecode, hnumber, hwire, ?_, ?_⟩
        · intro hint
          have hencode := amqpEncodeMethod_eq method hstrings hint hwire
          have hagain := amqpDecodeMethod_wire method hstrings
            (htables hshort) (encoded.drop method.wire.length)
          have hfits : Fits encoded 0 method.wire := by
            right
            rw [Nat.zero_add]
            exact hwire
          have hspliced :
              splice encoded 0 method.wire =
                method.wire ++ encoded.drop method.wire.length := by
            simp [splice]
          have hid' : method.id.number = methodNumber := hnumber
          rw [← hspliced, hid'] at hagain
          exact ⟨_, _, hencode, splice_length hfits, hagain⟩
        · intro hlong
          have hmod :
              method.wire.length % 2 ^ 32 = method.wire.length :=
            Nat.mod_eq_of_lt (by omega)
          apply returnOffset_negative (writes_args _ _ hstrings) hwire
          change ¬ method.wire.length % 2 ^ 32 < 2 ^ 31
          omega

/-- A `basic.ack` whose flags have more than the one bit. -/
theorem amqpDecodeMethod_accepts_ack :
    (MethodId.ofNumber 0x003C0050 = none ∧
        amqpDecodeMethod 0x003C0050 [0, 0, 0, 0, 0, 0, 0, 7, 255] =
          .error .unknownMethod) ∨
      amqpDecodeMethod 0x003C0050 [0, 0, 0, 0, 0, 0, 0, 7, 255] =
          .error .badAmqpData ∨
        ∃ method,
          amqpDecodeMethod 0x003C0050 [0, 0, 0, 0, 0, 0, 0, 7, 255] =
              .ok method ∧
            method.id.number = 0x003C0050 ∧
            method.wire.length ≤ [0, 0, 0, 0, 0, 0, 0, 7, 255].length ∧
            (method.wire.length < 2 ^ 31 → ∃ written size,
              amqpEncodeMethod method [0, 0, 0, 0, 0, 0, 0, 7, 255] =
                  .ok (written, size) ∧
                written.length = [0, 0, 0, 0, 0, 0, 0, 7, 255].length ∧
                amqpDecodeMethod 0x003C0050 written = .ok method) ∧
            (2 ^ 31 ≤ method.wire.length →
              amqpEncodeMethod method [0, 0, 0, 0, 0, 0, 0, 7, 255] =
                .error .negativeOffset) :=
  amqpDecodeMethod_accepts 0x003C0050 [0, 0, 0, 0, 0, 0, 0, 7, 255] (by decide)

/-! ## Content properties -/

/-- The flags as they are read back: bits 0 and 16 are those of the flag words
that say whether another word follows. -/
def normalFlags (flags : UInt32) : UInt32 :=
  if flags >>> 16 = 0 then
    flags &&& 0xFFFEFFFE
  else
    flags &&& 0xFFFEFFFE ||| 1

def flagsWire (flags : UInt32) : Bytes :=
  let partialFlags := flags.toUInt16 &&& 0xFFFE
  if flags >>> 16 = 0 then
    bigEndian 2 partialFlags.toNat
  else
    bigEndian 2 (partialFlags ||| 1).toNat ++
      bigEndian 2 ((flags >>> 16).toUInt16 &&& 0xFFFE).toNat

theorem writes_flags (flags : UInt32) :
    Writes (encodeFlags flags) (flagsWire flags) := by
  by_cases hone : flags >>> 16 = 0
  · have hword := writes_amqpEncode .badAmqpData (show 0 < 2 by decide)
      (flags.toUInt16 &&& 0xFFFE).toNat
    intro encoded offset
    simp only [encodeFlags, flagsWire, if_pos hone]
    exact hword encoded offset
  · have hfirst := writes_amqpEncode .badAmqpData (show 0 < 2 by decide)
      (flags.toUInt16 &&& 0xFFFE ||| 1).toNat
    have hsecond := writes_amqpEncode .badAmqpData (show 0 < 2 by decide)
      ((flags >>> 16).toUInt16 &&& 0xFFFE).toNat
    intro encoded offset
    simp only [encodeFlags, flagsWire, if_neg hone]
    exact (hfirst.andThen hsecond) encoded offset

theorem evenWord_and_one (word : UInt16) : word &&& 0xFFFE &&& 1 = 0 := by
  rw [UInt16.and_assoc]
  exact UInt16.and_zero

theorem oddWord_and_one (word : UInt16) :
    (word &&& 0xFFFE ||| 1) &&& 1 = 1 := by
  apply UInt16.toBitVec_inj.mp
  apply BitVec.eq_of_getLsbD_eq
  intro index hindex
  interval_cases index <;> simp

theorem oneWord_eq {flags : UInt32} (hone : flags >>> 16 = 0) :
    (flags.toUInt16 &&& 0xFFFE).toUInt32 = flags &&& 0xFFFEFFFE := by
  have hhigh : ∀ index, 16 ≤ index →
      flags.toBitVec.getLsbD index = false := by
    intro index hindex
    have hbit :=
      congrArg (fun word : UInt32 => word.toBitVec.getLsbD (index - 16)) hone
    simp only [UInt32.toBitVec_shiftRight, UInt32.toBitVec_ofNat] at hbit
    simp only [BitVec.reduceMod, BitVec.ushiftRight_eq',
      BitVec.getLsbD_ushiftRight, BitVec.getLsbD_zero] at hbit
    have hsum : BitVec.toNat 16#32 + (index - 16) = index := by
      simp only [BitVec.toNat_ofNat]
      omega
    rw [hsum] at hbit
    exact hbit
  apply UInt32.toBitVec_inj.mp
  apply BitVec.eq_of_getLsbD_eq
  intro index hindex
  simp only [UInt32.toBitVec_and, UInt16.toBitVec_toUInt32,
    UInt16.toBitVec_and, UInt32.toBitVec_toUInt16, BitVec.getLsbD_and,
    BitVec.getLsbD_setWidth]
  by_cases hlow : 16 ≤ index
  · simp [hhigh index hlow]
  · interval_cases index <;> simp

theorem twoWords_eq (flags : UInt32) :
    (flags.toUInt16 &&& 0xFFFE ||| 1).toUInt32 |||
        ((flags >>> 16).toUInt16 &&& 0xFFFE).toUInt32 <<< 16 =
      flags &&& 0xFFFEFFFE ||| 1 := by
  apply UInt32.toBitVec_inj.mp
  apply BitVec.eq_of_getLsbD_eq
  intro index hindex
  simp only [UInt32.toBitVec_or, UInt32.toBitVec_and,
    UInt16.toBitVec_toUInt32, UInt16.toBitVec_and, UInt16.toBitVec_or,
    UInt32.toBitVec_toUInt16, UInt32.toBitVec_shiftLeft,
    UInt32.toBitVec_shiftRight, BitVec.getLsbD_and, BitVec.getLsbD_setWidth,
    BitVec.getLsbD_or]
  interval_cases index <;> simp

theorem scans_flags (flags : UInt32) :
    Scans decodeFlags (flagsWire flags) (normalFlags flags) := by
  intro encoded offset hholds
  by_cases hone : flags >>> 16 = 0
  · simp only [flagsWire, if_pos hone] at hholds
    have hword :=
      scans_amqpDecode16 .badAmqpData (flags.toUInt16 &&& 0xFFFE) encoded
        offset hholds
    simp only [decodeFlags, hword, bind, Except.bind, evenWord_and_one,
      if_true, oneWord_eq hone, normalFlags, flagsWire, if_pos hone]
  · simp only [flagsWire, if_neg hone] at hholds
    obtain ⟨hfirst, hsecond⟩ := holds_append.mp hholds
    have hfirstRun :=
      scans_amqpDecode16 .badAmqpData (flags.toUInt16 &&& 0xFFFE ||| 1)
        encoded offset hfirst
    have hsecondRun :=
      scans_amqpDecode16 .badAmqpData ((flags >>> 16).toUInt16 &&& 0xFFFE)
        encoded _ hsecond
    have hodd : ¬ (1 : UInt16) = 0 := by decide
    simp only [decodeFlags, hfirstRun, bind, Except.bind, oddWord_and_one,
      if_neg hodd, hsecondRun, evenWord_and_one, if_true, twoWords_eq,
      normalFlags, flagsWire, if_neg hone, List.length_append, Nat.add_assoc]

/-- The flags of the properties come through. -/
theorem normalFlags_testBit
    (flags : UInt32) {bit : ℕ} (hlow : 1 ≤ bit) (hhigh : bit < 16) :
    (normalFlags flags).toNat.testBit bit = flags.toNat.testBit bit := by
  have hbits : ∀ word : UInt32, ∀ index,
      word.toNat.testBit index = word.toBitVec.getLsbD index := by
    intro word index
    rfl
  rw [hbits, hbits]
  unfold normalFlags
  split
  · rw [UInt32.toBitVec_and, BitVec.getLsbD_and]
    interval_cases bit <;> simp
  · rw [UInt32.toBitVec_or, UInt32.toBitVec_and, BitVec.getLsbD_or,
      BitVec.getLsbD_and]
    interval_cases bit <;> simp

theorem ContentClass.bit_range
    (contentClass : ContentClass) {property : ℕ × ArgKind}
    (hproperty : property ∈ contentClass.properties) :
    1 ≤ property.1 ∧ property.1 < 16 := by
  cases contentClass with
  | basic =>
      simp only [ContentClass.properties, List.mem_cons, List.not_mem_nil,
        or_false] at hproperty
      rcases hproperty with h | h | h | h | h | h | h | h | h | h | h | h | h | h
      all_goals
        subst h
        decide
  | connection | channel | access | exchange | queue | tx | confirm =>
      cases hproperty

theorem ContentClass.present_normalFlags
    (contentClass : ContentClass) (flags : UInt32) :
    contentClass.present flags = contentClass.present (normalFlags flags) := by
  unfold ContentClass.present
  apply List.filterMap_congr
  rintro ⟨bit, kind⟩ hproperty
  obtain ⟨hlow, hhigh⟩ := contentClass.bit_range hproperty
  simp only [and_shiftLeft_ne_zero, normalFlags_testBit flags hlow hhigh]

def Properties.wire (properties : Properties) : Bytes :=
  flagsWire properties.flags ++
    argsWire (properties.contentClass.present properties.flags)
      properties.decoded

def Properties.stringsFit (properties : Properties) : Bool :=
  argsStringsFit (properties.contentClass.present properties.flags)
    properties.decoded

def Properties.tablesFit (properties : Properties) : Bool :=
  argsTablesFit (properties.contentClass.present properties.flags)
    properties.decoded

/-- The same properties under the flags as they are read back. -/
def Properties.normal (properties : Properties) : Properties where
  contentClass := properties.contentClass
  flags := normalFlags properties.flags
  decoded := cast
    (congrArg Args
      (properties.contentClass.present_normalFlags properties.flags))
    properties.decoded

theorem Properties.normal_eq_self
    (properties : Properties)
    (hflags : normalFlags properties.flags = properties.flags) :
    properties.normal = properties := by
  obtain ⟨contentClass, flags, decoded⟩ := properties
  simp only [Properties.normal, Properties.mk.injEq, true_and]
  exact ⟨hflags, cast_heq _ _⟩

/-- The flags of properties lie in the first word, above its lowest bit. -/
theorem normalFlags_of_properties
    {flags : UInt32} (hflags : flags &&& 0xFFFF0001 = 0) :
    normalFlags flags = flags := by
  have hbit : ∀ index, index < 32 →
      (flags.toBitVec.getLsbD index &&
        BitVec.getLsbD 0xFFFF0001#32 index) = false := by
    intro index hindex
    have hzero :=
      congrArg (fun word : UInt32 => word.toBitVec.getLsbD index) hflags
    simpa using hzero
  have hone : flags >>> 16 = 0 := by
    apply UInt32.toBitVec_inj.mp
    apply BitVec.eq_of_getLsbD_eq
    intro index hindex
    by_cases hhigh : index < 16
    · have h := hbit (16 + index) (by omega)
      simp only [UInt32.toBitVec_shiftRight]
      interval_cases index <;> simpa using h
    · simp only [UInt32.toBitVec_shiftRight]
      simp only [UInt32.toBitVec_ofNat, BitVec.reduceMod,
        BitVec.ushiftRight_eq', BitVec.toNat_ofNat, Nat.reducePow,
        Nat.reduceMod, BitVec.getLsbD_ushiftRight, BitVec.getLsbD_zero]
      apply BitVec.getLsbD_of_ge
      omega
  rw [normalFlags, if_pos hone]
  apply UInt32.toBitVec_inj.mp
  apply BitVec.eq_of_getLsbD_eq
  intro index hindex
  have h := hbit index hindex
  rw [UInt32.toBitVec_and, BitVec.getLsbD_and]
  interval_cases index <;> simp at h ⊢ <;> exact h

theorem scans_args_cast
    {layout other : List ArgKind} (hlayout : layout = other)
    (values : Args layout) (hstrings : argsStringsFit layout values = true)
    (htables : argsTablesFit layout values = true) :
    Scans (decodeArgs other) (argsWire layout values)
      (cast (congrArg Args hlayout) values) := by
  subst hlayout
  exact scans_args layout values hstrings htables

theorem Properties.writes
    (properties : Properties) (hstrings : properties.stringsFit = true) :
    Writes
      (writeThen (encodeFlags properties.flags)
        (encodeArgs (properties.contentClass.present properties.flags)
          properties.decoded))
      properties.wire :=
  (writes_flags properties.flags).andThen (writes_args _ _ hstrings)

theorem amqpEncodeProperties_eq
    (properties : Properties) (hstrings : properties.stringsFit = true)
    (hint : properties.wire.length < 2 ^ 31) {encoded : Bytes}
    (hroom : properties.wire.length ≤ encoded.length) :
    amqpEncodeProperties properties encoded =
      .ok (splice encoded 0 properties.wire, properties.wire.length) :=
  returnOffset_run (properties.writes hstrings) hint hroom

theorem amqpEncodeProperties_ok_iff
    (properties : Properties) {encoded written : Bytes} {size : ℕ} :
    amqpEncodeProperties properties encoded = .ok (written, size) ↔
      (properties.stringsFit = true ∧
        properties.wire.length ≤ encoded.length ∧
          properties.wire.length % 2 ^ 32 < 2 ^ 31) ∧
        written = splice encoded 0 properties.wire ∧
          size = properties.wire.length % 2 ^ 32 := by
  cases hstrings : properties.stringsFit with
  | false =>
      obtain ⟨status, hstatus⟩ :
          ∃ status, amqpEncodeProperties properties encoded = .error status := by
        apply returnOffset_refuses
        cases hflags : encodeFlags properties.flags encoded 0 with
        | error status =>
            exact ⟨status, by simp [bind, Except.bind]⟩
        | ok result =>
            obtain ⟨status, hstatus⟩ :=
              encodeArgs_refuses _ _ hstrings result.1 result.2
            exact ⟨status, by simp [bind, Except.bind, hstatus]⟩
      simp only [hstatus, reduceCtorEq, false_and]
  | true =>
      simp only [true_and]
      exact returnOffset_ok_iff (properties.writes hstrings)

theorem amqpEncodeProperties_refuses
    (properties : Properties) {encoded : Bytes}
    (hrefused :
      ¬ (properties.stringsFit = true ∧
        properties.wire.length ≤ encoded.length ∧
          properties.wire.length % 2 ^ 32 < 2 ^ 31)) :
    ∃ status, amqpEncodeProperties properties encoded = .error status := by
  apply error_of_not_ok
  rintro ⟨written, size⟩ hok
  exact hrefused ((amqpEncodeProperties_ok_iff properties).mp hok).1

theorem amqpDecodeProperties_wire
    (properties : Properties) (hstrings : properties.stringsFit = true)
    (htables : properties.tablesFit = true) (rest : Bytes) :
    amqpDecodeProperties properties.contentClass.number
        (properties.wire ++ rest) = .ok properties.normal := by
  have hholds := holds_zero properties.wire rest
  obtain ⟨hflags, hargs⟩ := holds_append.mp hholds
  have hflagsRun := scans_flags properties.flags _ 0 hflags
  have hargsRun :=
    scans_args_cast
      (properties.contentClass.present_normalFlags properties.flags)
      properties.decoded hstrings htables _ _ hargs
  simp only [amqpDecodeProperties, hflagsRun, bind, Except.bind,
    ContentClass.ofNumber_number, hargsRun, Properties.normal]

/-- Properties whose tables fit are encoded exactly if their strings fit, there
is room and the length is not negative as an `int`.  They are decoded to
themselves but for flags no class has. -/
theorem amqpDecodeProperties_amqpEncodeProperties
    (properties : Properties) (htables : properties.tablesFit = true)
    (buffer : Bytes) :
    ((∃ written size,
        amqpEncodeProperties properties buffer = .ok (written, size)) ↔
      properties.stringsFit = true ∧
        properties.wire.length ≤ buffer.length ∧
          properties.wire.length % 2 ^ 32 < 2 ^ 31) ∧
    (∀ written size,
      amqpEncodeProperties properties buffer = .ok (written, size) →
      properties.wire.length < 2 ^ 32 →
      ∀ rest,
        amqpDecodeProperties properties.contentClass.number
          (written.take size ++ rest) = .ok properties.normal) ∧
    (properties.flags &&& 0xFFFF0001 = 0 → properties.normal = properties) := by
  refine ⟨?_, ?_, ?_⟩
  · constructor
    · rintro ⟨written, size, hencode⟩
      exact ((amqpEncodeProperties_ok_iff properties).mp hencode).1
    · intro haccepted
      exact ⟨_, _,
        (amqpEncodeProperties_ok_iff properties).mpr ⟨haccepted, rfl, rfl⟩⟩
  · intro written size hencode hshort rest
    obtain ⟨⟨hstrings, _⟩, hwritten, hsize⟩ :=
      (amqpEncodeProperties_ok_iff properties).mp hencode
    rw [Nat.mod_eq_of_lt hshort] at hsize
    have htake : written.take size = properties.wire := by
      rw [hwritten, hsize]
      simp [splice]
    rw [htake]
    exact amqpDecodeProperties_wire properties hstrings htables rest
  · intro hflags
    exact properties.normal_eq_self (normalFlags_of_properties hflags)

/-- Headers and the delivery mode, with bits 0, 16 and 17 set as well. -/
def headersProperties : Properties where
  contentClass := .basic
  flags := 0x00033001
  decoded := ([(['h'.toUInt8], .boolean true)], (2 : UInt8), ())

theorem amqpDecodeProperties_amqpEncodeProperties_headers :
    ((∃ written size,
        amqpEncodeProperties headersProperties (List.replicate 20 0) =
          .ok (written, size)) ↔
      headersProperties.stringsFit = true ∧
        headersProperties.wire.length ≤
            (List.replicate 20 (0 : UInt8)).length ∧
          headersProperties.wire.length % 2 ^ 32 < 2 ^ 31) ∧
    (∀ written size,
      amqpEncodeProperties headersProperties (List.replicate 20 0) =
        .ok (written, size) →
      headersProperties.wire.length < 2 ^ 32 →
      ∀ rest,
        amqpDecodeProperties headersProperties.contentClass.number
          (written.take size ++ rest) = .ok headersProperties.normal) ∧
    (headersProperties.flags &&& 0xFFFF0001 = 0 →
      headersProperties.normal = headersProperties) :=
  amqpDecodeProperties_amqpEncodeProperties headersProperties (by decide)
    (List.replicate 20 0)

end RabbitWork
