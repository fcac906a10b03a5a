import RabbitWork.TableRoundTrip

/-!
# Methods and content properties

`amqp_framing.c` is generated: `amqp_encode_method` and `amqp_decode_method`
have a case for every method, which encodes or decodes its arguments one after
the other, each in one of a few ways.  A case is therefore a list of argument
kinds, and both functions walk along it.  Flags that follow each other share
one byte.

Properties of a content header are written the same way, after words of flags
that say which of them are there.
-/

namespace RabbitWork

open Wire

inductive ArgKind where
  | u8
  | u16
  | u32
  | u64
  | shortstr
  | longstr
  | bits (count : Fin 9)
  | table
  deriving DecidableEq, Repr

def ArgKind.Value : ArgKind → Type
  | .u8 => UInt8
  | .u16 => UInt16
  | .u32 => UInt32
  | .u64 => UInt64
  | .shortstr => Bytes
  | .longstr => Bytes
  | .bits count => Fin count → Bool
  | .table => List (Bytes × FieldValue)

/-- The members of a decoded method or of decoded properties. -/
def Args : List ArgKind → Type
  | [] => Unit
  | kind :: layout => kind.Value × Args layout

/-! ## The methods -/

inductive MethodId where
  | connectionStart
  | connectionStartOk
  | connectionSecure
  | connectionSecureOk
  | connectionTune
  | connectionTuneOk
  | connectionOpen
  | connectionOpenOk
  | connectionClose
  | connectionCloseOk
  | connectionBlocked
  | connectionUnblocked
  | channelOpen
  | channelOpenOk
  | channelFlow
  | channelFlowOk
  | channelClose
  | channelCloseOk
  | accessRequest
  | accessRequestOk
  | exchangeDeclare
  | exchangeDeclareOk
  | exchangeDelete
  | exchangeDeleteOk
  | exchangeBind
  | exchangeBindOk
  | exchangeUnbind
  | exchangeUnbindOk
  | queueDeclare
  | queueDeclareOk
  | queueBind
  | queueBindOk
  | queuePurge
  | queuePurgeOk
  | queueDelete
  | queueDeleteOk
  | queueUnbind
  | queueUnbindOk
  | basicQos
  | basicQosOk
  | basicConsume
  | basicConsumeOk
  | basicCancel
  | basicCancelOk
  | basicPublish
  | basicReturn
  | basicDeliver
  | basicGet
  | basicGetOk
  | basicGetEmpty
  | basicAck
  | basicReject
  | basicRecoverAsync
  | basicRecover
  | basicRecoverOk
  | basicNack
  | txSelect
  | txSelectOk
  | txCommit
  | txCommitOk
  | txRollback
  | txRollbackOk
  | confirmSelect
  | confirmSelectOk
  deriving DecidableEq, Repr

def MethodId.number : MethodId → UInt32
  | .connectionStart => 0x000A000A
  | .connectionStartOk => 0x000A000B
  | .connectionSecure => 0x000A0014
  | .connectionSecureOk => 0x000A0015
  | .connectionTune => 0x000A001E
  | .connectionTuneOk => 0x000A001F
  | .connectionOpen => 0x000A0028
  | .connectionOpenOk => 0x000A0029
  | .connectionClose => 0x000A0032
  | .connectionCloseOk => 0x000A0033
  | .connectionBlocked => 0x000A003C
  | .connectionUnblocked => 0x000A003D
  | .channelOpen => 0x0014000A
  | .channelOpenOk => 0x0014000B
  | .channelFlow => 0x00140014
  | .channelFlowOk => 0x00140015
  | .channelClose => 0x00140028
  | .channelCloseOk => 0x00140029
  | .accessRequest => 0x001E000A
  | .accessRequestOk => 0x001E000B
  | .exchangeDeclare => 0x0028000A
  | .exchangeDeclareOk => 0x0028000B
  | .exchangeDelete => 0x00280014
  | .exchangeDeleteOk => 0x00280015
  | .exchangeBind => 0x0028001E
  | .exchangeBindOk => 0x0028001F
  | .exchangeUnbind => 0x00280028
  | .exchangeUnbindOk => 0x00280033
  | .queueDeclare => 0x0032000A
  | .queueDeclareOk => 0x0032000B
  | .queueBind => 0x00320014
  | .queueBindOk => 0x00320015
  | .queuePurge => 0x0032001E
  | .queuePurgeOk => 0x0032001F
  | .queueDelete => 0x00320028
  | .queueDeleteOk => 0x00320029
  | .queueUnbind => 0x00320032
  | .queueUnbindOk => 0x00320033
  | .basicQos => 0x003C000A
  | .basicQosOk => 0x003C000B
  | .basicConsume => 0x003C0014
  | .basicConsumeOk => 0x003C0015
  | .basicCancel => 0x003C001E
  | .basicCancelOk => 0x003C001F
  | .basicPublish => 0x003C0028
  | .basicReturn => 0x003C0032
  | .basicDeliver => 0x003C003C
  | .basicGet => 0x003C0046
  | .basicGetOk => 0x003C0047
  | .basicGetEmpty => 0x003C0048
  | .basicAck => 0x003C0050
  | .basicReject => 0x003C005A
  | .basicRecoverAsync => 0x003C0064
  | .basicRecover => 0x003C006E
  | .basicRecoverOk => 0x003C006F
  | .basicNack => 0x003C0078
  | .txSelect => 0x005A000A
  | .txSelectOk => 0x005A000B
  | .txCommit => 0x005A0014
  | .txCommitOk => 0x005A0015
  | .txRollback => 0x005A001E
  | .txRollbackOk => 0x005A001F
  | .confirmSelect => 0x0055000A
  | .confirmSelectOk => 0x0055000B

def MethodId.all : List MethodId :=
  [.connectionStart, .connectionStartOk, .connectionSecure,
    .connectionSecureOk, .connectionTune, .connectionTuneOk, .connectionOpen,
    .connectionOpenOk, .connectionClose, .connectionCloseOk,
    .connectionBlocked, .connectionUnblocked, .channelOpen, .channelOpenOk,
    .channelFlow, .channelFlowOk, .channelClose, .channelCloseOk,
    .accessRequest, .accessRequestOk, .exchangeDeclare, .exchangeDeclareOk,
    .exchangeDelete, .exchangeDeleteOk, .exchangeBind, .exchangeBindOk,
    .exchangeUnbind, .exchangeUnbindOk, .queueDeclare, .queueDeclareOk,
    .queueBind, .queueBindOk, .queuePurge, .queuePurgeOk, .queueDelete,
    .queueDeleteOk, .queueUnbind, .queueUnbindOk, .basicQos, .basicQosOk,
    .basicConsume, .basicConsumeOk, .basicCancel, .basicCancelOk,
    .basicPublish, .basicReturn, .basicDeliver, .basicGet, .basicGetOk,
    .basicGetEmpty, .basicAck, .basicReject, .basicRecoverAsync,
    .basicRecover, .basicRecoverOk, .basicNack, .txSelect, .txSelectOk,
    .txCommit, .txCommitOk, .txRollback, .txRollbackOk, .confirmSelect,
    .confirmSelectOk]

def MethodId.layout : MethodId → List ArgKind
  | .connectionStart => [.u8, .u8, .table, .longstr, .longstr]
  | .connectionStartOk => [.table, .shortstr, .longstr, .shortstr]
  | .connectionSecure => [.longstr]
  | .connectionSecureOk => [.longstr]
  | .connectionTune => [.u16, .u32, .u16]
  | .connectionTuneOk => [.u16, .u32, .u16]
  | .connectionOpen => [.shortstr, .shortstr, .bits 1]
  | .connectionOpenOk => [.shortstr]
  | .connectionClose => [.u16, .shortstr, .u16, .u16]
  | .connectionCloseOk => []
  | .connectionBlocked => [.shortstr]
  | .connectionUnblocked => []
  | .channelOpen => [.shortstr]
  | .channelOpenOk => [.longstr]
  | .channelFlow => [.bits 1]
  | .channelFlowOk => [.bits 1]
  | .channelClose => [.u16, .shortstr, .u16, .u16]
  | .channelCloseOk => []
  | .accessRequest => [.shortstr, .bits 5]
  | .accessRequestOk => [.u16]
  | .exchangeDeclare => [.u16, .shortstr, .shortstr, .bits 5, .table]
  | .exchangeDeclareOk => []
  | .exchangeDelete => [.u16, .shortstr, .bits 2]
  | .exchangeDeleteOk => []
  | .exchangeBind => [.u16, .shortstr, .shortstr, .shortstr, .bits 1, .table]
  | .exchangeBindOk => []
  | .exchangeUnbind => [.u16, .shortstr, .shortstr, .shortstr, .bits 1, .table]
  | .exchangeUnbindOk => []
  | .queueDeclare => [.u16, .shortstr, .bits 5, .table]
  | .queueDeclareOk => [.shortstr, .u32, .u32]
  | .queueBind => [.u16, .shortstr, .shortstr, .shortstr, .bits 1, .table]
  | .queueBindOk => []
  | .queuePurge => [.u16, .shortstr, .bits 1]
  | .queuePurgeOk => [.u32]
  | .queueDelete => [.u16, .shortstr, .bits 3]
  | .queueDeleteOk => [.u32]
  | .queueUnbind => [.u16, .shortstr, .shortstr, .shortstr, .table]
  | .queueUnbindOk => []
  | .basicQos => [.u32, .u16, .bits 1]
  | .basicQosOk => []
  | .basicConsume => [.u16, .shortstr, .shortstr, .bits 4, .table]
  | .basicConsumeOk => [.shortstr]
  | .basicCancel => [.shortstr, .bits 1]
  | .basicCancelOk => [.shortstr]
  | .basicPublish => [.u16, .shortstr, .shortstr, .bits 2]
  | .basicReturn => [.u16, .shortstr, .shortstr, .shortstr]
  | .basicDeliver => [.shortstr, .u64, .bits 1, .shortstr, .shortstr]
  | .basicGet => [.u16, .shortstr, .bits 1]
  | .basicGetOk => [.u64, .bits 1, .shortstr, .shortstr, .u32]
  | .basicGetEmpty => [.shortstr]
  | .basicAck => [.u64, .bits 1]
  | .basicReject => [.u64, .bits 1]
  | .basicRecoverAsync => [.bits 1]
  | .basicRecover => [.bits 1]
  | .basicRecoverOk => []
  | .basicNack => [.u64, .bits 2]
  | .txSelect => []
  | .txSelectOk => []
  | .txCommit => []
  | .txCommitOk => []
  | .txRollback => []
  | .txRollbackOk => []
  | .confirmSelect => [.bits 1]
  | .confirmSelectOk => []

def MethodId.ofNumber (number : UInt32) : Option MethodId :=
  MethodId.all.find? fun id => id.number = number

@[simp] theorem MethodId.ofNumber_number (id : MethodId) :
    MethodId.ofNumber id.number = some id := by
  cases id <;> rfl

/-- `amqp_method_t`. -/
structure Method where
  id : MethodId
  decoded : Args id.layout

/-! ## Arguments -/

/-- `bit_buffer = 0` and an `if (m->flag) bit_buffer |= (1 << i)` for every
flag. -/
def bitBuffer : (count : ℕ) → (Fin count → Bool) → ℕ
  | 0, _ => 0
  | count + 1, flags =>
      let buffer := bitBuffer count fun index => flags index.castSucc
      if flags (Fin.last count) then buffer ||| 1 <<< count else buffer

def encodeArg : (kind : ArgKind) → kind.Value → Encoder
  | .u8, value => fun encoded offset =>
      orReturn .badAmqpData (amqpEncode8 value encoded offset)
  | .u16, value => fun encoded offset =>
      orReturn .badAmqpData (amqpEncode16 value encoded offset)
  | .u32, value => fun encoded offset =>
      orReturn .badAmqpData (amqpEncode32 value encoded offset)
  | .u64, value => fun encoded offset =>
      orReturn .badAmqpData (amqpEncode64 value encoded offset)
  | .shortstr, bytes => fun encoded offset =>
      if 255 < bytes.length then
        .error .badAmqpData
      else do
        let (encoded, offset) ← orReturn .badAmqpData
          (amqpEncode8 (UInt8.ofNat bytes.length) encoded offset)
        orReturn .badAmqpData (amqpEncodeBytes bytes encoded offset)
  | .longstr, bytes => fun encoded offset =>
      if 4294967295 < bytes.length then
        .error .badAmqpData
      else do
        let (encoded, offset) ← orReturn .badAmqpData
          (amqpEncode32 (UInt32.ofNat bytes.length) encoded offset)
        orReturn .badAmqpData (amqpEncodeBytes bytes encoded offset)
  | .bits count, flags => fun encoded offset =>
      orReturn .badAmqpData
        (amqpEncode8 (UInt8.ofNat (bitBuffer count flags)) encoded offset)
  | .table, entries => amqpEncodeTable entries

def encodeArgs : (layout : List ArgKind) → Args layout → Encoder
  | [], _ => fun encoded offset => .ok (encoded, offset)
  | kind :: layout, (value, values) => fun encoded offset => do
      let (encoded, offset) ← encodeArg kind value encoded offset
      encodeArgs layout values encoded offset

def decodeArg : (kind : ArgKind) → Decoder kind.Value
  | .u8 => fun encoded offset =>
      orReturn .badAmqpData (amqpDecode8 encoded offset)
  | .u16 => fun encoded offset =>
      orReturn .badAmqpData (amqpDecode16 encoded offset)
  | .u32 => fun encoded offset =>
      orReturn .badAmqpData (amqpDecode32 encoded offset)
  | .u64 => fun encoded offset =>
      orReturn .badAmqpData (amqpDecode64 encoded offset)
  | .shortstr => fun encoded offset => do
      let (length, offset) ← orReturn .badAmqpData (amqpDecode8 encoded offset)
      orReturn .badAmqpData (amqpDecodeBytes length.toNat encoded offset)
  | .longstr => decodeLongBytes
  | .bits _ => fun encoded offset => do
      let (buffer, offset) ← orReturn .badAmqpData (amqpDecode8 encoded offset)
      .ok (fun index => buffer.toNat &&& 1 <<< index.val ≠ 0, offset)
  | .table => amqpDecodeTable

def decodeArgs : (layout : List ArgKind) → Decoder (Args layout)
  | [] => fun _ offset => .ok ((), offset)
  | kind :: layout => fun encoded offset => do
      let (value, offset) ← decodeArg kind encoded offset
      let (values, offset) ← decodeArgs layout encoded offset
      .ok ((value, values), offset)

/-- `amqp_encode_method`: the buffer and the number of bytes written. -/
def amqpEncodeMethod (method : Method) : Bytes → Except Status (Bytes × ℕ) :=
  returnOffset (encodeArgs method.id.layout method.decoded)

/-- Bytes after the last argument are not looked at. -/
def amqpDecodeMethod (methodNumber : UInt32) (encoded : Bytes) :
    Except Status Method :=
  match MethodId.ofNumber methodNumber with
  | none => .error .unknownMethod
  | some id => do
      let (decoded, _) ← decodeArgs id.layout encoded 0
      .ok ⟨id, decoded⟩

/-! ## Content properties -/

/-- The classes `amqp_decode_properties` knows. -/
inductive ContentClass where
  | connection
  | channel
  | access
  | exchange
  | queue
  | basic
  | tx
  | confirm
  deriving DecidableEq, Repr

def ContentClass.number : ContentClass → UInt16
  | .connection => 10
  | .channel => 20
  | .access => 30
  | .exchange => 40
  | .queue => 50
  | .basic => 60
  | .tx => 90
  | .confirm => 85

def ContentClass.all : List ContentClass :=
  [.connection, .channel, .access, .exchange, .queue, .basic, .tx, .confirm]

def ContentClass.ofNumber (number : UInt16) : Option ContentClass :=
  ContentClass.all.find? fun contentClass => contentClass.number = number

@[simp] theorem ContentClass.ofNumber_number (contentClass : ContentClass) :
    ContentClass.ofNumber contentClass.number = some contentClass := by
  cases contentClass <;> rfl

/-- The bit of each property's flag, `AMQP_BASIC_CONTENT_TYPE_FLAG` being
`1 << 15`, and its kind. -/
def ContentClass.properties : ContentClass → List (ℕ × ArgKind)
  | .basic =>
      [(15, .shortstr), (14, .shortstr), (13, .table), (12, .u8), (11, .u8),
        (10, .shortstr), (9, .shortstr), (8, .shortstr), (7, .shortstr),
        (6, .u64), (5, .shortstr), (4, .shortstr), (3, .shortstr),
        (2, .shortstr)]
  | _ => []

/-- The kinds of the properties that are there. -/
def ContentClass.present (contentClass : ContentClass) (flags : UInt32) :
    List ArgKind :=
  contentClass.properties.filterMap fun (bit, kind) =>
    if flags.toNat &&& 1 <<< bit ≠ 0 then some kind else none

/-- `amqp_basic_properties_t` and its likes; members whose flag is not set are
neither written nor read. -/
structure Properties where
  contentClass : ContentClass
  flags : UInt32
  decoded : Args (contentClass.present flags)

/-- The flag words.  Nothing is left of 32 bits after two words. -/
def encodeFlags (flags : UInt32) : Encoder := fun encoded offset =>
  let remainder := flags >>> 16
  let partialFlags := flags.toUInt16 &&& 0xFFFE
  if remainder = 0 then
    orReturn .badAmqpData (amqpEncode16 partialFlags encoded offset)
  else do
    let (encoded, offset) ← orReturn .badAmqpData
      (amqpEncode16 (partialFlags ||| 1) encoded offset)
    orReturn .badAmqpData
      (amqpEncode16 (remainder.toUInt16 &&& 0xFFFE) encoded offset)

/-- The flag words.  A third word would be shifted by the width of the
flags. -/
def decodeFlags : Decoder UInt32 := fun encoded offset => do
  let (first, offset) ← orReturn .badAmqpData (amqpDecode16 encoded offset)
  if first &&& 1 = 0 then
    .ok (first.toUInt32, offset)
  else
    let (second, offset) ← orReturn .badAmqpData (amqpDecode16 encoded offset)
    if second &&& 1 = 0 then
      .ok (first.toUInt32 ||| second.toUInt32 <<< 16, offset)
    else
      let (_, _) ← orReturn .badAmqpData (amqpDecode16 encoded offset)
      .error .undefinedBehaviour

def amqpEncodeProperties (properties : Properties) :
    Bytes → Except Status (Bytes × ℕ) :=
  returnOffset fun encoded offset => do
    let (encoded, offset) ← encodeFlags properties.flags encoded offset
    encodeArgs (properties.contentClass.present properties.flags)
      properties.decoded encoded offset

def amqpDecodeProperties (classId : UInt16) (encoded : Bytes) :
    Except Status Properties := do
  let (flags, offset) ← decodeFlags encoded 0
  match ContentClass.ofNumber classId with
  | none => .error .unknownClass
  | some contentClass => do
      let (decoded, _) ← decodeArgs (contentClass.present flags) encoded offset
      .ok ⟨contentClass, flags, decoded⟩

end RabbitWork
