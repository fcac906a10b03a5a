import RabbitWork.MethodRoundTrip

/-!
# Frames as bytes

`amqp_frame_to_bytes` lays a frame out in the outbound buffer: type, channel,
the size of the payload, the payload and an end marker.  The last case of
`amqp_handle_input` takes such bytes apart again.

Both copy without checks where the library does.  A copy that would leave the
buffer and a length that would be negative are `undefinedBehaviour`.
-/

namespace RabbitWork

open Wire

/-- `HEADER_SIZE`: type, channel and size. -/
def headerSize : ℕ := 7

/-- `FOOTER_SIZE`. -/
def footerSize : ℕ := 1

/-- `AMQP_FRAME_END`. -/
def frameEnd : UInt8 := 206

/-- The member of `payload` that is valid for the type of a frame. -/
inductive FramePayload where
  | method (method : Method)
  | header (bodySize : UInt64) (properties : Properties)
  | body (bodyFragment : Bytes)
  | heartbeat
  | protocolHeader (transportHigh transportLow versionMajor versionMinor :
      UInt8)

/-- `amqp_frame_t`. -/
structure Frame where
  channel : UInt16
  payload : FramePayload

/-- `AMQP_FRAME_METHOD`, `_HEADER`, `_BODY`, `_HEARTBEAT` and
`AMQP_PSEUDOFRAME_PROTOCOL_HEADER`. -/
def FramePayload.frameType : FramePayload → UInt8
  | .method _ => 1
  | .header _ _ => 2
  | .body _ => 3
  | .heartbeat => 8
  | .protocolHeader _ _ _ _ => 'A'.toUInt8

/-! ## Writing -/

instance (buffer : Bytes) (offset : ℕ) (items : Bytes) :
    Decidable (Fits buffer offset items) :=
  inferInstanceAs
    (Decidable (items = [] ∨ offset + items.length ≤ buffer.length))

/-- `memcpy` and `amqp_e8` to `amqp_e64`, which check nothing. -/
def poke (items : Bytes) : Encoder := fun outFrame offset =>
  if Fits outFrame offset items then
    .ok (splice outFrame offset items, offset + items.length)
  else
    .error .undefinedBehaviour

/-- An encoder run on what is left of the buffer without the footer. -/
def encodeWithin (encode : Bytes → Except Status (Bytes × ℕ)) : Encoder :=
  fun outFrame offset =>
    if outFrame.length < offset + footerSize then
      .error .undefinedBehaviour
    else do
      let length := outFrame.length - offset - footerSize
      let (encoded, res) ← encode ((outFrame.drop offset).take length)
      .ok (splice outFrame offset encoded, offset + res)

/-- The switch of `amqp_frame_to_bytes`; its `out_frame_len` is how far the
offset moves. -/
def encodePayload : FramePayload → Encoder
  | .body body => poke body
  | .method method => fun outFrame offset => do
      let (outFrame, offset) ←
        poke (bigEndian 4 method.id.number.toNat) outFrame offset
      encodeWithin (amqpEncodeMethod method) outFrame offset
  | .header bodySize properties => fun outFrame offset => do
      let (outFrame, offset) ←
        poke (bigEndian 2 properties.contentClass.number.toNat) outFrame offset
      let (outFrame, offset) ← poke (bigEndian 2 0) outFrame offset
      let (outFrame, offset) ←
        poke (bigEndian 8 bodySize.toNat) outFrame offset
      encodeWithin (amqpEncodeProperties properties) outFrame offset
  | .heartbeat => fun outFrame offset => .ok (outFrame, offset)
  | .protocolHeader _ _ _ _ => fun _ _ => .error .invalidParameter

def amqpFrameToBytes (frame : Frame) (buffer : Bytes) :
    Except Status Bytes := do
  let (outFrame, _) ← poke (bigEndian 1 frame.payload.frameType.toNat) buffer 0
  let (outFrame, _) ← poke (bigEndian 2 frame.channel.toNat) outFrame 1
  let (outFrame, payloadEnd) ← encodePayload frame.payload outFrame headerSize
  let outFrameLen := payloadEnd - headerSize
  let (outFrame, _) ← poke (bigEndian 4 outFrameLen) outFrame 3
  let (outFrame, _) ← poke [frameEnd] outFrame (headerSize + outFrameLen)
  .ok (outFrame.take (outFrameLen + headerSize + footerSize))

/-! ## Reading -/

/-- `amqp_d8` to `amqp_d64`, which check nothing. -/
def amqpD (width : ℕ) (data : Bytes) (offset : ℕ) : ℕ :=
  ofBigEndian ((data.drop offset).take width)

/-- The bytes between the fixed part of a payload and the footer. -/
def encodedPart (rawFrame : Bytes) (targetSize offset : ℕ) : Bytes :=
  (rawFrame.drop offset).take (targetSize - offset - footerSize)

/-- The case `CONNECTION_STATE_BODY` of `amqp_handle_input`.  A frame of an
unknown type is ignored.  That a payload has its fixed part is not checked;
without it the length of the rest is negative, and bytes are read that the
frame does not have. -/
def decodeFrame (rawFrame : Bytes) (targetSize : ℕ) :
    Except Status (Option Frame) :=
  if amqpD 1 rawFrame (targetSize - 1) ≠ frameEnd.toNat then
    .error .badAmqpData
  else
    let channel := UInt16.ofNat (amqpD 2 rawFrame 1)
    match amqpD 1 rawFrame 0 with
    | 1 =>
        if targetSize ≤ headerSize + footerSize then
          .error .undefinedBehaviour
        else if targetSize < headerSize + 4 + footerSize then
          -- the footer is read as a byte of the number, see `ofNumber_frameEnd`
          .error .unknownMethod
        else do
          let id := UInt32.ofNat (amqpD 4 rawFrame headerSize)
          let method ← amqpDecodeMethod id
            (encodedPart rawFrame targetSize (headerSize + 4))
          .ok (some ⟨channel, .method method⟩)
    | 2 =>
        if targetSize < headerSize + 12 + footerSize then
          .error .undefinedBehaviour
        else do
          let classId := UInt16.ofNat (amqpD 2 rawFrame headerSize)
          let bodySize := UInt64.ofNat (amqpD 8 rawFrame (headerSize + 4))
          let properties ← amqpDecodeProperties classId
            (encodedPart rawFrame targetSize (headerSize + 12))
          .ok (some ⟨channel, .header bodySize properties⟩)
    | 3 =>
        if targetSize < headerSize + footerSize then
          .error .undefinedBehaviour
        else
          .ok (some ⟨channel,
            .body (encodedPart rawFrame targetSize headerSize)⟩)
    | 8 => .ok (some ⟨channel, .heartbeat⟩)
    | _ => .ok none

/-- No method has a number with the byte of the footer. -/
theorem MethodId.ofNumber_frameEnd
    {methodNumber : UInt32} {place : ℕ} (hplace : place < 4)
    (hbyte : methodNumber.toNat / 256 ^ place % 256 = frameEnd.toNat) :
    MethodId.ofNumber methodNumber = none := by
  have hnone (id : MethodId) :
      ∀ place < 4, id.number.toNat / 256 ^ place % 256 ≠ frameEnd.toNat := by
    cases id <;> decide
  cases hid : MethodId.ofNumber methodNumber with
  | none => rfl
  | some id =>
      rw [← MethodId.number_of_ofNumber hid] at hbyte
      exact (hnone id place hplace hbyte).elim

/-! ## The serialised form -/

def FramePayload.wire : FramePayload → Bytes
  | .method decoded => bigEndian 4 decoded.id.number.toNat ++ decoded.wire
  | .header bodySize properties =>
      bigEndian 2 properties.contentClass.number.toNat ++
        (bigEndian 2 0 ++ (bigEndian 8 bodySize.toNat ++ properties.wire))
  | .body bodyFragment => bodyFragment
  | .heartbeat => []
  | .protocolHeader _ _ _ _ => []

def Frame.wire (frame : Frame) : Bytes :=
  bigEndian 1 frame.payload.frameType.toNat ++
    (bigEndian 2 frame.channel.toNat ++
      (sizedWire frame.payload.wire ++ [frameEnd]))

/-- What the library checks before it sends a frame. -/
def FramePayload.stringsFit : FramePayload → Bool
  | .method decoded => decoded.stringsFit
  | .header _ properties => properties.stringsFit
  | .body _ => true
  | .heartbeat => true
  | .protocolHeader _ _ _ _ => false

/-- The `int` that the encoder of the payload returns is its length. -/
def FramePayload.lengthFits : FramePayload → Bool
  | .method decoded => decide (decoded.wire.length < 2 ^ 31)
  | .header _ properties => decide (properties.wire.length < 2 ^ 31)
  | _ => true

/-- The lengths of tables, arrays and their keys fit their length fields, which
the library does not check. -/
def FramePayload.tablesFit : FramePayload → Bool
  | .method decoded => decoded.tablesFit
  | .header _ properties => properties.tablesFit
  | _ => true

def FramePayload.normal : FramePayload → FramePayload
  | .header bodySize properties => .header bodySize properties.normal
  | payload => payload

/-- The frame as it is read back. -/
def Frame.normal (frame : Frame) : Frame :=
  { frame with payload := frame.payload.normal }

end RabbitWork
