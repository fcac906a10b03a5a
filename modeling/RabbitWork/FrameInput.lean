import RabbitWork.FrameRoundTrip
import RabbitWork.StreamSplitting

/-!
# Receiving frames

`amqp_handle_input` collects the bytes a connection receives.  Seven bytes are
collected in a buffer of the connection; they give the size of the frame, for
which a block of a pool is allocated.  A new connection collects eight bytes,
because the server may send the eight bytes of a protocol header.

The size of the frame is computed in 32 bits and `consume_data` computes in 64
bits what is missing; both wrap.
-/

namespace RabbitWork

open Wire Splitting

/-- `amqp_connection_state_enum`. -/
inductive ConnectionState where
  | idle
  | initial
  | header
  | body
  deriving DecidableEq, Repr

/-- The members of `amqp_connection_state_t_` that `amqp_handle_input` uses.
`inbound_buffer` is the header buffer or a block of a pool. -/
structure InputState where
  state : ConnectionState
  frameMax : ℕ
  headerBuffer : Bytes
  inboundBlock : Option Bytes
  inboundOffset : ℕ
  targetSize : ℕ
  deriving DecidableEq

/-- What `amqp_new_connection` sets. -/
def amqpNewConnection (frameMax : ℕ) : InputState where
  state := .initial
  frameMax := frameMax
  headerBuffer := List.replicate (headerSize + 1) 0
  inboundBlock := none
  inboundOffset := 0
  targetSize := 8

namespace InputState

def inboundBuffer (state : InputState) : Bytes :=
  state.inboundBlock.getD state.headerBuffer

/-- The connection after a write through `inbound_buffer`. -/
def overwrite (state : InputState) (buffer : Bytes) : InputState :=
  match state.inboundBlock with
  | none => { state with headerBuffer := buffer }
  | some _ => { state with inboundBlock := some buffer }

def returnToIdle (state : InputState) : InputState :=
  { state with
    inboundBlock := none
    inboundOffset := 0
    targetSize := headerSize
    state := .idle }

/-- How many bytes have been consumed; the rest stays in `received_data`. -/
def consumeData (state : InputState) (received : Bytes) :
    Except Status (InputState × ℕ) := do
  let missing := (2 ^ 64 + state.targetSize - state.inboundOffset) % 2 ^ 64
  let bytesConsumed := min missing received.length
  let (buffer, inboundOffset) ←
    poke (received.take bytesConsumed) state.inboundBuffer state.inboundOffset
  .ok ({ state.overwrite buffer with inboundOffset := inboundOffset },
    bytesConsumed)

end InputState

/-- Blocks of a pool are multiples of eight bytes. -/
def roundUp (amount : ℕ) : ℕ := (amount + 7) / 8 * 8

/-- The result of a call: how many bytes it has consumed, and the frame if
`frame_type` is not 0. -/
abbrev InputResult := InputState × Except Status (ℕ × Option Frame)

/-- `case CONNECTION_STATE_BODY`. -/
def frameComplete (state : InputState) (bytesConsumed : ℕ) : InputResult :=
  match decodeFrame state.inboundBuffer state.targetSize with
  | .error status => (state, .error status)
  | .ok frame => (state.returnToIdle, .ok (bytesConsumed, frame))

/-- `target_size` of the frame whose first bytes these are. -/
def frameTarget (rawFrame : Bytes) : ℕ :=
  (amqpD 4 rawFrame 3 + headerSize + footerSize) % 2 ^ 32

/-- Consume what belongs to the frame and complete it if that was all. -/
def fillFrame (state : InputState) (received : Bytes) (bytesConsumed : ℕ) :
    InputResult :=
  match state.consumeData received with
  | .error status => (state, .error status)
  | .ok (state, more) =>
      if state.inboundOffset < state.targetSize then
        (state, .ok (bytesConsumed + more, none))
      else
        frameComplete state (bytesConsumed + more)

/-- `case CONNECTION_STATE_HEADER`.  The block of a fresh pool is zero; a
recycled block is not, but no byte of it is read that has not been written,
except the eighth of the first frame of a connection. -/
def frameStarted (state : InputState) (received : Bytes)
    (bytesConsumed : ℕ) : InputResult :=
  let targetSize := frameTarget state.inboundBuffer
  let state := { state with targetSize := targetSize }
  if state.frameMax < targetSize then
    (state, .error .badAmqpData)
  else if targetSize = 0 then
    ({ state with inboundBlock := some [] }, .error .noMemory)
  else
    let block := List.replicate (roundUp targetSize) 0
    fillFrame
      { state with
        inboundBlock := some
          (splice block 0 (state.headerBuffer.take headerSize))
        state := .body }
      received bytesConsumed

/-- `"AMQP"`. -/
def protocolName : Bytes :=
  ['A'.toUInt8, 'M'.toUInt8, 'Q'.toUInt8, 'P'.toUInt8]

def protocolHeaderFrame (rawFrame : Bytes) : Frame where
  channel := 0
  payload := .protocolHeader (UInt8.ofNat (amqpD 1 rawFrame 4))
    (UInt8.ofNat (amqpD 1 rawFrame 5)) (UInt8.ofNat (amqpD 1 rawFrame 6))
    (UInt8.ofNat (amqpD 1 rawFrame 7))

def amqpHandleInput (state : InputState) (received : Bytes) : InputResult :=
  if received.length = 0 then
    (state, .ok (0, none))
  else
    let state :=
      if state.state = .idle then { state with state := .header } else state
    match state.consumeData received with
    | .error status => (state, .error status)
    | .ok (state, bytesConsumed) =>
        if state.inboundOffset < state.targetSize then
          (state, .ok (bytesConsumed, none))
        else
          match state.state with
          | .initial =>
              if state.inboundBuffer.take 4 = protocolName then
                (state.returnToIdle,
                  .ok (bytesConsumed,
                    some (protocolHeaderFrame state.inboundBuffer)))
              else
                frameStarted state (received.drop bytesConsumed) bytesConsumed
          | .header =>
              frameStarted state (received.drop bytesConsumed) bytesConsumed
          | .body => frameComplete state bytesConsumed
          | .idle => (state, .error .aborted)

/-! ## The stream -/

/-- Whether anything of the stream has been read. -/
inductive StreamMode where
  | first
  | later
  deriving DecidableEq, Repr

/-- How many bytes tell the size of a frame. -/
def StreamMode.collected : StreamMode → ℕ
  | .first => 8
  | .later => 7

/-- The frame that is taken apart.  Of the eight bytes the first frame begins
with, seven are copied into its block. -/
def StreamMode.raw : StreamMode → Bytes → Bytes
  | .first, rawFrame => splice rawFrame headerSize [0]
  | .later, rawFrame => rawFrame

def frontOfDecoded (count : ℕ) :
    Except Status (Option Frame) → Front StreamMode Frame Status
  | .error status => .fault status
  | .ok frame => .cut frame .later count

/-- What stands at the front of a stream of bytes.  Where the size of a frame
wraps below its own header, what happens depends on how the bytes arrive. -/
def frameFront (frameMax : ℕ) (mode : StreamMode) (stream : Bytes) :
    Front StreamMode Frame Status :=
  if stream.length < mode.collected then
    .more
  else if mode = .first ∧ stream.take 4 = protocolName then
    .cut (some (protocolHeaderFrame stream)) .later 8
  else if frameMax < frameTarget stream then
    .fault .badAmqpData
  else if frameTarget stream = 0 then
    .fault .noMemory
  else if frameTarget stream < mode.collected then
    .fault .undefinedBehaviour
  else if stream.length < frameTarget stream then
    .more
  else
    frontOfDecoded (frameTarget stream)
      (decodeFrame (mode.raw (stream.take (frameTarget stream)))
        (frameTarget stream))

/-! ## What the front depends on -/

theorem amqpD_take
    {width offset count : ℕ} (data : Bytes) (hcount : offset + width ≤ count) :
    amqpD width (data.take count) offset = amqpD width data offset := by
  unfold amqpD
  rw [List.drop_take, List.take_take]
  congr 2
  omega

theorem amqpD_append
    {width offset : ℕ} {data : Bytes} (rest : Bytes)
    (hdata : offset + width ≤ data.length) :
    amqpD width (data ++ rest) offset = amqpD width data offset := by
  have htake := amqpD_take (data ++ rest) hdata
  rw [← htake, List.take_left' rfl]

theorem frameTarget_append
    {stream : Bytes} (rest : Bytes) (hstream : headerSize ≤ stream.length) :
    frameTarget (stream ++ rest) = frameTarget stream := by
  unfold frameTarget
  rw [amqpD_append rest hstream]

theorem frameTarget_lt (stream : Bytes) : frameTarget stream < 2 ^ 32 :=
  Nat.mod_lt _ (by decide)

theorem StreamMode.headerSize_le (mode : StreamMode) :
    headerSize ≤ mode.collected := by
  cases mode <;> decide

theorem StreamMode.collected_le (mode : StreamMode) : mode.collected ≤ 8 := by
  cases mode <;> decide

theorem protocolHeaderFrame_take
    {count : ℕ} (stream : Bytes) (hcount : 8 ≤ count) :
    protocolHeaderFrame (stream.take count) = protocolHeaderFrame stream := by
  have hbyte : ∀ offset, offset < 8 →
      amqpD 1 (stream.take count) offset = amqpD 1 stream offset := by
    intro offset hoffset
    exact amqpD_take stream (by omega)
  unfold protocolHeaderFrame
  rw [hbyte 4 (by omega), hbyte 5 (by omega), hbyte 6 (by omega),
    hbyte 7 (by omega)]

theorem protocolHeaderFrame_append
    {stream : Bytes} (rest : Bytes) (hstream : 8 ≤ stream.length) :
    protocolHeaderFrame (stream ++ rest) = protocolHeaderFrame stream := by
  have htake := protocolHeaderFrame_take (stream ++ rest) hstream
  rw [← htake, List.take_left' rfl]

/-- Once the stream has more than its front, the front stays. -/
theorem frameFront_append
    (frameMax : ℕ) (mode : StreamMode) {stream : Bytes} (rest : Bytes)
    (hfront : frameFront frameMax mode stream ≠ .more) :
    frameFront frameMax mode (stream ++ rest) =
      frameFront frameMax mode stream := by
  have hcollected : ¬ stream.length < mode.collected := by
    intro hshort
    exact hfront (if_pos hshort)
  have hmode := mode.headerSize_le
  have hlonger : ¬ (stream ++ rest).length < mode.collected := by
    rw [List.length_append]
    omega
  have hheader : headerSize ≤ stream.length := by omega
  have htarget := frameTarget_append rest hheader
  have hname : (stream ++ rest).take 4 = stream.take 4 := by
    apply List.take_append_of_le_length
    unfold headerSize at hmode
    omega
  unfold frameFront at hfront ⊢
  rw [if_neg hcollected] at hfront ⊢
  rw [if_neg hlonger, htarget, hname]
  by_cases hprotocol : mode = .first ∧ stream.take 4 = protocolName
  · have hfirst : 8 ≤ stream.length := by
      have hmode := hprotocol.1
      subst hmode
      exact not_lt.mp hcollected
    rw [if_pos hprotocol, if_pos hprotocol,
      protocolHeaderFrame_append rest hfirst]
  · rw [if_neg hprotocol] at hfront ⊢
    rw [if_neg hprotocol]
    by_cases hmax : frameMax < frameTarget stream
    · rw [if_pos hmax, if_pos hmax]
    · rw [if_neg hmax] at hfront ⊢
      rw [if_neg hmax]
      by_cases hzero : frameTarget stream = 0
      · rw [if_pos hzero, if_pos hzero]
      · rw [if_neg hzero] at hfront ⊢
        rw [if_neg hzero]
        by_cases hwrapped : frameTarget stream < mode.collected
        · rw [if_pos hwrapped, if_pos hwrapped]
        · rw [if_neg hwrapped] at hfront ⊢
          rw [if_neg hwrapped]
          by_cases hshort : stream.length < frameTarget stream
          · exact (hfront (if_pos hshort)).elim
          · have hlong : ¬ (stream ++ rest).length < frameTarget stream := by
              rw [List.length_append]
              omega
            rw [if_neg hshort, if_neg hlong,
              List.take_append_of_le_length (not_lt.mp hshort)]

theorem frameFront_cut
    {frameMax : ℕ} {mode next : StreamMode} {stream : Bytes}
    {output : Option Frame} {count : ℕ}
    (hfront : frameFront frameMax mode stream = .cut output next count) :
    0 < count ∧ count ≤ stream.length ∧ next = .later := by
  have hmode := mode.headerSize_le
  unfold headerSize at hmode
  unfold frameFront at hfront
  split at hfront
  · cases hfront
  · split at hfront
    · rename_i hcollected hprotocol
      have hfirst := hprotocol.1
      subst hfirst
      cases hfront
      exact ⟨by omega, not_lt.mp hcollected, rfl⟩
    · split at hfront
      · cases hfront
      · split at hfront
        · cases hfront
        · split at hfront
          · cases hfront
          · split at hfront
            · cases hfront
            · cases hdecoded : decodeFrame
                  (mode.raw (stream.take (frameTarget stream)))
                  (frameTarget stream) with
              | error status =>
                  rw [hdecoded] at hfront
                  cases hfront
              | ok frame =>
                  rw [hdecoded] at hfront
                  cases hfront
                  exact ⟨by omega, by omega, rfl⟩

/-- The units of the bytes a server sends. -/
def frameSplitter (frameMax : ℕ) :
    Splitter UInt8 StreamMode Frame Status where
  front := frameFront frameMax
  front_nil := by
    intro mode
    cases mode <;> rfl
  cut_pos := by
    intro mode stream output next count hfront
    exact (frameFront_cut hfront).1
  cut_le := by
    intro mode stream output next count hfront
    exact (frameFront_cut hfront).2.1
  cut_append := by
    intro mode stream output next count rest hfront
    rw [frameFront_append frameMax mode rest (by rw [hfront]; nofun), hfront]
  fault_append := by
    intro mode stream error rest hfront
    rw [frameFront_append frameMax mode rest (by rw [hfront]; nofun), hfront]

theorem frameSplitter_front (frameMax : ℕ) :
    (frameSplitter frameMax).front = frameFront frameMax :=
  rfl

end RabbitWork
