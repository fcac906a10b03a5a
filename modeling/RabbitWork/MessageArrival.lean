import RabbitWork.ConsumerRun
import RabbitWork.FrameQueue

/-!
# Messages arrive at the consumer loop

The consumer loop reads results of `amqp_simple_wait_frame`.  Here the results
are those of the bytes that arrive: the frames of the connection, as the loop
sees them, without heartbeats and with the queue first.  So what the loop does
on a stream of results it does on the bytes of a broker, however they arrive.
-/

namespace RabbitWork

open Wire Splitting Reading

/-! ## Results of waiting -/

/-- The members of `payload.method` the loop reads. -/
def Method.view (method : Method) : Payload :=
  match method with
  | ⟨.basicDeliver, (_, deliveryTag, _)⟩ =>
      .basicDeliver (UInt64.toNat deliveryTag)
  | ⟨id, _⟩ => .otherMethod id.number.toNat

def FramePayload.view : FramePayload → Payload
  | .method decoded => decoded.view
  | .header bodySize _ => .header bodySize.toNat
  | .body bodyFragment => .body bodyFragment
  | .heartbeat => .otherType 8
  | .protocolHeader _ _ _ _ => .otherType 65

/-- What the loop sees of a frame. -/
def Frame.view (frame : Frame) : AmqpFrame :=
  ⟨frame.channel.toNat, frame.payload.view⟩

/-- The negative statuses of `amqp_status_enum`; those that are none of the
source have no code of their own. -/
def Status.code : Status → ℕ
  | .noMemory => 0x0001 - 1
  | .badAmqpData => 0x0002 - 1
  | .unknownClass => 0x0003 - 1
  | .unknownMethod => 0x0004 - 1
  | .invalidParameter => 0x000A - 1
  | .tableTooBig => 0x000B - 1
  | .negativeOffset | .aborted | .undefinedBehaviour | .outOfFuel => 0

def WaitError.code : WaitError → ℕ
  | .decoder status => status.code
  | .socket code => code

/-- The results of this many calls of `amqp_simple_wait_frame`, or of all
calls before one blocks. -/
def waitResults : ℕ → SocketState → List WaitResult
  | 0, _ => []
  | calls + 1, conn =>
      match simpleWaitFrame conn with
      | none => []
      | some (.ok frame, conn) => .frame frame.view :: waitResults calls conn
      | some (.error error, conn) =>
          .failed error.code :: waitResults calls conn

theorem queuedBefore_nil : queuedBefore [] = [] := rfl

/-- The calls return the queued frames and then those that arrive. -/
theorem waitResults_pending
    (calls : ℕ) {conn : SocketState} {frames : List Frame}
    (hpending : Pending conn frames none)
    (hincoming : NoFailure conn.incoming) :
    waitResults calls conn =
      ((conn.queued ++ queuedBefore frames).map
        fun frame => .frame frame.view).take calls := by
  induction calls generalizing conn frames with
  | zero => rfl
  | succ calls ih =>
      cases hqueued : conn.queued with
      | cons frame queued =>
          have hrun :
              simpleWaitFrame conn =
                some (.ok frame, { conn with queued := queued }) := by
            simp only [simpleWaitFrame, hqueued]
          have hrest := ih (hpending.of_queue queued) hincoming
          simp only [waitResults, hrun, hrest, List.cons_append, List.map_cons,
            List.take_succ_cons]
      | nil =>
          have hrun : simpleWaitFrame conn = waitFrameInner conn := by
            simp only [simpleWaitFrame, hqueued]
          have hwaited := waitFrameInner_pending hpending
          cases hwait : waitFrameInner conn with
          | none =>
              rw [hwait] at hwaited
              cases hwaited with
              | blocked hbeats =>
                  have hnone := queuedBefore_beats hbeats []
                  rw [List.append_nil] at hnone
                  simp [waitResults, hrun, hwait, hnone, queuedBefore_nil]
          | some waited =>
              obtain ⟨result, after⟩ := waited
              have hnoFailure :=
                waitArrivals_noFailure conn.incoming hincoming hwait
              rw [hwait] at hwaited
              cases hwaited with
              | refused hbeats hsame herror => cases herror
              | failed => exact (hnoFailure.2 _ rfl).elim
              | @frame _ beats rest frame hbeats hframe hsame hafter =>
                  have hrest := ih hafter hnoFailure.1
                  have hfirst :
                      queuedBefore (frame :: rest) =
                        frame :: queuedBefore rest := by
                    simp [queuedBefore, hframe]
                  rw [hsame, hqueued, List.nil_append] at hrest
                  simp only [waitResults, hrun, hwait, hrest, List.nil_append,
                    queuedBefore_beats hbeats, hfirst, List.map_cons,
                    List.take_succ_cons]

/-! ## Messages on the wire -/

/-- A message as a broker sends it. -/
structure WireMessage where
  channel : UInt16
  consumerTag : Bytes
  deliveryTag : UInt64
  redelivered : Bool
  exchange : Bytes
  routingKey : Bytes
  properties : Properties
  body : Bytes
  bodyFits : body.length < 2 ^ 64
  cut : Fragmentation body

namespace WireMessage

variable (message : WireMessage)

def deliver : Method where
  id := .basicDeliver
  decoded :=
    (message.consumerTag, message.deliveryTag, fun _ => message.redelivered,
      message.exchange, message.routingKey, ())

def frames : List Frame :=
  ⟨message.channel, .method message.deliver⟩ ::
    ⟨message.channel,
      .header (UInt64.ofNat message.body.length) message.properties⟩ ::
    message.cut.fragments.map fun bodyFragment =>
      ⟨message.channel, .body bodyFragment⟩

def unit : DeliveryUnit :=
  message.cut.unit message.channel.toNat message.deliveryTag.toNat

theorem view_frames :
    (message.frames.map fun frame => WaitResult.frame frame.view) =
      message.unit.results := by
  have hsize :
      (UInt64.ofNat message.body.length).toNat = message.body.length := by
    rw [UInt64.toNat_ofNat']
    exact Nat.mod_eq_of_lt message.bodyFits
  have hbodies :
      (message.cut.fragments.map fun bodyFragment =>
          (⟨message.channel, .body bodyFragment⟩ : Frame)).map
        (fun frame => WaitResult.frame frame.view) =
      message.cut.fragments.map fun bytes =>
        BodyFrame.result ⟨message.channel.toNat, bytes⟩ := by
    rw [List.map_map]
    rfl
  have hheader :
      WaitResult.frame
          (Frame.view ⟨message.channel,
            .header (UInt64.ofNat message.body.length)
              message.properties⟩) =
        headerResult message.channel.toNat message.body.length := by
    simp only [Frame.view, FramePayload.view, hsize, headerResult]
  rw [unit, Fragmentation.unit_results, frames, List.map_cons, List.map_cons,
    hbodies, hheader]
  rfl

end WireMessage

theorem view_flatMap_frames (messages : List WireMessage) :
    ((messages.flatMap WireMessage.frames).map
        fun frame => WaitResult.frame frame.view) =
      (messages.map WireMessage.unit).flatMap DeliveryUnit.results := by
  induction messages with
  | nil => rfl
  | cons message messages ih =>
      rw [List.flatMap_cons, List.map_append, ih, message.view_frames]
      rfl

theorem view_normal (frame : Frame) : frame.normal.view = frame.view := by
  obtain ⟨channel, payload⟩ := frame
  cases payload <;> rfl

theorem queuedBefore_normal (frames : List Frame) :
    queuedBefore (frames.map Frame.normal) =
      (queuedBefore frames).map Frame.normal := by
  have hbeat : ∀ frame : Frame,
      frame.normal.isHeartbeat = frame.isHeartbeat := by
    intro frame
    obtain ⟨channel, payload⟩ := frame
    cases payload <;> rfl
  unfold queuedBefore
  rw [List.filter_map]
  congr 1
  apply List.filter_congr
  intro frame _
  simp only [Function.comp_apply, hbeat]

/-! ## The loop on the bytes -/

/-- The loop on whole messages hands over their fragments and acknowledges
them, each on the channel it was started for. -/
theorem reandMqMessage_units
    (channel : ℕ) (messages : List WireMessage) :
    let actions :=
      loopTrace recveiveCopy id channel
        ((messages.map WireMessage.unit).flatMap DeliveryUnit.results)
    handedOver actions =
        messages.flatMap (fun message => message.cut.fragments) ∧
      acked actions =
        messages.map fun message => (channel, message.deliveryTag.toNat) := by
  intro actions
  have hactions :
      actions =
        (messages.map WireMessage.unit).flatMap
          (DeliveryUnit.actions channel) :=
    (consumerLoop_units recveiveCopy channel _).1
  have hfragments : ∀ message : WireMessage,
      message.unit.fragments.map BodyFrame.bodyFragment =
        message.cut.fragments := by
    intro message
    simp [WireMessage.unit, Fragmentation.unit, Function.comp_def]
  constructor
  · rw [hactions, handedOver_flatMap_actions, List.flatMap_map]
    apply List.flatMap_congr
    intro message _
    exact hfragments message
  · rw [hactions, acked_flatMap_actions, List.map_map]
    rfl

theorem view_map_normal (frames : List Frame) :
    ((frames.map Frame.normal).map fun frame => WaitResult.frame frame.view) =
      frames.map fun frame => WaitResult.frame frame.view := by
  rw [List.map_map]
  apply List.map_congr_left
  intro frame _
  simp only [Function.comp_apply, view_normal]

/-- Messages whose frames are queued or arrive, with heartbeats between them,
are served by the loop. -/
theorem loop_serves_pending
    {conn : SocketState} {frames : List Frame} {messages : List WireMessage}
    (hpending : Pending conn frames none)
    (hincoming : NoFailure conn.incoming)
    (hframes :
      conn.queued ++ queuedBefore frames =
        (messages.flatMap WireMessage.frames).map Frame.normal)
    (channel : ℕ) {calls : ℕ}
    (hcalls : conn.queued.length + frames.length ≤ calls) :
    let actions := loopTrace recveiveCopy id channel (waitResults calls conn)
    handedOver actions =
        messages.flatMap (fun message => message.cut.fragments) ∧
      acked actions =
        messages.map fun message => (channel, message.deliveryTag.toNat) := by
  have hlength :
      (conn.queued ++ queuedBefore frames).length ≤ calls := by
    have hfilter : (queuedBefore frames).length ≤ frames.length :=
      List.length_filter_le _ frames
    rw [List.length_append]
    omega
  have hresults :
      waitResults calls conn =
        (messages.map WireMessage.unit).flatMap DeliveryUnit.results := by
    have hall := waitResults_pending calls hpending hincoming
    rw [List.take_of_length_le (by rw [List.length_map]; exact hlength),
      hframes, view_map_normal, view_flatMap_frames] at hall
    exact hall
  rw [hresults]
  exact reandMqMessage_units channel messages

/-- The bytes a broker sends for some messages, with heartbeats anywhere
between the frames and cut anywhere, make the loop hand over the fragments of
the messages in their order and acknowledge each message once. -/
theorem bytes_reach_consumer
    {messages : List WireMessage} {sent : List Frame}
    (hmessages : queuedBefore sent = messages.flatMap WireMessage.frames)
    (htables : ∀ frame ∈ sent, frame.payload.tablesFit = true)
    {outboundBuffer bytes : Bytes}
    (hsent : sendFrames outboundBuffer sent = .ok bytes)
    {frameMax : ℕ} (hmax : outboundBuffer.length ≤ frameMax)
    (hint : frameMax < 2 ^ 32) {conn : SocketState}
    (hidle : Collected frameMax conn.input .later [])
    (hqueued : conn.queued = []) (hincoming : NoFailure conn.incoming)
    (hbytes : conn.sockInbound ++ arriving conn.incoming = bytes)
    (channel : ℕ) {calls : ℕ} (hcalls : sent.length ≤ calls) :
    let actions := loopTrace recveiveCopy id channel (waitResults calls conn)
    handedOver actions =
        messages.flatMap (fun message => message.cut.fragments) ∧
      acked actions =
        messages.map fun message => (channel, message.deliveryTag.toNat) := by
  obtain ⟨hwires, hfit⟩ :=
    (sendFrames_ok_iff (hmax.trans_lt hint) _ _).mp hsent
  have hall : ∀ frame ∈ sent,
      frame.payload.stringsFit = true ∧ frame.payload.tablesFit = true ∧
        frame.wire.length ≤ frameMax := by
    intro frame hframe
    obtain ⟨hstrings, _, hlength⟩ := hfit frame hframe
    exact ⟨hstrings, htables frame hframe, hlength.trans hmax⟩
  have hpending : Pending conn (sent.map Frame.normal) none :=
    pending_of_wires hidle hint hall (hbytes.trans hwires)
  have hframes :
      conn.queued ++ queuedBefore (sent.map Frame.normal) =
        (messages.flatMap WireMessage.frames).map Frame.normal := by
    rw [hqueued, List.nil_append, queuedBefore_normal, hmessages]
  apply loop_serves_pending hpending hincoming hframes channel
  rw [hqueued, List.length_nil, List.length_map]
  omega

/-- A message of two fragments. -/
def twoPartMessage : WireMessage where
  channel := 1
  consumerTag := ['c'.toUInt8]
  deliveryTag := 5
  redelivered := false
  exchange := []
  routingKey := ['q'.toUInt8]
  properties := ⟨.basic, 0, ()⟩
  body := ['m'.toUInt8, 'q'.toUInt8]
  bodyFits := by decide
  cut := ⟨[['m'.toUInt8], ['q'.toUInt8]], rfl, by decide⟩

/-- Its frames behind a heartbeat, and those of a second message. -/
def sentMessages : List Frame :=
  ⟨0, .heartbeat⟩ :: (twoPartMessage.frames ++ twoPartMessage.frames)

/-- A connection to which their bytes arrive in two pieces. -/
def receivingState : SocketState where
  input := (amqpNewConnection 64).returnToIdle
  sockInbound := []
  queued := []
  incoming :=
    [.data ((sentMessages.flatMap Frame.wire).take 30),
      .data ((sentMessages.flatMap Frame.wire).drop 30)]

theorem noFailure_receivingState : NoFailure receivingState.incoming := by
  intro code hfailed
  rcases List.mem_cons.mp hfailed with hfirst | hsecond
  · cases hfirst
  · cases List.mem_singleton.mp hsecond

theorem arriving_receivingState :
    receivingState.sockInbound ++ arriving receivingState.incoming =
      sentMessages.flatMap Frame.wire := by
  simp only [receivingState, arriving, List.nil_append, List.append_nil,
    List.take_append_drop]

theorem bytes_reach_consumer_twoParts :
    let actions :=
      loopTrace recveiveCopy id 1 (waitResults 9 receivingState)
    handedOver actions =
        [twoPartMessage, twoPartMessage].flatMap
          (fun message => message.cut.fragments) ∧
      acked actions =
        [twoPartMessage, twoPartMessage].map fun message =>
          (1, message.deliveryTag.toNat) := by
  have hsent :
      sendFrames (List.replicate 64 0) sentMessages =
        .ok (sentMessages.flatMap Frame.wire) :=
    (sendFrames_ok_iff (by decide) _ _).mpr ⟨rfl, by decide⟩
  exact @bytes_reach_consumer [twoPartMessage, twoPartMessage] sentMessages rfl
    (by decide) (List.replicate 64 0) (sentMessages.flatMap Frame.wire) hsent
    64 (by decide) (by decide) receivingState (collected_idle 64) rfl
    noFailure_receivingState arriving_receivingState 1 9 (by decide)

/-- Messages that arrive while a call waits for its reply are not lost either:
the loop finds them in the queue. -/
theorem messages_survive_rpc
    {conn : SocketState} {before rest : List Frame} {frame : Frame}
    {messages : List WireMessage} {rpcChannel : UInt16}
    {expectedReplyIds : List UInt32} {reply : RpcReply}
    (hpending : Pending conn (before ++ frame :: rest) none)
    (hincoming : NoFailure conn.incoming)
    (hbefore : ∀ other ∈ before,
      replyOf rpcChannel expectedReplyIds other = none)
    (hreply : replyOf rpcChannel expectedReplyIds frame = some reply)
    (hframes :
      conn.queued ++ queuedBefore (before ++ rest) =
        (messages.flatMap WireMessage.frames).map Frame.normal)
    (channel : ℕ) {calls : ℕ}
    (hcalls :
      conn.queued.length + before.length + rest.length ≤ calls) :
    ∃ after,
      simpleRpcInner rpcChannel expectedReplyIds none conn =
          some (reply, after) ∧
        let actions :=
          loopTrace recveiveCopy id channel (waitResults calls after)
        handedOver actions =
            messages.flatMap (fun message => message.cut.fragments) ∧
          acked actions =
            messages.map fun message =>
              (channel, message.deliveryTag.toNat) := by
  obtain ⟨after, hrun, hqueued, hafterIncoming, hafter⟩ :=
    simpleRpcInner_first hpending hincoming hbefore hreply
  have hafterFrames :
      after.queued ++ queuedBefore rest =
        (messages.flatMap WireMessage.frames).map Frame.normal := by
    rw [hqueued, List.append_assoc, ← hframes]
    unfold queuedBefore
    rw [List.filter_append]
  have hlength : (queuedBefore before).length ≤ before.length :=
    List.length_filter_le _ before
  have hcalls' : after.queued.length + rest.length ≤ calls := by
    rw [hqueued, List.length_append]
    omega
  exact ⟨after, hrun,
    loop_serves_pending hafter hafterIncoming hafterFrames channel hcalls'⟩

def cancelOk : Method where
  id := .basicCancelOk
  decoded := (['c'.toUInt8], ())

def cancelOkFrame : Frame where
  channel := 1
  payload := .method cancelOk

/-- The message arrives before the reply to a `basic.cancel`. -/
def cancelledState : SocketState where
  input := (amqpNewConnection 64).returnToIdle
  sockInbound :=
    (twoPartMessage.frames ++ [cancelOkFrame]).flatMap Frame.wire
  queued := []
  incoming := []

theorem messages_survive_rpc_cancel :
    ∃ after,
      simpleRpcInner 1 [0x003C001F, 0] none cancelledState =
          some (.normal cancelOk, after) ∧
        let actions :=
          loopTrace recveiveCopy id 1 (waitResults 4 after)
        handedOver actions =
            [twoPartMessage].flatMap (fun message => message.cut.fragments) ∧
          acked actions =
            [twoPartMessage].map fun message =>
              (1, message.deliveryTag.toNat) := by
  have hpending :
      Pending cancelledState
        (twoPartMessage.frames.map Frame.normal ++ [cancelOkFrame])
        none := by
    have hbytes :
        cancelledState.sockInbound ++ arriving cancelledState.incoming =
          (twoPartMessage.frames ++ [cancelOkFrame]).flatMap
            Frame.wire :=
      List.append_nil _
    exact pending_of_wires (collected_idle 64) (by decide) (by decide) hbytes
  have hincoming : NoFailure cancelledState.incoming := by
    intro code hfailed
    cases hfailed
  have hbefore : ∀ other ∈ twoPartMessage.frames.map Frame.normal,
      replyOf 1 [0x003C001F, 0] other = none := by
    intro other hother
    simp only [twoPartMessage, WireMessage.frames, List.map_cons,
      List.map_nil, List.mem_cons, List.not_mem_nil, or_false] at hother
    rcases hother with hdeliver | hheader | hbody | hbody
    · rw [hdeliver]
      rfl
    · rw [hheader]
      rfl
    · rw [hbody]
      rfl
    · rw [hbody]
      rfl
  exact @messages_survive_rpc cancelledState
    (twoPartMessage.frames.map Frame.normal) []
    cancelOkFrame [twoPartMessage] 1
    [0x003C001F, 0] (.normal cancelOk) hpending
    hincoming hbefore rfl rfl 1 4 (by decide)

end RabbitWork
