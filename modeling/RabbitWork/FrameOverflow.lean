import RabbitWork.FrameQueue

/-!
# Sizes that overflow

Two sizes in the header of a frame make the connection write outside of its
buffers.  One that wraps in 32 bits gives a block of eight bytes, which the
header and one more byte fill, and everything received is copied behind them.
One over `frame_max` is refused, but
`target_size` keeps it, so that the next call copies into the header buffer as
if it were a block.
-/

namespace RabbitWork

open Wire Splitting

section Later

variable {frameMax : ℕ} {state : InputState} {held piece : Bytes}

/-- The call in which the header of a frame becomes complete. -/
theorem amqpHandleInput_started
    (hcollected : Collected frameMax state .later held)
    (hshort : held.length < headerSize)
    (hlong : headerSize ≤ (held ++ piece).length) :
    ∃ buffer : Bytes, buffer.length = 8 ∧
      buffer.take headerSize = (held ++ piece).take headerSize ∧
        amqpHandleInput state piece =
          frameStarted (headerState frameMax .later buffer headerSize)
            (piece.drop (headerSize - held.length))
            (headerSize - held.length) := by
  rw [List.length_append] at hlong
  have hpiece : piece ≠ [] := by
    intro hnil
    rw [hnil, List.length_nil] at hlong
    omega
  cases hcollected with
  | body _ hfilling _ =>
      have hheader := hfilling.headerSize_le
      omega
  | @header _ _ headerBuffer hcollecting hbuffer hheld =>
      have hcount :
          headerSize - held.length =
            min (StreamMode.later.collected - held.length) piece.length := by
        have hseven : StreamMode.later.collected = headerSize := rfl
        omega
      have htake :
          (piece.take (headerSize - held.length)).length =
            headerSize - held.length := by
        rw [List.length_take]
        omega
      have hroom :
          held.length + (piece.take (headerSize - held.length)).length ≤
            headerBuffer.length := by
        rw [htake, hbuffer]
        unfold headerSize at hshort ⊢
        omega
      have hwritten :=
        splice_take headerBuffer (piece.take (headerSize - held.length)) hroom
      have hall : held.length + (headerSize - held.length) = headerSize := by
        omega
      rw [hheld, htake, hall] at hwritten
      have hfront :
          (held ++ piece).take headerSize =
            held ++ piece.take (headerSize - held.length) := by
        rw [List.take_append, List.take_of_length_le hshort.le]
      have hrun :=
        @amqpHandleInput_header frameMax .later held headerBuffer piece
          hcollecting hbuffer hpiece _ hcount
      have hname :
          ¬ (StreamMode.later = .first ∧
            (splice headerBuffer held.length
              (piece.take (headerSize - held.length))).take 4 =
                protocolName) := by
        intro hboth
        cases hboth.1
      have hseven : ¬ headerSize < StreamMode.later.collected := by decide
      simp only [hall, if_neg hseven, if_neg hname] at hrun
      refine ⟨splice headerBuffer held.length
        (piece.take (headerSize - held.length)), ?_, ?_, hrun⟩
      · rw [splice_length (Or.inr hroom)]
        exact hbuffer
      · rw [hwritten, hfront]

/-- A size that wraps to less than the header: of two bytes received behind it
the block has room for the first one only. -/
theorem frameStarted_wraps
    {front buffer received : Bytes} (hbuffer : buffer.length = 8)
    (hfront : buffer.take headerSize = front) (hmax : 6 ≤ frameMax)
    (hpositive : 0 < frameTarget front)
    (hwrapped : frameTarget front < headerSize)
    (hreceived : 2 ≤ received.length) (bytesConsumed : ℕ) :
    (frameStarted (headerState frameMax .later buffer headerSize) received
        bytesConsumed).2 =
      .error .undefinedBehaviour := by
  unfold headerSize at hwrapped
  have hover : ¬ frameMax < frameTarget front := by omega
  have hseven : front.length = 7 := by
    rw [← hfront, List.length_take, hbuffer]
    rfl
  let block : Bytes :=
    splice (List.replicate (roundUp (frameTarget front)) 0) 0
      (buffer.take headerSize)
  have hblock : block.length = 8 := by
    have height : roundUp (frameTarget front) = 8 := by
      unfold roundUp
      omega
    have hroom :
        0 + (buffer.take headerSize).length ≤
          (List.replicate (roundUp (frameTarget front)) (0 : UInt8)).length := by
      rw [hfront, hseven, List.length_replicate, height]
      omega
    rw [splice_length (Or.inr hroom), List.length_replicate, height]
  let missing := (2 ^ 64 + frameTarget front - front.length) % 2 ^ 64
  have hmissing : 2 ≤ min missing received.length := by
    have hlarge : 2 ≤ missing := by
      simp only [missing]
      omega
    omega
  have hfits :
      ¬ Fits block front.length
        (received.take (min missing received.length)) := by
    rintro (hnil | hroom)
    · have hempty := congrArg List.length hnil
      rw [List.length_take, List.length_nil] at hempty
      omega
    · rw [List.length_take, hblock] at hroom
      omega
  have hpoke :
      poke (received.take (min missing received.length)) block front.length =
        .error .undefinedBehaviour :=
    if_neg hfits
  have hconsume :
      InputState.consumeData
          ⟨.body, frameMax, buffer, some block, front.length,
            frameTarget front⟩
          received =
        .error .undefinedBehaviour := by
    simp only [InputState.consumeData, InputState.inboundBuffer,
      Option.getD_some, bind, Except.bind]
    rw [hpoke]
  have hrun :=
    @frameStarted_eq frameMax .later front buffer received hseven hfront hover
      hpositive bytesConsumed
  have hstarted :
      frameStarted (headerState frameMax .later buffer headerSize) received
          bytesConsumed =
        fillFrame
          ⟨.body, frameMax, buffer, some block, front.length,
            frameTarget front⟩
          received bytesConsumed :=
    hrun
  rw [hstarted, fillFrame, hconsume]

/-- However the header of a frame, not the first one of the connection, has
arrived: if its size is at least `2 ^ 32 - 7` and at most `2 ^ 32 - 2`, the
block has eight bytes.  The header takes seven of them, and if the call that
completes the header has two more bytes, the second one is written outside of
the block. -/
theorem amqpHandleInput_wraps
    {kind : UInt8} {channel : UInt16} {size : ℕ} {rest : Bytes}
    (hcollected : Collected frameMax state .later held)
    (hshort : held.length < headerSize)
    (hstream :
      held ++ piece =
        bigEndian 1 kind.toNat ++
          (bigEndian 2 channel.toNat ++ (bigEndian 4 size ++ rest)))
    (hlow : 2 ^ 32 - 7 ≤ size) (hhigh : size ≤ 2 ^ 32 - 2)
    (hmax : 6 ≤ frameMax) (hrest : 2 ≤ rest.length) :
    roundUp (frameTarget (held ++ piece)) = 8 ∧
      (amqpHandleInput state piece).2 = .error .undefinedBehaviour := by
  let front :=
    bigEndian 1 kind.toNat ++ (bigEndian 2 channel.toNat ++ bigEndian 4 size)
  have hfront : front.length = headerSize := by
    simp only [front, List.length_append, bigEndian_length, headerSize]
  have hboth : held ++ piece = front ++ rest := by
    rw [hstream]
    simp [front]
  have hlength := congrArg List.length hboth
  rw [List.length_append, List.length_append, hfront] at hlength
  have hlong : headerSize ≤ (held ++ piece).length := by
    rw [List.length_append]
    omega
  obtain ⟨buffer, hbuffer, htake, hrun⟩ :=
    amqpHandleInput_started hcollected hshort hlong
  have hheader : (held ++ piece).take headerSize = front := by
    rw [hboth, List.take_left' hfront]
  have hholds : Holds front 3 (bigEndian 4 size) := by
    have hwhole := holds_zero front []
    rw [List.append_nil] at hwhole
    have hsize := (holds_append.mp (holds_append.mp hwhole).2).2
    rw [bigEndian_length, bigEndian_length] at hsize
    exact hsize
  have hnumber := amqpD_of_holds (show size < 256 ^ 4 by omega) hholds
  have htarget : frameTarget front = size + 8 - 2 ^ 32 := by
    rw [frameTarget, hnumber]
    unfold headerSize footerSize
    omega
  have hdrop : piece.drop (headerSize - held.length) = rest := by
    have hrestDrop : (held ++ piece).drop headerSize = rest := by
      rw [hboth, List.drop_left' hfront]
    rw [List.drop_append, List.drop_of_length_le hshort.le,
      List.nil_append] at hrestDrop
    exact hrestDrop
  constructor
  · have hsame : frameTarget (held ++ piece) = frameTarget front := by
      rw [← hheader]
      unfold frameTarget
      rw [amqpD_take _ (by decide)]
    rw [hsame, htarget]
    unfold roundUp
    omega
  · rw [hrun, hdrop]
    apply frameStarted_wraps hbuffer (htake.trans hheader) hmax
    · omega
    · unfold headerSize
      omega
    · exact hrest

/-- A body of `2 ^ 32 - 7` bytes. -/
theorem amqpHandleInput_wraps_body :
    roundUp (frameTarget ([] ++ [3, 0, 1, 255, 255, 255, 249, 65, 66])) = 8 ∧
      (amqpHandleInput (amqpNewConnection 4096).returnToIdle
          [3, 0, 1, 255, 255, 255, 249, 65, 66]).2 =
        .error .undefinedBehaviour :=
  @amqpHandleInput_wraps 4096 (amqpNewConnection 4096).returnToIdle []
    [3, 0, 1, 255, 255, 255, 249, 65, 66] 3 1 4294967289 [65, 66]
    (collected_idle 4096) (by decide) (by decide) (by decide)
    (by decide) (by decide) (by decide)

/-- A frame over `frame_max` is refused, and whatever is received next is
written outside of the header buffer. -/
theorem amqpHandleInput_oversized
    (hcollected : Collected frameMax state .later held)
    (hshort : held.length < headerSize)
    (hlong : headerSize ≤ (held ++ piece).length)
    (hmax : 8 ≤ frameMax) (hover : frameMax < frameTarget (held ++ piece)) :
    (amqpHandleInput state piece).2 = .error .badAmqpData ∧
      ∀ next : Bytes, 2 ≤ next.length →
        (amqpHandleInput (amqpHandleInput state piece).1 next).2 =
          .error .undefinedBehaviour := by
  obtain ⟨buffer, hbuffer, htake, hrun⟩ :=
    amqpHandleInput_started hcollected hshort hlong
  have htarget :
      frameTarget ((held ++ piece).take headerSize) =
        frameTarget (held ++ piece) := by
    unfold frameTarget
    rw [amqpD_take _ (by decide)]
  rw [← htarget] at hover
  have hstarted :=
    @frameStarted_over frameMax .later _ _
      (piece.drop (headerSize - held.length)) htake hover
      (headerSize - held.length)
  rw [hrun]
  refine ⟨congrArg Prod.snd hstarted, ?_⟩
  intro next hnext
  let target := frameTarget ((held ++ piece).take headerSize)
  have htargetLt : target < 2 ^ 32 := frameTarget_lt _
  have htargetOver : frameMax < target := hover
  have hseven : headerSize = 7 := rfl
  have hlengthNext : ¬ next.length = 0 := by omega
  have hfits :
      ¬ Fits buffer headerSize
        (next.take
          (min ((2 ^ 64 + target - headerSize) % 2 ^ 64) next.length)) := by
    have htwo :
        2 ≤ min ((2 ^ 64 + target - headerSize) % 2 ^ 64) next.length := by
      omega
    rintro (hnil | hroom)
    · have hempty := congrArg List.length hnil
      rw [List.length_take, List.length_nil] at hempty
      omega
    · rw [List.length_take, hbuffer] at hroom
      omega
  have hpoke :
      poke
          (next.take
            (min ((2 ^ 64 + target - headerSize) % 2 ^ 64) next.length))
          buffer headerSize =
        .error .undefinedBehaviour :=
    if_neg hfits
  have hconsume :
      InputState.consumeData
          ⟨.header, frameMax, buffer, none, headerSize, target⟩ next =
        .error .undefinedBehaviour := by
    simp only [InputState.consumeData, InputState.inboundBuffer,
      Option.getD_none, bind, Except.bind]
    rw [hpoke]
  have hafter :
      (frameStarted (headerState frameMax .later buffer headerSize)
        (piece.drop (headerSize - held.length))
        (headerSize - held.length)).1 =
          ⟨.header, frameMax, buffer, none, headerSize, target⟩ :=
    congrArg Prod.fst hstarted
  rw [hafter]
  simp only [amqpHandleInput, if_neg hlengthNext, reduceCtorEq, if_false]
  rw [hconsume]

end Later

/-! ## The calls -/

theorem waitFrameInner_error
    {conn : SocketState} {status : Status} (hdata : conn.sockInbound ≠ [])
    (hresult :
      (amqpHandleInput conn.input conn.sockInbound).2 = .error status) :
    waitFrameInner conn =
      some (.error (.decoder status),
        { conn with
          input := (amqpHandleInput conn.input conn.sockInbound).1 }) := by
  have hconsume := consumeOneFrame_error hresult
  obtain ⟨fuel, hfuel⟩ :
      ∃ fuel, conn.sockInbound.length = fuel + 1 :=
    Nat.exists_eq_succ_of_ne_zero fun hzero =>
      hdata (List.eq_nil_of_length_eq_zero hzero)
  have hbuffered :
      waitBuffered conn.sockInbound.length conn =
        (some (.error status),
          { conn with
            input := (amqpHandleInput conn.input conn.sockInbound).1 }) := by
    rw [hfuel]
    simp only [waitBuffered, if_neg hdata, hconsume]
  cases hincoming : conn.incoming with
  | nil =>
      have hsame : { conn with incoming := [] } = conn := by
        rw [← hincoming]
      rw [waitFrameInner, hincoming, waitArrivals, hsame, hbuffered]
      simp only [hincoming]
  | cons arrival incoming =>
      have hsame : { conn with incoming := arrival :: incoming } = conn := by
        rw [← hincoming]
      rw [waitFrameInner, hincoming, waitArrivals, hsame, hbuffered]
      simp only [hincoming]

/-- The loop leaves when a frame over `frame_max` arrives.  The bytes of the
frame stay in the buffer, and the call that closes the channel then copies
them over the end of the header buffer. -/
theorem close_after_oversized
    {frameMax : ℕ} {conn : SocketState} {held : Bytes}
    (hcollected : Collected frameMax conn.input .later held)
    (hshort : held.length < headerSize)
    (hlong : headerSize ≤ (held ++ conn.sockInbound).length)
    (hmax : 8 ≤ frameMax)
    (hover : frameMax < frameTarget (held ++ conn.sockInbound))
    (htwo : 2 ≤ conn.sockInbound.length) (hqueued : conn.queued = [])
    (channel : UInt16) (expectedReplyIds : List UInt32) :
    ∃ after last,
      simpleWaitFrame conn =
          some (.error (.decoder .badAmqpData), after) ∧
        simpleRpcInner channel expectedReplyIds none after =
          some (.libraryException (.decoder .undefinedBehaviour), last) := by
  obtain ⟨hrefused, hoverwrites⟩ :=
    amqpHandleInput_oversized hcollected hshort hlong hmax hover
  have hdata : conn.sockInbound ≠ [] := by
    intro hnil
    rw [hnil, List.length_nil] at htwo
    omega
  have hfirst := waitFrameInner_error hdata hrefused
  let after : SocketState :=
    { conn with input := (amqpHandleInput conn.input conn.sockInbound).1 }
  let last : SocketState :=
    { after with
      input := (amqpHandleInput after.input after.sockInbound).1 }
  have hsecond :
      waitFrameInner after =
        some (.error (.decoder .undefinedBehaviour), last) :=
    waitFrameInner_error hdata (hoverwrites conn.sockInbound htwo)
  refine ⟨after, last, ?_, ?_⟩
  · simp only [simpleWaitFrame, hqueued]
    exact hfirst
  · simp only [simpleRpcInner, rpcRetry, hsecond]

/-- A connection that has received the header of a frame of 208 bytes but
accepts 64. -/
def oversizedState : SocketState where
  input := (amqpNewConnection 64).returnToIdle
  sockInbound := [3, 0, 1, 0, 0, 0, 200, 65]
  queued := []
  incoming := []

theorem close_after_oversized_state :
    ∃ after last,
      simpleWaitFrame oversizedState =
          some (.error (.decoder .badAmqpData), after) ∧
        simpleRpcInner 1 [0x00140029, 0] none after =
          some (.libraryException (.decoder .undefinedBehaviour), last) :=
  @close_after_oversized 64 oversizedState [] (collected_idle 64)
    (by decide) (by decide) (by decide) (by decide) (by decide) rfl 1
    [0x00140029, 0]

end RabbitWork
