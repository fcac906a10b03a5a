import RabbitWork.FrameInput

/-!
# The connection receives frames

Between two calls a connection holds back the beginning of a frame, either in
its header buffer or in a block with room for the whole frame.  From there
`amqp_handle_input` does what stands at the front of the stream, so the frames
it hands over do not depend on how the bytes arrive.
-/

namespace RabbitWork

open Wire Splitting

/-! ## What a connection holds back -/

/-- The state while the first bytes of a frame are collected. -/
def StreamMode.collecting : StreamMode → Bytes → ConnectionState
  | .first, _ => .initial
  | .later, [] => .idle
  | .later, _ :: _ => .header

/-- The block of a frame whose first bytes have been copied. -/
structure Filling (frameMax : ℕ) (mode : StreamMode) (held block : Bytes) :
    Prop where
  collected : mode.collected ≤ held.length
  name : ¬ (mode = .first ∧ held.take 4 = protocolName)
  target : held.length ≤ frameTarget held
  max : frameTarget held ≤ frameMax
  room : block.length = roundUp (frameTarget held)
  written : block.take held.length = mode.raw held

inductive Collected (frameMax : ℕ) : InputState → StreamMode → Bytes → Prop where
  | header {mode : StreamMode} {held headerBuffer : Bytes}
      (hshort : held.length < mode.collected)
      (hbuffer : headerBuffer.length = 8)
      (hheld : headerBuffer.take held.length = held) :
      Collected frameMax
        ⟨mode.collecting held, frameMax, headerBuffer, none, held.length,
          mode.collected⟩
        mode held
  | body {mode : StreamMode} {held headerBuffer block : Bytes}
      (hbuffer : headerBuffer.length = 8)
      (hfilling : Filling frameMax mode held block)
      (hshort : held.length < frameTarget held) :
      Collected frameMax
        ⟨.body, frameMax, headerBuffer, some block, held.length,
          frameTarget held⟩
        mode held

theorem collected_nothing
    (frameMax : ℕ) (mode : StreamMode) {headerBuffer : Bytes}
    (hbuffer : headerBuffer.length = 8) :
    Collected frameMax
      ⟨mode.collecting [], frameMax, headerBuffer, none, 0, mode.collected⟩
      mode [] := by
  have hmode := mode.headerSize_le
  have hshort : ([] : Bytes).length < mode.collected := by
    rw [List.length_nil]
    unfold headerSize at hmode
    omega
  exact Collected.header hshort hbuffer rfl

theorem collected_amqpNewConnection (frameMax : ℕ) :
    Collected frameMax (amqpNewConnection frameMax) .first [] :=
  collected_nothing frameMax .first rfl

theorem collected_returnToIdle
    {state : InputState} (hbuffer : state.headerBuffer.length = 8) :
    Collected state.frameMax state.returnToIdle .later [] :=
  collected_nothing state.frameMax .later hbuffer

/-- A connection between two frames. -/
theorem collected_idle (frameMax : ℕ) :
    Collected frameMax (amqpNewConnection frameMax).returnToIdle .later [] :=
  @collected_returnToIdle (amqpNewConnection frameMax) rfl

/-! ## Consuming -/

theorem le_roundUp (amount : ℕ) : amount ≤ roundUp amount := by
  unfold roundUp
  omega

theorem consumeData_run
    (state : InputState) (received : Bytes)
    (hoffset : state.inboundOffset ≤ state.targetSize)
    (htarget : state.targetSize < 2 ^ 64)
    (hroom : state.targetSize ≤ state.inboundBuffer.length)
    {count : ℕ}
    (hcount :
      count = min (state.targetSize - state.inboundOffset) received.length) :
    state.consumeData received =
      .ok ({ state.overwrite
              (splice state.inboundBuffer state.inboundOffset
                (received.take count)) with
            inboundOffset := state.inboundOffset + count },
        count) := by
  have hmissing :
      (2 ^ 64 + state.targetSize - state.inboundOffset) % 2 ^ 64 =
        state.targetSize - state.inboundOffset := by
    omega
  have hlength : (received.take count).length = count := by
    rw [List.length_take]
    omega
  have hfits :
      state.inboundOffset + (received.take count).length ≤
        state.inboundBuffer.length := by
    omega
  have hrun := poke_run hfits
  rw [hlength] at hrun
  simp only [InputState.consumeData, hmissing, ← hcount, hrun, bind,
    Except.bind]

/-! ## The body of a frame -/

theorem amqpD_block
    {width offset target : ℕ} {block rawFrame : Bytes}
    (hraw : block.take target = rawFrame) (hin : offset + width ≤ target) :
    amqpD width block offset = amqpD width rawFrame offset := by
  rw [← hraw, amqpD_take block hin]

/-- Only the frame is read of its block. -/
theorem decodeFrame_block
    {target : ℕ} {block rawFrame : Bytes}
    (hraw : block.take target = rawFrame) (htarget : 3 ≤ target) :
    decodeFrame block target = decodeFrame rawFrame target := by
  have hpart : ∀ offset,
      encodedPart block target offset = encodedPart rawFrame target offset := by
    intro offset
    unfold encodedPart
    rw [← hraw, List.drop_take, List.take_take]
    congr 1
    omega
  have hend :
      amqpD 1 block (target - 1) = amqpD 1 rawFrame (target - 1) :=
    amqpD_block hraw (by omega)
  have hkind : amqpD 1 block 0 = amqpD 1 rawFrame 0 :=
    amqpD_block hraw (by omega)
  have hchannel : amqpD 2 block 1 = amqpD 2 rawFrame 1 :=
    amqpD_block hraw (by omega)
  simp only [decodeFrame, hend, hkind, hchannel, hpart]
  by_cases hmethod : target < headerSize + 4 + footerSize
  · have hheader : target < headerSize + 12 + footerSize := by omega
    simp only [if_pos hmethod, if_pos hheader]
  · have hid :
        amqpD 4 block headerSize = amqpD 4 rawFrame headerSize :=
      amqpD_block hraw (by omega)
    by_cases hheader : target < headerSize + 12 + footerSize
    · simp only [hid, if_pos hheader]
    · have hclass :
          amqpD 2 block headerSize = amqpD 2 rawFrame headerSize :=
        amqpD_block hraw (by omega)
      have hsize :
          amqpD 8 block (headerSize + 4) =
            amqpD 8 rawFrame (headerSize + 4) :=
        amqpD_block hraw (by omega)
      simp only [hid, hclass, hsize]

theorem StreamMode.raw_append
    (mode : StreamMode) {held : Bytes} (more : Bytes)
    (hheld : mode.collected ≤ held.length) :
    mode.raw (held ++ more) = mode.raw held ++ more := by
  cases mode with
  | first =>
      have hlength : headerSize + [(0 : UInt8)].length ≤ held.length := hheld
      have hfront : headerSize ≤ held.length := by omega
      simp only [StreamMode.raw, splice]
      rw [List.take_append_of_le_length hfront,
        List.drop_append_of_le_length hlength]
      simp only [List.append_assoc]
  | later => rfl

theorem frameComplete_spec
    (state : InputState) (hbuffer : state.headerBuffer.length = 8)
    (bytesConsumed : ℕ) :
    let decoded := decodeFrame state.inboundBuffer state.targetSize
    ∃ state',
      frameComplete state bytesConsumed =
        (state', decoded.map fun frame => (bytesConsumed, frame)) ∧
      ∀ frame, decoded = .ok frame →
        Collected state.frameMax state' .later [] := by
  cases hdecoded : decodeFrame state.inboundBuffer state.targetSize with
  | error status =>
      refine ⟨state, ?_, ?_⟩
      · simp only [frameComplete, hdecoded, Except.map]
      · intro frame hframe
        cases hframe
  | ok frame =>
      refine ⟨state.returnToIdle, ?_, ?_⟩
      · simp only [frameComplete, hdecoded, Except.map]
      · intro _ _
        exact collected_returnToIdle hbuffer

section Filling

variable {frameMax : ℕ} {mode : StreamMode} {held headerBuffer block : Bytes}

theorem Filling.headerSize_le (hfilling : Filling frameMax mode held block) :
    headerSize ≤ held.length :=
  mode.headerSize_le.trans hfilling.collected

theorem Filling.frameTarget_append
    (hfilling : Filling frameMax mode held block) (more : Bytes) :
    frameTarget (held ++ more) = frameTarget held :=
  RabbitWork.frameTarget_append more hfilling.headerSize_le

/-- More bytes of the frame are copied behind those that are there. -/
theorem Filling.append
    (hfilling : Filling frameMax mode held block) {more : Bytes}
    (hmore : held.length + more.length ≤ frameTarget held) :
    Filling frameMax mode (held ++ more) (splice block held.length more) := by
  have htarget := hfilling.frameTarget_append more
  have hlonger := le_roundUp (frameTarget held)
  have hroom : held.length + more.length ≤ block.length := by
    rw [hfilling.room]
    omega
  constructor
  · rw [List.length_append]
    have hcollected := hfilling.collected
    omega
  · have hfour : 4 ≤ held.length := by
      have hheader := hfilling.headerSize_le
      unfold headerSize at hheader
      omega
    rw [List.take_append_of_le_length hfour]
    exact hfilling.name
  · rw [List.length_append, htarget]
    exact hmore
  · rw [htarget]
    exact hfilling.max
  · rw [htarget, splice_length (Or.inr hroom)]
    exact hfilling.room
  · rw [List.length_append, splice_take block more hroom, hfilling.written,
      mode.raw_append more hfilling.collected]

theorem frameFront_filling
    (hfilling : Filling frameMax mode held block) (received : Bytes) :
    frameFront frameMax mode (held ++ received) =
      if (held ++ received).length < frameTarget held then
        .more
      else
        frontOfDecoded (frameTarget held)
          (decodeFrame
            (mode.raw ((held ++ received).take (frameTarget held)))
            (frameTarget held)) := by
  have hcollected := hfilling.collected
  have htarget := hfilling.target
  have hlong : ¬ (held ++ received).length < mode.collected := by
    rw [List.length_append]
    omega
  have hfour : 4 ≤ held.length := by
    have hheader := hfilling.headerSize_le
    unfold headerSize at hheader
    omega
  have hname :
      ¬ (mode = .first ∧ (held ++ received).take 4 = protocolName) := by
    rw [List.take_append_of_le_length hfour]
    exact hfilling.name
  have hmax : ¬ frameMax < frameTarget held := not_lt.mpr hfilling.max
  have hmode := mode.headerSize_le
  have hzero : ¬ frameTarget held = 0 := by
    unfold headerSize at hmode
    omega
  have hwrapped : ¬ frameTarget held < mode.collected := by omega
  rw [frameFront, hfilling.frameTarget_append, if_neg hlong, if_neg hname,
    if_neg hmax, if_neg hzero, if_neg hwrapped]

theorem consumeData_filling
    (headerBuffer : Bytes) (hfilling : Filling frameMax mode held block)
    (received : Bytes)
    {count : ℕ}
    (hcount : count = min (frameTarget held - held.length) received.length) :
    InputState.consumeData
        ⟨.body, frameMax, headerBuffer, some block, held.length,
          frameTarget held⟩
        received =
      .ok (⟨.body, frameMax, headerBuffer,
          some (splice block held.length (received.take count)),
          held.length + count, frameTarget held⟩,
        count) := by
  have htarget := frameTarget_lt held
  have hroom : frameTarget held ≤ block.length := by
    rw [hfilling.room]
    exact le_roundUp _
  exact consumeData_run
    ⟨.body, frameMax, headerBuffer, some block, held.length,
      frameTarget held⟩
    received hfilling.target (htarget.trans (by decide)) hroom hcount

/-- Too little of the frame has arrived. -/
theorem fillFrame_more
    (hbuffer : headerBuffer.length = 8)
    (hfilling : Filling frameMax mode held block) {received : Bytes}
    (hshort : (held ++ received).length < frameTarget held)
    (bytesConsumed : ℕ) :
    ∃ state,
      fillFrame
          ⟨.body, frameMax, headerBuffer, some block, held.length,
            frameTarget held⟩
          received bytesConsumed =
        (state, .ok (bytesConsumed + received.length, none)) ∧
      Collected frameMax state mode (held ++ received) := by
  rw [List.length_append] at hshort
  have hcount :
      received.length =
        min (frameTarget held - held.length) received.length := by
    omega
  have hconsume :=
    consumeData_filling headerBuffer hfilling received hcount
  have hmore := hfilling.append (le_of_lt hshort)
  have htarget := hfilling.frameTarget_append received
  rw [List.take_length] at hconsume
  let state : InputState :=
    ⟨.body, frameMax, headerBuffer, some (splice block held.length received),
      held.length + received.length, frameTarget held⟩
  have hstate : Collected frameMax state mode (held ++ received) := by
    have hbody :=
      Collected.body hbuffer hmore
        (show (held ++ received).length < frameTarget (held ++ received) by
          rw [htarget, List.length_append]
          exact hshort)
    rw [htarget, List.length_append] at hbody
    exact hbody
  have hrun :
      fillFrame
          ⟨.body, frameMax, headerBuffer, some block, held.length,
            frameTarget held⟩
          received bytesConsumed =
        (state, .ok (bytesConsumed + received.length, none)) := by
    simp only [fillFrame, hconsume, if_pos hshort, state]
  exact ⟨state, hrun, hstate⟩

/-- The frame is complete. -/
theorem fillFrame_complete
    (hbuffer : headerBuffer.length = 8)
    (hfilling : Filling frameMax mode held block) {received : Bytes}
    (hlong : frameTarget held ≤ (held ++ received).length)
    (bytesConsumed : ℕ) :
    ∃ state,
      fillFrame
          ⟨.body, frameMax, headerBuffer, some block, held.length,
            frameTarget held⟩
          received bytesConsumed =
        (state,
          (decodeFrame
              (mode.raw ((held ++ received).take (frameTarget held)))
              (frameTarget held)).map
            fun frame =>
              (bytesConsumed + (frameTarget held - held.length), frame)) ∧
      ∀ frame,
        decodeFrame
            (mode.raw ((held ++ received).take (frameTarget held)))
            (frameTarget held) = .ok frame →
          Collected frameMax state .later [] := by
  rw [List.length_append] at hlong
  have htargetLe := hfilling.target
  let more := received.take (frameTarget held - held.length)
  have hmoreLength : more.length = frameTarget held - held.length := by
    simp only [more, List.length_take]
    omega
  have hcount :
      frameTarget held - held.length =
        min (frameTarget held - held.length) received.length := by
    omega
  have hconsume :=
    consumeData_filling headerBuffer hfilling received hcount
  have hfits : held.length + more.length ≤ frameTarget held := by omega
  have hfilled := hfilling.append hfits
  have hwhole :
      (held ++ received).take (frameTarget held) = held ++ more := by
    rw [List.take_append, List.take_of_length_le htargetLe]
  have hraw :
      (splice block held.length more).take (frameTarget held) =
        mode.raw (held ++ more) := by
    have hwritten := hfilled.written
    rw [List.length_append, hmoreLength] at hwritten
    rw [← hwritten]
    congr 1
    omega
  have hheader := hfilling.headerSize_le
  have hdecode :=
    decodeFrame_block hraw (by unfold headerSize at hheader; omega)
  have hfull :
      ¬ held.length + (frameTarget held - held.length) <
        frameTarget held := by
    omega
  rw [hwhole, ← hdecode]
  simp only [fillFrame, hconsume, if_neg hfull]
  exact frameComplete_spec _ hbuffer _

end Filling

/-! ## The header of a frame -/

/-- The state once something of a frame has been collected. -/
def StreamMode.started : StreamMode → ConnectionState
  | .first => .initial
  | .later => .header

theorem StreamMode.collecting_append
    (mode : StreamMode) (held : Bytes) {piece : Bytes} (hpiece : piece ≠ []) :
    mode.collecting (held ++ piece) = mode.started := by
  cases mode with
  | first => rfl
  | later =>
      cases hboth : held ++ piece with
      | nil => exact (hpiece (List.append_eq_nil_iff.mp hboth).2).elim
      | cons byte bytes => rfl

theorem roundUp_ge {amount : ℕ} (hamount : 0 < amount) : 8 ≤ roundUp amount := by
  unfold roundUp
  omega

section Header

variable {frameMax : ℕ} {mode : StreamMode}

/-- The connection with some bytes of a frame in its header buffer. -/
def headerState (frameMax : ℕ) (mode : StreamMode) (headerBuffer : Bytes)
    (offset : ℕ) : InputState :=
  ⟨mode.started, frameMax, headerBuffer, none, offset, mode.collected⟩

theorem amqpHandleInput_header
    {held headerBuffer piece : Bytes} (hshort : held.length < mode.collected)
    (hbuffer : headerBuffer.length = 8) (hpiece : piece ≠ []) {count : ℕ}
    (hcount : count = min (mode.collected - held.length) piece.length) :
    let buffer := splice headerBuffer held.length (piece.take count)
    let state := headerState frameMax mode buffer (held.length + count)
    amqpHandleInput
        ⟨mode.collecting held, frameMax, headerBuffer, none, held.length,
          mode.collected⟩
        piece =
      if held.length + count < mode.collected then
        (state, .ok (count, none))
      else if mode = .first ∧ buffer.take 4 = protocolName then
        (state.returnToIdle,
          .ok (count, some (protocolHeaderFrame buffer)))
      else
        frameStarted state (piece.drop count) count := by
  intro buffer state
  have hlength : ¬ piece.length = 0 := by
    intro hzero
    exact hpiece (List.eq_nil_of_length_eq_zero hzero)
  have hmode := mode.collected_le
  have hroom : mode.collected ≤ headerBuffer.length := by omega
  have hwide : mode.collected < 2 ^ 64 := by omega
  have hconsume :
      (headerState frameMax mode headerBuffer held.length).consumeData piece =
        .ok (state, count) :=
    consumeData_run (headerState frameMax mode headerBuffer held.length) piece
      hshort.le hwide hroom hcount
  have hstate :
      (if mode.collecting held = .idle then
          (⟨.header, frameMax, headerBuffer, none, held.length,
            mode.collected⟩ : InputState)
        else
          ⟨mode.collecting held, frameMax, headerBuffer, none, held.length,
            mode.collected⟩) =
        headerState frameMax mode headerBuffer held.length := by
    cases mode with
    | first => rfl
    | later =>
        cases held with
        | nil => rfl
        | cons byte bytes => rfl
  simp only [amqpHandleInput, if_neg hlength, hstate, hconsume]
  by_cases hmore : held.length + count < mode.collected
  · have hmore' : state.inboundOffset < state.targetSize := hmore
    rw [if_pos hmore, if_pos hmore']
  · have hmore' : ¬ state.inboundOffset < state.targetSize := hmore
    rw [if_neg hmore, if_neg hmore']
    cases mode with
    | first =>
        by_cases hname : buffer.take 4 = protocolName
        · have hboth :
              StreamMode.first = .first ∧ buffer.take 4 = protocolName :=
            ⟨rfl, hname⟩
          rw [if_pos hboth]
          exact if_pos hname
        · have hboth :
              ¬ (StreamMode.first = .first ∧
                buffer.take 4 = protocolName) := by
            intro h
            exact hname h.2
          rw [if_neg hboth]
          exact if_neg hname
    | later =>
        have hboth :
            ¬ (StreamMode.later = .first ∧ buffer.take 4 = protocolName) := by
          intro h
          cases h.1
        rw [if_neg hboth]
        rfl

/-- A block with the header of a frame in it. -/
theorem filling_started
    {front buffer : Bytes} (hbuffer : buffer.length = 8)
    (hfront : front.length = mode.collected)
    (hheld : buffer.take mode.collected = front)
    (hname : ¬ (mode = .first ∧ front.take 4 = protocolName))
    (hmax : frameTarget front ≤ frameMax)
    (htarget : mode.collected ≤ frameTarget front) :
    Filling frameMax mode front
      (splice (List.replicate (roundUp (frameTarget front)) 0) 0
        (buffer.take headerSize)) := by
  have hmode := mode.headerSize_le
  have height := roundUp_ge (show 0 < frameTarget front by
    unfold headerSize at hmode
    omega)
  let block : Bytes := List.replicate (roundUp (frameTarget front)) 0
  have hblock : block.length = roundUp (frameTarget front) :=
    List.length_replicate
  have hseven : (buffer.take headerSize).length = 7 := by
    rw [List.length_take, hbuffer]
    rfl
  have hroom : 0 + (buffer.take headerSize).length ≤ block.length := by
    omega
  have hcopied := splice_take block (buffer.take headerSize) hroom
  rw [hseven, List.take_zero, List.nil_append, Nat.zero_add] at hcopied
  constructor
  · exact hfront.ge
  · exact hname
  · omega
  · exact hmax
  · rw [splice_length (Or.inr hroom)]
    exact hblock
  · cases mode with
    | later =>
        rw [hfront]
        change (splice block 0 (buffer.take headerSize)).take 7 = front
        rw [hcopied, ← hheld]
        rfl
    | first =>
        have hwhole : buffer.take 8 = front := hheld
        have hall : front = buffer := by
          rw [← hwhole, List.take_of_length_le hbuffer.le]
        rw [hfront]
        change (splice block 0 (buffer.take headerSize)).take 8 =
          splice front headerSize [0]
        have hzero : (block.drop 7).take 1 = [0] := by
          rw [List.drop_replicate, List.take_replicate]
          have hone : min 1 (roundUp (frameTarget front) - 7) = 1 := by omega
          rw [hone]
          rfl
        have hsplit :
            (splice block 0 (buffer.take headerSize)).take (7 + 1) =
              buffer.take headerSize ++ [0] := by
          have hdrop :=
            (splice_outside hroom).2
          rw [hseven, Nat.zero_add] at hdrop
          rw [List.take_add, hcopied, hdrop, hzero]
        rw [hsplit, hall]
        unfold splice
        rw [List.drop_of_length_le (by rw [hbuffer]; rfl), List.append_nil]

/-- The header of a frame is complete. -/
theorem frameStarted_eq
    {front buffer : Bytes} (received : Bytes)
    (hfront : front.length = mode.collected)
    (hheld : buffer.take mode.collected = front)
    (hmax : ¬ frameMax < frameTarget front)
    (hpositive : 0 < frameTarget front) (bytesConsumed : ℕ) :
    frameStarted (headerState frameMax mode buffer mode.collected) received
        bytesConsumed =
      fillFrame
        ⟨.body, frameMax, buffer,
          some (splice (List.replicate (roundUp (frameTarget front)) 0) 0
            (buffer.take headerSize)),
          front.length, frameTarget front⟩
        received bytesConsumed := by
  have hbufferTarget : frameTarget buffer = frameTarget front := by
    unfold frameTarget
    rw [amqpD_block hheld mode.headerSize_le]
  have hzero : ¬ frameTarget front = 0 := by omega
  simp only [frameStarted, headerState, InputState.inboundBuffer,
    Option.getD_none, hbufferTarget, if_neg hmax, if_neg hzero, hfront]

theorem frameStarted_over
    {front buffer : Bytes} (received : Bytes)
    (hheld : buffer.take mode.collected = front)
    (hmax : frameMax < frameTarget front) (bytesConsumed : ℕ) :
    frameStarted (headerState frameMax mode buffer mode.collected) received
        bytesConsumed =
      ({ headerState frameMax mode buffer mode.collected with
          targetSize := frameTarget front },
        .error .badAmqpData) := by
  have hbufferTarget : frameTarget buffer = frameTarget front := by
    unfold frameTarget
    rw [amqpD_block hheld mode.headerSize_le]
  simp only [frameStarted, headerState, InputState.inboundBuffer,
    Option.getD_none, hbufferTarget, if_pos hmax]

theorem frameStarted_zero
    {front buffer : Bytes} (received : Bytes)
    (hheld : buffer.take mode.collected = front)
    (hzero : frameTarget front = 0) (bytesConsumed : ℕ) :
    (frameStarted (headerState frameMax mode buffer mode.collected) received
        bytesConsumed).2 = .error .noMemory := by
  have hbufferTarget : frameTarget buffer = 0 := by
    rw [← hzero]
    unfold frameTarget
    rw [amqpD_block hheld mode.headerSize_le]
  simp only [frameStarted, headerState, InputState.inboundBuffer,
    Option.getD_none, hbufferTarget, Nat.not_lt_zero, if_false, if_true]

end Header

/-! ## One call -/

/-- The result of a call is what stands at the front of the stream. -/
def Answers (frameMax : ℕ) (result : InputResult) (mode : StreamMode)
    (held piece : Bytes) : Prop :=
  match frameFront frameMax mode (held ++ piece) with
  | .more =>
      result.2 = .ok (piece.length, none) ∧
        Collected frameMax result.1 mode (held ++ piece)
  | .fault status =>
      status ≠ .undefinedBehaviour → result.2 = .error status
  | .cut output next count =>
      held.length < count ∧ result.2 = .ok (count - held.length, output) ∧
        Collected frameMax result.1 next []

section Call

variable {frameMax : ℕ} {mode : StreamMode} {held piece : Bytes}

theorem fillFrame_answers
    {front block headerBuffer received : Bytes} {bytesConsumed : ℕ}
    (hbuffer : headerBuffer.length = 8)
    (hfilling : Filling frameMax mode front block)
    (hstream : held ++ piece = front ++ received)
    (hfront : front.length = held.length + bytesConsumed)
    (hheld : held.length < frameTarget front) :
    Answers frameMax
      (fillFrame
        ⟨.body, frameMax, headerBuffer, some block, front.length,
          frameTarget front⟩
        received bytesConsumed)
      mode held piece := by
  have hshape := frameFront_filling hfilling received
  have htarget := hfilling.target
  have hlength := congrArg List.length hstream
  rw [List.length_append, List.length_append] at hlength
  by_cases hshort : (front ++ received).length < frameTarget front
  · obtain ⟨state, hrun, hstate⟩ :=
      fillFrame_more hbuffer hfilling hshort bytesConsumed
    have hcount : bytesConsumed + received.length = piece.length := by omega
    rw [if_pos hshort, ← hstream] at hshape
    rw [← hstream] at hstate
    simp only [Answers, hshape, hrun, hcount]
    exact ⟨trivial, hstate⟩
  · obtain ⟨state, hrun, hstate⟩ :=
      fillFrame_complete hbuffer hfilling (not_lt.mp hshort) bytesConsumed
    rw [if_neg hshort, ← hstream] at hshape
    rw [← hstream] at hrun hstate
    cases hdecoded : decodeFrame
        (mode.raw ((held ++ piece).take (frameTarget front)))
        (frameTarget front) with
    | error status =>
        rw [hdecoded] at hshape hrun
        simp only [Answers, hshape, frontOfDecoded, hrun, Except.map]
        intro _
        trivial
    | ok frame =>
        have hidle := hstate frame hdecoded
        have hcount :
            bytesConsumed + (frameTarget front - front.length) =
              frameTarget front - held.length := by
          omega
        rw [hdecoded] at hshape hrun
        simp only [Answers, hshape, frontOfDecoded, hrun, Except.map, hcount]
        exact ⟨hheld, trivial, hidle⟩

theorem amqpHandleInput_body
    {block headerBuffer : Bytes} (hfilling : Filling frameMax mode held block)
    (hpiece : piece ≠ []) :
    amqpHandleInput
        ⟨.body, frameMax, headerBuffer, some block, held.length,
          frameTarget held⟩
        piece =
      fillFrame
        ⟨.body, frameMax, headerBuffer, some block, held.length,
          frameTarget held⟩
        piece 0 := by
  have hlength : ¬ piece.length = 0 := by
    intro hzero
    exact hpiece (List.eq_nil_of_length_eq_zero hzero)
  have hconsume := consumeData_filling headerBuffer hfilling piece rfl
  simp only [amqpHandleInput, if_neg hlength, reduceCtorEq, if_false, hconsume,
    fillFrame, Nat.zero_add]

/-- The bytes that tell the size of the frame have just been collected. -/
theorem headerState_answers
    {front buffer : Bytes} {count : ℕ} (hbuffer : buffer.length = 8)
    (hfront : front.length = mode.collected)
    (hheld : buffer.take mode.collected = front)
    (hshort : held.length < mode.collected)
    (hcount : count = mode.collected - held.length)
    (hstream : held ++ piece = front ++ piece.drop count) :
    let state := headerState frameMax mode buffer mode.collected
    Answers frameMax
      (if mode = .first ∧ buffer.take 4 = protocolName then
        (state.returnToIdle,
          .ok (count, some (protocolHeaderFrame buffer)))
      else
        frameStarted state (piece.drop count) count)
      mode held piece := by
  intro state
  have hmode := mode.headerSize_le
  have hseven : headerSize ≤ front.length := by omega
  have hfour : 4 ≤ front.length := by
    unfold headerSize at hseven
    omega
  have hlong : ¬ (held ++ piece).length < mode.collected := by
    rw [hstream, List.length_append]
    omega
  have hnames : (held ++ piece).take 4 = front.take 4 := by
    rw [hstream, List.take_append_of_le_length hfour]
  have hbufferName : buffer.take 4 = front.take 4 := by
    rw [← hheld, List.take_take]
    congr 1
    omega
  have htarget : frameTarget (held ++ piece) = frameTarget front := by
    rw [hstream, frameTarget_append _ hseven]
  by_cases hname : mode = .first ∧ front.take 4 = protocolName
  · have hfirst := hname.1
    subst hfirst
    have hall : front = buffer := by
      rw [← hheld]
      exact List.take_of_length_le hbuffer.le
    have hshape :
        frameFront frameMax .first (held ++ piece) =
          .cut (some (protocolHeaderFrame buffer)) .later 8 := by
      rw [frameFront, if_neg hlong, hnames, if_pos hname, hstream,
        protocolHeaderFrame_append _ hfront.ge, hall]
    have hidle :=
      collected_returnToIdle
        (show state.headerBuffer.length = 8 from hbuffer)
    rw [hbufferName, if_pos hname]
    simp only [Answers, hshape, hcount]
    exact ⟨hshort, rfl, hidle⟩
  · rw [hbufferName, if_neg hname]
    by_cases hmax : frameMax < frameTarget front
    · have hshape :
          frameFront frameMax mode (held ++ piece) = .fault .badAmqpData := by
        rw [frameFront, if_neg hlong, hnames, if_neg hname, htarget,
          if_pos hmax]
      have hrun := frameStarted_over (piece.drop count) hheld hmax count
      simp only [Answers, hshape, state, hrun]
      intro _
      trivial
    · by_cases hzero : frameTarget front = 0
      · have hshape :
            frameFront frameMax mode (held ++ piece) = .fault .noMemory := by
          rw [frameFront, if_neg hlong, hnames, if_neg hname, htarget,
            if_neg hmax, if_pos hzero]
        simp only [Answers, hshape]
        intro _
        exact frameStarted_zero (piece.drop count) hheld hzero count
      · by_cases hwrapped : frameTarget front < mode.collected
        · have hshape :
              frameFront frameMax mode (held ++ piece) =
                .fault .undefinedBehaviour := by
            rw [frameFront, if_neg hlong, hnames, if_neg hname, htarget,
              if_neg hmax, if_neg hzero, if_pos hwrapped]
          simp only [Answers, hshape]
          intro hother
          exact (hother rfl).elim
        · have hfilling :=
            filling_started hbuffer hfront hheld hname (not_lt.mp hmax)
              (not_lt.mp hwrapped)
          have hrun :=
            frameStarted_eq (piece.drop count) hfront hheld hmax
              (Nat.pos_of_ne_zero hzero) count
          rw [hrun]
          apply fillFrame_answers hbuffer hfilling hstream
          · omega
          · omega

theorem amqpHandleInput_answers
    {state : InputState} (hcollected : Collected frameMax state mode held)
    (hpiece : piece ≠ []) :
    Answers frameMax (amqpHandleInput state piece) mode held piece := by
  have hpieceLength : 0 < piece.length := List.length_pos_of_ne_nil hpiece
  cases hcollected with
  | body hbuffer hfilling hshort =>
      rw [amqpHandleInput_body hfilling hpiece]
      exact fillFrame_answers hbuffer hfilling rfl rfl hshort
  | @header _ _ headerBuffer hshort hbuffer hheld =>
      have hmode := mode.collected_le
      let count := min (mode.collected - held.length) piece.length
      have hcount : count = min (mode.collected - held.length) piece.length :=
        rfl
      have htake : (piece.take count).length = count := by
        rw [List.length_take]
        omega
      have hroom :
          held.length + (piece.take count).length ≤ headerBuffer.length := by
        omega
      have hwritten := splice_take headerBuffer (piece.take count) hroom
      have hlength := splice_length (Or.inr hroom)
      rw [hheld, htake] at hwritten
      rw [hbuffer] at hlength
      rw [amqpHandleInput_header hshort hbuffer hpiece hcount]
      by_cases hmore : held.length + count < mode.collected
      · have hall : count = piece.length := by omega
        have hshape :
            frameFront frameMax mode (held ++ piece) = .more := by
          rw [frameFront, if_pos]
          rw [List.length_append]
          omega
        rw [if_pos hmore]
        rw [hall, List.take_length] at hwritten hlength
        have hstillShort : (held ++ piece).length < mode.collected := by
          rw [List.length_append]
          omega
        rw [← List.length_append] at hwritten
        have hstate :=
          @Collected.header frameMax _ _ _ hstillShort hlength hwritten
        rw [mode.collecting_append held hpiece, List.length_append] at hstate
        simp only [Answers, hshape, hall, List.take_length]
        exact ⟨trivial, hstate⟩
      · have hall : held.length + count = mode.collected := by omega
        rw [if_neg hmore]
        rw [hall] at hwritten ⊢
        have hfront : (held ++ piece.take count).length = mode.collected := by
          rw [List.length_append, htake, hall]
        have hstream :
            held ++ piece = (held ++ piece.take count) ++ piece.drop count := by
          rw [List.append_assoc, List.take_append_drop]
        exact headerState_answers hlength hfront hwritten hshort (by omega)
          hstream

end Call

/-! ## Whole streams -/

/-- Nothing is promised where the source is undefined. -/
def defined (status : Status) : Prop := status ≠ .undefinedBehaviour

theorem receives_amqpHandleInput (frameMax : ℕ) :
    Receives amqpHandleInput (frameSplitter frameMax) defined
      (Collected frameMax) := by
  constructor
  · intro state mode held hcollected
    cases hcollected with
    | header hshort => exact if_pos hshort
    | body _ hfilling hshort =>
        have hshape := frameFront_filling hfilling []
        rw [List.append_nil, if_pos hshort] at hshape
        exact hshape
  · intro state mode held piece hcollected hpiece hfront
    have hanswers := amqpHandleInput_answers hcollected hpiece
    have hshape : frameFront frameMax mode (held ++ piece) = .more := hfront
    simp only [Answers, hshape] at hanswers
    exact ⟨_, Prod.ext rfl hanswers.1, hanswers.2⟩
  · intro state mode held piece status hcollected hpiece hfront hdefined
    have hanswers := amqpHandleInput_answers hcollected hpiece
    have hshape : frameFront frameMax mode (held ++ piece) = .fault status :=
      hfront
    simp only [Answers, hshape] at hanswers
    exact ⟨_, Prod.ext rfl (hanswers hdefined)⟩
  · intro state mode held piece output next count hcollected hpiece hfront
    have hanswers := amqpHandleInput_answers hcollected hpiece
    have hshape :
        frameFront frameMax mode (held ++ piece) = .cut output next count :=
      hfront
    simp only [Answers, hshape] at hanswers
    exact ⟨hanswers.1, _, Prod.ext rfl hanswers.2.1, hanswers.2.2⟩

end RabbitWork
