import RabbitWork.FrameReceiving

/-!
# Streams of frames

What one side sends with `amqp_frame_to_bytes` the other side receives with
`amqp_handle_input`, wherever the network cuts the bytes.  The first frame of
a connection is an exception: its eighth byte is lost.  So are connections
whose peer sends a size that wraps or is larger than `frame_max`.
-/

namespace RabbitWork

open Wire Splitting

/-- The frames a connection hands over are the units of the bytes received,
and so do not depend on the pieces in which they arrive.  It ends with the
error the units end with.  Nothing is promised for bytes whose units end in
undefined behaviour. -/
theorem amqpHandleInput_any_pieces (frameMax : ℕ) (stream : Bytes) :
    ∃ frames ending,
      Splits (frameSplitter frameMax) .first stream frames ending ∧
        (ending ≠ .error .undefinedBehaviour →
          ∀ pieces, pieces.flatten = stream →
            Handed (Collected frameMax)
              (feed amqpHandleInput (amqpNewConnection frameMax) pieces)
              frames ending) := by
  obtain ⟨frames, ending, hsplits⟩ :=
    Splits.exists (frameSplitter frameMax) .first stream
  refine ⟨frames, ending, hsplits, ?_⟩
  intro hending pieces hpieces
  have hnew := collected_amqpNewConnection frameMax
  have hdefined : ∀ status, ending = .error status → defined status := by
    intro status hstatus hundefined
    rw [hundefined] at hstatus
    exact hending hstatus
  rw [← hpieces] at hsplits
  exact (receives_amqpHandleInput frameMax).feed pieces hnew hsplits hdefined

/-! ## Serialised frames at the front of a stream -/

section Serialised

variable {frameMax : ℕ} (frame : Frame)

theorem frameTarget_wire
    (hsize : frame.wire.length < 2 ^ 32) (rest : Bytes) :
    frameTarget (frame.wire ++ rest) = frame.wire.length := by
  have hlength := frame.wire_length
  have hpayload : frame.payload.wire.length < 256 ^ 4 := by omega
  have hnumber := amqpD_of_holds hpayload (wire_holds_size frame)
  have hheader : headerSize ≤ frame.wire.length := by omega
  rw [frameTarget_append rest hheader, frameTarget, hnumber, ← hlength]
  exact Nat.mod_eq_of_lt hsize

theorem frameType_ne_A
    (hstrings : frame.payload.stringsFit = true) (rest : Bytes) :
    (frame.wire ++ rest).take 4 ≠ protocolName := by
  intro hname
  have hhead :
      (frame.wire ++ rest).head? =
        some (UInt8.ofNat frame.payload.frameType.toNat) :=
    rfl
  have hbyte : protocolName.head? = some 'A'.toUInt8 := rfl
  rw [← hname, List.head?_take, if_neg (by decide), hhead,
    UInt8.ofNat_toNat, Option.some.injEq] at hbyte
  cases hpayload : frame.payload with
  | method | header | body | heartbeat =>
      rw [hpayload] at hbyte
      revert hbyte
      simp only [FramePayload.frameType]
      decide
  | protocolHeader =>
      rw [hpayload] at hstrings
      cases hstrings

/-- The frame as the connection sees it has been completed. -/
theorem frameFront_wire
    (mode : StreamMode) (hstrings : frame.payload.stringsFit = true)
    (hmax : frame.wire.length ≤ frameMax) (hsize : frame.wire.length < 2 ^ 32)
    (rest : Bytes) :
    frameFront frameMax mode (frame.wire ++ rest) =
      frontOfDecoded frame.wire.length
        (decodeFrame (mode.raw frame.wire) frame.wire.length) := by
  have hlength := frame.wire_length
  have hcollected := mode.collected_le
  have hlong : ¬ (frame.wire ++ rest).length < mode.collected := by
    rw [List.length_append]
    unfold headerSize footerSize at hlength
    omega
  have hname :
      ¬ (mode = .first ∧ (frame.wire ++ rest).take 4 = protocolName) := by
    intro hboth
    exact frameType_ne_A frame hstrings rest hboth.2
  have hover : ¬ frameMax < frame.wire.length := not_lt.mpr hmax
  have hzero : ¬ frame.wire.length = 0 := by
    unfold headerSize at hlength
    omega
  have hwrapped : ¬ frame.wire.length < mode.collected := by
    unfold headerSize footerSize at hlength
    omega
  have hwhole : ¬ (frame.wire ++ rest).length < frame.wire.length := by
    rw [List.length_append]
    omega
  rw [frameFront, if_neg hlong, if_neg hname, frameTarget_wire frame hsize,
    if_neg hover, if_neg hzero, if_neg hwrapped, if_neg hwhole,
    List.take_left' rfl]

end Serialised

/-! ## Frames sent and received -/

/-- The bytes on the wire after `amqp_send_frame` of one frame after the
other. -/
def sendFrames (outboundBuffer : Bytes) : List Frame → Except Status Bytes
  | [] => .ok []
  | frame :: frames => do
      let encoded ← amqpFrameToBytes frame outboundBuffer
      let rest ← sendFrames outboundBuffer frames
      .ok (encoded ++ rest)

/-- Frames are sent exactly if each of them can be. -/
theorem sendFrames_ok_iff
    {outboundBuffer : Bytes} (hbuffer : outboundBuffer.length < 2 ^ 32)
    (frames : List Frame) (bytes : Bytes) :
    sendFrames outboundBuffer frames = .ok bytes ↔
      bytes = frames.flatMap Frame.wire ∧
        ∀ frame ∈ frames,
          frame.payload.stringsFit = true ∧ frame.payload.lengthFits = true ∧
            frame.wire.length ≤ outboundBuffer.length := by
  induction frames generalizing bytes with
  | nil =>
      simp only [sendFrames, Except.ok.injEq, List.flatMap_nil,
        List.not_mem_nil, false_implies, implies_true, and_true]
      exact eq_comm
  | cons frame frames ih =>
      by_cases hfits :
          frame.payload.stringsFit = true ∧ frame.payload.lengthFits = true ∧
            frame.wire.length ≤ outboundBuffer.length
      · have hrun :=
          amqpFrameToBytes_eq frame hfits.1 hfits.2.1 hfits.2.2
        cases hrest : sendFrames outboundBuffer frames with
        | error status =>
            have hnone := ih (frames.flatMap Frame.wire)
            rw [hrest] at hnone
            simp only [sendFrames, hrun, hrest, bind, Except.bind,
              reduceCtorEq, false_iff]
            rintro ⟨_, hall⟩
            have hsome := hnone.mpr ⟨rfl, fun other hother =>
              hall other (List.mem_cons_of_mem frame hother)⟩
            cases hsome
        | ok others =>
            have hothers := (ih others).mp hrest
            simp only [sendFrames, hrun, hrest, bind, Except.bind,
              Except.ok.injEq, List.flatMap_cons, hothers.1]
            constructor
            · intro hbytes
              refine ⟨hbytes.symm, ?_⟩
              intro other hother
              rcases List.mem_cons.mp hother with heq | hmem
              · rw [heq]
                exact hfits
              · exact hothers.2 other hmem
            · rintro ⟨hbytes, _⟩
              exact hbytes.symm
      · obtain ⟨status, hstatus⟩ :=
          amqpFrameToBytes_refuses frame (Or.inr hbuffer) hfits
        simp only [sendFrames, hstatus, bind, Except.bind, reduceCtorEq,
          false_iff]
        rintro ⟨_, hall⟩
        exact hfits (hall frame List.mem_cons_self)

theorem splits_wires
    {frameMax : ℕ} (hmax : frameMax < 2 ^ 32) (frames : List Frame)
    (hfit : ∀ frame ∈ frames,
      frame.payload.stringsFit = true ∧ frame.payload.tablesFit = true ∧
        frame.wire.length ≤ frameMax) :
    Splits (frameSplitter frameMax) .later (frames.flatMap Frame.wire)
      (frames.map Frame.normal) (.ok (.later, [])) := by
  induction frames with
  | nil => exact .more rfl
  | cons frame frames ih =>
      have hrest := ih fun other hother =>
        hfit other (List.mem_cons_of_mem frame hother)
      obtain ⟨hstrings, htables, hlength⟩ := hfit frame List.mem_cons_self
      have hfront :
          (frameSplitter frameMax).front .later
              (frame.wire ++ frames.flatMap Frame.wire) =
            .cut (some frame.normal) .later frame.wire.length := by
        have hshape :=
          frameFront_wire frame .later hstrings hlength (by omega)
            (frames.flatMap Frame.wire)
        rw [StreamMode.raw, decodeFrame_wire frame hstrings htables] at hshape
        rw [frameSplitter_front, hshape, frontOfDecoded]
      have hdrop :
          (frame.wire ++ frames.flatMap Frame.wire).drop frame.wire.length =
            frames.flatMap Frame.wire :=
        List.drop_left' rfl
      rw [← hdrop] at hrest
      exact Splits.cut hfront hrest

/-- Frames that have been sent are received in the same order, wherever the
network cuts their bytes, by any connection between two frames that accepts
frames as large as the sender's. -/
theorem frames_arrive
    {outboundBuffer : Bytes} {frames : List Frame} {bytes : Bytes}
    (htables : ∀ frame ∈ frames, frame.payload.tablesFit = true)
    (hsent : sendFrames outboundBuffer frames = .ok bytes)
    {frameMax : ℕ} (hmax : outboundBuffer.length ≤ frameMax)
    (hint : frameMax < 2 ^ 32)
    {state : InputState} (hidle : Collected frameMax state .later [])
    (pieces : List Bytes) (hpieces : pieces.flatten = bytes) :
    Handed (Collected frameMax) (feed amqpHandleInput state pieces)
      (frames.map Frame.normal) (.ok (.later, [])) := by
  obtain ⟨hbytes, hfit⟩ :=
    (sendFrames_ok_iff (hmax.trans_lt hint) _ _).mp hsent
  have hall : ∀ frame ∈ frames,
      frame.payload.stringsFit = true ∧ frame.payload.tablesFit = true ∧
        frame.wire.length ≤ frameMax := by
    intro frame hframe
    obtain ⟨hstrings, _, hlength⟩ := hfit frame hframe
    exact ⟨hstrings, htables frame hframe, hlength.trans hmax⟩
  have hsplits := splits_wires hint frames hall
  rw [← hbytes, ← hpieces] at hsplits
  apply (receives_amqpHandleInput frameMax).feed pieces hidle hsplits
  intro status hstatus
  cases hstatus

/-- A body and a heartbeat. -/
def bodyAndHeartbeat : List Frame :=
  [⟨1, .body [1, 2]⟩, ⟨0, .heartbeat⟩]

theorem frames_arrive_bodyAndHeartbeat :
    Handed (Collected 16)
      (feed amqpHandleInput (amqpNewConnection 16).returnToIdle
        [[3, 0], [], [1, 0, 0, 0, 2, 1], [2, 206, 8, 0, 0, 0, 0, 0, 0, 206]])
      (bodyAndHeartbeat.map Frame.normal) (.ok (.later, [])) := by
  have hsent :
      sendFrames (List.replicate 16 0) bodyAndHeartbeat =
        .ok [3, 0, 1, 0, 0, 0, 2, 1, 2, 206, 8, 0, 0, 0, 0, 0, 0, 206] :=
    rfl
  exact frames_arrive (by decide) hsent (by decide) (by decide)
    (collected_idle 16) _ rfl

/-! ## The first frame of a connection -/

/-- What a new connection makes of the first frame it receives. -/
def Frame.asFirst (frame : Frame) : Except Status Frame :=
  match frame.payload with
  | .body (_ :: bodyFragment) =>
      .ok { frame with payload := .body (0 :: bodyFragment) }
  | .body [] => .error .badAmqpData
  | .heartbeat => .error .badAmqpData
  | _ => .ok frame.normal

theorem bigEndian_cons_zero
    (width : ℕ) {number : ℕ} (hnumber : number < 256 ^ width) :
    bigEndian (width + 1) number = 0 :: bigEndian width number := by
  induction width generalizing number with
  | zero =>
      have hzero : number = 0 := by simpa using hnumber
      rw [hzero]
      rfl
  | succ width ih =>
      have hquotient : number / 256 < 256 ^ width := by
        rw [pow_succ] at hnumber
        omega
      rw [bigEndian, ih hquotient]
      rfl

theorem MethodId.number_lt (id : MethodId) : id.number.toNat < 256 ^ 3 := by
  cases id <;> decide

theorem ContentClass.number_lt (contentClass : ContentClass) :
    contentClass.number.toNat < 256 ^ 1 := by
  cases contentClass <;> decide

/-- The first byte of the payload is lost. -/
theorem raw_first
    {frame : Frame} {byte : UInt8} {payload : Bytes}
    (hpayload : frame.payload.wire = byte :: payload) :
    StreamMode.first.raw frame.wire =
      frame.front ++
        (sizedWire (0 :: payload) ++ [frameEnd]) := by
  have hwire :
      frame.wire =
        (frame.front ++ bigEndian 4 (payload.length + 1)) ++
          byte :: (payload ++ [frameEnd]) := by
    rw [frame.wire_eq, sizedWire, hpayload]
    simp
  have hlength :
      (frame.front ++ bigEndian 4 (payload.length + 1)).length =
        headerSize := by
    rw [List.length_append, frame.front_length, bigEndian_length]
    rfl
  have hdrop :
      frame.wire.drop (headerSize + [(0 : UInt8)].length) =
        payload ++ [frameEnd] := by
    rw [hwire, ← List.drop_drop, List.drop_left' hlength]
    rfl
  rw [StreamMode.raw, splice, hdrop, hwire, List.take_left' hlength]
  simp [sizedWire]

theorem raw_first_zero
    {frame : Frame} {payload : Bytes}
    (hpayload : frame.payload.wire = 0 :: payload) :
    StreamMode.first.raw frame.wire = frame.wire := by
  rw [raw_first hpayload, ← hpayload, frame.wire_eq]

/-- The payloads of methods and content headers begin with a zero byte. -/
theorem wire_cons_zero (frame : Frame)
    (hstrings : frame.payload.stringsFit = true) :
    (∃ payload, frame.payload.wire = 0 :: payload) ∨
      (∃ bodyFragment, frame.payload = .body bodyFragment) ∨
        frame.payload = .heartbeat := by
  cases hpayload : frame.payload with
  | method method =>
      left
      rw [FramePayload.wire, bigEndian_cons_zero 3 method.id.number_lt]
      exact ⟨_, rfl⟩
  | header bodySize properties =>
      left
      rw [FramePayload.wire,
        bigEndian_cons_zero 1 properties.contentClass.number_lt]
      exact ⟨_, rfl⟩
  | body bodyFragment => exact Or.inr (Or.inl ⟨bodyFragment, rfl⟩)
  | heartbeat => exact Or.inr (Or.inr rfl)
  | protocolHeader =>
      rw [hpayload] at hstrings
      cases hstrings

/-- Without a payload the end marker is lost. -/
theorem decodeFrame_first_empty
    {frame : Frame} (hpayload : frame.payload.wire = []) :
    decodeFrame (StreamMode.first.raw frame.wire) frame.wire.length =
      .error .badAmqpData := by
  have hlength := frame.wire_length
  rw [hpayload] at hlength
  have hraw :
      StreamMode.first.raw frame.wire =
        frame.wire.take headerSize ++ [0] := by
    have hdrop :
        frame.wire.drop (headerSize + [(0 : UInt8)].length) = [] :=
      List.drop_of_length_le hlength.le
    rw [StreamMode.raw, splice, hdrop, List.append_nil]
  have hfront : (frame.wire.take headerSize).length = headerSize := by
    rw [List.length_take, hlength]
    rfl
  have hend :
      amqpD 1 (StreamMode.first.raw frame.wire) (frame.wire.length - 1) =
        0 := by
    rw [hraw, hlength]
    change amqpD 1 _ headerSize = 0
    rw [amqpD, List.drop_left' hfront]
    rfl
  have hmarker : 0 ≠ frameEnd.toNat := by decide
  rw [decodeFrame, hend, if_pos hmarker]

theorem decodeFrame_first
    (frame : Frame) (hstrings : frame.payload.stringsFit = true)
    (htables : frame.payload.tablesFit = true) :
    decodeFrame (StreamMode.first.raw frame.wire) frame.wire.length =
      frame.asFirst.map some := by
  obtain ⟨channel, payload⟩ := frame
  cases payload with
  | method method =>
      obtain ⟨rest, hrest⟩ | ⟨_, hbody⟩ | hbeat :=
        wire_cons_zero ⟨channel, .method method⟩ hstrings
      · rw [raw_first_zero hrest, decodeFrame_wire _ hstrings htables]
        rfl
      · cases hbody
      · cases hbeat
  | header bodySize properties =>
      obtain ⟨rest, hrest⟩ | ⟨_, hbody⟩ | hbeat :=
        wire_cons_zero ⟨channel, .header bodySize properties⟩ hstrings
      · rw [raw_first_zero hrest, decodeFrame_wire _ hstrings htables]
        rfl
      · cases hbody
      · cases hbeat
  | body bodyFragment =>
      cases bodyFragment with
      | nil => exact decodeFrame_first_empty rfl
      | cons byte bodyFragment =>
          let frame : Frame := ⟨channel, .body (byte :: bodyFragment)⟩
          let received : Frame := ⟨channel, .body (0 :: bodyFragment)⟩
          have hpayload : frame.payload.wire = byte :: bodyFragment := rfl
          have hraw : StreamMode.first.raw frame.wire = received.wire :=
            raw_first hpayload
          have hlength : frame.wire.length = received.wire.length := by
            rw [frame.wire_length, received.wire_length]
            rfl
          change decodeFrame (StreamMode.first.raw frame.wire)
            frame.wire.length = _
          rw [hraw, hlength, decodeFrame_wire received rfl rfl]
          rfl
  | heartbeat => exact decodeFrame_first_empty rfl
  | protocolHeader => cases hstrings

/-- A new connection receives a method or a content header unharmed; of a body
it loses the first byte, and it rejects a frame without a payload. -/
theorem first_frame_arrives
    {frame : Frame} (hstrings : frame.payload.stringsFit = true)
    (htables : frame.payload.tablesFit = true) {frameMax : ℕ}
    (hmax : frame.wire.length ≤ frameMax) (hint : frameMax < 2 ^ 32)
    (pieces : List Bytes) (hpieces : pieces.flatten = frame.wire) :
    Handed (Collected frameMax)
      (feed amqpHandleInput (amqpNewConnection frameMax) pieces)
      frame.asFirst.toOption.toList
      (frame.asFirst.map fun _ => (.later, [])) := by
  have hshape :=
    frameFront_wire frame .first hstrings hmax (hmax.trans_lt hint) []
  rw [List.append_nil, decodeFrame_first frame hstrings htables] at hshape
  have hnew := collected_amqpNewConnection frameMax
  cases hfirst : frame.asFirst with
  | error status =>
      rw [hfirst] at hshape
      have hsplits :
          Splits (frameSplitter frameMax) .first ([] ++ pieces.flatten) []
            (.error status) := by
        rw [List.nil_append, hpieces]
        exact .fault hshape
      apply (receives_amqpHandleInput frameMax).feed pieces hnew hsplits
      intro other hother
      cases hother
      intro hundefined
      rw [hundefined] at hfirst
      unfold Frame.asFirst at hfirst
      split at hfirst <;> cases hfirst
  | ok received =>
      rw [hfirst] at hshape
      have hsplits :
          Splits (frameSplitter frameMax) .first ([] ++ pieces.flatten)
            ((some received).toList ++ []) (.ok (.later, [])) := by
        have hfront :
            (frameSplitter frameMax).front .first frame.wire =
              .cut (some received) .later frame.wire.length := by
          rw [frameSplitter_front, hshape]
          rfl
        rw [List.nil_append, hpieces]
        apply Splits.cut hfront
        rw [List.drop_length]
        exact .more rfl
      apply (receives_amqpHandleInput frameMax).feed pieces hnew hsplits
      intro other hother
      cases hother

/-- The 5 of the body is lost. -/
theorem first_frame_arrives_body :
    Handed (Collected 16)
      (feed amqpHandleInput (amqpNewConnection 16)
        [[3, 0, 1, 0, 0], [0, 2, 5, 6, 206]])
      (Frame.asFirst ⟨1, .body [5, 6]⟩).toOption.toList
      ((Frame.asFirst ⟨1, .body [5, 6]⟩).map fun _ => (.later, [])) :=
  @first_frame_arrives ⟨1, .body [5, 6]⟩ rfl rfl 16 (by decide) (by decide)
    [[3, 0, 1, 0, 0], [0, 2, 5, 6, 206]] rfl

end RabbitWork
