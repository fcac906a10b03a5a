import RabbitWork.FrameQueue

/-!
# Sending frames

`amqp_send_frame_inner` serialises a frame and hands the bytes to `send` until
all of them have been accepted.  `send` may accept any part of them.  When the
peer has been silent for too long in the meantime, the connection receives,
which puts frames into the queue, and then goes on with the rest.

What the socket does is a list of answers; a call that finds none blocks.
-/

namespace RabbitWork

open Wire Splitting

/-- `sent count` accepts `count + 1` bytes, or all that are left.  After
`ready` the socket may be written to again.  The deadline of `timedOut` is that
of the call or that of the peer.  `failed code` is the status `-(code + 1)`. -/
inductive SendAnswer where
  | sent (count : ℕ)
  | ready
  | timedOut (ownDeadline : Bool)
  | failed (code : ℕ)
  deriving DecidableEq, Repr

/-- `sends` are the parts that `send` has accepted, and whether they were
flagged `AMQP_SF_MORE`. -/
structure SendState where
  conn : SocketState
  outboundBuffer : Bytes
  answers : List SendAnswer
  sends : List (Bytes × Bool)

/-- The bytes on the wire. -/
def SendState.written (state : SendState) : Bytes :=
  (state.sends.map Prod.fst).flatten

/-- How `amqp_try_send` returns: with the length of the buffer, with less than
that, or with a status. -/
inductive TrySend where
  | complete
  | timedOut (ownDeadline : Bool) (bufLeft : Bytes)
  | failed (code : ℕ)
  deriving DecidableEq, Repr

/-- `amqp_try_send` when these answers are still to come. -/
def amqpTrySend (more : Bool) :
    List SendAnswer → Bytes → SendState → Option (TrySend × SendState)
  | [], _, _ => none
  | .sent count :: answers, bufLeft, state =>
      let state := { state with
        answers := answers
        sends := state.sends ++ [(bufLeft.take (count + 1), more)] }
      if bufLeft.drop (count + 1) = [] then
        some (.complete, state)
      else
        amqpTrySend more answers (bufLeft.drop (count + 1)) state
  | .ready :: answers, bufLeft, state =>
      amqpTrySend more answers bufLeft { state with answers := answers }
  | .timedOut ownDeadline :: answers, bufLeft, state =>
      some (.timedOut ownDeadline bufLeft, { state with answers := answers })
  | .failed code :: answers, _, state =>
      some (.failed code, { state with answers := answers })

inductive SendError where
  | encoder (status : Status)
  | connection (error : WaitError)
  deriving DecidableEq, Repr

/-- `AMQP_STATUS_HEARTBEAT_TIMEOUT`. -/
def heartbeatTimeoutCode : ℕ := 0x000F - 1

/-- A call of `amqp_try_recv` for a peer that has been silent for too long. -/
def recvFromSilentPeer (state : SendState) :
    Except SendError Unit × SendState :=
  match amqpTryRecv state.conn with
  | (.ok (), conn) => (.ok (), { state with conn := conn })
  | (.error error, conn) =>
      let error :=
        if error = .socket timeoutCode then .socket heartbeatTimeoutCode
        else error
      (.error (.connection error), { state with conn := conn })

/-- The loop at `start_send` of `amqp_send_frame_inner`. -/
def sendEncoded (more : Bool) :
    ℕ → Bytes → SendState → Option (Except SendError Unit × SendState)
  | 0, _, _ => none
  | fuel + 1, encoded, state =>
      match amqpTrySend more state.answers encoded state with
      | none => none
      | some (.complete, state) => some (.ok (), state)
      | some (.failed code, state) =>
          some (.error (.connection (.socket code)), state)
      | some (.timedOut true _, state) =>
          some (.error (.connection (.socket timeoutCode)), state)
      | some (.timedOut false bufLeft, state) =>
          match recvFromSilentPeer state with
          | (.ok (), state) => sendEncoded more fuel bufLeft state
          | (.error error, state) => some (.error error, state)

/-- `amqp_send_frame_inner`. -/
def amqpSendFrameInner (frame : Frame) (more : Bool) (state : SendState) :
    Option (Except SendError Unit × SendState) :=
  match amqpFrameToBytes frame state.outboundBuffer with
  | .error status => some (.error (.encoder status), state)
  | .ok encoded => sendEncoded more state.answers.length encoded state

/-! ## What has been sent -/

/-- All of the bytes but `left` have been accepted, in parts with this flag. -/
def Sent (more : Bool) (before after : SendState) (bytes left : Bytes) :
    Prop :=
  ∃ pieces : List Bytes,
    after.sends =
        before.sends ++ pieces.map (fun piece => (piece, more)) ∧
      pieces.flatten ++ left = bytes

section Sent

variable {more : Bool} {state next after : SendState} {bytes rest left : Bytes}

theorem sent_nothing (hsends : after.sends = state.sends) (bytes : Bytes) :
    Sent more state after bytes bytes := by
  refine ⟨[], ?_, rfl⟩
  rw [hsends]
  exact (List.append_nil _).symm

theorem sent_piece
    (hsends : after.sends = state.sends ++ [(bytes, more)]) (left : Bytes) :
    Sent more state after (bytes ++ left) left := by
  refine ⟨[bytes], hsends, ?_⟩
  rw [List.flatten_cons, List.flatten_nil, List.append_nil]

theorem Sent.trans
    (hfirst : Sent more state next bytes rest)
    (hsecond : Sent more next after rest left) :
    Sent more state after bytes left := by
  obtain ⟨first, hnext, hbytes⟩ := hfirst
  obtain ⟨second, hafter, hrest⟩ := hsecond
  refine ⟨first ++ second, ?_, ?_⟩
  · rw [hafter, hnext, List.map_append, List.append_assoc]
  · rw [List.flatten_append, List.append_assoc, hrest, hbytes]

theorem Sent.written
    (hsent : Sent more state after bytes left) :
    after.written ++ left = state.written ++ bytes := by
  obtain ⟨pieces, hafter, hbytes⟩ := hsent
  have hpieces :
      (pieces.map fun piece => (piece, more)).map Prod.fst = pieces := by
    rw [List.map_map]
    exact List.map_id pieces
  unfold SendState.written
  rw [hafter, List.map_append, List.flatten_append, hpieces,
    List.append_assoc, hbytes]

/-- The flag of the last part is that of the frame. -/
theorem Sent.last_flag
    (hsent : Sent more state after bytes []) (hbytes : bytes ≠ []) :
    after.sends.getLast?.map Prod.snd = some more := by
  obtain ⟨pieces, hafter, hflatten⟩ := hsent
  rw [List.append_nil] at hflatten
  rcases List.eq_nil_or_concat pieces with hnil | ⟨others, piece, hconcat⟩
  · rw [hnil] at hflatten
    exact (hbytes hflatten.symm).elim
  · rw [hafter, hconcat]
    simp

end Sent

/-! ## What is received meanwhile -/

/-- The connection after some calls of `amqp_try_recv` that the decoder has
not refused. -/
inductive Received : SocketState → SocketState → Prop where
  | refl (conn : SocketState) : Received conn conn
  | head {conn next after : SocketState} {result : Except WaitError Unit}
      (hrecv : amqpTryRecv conn = (result, next))
      (hdecoded : ∀ status, result ≠ .error (.decoder status))
      (hrest : Received next after) :
      Received conn after

theorem Received.trans
    {conn next after : SocketState} (hfirst : Received conn next)
    (hsecond : Received next after) : Received conn after := by
  induction hfirst with
  | refl => exact hsecond
  | head hrecv hdecoded _ ih => exact .head hrecv hdecoded (ih hsecond)

/-- What has been received stands at the end of the queue. -/
theorem Received.appends
    {conn after : SocketState} {frames : List Frame} {error : Option Status}
    (hreceived : Received conn after) (hpending : Pending conn frames error) :
    ∃ arrived rest, frames = arrived ++ rest ∧
      after.queued = conn.queued ++ arrived ∧ Pending after rest error := by
  induction hreceived generalizing frames with
  | refl => exact ⟨[], frames, rfl, (List.append_nil _).symm, hpending⟩
  | head hrecv hdecoded _ ih =>
      obtain ⟨first, others, hframes, hqueued, hnext⟩ :=
        amqpTryRecv_appends hpending hrecv hdecoded
      obtain ⟨second, rest, hothers, hqueued', hafter⟩ := ih hnext
      refine ⟨first ++ second, rest, ?_, ?_, hafter⟩
      · rw [hframes, hothers, List.append_assoc]
      · rw [hqueued', hqueued, List.append_assoc]

/-- The decoder has not refused anything. -/
def Decoded (result : Except SendError Unit) : Prop :=
  ∀ status, result ≠ .error (.connection (.decoder status))

theorem decoded_ok : Decoded (.ok ()) := by
  intro status hstatus
  cases hstatus

theorem recvFromSilentPeer_frame (state : SendState) :
    (recvFromSilentPeer state).2.outboundBuffer = state.outboundBuffer ∧
      (recvFromSilentPeer state).2.answers = state.answers ∧
      (recvFromSilentPeer state).2.sends = state.sends := by
  unfold recvFromSilentPeer
  split <;> exact ⟨rfl, rfl, rfl⟩

theorem recvFromSilentPeer_received
    {state after : SendState} {result : Except SendError Unit}
    (hrun : recvFromSilentPeer state = (result, after))
    (hdecoded : Decoded result) : Received state.conn after.conn := by
  cases hrecv : amqpTryRecv state.conn with
  | mk received conn =>
      cases received with
      | ok =>
          simp only [recvFromSilentPeer, hrecv, Prod.mk.injEq] at hrun
          rw [← hrun.2]
          apply Received.head hrecv _ (.refl conn)
          intro status hstatus
          cases hstatus
      | error error =>
          simp only [recvFromSilentPeer, hrecv, Prod.mk.injEq] at hrun
          rw [← hrun.2]
          apply Received.head hrecv _ (.refl conn)
          intro status hstatus
          rw [Except.error.injEq] at hstatus
          have hother : WaitError.decoder status ≠ .socket timeoutCode := by
            intro hsame
            cases hsame
          apply hdecoded status
          rw [← hrun.1, hstatus, if_neg hother]

/-! ## One frame -/

/-- What is left of the bytes when the call returns. -/
def TrySend.Leaves : TrySend → Bytes → Prop
  | .complete, left => left = []
  | .timedOut _ bufLeft, left => bufLeft = left ∧ left ≠ []
  | .failed _, left => left ≠ []

/-- One call has used some of the answers and left the rest alone. -/
structure Progressed (state after : SendState) : Prop where
  outboundBuffer : after.outboundBuffer = state.outboundBuffer
  answers : after.answers.length < state.answers.length

theorem amqpTrySend_sent
    (more : Bool) (answers : List SendAnswer) {state after : SendState}
    {bytes : Bytes} {result : TrySend} (hbytes : bytes ≠ [])
    (hrun : amqpTrySend more answers bytes state = some (result, after)) :
    ∃ left, Sent more state after bytes left ∧ result.Leaves left ∧
      after.conn = state.conn ∧
      after.outboundBuffer = state.outboundBuffer ∧
      after.answers.length < answers.length := by
  induction answers generalizing state bytes with
  | nil => cases hrun
  | cons answer answers ih =>
      cases answer with
      | sent count =>
          let next : SendState := { state with
            answers := answers
            sends := state.sends ++ [(bytes.take (count + 1), more)] }
          have hpiece :
              Sent more state next bytes (bytes.drop (count + 1)) := by
            have hsent :=
              @sent_piece more state next (bytes.take (count + 1)) rfl
                (bytes.drop (count + 1))
            rw [List.take_append_drop] at hsent
            exact hsent
          by_cases hleft : bytes.drop (count + 1) = []
          · simp only [amqpTrySend, if_pos hleft, Option.some.injEq,
              Prod.mk.injEq] at hrun
            rw [← hrun.1, ← hrun.2]
            rw [hleft] at hpiece
            exact ⟨[], hpiece, rfl, rfl, rfl, Nat.lt_succ_self _⟩
          · simp only [amqpTrySend, if_neg hleft] at hrun
            obtain ⟨left, hrest, hleaves, hconn, hbuffer, hlength⟩ :=
              ih hleft hrun
            refine ⟨left, hpiece.trans hrest, hleaves, hconn, hbuffer, ?_⟩
            exact Nat.lt_succ_of_lt hlength
      | ready =>
          obtain ⟨left, hrest, hleaves, hconn, hbuffer, hlength⟩ :=
            ih hbytes hrun
          refine ⟨left, hrest, hleaves, hconn, hbuffer, ?_⟩
          exact Nat.lt_succ_of_lt hlength
      | timedOut ownDeadline =>
          simp only [amqpTrySend, Option.some.injEq, Prod.mk.injEq] at hrun
          rw [← hrun.1, ← hrun.2]
          exact ⟨bytes, sent_nothing rfl bytes, ⟨rfl, hbytes⟩, rfl, rfl,
            Nat.lt_succ_self _⟩
      | failed code =>
          simp only [amqpTrySend, Option.some.injEq, Prod.mk.injEq] at hrun
          rw [← hrun.1, ← hrun.2]
          exact ⟨bytes, sent_nothing rfl bytes, hbytes, rfl, rfl,
            Nat.lt_succ_self _⟩

theorem sendEncoded_sent
    (more : Bool) (fuel : ℕ) {state after : SendState} {bytes : Bytes}
    {result : Except SendError Unit} (hbytes : bytes ≠ [])
    (hrun : sendEncoded more fuel bytes state = some (result, after)) :
    (∃ left, Sent more state after bytes left ∧
      (result = .ok () ↔ left = [])) ∧
    Progressed state after ∧
    (Decoded result → Received state.conn after.conn) := by
  induction fuel generalizing state bytes with
  | zero => cases hrun
  | succ fuel ih =>
      cases htry : amqpTrySend more state.answers bytes state with
      | none => simp [sendEncoded, htry] at hrun
      | some tried =>
          obtain ⟨tried, next⟩ := tried
          obtain ⟨left, hsent, hleaves, hconn, hbuffer, hlength⟩ :=
            amqpTrySend_sent more state.answers hbytes htry
          have hprogressed : Progressed state next := ⟨hbuffer, hlength⟩
          have hkept : Received state.conn next.conn := by
            rw [hconn]
            exact .refl state.conn
          cases tried with
          | complete =>
              simp only [sendEncoded, htry, Option.some.injEq,
                Prod.mk.injEq] at hrun
              rw [← hrun.1, ← hrun.2]
              exact ⟨⟨left, hsent, iff_of_true rfl hleaves⟩, hprogressed,
                fun _ => hkept⟩
          | failed code =>
              simp only [sendEncoded, htry, Option.some.injEq,
                Prod.mk.injEq] at hrun
              rw [← hrun.1, ← hrun.2]
              exact ⟨⟨left, hsent, iff_of_false (by simp) hleaves⟩,
                hprogressed, fun _ => hkept⟩
          | timedOut ownDeadline bufLeft =>
              obtain ⟨hsame, hmore⟩ := hleaves
              rw [hsame] at htry
              cases ownDeadline with
              | true =>
                  simp only [sendEncoded, htry, Option.some.injEq,
                    Prod.mk.injEq] at hrun
                  rw [← hrun.1, ← hrun.2]
                  exact ⟨⟨left, hsent, iff_of_false (by simp) hmore⟩,
                    hprogressed, fun _ => hkept⟩
              | false =>
                  have hframe := recvFromSilentPeer_frame next
                  cases hrecv : recvFromSilentPeer next with
                  | mk received waited =>
                      rw [hrecv] at hframe
                      obtain ⟨hbuffer', hanswers', hsends'⟩ := hframe
                      have hnothing :=
                        @sent_nothing more next waited hsends' left
                      have hfirst := hsent.trans hnothing
                      have hwaited : Progressed state waited :=
                        ⟨hbuffer'.trans hbuffer, by rw [hanswers']; exact hlength⟩
                      cases received with
                      | error error =>
                          simp only [sendEncoded, htry, hrecv,
                            Option.some.injEq, Prod.mk.injEq] at hrun
                          rw [← hrun.1, ← hrun.2]
                          refine ⟨⟨left, hfirst, iff_of_false (by simp) hmore⟩,
                            hwaited, ?_⟩
                          intro hdecoded
                          exact hkept.trans
                            (recvFromSilentPeer_received hrecv hdecoded)
                      | ok =>
                          simp only [sendEncoded, htry, hrecv] at hrun
                          obtain ⟨⟨last, hrest, hresult⟩, hafter, hreceived⟩ :=
                            ih hmore hrun
                          refine ⟨⟨last, hfirst.trans hrest, hresult⟩, ?_, ?_⟩
                          · exact ⟨hafter.outboundBuffer.trans
                              hwaited.outboundBuffer,
                              hafter.answers.trans hwaited.answers⟩
                          · intro hdecoded
                            have hpolled :=
                              recvFromSilentPeer_received hrecv decoded_ok
                            exact (hkept.trans hpolled).trans
                              (hreceived hdecoded)

theorem Frame.wire_ne_nil (frame : Frame) : frame.wire ≠ [] := by
  intro hnil
  have hlength := frame.wire_length
  rw [hnil, List.length_nil] at hlength
  unfold headerSize at hlength
  omega

/-- What sending a frame does: the bytes of the frame go out from the first
on, all of them exactly if the call succeeds, and nothing if the frame is
refused. -/
theorem amqpSendFrameInner_sent
    {frame : Frame} {more : Bool} {state after : SendState}
    {result : Except SendError Unit}
    (hint : frame.payload.lengthFits = true ∨
      state.outboundBuffer.length < 2 ^ 32)
    (hrun : amqpSendFrameInner frame more state = some (result, after)) :
    (∃ left, Sent more state after frame.wire left ∧
      (result = .ok () ↔ left = [])) ∧
    after.outboundBuffer = state.outboundBuffer ∧
    (result = .ok () → after.answers.length < state.answers.length ∧
      frame.payload.stringsFit = true ∧
        frame.wire.length ≤ state.outboundBuffer.length) ∧
    (Decoded result → Received state.conn after.conn) := by
  by_cases hfits :
      frame.payload.stringsFit = true ∧ frame.payload.lengthFits = true ∧
        frame.wire.length ≤ state.outboundBuffer.length
  · have hencoded := amqpFrameToBytes_eq frame hfits.1 hfits.2.1 hfits.2.2
    simp only [amqpSendFrameInner, hencoded] at hrun
    obtain ⟨hsent, hprogressed, hreceived⟩ :=
      sendEncoded_sent more _ frame.wire_ne_nil hrun
    exact ⟨hsent, hprogressed.outboundBuffer,
      fun _ => ⟨hprogressed.answers, hfits.1, hfits.2.2⟩, hreceived⟩
  · obtain ⟨status, hstatus⟩ := amqpFrameToBytes_refuses frame hint hfits
    simp only [amqpSendFrameInner, hstatus, Option.some.injEq,
      Prod.mk.injEq] at hrun
    rw [← hrun.1, ← hrun.2]
    refine ⟨⟨frame.wire, sent_nothing rfl _, ?_⟩, rfl, ?_, ?_⟩
    · exact iff_of_false (by simp) frame.wire_ne_nil
    · intro hok
      cases hok
    · intro _
      exact .refl state.conn

/-! ## Frames one after the other -/

/-- Frames with their flags, until one of them fails. -/
def sendEach : List (Frame × Bool) → SendState →
    Option (Except SendError Unit × SendState)
  | [], state => some (.ok (), state)
  | (frame, more) :: frames, state =>
      match amqpSendFrameInner frame more state with
      | none => none
      | some (.error error, state) => some (.error error, state)
      | some (.ok (), state) => sendEach frames state

theorem sendEach_nil (state : SendState) :
    sendEach [] state = some (.ok (), state) :=
  rfl

section Each

variable {frame : Frame} {more : Bool} {frames : List (Frame × Bool)}
  {state next : SendState}

theorem sendEach_sent_head
    (hsend : amqpSendFrameInner frame more state = some (.ok (), next)) :
    sendEach ((frame, more) :: frames) state = sendEach frames next := by
  simp only [sendEach, hsend]

theorem sendEach_failed_head
    {error : SendError}
    (hsend :
      amqpSendFrameInner frame more state = some (.error error, next)) :
    sendEach ((frame, more) :: frames) state = some (.error error, next) := by
  simp only [sendEach, hsend]

theorem sendEach_blocked_head
    (hsend : amqpSendFrameInner frame more state = none) :
    sendEach ((frame, more) :: frames) state = none := by
  simp only [sendEach, hsend]

end Each

/-- What goes out is a part of the frames from the first on, and only of frames
that have not been refused. -/
theorem sendEach_sent
    (frames : List (Frame × Bool)) {state after : SendState}
    {result : Except SendError Unit}
    (hint : ∀ frame ∈ frames, frame.1.payload.lengthFits = true ∨
      state.outboundBuffer.length < 2 ^ 32)
    (hrun : sendEach frames state = some (result, after)) :
    (∃ tried others left,
      frames.map Prod.fst = tried ++ others ∧
        after.written ++ left = state.written ++ tried.flatMap Frame.wire ∧
        (∀ frame ∈ tried, frame.payload.stringsFit = true ∧
          frame.wire.length ≤ state.outboundBuffer.length) ∧
        (result = .ok () ↔ others = [] ∧ left = [])) ∧
    (Decoded result → Received state.conn after.conn) := by
  induction frames generalizing state with
  | nil =>
      rw [sendEach_nil, Option.some.injEq, Prod.mk.injEq] at hrun
      rw [← hrun.1, ← hrun.2]
      refine ⟨⟨[], [], [], rfl, rfl, ?_, iff_of_true rfl ⟨rfl, rfl⟩⟩, ?_⟩
      · intro frame hframe
        cases hframe
      · intro _
        exact .refl state.conn
  | cons head frames ih =>
      obtain ⟨frame, more⟩ := head
      cases hsend : amqpSendFrameInner frame more state with
      | none =>
          rw [sendEach_blocked_head hsend] at hrun
          cases hrun
      | some sent =>
          obtain ⟨first, next⟩ := sent
          have hhead := hint (frame, more) List.mem_cons_self
          obtain ⟨⟨left, hsent, hleft⟩, hbuffer, hfits, hreceived⟩ :=
            amqpSendFrameInner_sent hhead hsend
          have hwritten := hsent.written
          cases first with
          | error error =>
              rw [sendEach_failed_head hsend, Option.some.injEq,
                Prod.mk.injEq] at hrun
              rw [← hrun.1, ← hrun.2]
              refine ⟨?_, hreceived⟩
              by_cases hframe :
                  frame.payload.stringsFit = true ∧
                    frame.payload.lengthFits = true ∧
                    frame.wire.length ≤ state.outboundBuffer.length
              · refine ⟨[frame], frames.map Prod.fst, left, rfl, ?_, ?_, ?_⟩
                · rw [hwritten, List.flatMap_singleton]
                · intro other hother
                  rw [List.mem_singleton.mp hother]
                  exact ⟨hframe.1, hframe.2.2⟩
                · apply iff_of_false (by simp)
                  intro hnone
                  cases hleft.mpr hnone.2
              · obtain ⟨status, hstatus⟩ :=
                  amqpFrameToBytes_refuses frame hhead hframe
                simp only [amqpSendFrameInner, hstatus, Option.some.injEq,
                  Prod.mk.injEq] at hsend
                rw [← hsend.2]
                refine ⟨[], frame :: frames.map Prod.fst, [], rfl, rfl, ?_,
                  ?_⟩
                · intro other hother
                  cases hother
                · apply iff_of_false (by simp)
                  intro hnone
                  cases hnone.1
          | ok =>
              rw [sendEach_sent_head hsend] at hrun
              rw [← hbuffer, List.forall_mem_cons] at hint
              obtain ⟨⟨tried, others, rest, hframes, hrest, htried, hlast⟩,
                hafter⟩ := ih hint.2 hrun
              rw [hleft.mp rfl, List.append_nil] at hwritten
              refine ⟨⟨frame :: tried, others, rest, ?_, ?_, ?_, hlast⟩, ?_⟩
              · rw [List.map_cons, hframes, List.cons_append]
              · rw [hrest, hwritten, List.flatMap_cons, List.append_assoc]
              · intro other hother
                rcases List.mem_cons.mp hother with heq | hmem
                · rw [heq]
                  exact (hfits rfl).2
                · have hfit := htried other hmem
                  rw [hbuffer] at hfit
                  exact hfit
              · intro hdecoded
                exact (hreceived decoded_ok).trans (hafter hdecoded)

/-- The last part that has gone out has the flag of the last frame. -/
theorem sendEach_last_flag
    (frames : List (Frame × Bool)) {state after : SendState}
    (hframes : frames ≠ [])
    (hint : ∀ frame ∈ frames, frame.1.payload.lengthFits = true ∨
      state.outboundBuffer.length < 2 ^ 32)
    (hrun : sendEach frames state = some (.ok (), after)) :
    after.sends.getLast?.map Prod.snd = frames.getLast?.map Prod.snd := by
  induction frames generalizing state with
  | nil => exact (hframes rfl).elim
  | cons head frames ih =>
      obtain ⟨frame, more⟩ := head
      cases hsend : amqpSendFrameInner frame more state with
      | none =>
          rw [sendEach_blocked_head hsend] at hrun
          cases hrun
      | some sent =>
          obtain ⟨first, next⟩ := sent
          cases first with
          | error error =>
              rw [sendEach_failed_head hsend] at hrun
              cases hrun
          | ok =>
              rw [sendEach_sent_head hsend] at hrun
              obtain ⟨⟨left, hsent, hleft⟩, hbuffer, _, _⟩ :=
                amqpSendFrameInner_sent
                  (hint (frame, more) List.mem_cons_self) hsend
              cases hrest : frames with
              | nil =>
                  rw [hrest, sendEach_nil, Option.some.injEq,
                    Prod.mk.injEq] at hrun
                  rw [hleft.mp rfl] at hsent
                  rw [← hrun.2, hsent.last_flag frame.wire_ne_nil]
                  rfl
              | cons other others =>
                  rw [← hbuffer, List.forall_mem_cons] at hint
                  have hlast :=
                    ih (by rw [hrest]; exact List.cons_ne_nil _ _) hint.2 hrun
                  rw [hlast, hrest, List.getLast?_cons_cons]

end RabbitWork
