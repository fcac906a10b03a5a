import RabbitWork.FrameSending

/-!
# Heartbeats while waiting

`wait_frame_inner` sends a heartbeat when one is due, and then receives.  A
heartbeat that `send` takes at once changes nothing for the frames.  But if the
peer has been silent for too long before it has been sent, the connection
receives in between, and the receive that follows writes over that input.
-/

namespace RabbitWork

open Wire Splitting

def heartbeatFrame : Frame where
  channel := 0
  payload := .heartbeat

/-- The heartbeats sent at `beginrecv` before something is received. -/
def sendHeartbeats (count : ℕ) (state : SendState) :
    Option (Except SendError Unit × SendState) :=
  sendEach (List.replicate count (heartbeatFrame, false)) state

/-- `wait_frame_inner`; `due` says how many heartbeats become due before
something is received for the first, the second and every further time. -/
def waitFrameBeating :
    ℕ → List ℕ → SendState → Option (Except SendError Frame × SendState)
  | 0, _, _ => none
  | fuel + 1, due, state =>
      match waitBuffered state.conn.sockInbound.length state.conn with
      | (some (.ok frame), conn) =>
          some (.ok frame, { state with conn := conn })
      | (some (.error status), conn) =>
          some (.error (.connection (.decoder status)),
            { state with conn := conn })
      | (none, conn) =>
          match sendHeartbeats (due.headD 0) { state with conn := conn } with
          | none => none
          | some (.error error, state) => some (.error error, state)
          | some (.ok (), state) =>
              match state.conn.incoming with
              | [] => none
              | .failed code :: incoming =>
                  some (.error (.connection (.socket code)),
                    { state with
                      conn := { state.conn with incoming := incoming } })
              | .data bytes :: incoming =>
                  waitFrameBeating fuel due.tail
                    { state with
                      conn := { state.conn with
                        sockInbound := bytes
                        incoming := incoming } }

/-! ## Heartbeats that are not interrupted -/

/-- The bytes of some heartbeats. -/
def heartbeatBytes (count : ℕ) : Bytes :=
  (List.replicate count heartbeatFrame).flatMap Frame.wire

section Round

variable {conn after : SocketState} {incoming : List Arrival}

end Round

/-- The connection of a wait without heartbeats that has received something so
often and has used it up. -/
inductive UsedUp : ℕ → SocketState → SocketState → Prop where
  | first {conn after : SocketState}
      (hused : waitBuffered conn.sockInbound.length conn = (none, after)) :
      UsedUp 0 conn after
  | next {rounds : ℕ} {conn used after : SocketState} {bytes : Bytes}
      {incoming : List Arrival}
      (hused : waitBuffered conn.sockInbound.length conn = (none, used))
      (hincoming : used.incoming = .data bytes :: incoming)
      (hrest :
        UsedUp rounds
          { used with sockInbound := bytes, incoming := incoming } after) :
      UsedUp (rounds + 1) conn after

/-- What has been used up were heartbeats; every other frame is still to
come. -/
theorem UsedUp.pending
    {rounds : ℕ} {conn after : SocketState} {frames : List Frame}
    {error : Option Status} (hused : UsedUp rounds conn after)
    (hpending : Pending conn frames error) :
    ∃ beats rest, frames = beats ++ rest ∧ Heartbeats beats ∧
      after.queued = conn.queued ∧ Pending after rest error := by
  induction hused generalizing frames with
  | @first conn after hused =>
      have hkeeps := waitBuffered_frame conn.sockInbound.length conn
      have hwait := waitBuffered_pending _ hpending le_rfl
      rw [hused] at hkeeps hwait
      cases hwait with
      | dry hbeats _ hafter => exact ⟨_, _, rfl, hbeats, hkeeps.1, hafter⟩
  | @next _ conn used after bytes incoming hused hincoming _ ih =>
      have hkeeps := waitBuffered_frame conn.sockInbound.length conn
      have hwait := waitBuffered_pending _ hpending le_rfl
      rw [hused] at hkeeps hwait
      cases hwait with
      | @dry _ beats others hbeats hdry hnext =>
          have harrived :
              Pending
                { used with sockInbound := bytes, incoming := incoming }
                others error := by
            refine hnext.of_eq rfl ?_
            rw [hincoming, hdry]
            rfl
          obtain ⟨more, rest, hframes, hmore, hqueued, hafter⟩ := ih harrived
          refine ⟨beats ++ more, rest, ?_, ?_, hqueued.trans hkeeps.1,
            hafter⟩
          · rw [hframes, List.append_assoc]
          · intro frame hframe
            rcases List.mem_append.mp hframe with hmem | hmem
            · exact hbeats frame hmem
            · exact hmore frame hmem

/-- When a wait had received something so often, one of the heartbeats due then
could not be sent.  Until then the wait has done what a wait without heartbeats
does, and what has gone out is a part of the heartbeats due. -/
structure BeatFailed (due : List ℕ) (state : SendState) (code rounds : ℕ)
    (beating after : SendState) : Prop where
  used : UsedUp rounds state.conn beating.conn
  answers : beating.answers <:+ state.answers
  earlier :
    beating.written = state.written ++ heartbeatBytes (due.take rounds).sum
  failed :
    sendHeartbeats ((due.drop rounds).headD 0) beating =
      some (.error (.connection (.socket code)), after)
  kept : after.conn = beating.conn
  partly : ∃ left, left ≠ [] ∧
    after.written ++ left =
      state.written ++ heartbeatBytes (due.take (rounds + 1)).sum

/-- No frame is lost with a heartbeat that cannot be sent. -/
theorem BeatFailed.pending
    {due : List ℕ} {state after beating : SendState} {code rounds : ℕ}
    {frames : List Frame} {error : Option Status}
    (hfailed : BeatFailed due state code rounds beating after)
    (hpending : Pending state.conn frames error) :
    ∃ beats rest, frames = beats ++ rest ∧ Heartbeats beats ∧
      after.conn.queued = state.conn.queued ∧
        Pending after.conn rest error := by
  rw [hfailed.kept]
  exact hfailed.used.pending hpending

section Interrupted

variable {state : SendState} {answers : List SendAnswer} {count : ℕ}
  {lost : Bytes} {incoming : List Arrival}

/-- A heartbeat that `send` takes only after the peer has been silent for too
long. -/
theorem heartbeat_receives
    (hbuffer : 8 ≤ state.outboundBuffer.length)
    (hdry : state.conn.sockInbound = [])
    (hincoming : state.conn.incoming = .data lost :: incoming)
    (hanswers : state.answers = .timedOut false :: .sent count :: answers)
    (hcount : 7 ≤ count) :
    amqpSendFrameInner heartbeatFrame false state =
      some (.ok (),
        { state with
          conn := { state.conn with
            sockInbound := lost
            incoming := incoming }
          answers := answers
          sends := state.sends ++ [(heartbeatFrame.wire, false)] }) := by
  have hencoded :
      amqpFrameToBytes heartbeatFrame state.outboundBuffer =
        .ok heartbeatFrame.wire :=
    amqpFrameToBytes_eq heartbeatFrame rfl rfl hbuffer
  have hlength : heartbeatFrame.wire.length ≤ count + 1 := by
    have height : heartbeatFrame.wire.length = 8 := rfl
    omega
  have hdrop : heartbeatFrame.wire.drop (count + 1) = [] :=
    List.drop_of_length_le hlength
  have hrecv :
      amqpTryRecv state.conn =
        (.ok (),
          { state.conn with sockInbound := lost, incoming := incoming }) := by
    simp only [amqpTryRecv, hdry, List.length_nil, queueBuffered, hincoming]
  simp only [amqpSendFrameInner, hencoded, hanswers, List.length_cons,
    sendEncoded, amqpTrySend, recvFromSilentPeer, hrecv, hdrop,
    List.take_of_length_le hlength, if_true]

/-- What has been received while the heartbeat was sent is written over. -/
theorem waitFrameBeating_interrupted
    {bytes : Bytes} (hbuffer : 8 ≤ state.outboundBuffer.length)
    (hdry : state.conn.sockInbound = [])
    (hincoming :
      state.conn.incoming = .data lost :: .data bytes :: incoming)
    (hanswers : state.answers = .timedOut false :: .sent count :: answers)
    (hcount : 7 ≤ count) (fuel : ℕ) (due : List ℕ) :
    waitFrameBeating (fuel + 1) (1 :: due) state =
      waitFrameBeating fuel due
        { state with
          conn := { state.conn with
            sockInbound := bytes
            incoming := incoming }
          answers := answers
          sends := state.sends ++ [(heartbeatFrame.wire, false)] } := by
  have hsend :=
    heartbeat_receives hbuffer hdry hincoming hanswers hcount
  have hbuffered :
      waitBuffered state.conn.sockInbound.length state.conn =
        (none, state.conn) := by
    rw [hdry]
    rfl
  have hbeats :
      sendHeartbeats 1 state =
        some (.ok (),
          { state with
            conn := { state.conn with
              sockInbound := lost
              incoming := .data bytes :: incoming }
            answers := answers
            sends := state.sends ++ [(heartbeatFrame.wire, false)] }) := by
    rw [sendHeartbeats, List.replicate_one, sendEach_sent_head hsend,
      sendEach_nil]
  have hone : (1 :: due).headD 0 = 1 := rfl
  simp only [waitFrameBeating, hbuffered, hone, hbeats, List.tail_cons]

end Interrupted

/-- Frames that arrive while a heartbeat waits to be sent are lost: they were
to come, and then they are neither handed over nor queued nor to come. -/
theorem heartbeat_loses_frames
    {frameMax : ℕ} (hint : frameMax < 2 ^ 32) {state : SendState}
    {lost kept : List Frame}
    (hfit : ∀ frame ∈ lost ++ kept,
      frame.payload.stringsFit = true ∧ frame.payload.tablesFit = true ∧
        frame.wire.length ≤ frameMax)
    (hidle : Collected frameMax state.conn.input .later [])
    (hbuffer : 8 ≤ state.outboundBuffer.length)
    (hdry : state.conn.sockInbound = []) {bytes : Bytes}
    {incoming : List Arrival}
    (hincoming :
      state.conn.incoming =
        .data (lost.flatMap Frame.wire) :: .data bytes :: incoming)
    (hkept : bytes ++ arriving incoming = kept.flatMap Frame.wire)
    {count : ℕ} {answers : List SendAnswer}
    (hanswers : state.answers = .timedOut false :: .sent count :: answers)
    (hcount : 7 ≤ count) (fuel : ℕ) (due : List ℕ) :
    Pending state.conn ((lost ++ kept).map Frame.normal) none ∧
      ∃ next,
        waitFrameBeating (fuel + 1) (1 :: due) state =
            waitFrameBeating fuel due next ∧
          next.conn.queued = state.conn.queued ∧
          Pending next.conn (kept.map Frame.normal) none := by
  constructor
  · have hall :
        state.conn.sockInbound ++ arriving state.conn.incoming =
          (lost ++ kept).flatMap Frame.wire := by
      rw [hdry, hincoming, List.nil_append, List.flatMap_append, ← hkept]
      rfl
    exact pending_of_wires hidle hint hfit hall
  · have hrun :=
      waitFrameBeating_interrupted hbuffer hdry hincoming hanswers hcount fuel
        due
    refine ⟨_, hrun, rfl, ?_⟩
    have hrest : ∀ frame ∈ kept,
        frame.payload.stringsFit = true ∧ frame.payload.tablesFit = true ∧
          frame.wire.length ≤ frameMax := by
      intro frame hframe
      exact hfit frame (List.mem_append_right lost hframe)
    exact pending_of_wires hidle hint hrest hkept

/-- Two bodies arrive, the first one while the heartbeat is sent. -/
def silentState : SendState where
  conn :=
    ⟨(amqpNewConnection 64).returnToIdle, [], [],
      [.data [3, 0, 1, 0, 0, 0, 1, 7, 206],
        .data [3, 0, 1, 0, 0, 0, 1, 8, 206]]⟩
  outboundBuffer := List.replicate 64 0
  answers := [.timedOut false, .sent 99]
  sends := []

theorem heartbeat_loses_frames_body :
    Pending silentState.conn
        (([Frame.mk 1 (.body [7])] ++ [Frame.mk 1 (.body [8])]).map
          Frame.normal)
        none ∧
      ∃ next,
        waitFrameBeating 2 [1] silentState = waitFrameBeating 1 [] next ∧
          next.conn.queued = silentState.conn.queued ∧
          Pending next.conn ([Frame.mk 1 (.body [8])].map Frame.normal) none :=
  @heartbeat_loses_frames 64 (by decide) silentState [.mk 1 (.body [7])]
    [.mk 1 (.body [8])] (by decide) (collected_idle 64) (by decide) rfl
    [3, 0, 1, 0, 0, 0, 1, 8, 206] [] rfl rfl 99 [] rfl (by decide) 1 []

end RabbitWork
