import RabbitWork.FrameStreams

/-!
# Waiting for a frame

`wait_frame_inner` hands what has been received to `amqp_handle_input` until a
frame is complete, and receives more when all of it has been used.  Heartbeats
and frames of unknown types are passed over.

What `recv_with_timeout` brings is a list of arrivals; a failure stands for
its negative status, or for that of a heartbeat which could not be sent.  The
connection is one without heartbeats of its own: those that the call sends
between two receives, which may receive in turn, come with `waitFrameBeating`.
-/

namespace RabbitWork

open Wire Splitting

/-- `failed code` is the status `-(code + 1)`. -/
inductive Arrival where
  | data (bytes : Bytes)
  | failed (code : ℕ)
  deriving DecidableEq, Repr

/-- `sockInbound` is what stands between `sock_inbound_offset` and
`sock_inbound_limit`, `queued` the list from `first_queued_frame` to
`last_queued_frame`. -/
structure SocketState where
  input : InputState
  sockInbound : Bytes
  queued : List Frame
  incoming : List Arrival

inductive WaitError where
  | decoder (status : Status)
  | socket (code : ℕ)
  deriving DecidableEq, Repr

def Frame.isHeartbeat (frame : Frame) : Bool :=
  match frame.payload with
  | .heartbeat => true
  | _ => false

/-- Input that is refused stays in the buffer. -/
def consumeOneFrame (conn : SocketState) :
    Except Status (Option Frame) × SocketState :=
  match amqpHandleInput conn.input conn.sockInbound with
  | (input, .error status) => (.error status, { conn with input := input })
  | (input, .ok (res, frame)) =>
      (.ok frame,
        { conn with
          input := input
          sockInbound := conn.sockInbound.drop res })

/-- The loop `while (amqp_data_in_buffer(state))` of `wait_frame_inner`.
Nothing is returned when the buffer has been used up. -/
def waitBuffered :
    ℕ → SocketState → Option (Except Status Frame) × SocketState
  | 0, conn => (none, conn)
  | fuel + 1, conn =>
      if conn.sockInbound = [] then
        (none, conn)
      else
        match consumeOneFrame conn with
        | (.error status, conn) => (some (.error status), conn)
        | (.ok none, conn) => waitBuffered fuel conn
        | (.ok (some frame), conn) =>
            if frame.isHeartbeat then
              waitBuffered fuel conn
            else
              (some (.ok frame), conn)

/-- `wait_frame_inner` of a connection that sends no heartbeats, when these
arrivals are still to come. -/
def waitArrivals :
    List Arrival → SocketState → Option (Except WaitError Frame × SocketState)
  | incoming, conn =>
      match waitBuffered conn.sockInbound.length
          { conn with incoming := incoming } with
      | (some (.ok frame), conn) => some (.ok frame, conn)
      | (some (.error status), conn) => some (.error (.decoder status), conn)
      | (none, conn) =>
          match incoming with
          | [] => none
          | .failed code :: incoming =>
              some (.error (.socket code), { conn with incoming := incoming })
          | .data bytes :: incoming =>
              waitArrivals incoming { conn with sockInbound := bytes }

/-- The call blocks when nothing is returned. -/
def waitFrameInner (conn : SocketState) :
    Option (Except WaitError Frame × SocketState) :=
  waitArrivals conn.incoming conn

/-! ## The frames still to come -/

/-- The bytes that will arrive. -/
def arriving : List Arrival → Bytes
  | [] => []
  | .data bytes :: incoming => bytes ++ arriving incoming
  | .failed _ :: incoming => arriving incoming

/-- The frames of the bytes the connection holds back, has received and will
receive, and the error they end with. -/
def Pending (conn : SocketState) (frames : List Frame)
    (error : Option Status) : Prop :=
  ∃ mode held ending,
    Collected conn.input.frameMax conn.input mode held ∧
      Splits (frameSplitter conn.input.frameMax) mode
        (held ++ (conn.sockInbound ++ arriving conn.incoming)) frames ending ∧
      (∀ status, ending = .error status ↔ error = some status) ∧
      error ≠ some .undefinedBehaviour

/-- The frame limit of a connection is not changed by its input. -/
theorem Collected.frameMax
    {frameMax : ℕ} {state : InputState} {mode : StreamMode} {held : Bytes}
    (hcollected : Collected frameMax state mode held) :
    state.frameMax = frameMax := by
  cases hcollected <;> rfl

/-- Frames that have been sent are still to come until they are received. -/
theorem pending_of_wires
    {frameMax : ℕ} {conn : SocketState} {frames : List Frame}
    (hidle : Collected frameMax conn.input .later [])
    (hint : frameMax < 2 ^ 32)
    (hfit : ∀ frame ∈ frames,
      frame.payload.stringsFit = true ∧ frame.payload.tablesFit = true ∧
        frame.wire.length ≤ frameMax)
    (hbytes :
      conn.sockInbound ++ arriving conn.incoming =
        frames.flatMap Frame.wire) :
    Pending conn (frames.map Frame.normal) none := by
  have hsplits := splits_wires hint frames hfit
  have hsame := hidle.frameMax
  refine ⟨.later, [], .ok (.later, []), ?_, ?_, ?_, ?_⟩
  · rw [hsame]
    exact hidle
  · rw [hsame, List.nil_append, hbytes]
    exact hsplits
  · intro status
    exact ⟨fun herror => (nomatch herror), fun herror => (nomatch herror)⟩
  · intro herror
    cases herror

section Consume

variable {conn : SocketState}

theorem consumeOneFrame_ok
    {res : ℕ} {frame : Option Frame}
    (hresult :
      (amqpHandleInput conn.input conn.sockInbound).2 = .ok (res, frame)) :
    consumeOneFrame conn =
      (.ok frame,
        { conn with
          input := (amqpHandleInput conn.input conn.sockInbound).1
          sockInbound := conn.sockInbound.drop res }) := by
  cases hrun : amqpHandleInput conn.input conn.sockInbound with
  | mk input result =>
      rw [hrun] at hresult
      simp only at hresult
      subst hresult
      simp only [consumeOneFrame, hrun]

theorem consumeOneFrame_error
    {status : Status}
    (hresult :
      (amqpHandleInput conn.input conn.sockInbound).2 = .error status) :
    consumeOneFrame conn =
      (.error status,
        { conn with
          input := (amqpHandleInput conn.input conn.sockInbound).1 }) := by
  cases hrun : amqpHandleInput conn.input conn.sockInbound with
  | mk input result =>
      rw [hrun] at hresult
      simp only at hresult
      subst hresult
      simp only [consumeOneFrame, hrun]

end Consume

/-- What one call of `consume_one_frame` does to the frames still to come. -/
theorem consumeOneFrame_pending
    {conn : SocketState} {frames : List Frame} {error : Option Status}
    (hpending : Pending conn frames error) (hdata : conn.sockInbound ≠ []) :
    (∃ status after,
      consumeOneFrame conn = (.error status, after) ∧ frames = [] ∧
        error = some status) ∨
    ∃ output input rest,
      consumeOneFrame conn =
          (.ok output,
            { conn with input := input, sockInbound := rest }) ∧
        rest.length < conn.sockInbound.length ∧
        ∃ others, frames = output.toList ++ others ∧
          Pending { conn with input := input, sockInbound := rest } others
            error := by
  obtain ⟨mode, held, ending, hcollected, hsplits, hending, hdefined⟩ :=
    hpending
  have hlength : 0 < conn.sockInbound.length :=
    List.length_pos_of_ne_nil hdata
  have hanswers := amqpHandleInput_answers hcollected hdata
  rw [← List.append_assoc] at hsplits
  cases hfront : frameFront conn.input.frameMax mode
      (held ++ conn.sockInbound) with
  | more =>
      simp only [Answers, hfront] at hanswers
      obtain ⟨hresult, hafter⟩ := hanswers
      right
      refine ⟨none, (amqpHandleInput conn.input conn.sockInbound).1, [],
        ?_, hlength, frames, rfl, ?_⟩
      · have hrun := consumeOneFrame_ok hresult
        rw [List.drop_length] at hrun
        exact hrun
      · have hmax := hafter.frameMax
        refine ⟨mode, held ++ conn.sockInbound, ending, ?_, ?_, hending,
          hdefined⟩
        · rw [hmax]
          exact hafter
        · rw [hmax, List.nil_append]
          exact hsplits
  | fault status =>
      simp only [Answers, hfront] at hanswers
      left
      have hfault :=
        (frameSplitter conn.input.frameMax).fault_append
          (arriving conn.incoming) hfront
      have hunique := hsplits.unique (.fault hfault)
      have herror := (hending status).mp hunique.2
      have hstatus : status ≠ .undefinedBehaviour := by
        intro hundefined
        rw [hundefined] at herror
        exact hdefined herror
      refine ⟨status, { conn with
        input := (amqpHandleInput conn.input conn.sockInbound).1 }, ?_,
        hunique.1, herror⟩
      exact consumeOneFrame_error (hanswers hstatus)
  | cut output next count =>
      simp only [Answers, hfront] at hanswers
      obtain ⟨hcount, hresult, hafter⟩ := hanswers
      right
      have hcut :=
        (frameSplitter conn.input.frameMax).cut_append
          (arriving conn.incoming) hfront
      have hle := (frameSplitter conn.input.frameMax).cut_le hfront
      obtain ⟨others, last, hothers⟩ :=
        Splits.exists (frameSplitter conn.input.frameMax) next
          ((held ++ conn.sockInbound ++ arriving conn.incoming).drop count)
      have hunique := hsplits.unique (.cut hcut hothers)
      have hmax := hafter.frameMax
      refine ⟨output, (amqpHandleInput conn.input conn.sockInbound).1,
        conn.sockInbound.drop (count - held.length), ?_, ?_, others,
        hunique.1, ?_⟩
      · exact consumeOneFrame_ok hresult
      · rw [List.length_drop]
        omega
      · refine ⟨next, [], last, ?_, ?_, ?_, hdefined⟩
        · rw [hmax]
          exact hafter
        · have hdrop :
              (held ++ conn.sockInbound ++ arriving conn.incoming).drop
                  count =
                conn.sockInbound.drop (count - held.length) ++
                  arriving conn.incoming := by
            rw [List.drop_append_of_le_length hle, List.drop_append,
              List.drop_of_length_le hcount.le, List.nil_append]
          rw [hdrop] at hothers
          rw [hmax, List.nil_append]
          exact hothers
        · rw [← hunique.2]
          exact hending

/-! ## One wait -/

def Heartbeats (frames : List Frame) : Prop :=
  ∀ frame ∈ frames, frame.isHeartbeat = true

theorem heartbeats_nil : Heartbeats [] := by
  intro frame hframe
  cases hframe

theorem Heartbeats.cons
    {frame : Frame} {frames : List Frame} (hframe : frame.isHeartbeat = true)
    (hframes : Heartbeats frames) : Heartbeats (frame :: frames) := by
  intro other hother
  rcases List.mem_cons.mp hother with heq | hmem
  · rw [heq]
    exact hframe
  · exact hframes other hmem

/-- What the loop over the buffer may do when these frames are to come. -/
inductive BufferedWait (error : Option Status) :
    List Frame → Option (Except Status Frame) × SocketState → Prop where
  | dry {after : SocketState} {beats rest : List Frame}
      (hbeats : Heartbeats beats) (hdry : after.sockInbound = [])
      (hpending : Pending after rest error) :
      BufferedWait error (beats ++ rest) (none, after)
  | frame {after : SocketState} {beats rest : List Frame} {frame : Frame}
      (hbeats : Heartbeats beats) (hframe : frame.isHeartbeat = false)
      (hpending : Pending after rest error) :
      BufferedWait error (beats ++ frame :: rest) (some (.ok frame), after)
  | refused {after : SocketState} {beats : List Frame} {status : Status}
      (hbeats : Heartbeats beats) (herror : error = some status) :
      BufferedWait error beats (some (.error status), after)

theorem BufferedWait.cons
    {error : Option Status} {frames : List Frame}
    {result : Option (Except Status Frame) × SocketState} {frame : Frame}
    (hwait : BufferedWait error frames result)
    (hframe : frame.isHeartbeat = true) :
    BufferedWait error (frame :: frames) result := by
  cases hwait with
  | dry hbeats hdry hpending =>
      exact .dry (hbeats.cons hframe) hdry hpending
  | frame hbeats hother hpending =>
      exact .frame (hbeats.cons hframe) hother hpending
  | refused hbeats herror => exact .refused (hbeats.cons hframe) herror

/-- The loop leaves everything but the input alone. -/
theorem waitBuffered_frame
    (fuel : ℕ) (conn : SocketState) :
    (waitBuffered fuel conn).2.queued = conn.queued ∧
      (waitBuffered fuel conn).2.incoming = conn.incoming := by
  induction fuel generalizing conn with
  | zero => exact ⟨rfl, rfl⟩
  | succ fuel ih =>
      have hkeeps :
          (consumeOneFrame conn).2.queued = conn.queued ∧
            (consumeOneFrame conn).2.incoming = conn.incoming := by
        unfold consumeOneFrame
        split <;> exact ⟨rfl, rfl⟩
      by_cases hdata : conn.sockInbound = []
      · simp only [waitBuffered, if_pos hdata, and_self]
      · cases hconsume : consumeOneFrame conn with
        | mk result after =>
            rw [hconsume] at hkeeps
            have hafter := ih after
            rw [hkeeps.1, hkeeps.2] at hafter
            cases result with
            | error status =>
                simp only [waitBuffered, if_neg hdata, hconsume]
                exact hkeeps
            | ok output =>
                cases output with
                | none =>
                    simp only [waitBuffered, if_neg hdata, hconsume]
                    exact hafter
                | some frame =>
                    cases hbeat : frame.isHeartbeat with
                    | true =>
                        simp only [waitBuffered, if_neg hdata, hconsume, hbeat,
                          if_true]
                        exact hafter
                    | false =>
                        simp only [waitBuffered, if_neg hdata, hconsume, hbeat,
                          Bool.false_eq_true, if_false]
                        exact hkeeps

theorem waitBuffered_pending
    (fuel : ℕ) {conn : SocketState} {frames : List Frame}
    {error : Option Status} (hpending : Pending conn frames error)
    (hfuel : conn.sockInbound.length ≤ fuel) :
    BufferedWait error frames (waitBuffered fuel conn) := by
  induction fuel generalizing conn frames with
  | zero =>
      have hdata : conn.sockInbound = [] :=
        List.eq_nil_of_length_eq_zero (by omega)
      exact BufferedWait.dry heartbeats_nil hdata hpending
  | succ fuel ih =>
      by_cases hdata : conn.sockInbound = []
      · simp only [waitBuffered, if_pos hdata]
        exact BufferedWait.dry heartbeats_nil hdata hpending
      · rcases consumeOneFrame_pending hpending hdata with
          ⟨status, after, hrun, hframes, herror⟩ |
            ⟨output, input, rest, hrun, hshorter, others, hframes, hafter⟩
        · simp only [waitBuffered, if_neg hdata, hrun]
          rw [hframes]
          exact .refused heartbeats_nil herror
        · have hrest := ih hafter (by simp only; omega)
          rw [hframes]
          cases output with
          | none =>
              simp only [waitBuffered, if_neg hdata, hrun]
              exact hrest
          | some frame =>
              cases hbeat : frame.isHeartbeat with
              | true =>
                  simp only [waitBuffered, if_neg hdata, hrun, hbeat, if_true]
                  exact hrest.cons hbeat
              | false =>
                  simp only [waitBuffered, if_neg hdata, hrun, hbeat,
                    Bool.false_eq_true, if_false]
                  exact BufferedWait.frame heartbeats_nil hbeat hafter

/-- What a wait may do when these frames are to come. -/
inductive Waited (queued : List Frame) (error : Option Status) :
    List Frame → Option (Except WaitError Frame × SocketState) → Prop where
  | blocked {beats : List Frame} (hbeats : Heartbeats beats)
      (herror : error = none) :
      Waited queued error beats none
  | frame {after : SocketState} {beats rest : List Frame} {frame : Frame}
      (hbeats : Heartbeats beats) (hframe : frame.isHeartbeat = false)
      (hqueued : after.queued = queued) (hpending : Pending after rest error) :
      Waited queued error (beats ++ frame :: rest) (some (.ok frame, after))
  | refused {after : SocketState} {beats : List Frame} {status : Status}
      (hbeats : Heartbeats beats) (hqueued : after.queued = queued)
      (herror : error = some status) :
      Waited queued error beats (some (.error (.decoder status), after))
  | failed {after : SocketState} {beats rest : List Frame} {code : ℕ}
      (hbeats : Heartbeats beats) (hqueued : after.queued = queued)
      (hpending : Pending after rest error) :
      Waited queued error (beats ++ rest)
        (some (.error (.socket code), after))

theorem Waited.append
    {queued : List Frame} {error : Option Status} {beats frames : List Frame}
    {result : Option (Except WaitError Frame × SocketState)}
    (hbeats : Heartbeats beats) (hwaited : Waited queued error frames result) :
    Waited queued error (beats ++ frames) result := by
  have hboth : ∀ {others}, Heartbeats others → Heartbeats (beats ++ others) := by
    intro others hothers frame hframe
    rcases List.mem_append.mp hframe with hmem | hmem
    · exact hbeats frame hmem
    · exact hothers frame hmem
  cases hwaited with
  | blocked hothers herror => exact .blocked (hboth hothers) herror
  | frame hothers hframe hqueued hpending =>
      rw [← List.append_assoc]
      exact .frame (hboth hothers) hframe hqueued hpending
  | refused hothers hqueued herror =>
      exact .refused (hboth hothers) hqueued herror
  | failed hothers hqueued hpending =>
      rw [← List.append_assoc]
      exact .failed (hboth hothers) hqueued hpending

/-- Nothing is pending when all that has arrived is held back. -/
theorem Pending.of_used
    {conn : SocketState} {frames : List Frame} {error : Option Status}
    (hpending : Pending conn frames error) (hdry : conn.sockInbound = [])
    (hincoming : arriving conn.incoming = []) :
    frames = [] ∧ error = none := by
  obtain ⟨mode, held, ending, hcollected, hsplits, hending, _⟩ := hpending
  have hmore :=
    (receives_amqpHandleInput conn.input.frameMax).held hcollected
  rw [hdry, hincoming, List.append_nil, List.append_nil] at hsplits
  have hunique := hsplits.unique (.more hmore)
  refine ⟨hunique.1, ?_⟩
  cases herror : error with
  | none => rfl
  | some status =>
      have hstatus := (hending status).mpr herror
      rw [hunique.2] at hstatus
      cases hstatus

theorem Pending.of_eq
    {conn other : SocketState} {frames : List Frame} {error : Option Status}
    (hpending : Pending conn frames error) (hinput : other.input = conn.input)
    (hbytes :
      other.sockInbound ++ arriving other.incoming =
        conn.sockInbound ++ arriving conn.incoming) :
    Pending other frames error := by
  unfold Pending
  rw [hinput, hbytes]
  exact hpending

theorem waitArrivals_pending
    (incoming : List Arrival) {conn : SocketState} {frames : List Frame}
    {error : Option Status}
    (hpending : Pending { conn with incoming := incoming } frames error) :
    Waited conn.queued error frames (waitArrivals incoming conn) := by
  induction incoming generalizing conn frames with
  | nil =>
      have hbuffered :=
        waitBuffered_pending conn.sockInbound.length hpending le_rfl
      have hkeeps :=
        waitBuffered_frame conn.sockInbound.length { conn with incoming := [] }
      cases hrun : waitBuffered conn.sockInbound.length
          { conn with incoming := [] } with
      | mk result after =>
          rw [hrun] at hbuffered hkeeps
          cases hbuffered with
          | frame hbeats hframe hafter =>
              simp only [waitArrivals, hrun]
              exact .frame hbeats hframe hkeeps.1 hafter
          | refused hbeats herror =>
              simp only [waitArrivals, hrun]
              exact .refused hbeats hkeeps.1 herror
          | dry hbeats hdry hafter =>
              have hused : arriving after.incoming = [] := by
                rw [hkeeps.2]
                rfl
              obtain ⟨hnone, herror⟩ := hafter.of_used hdry hused
              simp only [waitArrivals, hrun]
              rw [hnone, List.append_nil]
              exact .blocked hbeats herror
  | cons arrival incoming ih =>
      have hbuffered :=
        waitBuffered_pending conn.sockInbound.length hpending le_rfl
      have hkeeps :=
        waitBuffered_frame conn.sockInbound.length
          { conn with incoming := arrival :: incoming }
      cases hrun : waitBuffered conn.sockInbound.length
          { conn with incoming := arrival :: incoming } with
      | mk result after =>
          rw [hrun] at hbuffered hkeeps
          cases hbuffered with
          | frame hbeats hframe hafter =>
              simp only [waitArrivals, hrun]
              exact .frame hbeats hframe hkeeps.1 hafter
          | refused hbeats herror =>
              simp only [waitArrivals, hrun]
              exact .refused hbeats hkeeps.1 herror
          | @dry _ beats rest hbeats hdry hafter =>
              have hqueued : after.queued = conn.queued := hkeeps.1
              have hincoming : after.incoming = arrival :: incoming := hkeeps.2
              cases arrival with
              | failed code =>
                  have hmore :
                      Pending { after with incoming := incoming } rest error := by
                    refine hafter.of_eq ?_ ?_
                    · rfl
                    · rw [hincoming]
                      rfl
                  simp only [waitArrivals, hrun]
                  exact Waited.failed hbeats hqueued hmore
              | data bytes =>
                  have hmore :
                      Pending
                        { after with
                          sockInbound := bytes
                          incoming := incoming }
                        rest error := by
                    refine hafter.of_eq ?_ ?_
                    · rfl
                    · rw [hincoming, hdry]
                      rfl
                  have hrest := @ih { after with sockInbound := bytes } _ hmore
                  rw [← hqueued, waitArrivals, hrun]
                  exact hrest.append hbeats

/-- What `wait_frame_inner` does is determined by the frames to come: it
returns the first that is no heartbeat, or an arrival that failed before it,
or the error the frames end with, and blocks when no frame is left. -/
theorem waitFrameInner_pending
    {conn : SocketState} {frames : List Frame} {error : Option Status}
    (hpending : Pending conn frames error) :
    Waited conn.queued error frames (waitFrameInner conn) :=
  waitArrivals_pending conn.incoming hpending

/-! ## Arrivals without failures -/

def NoFailure (incoming : List Arrival) : Prop :=
  ∀ code, .failed code ∉ incoming

theorem waitArrivals_noFailure
    (incoming : List Arrival) {conn after : SocketState}
    {result : Except WaitError Frame} (hincoming : NoFailure incoming)
    (hwait : waitArrivals incoming conn = some (result, after)) :
    NoFailure after.incoming ∧ ∀ code, result ≠ .error (.socket code) := by
  induction incoming generalizing conn with
  | nil =>
      have hkeeps :=
        waitBuffered_frame conn.sockInbound.length { conn with incoming := [] }
      cases hrun : waitBuffered conn.sockInbound.length
          { conn with incoming := [] } with
      | mk buffered next =>
          rw [hrun] at hkeeps
          have hsame : next.incoming = [] := hkeeps.2
          rw [waitArrivals, hrun] at hwait
          cases buffered with
          | none => cases hwait
          | some taken =>
              cases taken with
              | ok frame =>
                  cases hwait
                  rw [hsame]
                  exact ⟨hincoming, fun code hfailed => nomatch hfailed⟩
              | error status =>
                  cases hwait
                  rw [hsame]
                  exact ⟨hincoming, fun code hfailed => nomatch hfailed⟩
  | cons arrival incoming ih =>
      have hkeeps :=
        waitBuffered_frame conn.sockInbound.length
          { conn with incoming := arrival :: incoming }
      cases hrun : waitBuffered conn.sockInbound.length
          { conn with incoming := arrival :: incoming } with
      | mk buffered next =>
          rw [hrun] at hkeeps
          have hsame : next.incoming = arrival :: incoming := hkeeps.2
          rw [waitArrivals, hrun] at hwait
          cases buffered with
          | none =>
              cases arrival with
              | failed code => exact (hincoming code List.mem_cons_self).elim
              | data bytes =>
                  apply ih _ hwait
                  intro code hmem
                  exact hincoming code (List.mem_cons_of_mem _ hmem)
          | some taken =>
              cases taken with
              | ok frame =>
                  cases hwait
                  rw [hsame]
                  exact ⟨hincoming, fun code hfailed => nomatch hfailed⟩
              | error status =>
                  cases hwait
                  rw [hsame]
                  exact ⟨hincoming, fun code hfailed => nomatch hfailed⟩

/-- Every frame to come needs a byte that has not been used. -/
theorem Pending.length_le
    {conn : SocketState} {frames : List Frame} {error : Option Status}
    (hpending : Pending conn frames error) :
    frames.length ≤
      conn.sockInbound.length + (arriving conn.incoming).length := by
  obtain ⟨mode, held, ending, hcollected, hsplits, _, _⟩ := hpending
  cases hsplits with
  | more => exact Nat.zero_le _
  | fault => exact Nat.zero_le _
  | @cut _ next _ output count others _ hfront hrest =>
      have hmore :=
        (receives_amqpHandleInput conn.input.frameMax).held hcollected
      have hnew : conn.sockInbound ++ arriving conn.incoming ≠ [] := by
        intro hnil
        rw [hnil, List.append_nil, hmore] at hfront
        cases hfront
      have hcount :=
        ((receives_amqpHandleInput conn.input.frameMax).cut hcollected hnew
          hfront).1
      have hlength := hrest.length_le
      have houtput : output.toList.length ≤ 1 := by
        cases output <;> simp
      rw [List.length_drop, List.length_append, List.length_append] at hlength
      have hnewLength := List.length_pos_of_ne_nil hnew
      rw [List.length_append] at hnewLength
      rw [List.length_append]
      omega

end RabbitWork
