import RabbitWork.SocketWait

/-!
# The frame queue of a connection

A call that waits for the reply to a method queues the frames that arrive
before it; `amqp_simple_wait_frame` takes frames from the queue before it waits
for new ones.  While a frame is sent the connection may also receive, and then
everything that has been received is queued.

Over any sequence of these calls no frame is lost, duplicated or overtaken by
another, as long as the connection sends no heartbeats while it waits.
-/

namespace RabbitWork

open Wire Splitting

def amqpQueueFrame (conn : SocketState) (frame : Frame) : SocketState :=
  { conn with queued := conn.queued ++ [frame] }

/-- The list ends with 0. -/
def amqpIdInReplyList (expected : UInt32) : List UInt32 → Bool
  | [] => false
  | id :: list =>
      if id = 0 then false
      else if id = expected then true
      else amqpIdInReplyList expected list

/-- `amqp_rpc_reply_t`. -/
inductive RpcReply where
  | normal (reply : Method)
  | serverException (reply : Method)
  | libraryException (libraryError : WaitError)

/-- What the frame means to the call that waits on the channel for one of the
expected methods; nothing if the frame is to be queued. -/
def replyOf (channel : UInt16) (expectedReplyIds : List UInt32)
    (frame : Frame) : Option RpcReply :=
  match frame.payload with
  | .method method =>
      let expected := amqpIdInReplyList method.id.number expectedReplyIds
      if frame.channel = channel ∧
            (expected = true ∨ method.id = .channelClose) ∨
          frame.channel = 0 ∧ method.id = .connectionClose then
        if expected then some (.normal method)
        else some (.serverException method)
      else
        none
  | _ => none

/-- The loop at `retry` of `simple_rpc_inner`. -/
def rpcRetry (channel : UInt16) (expectedReplyIds : List UInt32) :
    ℕ → SocketState → Option (RpcReply × SocketState)
  | 0, _ => none
  | fuel + 1, conn =>
      match waitFrameInner conn with
      | none => none
      | some (.error error, conn) => some (.libraryException error, conn)
      | some (.ok frame, conn) =>
          match replyOf channel expectedReplyIds frame with
          | some reply => some (reply, conn)
          | none =>
              rpcRetry channel expectedReplyIds fuel
                (amqpQueueFrame conn frame)

/-- `simple_rpc_inner`; `sent` is the status of a send that failed. -/
def simpleRpcInner (channel : UInt16) (expectedReplyIds : List UInt32)
    (sent : Option ℕ) (conn : SocketState) :
    Option (RpcReply × SocketState) :=
  match sent with
  | some code => some (.libraryException (.socket code), conn)
  | none =>
      rpcRetry channel expectedReplyIds
        (conn.sockInbound.length + (arriving conn.incoming).length + 1) conn

/-- `amqp_simple_wait_frame_noblock`. -/
def simpleWaitFrame (conn : SocketState) :
    Option (Except WaitError Frame × SocketState) :=
  match conn.queued with
  | frame :: queued => some (.ok frame, { conn with queued := queued })
  | [] => waitFrameInner conn

/-- The loop `while (amqp_data_in_buffer(state))` of `amqp_try_recv`. -/
def queueBuffered : ℕ → SocketState → Option Status × SocketState
  | 0, conn => (none, conn)
  | fuel + 1, conn =>
      if conn.sockInbound = [] then
        (none, conn)
      else
        match consumeOneFrame conn with
        | (.error status, conn) => (some status, conn)
        | (.ok frame, conn) =>
            queueBuffered fuel
              { conn with queued := conn.queued ++ frame.toList }

/-- `AMQP_STATUS_TIMEOUT`. -/
def timeoutCode : ℕ := 0x000D - 1

/-- `amqp_try_recv`, which does not wait for anything to arrive. -/
def amqpTryRecv (conn : SocketState) : Except WaitError Unit × SocketState :=
  match queueBuffered conn.sockInbound.length conn with
  | (some status, conn) => (.error (.decoder status), conn)
  | (none, conn) =>
      match conn.incoming with
      | [] => (.error (.socket timeoutCode), conn)
      | .failed code :: incoming =>
          (.error (.socket code), { conn with incoming := incoming })
      | .data bytes :: incoming =>
          (.ok (), { conn with sockInbound := bytes, incoming := incoming })

/-! ## Any sequence of calls -/

inductive Call where
  | waitFrame
  | rpc (channel : UInt16) (expectedReplyIds : List UInt32) (sent : Option ℕ)
  | tryRecv

inductive CallResult where
  | waited (result : Except WaitError Frame)
  | replied (reply : RpcReply)
  | received (result : Except WaitError Unit)

def Call.run (conn : SocketState) : Call → Option (CallResult × SocketState)
  | .waitFrame => (simpleWaitFrame conn).map (Prod.map .waited id)
  | .rpc channel expectedReplyIds sent =>
      (simpleRpcInner channel expectedReplyIds sent conn).map
        (Prod.map .replied id)
  | .tryRecv => some (Prod.map .received id (amqpTryRecv conn))

/-- The frame a call has handed over. -/
def CallResult.handed : CallResult → List Frame
  | .waited (.ok frame) => [frame]
  | _ => []

/-- The method a call has returned as a reply. -/
def CallResult.reply : CallResult → List Method
  | .replied (.normal reply) => [reply]
  | .replied (.serverException reply) => [reply]
  | _ => []

/-- After an error of the decoder the connection is not used any more. -/
def CallResult.usable : CallResult → Bool
  | .waited (.error (.decoder _)) => false
  | .replied (.libraryException (.decoder _)) => false
  | .received (.error (.decoder _)) => false
  | _ => true

inductive Ran : SocketState → List CallResult → SocketState → Prop where
  | nil (conn : SocketState) : Ran conn [] conn
  | cons {conn next after : SocketState} {result : CallResult}
      {results : List CallResult} (call : Call)
      (hcall : call.run conn = some (result, next))
      (husable : result.usable = true) (hrest : Ran next results after) :
      Ran conn (result :: results) after

/-! ## What becomes of a frame -/

/-- A frame that has been taken from the bytes received is kept for the
application, or is the reply to a call, or is dropped. -/
inductive Fate where
  | kept
  | reply
  | dropped
  deriving DecidableEq, Repr

def framesWith (fate : Fate) (fates : List (Frame × Fate)) : List Frame :=
  (fates.filter fun frame => frame.2 = fate).map Prod.fst

@[simp] theorem framesWith_append
    (fate : Fate) (left right : List (Frame × Fate)) :
    framesWith fate (left ++ right) =
      framesWith fate left ++ framesWith fate right := by
  simp [framesWith]

/-- What one or more calls have done to the frames of a connection. -/
structure Accounts (conn after : SocketState) (frames : List Frame)
    (error : Option Status) (handed : List Frame) (replies : List Method)
    (fates : List (Frame × Fate)) : Prop where
  taken : ∃ rest, frames = fates.map Prod.fst ++ rest ∧ Pending after rest error
  inOrder : conn.queued ++ framesWith .kept fates = handed ++ after.queued
  replied :
    (framesWith .reply fates).map Frame.payload =
      replies.map FramePayload.method
  beats : Heartbeats (framesWith .dropped fates)

theorem Accounts.trans
    {conn next after : SocketState} {frames rest : List Frame}
    {error : Option Status} {handed handed' : List Frame}
    {replies replies' : List Method} {fates fates' : List (Frame × Fate)}
    (hframes : frames = fates.map Prod.fst ++ rest)
    (hfirst : Accounts conn next frames error handed replies fates)
    (hsecond : Accounts next after rest error handed' replies' fates') :
    Accounts conn after frames error (handed ++ handed') (replies ++ replies')
      (fates ++ fates') := by
  constructor
  · obtain ⟨others, hrest, hpending⟩ := hsecond.taken
    refine ⟨others, ?_, hpending⟩
    rw [hframes, hrest, List.map_append, List.append_assoc]
  · rw [framesWith_append, ← List.append_assoc, hfirst.inOrder,
      List.append_assoc, hsecond.inOrder, List.append_assoc]
  · rw [framesWith_append, List.map_append, hfirst.replied, hsecond.replied,
      List.map_append]
  · rw [framesWith_append]
    intro frame hframe
    rcases List.mem_append.mp hframe with hmem | hmem
    · exact hfirst.beats frame hmem
    · exact hsecond.beats frame hmem

theorem framesWith_map
    (fate other : Fate) (frames : List Frame) :
    framesWith fate (frames.map fun frame => (frame, other)) =
      if other = fate then frames else [] := by
  induction frames with
  | nil => simp [framesWith]
  | cons frame frames ih =>
      by_cases hfate : other = fate
      · simp only [framesWith, hfate, if_true] at ih ⊢
        simpa using ih
      · simp [framesWith, hfate]

section Fates

variable {conn after : SocketState} {frame : Frame} {rest : List Frame}
  {error : Option Status} {handed : List Frame} {replies : List Method}

theorem Accounts.behind_beats
    {beats : List Frame} {fates : List (Frame × Fate)}
    (hbeats : Heartbeats beats)
    (haccounts : Accounts conn after rest error handed replies fates) :
    Accounts conn after (beats ++ rest) error handed replies
      ((beats.map fun frame => (frame, .dropped)) ++ fates) := by
  have hmap :
      (beats.map fun frame => (frame, Fate.dropped)).map Prod.fst = beats := by
    rw [List.map_map]
    exact List.map_id beats
  constructor
  · obtain ⟨others, hrest, hpending⟩ := haccounts.taken
    refine ⟨others, ?_, hpending⟩
    rw [hrest, List.map_append, hmap, List.append_assoc]
  · rw [framesWith_append, framesWith_map, if_neg (by decide)]
    exact haccounts.inOrder
  · rw [framesWith_append, framesWith_map, if_neg (by decide)]
    exact haccounts.replied
  · rw [framesWith_append, framesWith_map, if_pos rfl]
    intro other hother
    rcases List.mem_append.mp hother with hmem | hmem
    · exact hbeats other hmem
    · exact haccounts.beats other hmem

theorem accounts_nothing
    (horder : conn.queued = handed ++ after.queued)
    (hpending : Pending after rest error) :
    Accounts conn after rest error handed [] [] := by
  constructor
  · exact ⟨rest, rfl, hpending⟩
  · rw [← horder]
    exact List.append_nil _
  · rfl
  · exact heartbeats_nil

/-- One frame is kept: it has been handed over or is the last of the queue. -/
theorem accounts_kept
    (horder : conn.queued ++ [frame] = handed ++ after.queued)
    (hpending : Pending after rest error) :
    Accounts conn after (frame :: rest) error handed []
      [(frame, .kept)] := by
  constructor
  · exact ⟨rest, rfl, hpending⟩
  · exact horder
  · rfl
  · exact heartbeats_nil

theorem accounts_reply
    {method : Method} (hmethod : frame.payload = .method method)
    (hqueued : after.queued = conn.queued)
    (hpending : Pending after rest error) :
    Accounts conn after (frame :: rest) error [] [method]
      [(frame, .reply)] := by
  constructor
  · exact ⟨rest, rfl, hpending⟩
  · rw [hqueued]
    exact List.append_nil _
  · simp [framesWith, hmethod]
  · exact heartbeats_nil

end Fates

/-! ## The calls -/

theorem Pending.of_queue
    {conn : SocketState} {frames : List Frame} {error : Option Status}
    (hpending : Pending conn frames error) (queued : List Frame) :
    Pending { conn with queued := queued } frames error :=
  hpending.of_eq rfl rfl

theorem replyOf_method
    {channel : UInt16} {expectedReplyIds : List UInt32} {frame : Frame}
    {reply : RpcReply}
    (hreply : replyOf channel expectedReplyIds frame = some reply) :
    ∃ method, frame.payload = .method method ∧
      (CallResult.replied reply).reply = [method] ∧
        (CallResult.replied reply).handed = [] := by
  unfold replyOf at hreply
  cases hpayload : frame.payload with
  | method method =>
      rw [hpayload] at hreply
      refine ⟨method, rfl, ?_⟩
      dsimp only at hreply
      split at hreply
      · split at hreply
        · cases hreply
          exact ⟨rfl, rfl⟩
        · cases hreply
          exact ⟨rfl, rfl⟩
      · cases hreply
  | header | body | heartbeat | protocolHeader =>
      rw [hpayload] at hreply
      cases hreply

section Calls

variable {conn after : SocketState} {frames : List Frame}
  {error : Option Status}

theorem waitFrameInner_failed_accounts
    {code : ℕ} (hpending : Pending conn frames error)
    (hwait : waitFrameInner conn = some (.error (.socket code), after)) :
    ∃ fates, Accounts conn after frames error [] [] fates := by
  have hwaited := waitFrameInner_pending hpending
  rw [hwait] at hwaited
  cases hwaited with
  | failed hbeats hqueued hafter =>
      have hnothing : Accounts conn after _ error [] [] [] :=
        accounts_nothing hqueued.symm hafter
      exact ⟨_, hnothing.behind_beats hbeats⟩

theorem simpleWaitFrame_accounts
    {result : Except WaitError Frame} (hpending : Pending conn frames error)
    (hcall : simpleWaitFrame conn = some (result, after))
    (husable : (CallResult.waited result).usable = true) :
    ∃ fates,
      Accounts conn after frames error (CallResult.waited result).handed []
        fates := by
  cases hqueued : conn.queued with
  | cons frame queued =>
      simp only [simpleWaitFrame, hqueued, Option.some.injEq,
        Prod.mk.injEq] at hcall
      rw [← hcall.1, ← hcall.2]
      exact ⟨[], accounts_nothing hqueued (hpending.of_queue queued)⟩
  | nil =>
      simp only [simpleWaitFrame, hqueued] at hcall
      cases result with
      | ok frame =>
          have hwaited := waitFrameInner_pending hpending
          rw [hcall] at hwaited
          cases hwaited with
          | frame hbeats hframe hsame hafter =>
              have horder : conn.queued ++ [frame] = [frame] ++ after.queued := by
                rw [hsame, hqueued]
                rfl
              have hkept := accounts_kept horder hafter
              exact ⟨_, hkept.behind_beats hbeats⟩
      | error error =>
          cases error with
          | decoder status => cases husable
          | socket code => exact waitFrameInner_failed_accounts hpending hcall

theorem rpcRetry_accounts
    (channel : UInt16) (expectedReplyIds : List UInt32) (fuel : ℕ)
    {reply : RpcReply} (hpending : Pending conn frames error)
    (hcall :
      rpcRetry channel expectedReplyIds fuel conn = some (reply, after))
    (husable : (CallResult.replied reply).usable = true) :
    ∃ fates,
      Accounts conn after frames error [] (CallResult.replied reply).reply
        fates := by
  induction fuel generalizing conn frames with
  | zero => cases hcall
  | succ fuel ih =>
      cases hwait : waitFrameInner conn with
      | none => simp [rpcRetry, hwait] at hcall
      | some waited =>
          obtain ⟨result, next⟩ := waited
          cases result with
          | error failure =>
              simp only [rpcRetry, hwait, Option.some.injEq,
                Prod.mk.injEq] at hcall
              rw [← hcall.1] at husable ⊢
              rw [← hcall.2]
              cases failure with
              | decoder status => cases husable
              | socket code =>
                  exact waitFrameInner_failed_accounts hpending hwait
          | ok frame =>
              have hwaited := waitFrameInner_pending hpending
              rw [hwait] at hwaited
              cases hwaited with
              | frame hbeats hframe hsame hnext =>
                  cases hreply : replyOf channel expectedReplyIds frame with
                  | some found =>
                      simp only [rpcRetry, hwait, hreply, Option.some.injEq,
                        Prod.mk.injEq] at hcall
                      rw [← hcall.1, ← hcall.2]
                      obtain ⟨method, hmethod, hreplies, _⟩ :=
                        replyOf_method hreply
                      rw [hreplies]
                      have hone := accounts_reply hmethod hsame hnext
                      exact ⟨_, hone.behind_beats hbeats⟩
                  | none =>
                      simp only [rpcRetry, hwait, hreply] at hcall
                      have hqueue : Pending (amqpQueueFrame next frame) _ error :=
                        hnext.of_queue _
                      obtain ⟨fates, hrest⟩ := ih hqueue hcall
                      have horder :
                          conn.queued ++ [frame] =
                            [] ++ (amqpQueueFrame next frame).queued := by
                        rw [← hsame]
                        rfl
                      have hkept := accounts_kept horder hqueue
                      have hone := hkept.behind_beats hbeats
                      exact ⟨_, Accounts.trans (by simp [Function.comp_def]) hone hrest⟩

theorem queueBuffered_pending
    (fuel : ℕ) (hpending : Pending conn frames error)
    (hfuel : conn.sockInbound.length ≤ fuel)
    (hrun : queueBuffered fuel conn = (none, after)) :
    ∃ taken rest, frames = taken ++ rest ∧
      after.queued = conn.queued ++ taken ∧
        after.sockInbound = [] ∧ Pending after rest error := by
  induction fuel generalizing conn frames with
  | zero =>
      have hdata : conn.sockInbound = [] :=
        List.eq_nil_of_length_eq_zero (by omega)
      cases hrun
      exact ⟨[], frames, rfl, (List.append_nil _).symm, hdata, hpending⟩
  | succ fuel ih =>
      by_cases hdata : conn.sockInbound = []
      · simp only [queueBuffered, if_pos hdata, Prod.mk.injEq,
          true_and] at hrun
        rw [← hrun]
        exact ⟨[], frames, rfl, (List.append_nil _).symm, hdata, hpending⟩
      · rcases consumeOneFrame_pending hpending hdata with
          ⟨status, next, hconsume, _, _⟩ |
            ⟨output, input, more, hconsume, hshorter, others, hframes, hnext⟩
        · simp [queueBuffered, hdata, hconsume] at hrun
        · simp only [queueBuffered, if_neg hdata, hconsume] at hrun
          have hqueue := hnext.of_queue (conn.queued ++ output.toList)
          have hless : more.length ≤ fuel := by omega
          obtain ⟨taken, rest, hothers, hqueued, hdry, hafter⟩ :=
            ih hqueue hless hrun
          refine ⟨output.toList ++ taken, rest, ?_, ?_, hdry, hafter⟩
          · rw [hframes, hothers, List.append_assoc]
          · rw [hqueued, List.append_assoc]

/-- Unless the decoder refuses something, a call puts what has been received
before it into the queue, heartbeats too. -/
theorem amqpTryRecv_appends
    {result : Except WaitError Unit} (hpending : Pending conn frames error)
    (hcall : amqpTryRecv conn = (result, after))
    (hdecoded : ∀ status, result ≠ .error (.decoder status)) :
    ∃ arrived rest, frames = arrived ++ rest ∧
      after.queued = conn.queued ++ arrived ∧ Pending after rest error := by
  cases hrun : queueBuffered conn.sockInbound.length conn with
  | mk status next =>
      cases status with
      | some status =>
          simp only [amqpTryRecv, hrun, Prod.mk.injEq] at hcall
          exact (hdecoded status hcall.1.symm).elim
      | none =>
          obtain ⟨arrived, rest, hframes, hqueued, hdry, hnext⟩ :=
            queueBuffered_pending _ hpending le_rfl hrun
          refine ⟨arrived, rest, hframes, ?_⟩
          cases hincoming : next.incoming with
          | nil =>
              simp only [amqpTryRecv, hrun, hincoming,
                Prod.mk.injEq] at hcall
              rw [← hcall.2]
              exact ⟨hqueued, hnext⟩
          | cons arrival incoming =>
              cases arrival with
              | failed code =>
                  simp only [amqpTryRecv, hrun, hincoming,
                    Prod.mk.injEq] at hcall
                  rw [← hcall.2]
                  refine ⟨hqueued, hnext.of_eq rfl ?_⟩
                  rw [hincoming]
                  rfl
              | data bytes =>
                  simp only [amqpTryRecv, hrun, hincoming,
                    Prod.mk.injEq] at hcall
                  rw [← hcall.2]
                  refine ⟨hqueued, hnext.of_eq rfl ?_⟩
                  rw [hincoming, hdry]
                  rfl

theorem amqpTryRecv_accounts
    {result : Except WaitError Unit} (hpending : Pending conn frames error)
    (hcall : amqpTryRecv conn = (result, after))
    (husable : (CallResult.received result).usable = true) :
    ∃ fates, Accounts conn after frames error [] [] fates := by
  have hdecoded : ∀ status, result ≠ .error (.decoder status) := by
    intro status hstatus
    rw [hstatus] at husable
    cases husable
  obtain ⟨arrived, rest, hframes, hqueued, hafter⟩ :=
    amqpTryRecv_appends hpending hcall hdecoded
  refine ⟨arrived.map fun frame => (frame, .kept), ?_⟩
  constructor
  · refine ⟨rest, ?_, hafter⟩
    rw [hframes, List.map_map]
    exact congrArg (· ++ rest) (List.map_id arrived).symm
  · rw [framesWith_map, if_pos rfl, hqueued, List.nil_append]
  · rw [framesWith_map, if_neg (by decide)]
    rfl
  · rw [framesWith_map, if_neg (by decide)]
    exact heartbeats_nil

/-- What one call does to the frames of the connection. -/
theorem call_accounts
    (call : Call) {result : CallResult} (hpending : Pending conn frames error)
    (hcall : call.run conn = some (result, after))
    (husable : result.usable = true) :
    ∃ fates,
      Accounts conn after frames error result.handed result.reply fates := by
  cases call with
  | waitFrame =>
      cases hwait : simpleWaitFrame conn with
      | none => simp [Call.run, hwait] at hcall
      | some waited =>
          simp only [Call.run, hwait, Option.map_some, Option.some.injEq,
            Prod.map, id, Prod.mk.injEq] at hcall
          rw [← hcall.1] at husable ⊢
          rw [← hcall.2]
          exact simpleWaitFrame_accounts hpending hwait husable
  | rpc channel expectedReplyIds sent =>
      cases hrpc : simpleRpcInner channel expectedReplyIds sent conn with
      | none => simp [Call.run, hrpc] at hcall
      | some replied =>
          simp only [Call.run, hrpc, Option.map_some, Option.some.injEq,
            Prod.map, id, Prod.mk.injEq] at hcall
          rw [← hcall.1] at husable ⊢
          rw [← hcall.2]
          cases sent with
          | some code =>
              simp only [simpleRpcInner, Option.some.injEq] at hrpc
              rw [← hrpc]
              exact ⟨[], accounts_nothing rfl hpending⟩
          | none => exact rpcRetry_accounts _ _ _ hpending hrpc husable
  | tryRecv =>
      simp only [Call.run, Option.some.injEq, Prod.map, id,
        Prod.mk.injEq] at hcall
      rw [← hcall.1] at husable ⊢
      exact amqpTryRecv_accounts hpending (Prod.ext rfl hcall.2) husable

end Calls

/-- Over any sequence of these calls, on a connection that sends no heartbeats
while it waits, its frames are handed over, in the order in which they arrived,
except those that were the reply to a call and heartbeats; what has not been
handed over yet stands in the queue or is still to come. -/
theorem no_frame_is_lost
    {conn after : SocketState} {frames : List Frame} {error : Option Status}
    {results : List CallResult} (hpending : Pending conn frames error)
    (hran : Ran conn results after) :
    ∃ fates,
      Accounts conn after frames error (results.flatMap CallResult.handed)
        (results.flatMap CallResult.reply) fates := by
  induction hran generalizing frames with
  | nil conn => exact ⟨[], accounts_nothing rfl hpending⟩
  | cons call hcall husable _ ih =>
      obtain ⟨fates, hfirst⟩ := call_accounts call hpending hcall husable
      obtain ⟨rest, hframes, hnext⟩ := hfirst.taken
      obtain ⟨fates', hrest⟩ := ih hnext
      exact ⟨fates ++ fates', Accounts.trans hframes hfirst hrest⟩

/-- A body is queued, and another one arrives behind a heartbeat. -/
def queuedState : SocketState where
  input := (amqpNewConnection 64).returnToIdle
  sockInbound := []
  queued := [⟨1, .body [7]⟩]
  incoming := [.data [8, 0, 0, 0, 0, 0, 0, 206, 3, 0, 1, 0, 0, 0, 1, 8, 206]]

theorem no_frame_is_lost_queued :
    ∃ fates,
      Accounts queuedState
        { queuedState with
          sockInbound := arriving queuedState.incoming
          queued := []
          incoming := [] }
        [⟨0, .heartbeat⟩, ⟨1, .body [8]⟩] none [⟨1, .body [7]⟩] [] fates := by
  have hpending :
      Pending queuedState [⟨0, .heartbeat⟩, ⟨1, .body [8]⟩] none :=
    @pending_of_wires 64 queuedState [⟨0, .heartbeat⟩, ⟨1, .body [8]⟩]
      (collected_idle 64) (by decide) (by decide) rfl
  have hran :
      Ran queuedState [.waited (.ok ⟨1, .body [7]⟩), .received (.ok ())]
        { queuedState with
          sockInbound := arriving queuedState.incoming
          queued := []
          incoming := [] } :=
    .cons .waitFrame rfl rfl (.cons .tryRecv rfl rfl (.nil _))
  exact no_frame_is_lost hpending hran

/-! ## The reply to a method -/

/-- The frames that stand before the first reply are queued, heartbeats
dropped. -/
def queuedBefore (before : List Frame) : List Frame :=
  before.filter fun frame => !frame.isHeartbeat

section Reply

variable {channel : UInt16} {expectedReplyIds : List UInt32}
  {conn : SocketState} {error : Option Status}

theorem replyOf_heartbeat
    {frame : Frame} (hbeat : frame.isHeartbeat = true) :
    replyOf channel expectedReplyIds frame = none := by
  unfold Frame.isHeartbeat at hbeat
  unfold replyOf
  cases hpayload : frame.payload with
  | heartbeat => rfl
  | method | header | body | protocolHeader => simp [hpayload] at hbeat

theorem queuedBefore_beats
    {beats : List Frame} (hbeats : Heartbeats beats) (frames : List Frame) :
    queuedBefore (beats ++ frames) = queuedBefore frames := by
  have hnone : queuedBefore beats = [] := by
    apply List.filter_eq_nil_iff.mpr
    intro frame hframe
    simp [hbeats frame hframe]
  unfold queuedBefore at hnone ⊢
  rw [List.filter_append, hnone, List.nil_append]

/-- The first frame behind some heartbeats is the frame looked for or stands
before it. -/
theorem first_or_before
    {beats before others rest : List Frame} {first frame : Frame}
    (hbeats : Heartbeats beats) (hframe : frame.isHeartbeat = false)
    (hframes : beats ++ first :: others = before ++ frame :: rest) :
    (before = beats ∧ first = frame ∧ others = rest) ∨
      ∃ more, before = beats ++ first :: more ∧
        others = more ++ frame :: rest := by
  rcases List.append_eq_append_iff.mp hframes with
    ⟨more, hbefore, hmore⟩ | ⟨more, hmore, hrest⟩
  · cases more with
    | nil =>
        left
        rw [List.nil_append, List.cons.injEq] at hmore
        rw [List.append_nil] at hbefore
        exact ⟨hbefore, hmore.1, hmore.2⟩
    | cons head more =>
        right
        rw [List.cons_append, List.cons.injEq] at hmore
        rw [← hmore.1] at hbefore
        exact ⟨more, hbefore, hmore.2⟩
  · cases more with
    | nil =>
        left
        rw [List.nil_append, List.cons.injEq] at hrest
        rw [List.append_nil] at hmore
        exact ⟨hmore.symm, hrest.1.symm, hrest.2.symm⟩
    | cons head more =>
        rw [List.cons_append, List.cons.injEq] at hrest
        have hmem : frame ∈ beats := by
          rw [hmore, hrest.1]
          simp
        rw [hbeats frame hmem] at hframe
        cases hframe

theorem rpcRetry_first
    (fuel : ℕ) {before rest : List Frame} {frame : Frame} {reply : RpcReply}
    (hpending : Pending conn (before ++ frame :: rest) error)
    (hincoming : NoFailure conn.incoming)
    (hbefore : ∀ other ∈ before,
      replyOf channel expectedReplyIds other = none)
    (hreply : replyOf channel expectedReplyIds frame = some reply)
    (hfuel : before.length < fuel) :
    ∃ after,
      rpcRetry channel expectedReplyIds fuel conn = some (reply, after) ∧
        after.queued = conn.queued ++ queuedBefore before ∧
        NoFailure after.incoming ∧ Pending after rest error := by
  have hframe : frame.isHeartbeat = false := by
    cases hbeat : frame.isHeartbeat with
    | false => rfl
    | true =>
        rw [replyOf_heartbeat hbeat] at hreply
        cases hreply
  induction fuel generalizing conn before with
  | zero => omega
  | succ fuel ih =>
      have hwaited := waitFrameInner_pending hpending
      have hmem : frame ∈ before ++ frame :: rest := by simp
      generalize hframes : before ++ frame :: rest = frames at hwaited hmem
      cases hwait : waitFrameInner conn with
      | none =>
          rw [hwait] at hwaited
          cases hwaited with
          | blocked hbeats =>
              rw [hbeats frame hmem] at hframe
              cases hframe
      | some waited =>
          obtain ⟨result, next⟩ := waited
          have hnoFailure :=
            waitArrivals_noFailure conn.incoming hincoming hwait
          rw [hwait] at hwaited
          cases hwaited with
          | refused hbeats =>
              rw [hbeats frame hmem] at hframe
              cases hframe
          | failed => exact (hnoFailure.2 _ rfl).elim
          | @frame _ beats others first hbeats hfirst hqueued hnext =>
              rcases first_or_before hbeats hframe hframes.symm with
                ⟨hsame, heq, hothers⟩ | ⟨more, hsame, hothers⟩
              · rw [heq] at hwait
                rw [hothers] at hnext
                have hnone : queuedBefore before = [] := by
                  have hdrop := queuedBefore_beats hbeats []
                  rw [List.append_nil] at hdrop
                  rw [hsame, hdrop]
                  rfl
                refine ⟨next, ?_, ?_, hnoFailure.1, hnext⟩
                · simp only [rpcRetry, hwait, hreply]
                · rw [hqueued, hnone, List.append_nil]
              · have hfirstNone :=
                  hbefore first (by rw [hsame]; simp)
                have hmoreNone : ∀ other ∈ more,
                    replyOf channel expectedReplyIds other = none := by
                  intro other hother
                  apply hbefore
                  rw [hsame]
                  simp [hother]
                have hlength : more.length < fuel := by
                  rw [hsame, List.length_append, List.length_cons] at hfuel
                  omega
                rw [hothers] at hnext
                obtain ⟨after, hrun, hafter, hrest⟩ :=
                  ih (hnext.of_queue (next.queued ++ [first])) hnoFailure.1
                    hmoreNone hlength
                refine ⟨after, ?_, ?_, hrest⟩
                · simp only [rpcRetry, hwait, hfirstNone]
                  exact hrun
                · rw [hafter, hsame, queuedBefore_beats hbeats, hqueued]
                  simp [queuedBefore, hfirst]

/-- Once the reply has arrived, however its bytes have, the call returns it;
the frames that arrived before it wait in the queue, in their order. -/
theorem simpleRpcInner_first
    {before rest : List Frame} {frame : Frame} {reply : RpcReply}
    (hpending : Pending conn (before ++ frame :: rest) error)
    (hincoming : NoFailure conn.incoming)
    (hbefore : ∀ other ∈ before,
      replyOf channel expectedReplyIds other = none)
    (hreply : replyOf channel expectedReplyIds frame = some reply) :
    ∃ after,
      simpleRpcInner channel expectedReplyIds none conn =
          some (reply, after) ∧
        after.queued = conn.queued ++ queuedBefore before ∧
        NoFailure after.incoming ∧ Pending after rest error := by
  apply rpcRetry_first _ hpending hincoming hbefore hreply
  have hlength := hpending.length_le
  rw [List.length_append, List.length_cons] at hlength
  omega

end Reply

end RabbitWork
