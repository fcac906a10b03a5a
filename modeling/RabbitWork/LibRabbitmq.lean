import RabbitWork.DeliveryUnits

/-!
# The message reader of librabbitmq

`amqp_consume_message` of the vendored library reads a whole message, frame by
frame and from one channel only: frames of other channels are queued on the
connection, and so is an unexpected first frame.  Frames that have been queued
are returned by `amqp_simple_wait_frame` before those still incoming.

The calls return `none` when they block: the frames that have arrived are used
up.  Lengths are exact.
-/

namespace RabbitWork

structure Connection where
  queued : List AmqpFrame
  incoming : List WaitResult
  deriving DecidableEq, Repr

def Connection.size (conn : Connection) : ℕ :=
  conn.queued.length + conn.incoming.length

inductive Reply (α : Type) where
  | normal (value : α)
  | libraryException
  | serverException
  deriving DecidableEq, Repr

structure Envelope where
  channel : ℕ
  deliveryTag : ℕ
  body : Bytes
  deriving DecidableEq, Repr

def channelCloseMethod : ℕ := 0x00140028

def connectionCloseMethod : ℕ := 0x000A0032

def amqpSimpleWaitFrame (conn : Connection) :
    Option (WaitResult × Connection) :=
  match conn.queued, conn.incoming with
  | frame :: queued, incoming => some (.frame frame, ⟨queued, incoming⟩)
  | [], result :: incoming => some (result, ⟨[], incoming⟩)
  | [], [] => none

/-- The queue loop of `amqp_simple_wait_frame_on_channel`.  The queue is cut
after the frame it finds, so the frames before that are gone. -/
def takeQueued (channel : ℕ) :
    List AmqpFrame → Option (AmqpFrame × List AmqpFrame)
  | [] => none
  | frame :: queued =>
      if channel = frame.channel then some (frame, queued)
      else takeQueued channel queued

def waitIncoming (channel : ℕ) (queued : List AmqpFrame) :
    List WaitResult → Option (WaitResult × Connection)
  | [] => none
  | .failed code :: incoming => some (.failed code, ⟨queued, incoming⟩)
  | .frame frame :: incoming =>
      if channel = frame.channel then
        some (.frame frame, ⟨queued, incoming⟩)
      else
        waitIncoming channel (queued ++ [frame]) incoming

def amqpSimpleWaitFrameOnChannel (channel : ℕ) (conn : Connection) :
    Option (WaitResult × Connection) :=
  match takeQueued channel conn.queued with
  | some (frame, queued) => some (.frame frame, ⟨queued, conn.incoming⟩)
  | none => waitIncoming channel conn.queued conn.incoming

def amqpPutBackFrame (frame : AmqpFrame) (conn : Connection) : Connection :=
  { conn with queued := frame :: conn.queued }

theorem takeQueued_length
    {channel : ℕ} {queued rest : List AmqpFrame} {frame : AmqpFrame}
    (htake : takeQueued channel queued = some (frame, rest)) :
    rest.length < queued.length := by
  induction queued with
  | nil => simp [takeQueued] at htake
  | cons first queued ih =>
      simp only [takeQueued] at htake
      split at htake
      · simp only [Option.some.injEq, Prod.mk.injEq] at htake
        simp [htake.2]
      · have h := ih htake
        simp only [List.length_cons]
        omega

theorem waitIncoming_size
    {channel : ℕ} {queued : List AmqpFrame} {incoming : List WaitResult}
    {result : WaitResult} {next : Connection}
    (hwait : waitIncoming channel queued incoming = some (result, next)) :
    next.size < queued.length + incoming.length := by
  induction incoming generalizing queued with
  | nil => simp [waitIncoming] at hwait
  | cons first incoming ih =>
      cases first with
      | failed code =>
          simp only [waitIncoming, Option.some.injEq, Prod.mk.injEq] at hwait
          simp [← hwait.2, Connection.size]
      | frame frame =>
          simp only [waitIncoming] at hwait
          split at hwait
          · simp only [Option.some.injEq, Prod.mk.injEq] at hwait
            simp [← hwait.2, Connection.size]
          · have h := ih hwait
            simp only [List.length_append, List.length_cons,
              List.length_nil] at h ⊢
            omega

theorem amqpSimpleWaitFrame_size
    {conn next : Connection} {result : WaitResult}
    (hwait : amqpSimpleWaitFrame conn = some (result, next)) :
    next.size < conn.size := by
  obtain ⟨queued, incoming⟩ := conn
  cases queued with
  | cons frame queued =>
      simp only [amqpSimpleWaitFrame, Option.some.injEq,
        Prod.mk.injEq] at hwait
      simp [← hwait.2, Connection.size]
  | nil =>
      cases incoming with
      | nil => simp [amqpSimpleWaitFrame] at hwait
      | cons first incoming =>
          simp only [amqpSimpleWaitFrame, Option.some.injEq,
            Prod.mk.injEq] at hwait
          simp [← hwait.2, Connection.size]

theorem amqpSimpleWaitFrameOnChannel_size
    {channel : ℕ} {conn next : Connection} {result : WaitResult}
    (hwait :
      amqpSimpleWaitFrameOnChannel channel conn = some (result, next)) :
    next.size < conn.size := by
  unfold amqpSimpleWaitFrameOnChannel at hwait
  split at hwait
  · rename_i frame queued htake
    have hlength := takeQueued_length htake
    simp only [Option.some.injEq, Prod.mk.injEq] at hwait
    simp only [← hwait.2, Connection.size]
    omega
  · exact waitIncoming_size hwait

/-- The body loop of `amqp_read_message`. -/
def amqpReadBody (channel bodySize : ℕ) (body : Bytes) (conn : Connection) :
    Option (Reply Bytes × Connection) :=
  if body.length < bodySize then
    match _hwait : amqpSimpleWaitFrameOnChannel channel conn with
    | none => none
    | some (.failed _, next) => some (.libraryException, next)
    | some (.frame frame, next) =>
        match frame.payload with
        | .body bodyFragment =>
            if bodySize < body.length + bodyFragment.length then
              some (.libraryException, next)
            else
              amqpReadBody channel bodySize (body ++ bodyFragment) next
        | .otherMethod id =>
            if id = channelCloseMethod ∨ id = connectionCloseMethod then
              some (.serverException, next)
            else
              some (.libraryException, next)
        | _ => some (.libraryException, next)
  else
    some (.normal body, conn)
termination_by conn.size
decreasing_by exact amqpSimpleWaitFrameOnChannel_size _hwait

def amqpReadMessage (channel : ℕ) (conn : Connection) :
    Option (Reply Bytes × Connection) :=
  match amqpSimpleWaitFrameOnChannel channel conn with
  | none => none
  | some (.failed _, next) => some (.libraryException, next)
  | some (.frame frame, next) =>
      match frame.payload with
      | .header bodySize => amqpReadBody channel bodySize [] next
      | .otherMethod id =>
          if id = channelCloseMethod ∨ id = connectionCloseMethod then
            some (.serverException, next)
          else
            some (.libraryException, amqpPutBackFrame frame next)
      | _ => some (.libraryException, amqpPutBackFrame frame next)

def amqpConsumeMessage (conn : Connection) :
    Option (Reply Envelope × Connection) :=
  match amqpSimpleWaitFrame conn with
  | none => none
  | some (.failed _, next) => some (.libraryException, next)
  | some (.frame frame, next) =>
      match frame.payload with
      | .basicDeliver deliveryTag =>
          match amqpReadMessage frame.channel next with
          | none => none
          | some (.normal body, next) =>
              some (.normal ⟨frame.channel, deliveryTag, body⟩, next)
          | some (.libraryException, next) => some (.libraryException, next)
          | some (.serverException, next) => some (.serverException, next)
      | _ => some (.libraryException, amqpPutBackFrame frame next)

theorem amqpReadBody_size
    {channel bodySize : ℕ} {body received : Bytes} {conn next : Connection}
    (hread :
      amqpReadBody channel bodySize body conn =
        some (.normal received, next)) :
    next.size ≤ conn.size := by
  fun_induction amqpReadBody channel bodySize body conn with
  | case4 _ _ _ _ _ hwait _ _ _ ih =>
      exact (ih hread).trans (amqpSimpleWaitFrameOnChannel_size hwait).le
  | case8 =>
      simp only [Option.some.injEq, Prod.mk.injEq] at hread
      rw [hread.2]
  | _ => simp at hread

theorem amqpReadMessage_size
    {channel : ℕ} {conn next : Connection} {body : Bytes}
    (hread : amqpReadMessage channel conn = some (.normal body, next)) :
    next.size < conn.size := by
  unfold amqpReadMessage at hread
  split at hread
  · simp at hread
  · simp at hread
  · rename_i frame afterHeader hheader
    have hfirst := amqpSimpleWaitFrameOnChannel_size hheader
    split at hread
    · exact (amqpReadBody_size hread).trans_lt hfirst
    · split at hread <;> simp at hread
    · simp at hread

theorem amqpConsumeMessage_size
    {conn next : Connection} {envelope : Envelope}
    (hconsume :
      amqpConsumeMessage conn = some (.normal envelope, next)) :
    next.size < conn.size := by
  unfold amqpConsumeMessage at hconsume
  split at hconsume
  · simp at hconsume
  · simp at hconsume
  · rename_i frame afterDeliver hdeliver
    have hfirst := amqpSimpleWaitFrame_size hdeliver
    split at hconsume
    · split at hconsume
      · simp at hconsume
      · rename_i body afterBody hmessage
        simp only [Option.some.injEq, Prod.mk.injEq] at hconsume
        rw [← hconsume.2]
        exact (amqpReadMessage_size hmessage).trans hfirst
      · simp at hconsume
      · simp at hconsume
    · simp at hconsume

/-! ## Whole messages on one channel -/

@[simp] theorem amqpSimpleWaitFrame_incoming
    (result : WaitResult) (incoming : List WaitResult) :
    amqpSimpleWaitFrame ⟨[], result :: incoming⟩ =
      some (result, ⟨[], incoming⟩) := rfl

@[simp] theorem amqpSimpleWaitFrameOnChannel_own
    (channel : ℕ) (payload : Payload) (incoming : List WaitResult) :
    amqpSimpleWaitFrameOnChannel channel
        ⟨[], .frame ⟨channel, payload⟩ :: incoming⟩ =
      some (.frame ⟨channel, payload⟩, ⟨[], incoming⟩) := by
  simp [amqpSimpleWaitFrameOnChannel, takeQueued, waitIncoming]

theorem amqpReadBody_of_fits
    {channel bodySize : ℕ} {body bytes : Bytes} {conn next : Connection}
    (hopen : body.length < bodySize)
    (hwait :
      amqpSimpleWaitFrameOnChannel channel conn =
        some (BodyFrame.result ⟨channel, bytes⟩, next))
    (hfits : body.length + bytes.length ≤ bodySize) :
    amqpReadBody channel bodySize body conn =
      amqpReadBody channel bodySize (body ++ bytes) next := by
  rw [amqpReadBody, if_pos hopen]
  split
  · rename_i hother
    rw [hwait] at hother
    cases hother
  · rename_i hother
    rw [hwait] at hother
    cases hother
  · rename_i hother
    rw [hwait] at hother
    cases hother
    simp only [if_neg (not_lt.mpr hfits)]

theorem amqpReadBody_fragments
    (channel bodySize : ℕ) (body : Bytes) (fragments : List Bytes)
    (rest : List WaitResult)
    (hincomplete : ∀ k < fragments.length,
      body.length + (fragments.take k).flatten.length < bodySize)
    (hcomplete : body.length + fragments.flatten.length = bodySize) :
    amqpReadBody channel bodySize body
        ⟨[], fragments.map (fun bytes => BodyFrame.result ⟨channel, bytes⟩) ++
          rest⟩ =
      some (.normal (body ++ fragments.flatten), ⟨[], rest⟩) := by
  induction fragments generalizing body with
  | nil =>
      have hfull : ¬ body.length < bodySize := by
        simp only [List.flatten_nil, List.length_nil] at hcomplete
        omega
      rw [amqpReadBody]
      simp [hfull]
  | cons bytes fragments ih =>
      have hopen : body.length < bodySize := by
        simpa using hincomplete 0 (by simp)
      rw [List.flatten_cons, List.length_append] at hcomplete
      have hrest := ih (body ++ bytes)
        (by
          intro k hk
          have h := hincomplete (k + 1) (by simpa using hk)
          simpa [Nat.add_assoc] using h)
        (by
          rw [List.length_append]
          omega)
      rw [List.flatten_cons, ← List.append_assoc, ← hrest]
      exact amqpReadBody_of_fits hopen
        (amqpSimpleWaitFrameOnChannel_own channel (.body bytes) _)
        (by omega)

/-- A message that has arrived whole is returned, and nothing after it is
used. -/
theorem amqpConsumeMessage_message
    {body : Bytes} (cut : Fragmentation body) (channel deliveryTag : ℕ)
    (rest : List WaitResult) :
    amqpConsumeMessage
        ⟨[], messageResults channel deliveryTag body cut.fragments ++ rest⟩ =
      some (.normal ⟨channel, deliveryTag, body⟩, ⟨[], rest⟩) := by
  have hbody :=
    amqpReadBody_fragments channel body.length [] cut.fragments rest
      (by simpa using cut.incomplete) (by simp [cut.join])
  rw [List.nil_append, cut.join] at hbody
  have hmessage :
      amqpReadMessage channel
          ⟨[], headerResult channel body.length ::
            (cut.fragments.map
              (fun bytes => BodyFrame.result ⟨channel, bytes⟩) ++ rest)⟩ =
        some (.normal body, ⟨[], rest⟩) := by
    simp only [amqpReadMessage, headerResult,
      amqpSimpleWaitFrameOnChannel_own]
    exact hbody
  simp only [amqpConsumeMessage, messageResults, List.cons_append,
    deliverResult, amqpSimpleWaitFrame_incoming]
  rw [hmessage]

theorem amqpConsumeMessage_unexpected
    {frame : AmqpFrame} (hother : frame.isDeliver = false)
    (incoming : List WaitResult) :
    amqpConsumeMessage ⟨[], .frame frame :: incoming⟩ =
      some (.libraryException, ⟨[frame], incoming⟩) := by
  obtain ⟨channel, payload⟩ := frame
  cases payload with
  | basicDeliver deliveryTag => simp [AmqpFrame.isDeliver] at hother
  | otherMethod | header | body | otherType =>
      simp [amqpConsumeMessage, amqpPutBackFrame]

end RabbitWork
