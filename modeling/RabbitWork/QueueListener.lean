import RabbitWork.LibRabbitmq

/-!
# The queue listener

`main` of `receive/src/amqp_listenq.cpp` reads a whole message with
`amqp_consume_message`, then one more frame with `amqp_simple_wait_frame`, and
acknowledges the tag it finds in that frame.
-/

namespace RabbitWork

/-- One pass of the `for(;;)` loop: the envelope it prints, the tag it passes
to `amqp_basic_ack`, and the connection after it. -/
structure ListenPass where
  printed : Envelope
  ackTag : Option ℕ
  after : Connection

/-- `((amqp_basic_deliver_t *) frame.payload.method.decoded)->delivery_tag`,
which is only a tag when the frame is a Basic.Deliver. -/
def decodedDeliveryTag (frame : AmqpFrame) : Option ℕ :=
  match frame.payload with
  | .basicDeliver deliveryTag => some deliveryTag
  | _ => none

def amqpListenq (conn : Connection) : List ListenPass :=
  match _hconsume : amqpConsumeMessage conn with
  | some (.normal envelope, afterMessage) =>
      match _hwait : amqpSimpleWaitFrame afterMessage with
      | some (.frame frame, after) =>
          ⟨envelope, decodedDeliveryTag frame, after⟩ :: amqpListenq after
      | some (.failed _, _) => []
      | none => []
  | _ => []
termination_by conn.size
decreasing_by
  exact
    (amqpSimpleWaitFrame_size _hwait).trans
      (amqpConsumeMessage_size _hconsume)

structure QueuedMessage where
  deliveryTag : ℕ
  body : Bytes
  cut : Fragmentation body

def QueuedMessage.results (message : QueuedMessage) : List WaitResult :=
  messageResults 1 message.deliveryTag message.body message.cut.fragments

def QueuedMessage.envelope (message : QueuedMessage) : Envelope :=
  ⟨1, message.deliveryTag, message.body⟩

/-- The connection on which the messages wait, followed by a read error. -/
def listenConnection (messages : List QueuedMessage) (code : ℕ) :
    Connection :=
  ⟨[], messages.flatMap QueuedMessage.results ++ [.failed code]⟩

/-- Every message is printed once and in order, the acknowledged tags are
those of the messages, and each pass uses the frames of its own message
only. -/
structure AcksWhatItPrints (messages : List QueuedMessage) (code : ℕ) :
    Prop where
  printed :
    (amqpListenq (listenConnection messages code)).map ListenPass.printed =
      messages.map QueuedMessage.envelope
  acks :
    (amqpListenq (listenConnection messages code)).map ListenPass.ackTag =
      messages.map fun message => some message.deliveryTag
  aligned : ∀ index pass,
    (amqpListenq (listenConnection messages code))[index]? = some pass →
      pass.after = listenConnection (messages.drop (index + 1)) code

theorem amqpListenq_of_exception
    {conn next : Connection}
    (hconsume : amqpConsumeMessage conn = some (.libraryException, next)) :
    amqpListenq conn = [] := by
  rw [amqpListenq]
  split
  · rename_i hother
    rw [hconsume] at hother
    cases hother
  · rfl

theorem amqpListenq_of_message
    {conn afterMessage : Connection} {envelope : Envelope}
    (hconsume :
      amqpConsumeMessage conn = some (.normal envelope, afterMessage)) :
    amqpListenq conn =
      match amqpSimpleWaitFrame afterMessage with
      | some (.frame frame, after) =>
          ⟨envelope, decodedDeliveryTag frame, after⟩ :: amqpListenq after
      | _ => [] := by
  rw [amqpListenq]
  split
  · rename_i hother
    rw [hconsume] at hother
    cases hother
    split <;> simp_all
  · rename_i hother
    exact (hother _ _ hconsume).elim

theorem amqpListenq_nil (code : ℕ) :
    amqpListenq (listenConnection [] code) = [] := by
  exact amqpListenq_of_exception rfl

theorem amqpListenq_singleton (message : QueuedMessage) (code : ℕ) :
    amqpListenq (listenConnection [message] code) = [] := by
  have hconsume :=
    amqpConsumeMessage_message message.cut 1 message.deliveryTag
      [.failed code]
  have hconn :
      listenConnection [message] code =
        ⟨[], messageResults 1 message.deliveryTag message.body
          message.cut.fragments ++ [.failed code]⟩ := by
    simp [listenConnection, QueuedMessage.results]
  rw [hconn, amqpListenq_of_message hconsume]
  rfl

/-- With two messages or more, the first is printed and acknowledged with the
tag of the second; the loop is left at the header of the second. -/
theorem amqpListenq_cons_cons
    (first second : QueuedMessage) (messages : List QueuedMessage)
    (code : ℕ) :
    ∃ after,
      amqpListenq (listenConnection (first :: second :: messages) code) =
        [⟨first.envelope, some second.deliveryTag, after⟩] := by
  let later : List WaitResult :=
    headerResult 1 second.body.length ::
      (second.cut.fragments.map
        (fun bytes => BodyFrame.result ⟨1, bytes⟩) ++
          (messages.flatMap QueuedMessage.results ++ [.failed code]))
  have hconsume :=
    amqpConsumeMessage_message first.cut 1 first.deliveryTag
      (deliverResult 1 second.deliveryTag :: later)
  have hconn :
      listenConnection (first :: second :: messages) code =
        ⟨[], messageResults 1 first.deliveryTag first.body
          first.cut.fragments ++
            deliverResult 1 second.deliveryTag :: later⟩ := by
    simp [listenConnection, QueuedMessage.results, messageResults, later]
  have hheader :
      amqpConsumeMessage ⟨[], later⟩ =
        some (.libraryException,
          ⟨[⟨1, .header second.body.length⟩], later.tail⟩) :=
    amqpConsumeMessage_unexpected rfl _
  refine ⟨⟨[], later⟩, ?_⟩
  rw [hconn, amqpListenq_of_message hconsume]
  simp only [amqpSimpleWaitFrame_incoming, deliverResult]
  rw [amqpListenq_of_exception hheader]
  rfl

/-- The listener acknowledges what it prints exactly when no message
arrives. -/
theorem acksWhatItPrints_iff
    (messages : List QueuedMessage) (code : ℕ) :
    AcksWhatItPrints messages code ↔ messages = [] := by
  constructor
  · intro hlaw
    have hlength := congrArg List.length hlaw.printed
    rcases messages with _ | ⟨first, _ | ⟨second, messages⟩⟩
    · rfl
    · rw [amqpListenq_singleton] at hlength
      simp at hlength
    · obtain ⟨after, hpasses⟩ :=
        amqpListenq_cons_cons first second messages code
      rw [hpasses] at hlength
      simp at hlength
  · intro hnone
    subst messages
    constructor
    · rw [amqpListenq_nil]
      rfl
    · rw [amqpListenq_nil]
      rfl
    · intro index pass hpass
      rw [amqpListenq_nil] at hpass
      simp at hpass

def messageA : QueuedMessage where
  deliveryTag := 1
  body := [0x61]
  cut := ⟨[[0x61]], rfl, by decide⟩

def messageB : QueuedMessage where
  deliveryTag := 2
  body := [0x62]
  cut := ⟨[[0x62]], rfl, by decide⟩

theorem not_acksWhatItPrints_two_messages :
    ¬ AcksWhatItPrints [messageA, messageB] 0 := by
  intro hlaw
  obtain ⟨after, hpasses⟩ := amqpListenq_cons_cons messageA messageB [] 0
  have hacks := hlaw.acks
  rw [hpasses] at hacks
  simp [messageA, messageB] at hacks

end RabbitWork
