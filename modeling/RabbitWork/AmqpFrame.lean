import Mathlib.Tactic

/-!
# Frames of an AMQP connection

What the consumer loops see of a connection: the results of
`amqp_simple_wait_frame`, each a negative status or a decoded frame.  Of a
frame the loops read `frame_type`, the method id and delivery tag of a METHOD
frame, the `body_size` of a HEADER frame and the bytes of a BODY frame; the
channel is printed only.
-/

namespace RabbitWork

abbrev Bytes := List UInt8

/-- `frame.frame_type` together with the member of `frame.payload` that is
valid for it. -/
inductive Payload where
  | basicDeliver (deliveryTag : ℕ)
  | otherMethod (id : ℕ)
  | header (bodySize : ℕ)
  | body (bodyFragment : Bytes)
  | otherType (frameType : ℕ)
  deriving DecidableEq, Repr

structure AmqpFrame where
  channel : ℕ
  payload : Payload
  deriving DecidableEq, Repr

/-- A result of `amqp_simple_wait_frame`.  `failed code` is the negative
status `-(code + 1)`. -/
inductive WaitResult where
  | failed (code : ℕ)
  | frame (frame : AmqpFrame)
  deriving DecidableEq, Repr

/-- `frame_type == AMQP_FRAME_METHOD` and
`payload.method.id == AMQP_BASIC_DELIVER_METHOD`. -/
def AmqpFrame.isDeliver (frame : AmqpFrame) : Bool :=
  match frame.payload with
  | .basicDeliver _ => true
  | _ => false

end RabbitWork
