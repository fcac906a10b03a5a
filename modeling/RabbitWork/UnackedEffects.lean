import RabbitWork.ConsumerAcks
import RabbitWork.MqHandler

/-!
# Effects of messages that are not acknowledged

The broker delivers an unacknowledged message again, so handling should be
all or nothing: what `HandlerMqMessage` has done when the loop is left should
be what it had done at the last acknowledgement.  SIGALRM may be delivered
between any two actions of the loop and is not held against it.
-/

namespace RabbitWork

open Reading

/-- Every hand-over is followed by an acknowledgement, and only body frames
are read in between: it is the acknowledgement of the same delivery. -/
def CallsAcked (channel : ℕ) (actions : List (Action WaitResult LoopEvent)) :
    Prop :=
  ∀ before bytes after,
    actions = before ++ .emit (.handOver bytes) :: after →
      ∃ within deliveryTag later,
        after = within ++ .emit (.basicAck channel deliveryTag) :: later ∧
          ∀ result ∈ reads within,
            ∃ frame : BodyFrame, result = frame.result

theorem CallsAcked.append
    {channel : ℕ} {left right : List (Action WaitResult LoopEvent)}
    (hleft : CallsAcked channel left) (hright : CallsAcked channel right) :
    CallsAcked channel (left ++ right) := by
  intro before bytes after hactions
  rcases List.append_eq_append_iff.mp hactions with
    ⟨middle, hbefore, hmiddle⟩ | ⟨middle, hbefore, hmiddle⟩
  · exact hright middle bytes after hmiddle
  · cases middle with
    | nil =>
        rw [List.nil_append] at hmiddle
        exact hright [] bytes after hmiddle.symm
    | cons action middle =>
        rw [List.cons_append, List.cons.injEq] at hmiddle
        rcases hmiddle with ⟨rfl, hafter⟩
        obtain ⟨within, deliveryTag, later, hmiddle, hreads⟩ :=
          hleft before bytes middle hbefore
        refine ⟨within, deliveryTag, later ++ right, ?_, hreads⟩
        rw [hafter, hmiddle]
        simp

end RabbitWork
