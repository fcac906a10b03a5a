import RabbitWork.ConsumerRun
import RabbitWork.Lockstep

/-!
# The copies of the consumer loop agree

The loops of `c/recveive`, `c/send`, `exchange` and `receive_demo` treat a
frame that does not fit differently: one breaks out of the loop where another
aborts or fails an assertion.  On every stream they nevertheless read the same
results, acknowledge the same deliveries and pass on the same fragments, and
the same result stops them.
-/

namespace RabbitWork

open Reading

/-- What a loop does with a message, without the channel number it was
given. -/
def LoopEvent.passedOrAcked : LoopEvent → Bytes ⊕ ℕ
  | .handOver bodyFragment => .inl bodyFragment
  | .basicAck _ deliveryTag => .inr deliveryTag

/-- A copy of the loop as it is run on its channel. -/
structure RunningCopy where
  copy : LoopCopy
  channel : ℕ

def RunningCopy.reader (toSizeT : ℕ → ℕ) (running : RunningCopy) :
    Reader ReadPoint WaitResult LoopEvent LoopExit :=
  consumerLoop running.copy toSizeT running.channel

def RunningCopy.trace (toSizeT : ℕ → ℕ) (running : RunningCopy)
    (results : List WaitResult) : List (Action WaitResult LoopEvent) :=
  loopTrace running.copy toSizeT running.channel results

/-- The read call in which a copy is left after the results, or how it left
the loop. -/
def RunningCopy.final (toSizeT : ℕ → ℕ) (running : RunningCopy)
    (results : List WaitResult) : Next ReadPoint LoopExit :=
  (running.reader toSizeT).final (.await .first) results

section Steps

variable {toSizeT : ℕ → ℕ} {point : ReadPoint} {result : WaitResult}

/-- All copies do the same with a result, whatever their channels. -/
abbrev StepsAlike
    (toSizeT : ℕ → ℕ) (point : ReadPoint) (result : WaitResult) : Prop :=
  StepsTogether (RunningCopy.reader toSizeT) LoopEvent.passedOrAcked
    ReadPoint.Live (fun running => running.copy.exitAt)
    (ReadPoint.Halts toSizeT) point result

theorem stepsAlike_of_await
    (seen : List (Bytes ⊕ ℕ)) {next : ReadPoint} (hlive : next.Live)
    (hemitted : ∀ (copy : LoopCopy) (channel : ℕ),
      (consumerStep copy toSizeT channel point result).1.map
        LoopEvent.passedOrAcked = seen)
    (hnext : ∀ (copy : LoopCopy) (channel : ℕ),
      (consumerStep copy toSizeT channel point result).2 = .await next) :
    StepsAlike toSizeT point result :=
  .goOn seen next hlive
    (fun running => hemitted running.copy running.channel)
    (fun running => hnext running.copy running.channel)

theorem stepsAlike_of_halts
    (hlive : point.Live) (hhalts : point.Halts toSizeT result) :
    StepsAlike toSizeT point result := by
  apply StepsTogether.halt [] hhalts
  · intro running
    exact congrArg (fun step => step.1.map LoopEvent.passedOrAcked)
      (consumerStep_halts running.copy toSizeT running.channel hlive hhalts)
  · intro running
    exact congrArg Prod.snd
      (consumerStep_halts running.copy toSizeT running.channel hlive hhalts)

/-- A step that comes to the test of the inner loop with a body that is not
too long waits for the next fragment, or acknowledges and waits for the next
delivery. -/
theorem stepsAlike_of_bodyLoop
    (passedOn : List LoopEvent) {deliveryTag bodyTarget bodyReceived : ℕ}
    (hle : bodyReceived ≤ bodyTarget)
    (hstep : ∀ (copy : LoopCopy) (channel : ℕ),
      consumerStep copy toSizeT channel point result =
        let test := bodyLoop channel deliveryTag bodyTarget bodyReceived
        (passedOn ++ test.1, test.2)) :
    StepsAlike toSizeT point result := by
  rcases hle.lt_or_eq with hlt | heq
  · have hlive :
        (ReadPoint.third deliveryTag bodyTarget bodyReceived).Live := hlt
    apply stepsAlike_of_await (passedOn.map LoopEvent.passedOrAcked) hlive
    · intro copy channel
      simp [hstep, bodyLoop_of_lt channel deliveryTag hlt]
    · intro copy channel
      simp [hstep, bodyLoop_of_lt channel deliveryTag hlt]
  · have hlive : ReadPoint.first.Live := trivial
    apply stepsAlike_of_await
      (passedOn.map LoopEvent.passedOrAcked ++ [.inr deliveryTag]) hlive
    · intro copy channel
      simp [hstep, heq, bodyLoop_self, LoopEvent.passedOrAcked]
    · intro copy channel
      simp [hstep, heq, bodyLoop_self]

/-- The one step: every copy does the same with a result, or all of them stop
on it.  The cases are those of `consumerStep`. -/
theorem stepsAlike_of_live
    (toSizeT : ℕ → ℕ) (point : ReadPoint) (result : WaitResult)
    (hlive : point.Live) :
    StepsAlike toSizeT point result := by
  cases result with
  | failed code => exact stepsAlike_of_halts hlive (.inl ⟨code, rfl⟩)
  | frame frame =>
      obtain ⟨frameChannel, payload⟩ := frame
      cases point with
      | first =>
          cases payload with
          | basicDeliver deliveryTag =>
              have hnext : (ReadPoint.second deliveryTag).Live := trivial
              exact stepsAlike_of_await [] hnext
                (fun _ _ => rfl) (fun _ _ => rfl)
          | otherMethod | header | body | otherType =>
              have hnext : ReadPoint.first.Live := trivial
              exact stepsAlike_of_await [] hnext
                (fun _ _ => rfl) (fun _ _ => rfl)
      | second deliveryTag =>
          cases payload with
          | header bodySize =>
              exact stepsAlike_of_bodyLoop []
                (Nat.zero_le (toSizeT bodySize)) (fun _ _ => rfl)
          | basicDeliver | otherMethod | body | otherType =>
              apply stepsAlike_of_halts hlive
              right
              intro bodySize heq
              cases heq
      | third deliveryTag bodyTarget bodyReceived =>
          cases payload with
          | body bodyFragment =>
              by_cases hover :
                  bodyTarget < toSizeT (bodyReceived + bodyFragment.length)
              · apply stepsAlike_of_halts hlive
                right
                intro fragment heq
                cases heq
                exact hover
              · apply stepsAlike_of_bodyLoop [.handOver bodyFragment]
                  (not_lt.mp hover)
                intro copy channel
                exact consumerStep_fits channel deliveryTag copy hover
                  frameChannel
          | basicDeliver | otherMethod | header | otherType =>
              apply stepsAlike_of_halts hlive
              right
              intro bodyFragment heq
              cases heq

end Steps

/-! ## Whole streams -/

section Runs

variable (toSizeT : ℕ → ℕ)

/-- Where two copies are after the results. -/
inductive EndsAlike (left right : RunningCopy) (results : List WaitResult) :
    Prop
  | waiting (point : ReadPoint)
      (hleft : left.final toSizeT results = .await point)
      (hright : right.final toSizeT results = .await point)
  | waitFailed (before : List WaitResult) (code : ℕ)
      (unread : List WaitResult) (point : ReadPoint)
      (hresults : results = before ++ .failed code :: unread)
      (hbefore :
        left.final toSizeT before = .await point ∧
          right.final toSizeT before = .await point)
      (hleft : left.final toSizeT results = .stopped .leftLoop)
      (hright : right.final toSizeT results = .stopped .leftLoop)
  | misfit (before : List WaitResult) (stop : WaitResult)
      (unread : List WaitResult) (point : ReadPoint)
      (hresults : results = before ++ stop :: unread)
      (hmisfit : point.Misfit toSizeT stop)
      (hbefore :
        left.final toSizeT before = .await point ∧
          right.final toSizeT before = .await point)
      (hleft :
        left.final toSizeT results =
          .stopped (left.copy.exitAt point stop))
      (hright :
        right.final toSizeT results =
          .stopped (right.copy.exitAt point stop))

structure LoopsAgree (left right : RunningCopy)
    (results : List WaitResult) : Prop where
  reads :
    reads (left.trace toSizeT results) = reads (right.trace toSizeT results)
  deliveryTags :
    (acked (left.trace toSizeT results)).map Prod.snd =
      (acked (right.trace toSizeT results)).map Prod.snd
  bodyFragments :
    handedOver (left.trace toSizeT results) =
      handedOver (right.trace toSizeT results)
  /-- The hand-overs, acknowledgements and reads come in the same order. -/
  order :
    (left.trace toSizeT results).map (Action.seen LoopEvent.passedOrAcked) =
      (right.trace toSizeT results).map (Action.seen LoopEvent.passedOrAcked)
  ends : EndsAlike toSizeT left right results

theorem acked_map_snd (actions : List (Action WaitResult LoopEvent)) :
    (acked actions).map Prod.snd =
      (outputs (actions.map (Action.seen LoopEvent.passedOrAcked))).filterMap
        Sum.getRight? := by
  rw [outputs_map_seen, acked, List.filterMap_map, List.map_filterMap]
  apply List.filterMap_congr
  intro event _
  cases event <;> rfl

theorem handedOver_eq_filterMap
    (actions : List (Action WaitResult LoopEvent)) :
    handedOver actions =
      (outputs (actions.map (Action.seen LoopEvent.passedOrAcked))).filterMap
        Sum.getLeft? := by
  rw [outputs_map_seen, handedOver, List.filterMap_map]
  apply List.filterMap_congr
  intro event _
  cases event <;> rfl

@[simp] theorem LoopCopy.exitAt_failed
    (copy : LoopCopy) (point : ReadPoint) (code : ℕ) :
    copy.exitAt point (.failed code) = .leftLoop := by
  cases point <;> rfl

/-- Whatever the copies do with a frame that does not fit, they agree. -/
theorem runningCopies_agree
    (left right : RunningCopy) (results : List WaitResult) :
    LoopsAgree toSizeT left right results := by
  have hlive : ReadPoint.first.Live := trivial
  obtain ⟨⟨actions, hactions⟩, hends⟩ :=
    lockstep (stepsAlike_of_live toSizeT) hlive results
  have horder :
      (left.trace toSizeT results).map
          (Action.seen LoopEvent.passedOrAcked) =
        (right.trace toSizeT results).map
          (Action.seen LoopEvent.passedOrAcked) :=
    (hactions left).trans (hactions right).symm
  constructor
  · rw [← reads_map_seen LoopEvent.passedOrAcked, horder, reads_map_seen]
  · rw [acked_map_snd, horder, ← acked_map_snd]
  · rw [handedOver_eq_filterMap, horder, ← handedOver_eq_filterMap]
  · exact horder
  · cases hends with
    | waiting point hfinal =>
        exact .waiting point (hfinal left) (hfinal right)
    | halted before stop unread point hresults hhalts hbefore hfinal =>
        have hleft := hfinal left
        have hright := hfinal right
        rcases hhalts with ⟨code, hfailed⟩ | hmisfit
        · subst hfailed
          rw [LoopCopy.exitAt_failed] at hleft hright
          exact .waitFailed before code unread point hresults
            ⟨hbefore left, hbefore right⟩ hleft hright
        · exact .misfit before stop unread point hresults hmisfit
            ⟨hbefore left, hbefore right⟩ hleft hright

end Runs

/-- The programs with a copy of the loop. -/
inductive LoopProgram where
  | recveive
  | send
  | exchangeDeclare
  | receiveDemo
  deriving DecidableEq, Repr

def LoopProgram.copy : LoopProgram → LoopCopy
  | .recveive => recveiveCopy
  | .send => sendCopy
  | .exchangeDeclare => exchangeDeclareCopy
  | .receiveDemo => receiveDemoCopy

/-- The programs, each on a channel of its own, read the same results,
acknowledge the same delivery tags and pass on the same fragments.  They stop
on the same result, in different ways only if it is a frame that does not
fit. -/
theorem loopPrograms_agree
    (toSizeT : ℕ → ℕ) (channel : LoopProgram → ℕ)
    (results : List WaitResult) (left right : LoopProgram) :
    LoopsAgree toSizeT ⟨left.copy, channel left⟩
      ⟨right.copy, channel right⟩ results :=
  runningCopies_agree toSizeT _ _ results

end RabbitWork
