import RabbitWork.AmqpFrame
import RabbitWork.ReaderMachine

/-!
# The consumer loop and its copies

`ReandMqMessage` of `c/recveive` is two nested loops around three calls of
`amqp_simple_wait_frame`.  It is modelled as a reader whose program points are
these three calls.  The loop also exists as `ReandMqMessage` of `c/send` and
`c/back` and inline in the `main` of `exchange` and of `receive_demo`; the
copies differ in what they do with a frame that does not fit, so they are one
definition with that choice as a parameter.

`toSizeT` is the conversion to `size_t`: the identity for exact lengths, the
remainder modulo `2 ^ w` for a `w`-bit machine.  Handing over is taken to come
back here; `machineStep` adds the crash of `HandlerMqMessage` on a fragment
whose length is not an `int`.
-/

namespace RabbitWork

open Reading

/-- The three calls of `amqp_simple_wait_frame`, with the locals that are
live there. -/
inductive ReadPoint where
  | first
  | second (deliveryTag : ℕ)
  | third (deliveryTag bodyTarget bodyReceived : ℕ)
  deriving DecidableEq, Repr

inductive LoopEvent where
  /-- A body fragment is passed on: to `HandlerMqMessage` in `c/recveive`,
  to `printf` in the other copies. -/
  | handOver (bodyFragment : Bytes)
  | basicAck (channel deliveryTag : ℕ)
  deriving DecidableEq, Repr

inductive LoopExit where
  | leftLoop
  | aborted
  | assertFailed
  /-- `HandlerMqMessage` does not come back. -/
  | crashed
  deriving DecidableEq, Repr

inductive OnMisfit where
  | breakLoop
  | abort
  | assertion
  deriving DecidableEq, Repr

structure LoopCopy where
  noHeader : OnMisfit
  noBody : OnMisfit
  overlong : OnMisfit

abbrev LoopStep := List LoopEvent × Next ReadPoint LoopExit

/-- Leave the enclosing loop, after which `afterBreak` runs, or the
program. -/
def OnMisfit.leave (onMisfit : OnMisfit) (afterBreak : LoopStep) : LoopStep :=
  match onMisfit with
  | .breakLoop => afterBreak
  | .abort => ([], .stopped .aborted)
  | .assertion => ([], .stopped .assertFailed)

/-- The code after the inner loop: `if (body_received != body_target) break;`
and the acknowledgement. -/
def afterBody
    (channel deliveryTag bodyTarget bodyReceived : ℕ) : LoopStep :=
  if bodyReceived ≠ bodyTarget then
    ([], .stopped .leftLoop)
  else
    ([.basicAck channel deliveryTag], .await .first)

/-- The test `while (body_received < body_target)`. -/
def bodyLoop (channel deliveryTag bodyTarget bodyReceived : ℕ) : LoopStep :=
  if bodyReceived < bodyTarget then
    ([], .await (.third deliveryTag bodyTarget bodyReceived))
  else
    afterBody channel deliveryTag bodyTarget bodyReceived

/-- The code from one return of `amqp_simple_wait_frame` to its next call. -/
def consumerStep (copy : LoopCopy) (toSizeT : ℕ → ℕ) (channel : ℕ) :
    ReadPoint → WaitResult → LoopStep
  | .first, .failed _ => ([], .stopped .leftLoop)
  | .first, .frame frame =>
      match frame.payload with
      | .basicDeliver deliveryTag => ([], .await (.second deliveryTag))
      | _ => ([], .await .first)
  | .second _, .failed _ => ([], .stopped .leftLoop)
  | .second deliveryTag, .frame frame =>
      match frame.payload with
      | .header bodySize => bodyLoop channel deliveryTag (toSizeT bodySize) 0
      | _ => copy.noHeader.leave ([], .stopped .leftLoop)
  | .third deliveryTag bodyTarget bodyReceived, .failed _ =>
      afterBody channel deliveryTag bodyTarget bodyReceived
  | .third deliveryTag bodyTarget bodyReceived, .frame frame =>
      match frame.payload with
      | .body bodyFragment =>
          let bodyReceived := toSizeT (bodyReceived + bodyFragment.length)
          if bodyTarget < bodyReceived then
            copy.overlong.leave
              (afterBody channel deliveryTag bodyTarget bodyReceived)
          else
            let rest := bodyLoop channel deliveryTag bodyTarget bodyReceived
            (.handOver bodyFragment :: rest.1, rest.2)
      | _ =>
          copy.noBody.leave
            (afterBody channel deliveryTag bodyTarget bodyReceived)

def consumerLoop (copy : LoopCopy) (toSizeT : ℕ → ℕ) (channel : ℕ) :
    Reader ReadPoint WaitResult LoopEvent LoopExit where
  step := consumerStep copy toSizeT channel

/-- `ReandMqMessage` of `c/recveive`. -/
def recveiveCopy : LoopCopy := ⟨.breakLoop, .breakLoop, .breakLoop⟩

/-- `ReandMqMessage` of `c/send`, the same text as in `c/back`. -/
def sendCopy : LoopCopy := ⟨.breakLoop, .breakLoop, .breakLoop⟩

/-- The loop in `main` of `exchange/src/amqp_exchange_declare.cpp`. -/
def exchangeDeclareCopy : LoopCopy := ⟨.breakLoop, .breakLoop, .assertion⟩

/-- The loop in `main` of `receive_demo/src/receive_demo.cpp`. -/
def receiveDemoCopy : LoopCopy := ⟨.abort, .abort, .assertion⟩

/-- `ReandMqMessage(conn, n_Channelid)` of `c/recveive` with exact
lengths. -/
def reandMqMessage (channel : ℕ) :
    Reader ReadPoint WaitResult LoopEvent LoopExit :=
  consumerLoop recveiveCopy id channel

def loopTrace (copy : LoopCopy) (toSizeT : ℕ → ℕ) (channel : ℕ)
    (results : List WaitResult) : List (Action WaitResult LoopEvent) :=
  (consumerLoop copy toSizeT channel).trace (.await .first) results

def handedOver (actions : List (Action WaitResult LoopEvent)) : List Bytes :=
  (outputs actions).filterMap fun
    | .handOver bodyFragment => some bodyFragment
    | .basicAck _ _ => none

def acked (actions : List (Action WaitResult LoopEvent)) : List (ℕ × ℕ) :=
  (outputs actions).filterMap fun
    | .handOver _ => none
    | .basicAck channel deliveryTag => some (channel, deliveryTag)

section Projections

variable (left right actions : List (Action WaitResult LoopEvent))

@[simp] theorem handedOver_nil : handedOver [] = [] := rfl

@[simp] theorem handedOver_append :
    handedOver (left ++ right) = handedOver left ++ handedOver right := by
  simp [handedOver]

@[simp] theorem handedOver_cons_read (result : WaitResult) :
    handedOver (.read result :: actions) = handedOver actions := rfl

@[simp] theorem handedOver_cons_handOver (bodyFragment : Bytes) :
    handedOver (.emit (.handOver bodyFragment) :: actions) =
      bodyFragment :: handedOver actions := rfl

@[simp] theorem handedOver_cons_basicAck (channel deliveryTag : ℕ) :
    handedOver (.emit (.basicAck channel deliveryTag) :: actions) =
      handedOver actions := rfl

@[simp] theorem acked_nil : acked [] = [] := rfl

@[simp] theorem acked_append :
    acked (left ++ right) = acked left ++ acked right := by
  simp [acked]

@[simp] theorem acked_cons_read (result : WaitResult) :
    acked (.read result :: actions) = acked actions := rfl

@[simp] theorem acked_cons_handOver (bodyFragment : Bytes) :
    acked (.emit (.handOver bodyFragment) :: actions) = acked actions := rfl

@[simp] theorem acked_cons_basicAck (channel deliveryTag : ℕ) :
    acked (.emit (.basicAck channel deliveryTag) :: actions) =
      (channel, deliveryTag) :: acked actions := rfl

@[simp] theorem handedOver_map_read (results : List WaitResult) :
    handedOver (results.map .read) = [] := by
  simp [handedOver]

@[simp] theorem acked_map_read (results : List WaitResult) :
    acked (results.map .read) = [] := by
  simp [acked]

end Projections

/-! ## The test of the inner loop -/

section InnerTest

variable (channel deliveryTag : ℕ)

theorem afterBody_of_ne
    {bodyTarget bodyReceived : ℕ}
    (hne : bodyReceived ≠ bodyTarget) :
    afterBody channel deliveryTag bodyTarget bodyReceived =
      ([], .stopped .leftLoop) := by
  simp [afterBody, hne]

theorem bodyLoop_of_lt {bodyTarget bodyReceived : ℕ}
    (hlt : bodyReceived < bodyTarget) :
    bodyLoop channel deliveryTag bodyTarget bodyReceived =
      ([], .await (.third deliveryTag bodyTarget bodyReceived)) := by
  simp [bodyLoop, hlt]

theorem bodyLoop_self (bodyTarget : ℕ) :
    bodyLoop channel deliveryTag bodyTarget bodyTarget =
      ([.basicAck channel deliveryTag], .await .first) := by
  simp [bodyLoop, afterBody]

theorem bodyLoop_of_gt {bodyTarget bodyReceived : ℕ}
    (hgt : bodyTarget < bodyReceived) :
    bodyLoop channel deliveryTag bodyTarget bodyReceived =
      ([], .stopped .leftLoop) := by
  simp [bodyLoop, afterBody, hgt.ne', hgt.not_gt]

/-- A fragment that fits is passed on before the next test. -/
theorem consumerStep_fits
    (copy : LoopCopy) {toSizeT : ℕ → ℕ} {bodyTarget bodyReceived : ℕ}
    {bodyFragment : Bytes}
    (hfits :
      ¬ bodyTarget < toSizeT (bodyReceived + bodyFragment.length))
    (frameChannel : ℕ) :
    consumerStep copy toSizeT channel
        (.third deliveryTag bodyTarget bodyReceived)
        (.frame ⟨frameChannel, .body bodyFragment⟩) =
      let test := bodyLoop channel deliveryTag bodyTarget
        (toSizeT (bodyReceived + bodyFragment.length))
      (.handOver bodyFragment :: test.1, test.2) := by
  simp only [consumerStep, if_neg hfits]

end InnerTest

/-! ## Results that stop the loop -/

def OnMisfit.exit : OnMisfit → LoopExit
  | .breakLoop => .leftLoop
  | .abort => .aborted
  | .assertion => .assertFailed

theorem OnMisfit.leave_eq_exit (onMisfit : OnMisfit) :
    onMisfit.leave ([], .stopped .leftLoop) = ([], .stopped onMisfit.exit) := by
  cases onMisfit <;> rfl

/-- The inner loop only waits for a fragment while the body is short of its
target. -/
def ReadPoint.Live : ReadPoint → Prop
  | .first => True
  | .second _ => True
  | .third _ bodyTarget bodyReceived => bodyReceived < bodyTarget

/-- A frame that does not fit where it is read. -/
def ReadPoint.Misfit (toSizeT : ℕ → ℕ) : ReadPoint → WaitResult → Prop
  | _, .failed _ => False
  | .first, .frame _ => False
  | .second _, .frame frame =>
      ∀ bodySize, frame.payload ≠ .header bodySize
  | .third _ bodyTarget bodyReceived, .frame frame =>
      ∀ bodyFragment, frame.payload = .body bodyFragment →
        bodyTarget < toSizeT (bodyReceived + bodyFragment.length)

/-- How a copy leaves the loop on a result that stops it. -/
def LoopCopy.exitAt (copy : LoopCopy) : ReadPoint → WaitResult → LoopExit
  | _, .failed _ => .leftLoop
  | .first, .frame _ => .leftLoop
  | .second _, .frame _ => copy.noHeader.exit
  | .third _ _ _, .frame ⟨_, .body _⟩ => copy.overlong.exit
  | .third _ _ _, .frame _ => copy.noBody.exit

/-- A wait that failed, or a frame that does not fit. -/
def ReadPoint.Halts
    (toSizeT : ℕ → ℕ) (point : ReadPoint) (result : WaitResult) : Prop :=
  (∃ code, result = .failed code) ∨ point.Misfit toSizeT result

/-- Every copy stops, without another output, on a result that halts it at a
point it can be at. -/
theorem consumerStep_halts
    (copy : LoopCopy) (toSizeT : ℕ → ℕ) (channel : ℕ)
    {point : ReadPoint} {result : WaitResult}
    (hlive : point.Live) (hhalts : point.Halts toSizeT result) :
    consumerStep copy toSizeT channel point result =
      ([], .stopped (copy.exitAt point result)) := by
  rcases hhalts with ⟨code, hfailed⟩ | hmisfit
  · subst hfailed
    cases point with
    | first | second => rfl
    | third deliveryTag bodyTarget bodyReceived =>
        exact afterBody_of_ne channel deliveryTag (Nat.ne_of_lt hlive)
  · cases result with
    | failed code => exact hmisfit.elim
    | frame frame =>
        obtain ⟨frameChannel, payload⟩ := frame
        cases point with
        | first => exact hmisfit.elim
        | second deliveryTag =>
            cases payload with
            | header bodySize => exact (hmisfit bodySize rfl).elim
            | basicDeliver | otherMethod | body | otherType =>
                exact copy.noHeader.leave_eq_exit
        | third deliveryTag bodyTarget bodyReceived =>
            have hopen :=
              afterBody_of_ne channel deliveryTag (Nat.ne_of_lt hlive)
            cases payload with
            | body bodyFragment =>
                have hover := hmisfit bodyFragment rfl
                have hafter :=
                  afterBody_of_ne channel deliveryTag hover.ne'
                simp only [consumerStep, if_pos hover, hafter,
                  LoopCopy.exitAt, OnMisfit.leave_eq_exit]
            | basicDeliver | otherMethod | header | otherType =>
                simp only [consumerStep, hopen, LoopCopy.exitAt,
                  OnMisfit.leave_eq_exit]

end RabbitWork
