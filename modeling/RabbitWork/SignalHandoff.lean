import RabbitWork.LabelledRuns
import RabbitWork.LevelTriggered
import RabbitWork.LossyFifo

/-!
# The hand-off of caught signals

`MainProcessSigHandler` sends the number of a caught signal as one byte into
the socketpair, whose write end is non-blocking, and ignores whether the byte
found room.  The signal branch of `lt` takes bytes out again.  Both sides
together are a bounded queue of signals that drops what meets it full.
-/

namespace RabbitWork

open Queueing Stepping

/-- The signals that `ProcessSigInit` installs the handler for. -/
inductive CaughtSignal where
  | sigusr1
  | sighup
  | sigpipe
  deriving DecidableEq, Repr

def CaughtSignal.nSigNum : CaughtSignal → ℕ
  | .sigusr1 => 10
  | .sighup => 1
  | .sigpipe => 13

def CaughtSignal.handler : CaughtSignal → SignalHandler
  | .sigusr1 => .sigusr1Handler
  | .sighup => .sighupHandler
  | .sigpipe => .sigpipeHandler

/-- What the signal handler and the event loop share: `errno` and the bytes
in the socketpair, with the handlers run so far. -/
structure SignalLink where
  errno : ℕ
  fifo : Bytes
  handled : List SignalHandler
  deriving DecidableEq, Repr

def SignalLink.initial (errno : ℕ) : SignalLink := ⟨errno, [], []⟩

namespace SignalLink

variable (capacity : ℕ) (link : SignalLink)

/-- `send` of one byte on the non-blocking `m_nWrFd`. -/
def send (byte : UInt8) : SignalLink :=
  if link.fifo.length < capacity then
    { link with fifo := link.fifo ++ [byte] }
  else
    { link with errno := eAgain }

/-- `(char *)&nSig` is the low byte of the signal number. -/
def mainProcessSigHandler (nSigNum : ℕ) : SignalLink :=
  let nSaveErrno := link.errno
  let nSig := nSigNum
  let sent := link.send capacity (UInt8.ofNat nSig)
  { sent with errno := nSaveErrno }

/-- What `recv` on the non-blocking `m_nRdFd` returns when it takes at most
`taken` bytes.  The write end stays open, so it does not return zero. -/
def recvResult (taken : ℕ) : RecvResult :=
  if link.fifo = [] then
    .failed eAgain
  else
    .received (link.fifo.take taken)

def recv (taken : ℕ) : SignalLink where
  errno := if link.fifo = [] then eAgain else link.errno
  fifo := link.fifo.drop taken
  handled := link.handled

/-- The `switch` over the received bytes. -/
def dispatch (result : RecvResult) : SignalLink :=
  { link with
    handled := link.handled ++ mainProcessSignalProcessing result }

def mainProcessSignals (taken : ℕ) : SignalLink :=
  (link.recv taken).dispatch (link.recvResult taken)

end SignalLink

inductive SignalStep where
  | caught (signal : CaughtSignal)
  | processing (taken : ℕ)
  deriving DecidableEq, Repr

/-- The buffer that `recv` fills. -/
def gcSignalsSize : ℕ := 1024

/-- A signal can be caught at any moment, and the event loop can run
`MainProcessSignalProcessing` at any moment. -/
def signalStep (capacity : ℕ) (link : SignalLink) :
    SignalStep → Option SignalLink
  | .caught signal =>
      some (link.mainProcessSigHandler capacity signal.nSigNum)
  | .processing taken =>
      if 0 < taken ∧ taken ≤ gcSignalsSize then
        some (link.mainProcessSignals taken)
      else
        none

def caughtSignals (steps : List SignalStep) : List CaughtSignal :=
  steps.filterMap fun
    | .caught signal => some signal
    | .processing _ => none

/-- The caught signals whose `send` finds room. -/
def queuedSignals (capacity : ℕ) :
    SignalLink → List SignalStep → List CaughtSignal
  | _, [] => []
  | link, .caught signal :: steps =>
      let next := link.mainProcessSigHandler capacity signal.nSigNum
      if link.fifo.length < capacity then
        signal :: queuedSignals capacity next steps
      else
        queuedSignals capacity next steps
  | link, .processing taken :: steps =>
      queuedSignals capacity (link.mainProcessSignals taken) steps

/-- No signal is caught while the socketpair is full. -/
def NeverCaughtFull
    (capacity : ℕ) (link : SignalLink) (steps : List SignalStep) : Prop :=
  ∀ before signal after middle,
    steps = before ++ .caught signal :: after →
      runSteps (signalStep capacity) link before = some middle →
        middle.fifo.length < capacity

section Link

variable (capacity : ℕ) (link : SignalLink)

@[simp] theorem SignalLink.mainProcessSigHandler_errno (nSigNum : ℕ) :
    (link.mainProcessSigHandler capacity nSigNum).errno = link.errno := rfl

@[simp] theorem SignalLink.mainProcessSigHandler_handled (nSigNum : ℕ) :
    (link.mainProcessSigHandler capacity nSigNum).handled =
      link.handled := by
  unfold mainProcessSigHandler send
  simp only
  split_ifs <;> rfl

theorem SignalLink.mainProcessSigHandler_fifo (nSigNum : ℕ) :
    (link.mainProcessSigHandler capacity nSigNum).fifo =
      if link.fifo.length < capacity then
        link.fifo ++ [UInt8.ofNat nSigNum]
      else
        link.fifo := by
  unfold mainProcessSigHandler send
  simp only
  split_ifs <;> rfl

/-- A signal caught between `recv` and the end of the `switch` loop has the
effect of one caught after it. -/
theorem SignalLink.mainProcessSigHandler_dispatch
    (nSigNum : ℕ) (result : RecvResult) :
    (link.dispatch result).mainProcessSigHandler capacity nSigNum =
      (link.mainProcessSigHandler capacity nSigNum).dispatch result := by
  unfold mainProcessSigHandler send dispatch
  simp only
  split_ifs <;> rfl

end Link

/-! ## The queue of signals behind the bytes -/

def CaughtSignal.byte (signal : CaughtSignal) : UInt8 :=
  UInt8.ofNat signal.nSigNum

@[simp] theorem CaughtSignal.byte_eq_sigNum (signal : CaughtSignal) :
    signal.byte = signal.handler.sigNum := by
  cases signal <;> rfl

def SignalStep.op : SignalStep → QueueOp CaughtSignal
  | .caught signal => .push signal
  | .processing taken => .pop taken

structure SignalLink.Carries
    (link : SignalLink) (queue : LossyFifo CaughtSignal) : Prop where
  fifo : link.fifo = queue.contents.map CaughtSignal.byte
  handled : link.handled = queue.popped.map CaughtSignal.handler

theorem mainProcessSignalProcessing_bytes (signals : List CaughtSignal) :
    mainProcessSignalProcessing
        (.received (signals.map CaughtSignal.byte)) =
      signals.map CaughtSignal.handler := by
  have hbytes :
      signals.map CaughtSignal.byte =
        (signals.map CaughtSignal.handler).map SignalHandler.sigNum := by
    simp
  rw [hbytes, mainProcessSignalProcessing_sigNums]

section Simulation

variable {capacity : ℕ} {link : SignalLink}
  {queue : LossyFifo CaughtSignal}

theorem SignalLink.Carries.room_iff (hcarries : link.Carries queue) :
    link.fifo.length < capacity ↔ queue.contents.length < capacity := by
  rw [hcarries.fifo, List.length_map]

theorem SignalLink.Carries.caught
    (hcarries : link.Carries queue) (signal : CaughtSignal) :
    (link.mainProcessSigHandler capacity signal.nSigNum).Carries
      (queue.step capacity (.push signal)) := by
  by_cases hroom : queue.contents.length < capacity
  · constructor
    · rw [mainProcessSigHandler_fifo, if_pos (hcarries.room_iff.mpr hroom)]
      simp only [LossyFifo.step, if_pos hroom, List.map_append,
        List.map_singleton, hcarries.fifo]
      rfl
    · simp [LossyFifo.step, hroom, hcarries.handled]
  · constructor
    · rw [mainProcessSigHandler_fifo, if_neg (mt hcarries.room_iff.mp hroom)]
      simp only [LossyFifo.step, if_neg hroom, hcarries.fifo]
    · simp [LossyFifo.step, hroom, hcarries.handled]

theorem SignalLink.Carries.processing
    (hcarries : link.Carries queue) (taken : ℕ) :
    (link.mainProcessSignals taken).Carries
      (queue.step capacity (.pop taken)) := by
  have htaken :
      mainProcessSignalProcessing (link.recvResult taken) =
        (queue.contents.take taken).map CaughtSignal.handler := by
    unfold recvResult
    split_ifs with hempty
    · have hcontents : queue.contents = [] := by
        simpa [hempty] using hcarries.fifo
      simp [hcontents, mainProcessSignalProcessing]
    · rw [hcarries.fifo, ← List.map_take,
        mainProcessSignalProcessing_bytes]
  constructor
  · simp only [mainProcessSignals, dispatch, recv, LossyFifo.step,
      hcarries.fifo, List.map_drop]
  · simp only [mainProcessSignals, dispatch, recv, LossyFifo.step,
      hcarries.handled, htaken, List.map_append]

theorem signalStep_processing
    {next : SignalLink} {taken : ℕ}
    (hstep : signalStep capacity link (.processing taken) = some next) :
    next = link.mainProcessSignals taken := by
  simp only [signalStep, Option.ite_none_right_eq_some,
    Option.some.injEq] at hstep
  exact hstep.2.symm

theorem SignalLink.Carries.step
    {next : SignalLink} {step : SignalStep}
    (hcarries : link.Carries queue)
    (hstep : signalStep capacity link step = some next) :
    next.Carries (queue.step capacity step.op) := by
  cases step with
  | caught signal =>
      cases hstep
      exact hcarries.caught signal
  | processing taken =>
      rw [signalStep_processing hstep]
      exact hcarries.processing taken

/-- The socketpair with its two ends is the queue of signals, over any run. -/
theorem SignalLink.Carries.run
    {last : SignalLink} {steps : List SignalStep}
    (hcarries : link.Carries queue)
    (hrun : runSteps (signalStep capacity) link steps = some last) :
    last.Carries (queue.run capacity (steps.map SignalStep.op)) := by
  apply runSteps_simulates (signalStep capacity) _ hcarries hrun
  intro link step next queue hcarries hstep
  exact hcarries.step hstep

theorem SignalLink.Carries.accepted_eq
    {last : SignalLink} {steps : List SignalStep}
    (hcarries : link.Carries queue)
    (hrun : runSteps (signalStep capacity) link steps = some last) :
    LossyFifo.accepted capacity queue (steps.map SignalStep.op) =
      queuedSignals capacity link steps := by
  induction steps generalizing link queue with
  | nil => rfl
  | cons step steps ih =>
      obtain ⟨next, hstep, hrest⟩ := exists_runSteps_cons _ hrun
      have hnext := ih (hcarries.step hstep) hrest
      cases step with
      | caught signal =>
          cases hstep
          simp only [List.map_cons, SignalStep.op, LossyFifo.accepted,
            LossyFifo.accepts, queuedSignals, hcarries.room_iff] at hnext ⊢
          rw [hnext]
          split_ifs <;> rfl
      | processing taken =>
          rw [signalStep_processing hstep] at hnext
          exact hnext

theorem pushed_map_op (steps : List SignalStep) :
    LossyFifo.pushed (steps.map SignalStep.op) = caughtSignals steps := by
  induction steps with
  | nil => rfl
  | cons step steps ih =>
      cases step with
      | caught signal => exact congrArg (signal :: ·) ih
      | processing taken => exact ih

theorem SignalLink.Carries.neverFull_iff
    {last : SignalLink} {steps : List SignalStep}
    (hcarries : link.Carries queue)
    (hrun : runSteps (signalStep capacity) link steps = some last) :
    LossyFifo.NeverFull capacity queue (steps.map SignalStep.op) ↔
      NeverCaughtFull capacity link steps := by
  constructor
  · intro hnever before signal after middle hsteps hmiddle
    have hroom :=
      hnever (before.map SignalStep.op) signal (after.map SignalStep.op)
        (by rw [hsteps, List.map_append]; rfl)
    exact (hcarries.run hmiddle).room_iff.mpr hroom
  · intro hnever before item after hops
    obtain ⟨left, right, hsteps, hbefore, hright⟩ :=
      List.map_eq_append_iff.mp hops
    obtain ⟨step, rest, hcons, hop, -⟩ := List.map_eq_cons_iff.mp hright
    subst hcons
    cases step with
    | processing taken => cases hop
    | caught signal =>
        rw [hsteps] at hrun
        obtain ⟨middle, hmiddle, -⟩ :=
          exists_runSteps_prefix (signalStep capacity) hrun
        rw [← hbefore]
        exact (hcarries.run hmiddle).room_iff.mp
          (hnever left signal rest middle hsteps hmiddle)

end Simulation

theorem SignalLink.carries_initial (errno : ℕ) :
    (SignalLink.initial errno).Carries LossyFifo.empty :=
  ⟨rfl, rfl⟩

theorem CaughtSignal.handler_injective :
    Function.Injective CaughtSignal.handler := by
  intro left right heq
  cases left <;> cases right <;> first | rfl | cases heq

/-! ## The signal branch of `lt` -/

def handlersRun (calls : List EpollCall) : List SignalHandler :=
  calls.filterMap fun
    | .signalHandler handler => some handler
    | _ => none

@[simp] theorem handlersRun_append (left right : List EpollCall) :
    handlersRun (left ++ right) = handlersRun left ++ handlersRun right := by
  simp [handlersRun]

@[simp] theorem handlersRun_cons_recv
    (fd : Fd) (result : RecvResult) (calls : List EpollCall) :
    handlersRun (.recv fd result :: calls) = handlersRun calls := rfl

@[simp] theorem handlersRun_map (handlers : List SignalHandler) :
    handlersRun (handlers.map .signalHandler) = handlers := by
  induction handlers with
  | nil => rfl
  | cons handler handlers ih => exact congrArg (handler :: ·) ih

/-- The event loop's half of the link. -/
structure EpollProcess.Sees
    (process : EpollProcess) (link : SignalLink) : Prop where
  errno : process.errno = link.errno
  handled : handlersRun process.calls = link.handled

/-- An event of the read end, handled by `lt`, is a processing step of the
link. -/
theorem ltEvent_processing
    (signals : ProcessSignalDate) (nListenFd : Fd)
    {process : EpollProcess} {link : SignalLink} {event : EpollEvent}
    {results : CallResults} {taken : ℕ}
    (hsees : process.Sees link)
    (hfd : event.fd = signals.m_nRdFd)
    (hreadable : event.events &&& epollIn ≠ 0)
    (hrecv : results.recv = link.recvResult taken) :
    (ltEvent signals nListenFd process event results).Sees
      (link.mainProcessSignals taken) := by
  have hbranch :
      ltEvent signals nListenFd process event results =
        process.mainProcessSignals event.fd results.recv := by
    unfold ltEvent
    simp [hfd, hreadable]
  rw [hbranch, hrecv]
  constructor
  · rw [EpollProcess.mainProcessSignals_errno]
    unfold SignalLink.recvResult SignalLink.mainProcessSignals
    split_ifs with hempty
    · simp [SignalLink.dispatch, SignalLink.recv, hempty]
    · simp [SignalLink.dispatch, SignalLink.recv, hempty, hsees.errno]
  · simp [SignalLink.mainProcessSignals, SignalLink.dispatch,
      SignalLink.recv, hsees.handled]

/-! ## What the handlers have run for -/

theorem handled_of_drained
    {capacity errno : ℕ} {steps : List SignalStep} {last : SignalLink}
    (hrun :
      runSteps (signalStep capacity) (.initial errno) steps = some last)
    (hdrained : last.fifo = []) :
    last.handled =
      (queuedSignals capacity (.initial errno) steps).map
        CaughtSignal.handler := by
  have hcarries := (SignalLink.carries_initial errno).run hrun
  have hcontents :
      (LossyFifo.empty.run capacity
        (steps.map SignalStep.op)).contents = [] := by
    simpa [hdrained] using hcarries.fifo
  rw [hcarries.handled, LossyFifo.popped_of_drained capacity hcontents,
    (SignalLink.carries_initial errno).accepted_eq hrun]

theorem queuedSignals_sublist
    {capacity errno : ℕ} {steps : List SignalStep} {last : SignalLink}
    (hrun :
      runSteps (signalStep capacity) (.initial errno) steps = some last) :
    (queuedSignals capacity (.initial errno) steps).Sublist
      (caughtSignals steps) := by
  rw [← (SignalLink.carries_initial errno).accepted_eq hrun,
    ← pushed_map_op]
  exact LossyFifo.accepted_sublist_pushed capacity _ _

theorem queuedSignals_eq_iff
    {capacity errno : ℕ} {steps : List SignalStep} {last : SignalLink}
    (hrun :
      runSteps (signalStep capacity) (.initial errno) steps = some last) :
    queuedSignals capacity (.initial errno) steps = caughtSignals steps ↔
      NeverCaughtFull capacity (.initial errno) steps := by
  rw [← (SignalLink.carries_initial errno).accepted_eq hrun,
    ← pushed_map_op, LossyFifo.accepted_eq_pushed_iff]
  exact (SignalLink.carries_initial errno).neverFull_iff hrun

/-- When the socketpair has been drained, the handlers have run for the
signals whose byte found room, in the order in which they were caught.  These
are all the caught signals exactly if none was caught while it was full. -/
theorem signalHandoff_handled
    {capacity errno : ℕ} {steps : List SignalStep} {last : SignalLink}
    (hrun :
      runSteps (signalStep capacity) (.initial errno) steps = some last)
    (hdrained : last.fifo = []) :
    last.handled =
        (queuedSignals capacity (.initial errno) steps).map
          CaughtSignal.handler ∧
      (queuedSignals capacity (.initial errno) steps).Sublist
        (caughtSignals steps) ∧
      (last.handled = (caughtSignals steps).map CaughtSignal.handler ↔
        NeverCaughtFull capacity (.initial errno) steps) := by
  have hhandled := handled_of_drained hrun hdrained
  refine ⟨hhandled, queuedSignals_sublist hrun, ?_⟩
  rw [hhandled, ← queuedSignals_eq_iff hrun]
  exact (List.map_injective_iff.mpr CaughtSignal.handler_injective).eq_iff

/-- Three signals into a socketpair with room for two: the third is lost, a
fourth after a read of one byte is not. -/
def burstSteps : List SignalStep :=
  [.caught .sigusr1, .caught .sighup, .caught .sigpipe, .processing 1,
    .caught .sigusr1, .processing 1024]

theorem signalHandoff_handled_burst :
    let last : SignalLink :=
      ⟨0, [], [.sigusr1Handler, .sighupHandler, .sigusr1Handler]⟩
    last.handled =
        (queuedSignals 2 (.initial 0) burstSteps).map
          CaughtSignal.handler ∧
      (queuedSignals 2 (.initial 0) burstSteps).Sublist
        (caughtSignals burstSteps) ∧
      (last.handled = (caughtSignals burstSteps).map CaughtSignal.handler ↔
        NeverCaughtFull 2 (.initial 0) burstSteps) := by
  intro last
  have hrun :
      runSteps (signalStep 2) (.initial 0) burstSteps = some last := by
    decide
  exact signalHandoff_handled hrun rfl

/-- A signal that meets a full socketpair never reaches its handler. -/
theorem not_allCaughtHandled_burst :
    ¬ ∀ (capacity errno : ℕ) (steps : List SignalStep) (last : SignalLink),
      runSteps (signalStep capacity) (.initial errno) steps = some last →
        last.fifo = [] →
          last.handled =
            (caughtSignals steps).map CaughtSignal.handler := by
  intro hall
  have hhandled :=
    hall 2 0 burstSteps
      ⟨0, [], [.sigusr1Handler, .sighupHandler, .sigusr1Handler]⟩
      (by decide) rfl
  exact absurd hhandled (by decide)

end RabbitWork
