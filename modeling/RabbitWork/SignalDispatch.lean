import RabbitWork.AmqpFrame

/-!
# Signals through the socketpair

`signal.cpp` hands caught signals to the event loop as bytes of a socketpair.
`ProcessSigInit` creates the pair, and `MainProcessSignalProcessing` reads up to
1024 bytes from it and runs the handler of each byte.
-/

namespace RabbitWork

abbrev Fd := ℕ

structure ProcessSignalDate where
  m_gnPipeFd : Fd × Fd
  m_nWrFd : Fd
  m_nRdFd : Fd
  deriving DecidableEq, Repr

/-- A failed `socketpair` stops the process at the assertion. -/
def processSigInit (socketpair : Option (Fd × Fd)) :
    Option ProcessSignalDate :=
  socketpair.map fun pair =>
    { m_gnPipeFd := pair
      m_nWrFd := pair.2
      m_nRdFd := pair.1 }

inductive SignalHandler where
  | sigusr1Handler
  | sighupHandler
  | sigpipeHandler
  deriving DecidableEq, Repr

def SignalHandler.sigNum : SignalHandler → UInt8
  | .sigusr1Handler => 10
  | .sighupHandler => 1
  | .sigpipeHandler => 13

def dispatchSignal (signal : UInt8) : Option SignalHandler :=
  if signal = SignalHandler.sigusr1Handler.sigNum then
    some .sigusr1Handler
  else if signal = SignalHandler.sighupHandler.sigNum then
    some .sighupHandler
  else if signal = SignalHandler.sigpipeHandler.sigNum then
    some .sigpipeHandler
  else
    none

@[simp] theorem dispatchSignal_sigNum (handler : SignalHandler) :
    dispatchSignal handler.sigNum = some handler := by
  cases handler <;> rfl

inductive RecvResult where
  | failed (errno : ℕ)
  | received (bytes : Bytes)
  deriving DecidableEq, Repr

def RecvResult.nRet : RecvResult → ℤ
  | .failed _ => -1
  | .received bytes => bytes.length

/-- What the call leaves in the zeroed buffer. -/
def RecvResult.gcBuff : RecvResult → Bytes
  | .failed _ => []
  | .received bytes => bytes

/-- The value of a run that dispatches is not set by a `return`; no caller
distinguishes it from the others. -/
def mainProcessSignalProcessing (result : RecvResult) : List SignalHandler :=
  match result with
  | .failed _ => []
  | .received gcSignals => gcSignals.filterMap dispatchSignal

/-- The bytes of caught signals run their handlers in order. -/
theorem mainProcessSignalProcessing_sigNums (handlers : List SignalHandler) :
    mainProcessSignalProcessing
        (.received (handlers.map SignalHandler.sigNum)) = handlers := by
  simp [mainProcessSignalProcessing, List.filterMap_map]

end RabbitWork
