import RabbitWork.DescriptorTable
import RabbitWork.MqHandler
import RabbitWork.SignalDispatch

/-!
# The process under epoll

The descriptors of the process, those registered with its one epoll instance,
`errno`, and the calls made so far.  A failing call sets `errno` and a
successful one leaves it as it is.  The results of `accept` and `recv` are
given by the environment; those of the other calls follow from the descriptors.
-/

namespace RabbitWork

open Descriptors

def eAgain : ℕ := 11
def eWouldBlock : ℕ := 11
def eBadf : ℕ := 9
def eNoent : ℕ := 2
def eExist : ℕ := 17

def epollIn : UInt32 := 0x1
def epollErr : UInt32 := 0x8
def epollHup : UInt32 := 0x10
def epollRdHup : UInt32 := 0x2000
def epollEt : UInt32 := 0x80000000
def pollRdHup : UInt32 := 0x2000

def bufferSize : ℕ := 1024

structure EpollEvent where
  events : UInt32
  fd : Fd
  deriving DecidableEq, Repr

inductive AcceptResult where
  | failed (errno : ℕ)
  | connected (nConnFd : Fd)
  deriving DecidableEq, Repr

/-- What the process does, the lines it prints about client data included. -/
inductive EpollCall where
  | accept (result : AcceptResult)
  | epollCtlAdd (fd : Fd) (events : UInt32)
  | epollCtlDel (fd : Fd)
  | setNonblocking (fd : Fd)
  | recv (fd : Fd) (result : RecvResult)
  | close (fd : Fd)
  | clientData (nRet : ℤ) (gcBuff : Bytes) (fd : Fd)
  | signalHandler (handler : SignalHandler)
  deriving DecidableEq, Repr

structure EpollProcess where
  errno : ℕ
  descriptors : Table Fd
  calls : List EpollCall

def WouldBlock (errno : ℕ) : Prop :=
  errno = eAgain ∨ errno = eWouldBlock

instance (errno : ℕ) : Decidable (WouldBlock errno) :=
  inferInstanceAs (Decidable (_ ∨ _))

namespace EpollProcess

variable (process : EpollProcess)

def accept (result : AcceptResult) : EpollProcess :=
  let calls := process.calls ++ [.accept result]
  match result with
  | .failed errno => { process with errno := errno, calls := calls }
  | .connected nConnFd =>
      { process with
        descriptors := process.descriptors.openNew nConnFd
        calls := calls }

def epollCtlAdd (fd : Fd) (events : UInt32) : EpollProcess where
  errno :=
    if fd ∉ process.descriptors.opened then eBadf
    else if fd ∈ process.descriptors.registered then eExist
    else process.errno
  descriptors := process.descriptors.register fd
  calls := process.calls ++ [.epollCtlAdd fd events]

def epollCtlDel (fd : Fd) : EpollProcess where
  errno :=
    if fd ∉ process.descriptors.opened then eBadf
    else if fd ∉ process.descriptors.registered then eNoent
    else process.errno
  descriptors := process.descriptors.deregister fd
  calls := process.calls ++ [.epollCtlDel fd]

def setNonblocking (fd : Fd) : EpollProcess where
  errno := if fd ∉ process.descriptors.opened then eBadf else process.errno
  descriptors := process.descriptors
  calls := process.calls ++ [.setNonblocking fd]

def recv (fd : Fd) (result : RecvResult) : EpollProcess :=
  let calls := process.calls ++ [.recv fd result]
  match result with
  | .failed errno => { process with errno := errno, calls := calls }
  | .received _ => { process with calls := calls }

def close (fd : Fd) : EpollProcess where
  errno := if fd ∉ process.descriptors.opened then eBadf else process.errno
  descriptors := process.descriptors.close fd
  calls := process.calls ++ [.close fd]

/-- `get %d bytes of client data`; the buffer is printed as a C string. -/
def printClientData (result : RecvResult) (fd : Fd) : EpollProcess :=
  { process with
    calls := process.calls ++
      [.clientData result.nRet (cString result.gcBuff) fd] }

def addFdToEpoll (nListenFd : Fd) (nEnable : ℕ) : EpollProcess :=
  let events := if nEnable ≠ 0 then epollIn ||| epollEt else epollIn
  (process.epollCtlAdd nListenFd events).setNonblocking nListenFd

def deleteFdFromEpoll (nListenFd : Fd) : EpollProcess :=
  process.epollCtlDel nListenFd

/-- `MainProcessSignalProcessing`: the handlers run after the `recv`. -/
def mainProcessSignals (nSockFd : Fd) (result : RecvResult) : EpollProcess :=
  let received := process.recv nSockFd result
  { received with
    calls := received.calls ++
      (mainProcessSignalProcessing result).map .signalHandler }

@[simp] theorem accept_calls (result : AcceptResult) :
    (process.accept result).calls = process.calls ++ [.accept result] := by
  cases result <;> rfl

@[simp] theorem accept_failed_descriptors (errno : ℕ) :
    (process.accept (.failed errno)).descriptors = process.descriptors := rfl

@[simp] theorem accept_connected_descriptors (nConnFd : Fd) :
    (process.accept (.connected nConnFd)).descriptors =
      process.descriptors.openNew nConnFd := rfl

@[simp] theorem recv_calls (fd : Fd) (result : RecvResult) :
    (process.recv fd result).calls = process.calls ++ [.recv fd result] := by
  cases result <;> rfl

@[simp] theorem recv_descriptors (fd : Fd) (result : RecvResult) :
    (process.recv fd result).descriptors = process.descriptors := by
  cases result <;> rfl

@[simp] theorem recv_failed_errno (fd : Fd) (errno : ℕ) :
    (process.recv fd (.failed errno)).errno = errno := rfl

@[simp] theorem recv_received_errno (fd : Fd) (bytes : Bytes) :
    (process.recv fd (.received bytes)).errno = process.errno := rfl

@[simp] theorem printClientData_errno (result : RecvResult) (fd : Fd) :
    (process.printClientData result fd).errno = process.errno := rfl

@[simp] theorem printClientData_descriptors
    (result : RecvResult) (fd : Fd) :
    (process.printClientData result fd).descriptors =
      process.descriptors := rfl

@[simp] theorem printClientData_calls (result : RecvResult) (fd : Fd) :
    (process.printClientData result fd).calls =
      process.calls ++
        [.clientData result.nRet (cString result.gcBuff) fd] := rfl

@[simp] theorem addFdToEpoll_descriptors (fd : Fd) (nEnable : ℕ) :
    (process.addFdToEpoll fd nEnable).descriptors =
      process.descriptors.register fd := rfl

@[simp] theorem addFdToEpoll_calls (fd : Fd) (nEnable : ℕ) :
    (process.addFdToEpoll fd nEnable).calls =
      process.calls ++
        [.epollCtlAdd fd (if nEnable ≠ 0 then epollIn ||| epollEt else epollIn),
          .setNonblocking fd] := by
  simp [addFdToEpoll, epollCtlAdd, setNonblocking]

@[simp] theorem mainProcessSignals_descriptors
    (fd : Fd) (result : RecvResult) :
    (process.mainProcessSignals fd result).descriptors =
      process.descriptors := by
  simp [mainProcessSignals]

@[simp] theorem mainProcessSignals_calls (fd : Fd) (result : RecvResult) :
    (process.mainProcessSignals fd result).calls =
      process.calls ++ .recv fd result ::
        (mainProcessSignalProcessing result).map .signalHandler := by
  simp [mainProcessSignals]

@[simp] theorem mainProcessSignals_errno (fd : Fd) (result : RecvResult) :
    (process.mainProcessSignals fd result).errno =
      (process.recv fd result).errno := rfl

theorem drop_calls (fd : Fd) :
    ((process.deleteFdFromEpoll fd).close fd).calls =
      process.calls ++ [.epollCtlDel fd, .close fd] := by
  simp [deleteFdFromEpoll, epollCtlDel, close]

theorem drop_descriptors (fd : Fd) :
    ((process.deleteFdFromEpoll fd).close fd).descriptors =
      (process.descriptors.deregister fd).close fd := rfl

/-! What the calls leave in `errno`. -/

def acceptFailure : AcceptResult → Option ℕ
  | .failed errno => some errno
  | .connected _ => none

def recvFailure : RecvResult → Option ℕ
  | .failed errno => some errno
  | .received _ => none

theorem recv_errno (fd : Fd) (result : RecvResult) :
    (process.recv fd result).errno =
      (recvFailure result).getD process.errno := by
  cases result <;> rfl

theorem drop_errno
    {process : EpollProcess} {fd : Fd}
    (hregistered : fd ∈ process.descriptors.registered) :
    ((process.deleteFdFromEpoll fd).close fd).errno = process.errno := by
  have hopen := process.descriptors.registered_subset hregistered
  simp [deleteFdFromEpoll, epollCtlDel, close, hopen, hregistered]

theorem add_errno
    {process : EpollProcess} {fd : Fd}
    (hfresh : fd ∉ process.descriptors.opened) (nEnable : ℕ) :
    ((process.accept (.connected fd)).addFdToEpoll fd nEnable).errno =
      process.errno := by
  have hnew : fd ∉ process.descriptors.registered := fun hregistered =>
    hfresh (process.descriptors.registered_subset hregistered)
  simp [addFdToEpoll, epollCtlAdd, setNonblocking, accept, hnew]

/-! `WouldBlock` is an error of `accept` and `recv` only. -/

theorem not_wouldBlock_eBadf : ¬ WouldBlock eBadf := by decide

theorem not_wouldBlock_recv {process : EpollProcess} {result : RecvResult}
    (hclean : ¬ WouldBlock process.errno) (fd : Fd)
    (hresult : ∀ errno, result = .failed errno → ¬ WouldBlock errno) :
    ¬ WouldBlock (process.recv fd result).errno := by
  cases result with
  | failed errno => exact hresult errno rfl
  | received bytes => exact hclean

theorem not_wouldBlock_epollCtlAdd {process : EpollProcess}
    (hclean : ¬ WouldBlock process.errno) (fd : Fd) (events : UInt32) :
    ¬ WouldBlock (process.epollCtlAdd fd events).errno := by
  unfold epollCtlAdd
  simp only
  split_ifs
  · decide
  · exact hclean
  · decide

theorem not_wouldBlock_epollCtlDel {process : EpollProcess}
    (hclean : ¬ WouldBlock process.errno) (fd : Fd) :
    ¬ WouldBlock (process.epollCtlDel fd).errno := by
  unfold epollCtlDel
  simp only
  split_ifs
  · exact hclean
  · decide
  · decide

theorem not_wouldBlock_addFdToEpoll {process : EpollProcess}
    (hclean : ¬ WouldBlock process.errno) (fd : Fd) (nEnable : ℕ) :
    ¬ WouldBlock (process.addFdToEpoll fd nEnable).errno := by
  unfold addFdToEpoll setNonblocking
  generalize (if nEnable ≠ 0 then epollIn ||| epollEt else epollIn) = events
  simp only
  split_ifs
  · exact not_wouldBlock_epollCtlAdd hclean fd events
  · exact not_wouldBlock_eBadf

theorem not_wouldBlock_drop {process : EpollProcess}
    (hclean : ¬ WouldBlock process.errno) (fd : Fd) :
    ¬ WouldBlock ((process.deleteFdFromEpoll fd).close fd).errno := by
  unfold close
  simp only
  split_ifs
  · exact not_wouldBlock_epollCtlDel hclean fd
  · exact not_wouldBlock_eBadf

end EpollProcess
end RabbitWork
