import RabbitWork.EpollKernel
import RabbitWork.LabelledRuns

/-!
# The edge-triggered loop

`et` of `epoll.cpp` reads a client in a `while (1)` that leaves only on a hard
error of `recv`.  A client is a queue of bytes and what `recv` does once the
queue is empty; the listening descriptor is a queue of pending connections.
The fuel bounds the passes of the inner loop: `et` returns if some fuel is
enough.
-/

namespace RabbitWork
namespace EdgeTriggered

open Descriptors Stepping

/-- What every further `recv` does when no byte is queued. -/
inductive Ending where
  | idle
  | closed
  | failed (errno : ℕ) (hhard : ¬ WouldBlock errno)

structure Peer where
  queue : Bytes
  ending : Ending

structure EtWorld where
  process : EpollProcess
  peers : Fd → Peer
  pending : List Peer

def Ending.recv : Ending → RecvResult
  | .idle => .failed eAgain
  | .closed => .received []
  | .failed errno _ => .failed errno

def Peer.recv (peer : Peer) : RecvResult :=
  if peer.queue = [] then peer.ending.recv
  else .received (peer.queue.take (bufferSize - 1))

theorem Peer.recv_of_empty {peer : Peer} (hqueue : peer.queue = []) :
    peer.recv = peer.ending.recv := by
  simp [Peer.recv, hqueue]

theorem Peer.recv_of_ne {peer : Peer} (hqueue : peer.queue ≠ []) :
    peer.recv = .received (peer.queue.take (bufferSize - 1)) := by
  simp [Peer.recv, hqueue]

def Peer.afterRecv (peer : Peer) : Peer :=
  { peer with queue := peer.queue.drop (bufferSize - 1) }

/-- The lowest number that is not open, which the kernel gives to a new
descriptor. -/
def lowestUnused (opened : Finset Fd) : Fd :=
  Nat.find (Infinite.exists_notMem_finset opened)

theorem lowestUnused_notMem (opened : Finset Fd) :
    lowestUnused opened ∉ opened :=
  Nat.find_spec (Infinite.exists_notMem_finset opened)

namespace EtWorld

def recv (world : EtWorld) (nSockFd : Fd) : EtWorld :=
  { world with
    process := world.process.recv nSockFd (world.peers nSockFd).recv
    peers :=
      Function.update world.peers nSockFd (world.peers nSockFd).afterRecv }

def accept (world : EtWorld) : AcceptResult × EtWorld :=
  match world.pending with
  | [] =>
      (.failed eAgain,
        { world with process := world.process.accept (.failed eAgain) })
  | peer :: pending =>
      let nConnFd := lowestUnused world.process.descriptors.opened
      (.connected nConnFd,
        { process := world.process.accept (.connected nConnFd)
          peers := Function.update world.peers nConnFd peer
          pending := pending })

def drop (world : EtWorld) (nSockFd : Fd) : EtWorld :=
  { world with
    process := (world.process.deleteFdFromEpoll nSockFd).close nSockFd }

end EtWorld

/-- The `while (1)` of the data branch. -/
def drain (nSockFd : Fd) : ℕ → EtWorld → Option EtWorld
  | 0, _ => none
  | fuel + 1, world =>
      let result := (world.peers nSockFd).recv
      let received := world.recv nSockFd
      if result.nRet < 0 then
        if received.process.errno = eAgain ∨
            received.process.errno = eWouldBlock then
          drain nSockFd fuel received
        else
          some (received.drop nSockFd)
      else
        drain nSockFd fuel
          { received with
            process := received.process.printClientData result nSockFd }

def etEvent (fuel : ℕ) (nListenFd : Fd) (world : EtWorld)
    (event : EpollEvent) : Option EtWorld :=
  let nSockFd := event.fd
  if nListenFd = nSockFd then
    match world.accept with
    | (.failed _, accepted) => some accepted
    | (.connected nConnFd, accepted) =>
        some
          { accepted with
            process := accepted.process.addFdToEpoll nConnFd 1 }
  else if event.events &&& pollRdHup ≠ 0 then
    some (world.drop nSockFd)
  else if event.events &&& epollIn ≠ 0 then
    drain nSockFd fuel world
  else
    some world

def et (fuel : ℕ) (nListenFd : Fd) (world : EtWorld)
    (batch : List EpollEvent) : Option EtWorld :=
  runSteps (etEvent fuel nListenFd) world batch

/-! ## What the calls say about a descriptor -/

def receivedFrom (fd : Fd) (calls : List EpollCall) : Bytes :=
  calls.flatMap fun call =>
    match call with
    | .recv other result => if other = fd then result.gcBuff else []
    | _ => []

def acceptedFds (calls : List EpollCall) : List Fd :=
  calls.filterMap fun call =>
    match call with
    | .accept (.connected nConnFd) => some nConnFd
    | _ => none

@[simp] theorem receivedFrom_append (fd : Fd) (left right : List EpollCall) :
    receivedFrom fd (left ++ right) =
      receivedFrom fd left ++ receivedFrom fd right := by
  simp [receivedFrom]

@[simp] theorem acceptedFds_append (left right : List EpollCall) :
    acceptedFds (left ++ right) = acceptedFds left ++ acceptedFds right := by
  simp [acceptedFds]

@[simp] theorem receivedFrom_recv_cons
    (fd : Fd) (result : RecvResult) (calls : List EpollCall) :
    receivedFrom fd (.recv fd result :: calls) =
      result.gcBuff ++ receivedFrom fd calls := by
  simp [receivedFrom]

@[simp] theorem receivedFrom_clientData_cons
    (fd other : Fd) (nRet : ℤ) (gcBuff : Bytes) (calls : List EpollCall) :
    receivedFrom fd (.clientData nRet gcBuff other :: calls) =
      receivedFrom fd calls := rfl

/-- The call reads the descriptor or takes it out of use. -/
def Handles (fd : Fd) : EpollCall → Prop
  | .recv other _ => other = fd
  | .epollCtlDel other => other = fd
  | .close other => other = fd
  | _ => False

def Quiet (fd : Fd) (calls : List EpollCall) : Prop :=
  ∀ call ∈ calls, ¬ Handles fd call

theorem Quiet.append {fd : Fd} {left right : List EpollCall}
    (hleft : Quiet fd left) (hright : Quiet fd right) :
    Quiet fd (left ++ right) := by
  intro call hcall
  rcases List.mem_append.mp hcall with hmem | hmem
  · exact hleft call hmem
  · exact hright call hmem

theorem Quiet.receivedFrom {fd : Fd} {calls : List EpollCall}
    (hquiet : Quiet fd calls) : receivedFrom fd calls = [] := by
  unfold EdgeTriggered.receivedFrom
  rw [List.flatMap_eq_nil_iff]
  intro call hcall
  have hnot := hquiet call hcall
  cases call with
  | recv other result =>
      have hne : other ≠ fd := hnot
      simp [hne]
  | _ => rfl

theorem Quiet.close_notMem {fd : Fd} {calls : List EpollCall}
    (hquiet : Quiet fd calls) : .close fd ∉ calls := fun hclose =>
  hquiet _ hclose rfl

theorem Quiet.epollCtlDel_notMem {fd : Fd} {calls : List EpollCall}
    (hquiet : Quiet fd calls) : .epollCtlDel fd ∉ calls := fun hdel =>
  hquiet _ hdel rfl

/-! ## The drain loop -/

structure ClosedAfter (nSockFd : Fd) (bytes : Bytes) (world after : EtWorld)
    (issued : List EpollCall) : Prop where
  calls : after.process.calls = world.process.calls ++ issued
  received : receivedFrom nSockFd issued = bytes
  deleted : issued.count (.epollCtlDel nSockFd) = 1
  closed : issued.count (.close nSockFd) = 1
  quiet : ∀ fd, fd ≠ nSockFd → Quiet fd issued
  notAccepted : acceptedFds issued = []
  descriptors :
    after.process.descriptors =
      (world.process.descriptors.deregister nSockFd).close nSockFd
  peers : ∀ fd, fd ≠ nSockFd → after.peers fd = world.peers fd
  pending : after.pending = world.pending

def Ending.IsFailed : Ending → Prop
  | .failed _ _ => True
  | _ => False

theorem closedAfter_drop (nSockFd : Fd) (world : EtWorld) :
    ClosedAfter nSockFd [] world (world.drop nSockFd)
      [.epollCtlDel nSockFd, .close nSockFd] := by
  constructor
  · simp [EtWorld.drop, EpollProcess.drop_calls]
  · rfl
  · simp
  · simp
  · intro fd hfd call hcall
    simp only [List.mem_cons, List.not_mem_nil, or_false] at hcall
    rcases hcall with rfl | rfl <;> exact Ne.symm hfd
  · rfl
  · simp [EtWorld.drop, EpollProcess.drop_descriptors]
  · intro fd _
    rfl
  · rfl

theorem ClosedAfter.recv
    {nSockFd : Fd} {bytes : Bytes} {world after : EtWorld}
    {issued : List EpollCall}
    (hrest : ClosedAfter nSockFd bytes (world.recv nSockFd) after issued) :
    ClosedAfter nSockFd ((world.peers nSockFd).recv.gcBuff ++ bytes) world after
      (.recv nSockFd (world.peers nSockFd).recv :: issued) := by
  constructor
  · simpa [EtWorld.recv] using hrest.calls
  · rw [receivedFrom_recv_cons, hrest.received]
  · simpa using hrest.deleted
  · simpa using hrest.closed
  · intro fd hfd call hcall
    rcases List.mem_cons.mp hcall with rfl | hcall
    · exact Ne.symm hfd
    · exact hrest.quiet fd hfd call hcall
  · exact hrest.notAccepted
  · simpa [EtWorld.recv] using hrest.descriptors
  · intro fd hfd
    simpa [EtWorld.recv, hfd] using hrest.peers fd hfd
  · exact hrest.pending

theorem ClosedAfter.printClientData
    {nSockFd : Fd} {bytes : Bytes} {world after : EtWorld}
    {issued : List EpollCall} (result : RecvResult)
    (hrest :
      ClosedAfter nSockFd bytes
        { world with
          process := world.process.printClientData result nSockFd }
        after issued) :
    ClosedAfter nSockFd bytes world after
      (.clientData result.nRet (cString result.gcBuff) nSockFd :: issued) := by
  constructor
  · simpa using hrest.calls
  · exact hrest.received
  · simpa using hrest.deleted
  · simpa using hrest.closed
  · intro fd hfd call hcall
    rcases List.mem_cons.mp hcall with rfl | hcall
    · exact fun h => h
    · exact hrest.quiet fd hfd call hcall
  · exact hrest.notAccepted
  · exact hrest.descriptors
  · exact hrest.peers
  · exact hrest.pending

/-- The loop returns for a broken connection only, and then it has read all
queued bytes and closed the descriptor once. -/
theorem drain_eq_some
    {nSockFd : Fd} {fuel : ℕ} {world after : EtWorld}
    (hdrain : drain nSockFd fuel world = some after) :
    (world.peers nSockFd).ending.IsFailed ∧
      ∃ issued,
        ClosedAfter nSockFd (world.peers nSockFd).queue world after issued := by
  induction fuel generalizing world with
  | zero => cases hdrain
  | succ fuel ih =>
      by_cases hqueue : (world.peers nSockFd).queue = []
      · have hrecv := Peer.recv_of_empty hqueue
        cases hending : (world.peers nSockFd).ending with
        | idle =>
            -- `recv` would block, and the loop goes on as before
            simp only [drain, hrecv, hending, Ending.recv, RecvResult.nRet]
              at hdrain
            have hloop :=
              ih (by simpa [EtWorld.recv, hrecv, hending, Ending.recv]
                using hdrain)
            have hfailed := hloop.1
            simp [Peer.afterRecv, hending, Ending.IsFailed] at hfailed
        | closed =>
            -- `recv` returns zero, which is not an error
            simp only [drain, hrecv, hending, Ending.recv, RecvResult.nRet]
              at hdrain
            have hloop := ih (by simpa using hdrain)
            have hfailed := hloop.1
            simp [EtWorld.recv, Peer.afterRecv, hending, Ending.IsFailed]
              at hfailed
        | failed errno hhard =>
            have herrno : ¬ (errno = eAgain ∨ errno = eWouldBlock) := hhard
            have hafter : after = (world.recv nSockFd).drop nSockFd := by
              simpa [drain, hrecv, hending, Ending.recv, RecvResult.nRet,
                EtWorld.recv, herrno] using hdrain.symm
            subst after
            have hclosed :=
              (closedAfter_drop nSockFd (world.recv nSockFd)).recv
            rw [hrecv, hending] at hclosed
            rw [hqueue]
            exact ⟨trivial, _, hclosed⟩
      · have hrecv := Peer.recv_of_ne hqueue
        have hcount : ¬ (world.peers nSockFd).recv.nRet < 0 := by
          simp [hrecv, RecvResult.nRet]
        simp only [drain, hcount, if_false] at hdrain
        obtain ⟨hfailed, issued, hissued⟩ := ih hdrain
        have hclosed :=
          (ClosedAfter.printClientData (world.peers nSockFd).recv hissued).recv
        have hqueued :
            (world.peers nSockFd).recv.gcBuff ++
                ((world.recv nSockFd).peers nSockFd).queue =
              (world.peers nSockFd).queue := by
          simp [hrecv, RecvResult.gcBuff, EtWorld.recv, Peer.afterRecv]
        constructor
        · simpa [EtWorld.recv, Peer.afterRecv] using hfailed
        · exact ⟨_, hqueued ▸ hclosed⟩

/-- A broken connection is drained with a pass for each chunk and one more. -/
theorem drain_isSome
    {nSockFd : Fd} {fuel : ℕ} {world : EtWorld}
    (hfailed : (world.peers nSockFd).ending.IsFailed)
    (hfuel : (world.peers nSockFd).queue.length < fuel) :
    (drain nSockFd fuel world).isSome := by
  induction fuel generalizing world with
  | zero => omega
  | succ fuel ih =>
      by_cases hqueue : (world.peers nSockFd).queue = []
      · cases hending : (world.peers nSockFd).ending with
        | idle => simp [hending, Ending.IsFailed] at hfailed
        | closed => simp [hending, Ending.IsFailed] at hfailed
        | failed errno hhard =>
            have hrecv := Peer.recv_of_empty hqueue
            have herrno : ¬ (errno = eAgain ∨ errno = eWouldBlock) := hhard
            simp [drain, hrecv, hending, Ending.recv, RecvResult.nRet,
              EtWorld.recv, herrno]
      · have hrecv := Peer.recv_of_ne hqueue
        have hcount : ¬ (world.peers nSockFd).recv.nRet < 0 := by
          simp [hrecv, RecvResult.nRet]
        simp only [drain, hcount, if_false]
        apply ih
        · simpa [EtWorld.recv, Peer.afterRecv] using hfailed
        · have hpos := List.length_pos_iff.mpr hqueue
          simp only [EtWorld.recv, Function.update_self, Peer.afterRecv,
            List.length_drop, bufferSize]
          omega

end EdgeTriggered
end RabbitWork
