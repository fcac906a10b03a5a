import RabbitWork.EpollKernel

/-!
# The level-triggered loop and client isolation

`lt` of `epoll.cpp` handles the events of one `epoll_wait` in turn.  Its data
branch closes a client when `recv` returned at most zero, unless `errno` says
that the call would block.  A `recv` of zero leaves `errno` as an earlier call
on any descriptor set it, so that call decides whether the client is closed.
-/

namespace RabbitWork

open Descriptors

structure CallResults where
  accept : AcceptResult
  recv : RecvResult
  deriving DecidableEq, Repr

section Lt

variable (signals : ProcessSignalDate) (nListenFd : Fd)

def ltEvent
    (process : EpollProcess) (event : EpollEvent) (results : CallResults) :
    EpollProcess :=
  let nSockFd := event.fd
  if nSockFd = signals.m_nRdFd ∧ event.events &&& epollIn ≠ 0 then
    process.mainProcessSignals nSockFd results.recv
  else if nListenFd = nSockFd then
    let accepted := process.accept results.accept
    match results.accept with
    | .failed _ => accepted
    | .connected nConnFd => accepted.addFdToEpoll nConnFd 0
  else if event.events &&& epollRdHup ≠ 0 then
    (process.deleteFdFromEpoll nSockFd).close nSockFd
  else if event.events &&& epollIn ≠ 0 then
    let received := process.recv nSockFd results.recv
    if results.recv.nRet ≤ 0 ∧
        received.errno ≠ eAgain ∧ received.errno ≠ eWouldBlock then
      (received.deleteFdFromEpoll nSockFd).close nSockFd
    else
      received.printClientData results.recv nSockFd
  else
    process

def lt (process : EpollProcess) (batch : List (EpollEvent × CallResults)) :
    EpollProcess :=
  batch.foldl (fun process next =>
    ltEvent signals nListenFd process next.1 next.2) process

def ltRun (process : EpollProcess)
    (batches : List (List (EpollEvent × CallResults))) : EpollProcess :=
  batches.foldl (lt signals nListenFd) process

theorem ltRun_eq_lt_flatten
    (process : EpollProcess)
    (batches : List (List (EpollEvent × CallResults))) :
    ltRun signals nListenFd process batches =
      lt signals nListenFd process batches.flatten := by
  unfold ltRun lt
  rw [List.foldl_flatten]

structure ReceivesFrom (client : Fd) (event : EpollEvent) : Prop where
  fd : event.fd = client
  notSignal : client ≠ signals.m_nRdFd
  notListen : client ≠ nListenFd
  notLeft : event.events &&& epollRdHup = 0
  readable : event.events &&& epollIn ≠ 0

/-- The peer has closed the connection, or it is broken. -/
def PeerGone : RecvResult → Prop
  | .failed errno => ¬ WouldBlock errno
  | .received bytes => bytes = []

structure Dropped (client : Fd) (before after : EpollProcess) : Prop where
  issued : ∃ calls,
    after.calls = before.calls ++ calls ∧
      .epollCtlDel client ∈ calls ∧ .close client ∈ calls
  deregistered : client ∉ after.descriptors.registered
  closed : client ∉ after.descriptors.opened

theorem ltEvent_receives
    (process : EpollProcess) {client : Fd} {event : EpollEvent}
    (results : CallResults)
    (hreceives : ReceivesFrom signals nListenFd client event) :
    ltEvent signals nListenFd process event results =
      if results.recv.nRet ≤ 0 ∧
          ¬ WouldBlock (process.recv client results.recv).errno then
        ((process.recv client results.recv).deleteFdFromEpoll client).close
          client
      else
        (process.recv client results.recv).printClientData results.recv
          client := by
  have hfd := hreceives.fd
  subst client
  have hlisten : nListenFd ≠ event.fd := Ne.symm hreceives.notListen
  simp [ltEvent, hreceives.notSignal, hlisten, hreceives.notLeft,
    hreceives.readable, WouldBlock]

theorem dropped_recv (process : EpollProcess) (client : Fd)
    (result : RecvResult) :
    Dropped client process
      (((process.recv client result).deleteFdFromEpoll client).close
        client) := by
  constructor
  · refine ⟨[.recv client result, .epollCtlDel client, .close client], ?_⟩
    simp [EpollProcess.drop_calls]
  · simp [EpollProcess.drop_descriptors]
  · simp [EpollProcess.drop_descriptors]

theorem not_dropped_printClientData (process : EpollProcess) (client : Fd)
    (result : RecvResult) :
    ¬ Dropped client process
      ((process.recv client result).printClientData result client) := by
  intro hdropped
  rcases hdropped.issued with ⟨calls, hcalls, hdel, -⟩
  simp only [EpollProcess.printClientData_calls, EpollProcess.recv_calls,
    List.append_assoc, List.append_cancel_left_eq] at hcalls
  rw [← hcalls] at hdel
  simp at hdel

/-- A client whose peer is gone is dropped, unless `recv` returned zero and
`errno` still is that of a call that would have blocked. -/
theorem dropped_ltEvent_iff
    (process : EpollProcess) {client : Fd} {event : EpollEvent}
    {results : CallResults}
    (hreceives : ReceivesFrom signals nListenFd client event)
    (hgone : PeerGone results.recv) :
    Dropped client process (ltEvent signals nListenFd process event results) ↔
      (results.recv = .received [] → ¬ WouldBlock process.errno) := by
  rw [ltEvent_receives signals nListenFd process results hreceives]
  cases hrecv : results.recv with
  | failed errno =>
      have hblock : ¬ WouldBlock errno := by
        simpa [PeerGone, hrecv] using hgone
      rw [if_pos ⟨by simp [RecvResult.nRet], by simpa using hblock⟩]
      simpa using dropped_recv process client (.failed errno)
  | received bytes =>
      have hempty : bytes = [] := by
        simpa [PeerGone, hrecv] using hgone
      subst bytes
      by_cases hblock : WouldBlock process.errno
      · have hstay := not_dropped_printClientData process client (.received [])
        simpa [hblock] using hstay
      · have hdrop := dropped_recv process client (.received [])
        simpa [RecvResult.nRet, hblock] using hdrop

/-! ## Two runs that differ elsewhere -/

def ltBefore (process : EpollProcess)
    (whole : List (List (EpollEvent × CallResults)))
    (before : List (EpollEvent × CallResults)) : EpollProcess :=
  lt signals nListenFd (ltRun signals nListenFd process whole) before

theorem ltBefore_eq_lt
    (process : EpollProcess)
    (whole : List (List (EpollEvent × CallResults)))
    (before : List (EpollEvent × CallResults)) :
    ltBefore signals nListenFd process whole before =
      lt signals nListenFd process (whole.flatten ++ before) := by
  unfold ltBefore
  rw [ltRun_eq_lt_flatten]
  simp [lt]

/-- One event of two runs, with its results in each: they agree on a `recv` on
the client. -/
structure TwinEvent (client : Fd) where
  event : EpollEvent
  left : CallResults
  right : CallResults
  sameRecv : event.fd = client → left.recv = right.recv

variable {client : Fd}

def leftBatch (batch : List (TwinEvent client)) :
    List (EpollEvent × CallResults) :=
  batch.map fun twin => (twin.event, twin.left)

def rightBatch (batch : List (TwinEvent client)) :
    List (EpollEvent × CallResults) :=
  batch.map fun twin => (twin.event, twin.right)

/-- Whenever the peer of the client turns out to be gone, both runs drop the
client during that event. -/
def ClientIsolated (process : EpollProcess)
    (batches : List (List (TwinEvent client))) : Prop :=
  ∀ whole before twin after rest,
    batches = whole ++ (before ++ twin :: after) :: rest →
      ReceivesFrom signals nListenFd client twin.event →
        PeerGone twin.left.recv →
          let left := ltBefore signals nListenFd process
            (whole.map leftBatch) (leftBatch before)
          let right := ltBefore signals nListenFd process
            (whole.map rightBatch) (rightBatch before)
          Dropped client left
              (ltEvent signals nListenFd left twin.event twin.left) ∧
            Dropped client right
              (ltEvent signals nListenFd right twin.event twin.right)

/-- At every `recv` of zero on the client, `errno` is not left from a call
that would have blocked. -/
def NoStaleErrno (process : EpollProcess)
    (batches : List (List (TwinEvent client))) : Prop :=
  ∀ whole before twin after rest,
    batches = whole ++ (before ++ twin :: after) :: rest →
      ReceivesFrom signals nListenFd client twin.event →
        twin.left.recv = .received [] →
          let left := ltBefore signals nListenFd process
            (whole.map leftBatch) (leftBatch before)
          let right := ltBefore signals nListenFd process
            (whole.map rightBatch) (rightBatch before)
          ¬ WouldBlock left.errno ∧ ¬ WouldBlock right.errno

/-- Two runs that differ only in the results on other descriptors both drop the
client whenever its peer is gone, if and only if no `recv` of zero on it finds
the `errno` of a call that would have blocked. -/
theorem clientIsolated_iff_noStaleErrno
    (process : EpollProcess) (batches : List (List (TwinEvent client))) :
    ClientIsolated signals nListenFd process batches ↔
      NoStaleErrno signals nListenFd process batches := by
  constructor
  · intro hisolated whole before twin after rest hbatches hreceives hzero
    have hgone : PeerGone twin.left.recv := by simp [PeerGone, hzero]
    have hzeroRight : twin.right.recv = .received [] := by
      rw [← twin.sameRecv hreceives.fd, hzero]
    have hgoneRight : PeerGone twin.right.recv := by
      simp [PeerGone, hzeroRight]
    have hdropped :=
      hisolated whole before twin after rest hbatches hreceives hgone
    constructor
    · exact (dropped_ltEvent_iff signals nListenFd _ hreceives hgone).mp
        hdropped.1 hzero
    · exact (dropped_ltEvent_iff signals nListenFd _ hreceives hgoneRight).mp
        hdropped.2 hzeroRight
  · intro hclean whole before twin after rest hbatches hreceives hgone
    have hsame := twin.sameRecv hreceives.fd
    have hgoneRight : PeerGone twin.right.recv := by
      rw [← hsame]
      exact hgone
    have herrno := hclean whole before twin after rest hbatches hreceives
    constructor
    · apply (dropped_ltEvent_iff signals nListenFd _ hreceives hgone).mpr
      intro hzero
      exact (herrno hzero).1
    · apply (dropped_ltEvent_iff signals nListenFd _ hreceives hgoneRight).mpr
      intro hzero
      exact (herrno (hsame.trans hzero)).2

/-- An `accept` that would have blocked keeps the next client whose peer has
closed: the run in which it succeeds drops that client. -/
theorem not_clientIsolated_acceptWouldBlock :
    ¬ ClientIsolated ⟨(4, 5), 5, 4⟩ 3
      ⟨0, ⟨{3, 4, 5, 7}, {3, 4, 7}, by decide⟩, []⟩
      ([[⟨⟨epollIn, 3⟩, ⟨.failed eAgain, .received []⟩,
            ⟨.connected 8, .received []⟩, fun _ => rfl⟩,
          ⟨⟨epollIn, 7⟩, ⟨.failed eAgain, .received []⟩,
            ⟨.failed eAgain, .received []⟩, fun _ => rfl⟩]] :
        List (List (TwinEvent 7))) := by
  intro hisolated
  have hreceives : ReceivesFrom ⟨(4, 5), 5, 4⟩ 3 7 ⟨epollIn, 7⟩ :=
    ⟨rfl, by decide, by decide, by decide, by decide⟩
  have hdropped := hisolated [] [_] _ [] [] rfl hreceives rfl
  exact hdropped.1.closed (by decide)

/-! ## Runs in which no call would block -/

def CallResults.NeverBlocks (results : CallResults) : Prop :=
  (∀ errno, results.accept = .failed errno → ¬ WouldBlock errno) ∧
    ∀ errno, results.recv = .failed errno → ¬ WouldBlock errno

theorem not_wouldBlock_ltEvent
    {process : EpollProcess} (event : EpollEvent) {results : CallResults}
    (hclean : ¬ WouldBlock process.errno) (hresults : results.NeverBlocks) :
    ¬ WouldBlock (ltEvent signals nListenFd process event results).errno := by
  have hrecv := EpollProcess.not_wouldBlock_recv hclean event.fd hresults.2
  unfold ltEvent
  simp only
  split_ifs
  · simpa using hrecv
  · cases haccept : results.accept with
    | failed errno => exact hresults.1 errno haccept
    | connected nConnFd =>
        have haccepted :
            ¬ WouldBlock (process.accept (.connected nConnFd)).errno :=
          hclean
        exact EpollProcess.not_wouldBlock_addFdToEpoll haccepted nConnFd 0
  · exact EpollProcess.not_wouldBlock_drop hclean event.fd
  · exact EpollProcess.not_wouldBlock_drop hrecv event.fd
  · exact hrecv
  · exact hclean

theorem not_wouldBlock_lt
    {process : EpollProcess} {batch : List (EpollEvent × CallResults)}
    (hclean : ¬ WouldBlock process.errno)
    (hbatch : ∀ next ∈ batch, next.2.NeverBlocks) :
    ¬ WouldBlock (lt signals nListenFd process batch).errno := by
  unfold lt
  induction batch generalizing process with
  | nil => exact hclean
  | cons next batch ih =>
      have hnext : next.2.NeverBlocks := hbatch next (by simp)
      have hrest : ∀ later ∈ batch, later.2.NeverBlocks := by
        intro later hlater
        exact hbatch later (by simp [hlater])
      exact ih (not_wouldBlock_ltEvent signals nListenFd next.1 hclean hnext)
        hrest

theorem exists_twin_of_mem_before
    {batches whole rest : List (List (TwinEvent client))}
    {before after : List (TwinEvent client)} {twin : TwinEvent client}
    (hbatches : batches = whole ++ (before ++ twin :: after) :: rest)
    (project : TwinEvent client → EpollEvent × CallResults)
    {next : EpollEvent × CallResults}
    (hnext :
      next ∈ (whole.map (List.map project)).flatten ++ before.map project) :
    ∃ batch ∈ batches, ∃ earlier ∈ batch, next = project earlier := by
  rw [List.mem_append, ← List.map_flatten] at hnext
  rcases hnext with hwhole | hbefore
  · rcases List.mem_map.mp hwhole with ⟨earlier, hearlier, hproject⟩
    rcases List.mem_flatten.mp hearlier with ⟨batch, hbatch, hmem⟩
    exact ⟨batch, by simp [hbatches, hbatch], earlier, hmem, hproject.symm⟩
  · rcases List.mem_map.mp hbefore with ⟨earlier, hearlier, hproject⟩
    exact ⟨before ++ twin :: after, by simp [hbatches], earlier,
      by simp [hearlier], hproject.symm⟩

/-- If no call of either run would block, no `recv` finds a stale `errno`. -/
theorem noStaleErrno_of_neverBlocks
    {process : EpollProcess} {batches : List (List (TwinEvent client))}
    (hclean : ¬ WouldBlock process.errno)
    (hbatches : ∀ batch ∈ batches, ∀ twin ∈ batch,
      twin.left.NeverBlocks ∧ twin.right.NeverBlocks) :
    NoStaleErrno signals nListenFd process batches := by
  intro whole before twin after rest hsplit _ _
  simp only [ltBefore_eq_lt]
  constructor
  · apply not_wouldBlock_lt signals nListenFd hclean
    intro next hnext
    obtain ⟨batch, hbatch, earlier, hearlier, hproject⟩ :=
      exists_twin_of_mem_before hsplit (fun twin => (twin.event, twin.left))
        hnext
    rw [hproject]
    exact (hbatches batch hbatch earlier hearlier).1
  · apply not_wouldBlock_lt signals nListenFd hclean
    intro next hnext
    obtain ⟨batch, hbatch, earlier, hearlier, hproject⟩ :=
      exists_twin_of_mem_before hsplit (fun twin => (twin.event, twin.right))
        hnext
    rw [hproject]
    exact (hbatches batch hbatch earlier hearlier).2

/-! ## The call a stale `errno` comes from -/

/-- The `errno` of the `accept` or `recv` an event leads to, if that fails. -/
def failedCall (event : EpollEvent) (results : CallResults) : Option ℕ :=
  if event.fd = signals.m_nRdFd ∧ event.events &&& epollIn ≠ 0 then
    EpollProcess.recvFailure results.recv
  else if nListenFd = event.fd then
    EpollProcess.acceptFailure results.accept
  else if event.events &&& epollRdHup = 0 ∧ event.events &&& epollIn ≠ 0 then
    EpollProcess.recvFailure results.recv
  else
    none

/-- The `errno` of the last `accept` or `recv` that failed, or the one before
all of them. -/
def lastErrno (errno : ℕ) (batch : List (EpollEvent × CallResults)) : ℕ :=
  batch.foldl
    (fun errno next =>
      (failedCall signals nListenFd next.1 next.2).getD errno)
    errno

/-- Every event is of a registered descriptor, and `accept` returns a number
that is not in use. -/
def KernelFits :
    EpollProcess → List (EpollEvent × CallResults) → Prop
  | _, [] => True
  | process, (event, results) :: batch =>
      event.fd ∈ process.descriptors.registered ∧
        (∀ nConnFd, results.accept = .connected nConnFd →
          nConnFd ∉ process.descriptors.opened) ∧
        KernelFits (ltEvent signals nListenFd process event results) batch

theorem ltEvent_errno
    {process : EpollProcess} {event : EpollEvent} {results : CallResults}
    (hregistered : event.fd ∈ process.descriptors.registered)
    (hfresh : ∀ nConnFd, results.accept = .connected nConnFd →
      nConnFd ∉ process.descriptors.opened) :
    (ltEvent signals nListenFd process event results).errno =
      (failedCall signals nListenFd event results).getD process.errno := by
  have hrecv := process.recv_errno event.fd results.recv
  have hafter :
      event.fd ∈
        (process.recv event.fd results.recv).descriptors.registered := by
    simpa using hregistered
  unfold ltEvent failedCall
  by_cases hsignal :
      event.fd = signals.m_nRdFd ∧ event.events &&& epollIn ≠ 0
  · simp only [if_pos hsignal]
    simpa using hrecv
  · simp only [if_neg hsignal]
    by_cases hlisten : nListenFd = event.fd
    · simp only [if_pos hlisten]
      cases haccept : results.accept with
      | failed errno => rfl
      | connected nConnFd =>
          exact EpollProcess.add_errno (hfresh nConnFd haccept) 0
    · simp only [if_neg hlisten]
      by_cases hleft : event.events &&& epollRdHup = 0
      · by_cases hreadable : event.events &&& epollIn = 0
        · simp [hleft, hreadable]
        · simp only [hleft, hreadable, ne_eq, not_true_eq_false, if_false,
            not_false_eq_true, and_self, if_true]
          split_ifs
          · rw [EpollProcess.drop_errno hafter]
            exact hrecv
          · exact hrecv
      · simp only [hleft, ne_eq, not_false_eq_true, if_true, false_and,
          if_false]
        exact EpollProcess.drop_errno hregistered

theorem lt_errno
    {process : EpollProcess} {batch : List (EpollEvent × CallResults)}
    (hfits : KernelFits signals nListenFd process batch) :
    (lt signals nListenFd process batch).errno =
      lastErrno signals nListenFd process.errno batch := by
  unfold lt lastErrno
  induction batch generalizing process with
  | nil => rfl
  | cons next batch ih =>
      obtain ⟨hregistered, hfresh, hrest⟩ := hfits
      rw [List.foldl_cons, List.foldl_cons, ih hrest,
        ltEvent_errno signals nListenFd hregistered hfresh]

theorem KernelFits.left_of_append
    {process : EpollProcess} {before after : List (EpollEvent × CallResults)}
    (hfits : KernelFits signals nListenFd process (before ++ after)) :
    KernelFits signals nListenFd process before := by
  induction before generalizing process with
  | nil => trivial
  | cons next before ih =>
      obtain ⟨hregistered, hfresh, hrest⟩ := hfits
      exact ⟨hregistered, hfresh, ih hrest⟩

theorem ltBefore_errno
    {process : EpollProcess} {batches whole rest : List (List (TwinEvent client))}
    {before after : List (TwinEvent client)} {twin : TwinEvent client}
    (hbatches : batches = whole ++ (before ++ twin :: after) :: rest)
    (project : TwinEvent client → EpollEvent × CallResults)
    (hfits :
      KernelFits signals nListenFd process (batches.flatten.map project)) :
    (ltBefore signals nListenFd process (whole.map (List.map project))
        (before.map project)).errno =
      lastErrno signals nListenFd process.errno
        ((whole.flatten ++ before).map project) := by
  have hsplit :
      batches.flatten.map project =
        (whole.flatten ++ before).map project ++
          (twin :: after ++ rest.flatten).map project := by
    simp [hbatches]
  rw [hsplit] at hfits
  have hbefore := hfits.left_of_append
  rw [ltBefore_eq_lt, ← List.map_flatten, ← List.map_append]
  exact lt_errno signals nListenFd hbefore

/-- Where the other calls succeed, a stale `errno` is that of the last earlier
`accept` or `recv` that failed, on whatever descriptor. -/
theorem noStaleErrno_iff_lastErrno
    {process : EpollProcess} {batches : List (List (TwinEvent client))}
    (hleft :
      KernelFits signals nListenFd process (leftBatch batches.flatten))
    (hright :
      KernelFits signals nListenFd process (rightBatch batches.flatten)) :
    NoStaleErrno signals nListenFd process batches ↔
      ∀ whole before twin after rest,
        batches = whole ++ (before ++ twin :: after) :: rest →
          ReceivesFrom signals nListenFd client twin.event →
            twin.left.recv = .received [] →
              ¬ WouldBlock
                  (lastErrno signals nListenFd process.errno
                    (leftBatch (whole.flatten ++ before))) ∧
                ¬ WouldBlock
                  (lastErrno signals nListenFd process.errno
                    (rightBatch (whole.flatten ++ before))) := by
  unfold NoStaleErrno
  refine forall₅_congr fun whole before twin after rest => ?_
  refine forall₃_congr fun hbatches _ _ => ?_
  have hleftErrno :
      (ltBefore signals nListenFd process (whole.map leftBatch)
          (leftBatch before)).errno =
        lastErrno signals nListenFd process.errno
          (leftBatch (whole.flatten ++ before)) :=
    ltBefore_errno signals nListenFd hbatches
      (fun twin => (twin.event, twin.left)) hleft
  have hrightErrno :
      (ltBefore signals nListenFd process (whole.map rightBatch)
          (rightBatch before)).errno =
        lastErrno signals nListenFd process.errno
          (rightBatch (whole.flatten ++ before)) :=
    ltBefore_errno signals nListenFd hbatches
      (fun twin => (twin.event, twin.right)) hright
  dsimp only
  rw [hleftErrno, hrightErrno]

end Lt
end RabbitWork
