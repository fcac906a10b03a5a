import RabbitWork.LabelledRuns
import RabbitWork.LevelTriggered

/-!
# Descriptor bookkeeping of the level-triggered loop

A run of the loop takes batches from `epoll_wait` and processes their events one
after the other.  The kernel reports distinct registered descriptors with the
conditions that `AddFdToEpoll` asked for, and `accept` returns numbers that are
not open, those of clients closed earlier in the same batch included.
-/

namespace RabbitWork
namespace LtBookkeeping

open Descriptors Stepping

structure LoopState where
  process : EpollProcess
  waiting : List EpollEvent

inductive LoopLabel where
  | epollWait (batch : List EpollEvent)
  | processed (results : CallResults)

/-- Conditions that are reported for a descriptor registered with `EPOLLIN`. -/
def Reportable (events : UInt32) : Prop :=
  events &&& ~~~(epollIn ||| epollErr ||| epollHup) = 0

instance (events : UInt32) : Decidable (Reportable events) :=
  inferInstanceAs (Decidable (_ = _))

def ValidBatch (process : EpollProcess) (batch : List EpollEvent) : Prop :=
  (batch.map EpollEvent.fd).Nodup ∧
    ∀ event ∈ batch,
      event.fd ∈ process.descriptors.registered ∧ Reportable event.events

instance (process : EpollProcess) (batch : List EpollEvent) :
    Decidable (ValidBatch process batch) :=
  inferInstanceAs (Decidable (_ ∧ _))

def FreshAccept (process : EpollProcess) : AcceptResult → Prop
  | .failed _ => True
  | .connected nConnFd => nConnFd ∉ process.descriptors.opened

instance (process : EpollProcess) (result : AcceptResult) :
    Decidable (FreshAccept process result) := by
  cases result
  · exact instDecidableTrue
  · exact instDecidableNot

section Loop

variable (signals : ProcessSignalDate) (nListenFd : Fd)

def loopStep (state : LoopState) : LoopLabel → Option LoopState
  | .epollWait batch =>
      if state.waiting = [] ∧ ValidBatch state.process batch then
        some { state with waiting := batch }
      else
        none
  | .processed results =>
      match state.waiting with
      | [] => none
      | event :: waiting =>
          if FreshAccept state.process results.accept then
            some
              { process := ltEvent signals nListenFd state.process event results
                waiting := waiting }
          else
            none

theorem loopStep_epollWait
    {state next : LoopState} {batch : List EpollEvent}
    (hstep : loopStep signals nListenFd state (.epollWait batch) = some next) :
    state.waiting = [] ∧ ValidBatch state.process batch ∧
      next = { state with waiting := batch } := by
  simp only [loopStep, Option.ite_none_right_eq_some,
    Option.some.injEq] at hstep
  exact ⟨hstep.1.1, hstep.1.2, hstep.2.symm⟩

theorem loopStep_processed
    {state next : LoopState} {results : CallResults}
    (hstep :
      loopStep signals nListenFd state (.processed results) = some next) :
    ∃ event waiting,
      state.waiting = event :: waiting ∧
        FreshAccept state.process results.accept ∧
        next =
          ⟨ltEvent signals nListenFd state.process event results, waiting⟩ := by
  simp only [loopStep] at hstep
  cases hwaiting : state.waiting with
  | nil => simp [hwaiting] at hstep
  | cons event waiting =>
      simp only [hwaiting, Option.ite_none_right_eq_some,
        Option.some.injEq] at hstep
      exact ⟨event, waiting, rfl, hstep.1, hstep.2.symm⟩

/-- The steps for a whole batch are a call of `lt`. -/
theorem runSteps_batch
    {state last : LoopState} {results : List CallResults}
    (hlength : results.length = state.waiting.length)
    (hrun :
      runSteps (loopStep signals nListenFd) state
        (results.map .processed) = some last) :
    last =
      ⟨lt signals nListenFd state.process (state.waiting.zip results), []⟩ := by
  induction results generalizing state with
  | nil =>
      have hwaiting : state.waiting = [] :=
        List.eq_nil_of_length_eq_zero hlength.symm
      have hlast : last = state := (Option.some.inj hrun).symm
      subst last
      cases state
      subst hwaiting
      rfl
  | cons result results ih =>
      rw [List.map_cons] at hrun
      obtain ⟨middle, hstep, hrest⟩ := exists_runSteps_cons _ hrun
      obtain ⟨event, waiting, hwaiting, -, hmiddle⟩ :=
        loopStep_processed signals nListenFd hstep
      subst middle
      rw [hwaiting] at hlength ⊢
      have hlast := ih (by simpa using hlength) hrest
      simpa [lt] using hlast

/-! ## What an event does -/

/-- The effect of an event whose conditions are reportable.  No other branch of
`lt` is reached. -/
inductive LtEffect (process : EpollProcess) (event : EpollEvent)
    (results : CallResults) (after : EpollProcess) : Prop
  | unchanged (calls : List EpollCall)
      (hcalls : after.calls = process.calls ++ calls)
      (hquiet : ∀ fd, .epollCtlDel fd ∉ calls ∧ .close fd ∉ calls)
      (hdescriptors : after.descriptors = process.descriptors)
  | accepted (nConnFd : Fd) (calls : List EpollCall)
      (hresult : results.accept = .connected nConnFd)
      (hcalls : after.calls = process.calls ++ calls)
      (hquiet : ∀ fd, .epollCtlDel fd ∉ calls ∧ .close fd ∉ calls)
      (hdescriptors :
        after.descriptors =
          (process.descriptors.openNew nConnFd).register nConnFd)
  | dropped
      (hlisten : event.fd ≠ nListenFd)
      (hsignal : event.fd ≠ signals.m_nRdFd)
      (hcalls :
        after.calls = process.calls ++
          [.recv event.fd results.recv, .epollCtlDel event.fd,
            .close event.fd])
      (hdescriptors :
        after.descriptors =
          (process.descriptors.deregister event.fd).close event.fd)

theorem not_epollRdHup_of_reportable {events : UInt32}
    (hevents : Reportable events) : events &&& epollRdHup = 0 := by
  have hmask :
      epollRdHup = ~~~(epollIn ||| epollErr ||| epollHup) &&& epollRdHup := by
    decide
  have hnone : events &&& ~~~(epollIn ||| epollErr ||| epollHup) = 0 := hevents
  rw [hmask, ← UInt32.and_assoc, hnone]
  exact UInt32.zero_and

theorem ltEffect_ltEvent
    (process : EpollProcess) {event : EpollEvent} (results : CallResults)
    (hevents : Reportable event.events) :
    LtEffect signals nListenFd process event results
      (ltEvent signals nListenFd process event results) := by
  have hleft := not_epollRdHup_of_reportable hevents
  by_cases hsignal :
      event.fd = signals.m_nRdFd ∧ event.events &&& epollIn ≠ 0
  · -- the signal branch
    apply LtEffect.unchanged
      (.recv event.fd results.recv ::
        (mainProcessSignalProcessing results.recv).map .signalHandler)
    · simp [ltEvent, hsignal]
    · simp
    · simp [ltEvent, hsignal]
  by_cases hlisten : nListenFd = event.fd
  · -- the listening branch
    cases haccept : results.accept with
    | failed errno =>
        apply LtEffect.unchanged [.accept (.failed errno)]
        · simp [ltEvent, hsignal, hlisten, haccept]
        · simp
        · simp [ltEvent, hsignal, hlisten, haccept]
    | connected nConnFd =>
        apply LtEffect.accepted nConnFd
          [.accept (.connected nConnFd), .epollCtlAdd nConnFd epollIn,
            .setNonblocking nConnFd] haccept
        · simp [ltEvent, hsignal, hlisten, haccept]
        · simp
        · simp [ltEvent, hsignal, hlisten, haccept]
  by_cases hin : event.events &&& epollIn = 0
  · -- nothing is asked of this descriptor
    apply LtEffect.unchanged []
    · simp [ltEvent, hlisten, hleft, hin]
    · simp
    · simp [ltEvent, hlisten, hleft, hin]
  · have hclient : event.fd ≠ signals.m_nRdFd := fun h => hsignal ⟨h, hin⟩
    have hreceives : ReceivesFrom signals nListenFd event.fd event :=
      ⟨rfl, hclient, Ne.symm hlisten, hleft, hin⟩
    rw [ltEvent_receives signals nListenFd process results hreceives]
    split
    · apply LtEffect.dropped (Ne.symm hlisten) hclient
      · simp [EpollProcess.drop_calls]
      · simp [EpollProcess.drop_descriptors]
    · apply LtEffect.unchanged
        [.recv event.fd results.recv,
          .clientData results.recv.nRet (cString results.recv.gcBuff)
            event.fd]
      · simp
      · simp
      · simp

/-! ## The invariant -/

variable (kept : Finset Fd)

def pinned : Finset Fd := {nListenFd, signals.m_nRdFd}

/-- The descriptors are balanced, and what is left of the batch still is what
`epoll_wait` reported. -/
structure LoopInvariant (state : LoopState) : Prop where
  balanced :
    Table.Balanced kept (pinned signals nListenFd) state.process.descriptors
  batch : ValidBatch state.process state.waiting

structure ProcessedEvent (state next : LoopState) (results : CallResults)
    (event : EpollEvent) : Prop where
  registered : event.fd ∈ state.process.descriptors.registered
  fresh : FreshAccept state.process results.accept
  effect :
    LtEffect signals nListenFd state.process event results next.process
  distinct : (next.waiting.map EpollEvent.fd).Nodup
  later : ∀ other ∈ next.waiting,
    other.fd ≠ event.fd ∧
      other.fd ∈ state.process.descriptors.registered ∧
        Reportable other.events

theorem exists_processedEvent
    {state next : LoopState} {results : CallResults}
    (hgood : LoopInvariant signals nListenFd kept state)
    (hstep :
      loopStep signals nListenFd state (.processed results) = some next) :
    ∃ event, ProcessedEvent signals nListenFd state next results event := by
  obtain ⟨event, waiting, hwaiting, hfresh, hnext⟩ :=
    loopStep_processed signals nListenFd hstep
  subst next
  have hbatch := hgood.batch
  rw [hwaiting] at hbatch
  have hevent := hbatch.2 event (by simp)
  have hnodup := List.nodup_cons.mp hbatch.1
  refine ⟨event, hevent.1, hfresh, ?_, hnodup.2, ?_⟩
  · exact ltEffect_ltEvent signals nListenFd state.process results hevent.2
  · intro other hother
    have hne : other.fd ≠ event.fd := by
      intro hsame
      apply hnodup.1
      rw [← hsame]
      exact List.mem_map_of_mem hother
    exact ⟨hne, hbatch.2 other (List.mem_cons_of_mem event hother)⟩

variable {signals nListenFd kept}

theorem ProcessedEvent.client
    {state next : LoopState} {results : CallResults} {event : EpollEvent}
    (hevent : ProcessedEvent signals nListenFd state next results event)
    (hgood : LoopInvariant signals nListenFd kept state)
    (hlisten : event.fd ≠ nListenFd) (hsignal : event.fd ≠ signals.m_nRdFd) :
    event.fd ∈ state.process.descriptors.clients kept := by
  apply hgood.balanced.client_of_registered hevent.registered
  simp [pinned, hlisten, hsignal]

theorem ProcessedEvent.loopInvariant
    {state next : LoopState} {results : CallResults} {event : EpollEvent}
    (hevent : ProcessedEvent signals nListenFd state next results event)
    (hgood : LoopInvariant signals nListenFd kept state) :
    LoopInvariant signals nListenFd kept next := by
  cases hevent.effect with
  | unchanged calls hcalls hquiet hdescriptors =>
      constructor
      · simpa [hdescriptors] using hgood.balanced
      · refine ⟨hevent.distinct, ?_⟩
        intro other hother
        simpa [hdescriptors] using (hevent.later other hother).2
  | accepted nConnFd calls hresult hcalls hquiet hdescriptors =>
      have hnew : nConnFd ∉ state.process.descriptors.opened := by
        have hfresh := hevent.fresh
        rwa [hresult] at hfresh
      constructor
      · simpa [hdescriptors] using hgood.balanced.accept hnew
      · refine ⟨hevent.distinct, ?_⟩
        intro other hother
        obtain ⟨-, hregistered, hevents⟩ := hevent.later other hother
        exact ⟨by simp [hdescriptors, hregistered], hevents⟩
  | dropped hlisten hsignal hcalls hdescriptors =>
      have hclient := hevent.client hgood hlisten hsignal
      constructor
      · simpa [hdescriptors] using hgood.balanced.drop hclient
      · refine ⟨hevent.distinct, ?_⟩
        intro other hother
        obtain ⟨hne, hregistered, hevents⟩ := hevent.later other hother
        exact ⟨by simp [hdescriptors, hne, hregistered], hevents⟩

theorem loopInvariant_step
    {state next : LoopState} {label : LoopLabel}
    (hgood : LoopInvariant signals nListenFd kept state)
    (hstep : loopStep signals nListenFd state label = some next) :
    LoopInvariant signals nListenFd kept next := by
  cases label with
  | epollWait batch =>
      obtain ⟨-, hvalid, hnext⟩ := loopStep_epollWait signals nListenFd hstep
      subst next
      exact ⟨hgood.balanced, hvalid⟩
  | processed results =>
      obtain ⟨event, hevent⟩ :=
        exists_processedEvent signals nListenFd kept hgood hstep
      exact hevent.loopInvariant hgood

theorem loopInvariant_run
    {initial last : LoopState} {labels : List LoopLabel}
    (hgood : LoopInvariant signals nListenFd kept initial)
    (hrun : runSteps (loopStep signals nListenFd) initial labels = some last) :
    LoopInvariant signals nListenFd kept last := by
  refine runSteps_induction (loopStep signals nListenFd)
    (fun _ state => LoopInvariant signals nListenFd kept state) hgood ?_ hrun
  intro labels label state next _ hstate hstep
  exact loopInvariant_step hstate hstep

variable (signals nListenFd kept)

/-- The calls made from one state to the next close open clients only, each
right after its removal from epoll and none of them twice, and leave the pinned
descriptors alone. -/
def ClosesClients (before after : EpollProcess) : Prop :=
  ∃ calls,
    after.calls = before.calls ++ calls ∧
      (∀ fd, .close fd ∈ calls →
        fd ∈ before.descriptors.clients kept ∧
          ∃ front, calls = front ++ [.epollCtlDel fd, .close fd] ∧
            ∀ other, .epollCtlDel other ∉ front ∧ .close other ∉ front) ∧
      ∀ fd ∈ pinned signals nListenFd,
        .epollCtlDel fd ∉ calls ∧ .close fd ∉ calls

variable {signals nListenFd kept}

theorem closesClients_of_quiet
    {before after : EpollProcess} {calls : List EpollCall}
    (hcalls : after.calls = before.calls ++ calls)
    (hquiet : ∀ fd, .epollCtlDel fd ∉ calls ∧ .close fd ∉ calls) :
    ClosesClients signals nListenFd kept before after := by
  refine ⟨calls, hcalls, ?_, ?_⟩
  · intro fd hclose
    exact ((hquiet fd).2 hclose).elim
  · intro fd _
    exact hquiet fd

theorem ProcessedEvent.closesClients
    {state next : LoopState} {results : CallResults} {event : EpollEvent}
    (hevent : ProcessedEvent signals nListenFd state next results event)
    (hgood : LoopInvariant signals nListenFd kept state) :
    ClosesClients signals nListenFd kept state.process next.process := by
  cases hevent.effect with
  | unchanged calls hcalls hquiet hdescriptors =>
      exact closesClients_of_quiet hcalls hquiet
  | accepted nConnFd calls hresult hcalls hquiet hdescriptors =>
      exact closesClients_of_quiet hcalls hquiet
  | dropped hlisten hsignal hcalls hdescriptors =>
      refine ⟨_, hcalls, ?_, ?_⟩
      · intro fd hclose
        have hfd : fd = event.fd := by simpa using hclose
        subst fd
        exact ⟨hevent.client hgood hlisten hsignal,
          [.recv event.fd results.recv], rfl, fun other => by simp⟩
      · intro fd hpinned
        have hne : fd ≠ event.fd := by
          rintro rfl
          simp [pinned, hlisten, hsignal] at hpinned
        simp [hne]

theorem closesClients_step
    {state next : LoopState} {label : LoopLabel}
    (hgood : LoopInvariant signals nListenFd kept state)
    (hstep : loopStep signals nListenFd state label = some next) :
    ClosesClients signals nListenFd kept state.process next.process := by
  cases label with
  | epollWait batch =>
      obtain ⟨-, -, hnext⟩ := loopStep_epollWait signals nListenFd hstep
      subst next
      exact ⟨[], by simp⟩
  | processed results =>
      obtain ⟨event, hevent⟩ :=
        exists_processedEvent signals nListenFd kept hgood hstep
      exact hevent.closesClients hgood

variable (signals nListenFd)

/-- From the registration of the listening and signal descriptors alone: after
every processed event the open clients are the registered ones, the listening
and the signal descriptor are open and registered, and every step of the run
closes open clients only, each right after its removal from epoll and none of
them twice. -/
theorem lt_bookkeeping
    {process : EpollProcess} {labels : List LoopLabel} {last : LoopState}
    (hregistered :
      process.descriptors.registered = pinned signals nListenFd)
    (hrun :
      runSteps (loopStep signals nListenFd) ⟨process, []⟩ labels =
        some last) :
    last.process.descriptors.clients process.descriptors.opened =
        last.process.descriptors.registered \ process.descriptors.opened ∧
      (∀ fd ∈ pinned signals nListenFd,
        fd ∈ last.process.descriptors.opened ∧
          fd ∈ last.process.descriptors.registered) ∧
      ∀ before label after middle next,
        labels = before ++ label :: after →
          runSteps (loopStep signals nListenFd) ⟨process, []⟩ before =
              some middle →
            loopStep signals nListenFd middle label = some next →
              ClosesClients signals nListenFd process.descriptors.opened
                middle.process next.process := by
  have hinitial :
      LoopInvariant signals nListenFd process.descriptors.opened
        ⟨process, []⟩ := by
    constructor
    · constructor
      · rw [← hregistered]
        exact process.descriptors.registered_subset
      · exact Finset.Subset.refl _
      · simp [hregistered, Table.clients]
    · exact ⟨List.nodup_nil, by simp⟩
  have hlast := loopInvariant_run hinitial hrun
  refine ⟨hlast.balanced.clients_eq, ?_, ?_⟩
  · intro fd hfd
    have hmem := hlast.balanced.pinned_registered hfd
    exact ⟨last.process.descriptors.registered_subset hmem, hmem⟩
  · intro before label after middle next _ hmiddle hstep
    exact closesClients_step (loopInvariant_run hinitial hmiddle) hstep

end Loop

/-- Client 7 is dropped, and its number is accepted again in the same batch. -/
theorem lt_bookkeeping_reused_number :
    let process : EpollProcess :=
      ⟨0, ⟨{0, 1, 2, 3, 4, 5, 6}, {3, 4}, by decide⟩, []⟩
    ∃ signals last,
      processSigInit (some (4, 5)) = some signals ∧
        runSteps (loopStep signals 3) ⟨process, []⟩
            [.epollWait [⟨epollIn, 3⟩],
              .processed ⟨.connected 7, .received []⟩,
              .epollWait [⟨epollIn, 7⟩, ⟨epollIn, 3⟩, ⟨epollIn, 4⟩],
              .processed ⟨.failed eAgain, .received []⟩,
              .processed ⟨.connected 7, .received []⟩,
              .processed ⟨.failed eAgain, .received [10]⟩] = some last ∧
        last.process.descriptors.clients process.descriptors.opened =
          last.process.descriptors.registered \
            process.descriptors.opened := by
  intro process
  have hruns :
      (runSteps (loopStep ⟨(4, 5), 5, 4⟩ 3) ⟨process, []⟩
        [.epollWait [⟨epollIn, 3⟩],
          .processed ⟨.connected 7, .received []⟩,
          .epollWait [⟨epollIn, 7⟩, ⟨epollIn, 3⟩, ⟨epollIn, 4⟩],
          .processed ⟨.failed eAgain, .received []⟩,
          .processed ⟨.connected 7, .received []⟩,
          .processed ⟨.failed eAgain, .received [10]⟩]).isSome := by
    decide
  obtain ⟨last, hrun⟩ := Option.isSome_iff_exists.mp hruns
  exact ⟨_, last, rfl, hrun, (lt_bookkeeping _ _ (by decide) hrun).1⟩

end LtBookkeeping
end RabbitWork
