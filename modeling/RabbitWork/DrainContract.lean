import RabbitWork.EdgeTriggered

/-!
# The draining contract of the edge-triggered loop

An edge-triggered descriptor that is left undrained is not reported again.  The
contract asks of every reported client that its bytes are read and that it is
closed once if its peer has closed or failed, and of the listening descriptor
that the whole backlog is accepted.  Every event is looked at in the middle of
its batch: the events before and after it leave its descriptor alone.
-/

namespace RabbitWork
namespace EdgeTriggered

open Descriptors Stepping

structure ReadyBatch (world : EtWorld) where
  events : List EpollEvent
  distinct : (events.map EpollEvent.fd).Nodup
  registered : ∀ event ∈ events,
    event.fd ∈ world.process.descriptors.registered

def ReadyBatch.fuel {world : EtWorld} (batch : ReadyBatch world) : ℕ :=
  (batch.events.map fun event => (world.peers event.fd).queue.length).sum

theorem ReadyBatch.length_le_fuel
    {world : EtWorld} (batch : ReadyBatch world) {event : EpollEvent}
    (hevent : event ∈ batch.events) :
    (world.peers event.fd).queue.length ≤ batch.fuel := by
  apply List.le_sum_of_mem
  exact List.mem_map.mpr ⟨event, hevent, rfl⟩

/-! ## The contract -/

structure ClientDone (fd : Fd) (peer : Peer) (issued : List EpollCall)
    (after : EtWorld) : Prop where
  received : receivedFrom fd issued = peer.queue
  idle : peer.ending = .idle →
    fd ∈ after.process.descriptors.opened ∧
      fd ∈ after.process.descriptors.registered ∧ .close fd ∉ issued
  gone : peer.ending ≠ .idle →
    issued.count (.epollCtlDel fd) = 1 ∧ issued.count (.close fd) = 1 ∧
      (fd ∈ after.process.descriptors.opened → fd ∈ acceptedFds issued)

structure BacklogDone (pending : List Peer) (issued : List EpollCall)
    (after : EtWorld) : Prop where
  empty : after.pending = []
  accepted : (acceptedFds issued).map after.peers = pending
  registered : ∀ fd ∈ acceptedFds issued,
    fd ∈ after.process.descriptors.opened ∧
      fd ∈ after.process.descriptors.registered

structure EventDone (nListenFd : Fd) (world : EtWorld) (event : EpollEvent)
    (issued : List EpollCall) (after : EtWorld) : Prop where
  backlog : event.fd = nListenFd → BacklogDone world.pending issued after
  client : event.fd ≠ nListenFd → event.events &&& epollIn ≠ 0 →
    ClientDone event.fd (world.peers event.fd) issued after

def Drained (nListenFd : Fd) (world : EtWorld) (events : List EpollEvent)
    (after : EtWorld) : Prop :=
  ∃ issued,
    after.process.calls = world.process.calls ++ issued ∧
      ∀ event ∈ events, EventDone nListenFd world event issued after

/-! ## What an event does -/

inductive EtEffect (nListenFd : Fd) (event : EpollEvent)
    (world after : EtWorld) (issued : List EpollCall) : Prop
  | refused
      (hlisten : event.fd = nListenFd)
      (hpending : world.pending = [])
      (hissued : issued = [.accept (.failed eAgain)])
      (hafter :
        after =
          { world with process := world.process.accept (.failed eAgain) })
  | accepted (peer : Peer) (pending : List Peer) (nConnFd : Fd)
      (hlisten : event.fd = nListenFd)
      (hpending : world.pending = peer :: pending)
      (hfresh : nConnFd ∉ world.process.descriptors.opened)
      (hissued :
        issued =
          [.accept (.connected nConnFd),
            .epollCtlAdd nConnFd (epollIn ||| epollEt),
            .setNonblocking nConnFd])
      (hafter :
        after =
          { process :=
              (world.process.accept (.connected nConnFd)).addFdToEpoll
                nConnFd 1
            peers := Function.update world.peers nConnFd peer
            pending := pending })
  | hangUp
      (hclient : event.fd ≠ nListenFd)
      (hleft : event.events &&& pollRdHup ≠ 0)
      (hclosed : ClosedAfter event.fd [] world after issued)
  | drained
      (hclient : event.fd ≠ nListenFd)
      (hleft : event.events &&& pollRdHup = 0)
      (hfailed : (world.peers event.fd).ending.IsFailed)
      (hclosed :
        ClosedAfter event.fd (world.peers event.fd).queue world after issued)
  | ignored
      (hclient : event.fd ≠ nListenFd)
      (hleft : event.events &&& pollRdHup = 0)
      (hin : event.events &&& epollIn = 0)
      (hissued : issued = [])
      (hafter : after = world)

theorem etEffect_etEvent
    {fuel : ℕ} {nListenFd : Fd} {world after : EtWorld} {event : EpollEvent}
    (hstep : etEvent fuel nListenFd world event = some after) :
    ∃ issued, EtEffect nListenFd event world after issued := by
  by_cases hlisten : nListenFd = event.fd
  · cases hpending : world.pending with
    | nil =>
        simp only [etEvent, hlisten, if_true, EtWorld.accept, hpending]
          at hstep
        refine ⟨_, EtEffect.refused hlisten.symm hpending rfl ?_⟩
        simpa [hpending] using (Option.some.inj hstep).symm
    | cons peer pending =>
        simp only [etEvent, hlisten, if_true, EtWorld.accept, hpending]
          at hstep
        have hfresh :=
          lowestUnused_notMem world.process.descriptors.opened
        exact ⟨_, EtEffect.accepted peer pending _ hlisten.symm hpending hfresh
          rfl (Option.some.inj hstep).symm⟩
  have hclient : event.fd ≠ nListenFd := Ne.symm hlisten
  by_cases hleft : event.events &&& pollRdHup = 0
  · by_cases hin : event.events &&& epollIn = 0
    · have hafter : after = world := by
        simpa [etEvent, hlisten, hleft, hin] using hstep.symm
      exact ⟨[], EtEffect.ignored hclient hleft hin rfl hafter⟩
    · have hdrain : drain event.fd fuel world = some after := by
        simpa [etEvent, hlisten, hleft, hin] using hstep
      obtain ⟨hfailed, issued, hclosed⟩ := drain_eq_some hdrain
      exact ⟨issued, EtEffect.drained hclient hleft hfailed hclosed⟩
  · have hafter : after = world.drop event.fd := by
      simpa [etEvent, hlisten, hleft] using hstep.symm
    subst after
    exact ⟨_, EtEffect.hangUp hclient hleft (closedAfter_drop event.fd world)⟩

theorem EtEffect.calls
    {nListenFd : Fd} {event : EpollEvent} {world after : EtWorld}
    {issued : List EpollCall}
    (heffect : EtEffect nListenFd event world after issued) :
    after.process.calls = world.process.calls ++ issued := by
  cases heffect with
  | refused hlisten hpending hissued hafter =>
      subst issued after
      simp
  | accepted peer pending nConnFd hlisten hpending hfresh hissued hafter =>
      subst issued after
      simp
  | hangUp hclient hleft hclosed => exact hclosed.calls
  | drained hclient hleft hfailed hclosed => exact hclosed.calls
  | ignored hclient hleft hin hissued hafter =>
      subst issued after
      simp

/-! ## What leaves a descriptor alone -/

structure LeavesAlone (fd : Fd) (world after : EtWorld)
    (issued : List EpollCall) : Prop where
  quiet : Quiet fd issued
  peer : fd ∈ world.process.descriptors.opened →
    after.peers fd = world.peers fd
  opened : fd ∈ world.process.descriptors.opened →
    fd ∈ after.process.descriptors.opened
  registered : fd ∈ world.process.descriptors.registered →
    fd ∈ after.process.descriptors.registered
  reopened : fd ∈ after.process.descriptors.opened →
    fd ∈ world.process.descriptors.opened ∨ fd ∈ acceptedFds issued

theorem LeavesAlone.refl (fd : Fd) (world : EtWorld) :
    LeavesAlone fd world world [] := by
  constructor
  · intro call hcall
    cases hcall
  · intro _
    rfl
  · exact id
  · exact id
  · exact Or.inl

theorem LeavesAlone.trans
    {fd : Fd} {world middle after : EtWorld} {left right : List EpollCall}
    (hleft : LeavesAlone fd world middle left)
    (hright : LeavesAlone fd middle after right) :
    LeavesAlone fd world after (left ++ right) := by
  constructor
  · exact hleft.quiet.append hright.quiet
  · intro hopen
    rw [hright.peer (hleft.opened hopen), hleft.peer hopen]
  · exact fun hopen => hright.opened (hleft.opened hopen)
  · exact fun hregistered => hright.registered (hleft.registered hregistered)
  · intro hopen
    rw [acceptedFds_append, List.mem_append]
    rcases hright.reopened hopen with hmiddle | haccepted
    · rcases hleft.reopened hmiddle with hworld | haccepted
      · exact Or.inl hworld
      · exact Or.inr (Or.inl haccepted)
    · exact Or.inr (Or.inr haccepted)

theorem ClosedAfter.leavesAlone
    {nSockFd fd : Fd} {bytes : Bytes} {world after : EtWorld}
    {issued : List EpollCall}
    (hclosed : ClosedAfter nSockFd bytes world after issued)
    (hne : fd ≠ nSockFd) :
    LeavesAlone fd world after issued := by
  constructor
  · exact hclosed.quiet fd hne
  · intro _
    exact hclosed.peers fd hne
  · intro hopen
    simp [hclosed.descriptors, hne, hopen]
  · intro hregistered
    simp [hclosed.descriptors, hne, hregistered]
  · intro hopen
    simp only [hclosed.descriptors, Table.close_opened,
      Table.deregister_opened, Finset.mem_erase] at hopen
    exact Or.inl hopen.2

/-- An event leaves every descriptor but its own alone, a new one excepted. -/
theorem EtEffect.leavesAlone
    {nListenFd fd : Fd} {event : EpollEvent} {world after : EtWorld}
    {issued : List EpollCall}
    (heffect : EtEffect nListenFd event world after issued)
    (hne : fd ≠ event.fd) :
    LeavesAlone fd world after issued := by
  cases heffect with
  | refused hlisten hpending hissued hafter =>
      subst issued after
      constructor
      · intro call hcall
        rw [List.mem_singleton.mp hcall]
        exact fun h => h
      · intro _
        rfl
      · exact id
      · exact id
      · exact Or.inl
  | accepted peer pending nConnFd hlisten hpending hfresh hissued hafter =>
      subst issued after
      constructor
      · intro call hcall
        simp only [List.mem_cons, List.not_mem_nil, or_false] at hcall
        rcases hcall with rfl | rfl | rfl <;> exact fun h => h
      · intro hopen
        have hnew : fd ≠ nConnFd := fun h => hfresh (h ▸ hopen)
        simp [hnew]
      · intro hopen
        simp [hopen]
      · intro hregistered
        simp [hregistered]
      · intro hopen
        have hcases : fd = nConnFd ∨ fd ∈ world.process.descriptors.opened := by
          simpa using hopen
        rcases hcases with hnew | hold
        · right
          simp [acceptedFds, hnew]
        · exact Or.inl hold
  | hangUp hclient hleft hclosed => exact hclosed.leavesAlone hne
  | drained hclient hleft hfailed hclosed => exact hclosed.leavesAlone hne
  | ignored hclient hleft hin hissued hafter =>
      subst issued after
      exact LeavesAlone.refl fd _

theorem EtEffect.backlog
    {nListenFd : Fd} {event : EpollEvent} {world after : EtWorld}
    {issued : List EpollCall}
    (heffect : EtEffect nListenFd event world after issued)
    (hclient : event.fd ≠ nListenFd) :
    after.pending = world.pending ∧ acceptedFds issued = [] := by
  cases heffect with
  | refused hlisten => exact (hclient hlisten).elim
  | accepted peer pending nConnFd hlisten => exact (hclient hlisten).elim
  | hangUp _ hleft hclosed => exact ⟨hclosed.pending, hclosed.notAccepted⟩
  | drained _ hleft hfailed hclosed =>
      exact ⟨hclosed.pending, hclosed.notAccepted⟩
  | ignored _ hleft hin hissued hafter =>
      subst issued after
      exact ⟨rfl, rfl⟩

structure BatchFrame (nListenFd : Fd) (events : List EpollEvent)
    (world after : EtWorld) (issued : List EpollCall) : Prop where
  calls : after.process.calls = world.process.calls ++ issued
  alone : ∀ fd, fd ∉ events.map EpollEvent.fd →
    LeavesAlone fd world after issued
  backlog : nListenFd ∉ events.map EpollEvent.fd →
    after.pending = world.pending ∧ acceptedFds issued = []

theorem exists_batchFrame
    {fuel : ℕ} {nListenFd : Fd} {world after : EtWorld}
    {events : List EpollEvent}
    (het : et fuel nListenFd world events = some after) :
    ∃ issued, BatchFrame nListenFd events world after issued := by
  unfold et at het
  induction events generalizing world with
  | nil =>
      cases het
      refine ⟨[], ?_, ?_, ?_⟩
      · simp
      · intro fd _
        exact LeavesAlone.refl fd _
      · intro _
        exact ⟨rfl, rfl⟩
  | cons event events ih =>
      obtain ⟨middle, hstep, hrest⟩ := exists_runSteps_cons _ het
      obtain ⟨issued, heffect⟩ := etEffect_etEvent hstep
      obtain ⟨later, hframe⟩ := ih hrest
      refine ⟨issued ++ later, ?_, ?_, ?_⟩
      · rw [hframe.calls, heffect.calls, List.append_assoc]
      · intro fd hfd
        rw [List.map_cons, List.mem_cons, not_or] at hfd
        exact (heffect.leavesAlone hfd.1).trans (hframe.alone fd hfd.2)
      · intro hlisten
        rw [List.map_cons, List.mem_cons, not_or] at hlisten
        have hhere := heffect.backlog (Ne.symm hlisten.1)
        have hlater := hframe.backlog hlisten.2
        constructor
        · rw [hlater.1, hhere.1]
        · simp [hhere.2, hlater.2]

/-! ## The moment of an event -/

/-- An event in the middle of its batch: the rest of the batch leaves its
descriptor alone, and a descriptor it opens too. -/
structure Moment (nListenFd : Fd) (world after : EtWorld) (event : EpollEvent)
    (middle next : EtWorld) (front issued back : List EpollCall) : Prop where
  calls : after.process.calls =
    world.process.calls ++ (front ++ issued ++ back)
  effect : EtEffect nListenFd event middle next issued
  before : LeavesAlone event.fd world middle front
  behind : LeavesAlone event.fd next after back
  fresh : ∀ fd, fd ∉ middle.process.descriptors.opened →
    LeavesAlone fd next after back
  backlog : event.fd = nListenFd →
    middle.pending = world.pending ∧ after.pending = next.pending ∧
      acceptedFds front = [] ∧ acceptedFds back = []

theorem exists_moment
    {fuel : ℕ} {nListenFd : Fd} {world after : EtWorld}
    (batch : ReadyBatch world)
    (het : et fuel nListenFd world batch.events = some after)
    {event : EpollEvent} (hevent : event ∈ batch.events) :
    ∃ middle next front issued back,
      Moment nListenFd world after event middle next front issued back := by
  obtain ⟨before, rest, hevents⟩ := List.append_of_mem hevent
  have hdistinct := batch.distinct
  rw [hevents, List.map_append, List.map_cons, List.nodup_middle,
    List.nodup_cons, List.mem_append, not_or] at hdistinct
  rcases hdistinct with ⟨⟨hbefore, hrest⟩, hnodup⟩
  have hrun := het
  rw [et, hevents] at hrun
  obtain ⟨middle, hfront, htail⟩ := exists_runSteps_prefix _ hrun
  obtain ⟨next, hstep, hback⟩ := exists_runSteps_cons _ htail
  obtain ⟨front, hframeFront⟩ := exists_batchFrame hfront
  obtain ⟨back, hframeBack⟩ := exists_batchFrame hback
  obtain ⟨issued, heffect⟩ := etEffect_etEvent hstep
  refine ⟨middle, next, front, issued, back, ?_⟩
  constructor
  · rw [hframeBack.calls, heffect.calls, hframeFront.calls]
    simp
  · exact heffect
  · exact hframeFront.alone event.fd hbefore
  · exact hframeBack.alone event.fd hrest
  · -- the descriptors of later events are open at this moment
    intro fd hfd
    apply hframeBack.alone
    intro hmem
    rcases List.mem_map.mp hmem with ⟨later, hlater, hsame⟩
    have hregistered : later.fd ∈ world.process.descriptors.registered :=
      batch.registered later (by simp [hevents, hlater])
    have hnotBefore : later.fd ∉ before.map EpollEvent.fd := by
      intro hearlier
      exact (List.nodup_append.mp hnodup).2.2 later.fd hearlier later.fd
        (List.mem_map_of_mem hlater) rfl
    have hopen := (hframeFront.alone later.fd hnotBefore).opened
      (world.process.descriptors.registered_subset hregistered)
    exact hfd (hsame ▸ hopen)
  · intro hlisten
    have hfrontBacklog := hframeFront.backlog (hlisten ▸ hbefore)
    have hbackBacklog := hframeBack.backlog (hlisten ▸ hrest)
    exact ⟨hfrontBacklog.1, hbackBacklog.1, hfrontBacklog.2, hbackBacklog.2⟩

/-! ## When the contract is kept -/

/-- A listening descriptor with at most one pending connection, or a client that
is broken, or hung up with nothing queued. -/
structure Drainable (nListenFd : Fd) (world : EtWorld) (event : EpollEvent) :
    Prop where
  backlog : event.fd = nListenFd → world.pending.length ≤ 1
  hangUp : event.fd ≠ nListenFd → event.events &&& epollIn ≠ 0 →
    event.events &&& pollRdHup ≠ 0 →
      (world.peers event.fd).queue = [] ∧
        (world.peers event.fd).ending ≠ .idle
  failed : event.fd ≠ nListenFd → event.events &&& epollIn ≠ 0 →
    event.events &&& pollRdHup = 0 →
      (world.peers event.fd).ending.IsFailed

section Moment

variable {nListenFd : Fd} {world after middle next : EtWorld}
variable {event : EpollEvent} {front issued back : List EpollCall}

theorem Moment.received_eq
    (hmoment :
      Moment nListenFd world after event middle next front issued back) :
    receivedFrom event.fd (front ++ issued ++ back) =
      receivedFrom event.fd issued := by
  simp [hmoment.before.quiet.receivedFrom, hmoment.behind.quiet.receivedFrom]

theorem count_between {call : EpollCall}
    (hfront : call ∉ front) (hback : call ∉ back) :
    (front ++ issued ++ back).count call = issued.count call := by
  rw [List.count_append, List.count_append,
    List.count_eq_zero_of_not_mem hfront,
    List.count_eq_zero_of_not_mem hback, Nat.zero_add, Nat.add_zero]

theorem Moment.clientDone_iff
    {bytes : Bytes}
    (hmoment :
      Moment nListenFd world after event middle next front issued back)
    (hclosed : ClosedAfter event.fd bytes middle next issued) :
    ClientDone event.fd (world.peers event.fd) (front ++ issued ++ back)
        after ↔
      (world.peers event.fd).queue = bytes ∧
        (world.peers event.fd).ending ≠ .idle := by
  have hreceived :
      receivedFrom event.fd (front ++ issued ++ back) = bytes := by
    rw [hmoment.received_eq, hclosed.received]
  have hdeleted :
      (front ++ issued ++ back).count (.epollCtlDel event.fd) = 1 := by
    rw [count_between hmoment.before.quiet.epollCtlDel_notMem
      hmoment.behind.quiet.epollCtlDel_notMem]
    exact hclosed.deleted
  have hclose :
      (front ++ issued ++ back).count (.close event.fd) = 1 := by
    rw [count_between hmoment.before.quiet.close_notMem
      hmoment.behind.quiet.close_notMem]
    exact hclosed.closed
  constructor
  · intro hdone
    refine ⟨hdone.received.symm.trans hreceived, ?_⟩
    intro hidle
    have hnone := (hdone.idle hidle).2.2
    rw [← List.count_eq_zero, hclose] at hnone
    omega
  · intro hdrainable
    constructor
    · rw [hreceived, hdrainable.1]
    · intro hidle
      exact (hdrainable.2 hidle).elim
    · intro _
      refine ⟨hdeleted, hclose, ?_⟩
      intro hopen
      have hnotOpen : event.fd ∉ next.process.descriptors.opened := by
        simp [hclosed.descriptors]
      have haccepted := (hmoment.behind.reopened hopen).resolve_left hnotOpen
      simp [haccepted]

theorem Moment.backlogDone_iff
    (hmoment :
      Moment nListenFd world after event middle next front issued back)
    (hlisten : event.fd = nListenFd) :
    BacklogDone world.pending (front ++ issued ++ back) after ↔
      world.pending.length ≤ 1 := by
  obtain ⟨hmiddle, hafter, hfront, hback⟩ := hmoment.backlog hlisten
  have haccepted :
      acceptedFds (front ++ issued ++ back) = acceptedFds issued := by
    simp [hfront, hback]
  rw [← hmiddle]
  cases hmoment.effect with
  | refused _ hpending hissued hnext =>
      have hnone : acceptedFds (front ++ issued ++ back) = [] := by
        rw [haccepted, hissued]
        rfl
      constructor
      · intro _
        simp [hpending]
      · intro _
        constructor
        · rw [hafter, hnext]
          exact hpending
        · rw [hnone, hpending]
          rfl
        · rw [hnone]
          intro fd hfd
          cases hfd
  | accepted peer pending nConnFd _ hpending hfresh hissued hnext =>
      have hone : acceptedFds (front ++ issued ++ back) = [nConnFd] := by
        rw [haccepted, hissued]
        rfl
      have hrest : after.pending = pending := by
        rw [hafter, hnext]
      constructor
      · intro hdone
        have hempty : pending = [] := hrest.symm.trans hdone.empty
        simp [hpending, hempty]
      · intro hlength
        have hempty : pending = [] := by
          rw [hpending, List.length_cons] at hlength
          exact List.eq_nil_of_length_eq_zero (by omega)
        have halone := hmoment.fresh nConnFd hfresh
        have hopened : nConnFd ∈ next.process.descriptors.opened := by
          simp [hnext]
        have hregistered : nConnFd ∈ next.process.descriptors.registered := by
          simp [hnext]
        constructor
        · rw [hrest, hempty]
        · rw [hone, hpending, hempty, List.map_singleton,
            halone.peer hopened, hnext]
          simp
        · intro fd hfd
          rw [hone, List.mem_singleton] at hfd
          subst fd
          exact ⟨halone.opened hopened, halone.registered hregistered⟩
  | hangUp hclient => exact (hclient hlisten).elim
  | drained hclient => exact (hclient hlisten).elim
  | ignored hclient => exact (hclient hlisten).elim

theorem Moment.eventDone_iff
    (hmoment :
      Moment nListenFd world after event middle next front issued back)
    (hopen : event.fd ∈ world.process.descriptors.opened) :
    EventDone nListenFd world event (front ++ issued ++ back) after ↔
      Drainable nListenFd world event := by
  have hpeer : middle.peers event.fd = world.peers event.fd :=
    hmoment.before.peer hopen
  by_cases hlisten : event.fd = nListenFd
  · have hbacklog := hmoment.backlogDone_iff hlisten
    constructor
    · intro hdone
      exact ⟨fun h => hbacklog.mp (hdone.backlog h),
        fun h => (h hlisten).elim, fun h => (h hlisten).elim⟩
    · intro hdrainable
      exact ⟨fun h => hbacklog.mpr (hdrainable.backlog h),
        fun h => (h hlisten).elim⟩
  cases hmoment.effect with
  | refused h => exact (hlisten h).elim
  | accepted peer pending nConnFd h => exact (hlisten h).elim
  | hangUp _ hleft hclosed =>
      have hclient := hmoment.clientDone_iff hclosed
      constructor
      · intro hdone
        exact ⟨fun h => (hlisten h).elim,
          fun h hin _ => hclient.mp (hdone.client h hin),
          fun _ _ h => (hleft h).elim⟩
      · intro hdrainable
        exact ⟨fun h => (hlisten h).elim,
          fun h hin => hclient.mpr (hdrainable.hangUp h hin hleft)⟩
  | drained _ hleft hfailed hclosed =>
      rw [hpeer] at hfailed hclosed
      have hclient := hmoment.clientDone_iff hclosed
      have hending : (world.peers event.fd).ending ≠ .idle := by
        intro hidle
        rw [hidle] at hfailed
        exact hfailed
      constructor
      · intro _
        exact ⟨fun h => (hlisten h).elim, fun _ _ h => (h hleft).elim,
          fun _ _ _ => hfailed⟩
      · intro _
        exact ⟨fun h => (hlisten h).elim,
          fun _ _ => hclient.mpr ⟨rfl, hending⟩⟩
  | ignored _ hleft hin =>
      constructor
      · intro _
        exact ⟨fun h => (hlisten h).elim, fun _ h => (h hin).elim,
          fun _ h => (h hin).elim⟩
      · intro _
        exact ⟨fun h => (hlisten h).elim, fun _ h => (h hin).elim⟩

end Moment

/-! ## Termination -/

theorem etEvent_isSome
    {fuel : ℕ} {nListenFd : Fd} {world : EtWorld} {event : EpollEvent}
    (hdrain : event.fd ≠ nListenFd → event.events &&& epollIn ≠ 0 →
      event.events &&& pollRdHup = 0 →
        (world.peers event.fd).ending.IsFailed ∧
          (world.peers event.fd).queue.length < fuel) :
    (etEvent fuel nListenFd world event).isSome := by
  by_cases hlisten : nListenFd = event.fd
  · cases hpending : world.pending <;>
      simp [etEvent, hlisten, EtWorld.accept, hpending]
  by_cases hleft : event.events &&& pollRdHup = 0
  · by_cases hin : event.events &&& epollIn = 0
    · simp [etEvent, hlisten, hleft, hin]
    · obtain ⟨hfailed, hfuel⟩ := hdrain (Ne.symm hlisten) hin hleft
      simpa [etEvent, hlisten, hleft, hin] using drain_isSome hfailed hfuel
  · simp [etEvent, hlisten, hleft]

theorem et_isSome
    {fuel : ℕ} {nListenFd : Fd} {world : EtWorld} {events : List EpollEvent}
    (hdistinct : (events.map EpollEvent.fd).Nodup)
    (hopen : ∀ event ∈ events, event.fd ∈ world.process.descriptors.opened)
    (hdrain : ∀ event ∈ events,
      event.fd ≠ nListenFd → event.events &&& epollIn ≠ 0 →
        event.events &&& pollRdHup = 0 →
          (world.peers event.fd).ending.IsFailed ∧
            (world.peers event.fd).queue.length < fuel) :
    (et fuel nListenFd world events).isSome := by
  unfold et
  induction events generalizing world with
  | nil => rfl
  | cons event events ih =>
      rw [List.map_cons, List.nodup_cons] at hdistinct
      obtain ⟨next, hstep⟩ := Option.isSome_iff_exists.mp
        (etEvent_isSome (hdrain event (by simp)))
      obtain ⟨issued, heffect⟩ := etEffect_etEvent hstep
      have halone : ∀ later ∈ events, LeavesAlone later.fd world next issued := by
        intro later hlater
        apply heffect.leavesAlone
        intro hsame
        exact hdistinct.1 (hsame ▸ List.mem_map_of_mem hlater)
      rw [runSteps_cons, hstep, Option.bind_some]
      apply ih hdistinct.2
      · intro later hlater
        exact (halone later hlater).opened (hopen later (by simp [hlater]))
      · intro later hlater
        rw [(halone later hlater).peer (hopen later (by simp [hlater]))]
        exact hdrain later (by simp [hlater])

theorem eventDone_iff_drainable
    {fuel : ℕ} {nListenFd : Fd} {world after : EtWorld}
    {issued : List EpollCall} (batch : ReadyBatch world)
    (het : et fuel nListenFd world batch.events = some after)
    (hcalls : after.process.calls = world.process.calls ++ issued)
    {event : EpollEvent} (hevent : event ∈ batch.events) :
    EventDone nListenFd world event issued after ↔
      Drainable nListenFd world event := by
  obtain ⟨middle, next, front, own, back, hmoment⟩ :=
    exists_moment batch het hevent
  have hissued : issued = front ++ own ++ back := by
    rw [hmoment.calls] at hcalls
    exact (List.append_cancel_left hcalls).symm
  rw [hissued]
  apply hmoment.eventDone_iff
  exact world.process.descriptors.registered_subset
    (batch.registered event hevent)

/-- `et` returns with the contract kept if and only if the listening descriptor
has at most one pending connection and every client reported readable is
broken, or hung up with nothing queued. -/
theorem et_drains_iff
    (nListenFd : Fd) (world : EtWorld) (batch : ReadyBatch world) :
    (∃ fuel after,
        et fuel nListenFd world batch.events = some after ∧
          Drained nListenFd world batch.events after) ↔
      ∀ event ∈ batch.events, Drainable nListenFd world event := by
  constructor
  · rintro ⟨fuel, after, het, issued, hcalls, hdone⟩ event hevent
    exact (eventDone_iff_drainable batch het hcalls hevent).mp
      (hdone event hevent)
  · intro hdrainable
    have hreturns :
        (et (batch.fuel + 1) nListenFd world batch.events).isSome := by
      apply et_isSome batch.distinct
      · intro event hevent
        exact world.process.descriptors.registered_subset
          (batch.registered event hevent)
      · intro event hevent hclient hin hleft
        have hle := batch.length_le_fuel hevent
        exact ⟨(hdrainable event hevent).failed hclient hin hleft, by omega⟩
    obtain ⟨after, het⟩ := Option.isSome_iff_exists.mp hreturns
    obtain ⟨issued, hframe⟩ := exists_batchFrame het
    refine ⟨_, after, het, issued, hframe.calls, ?_⟩
    intro event hevent
    exact (eventDone_iff_drainable batch het hframe.calls hevent).mpr
      (hdrainable event hevent)

/-- Client 7 has sent two bytes and keeps its connection open. -/
def idleClient : EtWorld where
  process := ⟨0, ⟨{3, 7}, {3, 7}, by decide⟩, []⟩
  peers := fun _ => ⟨[104, 105], .idle⟩
  pending := []

def idleClientReady : ReadyBatch idleClient where
  events := [⟨epollIn, 7⟩]
  distinct := by decide
  registered := by decide

/-- No fuel is enough for a client that stays open. -/
theorem not_et_drains_idleClient :
    ¬ ∃ fuel after,
      et fuel 3 idleClient idleClientReady.events = some after ∧
        Drained 3 idleClient idleClientReady.events after := by
  rintro ⟨fuel, after, het, -⟩
  obtain ⟨next, hstep, -⟩ := exists_runSteps_cons _ het
  have hdrain : drain 7 fuel idleClient = some next := hstep
  exact (drain_eq_some hdrain).1

end EdgeTriggered
end RabbitWork
