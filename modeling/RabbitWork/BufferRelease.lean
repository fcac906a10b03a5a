import RabbitWork.PoolBlocks
import Mathlib.Logic.Function.Basic

/-!
# Releasing the memory of a connection

Each channel has a pool.  `amqp_maybe_release_buffers` recycles the pools when
no frame is being received, except those of the channels with a frame in the
queue.
-/

namespace RabbitWork
namespace PoolBlocks

/-- A frame and the blocks its data lies in. -/
structure HeldFrame where
  channel : UInt16
  held : List (ℕ × Block)
  deriving DecidableEq, Repr

/-- `channels` are those with an entry in `pool_table`. -/
structure ChannelPools where
  idle : Bool
  channels : List UInt16
  pools : UInt16 → PoolState
  receiving : Option HeldFrame
  queued : List HeldFrame

def newChannelPools (frameMax : ℕ) : ChannelPools where
  idle := true
  channels := []
  pools := fun _ => ⟨initAmqpPool frameMax, []⟩
  receiving := none
  queued := []

def amqpMaybeReleaseBuffersOnChannel
    (state : ChannelPools) (channel : UInt16) : ChannelPools :=
  if state.idle = false then
    state
  else if ∃ frame ∈ state.queued, frame.channel = channel then
    state
  else if channel ∈ state.channels then
    { state with
      pools := Function.update state.pools channel
        (poolStep (state.pools channel) .recycle) }
  else
    state

def amqpReleaseBuffers (state : ChannelPools) : ChannelPools :=
  state.channels.foldl amqpMaybeReleaseBuffersOnChannel state

def amqpMaybeReleaseBuffers (state : ChannelPools) : ChannelPools :=
  if state.idle then amqpReleaseBuffers state else state

/-! ## Runs -/

inductive BufferCall where
  | header
  | frame (channel : UInt16)
  | alloc (amount : ℕ)
  | queueFrame
  | returnFrame
  | takeFrame (index : ℕ)
  | release
  | releaseOnChannel (channel : UInt16)
  deriving DecidableEq, Repr

/-- Memory for the frame that is being received. -/
def allocForFrame
    (state : ChannelPools) (frame : HeldFrame) (amount : ℕ) : ChannelPools :=
  let pool := state.pools frame.channel
  let blocks := (amqpPoolAlloc pool.pool amount).1.toList
  { state with
    pools := Function.update state.pools frame.channel
      (poolStep pool (.alloc amount))
    receiving := some
      { frame with held := blocks.map (Prod.mk amount) ++ frame.held } }

/-- A frame begins with bytes of its header.  With the header complete the
channel is known, and blocks are allocated for the payload, for what is decoded
and for the link of the queue.  Then the frame is queued or returned. -/
def bufferStep (state : ChannelPools) : BufferCall → ChannelPools
  | .header => { state with idle := false }
  | .frame channel =>
      { state with
        idle := false
        channels := state.channels.insert channel
        receiving := some ⟨channel, []⟩ }
  | .alloc amount =>
      match state.receiving with
      | none => state
      | some frame => allocForFrame state frame amount
  | .queueFrame =>
      match state.receiving with
      | none => state
      | some frame =>
          { state with
            idle := true
            receiving := none
            queued := state.queued ++ [frame] }
  | .returnFrame => { state with idle := true, receiving := none }
  | .takeFrame index => { state with queued := state.queued.eraseIdx index }
  | .release => amqpMaybeReleaseBuffers state
  | .releaseOnChannel channel =>
      amqpMaybeReleaseBuffersOnChannel state channel

def bufferRun (state : ChannelPools) (calls : List BufferCall) :
    ChannelPools :=
  calls.foldl bufferStep state

/-! ## Queued frames keep their memory -/

/-- Nothing else is put where the data of the frame lies. -/
def HeldFrame.Kept (frame : HeldFrame) (state : ChannelPools) : Prop :=
  ∀ use ∈ frame.held, use ∈ (state.pools frame.channel).inUse

structure BufferInvariant (state : ChannelPools) : Prop where
  pools : ∀ channel, PoolInvariant (state.pools channel)
  receiving : ∀ frame, state.receiving = some frame →
    state.idle = false ∧ frame.Kept state
  queued : ∀ frame ∈ state.queued, frame.Kept state

theorem bufferInvariant_initial (frameMax : ℕ) :
    BufferInvariant (newChannelPools frameMax) := by
  constructor
  · intro channel
    exact poolInvariant_initial frameMax
  · intro frame hframe
    cases hframe
  · intro frame hframe
    cases hframe

theorem poolStep_alloc_inUse (state : PoolState) (amount : ℕ) :
    (poolStep state (.alloc amount)).inUse =
      (amqpPoolAlloc state.pool amount).1.toList.map (Prod.mk amount) ++
        state.inUse := by
  cases hrun : amqpPoolAlloc state.pool amount with
  | mk block pool =>
      cases block with
      | none => simp only [poolStep, hrun, Option.toList_none, List.map_nil,
          List.nil_append]
      | some block => simp only [poolStep, hrun, Option.toList_some,
          List.map_cons, List.map_nil, List.cons_append, List.nil_append]

section Steps

variable {state : ChannelPools}

theorem bufferInvariant_releaseOnChannel
    (hinvariant : BufferInvariant state) (channel : UInt16) :
    BufferInvariant (amqpMaybeReleaseBuffersOnChannel state channel) := by
  unfold amqpMaybeReleaseBuffersOnChannel
  split_ifs with hidle hqueued hmem
  · exact hinvariant
  · exact hinvariant
  · constructor
    · intro other
      by_cases hsame : other = channel
      · rw [hsame]
        simp only [Function.update_self]
        exact poolInvariant_recycle (state.pools channel).pool
      · simp only [Function.update_of_ne hsame]
        exact hinvariant.pools other
    · intro frame hframe
      exact (hidle (hinvariant.receiving frame hframe).1).elim
    · intro frame hframe use huse
      have hother : frame.channel ≠ channel := fun hsame =>
        hqueued ⟨frame, hframe, hsame⟩
      simp only [Function.update_of_ne hother]
      exact hinvariant.queued frame hframe use huse
  · exact hinvariant

theorem bufferInvariant_releaseEach
    (channels : List UInt16) (hinvariant : BufferInvariant state) :
    BufferInvariant
      (channels.foldl amqpMaybeReleaseBuffersOnChannel state) := by
  induction channels generalizing state with
  | nil => exact hinvariant
  | cons channel channels ih =>
      exact ih (bufferInvariant_releaseOnChannel hinvariant channel)

theorem bufferInvariant_release (hinvariant : BufferInvariant state) :
    BufferInvariant (amqpMaybeReleaseBuffers state) := by
  unfold amqpMaybeReleaseBuffers amqpReleaseBuffers
  split_ifs
  · exact bufferInvariant_releaseEach state.channels hinvariant
  · exact hinvariant

theorem kept_alloc
    (frame : HeldFrame) (amount : ℕ) {other : HeldFrame}
    (hkept : other.Kept state) :
    other.Kept (allocForFrame state frame amount) := by
  intro use huse
  have hbefore := hkept use huse
  by_cases hsame : other.channel = frame.channel
  · rw [hsame] at hbefore ⊢
    simp only [allocForFrame, Function.update_self, poolStep_alloc_inUse]
    exact List.mem_append_right _ hbefore
  · simp only [allocForFrame, Function.update_of_ne hsame]
    exact hbefore

theorem bufferInvariant_alloc
    {frame : HeldFrame} (hinvariant : BufferInvariant state)
    (hreceiving : state.receiving = some frame) (amount : ℕ) :
    BufferInvariant (allocForFrame state frame amount) := by
  obtain ⟨hidle, hkept⟩ := hinvariant.receiving frame hreceiving
  constructor
  · intro other
    by_cases hsame : other = frame.channel
    · rw [hsame]
      simp only [allocForFrame, Function.update_self]
      exact poolInvariant_step (hinvariant.pools frame.channel) _
    · simp only [allocForFrame, Function.update_of_ne hsame]
      exact hinvariant.pools other
  · intro next hnext
    simp only [allocForFrame, Option.some.injEq] at hnext
    refine ⟨hidle, ?_⟩
    rw [← hnext]
    intro use huse
    simp only [allocForFrame, Function.update_self, poolStep_alloc_inUse]
    rcases List.mem_append.mp huse with hnew | hold
    · exact List.mem_append_left _ hnew
    · exact List.mem_append_right _ (hkept use hold)
  · intro other hother
    exact kept_alloc frame amount (hinvariant.queued other hother)

end Steps

theorem bufferInvariant_step
    {state : ChannelPools} (hinvariant : BufferInvariant state)
    (call : BufferCall) : BufferInvariant (bufferStep state call) := by
  cases call with
  | header =>
      constructor
      · exact hinvariant.pools
      · intro frame hframe
        exact ⟨rfl, (hinvariant.receiving frame hframe).2⟩
      · exact hinvariant.queued
  | frame channel =>
      constructor
      · exact hinvariant.pools
      · intro frame hframe
        refine ⟨rfl, ?_⟩
        rw [← Option.some.inj hframe]
        intro use huse
        cases huse
      · exact hinvariant.queued
  | alloc amount =>
      cases hreceiving : state.receiving with
      | none =>
          simp only [bufferStep, hreceiving]
          exact hinvariant
      | some frame =>
          simp only [bufferStep, hreceiving]
          exact bufferInvariant_alloc hinvariant hreceiving amount
  | queueFrame =>
      cases hreceiving : state.receiving with
      | none =>
          simp only [bufferStep, hreceiving]
          exact hinvariant
      | some frame =>
          simp only [bufferStep, hreceiving]
          constructor
          · exact hinvariant.pools
          · intro other hother
            cases hother
          · intro other hother
            rcases List.mem_append.mp hother with hold | hnew
            · exact hinvariant.queued other hold
            · rw [List.mem_singleton.mp hnew]
              exact (hinvariant.receiving frame hreceiving).2
  | returnFrame =>
      constructor
      · exact hinvariant.pools
      · intro frame hframe
        cases hframe
      · exact hinvariant.queued
  | takeFrame index =>
      constructor
      · exact hinvariant.pools
      · exact hinvariant.receiving
      · intro frame hframe
        exact hinvariant.queued frame (List.mem_of_mem_eraseIdx hframe)
  | release => exact bufferInvariant_release hinvariant
  | releaseOnChannel channel =>
      exact bufferInvariant_releaseOnChannel hinvariant channel

theorem bufferInvariant_run
    (calls : List BufferCall) {state : ChannelPools}
    (hinvariant : BufferInvariant state) :
    BufferInvariant (bufferRun state calls) := by
  induction calls generalizing state with
  | nil => exact hinvariant
  | cons call calls ih => exact ih (bufferInvariant_step hinvariant call)

/-- Whenever the buffers are released, the frames in the queue and the frame
that is being received keep their memory, and no two blocks in use of a channel
overlap. -/
theorem queued_frames_kept (frameMax : ℕ) (calls : List BufferCall) :
    let state := bufferRun (newChannelPools frameMax) calls
    (∀ frame ∈ state.queued, frame.Kept state) ∧
      (∀ frame, state.receiving = some frame → frame.Kept state) ∧
      ∀ channel, (state.pools channel).inUse.Pairwise
        fun left right => left.2.Apart right.2 := by
  intro state
  have hinvariant : BufferInvariant state :=
    bufferInvariant_run calls (bufferInvariant_initial frameMax)
  refine ⟨hinvariant.queued, ?_, ?_⟩
  · intro frame hframe
    exact (hinvariant.receiving frame hframe).2
  · intro channel
    exact (hinvariant.pools channel).apart

end PoolBlocks
end RabbitWork
