import RabbitWork.ConsumerRun

/-!
# Frames of other channels

`amqp_simple_wait_frame` returns the next frame of any channel, and
`ReandMqMessage` does not compare `frame.channel` with `n_Channelid`: it serves
the frames of all channels as one stream and acknowledges on its own channel.
What it does for its own channel is unaffected by frames of other channels
that arrive between its messages and do not start a delivery.
-/

namespace RabbitWork

open Reading

def WaitResult.onChannel (channelOf : AmqpFrame → ℕ) : WaitResult → WaitResult
  | .failed code => .failed code
  | .frame carried => .frame { carried with channel := channelOf carried }

def WaitResult.isOwn (channel : ℕ) : WaitResult → Bool
  | .failed _ => true
  | .frame carried => carried.channel == channel

def ownResults (channel : ℕ) (results : List WaitResult) : List WaitResult :=
  results.filter (WaitResult.isOwn channel)

/-- The handler calls and acknowledgements are those of the loop on the frames
of its own channel. -/
def ServesOwnChannel (channel : ℕ) (results : List WaitResult) : Prop :=
  outputs ((reandMqMessage channel).trace (.await .first) results) =
    outputs
      ((reandMqMessage channel).trace (.await .first)
        (ownResults channel results))

/-- Every frame of another channel comes after a result that has ended the
loop, or between two messages of the own channel and is no Basic.Deliver. -/
def ForeignBetweenMessages (channel : ℕ) (results : List WaitResult) : Prop :=
  ∀ before frame after,
    results = before ++ .frame frame :: after →
      frame.channel ≠ channel →
        ∃ units progress stop,
          StreamShape (ownResults channel before) units progress stop ∧
            (stop.isSome ∨
              (frame.isDeliver = false ∧
                ∃ skipped, progress = .skipping skipped))

@[simp] theorem ownResults_append
    (channel : ℕ) (left right : List WaitResult) :
    ownResults channel (left ++ right) =
      ownResults channel left ++ ownResults channel right := by
  simp [ownResults]

theorem mem_ownResults
    {channel : ℕ} {results : List WaitResult} {frame : AmqpFrame}
    (hmem : .frame frame ∈ ownResults channel results) :
    .frame frame ∈ results ∧ frame.channel = channel := by
  rcases List.mem_filter.mp hmem with ⟨hresults, hown⟩
  exact ⟨hresults, by simpa [WaitResult.isOwn] using hown⟩

theorem consumerStep_onChannel
    (copy : LoopCopy) (toSizeT : ℕ → ℕ) (channel : ℕ)
    (channelOf : AmqpFrame → ℕ) (point : ReadPoint) (result : WaitResult) :
    consumerStep copy toSizeT channel point (result.onChannel channelOf) =
      consumerStep copy toSizeT channel point result := by
  cases result with
  | failed code => rfl
  | frame frame => cases point <;> rfl

/-! ## Where acknowledged tags and passed fragments come from -/

theorem mem_results_of_acked
    {copy : LoopCopy} {channel : ℕ} {results : List WaitResult}
    {ackChannel deliveryTag : ℕ}
    (hacked :
      (ackChannel, deliveryTag) ∈ acked (loopTrace copy id channel results)) :
    ackChannel = channel ∧
      ∃ deliverChannel, deliverResult deliverChannel deliveryTag ∈ results := by
  obtain ⟨units, progress, stop, hshape⟩ := exists_streamShape results
  rw [loopTrace_of_shape copy channel hshape] at hacked
  simp only [acked_append, acked_flatMap_actions, Progress.acked_actions,
    acked_map_read, List.append_nil, List.mem_map, Prod.mk.injEq] at hacked
  rcases hacked with ⟨unit, hunit, hchannel, htag⟩
  refine ⟨hchannel.symm, unit.deliverChannel, ?_⟩
  have hmem :
      deliverResult unit.deliverChannel deliveryTag ∈
        units.flatMap DeliveryUnit.results := by
    apply List.mem_flatMap.mpr
    refine ⟨unit, hunit, ?_⟩
    simp [DeliveryUnit.results, DeliveryHead.results, htag]
  cases hshape <;> exact List.mem_append_left _ hmem

theorem mem_results_of_handedOver
    {copy : LoopCopy} {channel : ℕ} {results : List WaitResult}
    {bodyFragment : Bytes}
    (hhanded :
      bodyFragment ∈ handedOver (loopTrace copy id channel results)) :
    ∃ frame : BodyFrame,
      frame.bodyFragment = bodyFragment ∧ frame.result ∈ results := by
  obtain ⟨units, progress, stop, hshape⟩ := exists_streamShape results
  rw [loopTrace_of_shape copy channel hshape] at hhanded
  simp only [handedOver_append, handedOver_flatMap_actions,
    Progress.handedOver_actions, handedOver_map_read, List.append_nil,
    List.mem_append, List.mem_flatMap, List.mem_map] at hhanded
  rcases hhanded with ⟨unit, hunit, frame, hframe, hbytes⟩ |
    ⟨frame, hframe, hbytes⟩
  · refine ⟨frame, hbytes, ?_⟩
    have hmem :
        frame.result ∈ units.flatMap DeliveryUnit.results := by
      apply List.mem_flatMap.mpr
      refine ⟨unit, hunit, List.mem_append_right _ ?_⟩
      exact List.mem_map_of_mem hframe
    cases hshape <;> exact List.mem_append_left _ hmem
  · refine ⟨frame, hbytes, ?_⟩
    have hmem : frame.result ∈ progress.results := by
      cases progress with
      | skipping | delivered => simp [Progress.fragments] at hframe
      | receiving delivery =>
          exact List.mem_append_right _ (List.mem_map_of_mem hframe)
    cases hshape with
    | waiting => exact List.mem_append_right _ hmem
    | broken =>
        exact List.mem_append_right _ (List.mem_append_left _ hmem)

/-! ## The projected run -/

theorem ForeignBetweenMessages.of_append
    {channel : ℕ} {left right : List WaitResult}
    (hforeign : ForeignBetweenMessages channel (left ++ right)) :
    ForeignBetweenMessages channel left := by
  intro before frame after hleft
  exact hforeign before frame (after ++ right) (by simp [hleft])

/-- A foreign frame between messages is read in vain or not at all. -/
theorem consumerStep_foreign
    {channel : ℕ} {before : List WaitResult} {frame : AmqpFrame}
    {units : List DeliveryUnit} {progress : Progress}
    {stop : Option WaitResult}
    (hshape : StreamShape (ownResults channel before) units progress stop)
    (hbetween :
      stop.isSome ∨
        (frame.isDeliver = false ∧ ∃ skipped, progress = .skipping skipped)) :
    let next :=
      (reandMqMessage channel).final (.await .first) (ownResults channel before)
    outputs ((reandMqMessage channel).trace next [.frame frame]) = [] ∧
      (reandMqMessage channel).final next [.frame frame] = next := by
  have hfinal := loopFinal_of_shape recveiveCopy channel hshape
  intro next
  cases stop with
  | some stop =>
      have hnext : next = .stopped (recveiveCopy.exit progress stop) := hfinal
      rw [hnext]
      simp
  | none =>
      rcases hbetween with hstopped | ⟨hskipped, skipped, hprogress⟩
      · cases hstopped
      · have hnext : next = .await .first := by
          rw [Option.elim_none, hprogress] at hfinal
          exact hfinal
        have hstep :
            (reandMqMessage channel).step .first (.frame frame) =
              ([], .await .first) :=
          consumerStep_skipped recveiveCopy id channel ⟨frame, hskipped⟩
        rw [hnext, Reader.trace_cons, Reader.final_cons, hstep]
        simp

/-- The induction is on the end of the stream: both runs are then in the same
place before the last result. -/
theorem run_eq_run_ownResults
    (channel : ℕ) (results : List WaitResult)
    (hforeign : ForeignBetweenMessages channel results) :
    ServesOwnChannel channel results ∧
      (reandMqMessage channel).final (.await .first) results =
        (reandMqMessage channel).final (.await .first)
          (ownResults channel results) := by
  induction results using List.reverseRecOn with
  | nil => exact ⟨rfl, rfl⟩
  | append_singleton before result ih =>
      obtain ⟨houtputs, hfinal⟩ := ih hforeign.of_append
      unfold ServesOwnChannel at houtputs ⊢
      cases hown : result.isOwn channel with
      | true =>
          have hproject :
              ownResults channel (before ++ [result]) =
                ownResults channel before ++ [result] := by
            simp [ownResults, hown]
          rw [hproject]
          constructor
          · simp only [Reader.trace_append, outputs_append, houtputs, hfinal]
          · simp only [Reader.final_append, hfinal]
      | false =>
          have hproject :
              ownResults channel (before ++ [result]) =
                ownResults channel before := by
            simp [ownResults, hown]
          cases result with
          | failed code => simp [WaitResult.isOwn] at hown
          | frame frame =>
              have hchannel : frame.channel ≠ channel := by
                simpa [WaitResult.isOwn] using hown
              obtain ⟨units, progress, stop, hshape, hbetween⟩ :=
                hforeign before frame [] rfl hchannel
              obtain ⟨hnone, hstay⟩ := consumerStep_foreign hshape hbetween
              rw [hproject]
              constructor
              · simp only [Reader.trace_append, outputs_append, houtputs,
                  hfinal, hnone, List.append_nil]
              · simp only [Reader.final_append, hfinal, hstay]

/-- `ReandMqMessage` does not look at channels: its calls and acknowledgements
are those of the same payloads on any channels.  They are those of its own
channel alone when the frames of other channels come between its messages and
start no delivery; then no tag and no fragment of another channel is used. -/
theorem reandMqMessage_channels
    (channel : ℕ) (results : List WaitResult) :
    (∀ channelOf : AmqpFrame → ℕ,
      outputs
          ((reandMqMessage channel).trace (.await .first)
            (results.map (WaitResult.onChannel channelOf))) =
        outputs
          ((reandMqMessage channel).trace (.await .first) results)) ∧
      (ForeignBetweenMessages channel results →
        let actions :=
          (reandMqMessage channel).trace (.await .first) results
        ServesOwnChannel channel results ∧
          (∀ ack ∈ acked actions,
            ack.1 = channel ∧ deliverResult channel ack.2 ∈ results) ∧
          ∀ bodyFragment ∈ handedOver actions,
            .frame ⟨channel, .body bodyFragment⟩ ∈ results) := by
  constructor
  · intro channelOf
    exact (reandMqMessage channel).outputs_trace_map
      (fun point result =>
        consumerStep_onChannel recveiveCopy id channel channelOf point result)
      (.await .first) results
  · intro hforeign actions
    obtain ⟨hserves, -⟩ := run_eq_run_ownResults channel results hforeign
    refine ⟨hserves, ?_, ?_⟩
    · rintro ⟨ackChannel, deliveryTag⟩ hack
      have hown :
          (ackChannel, deliveryTag) ∈
            acked
              (loopTrace recveiveCopy id channel
                (ownResults channel results)) := by
        unfold acked at hack ⊢
        rw [hserves] at hack
        exact hack
      obtain ⟨hchannel, deliverChannel, hmem⟩ := mem_results_of_acked hown
      obtain ⟨hresults, hdeliver⟩ := mem_ownResults hmem
      simp only at hdeliver
      subst hdeliver
      exact ⟨hchannel, hresults⟩
    · intro bodyFragment hhanded
      have hown :
          bodyFragment ∈
            handedOver
              (loopTrace recveiveCopy id channel
                (ownResults channel results)) := by
        unfold handedOver at hhanded ⊢
        rw [hserves] at hhanded
        exact hhanded
      obtain ⟨frame, hbytes, hmem⟩ := mem_results_of_handedOver hown
      obtain ⟨hresults, hbody⟩ := mem_ownResults hmem
      simp only at hbody
      rw [← hbytes, ← hbody]
      exact hresults

def foreignDelivery : List WaitResult := [deliverResult 2 5, headerResult 2 0]

theorem not_servesOwnChannel_foreignDelivery :
    ¬ ServesOwnChannel 1 foreignDelivery ∧
      acked
          ((reandMqMessage 1).trace (.await .first) foreignDelivery) =
        [(1, 5)] := by
  unfold ServesOwnChannel
  decide

end RabbitWork
