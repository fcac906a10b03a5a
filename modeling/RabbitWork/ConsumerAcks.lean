import RabbitWork.ConsumerRun

/-!
# Which deliveries are acknowledged

The stream is split greedily into complete units.  The loop acknowledges the
units of that split and nothing else, each right after its last fragment, and
what it passes on is the fragments of these units followed by those of the one
delivery it was in the middle of.
-/

namespace RabbitWork

open Reading

/-- As many complete units as the stream starts with, and the rest. -/
structure GreedySplit (results : List WaitResult)
    (units : List DeliveryUnit) (rest : List WaitResult) : Prop where
  split : results = units.flatMap DeliveryUnit.results ++ rest
  maximal : ∀ (unit : DeliveryUnit) (later : List WaitResult),
    rest ≠ unit.results ++ later

theorem StreamShape.append_units
    {rest : List WaitResult} {progress : Progress}
    {stop : Option WaitResult}
    (hshape : StreamShape rest [] progress stop)
    (units : List DeliveryUnit) :
    StreamShape (units.flatMap DeliveryUnit.results ++ rest)
      units progress stop := by
  induction units with
  | nil => exact hshape
  | cons unit units ih =>
      simpa [List.append_assoc] using ih.cons unit

theorem StreamShape.exists_rest
    {results : List WaitResult} {units : List DeliveryUnit}
    {progress : Progress} {stop : Option WaitResult}
    (hshape : StreamShape results units progress stop) :
    ∃ rest,
      results = units.flatMap DeliveryUnit.results ++ rest ∧
        StreamShape rest [] progress stop := by
  cases hshape with
  | waiting =>
      exact ⟨progress.results, rfl, by
        simpa using StreamShape.waiting [] progress⟩
  | broken _ _ stop unread hbreaks =>
      exact ⟨progress.results ++ stop :: unread, rfl, by
        simpa using StreamShape.broken [] progress stop unread hbreaks⟩

theorem StreamShape.ne_unit_append
    {rest : List WaitResult} {progress : Progress}
    {stop : Option WaitResult}
    (hshape : StreamShape rest [] progress stop)
    (unit : DeliveryUnit) (later : List WaitResult) :
    rest ≠ unit.results ++ later := by
  intro hrest
  have hnone : acked (loopTrace recveiveCopy id 0 rest) = [] := by
    rw [loopTrace_of_shape recveiveCopy 0 hshape]
    simp
  have hsome :
      acked (loopTrace recveiveCopy id 0 rest) ≠ [] := by
    obtain ⟨htrace, -⟩ := consumerLoop_unit recveiveCopy 0 unit
    rw [hrest, loopTrace, Reader.trace_append, htrace]
    simp
  exact hsome hnone

theorem exists_greedySplit (results : List WaitResult) :
    ∃ units rest, GreedySplit results units rest := by
  obtain ⟨units, progress, stop, hshape⟩ := exists_streamShape results
  rcases hshape.exists_rest with ⟨rest, hsplit, hrest⟩
  exact ⟨units, rest, hsplit, hrest.ne_unit_append⟩

theorem GreedySplit.exists_shape
    {results : List WaitResult} {units : List DeliveryUnit}
    {rest : List WaitResult} (hgreedy : GreedySplit results units rest) :
    ∃ progress stop,
      StreamShape rest [] progress stop ∧
        StreamShape results units progress stop := by
  obtain ⟨others, progress, stop, hshape⟩ := exists_streamShape rest
  rcases hshape.exists_rest with ⟨last, hsplit, hlast⟩
  cases others with
  | nil =>
      refine ⟨progress, stop, hshape, ?_⟩
      rw [hgreedy.split]
      exact hshape.append_units units
  | cons unit others =>
      refine (hgreedy.maximal unit
        (others.flatMap DeliveryUnit.results ++ last) ?_).elim
      simpa [List.append_assoc] using hsplit

/-- `ReandMqMessage` acknowledges exactly the complete units of its stream, in
order and each between its last fragment and the next read.  Of an
acknowledged unit it passes on the fragments as they come; every other
hand-over is for a fragment of the one unfinished delivery, and none is for a
skipped frame or for the result on which the loop stops. -/
theorem reandMqMessage_acks_complete_units
    (channel : ℕ) (results : List WaitResult) :
    (∃ units rest, GreedySplit results units rest) ∧
      ∀ units rest, GreedySplit results units rest →
        let actions :=
          (reandMqMessage channel).trace (.await .first) results
        acked actions = units.map (fun unit => (channel, unit.deliveryTag)) ∧
          ∃ progress stop,
            StreamShape rest [] progress stop ∧
              actions =
                units.flatMap (fun unit =>
                  unit.toDeliveryHead.results.map .read ++
                    unit.fragments.flatMap (fun frame =>
                      [.read frame.result,
                        .emit (.handOver frame.bodyFragment)]) ++
                    [.emit (.basicAck channel unit.deliveryTag)]) ++
                (progress.actions ++ stop.toList.map .read) ∧
              handedOver (progress.actions ++ stop.toList.map .read) =
                progress.fragments.map BodyFrame.bodyFragment := by
  refine ⟨exists_greedySplit results, ?_⟩
  intro units rest hgreedy actions
  rcases hgreedy.exists_shape with ⟨progress, stop, hrest, hshape⟩
  have hactions := reandMqMessage_trace_of_shape channel hshape
  refine ⟨?_, progress, stop, hrest, hactions, by simp⟩
  have hacked :
      acked actions = acked (units.flatMap (DeliveryUnit.actions channel)) := by
    simp [actions, hactions]
  rw [hacked, acked_flatMap_actions]

end RabbitWork
