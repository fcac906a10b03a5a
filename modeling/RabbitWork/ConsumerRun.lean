import RabbitWork.ConsumerLoop
import RabbitWork.DeliveryUnits

/-!
# The consumer loop on a shaped stream

With exact lengths, every copy of the loop follows the delivery grammar: on a
complete unit it passes on the fragments as they come and acknowledges right
after the last one, on an unfinished unit it has passed on what fits, and a
result that breaks the unit is the last one it reads.
-/

namespace RabbitWork

open Reading

def fragmentActions (fragments : List BodyFrame) :
    List (Action WaitResult LoopEvent) :=
  fragments.flatMap fun frame =>
    [.read frame.result, .emit (.handOver frame.bodyFragment)]

def DeliveryUnit.actions (channel : ℕ) (unit : DeliveryUnit) :
    List (Action WaitResult LoopEvent) :=
  unit.toDeliveryHead.results.map .read ++
    fragmentActions unit.fragments ++
      [.emit (.basicAck channel unit.deliveryTag)]

def Progress.actions : Progress → List (Action WaitResult LoopEvent)
  | .receiving delivery =>
      delivery.toDeliveryHead.results.map .read ++
        fragmentActions delivery.fragments
  | progress => progress.results.map .read

def Progress.point : Progress → ReadPoint
  | .skipping _ => .first
  | .delivered _ _ deliveryTag => .second deliveryTag
  | .receiving delivery =>
      .third delivery.deliveryTag delivery.bodySize
        (bodyLength delivery.fragments)

/-- How a copy of the loop stops on a result that breaks the unfinished
unit. -/
def LoopCopy.exit (copy : LoopCopy) : Progress → WaitResult → LoopExit
  | _, .failed _ => .leftLoop
  | .skipping _, .frame _ => .leftLoop
  | .delivered _ _ _, .frame _ => copy.noHeader.exit
  | .receiving _, .frame ⟨_, .body _⟩ => copy.overlong.exit
  | .receiving _, .frame _ => copy.noBody.exit

theorem LoopCopy.exit_eq_exitAt
    (copy : LoopCopy) (progress : Progress) (result : WaitResult) :
    copy.exit progress result = copy.exitAt progress.point result := by
  cases result with
  | failed code => cases progress <;> rfl
  | frame frame =>
      cases progress with
      | skipping | delivered => rfl
      | receiving delivery =>
          obtain ⟨frameChannel, payload⟩ := frame
          cases payload <;> rfl

theorem Progress.point_live (progress : Progress) : progress.point.Live := by
  cases progress with
  | skipping | delivered => trivial
  | receiving delivery => exact delivery.below

theorem Progress.Breaks.halts
    {progress : Progress} {result : WaitResult}
    (hbreaks : progress.Breaks result) :
    progress.point.Halts id result := by
  cases result with
  | failed code => exact .inl ⟨code, rfl⟩
  | frame frame =>
      right
      cases progress <;> exact hbreaks

section Projections

variable (channel : ℕ) (fragments : List BodyFrame) (unit : DeliveryUnit)
  (progress : Progress)

@[simp] theorem fragmentActions_nil : fragmentActions [] = [] := rfl

@[simp] theorem fragmentActions_cons (frame : BodyFrame) :
    fragmentActions (frame :: fragments) =
      .read frame.result :: .emit (.handOver frame.bodyFragment) ::
        fragmentActions fragments := rfl

@[simp] theorem handedOver_fragmentActions :
    handedOver (fragmentActions fragments) =
      fragments.map BodyFrame.bodyFragment := by
  induction fragments with
  | nil => rfl
  | cons frame fragments ih => simp [ih]

@[simp] theorem acked_fragmentActions :
    acked (fragmentActions fragments) = [] := by
  induction fragments with
  | nil => rfl
  | cons frame fragments ih => simp [ih]

@[simp] theorem DeliveryUnit.handedOver_actions :
    handedOver (unit.actions channel) =
      unit.fragments.map BodyFrame.bodyFragment := by
  simp [DeliveryUnit.actions]

@[simp] theorem DeliveryUnit.acked_actions :
    acked (unit.actions channel) = [(channel, unit.deliveryTag)] := by
  simp [DeliveryUnit.actions]

@[simp] theorem Progress.handedOver_actions :
    handedOver progress.actions =
      progress.fragments.map BodyFrame.bodyFragment := by
  cases progress <;> simp [Progress.actions, Progress.fragments]

@[simp] theorem Progress.acked_actions : acked progress.actions = [] := by
  cases progress <;> simp [Progress.actions]

theorem acked_flatMap_actions (units : List DeliveryUnit) :
    acked (units.flatMap (DeliveryUnit.actions channel)) =
      units.map fun unit => (channel, unit.deliveryTag) := by
  induction units with
  | nil => rfl
  | cons unit units ih => simp [ih]

theorem handedOver_flatMap_actions (units : List DeliveryUnit) :
    handedOver (units.flatMap (DeliveryUnit.actions channel)) =
      units.flatMap fun unit =>
        unit.fragments.map BodyFrame.bodyFragment := by
  induction units with
  | nil => rfl
  | cons unit units ih => simp [ih]

end Projections

section Head

variable (copy : LoopCopy) (toSizeT : ℕ → ℕ) (channel : ℕ)

theorem consumerLoop_step (point : ReadPoint) (result : WaitResult) :
    (consumerLoop copy toSizeT channel).step point result =
      consumerStep copy toSizeT channel point result := rfl

theorem consumerStep_skipped (frame : SkippedFrame) :
    consumerStep copy toSizeT channel .first (.frame frame.val) =
      ([], .await .first) := by
  obtain ⟨⟨frameChannel, payload⟩, hskipped⟩ := frame
  cases payload with
  | basicDeliver deliveryTag => simp [AmqpFrame.isDeliver] at hskipped
  | otherMethod | header | body | otherType => rfl

theorem consumerLoop_skipped (skipped : List SkippedFrame) :
    (consumerLoop copy toSizeT channel).trace (.await .first)
        (skippedResults skipped) = (skippedResults skipped).map .read ∧
      (consumerLoop copy toSizeT channel).final (.await .first)
        (skippedResults skipped) = .await .first := by
  induction skipped with
  | nil => simp [skippedResults]
  | cons frame skipped ih =>
      have hresults :
          skippedResults (frame :: skipped) =
            .frame frame.val :: skippedResults skipped := rfl
      rw [hresults]
      simp only [Reader.trace_cons, Reader.final_cons, consumerLoop_step,
        consumerStep_skipped, List.map_nil, List.nil_append, List.map_cons]
      exact ⟨by rw [ih.1], ih.2⟩

theorem consumerLoop_delivered
    (skipped : List SkippedFrame) (deliverChannel deliveryTag : ℕ) :
    let results :=
      skippedResults skipped ++ [deliverResult deliverChannel deliveryTag]
    (consumerLoop copy toSizeT channel).trace (.await .first) results =
        results.map .read ∧
      (consumerLoop copy toSizeT channel).final (.await .first) results =
        .await (.second deliveryTag) := by
  obtain ⟨htrace, hfinal⟩ := consumerLoop_skipped copy toSizeT channel skipped
  intro results
  constructor
  · simp only [results, Reader.trace_append, htrace, hfinal, List.map_append]
    rfl
  · simp only [results, Reader.final_append, hfinal]
    rfl

theorem consumerLoop_head (head : DeliveryHead) :
    let test :=
      bodyLoop channel head.deliveryTag (toSizeT head.bodySize) 0
    (consumerLoop copy toSizeT channel).trace (.await .first) head.results =
        head.results.map .read ++ test.1.map .emit ∧
      (consumerLoop copy toSizeT channel).final (.await .first) head.results =
        test.2 := by
  obtain ⟨htrace, hfinal⟩ :=
    consumerLoop_delivered copy toSizeT channel head.skipped
      head.deliverChannel head.deliveryTag
  intro test
  have hresults :
      head.results =
        (skippedResults head.skipped ++
          [deliverResult head.deliverChannel head.deliveryTag]) ++
            [headerResult head.headerChannel head.bodySize] := by
    simp [DeliveryHead.results]
  have hstep :
      consumerStep copy toSizeT channel (.second head.deliveryTag)
        (headerResult head.headerChannel head.bodySize) = test := rfl
  constructor
  · rw [hresults, Reader.trace_append, htrace, hfinal]
    simp only [Reader.trace_cons, consumerLoop_step, hstep,
      Reader.trace_nil, List.append_nil, List.map_append]
    simp
  · rw [hresults, Reader.final_append, hfinal]
    simp only [Reader.final_cons, consumerLoop_step, hstep,
      Reader.final_nil]

end Head

section ExactLengths

variable (copy : LoopCopy) (channel : ℕ)

/-- The inner loop on fragments that fit.  The induction is on the fragments
still to come; `bodyReceived` is the length of those already read. -/
theorem bodyLoop_fragments
    (deliveryTag bodySize bodyReceived : ℕ) (fragments : List BodyFrame)
    (hbelow : ∀ k < fragments.length,
      bodyReceived + bodyLength (fragments.take k) < bodySize)
    (hfits : bodyReceived + bodyLength fragments ≤ bodySize) :
    let before := bodyLoop channel deliveryTag bodySize bodyReceived
    let after := bodyLoop channel deliveryTag bodySize
      (bodyReceived + bodyLength fragments)
    before.1.map .emit ++
        (consumerLoop copy id channel).trace before.2
          (fragments.map BodyFrame.result) =
        fragmentActions fragments ++ after.1.map .emit ∧
      (consumerLoop copy id channel).final before.2
        (fragments.map BodyFrame.result) = after.2 := by
  induction fragments generalizing bodyReceived with
  | nil => simp
  | cons frame fragments ih =>
      intro before after
      rw [bodyLength_cons] at hfits
      have hopen : bodyReceived < bodySize := by
        simpa using hbelow 0 (by simp)
      have hbefore :
          before = ([], .await (.third deliveryTag bodySize bodyReceived)) := by
        simp only [before, bodyLoop_of_lt channel deliveryTag hopen]
      have hnotOver :
          ¬ bodySize < id (bodyReceived + frame.bodyFragment.length) := by
        simp only [id_eq]
        omega
      have hstep :
          consumerStep copy id channel
              (.third deliveryTag bodySize bodyReceived) frame.result =
            (.handOver frame.bodyFragment ::
              (bodyLoop channel deliveryTag bodySize
                (bodyReceived + frame.bodyFragment.length)).1,
              (bodyLoop channel deliveryTag bodySize
                (bodyReceived + frame.bodyFragment.length)).2) :=
        consumerStep_fits channel deliveryTag copy hnotOver frame.channel
      have hrest := ih (bodyReceived + frame.bodyFragment.length)
        (by
          intro k hk
          have h := hbelow (k + 1) (by simpa using hk)
          simpa [Nat.add_assoc] using h)
        (by omega)
      rw [hbefore]
      simp only [List.map_cons, Reader.trace_cons, Reader.final_cons,
        consumerLoop_step, hstep, fragmentActions_cons, List.map_nil,
        List.nil_append, List.cons_append]
      have hafter :
          after =
            bodyLoop channel deliveryTag bodySize
              (bodyReceived + frame.bodyFragment.length +
                bodyLength fragments) := by
        simp [after, Nat.add_assoc]
      rw [hafter]
      exact ⟨by rw [hrest.1], hrest.2⟩

theorem bodyLength_take_lt_of_lt
    {fragments : List BodyFrame} {bodySize : ℕ}
    (hbelow : bodyLength fragments < bodySize) (k : ℕ) :
    bodyLength (fragments.take k) < bodySize :=
  (bodyLength_take_le fragments k).trans_lt hbelow

/-- The loop serves a complete unit and is back at its first read. -/
theorem consumerLoop_unit (unit : DeliveryUnit) :
    (consumerLoop copy id channel).trace (.await .first) unit.results =
        unit.actions channel ∧
      (consumerLoop copy id channel).final (.await .first) unit.results =
        .await .first := by
  obtain ⟨htrace, hfinal⟩ :=
    consumerLoop_head copy id channel unit.toDeliveryHead
  simp only [id_eq] at htrace hfinal
  have hbody :=
    bodyLoop_fragments copy channel unit.deliveryTag unit.bodySize 0
      unit.fragments (by simpa using unit.below)
      (by simpa using unit.complete.le)
  have hdone :
      bodyLoop channel unit.deliveryTag unit.bodySize
          (0 + bodyLength unit.fragments) =
        ([.basicAck channel unit.deliveryTag], .await .first) := by
    simp [bodyLoop, afterBody, unit.complete]
  simp only [hdone] at hbody
  constructor
  · rw [DeliveryUnit.results, Reader.trace_append, htrace, hfinal,
      List.append_assoc, hbody.1]
    simp [DeliveryUnit.actions]
  · rw [DeliveryUnit.results, Reader.final_append, hfinal, hbody.2]

theorem consumerLoop_units (units : List DeliveryUnit) :
    (consumerLoop copy id channel).trace (.await .first)
        (units.flatMap DeliveryUnit.results) =
          units.flatMap (DeliveryUnit.actions channel) ∧
      (consumerLoop copy id channel).final (.await .first)
        (units.flatMap DeliveryUnit.results) = .await .first := by
  induction units with
  | nil => simp
  | cons unit units ih =>
      obtain ⟨htrace, hfinal⟩ := consumerLoop_unit copy channel unit
      simp only [List.flatMap_cons, Reader.trace_append, Reader.final_append,
        htrace, hfinal]
      exact ⟨by rw [ih.1], ih.2⟩

theorem consumerLoop_progress (progress : Progress) :
    (consumerLoop copy id channel).trace (.await .first) progress.results =
        progress.actions ∧
      (consumerLoop copy id channel).final (.await .first)
        progress.results = .await progress.point := by
  cases progress with
  | skipping skipped => exact consumerLoop_skipped copy id channel skipped
  | delivered skipped deliverChannel deliveryTag =>
      exact consumerLoop_delivered copy id channel skipped deliverChannel
        deliveryTag
  | receiving delivery =>
      obtain ⟨htrace, hfinal⟩ :=
        consumerLoop_head copy id channel delivery.toDeliveryHead
      simp only [id_eq] at htrace hfinal
      have hbody :=
        bodyLoop_fragments copy channel delivery.deliveryTag
          delivery.bodySize 0 delivery.fragments
          (by
            intro k _
            simpa using bodyLength_take_lt_of_lt delivery.below k)
          (by simpa using delivery.below.le)
      have hopen :
          bodyLoop channel delivery.deliveryTag delivery.bodySize
              (0 + bodyLength delivery.fragments) =
            ([], .await (Progress.receiving delivery).point) := by
        simp [bodyLoop, Progress.point, delivery.below]
      simp only [hopen] at hbody
      constructor
      · rw [Progress.results, Reader.trace_append, htrace, hfinal,
          List.append_assoc, hbody.1]
        simp [Progress.actions]
      · rw [Progress.results, Reader.final_append, hfinal, hbody.2]

theorem consumerStep_breaks
    {progress : Progress} {stop : WaitResult}
    (hbreaks : progress.Breaks stop) :
    consumerStep copy id channel progress.point stop =
      ([], .stopped (copy.exit progress stop)) := by
  rw [copy.exit_eq_exitAt progress stop]
  exact consumerStep_halts copy id channel progress.point_live hbreaks.halts

/-- The whole run of a copy of the loop on a stream of known shape. -/
theorem loopTrace_of_shape
    {results : List WaitResult} {units : List DeliveryUnit}
    {progress : Progress} {stop : Option WaitResult}
    (hshape : StreamShape results units progress stop) :
    loopTrace copy id channel results =
      units.flatMap (DeliveryUnit.actions channel) ++
        (progress.actions ++ stop.toList.map .read) := by
  obtain ⟨hunits, hafter⟩ := consumerLoop_units copy channel units
  obtain ⟨hprogress, hpoint⟩ := consumerLoop_progress copy channel progress
  unfold loopTrace
  cases hshape with
  | waiting =>
      simp [Reader.trace_append, hunits, hafter, hprogress]
  | broken _ _ stop unread hbreaks =>
      rw [Reader.trace_append, hunits, hafter, Reader.trace_append,
        hprogress, hpoint, Reader.trace_cons, consumerLoop_step,
        consumerStep_breaks copy channel hbreaks]
      simp

theorem reandMqMessage_trace_of_shape
    {results : List WaitResult} {units : List DeliveryUnit}
    {progress : Progress} {stop : Option WaitResult}
    (hshape : StreamShape results units progress stop) :
    (reandMqMessage channel).trace (.await .first) results =
      units.flatMap (DeliveryUnit.actions channel) ++
        (progress.actions ++ stop.toList.map .read) :=
  loopTrace_of_shape recveiveCopy channel hshape

theorem loopFinal_of_shape
    {results : List WaitResult} {units : List DeliveryUnit}
    {progress : Progress} {stop : Option WaitResult}
    (hshape : StreamShape results units progress stop) :
    (consumerLoop copy id channel).final (.await .first) results =
      stop.elim (.await progress.point)
        (fun stop => .stopped (copy.exit progress stop)) := by
  obtain ⟨-, hafter⟩ := consumerLoop_units copy channel units
  obtain ⟨-, hpoint⟩ := consumerLoop_progress copy channel progress
  cases hshape with
  | waiting => simp [Reader.final_append, hafter, hpoint]
  | broken _ _ stop unread hbreaks =>
      simp only [Reader.final_append, hafter, hpoint, Reader.final_cons,
        consumerLoop_step, consumerStep_breaks copy channel hbreaks,
        Reader.final_stopped, Option.elim_some]

end ExactLengths

end RabbitWork
