import RabbitWork.ConsumerRun
import RabbitWork.MqHandler
import RabbitWork.WrappingCounter

/-!
# The body size in machine arithmetic

`ReandMqMessage` keeps `body_target` and `body_received` in `size_t`, so the
64-bit size of the header is narrowed and the running sum wraps around.  The
library's own `amqp_read_message` refuses a size above `SIZE_MAX`; this loop
takes it as it comes.  The length of a fragment is converted once more, to the
`int` of `HandlerMqMessage`, which crashes for a length that is none.  What the
loop does is compared here with the exact count of the bytes it has read.
-/

namespace RabbitWork

open Counting Reading

/-- Conversion to a `size_t` of `w` bits. -/
def sizeT (w n : ℕ) : ℕ := n % 2 ^ w

/-- The code from one read to the next on a machine with a `size_t` of `w` bits.
Of its outputs only the first is a call of the handler, and nothing follows one
that does not come back. -/
def machineStep (w channel : ℕ) (point : ReadPoint) (result : WaitResult) :
    LoopStep :=
  let step := consumerStep recveiveCopy (sizeT w) channel point result
  match step.1 with
  | .handOver bodyFragment :: _ =>
      if HandlerReturns bodyFragment.length then
        step
      else
        ([.handOver bodyFragment], .stopped .crashed)
  | _ => step

/-- `ReandMqMessage` of `c/recveive` on such a machine. -/
def machineLoop (w channel : ℕ) :
    Reader ReadPoint WaitResult LoopEvent LoopExit where
  step := machineStep w channel

/-- A message as far as its body has been read. -/
def DeliveryHead.resultsWith
    (head : DeliveryHead) (read : List BodyFrame) : List WaitResult :=
  head.results ++ read.map BodyFrame.result

/-- The body is short of its announced size before each fragment. -/
def StaysBelow (bodySize : ℕ) (read : List BodyFrame) : Prop :=
  ∀ k < read.length, bodyLength (read.take k) < bodySize

section Accounting

variable (w channel : ℕ) (head : DeliveryHead)

/-- The acknowledgement follows the last of the fragments, before any other
read. -/
def AckedAfter (read : List BodyFrame) : Prop :=
  ((machineLoop w channel).trace (.await .first)
      (head.resultsWith read)).getLast? =
    some (.emit (.basicAck channel head.deliveryTag))

/-- The last of the fragments is read and stops the loop. -/
structure OverlongAfter (read : List BodyFrame) : Prop where
  allRead :
    reads ((machineLoop w channel).trace (.await .first)
      (head.resultsWith read)) = head.resultsWith read
  stopped :
    (machineLoop w channel).final (.await .first) (head.resultsWith read) =
      .stopped .leftLoop

/-- The message is acknowledged where its exact length reaches the announced
size, and given up where it first exceeds it. -/
structure SizesExact (fragments : List BodyFrame) : Prop where
  acked : ∀ read, read <+: fragments →
    (AckedAfter w channel head read ↔
      bodyLength read = head.bodySize ∧ StaysBelow head.bodySize read)
  overlong : ∀ read, read <+: fragments →
    (OverlongAfter w channel head read ↔
      head.bodySize < bodyLength read ∧ StaysBelow head.bodySize read)

end Accounting

/-- The handler comes back for every fragment it is called for: for all but
those which take the wrapped sum past the wrapped size. -/
def Handled (w bodySize : ℕ) (read : List BodyFrame) : Prop :=
  ∀ before frame, before ++ [frame] <+: read →
    HandlerReturns frame.bodyFragment.length ∨
      bodySize % 2 ^ w < bodyLength (before ++ [frame]) % 2 ^ w

/-- A size that is a value of `size_t` is only missed by a sum that wraps
around.  A larger one is narrowed to its remainder: each sum short of it must
leave a smaller remainder, and the sum that reaches it must be in the same
block of `2 ^ w`.  Neither matters once the handler has not come back, but then
the body must stay short of its size. -/
def SizesFit (w bodySize : ℕ) (fragments : List BodyFrame) : Prop :=
  ∀ read, read <+: fragments → StaysBelow bodySize read →
    (Handled w bodySize read →
      if bodySize < 2 ^ w then
        bodyLength read < 2 ^ w
      else
        (bodyLength read < bodySize →
          bodyLength read % 2 ^ w < bodySize % 2 ^ w) ∧
        (bodySize ≤ bodyLength read →
          bodyLength read / 2 ^ w = bodySize / 2 ^ w)) ∧
    (¬ Handled w bodySize read → bodyLength read < bodySize)

def BodyFrame.len (frame : BodyFrame) : ℕ := frame.bodyFragment.length

theorem sum_map_len (fragments : List BodyFrame) :
    (fragments.map BodyFrame.len).sum = bodyLength fragments := rfl

/-! ## The loop as long as the handler comes back -/

section MachineLoop

variable (w channel : ℕ)

theorem machineLoop_step (point : ReadPoint) (result : WaitResult) :
    (machineLoop w channel).step point result =
      machineStep w channel point result := rfl

theorem machineStep_eq
    {point : ReadPoint} {result : WaitResult}
    (hreturns : ∀ bodyFragment,
      .handOver bodyFragment ∈
          (consumerStep recveiveCopy (sizeT w) channel point result).1 →
        HandlerReturns bodyFragment.length) :
    machineStep w channel point result =
      consumerStep recveiveCopy (sizeT w) channel point result := by
  unfold machineStep
  cases hstep : consumerStep recveiveCopy (sizeT w) channel point result with
  | mk outputs next =>
      rw [hstep] at hreturns
      cases outputs with
      | nil => rfl
      | cons output outputs =>
          cases output with
          | handOver bodyFragment =>
              exact if_pos (hreturns bodyFragment List.mem_cons_self)
          | basicAck => rfl

/-- The crash is the only difference to `consumerLoop`. -/
theorem machineLoop_eq
    (next : Next ReadPoint LoopExit) (results : List WaitResult)
    (hreturns : ∀ bodyFragment ∈
      handedOver
        ((consumerLoop recveiveCopy (sizeT w) channel).trace next results),
      HandlerReturns bodyFragment.length) :
    (machineLoop w channel).trace next results =
        (consumerLoop recveiveCopy (sizeT w) channel).trace next results ∧
      (machineLoop w channel).final next results =
        (consumerLoop recveiveCopy (sizeT w) channel).final next results := by
  induction results generalizing next with
  | nil => simp
  | cons result results ih =>
      cases next with
      | stopped reason => simp
      | await point =>
          simp only [Reader.trace_cons, consumerLoop_step,
            handedOver_cons_read, handedOver_append,
            List.mem_append] at hreturns
          have hstep :
              machineStep w channel point result =
                consumerStep recveiveCopy (sizeT w) channel point result := by
            apply machineStep_eq
            intro bodyFragment houtput
            apply hreturns bodyFragment
            left
            rw [handedOver, outputs_map_emit, List.mem_filterMap]
            exact ⟨.handOver bodyFragment, houtput, rfl⟩
          obtain ⟨htrace, hfinal⟩ :=
            ih _ fun bodyFragment hmem => hreturns bodyFragment (.inr hmem)
          simp only [Reader.trace_cons, Reader.final_cons, machineLoop_step,
            consumerLoop_step, hstep]
          exact ⟨by rw [htrace], hfinal⟩

end MachineLoop

/-! ## The inner loop as a counter -/

section InnerLoop

variable (w channel deliveryTag bodySize : ℕ)

def BodyFrame.Breaks (frame : BodyFrame) : Prop :=
  ¬ HandlerReturns frame.bodyFragment.length

instance : DecidablePred BodyFrame.Breaks :=
  fun _ => inferInstanceAs (Decidable (¬ _))

/-- What the inner loop counts with. -/
def bodyCounter : Counter (WithBot ℕ) BodyFrame :=
  .wrapping BodyFrame.len BodyFrame.Breaks (2 ^ w) bodySize

/-- The test of the inner loop, with no count after a crash. -/
def innerTest (bodyReceived : WithBot ℕ) : LoopStep :=
  WithBot.recBotCoe ([], .stopped .crashed)
    (bodyLoop channel deliveryTag (sizeT w bodySize)) bodyReceived

theorem bodyLoop_handedOver (bodyTarget bodyReceived : ℕ) :
    handedOver
        ((bodyLoop channel deliveryTag bodyTarget bodyReceived).1.map .emit) =
      [] := by
  unfold bodyLoop afterBody
  split_ifs <;> rfl

@[simp] theorem innerTest_bot :
    innerTest w channel deliveryTag bodySize ⊥ = ([], .stopped .crashed) := rfl

@[simp] theorem innerTest_coe (bodyReceived : ℕ) :
    innerTest w channel deliveryTag bodySize (.some bodyReceived) =
      bodyLoop channel deliveryTag (sizeT w bodySize) bodyReceived := rfl

/-- A fragment is passed on unless it is too long, and the loop goes on as its
test says. -/
theorem machineStep_counted (bodyReceived : ℕ) (frame : BodyFrame) :
    ∃ passedOn : List LoopEvent,
      LoopEvent.basicAck channel deliveryTag ∉ passedOn ∧
        machineStep w channel
            (.third deliveryTag (sizeT w bodySize) bodyReceived)
            frame.result =
          let test := innerTest w channel deliveryTag bodySize
            ((bodyCounter w bodySize).add (.some bodyReceived) frame)
          (passedOn ++ test.1, test.2) := by
  by_cases hover :
      sizeT w bodySize < sizeT w (bodyReceived + frame.bodyFragment.length)
  · have hadd :
        (bodyCounter w bodySize).add (.some bodyReceived) frame =
          (WithBot.some (sizeT w (bodyReceived + frame.bodyFragment.length))) :=
      Counter.wrapping_add_of_passes BodyFrame.len BodyFrame.Breaks
        (2 ^ w) bodySize bodyReceived fun _ => hover
    have htest :
        innerTest w channel deliveryTag bodySize
            (WithBot.some (sizeT w (bodyReceived + frame.bodyFragment.length))) =
          ([], .stopped .leftLoop) :=
      bodyLoop_of_gt channel deliveryTag hover
    have hstep :
        consumerStep recveiveCopy (sizeT w) channel
            (.third deliveryTag (sizeT w bodySize) bodyReceived)
            frame.result =
          ([], .stopped .leftLoop) := by
      simp only [consumerStep, BodyFrame.result, OnMisfit.leave, recveiveCopy,
        if_pos hover, afterBody_of_ne channel deliveryTag hover.ne']
    refine ⟨[], by simp, ?_⟩
    simp only [machineStep, hstep, hadd, htest, List.nil_append]
  · have hstep :=
      consumerStep_fits channel deliveryTag recveiveCopy hover frame.channel
    by_cases hreturns : HandlerReturns frame.bodyFragment.length
    · have hadd :
          (bodyCounter w bodySize).add (.some bodyReceived) frame =
            (WithBot.some (sizeT w (bodyReceived + frame.bodyFragment.length))) :=
        Counter.wrapping_add_of_passes BodyFrame.len BodyFrame.Breaks
          (2 ^ w) bodySize bodyReceived fun hbreaks =>
            absurd hreturns hbreaks
      refine ⟨[.handOver frame.bodyFragment], by simp, ?_⟩
      simp only [machineStep, BodyFrame.result, hstep, if_pos hreturns, hadd]
      rfl
    · have hadd : (bodyCounter w bodySize).add (.some bodyReceived) frame = ⊥ := by
        apply Counter.wrapping_add_of_broken
        intro hpasses
        exact hover (hpasses hreturns)
      refine ⟨[.handOver frame.bodyFragment], by simp, ?_⟩
      simp only [machineStep, BodyFrame.result, hstep, if_neg hreturns, hadd]
      rfl

/-- Body frames that come after the message are skipped. -/
theorem machineLoop_laterBodies (later : List BodyFrame) :
    (machineLoop w channel).trace (.await .first)
        (later.map BodyFrame.result) =
          (later.map BodyFrame.result).map .read ∧
      (machineLoop w channel).final (.await .first)
        (later.map BodyFrame.result) = .await .first := by
  let skipped : List SkippedFrame :=
    later.map fun frame => ⟨⟨frame.channel, .body frame.bodyFragment⟩, rfl⟩
  have hresults : skippedResults skipped = later.map BodyFrame.result := by
    simp only [skippedResults, skipped, List.map_map]
    rfl
  obtain ⟨htrace, hfinal⟩ :=
    consumerLoop_skipped recveiveCopy (sizeT w) channel skipped
  obtain ⟨hsameTrace, hsameFinal⟩ :=
    machineLoop_eq w channel (.await .first) (skippedResults skipped) (by
      rw [htrace]
      simp)
  rw [← hresults]
  exact ⟨hsameTrace.trans htrace, hsameFinal.trans hfinal⟩

theorem getLast?_append_of_notMem {α : Type*} {left right : List α} {last : α}
    (hleft : last ∉ left) :
    (left ++ right).getLast? = some last ↔ right.getLast? = some last := by
  cases right using List.reverseRecOn with
  | nil =>
      simp only [List.append_nil, List.getLast?_nil, reduceCtorEq, iff_false]
      intro hlast
      exact hleft (List.mem_of_getLast? hlast)
  | append_singleton right item => simp [← List.append_assoc]

/-- The run from a test of the inner loop. -/
def innerRun (bodyReceived : WithBot ℕ) (read : List BodyFrame) :
    List (Action WaitResult LoopEvent) × Next ReadPoint LoopExit :=
  let reader := machineLoop w channel
  let test := innerTest w channel deliveryTag bodySize bodyReceived
  let results := read.map BodyFrame.result
  (test.1.map .emit ++ reader.trace test.2 results,
    reader.final test.2 results)

theorem innerRun_crashed (read : List BodyFrame) :
    innerRun w channel deliveryTag bodySize ⊥ read =
      ([], .stopped .crashed) := by
  simp [innerRun]

theorem innerRun_open
    {bodyReceived : ℕ} (hopen : bodyReceived < sizeT w bodySize)
    (frame : BodyFrame) (read : List BodyFrame) :
    ∃ passedOn : List LoopEvent,
      LoopEvent.basicAck channel deliveryTag ∉ passedOn ∧
        innerRun w channel deliveryTag bodySize (.some bodyReceived)
            (frame :: read) =
          let rest := innerRun w channel deliveryTag bodySize
            ((bodyCounter w bodySize).add (.some bodyReceived) frame) read
          (.read frame.result :: (passedOn.map .emit ++ rest.1), rest.2) := by
  obtain ⟨passedOn, hack, hstep⟩ :=
    machineStep_counted w channel deliveryTag bodySize bodyReceived frame
  have htest :
      innerTest w channel deliveryTag bodySize (.some bodyReceived) =
        ([], .await (.third deliveryTag (sizeT w bodySize) bodyReceived)) :=
    bodyLoop_of_lt channel deliveryTag hopen
  refine ⟨passedOn, hack, ?_⟩
  simp only [innerRun, htest, List.map_cons, List.map_nil, List.nil_append,
    Reader.trace_cons, Reader.final_cons, machineLoop_step, hstep,
    List.map_append, List.append_assoc]

theorem innerRun_met (read : List BodyFrame) :
    innerRun w channel deliveryTag bodySize (.some (sizeT w bodySize)) read =
      (.emit (.basicAck channel deliveryTag) ::
        (read.map BodyFrame.result).map .read, .await .first) := by
  obtain ⟨htrace, hfinal⟩ := machineLoop_laterBodies w channel read
  simp [innerRun, bodyLoop_self, htrace, hfinal]

theorem innerRun_met_getLast?_ne (frame : BodyFrame) (later : List BodyFrame) :
    (innerRun w channel deliveryTag bodySize (.some (sizeT w bodySize))
        (frame :: later)).1.getLast? ≠
      some (.emit (.basicAck channel deliveryTag)) := by
  intro hlast
  rw [innerRun_met, List.map_cons, List.map_cons,
    List.getLast?_cons_cons] at hlast
  have hmem := List.mem_of_getLast? hlast
  simp at hmem

theorem innerRun_exceeded
    {bodyReceived : ℕ} (hover : sizeT w bodySize < bodyReceived)
    (read : List BodyFrame) :
    innerRun w channel deliveryTag bodySize (.some bodyReceived) read =
      ([], .stopped .leftLoop) := by
  simp [innerRun, bodyLoop_of_gt channel deliveryTag hover]

theorem innerRun_nil_open
    {bodyReceived : ℕ} (hopen : bodyReceived < sizeT w bodySize) :
    innerRun w channel deliveryTag bodySize (.some bodyReceived) [] =
      ([], .await
        (.third deliveryTag (sizeT w bodySize) bodyReceived)) := by
  simp [innerRun, bodyLoop_of_lt channel deliveryTag hopen]

theorem bodyCounter_target :
    (bodyCounter w bodySize).target = .some (sizeT w bodySize) := rfl

theorem bodyCounter_add_bot (frame : BodyFrame) :
    (bodyCounter w bodySize).add ⊥ frame = ⊥ := rfl

theorem lt_bodyCounter_target_iff (bodyReceived : ℕ) :
    WithBot.some bodyReceived < (bodyCounter w bodySize).target ↔
      bodyReceived < sizeT w bodySize :=
  WithBot.coe_lt_coe

/-- The inner loop ends in an acknowledgement exactly when its count, which
has come to `bodyReceived`, meets the target. -/
theorem getLast?_innerRun_iff
    (bodyReceived : WithBot ℕ) (read : List BodyFrame) :
    (innerRun w channel deliveryTag bodySize bodyReceived
        read).1.getLast? = some (.emit (.basicAck channel deliveryTag)) ↔
      (bodyCounter w bodySize).ComesOut bodyReceived read .eq := by
  apply (bodyCounter w bodySize).iff_comesOut_of_steps bodyReceived read
  · intro bodyReceived
    rw [bodyCounter_target]
    cases bodyReceived with
    | bot =>
        rw [innerRun_crashed, Counter.compare_bot_coe]
        simp
    | coe bodyReceived =>
        rw [Counter.compare_coe, compare_eq_iff_eq]
        rcases lt_trichotomy bodyReceived (sizeT w bodySize) with
          hlt | heq | hgt
        · simp [innerRun_nil_open w channel deliveryTag bodySize hlt, hlt.ne]
        · simp [heq, innerRun_met]
        · simp [innerRun_exceeded w channel deliveryTag bodySize hgt, hgt.ne']
  · intro bodyReceived frame read hopen
    cases bodyReceived with
    | bot => rw [bodyCounter_add_bot, innerRun_crashed, innerRun_crashed]
    | coe bodyReceived =>
        rw [lt_bodyCounter_target_iff] at hopen
        obtain ⟨passedOn, hack, hrun⟩ :=
          innerRun_open w channel deliveryTag bodySize hopen frame read
        have hbefore :
            Action.emit (.basicAck channel deliveryTag) ∉
              Action.read frame.result :: passedOn.map .emit := by
          simpa using hack
        rw [hrun]
        exact getLast?_append_of_notMem hbefore
  · intro bodyReceived frame read hclosed
    cases bodyReceived with
    | bot => exact absurd (WithBot.bot_lt_coe _) hclosed
    | coe bodyReceived =>
        rw [lt_bodyCounter_target_iff] at hclosed
        rcases (not_lt.mp hclosed).eq_or_lt with heq | hgt
        · rw [← heq]
          exact innerRun_met_getLast?_ne w channel deliveryTag bodySize frame
            read
        · rw [innerRun_exceeded w channel deliveryTag bodySize hgt]
          simp

/-- It reads all fragments and then stops exactly when its count first exceeds
the target at the last of them. -/
theorem innerRun_stopped_iff
    (bodyReceived : WithBot ℕ) (read : List BodyFrame) :
    reads (innerRun w channel deliveryTag bodySize bodyReceived read).1 =
          read.map BodyFrame.result ∧
        (innerRun w channel deliveryTag bodySize bodyReceived read).2 =
          .stopped .leftLoop ↔
      (bodyCounter w bodySize).ComesOut bodyReceived read .gt := by
  apply (bodyCounter w bodySize).iff_comesOut_of_steps bodyReceived read
  · intro bodyReceived
    rw [bodyCounter_target]
    cases bodyReceived with
    | bot =>
        rw [innerRun_crashed, Counter.compare_bot_coe]
        simp
    | coe bodyReceived =>
        rw [Counter.compare_coe, compare_gt_iff_gt]
        rcases lt_trichotomy bodyReceived (sizeT w bodySize) with
          hlt | heq | hgt
        · simp [innerRun_nil_open w channel deliveryTag bodySize hlt,
            hlt.not_gt]
        · simp [heq, innerRun_met]
        · simp [innerRun_exceeded w channel deliveryTag bodySize hgt, hgt]
  · intro bodyReceived frame read hopen
    cases bodyReceived with
    | bot =>
        rw [bodyCounter_add_bot, innerRun_crashed, innerRun_crashed]
        simp
    | coe bodyReceived =>
        rw [lt_bodyCounter_target_iff] at hopen
        obtain ⟨passedOn, -, hrun⟩ :=
          innerRun_open w channel deliveryTag bodySize hopen frame read
        rw [hrun]
        simp only [reads_cons_read, reads_append, reads_map_emit,
          List.nil_append, List.map_cons, List.cons.injEq, true_and]
  · intro bodyReceived frame read hclosed
    cases bodyReceived with
    | bot => exact absurd (WithBot.bot_lt_coe _) hclosed
    | coe bodyReceived =>
        rw [lt_bodyCounter_target_iff] at hclosed
        rcases (not_lt.mp hclosed).eq_or_lt with heq | hgt
        · intro hinner
          rw [← heq] at hinner
          have hmet :=
            congrArg Prod.snd
              (innerRun_met w channel deliveryTag bodySize (frame :: read))
          have hawait := hmet.symm.trans hinner.2
          cases hawait
        · rw [innerRun_exceeded w channel deliveryTag bodySize hgt]
          simp

end InnerLoop

/-! ## Exactness -/

section Accounting

variable (w channel : ℕ) (head : DeliveryHead)

theorem loopRun_resultsWith (read : List BodyFrame) :
    let inner :=
      innerRun w channel head.deliveryTag head.bodySize (.some 0) read
    (machineLoop w channel).trace (.await .first) (head.resultsWith read) =
        head.results.map .read ++ inner.1 ∧
      (machineLoop w channel).final (.await .first) (head.resultsWith read) =
        inner.2 := by
  obtain ⟨htrace, hfinal⟩ :=
    consumerLoop_head recveiveCopy (sizeT w) channel head
  -- nothing is handed over before the first fragment
  obtain ⟨hsameTrace, hsameFinal⟩ :=
    machineLoop_eq w channel (.await .first) head.results (by
      rw [htrace, handedOver_append, handedOver_map_read, bodyLoop_handedOver]
      simp)
  rw [htrace] at hsameTrace
  rw [hfinal] at hsameFinal
  intro inner
  constructor
  · rw [DeliveryHead.resultsWith, Reader.trace_append, hsameTrace, hsameFinal,
      List.append_assoc]
    rfl
  · rw [DeliveryHead.resultsWith, Reader.final_append, hsameFinal]
    rfl

theorem ackedAfter_iff (read : List BodyFrame) :
    AckedAfter w channel head read ↔
      (bodyCounter w head.bodySize).ComesOut (.some 0) read .eq := by
  obtain ⟨htrace, -⟩ := loopRun_resultsWith w channel head read
  have hreads :
      Action.emit (LoopEvent.basicAck channel head.deliveryTag) ∉
        head.results.map .read := by
    simp
  rw [AckedAfter, htrace, getLast?_append_of_notMem hreads]
  exact getLast?_innerRun_iff w channel head.deliveryTag head.bodySize _ read

theorem overlongAfter_iff (read : List BodyFrame) :
    OverlongAfter w channel head read ↔
      (bodyCounter w head.bodySize).ComesOut (.some 0) read .gt := by
  obtain ⟨htrace, hfinal⟩ := loopRun_resultsWith w channel head read
  rw [← innerRun_stopped_iff w channel head.deliveryTag head.bodySize _ read]
  constructor
  · intro hover
    have hall := hover.allRead
    have hstopped := hover.stopped
    rw [htrace, reads_append, reads_map_read] at hall
    rw [hfinal] at hstopped
    exact ⟨List.append_cancel_left hall, hstopped⟩
  · intro hinner
    constructor
    · rw [htrace, reads_append, reads_map_read, hinner.1]
      rfl
    · rw [hfinal, hinner.2]

/-- The exact count of the bytes of the body. -/
def exactCounter (bodySize : ℕ) : Counter ℕ BodyFrame :=
  .exact BodyFrame.len bodySize

theorem exactCounter_count (bodySize : ℕ) (read : List BodyFrame) :
    (exactCounter bodySize).count 0 read = bodyLength read := by
  rw [exactCounter, Counter.exact_count, Nat.zero_add, sum_map_len]

theorem exactCounter_below_iff (bodySize : ℕ) (read : List BodyFrame) :
    (exactCounter bodySize).Below 0 read ↔ StaysBelow bodySize read := by
  have htarget : (exactCounter bodySize).target = bodySize := rfl
  simp only [Counter.Below, StaysBelow, exactCounter_count, htarget]

theorem exactCounter_comesOut_iff
    (bodySize : ℕ) (read : List BodyFrame) (outcome : Ordering) :
    (exactCounter bodySize).ComesOut 0 read outcome ↔
      compare (bodyLength read) bodySize = outcome ∧
        StaysBelow bodySize read := by
  rw [← exactCounter_below_iff, ← exactCounter_count bodySize]
  constructor
  · intro hout
    exact ⟨hout.outcome, hout.below⟩
  · intro hsizes
    exact ⟨hsizes.2, hsizes.1⟩

theorem sizesExact_iff_agree (fragments : List BodyFrame) :
    SizesExact w channel head fragments ↔
      Counter.Agree (bodyCounter w head.bodySize)
        (exactCounter head.bodySize) (.some 0) 0 fragments := by
  have hexact := exactCounter_comesOut_iff head.bodySize
  constructor
  · intro hsizes read hread outcome houtcome
    cases outcome with
    | lt => exact absurd rfl houtcome
    | eq =>
        rw [hexact, compare_eq_iff_eq, ← hsizes.acked read hread]
        exact (ackedAfter_iff w channel head read).symm
    | gt =>
        rw [hexact, compare_gt_iff_gt, ← hsizes.overlong read hread]
        exact (overlongAfter_iff w channel head read).symm
  · intro hagree
    constructor
    · intro read hread
      have hstops := hagree read hread .eq (by decide)
      rw [ackedAfter_iff, hstops, hexact, compare_eq_iff_eq]
    · intro read hread
      have hstops := hagree read hread .gt (by decide)
      rw [overlongAfter_iff, hstops, hexact, compare_gt_iff_gt]

theorem passesBreaks_iff_handled (bodySize : ℕ) (read : List BodyFrame) :
    Counter.PassesBreaks BodyFrame.len BodyFrame.Breaks (2 ^ w) bodySize 0
        read ↔
      Handled w bodySize read := by
  unfold Counter.PassesBreaks Handled
  apply forall₃_congr
  intro before frame _
  rw [Nat.zero_add, sum_map_len, BodyFrame.Breaks, not_imp_comm,
    or_iff_not_imp_right]

theorem wrapsAlike_iff_sizesFit
    (bodySize : ℕ) (fragments : List BodyFrame) :
    Counter.WrapsAlike BodyFrame.len BodyFrame.Breaks (2 ^ w) bodySize
        fragments ↔
      SizesFit w bodySize fragments := by
  have hbelow := exactCounter_below_iff bodySize
  unfold exactCounter at hbelow
  unfold SizesFit
  by_cases hsize : bodySize < 2 ^ w
  · simp only [Counter.wrapsAlike_iff_of_lt hsize, hbelow, sum_map_len,
      passesBreaks_iff_handled, if_pos hsize]
  · simp only [Counter.WrapsAlike, hbelow, sum_map_len,
      passesBreaks_iff_handled, if_neg hsize]

/-- With room for one more fragment only the handler matters: it must come back
for the fragments up to the size, but for one that exceeds it. -/
theorem sizesFit_iff_of_le
    {bodySize bound : ℕ} {fragments : List BodyFrame} (hbound : 0 < bound)
    (hlengths : ∀ frame ∈ fragments, frame.bodyFragment.length < bound)
    (hsize : bodySize + bound ≤ 2 ^ w) :
    SizesFit w bodySize fragments ↔
      ∀ read, read <+: fragments → StaysBelow bodySize read →
        bodySize ≤ bodyLength read → Handled w bodySize read := by
  have hbelow := exactCounter_below_iff bodySize
  unfold exactCounter at hbelow
  have hlens : ∀ frame ∈ fragments, frame.len < bound := hlengths
  rw [← wrapsAlike_iff_sizesFit,
    Counter.wrapsAlike_iff_of_le hbound hlens hsize]
  simp only [hbelow, sum_map_len, passesBreaks_iff_handled]

theorem sizesFit_of_le
    {bodySize bound : ℕ} {fragments : List BodyFrame} (hbound : 0 < bound)
    (hlengths : ∀ frame ∈ fragments, frame.bodyFragment.length < bound)
    (hreturns : ∀ frame ∈ fragments, HandlerReturns frame.bodyFragment.length)
    (hsize : bodySize + bound ≤ 2 ^ w) :
    SizesFit w bodySize fragments := by
  rw [sizesFit_iff_of_le w hbound hlengths hsize]
  intro read hread _ _
  rw [← passesBreaks_iff_handled]
  apply Counter.passesBreaks_of_not_breaks
  intro frame hframe hbreaks
  exact hbreaks (hreturns frame (hread.subset hframe))

/-- A positive multiple of `2 ^ w` never fits. -/
theorem not_sizesFit_of_dvd
    {bodySize : ℕ} (fragments : List BodyFrame) (hpos : 0 < bodySize)
    (hdvd : 2 ^ w ∣ bodySize) :
    ¬ SizesFit w bodySize fragments := by
  rw [← wrapsAlike_iff_sizesFit]
  exact Counter.not_wrapsAlike_of_dvd _ hpos hdvd

/-- A message with a fragment that the handler does not come back for never
fits when it is complete. -/
theorem not_sizesFit_of_not_returns
    {bodySize : ℕ} {read fragments : List BodyFrame} {frame : BodyFrame}
    (hsize : bodySize < 2 ^ w) (hread : read <+: fragments)
    (hbelow : StaysBelow bodySize read)
    (hcomplete : bodyLength read = bodySize) (hframe : frame ∈ read)
    (hreturns : ¬ HandlerReturns frame.bodyFragment.length) :
    ¬ SizesFit w bodySize fragments := by
  intro hfits
  have hshort := (hfits read hread hbelow).2
  rw [hcomplete] at hshort
  apply (hshort _).ne rfl
  intro hhandled
  obtain ⟨before, after, hsplit⟩ := List.append_of_mem hframe
  have hprefix : before ++ [frame] <+: read := by
    rw [hsplit]
    exact ⟨after, by simp⟩
  have hle : bodyLength (before ++ [frame]) ≤ bodySize := by
    rw [← hcomplete, hsplit]
    simp [bodyLength]
  rcases hhandled before frame hprefix with hreturned | hover
  · exact hreturns hreturned
  · rw [Nat.mod_eq_of_lt hsize, Nat.mod_eq_of_lt (hle.trans_lt hsize)] at hover
    exact hle.not_gt hover

/-- The accounting of `ReandMqMessage` is exact for a message exactly if its
sizes fit.  `hlengths` says that the lengths are values of `size_t`. -/
theorem sizesExact_iff_sizesFit
    (fragments : List BodyFrame)
    (hlengths :
      ∀ frame ∈ fragments, frame.bodyFragment.length < 2 ^ w) :
    SizesExact w channel head fragments ↔
      SizesFit w head.bodySize fragments := by
  rw [sizesExact_iff_agree, ← wrapsAlike_iff_sizesFit]
  exact Counter.wrapping_agree_iff (Nat.two_pow_pos w) hlengths

end Accounting

/-- The size 5, sent as 2 and 3 bytes to a 32-bit machine. -/
theorem sizesExact_twoFragments :
    SizesExact 32 1 ⟨[], 1, 7, 1, 5⟩ [⟨1, [0, 1]⟩, ⟨1, [2, 3, 4]⟩] := by
  apply (sizesExact_iff_sizesFit 32 1 ⟨[], 1, 7, 1, 5⟩
    [⟨1, [0, 1]⟩, ⟨1, [2, 3, 4]⟩] (by decide)).mpr
  have hbound : 0 < 4 := by
    decide
  exact sizesFit_of_le 32 hbound (by decide) (by decide) (by decide)

/-- A body of 4 GiB is narrowed to an empty one: it is acknowledged after its
header. -/
theorem not_sizesExact_narrowed :
    ¬ SizesExact 32 1 ⟨[], 1, 7, 1, 2 ^ 32⟩ [] := by
  intro hsizes
  have hacked : AckedAfter 32 1 ⟨[], 1, 7, 1, 2 ^ 32⟩ [] := by
    unfold AckedAfter
    decide
  have hexact := (hsizes.acked [] List.nil_prefix).mp hacked
  exact absurd hexact.1 (by decide)

end RabbitWork
