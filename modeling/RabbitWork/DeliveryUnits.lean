import RabbitWork.AmqpFrame

/-!
# Delivery units of a frame stream

The grammar of what a consumer is sent: frames to be skipped, then
Basic.Deliver, a content header with the body size, and body frames until that
size is reached.  The definitions speak of the stream only; the loop that reads
it is compared with them in `ConsumerRun`.
-/

namespace RabbitWork

/-- A frame that does not start a delivery. -/
abbrev SkippedFrame := {frame : AmqpFrame // frame.isDeliver = false}

structure BodyFrame where
  channel : ℕ
  bodyFragment : Bytes
  deriving DecidableEq, Repr

structure DeliveryHead where
  skipped : List SkippedFrame
  deliverChannel : ℕ
  deliveryTag : ℕ
  headerChannel : ℕ
  bodySize : ℕ

def skippedResults (skipped : List SkippedFrame) : List WaitResult :=
  skipped.map fun frame => .frame frame.val

def deliverResult (channel deliveryTag : ℕ) : WaitResult :=
  .frame ⟨channel, .basicDeliver deliveryTag⟩

def headerResult (channel bodySize : ℕ) : WaitResult :=
  .frame ⟨channel, .header bodySize⟩

def BodyFrame.result (frame : BodyFrame) : WaitResult :=
  .frame ⟨frame.channel, .body frame.bodyFragment⟩

def bodyLength (fragments : List BodyFrame) : ℕ :=
  (fragments.map fun frame => frame.bodyFragment.length).sum

@[simp] theorem bodyLength_nil : bodyLength [] = 0 := rfl

@[simp] theorem bodyLength_cons
    (frame : BodyFrame) (fragments : List BodyFrame) :
    bodyLength (frame :: fragments) =
      frame.bodyFragment.length + bodyLength fragments := by
  simp [bodyLength]

@[simp] theorem bodyLength_append (left right : List BodyFrame) :
    bodyLength (left ++ right) = bodyLength left + bodyLength right := by
  simp [bodyLength]

theorem bodyLength_take_le (fragments : List BodyFrame) (k : ℕ) :
    bodyLength (fragments.take k) ≤ bodyLength fragments := by
  calc
    bodyLength (fragments.take k)
        ≤ bodyLength (fragments.take k) + bodyLength (fragments.drop k) :=
          Nat.le_add_right _ _
    _ = bodyLength fragments := by
          rw [← bodyLength_append, List.take_append_drop]

/-- A complete delivery: the body stays below its announced size before each
fragment and has exactly that size after the last one. -/
structure DeliveryUnit extends DeliveryHead where
  fragments : List BodyFrame
  below : ∀ k < fragments.length,
    bodyLength (fragments.take k) < bodySize
  complete : bodyLength fragments = bodySize

/-- A delivery whose body has not reached its announced size. -/
structure OpenDelivery extends DeliveryHead where
  fragments : List BodyFrame
  below : bodyLength fragments < bodySize

def DeliveryHead.results (head : DeliveryHead) : List WaitResult :=
  skippedResults head.skipped ++
    [deliverResult head.deliverChannel head.deliveryTag,
      headerResult head.headerChannel head.bodySize]

def DeliveryUnit.results (unit : DeliveryUnit) : List WaitResult :=
  unit.toDeliveryHead.results ++ unit.fragments.map BodyFrame.result

/-! ## Messages cut into frames -/

/-- A way of cutting a body into body frames: the body is still incomplete
before each fragment. -/
structure Fragmentation (body : Bytes) where
  fragments : List Bytes
  join : fragments.flatten = body
  incomplete : ∀ k < fragments.length,
    (fragments.take k).flatten.length < body.length

def messageResults (channel deliveryTag : ℕ) (body : Bytes)
    (fragments : List Bytes) : List WaitResult :=
  deliverResult channel deliveryTag :: headerResult channel body.length ::
    fragments.map fun bytes => BodyFrame.result ⟨channel, bytes⟩

theorem bodyLength_map (channel : ℕ) (fragments : List Bytes) :
    bodyLength (fragments.map (BodyFrame.mk channel)) =
      fragments.flatten.length := by
  induction fragments with
  | nil => rfl
  | cons bytes fragments ih => simp [ih]

def Fragmentation.unit {body : Bytes} (cut : Fragmentation body)
    (channel deliveryTag : ℕ) : DeliveryUnit where
  skipped := []
  deliverChannel := channel
  deliveryTag := deliveryTag
  headerChannel := channel
  bodySize := body.length
  fragments := cut.fragments.map (BodyFrame.mk channel)
  below := by
    intro k hk
    rw [← List.map_take, bodyLength_map]
    exact cut.incomplete k (by simpa using hk)
  complete := by rw [bodyLength_map, cut.join]

theorem Fragmentation.unit_results {body : Bytes} (cut : Fragmentation body)
    (channel deliveryTag : ℕ) :
    (cut.unit channel deliveryTag).results =
      messageResults channel deliveryTag body cut.fragments := by
  simp [messageResults, DeliveryUnit.results, DeliveryHead.results,
    Fragmentation.unit, skippedResults]

/-! ## Shapes of streams -/

/-- What has arrived since the last complete unit, as long as it can still
become one. -/
inductive Progress where
  | skipping (skipped : List SkippedFrame)
  | delivered (skipped : List SkippedFrame)
      (deliverChannel deliveryTag : ℕ)
  | receiving (delivery : OpenDelivery)

def Progress.results : Progress → List WaitResult
  | .skipping skipped => skippedResults skipped
  | .delivered skipped deliverChannel deliveryTag =>
      skippedResults skipped ++ [deliverResult deliverChannel deliveryTag]
  | .receiving delivery =>
      delivery.toDeliveryHead.results ++
        delivery.fragments.map BodyFrame.result

def Progress.fragments : Progress → List BodyFrame
  | .receiving delivery => delivery.fragments
  | _ => []

def Progress.Breaks : Progress → WaitResult → Prop
  | _, .failed _ => True
  | .skipping _, .frame _ => False
  | .delivered _ _ _, .frame frame =>
      ∀ bodySize, frame.payload ≠ .header bodySize
  | .receiving delivery, .frame frame =>
      ∀ bodyFragment, frame.payload = .body bodyFragment →
        delivery.bodySize <
          bodyLength delivery.fragments + bodyFragment.length

/-- How a stream is made of complete units, an unfinished one, and possibly a
result that breaks it and hides everything after it. -/
inductive StreamShape :
    List WaitResult → List DeliveryUnit → Progress → Option WaitResult → Prop
  | waiting (units : List DeliveryUnit) (progress : Progress) :
      StreamShape (units.flatMap DeliveryUnit.results ++ progress.results)
        units progress none
  | broken (units : List DeliveryUnit) (progress : Progress)
      (stop : WaitResult) (unread : List WaitResult)
      (hbreaks : progress.Breaks stop) :
      StreamShape
        (units.flatMap DeliveryUnit.results ++
          (progress.results ++ stop :: unread))
        units progress (some stop)

theorem StreamShape.cons
    {results : List WaitResult} {units : List DeliveryUnit}
    {progress : Progress} {stop : Option WaitResult}
    (hshape : StreamShape results units progress stop)
    (unit : DeliveryUnit) :
    StreamShape (unit.results ++ results) (unit :: units) progress stop := by
  cases hshape with
  | waiting =>
      have h := StreamShape.waiting (unit :: units) progress
      simpa [List.append_assoc] using h
  | broken _ _ stop unread hbreaks =>
      have h :=
        StreamShape.broken (unit :: units) progress stop unread hbreaks
      simpa [List.append_assoc] using h

theorem exists_extend_header
    (skipped : List SkippedFrame)
    (deliverChannel deliveryTag headerChannel bodySize : ℕ) :
    let results :=
      skippedResults skipped ++ [deliverResult deliverChannel deliveryTag] ++
        [headerResult headerChannel bodySize]
    (∃ next : Progress, next.results = results) ∨
      ∃ unit : DeliveryUnit, unit.results = results := by
  intro results
  let head : DeliveryHead :=
    ⟨skipped, deliverChannel, deliveryTag, headerChannel, bodySize⟩
  have hresults : head.results = results := by
    simp [head, results, DeliveryHead.results]
  rcases Nat.eq_zero_or_pos bodySize with hzero | hpos
  · right
    refine ⟨{ head with
      fragments := []
      below := by simp
      complete := by simp [head, hzero] }, ?_⟩
    simpa [DeliveryUnit.results] using hresults
  · left
    refine ⟨.receiving { head with
      fragments := []
      below := by simpa [head] using hpos }, ?_⟩
    simpa [Progress.results] using hresults

theorem exists_extend_body
    (delivery : OpenDelivery) (frame : BodyFrame)
    (hfits :
      bodyLength delivery.fragments + frame.bodyFragment.length ≤
        delivery.bodySize) :
    let results := (Progress.receiving delivery).results ++ [frame.result]
    (∃ next : Progress, next.results = results) ∨
      ∃ unit : DeliveryUnit, unit.results = results := by
  intro results
  have hlength :
      bodyLength (delivery.fragments ++ [frame]) =
        bodyLength delivery.fragments + frame.bodyFragment.length := by
    simp
  rcases Nat.lt_or_eq_of_le hfits with hlt | heq
  · left
    refine ⟨.receiving { delivery.toDeliveryHead with
      fragments := delivery.fragments ++ [frame]
      below := by rw [hlength]; exact hlt }, ?_⟩
    simp [results, Progress.results, DeliveryHead.results]
  · right
    refine ⟨{ delivery.toDeliveryHead with
      fragments := delivery.fragments ++ [frame]
      below := ?_
      complete := by rw [hlength]; exact heq }, ?_⟩
    · intro k hk
      have hk' : k ≤ delivery.fragments.length := by
        simp only [List.length_append, List.length_singleton] at hk
        omega
      rw [List.take_append_of_le_length hk']
      exact (bodyLength_take_le _ _).trans_lt delivery.below
    · simp [results, DeliveryUnit.results, Progress.results,
        DeliveryHead.results]

/-- One more result extends an unfinished delivery, completes it or breaks
it. -/
theorem Progress.exists_extend (progress : Progress) (result : WaitResult) :
    ((∃ next : Progress, next.results = progress.results ++ [result]) ∨
      ∃ unit : DeliveryUnit, unit.results = progress.results ++ [result]) ∨
      progress.Breaks result := by
  cases result with
  | failed code =>
      right
      cases progress <;> exact trivial
  | frame frame =>
      cases progress with
      | skipping skipped =>
          left; left
          cases hdeliver : frame.isDeliver with
          | false =>
              refine ⟨.skipping (skipped ++ [⟨frame, hdeliver⟩]), ?_⟩
              simp [Progress.results, skippedResults]
          | true =>
              obtain ⟨channel, payload⟩ := frame
              cases payload with
              | basicDeliver deliveryTag =>
                  exact ⟨.delivered skipped channel deliveryTag, rfl⟩
              | otherMethod | header | body | otherType =>
                  simp [AmqpFrame.isDeliver] at hdeliver
      | delivered skipped deliverChannel deliveryTag =>
          by_cases hheader : ∃ bodySize, frame.payload = .header bodySize
          · left
            obtain ⟨channel, payload⟩ := frame
            rcases hheader with ⟨bodySize, hpayload⟩
            simp only at hpayload
            subst payload
            exact exists_extend_header skipped deliverChannel deliveryTag
              channel bodySize
          · right
            intro bodySize hpayload
            exact hheader ⟨bodySize, hpayload⟩
      | receiving delivery =>
          by_cases hbody : ∃ bodyFragment,
              frame.payload = .body bodyFragment ∧
                bodyLength delivery.fragments + bodyFragment.length ≤
                  delivery.bodySize
          · left
            obtain ⟨channel, payload⟩ := frame
            rcases hbody with ⟨bodyFragment, hpayload, hfits⟩
            simp only at hpayload
            subst payload
            exact exists_extend_body delivery ⟨channel, bodyFragment⟩ hfits
          · right
            intro bodyFragment hpayload
            by_contra hle
            exact hbody ⟨bodyFragment, hpayload, not_lt.mp hle⟩

theorem Progress.exists_streamShape
    (progress : Progress) (results : List WaitResult) :
    ∃ units last stop,
      StreamShape (progress.results ++ results) units last stop := by
  induction results generalizing progress with
  | nil =>
      refine ⟨[], progress, none, ?_⟩
      simpa using StreamShape.waiting [] progress
  | cons result results ih =>
      rcases progress.exists_extend result with
        (⟨next, hnext⟩ | ⟨unit, hunit⟩) | hbreaks
      · obtain ⟨units, last, stop, hshape⟩ := ih next
        refine ⟨units, last, stop, ?_⟩
        simpa [hnext, List.append_assoc] using hshape
      · obtain ⟨units, last, stop, hshape⟩ := ih (.skipping [])
        refine ⟨unit :: units, last, stop, ?_⟩
        have h := hshape.cons unit
        simpa [hunit, Progress.results, skippedResults,
          List.append_assoc] using h
      · exact ⟨[], progress, some result, by
          simpa using
            StreamShape.broken [] progress result results hbreaks⟩

theorem exists_streamShape (results : List WaitResult) :
    ∃ units progress stop, StreamShape results units progress stop :=
  Progress.exists_streamShape (.skipping []) results

end RabbitWork
