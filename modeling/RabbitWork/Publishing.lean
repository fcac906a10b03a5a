import RabbitWork.FrameSending
import RabbitWork.MqHandler

/-!
# Publishing a message

`amqp_basic_publish` sends a method, a content header and the body in frames
of at most `frame_max` bytes.  Each frame is flagged `AMQP_SF_MORE` if another
one is to follow, as the loop sees it.

`MqMessagePublish` of the programs publishes C strings.  It sets a delivery
mode, but in properties that it does not pass on.
-/

namespace RabbitWork

open Wire Splitting

/-- `state->frame_max - (HEADER_SIZE + FOOTER_SIZE)` as a `size_t`. -/
def usableBodyPayloadSize (frameMax : ℕ) : ℕ :=
  (2 ^ 64 + frameMax - (headerSize + footerSize)) % 2 ^ 64

/-- `amqp_basic_properties_t`. -/
abbrev BasicProperties :=
  { properties : Properties // properties.contentClass = .basic }

/-- `default_properties`, which are zero. -/
def defaultProperties : BasicProperties :=
  ⟨⟨.basic, 0, ()⟩, rfl⟩

/-- The method with `ticket` 0. -/
def publishMethod (exchange routingKey : Bytes) (mandatory immediate : Bool) :
    Method where
  id := .basicPublish
  decoded :=
    ((0 : UInt16), exchange, routingKey, ![mandatory, immediate], ())

/-- The loop over the body, of which this much remains. -/
def publishBody (channel : UInt16) (usable : ℕ) :
    ℕ → Bytes → SendState → Option (Except SendError Unit × SendState)
  | 0, _, _ => none
  | fuel + 1, remaining, state =>
      if remaining = [] then
        some (.ok (), state)
      else
        let more := decide (usable ≤ remaining.length)
        let bodyFragment :=
          if usable ≤ remaining.length then remaining.take usable
          else remaining
        match amqpSendFrameInner ⟨channel, .body bodyFragment⟩ more state with
        | none => none
        | some (.error error, state) => some (.error error, state)
        | some (.ok (), state) =>
            publishBody channel usable fuel
              (remaining.drop bodyFragment.length) state

/-- `amqp_basic_publish` behind the check of the heartbeats.  The loop over the
body has an answer of the socket for every frame. -/
def publishContent (channel : UInt16) (usable : ℕ) (method : Method)
    (properties : Properties) (body : Bytes) (state : SendState) :
    Option (Except SendError Unit × SendState) :=
  match amqpSendFrameInner ⟨channel, .method method⟩ true state with
  | none => none
  | some (.error error, state) => some (.error error, state)
  | some (.ok (), state) =>
      let header := .header (UInt64.ofNat body.length) properties
      match amqpSendFrameInner ⟨channel, header⟩ true state with
      | none => none
      | some (.error error, state) => some (.error error, state)
      | some (.ok (), state) =>
          publishBody channel usable (state.answers.length + 1) body state

/-- `amqp_basic_publish`; `overdue` says that `next_recv_heartbeat` has
passed. -/
def amqpBasicPublish (overdue : Bool) (channel : UInt16)
    (exchange routingKey : Bytes) (mandatory immediate : Bool)
    (properties : Option BasicProperties) (body : Bytes) (state : SendState) :
    Option (Except SendError Unit × SendState) :=
  let usable := usableBodyPayloadSize state.conn.input.frameMax
  let method := publishMethod exchange routingKey mandatory immediate
  let properties := (properties.getD defaultProperties).val
  match if overdue then recvFromSilentPeer state else (.ok (), state) with
  | (.error error, state) => some (.error error, state)
  | (.ok (), state) =>
      publishContent channel usable method properties body state

/-! ## The frames of a message -/

/-- The fragments of a body and their flags. -/
def bodyFragments (usable : ℕ) (body : Bytes) : List (Bytes × Bool) :=
  if _hdone : body = [] ∨ usable = 0 then
    []
  else
    (body.take usable, decide (usable ≤ body.length)) ::
      bodyFragments usable (body.drop usable)
termination_by body.length
decreasing_by
  have hpos : 0 < body.length :=
    List.length_pos_of_ne_nil fun hnil => _hdone (Or.inl hnil)
  rw [List.length_drop]
  omega

theorem bodyFragments_nil (usable : ℕ) : bodyFragments usable [] = [] := by
  rw [bodyFragments, dif_pos (Or.inl rfl)]

theorem bodyFragments_of_ne
    {usable : ℕ} (husable : usable ≠ 0) {body : Bytes} (hbody : body ≠ []) :
    bodyFragments usable body =
      (body.take usable, decide (usable ≤ body.length)) ::
        bodyFragments usable (body.drop usable) := by
  have hneither : ¬ (body = [] ∨ usable = 0) := by
    rintro (hnil | hzero)
    · exact hbody hnil
    · exact husable hzero
  rw [bodyFragments, dif_neg hneither]

/-- An induction over the fragments. -/
theorem bodyFragments_induction
    {usable : ℕ} (husable : usable ≠ 0) {motive : Bytes → Prop}
    (hnil : motive [])
    (hcons : ∀ body, body ≠ [] → motive (body.drop usable) → motive body)
    (body : Bytes) : motive body := by
  induction hlength : body.length using Nat.strong_induction_on
    generalizing body with
  | _ length ih =>
      by_cases hbody : body = []
      · rw [hbody]
        exact hnil
      · have hpos := List.length_pos_of_ne_nil hbody
        have hshorter : (body.drop usable).length < length := by
          rw [List.length_drop]
          omega
        exact hcons body hbody (ih _ hshorter _ rfl)

theorem flatten_bodyFragments
    {usable : ℕ} (husable : usable ≠ 0) (body : Bytes) :
    ((bodyFragments usable body).map Prod.fst).flatten = body := by
  induction body using bodyFragments_induction husable with
  | hnil => rw [bodyFragments_nil]; rfl
  | hcons body hbody ih =>
      rw [bodyFragments_of_ne husable hbody, List.map_cons, List.flatten_cons,
        ih, List.take_append_drop]

/-- No fragment is empty or larger than a frame may be. -/
theorem mem_bodyFragments
    {usable : ℕ} (husable : usable ≠ 0) (body : Bytes) :
    ∀ fragment ∈ (bodyFragments usable body).map Prod.fst,
      fragment ≠ [] ∧ fragment.length ≤ usable := by
  induction body using bodyFragments_induction husable with
  | hnil =>
      rw [bodyFragments_nil]
      intro fragment hfragment
      cases hfragment
  | hcons body hbody ih =>
      rw [bodyFragments_of_ne husable hbody, List.map_cons]
      intro fragment hfragment
      rcases List.mem_cons.mp hfragment with heq | hmem
      · rw [heq]
        constructor
        · intro hnil
          rcases List.take_eq_nil_iff.mp hnil with hzero | hempty
          · exact husable hzero
          · exact hbody hempty
        · exact List.length_take_le _ _
      · exact ih fragment hmem

/-- The last fragment is flagged exactly if it is as large as a frame may be. -/
theorem bodyFragments_last_flag
    {usable : ℕ} (husable : usable ≠ 0) (body : Bytes) :
    body ≠ [] →
      (bodyFragments usable body).getLast?.map Prod.snd =
        some (decide (usable ∣ body.length)) := by
  induction body using bodyFragments_induction husable with
  | hnil => intro hbody; exact (hbody rfl).elim
  | hcons body hbody ih =>
      intro _
      have hpos := List.length_pos_of_ne_nil hbody
      rw [bodyFragments_of_ne husable hbody]
      by_cases hrest : body.drop usable = []
      · have hle : body.length ≤ usable := List.drop_eq_nil_iff.mp hrest
        have hsame : usable ≤ body.length ↔ usable ∣ body.length := by
          constructor
          · intro hge
            rw [Nat.le_antisymm hle hge]
          · intro hdvd
            exact Nat.le_of_dvd hpos hdvd
        rw [hrest, bodyFragments_nil]
        simp [hsame]
      · have hlong : usable ≤ body.length := by
          by_contra hshort
          exact hrest (List.drop_eq_nil_iff.mpr (by omega))
        have hdvd : usable ∣ body.length - usable ↔ usable ∣ body.length := by
          constructor
          · intro hrestDvd
            have hsum := Nat.dvd_add hrestDvd (Nat.dvd_refl usable)
            rw [Nat.sub_add_cancel hlong] at hsum
            exact hsum
          · intro hwhole
            exact Nat.dvd_sub hwhole (Nat.dvd_refl usable)
        have hlast := ih hrest
        rw [List.length_drop] at hlast
        cases htail : bodyFragments usable (body.drop usable) with
        | nil =>
            rw [htail] at hlast
            cases hlast
        | cons second others =>
            rw [htail] at hlast
            rw [List.getLast?_cons_cons, hlast]
            simp only [hdvd]

/-- A frame of the body. -/
def bodyFrame (channel : UInt16) (bodyFragment : Bytes) : Frame where
  channel := channel
  payload := .body bodyFragment

/-- The frames of a message. -/
def publishedFrames (channel : UInt16) (method : Method)
    (properties : Properties) (bodySize : ℕ) (fragments : List Bytes) :
    List Frame :=
  ⟨channel, .method method⟩ ::
    ⟨channel, .header (UInt64.ofNat bodySize) properties⟩ ::
    fragments.map (bodyFrame channel)

/-- The frames of a message with their flags. -/
def flaggedFrames (channel : UInt16) (usable : ℕ) (method : Method)
    (properties : Properties) (body : Bytes) : List (Frame × Bool) :=
  (⟨channel, .method method⟩, true) ::
    (⟨channel, .header (UInt64.ofNat body.length) properties⟩, true) ::
    (bodyFragments usable body).map (Prod.map (bodyFrame channel) id)

section Frames

variable {channel : UInt16} {usable : ℕ} {method : Method}
  {properties : Properties} {body : Bytes}

theorem map_fst_flaggedFrames :
    (flaggedFrames channel usable method properties body).map Prod.fst =
      publishedFrames channel method properties body.length
        ((bodyFragments usable body).map Prod.fst) := by
  unfold flaggedFrames publishedFrames
  rw [List.map_cons, List.map_cons, List.map_map, List.map_map]
  rfl

/-- The loop over the body sends its fragments. -/
theorem publishBody_eq
    (husable : usable ≠ 0) (fuel : ℕ) (remaining : Bytes) {state : SendState}
    (hfuel : state.answers.length < fuel) :
    publishBody channel usable fuel remaining state =
      sendEach
        ((bodyFragments usable remaining).map
          (Prod.map (bodyFrame channel) id)) state := by
  induction fuel generalizing remaining state with
  | zero => omega
  | succ fuel ih =>
      by_cases hdone : remaining = []
      · rw [publishBody, if_pos hdone, hdone, bodyFragments_nil]
        rfl
      · have hfragment :
            (if usable ≤ remaining.length then remaining.take usable
              else remaining) = remaining.take usable := by
          split
          · rfl
          · rename_i hshort
            rw [List.take_of_length_le (by omega)]
        have hdrop :
            remaining.drop (remaining.take usable).length =
              remaining.drop usable := by
          rw [List.length_take]
          by_cases hlong : usable ≤ remaining.length
          · rw [Nat.min_eq_left hlong]
          · rw [Nat.min_eq_right (by omega), List.drop_length,
              List.drop_of_length_le (by omega)]
        let more := decide (usable ≤ remaining.length)
        let frame := bodyFrame channel (remaining.take usable)
        rw [publishBody, if_neg hdone, bodyFragments_of_ne husable hdone,
          List.map_cons]
        simp only [hfragment, hdrop]
        cases hsend : amqpSendFrameInner frame more state with
        | none =>
            have heach := @sendEach_blocked_head frame more
              ((bodyFragments usable (remaining.drop usable)).map
                (Prod.map (bodyFrame channel) id)) state hsend
            simp only [frame, more, bodyFrame] at hsend
            simp only [hsend]
            exact heach.symm
        | some sent =>
            obtain ⟨result, next⟩ := sent
            cases result with
            | error error =>
                have heach := @sendEach_failed_head frame more
                  ((bodyFragments usable (remaining.drop usable)).map
                    (Prod.map (bodyFrame channel) id)) state next error hsend
                simp only [frame, more, bodyFrame] at hsend
                simp only [hsend]
                exact heach.symm
            | ok =>
                have heach := @sendEach_sent_head frame more
                  ((bodyFragments usable (remaining.drop usable)).map
                    (Prod.map (bodyFrame channel) id)) state next hsend
                obtain ⟨_, _, hprogress, _⟩ :=
                  amqpSendFrameInner_sent (Or.inl rfl) hsend
                have hanswers := (hprogress rfl).1
                simp only [frame, more, bodyFrame] at hsend
                simp only [hsend]
                rw [ih (remaining.drop usable) (by omega)]
                exact heach.symm

/-- The method needs more than the eight bytes that leave nothing to a body. -/
theorem publish_refused
    {state : SendState} (hbuffer : state.outboundBuffer.length ≤ 8)
    (more : Bool) :
    ∃ status,
      amqpSendFrameInner ⟨channel, .method method⟩ more state =
        some (.error (.encoder status), state) := by
  have hover :
      ¬ ((FramePayload.method method).stringsFit = true ∧
        (FramePayload.method method).lengthFits = true ∧
        (Frame.mk channel (.method method)).wire.length ≤
          state.outboundBuffer.length) := by
    rintro ⟨_, _, hroom⟩
    have hlength := (Frame.mk channel (.method method)).wire_length
    simp only [FramePayload.wire, List.length_append, bigEndian_length,
      headerSize, footerSize] at hlength
    omega
  obtain ⟨status, hstatus⟩ :=
    amqpFrameToBytes_refuses ⟨channel, .method method⟩ (Or.inr (by omega))
      hover
  exact ⟨status, by simp only [amqpSendFrameInner, hstatus]⟩

theorem usableBodyPayloadSize_eq
    {frameMax : ℕ} (hmin : 8 ≤ frameMax) (hint : frameMax < 2 ^ 32) :
    usableBodyPayloadSize frameMax = frameMax - 8 := by
  unfold usableBodyPayloadSize headerSize footerSize
  omega

/-- Publishing sends the frames of the message one after the other, also where
the loop over the body would not end: then the method has been refused. -/
theorem publishContent_eq
    {frameMax : ℕ} (hint : frameMax < 2 ^ 32) {state : SendState}
    (hbuffer : state.outboundBuffer.length = frameMax) :
    publishContent channel (usableBodyPayloadSize frameMax) method properties
        body state =
      sendEach
        (flaggedFrames channel (usableBodyPayloadSize frameMax) method
          properties body) state := by
  by_cases hsmall : frameMax ≤ 8
  · obtain ⟨status, hstatus⟩ :=
      @publish_refused channel method state (by omega) true
    rw [flaggedFrames, sendEach_failed_head hstatus, publishContent]
    simp only [hstatus]
  · have husable : usableBodyPayloadSize frameMax ≠ 0 := by
      rw [usableBodyPayloadSize_eq (by omega) hint]
      omega
    cases hmethod :
        amqpSendFrameInner ⟨channel, .method method⟩ true state with
    | none =>
        rw [flaggedFrames, sendEach_blocked_head hmethod, publishContent]
        simp only [hmethod]
    | some sent =>
        obtain ⟨result, next⟩ := sent
        cases result with
        | error error =>
            rw [flaggedFrames, sendEach_failed_head hmethod, publishContent]
            simp only [hmethod]
        | ok =>
            rw [flaggedFrames, sendEach_sent_head hmethod, publishContent]
            simp only [hmethod]
            cases hheader :
                amqpSendFrameInner
                  ⟨channel, .header (UInt64.ofNat body.length) properties⟩
                  true next with
            | none => rw [sendEach_blocked_head hheader]
            | some sent =>
                obtain ⟨result, last⟩ := sent
                cases result with
                | error error => rw [sendEach_failed_head hheader]
                | ok =>
                    rw [sendEach_sent_head hheader]
                    exact publishBody_eq husable _ body (Nat.lt_succ_self _)

theorem flaggedFrames_last_flag (husable : usable ≠ 0) :
    (flaggedFrames channel usable method properties body).getLast?.map
        Prod.snd =
      some (decide (usable ∣ body.length)) := by
  unfold flaggedFrames
  by_cases hbody : body = []
  · rw [hbody, bodyFragments_nil]
    simp
  · have hlast := bodyFragments_last_flag husable body hbody
    cases hfragments : bodyFragments usable body with
    | nil =>
        rw [hfragments] at hlast
        cases hlast
    | cons first others =>
        rw [hfragments] at hlast
        rw [List.map_cons, List.getLast?_cons_cons, List.getLast?_cons_cons,
          ← List.map_cons, List.getLast?_map, Option.map_map]
        exact hlast

end Frames

/-! ## Publishing -/

section Publish

variable {overdue : Bool} {channel : UInt16} {exchange routingKey : Bytes}
  {mandatory immediate : Bool} {given : Option BasicProperties} {body : Bytes}
  {state after : SendState} {result : Except SendError Unit}

/-- What a call that returns has sent. -/
theorem amqpBasicPublish_sends
    (hbuffer : state.outboundBuffer.length = state.conn.input.frameMax)
    (hint : state.conn.input.frameMax < 2 ^ 32)
    (hrun :
      amqpBasicPublish overdue channel exchange routingKey mandatory immediate
        given body state = some (result, after)) :
    ∃ next, next.outboundBuffer.length = state.conn.input.frameMax ∧
      next.sends = state.sends ∧
      (Decoded result → Received state.conn next.conn) ∧
      (after = next ∧ result ≠ .ok () ∨
        sendEach
            (flaggedFrames channel
              (usableBodyPayloadSize state.conn.input.frameMax)
              (publishMethod exchange routingKey mandatory immediate)
              (given.getD defaultProperties).val body) next =
          some (result, after)) := by
  cases overdue with
  | false =>
      have heq := @publishContent_eq channel
        (publishMethod exchange routingKey mandatory immediate)
        (given.getD defaultProperties).val body state.conn.input.frameMax hint
        state hbuffer
      exact ⟨state, hbuffer, rfl, fun _ => .refl state.conn,
        Or.inr (heq.symm.trans hrun)⟩
  | true =>
      have hframe := recvFromSilentPeer_frame state
      cases hrecv : recvFromSilentPeer state with
      | mk first next =>
          rw [hrecv] at hframe
          obtain ⟨hsame, _, hsends⟩ := hframe
          have hlength :
              next.outboundBuffer.length = state.conn.input.frameMax := by
            rw [hsame]
            exact hbuffer
          cases first with
          | error error =>
              simp only [amqpBasicPublish, if_true, hrecv, Option.some.injEq,
                Prod.mk.injEq] at hrun
              refine ⟨next, hlength, hsends, ?_, Or.inl ⟨hrun.2.symm, ?_⟩⟩
              · intro hdecoded
                rw [← hrun.1] at hdecoded
                exact recvFromSilentPeer_received hrecv hdecoded
              · intro hok
                rw [← hrun.1] at hok
                cases hok
          | ok =>
              simp only [amqpBasicPublish, if_true, hrecv] at hrun
              have heq := @publishContent_eq channel
                (publishMethod exchange routingKey mandatory immediate)
                (given.getD defaultProperties).val body
                state.conn.input.frameMax hint next hlength
              exact ⟨next, hlength, hsends,
                fun _ => recvFromSilentPeer_received hrecv decoded_ok,
                Or.inr (heq.symm.trans hrun)⟩

/-- The first frame of a message that goes out at all is its method, which
leaves room for more than eight bytes. -/
theorem lt_frameMax_of_tried
    {method : Method} {properties : Properties} {bodySize frameMax : ℕ}
    {fragments : List Bytes} {tried others : List Frame}
    (hframes :
      publishedFrames channel method properties bodySize fragments =
        tried ++ others)
    (hsome : tried ≠ [])
    (htried : ∀ frame ∈ tried, frame.wire.length ≤ frameMax) :
    8 < frameMax := by
  cases tried with
  | nil => exact (hsome rfl).elim
  | cons first tried =>
      rw [publishedFrames, List.cons_append, List.cons.injEq] at hframes
      have hmethod := htried first List.mem_cons_self
      have hlength := first.wire_length
      rw [← hframes.1] at hmethod hlength
      simp only [FramePayload.wire, List.length_append, bigEndian_length,
        headerSize, footerSize] at hlength
      omega

/-- The bytes of a message that go out are a part of its frames from the first
on, all of them if the call succeeds. -/
theorem amqpBasicPublish_written
    (hbuffer : state.outboundBuffer.length = state.conn.input.frameMax)
    (hint : state.conn.input.frameMax < 2 ^ 32)
    (hrun :
      amqpBasicPublish overdue channel exchange routingKey mandatory immediate
        given body state = some (result, after)) :
    ∃ tried others left,
      publishedFrames channel
          (publishMethod exchange routingKey mandatory immediate)
          (given.getD defaultProperties).val body.length
          ((bodyFragments (usableBodyPayloadSize state.conn.input.frameMax)
            body).map Prod.fst) = tried ++ others ∧
        after.written ++ left = state.written ++ tried.flatMap Frame.wire ∧
        (∀ frame ∈ tried, frame.payload.stringsFit = true ∧
          frame.wire.length ≤ state.conn.input.frameMax) ∧
        (tried ≠ [] → 8 < state.conn.input.frameMax) ∧
        (result = .ok () → others = [] ∧ left = []) := by
  obtain ⟨next, hlength, hsends, _, hrest⟩ :=
    amqpBasicPublish_sends hbuffer hint hrun
  have hnext : next.written = state.written := by
    unfold SendState.written
    rw [hsends]
  rcases hrest with ⟨hafter, hfailed⟩ | heach
  · rw [hafter, hnext]
    refine ⟨[], _, [], rfl, rfl, ?_, fun hsome => (hsome rfl).elim,
      fun hok => (hfailed hok).elim⟩
    intro frame hframe
    cases hframe
  · have hroom := hlength.trans_lt hint
    obtain ⟨⟨tried, others, left, hframes, hwritten, htried, hok⟩, _⟩ :=
      sendEach_sent _ (fun _ _ => Or.inr hroom) heach
    rw [map_fst_flaggedFrames] at hframes
    rw [hnext] at hwritten
    rw [hlength] at htried
    refine ⟨tried, others, left, hframes, hwritten, htried, ?_, hok.mp⟩
    intro hsome
    exact lt_frameMax_of_tried hframes hsome fun frame hframe =>
      (htried frame hframe).2

theorem lt_frameMax_of_sent
    (hbuffer : state.outboundBuffer.length = state.conn.input.frameMax)
    (hint : state.conn.input.frameMax < 2 ^ 32)
    (hrun :
      amqpBasicPublish overdue channel exchange routingKey mandatory immediate
        given body state = some (.ok (), after)) :
    8 < state.conn.input.frameMax := by
  obtain ⟨tried, others, left, hframes, _, _, hroom, hok⟩ :=
    amqpBasicPublish_written hbuffer hint hrun
  apply hroom
  intro hnone
  rw [hnone, (hok rfl).1] at hframes
  cases hframes

/-! ## What the call leaves behind -/

/-- Frames that arrive while a message is published are not lost: they are
queued in their order. -/
theorem publish_queues_arrivals
    (hbuffer : state.outboundBuffer.length = state.conn.input.frameMax)
    (hint : state.conn.input.frameMax < 2 ^ 32)
    (hrun :
      amqpBasicPublish overdue channel exchange routingKey mandatory immediate
        given body state = some (result, after))
    (hdecoded : Decoded result) {frames : List Frame} {error : Option Status}
    (hpending : Pending state.conn frames error) :
    ∃ arrived rest, frames = arrived ++ rest ∧
      after.conn.queued = state.conn.queued ++ arrived ∧
        Pending after.conn rest error := by
  obtain ⟨next, hlength, _, hreceived, hrest⟩ :=
    amqpBasicPublish_sends hbuffer hint hrun
  have hnext := hreceived hdecoded
  rcases hrest with ⟨hafter, _⟩ | heach
  · rw [hafter]
    exact hnext.appends hpending
  · have hroom := hlength.trans_lt hint
    have hafter := (sendEach_sent _ (fun _ _ => Or.inr hroom) heach).2 hdecoded
    exact (hnext.trans hafter).appends hpending

/-- The last part of a message is flagged as if more followed exactly if the
body fills all of its frames, as an empty body does. -/
theorem publish_last_flag
    (hbuffer : state.outboundBuffer.length = state.conn.input.frameMax)
    (hint : state.conn.input.frameMax < 2 ^ 32)
    (hrun :
      amqpBasicPublish overdue channel exchange routingKey mandatory immediate
        given body state = some (.ok (), after)) :
    after.sends.getLast?.map Prod.snd =
      some (decide (state.conn.input.frameMax - 8 ∣ body.length)) := by
  have hmin := lt_frameMax_of_sent hbuffer hint hrun
  obtain ⟨next, hlength, _, _, hrest⟩ :=
    amqpBasicPublish_sends hbuffer hint hrun
  have husable := usableBodyPayloadSize_eq hmin.le hint
  rcases hrest with ⟨_, hfailed⟩ | heach
  · exact (hfailed rfl).elim
  · rw [husable] at heach
    have hroom := hlength.trans_lt hint
    have hlast :=
      sendEach_last_flag _ (List.cons_ne_nil _ _) (fun _ _ => Or.inr hroom)
        heach
    rw [hlast]
    exact flaggedFrames_last_flag (by omega)

end Publish

/-- A connection that may send frames of 32 bytes; `send` takes the second
frame in two parts. -/
def publishingState : SendState where
  conn := ⟨(amqpNewConnection 32).returnToIdle, [], [], []⟩
  outboundBuffer := List.replicate 32 0
  answers := [.sent 99, .ready, .sent 3, .sent 99, .sent 99]
  sends := []

/-- The same connection when `mq` has been published. -/
def publishedState : SendState where
  conn := publishingState.conn
  outboundBuffer := publishingState.outboundBuffer
  answers := []
  sends :=
    [([1, 0, 1, 0, 0, 0, 11, 0, 60, 0, 40, 0, 0, 1, 101, 1, 113, 0, 206], true),
      ([2, 0, 1, 0], true),
      ([0, 0, 14, 0, 60, 0, 0, 0, 0, 0, 0, 0, 0, 0, 2, 0, 0, 206], true),
      ([3, 0, 1, 0, 0, 0, 2, 109, 113, 206], false)]

theorem publishingState_run :
    amqpBasicPublish false 1 ['e'.toUInt8] ['q'.toUInt8] false false none
        ['m'.toUInt8, 'q'.toUInt8] publishingState =
      some (.ok (), publishedState) :=
  rfl

/-- A decoder between two frames, with what is left of the one before. -/
def idleInput (headerBuffer : Bytes) : InputState :=
  { (amqpNewConnection 32).returnToIdle with headerBuffer := headerBuffer }

/-- A heartbeat and a body have been received behind another body that is in
the queue, and one more body arrives.  The peer has been silent for too long
when the call begins. -/
def overtakenState : SendState where
  conn :=
    ⟨(amqpNewConnection 32).returnToIdle,
      [8, 0, 0, 0, 0, 0, 0, 206, 3, 0, 1, 0, 0, 0, 1, 7, 206],
      [⟨1, .body [6]⟩], [.data [3, 0, 1, 0, 0, 0, 1, 8, 206]]⟩
  outboundBuffer := publishingState.outboundBuffer
  answers := publishingState.answers
  sends := []

/-- The connection when `amqp_try_recv` has returned. -/
def overtakenConn : SocketState where
  input := idleInput [3, 0, 1, 0, 0, 0, 1, 0]
  sockInbound := [3, 0, 1, 0, 0, 0, 1, 8, 206]
  queued := [⟨1, .body [6]⟩, ⟨0, .heartbeat⟩, ⟨1, .body [7]⟩]
  incoming := []

/-- Between the heartbeat and the body. -/
def overtakenBeat : SocketState where
  input := idleInput [8, 0, 0, 0, 0, 0, 0, 0]
  sockInbound := [3, 0, 1, 0, 0, 0, 1, 7, 206]
  queued := [⟨1, .body [6]⟩, ⟨0, .heartbeat⟩]
  incoming := overtakenState.conn.incoming

theorem overtakenState_tryRecv :
    amqpTryRecv overtakenState.conn = (.ok (), overtakenConn) := by
  have hbeat :
      consumeOneFrame overtakenState.conn =
        (.ok (some ⟨0, .heartbeat⟩),
          { overtakenBeat with queued := overtakenState.conn.queued }) :=
    rfl
  have hbody :
      consumeOneFrame overtakenBeat =
        (.ok (some ⟨1, .body [7]⟩),
          { overtakenBeat with
            input := overtakenConn.input
            sockInbound := [] }) :=
    rfl
  have hlength : overtakenState.conn.sockInbound.length = 17 := rfl
  have hqueued :
      queueBuffered 17 overtakenState.conn =
        queueBuffered 16 overtakenBeat := by
    have hdata : overtakenState.conn.sockInbound ≠ [] := by decide
    rw [queueBuffered, if_neg hdata, hbeat]
    rfl
  have hdata : overtakenBeat.sockInbound ≠ [] := by decide
  rw [amqpTryRecv, hlength, hqueued, queueBuffered, if_neg hdata, hbody]
  rfl

theorem publish_queues_arrivals_two :
    ∃ arrived rest,
      [⟨0, .heartbeat⟩, ⟨1, .body [7]⟩, ⟨1, .body [8]⟩] = arrived ++ rest ∧
        overtakenConn.queued = overtakenState.conn.queued ++ arrived ∧
          Pending overtakenConn rest none := by
  have hrecv :
      recvFromSilentPeer overtakenState =
        (.ok (), { overtakenState with conn := overtakenConn }) := by
    simp only [recvFromSilentPeer, overtakenState_tryRecv]
  have hrun :
      amqpBasicPublish true 1 ['e'.toUInt8] ['q'.toUInt8] false false none
          ['m'.toUInt8, 'q'.toUInt8] overtakenState =
        some (.ok (), { publishedState with conn := overtakenConn }) := by
    simp only [amqpBasicPublish, if_true, hrecv]
    rfl
  have hpending :
      Pending overtakenState.conn
        [⟨0, .heartbeat⟩, ⟨1, .body [7]⟩, ⟨1, .body [8]⟩] none :=
    @pending_of_wires 32 overtakenState.conn
      [⟨0, .heartbeat⟩, ⟨1, .body [7]⟩, ⟨1, .body [8]⟩] (collected_idle 32)
      (by decide) (by decide) rfl
  exact publish_queues_arrivals rfl (by decide) hrun decoded_ok hpending

theorem publish_last_flag_mq :
    publishedState.sends.getLast?.map Prod.snd =
      some (decide (publishingState.conn.input.frameMax - 8 ∣
        ['m'.toUInt8, 'q'.toUInt8].length)) :=
  publish_last_flag rfl (by decide) publishingState_run

/-! ## Arriving at the broker -/

/-- What has gone out of some frames is received as some of them. -/
theorem wires_arrive
    {frameMax : ℕ} (hint : frameMax < 2 ^ 32) {tried : List Frame}
    (hfit : ∀ frame ∈ tried,
      frame.payload.stringsFit = true ∧ frame.payload.tablesFit = true ∧
        frame.wire.length ≤ frameMax)
    {broker : InputState} (hidle : Collected frameMax broker .later [])
    {pieces : List Bytes} {left : Bytes}
    (hpieces : pieces.flatten ++ left = tried.flatMap Frame.wire) :
    ∃ frames ending,
      Handed (Collected frameMax) (feed amqpHandleInput broker pieces) frames
          ending ∧
        (∀ status, ending ≠ .error status) ∧
        frames <+: tried.map Frame.normal ∧
        (left = [] →
          frames = tried.map Frame.normal ∧ ending = .ok (.later, [])) := by
  have hwhole := splits_wires hint tried hfit
  rw [← hpieces] at hwhole
  obtain ⟨frames, ending, hfirst, hprefix, herror⟩ := hwhole.of_append
  have hending : ∀ status, ending ≠ .error status := by
    intro status hstatus
    have hother := herror status hstatus
    cases hother
  refine ⟨frames, ending, ?_, hending, hprefix, ?_⟩
  · apply (receives_amqpHandleInput frameMax).feed pieces hidle hfirst
    intro status hstatus
    exact (hending status hstatus).elim
  · intro hleft
    rw [hleft, List.append_nil] at hwhole
    exact hfirst.unique hwhole

section Broker

variable {channel : UInt16} {method : Method} {properties : Properties}
  {bodySize : ℕ} {fragments : List Bytes}

theorem map_normal_publishedFrames :
    (publishedFrames channel method properties bodySize fragments).map
        Frame.normal =
      publishedFrames channel method properties.normal bodySize fragments := by
  unfold publishedFrames
  rw [List.map_cons, List.map_cons, List.map_map]
  rfl

theorem tablesFit_publishedFrames
    (hmethod : method.tablesFit = true)
    (hproperties : properties.tablesFit = true) :
    ∀ frame ∈ publishedFrames channel method properties bodySize fragments,
      frame.payload.tablesFit = true := by
  intro frame hframe
  rcases List.mem_cons.mp hframe with heq | hrest
  · rw [heq]
    exact hmethod
  · rcases List.mem_cons.mp hrest with heq | hbody
    · rw [heq]
      exact hproperties
    · obtain ⟨bodyFragment, _, heq⟩ := List.mem_map.mp hbody
      rw [← heq]
      rfl

/-- What has gone out of a message is received as some of its frames. -/
theorem published_arrive
    {frameMax ownMax : ℕ} (hint : frameMax < 2 ^ 32)
    (hmethod : method.tablesFit = true)
    (hproperties : properties.tablesFit = true) {tried others : List Frame}
    (hframes :
      publishedFrames channel method properties bodySize fragments =
        tried ++ others)
    (htried : ∀ frame ∈ tried,
      frame.payload.stringsFit = true ∧ frame.wire.length ≤ ownMax)
    (hmax : ownMax ≤ frameMax) {broker : InputState}
    (hidle : Collected frameMax broker .later []) {pieces : List Bytes}
    {left : Bytes}
    (hpieces : pieces.flatten ++ left = tried.flatMap Frame.wire) :
    ∃ frames ending,
      Handed (Collected frameMax) (feed amqpHandleInput broker pieces) frames
          ending ∧
        (∀ status, ending ≠ .error status) ∧
        frames <+: tried.map Frame.normal ∧
        (left = [] →
          frames = tried.map Frame.normal ∧ ending = .ok (.later, [])) := by
  apply wires_arrive hint _ hidle hpieces
  intro frame hframe
  obtain ⟨hstrings, hlength⟩ := htried frame hframe
  have hmem := List.mem_append_left others hframe
  rw [← hframes] at hmem
  exact ⟨hstrings, tablesFit_publishedFrames hmethod hproperties frame hmem,
    hlength.trans hmax⟩

end Broker

/-- However `send` takes the bytes and however the network cuts them, and
whether the call succeeds or not: a broker that accepts frames as large as the
publisher's receives a part of the frames of the message from the first on, and
nothing else; if the call succeeds it receives all of them.  The fragments of
these frames are the body. -/
theorem publish_arrives
    {overdue : Bool} {channel : UInt16} {exchange routingKey : Bytes}
    {mandatory immediate : Bool} {given : Option BasicProperties}
    {body : Bytes} {state after : SendState} {result : Except SendError Unit}
    (hbuffer : state.outboundBuffer.length = state.conn.input.frameMax)
    (htables : (given.getD defaultProperties).val.tablesFit = true)
    (hrun :
      amqpBasicPublish overdue channel exchange routingKey mandatory immediate
        given body state = some (result, after))
    {frameMax : ℕ} (hmax : state.conn.input.frameMax ≤ frameMax)
    (hint : frameMax < 2 ^ 32) {broker : InputState}
    (hidle : Collected frameMax broker .later []) (pieces : List Bytes)
    (hpieces : after.written = state.written ++ pieces.flatten) :
    let fragments :=
      (bodyFragments (usableBodyPayloadSize state.conn.input.frameMax)
        body).map Prod.fst
    let published :=
      publishedFrames channel
        (publishMethod exchange routingKey mandatory immediate)
        (given.getD defaultProperties).val.normal body.length fragments
    ∃ frames ending,
      Handed (Collected frameMax) (feed amqpHandleInput broker pieces) frames
          ending ∧
        (∀ status, ending ≠ .error status) ∧
        frames <+: published ∧
        (frames ≠ [] →
          fragments.flatten = body ∧
            ∀ fragment ∈ fragments,
              fragment ≠ [] ∧
                fragment.length + 8 ≤ state.conn.input.frameMax) ∧
        (result = .ok () → frames = published) := by
  intro fragments published
  have hown : state.conn.input.frameMax < 2 ^ 32 := hmax.trans_lt hint
  obtain ⟨tried, others, left, hframes, hwritten, htried, hroom, hok⟩ :=
    amqpBasicPublish_written hbuffer hown hrun
  rw [hpieces, List.append_assoc, List.append_cancel_left_eq] at hwritten
  have hmethod :
      (publishMethod exchange routingKey mandatory immediate).tablesFit =
        true :=
    rfl
  obtain ⟨frames, ending, hhanded, hending, hprefix, hall⟩ :=
    published_arrive hint hmethod htables hframes htried hmax hidle hwritten
  have hnormal : published = (tried ++ others).map Frame.normal := by
    rw [← hframes, map_normal_publishedFrames]
  refine ⟨frames, ending, hhanded, hending, ?_, ?_, ?_⟩
  · rw [hnormal, List.map_append]
    exact hprefix.trans (List.prefix_append _ _)
  · intro hsome
    have htriedSome : tried ≠ [] := by
      intro hnone
      rw [hnone] at hprefix
      exact hsome (List.prefix_nil.mp hprefix)
    have hmin := hroom htriedSome
    have husable := usableBodyPayloadSize_eq hmin.le hown
    have hpositive :
        usableBodyPayloadSize state.conn.input.frameMax ≠ 0 := by
      omega
    refine ⟨flatten_bodyFragments hpositive body, ?_⟩
    intro fragment hfragment
    obtain ⟨hne, hle⟩ := mem_bodyFragments hpositive body fragment hfragment
    exact ⟨hne, by omega⟩
  · intro hresult
    obtain ⟨hothers, hleft⟩ := hok hresult
    rw [hothers, List.append_nil] at hnormal
    exact (hall hleft).1.trans hnormal.symm

theorem publish_arrives_mq :
    let fragments :=
      (bodyFragments
        (usableBodyPayloadSize publishingState.conn.input.frameMax)
        ['m'.toUInt8, 'q'.toUInt8]).map Prod.fst
    let published :=
      publishedFrames 1 (publishMethod ['e'.toUInt8] ['q'.toUInt8] false false)
        defaultProperties.val.normal 2 fragments
    ∃ frames ending,
      Handed (Collected 64)
          (feed amqpHandleInput (amqpNewConnection 64).returnToIdle
            [publishedState.written.take 25, publishedState.written.drop 25])
          frames ending ∧
        (∀ status, ending ≠ .error status) ∧
        frames <+: published ∧
        (frames ≠ [] →
          fragments.flatten = ['m'.toUInt8, 'q'.toUInt8] ∧
            ∀ fragment ∈ fragments,
              fragment ≠ [] ∧
                fragment.length + 8 ≤
                  publishingState.conn.input.frameMax) ∧
        ((.ok () : Except SendError Unit) = .ok () → frames = published) := by
  have hpieces :
      publishedState.written =
        publishingState.written ++
          [publishedState.written.take 25,
            publishedState.written.drop 25].flatten := by
    decide
  exact publish_arrives rfl rfl publishingState_run (by decide) (by decide)
    (collected_idle 64) _ hpieces

/-! ## The programs -/

/-- The properties the programs set: a delivery mode of 2. -/
def persistentProperties : BasicProperties :=
  ⟨⟨.basic, 0x1000, ((2 : UInt8), ())⟩, rfl⟩

/-- `MqMessagePublish`; the program exits when the call fails. -/
def mqMessagePublish (overdue : Bool) (channel : UInt16)
    (exchange queueName messageBody : Bytes) (state : SendState) :
    Option (Except SendError Unit × SendState) :=
  let _props := persistentProperties
  amqpBasicPublish overdue channel (cString exchange) (cString queueName) false
    false none (cString messageBody) state

/-- Of what a program publishes the broker receives the bytes before the first
NUL, and a content header without the delivery mode. -/
theorem mqMessagePublish_arrives
    {overdue : Bool} {channel : UInt16}
    {exchange queueName messageBody : Bytes} {state after : SendState}
    (hbuffer : state.outboundBuffer.length = state.conn.input.frameMax)
    (hrun :
      mqMessagePublish overdue channel exchange queueName messageBody state =
        some (.ok (), after))
    {frameMax : ℕ} (hmax : state.conn.input.frameMax ≤ frameMax)
    (hint : frameMax < 2 ^ 32) {broker : InputState}
    (hidle : Collected frameMax broker .later []) (pieces : List Bytes)
    (hpieces : after.written = state.written ++ pieces.flatten) :
    ∃ fragments properties,
      Handed (Collected frameMax) (feed amqpHandleInput broker pieces)
          (publishedFrames channel
            (publishMethod (cString exchange) (cString queueName) false false)
            properties (cString messageBody).length fragments)
          (.ok (.later, [])) ∧
        fragments.flatten = cString messageBody ∧ properties.flags = 0 ∧
        persistentProperties.val.flags ≠ properties.flags := by
  have hown : state.conn.input.frameMax < 2 ^ 32 := hmax.trans_lt hint
  obtain ⟨tried, others, left, hframes, hwritten, htried, _, hok⟩ :=
    amqpBasicPublish_written hbuffer hown hrun
  obtain ⟨hothers, hleft⟩ := hok rfl
  rw [hpieces, List.append_assoc, List.append_cancel_left_eq] at hwritten
  obtain ⟨frames, ending, hhanded, _, _, hall⟩ :=
    published_arrive hint rfl rfl hframes htried hmax hidle hwritten
  obtain ⟨hsame, hend⟩ := hall hleft
  rw [hothers, List.append_nil] at hframes
  rw [hsame, hend, ← hframes, map_normal_publishedFrames] at hhanded
  have hmin := lt_frameMax_of_sent hbuffer hown hrun
  have husable := usableBodyPayloadSize_eq hmin.le hown
  refine ⟨_, _, hhanded, ?_, rfl, by decide⟩
  exact flatten_bodyFragments (by omega) (cString messageBody)

/-- The message is cut at its NUL. -/
theorem mqMessagePublish_arrives_mq :
    ∃ fragments properties,
      Handed (Collected 64)
          (feed amqpHandleInput (amqpNewConnection 64).returnToIdle
            [publishedState.written])
          (publishedFrames 1
            (publishMethod (cString ['e'.toUInt8, 0]) (cString ['q'.toUInt8])
              false false)
            properties
            (cString ['m'.toUInt8, 'q'.toUInt8, 0, 'x'.toUInt8]).length
            fragments)
          (.ok (.later, [])) ∧
        fragments.flatten =
          cString ['m'.toUInt8, 'q'.toUInt8, 0, 'x'.toUInt8] ∧
        properties.flags = 0 ∧
        persistentProperties.val.flags ≠ properties.flags := by
  have hrun :
      mqMessagePublish false 1 ['e'.toUInt8, 0] ['q'.toUInt8]
          ['m'.toUInt8, 'q'.toUInt8, 0, 'x'.toUInt8] publishingState =
        some (.ok (), publishedState) :=
    rfl
  have hpieces :
      publishedState.written =
        publishingState.written ++ [publishedState.written].flatten := by
    decide
  exact mqMessagePublish_arrives rfl hrun (by decide) (by decide)
    (collected_idle 64) _ hpieces

end RabbitWork
