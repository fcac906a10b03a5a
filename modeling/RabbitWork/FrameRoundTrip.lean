import RabbitWork.FrameCodec

/-!
# Frames survive the wire

A frame is sent exactly if its strings fit and the outbound buffer, which is
as long as `frame_max`, has room for all of it; the bytes sent are its
serialised form, and a receiver that has collected them decodes the frame.
-/

namespace RabbitWork

open Wire

/-! ## Writing into the outbound buffer -/

theorem writes_poke (items : Bytes) : Writes (poke items) items := by
  intro outFrame offset
  constructor
  · intro hfits
    simp only [poke, if_pos hfits]
  · intro hfits
    exact ⟨.undefinedBehaviour, by simp only [poke, if_neg hfits]⟩

theorem poke_run
    {items outFrame : Bytes} {offset : ℕ}
    (hroom : offset + items.length ≤ outFrame.length) :
    poke items outFrame offset =
      .ok (splice outFrame offset items, offset + items.length) :=
  (writes_poke items outFrame offset).1 (Or.inr hroom)

theorem poke_length
    {items outFrame : Bytes} {offset : ℕ} {written : Bytes × ℕ}
    (hpoke : poke items outFrame offset = .ok written) :
    written.1.length = outFrame.length := by
  by_cases hfits : Fits outFrame offset items
  · rw [poke, if_pos hfits, Except.ok.injEq] at hpoke
    rw [← hpoke]
    exact splice_length hfits
  · rw [poke, if_neg hfits] at hpoke
    cases hpoke

/-- Two copies one after the other are one copy. -/
theorem poke_append (left right : Bytes) :
    writeThen (poke left) (poke right) = poke (left ++ right) := by
  funext outFrame offset
  by_cases hleft : Fits outFrame offset left
  · have hlength := splice_length hleft
    have hright :
        Fits (splice outFrame offset left) (offset + left.length) right ↔
          Fits outFrame (offset + left.length) right := by
      unfold Fits
      rw [hlength]
    by_cases hfits : Fits outFrame (offset + left.length) right
    · have hboth := fits_append.mpr ⟨hleft, hfits⟩
      have hrun :=
        ((writes_poke left).andThen (writes_poke right) outFrame offset).1
          hboth
      rw [hrun, poke, if_pos hboth]
    · have hboth : ¬ Fits outFrame offset (left ++ right) := by
        intro hboth
        exact hfits (fits_append.mp hboth).2
      simp only [writeThen, poke, if_pos hleft, bind, Except.bind, hright,
        if_neg hfits, if_neg hboth]
  · have hboth : ¬ Fits outFrame offset (left ++ right) := by
      intro hboth
      exact hleft (fits_append.mp hboth).1
    simp only [writeThen, poke, if_neg hleft, bind, Except.bind, if_neg hboth]

theorem take_splice_zero (buffer items : Bytes) :
    (splice buffer 0 items).take items.length = items := by
  simp [splice]

section Within

variable {encode : Bytes → Except Status (Bytes × ℕ)} {items outFrame : Bytes}
  {offset : ℕ}

theorem encodeWithin_run
    (hencode : ∀ encoded : Bytes, items.length ≤ encoded.length →
      encode encoded = .ok (splice encoded 0 items, items.length))
    (hroom : offset + items.length + footerSize ≤ outFrame.length) :
    encodeWithin encode outFrame offset =
      .ok (splice outFrame offset items, offset + items.length) := by
  unfold footerSize at hroom
  have hlength : ¬ outFrame.length < offset + footerSize := by
    unfold footerSize
    omega
  have hpart :
      items.length ≤
        ((outFrame.drop offset).take
          (outFrame.length - offset - footerSize)).length := by
    simp only [List.length_take, List.length_drop, footerSize]
    omega
  simp only [encodeWithin, if_neg hlength, hencode _ hpart, bind, Except.bind,
    Except.ok.injEq, Prod.mk.injEq, and_true]
  have hrest :
      ((outFrame.drop offset).take
            (outFrame.length - offset - footerSize)).drop items.length ++
          outFrame.drop (outFrame.length - footerSize) =
        outFrame.drop (offset + items.length) := by
    have hsplit :
        outFrame.drop (outFrame.length - footerSize) =
          (outFrame.drop (offset + items.length)).drop
            (outFrame.length - offset - footerSize - items.length) := by
      rw [List.drop_drop]
      congr 1
      unfold footerSize
      omega
    rw [List.drop_take, List.drop_drop, hsplit, List.take_append_drop]
  have hend :
      offset + (splice ((outFrame.drop offset).take
          (outFrame.length - offset - footerSize)) 0 items).length =
        outFrame.length - footerSize := by
    rw [splice_length (Or.inr (by rw [Nat.zero_add]; exact hpart))]
    simp only [List.length_take, List.length_drop, footerSize]
    omega
  rw [splice, hend]
  unfold splice
  rw [← hrest]
  simp

theorem encodeWithin_refuses
    (hencode : ∀ encoded : Bytes,
      offset + encoded.length + footerSize = outFrame.length →
        ∃ status, encode encoded = .error status) :
    ∃ status, encodeWithin encode outFrame offset = .error status := by
  by_cases hlength : outFrame.length < offset + footerSize
  · exact ⟨.undefinedBehaviour, by simp only [encodeWithin, if_pos hlength]⟩
  · have hpart :
        offset +
            ((outFrame.drop offset).take
              (outFrame.length - offset - footerSize)).length +
          footerSize = outFrame.length := by
      simp only [List.length_take, List.length_drop]
      omega
    obtain ⟨status, hstatus⟩ := hencode _ hpart
    exact ⟨status, by
      simp only [encodeWithin, if_neg hlength, hstatus, bind, Except.bind]⟩

end Within

/-! ## Payloads -/

theorem poke_encodeWithin_run
    {encode : Bytes → Except Status (Bytes × ℕ)}
    {items outFrame : Bytes} (fixed : Bytes) {offset : ℕ}
    (hencode : ∀ encoded : Bytes, items.length ≤ encoded.length →
      encode encoded = .ok (splice encoded 0 items, items.length))
    (hroom :
      offset + (fixed ++ items).length + footerSize ≤ outFrame.length) :
    writeThen (poke fixed) (encodeWithin encode) outFrame offset =
      .ok (splice outFrame offset (fixed ++ items),
        offset + (fixed ++ items).length) := by
  rw [List.length_append] at hroom
  have hfixed : offset + fixed.length ≤ outFrame.length := by omega
  have hlength := splice_length (Or.inr hfixed)
  have hrest :
      offset + fixed.length + items.length + footerSize ≤
        (splice outFrame offset fixed).length := by
    rw [hlength]
    omega
  simp only [writeThen, poke_run hfixed, bind, Except.bind,
    encodeWithin_run hencode hrest]
  rw [splice_splice outFrame fixed items hfixed, List.length_append,
    Nat.add_assoc]

theorem poke_encodeWithin_refuses
    {encode : Bytes → Except Status (Bytes × ℕ)} {outFrame : Bytes}
    (fixed : Bytes) {offset : ℕ}
    (hencode : ∀ encoded : Bytes,
      offset + fixed.length + encoded.length + footerSize = outFrame.length →
        ∃ status, encode encoded = .error status) :
    ∃ status,
      writeThen (poke fixed) (encodeWithin encode) outFrame offset =
        .error status := by
  by_cases hfixed : Fits outFrame offset fixed
  · have hrun := (writes_poke fixed outFrame offset).1 hfixed
    rw [← splice_length hfixed] at hencode
    obtain ⟨status, hstatus⟩ := encodeWithin_refuses hencode
    exact ⟨status, by
      simp only [writeThen, hrun, bind, Except.bind, hstatus]⟩
  · obtain ⟨status, hstatus⟩ := (writes_poke fixed outFrame offset).2 hfixed
    exact ⟨status, by simp only [writeThen, hstatus, bind, Except.bind]⟩

/-- The fixed part of a content header. -/
def headerFixed (bodySize : UInt64) (contentClass : ContentClass) : Bytes :=
  bigEndian 2 contentClass.number.toNat ++
    (bigEndian 2 0 ++ bigEndian 8 bodySize.toNat)

theorem encodePayload_header (bodySize : UInt64) (properties : Properties) :
    encodePayload (.header bodySize properties) =
      writeThen (poke (headerFixed bodySize properties.contentClass))
        (encodeWithin (amqpEncodeProperties properties)) := by
  unfold headerFixed
  rw [← poke_append, ← poke_append, writeThen_assoc, writeThen_assoc]
  rfl

theorem wire_header (bodySize : UInt64) (properties : Properties) :
    (FramePayload.header bodySize properties).wire =
      headerFixed bodySize properties.contentClass ++ properties.wire := by
  simp [FramePayload.wire, headerFixed]

theorem encodePayload_run
    (payload : FramePayload) (hstrings : payload.stringsFit = true)
    (hint : payload.lengthFits = true) {outFrame : Bytes} {offset : ℕ}
    (hroom :
      offset + payload.wire.length + footerSize ≤ outFrame.length) :
    encodePayload payload outFrame offset =
      .ok (splice outFrame offset payload.wire,
        offset + payload.wire.length) := by
  cases payload with
  | method method =>
      apply poke_encodeWithin_run _ _ hroom
      intro encoded hlength
      exact amqpEncodeMethod_eq method hstrings (of_decide_eq_true hint) hlength
  | header bodySize properties =>
      rw [wire_header] at hroom ⊢
      rw [encodePayload_header]
      apply poke_encodeWithin_run _ _ hroom
      intro encoded hlength
      exact amqpEncodeProperties_eq properties hstrings
        (of_decide_eq_true hint) hlength
  | body bodyFragment =>
      apply poke_run
      simp only [FramePayload.wire] at hroom
      omega
  | heartbeat =>
      simp [encodePayload, FramePayload.wire, splice_nil]
  | protocolHeader => simp [FramePayload.stringsFit] at hstrings

theorem lt_of_int_of_lt
    {length room : ℕ} (hint : length < 2 ^ 31 ∨ room < 2 ^ 32)
    (hroom : length ≤ room) (hmod : length % 2 ^ 32 < 2 ^ 31) :
    length < 2 ^ 31 := by
  omega

/-- Where the payload and the footer do not both fit, the payload is refused
or the footer will be. -/
theorem encodePayload_over
    (payload : FramePayload) {outFrame : Bytes} {offset : ℕ}
    (hint : payload.lengthFits = true ∨ outFrame.length < 2 ^ 32)
    (hover :
      ¬ (payload.stringsFit = true ∧ payload.lengthFits = true ∧
        offset + payload.wire.length + footerSize ≤ outFrame.length)) :
    (∃ status, encodePayload payload outFrame offset = .error status) ∨
      encodePayload payload outFrame offset =
          .ok (splice outFrame offset payload.wire,
            offset + payload.wire.length) ∧
        Fits outFrame offset payload.wire ∧
          outFrame.length < offset + payload.wire.length + footerSize := by
  cases payload with
  | method method =>
      left
      apply poke_encodeWithin_refuses
      intro encoded hlength
      apply amqpEncodeMethod_refuses
      rintro ⟨hstrings, hroom, hmod⟩
      have hshort : method.wire.length < 2 ^ 31 := by
        apply lt_of_int_of_lt (hint.imp_left of_decide_eq_true) _ hmod
        omega
      apply hover
      refine ⟨hstrings, decide_eq_true hshort, ?_⟩
      simp only [FramePayload.wire, List.length_append]
      omega
  | header bodySize properties =>
      left
      rw [encodePayload_header]
      apply poke_encodeWithin_refuses
      intro encoded hlength
      apply amqpEncodeProperties_refuses
      rintro ⟨hstrings, hroom, hmod⟩
      have hshort : properties.wire.length < 2 ^ 31 := by
        apply lt_of_int_of_lt (hint.imp_left of_decide_eq_true) _ hmod
        omega
      apply hover
      refine ⟨hstrings, decide_eq_true hshort, ?_⟩
      rw [wire_header, List.length_append]
      omega
  | body bodyFragment =>
      by_cases hfits : Fits outFrame offset bodyFragment
      · right
        refine ⟨(writes_poke bodyFragment outFrame offset).1 hfits, hfits, ?_⟩
        by_contra hroom
        exact hover ⟨rfl, rfl, not_lt.mp hroom⟩
      · exact Or.inl ((writes_poke bodyFragment outFrame offset).2 hfits)
  | heartbeat =>
      right
      refine ⟨?_, Or.inl rfl, ?_⟩
      · simp [encodePayload, FramePayload.wire, splice_nil]
      · by_contra hroom
        exact hover ⟨rfl, rfl, not_lt.mp hroom⟩
  | protocolHeader =>
      exact Or.inl ⟨.invalidParameter, rfl⟩

/-! ## Whole frames -/

theorem Frame.wire_length (frame : Frame) :
    frame.wire.length = frame.payload.wire.length + headerSize + footerSize := by
  simp only [Frame.wire, sizedWire, List.length_append, bigEndian_length,
    List.length_singleton, headerSize, footerSize]
  omega

/-- What stands before the size of the payload. -/
def Frame.front (frame : Frame) : Bytes :=
  bigEndian 1 frame.payload.frameType.toNat ++
    bigEndian 2 frame.channel.toNat

/-- The outbound buffer when the payload is to be written. -/
def Frame.fronted (frame : Frame) (buffer : Bytes) : Bytes :=
  splice buffer 0 frame.front

theorem Frame.front_length (frame : Frame) : frame.front.length = 3 := by
  simp [Frame.front]

section Sending

variable (frame : Frame) {buffer : Bytes}

theorem pokes_front (hbuffer : 3 ≤ buffer.length) :
    ∃ typed,
      poke (bigEndian 1 frame.payload.frameType.toNat) buffer 0 =
          .ok (typed, 1) ∧
        poke (bigEndian 2 frame.channel.toNat) typed 1 =
          .ok (frame.fronted buffer, 3) := by
  let kind := bigEndian 1 frame.payload.frameType.toNat
  have hkind : 0 + kind.length ≤ buffer.length := by
    simp only [kind, bigEndian_length]
    omega
  have htyped := splice_length (Or.inr hkind)
  have hchannel :
      1 + (bigEndian 2 frame.channel.toNat).length ≤
        (splice buffer 0 kind).length := by
    rw [htyped, bigEndian_length]
    omega
  refine ⟨splice buffer 0 kind, ?_, ?_⟩
  · rw [poke_run hkind, bigEndian_length]
  · have hsplice :=
      splice_splice buffer kind (bigEndian 2 frame.channel.toNat) hkind
    simp only [kind, bigEndian_length, Nat.zero_add] at hsplice
    rw [poke_run hchannel, bigEndian_length, Frame.fronted, Frame.front,
      ← hsplice]

theorem Frame.fronted_length (hbuffer : 3 ≤ buffer.length) :
    (frame.fronted buffer).length = buffer.length := by
  apply splice_length
  right
  rw [frame.front_length, Nat.zero_add]
  exact hbuffer

theorem Frame.wire_eq :
    frame.wire =
      frame.front ++ (sizedWire frame.payload.wire ++ [frameEnd]) := by
  simp only [Frame.wire, Frame.front, List.append_assoc]

/-- The size is written in front of a payload that stands already. -/
theorem poke_size
    {outFrame : Bytes} (payload : Bytes)
    (hroom : headerSize + payload.length ≤ outFrame.length) :
    poke (bigEndian 4 payload.length) (splice outFrame headerSize payload) 3 =
      .ok (splice outFrame 3 (sizedWire payload), headerSize) := by
  unfold headerSize at hroom ⊢
  have hlength := splice_length (Or.inr hroom)
  have hsize : (bigEndian 4 payload.length).length = 4 := bigEndian_length 4 _
  have hbefore :=
    splice_before outFrame (bigEndian 4 payload.length) payload
      (show 3 + (bigEndian 4 payload.length).length + payload.length ≤
          outFrame.length by
        rw [hsize]
        exact hroom)
  rw [hsize] at hbefore
  have hsized :
      3 + (bigEndian 4 payload.length).length ≤
        (splice outFrame 7 payload).length := by
    rw [hlength, hsize]
    omega
  rw [poke_run hsized, hsize]
  exact congrArg (fun sized => Except.ok (sized, 7)) hbefore

theorem sizedWire_length (payload : Bytes) :
    (sizedWire payload).length = payload.length + 4 := by
  simp only [sizedWire, List.length_append, bigEndian_length]
  omega

/-- The whole frame stands at the beginning of the buffer. -/
theorem frame_in_buffer
    (hroom : frame.wire.length ≤ buffer.length) :
    poke [frameEnd]
        (splice (frame.fronted buffer) 3 (sizedWire frame.payload.wire))
        (headerSize + frame.payload.wire.length) =
      .ok (splice buffer 0 frame.wire, frame.wire.length) := by
  have hlength := frame.wire_length
  have hsized := sizedWire_length frame.payload.wire
  have hfront := frame.front_length
  unfold headerSize footerSize at hlength
  unfold headerSize
  have hbuffer : 3 ≤ buffer.length := by omega
  have hfronted := frame.fronted_length hbuffer
  have hsizedRoom :
      3 + (sizedWire frame.payload.wire).length ≤
        (frame.fronted buffer).length := by
    omega
  have hoffset :
      7 + frame.payload.wire.length =
        3 + (sizedWire frame.payload.wire).length := by
    omega
  have hend :
      3 + (sizedWire frame.payload.wire).length + [frameEnd].length ≤
        (splice (frame.fronted buffer) 3
          (sizedWire frame.payload.wire)).length := by
    rw [splice_length (Or.inr hsizedRoom), List.length_singleton]
    omega
  have hfrontRoom : 0 + frame.front.length ≤ buffer.length := by omega
  have hwhole :=
    splice_splice buffer frame.front
      (sizedWire frame.payload.wire ++ [frameEnd]) hfrontRoom
  rw [hfront, Nat.zero_add, ← frame.wire_eq] at hwhole
  rw [hoffset, poke_run hend,
    splice_splice _ _ [frameEnd] hsizedRoom, List.length_singleton]
  rw [Frame.fronted, hwhole]
  congr 2
  omega

theorem amqpFrameToBytes_eq
    (hstrings : frame.payload.stringsFit = true)
    (hint : frame.payload.lengthFits = true)
    (hroom : frame.wire.length ≤ buffer.length) :
    amqpFrameToBytes frame buffer = .ok frame.wire := by
  have hlength := frame.wire_length
  have hbuffer : 3 ≤ buffer.length := by
    unfold headerSize at hlength
    omega
  have hfronted := frame.fronted_length hbuffer
  obtain ⟨typed, htyped, hchannel⟩ := pokes_front frame hbuffer
  have hpayload :=
    encodePayload_run frame.payload hstrings hint
      (show headerSize + frame.payload.wire.length + footerSize ≤
          (frame.fronted buffer).length by omega)
  have hfilled :
      headerSize + frame.payload.wire.length ≤
        (frame.fronted buffer).length := by
    omega
  have hsize := poke_size frame.payload.wire hfilled
  have hend := frame_in_buffer frame hroom
  have hmoved :
      headerSize + frame.payload.wire.length - headerSize =
        frame.payload.wire.length := by
    omega
  have htaken :
      frame.payload.wire.length + headerSize + footerSize =
        frame.wire.length := by
    omega
  simp only [amqpFrameToBytes, htyped, hchannel, hpayload, hmoved, hsize, hend,
    htaken, take_splice_zero, bind, Except.bind]

/-- `frame_max` bounds what is sent: a frame the buffer has no room for is
refused, whatever it is. -/
theorem amqpFrameToBytes_refuses
    (hint : frame.payload.lengthFits = true ∨ buffer.length < 2 ^ 32)
    (hover :
      ¬ (frame.payload.stringsFit = true ∧ frame.payload.lengthFits = true ∧
        frame.wire.length ≤ buffer.length)) :
    ∃ status, amqpFrameToBytes frame buffer = .error status := by
  by_cases hbuffer : 3 ≤ buffer.length
  · obtain ⟨typed, htyped, hchannel⟩ := pokes_front frame hbuffer
    have hlength := frame.wire_length
    have hfronted := frame.fronted_length hbuffer
    have hpayloadOver :
        ¬ (frame.payload.stringsFit = true ∧ frame.payload.lengthFits = true ∧
          headerSize + frame.payload.wire.length + footerSize ≤
            (frame.fronted buffer).length) := by
      rintro ⟨hstrings, hshort, hroom⟩
      apply hover
      refine ⟨hstrings, hshort, ?_⟩
      omega
    rw [← hfronted] at hint
    rcases encodePayload_over frame.payload hint hpayloadOver with
      ⟨status, hstatus⟩ | ⟨hpayload, hfits, hshort⟩
    · exact ⟨status, by
        simp only [amqpFrameToBytes, htyped, hchannel, hstatus, bind,
          Except.bind]⟩
    · have hmoved :
          headerSize + frame.payload.wire.length - headerSize =
            frame.payload.wire.length := by
        omega
      have hfilled := splice_length hfits
      cases hsize : poke (bigEndian 4 frame.payload.wire.length)
          (splice (frame.fronted buffer) headerSize frame.payload.wire) 3 with
      | error status =>
          exact ⟨status, by
            simp only [amqpFrameToBytes, htyped, hchannel, hpayload, hmoved,
              hsize, bind, Except.bind]⟩
      | ok sized =>
          have hsized := poke_length hsize
          have hend :
              ¬ Fits sized.1 (headerSize + frame.payload.wire.length)
                [frameEnd] := by
            rintro (hnil | hroom)
            · cases hnil
            · rw [List.length_singleton] at hroom
              unfold footerSize at hshort
              omega
          obtain ⟨status, hstatus⟩ := (writes_poke [frameEnd] _ _).2 hend
          exact ⟨status, by
            simp only [amqpFrameToBytes, htyped, hchannel, hpayload, hmoved,
              hsize, hstatus, bind, Except.bind]⟩
  · cases htyped : poke (bigEndian 1 frame.payload.frameType.toNat)
        buffer 0 with
    | error status =>
        exact ⟨status, by
          simp only [amqpFrameToBytes, htyped, bind, Except.bind]⟩
    | ok typed =>
        have hlength := poke_length htyped
        have hchannel :
            ¬ Fits typed.1 1 (bigEndian 2 frame.channel.toNat) := by
          rintro (hnil | hroom)
          · have hempty := congrArg List.length hnil
            rw [bigEndian_length] at hempty
            cases hempty
          · rw [bigEndian_length] at hroom
            omega
        obtain ⟨status, hstatus⟩ := (writes_poke _ _ _).2 hchannel
        exact ⟨status, by
          simp only [amqpFrameToBytes, htyped, hstatus, bind, Except.bind]⟩

end Sending

/-! ## Taking a frame apart -/

theorem amqpD_of_holds
    {width number offset : ℕ} {data : Bytes} (hnumber : number < 256 ^ width)
    (hholds : Holds data offset (bigEndian width number)) :
    amqpD width data offset = number := by
  obtain ⟨_, hbytes⟩ := hholds
  rw [bigEndian_length] at hbytes
  rw [amqpD, hbytes, ofBigEndian_bigEndian, Nat.mod_eq_of_lt hnumber]

section Receiving

variable (frame : Frame)

theorem wire_holds_type :
    Holds frame.wire 0 (bigEndian 1 frame.payload.frameType.toNat) :=
  holds_zero _ _

theorem wire_holds_channel :
    Holds frame.wire 1 (bigEndian 2 frame.channel.toNat) := by
  have hwhole := holds_zero frame.wire []
  rw [List.append_nil] at hwhole
  have hrest := (holds_append.mp hwhole).2
  rw [bigEndian_length] at hrest
  exact (holds_append.mp hrest).1

theorem wire_holds_size :
    Holds frame.wire 3 (bigEndian 4 frame.payload.wire.length) := by
  have hwhole := holds_zero frame.wire []
  rw [List.append_nil] at hwhole
  have hrest := (holds_append.mp (holds_append.mp hwhole).2).2
  rw [bigEndian_length, bigEndian_length] at hrest
  exact (holds_append.mp (holds_append.mp hrest).1).1

theorem wire_holds_payload :
    Holds frame.wire headerSize frame.payload.wire := by
  have hwhole := holds_zero frame.wire []
  rw [List.append_nil] at hwhole
  have hrest := (holds_append.mp (holds_append.mp hwhole).2).2
  have hpayload := (holds_append.mp (holds_append.mp hrest).1).2
  rw [bigEndian_length, bigEndian_length, bigEndian_length] at hpayload
  exact hpayload

theorem wire_holds_end :
    Holds frame.wire (frame.wire.length - 1)
      (bigEndian 1 frameEnd.toNat) := by
  have hlength := frame.wire_length
  have hwhole := holds_zero frame.wire []
  rw [List.append_nil] at hwhole
  have hrest := (holds_append.mp (holds_append.mp hwhole).2).2
  have hend := (holds_append.mp hrest).2
  rw [bigEndian_length, bigEndian_length, sizedWire_length] at hend
  have hoffset :
      0 + 1 + 2 + (frame.payload.wire.length + 4) =
        frame.wire.length - 1 := by
    unfold headerSize footerSize at hlength
    omega
  rw [hoffset] at hend
  exact hend

/-- What stands behind the fixed part of a payload. -/
theorem encodedPart_wire
    {fixed rest : Bytes} (hpayload : frame.payload.wire = fixed ++ rest) :
    encodedPart frame.wire frame.wire.length (headerSize + fixed.length) = rest := by
  have hlength := frame.wire_length
  have hholds := wire_holds_payload frame
  rw [hpayload] at hholds
  have hrest := (holds_append.mp hholds).2.2
  have hcount :
      frame.wire.length - (headerSize + fixed.length) - footerSize =
        rest.length := by
    rw [hlength, hpayload, List.length_append]
    omega
  rw [encodedPart, hcount]
  exact hrest

/-- The numbers every case of the switch has read. -/
theorem decodeFrame_reads :
    amqpD 1 frame.wire (frame.wire.length - 1) = frameEnd.toNat ∧
      amqpD 1 frame.wire 0 = frame.payload.frameType.toNat ∧
        UInt16.ofNat (amqpD 2 frame.wire 1) = frame.channel := by
  have hend := amqpD_of_holds frameEnd.toNat_lt (wire_holds_end frame)
  have hkind :=
    amqpD_of_holds frame.payload.frameType.toNat_lt (wire_holds_type frame)
  have hchannel :=
    amqpD_of_holds frame.channel.toNat_lt (wire_holds_channel frame)
  refine ⟨hend, hkind, ?_⟩
  rw [hchannel, UInt16.ofNat_toNat]

theorem decodeFrame_method
    (channel : UInt16) (method : Method) (hstrings : method.stringsFit = true)
    (htables : method.tablesFit = true) :
    let frame : Frame := ⟨channel, .method method⟩
    decodeFrame frame.wire frame.wire.length = .ok (some frame) := by
  intro frame
  obtain ⟨hend, hkind, hchannel⟩ := decodeFrame_reads frame
  have hlong :
      ¬ frame.wire.length < headerSize + 4 + footerSize := by
    rw [frame.wire_length]
    simp only [frame, FramePayload.wire, List.length_append, bigEndian_length]
    omega
  have hnumber : ¬ frame.wire.length ≤ headerSize + footerSize := by
    omega
  have hid : amqpD 4 frame.wire headerSize = method.id.number.toNat :=
    amqpD_of_holds method.id.number.toNat_lt
      (holds_append.mp (wire_holds_payload frame)).1
  have hpart : encodedPart frame.wire frame.wire.length (headerSize + 4) = method.wire := by
    have hsplit :
        frame.payload.wire =
          bigEndian 4 method.id.number.toNat ++ method.wire :=
      rfl
    have hfixed := encodedPart_wire frame hsplit
    rw [bigEndian_length] at hfixed
    exact hfixed
  have hmethod := amqpDecodeMethod_wire method hstrings htables []
  rw [List.append_nil] at hmethod
  have hkind' : amqpD 1 frame.wire 0 = 1 := hkind
  change decodeFrame frame.wire frame.wire.length = _
  simp only [decodeFrame, hend, hkind', hchannel, hid, hpart, if_neg hlong,
    if_neg hnumber, UInt32.ofNat_toNat, hmethod, bind, Except.bind, ne_eq,
    not_true_eq_false, if_false]
  rfl

theorem decodeFrame_header
    (channel : UInt16) (bodySize : UInt64) (properties : Properties)
    (hstrings : properties.stringsFit = true)
    (htables : properties.tablesFit = true) :
    let frame : Frame := ⟨channel, .header bodySize properties⟩
    decodeFrame frame.wire frame.wire.length = .ok (some frame.normal) := by
  intro frame
  obtain ⟨hend, hkind, hchannel⟩ := decodeFrame_reads frame
  have hlong :
      ¬ frame.wire.length < headerSize + 12 + footerSize := by
    rw [frame.wire_length]
    simp only [frame, FramePayload.wire, List.length_append, bigEndian_length]
    omega
  have hpayload := wire_holds_payload frame
  have hclass : amqpD 2 frame.wire headerSize =
      properties.contentClass.number.toNat :=
    amqpD_of_holds properties.contentClass.number.toNat_lt
      (holds_append.mp hpayload).1
  have hsize : amqpD 8 frame.wire (headerSize + 4) = bodySize.toNat := by
    have hrest := (holds_append.mp (holds_append.mp hpayload).2).2
    rw [bigEndian_length, bigEndian_length] at hrest
    exact amqpD_of_holds bodySize.toNat_lt (holds_append.mp hrest).1
  have hpart :
      encodedPart frame.wire frame.wire.length (headerSize + 12) = properties.wire := by
    have hfixed :=
      encodedPart_wire frame (wire_header bodySize properties)
    simp only [headerFixed, List.length_append, bigEndian_length] at hfixed
    exact hfixed
  have hproperties := amqpDecodeProperties_wire properties hstrings htables []
  rw [List.append_nil] at hproperties
  have hkind' : amqpD 1 frame.wire 0 = 2 := hkind
  change decodeFrame frame.wire frame.wire.length = _
  simp only [decodeFrame, hend, hkind', hchannel, hclass, hsize, hpart,
    if_neg hlong, UInt16.ofNat_toNat, UInt64.ofNat_toNat, hproperties, bind,
    Except.bind, ne_eq, not_true_eq_false, if_false]
  rfl

theorem decodeFrame_wire
    (hstrings : frame.payload.stringsFit = true)
    (htables : frame.payload.tablesFit = true) :
    decodeFrame frame.wire frame.wire.length = .ok (some frame.normal) := by
  obtain ⟨hend, hkind, hchannel⟩ := decodeFrame_reads frame
  obtain ⟨channel, payload⟩ := frame
  cases payload with
  | method method => exact decodeFrame_method channel method hstrings htables
  | header bodySize properties =>
      exact decodeFrame_header channel bodySize properties hstrings htables
  | body bodyFragment =>
      have hpart :=
        encodedPart_wire ⟨channel, .body bodyFragment⟩
          (List.nil_append bodyFragment).symm
      rw [List.length_nil, Nat.add_zero] at hpart
      rw [show (FramePayload.body bodyFragment).frameType.toNat = 3 from rfl]
        at hkind
      have hlong :
          ¬ (Frame.wire ⟨channel, .body bodyFragment⟩).length <
            headerSize + footerSize := by
        rw [Frame.wire_length]
        omega
      simp only [decodeFrame, hend, hkind, hchannel, hpart, if_neg hlong, ne_eq,
        not_true_eq_false, if_false]
      rfl
  | heartbeat =>
      rw [show FramePayload.heartbeat.frameType.toNat = 8 from rfl] at hkind
      simp only [decodeFrame, hend, hkind, hchannel, ne_eq, not_true_eq_false,
        if_false]
      rfl
  | protocolHeader => simp [FramePayload.stringsFit] at hstrings

end Receiving

end RabbitWork
