import RabbitWork.AmqpFrame

/-!
# The message handler and the alarm

`HandlerMqMessage` of `c/recveive/src/mq.cpp` compares a NUL-terminated copy of
the bytes it is given with the command `m`, and opens the publish window by
setting `gg_nFlags` and arming `alarm(2)`.  `OnSIGALRMHandler` closes it.  The
state also records the calls made, so that runs can be compared by them.
-/

namespace RabbitWork

/-- The bytes of a C string: those before the first NUL. -/
def cString (bytes : Bytes) : Bytes :=
  bytes.takeWhile (· ≠ 0)

/-- `strcmp` on two buffers.  It stops at the first difference or NUL, so the
last case is not reached when both are NUL-terminated. -/
def strcmp : Bytes → Bytes → ℤ
  | left :: lefts, right :: rights =>
      if left ≠ right ∨ left = 0 then
        (left.toNat : ℤ) - right.toNat
      else
        strcmp lefts rights
  | _, _ => 0

theorem cString_cons (byte : UInt8) (bytes : Bytes) :
    cString (byte :: bytes) =
      if byte = 0 then [] else byte :: cString bytes := by
  by_cases hzero : byte = 0 <;> simp [cString, hzero]

theorem UInt8.toNat_sub_ne_zero {left right : UInt8} (hne : left ≠ right) :
    (left.toNat : ℤ) - right.toNat ≠ 0 := by
  intro hzero
  apply hne
  apply UInt8.toNat_inj.mp
  omega

theorem strcmp_eq_zero_iff (left right : Bytes) :
    strcmp (left ++ [0]) (right ++ [0]) = 0 ↔
      cString left = cString right := by
  induction left generalizing right with
  | nil =>
      cases right with
      | nil => simp [strcmp]
      | cons byte right =>
          by_cases hzero : byte = 0
          · simp [strcmp, cString, hzero]
          · have hne := UInt8.toNat_sub_ne_zero (Ne.symm hzero)
            simpa [strcmp, cString, hzero] using hne
  | cons byte left ih =>
      cases right with
      | nil =>
          by_cases hzero : byte = 0
          · simp [strcmp, cString, hzero]
          · have hne := UInt8.toNat_sub_ne_zero hzero
            simpa [strcmp, cString, hzero] using hne
      | cons other right =>
          simp only [List.cons_append, strcmp, cString_cons]
          by_cases heq : byte = other
          · subst other
            by_cases hzero : byte = 0
            · simp [hzero]
            · simpa [hzero] using ih right
          · have hne := UInt8.toNat_sub_ne_zero heq
            simp only [ne_eq, heq, not_false_eq_true, true_or, if_true, hne,
              false_iff]
            by_cases hzero : byte = 0
            · have hother : other ≠ 0 := fun h => heq (hzero.trans h.symm)
              simp [hzero, hother]
            · by_cases hother : other = 0
              · simp [hzero, hother]
              · simp [hzero, hother, heq]

structure HandlerState where
  ggNFlags : ℤ
  pendingAlarm : Option ℕ
  alarmCalls : List ℕ
  handlerCalls : List Bytes
  deriving DecidableEq, Repr

/-- `alarm(seconds)`: any pending alarm is replaced. -/
def HandlerState.alarm (state : HandlerState) (seconds : ℕ) : HandlerState :=
  { state with
    pendingAlarm := some seconds
    alarmCalls := state.alarmCalls ++ [seconds] }

def commandLiteral : Bytes := [0x6D, 0]

def command : Bytes := [0x6D]

/-- `HandlerMqMessage` with the length of the bytes; for the conversion of the
length to an `int` see `handlerMqMessageInt`. -/
def handlerMqMessage (state : HandlerState) (bytes : Bytes) : HandlerState :=
  let state := { state with handlerCalls := state.handlerCalls ++ [bytes] }
  let buffer := bytes ++ [0]
  if strcmp buffer commandLiteral = 0 then
    { state with ggNFlags := 1 }.alarm 2
  else
    state

def onSIGALRMHandler (state : HandlerState) : HandlerState :=
  { state with ggNFlags := 0 }

/-- The delivery of SIGALRM, which a pending alarm makes possible once. -/
def deliverSIGALRM (state : HandlerState) : HandlerState :=
  match state.pendingAlarm with
  | none => state
  | some _ => onSIGALRMHandler { state with pendingAlarm := none }

theorem strcmp_commandLiteral_iff (bytes : Bytes) :
    strcmp (bytes ++ [0]) commandLiteral = 0 ↔ cString bytes = command := by
  have h := strcmp_eq_zero_iff bytes command
  simpa [commandLiteral, command, cString] using h

theorem handlerMqMessage_of_command
    (state : HandlerState) {bytes : Bytes} (hcommand : cString bytes = command) :
    handlerMqMessage state bytes =
      { ggNFlags := 1
        pendingAlarm := some 2
        alarmCalls := state.alarmCalls ++ [2]
        handlerCalls := state.handlerCalls ++ [bytes] } := by
  simp [handlerMqMessage, (strcmp_commandLiteral_iff bytes).mpr hcommand,
    HandlerState.alarm]

theorem handlerMqMessage_of_not_command
    (state : HandlerState) {bytes : Bytes} (hother : cString bytes ≠ command) :
    handlerMqMessage state bytes =
      { state with handlerCalls := state.handlerCalls ++ [bytes] } := by
  have hne : strcmp (bytes ++ [0]) commandLiteral ≠ 0 := fun h =>
    hother ((strcmp_commandLiteral_iff bytes).mp h)
  simp [handlerMqMessage, hne]

@[simp] theorem handlerMqMessage_handlerCalls
    (state : HandlerState) (bytes : Bytes) :
    (handlerMqMessage state bytes).handlerCalls =
      state.handlerCalls ++ [bytes] := by
  by_cases hcommand : cString bytes = command
  · rw [handlerMqMessage_of_command state hcommand]
  · rw [handlerMqMessage_of_not_command state hcommand]

@[simp] theorem deliverSIGALRM_handlerCalls (state : HandlerState) :
    (deliverSIGALRM state).handlerCalls = state.handlerCalls := by
  unfold deliverSIGALRM
  cases state.pendingAlarm <;> rfl

/-! ## The length argument -/

/-- The conversion of a `size_t` to the `int nLen` of `HandlerMqMessage`. -/
def intOfSizeT (length : ℕ) : ℤ := Int.bmod length (2 ^ 32)

/-- `nLen + 1` does not overflow and `bcopy` gets no negative length. -/
def BufferFits (nLen : ℤ) : Prop := 0 ≤ nLen ∧ nLen + 1 < 2 ^ 31

instance (nLen : ℤ) : Decidable (BufferFits nLen) :=
  inferInstanceAs (Decidable (_ ∧ _))

/-- `HandlerMqMessage(p_cBytes, nLen)`.  Nothing is returned when it crashes:
for `INT_MAX` and for a negative length, where `malloc` is asked for almost the
whole address space and `bcopy` copies as much.  Smaller calls of `malloc` are
taken to succeed. -/
def handlerMqMessageInt
    (state : HandlerState) (pCBytes : Bytes) (nLen : ℤ) :
    Option HandlerState :=
  if BufferFits nLen then
    some (handlerMqMessage state (pCBytes.take nLen.toNat))
  else
    none

/-- The handler comes back when it is called for that many bytes. -/
def HandlerReturns (length : ℕ) : Prop := BufferFits (intOfSizeT length)

theorem handlerMqMessageInt_isSome_iff (state : HandlerState) (bytes : Bytes) :
    (handlerMqMessageInt state bytes (intOfSizeT bytes.length)).isSome ↔
      HandlerReturns bytes.length := by
  unfold handlerMqMessageInt HandlerReturns
  split_ifs with hfits <;> simp [hfits]

theorem handlerReturns_iff (length : ℕ) :
    HandlerReturns length ↔ length % 2 ^ 32 + 1 < 2 ^ 31 := by
  unfold HandlerReturns BufferFits intOfSizeT
  rw [Int.bmod_def]
  omega

instance (length : ℕ) : Decidable (HandlerReturns length) :=
  decidable_of_iff _ (handlerReturns_iff length).symm

/-- Up to `INT_MAX - 1` bytes the conversion changes nothing. -/
theorem handlerMqMessageInt_eq
    (state : HandlerState) {bytes : Bytes}
    (hlength : bytes.length + 1 < 2 ^ 31) :
    handlerMqMessageInt state bytes (intOfSizeT bytes.length) =
      some (handlerMqMessage state bytes) := by
  have hint : intOfSizeT bytes.length = bytes.length := by
    unfold intOfSizeT
    rw [Int.bmod_def]
    omega
  have hfits : BufferFits bytes.length := by
    unfold BufferFits
    omega
  rw [hint, handlerMqMessageInt, if_pos hfits, Int.toNat_natCast,
    List.take_length]

def handleAll (state : HandlerState) (fragments : List Bytes) : HandlerState :=
  fragments.foldl handlerMqMessage state

def commands (fragments : List Bytes) : List Bytes :=
  fragments.filter fun bytes => cString bytes = command

theorem handleAll_alarmCalls (state : HandlerState) (fragments : List Bytes) :
    (handleAll state fragments).alarmCalls =
      state.alarmCalls ++ (commands fragments).map fun _ => 2 := by
  unfold handleAll
  induction fragments generalizing state with
  | nil => simp [commands]
  | cons bytes fragments ih =>
      rw [List.foldl_cons, ih]
      by_cases hcommand : cString bytes = command
      · simp [handlerMqMessage_of_command state hcommand, commands, hcommand]
      · simp [handlerMqMessage_of_not_command state hcommand, commands,
          hcommand]

theorem handleAll_window (state : HandlerState) (fragments : List Bytes) :
    ((handleAll state fragments).ggNFlags,
        (handleAll state fragments).pendingAlarm) =
      if commands fragments = [] then (state.ggNFlags, state.pendingAlarm)
      else (1, some 2) := by
  unfold handleAll
  induction fragments generalizing state with
  | nil => simp [commands]
  | cons bytes fragments ih =>
      rw [List.foldl_cons, ih]
      by_cases hcommand : cString bytes = command
      · simp [handlerMqMessage_of_command state hcommand, commands, hcommand]
      · simp [handlerMqMessage_of_not_command state hcommand, commands,
          hcommand]

end RabbitWork
