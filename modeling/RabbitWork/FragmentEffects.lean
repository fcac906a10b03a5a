import RabbitWork.ConsumerRun
import RabbitWork.MqHandler

/-!
# The effect of a message and the way its body is cut

The broker may cut a body into frames as it likes.  `HandlerMqMessage` is
called once for each fragment, so what a message does depends on the cut: this
file determines for which cuts it does not.
-/

namespace RabbitWork

open Reading

/-- The state in which `ReandMqMessage` leaves the handler when it is called in
`state` and receives one message. -/
def afterMessage (channel deliveryTag : ℕ) (body : Bytes)
    (fragments : List Bytes) (state : HandlerState) : HandlerState :=
  handleAll state
    (handedOver
      ((reandMqMessage channel).trace (.await .first)
        (messageResults channel deliveryTag body fragments)))

def WindowOpened (before after : HandlerState) : Prop :=
  after.ggNFlags = 1 ∧ after.pendingAlarm = some 2 ∧
    before.alarmCalls.length < after.alarmCalls.length

/-- The effect of a message is that of its body: the same for both cuts, and
opening the window if and only if the body is the command. -/
structure EffectOfBody (channel deliveryTag : ℕ) (body : Bytes)
    (first second : Fragmentation body) (state : HandlerState) : Prop where
  sameFlags :
    (afterMessage channel deliveryTag body first.fragments state).ggNFlags =
      (afterMessage channel deliveryTag body second.fragments state).ggNFlags
  sameAlarms :
    (afterMessage channel deliveryTag body first.fragments state).alarmCalls =
      (afterMessage channel deliveryTag body second.fragments state).alarmCalls
  firstOpens :
    WindowOpened state
      (afterMessage channel deliveryTag body first.fragments state) ↔
        body = command
  secondOpens :
    WindowOpened state
      (afterMessage channel deliveryTag body second.fragments state) ↔
        body = command

theorem handedOver_messageResults
    {body : Bytes} (cut : Fragmentation body) (channel deliveryTag : ℕ) :
    handedOver
        ((reandMqMessage channel).trace (.await .first)
          (messageResults channel deliveryTag body cut.fragments)) =
      cut.fragments := by
  obtain ⟨htrace, -⟩ :=
    consumerLoop_unit recveiveCopy channel (cut.unit channel deliveryTag)
  rw [← cut.unit_results, reandMqMessage, htrace,
    DeliveryUnit.handedOver_actions]
  simp [Fragmentation.unit, Function.comp_def]

theorem afterMessage_eq_handleAll
    {body : Bytes} (cut : Fragmentation body) (channel deliveryTag : ℕ)
    (state : HandlerState) :
    afterMessage channel deliveryTag body cut.fragments state =
      handleAll state cut.fragments := by
  rw [afterMessage, handedOver_messageResults]

theorem windowOpened_handleAll_iff
    (state : HandlerState) (fragments : List Bytes) :
    WindowOpened state (handleAll state fragments) ↔
      commands fragments ≠ [] := by
  have hwindow := handleAll_window state fragments
  unfold WindowOpened
  rw [handleAll_alarmCalls]
  by_cases hnone : commands fragments = []
  · simp [hnone]
  · rw [if_neg hnone, Prod.mk.injEq] at hwindow
    simp [hnone, hwindow, List.length_pos_iff]

/-- A command in one piece stays in one piece: the other fragments are
empty. -/
theorem commands_of_flatten_eq_command
    {fragments : List Bytes} (hjoin : fragments.flatten = command) :
    commands fragments = [command] := by
  induction fragments with
  | nil => simp [command] at hjoin
  | cons bytes fragments ih =>
      rw [List.flatten_cons] at hjoin
      cases bytes with
      | nil =>
          have h := ih (by simpa using hjoin)
          have hempty : cString [] ≠ command := by decide
          simpa [commands, hempty] using h
      | cons byte bytes =>
          simp only [command, List.cons_append, List.cons.injEq,
            List.append_eq_nil_iff] at hjoin
          rcases hjoin with ⟨rfl, rfl, hrest⟩
          have hothers : commands fragments = [] := by
            unfold commands
            rw [List.filter_eq_nil_iff]
            intro other hmem
            have hother : other = [] :=
              List.flatten_eq_nil_iff.mp hrest other hmem
            subst other
            decide
          have hself : cString [(0x6D : UInt8)] = command := by decide
          unfold commands at hothers ⊢
          rw [List.filter_cons_of_pos (by simp [hself]), hothers]
          rfl

theorem commands_eq_nil_iff (fragments : List Bytes) :
    commands fragments = [] ↔
      ∀ bytes ∈ fragments, cString bytes ≠ command := by
  simp [commands, List.filter_eq_nil_iff]

theorem windowOpened_afterMessage_iff
    (channel deliveryTag : ℕ) (body : Bytes) (cut : Fragmentation body)
    (state : HandlerState) :
    WindowOpened state
        (afterMessage channel deliveryTag body cut.fragments state) ↔
      commands cut.fragments ≠ [] := by
  rw [afterMessage_eq_handleAll]
  exact windowOpened_handleAll_iff state cut.fragments

theorem Fragmentation.commands_of_command
    {body : Bytes} (cut : Fragmentation body) (hbody : body = command) :
    commands cut.fragments = [command] :=
  commands_of_flatten_eq_command (cut.join.trans hbody)

/-- Two cuts of a body contain the same commands if the body is the command, or
if neither contains one. -/
theorem commands_of_cuts
    {body : Bytes} (first second : Fragmentation body)
    (hcondition :
      body = command ∨
        ∀ bytes ∈ first.fragments ++ second.fragments,
          cString bytes ≠ command) :
    commands first.fragments = commands second.fragments ∧
      (commands first.fragments ≠ [] ↔ body = command) := by
  rcases hcondition with hbody | hnone
  · have hfirst := first.commands_of_command hbody
    have hsecond := second.commands_of_command hbody
    exact ⟨hfirst.trans hsecond.symm, by simp [hfirst, hbody]⟩
  · rw [← commands_eq_nil_iff] at hnone
    have hparts :
        commands first.fragments = [] ∧ commands second.fragments = [] := by
      simpa [commands] using hnone
    refine ⟨hparts.1.trans hparts.2.symm, ?_⟩
    have hbody : body ≠ command := by
      intro hbody
      have hfirst := first.commands_of_command hbody
      simp [hparts.1] at hfirst
    simp [hparts.1, hbody]

/-- The effect of a message depends on its body only, exactly when the body is
the command or no fragment of either cut reads as the command. -/
theorem effectOfBody_iff
    (channel deliveryTag : ℕ) (body : Bytes)
    (first second : Fragmentation body) (state : HandlerState) :
    EffectOfBody channel deliveryTag body first second state ↔
      body = command ∨
        ∀ bytes ∈ first.fragments ++ second.fragments,
          cString bytes ≠ command := by
  have hopens (cut : Fragmentation body) :=
    windowOpened_afterMessage_iff channel deliveryTag body cut state
  have hwindow (cut : Fragmentation body) :=
    handleAll_window state cut.fragments
  constructor
  · intro heffect
    by_cases hbody : body = command
    · exact Or.inl hbody
    · right
      have hfirst : commands first.fragments = [] := by
        by_contra hsome
        exact hbody (heffect.firstOpens.mp ((hopens first).mpr hsome))
      have hsecond : commands second.fragments = [] := by
        by_contra hsome
        exact hbody (heffect.secondOpens.mp ((hopens second).mpr hsome))
      rw [← commands_eq_nil_iff]
      simpa [commands] using And.intro hfirst hsecond
  · intro hcondition
    obtain ⟨hcommands, hiff⟩ := commands_of_cuts first second hcondition
    have hflags :
        ((handleAll state first.fragments).ggNFlags,
            (handleAll state first.fragments).pendingAlarm) =
          ((handleAll state second.fragments).ggNFlags,
            (handleAll state second.fragments).pendingAlarm) := by
      rw [hwindow first, hwindow second, hcommands]
    constructor
    · simp only [afterMessage_eq_handleAll]
      exact congrArg Prod.fst hflags
    · simp only [afterMessage_eq_handleAll, handleAll_alarmCalls, hcommands]
    · exact (hopens first).trans hiff
    · rw [hopens second, ← hcommands]
      exact hiff

def xmWhole : Fragmentation [0x78, 0x6D] where
  fragments := [[0x78, 0x6D]]
  join := rfl
  incomplete := by decide

def xmCut : Fragmentation [0x78, 0x6D] where
  fragments := [[0x78], [0x6D]]
  join := rfl
  incomplete := by decide

theorem not_effectOfBody_xm :
    ¬ EffectOfBody 1 7 [0x78, 0x6D] xmWhole xmCut ⟨0, none, [], []⟩ := by
  intro heffect
  have hflags := heffect.sameFlags
  simp only [afterMessage_eq_handleAll] at hflags
  revert hflags
  decide

end RabbitWork
