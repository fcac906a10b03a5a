import RabbitWork.LabelledRuns
import RabbitWork.MqHandler

/-!
# The publish window of the C receiver

`gg_nFlags` and the process-wide alarm are written by `main`, by the thread
that runs `HandlerMqMessage` and by `OnSIGALRMHandler`; thread A publishes while
the flag is set.  The handler writes the flag and the alarm in two statements,
and SIGALRM may be delivered between any two statements while an alarm is
pending.  `alarm` replaces a pending alarm.
-/

namespace RabbitWork
namespace AlarmWindow

open Stepping

inductive HandlerPoint where
  | notStarted
  | outside
  | beforeFlag
  | beforeAlarm
  deriving DecidableEq, Repr

inductive ArmedBy where
  | main
  | handler
  deriving DecidableEq, Repr

structure WindowState where
  point : HandlerPoint
  ggNFlags : ℤ
  pending : Option ArmedBy
  deriving DecidableEq, Repr

inductive WindowLabel where
  | mainAlarm
  | call (bytes : Bytes)
  | setFlag
  | handlerAlarm
  | sigalrm
  | publish
  deriving DecidableEq, Repr

def initial : WindowState := ⟨.notStarted, 0, none⟩

def windowStep (state : WindowState) : WindowLabel → Option WindowState
  -- `alarm(2)` of `main`, before the threads are created
  | .mainAlarm =>
      if state.point = .notStarted then
        some { state with point := .outside, pending := some .main }
      else
        none
  -- a call of `HandlerMqMessage`, up to its `strcmp`
  | .call bytes =>
      if state.point = .outside then
        if strcmp (bytes ++ [0]) commandLiteral = 0 then
          some { state with point := .beforeFlag }
        else
          some state
      else
        none
  -- `gg_nFlags = 1`
  | .setFlag =>
      if state.point = .beforeFlag then
        some { state with point := .beforeAlarm, ggNFlags := 1 }
      else
        none
  -- `alarm(2)` of the handler
  | .handlerAlarm =>
      if state.point = .beforeAlarm then
        some { state with point := .outside, pending := some .handler }
      else
        none
  -- `OnSIGALRMHandler`
  | .sigalrm =>
      match state.pending with
      | some _ => some { state with ggNFlags := 0, pending := none }
      | none => none
  -- one pass of thread A with the flag set
  | .publish => if state.ggNFlags ≠ 0 then some state else none

/-- Outside the two statements, the window is open exactly while an alarm of
the handler is pending. -/
def WindowOfAlarm (state : WindowState) : Prop :=
  state.point ≠ .beforeAlarm →
    (state.ggNFlags = 1 ↔ state.pending = some .handler)

def handlerLabels (bytes : Bytes) : List WindowLabel :=
  if cString bytes = command then
    [.call bytes, .setFlag, .handlerAlarm]
  else
    [.call bytes]

structure ShowsHandler (state : WindowState) (handler : HandlerState) :
    Prop where
  outside : state.point = .outside
  flags : state.ggNFlags = handler.ggNFlags
  pending : state.pending.isSome = handler.pendingAlarm.isSome

/-- Without a signal in between, the statements of the handler have the effect
of `handlerMqMessage`. -/
theorem runSteps_handlerLabels
    {state : WindowState} {handler : HandlerState}
    (hshows : ShowsHandler state handler) (bytes : Bytes) :
    ∃ next,
      runSteps windowStep state (handlerLabels bytes) = some next ∧
        ShowsHandler next (handlerMqMessage handler bytes) := by
  have houtside := hshows.outside
  by_cases hcommand : cString bytes = command
  · have hcompare := (strcmp_commandLiteral_iff bytes).mpr hcommand
    refine ⟨⟨.outside, 1, some .handler⟩, ?_, ?_⟩
    · simp [handlerLabels, hcommand, windowStep, houtside, hcompare]
    · rw [handlerMqMessage_of_command handler hcommand]
      constructor <;> rfl
  · have hcompare : strcmp (bytes ++ [0]) commandLiteral ≠ 0 := fun h =>
      hcommand ((strcmp_commandLiteral_iff bytes).mp h)
    refine ⟨state, ?_, ?_⟩
    · simp [handlerLabels, hcommand, windowStep, houtside, hcompare]
    · rw [handlerMqMessage_of_not_command handler hcommand]
      exact ⟨houtside, hshows.flags, hshows.pending⟩

theorem windowStep_deliverSIGALRM
    {state : WindowState} {handler : HandlerState}
    (hshows : ShowsHandler state handler)
    (halarm : handler.pendingAlarm.isSome) :
    ∃ next,
      windowStep state .sigalrm = some next ∧
        ShowsHandler next (deliverSIGALRM handler) := by
  have hpending : state.pending.isSome := by
    rw [hshows.pending]
    exact halarm
  obtain ⟨armed, harmed⟩ := Option.isSome_iff_exists.mp hpending
  obtain ⟨seconds, hseconds⟩ := Option.isSome_iff_exists.mp halarm
  refine ⟨{ state with ggNFlags := 0, pending := none }, ?_, ?_⟩
  · simp [windowStep, harmed]
  · constructor
    · exact hshows.outside
    · simp [deliverSIGALRM, onSIGALRMHandler, hseconds]
    · simp [deliverSIGALRM, onSIGALRMHandler, hseconds]

/-! ## What a step does -/

theorem windowStep_mainAlarm {state next : WindowState}
    (hstep : windowStep state .mainAlarm = some next) :
    state.point = .notStarted ∧
      next = { state with point := .outside, pending := some .main } := by
  simp only [windowStep, Option.ite_none_right_eq_some,
    Option.some.injEq] at hstep
  exact ⟨hstep.1, hstep.2.symm⟩

theorem windowStep_call {state next : WindowState} {bytes : Bytes}
    (hstep : windowStep state (.call bytes) = some next) :
    state.point = .outside ∧
      (next = { state with point := .beforeFlag } ∨ next = state) := by
  simp only [windowStep, Option.ite_none_right_eq_some] at hstep
  rcases hstep with ⟨hpoint, hcompare⟩
  refine ⟨hpoint, ?_⟩
  split at hcompare
  · exact Or.inl (Option.some.inj hcompare).symm
  · exact Or.inr (Option.some.inj hcompare).symm

theorem windowStep_setFlag {state next : WindowState}
    (hstep : windowStep state .setFlag = some next) :
    state.point = .beforeFlag ∧
      next = { state with point := .beforeAlarm, ggNFlags := 1 } := by
  simp only [windowStep, Option.ite_none_right_eq_some,
    Option.some.injEq] at hstep
  exact ⟨hstep.1, hstep.2.symm⟩

theorem windowStep_handlerAlarm {state next : WindowState}
    (hstep : windowStep state .handlerAlarm = some next) :
    state.point = .beforeAlarm ∧
      next = { state with point := .outside, pending := some .handler } := by
  simp only [windowStep, Option.ite_none_right_eq_some,
    Option.some.injEq] at hstep
  exact ⟨hstep.1, hstep.2.symm⟩

theorem windowStep_sigalrm {state next : WindowState}
    (hstep : windowStep state .sigalrm = some next) :
    state.pending ≠ none ∧
      next = { state with ggNFlags := 0, pending := none } := by
  simp only [windowStep] at hstep
  cases hpending : state.pending with
  | none => simp [hpending] at hstep
  | some armed => exact ⟨by simp, by simpa [hpending] using hstep.symm⟩

theorem windowStep_publish {state next : WindowState}
    (hstep : windowStep state .publish = some next) :
    state.ggNFlags ≠ 0 ∧ next = state := by
  simp only [windowStep, Option.ite_none_right_eq_some,
    Option.some.injEq] at hstep
  exact ⟨hstep.1, hstep.2.symm⟩

/-! ## The invariant -/

/-- Between the two statements the flag is set, unless the last event was the
SIGALRM that cleared it. -/
structure WindowInvariant (labels : List WindowLabel) (state : WindowState) :
    Prop where
  started : state.point = .notStarted → state.ggNFlags = 0
  outside : WindowOfAlarm state
  between : state.point = .beforeAlarm →
    state.ggNFlags = 1 ∨
      (labels.getLast? = some .sigalrm ∧ state.ggNFlags = 0)

theorem windowInvariant_initial : WindowInvariant [] initial := by
  constructor
  · intro _
    rfl
  · intro _
    simp [initial]
  · intro hpoint
    simp [initial] at hpoint

def AlarmAfterSignal (labels : List WindowLabel) : Prop :=
  [WindowLabel.sigalrm, .handlerAlarm] <:+: labels

instance (labels : List WindowLabel) : Decidable (AlarmAfterSignal labels) :=
  inferInstanceAs (Decidable (_ <:+: _))

theorem AlarmAfterSignal.append {left : List WindowLabel}
    (hsignal : AlarmAfterSignal left) (right : List WindowLabel) :
    AlarmAfterSignal (left ++ right) :=
  hsignal.trans (List.infix_append' [] left right)

theorem alarmAfterSignal_concat {labels : List WindowLabel}
    (hlast : labels.getLast? = some .sigalrm) :
    AlarmAfterSignal (labels ++ [.handlerAlarm]) := by
  obtain ⟨earlier, hlabels⟩ := List.getLast?_eq_some_iff.mp hlast
  exact ⟨earlier, [], by simp [hlabels]⟩

theorem windowInvariant_of_outside
    {labels : List WindowLabel} {state : WindowState}
    (hpoint : state.point = .outside)
    (hopen : state.ggNFlags = 1 ↔ state.pending = some .handler) :
    WindowInvariant labels state := by
  constructor
  · intro hstart
    rw [hpoint] at hstart
    cases hstart
  · intro _
    exact hopen
  · intro hbetween
    rw [hpoint] at hbetween
    cases hbetween

theorem windowInvariant_step
    {labels : List WindowLabel} {label : WindowLabel}
    {state next : WindowState}
    (hgood : WindowInvariant labels state)
    (hstep : windowStep state label = some next)
    (hclean : ¬ AlarmAfterSignal (labels ++ [label])) :
    WindowInvariant (labels ++ [label]) next := by
  cases label with
  | mainAlarm =>
      obtain ⟨hpoint, hnext⟩ := windowStep_mainAlarm hstep
      have hflags : state.ggNFlags = 0 := hgood.started hpoint
      subst next
      apply windowInvariant_of_outside rfl
      simp [hflags]
  | call bytes =>
      obtain ⟨hpoint, hnext⟩ := windowStep_call hstep
      have hopen : state.ggNFlags = 1 ↔ state.pending = some .handler :=
        hgood.outside (by simp [hpoint])
      rcases hnext with hnext | hnext
      · subst next
        constructor
        · intro hstart
          cases hstart
        · intro _
          exact hopen
        · intro hbetween
          cases hbetween
      · subst next
        exact windowInvariant_of_outside hpoint hopen
  | setFlag =>
      obtain ⟨hpoint, hnext⟩ := windowStep_setFlag hstep
      subst next
      constructor
      · intro hstart
        cases hstart
      · intro hnot
        exact (hnot rfl).elim
      · intro _
        exact Or.inl rfl
  | handlerAlarm =>
      obtain ⟨hpoint, hnext⟩ := windowStep_handlerAlarm hstep
      have hflags : state.ggNFlags = 1 := by
        rcases hgood.between hpoint with hset | ⟨hlast, -⟩
        · exact hset
        · exact (hclean (alarmAfterSignal_concat hlast)).elim
      subst next
      apply windowInvariant_of_outside rfl
      simp [hflags]
  | sigalrm =>
      obtain ⟨-, hnext⟩ := windowStep_sigalrm hstep
      subst next
      constructor
      · intro _
        rfl
      · intro _
        simp
      · intro _
        right
        simp
  | publish =>
      obtain ⟨hflags, hnext⟩ := windowStep_publish hstep
      subst next
      constructor
      · exact hgood.started
      · exact hgood.outside
      · intro hbetween
        rcases hgood.between hbetween with hset | ⟨-, hclear⟩
        · exact Or.inl hset
        · exact (hflags hclear).elim

theorem always_windowOfAlarm
    {labels : List WindowLabel} (hclean : ¬ AlarmAfterSignal labels) :
    Always windowStep initial WindowOfAlarm labels := by
  refine always_under_condition windowStep WindowInvariant
    (fun labels => ¬ AlarmAfterSignal labels) ?_ windowInvariant_initial ?_ ?_
    hclean
  · intro labels label hmore hsignal
    exact hmore (hsignal.append [label])
  · intro labels label state next _ hgood hmore hstep
    exact windowInvariant_step hgood hstep hmore
  · intro labels state hgood
    exact hgood.outside

theorem not_windowOfAlarm_of_alarmAfterSignal
    {state last : WindowState}
    (hrun :
      runSteps windowStep state [.sigalrm, .handlerAlarm] = some last) :
    ¬ WindowOfAlarm last := by
  obtain ⟨middle, hsignal, hrest⟩ := exists_runSteps_cons _ hrun
  obtain ⟨next, halarm, hlast⟩ := exists_runSteps_cons _ hrest
  obtain ⟨-, hmiddle⟩ := windowStep_sigalrm hsignal
  obtain ⟨-, hnext⟩ := windowStep_handlerAlarm halarm
  cases hlast
  subst last middle
  intro hwindow
  have hopen := hwindow (by simp)
  simp at hopen

/-- The window is open exactly while an alarm of the handler is pending, in
every state of a run outside the two statements, if and only if the run never
delivers SIGALRM between them. -/
theorem windowOfAlarm_iff_no_alarmAfterSignal
    {labels : List WindowLabel} {last : WindowState}
    (hrun : runSteps windowStep initial labels = some last) :
    Always windowStep initial WindowOfAlarm labels ↔
      ¬ AlarmAfterSignal labels := by
  constructor
  · intro halways hsignal
    rcases hsignal with ⟨before, after, hlabels⟩
    rw [← hlabels] at hrun
    obtain ⟨state, hstate, -⟩ := exists_runSteps_prefix windowStep hrun
    have hwindow : WindowOfAlarm state :=
      halways (before ++ [.sigalrm, .handlerAlarm]) after state hlabels.symm
        hstate
    obtain ⟨_, -, hpair⟩ := exists_runSteps_prefix windowStep hstate
    exact not_windowOfAlarm_of_alarmAfterSignal hpair hwindow
  · intro hclean
    exact always_windowOfAlarm hclean

/-- Two messages `m`, the second handled after the alarm of the first. -/
theorem windowOfAlarm_two_messages :
    Always windowStep initial WindowOfAlarm
      [.mainAlarm, .sigalrm, .call command, .setFlag, .handlerAlarm,
        .publish, .sigalrm, .call command, .setFlag, .handlerAlarm] := by
  have hrun :
      runSteps windowStep initial
          [.mainAlarm, .sigalrm, .call command, .setFlag, .handlerAlarm,
            .publish, .sigalrm, .call command, .setFlag, .handlerAlarm] =
        some ⟨.outside, 1, some .handler⟩ := by
    decide
  exact (windowOfAlarm_iff_no_alarmAfterSignal hrun).mpr (by decide)

/-- The alarm of `main` fires between the two statements: the message opens no
window although its alarm is pending. -/
theorem not_windowOfAlarm_signal_between :
    ∃ last,
      runSteps windowStep initial
          [.mainAlarm, .call command, .setFlag, .sigalrm, .handlerAlarm] =
        some last ∧
      last.point = .outside ∧ last.ggNFlags = 0 ∧
      last.pending = some .handler ∧ ¬ WindowOfAlarm last := by
  refine ⟨⟨.outside, 0, some .handler⟩, by decide, rfl, rfl, rfl, ?_⟩
  intro hwindow
  have hopen := hwindow (by simp)
  simp at hopen

end AlarmWindow
end RabbitWork
