import Mathlib.Data.List.TakeWhile
import RabbitWork.LabelledRuns
import RabbitWork.MqHandler

/-!
# The publish window of the Python receiver

`callback` of `paper/receive.py` sets `gg_nFlags` and starts one more
`threading.Timer` for every message `m`; `func` clears the flag when a timer
expires.  All delays are equal, so timers expire in the order in which they
were started.  The C receiver has one alarm instead, which every `m` restarts:
the reference receiver below does the same with one timer.
-/

namespace RabbitWork
namespace TimerWindow

open Stepping

/-- The timers that run, the oldest first, by the number of the message `m`
that started them. -/
structure TimerState where
  ggNFlags : ℤ
  timers : List ℕ
  started : ℕ
  deriving DecidableEq, Repr

inductive TimerLabel where
  | arrive (body : Bytes)
  | expire (timer : ℕ)
  deriving DecidableEq, Repr

def initial : TimerState := ⟨0, [], 0⟩

def callback (state : TimerState) (body : Bytes) : TimerState :=
  if body = command then
    { ggNFlags := 1
      timers := state.timers ++ [state.started]
      started := state.started + 1 }
  else
    state

def func (state : TimerState) : TimerState :=
  { state with ggNFlags := 0 }

def timerStep (state : TimerState) : TimerLabel → Option TimerState
  | .arrive body => some (callback state body)
  | .expire timer =>
      if state.timers.head? = some timer then
        some (func { state with timers := state.timers.tail })
      else
        none

/-! ## The receiver with one timer -/

structure RestartState where
  ggNFlags : ℤ
  running : Option ℕ
  started : ℕ
  deriving DecidableEq, Repr

def restartInitial : RestartState := ⟨0, none, 0⟩

/-- A timer that a later `m` has replaced does not expire. -/
def restartStep (state : RestartState) : TimerLabel → RestartState
  | .arrive body =>
      if body = command then
        { ggNFlags := 1
          running := some state.started
          started := state.started + 1 }
      else
        state
  | .expire timer =>
      if state.running = some timer then
        { state with ggNFlags := 0, running := none }
      else
        state

def restartRun (labels : List TimerLabel) : RestartState :=
  labels.foldl restartStep restartInitial

@[simp] theorem restartRun_concat
    (labels : List TimerLabel) (label : TimerLabel) :
    restartRun (labels ++ [label]) = restartStep (restartRun labels) label := by
  simp [restartRun]

/-- The C receiver, between signals, against the receiver with one timer. -/
structure RestartOfAlarm (handler : HandlerState) (state : RestartState) :
    Prop where
  flags : handler.ggNFlags = state.ggNFlags
  pending : handler.pendingAlarm.isSome = state.running.isSome

theorem restartOfAlarm_arrive
    {handler : HandlerState} {state : RestartState} {body : Bytes}
    (hsame : RestartOfAlarm handler state) (hnul : 0 ∉ body) :
    RestartOfAlarm (handlerMqMessage handler body)
      (restartStep state (.arrive body)) := by
  have hcString : cString body = body := by
    apply List.takeWhile_eq_self_iff.mpr
    intro byte hbyte
    have hne : byte ≠ 0 := fun hzero => hnul (hzero ▸ hbyte)
    simp [hne]
  by_cases hcommand : body = command
  · have hread : cString body = command := hcString.trans hcommand
    rw [handlerMqMessage_of_command handler hread]
    constructor <;> simp [restartStep, hcommand]
  · have hread : cString body ≠ command := by
      rw [hcString]
      exact hcommand
    rw [handlerMqMessage_of_not_command handler hread]
    constructor
    · simpa [restartStep, hcommand] using hsame.flags
    · simpa [restartStep, hcommand] using hsame.pending

theorem restartOfAlarm_expire
    {handler : HandlerState} {state : RestartState} {timer : ℕ}
    (hsame : RestartOfAlarm handler state)
    (hrunning : state.running = some timer) :
    RestartOfAlarm (deliverSIGALRM handler)
      (restartStep state (.expire timer)) := by
  have hpending : handler.pendingAlarm.isSome = true := by
    rw [hsame.pending, hrunning]
    rfl
  obtain ⟨seconds, hseconds⟩ := Option.isSome_iff_exists.mp hpending
  constructor <;>
    simp [deliverSIGALRM, onSIGALRMHandler, hseconds, restartStep, hrunning]

/-! ## What a step does -/

theorem timerStep_arrive_command {state next : TimerState}
    (hstep : timerStep state (.arrive command) = some next) :
    next = ⟨1, state.timers ++ [state.started], state.started + 1⟩ := by
  simpa [timerStep, callback] using hstep.symm

theorem timerStep_arrive_other {state next : TimerState} {body : Bytes}
    (hother : body ≠ command)
    (hstep : timerStep state (.arrive body) = some next) :
    next = state := by
  simpa [timerStep, callback, hother] using hstep.symm

theorem timerStep_expire {state next : TimerState} {timer : ℕ}
    (hstep : timerStep state (.expire timer) = some next) :
    ∃ rest,
      state.timers = timer :: rest ∧
        next = { state with ggNFlags := 0, timers := rest } := by
  simp only [timerStep, Option.ite_none_right_eq_some] at hstep
  rcases hstep with ⟨hhead, hnext⟩
  obtain ⟨rest, htimers⟩ := List.head?_eq_some_iff.mp hhead
  refine ⟨rest, htimers, ?_⟩
  simpa [func, htimers] using hnext.symm

/-! ## The two receivers side by side -/

/-- The timer of the reference receiver is the last one started, and its window
is open while any timer runs. -/
structure TimerInvariant (labels : List TimerLabel) (state : TimerState) :
    Prop where
  flags : state.ggNFlags = 0 ∨ state.ggNFlags = 1
  ordered : state.timers.Pairwise (· < ·)
  bounded : ∀ timer ∈ state.timers, timer < state.started
  sameStarted : (restartRun labels).started = state.started
  lastRunning : (restartRun labels).running = state.timers.getLast?
  restartFlags :
    (restartRun labels).ggNFlags = if state.timers = [] then 0 else 1

theorem timerInvariant_initial : TimerInvariant [] initial := by
  constructor <;> simp [initial, restartRun, restartInitial]

theorem timerInvariant_arrive
    {labels : List TimerLabel} {state next : TimerState} {body : Bytes}
    (hgood : TimerInvariant labels state)
    (hstep : timerStep state (.arrive body) = some next) :
    TimerInvariant (labels ++ [.arrive body]) next := by
  by_cases hcommand : body = command
  · subst body
    have hnext := timerStep_arrive_command hstep
    subst next
    constructor
    · exact Or.inr rfl
    · rw [List.pairwise_append]
      refine ⟨hgood.ordered, by simp, ?_⟩
      intro timer htimer last hlast
      rw [List.mem_singleton.mp hlast]
      exact hgood.bounded timer htimer
    · intro timer htimer
      rcases List.mem_append.mp htimer with hold | hnew
      · have hlt := hgood.bounded timer hold
        simp only
        omega
      · rw [List.mem_singleton.mp hnew]
        exact Nat.lt_succ_self _
    · simp [restartStep, hgood.sameStarted]
    · simp [restartStep, hgood.sameStarted]
    · simp [restartStep]
  · have hnext := timerStep_arrive_other hcommand hstep
    subst next
    have hsame : restartRun (labels ++ [.arrive body]) = restartRun labels := by
      simp [restartStep, hcommand]
    constructor
    · exact hgood.flags
    · exact hgood.ordered
    · exact hgood.bounded
    · rw [hsame]
      exact hgood.sameStarted
    · rw [hsame]
      exact hgood.lastRunning
    · rw [hsame]
      exact hgood.restartFlags

theorem timerInvariant_expire
    {labels : List TimerLabel} {state next : TimerState} {timer : ℕ}
    (hgood : TimerInvariant labels state)
    (hstep : timerStep state (.expire timer) = some next) :
    TimerInvariant (labels ++ [.expire timer]) next := by
  obtain ⟨rest, htimers, hnext⟩ := timerStep_expire hstep
  subst next
  have hordered := hgood.ordered
  rw [htimers, List.pairwise_cons] at hordered
  have hbounded : ∀ later ∈ rest, later < state.started := by
    intro later hlater
    apply hgood.bounded
    simp [htimers, hlater]
  have hrunning := hgood.lastRunning
  have hopen := hgood.restartFlags
  rw [htimers] at hrunning hopen
  cases rest with
  | nil =>
      have hlast : (restartRun labels).running = some timer := by
        simpa using hrunning
      constructor
      · exact Or.inl rfl
      · exact hordered.2
      · exact hbounded
      · simp [restartStep, hlast, hgood.sameStarted]
      · simp [restartStep, hlast]
      · simp [restartStep, hlast]
  | cons next rest =>
      -- the reference timer is a later one, so it does not see this expiry
      have hother : (restartRun labels).running ≠ some timer := by
        rw [hrunning, List.getLast?_cons_cons]
        intro hlast
        have hmem := List.mem_of_getLast? hlast
        have hlt := hordered.1 timer hmem
        omega
      have hsame :
          restartRun (labels ++ [.expire timer]) = restartRun labels := by
        simp [restartStep, hother]
      constructor
      · exact Or.inl rfl
      · exact hordered.2
      · exact hbounded
      · rw [hsame]
        exact hgood.sameStarted
      · rw [hsame, hrunning, List.getLast?_cons_cons]
      · rw [hsame, hopen]
        simp

theorem timerInvariant_run
    {labels : List TimerLabel} {last : TimerState}
    (hrun : runSteps timerStep initial labels = some last) :
    TimerInvariant labels last := by
  refine runSteps_induction timerStep TimerInvariant
    timerInvariant_initial ?_ hrun
  intro labels label state next _ hgood hstep
  cases label with
  | arrive body => exact timerInvariant_arrive hgood hstep
  | expire timer => exact timerInvariant_expire hgood hstep

/-! ## The window law -/

def WindowOfTimers (state : TimerState) : Prop :=
  state.ggNFlags = 1 ↔ state.timers ≠ []

/-- At every moment of the run the flag is that of the receiver with one
timer. -/
def SameAsRestart (labels : List TimerLabel) : Prop :=
  ∀ before after state,
    labels = before ++ after →
      runSteps timerStep initial before = some state →
        state.ggNFlags = (restartRun before).ggNFlags

def NoTimerOutlived (labels : List TimerLabel) : Prop :=
  ∀ before timer after state,
    labels = before ++ .expire timer :: after →
      runSteps timerStep initial before = some state →
        state.timers = [timer]

theorem windowOfTimers_iff_restart
    {labels : List TimerLabel} {state : TimerState}
    (hgood : TimerInvariant labels state) :
    WindowOfTimers state ↔ state.ggNFlags = (restartRun labels).ggNFlags := by
  unfold WindowOfTimers
  rw [hgood.restartFlags]
  rcases hgood.flags with hflags | hflags <;>
    by_cases htimers : state.timers = [] <;>
      simp [hflags, htimers]

theorem sameAsRestart_iff (labels : List TimerLabel) :
    SameAsRestart labels ↔
      Always timerStep initial WindowOfTimers labels := by
  constructor
  · intro hsame before after state hlabels hstate
    exact (windowOfTimers_iff_restart (timerInvariant_run hstate)).mpr
      (hsame before after state hlabels hstate)
  · intro hwindow before after state hlabels hstate
    exact (windowOfTimers_iff_restart (timerInvariant_run hstate)).mp
      (hwindow before after state hlabels hstate)

theorem windowOfTimers_step
    {state next : TimerState} {label : TimerLabel}
    (hwindow : WindowOfTimers state)
    (hstep : timerStep state label = some next)
    (hlast : ∀ timer, label = .expire timer → state.timers = [timer]) :
    WindowOfTimers next := by
  cases label with
  | arrive body =>
      by_cases hcommand : body = command
      · subst body
        rw [timerStep_arrive_command hstep]
        simp [WindowOfTimers]
      · rw [timerStep_arrive_other hcommand hstep]
        exact hwindow
  | expire timer =>
      obtain ⟨rest, htimers, hnext⟩ := timerStep_expire hstep
      have hrest : rest = [] := by
        have honly := hlast timer rfl
        rw [htimers] at honly
        simpa using honly
      rw [hnext, hrest]
      simp [WindowOfTimers]

theorem always_windowOfTimers
    {labels : List TimerLabel} (hcondition : NoTimerOutlived labels) :
    Always timerStep initial WindowOfTimers labels := by
  refine always_under_condition timerStep
    (fun _ state => WindowOfTimers state) NoTimerOutlived ?_ ?_ ?_ ?_
    hcondition
  · intro labels label hmore before timer after state hlabels hstate
    exact hmore before timer (after ++ [label]) state (by simp [hlabels])
      hstate
  · simp [WindowOfTimers, initial]
  · intro labels label state next hstate hwindow hmore hstep
    apply windowOfTimers_step hwindow hstep
    intro timer htimer
    exact hmore labels timer [] state (by rw [htimer]) hstate
  · intro labels state hwindow
    exact hwindow

theorem always_windowOfTimers_iff
    {labels : List TimerLabel} {last : TimerState}
    (hrun : runSteps timerStep initial labels = some last) :
    Always timerStep initial WindowOfTimers labels ↔
      NoTimerOutlived labels := by
  constructor
  · intro halways before timer after state hlabels hstate
    rw [hlabels, List.append_cons] at hrun
    obtain ⟨next, hnext, -⟩ := exists_runSteps_prefix timerStep hrun
    have hwindow : WindowOfTimers next :=
      halways (before ++ [.expire timer]) after next (by simp [hlabels]) hnext
    obtain ⟨middle, hmiddle, hstep⟩ := runSteps_concat timerStep hnext
    have hsame : middle = state := by
      rw [hstate] at hmiddle
      exact (Option.some.inj hmiddle).symm
    subst middle
    obtain ⟨rest, htimers, hexpired⟩ := timerStep_expire hstep
    have hrest : rest = [] := by
      subst next
      simpa [WindowOfTimers] using hwindow
    rw [htimers, hrest]
  · intro hcondition
    exact always_windowOfTimers hcondition

/-- Over every run the window is open exactly while a timer runs, and the flag
is that of a receiver whose one timer every `m` restarts, if and only if no
timer expires while a later one runs. -/
theorem publishWindow_iff_noTimerOutlived
    {labels : List TimerLabel} {last : TimerState}
    (hrun : runSteps timerStep initial labels = some last) :
    (Always timerStep initial WindowOfTimers labels ↔
        NoTimerOutlived labels) ∧
      (SameAsRestart labels ↔ NoTimerOutlived labels) := by
  have hwindow := always_windowOfTimers_iff hrun
  exact ⟨hwindow, (sameAsRestart_iff labels).trans hwindow⟩

theorem publishWindow_two_messages :
    Always timerStep initial WindowOfTimers
        [.arrive command, .expire 0, .arrive command, .expire 1] ∧
      SameAsRestart
        [.arrive command, .expire 0, .arrive command, .expire 1] := by
  have hrun :
      runSteps timerStep initial
          [.arrive command, .expire 0, .arrive command, .expire 1] =
        some ⟨0, [], 2⟩ := by
    decide
  have hcondition :
      NoTimerOutlived
        [.arrive command, .expire 0, .arrive command, .expire 1] := by
    intro before timer after state hlabels hstate
    rcases before with _ | ⟨first, _ | ⟨second, _ | ⟨third, _ | ⟨_, rest⟩⟩⟩⟩ <;>
      simp only [List.nil_append, List.cons_append, List.cons.injEq,
        reduceCtorEq, false_and, and_false, List.nil_eq,
        List.append_eq_nil_iff] at hlabels
    · rcases hlabels with ⟨hfirst, hexpire, -⟩
      subst hfirst
      cases hexpire
      cases hstate
      rfl
    · rcases hlabels with ⟨hfirst, hsecond, hthird, hexpire, -⟩
      subst hfirst hsecond hthird
      cases hexpire
      cases hstate
      rfl
  have hwindow := publishWindow_iff_noTimerOutlived hrun
  exact ⟨hwindow.1.mpr hcondition, hwindow.2.mpr hcondition⟩

/-- The second `m` arrives while the timer of the first runs: the window closes
when the first timer expires. -/
theorem not_windowOfTimers_overlap :
    ∃ last,
      runSteps timerStep initial
          [.arrive command, .arrive command, .expire 0] = some last ∧
        last.timers = [1] ∧ last.ggNFlags = 0 ∧
        (restartRun [.arrive command, .arrive command, .expire 0]).ggNFlags =
          1 ∧
        ¬ WindowOfTimers last := by
  refine ⟨⟨0, [1], 2⟩, by decide, rfl, rfl, by decide, ?_⟩
  simp [WindowOfTimers]

end TimerWindow
end RabbitWork
