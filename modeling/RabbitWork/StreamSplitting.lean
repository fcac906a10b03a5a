import Mathlib.Data.List.Basic
import Mathlib.Tactic

/-!
# Cutting a stream that arrives in pieces

A splitter says what stands at the front of a stream: too little to tell, an
error, or a unit and the mode in which the rest is read.  A receiver gets the
stream in pieces, keeps what it cannot use yet, and hands over a unit as soon
as it has all of it.

`Receives` is what one call of a receiver owes the splitter.  A receiver that
keeps it hands over the units of the whole stream, wherever the pieces end.
-/

namespace Splitting

variable {α μ σ ο ε : Type*}

/-- What stands at the front of a stream.  A unit may have no output. -/
inductive Front (σ ο ε : Type*) where
  | more
  | fault (error : ε)
  | cut (output : Option ο) (mode : σ) (count : ℕ)

/-- Nothing behind the front matters to it. -/
structure Splitter (α σ ο ε : Type*) where
  front : σ → List α → Front σ ο ε
  front_nil : ∀ mode, front mode [] = .more
  cut_pos :
    ∀ {mode stream output next count},
      front mode stream = .cut output next count → 0 < count
  cut_le :
    ∀ {mode stream output next count},
      front mode stream = .cut output next count → count ≤ stream.length
  cut_append :
    ∀ {mode stream output next count} (rest : List α),
      front mode stream = .cut output next count →
      front mode (stream ++ rest) = .cut output next count
  fault_append :
    ∀ {mode stream error} (rest : List α),
      front mode stream = .fault error →
      front mode (stream ++ rest) = .fault error

/-! ## The units of a stream -/

/-- The outputs of a stream, and how it ends: with an error, or with the mode
and the items that no unit has used. -/
inductive Splits (splitter : Splitter α σ ο ε) :
    σ → List α → List ο → Except ε (σ × List α) → Prop where
  | more {mode : σ} {stream : List α}
      (hfront : splitter.front mode stream = .more) :
      Splits splitter mode stream [] (.ok (mode, stream))
  | fault {mode : σ} {stream : List α} {error : ε}
      (hfront : splitter.front mode stream = .fault error) :
      Splits splitter mode stream [] (.error error)
  | cut {mode next : σ} {stream : List α} {output : Option ο} {count : ℕ}
      {outputs : List ο} {ending : Except ε (σ × List α)}
      (hfront : splitter.front mode stream = .cut output next count)
      (hrest : Splits splitter next (stream.drop count) outputs ending) :
      Splits splitter mode stream (output.toList ++ outputs) ending

section Splits

variable {splitter : Splitter α σ ο ε}

theorem Splits.exists
    (splitter : Splitter α σ ο ε) (mode : σ) (stream : List α) :
    ∃ outputs ending, Splits splitter mode stream outputs ending := by
  induction hlength : stream.length using Nat.strong_induction_on
    generalizing mode stream with
  | _ length ih =>
      cases hfront : splitter.front mode stream with
      | more => exact ⟨[], .ok (mode, stream), .more hfront⟩
      | fault error => exact ⟨[], .error error, .fault hfront⟩
      | cut output next count =>
          have hpos := splitter.cut_pos hfront
          have hle := splitter.cut_le hfront
          have hshorter : (stream.drop count).length < length := by
            rw [List.length_drop]
            omega
          obtain ⟨outputs, ending, hrest⟩ :=
            ih _ hshorter next (stream.drop count) rfl
          exact ⟨_, ending, .cut hfront hrest⟩

theorem Splits.unique
    {mode : σ} {stream : List α} {outputs outputs' : List ο}
    {ending ending' : Except ε (σ × List α)}
    (hsplits : Splits splitter mode stream outputs ending)
    (hsplits' : Splits splitter mode stream outputs' ending') :
    outputs = outputs' ∧ ending = ending' := by
  induction hsplits generalizing outputs' ending' with
  | more hfront =>
      cases hsplits' with
      | more => exact ⟨rfl, rfl⟩
      | fault hfront' => rw [hfront] at hfront'; cases hfront'
      | cut hfront' => rw [hfront] at hfront'; cases hfront'
  | fault hfront =>
      cases hsplits' with
      | more hfront' => rw [hfront] at hfront'; cases hfront'
      | fault hfront' =>
          rw [hfront] at hfront'
          cases hfront'
          exact ⟨rfl, rfl⟩
      | cut hfront' => rw [hfront] at hfront'; cases hfront'
  | cut hfront _ ih =>
      cases hsplits' with
      | more hfront' => rw [hfront] at hfront'; cases hfront'
      | fault hfront' => rw [hfront] at hfront'; cases hfront'
      | cut hfront' hrest' =>
          rw [hfront] at hfront'
          cases hfront'
          obtain ⟨houtputs, hending⟩ := ih hrest'
          exact ⟨by rw [houtputs], hending⟩

/-- After an error nothing of the rest of the stream is read. -/
theorem Splits.append_error
    {mode : σ} {stream : List α} {outputs : List ο}
    {ending : Except ε (σ × List α)} {error : ε}
    (hsplits : Splits splitter mode stream outputs ending)
    (hending : ending = .error error) (rest : List α) :
    Splits splitter mode (stream ++ rest) outputs (.error error) := by
  induction hsplits with
  | more => cases hending
  | fault hfront =>
      cases hending
      exact .fault (splitter.fault_append rest hfront)
  | cut hfront _ ih =>
      have hrest := ih hending
      have hle := splitter.cut_le hfront
      rw [← List.drop_append_of_le_length hle] at hrest
      exact .cut (splitter.cut_append rest hfront) hrest

/-- A stream may be cut where it is continued. -/
theorem Splits.append_ok
    {mode mode' : σ} {stream held rest : List α} {outputs more : List ο}
    {ending ending' : Except ε (σ × List α)}
    (hsplits : Splits splitter mode stream outputs ending)
    (hending : ending = .ok (mode', held))
    (hmore : Splits splitter mode' (held ++ rest) more ending') :
    Splits splitter mode (stream ++ rest) (outputs ++ more) ending' := by
  induction hsplits with
  | more =>
      cases hending
      exact hmore
  | fault => cases hending
  | cut hfront _ ih =>
      have hrest := ih hending
      have hle := splitter.cut_le hfront
      rw [← List.drop_append_of_le_length hle] at hrest
      rw [List.append_assoc]
      exact .cut (splitter.cut_append rest hfront) hrest

/-- Of the first part of a stream come the first outputs, and no error but that
of the stream. -/
theorem Splits.of_append
    {mode : σ} {stream rest : List α} {outputs : List ο}
    {ending : Except ε (σ × List α)}
    (hsplits : Splits splitter mode (stream ++ rest) outputs ending) :
    ∃ first ending', Splits splitter mode stream first ending' ∧
      first <+: outputs ∧
      ∀ error, ending' = .error error → ending = .error error := by
  obtain ⟨first, ending', hfirst⟩ := Splits.exists splitter mode stream
  refine ⟨first, ending', hfirst, ?_⟩
  cases hending : ending' with
  | error error =>
      have hwhole := hfirst.append_error hending rest
      have hunique := hsplits.unique hwhole
      rw [hunique.1, hunique.2]
      exact ⟨List.prefix_rfl, fun other hother => hother⟩
  | ok last =>
      obtain ⟨others, ending'', hothers⟩ :=
        Splits.exists splitter last.1 (last.2 ++ rest)
      have hwhole := hfirst.append_ok hending hothers
      have hunique := hsplits.unique hwhole
      rw [hunique.1]
      refine ⟨List.prefix_append first others, ?_⟩
      intro error herror
      cases herror

/-- Every output has used an item. -/
theorem Splits.length_le
    {mode : σ} {stream : List α} {outputs : List ο}
    {ending : Except ε (σ × List α)}
    (hsplits : Splits splitter mode stream outputs ending) :
    outputs.length ≤ stream.length := by
  induction hsplits with
  | more => exact Nat.zero_le _
  | fault => exact Nat.zero_le _
  | @cut _ _ _ output _ _ _ hfront _ ih =>
      have hpos := splitter.cut_pos hfront
      have hle := splitter.cut_le hfront
      have houtput : output.toList.length ≤ 1 := by
        cases output <;> simp
      rw [List.length_drop] at ih
      rw [List.length_append]
      omega

end Splits

/-! ## Receivers -/

/-- One call of a receiver: how many of the items it has used, and a unit if
one is complete. -/
abbrev Receiver (μ α ο ε : Type*) :=
  μ → List α → μ × Except ε (ℕ × Option ο)

/-- The receiver is called until a piece is used up.  A call that uses nothing
ends the loop only by `fuel`. -/
def drain (receive : Receiver μ α ο ε) :
    ℕ → μ → List α → List ο × Except ε μ
  | _, state, [] => ([], .ok state)
  | 0, state, _ => ([], .ok state)
  | fuel + 1, state, piece =>
      match receive state piece with
      | (_, .error error) => ([], .error error)
      | (state, .ok (count, output)) =>
          let rest := drain receive fuel state (piece.drop count)
          (output.toList ++ rest.1, rest.2)

def feed (receive : Receiver μ α ο ε) :
    μ → List (List α) → List ο × Except ε μ
  | state, [] => ([], .ok state)
  | state, piece :: pieces =>
      match drain receive piece.length state piece with
      | (outputs, .error error) => (outputs, .error error)
      | (outputs, .ok state) =>
          let rest := feed receive state pieces
          (outputs ++ rest.1, rest.2)

/-- What a call with a piece that is not empty owes the splitter, in every
state that stands for the items held back.  Nothing is owed after an error
that is not tolerated. -/
structure Receives (receive : Receiver μ α ο ε) (splitter : Splitter α σ ο ε)
    (tolerated : ε → Prop) (Holding : μ → σ → List α → Prop) : Prop where
  held : ∀ {state mode held}, Holding state mode held →
    splitter.front mode held = .more
  more : ∀ {state mode held piece}, Holding state mode held → piece ≠ [] →
    splitter.front mode (held ++ piece) = .more →
    ∃ state', receive state piece = (state', .ok (piece.length, none)) ∧
      Holding state' mode (held ++ piece)
  fault : ∀ {state mode held piece error}, Holding state mode held →
    piece ≠ [] → splitter.front mode (held ++ piece) = .fault error →
    tolerated error →
    ∃ state', receive state piece = (state', .error error)
  cut : ∀ {state mode held piece output next count}, Holding state mode held →
    piece ≠ [] →
    splitter.front mode (held ++ piece) = .cut output next count →
    held.length < count ∧
      ∃ state',
        receive state piece = (state', .ok (count - held.length, output)) ∧
          Holding state' next []

/-- The receiver has handed over the outputs and ended as the stream does. -/
def Handed (Holding : μ → σ → List α → Prop)
    (run : List ο × Except ε μ) (outputs : List ο)
    (ending : Except ε (σ × List α)) : Prop :=
  run.1 = outputs ∧
    match ending with
    | .error error => run.2 = .error error
    | .ok (mode, held) => ∃ state, run.2 = .ok state ∧ Holding state mode held

section Receives

variable {receive : Receiver μ α ο ε} {splitter : Splitter α σ ο ε}
  {tolerated : ε → Prop} {Holding : μ → σ → List α → Prop}

theorem Receives.drain
    (hreceives : Receives receive splitter tolerated Holding) (fuel : ℕ) :
    ∀ {state : μ} {mode : σ} {held piece : List α} {outputs : List ο}
      {ending : Except ε (σ × List α)},
      Holding state mode held →
      Splits splitter mode (held ++ piece) outputs ending →
      (∀ error, ending = .error error → tolerated error) →
      piece.length ≤ fuel →
      Handed Holding (Splitting.drain receive fuel state piece) outputs
        ending := by
  induction fuel with
  | zero =>
      intro state mode held piece outputs ending hheld hsplits _ hfuel
      have hpiece : piece = [] := List.eq_nil_of_length_eq_zero (by omega)
      subst hpiece
      rw [List.append_nil] at hsplits
      have hunique := hsplits.unique (.more (hreceives.held hheld))
      rw [hunique.1, hunique.2]
      exact ⟨rfl, state, rfl, hheld⟩
  | succ fuel ih =>
      intro state mode held piece outputs ending hheld hsplits htolerated
        hfuel
      cases piece with
      | nil =>
          rw [List.append_nil] at hsplits
          have hunique := hsplits.unique (.more (hreceives.held hheld))
          rw [hunique.1, hunique.2]
          exact ⟨rfl, state, rfl, hheld⟩
      | cons item piece =>
          have hpiece : item :: piece ≠ [] := List.cons_ne_nil _ _
          cases hsplits with
          | more hfront =>
              obtain ⟨state', hrun, hheld'⟩ :=
                hreceives.more hheld hpiece hfront
              have hdrop :
                  (item :: piece).drop (item :: piece).length = [] :=
                List.drop_length
              have hrest :
                  Splitting.drain receive fuel state' [] = ([], .ok state') := by
                cases fuel with
                | zero => rfl
                | succ fuel => rfl
              simp only [Splitting.drain, hrun, hdrop, hrest]
              exact ⟨rfl, state', rfl, hheld'⟩
          | fault hfront =>
              obtain ⟨state', hrun⟩ :=
                hreceives.fault hheld hpiece hfront (htolerated _ rfl)
              simp only [Splitting.drain, hrun]
              exact ⟨rfl, rfl⟩
          | @cut _ next _ output count outputs _ hfront hrest =>
              obtain ⟨hcount, state', hrun, hheld'⟩ :=
                hreceives.cut hheld hpiece hfront
              have hdrop :
                  (held ++ item :: piece).drop count =
                    [] ++ (item :: piece).drop (count - held.length) := by
                rw [List.drop_append, List.drop_of_length_le hcount.le]
              rw [hdrop] at hrest
              have hshorter :
                  ((item :: piece).drop (count - held.length)).length ≤
                    fuel := by
                rw [List.length_drop]
                omega
              have hhanded := ih hheld' hrest htolerated hshorter
              simp only [Splitting.drain, hrun]
              exact ⟨congrArg (output.toList ++ ·) hhanded.1, hhanded.2⟩

/-- Wherever the pieces end, the receiver hands over the units of the stream
and ends as the stream does. -/
theorem Receives.feed
    (hreceives : Receives receive splitter tolerated Holding)
    (pieces : List (List α)) :
    ∀ {state : μ} {mode : σ} {held : List α} {outputs : List ο}
      {ending : Except ε (σ × List α)},
      Holding state mode held →
      Splits splitter mode (held ++ pieces.flatten) outputs ending →
      (∀ error, ending = .error error → tolerated error) →
      Handed Holding (Splitting.feed receive state pieces) outputs ending := by
  induction pieces with
  | nil =>
      intro state mode held outputs ending hheld hsplits _
      rw [List.flatten_nil, List.append_nil] at hsplits
      have hunique := hsplits.unique (.more (hreceives.held hheld))
      rw [hunique.1, hunique.2]
      exact ⟨rfl, state, rfl, hheld⟩
  | cons piece pieces ih =>
      intro state mode held outputs ending hheld hsplits htolerated
      rw [List.flatten_cons, ← List.append_assoc] at hsplits
      obtain ⟨first, middle, hfirst⟩ :=
        Splits.exists splitter mode (held ++ piece)
      cases hmiddle : middle with
      | error error =>
          have hwhole := hfirst.append_error hmiddle pieces.flatten
          have hunique := hsplits.unique hwhole
          have htolerated' : ∀ error, middle = .error error →
              tolerated error := by
            intro other hother
            apply htolerated
            rw [hunique.2, ← hmiddle, hother]
          have hhanded :=
            hreceives.drain piece.length hheld hfirst htolerated' le_rfl
          rw [hmiddle] at hhanded
          rw [hunique.1, hunique.2]
          have hrun :
              Splitting.drain receive piece.length state piece =
                (first, .error error) :=
            Prod.ext hhanded.1 hhanded.2
          simp only [Splitting.feed, hrun]
          exact ⟨rfl, rfl⟩
      | ok rest =>
          have htolerated' : ∀ error, middle = .error error →
              tolerated error := by
            intro error herror
            rw [hmiddle] at herror
            cases herror
          have hhanded :=
            hreceives.drain piece.length hheld hfirst htolerated' le_rfl
          rw [hmiddle] at hhanded
          obtain ⟨houtputs, state', hstate', hheld'⟩ := hhanded
          have hrun :
              Splitting.drain receive piece.length state piece =
                (first, .ok state') :=
            Prod.ext houtputs hstate'
          obtain ⟨others, last, hothers⟩ :=
            Splits.exists splitter rest.1 (rest.2 ++ pieces.flatten)
          have hwhole := hfirst.append_ok hmiddle hothers
          have hunique := hsplits.unique hwhole
          have hlast : ∀ error, last = .error error → tolerated error := by
            rw [← hunique.2]
            exact htolerated
          have hrest := ih hheld' hothers hlast
          simp only [Splitting.feed, hrun]
          rw [hunique.1, hunique.2]
          exact ⟨congrArg (first ++ ·) hrest.1, hrest.2⟩

end Receives

end Splitting
