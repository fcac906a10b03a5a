import Mathlib.Data.List.Basic
import Mathlib.Tactic

/-!
# Bounded queues that drop

A producer pushes into a queue of finite capacity without waiting: what it
pushes while the queue is full is dropped.  A consumer takes items from the
front, any number at a time.  What leaves such a queue is what it accepted, in
order, and this is everything that was pushed exactly if no push met a full
queue.
-/

namespace Queueing

variable {α : Type*}

inductive QueueOp (α : Type*) where
  | push (item : α)
  | pop (count : ℕ)
  deriving DecidableEq, Repr

/-- A queue with the items that have left it. -/
structure LossyFifo (α : Type*) where
  contents : List α
  popped : List α
  deriving DecidableEq, Repr

namespace LossyFifo

def empty : LossyFifo α := ⟨[], []⟩

section Run

variable (capacity : ℕ)

def step (queue : LossyFifo α) : QueueOp α → LossyFifo α
  | .push item =>
      if queue.contents.length < capacity then
        { queue with contents := queue.contents ++ [item] }
      else
        queue
  | .pop count =>
      { contents := queue.contents.drop count
        popped := queue.popped ++ queue.contents.take count }

def run (queue : LossyFifo α) (ops : List (QueueOp α)) : LossyFifo α :=
  ops.foldl (step capacity) queue

/-- What one operation adds to the queue. -/
def accepts (queue : LossyFifo α) : QueueOp α → List α
  | .push item => if queue.contents.length < capacity then [item] else []
  | .pop _ => []

def accepted : LossyFifo α → List (QueueOp α) → List α
  | _, [] => []
  | queue, op :: ops =>
      accepts capacity queue op ++ accepted (step capacity queue op) ops

/-- No item is pushed while the queue is full. -/
def NeverFull (queue : LossyFifo α) (ops : List (QueueOp α)) : Prop :=
  ∀ before item after,
    ops = before ++ .push item :: after →
      (run capacity queue before).contents.length < capacity

end Run

def pushed (ops : List (QueueOp α)) : List α :=
  ops.filterMap fun
    | .push item => some item
    | .pop _ => none

section Projections

variable (item : α) (count : ℕ) (ops : List (QueueOp α))

@[simp] theorem pushed_nil : pushed ([] : List (QueueOp α)) = [] := rfl

@[simp] theorem pushed_cons_push :
    pushed (.push item :: ops) = item :: pushed ops := rfl

@[simp] theorem pushed_cons_pop :
    pushed (.pop count :: ops) = pushed ops := rfl

end Projections

variable (capacity : ℕ) (queue : LossyFifo α)

@[simp] theorem run_nil : run capacity queue [] = queue := rfl

@[simp] theorem run_cons (op : QueueOp α) (ops : List (QueueOp α)) :
    run capacity queue (op :: ops) =
      run capacity (step capacity queue op) ops := rfl

theorem step_conserves (op : QueueOp α) :
    (step capacity queue op).popped ++ (step capacity queue op).contents =
      queue.popped ++ queue.contents ++ accepts capacity queue op := by
  cases op with
  | push item =>
      unfold step accepts
      split_ifs <;> simp
  | pop count => simp [step, accepts]

/-- Conservation: what has left the queue and what is still in it is what it
accepted. -/
theorem run_conserves (ops : List (QueueOp α)) :
    (run capacity queue ops).popped ++ (run capacity queue ops).contents =
      queue.popped ++ queue.contents ++ accepted capacity queue ops := by
  induction ops generalizing queue with
  | nil => simp [accepted]
  | cons op ops ih =>
      rw [run_cons, ih, step_conserves, accepted, List.append_assoc]

theorem popped_of_drained {ops : List (QueueOp α)}
    (hdrained : (run capacity empty ops).contents = []) :
    (run capacity empty ops).popped = accepted capacity empty ops := by
  have hconserves := run_conserves capacity empty ops
  rw [hdrained] at hconserves
  simpa [empty] using hconserves

theorem accepted_sublist_pushed (ops : List (QueueOp α)) :
    (accepted capacity queue ops).Sublist (pushed ops) := by
  induction ops generalizing queue with
  | nil => simp [accepted]
  | cons op ops ih =>
      cases op with
      | push item =>
          unfold accepted accepts
          split_ifs with hroom
          · exact (ih _).cons_cons item
          · exact (ih _).cons item
      | pop count => exact ih _

theorem neverFull_nil : NeverFull capacity queue [] := by
  intro before item after hops
  simp at hops

theorem neverFull_cons (op : QueueOp α) (ops : List (QueueOp α)) :
    NeverFull capacity queue (op :: ops) ↔
      (∀ item, op = .push item → queue.contents.length < capacity) ∧
        NeverFull capacity (step capacity queue op) ops := by
  constructor
  · intro hnever
    constructor
    · intro item hop
      exact hnever [] item ops (by rw [hop]; rfl)
    · intro before item after hops
      exact hnever (op :: before) item after (by rw [hops]; rfl)
  · intro hsplit before item after hops
    cases before with
    | nil =>
        cases hops
        exact hsplit.1 item rfl
    | cons first before =>
        cases hops
        exact hsplit.2 before item after rfl

/-- Nothing is dropped exactly if no push meets a full queue: a dropped item
leaves less to be accepted than was pushed. -/
theorem accepted_eq_pushed_iff (ops : List (QueueOp α)) :
    accepted capacity queue ops = pushed ops ↔
      NeverFull capacity queue ops := by
  induction ops generalizing queue with
  | nil => simp [accepted, neverFull_nil]
  | cons op ops ih =>
      rw [neverFull_cons, ← ih]
      cases op with
      | pop count => simp [accepted, accepts]
      | push item =>
          by_cases hroom : queue.contents.length < capacity
          · simp [accepted, accepts, hroom]
          · have hshort :=
              (accepted_sublist_pushed capacity
                (step capacity queue (.push item)) ops).length_le
            constructor
            · intro heq
              have hlength := congrArg List.length heq
              simp only [accepted, accepts, if_neg hroom, List.nil_append,
                pushed_cons_push, List.length_cons] at hlength
              omega
            · intro hsplit
              exact absurd (hsplit.1 item rfl) hroom

end LossyFifo

end Queueing
