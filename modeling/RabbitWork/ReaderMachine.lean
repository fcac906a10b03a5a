import Mathlib.Data.List.Basic
import Mathlib.Tactic

/-!
# Resumable readers

A program that consumes a stream through one blocking read call is cut at the
returns of that call.  Between two reads it runs deterministically, emits
outputs and either comes back to a read at some program point or stops.  This
file gives such programs a trace semantics which keeps the order of reads and
outputs, and the rules by which traces are composed.  Nothing here depends on
what is read or emitted.

Input streams are finite lists: a list is the part of the stream that has
arrived, and a reader that has used it up is blocked in its read call.
-/

namespace Reading

variable {σ ι ε ρ : Type*}

/-- Where a reader is after an item: waiting in the read call of a program
point, or stopped. -/
inductive Next (σ ρ : Type*) where
  | await (point : σ)
  | stopped (reason : ρ)
  deriving DecidableEq, Repr

inductive Action (ι ε : Type*) where
  | read (item : ι)
  | emit (output : ε)
  deriving DecidableEq, Repr

/-- The code between two reads, as a function of the program point of the
first one and of the item it returned. -/
structure Reader (σ ι ε ρ : Type*) where
  step : σ → ι → List ε × Next σ ρ

/-- Everything a reader does on the items that have arrived. -/
def Reader.trace (reader : Reader σ ι ε ρ) :
    Next σ ρ → List ι → List (Action ι ε)
  | .stopped _, _ => []
  | .await _, [] => []
  | .await point, item :: items =>
      .read item ::
        ((reader.step point item).1.map .emit ++
          reader.trace (reader.step point item).2 items)

def Reader.final (reader : Reader σ ι ε ρ) : Next σ ρ → List ι → Next σ ρ
  | .stopped reason, _ => .stopped reason
  | .await point, [] => .await point
  | .await point, item :: items =>
      reader.final (reader.step point item).2 items

def reads (actions : List (Action ι ε)) : List ι :=
  actions.filterMap fun
    | .read item => some item
    | .emit _ => none

def outputs (actions : List (Action ι ε)) : List ε :=
  actions.filterMap fun
    | .read _ => none
    | .emit output => some output

section Projections

@[simp] theorem reads_nil : reads ([] : List (Action ι ε)) = [] := rfl

@[simp] theorem reads_cons_read
    (item : ι) (actions : List (Action ι ε)) :
    reads (.read item :: actions) = item :: reads actions := rfl

@[simp] theorem reads_cons_emit
    (output : ε) (actions : List (Action ι ε)) :
    reads (.emit output :: actions) = reads actions := rfl

@[simp] theorem reads_append (left right : List (Action ι ε)) :
    reads (left ++ right) = reads left ++ reads right := by
  simp [reads]

@[simp] theorem reads_map_emit (emitted : List ε) :
    reads (emitted.map (Action.emit (ι := ι))) = [] := by
  induction emitted with
  | nil => rfl
  | cons output emitted ih => simpa using ih

@[simp] theorem reads_map_read (items : List ι) :
    reads (items.map (Action.read (ε := ε))) = items := by
  induction items with
  | nil => rfl
  | cons item items ih => simpa using ih

@[simp] theorem outputs_nil : outputs ([] : List (Action ι ε)) = [] := rfl

@[simp] theorem outputs_cons_read
    (item : ι) (actions : List (Action ι ε)) :
    outputs (.read item :: actions) = outputs actions := rfl

@[simp] theorem outputs_cons_emit
    (output : ε) (actions : List (Action ι ε)) :
    outputs (.emit output :: actions) = output :: outputs actions := rfl

@[simp] theorem outputs_append (left right : List (Action ι ε)) :
    outputs (left ++ right) = outputs left ++ outputs right := by
  simp [outputs]

@[simp] theorem outputs_map_emit (emitted : List ε) :
    outputs (emitted.map (Action.emit (ι := ι))) = emitted := by
  induction emitted with
  | nil => rfl
  | cons output emitted ih => simpa using ih

@[simp] theorem outputs_map_read (items : List ι) :
    outputs (items.map (Action.read (ε := ε))) = [] := by
  induction items with
  | nil => rfl
  | cons item items ih => simpa using ih

end Projections

namespace Reader

variable (reader : Reader σ ι ε ρ)

@[simp] theorem trace_stopped (reason : ρ) (items : List ι) :
    reader.trace (.stopped reason) items = [] := by
  cases items <;> rfl

@[simp] theorem trace_nil (next : Next σ ρ) :
    reader.trace next [] = [] := by
  cases next <;> rfl

theorem trace_cons (point : σ) (item : ι) (items : List ι) :
    reader.trace (.await point) (item :: items) =
      .read item ::
        ((reader.step point item).1.map .emit ++
          reader.trace (reader.step point item).2 items) := rfl

@[simp] theorem final_stopped (reason : ρ) (items : List ι) :
    reader.final (.stopped reason) items = .stopped reason := by
  cases items <;> rfl

@[simp] theorem final_nil (next : Next σ ρ) :
    reader.final next [] = next := by
  cases next <;> rfl

theorem final_cons (point : σ) (item : ι) (items : List ι) :
    reader.final (.await point) (item :: items) =
      reader.final (reader.step point item).2 items := rfl

/-- Items that arrive later are read from where the earlier ones left the
reader. -/
theorem final_append (next : Next σ ρ) (left right : List ι) :
    reader.final next (left ++ right) =
      reader.final (reader.final next left) right := by
  induction left generalizing next with
  | nil => simp
  | cons item left ih =>
      cases next with
      | stopped reason => simp
      | await point =>
          simp only [List.cons_append, final_cons]
          exact ih (reader.step point item).2

theorem trace_append (next : Next σ ρ) (left right : List ι) :
    reader.trace next (left ++ right) =
      reader.trace next left ++
        reader.trace (reader.final next left) right := by
  induction left generalizing next with
  | nil => simp
  | cons item left ih =>
      cases next with
      | stopped reason => simp
      | await point =>
          simp only [List.cons_append, trace_cons, final_cons,
            List.append_assoc]
          rw [ih (reader.step point item).2]

/-- A reader which does not look at the part of the items that `relabel`
changes emits the same outputs on relabelled items. -/
theorem outputs_trace_map
    {relabel : ι → ι}
    (hblind : ∀ point item,
      reader.step point (relabel item) = reader.step point item)
    (next : Next σ ρ) (items : List ι) :
    outputs (reader.trace next (items.map relabel)) =
      outputs (reader.trace next items) := by
  induction items generalizing next with
  | nil => simp
  | cons item items ih =>
      cases next with
      | stopped reason => simp
      | await point =>
          simp only [List.map_cons, trace_cons, hblind, outputs_cons_read,
            outputs_append, outputs_map_emit]
          rw [ih (reader.step point item).2]

end Reader

end Reading
