import Mathlib.Data.Finset.Basic
import Mathlib.Data.Finset.SDiff
import Mathlib.Tactic

/-!
# Descriptors and the readiness set

The descriptors a process has open and those of them registered with a
readiness queue.  A registered descriptor is open: closing one drops its
registration.  A server keeps some descriptors for its own use and pins part
of them in the queue; all others are clients.
-/

namespace Descriptors

variable {δ : Type*} [DecidableEq δ]

structure Table (δ : Type*) where
  opened : Finset δ
  registered : Finset δ
  registered_subset : registered ⊆ opened
  deriving DecidableEq

namespace Table

def openNew (table : Table δ) (fd : δ) : Table δ where
  opened := insert fd table.opened
  registered := table.registered
  registered_subset :=
    table.registered_subset.trans (Finset.subset_insert fd table.opened)

def register (table : Table δ) (fd : δ) : Table δ where
  opened := table.opened
  registered :=
    if fd ∈ table.opened then insert fd table.registered
    else table.registered
  registered_subset := by
    split
    · rename_i hopen
      exact Finset.insert_subset hopen table.registered_subset
    · exact table.registered_subset

def deregister (table : Table δ) (fd : δ) : Table δ where
  opened := table.opened
  registered := table.registered.erase fd
  registered_subset :=
    (Finset.erase_subset fd table.registered).trans table.registered_subset

def close (table : Table δ) (fd : δ) : Table δ where
  opened := table.opened.erase fd
  registered := table.registered.erase fd
  registered_subset := Finset.erase_subset_erase fd table.registered_subset

@[simp] theorem openNew_opened (table : Table δ) (fd : δ) :
    (table.openNew fd).opened = insert fd table.opened := rfl

@[simp] theorem openNew_registered (table : Table δ) (fd : δ) :
    (table.openNew fd).registered = table.registered := rfl

@[simp] theorem register_opened (table : Table δ) (fd : δ) :
    (table.register fd).opened = table.opened := rfl

theorem register_registered {table : Table δ} {fd : δ}
    (hopen : fd ∈ table.opened) :
    (table.register fd).registered = insert fd table.registered := by
  simp [register, hopen]

@[simp] theorem openNew_register_registered (table : Table δ) (fd : δ) :
    ((table.openNew fd).register fd).registered =
      insert fd table.registered :=
  register_registered (Finset.mem_insert_self fd table.opened)

@[simp] theorem deregister_opened (table : Table δ) (fd : δ) :
    (table.deregister fd).opened = table.opened := rfl

@[simp] theorem deregister_registered (table : Table δ) (fd : δ) :
    (table.deregister fd).registered = table.registered.erase fd := rfl

@[simp] theorem close_opened (table : Table δ) (fd : δ) :
    (table.close fd).opened = table.opened.erase fd := rfl

@[simp] theorem close_registered (table : Table δ) (fd : δ) :
    (table.close fd).registered = table.registered.erase fd := rfl

/-! ## Clients -/

def clients (kept : Finset δ) (table : Table δ) : Finset δ :=
  table.opened \ kept

/-- What the server keeps is open, and the queue watches the pinned descriptors
and every client, nothing else. -/
structure Balanced (kept pinned : Finset δ) (table : Table δ) : Prop where
  pinned_subset : pinned ⊆ kept
  kept_open : kept ⊆ table.opened
  registered_eq : table.registered = pinned ∪ table.clients kept

variable {kept pinned : Finset δ} {table : Table δ} {fd : δ}

theorem mem_clients :
    fd ∈ table.clients kept ↔ fd ∈ table.opened ∧ fd ∉ kept := by
  simp [clients]

theorem Balanced.clients_eq (hbalanced : Balanced kept pinned table) :
    table.clients kept = table.registered \ kept := by
  ext other
  rw [hbalanced.registered_eq]
  have hpinned : other ∈ pinned → other ∈ kept := fun h =>
    hbalanced.pinned_subset h
  simp only [Finset.mem_sdiff, Finset.mem_union, mem_clients]
  tauto

theorem Balanced.mem_registered (hbalanced : Balanced kept pinned table) :
    fd ∈ table.registered ↔ fd ∈ pinned ∨ fd ∈ table.clients kept := by
  rw [hbalanced.registered_eq, Finset.mem_union]

theorem Balanced.pinned_registered
    (hbalanced : Balanced kept pinned table) (hpinned : fd ∈ pinned) :
    fd ∈ table.registered :=
  hbalanced.mem_registered.mpr (Or.inl hpinned)

theorem Balanced.client_of_registered
    (hbalanced : Balanced kept pinned table)
    (hregistered : fd ∈ table.registered) (hnot : fd ∉ pinned) :
    fd ∈ table.clients kept :=
  (hbalanced.mem_registered.mp hregistered).resolve_left hnot

theorem Balanced.accept
    (hbalanced : Balanced kept pinned table) (hfresh : fd ∉ table.opened) :
    Balanced kept pinned ((table.openNew fd).register fd) := by
  have hkept : fd ∉ kept := fun h => hfresh (hbalanced.kept_open h)
  constructor
  · exact hbalanced.pinned_subset
  · exact hbalanced.kept_open.trans (Finset.subset_insert fd table.opened)
  · rw [openNew_register_registered, hbalanced.registered_eq]
    ext other
    simp only [Finset.mem_insert, Finset.mem_union, mem_clients,
      register_opened, openNew_opened]
    by_cases hsame : other = fd
    · simp [hsame, hkept]
    · simp [hsame]

/-- A client that is deregistered and closed is gone from both sets. -/
theorem Balanced.drop
    (hbalanced : Balanced kept pinned table)
    (hclient : fd ∈ table.clients kept) :
    Balanced kept pinned ((table.deregister fd).close fd) := by
  have hkept : fd ∉ kept := (mem_clients.mp hclient).2
  constructor
  · exact hbalanced.pinned_subset
  · intro other hother
    have hne : other ≠ fd := fun h => hkept (h ▸ hother)
    simp [hne, hbalanced.kept_open hother]
  · ext other
    have hpinned : other ∈ pinned → other ≠ fd := by
      intro hother hsame
      exact hkept (hsame ▸ hbalanced.pinned_subset hother)
    simp only [close_registered, deregister_registered, Finset.mem_erase,
      hbalanced.registered_eq, Finset.mem_union, mem_clients, close_opened,
      deregister_opened]
    tauto

end Table
end Descriptors
