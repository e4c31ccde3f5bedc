import Mathlib.Data.List.Basic
import Mathlib.Logic.Function.Basic

namespace SlurmScheduler.Lock

structure FileLocks where
  opened : ℕ → List ℕ := fun _ ↦ []
  flocks : List (ℕ × ℕ) := []
  record : Option ℕ := none

namespace FileLocks

variable (f : FileLocks) (p fd : ℕ)

def openFile : Option FileLocks :=
  if fd ∈ f.opened p then none
  else some { f with opened := Function.update f.opened p (fd :: f.opened p) }

def dropRecord : FileLocks :=
  { f with record := if f.record = some p then none else f.record }

def closeFile : FileLocks :=
  dropRecord
    { f with
      opened := Function.update f.opened p ((f.opened p).erase fd)
      flocks := f.flocks.erase (p, fd) } p

/-- `flock(fd, LOCK_EX | LOCK_NB)` where it is granted -/
def flock (node : ℕ → ℕ) : Option FileLocks :=
  if ∃ other ∈ f.flocks, node other.1 = node p ∧ other ≠ (p, fd) then none
  else some { f with flocks := (p, fd) :: f.flocks }

def unflock : FileLocks := { f with flocks := f.flocks.filter (· ≠ (p, fd)) }

/-- `lockf(fd, LOCK_EX | LOCK_NB)` where it is granted -/
def lockf : Option FileLocks :=
  if f.record = none ∨ f.record = some p then some { f with record := some p } else none

variable {f p fd} {f' : FileLocks}

theorem record_openFile (h : f.openFile p fd = some f') : f'.record = f.record := by
  unfold openFile at h
  split at h
  · cases h
  · cases h
    rfl

theorem opened_openFile (h : f.openFile p fd = some f') {q : ℕ} (hq : q ≠ p) :
    f'.opened q = f.opened q := by
  unfold openFile at h
  split at h
  · cases h
  · cases h
    exact Function.update_of_ne hq _ _

theorem flock_frame {node : ℕ → ℕ} (h : f.flock p fd node = some f') :
    f'.record = f.record ∧ f'.opened = f.opened := by
  unfold flock at h
  split at h
  · cases h
  · cases h
    exact ⟨rfl, rfl⟩

theorem lockf_frame (h : f.lockf p = some f') :
    (f.record = none ∨ f.record = some p) ∧ f'.record = some p ∧ f'.opened = f.opened := by
  unfold lockf at h
  split at h
  · rename_i hfree
    cases h
    exact ⟨hfree, rfl, rfl⟩
  · cases h

@[simp] theorem record_unflock : (f.unflock p fd).record = f.record := rfl

@[simp] theorem opened_unflock : (f.unflock p fd).opened = f.opened := rfl

@[simp] theorem opened_dropRecord : (f.dropRecord p).opened = f.opened := rfl

theorem opened_closeFile {q : ℕ} (hq : q ≠ p) : (f.closeFile p fd).opened q = f.opened q :=
  Function.update_of_ne hq _ _

theorem record_closeFile : (f.closeFile p fd).record = (f.dropRecord p).record := rfl

theorem record_dropRecord {q : ℕ} (hq : q ≠ p) (h : f.record = some q) :
    (f.dropRecord p).record = some q := by
  have hne : f.record ≠ some p := by
    rw [h]
    exact fun heq ↦ hq (Option.some.inj heq)
  exact (if_neg hne).trans h

end FileLocks

end SlurmScheduler.Lock
