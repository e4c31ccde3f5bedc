import SlurmScheduler.Concurrent.Steps
import SlurmScheduler.Lock.FileLocks

namespace SlurmScheduler.Lock

/-- `_process_path_gate`: the number of the gate, and the registered keys -/
def processPathGate (gates : List String) (key : String) : ℕ × List String :=
  if key ∈ gates then (gates.idxOf key, gates) else (gates.length, gates ++ [key])

/-- The re-entrant lock has an owner and a count. -/
structure SessionLock where
  gate : ℕ
  owner : Option ℕ := none
  count : ℕ := 0
  gateHeld : Bool := false
  depth : ℕ := 0
  descriptor : Option ℕ := none
  ownerThread : Option ℕ := none

structure Holding where
  count : ℕ
  gate : Bool
  depth : ℕ
  deriving DecidableEq, Repr

def SessionLock.holding (l : SessionLock) (t : ℕ) : Holding :=
  if l.owner = some t then ⟨l.count, l.gateHeld, l.depth⟩ else ⟨0, false, 0⟩

/-- `_local_lock.acquire` -/
def SessionLock.enter (l : SessionLock) (t : ℕ) : SessionLock :=
  { l with owner := some t, count := l.count + 1 }

/-- `_local_lock.release` -/
def SessionLock.leave (l : SessionLock) : SessionLock :=
  { l with owner := if l.count = 1 then none else l.owner, count := l.count - 1 }

inductive AcquirePhase
  | entering
  | depth
  | gate
  | opening
  | checking (fd : ℕ)
  | locking (fd : ℕ)
  | recording (fd : ℕ)
  /-- `flock(fd, LOCK_UN)` after the record lock was refused -/
  | backingOff (fd : ℕ) (again : Bool)
  | waiting (fd : ℕ)
  | publishing (fd : ℕ)
  | closing (fd : ℕ)
  | undoGate
  | undoLocal
  deriving DecidableEq

inductive ReleasePhase
  | checkDepth
  | checkOwner
  | lowering
  | unrecording (fd : ℕ)
  | unflocking (fd : ℕ) (failed : Bool)
  | closing (fd : ℕ) (failed : Bool)
  | gate (failed : Bool)
  | leaving (failed : Bool)
  deriving DecidableEq

/-- What comes after an `acquire`: the caller, or the rest of the loop of `suspended` -/
inductive AcquireNext
  | back (before : Holding)
  | restore (left depth : ℕ) (before : Holding)

inductive ReleaseNext
  | back (before : Holding)
  | suspend (left depth : ℕ) (before : Holding)

inductive Call
  | acquire
  | release
  | suspend
  | restore (depth : ℕ)
  deriving DecidableEq

/-- How a call of a thread has ended, and what the thread had of the instance when it began -/
structure Report where
  lock : ℕ
  call : Call
  raised : Bool
  before : Holding

inductive Stage
  | idle (last : Option Report)
  | acquiring (lock : ℕ) (phase : AcquirePhase) (next : AcquireNext)
  | releasing (lock : ℕ) (phase : ReleasePhase) (next : ReleaseNext)

def AcquireNext.stage (i : ℕ) (raised : Bool) : AcquireNext → Stage
  | .back before => .idle (some ⟨i, .acquire, raised, before⟩)
  | .restore left depth before =>
      if raised ∨ left = 0 then .idle (some ⟨i, .restore depth, raised, before⟩)
      else .acquiring i .entering (.restore (left - 1) depth before)

def ReleaseNext.stage (i : ℕ) (raised : Bool) : ReleaseNext → Stage
  | .back before => .idle (some ⟨i, .release, raised, before⟩)
  | .suspend left depth before =>
      if raised ∨ left = 0 then .idle (some ⟨i, .suspend, raised, before⟩)
      else .releasing i .checkDepth (.suspend (left - 1) depth before)

/-- A process, with its instances for the lock path -/
structure Proc where
  gates : List String := []
  locked : ℕ → Bool := fun _ ↦ false
  locks : List SessionLock := []
  threads : ℕ → Stage := fun _ ↦ .idle none
  /-- the `suspended` blocks that a thread is in, with the depth that each restores -/
  regions : ℕ → List (ℕ × ℕ) := fun _ ↦ []

structure World where
  procs : ℕ → Proc
  file : FileLocks := {}

namespace Proc

variable (P : Proc)

def setLock (i : ℕ) (l : SessionLock) : Proc := { P with locks := P.locks.set i l }

def setStage (t : ℕ) (stage : Stage) : Proc :=
  { P with threads := Function.update P.threads t stage }

def setGate (g : ℕ) (locked : Bool) : Proc :=
  { P with locked := Function.update P.locked g locked }

/-- The end of `acquire`, after which `suspended` may go on -/
def endAcquire (t i : ℕ) (raised : Bool) (next : AcquireNext) : Proc :=
  P.setStage t (next.stage i raised)

/-- The end of `release`; the block of `suspended` begins when the last one has returned. -/
def endRelease (t i : ℕ) (raised : Bool) (next : ReleaseNext) : Proc :=
  let P := P.setStage t (next.stage i raised)
  match next, raised with
  | .suspend 0 depth _, false =>
      { P with regions := Function.update P.regions t ((i, depth) :: P.regions t) }
  | _, _ => P

end Proc

inductive Outcome
  | ok
  | got (fd : ℕ)
  | refused
  | raises
  deriving DecidableEq

section Steps

variable (node : ℕ → ℕ) (f : FileLocks) (P : Proc) (p t i : ℕ) (l : SessionLock)

def acquireStep (next : AcquireNext) : AcquirePhase → Outcome → Option (FileLocks × Proc)
  | .entering, .ok =>
      if l.owner = none ∨ l.owner = some t then
        some (f, (P.setLock i (l.enter t)).setStage t (.acquiring i .depth next))
      else none
  | .entering, .raises =>
      -- the owner of a re-entrant lock never waits for it
      if l.owner = some t then none else some (f, P.endAcquire t i true next)
  | .depth, .ok =>
      if l.depth ≠ 0 then
        some (f, (P.setLock i { l with depth := l.depth + 1 }).endAcquire t i false next)
      else some (f, P.setStage t (.acquiring i .gate next))
  | .gate, .ok =>
      if P.locked l.gate then none
      else
        some (f, ((P.setLock i { l with gateHeld := true }).setGate l.gate true).setStage t
          (.acquiring i .opening next))
  | .gate, .raises => some (f, P.setStage t (.acquiring i .undoGate next))
  | .opening, .got fd => do
      let f ← f.openFile p fd
      return (f, P.setStage t (.acquiring i (.checking fd) next))
  | .opening, .raises => some (f, P.setStage t (.acquiring i .undoGate next))
  | .checking fd, .ok => some (f, P.setStage t (.acquiring i (.locking fd) next))
  -- not one non-empty regular file
  | .checking fd, .refused => some (f, P.setStage t (.acquiring i (.closing fd) next))
  -- `fstat` fails, and the descriptor stays open
  | .checking _, .raises => some (f, P.setStage t (.acquiring i .undoGate next))
  | .locking fd, .ok => do
      let f ← f.flock p fd node
      return (f, P.setStage t (.acquiring i (.recording fd) next))
  | .locking fd, .refused => some (f, P.setStage t (.acquiring i (.waiting fd) next))
  | .locking fd, .raises => some (f, P.setStage t (.acquiring i (.closing fd) next))
  | .recording fd, .ok => do
      let f ← f.lockf p
      return (f, P.setStage t (.acquiring i (.publishing fd) next))
  | .recording fd, .refused => some (f, P.setStage t (.acquiring i (.backingOff fd true) next))
  | .recording fd, .raises => some (f, P.setStage t (.acquiring i (.backingOff fd false) next))
  | .backingOff fd again, .ok =>
      some (f.unflock p fd,
        P.setStage t (.acquiring i (if again then .waiting fd else .closing fd) next))
  | .backingOff fd _, .raises => some (f, P.setStage t (.acquiring i (.closing fd) next))
  | .waiting fd, .ok => some (f, P.setStage t (.acquiring i (.locking fd) next))
  | .waiting fd, .raises => some (f, P.setStage t (.acquiring i (.closing fd) next))
  | .publishing fd, .ok =>
      let l := { l with descriptor := some fd, depth := 1, ownerThread := some t }
      some (f, (P.setLock i l).endAcquire t i false next)
  | .closing fd, .ok => some (f.closeFile p fd, P.setStage t (.acquiring i .undoGate next))
  | .undoGate, .ok =>
      if l.gateHeld then
        some (f, ((P.setLock i { l with gateHeld := false }).setGate l.gate false).setStage t
          (.acquiring i .undoLocal next))
      else some (f, P.setStage t (.acquiring i .undoLocal next))
  | .undoLocal, .ok => some (f, (P.setLock i l.leave).endAcquire t i true next)
  | _, _ => none

def releaseStep (next : ReleaseNext) : ReleasePhase → Outcome → Option (FileLocks × Proc)
  | .checkDepth, .ok =>
      if l.depth = 0 then some (f, P.endRelease t i true next)
      else some (f, P.setStage t (.releasing i .checkOwner next))
  | .checkOwner, .ok =>
      if l.ownerThread = some t then some (f, P.setStage t (.releasing i .lowering next))
      else some (f, P.endRelease t i true next)
  | .lowering, .ok =>
      if l.depth - 1 = 0 then
        let l' := { l with depth := l.depth - 1, descriptor := none, ownerThread := none }
        some (f, (P.setLock i l').setStage t (.releasing i
          (match l.descriptor with
            | some fd => .unrecording fd
            | none => .gate true) next))
      else
        some (f, (P.setLock i { l with depth := l.depth - 1 }).setStage t
          (.releasing i (.leaving false) next))
  | .unrecording fd, .ok =>
      some (f.dropRecord p, P.setStage t (.releasing i (.unflocking fd false) next))
  | .unrecording fd, .raises => some (f, P.setStage t (.releasing i (.unflocking fd true) next))
  | .unflocking fd failed, .ok =>
      some (f.unflock p fd, P.setStage t (.releasing i (.closing fd failed) next))
  | .unflocking fd _, .raises => some (f, P.setStage t (.releasing i (.closing fd true) next))
  | .closing fd failed, .ok =>
      some (f.closeFile p fd, P.setStage t (.releasing i (.gate failed) next))
  -- the descriptor is gone also where `close` reports an error
  | .closing fd _, .raises => some (f.closeFile p fd, P.setStage t (.releasing i (.gate true) next))
  | .gate failed, .ok =>
      if l.gateHeld then
        some (f, ((P.setLock i { l with gateHeld := false }).setGate l.gate false).setStage t
          (.releasing i (.leaving failed) next))
      else some (f, P.setStage t (.releasing i (.leaving failed) next))
  | .leaving failed, .ok => some (f, (P.setLock i l.leave).endRelease t i failed next)
  | _, _ => none

end Steps

def threadStep (node : ℕ → ℕ) (f : FileLocks) (P : Proc) (p t : ℕ) (outcome : Outcome) :
    Option (FileLocks × Proc) :=
  match P.threads t with
  | .idle _ => none
  | .acquiring i phase next => do acquireStep node f P p t i (← P.locks[i]?) next phase outcome
  | .releasing i phase next => do releaseStep f P p t i (← P.locks[i]?) next phase outcome

inductive Request
  | acquire (i : ℕ)
  | release (i : ℕ)
  | suspend (i : ℕ)
  /-- the end of the innermost `suspended` block -/
  | resume

def startCall (P : Proc) (t : ℕ) : Request → Option Proc
  | .acquire i => do
      let l ← P.locks[i]?
      return P.setStage t (.acquiring i .entering (.back (l.holding t)))
  | .release i => do
      let l ← P.locks[i]?
      return P.setStage t (.releasing i .checkDepth (.back (l.holding t)))
  | .suspend i => do
      let l ← P.locks[i]?
      if l.ownerThread ≠ some t ∨ l.depth = 0 then
        return P.setStage t (.idle (some ⟨i, .suspend, true, l.holding t⟩))
      else
        return P.setStage t
          (.releasing i .checkDepth (.suspend (l.depth - 1) l.depth (l.holding t)))
  | .resume =>
      match P.regions t with
      | [] => none
      | (i, depth) :: regions => do
          let l ← P.locks[i]?
          let P := { P with regions := Function.update P.regions t regions }
          match depth with
          | 0 => return P.setStage t (.idle (some ⟨i, .restore 0, false, l.holding t⟩))
          | left + 1 =>
              return P.setStage t
                (.acquiring i .entering (.restore left (left + 1) (l.holding t)))

def construct (key : String) (P : Proc) : Proc :=
  { P with
    gates := (processPathGate P.gates key).2
    locks := P.locks ++ [{ gate := (processPathGate P.gates key).1 }] }

inductive LockMove
  | construct (p : ℕ)
  /-- an instance for another path -/
  | constructOther (p : ℕ) (key : String)
  | call (p t : ℕ) (request : Request)
  | advance (p t : ℕ) (outcome : Outcome)

namespace World

def setProc (w : World) (p : ℕ) (P : Proc) : World :=
  { w with procs := Function.update w.procs p P }

end World

def step (node : ℕ → ℕ) (key : String) (w : World) : LockMove → Option World
  | .construct p => some (w.setProc p (construct key (w.procs p)))
  | .constructOther p other =>
      some (w.setProc p
        { w.procs p with gates := (processPathGate (w.procs p).gates other).2 })
  | .call p t request =>
      match (w.procs p).threads t with
      | .idle _ => do return w.setProc p (← startCall (w.procs p) t request)
      | _ => none
  | .advance p t outcome => do
      let (f, P) ← threadStep node w.file (w.procs p) p t outcome
      return { w.setProc p P with file := f }

def World.initial : World where
  procs _ := {}

end SlurmScheduler.Lock
