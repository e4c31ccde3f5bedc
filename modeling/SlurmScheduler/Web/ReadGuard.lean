import Mathlib.Algebra.Order.Field.Rat
import Mathlib.Data.List.Basic
import SlurmScheduler.Concurrent.Steps
import SlurmScheduler.Http.Octets

namespace SlurmScheduler.Web

open Http

structure Message where
  type : String
  status : Option ℤ := none
  headers : List (Octets × Octets) := []
  body : Option Octets := none
  moreBody : Bool := false
  deriving DecidableEq, Repr

structure Scope where
  path : String
  queryString : Octets := []
  headers : List (Octets × Octets) := []
  deriving DecidableEq, Repr

def cacheablePaths : List String := ["/", "/api/tasks"]

def lowerOctet (b : UInt8) : UInt8 := if 65 ≤ b ∧ b ≤ 90 then b + 32 else b

def Scope.header (scope : Scope) (name : Octets) : Octets :=
  match scope.headers.find? fun header ↦ header.1.map lowerOctet == name with
  | some header => header.2
  | none => []

def Scope.acceptEncoding (scope : Scope) : Octets := scope.header (ascii "accept-encoding")

structure CacheKey where
  path : String
  queryString : Octets
  acceptEncoding : Octets
  deriving DecidableEq, Repr

def Scope.cacheKey (scope : Scope) : CacheKey where
  path := scope.path
  queryString := scope.queryString
  acceptEncoding := scope.acceptEncoding

structure ReadGuard where
  ttlSeconds : ℚ
  maxEntries : ℕ
  maxCacheBodyBytes : ℕ
  maxBulkConcurrency : ℕ
  ttl_nonneg : 0 ≤ ttlSeconds
  entries_pos : 0 < maxEntries
  bulk_pos : 0 < maxBulkConcurrency

/-- `__init__` -/
def ReadGuard.make (ttlSeconds : ℚ) (maxEntries maxCacheBodyBytes maxBulkConcurrency : ℤ) :
    ReadGuard where
  ttlSeconds := max 0 ttlSeconds
  maxEntries := (max 1 maxEntries).toNat
  maxCacheBodyBytes := (max 0 maxCacheBodyBytes).toNat
  maxBulkConcurrency := (max 1 maxBulkConcurrency).toNat
  ttl_nonneg := le_max_left 0 ttlSeconds
  entries_pos := by omega
  bulk_pos := by omega

structure CacheEntry where
  key : CacheKey
  expiresAt : ℚ
  messages : List Message
  deriving DecidableEq

abbrev Cache := List CacheEntry

def Cache.pop (cache : Cache) (key : CacheKey) : Cache := cache.filter (·.key ≠ key)

def cached (cache : Cache) (key : CacheKey) (now : ℚ) : Option (List Message) × Cache :=
  match cache.find? (·.key = key) with
  | none => (none, cache)
  | some entry =>
      if entry.expiresAt ≤ now then (none, cache.pop key)
      else (some entry.messages, cache.pop key ++ [entry])

def bodyBytes (messages : List Message) : ℕ :=
  ((messages.filter (·.type = "http.response.body")).map fun message ↦
    (message.body.getD []).length).sum

def responseStatus (messages : List Message) : ℤ :=
  match messages.find? (·.type = "http.response.start") with
  | some message => message.status.getD 0
  | none => 0

def ReadGuard.store (g : ReadGuard) (cache : Cache) (key : CacheKey) (messages : List Message)
    (now : ℚ) : Cache :=
  if responseStatus messages ≠ 200 ∨ g.ttlSeconds ≤ 0 ∨ g.maxCacheBodyBytes < bodyBytes messages then
    cache
  else
    let cache := cache.pop key ++ [⟨key, now + g.ttlSeconds, messages⟩]
    cache.drop (cache.length - g.maxEntries)

inductive Future
  | pending
  | resolved (messages : Option (List Message)) (at_ : ℚ)
  | cancelled
  deriving DecidableEq

inductive Cause
  | application
  | sending
  | cancellation
  deriving DecidableEq, Repr

inductive Stage
  | waiting (future : ℕ)
  /-- at the semaphore for bulk reads -/
  | queued
  | calling (captured : List Message)
  | replaying (left : List Message)
  | returned
  | raised (cause : Cause)
  deriving DecidableEq

structure Task where
  scope : Scope
  /-- the future that a leader has registered -/
  leads : Option ℕ
  stage : Stage
  /-- whether `cancel` was called on the task -/
  cancelled : Bool := false
  deriving DecidableEq

structure Response where
  scope : Scope
  messages : List Message
  time : ℚ
  deriving DecidableEq

structure ReadState where
  now : ℚ
  cache : Cache := []
  inflight : CacheKey → Option ℕ := fun _ ↦ none
  futures : List Future := []
  tasks : List Task := []
  /-- the free slots of the semaphore for bulk reads -/
  bulk : ℕ
  /-- what the application has answered to leaders -/
  produced : List Response := []
  /-- what was replayed, from the time of its first `send` -/
  replays : List Response := []

namespace ReadState

def setTask (s : ReadState) (i : ℕ) (task : Task) : ReadState :=
  { s with tasks := s.tasks.set i task }

def addTask (s : ReadState) (task : Task) : ReadState := { s with tasks := s.tasks ++ [task] }

def replay (s : ReadState) (scope : Scope) (messages : List Message) : ReadState :=
  { s with replays := s.replays ++ [⟨scope, messages, s.now⟩] }

/-- `future.set_result` unless the future is done -/
def settle (s : ReadState) (future : ℕ) (messages : Option (List Message)) : ReadState :=
  if s.futures[future]? = some .pending then
    { s with futures := s.futures.set future (.resolved messages s.now) }
  else s

def popInflight (s : ReadState) (key : CacheKey) : ReadState :=
  { s with inflight := Function.update s.inflight key none }

/-- `except BaseException`, which only a leader reaches -/
def abandon (s : ReadState) (task : Task) : ReadState :=
  match task.leads with
  | none => s
  | some future => (s.popInflight task.scope.cacheKey).settle future none

end ReadState

inductive ReadMove
  | tick (later : ℚ)
  | request (scope : Scope)
  | acquire (i : ℕ)
  | capture (i : ℕ) (message : Message)
  | answer (i : ℕ)
  | refuse (i : ℕ)
  | interrupt (i : ℕ)
  | wake (i : ℕ)
  | send (i : ℕ)
  | failSend (i : ℕ)
  | finish (i : ℕ)
  | cancel (i : ℕ)

open ReadState

def request (s : ReadState) (scope : Scope) : ReadState :=
  match cached s.cache scope.cacheKey s.now with
  | (some messages, cache) =>
      (replay { s with cache := cache } scope messages).addTask ⟨scope, none, .replaying messages, false⟩
  | (none, cache) =>
      match s.inflight scope.cacheKey with
      | some future => addTask { s with cache := cache } ⟨scope, none, .waiting future, false⟩
      | none => addTask
          { s with
            cache := cache
            futures := s.futures ++ [.pending]
            inflight := Function.update s.inflight scope.cacheKey (some s.futures.length) }
          ⟨scope, some s.futures.length, .queued, false⟩

def publish (g : ReadGuard) (s : ReadState) (task : Task) (future : ℕ) (captured : List Message) :
    ReadState :=
  (popInflight
    { s with
      bulk := s.bulk + 1
      produced := s.produced ++ [⟨task.scope, captured, s.now⟩]
      cache := g.store s.cache task.scope.cacheKey captured s.now }
    task.scope.cacheKey).settle future (some captured)

def answer (g : ReadGuard) (s : ReadState) (i : ℕ) (task : Task) (captured : List Message) :
    ReadState :=
  match task.leads with
  | none => setTask { s with bulk := s.bulk + 1 } i { task with stage := .returned }
  | some future =>
      ((publish g s task future captured).replay task.scope captured).setTask i
        { task with stage := .replaying captured }

def wake (s : ReadState) (i : ℕ) (task : Task) : Future → Option ReadState
  | .pending => none
  | .cancelled => some (s.setTask i { task with stage := .raised .cancellation })
  | .resolved messages _ =>
      if task.cancelled then some (s.setTask i { task with stage := .raised .cancellation })
      else
        match messages with
        | none => some (s.setTask i { task with stage := .queued })
        | some messages =>
            some ((s.replay task.scope messages).setTask i { task with stage := .replaying messages })

/-- `task.cancel()` cancels the future that the task waits for. -/
def cancelTask (s : ReadState) (i : ℕ) (task : Task) : ReadState :=
  let s := s.setTask i { task with cancelled := true }
  match task.stage with
  | .waiting future =>
      if s.futures[future]? = some .pending then
        { s with futures := s.futures.set future .cancelled }
      else s
  | _ => s

def step (g : ReadGuard) (s : ReadState) : ReadMove → Option ReadState
  | .tick later => if s.now ≤ later then some { s with now := later } else none
  | .request scope => if scope.path ∈ cacheablePaths then some (request s scope) else none
  | .acquire i => do
      let task ← s.tasks[i]?
      if task.stage = .queued ∧ 0 < s.bulk then
        some (setTask { s with bulk := s.bulk - 1 } i { task with stage := .calling [] })
      else none
  | .capture i message => do
      let task ← s.tasks[i]?
      match task.stage with
      | .calling captured => some (s.setTask i { task with stage := .calling (captured ++ [message]) })
      | _ => none
  | .answer i => do
      let task ← s.tasks[i]?
      match task.stage with
      | .calling captured => some (answer g s i task captured)
      | _ => none
  | .refuse i => do
      let task ← s.tasks[i]?
      match task.stage with
      | .calling _ => some ((abandon { s with bulk := s.bulk + 1 } task).setTask i
          { task with stage := .raised .application })
      | _ => none
  | .interrupt i => do
      let task ← s.tasks[i]?
      if task.stage = .queued ∧ task.cancelled then
        some ((s.abandon task).setTask i { task with stage := .raised .cancellation })
      else none
  | .wake i => do
      let task ← s.tasks[i]?
      match task.stage with
      | .waiting future => do wake s i task (← s.futures[future]?)
      | _ => none
  | .send i => do
      let task ← s.tasks[i]?
      match task.stage with
      | .replaying (_ :: left) => some (s.setTask i { task with stage := .replaying left })
      | _ => none
  | .failSend i => do
      let task ← s.tasks[i]?
      match task.stage with
      | .replaying (_ :: _) => some ((s.abandon task).setTask i
          { task with stage := .raised (if task.cancelled then .cancellation else .sending) })
      | _ => none
  | .finish i => do
      let task ← s.tasks[i]?
      if task.stage = .replaying [] then some (s.setTask i { task with stage := .returned })
      else none
  | .cancel i => do
      let task ← s.tasks[i]?
      match task.stage with
      | .returned | .raised _ => none
      | _ => some (cancelTask s i task)

def ReadState.initial (g : ReadGuard) (now : ℚ) : ReadState where
  now := now
  bulk := g.maxBulkConcurrency

end SlurmScheduler.Web
