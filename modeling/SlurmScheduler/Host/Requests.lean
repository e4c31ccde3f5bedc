import SlurmScheduler.Pool.Refusals

namespace SlurmScheduler.Host

open Relational Tx
open Pool

/-- What a host knows of its session once the Desktop runs. -/
structure Setup where
  svc : Service
  sessionId : ℕ
  hostToken : String
  bootstrapToken : String
  artifactRoot : String := ""
  desktopProcessId : String := ""
  desktopPort : ℕ
  desktopPort_pos : 0 < desktopPort
  errorLogPath : String := ""
  /-- `json.dumps` of the evidence of a fault -/
  dumps : List (String × String) → String := fun _ ↦ ""

inductive Request
  | commands
  | heartbeat (nativeProbe : String)
  | fault (fault : SessionFault)
  | releaseComplete (leaseId : ℕ) (success : Bool) (failureMessage : String)
  | closed (closure : Closure)

abbrev Request.Reply : Request → Type
  | .commands => SessionCommands
  | _ => Unit

variable (host : Setup)

namespace Setup

def heartbeatPayload (nativeProbe : String) : SessionHeartbeat where
  livenessConfirmed := true
  processId := host.desktopProcessId
  port := host.desktopPort
  nativeProbe

/-- `bootstrap_guard` and the call of the service. -/
def guarded (call : PoolTx Unit) : PoolTx Unit := do
  host.svc.authorizeBootstrap host.bootstrapToken
  call

def serve (env : Env) : (r : Request) → PoolTx r.Reply
  | .commands => do
      let commands ← PoolTx.read (host.svc.sessionCommands env · host.sessionId host.hostToken)
      PoolTx.lift commands
  | .heartbeat nativeProbe =>
      host.guarded <| host.svc.heartbeatSession env host.sessionId host.hostToken
        (host.heartbeatPayload nativeProbe)
  | .fault fault =>
      host.guarded <| host.svc.reportSessionFault env host.sessionId host.hostToken fault
  | .releaseComplete leaseId success failureMessage =>
      host.guarded <| host.svc.completeRelease env host.sessionId host.hostToken leaseId success
        failureMessage
  | .closed closure =>
      host.guarded <| host.svc.closeSession env host.sessionId host.hostToken closure

def knowsBootstrapToken : Bool :=
  host.svc.bootstrapToken != "" && host.svc.bootstrapToken == host.bootstrapToken

/-- The control plane refuses the request in no other state.  What it says to a host that
reports its own end does not matter. -/
def acceptable (env : Env) (db : Db) : Request → Bool
  | .commands =>
      (host.svc.authorizeSession env.seen host.sessionId host.hostToken).toOption.isSome
  | .heartbeat nativeProbe => host.knowsBootstrapToken &&
      host.svc.acceptsHeartbeat env db host.sessionId host.hostToken
        (host.heartbeatPayload nativeProbe)
  | .fault fault => host.knowsBootstrapToken &&
      host.svc.acceptsFault env host.sessionId host.hostToken fault
  | .releaseComplete leaseId success failureMessage => host.knowsBootstrapToken &&
      host.svc.acceptsRelease env db host.sessionId host.hostToken leaseId success failureMessage
  | .closed _ => true

variable {host} {env : Env} {db : Db}

theorem raises_guarded {call : PoolTx Unit} {accepts : Bool}
    (h : call.Raises Refusal db ↔ accepts = false) :
    (host.guarded call).Raises Refusal db ↔ (host.knowsBootstrapToken && accepts) = false := by
  rw [guarded, Service.authorizeBootstrap, raises_bind, raises_require, returns_require, h]
  change (host.knowsBootstrapToken = false ∧ _) ∨ (host.knowsBootstrapToken = true ∧ _) ↔ _
  cases host.knowsBootstrapToken <;> simp

/-- A request is refused if and only if it is not acceptable. -/
theorem refused_iff {r : Request} (hr : ∀ closure, r ≠ .closed closure) :
    (host.serve env r).Raises Refusal db ↔ host.acceptable env db r = false := by
  cases r with
  | commands =>
      rw [serve, raises_bind, PoolTx.read, raises_read, returns_read, false_or, raises_lift,
        sessionCommands_refused, acceptable]
  | heartbeat nativeProbe => exact raises_guarded heartbeatSession_refused
  | fault fault => exact raises_guarded reportSessionFault_refused
  | releaseComplete leaseId success failureMessage => exact raises_guarded completeRelease_refused
  | closed closure => exact absurd rfl (hr closure)

end Setup

end SlurmScheduler.Host
