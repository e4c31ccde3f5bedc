import SlurmScheduler.Pool.Soundness

namespace SlurmScheduler.Pool

open Relational PoolTx

/-- A step of a scripted run: a call of the service, or the scheduler's tables as it left them. -/
inductive Event
  | call (cfg : AedtPoolConfig) (now : Time) (call : Call)
  | scheduler (tasks : Table Task) (allocations : Table Allocation)

def Event.perform (svc : Service) : Event → Db → Db
  | call cfg now c, db => c.perform svc { cfg, now, clock := now, seen := db } db
  | scheduler tasks allocations, db => { db with tasks, allocations }

def script (svc : Service) (events : List Event) (db : Db) : Db :=
  events.foldl (fun db e ↦ e.perform svc db) db

def Call.fresh (db : Db) : Call → Bool
  | preparePooledTaskSession q => db.reservations.rows.all fun r ↦
      !(":" ++ q.token).toList.isSuffixOf r.reservationKey.toList
  | _ => true

theorem Call.fresh_spec {db : Db} {call : Call} (h : call.fresh db = true) : call.Fresh db := by
  cases call <;> try trivial
  rename_i q
  intro r hr sid generation hkey
  simp only [Call.fresh, List.all_eq_true, Bool.not_eq_true'] at h
  refine absurd (List.isSuffixOf_iff_suffix.mpr ?_) (Bool.eq_false_iff.mp (h r hr))
  rw [hkey]
  simp only [String.toList_append, List.append_assoc]
  exact ⟨autoKeyPrefix.toList ++ (toString sid).toList ++ ":".toList ++
    (toString generation).toList, by simp only [List.append_assoc]⟩

section Meets

variable (svc : Service) (C : Db → Write → Prop)

def AllMeet : List (PoolTx Unit) → Db → Prop
  | [], _ => True
  | m :: ms, db => (m db).1.isOk = true → Journal C db (m db).2 ∧ AllMeet ms (m.commit db)

def Event.Meets : Event → Db → Prop
  | call cfg now c, db => c.fresh db = true ∧
      AllMeet C (c.transactions svc { cfg, now, clock := now, seen := db }) db
  | scheduler .., _ => True

def ScriptMeets : List Event → Db → Prop
  | [], _ => True
  | e :: es, db => e.Meets svc C db ∧ ScriptMeets es (e.perform svc db)

variable [∀ db w, Decidable (C db w)]

instance decidableAllMeet : ∀ (ms : List (PoolTx Unit)) (db : Db), Decidable (AllMeet C ms db)
  | [], _ => isTrue trivial
  | m :: ms, db =>
      have := decidableAllMeet ms (m.commit db)
      inferInstanceAs (Decidable (_ → _ ∧ _))

instance (e : Event) (db : Db) : Decidable (e.Meets svc C db) := by
  cases e
  · exact inferInstanceAs (Decidable (_ ∧ AllMeet C _ db))
  · exact isTrue trivial

instance decidableScriptMeets : ∀ (es : List Event) (db : Db), Decidable (ScriptMeets svc C es db)
  | [], _ => isTrue trivial
  | e :: es, db =>
      have := decidableScriptMeets es (e.perform svc db)
      inferInstanceAs (Decidable (e.Meets svc C db ∧ _))

end Meets

variable {svc : Service} {C : Db → Write → Prop}

theorem hosted_rules (sid : ℕ) :
    SessionRules C Sound fun s ↦ s.id = sid ∧ s.hostTokenHash ≠ "" where
  plain hdb _ _ hs _ hm h :=
    ⟨hm.id.trans h.1, by rw [hm.tokenKept (hdb.registered.token _ hs h.2)]; exact h.2⟩
  placed hdb hs hm h :=
    ⟨hm.id.trans h.1, by rw [hm.tokenKept (hdb.registered.token _ hs h.2)]; exact h.2⟩
  granted _ _ _ _ h := h

theorem Run.sound {db db' : Db} (h : Run svc C db db') (hdb : Sound db) : Sound db' :=
  Run.stable sound_invariant sound_invariant.stable h hdb hdb

theorem Step.sound {db db' : Db} (h : Step svc C db db') (hdb : Sound db) : Sound db' :=
  h.stable sound_invariant sound_invariant.stable hdb hdb

theorem Step.earlier {env : Env} {db db' : Db} (h : Step svc C db db') (hdb : Sound db)
    (hseen : env.Earlier db) : env.Earlier db' := fun s hs htoken ↦
  h.stable sound_invariant (((hosted_rules s.id).some_session fun _ h ↦ h).stable fun _ h ↦ h) hdb
    (hseen s hs htoken)

theorem Call.fresh_of_two {call : Call} {env : Env} (db : Db)
    (h : 2 ≤ (call.transactions svc env).length) : call.Fresh db := by
  cases call <;> trivial

def executionsAll : List (PoolTx Unit) → Db → List PoolExecution
  | [], _ => []
  | m :: ms, db =>
      if (m db).1.isOk then executions db (m db).2 ++ executionsAll ms (m.commit db) else []

def Event.executions (svc : Service) : Event → Db → List PoolExecution
  | call cfg now c, db =>
      executionsAll (c.transactions svc { cfg, now, clock := now, seen := db }) db
  | scheduler .., _ => []

def scriptExecutions (svc : Service) : List Event → Db → List PoolExecution
  | [], _ => []
  | e :: es, db => e.executions svc db ++ scriptExecutions svc es (e.perform svc db)

theorem History.performAll {call : Call} {env : Env} {ms : List (PoolTx Unit)} {start db : Db}
    {es : List PoolExecution} (h : History svc C start es db)
    (hsub : ms.Sublist (call.transactions svc env)) (hfresh : call.Fresh db)
    (hseen : env.Earlier db) (hdb : Sound db) (hmeets : AllMeet C ms db) :
    History svc C start (es ++ executionsAll ms db) (Call.performAll ms db) := by
  induction ms generalizing db es with
  | nil => rwa [executionsAll, List.append_nil]
  | cons m ms ih =>
      unfold Call.performAll executionsAll
      split
      · rename_i hok
        have hm := hsub.subset List.mem_cons_self
        have hstep : Step svc C db (m.commit db) :=
          .transaction call env m hm hfresh hseen fun h ↦ (hmeets h).1
        have hnext := h.transaction call env m hm hfresh hseen hok (hmeets hok).1
        rw [← List.append_assoc]
        cases ms with
        | nil => rwa [executionsAll, List.append_nil]
        | cons m' ms' =>
            have hlength := hsub.length_le
            simp only [List.length_cons] at hlength
            exact ih hnext (List.sublist_of_cons_sublist hsub)
              (@Call.fresh_of_two svc call env _ (by omega)) (hstep.earlier hdb hseen)
              (hstep.sound hdb) (hmeets hok).2
      · rwa [List.append_nil]

/-- A script whose writes meet the condition is a run under the condition. -/
theorem History.script {events : List Event} {start db : Db} {es : List PoolExecution}
    (h : History svc C start es db) (hdb : Sound db) (hmeets : ScriptMeets svc C events db) :
    History svc C start (es ++ scriptExecutions svc events db) (script svc events db) := by
  induction events generalizing db es with
  | nil => rwa [scriptExecutions, List.append_nil]
  | cons e events ih =>
      have hnext : History svc C start (es ++ e.executions svc db) (e.perform svc db) ∧
          Sound (e.perform svc db) := by
        cases e with
        | scheduler tasks allocations =>
            rw [Event.executions, List.append_nil]
            exact ⟨h.scheduler tasks allocations db.settings db.placementCursor,
              (Moves.scheduler db tasks allocations db.settings db.placementCursor).sound hdb⟩
        | call cfg now c =>
            have hseen : Env.Earlier { cfg, now, clock := now, seen := db } db :=
              fun s hs htoken ↦ ⟨s, hs, rfl, htoken⟩
            have hfresh := Call.fresh_spec hmeets.1.1
            have hrun : History svc C db ([] ++ _) _ := History.nil.performAll
              (List.Sublist.refl _) hfresh hseen hdb hmeets.1.2
            exact ⟨h.performAll (List.Sublist.refl _) hfresh hseen hdb hmeets.1.2,
              hrun.run.sound hdb⟩
      rw [scriptExecutions, ← List.append_assoc]
      exact ih hnext.1 hnext.2 hmeets.2

theorem history_script {events : List Event} {db : Db} (hdb : Sound db)
    (hmeets : ScriptMeets svc C events db) :
    History svc C db (scriptExecutions svc events db) (script svc events db) :=
  History.nil.script hdb hmeets

theorem run_script_from {events : List Event} {db : Db} (hdb : Sound db)
    (hmeets : ScriptMeets svc C events db) : Run svc C db (script svc events db) :=
  (history_script hdb hmeets).run

theorem reachable_script {events : List Event} (hmeets : ScriptMeets svc C events {}) :
    Reachable svc C (script svc events {}) := run_script_from sound_empty hmeets

instance (db : Db) (w : Write) : Decidable (AnyWrite db w) := isTrue trivial

def stripBlanks (s : String) : String :=
  String.ofList ((s.toList.dropWhile (· == ' ')).reverse.dropWhile (· == ' ')).reverse

def sampleService : Service where
  bootstrapToken := "bootstrap"
  tokenHash token := "sha256:" ++ token
  strip := stripBlanks
  lower s := String.ofList (s.toList.map Char.toLower)
  expectedSessionProfile := "profile"
  parseSessionProfile s := some (s == "profile")
  endpointPort _ := 50051
  taskAccountFingerprint t := t.name

/-- One serving allocation, an operational pool, and a registered session on it that has a
slot for each of two projects. -/
def openDesktop (tasks : Table Task) : List Event :=
  [.scheduler tasks (Table.empty.insert fun id ↦
    { id, accountName := "lab", nodeName := "n1", state := .active
      drainReason := demandDrainReason, createdAt := 100000 }),
   .call {} 100000 (.putSettings [("aedt_pool_enabled", "1"), ("aedt_pool_adapter_ready", "1")]),
   .call {} 100000 (.recordValidation true 2 false),
   .call {} 100000 (.reconcile { execute := true, plan := { placements :=
    [{ sessionKey := "aedt-1", allocationId := 1, accountName := "lab", nodeName := "n1" }] } }),
   .call {} 100001 (.claimStart
    { allocationId := 1, nodeName := "n1", hostId := "host", hostProcessId := "7"
      bootstrapToken := "bootstrap" }),
   .call {} 100002 (.registerSession
    { sessionId := 1, hostId := "host", endpoint := "n1:50051", processId := "8"
      sessionProfile := "profile", bootstrapToken := "bootstrap", hostToken := "host-token" }
    { execute := false })]

def Db.desktop (db : Db) : Session := (db.sessions.find? 1).getD { id := 0 }

theorem Db.desktop_mem {db : Db} (h : (db.sessions.find? 1).isSome = true) :
    db.desktop ∈ db.sessions := find?_getD_mem h

def clientToken (leaseId : ℕ) : String := "client-token-0000" ++ toString leaseId

/-- A protocol-v2 request of its own project and task, under the token of the lease it creates. -/
def sampleRequest (leaseId taskId : ℕ) : LeaseArgs where
  requestKey := "request-" ++ toString leaseId
  projectName := "project-" ++ toString leaseId
  workloadFamily := "maxwell"
  sessionProfile := "profile"
  workspacePath := "/work"
  protocolVersion := 2
  clientToken := clientToken leaseId
  taskId := taskId

def attach (leaseId : ℕ) (now : Time) : List Event :=
  [.call {} now (.acceptLease leaseId (clientToken leaseId)),
   .call {} now (.activateLease leaseId (clientToken leaseId))]

end SlurmScheduler.Pool
