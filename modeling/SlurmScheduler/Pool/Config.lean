import SlurmScheduler.Pool.Slots

namespace SlurmScheduler.Pool

open Relational

def digits (value : ℕ) : List Char → Option ℕ
  | [] => some value
  | ['_'] => none
  | '_' :: c :: cs => if c.isDigit then digits (10 * value + (c.toNat - 48)) cs else none
  | c :: cs => if c.isDigit then digits (10 * value + (c.toNat - 48)) cs else none

def decimal : List Char → Option ℕ
  | [] => none
  | c :: cs => if c.isDigit then digits 0 (c :: cs) else none

namespace Service

variable (svc : Service)

def int (value : String) : Option ℤ :=
  match (svc.strip value).toList with
  | '-' :: cs => (decimal cs).map fun n ↦ -(n : ℤ)
  | '+' :: cs => (decimal cs).map fun n ↦ (n : ℤ)
  | cs => (decimal cs).map fun n ↦ (n : ℤ)

/-- `max(floor, int(setting(key)))` -/
def intSetting (db : Db) (key default : String) (floor : ℕ) : Except PoolError ℕ :=
  let value := db.setting key default
  match svc.int value with
  | some n => .ok (max (floor : ℤ) n).toNat
  | none => .error (.value ("invalid literal for int() with base 10: '" ++ value ++ "'"))

end Service

def Db.densityValidation (db : Db) (projects : ℕ) : Option Validation :=
  (db.validations.select (·.pooledProjects == projects)).getLast?

/-- `config`; `isFloat` says which texts `float` accepts. -/
def Service.config (svc : Service) (isFloat : String → Bool) (db : Db) :
    Except PoolError AedtPoolConfig := do
  let required ← svc.intSetting db "aedt_pool_projects_per_session" "2" 2
  let validation := db.densityValidation required
  let _ ← svc.intSetting db "aedt_pool_max_sessions" "250" 0
  let _ ← svc.intSetting db "aedt_pool_min_idle_sessions" "3" 0
  let targetProjects ← svc.intSetting db "aedt_pool_target_projects" "500" 0
  let projectsPerSession ← svc.intSetting db "aedt_pool_projects_per_session" "2" 1
  let projectCpus ← svc.intSetting db "aedt_pool_project_cpus" "4" 1
  let _ ← svc.intSetting db "aedt_pool_project_memory_mb" "32768" 1024
  let factor := db.setting "aedt_pool_node_cpu_factor" "1.0"
  if !isFloat factor then
    throw (.value ("could not convert string to float: '" ++ factor ++ "'"))
  let leaseTtlSeconds ← svc.intSetting db "aedt_pool_lease_ttl_seconds" "1800" 30
  let queuedStaleSeconds ← svc.intSetting db "aedt_pool_queued_stale_seconds" "90" 30
  let offerAckSeconds ← svc.intSetting db "aedt_pool_offer_ack_seconds" "60" 15
  let admissionDeadlineSeconds ←
    svc.intSetting db "aedt_pool_admission_deadline_seconds" "600" 60
  let sessionHeartbeatTimeoutSeconds ←
    svc.intSetting db "aedt_pool_session_heartbeat_timeout_seconds" "1800" 30
  let unhealthyRecycleGraceSeconds ←
    svc.intSetting db "aedt_pool_unhealthy_recycle_grace_seconds" "180" 0
  let sessionStartTimeoutSeconds ←
    svc.intSetting db "aedt_pool_session_start_timeout_seconds" "600" 60
  let _ ← svc.intSetting db "aedt_pool_idle_ttl_seconds" "3600" 0
  let allocationMaxAgeSeconds ←
    svc.intSetting db "aedt_pool_allocation_max_age_seconds" "158400" 0
  let _ ← svc.intSetting db "aedt_pool_scale_step_nodes" "4" 1
  return {
    enabled := svc.boolSetting (db.setting "aedt_pool_enabled" "0")
    adapterReady := svc.boolSetting (db.setting "aedt_pool_adapter_ready" "0")
    validationPassed := validation.any (·.passed)
    targetProjects, projectsPerSession, projectCpus, leaseTtlSeconds, queuedStaleSeconds
    offerAckSeconds, admissionDeadlineSeconds, sessionHeartbeatTimeoutSeconds
    unhealthyRecycleGraceSeconds, sessionStartTimeoutSeconds, allocationMaxAgeSeconds }

variable {svc : Service} {isFloat : String → Bool} {db : Db} {cfg : AedtPoolConfig}

theorem bind_ok {α β : Type} {x : Except PoolError α} {f : α → Except PoolError β} {b : β}
    (h : x >>= f = .ok b) : ∃ a, x = .ok a ∧ f a = .ok b := by
  cases x with
  | error e => cases h
  | ok a => exact ⟨a, rfl, h⟩

/-- The gate of `config` is that of the newest validation of the configured density. -/
theorem config_operational (h : svc.config isFloat db = .ok cfg) : ∃ projects,
    svc.intSetting db "aedt_pool_projects_per_session" "2" 2 = .ok projects ∧
    cfg.operational = (svc.boolSetting (db.setting "aedt_pool_enabled" "0") &&
      svc.boolSetting (db.setting "aedt_pool_adapter_ready" "0") &&
      (db.densityValidation projects).any (·.passed)) := by
  unfold Service.config at h
  obtain ⟨projects, hprojects, h⟩ := bind_ok h
  refine ⟨projects, hprojects, ?_⟩
  dsimp only at h
  iterate 6 obtain ⟨_, -, h⟩ := bind_ok h
  split at h
  · cases h
  iterate 10 obtain ⟨_, -, h⟩ := bind_ok h
  cases h
  rfl

/-- The two newest validations that the gate may look at agree. -/
def Db.validationsAgree (db : Db) (projects : ℕ) : Prop :=
  (db.validations.rows.getLast?).any (·.passed) = (db.densityValidation projects).any (·.passed)

/-- `heartbeat_session` and `config` agree exactly when a switch is off or the newest
validation passed just like the newest one of the configured density. -/
theorem poolOperational_eq_iff (h : svc.config isFloat db = .ok cfg) :
    db.poolOperational svc = cfg.operational ↔
      svc.boolSetting (db.setting "aedt_pool_enabled" "0") = false ∨
      svc.boolSetting (db.setting "aedt_pool_adapter_ready" "0") = false ∨
      ∀ projects, svc.intSetting db "aedt_pool_projects_per_session" "2" 2 = .ok projects →
        db.validationsAgree projects := by
  obtain ⟨projects, hprojects, hcfg⟩ := config_operational h
  have hforall : (∀ p, svc.intSetting db "aedt_pool_projects_per_session" "2" 2 = .ok p →
      db.validationsAgree p) ↔ db.validationsAgree projects :=
    ⟨fun hall ↦ hall projects hprojects, fun hagree p hp ↦ by
      rw [hprojects] at hp
      cases hp
      exact hagree⟩
  rw [hforall, hcfg]
  unfold Db.poolOperational Db.validationsAgree
  cases svc.boolSetting (db.setting "aedt_pool_enabled" "0") with
  | false => simp
  | true => cases svc.boolSetting (db.setting "aedt_pool_adapter_ready" "0") <;> simp

/-- The pool was validated for two projects on a Desktop, and a later validation for four failed. -/
def mixedValidations : Db :=
  script sampleService
    [.call {} 100000 (.putSettings [("aedt_pool_enabled", "1"), ("aedt_pool_adapter_ready", "1")]),
     .call {} 100001 (.recordValidation true 2 false),
     .call {} 100002 (.recordValidation false 4 false)] {}

def anyFloat : String → Bool := fun _ ↦ true

def repeatedValidations : Db :=
  script sampleService
    [.call {} 100000 (.putSettings [("aedt_pool_enabled", "1"), ("aedt_pool_adapter_ready", "1")]),
     .call {} 100001 (.recordValidation true 2 false),
     .call {} 100002 (.recordValidation false 4 false),
     .call {} 100003 (.recordValidation true 4 false)] {}

theorem poolOperational_eq_witness : ∃ cfg,
    sampleService.config anyFloat repeatedValidations = .ok cfg ∧ cfg.operational = true ∧
      repeatedValidations.validationsAgree 2 ∧
      repeatedValidations.poolOperational sampleService = cfg.operational := by
  have hagree : repeatedValidations.validationsAgree 2 := by rfl
  refine ⟨{ validationPassed := true }, by rfl, rfl, hagree, ?_⟩
  refine (@poolOperational_eq_iff sampleService anyFloat repeatedValidations _ (by rfl)).mpr
    (.inr (.inr fun projects hprojects ↦ ?_))
  have hdensity : sampleService.intSetting repeatedValidations "aedt_pool_projects_per_session" "2" 2 =
      .ok 2 := by rfl
  rw [hdensity] at hprojects
  exact Except.ok.inj hprojects ▸ hagree

/-- `config` still calls that pool operational, while no heartbeat recovers a session. -/
theorem poolOperational_ne_config :
    ¬ ∀ (svc : Service) (isFloat : String → Bool) (db : Db), Reachable svc AnyWrite db →
      ∀ cfg, svc.config isFloat db = .ok cfg → db.poolOperational svc = cfg.operational := by
  intro h
  have heq := h sampleService anyFloat mixedValidations (reachable_script (by decide)) {} (by rfl)
  exact absurd heq (by decide)

end SlurmScheduler.Pool
