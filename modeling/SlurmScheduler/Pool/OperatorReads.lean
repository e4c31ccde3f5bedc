import SlurmScheduler.Pool.OperatorSettings

namespace SlurmScheduler.Pool

open Relational PoolTx
open Slurm.Text (strip stripChars isSpace)

theorem digits_of_isDigit {l : List Char} (h : ∀ c ∈ l, c.isDigit = true) (value : ℕ) :
    digits value l = some (Nat.ofDigitChars 10 l value) := by
  induction l generalizing value with
  | nil => rfl
  | cons c l ih =>
    have hc := h c List.mem_cons_self
    have hne : c ≠ '_' := by
      intro heq
      subst heq
      exact absurd hc (by decide)
    have hstep : digits value (c :: l) =
        if c.isDigit then digits (10 * value + (c.toNat - 48)) l else none := by
      rw [digits]
      · intro heq
        exact absurd heq hne
      · intro _ _ heq
        exact absurd heq hne
    rw [hstep, if_pos hc, ih fun d hd ↦ h d (List.mem_cons_of_mem c hd)]
    rfl

theorem isSpace_of_isDigit {c : Char} (h : c.isDigit = true) : isSpace c = false := by
  simp only [Char.isDigit, Bool.and_eq_true, decide_eq_true_eq] at h
  have hlow : 48 ≤ c.toNat := h.1
  have hhigh : c.toNat ≤ 57 := h.2
  simp only [isSpace, Bool.or_eq_false_iff, Bool.and_eq_false_iff, decide_eq_false_iff_not,
    beq_eq_false_iff_ne]
  omega

theorem stripChars_of_isDigit {l : List Char} (h : ∀ c ∈ l, c.isDigit = true) :
    stripChars l = l := by
  have hspace : ∀ c ∈ l, ¬ isSpace c = true := fun c hc ↦ by
    rw [isSpace_of_isDigit (h c hc)]
    exact Bool.false_ne_true
  unfold stripChars
  rw [List.dropWhile_eq_self_iff.mpr fun hl ↦ hspace _ (List.getElem_mem _),
    List.rdropWhile_eq_self_iff.mpr fun hl ↦ hspace _ (List.getLast_mem _)]

theorem isDigit_of_mem_toString {n : ℕ} {c : Char} (h : c ∈ (toString n).toList) :
    c.isDigit = true := by
  rw [Nat.toString_eq_ofList_toDigits, String.toList_ofList] at h
  exact Nat.isDigit_of_mem_toDigits (by decide) (by decide) h

theorem decimal_toString (n : ℕ) : decimal (toString n).toList = some n := by
  have hdigit : ∀ c ∈ (toString n).toList, c.isDigit = true := fun c ↦ isDigit_of_mem_toString
  have hvalue := digits_of_isDigit hdigit 0
  rw [Nat.toString_eq_ofList_toDigits, String.toList_ofList, Nat.ofDigitChars_ten_toDigits]
    at hvalue
  rw [Nat.toString_eq_ofList_toDigits, String.toList_ofList] at hdigit ⊢
  cases hl : Nat.toDigits 10 n with
  | nil => exact absurd hl Nat.toDigits_ne_nil
  | cons c l =>
    rw [hl] at hdigit hvalue
    rw [decimal, if_pos (hdigit c List.mem_cons_self), hvalue]

theorem int_toString {svc : Service} (hstrip : svc.strip = strip) (n : ℕ) :
    svc.int (toString n) = some (n : ℤ) := by
  have hdigit : ∀ c ∈ (toString n).toList, c.isDigit = true := fun c ↦ isDigit_of_mem_toString
  have hstripped : (svc.strip (toString n)).toList = (toString n).toList := by
    rw [hstrip, strip, String.toList_ofList, stripChars_of_isDigit hdigit]
  unfold Service.int
  rw [hstripped]
  split
  · rename_i heq
    exact absurd (hdigit '-' (by rw [heq]; exact List.mem_cons_self)) (by decide)
  · rename_i heq
    exact absurd (hdigit '+' (by rw [heq]; exact List.mem_cons_self)) (by decide)
  · rw [decimal_toString]
    rfl

def Db.stored (db : Db) (key : String) : Option String :=
  (db.settings.find? (·.1 == key)).map (·.2)

theorem setting_eq (db : Db) (key default : String) :
    db.setting key default = (db.stored key).getD default := rfl

theorem stored_putSettings_one (db : Db) (key value k : String) :
    (putSettings [(key, value)] db).stored k = if key = k then some value else db.stored k := by
  unfold Db.stored putSettings
  rw [List.foldl_cons, List.foldl_nil, List.find?_append]
  by_cases hk : key = k
  · subst hk
    have hnone : (db.settings.filter (·.1 != key)).find? (·.1 == key) = none := by
      rw [List.find?_eq_none]
      intro entry hentry
      simpa using (List.mem_filter.mp hentry).2
    rw [hnone, if_pos rfl]
    simp
  · have hfilter : (db.settings.filter (·.1 != key)).find? (·.1 == k) =
        db.settings.find? (·.1 == k) := by
      rw [List.find?_filter]
      congr 1
      funext entry
      by_cases hentry : entry.1 = k
      · simp [hentry, Ne.symm hk]
      · simp [hentry]
    rw [hfilter, if_neg hk]
    simp [hk]

theorem putSettings_cons (key value : String) (values : List (String × String)) (db : Db) :
    putSettings ((key, value) :: values) db =
      putSettings values (putSettings [(key, value)] db) := rfl

/-- A key of the settings that are put has their value, any other one its own. -/
theorem stored_putSettings {values : List (String × String)}
    (hkeys : (values.map (·.1)).Nodup) (db : Db) (k : String) :
    (putSettings values db).stored k = (values.lookup k).or (db.stored k) := by
  induction values generalizing db with
  | nil => rfl
  | cons entry values ih =>
    obtain ⟨key, value⟩ := entry
    rw [List.map_cons, List.nodup_cons] at hkeys
    rw [putSettings_cons, ih hkeys.2, stored_putSettings_one, List.lookup_cons]
    by_cases hk : key = k
    · subst hk
      have hnone : values.lookup key = none := by
        rw [List.lookup_eq_none_iff]
        intro entry hentry
        have hne : key ≠ entry.1 := by
          intro heq
          rw [heq] at hkeys
          exact hkeys.1 (List.mem_map_of_mem (f := (·.1)) hentry)
        simpa using hne
      rw [hnone, if_pos rfl]
      simp
    · have hbeq : (k == key) = false := by simpa using Ne.symm hk
      rw [if_neg hk, hbeq]

section Reading

variable {svc : Service} {isFloat : String → Bool} {db db' : Db}

theorem intSetting_congr {key default : String} {floor : ℕ} (h : db'.stored key = db.stored key) :
    svc.intSetting db' key default floor = svc.intSetting db key default floor := by
  unfold Service.intSetting
  rw [setting_eq, setting_eq, h]

theorem intSetting_stored (hstrip : svc.strip = strip) {key default : String} {floor n : ℕ}
    (h : db.stored key = some (toString n)) :
    svc.intSetting db key default floor = .ok (max floor n) := by
  unfold Service.intSetting
  rw [setting_eq, h, Option.getD_some]
  dsimp only
  rw [int_toString hstrip]
  dsimp only
  congr 1
  omega

theorem floorSetting_ok {key default : String} {floor n : ℕ}
    (h : svc.intSetting db key default floor = .ok n) :
    svc.floorSetting db key default floor = .ok ⟨n, intSetting_le h⟩ := by
  unfold Service.floorSetting
  split
  · rename_i heq
    rw [h] at heq
    cases heq
    rfl
  · rename_i heq
    rw [h] at heq
    cases heq

theorem intSetting_of_floorSetting {key default : String} {floor : ℕ} {n : { n : ℕ // floor ≤ n }}
    (h : svc.floorSetting db key default floor = .ok n) :
    svc.intSetting db key default floor = .ok n.1 := by
  unfold Service.floorSetting at h
  split at h
  · rename_i heq
    cases h
    exact heq
  · cases h

structure Reads (svc : Service) (isFloat : String → Bool) (db : Db) (c : OperatorConfig) : Prop where
  validated : ∃ required, svc.intSetting db "aedt_pool_projects_per_session" "2" 2 = .ok required ∧
    c.validationPassed = (db.densityValidation required).any (·.passed)
  maxSessions : svc.intSetting db "aedt_pool_max_sessions" "250" 0 = .ok c.maxSessions
  minIdleSessions : svc.intSetting db "aedt_pool_min_idle_sessions" "3" 0 = .ok c.minIdleSessions
  targetProjects : svc.intSetting db "aedt_pool_target_projects" "500" 0 = .ok c.targetProjects
  projectsPerSession :
    svc.intSetting db "aedt_pool_projects_per_session" "2" 1 = .ok c.projectsPerSession
  projectCpus : svc.intSetting db "aedt_pool_project_cpus" "4" 1 = .ok c.projectCpus
  projectMemoryMb :
    svc.intSetting db "aedt_pool_project_memory_mb" "32768" 1024 = .ok c.projectMemoryMb
  factor : isFloat (db.setting "aedt_pool_node_cpu_factor" "1.0") = true
  leaseTtlSeconds : svc.intSetting db "aedt_pool_lease_ttl_seconds" "1800" 30 = .ok c.leaseTtlSeconds
  queuedStaleSeconds :
    svc.intSetting db "aedt_pool_queued_stale_seconds" "90" 30 = .ok c.queuedStaleSeconds
  offerAckSeconds : svc.intSetting db "aedt_pool_offer_ack_seconds" "60" 15 = .ok c.offerAckSeconds
  admissionDeadlineSeconds : svc.intSetting db "aedt_pool_admission_deadline_seconds" "600" 60 =
    .ok c.admissionDeadlineSeconds
  sessionHeartbeatTimeoutSeconds :
    svc.intSetting db "aedt_pool_session_heartbeat_timeout_seconds" "1800" 30 =
      .ok c.sessionHeartbeatTimeoutSeconds
  unhealthyRecycleGraceSeconds :
    svc.intSetting db "aedt_pool_unhealthy_recycle_grace_seconds" "180" 0 =
      .ok c.unhealthyRecycleGraceSeconds
  sessionStartTimeoutSeconds :
    svc.intSetting db "aedt_pool_session_start_timeout_seconds" "600" 60 =
      .ok c.sessionStartTimeoutSeconds
  idleTtlSeconds : svc.intSetting db "aedt_pool_idle_ttl_seconds" "3600" 0 = .ok c.idleTtlSeconds
  allocationMaxAgeSeconds : svc.intSetting db "aedt_pool_allocation_max_age_seconds" "158400" 0 =
    .ok c.allocationMaxAgeSeconds
  scaleStep : ∃ n, svc.intSetting db "aedt_pool_scale_step_nodes" "4" 1 = .ok n
  enabled : c.enabled = svc.boolSetting (db.setting "aedt_pool_enabled" "0")
  adapterReady : c.adapterReady = svc.boolSetting (db.setting "aedt_pool_adapter_ready" "0")

theorem operatorConfig_eq_ok_iff {c : OperatorConfig} :
    svc.operatorConfig isFloat db = .ok c ↔ Reads svc isFloat db c := by
  constructor
  · intro h
    unfold Service.operatorConfig at h
    obtain ⟨required, hrequired, h⟩ := bind_ok h
    obtain ⟨_, hmax, h⟩ := bind_ok h
    obtain ⟨_, hidle, h⟩ := bind_ok h
    obtain ⟨_, htarget, h⟩ := bind_ok h
    obtain ⟨_, hslots, h⟩ := bind_ok h
    obtain ⟨_, hcpus, h⟩ := bind_ok h
    obtain ⟨_, hmemory, h⟩ := bind_ok h
    dsimp only at h
    split at h
    · cases h
    · rename_i hfactor
      obtain ⟨_, hlease, h⟩ := bind_ok h
      obtain ⟨_, hstale, h⟩ := bind_ok h
      obtain ⟨_, hack, h⟩ := bind_ok h
      obtain ⟨_, hadmission, h⟩ := bind_ok h
      obtain ⟨_, hheartbeat, h⟩ := bind_ok h
      obtain ⟨_, hgrace, h⟩ := bind_ok h
      obtain ⟨_, hstart, h⟩ := bind_ok h
      obtain ⟨_, httl, h⟩ := bind_ok h
      obtain ⟨_, hage, h⟩ := bind_ok h
      obtain ⟨n, hscale, h⟩ := bind_ok h
      cases h
      exact {
        validated := ⟨required, hrequired, rfl⟩, maxSessions := hmax, minIdleSessions := hidle
        targetProjects := htarget, projectsPerSession := intSetting_of_floorSetting hslots
        projectCpus := hcpus, projectMemoryMb := hmemory, factor := by simpa using hfactor
        leaseTtlSeconds := hlease, queuedStaleSeconds := hstale, offerAckSeconds := hack
        admissionDeadlineSeconds := hadmission, sessionHeartbeatTimeoutSeconds := hheartbeat
        unhealthyRecycleGraceSeconds := hgrace, sessionStartTimeoutSeconds := hstart
        idleTtlSeconds := httl, allocationMaxAgeSeconds := hage, scaleStep := ⟨n, hscale⟩
        enabled := rfl, adapterReady := rfl }
  · intro h
    obtain ⟨required, hrequired, hvalidated⟩ := h.validated
    obtain ⟨n, hscale⟩ := h.scaleStep
    unfold Service.operatorConfig
    rw [hrequired, h.maxSessions, h.minIdleSessions, h.targetProjects,
      floorSetting_ok h.projectsPerSession, h.projectCpus, h.projectMemoryMb, h.leaseTtlSeconds,
      h.queuedStaleSeconds, h.offerAckSeconds, h.admissionDeadlineSeconds,
      h.sessionHeartbeatTimeoutSeconds, h.unhealthyRecycleGraceSeconds,
      h.sessionStartTimeoutSeconds, h.idleTtlSeconds, h.allocationMaxAgeSeconds, hscale]
    simp only [bind, Except.bind, h.factor, Bool.not_true, Bool.false_eq_true, if_false, pure,
      Except.pure, ← h.enabled, ← h.adapterReady, ← hvalidated]

/-- The settings alone decide all of a configuration but the validation. -/
theorem Reads.of_stored {c : OperatorConfig} (h : Reads svc isFloat db c)
    (hstored : ∀ key, db'.stored key = db.stored key) :
    ∃ passed, Reads svc isFloat db' { c with validationPassed := passed } := by
  obtain ⟨required, hrequired, -⟩ := h.validated
  have hint : ∀ {key default floor n}, svc.intSetting db key default floor = .ok n →
      svc.intSetting db' key default floor = .ok n := by
    intro key default floor n hn
    rw [intSetting_congr (hstored key), hn]
  have hsetting : ∀ key default, db'.setting key default = db.setting key default := by
    intro key default
    rw [setting_eq, setting_eq, hstored]
  refine ⟨(db'.densityValidation required).any (·.passed), ?_⟩
  exact {
    validated := ⟨required, hint hrequired, rfl⟩, maxSessions := hint h.maxSessions
    minIdleSessions := hint h.minIdleSessions, targetProjects := hint h.targetProjects
    projectsPerSession := hint h.projectsPerSession, projectCpus := hint h.projectCpus
    projectMemoryMb := hint h.projectMemoryMb, factor := by rw [hsetting]; exact h.factor
    leaseTtlSeconds := hint h.leaseTtlSeconds, queuedStaleSeconds := hint h.queuedStaleSeconds
    offerAckSeconds := hint h.offerAckSeconds
    admissionDeadlineSeconds := hint h.admissionDeadlineSeconds
    sessionHeartbeatTimeoutSeconds := hint h.sessionHeartbeatTimeoutSeconds
    unhealthyRecycleGraceSeconds := hint h.unhealthyRecycleGraceSeconds
    sessionStartTimeoutSeconds := hint h.sessionStartTimeoutSeconds
    idleTtlSeconds := hint h.idleTtlSeconds
    allocationMaxAgeSeconds := hint h.allocationMaxAgeSeconds
    scaleStep := h.scaleStep.imp fun _ ↦ hint
    enabled := by rw [hsetting]; exact h.enabled
    adapterReady := by rw [hsetting]; exact h.adapterReady }

section Put

variable {values : List (String × String)} {keys : List String} {key default : String} {floor n : ℕ}

theorem stored_put_other (hvalues : values.map (·.1) = keys) (hnodup : keys.Nodup)
    (h : key ∉ keys) : (putSettings values db).stored key = db.stored key := by
  rw [stored_putSettings (by rw [hvalues]; exact hnodup), List.lookup_eq_none_iff.mpr,
    Option.none_or]
  intro entry hentry
  have hne : key ≠ entry.1 := by
    intro heq
    rw [heq, ← hvalues] at h
    exact h (List.mem_map_of_mem (f := (·.1)) hentry)
  simpa using hne

theorem setting_put_other (hvalues : values.map (·.1) = keys) (hnodup : keys.Nodup)
    (h : key ∉ keys) : (putSettings values db).setting key default = db.setting key default := by
  rw [setting_eq, setting_eq, stored_put_other hvalues hnodup h]

theorem intSetting_put_other (hvalues : values.map (·.1) = keys) (hnodup : keys.Nodup)
    (h : key ∉ keys) (hn : svc.intSetting db key default floor = .ok n) :
    svc.intSetting (putSettings values db) key default floor = .ok n := by
  rw [intSetting_congr (stored_put_other hvalues hnodup h), hn]

theorem intSetting_put (hstrip : svc.strip = strip) (hvalues : values.map (·.1) = keys)
    (hnodup : keys.Nodup) (h : values.lookup key = some (toString n)) (hn : floor ≤ n) :
    svc.intSetting (putSettings values db) key default floor = .ok n := by
  rw [intSetting_stored hstrip, max_eq_right hn]
  rw [stored_putSettings (by rw [hvalues]; exact hnodup), h, Option.some_or]

end Put

def limitSettings : List String :=
  ["aedt_pool_max_sessions", "aedt_pool_min_idle_sessions", "aedt_pool_target_projects",
    "aedt_pool_projects_per_session"]

theorem limitSettings_nodup : limitSettings.Nodup := by decide

theorem Limits.settings_keys (l : Limits) : l.settings.map (·.1) = limitSettings := rfl

def timeoutSettings : List String :=
  ["aedt_pool_lease_ttl_seconds", "aedt_pool_session_heartbeat_timeout_seconds",
    "aedt_pool_unhealthy_recycle_grace_seconds", "aedt_pool_idle_ttl_seconds",
    "aedt_pool_allocation_max_age_seconds"]

theorem timeoutSettings_nodup : timeoutSettings.Nodup := by decide

theorem Timeouts.settings_keys (t : Timeouts) : t.settings.map (·.1) = timeoutSettings := rfl

/-- Limits that are put are read back, and the other settings are as they were. -/
theorem Reads.put_limits {c : OperatorConfig} (hstrip : svc.strip = strip)
    (h : Reads svc isFloat db c) (l : Limits) : ∃ passed,
    Reads svc isFloat (putSettings l.settings db) { c with
      maxSessions := l.maxSessions, minIdleSessions := l.minIdleSessions
      targetProjects := l.targetProjects, projectsPerSession := l.projectsPerSession
      slots_pos := l.slots_pos, validationPassed := passed } := by
  have hput : ∀ {key default floor n}, l.settings.lookup key = some (toString n) → floor ≤ n →
      svc.intSetting (putSettings l.settings db) key default floor = .ok n := by
    intro key default floor n hkey hn
    exact intSetting_put hstrip l.settings_keys limitSettings_nodup hkey hn
  have hother : ∀ {key default floor n}, key ∉ limitSettings →
      svc.intSetting db key default floor = .ok n →
      svc.intSetting (putSettings l.settings db) key default floor = .ok n := by
    intro key default floor n hkey hn
    exact intSetting_put_other l.settings_keys limitSettings_nodup hkey hn
  have hsetting : ∀ {key default}, key ∉ limitSettings →
      (putSettings l.settings db).setting key default = db.setting key default := by
    intro key default hkey
    exact setting_put_other l.settings_keys limitSettings_nodup hkey
  have hrequired : svc.intSetting (putSettings l.settings db) "aedt_pool_projects_per_session" "2" 2 =
      .ok (max 2 l.projectsPerSession) := by
    apply intSetting_stored hstrip
    rw [stored_putSettings (by rw [l.settings_keys]; exact limitSettings_nodup)]
    rfl
  refine ⟨(db.densityValidation (max 2 l.projectsPerSession)).any (·.passed), ?_⟩
  exact {
    validated := ⟨_, hrequired, rfl⟩
    maxSessions := hput rfl (Nat.zero_le _), minIdleSessions := hput rfl (Nat.zero_le _)
    targetProjects := hput rfl (Nat.zero_le _), projectsPerSession := hput rfl l.slots_pos
    projectCpus := hother (by decide) h.projectCpus
    projectMemoryMb := hother (by decide) h.projectMemoryMb
    factor := by rw [hsetting (by decide)]; exact h.factor
    leaseTtlSeconds := hother (by decide) h.leaseTtlSeconds
    queuedStaleSeconds := hother (by decide) h.queuedStaleSeconds
    offerAckSeconds := hother (by decide) h.offerAckSeconds
    admissionDeadlineSeconds := hother (by decide) h.admissionDeadlineSeconds
    sessionHeartbeatTimeoutSeconds := hother (by decide) h.sessionHeartbeatTimeoutSeconds
    unhealthyRecycleGraceSeconds := hother (by decide) h.unhealthyRecycleGraceSeconds
    sessionStartTimeoutSeconds := hother (by decide) h.sessionStartTimeoutSeconds
    idleTtlSeconds := hother (by decide) h.idleTtlSeconds
    allocationMaxAgeSeconds := hother (by decide) h.allocationMaxAgeSeconds
    scaleStep := h.scaleStep.imp fun _ ↦ hother (by decide)
    enabled := by rw [hsetting (by decide)]; exact h.enabled
    adapterReady := by rw [hsetting (by decide)]; exact h.adapterReady }

theorem Reads.put_timeouts {c : OperatorConfig} (hstrip : svc.strip = strip)
    (h : Reads svc isFloat db c) (t : Timeouts) :
    Reads svc isFloat (putSettings t.settings db) { c with
      leaseTtlSeconds := t.leaseTtlSeconds, idleTtlSeconds := t.idleTtlSeconds
      sessionHeartbeatTimeoutSeconds := t.sessionHeartbeatTimeoutSeconds
      unhealthyRecycleGraceSeconds := t.unhealthyRecycleGraceSeconds
      allocationMaxAgeSeconds := t.allocationMaxAgeSeconds } := by
  have hput : ∀ {key default floor n}, t.settings.lookup key = some (toString n) → floor ≤ n →
      svc.intSetting (putSettings t.settings db) key default floor = .ok n := by
    intro key default floor n hkey hn
    exact intSetting_put hstrip t.settings_keys timeoutSettings_nodup hkey hn
  have hother : ∀ {key default floor n}, key ∉ timeoutSettings →
      svc.intSetting db key default floor = .ok n →
      svc.intSetting (putSettings t.settings db) key default floor = .ok n := by
    intro key default floor n hkey hn
    exact intSetting_put_other t.settings_keys timeoutSettings_nodup hkey hn
  have hsetting : ∀ {key default}, key ∉ timeoutSettings →
      (putSettings t.settings db).setting key default = db.setting key default := by
    intro key default hkey
    exact setting_put_other t.settings_keys timeoutSettings_nodup hkey
  obtain ⟨required, hrequired, hvalidated⟩ := h.validated
  exact {
    validated := ⟨required, hother (by decide) hrequired, hvalidated⟩
    maxSessions := hother (by decide) h.maxSessions
    minIdleSessions := hother (by decide) h.minIdleSessions
    targetProjects := hother (by decide) h.targetProjects
    projectsPerSession := hother (by decide) h.projectsPerSession
    projectCpus := hother (by decide) h.projectCpus
    projectMemoryMb := hother (by decide) h.projectMemoryMb
    factor := by rw [hsetting (by decide)]; exact h.factor
    leaseTtlSeconds := hput rfl t.lease_floor
    queuedStaleSeconds := hother (by decide) h.queuedStaleSeconds
    offerAckSeconds := hother (by decide) h.offerAckSeconds
    admissionDeadlineSeconds := hother (by decide) h.admissionDeadlineSeconds
    sessionHeartbeatTimeoutSeconds := hput rfl t.heartbeat_floor
    unhealthyRecycleGraceSeconds := hput rfl (Nat.zero_le _)
    sessionStartTimeoutSeconds := hother (by decide) h.sessionStartTimeoutSeconds
    idleTtlSeconds := hput rfl (Nat.zero_le _)
    allocationMaxAgeSeconds := hput rfl (Nat.zero_le _)
    scaleStep := h.scaleStep.imp fun _ ↦ hother (by decide)
    enabled := by rw [hsetting (by decide)]; exact h.enabled
    adapterReady := by rw [hsetting (by decide)]; exact h.adapterReady }

end Reading

end SlurmScheduler.Pool
