import SlurmScheduler.Slurm.JobStates

namespace SlurmScheduler.Slurm

open Relational Text
open Dispatch (JobStatus JobStateInfo lookup)

variable (py : Python)

def Reply.states (r : Reply) (jobId : String) : List String :=
  if r.result.exitCode != 0 then [] else
  match r.command with
  | .squeue => (((splitLines r.result.stdout).filterMap squeueLine).filter (·.1 == jobId)).map
      (·.2.state)
  | .sacct _ => (((splitLines r.result.stdout).filterMap sacctLine).filter (·.1 == jobId)).map
      (·.2)
  | .scontrol asked => if asked == jobId then (jobState py r.result.stdout).toList else []

def Reply.denies (r : Reply) (jobId : String) : Bool :=
  r.command == .scontrol jobId && confirmation py r.result == some .denied

def Reply.lacks (r : Reply) (jobId : String) : Bool :=
  r.result.exitCode == 0 &&
    match r.command with
    | .squeue => !(splitLines r.result.stdout).any fun line ↦
        (squeueLine line).any (·.1 == jobId)
    | .sacct chunk => chunk.contains jobId && !(splitLines r.result.stdout).any fun line ↦
        (sacctLine line).any (·.1 == jobId)
    | .scontrol _ => false

def Reply.hear (jobId : String) (known : Option Report) (r : Reply) : Option Report :=
  match r.command with
  | .squeue =>
      let table := if r.result.exitCode == 0 then parseSqueueTable r.result.stdout else []
      (lookup jobId table).map .row
  | .sacct chunk =>
      if r.result.exitCode == 0 && chunk.contains jobId then
        ((lookup jobId (parseSacctStates r.result.stdout)).map Report.word).or known
      else known
  | .scontrol asked => if asked == jobId then known.or (confirmation py r.result) else known

def counted (log : List Reply) (jobId : String) : Option Report :=
  log.foldl (Reply.hear py jobId) none

variable {py}

theorem counted_append (log : List Reply) (r : Reply) (jobId : String) :
    counted py (log ++ [r]) jobId = r.hear py jobId (counted py log jobId) := by
  simp [counted, List.foldl_append]

theorem mem_of_lookup {β : Type} {key : String} {d : List (String × β)} {b : β}
    (h : lookup key d = some b) : (key, b) ∈ d := by
  unfold lookup at h
  obtain ⟨e, he, rfl⟩ := Option.map_eq_some_iff.mp h
  have hkey := List.find?_some he
  rw [beq_iff_eq] at hkey
  subst hkey
  exact List.mem_of_find?_eq_some he

theorem states_of_squeue {r : Reply} {jobId : String} {row : SqueueRow}
    (hcommand : r.command = .squeue) (hok : r.result.exitCode = 0)
    (h : lookup jobId (parseSqueueTable r.result.stdout) = some row) :
    row.state ∈ r.states py jobId := by
  have hmem := mem_of_lookup h
  rw [parseSqueueTable, List.mem_reverse] at hmem
  rw [Reply.states, hcommand, if_neg (by simp [hok])]
  exact List.mem_map.mpr ⟨_, List.mem_filter.mpr ⟨hmem, beq_self_eq_true jobId⟩, rfl⟩

theorem states_of_sacct {r : Reply} {chunk : List String} {jobId state : String}
    (hcommand : r.command = .sacct chunk) (hok : r.result.exitCode = 0)
    (h : lookup jobId (parseSacctStates r.result.stdout) = some state) :
    state ∈ r.states py jobId := by
  have hmem := mem_of_lookup h
  rw [parseSacctStates, List.mem_reverse] at hmem
  rw [Reply.states, hcommand, if_neg (by simp [hok])]
  exact List.mem_map.mpr ⟨_, List.mem_filter.mpr ⟨hmem, beq_self_eq_true jobId⟩, rfl⟩

def Heard (py : Python) (log : List Reply) (jobId : String) (report : Report) : Prop :=
  match report.state? with
  | some state => ∃ r ∈ log, state ∈ r.states py jobId
  | none => ∃ r ∈ log, r.denies py jobId = true

theorem Heard.append {log : List Reply} {jobId : String} {report : Report} (r : Reply)
    (h : Heard py log jobId report) : Heard py (log ++ [r]) jobId report := by
  unfold Heard at *
  cases hstate : report.state? with
  | none =>
      rw [hstate] at h
      obtain ⟨q, hq, hdenies⟩ := h
      exact ⟨q, List.mem_append_left _ hq, hdenies⟩
  | some state =>
      rw [hstate] at h
      obtain ⟨q, hq, hstates⟩ := h
      exact ⟨q, List.mem_append_left _ hq, hstates⟩

theorem heard_of_confirmation {r : Reply} {jobId : String} {report : Report}
    (hcommand : r.command = .scontrol jobId) (h : confirmation py r.result = some report)
    (log : List Reply) : Heard py (log ++ [r]) jobId report := by
  have hmem : r ∈ log ++ [r] := List.mem_append_right _ (List.mem_singleton.mpr rfl)
  have hread := h
  unfold confirmation at hread
  split at hread
  · rename_i hok
    obtain ⟨state, hstate, rfl⟩ := Option.map_eq_some_iff.mp hread
    refine ⟨r, hmem, ?_⟩
    rw [Reply.states, hcommand, if_neg (by simp [beq_iff_eq.mp hok])]
    simp [hstate]
  · split at hread
    · cases hread
      refine ⟨r, hmem, ?_⟩
      rw [Reply.denies, hcommand, h]
      simp
    · cases hread

theorem heard_of_hear {log : List Reply} {r : Reply} {jobId : String} {known : Option Report}
    (hknown : ∀ report, known = some report → Heard py log jobId report) {report : Report}
    (h : r.hear py jobId known = some report) : Heard py (log ++ [r]) jobId report := by
  have hmem : r ∈ log ++ [r] := List.mem_append_right _ (List.mem_singleton.mpr rfl)
  unfold Reply.hear at h
  split at h
  · rename_i hcommand
    obtain ⟨row, hrow, rfl⟩ := Option.map_eq_some_iff.mp h
    split at hrow
    · rename_i hok
      exact ⟨r, hmem, states_of_squeue hcommand (beq_iff_eq.mp hok) hrow⟩
    · cases hrow
  · rename_i chunk hcommand
    split at h
    · rename_i hchunk
      rw [Bool.and_eq_true, beq_iff_eq] at hchunk
      cases hstate : lookup jobId (parseSacctStates r.result.stdout) with
      | none =>
          rw [hstate] at h
          exact (hknown report h).append r
      | some state =>
          rw [hstate] at h
          cases h
          exact ⟨r, hmem, states_of_sacct hcommand hchunk.1 hstate⟩
    · exact (hknown report h).append r
  · rename_i asked hcommand
    split at h
    · rename_i hasked
      rw [beq_iff_eq] at hasked
      subst hasked
      cases known with
      | none => exact heard_of_confirmation hcommand h log
      | some other =>
          cases h
          exact (hknown report rfl).append r
    · exact (hknown report h).append r

theorem heard_of_counted {log : List Reply} {jobId : String} {report : Report}
    (h : counted py log jobId = some report) : Heard py log jobId report := by
  induction log using List.reverseRecOn generalizing report with
  | nil => cases h
  | append_singleton log r ih =>
      rw [counted_append] at h
      exact heard_of_hear (fun _ hknown ↦ ih hknown) h

def Faithful (py : Python) (ids : List String) (out : Reports) (s : Session) : Prop :=
  ∀ jobId ∈ ids, lookup jobId out = counted py s.log jobId

def Session.told (s : Session) (r : Reply) : Session := { s with log := s.log ++ [r] }

theorem wp_run {command : Command} {s : Session} {Q : CommandResult → Session → Prop}
    (h : ∀ result, Q result (s.told ⟨command, result⟩)) :
    Tx.wp (fun _ _ ↦ True) (run command) Q s := by
  refine Tx.wp_bind.mpr (Tx.wp_read.mpr ?_)
  cases s.answer s.log command with
  | error e => exact Tx.wp_fail
  | ok result =>
      refine Tx.wp_bind.mpr (Tx.wp_write.mpr ⟨trivial, ?_⟩)
      exact Tx.wp_pure.mpr (h result)

theorem lookup_filterMap {β : Type} {f : String → Option β} {ids : List String} {jobId : String} :
    lookup jobId (ids.filterMap fun id ↦ (f id).map fun b ↦ (id, b)) =
      if jobId ∈ ids then f jobId else none := by
  unfold lookup
  induction ids with
  | nil => rfl
  | cons id ids ih =>
      rw [List.filterMap_cons]
      by_cases hid : id = jobId
      · subst hid
        cases hf : f id with
        | none =>
            rw [if_pos List.mem_cons_self]
            rw [hf, ite_self] at ih
            simpa [hf] using ih
        | some b => simp
      · have hmem : jobId ∈ id :: ids ↔ jobId ∈ ids := by simp [Ne.symm hid]
        cases hf : f id with
        | none => simpa [hmem] using ih
        | some b => simpa [hmem, hid] using ih

theorem lookup_append {β : Type} {key : String} {d d' : List (String × β)} :
    lookup key (d ++ d') = (lookup key d).or (lookup key d') := by
  unfold lookup
  rw [List.find?_append]
  cases d.find? (·.1 == key) <;> rfl

theorem confirmBySacct_faithful {ids chunk : List String} {out : Reports} {s : Session}
    (h : Faithful py ids out s) :
    Tx.wp (fun _ _ ↦ True) (confirmBySacct out chunk) (Faithful py ids) s := by
  refine Tx.wp_bind.mpr (wp_run fun sacct ↦ ?_)
  split
  · rename_i hfailed
    refine Tx.wp_pure.mpr fun jobId hid ↦ ?_
    have hcode : (sacct.exitCode == 0) = false := by simpa using hfailed
    rw [Session.told, counted_append, Reply.hear]
    simpa [hcode] using h jobId hid
  · rename_i hok
    refine Tx.wp_pure.mpr fun jobId hid ↦ ?_
    have hcode : sacct.exitCode = 0 := by simpa using hok
    rw [Session.told, counted_append, Reply.hear, lookup_append, h jobId hid]
    have hchunk := @lookup_filterMap _
      (fun id ↦ (lookup id (parseSacctStates sacct.stdout)).map Report.word) chunk jobId
    simp only [Option.map_map, Function.comp_def] at hchunk
    rw [hchunk]
    by_cases hmem : jobId ∈ chunk <;> simp [hcode, hmem]

theorem confirmByScontrol_faithful {ids : List String} {out : Reports} {jobId : String}
    {s : Session} (h : Faithful py ids out s) (hjob : jobId ∈ ids) :
    Tx.wp (fun _ _ ↦ True) (confirmByScontrol py out jobId) (Faithful py ids) s := by
  unfold confirmByScontrol
  split
  · exact Tx.wp_pure.mpr h
  · rename_i hlacks
    have hnone : lookup jobId out = none := by simpa [Reports.lacks] using hlacks
    refine Tx.wp_bind.mpr (wp_run fun probe ↦ ?_)
    have hother (id : String) (hid : id ∈ ids) (hne : id ≠ jobId) :
        lookup id out = counted py (s.told ⟨.scontrol jobId, probe⟩).log id := by
      rw [Session.told, counted_append, Reply.hear]
      simpa [Ne.symm hne] using h id hid
    have hself : counted py (s.told ⟨.scontrol jobId, probe⟩).log jobId =
        confirmation py probe := by
      rw [Session.told, counted_append, Reply.hear, ← h jobId hjob, hnone]
      simp
    cases hconfirmed : confirmation py probe with
    | none =>
        refine Tx.wp_pure.mpr fun id hid ↦ ?_
        by_cases hne : id = jobId
        · subst hne
          rw [hself, hconfirmed, hnone]
        · exact hother id hid hne
    | some report =>
        refine Tx.wp_pure.mpr fun id hid ↦ ?_
        by_cases hne : id = jobId
        · subst hne
          rw [hself, hconfirmed]
          simp [lookup]
        · rw [← hother id hid hne]
          simp [lookup, Ne.symm hne]

theorem reports_faithful {ids : List String} {s : Session} :
    Tx.wp (fun _ _ ↦ True) (reports py ids) (Faithful py ids) s := by
  unfold reports openSession
  refine Tx.wp_bind.mpr (Tx.wp_bind.mpr (Tx.wp_read.mpr ?_))
  cases s.raises with
  | some e => exact Tx.wp_fail
  | none =>
      refine Tx.wp_pure.mpr (Tx.wp_bind.mpr (wp_run fun result ↦ ?_))
      have hfirst : Faithful py ids (ids.filterMap fun jobId ↦
          (lookup jobId (if result.exitCode == 0 then parseSqueueTable result.stdout
            else [])).map fun row ↦ (jobId, Report.row row)) (s.told ⟨.squeue, result⟩) := by
        intro jobId hid
        have hlookup := @lookup_filterMap _ (fun id ↦ (lookup id
          (if result.exitCode == 0 then parseSqueueTable result.stdout else [])).map Report.row)
          ids jobId
        simp only [Option.map_map, Function.comp_def] at hlookup
        rw [hlookup, if_pos hid, Session.told, counted_append, Reply.hear]
      refine Tx.wp_bind.mpr (Tx.wp_mono (Tx.wp_fold (I := fun _ ↦ Faithful py ids)
        (fun chunk rest out s h ↦ confirmBySacct_faithful h) hfirst) fun out s h ↦ ?_)
      refine Tx.wp_mono (Tx.wp_fold
        (I := fun rest out s ↦ (∀ id ∈ rest, id ∈ ids) ∧ Faithful py ids out s)
        (fun id rest out s h ↦ ?_) ⟨fun _ hid ↦ hid, h⟩) fun out s h ↦ h.2
      refine Tx.wp_mono (confirmByScontrol_faithful h.2 (h.1 id List.mem_cons_self))
        fun out s hout ↦ ⟨fun j hj ↦ h.1 j (List.mem_cons_of_mem id hj), hout⟩

/-- What the caller of `job_states` gets, and what the session has been told. -/
def Session.ask (py : Python) (session : Session) (slurmJobIds : List String) :
    Except String (List (String × JobStateInfo)) × List Reply :=
  let probe := jobStates py slurmJobIds { session with log := [] }
  (if session.late then .error "TimeoutError" else probe.1, probe.2)

theorem log_replay (log : List Reply) (s : Session) :
    (replay log s).log = s.log ++ log := by
  induction log generalizing s with
  | nil => exact (List.append_nil _).symm
  | cons r log ih =>
      rw [replay_cons, ih]
      exact List.append_assoc s.log [r] log

theorem lookup_ask {session : Session} {slurmJobIds : List String}
    {states : List (String × JobStateInfo)} (h : (session.ask py slurmJobIds).1 = .ok states)
    (jobId : String) : lookup jobId states =
      if jobId ∈ jobIds slurmJobIds then
        some (((counted py (session.ask py slurmJobIds).2 jobId).map Report.info).getD
          { status := .submitted })
      else none := by
  have hprobe : (jobStates py slurmJobIds { session with log := [] }).1 = .ok states := by
    unfold Session.ask at h
    dsimp only at h
    split at h
    · cases h
    · exact h
  have hwp : Tx.wp (fun _ _ ↦ True) (jobStates py slurmJobIds) (fun states s ↦ ∀ jobId,
      lookup jobId states = if jobId ∈ jobIds slurmJobIds then
        some (((counted py s.log jobId).map Report.info).getD { status := .submitted })
      else none) { session with log := [] } := by
    unfold jobStates
    dsimp only
    split
    · rename_i hempty
      have hnil := List.isEmpty_iff.mp hempty
      refine Tx.wp_pure.mpr fun jobId ↦ ?_
      rw [hnil]
      rfl
    · refine Tx.wp_bind.mpr (Tx.wp_mono reports_faithful fun out s hout ↦ Tx.wp_pure.mpr ?_)
      intro jobId
      have hlookup := @lookup_filterMap _ (fun id ↦ some (((lookup id out).map Report.info).getD
        { status := .submitted })) (jobIds slurmJobIds) jobId
      simp only [Option.map_some, List.filterMap_eq_map'] at hlookup
      rw [hlookup]
      by_cases hid : jobId ∈ jobIds slurmJobIds
      · rw [if_pos hid, if_pos hid, hout jobId hid]
      · rw [if_neg hid, if_neg hid]
  have hlog := hwp.2 states hprobe jobId
  rw [log_replay] at hlog
  exact hlog

end SlurmScheduler.Slurm
