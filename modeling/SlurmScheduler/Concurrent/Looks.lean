import SlurmScheduler.Concurrent.Discipline

namespace SlurmScheduler.Concurrent

open Relational Statement

variable {σ ω ℓ π κ : Type} {ans : κ → Type} {α : Type}

structure Look (σ ω : Type) where
  state : σ
  since : List ω := []

/-- A write, and what its thread had seen before it, the last look first. -/
structure Decision (σ ω ℓ : Type) extends Event σ ω ℓ where
  looks : List (Look σ ω)

namespace Look

def later (ws : List ω) (x : Look σ ω) : Look σ ω := { x with since := x.since ++ ws }

variable [Statement σ ω]

def Unmoved (f : σ → α) (x : Look σ ω) : Prop :=
  ∀ e ∈ executions x.state x.since, f (apply e.write e.before) = f e.before

instance [DecidableEq α] (f : σ → α) (x : Look σ ω) : Decidable (x.Unmoved f) :=
  inferInstanceAs (Decidable (∀ e ∈ _, _))

theorem Unmoved.eq {f : σ → α} {x : Look σ ω} (h : x.Unmoved f) :
    f (replay x.since x.state) = f x.state := by
  obtain ⟨s, ws⟩ := x
  induction ws generalizing s with
  | nil => rfl
  | cons w ws ih =>
      rw [Unmoved, executions, List.forall_mem_cons] at h
      exact (ih (apply w s) h.2).trans h.1

end Look

/-- The thread had seen the state when it made the write. -/
def Decision.Seen (d : Decision σ ω ℓ) (s : σ) : Prop := s = d.before ∨ ∃ x ∈ d.looks, x.state = s

/-- No write has changed this part of the state since the thread last saw `p` of it. -/
def Decision.Undisturbed [Statement σ ω] (d : Decision σ ω ℓ) (f : σ → α) (p : α → Bool) : Prop :=
  ∀ x ∈ d.looks.find? fun x ↦ p (f x.state), x.Unmoved f

instance [Statement σ ω] [DecidableEq α] (d : Decision σ ω ℓ) (f : σ → α) (p : α → Bool) :
    Decidable (d.Undisturbed f p) :=
  inferInstanceAs (Decidable (∀ x ∈ d.looks.find? _, _))

structure Watch (σ ω ℓ π κ : Type) (ans : κ → Type) where
  config : Config σ ω ℓ π κ ans
  looks : ℕ → List (Look σ ω) := fun _ ↦ []

def Watch.idle (s : σ) : Watch σ ω ℓ π κ ans where
  config := { state := s }

section Step

variable [Statement σ ω]

def stepDecisions (held : ℓ → Bool) : List (Look σ ω) → σ → List ω → List (Decision σ ω ℓ)
  | _, _, [] => []
  | looks, s, w :: ws =>
      { before := s, write := w, held, looks } ::
        stepDecisions held ((⟨s, []⟩ :: looks).map (.later [w])) (apply w s) ws

def stepLooks : List (Look σ ω) → σ → List ω → List (Look σ ω)
  | looks, s, [] => ⟨s, []⟩ :: looks
  | looks, s, w :: ws => stepLooks ((⟨s, []⟩ :: looks).map (.later [w])) (apply w s) ws

end Step

namespace Watch

variable [Statement σ ω] (c : Watch σ ω ℓ π κ ans)

def runLooks (i : ℕ) : ℕ → List (Look σ ω) :=
  match c.config.threads[i]? with
  | some (.step writes _) => fun j ↦
      if j = i then stepLooks (c.looks i) c.config.state (writes c.config.state)
      else (c.looks j).map (.later (writes c.config.state))
  | _ => c.looks

variable [DecidableEq ℓ] [DecidableEq κ]

def move (S : System σ ω ℓ π κ ans) (m : Move π κ ans) : Watch σ ω ℓ π κ ans where
  config := c.config.move S m
  looks :=
    match m with
    | .run i => c.runLooks i
    | .crash => fun _ ↦ []
    | _ => c.looks

omit [DecidableEq ℓ] [DecidableEq κ] in
def decisions : Move π κ ans → List (Decision σ ω ℓ)
  | .run i =>
      match c.config.threads[i]? with
      | some (.step writes _) =>
          stepDecisions (c.config.heldBy i) (c.looks i) c.config.state (writes c.config.state)
      | _ => []
  | _ => []

end Watch

namespace System

variable [DecidableEq ℓ] [DecidableEq κ] [Statement σ ω] (S : System σ ω ℓ π κ ans)

def watch (c : Watch σ ω ℓ π κ ans) (ms : List (Move π κ ans)) : Watch σ ω ℓ π κ ans :=
  ms.foldl (fun c m ↦ c.move S m) c

/-- The writes of a schedule in order, each with what its thread had seen. -/
def decisions : Watch σ ω ℓ π κ ans → List (Move π κ ans) → List (Decision σ ω ℓ)
  | _, [] => []
  | c, m :: ms => c.decisions m ++ decisions (c.move S m) ms

@[simp] theorem watch_nil (c : Watch σ ω ℓ π κ ans) : S.watch c [] = c := rfl

@[simp] theorem watch_cons (c : Watch σ ω ℓ π κ ans) (m : Move π κ ans) (ms : List (Move π κ ans)) :
    S.watch c (m :: ms) = S.watch (c.move S m) ms := rfl

@[simp] theorem decisions_nil (c : Watch σ ω ℓ π κ ans) : S.decisions c [] = [] := rfl

@[simp] theorem decisions_cons (c : Watch σ ω ℓ π κ ans) (m : Move π κ ans)
    (ms : List (Move π κ ans)) :
    S.decisions c (m :: ms) = c.decisions m ++ S.decisions (c.move S m) ms := rfl

end System

section Events

variable [Statement σ ω]

theorem events_stepDecisions (held : ℓ → Bool) (looks : List (Look σ ω)) (s : σ) (ws : List ω) :
    (stepDecisions held looks s ws).map (·.toEvent) =
      (executions s ws).map fun e ↦ { e with held } := by
  induction ws generalizing looks s with
  | nil => rfl
  | cons w ws ih => simp only [stepDecisions, executions, List.map_cons, ih]

theorem Watch.events_decisions (c : Watch σ ω ℓ π κ ans) (m : Move π κ ans) :
    (c.decisions m).map (·.toEvent) = c.config.events m := by
  cases m with
  | run i =>
      simp only [decisions, Config.events, Config.runEvents]
      cases c.config.threads[i]? with
      | none => rfl
      | some p =>
          cases p with
          | step writes k => exact events_stepDecisions (c.config.heldBy i) _ _ _
          | _ => rfl
  | call call => rfl
  | answer i q a => rfl
  | crash => rfl

variable [DecidableEq ℓ] [DecidableEq κ]

theorem System.events_decisions (S : System σ ω ℓ π κ ans) (c : Watch σ ω ℓ π κ ans)
    (ms : List (Move π κ ans)) :
    (S.decisions c ms).map (·.toEvent) = S.trace c.config ms := by
  induction ms generalizing c with
  | nil => rfl
  | cons m ms ih =>
      rw [decisions_cons, List.map_append, Watch.events_decisions, ih, trace_cons]
      rfl

theorem System.mem_trace {S : System σ ω ℓ π κ ans} {c : Watch σ ω ℓ π κ ans}
    {ms : List (Move π κ ans)} {d : Decision σ ω ℓ} (h : d ∈ S.decisions c ms) :
    d.toEvent ∈ S.trace c.config ms := by
  rw [← S.events_decisions c ms]
  exact List.mem_map_of_mem h

end Events

section Faithful

variable [Statement σ ω]

def Look.LeadsTo (x : Look σ ω) (s : σ) : Prop := replay x.since x.state = s

theorem Look.LeadsTo.later {x : Look σ ω} {s : σ} (h : x.LeadsTo s) (ws : List ω) :
    (x.later ws).LeadsTo (replay ws s) := by
  change replay (x.since ++ ws) x.state = _
  rw [replay_append, h]

theorem Look.leadsTo_map {looks : List (Look σ ω)} {s : σ} (h : ∀ x ∈ looks, x.LeadsTo s)
    (ws : List ω) : ∀ x ∈ looks.map (Look.later ws), x.LeadsTo (replay ws s) := by
  rw [List.forall_mem_map]
  exact fun x hx ↦ (h x hx).later ws

theorem leadsTo_step {looks : List (Look σ ω)} {s : σ} (held : ℓ → Bool)
    (h : ∀ x ∈ looks, x.LeadsTo s) (ws : List ω) :
    (∀ d ∈ stepDecisions held looks s ws, ∀ x ∈ d.looks, x.LeadsTo d.before) ∧
      ∀ x ∈ stepLooks looks s ws, x.LeadsTo (replay ws s) := by
  have hself : ∀ {looks : List (Look σ ω)} {s : σ}, (∀ x ∈ looks, x.LeadsTo s) →
      ∀ x ∈ (⟨s, []⟩ :: looks : List (Look σ ω)), x.LeadsTo s :=
    fun h ↦ List.forall_mem_cons.mpr ⟨rfl, h⟩
  induction ws generalizing looks s with
  | nil => exact ⟨List.forall_mem_nil _, hself h⟩
  | cons w ws ih =>
      obtain ⟨hall, hafter⟩ := ih (Look.leadsTo_map (hself h) [w])
      exact ⟨List.forall_mem_cons.mpr ⟨h, hall⟩, hafter⟩

def Watch.Faithful (c : Watch σ ω ℓ π κ ans) : Prop :=
  ∀ i, ∀ x ∈ c.looks i, x.LeadsTo c.config.state

variable [DecidableEq ℓ] [DecidableEq κ] {S : System σ ω ℓ π κ ans} {c : Watch σ ω ℓ π κ ans}

theorem Watch.Faithful.move (h : c.Faithful) (m : Move π κ ans) :
    (∀ d ∈ c.decisions m, ∀ x ∈ d.looks, x.LeadsTo d.before) ∧ (c.move S m).Faithful := by
  cases m with
  | crash => exact ⟨List.forall_mem_nil _, fun i ↦ List.forall_mem_nil _⟩
  | call call =>
      refine ⟨List.forall_mem_nil _, ?_⟩
      change ∀ i, ∀ x ∈ c.looks i, x.LeadsTo (c.config.move S (.call call)).state
      have hstate : (c.config.move S (.call call)).state = c.config.state := by
        unfold Config.move
        dsimp only
        split <;> rfl
      rw [hstate]
      exact h
  | answer i q a =>
      refine ⟨List.forall_mem_nil _, ?_⟩
      change ∀ i, ∀ x ∈ c.looks i, x.LeadsTo (c.config.move S (.answer _ q a)).state
      have hstate : (c.config.move S (.answer i q a)).state = c.config.state := by
        unfold Config.move
        dsimp only
        split
        · split <;> rfl
        · rfl
      rw [hstate]
      exact h
  | run i =>
      unfold Watch.decisions Watch.move Watch.runLooks Config.move Config.run Watch.Faithful
      dsimp only
      cases hi : c.config.threads[i]? with
      | none => exact ⟨List.forall_mem_nil _, h⟩
      | some p =>
          cases p with
          | step writes k =>
              obtain ⟨hall, hafter⟩ := leadsTo_step (c.config.heldBy i) (h i)
                (writes c.config.state)
              refine ⟨hall, fun j ↦ ?_⟩
              dsimp only
              split
              · exact hafter
              · exact Look.leadsTo_map (h j) _
          | lock l k =>
              refine ⟨List.forall_mem_nil _, ?_⟩
              dsimp only
              split <;> exact h
          | unlock l k =>
              refine ⟨List.forall_mem_nil _, ?_⟩
              dsimp only
              split <;> exact h
          | _ => exact ⟨List.forall_mem_nil _, h⟩

theorem Watch.Faithful.run (h : c.Faithful) (ms : List (Move π κ ans)) :
    ∀ d ∈ S.decisions c ms, ∀ x ∈ d.looks, x.LeadsTo d.before := by
  induction ms generalizing c with
  | nil => exact List.forall_mem_nil _
  | cons m ms ih =>
      obtain ⟨hall, hnext⟩ := h.move (S := S) m
      exact List.forall_mem_append.mpr ⟨hall, ih hnext⟩

omit [DecidableEq ℓ] in
/-- What the thread has seen of an undisturbed part of the state still holds. -/
theorem Decision.Undisturbed.still {d : Decision σ ω ℓ} {f : σ → α} {p : α → Bool}
    (h : d.Undisturbed f p) (hd : ∀ x ∈ d.looks, x.LeadsTo d.before)
    (hseen : ∃ s, d.Seen s ∧ p (f s) = true) : p (f d.before) = true := by
  obtain ⟨s, rfl | ⟨x, hx, rfl⟩, hp⟩ := hseen
  · exact hp
  · cases hlast : d.looks.find? fun x ↦ p (f x.state) with
    | none => exact absurd hp (List.find?_eq_none.mp hlast x hx)
    | some y =>
        have hshown := List.find?_some (p := fun x : Look σ ω ↦ p (f x.state)) hlast
        rw [← hd y (List.mem_of_find?_eq_some hlast), (h y (Option.mem_def.mpr hlast)).eq]
        exact hshown

end Faithful

section Stays

variable [Statement σ ω] {P : σ → Prop}

theorem stays_step {looks : List (Look σ ω)} {s : σ} {held : ℓ → Bool} {ws : List ω}
    (hs : P s) (hlooks : ∀ x ∈ looks, P x.state)
    (h : ∀ d ∈ stepDecisions held looks s ws, (∀ t, d.Seen t → P t) →
      P (apply d.write d.before)) :
    (∀ d ∈ stepDecisions held looks s ws, ∀ t, d.Seen t → P t) ∧ P (replay ws s) ∧
      ∀ x ∈ stepLooks looks s ws, P x.state := by
  induction ws generalizing looks s with
  | nil => exact ⟨List.forall_mem_nil _, hs, List.forall_mem_cons.mpr ⟨hs, hlooks⟩⟩
  | cons w ws ih =>
      rw [stepDecisions, List.forall_mem_cons] at h
      have hseen : ∀ t, (Decision.mk ⟨⟨s, w⟩, held⟩ looks).Seen t → P t := by
        intro t ht
        obtain rfl | ⟨x, hx, rfl⟩ := ht
        · exact hs
        · exact hlooks x hx
      have hlater : ∀ x ∈ (⟨s, []⟩ :: looks : List (Look σ ω)).map (Look.later [w]),
          P x.state := by
        rw [List.forall_mem_map, List.forall_mem_cons]
        exact ⟨hs, hlooks⟩
      obtain ⟨hall, hafter⟩ := ih (h.1 hseen) hlater h.2
      exact ⟨List.forall_mem_cons.mpr ⟨hseen, hall⟩, hafter⟩

structure Watch.Holds (P : σ → Prop) (c : Watch σ ω ℓ π κ ans) : Prop where
  state : P c.config.state
  looks : ∀ i, ∀ x ∈ c.looks i, P x.state

variable [DecidableEq ℓ] [DecidableEq κ] {S : System σ ω ℓ π κ ans} {c : Watch σ ω ℓ π κ ans}

theorem Watch.Holds.move (hc : c.Holds P) (hreboot : ∀ s, P s → P (S.reboot s))
    (m : Move π κ ans)
    (h : ∀ d ∈ c.decisions m, (∀ t, d.Seen t → P t) → P (apply d.write d.before)) :
    (∀ d ∈ c.decisions m, ∀ t, d.Seen t → P t) ∧ (c.move S m).Holds P := by
  cases m with
  | crash =>
      exact ⟨List.forall_mem_nil _, hreboot _ hc.state, fun i ↦ List.forall_mem_nil _⟩
  | call call =>
      refine ⟨List.forall_mem_nil _, ?_, hc.looks⟩
      unfold Watch.move Config.move
      dsimp only
      split <;> exact hc.state
  | answer i q a =>
      refine ⟨List.forall_mem_nil _, ?_, hc.looks⟩
      unfold Watch.move Config.move
      dsimp only
      split
      · split <;> exact hc.state
      · exact hc.state
  | run i =>
      unfold Watch.decisions at h ⊢
      unfold Watch.move Watch.runLooks Config.move Config.run
      dsimp only at h ⊢
      cases hi : c.config.threads[i]? with
      | none => exact ⟨List.forall_mem_nil _, hc.state, hc.looks⟩
      | some p =>
          cases p with
          | step writes k =>
              simp only [hi] at h
              obtain ⟨hall, hstate, hafter⟩ := stays_step hc.state (hc.looks i) h
              refine ⟨hall, hstate, fun j ↦ ?_⟩
              dsimp only
              split
              · exact hafter
              · rw [List.forall_mem_map]
                exact hc.looks j
          | lock l k =>
              refine ⟨List.forall_mem_nil _, ?_, hc.looks⟩
              dsimp only
              split <;> exact hc.state
          | unlock l k =>
              refine ⟨List.forall_mem_nil _, ?_, hc.looks⟩
              dsimp only
              split <;> exact hc.state
          | _ => exact ⟨List.forall_mem_nil _, hc.state, hc.looks⟩

/-- What every write keeps of a state that is as its thread has seen it. -/
theorem Watch.Holds.run (hc : c.Holds P) (hreboot : ∀ s, P s → P (S.reboot s))
    (ms : List (Move π κ ans))
    (h : ∀ d ∈ S.decisions c ms, (∀ t, d.Seen t → P t) → P (apply d.write d.before)) :
    (∀ d ∈ S.decisions c ms, ∀ t, d.Seen t → P t) ∧ (S.watch c ms).Holds P := by
  induction ms generalizing c with
  | nil => exact ⟨List.forall_mem_nil _, hc⟩
  | cons m ms ih =>
      rw [System.decisions_cons, List.forall_mem_append] at h
      obtain ⟨hall, hnext⟩ := hc.move hreboot m h.1
      obtain ⟨hrest, hafter⟩ := ih hnext h.2
      exact ⟨List.forall_mem_append.mpr ⟨hall, hrest⟩, hafter⟩

omit [DecidableEq ℓ] [DecidableEq κ] in
theorem stays_executions {s : σ} {ws : List ω} (hs : P s)
    (h : ∀ e ∈ executions s ws, P e.before → P (apply e.write e.before)) : P (replay ws s) := by
  induction ws generalizing s with
  | nil => exact hs
  | cons w ws ih =>
      rw [executions, List.forall_mem_cons] at h
      exact ih (h.1 hs) h.2

theorem Config.stays_move {c : Config σ ω ℓ π κ ans} (hs : P c.state)
    (hreboot : ∀ s, P s → P (S.reboot s)) (m : Move π κ ans)
    (h : ∀ e ∈ c.events m, P e.before → P (apply e.write e.before)) :
    P (c.move S m).state := by
  cases m with
  | crash => exact hreboot _ hs
  | call call =>
      unfold Config.move
      dsimp only
      split <;> exact hs
  | answer i q a =>
      unfold Config.move
      dsimp only
      split
      · split <;> exact hs
      · exact hs
  | run i =>
      unfold Config.events Config.runEvents at h
      unfold Config.move Config.run
      dsimp only at h ⊢
      cases hi : c.threads[i]? with
      | none => exact hs
      | some p =>
          cases p with
          | step writes k =>
              simp only [hi, List.forall_mem_map] at h
              exact stays_executions hs h
          | lock l k => dsimp only; split <;> exact hs
          | unlock l k => dsimp only; split <;> exact hs
          | _ => exact hs

theorem System.stays {c : Config σ ω ℓ π κ ans} (hreboot : ∀ s, P s → P (S.reboot s))
    (ms : List (Move π κ ans))
    (h : ∀ e ∈ S.trace c ms, P e.before → P (apply e.write e.before)) (hs : P c.state) :
    P (S.after c ms).state := by
  induction ms generalizing c with
  | nil => exact hs
  | cons m ms ih =>
      rw [System.trace_cons, List.forall_mem_append] at h
      exact ih h.2 (Config.stays_move hs hreboot m h.1)

theorem System.decisions_stay {ms ms' : List (Move π κ ans)}
    (hreboot : ∀ s, P s → P (S.reboot s))
    (h : ∀ d ∈ S.decisions c (ms ++ ms'), P d.before → P (apply d.write d.before))
    (hs : P (S.after c.config ms).state) : P (S.after c.config (ms ++ ms')).state := by
  rw [System.after_append]
  refine System.stays hreboot ms' (fun e he ↦ ?_) hs
  have hevents : e ∈ (S.decisions c (ms ++ ms')).map (·.toEvent) := by
    rw [S.events_decisions, System.trace_append]
    exact List.mem_append_right _ he
  obtain ⟨d, hd, rfl⟩ := List.mem_map.mp hevents
  exact h d hd

end Stays

end SlurmScheduler.Concurrent
