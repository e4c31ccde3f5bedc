import SlurmScheduler.Concurrent.Process

namespace SlurmScheduler.Concurrent

open Relational

variable {σ ω ℓ π κ : Type} {ans : κ → Type} {α β : Type}

/-- An answer to every question, wherever in the conversation it is asked. -/
abbrev Oracle (κ : Type) (ans : κ → Type) : Type := ℕ → (q : κ) → ans q

structure Outcome (σ α : Type) where
  result : α
  asked : ℕ
  state : σ

namespace Proc

variable [Statement σ ω] (o : Oracle κ ans)

def solo : Proc σ ω ℓ π κ ans α → ℕ → σ → Outcome σ α
  | ret a, n, s => ⟨a, n, s⟩
  | step writes k, n, s => (k s).solo n (replay (writes s) s)
  | ask q k, n, s => (k (o n q)).solo (n + 1) s
  | fork _ k, n, s => k.solo n s
  | lock _ k, n, s => k.solo n s
  | unlock _ k, n, s => k.solo n s

variable {o} {n : ℕ} {s : σ}

@[simp] theorem solo_ret {a : α} :
    (ret a : Proc σ ω ℓ π κ ans α).solo o n s = ⟨a, n, s⟩ := rfl

@[simp] theorem solo_pure {a : α} :
    (pure a : Proc σ ω ℓ π κ ans α).solo o n s = ⟨a, n, s⟩ := rfl

theorem solo_andThen {p : Proc σ ω ℓ π κ ans α} {f : α → Proc σ ω ℓ π κ ans β} :
    (p.andThen f).solo o n s =
      (f (p.solo o n s).result).solo o (p.solo o n s).asked (p.solo o n s).state := by
  induction p generalizing n s with
  | ret a => rfl
  | step writes k ih => exact ih s
  | ask q k ih => exact ih (o n q)
  | fork call k ih => exact ih
  | lock l k ih => exact ih
  | unlock l k ih => exact ih

@[simp] theorem solo_bind {p : Proc σ ω ℓ π κ ans α} {f : α → Proc σ ω ℓ π κ ans β} :
    (p >>= f).solo o n s =
      (f (p.solo o n s).result).solo o (p.solo o n s).asked (p.solo o n s).state := solo_andThen

@[simp] theorem solo_read {f : σ → α} :
    (read f : Proc σ ω ℓ π κ ans α).solo o n s = ⟨f s, n, s⟩ := rfl

@[simp] theorem solo_write {w : ω} :
    (write w : Proc σ ω ℓ π κ ans Unit).solo o n s = ⟨(), n, Statement.apply w s⟩ := rfl

@[simp] theorem solo_writeAll {ws : List ω} :
    (writeAll ws : Proc σ ω ℓ π κ ans Unit).solo o n s = ⟨(), n, replay ws s⟩ := rfl

@[simp] theorem solo_transact {f : σ → List ω × α} :
    (transact f : Proc σ ω ℓ π κ ans α).solo o n s = ⟨(f s).2, n, replay (f s).1 s⟩ := rfl

@[simp] theorem solo_query {q : κ} :
    (query q : Proc σ ω ℓ π κ ans (ans q)).solo o n s = ⟨o n q, n + 1, s⟩ := rfl

@[simp] theorem solo_spawn {call : π} :
    (spawn call : Proc σ ω ℓ π κ ans Unit).solo o n s = ⟨(), n, s⟩ := rfl

@[simp] theorem solo_locked {l : ℓ} {p : Proc σ ω ℓ π κ ans α} :
    (locked l p).solo o n s = p.solo o n s := by
  simp only [locked, solo, solo_andThen]

theorem solo_ite {Q : Outcome σ α → Prop} {c : Prop} [Decidable c] {p q : Proc σ ω ℓ π κ ans α}
    (hp : c → Q (p.solo o n s)) (hq : ¬ c → Q (q.solo o n s)) :
    Q ((if c then p else q).solo o n s) := by
  split
  · exact hp ‹c›
  · exact hq ‹¬ c›

theorem solo_forEach {I : σ → Prop} {bs : List β} {f : β → Proc σ ω ℓ π κ ans Unit}
    (hf : ∀ b ∈ bs, ∀ n s, I s → I ((f b).solo o n s).state) (hs : I s) :
    I ((forEach bs f).solo o n s).state := by
  induction bs generalizing n s with
  | nil => exact hs
  | cons b bs ih =>
      have hb := hf b List.mem_cons_self n s hs
      simp only [forEach, solo_andThen]
      exact ih (fun c hc ↦ hf c (List.mem_cons_of_mem b hc)) hb

/-- What one round establishes and every round preserves holds after the loop. -/
theorem solo_forEach_reaches {I : σ → Prop} {b : β} {bs : List β}
    {f : β → Proc σ ω ℓ π κ ans Unit} (hb : b ∈ bs) (hset : ∀ n s, I ((f b).solo o n s).state)
    (hkeep : ∀ c ∈ bs, ∀ n s, I s → I ((f c).solo o n s).state) :
    I ((forEach bs f).solo o n s).state := by
  induction bs generalizing n s with
  | nil => cases hb
  | cons c bs ih =>
      simp only [forEach, solo_andThen]
      have hrest : ∀ d ∈ bs, ∀ n s, I s → I ((f d).solo o n s).state :=
        fun d hd ↦ hkeep d (List.mem_cons_of_mem c hd)
      rcases List.mem_cons.mp hb with rfl | hb
      · exact solo_forEach hrest (hset n s)
      · exact ih hb hrest

/-- One round takes what holds before it to what holds after it, and the others keep both. -/
theorem solo_forEach_once {I J : σ → Prop} {b : β} {bs : List β}
    {f : β → Proc σ ω ℓ π κ ans Unit} (hb : b ∈ bs) (hnodup : bs.Nodup)
    (hself : ∀ n s, I s → J ((f b).solo o n s).state)
    (hI : ∀ c ∈ bs, c ≠ b → ∀ n s, I s → I ((f c).solo o n s).state)
    (hJ : ∀ c ∈ bs, c ≠ b → ∀ n s, J s → J ((f c).solo o n s).state) (hs : I s) :
    J ((forEach bs f).solo o n s).state := by
  induction bs generalizing n s with
  | nil => cases hb
  | cons c bs ih =>
      obtain ⟨hc, hnodup⟩ := List.nodup_cons.mp hnodup
      simp only [forEach, solo_andThen]
      by_cases hcb : c = b
      · subst hcb
        refine solo_forEach (fun d hd n s h ↦ ?_) (hself n s hs)
        exact hJ d (List.mem_cons_of_mem c hd) (fun h ↦ hc (h ▸ hd)) n s h
      · have hb := (List.mem_cons.mp hb).resolve_left (Ne.symm hcb)
        exact ih hb hnodup (fun d hd ↦ hI d (List.mem_cons_of_mem c hd))
          (fun d hd ↦ hJ d (List.mem_cons_of_mem c hd)) (hI c List.mem_cons_self hcb n s hs)

theorem le_asked (p : Proc σ ω ℓ π κ ans α) : n ≤ (p.solo o n s).asked := by
  induction p generalizing n s with
  | ret a => exact Nat.le_refl n
  | step writes k ih => exact ih s
  | ask q k ih => exact Nat.le_of_succ_le (ih (o n q))
  | fork call k ih => exact ih
  | lock l k ih => exact ih
  | unlock l k ih => exact ih

/-- From here on the outside answers as `A` says. -/
def Within (A : (q : κ) → ans q → Prop) (o : Oracle κ ans) (n : ℕ) : Prop :=
  ∀ m, n ≤ m → ∀ q, A q (o m q)

theorem within_any : Within (fun _ _ ↦ True) o n := fun _ _ _ ↦ trivial

theorem Within.later {A : (q : κ) → ans q → Prop} {m : ℕ} (h : Within A o n) (hle : n ≤ m) :
    Within A o m := fun i hi ↦ h i (Nat.le_trans hle hi)

/-- From a state with `P` the process ends as `Q` says if the outside answers as `A` says. -/
def Yields (A : (q : κ) → ans q → Prop) (p : Proc σ ω ℓ π κ ans α) (P : σ → Prop)
    (Q : α → σ → Prop) : Prop :=
  ∀ (o : Oracle κ ans) n s, Within A o n → P s → Q (p.solo o n s).result (p.solo o n s).state

variable {A : (q : κ) → ans q → Prop} {P P' : σ → Prop} {Q Q' : α → σ → Prop} {T : β → σ → Prop}

theorem Yields.mono {p : Proc σ ω ℓ π κ ans α} (h : p.Yields A P Q) (hP : ∀ s, P' s → P s)
    (hQ : ∀ a s, Q a s → Q' a s) : p.Yields A P' Q' :=
  fun o n s ho hs ↦ hQ _ _ (h o n s ho (hP s hs))

theorem yields_read {f : σ → α} (h : ∀ s, P s → Q (f s) s) :
    (read f : Proc σ ω ℓ π κ ans α).Yields A P Q := fun _ _ s _ hs ↦ h s hs

theorem yields_write {w : ω} {Q : Unit → σ → Prop} (h : ∀ s, P s → Q () (Statement.apply w s)) :
    (write w : Proc σ ω ℓ π κ ans Unit).Yields A P Q := fun _ _ s _ hs ↦ h s hs

theorem yields_query {q : κ} {Q : ans q → σ → Prop} (h : ∀ s a, A q a → P s → Q a s) :
    (query q : Proc σ ω ℓ π κ ans (ans q)).Yields A P Q :=
  fun _ n s ho hs ↦ h s _ (ho n (Nat.le_refl n) q) hs

end Proc

abbrev Raising (σ ω ℓ π κ : Type) (ans : κ → Type) (α : Type) : Type :=
  ExceptT String (Proc σ ω ℓ π κ ans) α

namespace Raising

variable [Statement σ ω] {A : (q : κ) → ans q → Prop} {P P' : σ → Prop} {Q Q' : α → σ → Prop} {T : β → σ → Prop}

def Returns (A : (q : κ) → ans q → Prop) (p : Raising σ ω ℓ π κ ans α) (P : σ → Prop)
    (Q : α → σ → Prop) : Prop :=
  p.run.Yields A P fun r s ↦ ∀ a, r = .ok a → Q a s

theorem Returns.mono {p : Raising σ ω ℓ π κ ans α} (h : p.Returns A P Q) (hP : ∀ s, P' s → P s)
    (hQ : ∀ a s, Q a s → Q' a s) : p.Returns A P' Q' :=
  Proc.Yields.mono h hP fun _ _ hr a ha ↦ hQ a _ (hr a ha)

theorem returns_pure {a : α} (h : ∀ s, P s → Q a s) :
    (pure a : Raising σ ω ℓ π κ ans α).Returns A P Q := by
  intro o n s _ hs b hb
  cases hb
  exact h s hs

theorem returns_throw {e : String} : (throw e : Raising σ ω ℓ π κ ans α).Returns A P Q := by
  intro o n s _ _ b hb
  cases hb

theorem solo_run_bind {o : Oracle κ ans} {n : ℕ} {s : σ} {p : Raising σ ω ℓ π κ ans β}
    {f : β → Raising σ ω ℓ π κ ans α} : (p >>= f).run.solo o n s =
      match (p.run.solo o n s).result with
      | .ok b => (f b).run.solo o (p.run.solo o n s).asked (p.run.solo o n s).state
      | .error e => ⟨.error e, (p.run.solo o n s).asked, (p.run.solo o n s).state⟩ := by
  have hrun : (p >>= f).run = p.run >>= ExceptT.bindCont f := rfl
  rw [hrun, Proc.solo_bind]
  cases (Proc.solo o p.run n s).result <;> rfl

theorem solo_run_lift {o : Oracle κ ans} {n : ℕ} {s : σ} {p : Proc σ ω ℓ π κ ans α} :
    (liftM p : Raising σ ω ℓ π κ ans α).run.solo o n s =
      ⟨.ok (p.solo o n s).result, (p.solo o n s).asked, (p.solo o n s).state⟩ := by
  have hrun : (liftM p : Raising σ ω ℓ π κ ans α).run = p >>= fun a ↦ pure (.ok a) := rfl
  rw [hrun, Proc.solo_bind]
  rfl

theorem returns_bind {p : Raising σ ω ℓ π κ ans β} {f : β → Raising σ ω ℓ π κ ans α}
    (hp : p.Returns A P T) (hf : ∀ b, (f b).Returns A (T b) Q) : (p >>= f).Returns A P Q := by
  intro o n s ho hs a ha
  have hbefore := hp o n s ho hs
  rw [solo_run_bind] at ha ⊢
  cases hresult : (Proc.solo o p.run n s).result with
  | error e =>
      rw [hresult] at ha
      cases ha
  | ok b =>
      rw [hresult] at ha
      exact hf b o _ _ (ho.later (Proc.le_asked _)) (hbefore b hresult) a ha

theorem returns_lift {p : Proc σ ω ℓ π κ ans α} (h : p.Yields A P Q) :
    (liftM p : Raising σ ω ℓ π κ ans α).Returns A P Q := by
  intro o n s ho hs a ha
  rw [solo_run_lift] at ha ⊢
  cases ha
  exact h o n s ho hs

theorem returns_ite {c : Prop} [Decidable c] {p q : Raising σ ω ℓ π κ ans α}
    (hp : c → p.Returns A P Q) (hq : ¬ c → q.Returns A P Q) : (if c then p else q).Returns A P Q := by
  split
  · exact hp ‹c›
  · exact hq ‹¬ c›

variable {γ : Type}

section Loops

variable (turn : β → Raising σ ω ℓ π κ ans (γ ⊕ β))

def iterate : ℕ → β → Raising σ ω ℓ π κ ans (Option γ)
  | 0, _ => pure none
  | rounds + 1, b => do
      match ← turn b with
      | .inl c => pure (some c)
      | .inr b => iterate rounds b

variable {turn}

theorem iterate_returns {I : β → σ → Prop} {Q : γ → σ → Prop} {rounds : ℕ} {b : β}
    (hturn : ∀ b, (turn b).Returns A (I b) fun r s ↦ Sum.elim (Q · s) (I · s) r) :
    (iterate turn rounds b).Returns A (I b) fun r s ↦ ∀ c, r = some c → Q c s := by
  induction rounds generalizing b with
  | zero => exact returns_pure fun _ _ _ h ↦ by cases h
  | succ rounds ih =>
      refine returns_bind (hturn b) fun r ↦ ?_
      cases r with
      | inl c => exact returns_pure fun _ h _ hc ↦ Option.some.inj hc ▸ h
      | inr b => exact ih

end Loops

def Asks (p : Raising σ ω ℓ π κ ans α) (C : α → Prop) : Prop :=
  ∀ (o : Oracle κ ans) n s a, (p.run.solo o n s).result = .ok a → C a →
    n < (p.run.solo o n s).asked

section Asks

variable {C : α → Prop} {p : Raising σ ω ℓ π κ ans β} {f : β → Raising σ ω ℓ π κ ans α}

theorem asks_query {q : κ} {C : ans q → Prop} :
    (liftM (Proc.query q : Proc σ ω ℓ π κ ans _) : Raising σ ω ℓ π κ ans _).Asks C := by
  intro o n s a _ _
  rw [solo_run_lift]
  exact Nat.lt_succ_self n

theorem asks_pure {a : α} (h : ¬ C a) : (pure a : Raising σ ω ℓ π κ ans α).Asks C := by
  intro o n s b hb hC
  cases hb
  exact absurd hC h

theorem asks_bind_left (hp : p.Asks fun _ ↦ True) : (p >>= f).Asks C := by
  intro o n s a ha _
  rw [solo_run_bind] at ha ⊢
  cases hresult : (Proc.solo o p.run n s).result with
  | error e =>
      rw [hresult] at ha
      cases ha
  | ok b => exact Nat.lt_of_lt_of_le (hp o n s b hresult trivial) (Proc.le_asked _)

theorem asks_bind (hf : ∀ b, (f b).Asks C) : (p >>= f).Asks C := by
  intro o n s a ha hC
  rw [solo_run_bind] at ha ⊢
  cases hresult : (Proc.solo o p.run n s).result with
  | error e =>
      rw [hresult] at ha
      cases ha
  | ok b =>
      rw [hresult] at ha
      exact Nat.lt_of_le_of_lt (Proc.le_asked p.run) (hf b o _ _ a ha hC)

theorem asks_ite {c : Prop} [Decidable c] {p q : Raising σ ω ℓ π κ ans α}
    (hp : c → p.Asks C) (hq : ¬ c → q.Asks C) : (if c then p else q).Asks C := by
  split
  · exact hp ‹c›
  · exact hq ‹¬ c›

end Asks

def Finishes (o : Oracle κ ans) (p : ℕ → Raising σ ω ℓ π κ ans (Option γ)) (P : ℕ → σ → Prop) :
    Prop :=
  ∀ n s, P n s → ∃ rounds, ((p rounds).run.solo o n s).result ≠ .ok none

section Finishes

variable {o : Oracle κ ans} {P : ℕ → σ → Prop}

theorem finishes_some {c : γ} :
    Finishes o (fun _ ↦ (pure (some c) : Raising σ ω ℓ π κ ans (Option γ))) P :=
  fun _ _ _ ↦ ⟨0, fun h ↦ by cases h⟩

theorem finishes_bind {P : σ → Prop} {p : Raising σ ω ℓ π κ ans β}
    {f : ℕ → β → Raising σ ω ℓ π κ ans (Option γ)} (hp : p.Returns (fun _ _ ↦ True) P T)
    (hf : ∀ b, Finishes o (fun rounds ↦ f rounds b) fun _ ↦ T b) :
    Finishes o (fun rounds ↦ p >>= f rounds) fun _ ↦ P := by
  intro n s hs
  have hbefore := hp o n s Proc.within_any hs
  cases hresult : (Proc.solo o p.run n s).result with
  | error e =>
      refine ⟨0, ?_⟩
      simp only [solo_run_bind, hresult]
      intro hnone
      cases hnone
  | ok b =>
      obtain ⟨rounds, hrounds⟩ := hf b _ _ (hbefore b hresult)
      refine ⟨rounds, ?_⟩
      simpa [solo_run_bind, hresult] using hrounds

theorem finishes_ite {c : Prop} [Decidable c] {p q : ℕ → Raising σ ω ℓ π κ ans (Option γ)}
    (hp : c → Finishes o p P) (hq : ¬ c → Finishes o q P) :
    Finishes o (fun rounds ↦ if c then p rounds else q rounds) P := by
  split
  · exact hp ‹c›
  · exact hq ‹¬ c›

variable {turn : β → Raising σ ω ℓ π κ ans (γ ⊕ β)}

theorem exists_rounds_of_turn {n : ℕ} {b : β} {s : σ}
    (hturn : ∀ b', ((turn b).run.solo o n s).result ≠ .ok (.inr b')) :
    ∃ rounds, ((iterate turn rounds b).run.solo o n s).result ≠ .ok none := by
  refine ⟨1, ?_⟩
  cases hresult : ((turn b).run.solo o n s).result with
  | error e =>
      simp only [iterate, solo_run_bind, hresult]
      intro hnone
      cases hnone
  | ok r =>
      cases r with
      | inl c =>
          simp only [iterate, solo_run_bind, hresult]
          intro hnone
          cases hnone
      | inr b' => exact absurd hresult (hturn b')

/-- A loop that goes on asks, so it ends if it ends late in the conversation. -/
theorem finishes_of_late {R : ℕ → β → σ → Prop} {N : ℕ} {b : β}
    (hasks : ∀ b, (turn b).Asks (·.isRight))
    (hturn : ∀ n b s, R n b s → ∀ b', ((turn b).run.solo o n s).result = .ok (.inr b') →
      R ((turn b).run.solo o n s).asked b' ((turn b).run.solo o n s).state)
    (hlate : ∀ b, Finishes o (iterate turn · b) fun n s ↦ N ≤ n ∧ R n b s) :
    Finishes o (iterate turn · b) (R · b) := by
  intro n s hR
  induction hdistance : N - n using Nat.strong_induction_on generalizing n b s with
  | _ d ih =>
      by_cases hn : N ≤ n
      · exact hlate b n s ⟨hn, hR⟩
      · by_cases hgo : ∃ b', ((turn b).run.solo o n s).result = .ok (.inr b')
        · obtain ⟨b', hresult⟩ := hgo
          have hlt := hasks b o n s _ hresult rfl
          obtain ⟨rounds, hrounds⟩ := ih _ (by omega) _ _ (hturn n b s hR b' hresult) rfl
          refine ⟨rounds + 1, ?_⟩
          simpa [iterate, solo_run_bind, hresult] using hrounds
        · exact exists_rounds_of_turn fun b' hresult ↦ hgo ⟨b', hresult⟩

end Finishes

end Raising

end SlurmScheduler.Concurrent
