import SlurmScheduler.Relational.Transaction

namespace SlurmScheduler.Concurrent

open Relational

section Process

variable (σ ω ℓ π κ : Type) (ans : κ → Type)

inductive Proc (α : Type) : Type
  | ret (a : α) : Proc α
  /-- The state before the step is its result. -/
  | step (writes : σ → List ω) (k : σ → Proc α) : Proc α
  | ask (q : κ) (k : ans q → Proc α) : Proc α
  | fork (call : π) (k : Proc α) : Proc α
  | lock (l : ℓ) (k : Proc α) : Proc α
  | unlock (l : ℓ) (k : Proc α) : Proc α

end Process

variable {σ ω ℓ π κ : Type} {ans : κ → Type} {α β : Type}

namespace Proc

def andThen (p : Proc σ ω ℓ π κ ans α) (f : α → Proc σ ω ℓ π κ ans β) : Proc σ ω ℓ π κ ans β :=
  match p with
  | ret a => f a
  | step writes k => step writes fun s ↦ (k s).andThen f
  | ask q k => ask q fun a ↦ (k a).andThen f
  | fork call k => fork call (k.andThen f)
  | lock l k => lock l (k.andThen f)
  | unlock l k => unlock l (k.andThen f)

instance : Monad (Proc σ ω ℓ π κ ans) where
  pure := ret
  bind := andThen

def read (f : σ → α) : Proc σ ω ℓ π κ ans α := step (fun _ ↦ []) fun s ↦ ret (f s)

def write (w : ω) : Proc σ ω ℓ π κ ans Unit := step (fun _ ↦ [w]) fun _ ↦ ret ()

def writeAll (ws : List ω) : Proc σ ω ℓ π κ ans Unit := step (fun _ ↦ ws) fun _ ↦ ret ()

def transact (f : σ → List ω × α) : Proc σ ω ℓ π κ ans α :=
  step (fun s ↦ (f s).1) fun s ↦ ret (f s).2

def query (q : κ) : Proc σ ω ℓ π κ ans (ans q) := ask q ret

def spawn (call : π) : Proc σ ω ℓ π κ ans Unit := fork call (ret ())

/-- `with l: …` -/
def locked (l : ℓ) (p : Proc σ ω ℓ π κ ans α) : Proc σ ω ℓ π κ ans α :=
  lock l (p.andThen fun a ↦ unlock l (ret a))

def forEach : List β → (β → Proc σ ω ℓ π κ ans Unit) → Proc σ ω ℓ π κ ans Unit
  | [], _ => ret ()
  | b :: bs, f => andThen (f b) fun _ ↦ forEach bs f

def fold : List β → α → (α → β → Proc σ ω ℓ π κ ans α) → Proc σ ω ℓ π κ ans α
  | [], a, _ => ret a
  | b :: bs, a, f => andThen (f a b) fun a' ↦ fold bs a' f

def when (c : Bool) (p : Proc σ ω ℓ π κ ans Unit) : Proc σ ω ℓ π κ ans Unit :=
  if c then p else ret ()

end Proc

structure System (σ ω ℓ π κ : Type) (ans : κ → Type) where
  program : π → Proc σ ω ℓ π κ ans Unit
  external : π → Bool
  reboot : σ → σ

structure Config (σ ω ℓ π κ : Type) (ans : κ → Type) where
  state : σ
  threads : List (Proc σ ω ℓ π κ ans Unit) := []
  holder : ℓ → Option ℕ := fun _ ↦ none

inductive Move (π κ : Type) (ans : κ → Type)
  | call (c : π)
  | run (i : ℕ)
  | answer (i : ℕ) (q : κ) (a : ans q)
  /-- The process dies and starts again: its threads and its memory are lost. -/
  | crash

/-- A write, the state it is executed in and the locks of its thread. -/
structure Event (σ ω ℓ : Type) extends Execution σ ω where
  held : ℓ → Bool

namespace Config

variable (c : Config σ ω ℓ π κ ans)

def heldBy (i : ℕ) (l : ℓ) : Bool := c.holder l == some i

theorem heldBy_disjoint {c : Config σ ω ℓ π κ ans} {i j : ℕ} (hij : j ≠ i) (l : ℓ)
    (h : c.heldBy j l = true) : c.heldBy i l = false := by
  simp only [heldBy, beq_iff_eq, beq_eq_false_iff_ne, ne_eq] at h ⊢
  rw [h]
  simpa using hij

variable [DecidableEq ℓ]

theorem heldBy_lock {threads : List (Proc σ ω ℓ π κ ans Unit)} {i : ℕ} {l : ℓ} {s : σ} :
    heldBy ⟨s, threads, Function.update c.holder l (some i)⟩ i =
      Function.update (c.heldBy i) l true := by
  funext l'
  rcases eq_or_ne l' l with rfl | hl
  · simp [heldBy]
  · simp [heldBy, Function.update_of_ne hl]

theorem heldBy_unlock {threads : List (Proc σ ω ℓ π κ ans Unit)} {i : ℕ} {l : ℓ} {s : σ} :
    heldBy ⟨s, threads, Function.update c.holder l none⟩ i =
      Function.update (c.heldBy i) l false := by
  funext l'
  rcases eq_or_ne l' l with rfl | hl
  · simp [heldBy]
  · simp [heldBy, Function.update_of_ne hl]

def setThread (i : ℕ) (p : Proc σ ω ℓ π κ ans Unit) : Config σ ω ℓ π κ ans :=
  { c with threads := c.threads.set i p }

variable [Statement σ ω]

def runEvents (i : ℕ) : List (Event σ ω ℓ) :=
  match c.threads[i]? with
  | some (.step writes _) =>
      (executions c.state (writes c.state)).map fun e ↦ { e with held := c.heldBy i }
  | _ => []

/-- One step of a thread; a thread that waits for a lock or an answer makes none. -/
def run (S : System σ ω ℓ π κ ans) (i : ℕ) : Config σ ω ℓ π κ ans :=
  match c.threads[i]? with
  | some (.step writes k) =>
      { c.setThread i (k c.state) with state := replay (writes c.state) c.state }
  | some (.fork call k) =>
      { c.setThread i k with threads := c.threads.set i k ++ [S.program call] }
  | some (.lock l k) =>
      if c.holder l = none then
        { c.setThread i k with holder := Function.update c.holder l (some i) }
      else c
  | some (.unlock l k) =>
      if c.holder l = some i then
        { c.setThread i k with holder := Function.update c.holder l none }
      else c
  | _ => c

def move [DecidableEq κ] (S : System σ ω ℓ π κ ans) : Move π κ ans → Config σ ω ℓ π κ ans
  | .call call =>
      if S.external call then { c with threads := c.threads ++ [S.program call] } else c
  | .run i => c.run S i
  | .answer i q a =>
      match c.threads[i]? with
      | some (.ask q' k) => if h : q = q' then c.setThread i (k (h ▸ a)) else c
      | _ => c
  | .crash => { state := S.reboot c.state }

def events : Move π κ ans → List (Event σ ω ℓ)
  | .run i => c.runEvents i
  | _ => []

end Config

namespace System

variable [DecidableEq ℓ] [DecidableEq κ] [Statement σ ω] (S : System σ ω ℓ π κ ans)

def after (c : Config σ ω ℓ π κ ans) (ms : List (Move π κ ans)) : Config σ ω ℓ π κ ans :=
  ms.foldl (fun c m ↦ c.move S m) c

def trace : Config σ ω ℓ π κ ans → List (Move π κ ans) → List (Event σ ω ℓ)
  | _, [] => []
  | c, m :: ms => c.events m ++ trace (c.move S m) ms

@[simp] theorem after_nil (c : Config σ ω ℓ π κ ans) : S.after c [] = c := rfl

@[simp] theorem after_cons (c : Config σ ω ℓ π κ ans) (m : Move π κ ans)
    (ms : List (Move π κ ans)) : S.after c (m :: ms) = S.after (c.move S m) ms := rfl

theorem after_append (c : Config σ ω ℓ π κ ans) (ms ms' : List (Move π κ ans)) :
    S.after c (ms ++ ms') = S.after (S.after c ms) ms' := List.foldl_append

@[simp] theorem trace_nil (c : Config σ ω ℓ π κ ans) : S.trace c [] = [] := rfl

@[simp] theorem trace_cons (c : Config σ ω ℓ π κ ans) (m : Move π κ ans)
    (ms : List (Move π κ ans)) : S.trace c (m :: ms) = c.events m ++ S.trace (c.move S m) ms := rfl

theorem trace_append (c : Config σ ω ℓ π κ ans) (ms ms' : List (Move π κ ans)) :
    S.trace c (ms ++ ms') = S.trace c ms ++ S.trace (S.after c ms) ms' := by
  induction ms generalizing c with
  | nil => rfl
  | cons m ms ih => simp only [List.cons_append, trace_cons, after_cons, ih, List.append_assoc]

/-- Every write of the schedule meets the condition. -/
def Meets (C : σ → ω → Prop) (c : Config σ ω ℓ π κ ans) (ms : List (Move π κ ans)) : Prop :=
  ∀ e ∈ S.trace c ms, C e.before e.write

theorem meets_cons {C : σ → ω → Prop} {c : Config σ ω ℓ π κ ans} {m : Move π κ ans}
    {ms : List (Move π κ ans)} :
    S.Meets C c (m :: ms) ↔ (∀ e ∈ c.events m, C e.before e.write) ∧ S.Meets C (c.move S m) ms := by
  simp only [Meets, trace_cons, List.forall_mem_append]

def drive (answers : (q : κ) → ans q) (i : ℕ) : ℕ → Config σ ω ℓ π κ ans → List (Move π κ ans)
  | 0, _ => []
  | n + 1, c =>
      let m : Move π κ ans :=
        match c.threads[i]? with
        | some (.ask q _) => .answer i q (answers q)
        | _ => .run i
      m :: drive answers i n (c.move S m)

def turns (answers : (q : κ) → ans q) :
    List (ℕ × ℕ) → Config σ ω ℓ π κ ans → List (Move π κ ans)
  | [], _ => []
  | (i, n) :: rest, c =>
      let ms := S.drive answers i n c
      ms ++ turns answers rest (S.after c ms)

end System

end SlurmScheduler.Concurrent
