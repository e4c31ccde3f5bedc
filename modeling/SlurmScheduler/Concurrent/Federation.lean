import SlurmScheduler.Concurrent.Discipline

namespace SlurmScheduler.Concurrent

open Relational Statement

class PrivateMemory (σ : Type) (μ : outParam Type) where
  memory : σ → μ
  withMemory : σ → μ → σ
  withMemory_memory : ∀ s, withMemory s (memory s) = s
  memory_withMemory : ∀ s m, memory (withMemory s m) = m
  withMemory_withMemory : ∀ s m m', withMemory (withMemory s m) m' = withMemory s m'

open PrivateMemory

structure Federation (σ μ ι : Type) where
  shared : σ
  memories : ι → μ

variable {σ μ ω ℓ π κ ι : Type} {ans : κ → Type} {α : Type}

/-- What a process sees of its own state when another one has left the second. -/
def seen [PrivateMemory σ μ] (s s' : σ) : σ := withMemory s' (memory s)

namespace Federation

variable [PrivateMemory σ μ]

def view (i : ι) (t : Federation σ μ ι) : σ := withMemory t.shared (t.memories i)

variable [DecidableEq ι]

def store (i : ι) (s : σ) (t : Federation σ μ ι) : Federation σ μ ι where
  shared := s
  memories := Function.update t.memories i (memory s)

@[simp] theorem view_store (i : ι) (s : σ) (t : Federation σ μ ι) : view i (store i s t) = s := by
  simp [view, store, withMemory_memory]

theorem view_store_of_ne {i j : ι} (h : j ≠ i) (s : σ) (t : Federation σ μ ι) :
    view j (store i s t) = seen (view j t) s := by
  simp [view, store, seen, h, memory_withMemory]

omit [DecidableEq ι] in
theorem seen_view (i j : ι) (t : Federation σ μ ι) : seen (view j t) (view i t) = view j t := by
  simp [view, seen, memory_withMemory, withMemory_withMemory]

instance [Statement σ ω] : Statement (Federation σ μ ι) (ι × ω) :=
  ⟨fun w t ↦ store w.1 (apply w.2 (view w.1 t)) t⟩

theorem apply_eq [Statement σ ω] (i : ι) (w : ω) (t : Federation σ μ ι) :
    apply (i, w) t = store i (apply w (view i t)) t := rfl

end Federation

open Federation

def Proc.ofProcess [PrivateMemory σ μ] (i : ι) :
    Proc σ ω ℓ π κ ans α → Proc (Federation σ μ ι) (ι × ω) (ι × ℓ) (ι × π) κ ans α
  | .ret a => .ret a
  | .step writes k =>
      .step (fun t ↦ (writes (view i t)).map (i, ·)) fun t ↦ (k (view i t)).ofProcess i
  | .ask q k => .ask q fun a ↦ (k a).ofProcess i
  | .fork call k => .fork (i, call) (k.ofProcess i)
  | .lock l k => .lock (i, l) (k.ofProcess i)
  | .unlock l k => .unlock (i, l) (k.ofProcess i)

def System.federation [PrivateMemory σ μ] (S : System σ ω ℓ π κ ans) :
    System (Federation σ μ ι) (ι × ω) (ι × ℓ) (ι × π) κ ans where
  program c := (S.program c.2).ofProcess c.1
  external c := S.external c.2
  reboot t := { t with memories := fun i ↦ memory (S.reboot (view i t)) }

namespace Discipline

section Federation

variable [Statement σ ω] [PrivateMemory σ μ]

def federation (D : Discipline σ ω ℓ π) :
    Discipline (Federation σ μ ι) (ι × ω) (ι × ℓ) (ι × π) where
  inv t := ∀ i, D.inv (view i t)
  cond t w := D.cond (view w.1 t) w.2
  may held t w := D.may (fun l ↦ held (w.1, l)) (view w.1 t) w.2
  rely held t t' := ∀ i, D.rely (fun l ↦ held (i, l)) (view i t) (view i t')
  pre c t := D.pre c.2 (view c.1 t)

structure Public (D : Discipline σ ω ℓ π) : Prop where
  rely : ∀ held held' s s' w, seen s s' = s → D.inv s → D.inv s' → D.may held' s' w →
    D.cond s' w → D.rely held s (seen s (apply w s'))
  keep : ∀ held' s s' w, seen s s' = s → D.inv s → D.inv s' → D.may held' s' w →
    D.cond s' w → D.inv (seen s (apply w s'))

variable [DecidableEq ι] {D : Discipline σ ω ℓ π}

theorem permits_federation {i : ι} {held : ι × ℓ → Bool} {ws : List ω} {Q : σ → Prop}
    {t : Federation σ μ ι} (h : D.permits (fun l ↦ held (i, l)) ws Q (view i t)) :
    D.federation.permits held (ws.map (i, ·)) (fun t ↦ Q (view i t)) t := by
  induction ws generalizing t with
  | nil => exact h
  | cons w ws ih =>
      refine ⟨h.1, fun hc ↦ ih ?_⟩
      rw [apply_eq, view_store]
      exact h.2 hc

variable [DecidableEq ℓ]

theorem wp_ofProcess {i : ι} {held : ι × ℓ → Bool} {p : Proc σ ω ℓ π κ ans α}
    {Q : α → (ℓ → Bool) → σ → Prop} {t : Federation σ μ ι}
    (h : D.wp p Q (fun l ↦ held (i, l)) (view i t)) :
    D.federation.wp (p.ofProcess i)
      (fun a held t ↦ Q a (fun l ↦ held (i, l)) (view i t)) held t := by
  have hupdate : ∀ (held : ι × ℓ → Bool) l b, (fun l' ↦ Function.update held (i, l) b (i, l')) =
      Function.update (fun l' ↦ held (i, l')) l b := by
    intro held l b
    funext l'
    by_cases hl : l' = l
    · subst hl
      simp
    · rw [Function.update_of_ne hl, Function.update_of_ne fun h ↦ hl (Prod.mk.inj h).2]
  induction p generalizing held t with
  | ret a => exact h
  | step writes k ih =>
      intro t' hr hinv
      exact permits_mono (permits_federation (h _ (hr i) (hinv i))) fun t'' hk ↦ ih _ hk
  | ask q k ih => exact fun a ↦ ih a (h a)
  | fork call k ih =>
      intro t' hr hinv
      obtain ⟨hpre, hk⟩ := h _ (hr i) (hinv i)
      exact ⟨hpre, ih hk⟩
  | lock l k ih =>
      intro t' hr hinv hfree
      refine ih ?_
      rw [hupdate]
      exact h _ (hr i) (hinv i) hfree
  | unlock l k ih =>
      refine ih ?_
      rw [hupdate]
      exact h

omit [DecidableEq ℓ] in
/-- What one process of a federation does to the views of all of them. -/
theorem Public.view_apply (hP : D.Public) (hD : D.Coherent) {held held' : ι × ℓ → Bool} {t : Federation σ μ ι}
    {i : ι} {w : ω} (hdis : ∀ l, held l = true → held' l = false) (hinv : ∀ i, D.inv (view i t))
    (hmay : D.may (fun l ↦ held' (i, l)) (view i t) w) (hcond : D.cond (view i t) w) (j : ι) :
    D.rely (fun l ↦ held (j, l)) (view j t) (view j (apply (i, w) t)) ∧
      D.inv (view j (apply (i, w) t)) := by
  by_cases hj : j = i
  · subst hj
    rw [apply_eq, view_store]
    exact ⟨hD.compatible _ _ _ w (fun l hl ↦ hdis (j, l) hl) (hinv j) hmay hcond,
      hD.keep _ _ w (hinv j) hmay hcond⟩
  · rw [apply_eq, view_store_of_ne hj]
    exact ⟨hP.rely _ _ _ _ w (seen_view i j t) (hinv j) (hinv i) hmay hcond,
      hP.keep _ _ _ w (seen_view i j t) (hinv j) (hinv i) hmay hcond⟩

omit [DecidableEq ℓ] in
theorem Coherent.federation (hD : D.Coherent) (hP : D.Public) :
    (D.federation : Discipline (Federation σ μ ι) (ι × ω) (ι × ℓ) (ι × π)).Coherent where
  refl held t i := hD.refl _ _
  trans held t t' t'' h h' i := hD.trans _ _ _ _ (h i) (h' i)
  anti held held' t t' hsub h i := hD.anti _ _ _ _ (fun l hl ↦ hsub (i, l) hl) (h i)
  compatible held held' t w hdis hinv hmay hcond j :=
    (hP.view_apply hD hdis hinv hmay hcond j).1
  keep held t w hinv hmay hcond j := by
    have hfree : ∀ l : ι × ℓ, (fun _ ↦ false) l = true → held l = false := fun _ h ↦ by cases h
    exact (hP.view_apply hD hfree hinv hmay hcond j).2

/-- A restart loses what the processes have for themselves and nothing else. -/
theorem Governs.federation {S : System σ ω ℓ π κ ans} (hS : D.Governs S) (hP : D.Public)
    (hreboot : ∀ s m, withMemory (S.reboot s) m = withMemory s m) :
    (D.federation : Discipline (Federation σ μ ι) (ι × ω) (ι × ℓ) (ι × π)).Governs
      S.federation where
  toCoherent := hS.toCoherent.federation hP
  reboot t hinv i := by
    have hview : view i ((S.federation (ι := ι)).reboot t) = S.reboot (view i t) := by
      change withMemory t.shared (memory (S.reboot (view i t))) = _
      rw [← withMemory_memory (S.reboot (view i t)), hreboot, view, withMemory_withMemory,
        memory_withMemory]
    exact hview ▸ hS.reboot _ (hinv i)
  external c t hc hinv := hS.external c.2 _ hc (hinv c.1)
  call c t hinv hpre := wp_ofProcess (Q := fun _ _ _ ↦ True) (hS.call c.2 _ (hinv c.1) hpre)

end Federation

end Discipline

end SlurmScheduler.Concurrent
