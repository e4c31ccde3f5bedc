import SlurmScheduler.Web.ReadGuard

namespace SlurmScheduler.Web

open Concurrent

def Task.Active (task : Task) : Prop := task.stage = .queued ∨ ∃ captured, task.stage = .calling captured

structure Linked (tasks : List Task) (futures : List Future) (inflight : CacheKey → Option ℕ) :
    Prop where
  led_lt : ∀ {i : ℕ} {task : Task} {f : ℕ}, tasks[i]? = some task → task.leads = some f →
    f < futures.length
  waiting_lt : ∀ {i : ℕ} {task : Task} {f : ℕ}, tasks[i]? = some task →
    task.stage = .waiting f → f < futures.length
  follower : ∀ {i : ℕ} {task : Task} {f : ℕ}, tasks[i]? = some task →
    task.stage = .waiting f → task.leads = none
  leader_unique : ∀ {i j : ℕ} {task task' : Task} {f : ℕ}, tasks[i]? = some task →
    tasks[j]? = some task' → task.leads = some f → task'.leads = some f → i = j
  same_key : ∀ {i j : ℕ} {task task' : Task} {f : ℕ}, tasks[i]? = some task →
    tasks[j]? = some task' → task.leads = some f → task'.stage = .waiting f →
    task'.scope.cacheKey = task.scope.cacheKey
  led : ∀ {f : ℕ}, futures[f]? = some .pending →
    ∃ (i : ℕ) (task : Task), tasks[i]? = some task ∧ task.leads = some f ∧ task.Active
  unresolved : ∀ {i : ℕ} {task : Task} {f : ℕ} {messages : Option (List Message)} {time : ℚ},
    tasks[i]? = some task → task.leads = some f → task.Active →
    futures[f]? ≠ some (.resolved messages time)
  registered : ∀ {i : ℕ} {task : Task} {f : ℕ}, tasks[i]? = some task → task.leads = some f →
    task.Active → inflight task.scope.cacheKey = some f
  registrant : ∀ {key : CacheKey} {f : ℕ}, inflight key = some f → ∃ (i : ℕ) (task : Task), tasks[i]? = some task ∧
    task.leads = some f ∧ task.scope.cacheKey = key ∧ task.Active

section Linked

variable {tasks : List Task} {futures futures' : List Future} {inflight : CacheKey → Option ℕ}
  {i : ℕ} {task task' : Task}

theorem linked_nil : Linked [] [] fun _ ↦ none where
  led_lt h := by cases h
  waiting_lt h := by cases h
  follower h := by cases h
  leader_unique h := by cases h
  same_key h := by cases h
  led h := by cases h
  unresolved h := by cases h
  registered h := by cases h
  registrant h := by cases h

theorem Linked.restage (h : Linked tasks futures inflight) (htask : tasks[i]? = some task)
    (hscope : task'.scope = task.scope) (hleads : task'.leads = task.leads)
    (hactive : task.leads ≠ none → (task'.Active ↔ task.Active))
    (hwaiting : ∀ f, task'.stage = .waiting f → task.stage = .waiting f) :
    Linked (tasks.set i task') futures inflight := by
  -- every task of the new list is one of the old list with the same scope and future
  have hold : ∀ {j : ℕ} {u : Task}, (tasks.set i task')[j]? = some u → ∃ v : Task, tasks[j]? = some v ∧
      u.scope = v.scope ∧ u.leads = v.leads ∧ (v.leads ≠ none → (u.Active ↔ v.Active)) ∧
      ∀ f, u.stage = .waiting f → v.stage = .waiting f := by
    intro j u hu
    rcases getElem?_set_cases hu with ⟨rfl, rfl⟩ | ⟨-, hj⟩
    · exact ⟨task, htask, hscope, hleads, hactive, hwaiting⟩
    · exact ⟨u, hj, rfl, rfl, fun _ ↦ Iff.rfl, fun _ hf ↦ hf⟩
  have hnew : ∀ {j : ℕ} {v : Task} {f : ℕ}, tasks[j]? = some v → v.leads = some f → v.Active →
      ∃ u : Task, (tasks.set i task')[j]? = some u ∧ u.leads = some f ∧
        u.scope = v.scope ∧ u.Active := by
    intro j v f hv hf hv'
    by_cases hji : j = i
    · subst hji
      rw [htask] at hv
      cases hv
      exact ⟨task', getElem?_set_self_of htask, hleads.trans hf, hscope,
        (hactive (by rw [hf]; exact Option.some_ne_none f)).mpr hv'⟩
    · exact ⟨v, by rw [List.getElem?_set_ne (Ne.symm hji), hv], hf, rfl, hv'⟩
  constructor
  · intro j u f hu hf
    obtain ⟨v, hv, -, hvl, -, -⟩ := hold hu
    exact h.led_lt hv (hvl ▸ hf)
  · intro j u f hu hf
    obtain ⟨v, hv, -, -, -, hvw⟩ := hold hu
    exact h.waiting_lt hv (hvw f hf)
  · intro j u f hu hf
    obtain ⟨v, hv, -, hvl, -, hvw⟩ := hold hu
    exact hvl.trans (h.follower hv (hvw f hf))
  · intro j k u u' f hu hu' hf hf'
    obtain ⟨v, hv, -, hvl, -, -⟩ := hold hu
    obtain ⟨v', hv', -, hvl', -, -⟩ := hold hu'
    exact h.leader_unique hv hv' (hvl ▸ hf) (hvl' ▸ hf')
  · intro j k u u' f hu hu' hf hf'
    obtain ⟨v, hv, hvs, hvl, -, -⟩ := hold hu
    obtain ⟨v', hv', hvs', -, -, hvw'⟩ := hold hu'
    rw [hvs, hvs']
    exact h.same_key hv hv' (hvl ▸ hf) (hvw' f hf')
  · intro f hf
    obtain ⟨j, v, hv, hvl, hva⟩ := h.led hf
    obtain ⟨u, hu, hul, -, hua⟩ := hnew hv hvl hva
    exact ⟨j, u, hu, hul, hua⟩
  · intro j u f messages time hu hf hua
    obtain ⟨v, hv, -, hvl, hva, -⟩ := hold hu
    rw [hvl] at hf
    exact h.unresolved hv hf ((hva (by rw [hf]; exact Option.some_ne_none f)).mp hua)
  · intro j u f hu hf hua
    obtain ⟨v, hv, hvs, hvl, hva, -⟩ := hold hu
    rw [hvl] at hf
    rw [hvs]
    exact h.registered hv hf ((hva (by rw [hf]; exact Option.some_ne_none f)).mp hua)
  · intro key f hf
    obtain ⟨j, v, hv, hvl, hvk, hva⟩ := h.registrant hf
    obtain ⟨u, hu, hul, hus, hua⟩ := hnew hv hvl hva
    exact ⟨j, u, hu, hul, hus ▸ hvk, hua⟩

/-- A leader that ends, or publishes, takes its future out of the register and sets it. -/
theorem Linked.close {future : ℕ} (h : Linked tasks futures inflight)
    (htask : tasks[i]? = some task) (hfuture : task.leads = some future) (hactive : task.Active)
    (hscope : task'.scope = task.scope) (hleads : task'.leads = task.leads)
    (hinactive : ¬task'.Active) (hwaiting : ∀ f, task'.stage ≠ .waiting f)
    (hlength : futures'.length = futures.length)
    (hothers : ∀ f, f ≠ future → futures'[f]? = futures[f]?)
    (hset : futures'[future]? ≠ some .pending) :
    Linked (tasks.set i task') futures' (Function.update inflight task.scope.cacheKey none) := by
  have hold : ∀ {j : ℕ} {u : Task}, (tasks.set i task')[j]? = some u → ∃ v : Task, tasks[j]? = some v ∧
      u.scope = v.scope ∧ u.leads = v.leads ∧ (∀ f, u.stage = .waiting f → v.stage = .waiting f) ∧
      (u.Active → j ≠ i ∧ v.Active) := by
    intro j u hu
    rcases getElem?_set_cases hu with ⟨rfl, rfl⟩ | ⟨hji, hj⟩
    · exact ⟨task, htask, hscope, hleads, fun f hf ↦ absurd hf (hwaiting f),
        fun ha ↦ absurd ha hinactive⟩
    · exact ⟨u, hj, rfl, rfl, fun _ hf ↦ hf, fun ha ↦ ⟨hji, ha⟩⟩
  have hother : ∀ {j : ℕ} {v : Task} {f : ℕ}, tasks[j]? = some v → v.leads = some f → j ≠ i → f ≠ future := by
    intro j v f hv hf hji heq
    exact hji (h.leader_unique hv htask hf (heq ▸ hfuture))
  constructor
  · intro j u f hu hf
    obtain ⟨v, hv, -, hvl, -, -⟩ := hold hu
    rw [hlength]
    exact h.led_lt hv (hvl ▸ hf)
  · intro j u f hu hf
    obtain ⟨v, hv, -, -, hvw, -⟩ := hold hu
    rw [hlength]
    exact h.waiting_lt hv (hvw f hf)
  · intro j u f hu hf
    obtain ⟨v, hv, -, hvl, hvw, -⟩ := hold hu
    exact hvl.trans (h.follower hv (hvw f hf))
  · intro j k u u' f hu hu' hf hf'
    obtain ⟨v, hv, -, hvl, -, -⟩ := hold hu
    obtain ⟨v', hv', -, hvl', -, -⟩ := hold hu'
    exact h.leader_unique hv hv' (hvl ▸ hf) (hvl' ▸ hf')
  · intro j k u u' f hu hu' hf hf'
    obtain ⟨v, hv, hvs, hvl, -, -⟩ := hold hu
    obtain ⟨v', hv', hvs', -, hvw', -⟩ := hold hu'
    rw [hvs, hvs']
    exact h.same_key hv hv' (hvl ▸ hf) (hvw' f hf')
  · intro f hf
    have hne : f ≠ future := by
      intro heq
      exact hset (heq ▸ hf)
    obtain ⟨j, v, hv, hvl, hva⟩ := h.led (hothers f hne ▸ hf)
    have hji : j ≠ i := by
      intro heq
      subst heq
      rw [htask] at hv
      cases hv
      exact hne (Option.some.inj (hvl.symm.trans hfuture))
    exact ⟨j, v, by rw [List.getElem?_set_ne (Ne.symm hji), hv], hvl, hva⟩
  · intro j u f messages time hu hf hua
    obtain ⟨v, hv, -, hvl, -, hva⟩ := hold hu
    obtain ⟨hji, hva⟩ := hva hua
    rw [hvl] at hf
    rw [hothers f (hother hv hf hji)]
    exact h.unresolved hv hf hva
  · intro j u f hu hf hua
    obtain ⟨v, hv, hvs, hvl, -, hva⟩ := hold hu
    obtain ⟨hji, hva⟩ := hva hua
    rw [hvl] at hf
    have hreg := h.registered hv hf hva
    have hkey : v.scope.cacheKey ≠ task.scope.cacheKey := by
      intro heq
      rw [heq, h.registered htask hfuture hactive] at hreg
      exact hother hv hf hji (Option.some.inj hreg).symm
    rw [hvs, Function.update_of_ne hkey]
    exact hreg
  · intro key f hf
    by_cases hkey : key = task.scope.cacheKey
    · rw [hkey, Function.update_self] at hf
      cases hf
    · rw [Function.update_of_ne hkey] at hf
      obtain ⟨j, v, hv, hvl, hvk, hva⟩ := h.registrant hf
      have hji : j ≠ i := by
        intro heq
        subst heq
        rw [htask] at hv
        cases hv
        exact hkey hvk.symm
      exact ⟨j, v, by rw [List.getElem?_set_ne (Ne.symm hji), hv], hvl, hvk, hva⟩

theorem Linked.follow (h : Linked tasks futures inflight) (hleads : task.leads = none)
    (hwaiting : ∀ f, task.stage = .waiting f → inflight task.scope.cacheKey = some f) :
    Linked (tasks ++ [task]) futures inflight := by
  have hold : ∀ {j : ℕ} {u : Task} {f : ℕ}, (tasks ++ [task])[j]? = some u → u.leads = some f →
      tasks[j]? = some u := by
    intro j u f hu hf
    rcases getElem?_concat_cases hu with ⟨-, rfl⟩ | hj
    · rw [hleads] at hf
      cases hf
    · exact hj
  constructor
  · intro j u f hu hf
    exact h.led_lt (hold hu hf) hf
  · intro j u f hu hf
    rcases getElem?_concat_cases hu with ⟨-, rfl⟩ | hj
    · obtain ⟨k, v, hv, hvl, -, -⟩ := h.registrant (hwaiting f hf)
      exact h.led_lt hv hvl
    · exact h.waiting_lt hj hf
  · intro j u f hu hf
    rcases getElem?_concat_cases hu with ⟨-, rfl⟩ | hj
    · exact hleads
    · exact h.follower hj hf
  · intro j k u u' f hu hu' hf hf'
    exact h.leader_unique (hold hu hf) (hold hu' hf') hf hf'
  · intro j k u u' f hu hu' hf hf'
    rcases getElem?_concat_cases hu' with ⟨-, rfl⟩ | hk
    · obtain ⟨l, v, hv, hvl, hvk, -⟩ := h.registrant (hwaiting f hf')
      have hlj := h.leader_unique hv (hold hu hf) hvl hf
      subst hlj
      rw [hold hu hf] at hv
      cases hv
      exact hvk.symm
    · exact h.same_key (hold hu hf) hk hf hf'
  · intro f hf
    obtain ⟨j, v, hv, hvl, hva⟩ := h.led hf
    exact ⟨j, v, getElem?_concat_of hv, hvl, hva⟩
  · intro j u f messages time hu hf hua
    exact h.unresolved (hold hu hf) hf hua
  · intro j u f hu hf hua
    exact h.registered (hold hu hf) hf hua
  · intro key f hf
    obtain ⟨j, v, hv, hvl, hvk, hva⟩ := h.registrant hf
    exact ⟨j, v, getElem?_concat_of hv, hvl, hvk, hva⟩

theorem Linked.lead (h : Linked tasks futures inflight) (hleads : task.leads = some futures.length)
    (hactive : task.Active) (hwaiting : ∀ f, task.stage ≠ .waiting f)
    (hfree : inflight task.scope.cacheKey = none) :
    Linked (tasks ++ [task]) (futures ++ [.pending])
      (Function.update inflight task.scope.cacheKey (some futures.length)) := by
  have hlength : ∀ {j : ℕ} {u : Task} {f : ℕ}, tasks[j]? = some u → u.leads = some f →
      f ≠ futures.length := by
    intro j u f hu hf
    exact Nat.ne_of_lt (h.led_lt hu hf)
  constructor
  · intro j u f hu hf
    rw [List.length_append, List.length_singleton]
    rcases getElem?_concat_cases hu with ⟨-, rfl⟩ | hj
    · rw [hleads] at hf
      cases hf
      exact Nat.lt_succ_self _
    · exact Nat.lt_succ_of_lt (h.led_lt hj hf)
  · intro j u f hu hf
    rw [List.length_append, List.length_singleton]
    rcases getElem?_concat_cases hu with ⟨-, rfl⟩ | hj
    · exact absurd hf (hwaiting f)
    · exact Nat.lt_succ_of_lt (h.waiting_lt hj hf)
  · intro j u f hu hf
    rcases getElem?_concat_cases hu with ⟨-, rfl⟩ | hj
    · exact absurd hf (hwaiting f)
    · exact h.follower hj hf
  · intro j k u u' f hu hu' hf hf'
    rcases getElem?_concat_cases hu with ⟨hj, rfl⟩ | hj
    · rcases getElem?_concat_cases hu' with ⟨hk, rfl⟩ | hk
      · exact hj.trans hk.symm
      · rw [hleads] at hf
        cases hf
        exact absurd rfl (hlength hk hf')
    · rcases getElem?_concat_cases hu' with ⟨-, rfl⟩ | hk
      · rw [hleads] at hf'
        cases hf'
        exact absurd rfl (hlength hj hf)
      · exact h.leader_unique hj hk hf hf'
  · intro j k u u' f hu hu' hf hf'
    rcases getElem?_concat_cases hu' with ⟨-, rfl⟩ | hk
    · exact absurd hf' (hwaiting f)
    · rcases getElem?_concat_cases hu with ⟨-, rfl⟩ | hj
      · rw [hleads] at hf
        cases hf
        exact absurd (h.waiting_lt hk hf') (Nat.lt_irrefl _)
      · exact h.same_key hj hk hf hf'
  · intro f hf
    rcases getElem?_concat_cases hf with ⟨rfl, -⟩ | hf
    · exact ⟨tasks.length, task, getElem?_concat_length, hleads, hactive⟩
    · obtain ⟨j, v, hv, hvl, hva⟩ := h.led hf
      exact ⟨j, v, getElem?_concat_of hv, hvl, hva⟩
  · intro j u f messages time hu hf hua hset
    rcases getElem?_concat_cases hset with ⟨-, hset⟩ | hset
    · cases hset
    · rcases getElem?_concat_cases hu with ⟨-, rfl⟩ | hj
      · rw [hleads] at hf
        cases hf
        rw [List.getElem?_eq_none (Nat.le_refl _)] at hset
        cases hset
      · exact h.unresolved hj hf hua hset
  · intro j u f hu hf hua
    rcases getElem?_concat_cases hu with ⟨-, rfl⟩ | hj
    · rw [Function.update_self, hleads.symm.trans hf]
    · have hreg := h.registered hj hf hua
      have hkey : u.scope.cacheKey ≠ task.scope.cacheKey := by
        intro heq
        rw [heq, hfree] at hreg
        cases hreg
      rw [Function.update_of_ne hkey]
      exact hreg
  · intro key f hf
    by_cases hkey : key = task.scope.cacheKey
    · rw [hkey, Function.update_self] at hf
      cases hf
      exact ⟨tasks.length, task, getElem?_concat_length, hleads, hkey.symm, hactive⟩
    · rw [Function.update_of_ne hkey] at hf
      obtain ⟨j, v, hv, hvl, hvk, hva⟩ := h.registrant hf
      exact ⟨j, v, getElem?_concat_of hv, hvl, hvk, hva⟩

end Linked

def Produced (produced : List Response) (key : CacheKey) (messages : List Message) (time : ℚ) :
    Prop := ∃ p ∈ produced, p.scope.cacheKey = key ∧ p.messages = messages ∧ p.time = time

theorem Produced.append {produced : List Response} {key : CacheKey} {messages : List Message}
    {time : ℚ} (h : Produced produced key messages time) (more : List Response) :
    Produced (produced ++ more) key messages time := by
  obtain ⟨p, hp, hrest⟩ := h
  exact ⟨p, List.mem_append_left more hp, hrest⟩

def Answered (tasks : List Task) (futures : List Future) (produced : List Response) : Prop :=
  ∀ {i : ℕ} {task : Task} {f : ℕ} {messages : List Message} {time : ℚ}, tasks[i]? = some task →
    task.stage = .waiting f → futures[f]? = some (.resolved (some messages) time) →
    Produced produced task.scope.cacheKey messages time

structure Archived (g : ReadGuard) (s : ReadState) : Prop where
  past : ∀ p ∈ s.produced, p.time ≤ s.now
  stored : ∀ entry ∈ s.cache, ∃ time, Produced s.produced entry.key entry.messages time ∧
    entry.expiresAt = time + g.ttlSeconds
  fresh : ∀ r ∈ s.replays, ∃ time, Produced s.produced r.scope.cacheKey r.messages time ∧
    time ≤ r.time ∧ r.time ≤ time + g.ttlSeconds

section Archived

variable {g : ReadGuard} {s s' : ReadState}

theorem mem_of_mem_pop {cache : Cache} {key : CacheKey} {entry : CacheEntry}
    (h : entry ∈ cache.pop key) : entry ∈ cache := List.mem_of_mem_filter h

theorem mem_of_mem_cached {cache : Cache} {key : CacheKey} {now : ℚ} {entry : CacheEntry}
    (h : entry ∈ (cached cache key now).2) : entry ∈ cache := by
  unfold cached at h
  cases hfind : cache.find? (·.key = key) with
  | none =>
    rw [hfind] at h
    exact h
  | some found =>
    rw [hfind] at h
    dsimp only at h
    split at h
    · exact mem_of_mem_pop h
    · rcases List.mem_append.mp h with hmem | hlast
      · exact mem_of_mem_pop hmem
      · rw [List.mem_singleton.mp hlast]
        exact List.mem_of_find?_eq_some hfind

theorem exists_of_cached {cache : Cache} {key : CacheKey} {now : ℚ} {messages : List Message}
    (h : (cached cache key now).1 = some messages) :
    ∃ entry ∈ cache, entry.key = key ∧ entry.messages = messages ∧ now < entry.expiresAt := by
  unfold cached at h
  cases hfind : cache.find? (·.key = key) with
  | none =>
    rw [hfind] at h
    cases h
  | some found =>
    rw [hfind] at h
    dsimp only at h
    split at h
    · cases h
    · rename_i hexpires
      cases h
      exact ⟨found, List.mem_of_find?_eq_some hfind, by simpa using List.find?_some hfind, rfl,
        not_le.mp hexpires⟩

theorem mem_of_mem_store {cache : Cache} {key : CacheKey} {messages : List Message} {now : ℚ}
    {entry : CacheEntry} (h : entry ∈ g.store cache key messages now) :
    entry ∈ cache ∨ entry = ⟨key, now + g.ttlSeconds, messages⟩ := by
  unfold ReadGuard.store at h
  split at h
  · exact .inl h
  · rcases List.mem_append.mp (List.mem_of_mem_drop h) with hmem | hlast
    · exact .inl (mem_of_mem_pop hmem)
    · exact .inr (List.mem_singleton.mp hlast)

theorem Archived.of_subset (h : Archived g s) (hnow : s.now ≤ s'.now)
    (hcache : ∀ entry ∈ s'.cache, entry ∈ s.cache) (hproduced : s'.produced = s.produced)
    (hreplays : s'.replays = s.replays) : Archived g s' where
  past p hp := le_trans (h.past p (hproduced ▸ hp)) hnow
  stored entry hentry := hproduced ▸ h.stored entry (hcache entry hentry)
  fresh r hr := hproduced ▸ h.fresh r (hreplays ▸ hr)

theorem Archived.replay (h : Archived g s) {scope : Scope} {messages : List Message} {time : ℚ}
    (hproduced : Produced s.produced scope.cacheKey messages time)
    (hage : s.now ≤ time + g.ttlSeconds) : Archived g (s.replay scope messages) where
  past := h.past
  stored := h.stored
  fresh r hr := by
    rcases List.mem_append.mp hr with hmem | hlast
    · exact h.fresh r hmem
    · rw [List.mem_singleton.mp hlast]
      have hpast : time ≤ s.now := by
        obtain ⟨p, hp, -, -, hptime⟩ := hproduced
        exact hptime ▸ h.past p hp
      exact ⟨time, hproduced, hpast, hage⟩

theorem Archived.produce (h : Archived g s) {scope : Scope} {messages : List Message}
    (hnow : s'.now = s.now) (hproduced : s'.produced = s.produced ++ [⟨scope, messages, s.now⟩])
    (hcache : s'.cache = g.store s.cache scope.cacheKey messages s.now)
    (hreplays : s'.replays = s.replays) : Archived g s' := by
  have hnew : Produced s'.produced scope.cacheKey messages s.now := by
    rw [hproduced]
    exact ⟨_, List.mem_append_right _ (List.mem_singleton_self _), rfl, rfl, rfl⟩
  constructor
  · intro p hp
    rw [hnow]
    rcases List.mem_append.mp (hproduced ▸ hp) with hmem | hlast
    · exact h.past p hmem
    · rw [List.mem_singleton.mp hlast]
  · intro entry hentry
    rcases mem_of_mem_store (hcache ▸ hentry) with hmem | heq
    · obtain ⟨time, hpro, hexpires⟩ := h.stored entry hmem
      exact ⟨time, hproduced ▸ hpro.append _, hexpires⟩
    · rw [heq]
      exact ⟨s.now, hnew, rfl⟩
  · intro r hr
    obtain ⟨time, hpro, hage⟩ := h.fresh r (hreplays ▸ hr)
    exact ⟨time, hproduced ▸ hpro.append _, hage⟩

end Archived

/-- What the moves of a run keep clear of: a request is cancelled while its leader is at work, a
leader fails after another one has registered, a follower goes on after the response has aged. -/
def Careful (g : ReadGuard) (s : ReadState) : ReadMove → Prop
  | .cancel i => ∀ task f, s.tasks[i]? = some task → task.stage = .waiting f →
      s.futures[f]? ≠ some .pending
  | .failSend i => ∀ task, s.tasks[i]? = some task → task.leads ≠ none →
      s.inflight task.scope.cacheKey = none
  | .wake i => ∀ task f messages time, s.tasks[i]? = some task → task.stage = .waiting f →
      s.futures[f]? = some (.resolved (some messages) time) → s.now ≤ time + g.ttlSeconds
  | _ => True

structure Invariant (g : ReadGuard) (s : ReadState) : Prop where
  linked : Linked s.tasks s.futures s.inflight
  uncancelled : ∀ f : ℕ, s.futures[f]? ≠ some .cancelled
  answered : Answered s.tasks s.futures s.produced
  archived : Archived g s
  unharmed : ∀ (i : ℕ) (task : Task), s.tasks[i]? = some task → task.stage = .raised .cancellation →
    task.cancelled = true

section Moves

variable {g : ReadGuard} {s s' : ReadState} {i : ℕ} {task task' : Task}

theorem invariant_initial (g : ReadGuard) (now : ℚ) : Invariant g (ReadState.initial g now) where
  linked := linked_nil
  uncancelled f h := by cases h
  answered h := by cases h
  archived := by
    constructor
    all_goals
      intro x hx
      cases hx
  unharmed j task h := by cases h

theorem Invariant.restage (h : Invariant g s) (htask : s.tasks[i]? = some task)
    (htasks : s'.tasks = s.tasks.set i task') (hfutures : s'.futures = s.futures)
    (hinflight : s'.inflight = s.inflight) (hproduced : s'.produced = s.produced)
    (harchived : Archived g s') (hscope : task'.scope = task.scope)
    (hleads : task'.leads = task.leads)
    (hactive : task.leads ≠ none → (task'.Active ↔ task.Active))
    (hwaiting : ∀ f, task'.stage = .waiting f → task.stage = .waiting f)
    (hraised : task'.stage = .raised .cancellation → task'.cancelled = true) : Invariant g s' where
  linked := by
    rw [htasks, hfutures, hinflight]
    exact h.linked.restage htask hscope hleads hactive hwaiting
  uncancelled := by
    rw [hfutures]
    exact h.uncancelled
  answered := by
    rw [htasks, hfutures, hproduced]
    intro j u f messages time hu hf hset
    rcases getElem?_set_cases hu with ⟨rfl, rfl⟩ | ⟨-, hj⟩
    · rw [hscope]
      exact h.answered htask (hwaiting f hf) hset
    · exact h.answered hj hf hset
  archived := harchived
  unharmed := by
    rw [htasks]
    intro j u hu hstage
    rcases getElem?_set_cases hu with ⟨rfl, rfl⟩ | ⟨-, hj⟩
    · exact hraised hstage
    · exact h.unharmed j u hj hstage

theorem settle_cases (s : ReadState) (future : ℕ) (result : Option (List Message)) :
    (s.futures[future]? = some .pending ∧
      (s.settle future result).futures = s.futures.set future (.resolved result s.now)) ∨
    s.futures[future]? ≠ some .pending ∧ s.settle future result = s := by
  unfold ReadState.settle
  split
  · rename_i hpending
    exact .inl ⟨hpending, rfl⟩
  · rename_i hset
    exact .inr ⟨hset, rfl⟩

section Settle

variable {future : ℕ} {result : Option (List Message)}

theorem settle_frame (s : ReadState) : (s.settle future result).tasks = s.tasks ∧
    (s.settle future result).inflight = s.inflight ∧
    (s.settle future result).produced = s.produced ∧ (s.settle future result).cache = s.cache ∧
    (s.settle future result).replays = s.replays ∧ (s.settle future result).now = s.now := by
  unfold ReadState.settle
  split
  all_goals exact ⟨rfl, rfl, rfl, rfl, rfl, rfl⟩

@[simp] theorem settle_tasks : (s.settle future result).tasks = s.tasks := (settle_frame s).1

@[simp] theorem settle_inflight : (s.settle future result).inflight = s.inflight :=
  (settle_frame s).2.1

@[simp] theorem settle_produced : (s.settle future result).produced = s.produced :=
  (settle_frame s).2.2.1

@[simp] theorem settle_cache : (s.settle future result).cache = s.cache := (settle_frame s).2.2.2.1

@[simp] theorem settle_replays : (s.settle future result).replays = s.replays :=
  (settle_frame s).2.2.2.2.1

@[simp] theorem settle_now : (s.settle future result).now = s.now := (settle_frame s).2.2.2.2.2

theorem settle_futures (hfutures : s'.futures = s.futures) (hnow : s'.now = s.now) :
    (s'.settle future result).futures = (s.settle future result).futures := by
  unfold ReadState.settle
  rw [hfutures, hnow]
  split
  · rfl
  · exact hfutures

end Settle

/-- A leader ends with a result, and its future has that result. -/
theorem Invariant.close {future : ℕ} (result : Option (List Message)) (stage : Stage)
    (h : Invariant g s)
    (htask : s.tasks[i]? = some task) (hfuture : task.leads = some future) (hactive : task.Active)
    (htasks : s'.tasks = s.tasks.set i { task with stage := stage })
    (hfutures : s'.futures = (s.settle future result).futures)
    (hinflight : s'.inflight = Function.update s.inflight task.scope.cacheKey none)
    (hgrown : ∃ more, s'.produced = s.produced ++ more)
    (hresult : ∀ messages, result = some messages →
      Produced s'.produced task.scope.cacheKey messages s.now)
    (harchived : Archived g s') (hinactive : ¬Task.Active { task with stage := stage })
    (hwaiting : ∀ f, stage ≠ .waiting f)
    (hraised : stage = .raised .cancellation → task.cancelled = true) : Invariant g s' := by
  have hlt : future < s.futures.length := h.linked.led_lt htask hfuture
  have hpending : s.futures[future]? = some .pending := by
    cases hf : s.futures[future]? with
    | none =>
      rw [List.getElem?_eq_none_iff] at hf
      omega
    | some state =>
      cases state with
      | pending => rfl
      | resolved messages time => exact absurd hf (h.linked.unresolved htask hfuture hactive)
      | cancelled => exact absurd hf (h.uncancelled future)
  have hset : s'.futures = s.futures.set future (.resolved result s.now) := by
    rcases settle_cases s future result with ⟨-, hset⟩ | ⟨hne, -⟩
    · rw [hfutures, hset]
    · exact absurd hpending hne
  obtain ⟨more, hmore⟩ := hgrown
  constructor
  · rw [htasks, hset, hinflight]
    refine h.linked.close htask hfuture hactive rfl rfl hinactive hwaiting
      (List.length_set ..) (fun f hf ↦ List.getElem?_set_ne (Ne.symm hf)) ?_
    rw [getElem?_set_self_of hpending]
    intro hp
    cases hp
  · intro f hf
    rw [hset] at hf
    rcases getElem?_set_cases hf with ⟨-, hf⟩ | ⟨-, hf⟩
    · cases hf
    · exact h.uncancelled f hf
  · intro j u f messages time hu hf hres
    rw [htasks] at hu
    rw [hset] at hres
    rcases getElem?_set_cases hu with ⟨-, rfl⟩ | ⟨-, hj⟩
    · exact absurd hf (hwaiting f)
    · rcases getElem?_set_cases hres with ⟨heq, hnew⟩ | ⟨-, hres⟩
      · cases hnew
        subst heq
        rw [h.linked.same_key htask hj hfuture hf]
        exact hresult messages rfl
      · rw [hmore]
        exact (h.answered hj hf hres).append more
  · exact harchived
  · intro j u hu hstage
    rw [htasks] at hu
    rcases getElem?_set_cases hu with ⟨rfl, rfl⟩ | ⟨-, hj⟩
    · exact hraised hstage
    · exact h.unharmed j u hj hstage

theorem abandon_of_follower (hleads : task.leads = none) : s.abandon task = s := by
  rw [ReadState.abandon, hleads]

theorem abandon_of_leader {future : ℕ} (hleads : task.leads = some future) :
    s.abandon task = (s.popInflight task.scope.cacheKey).settle future none := by
  rw [ReadState.abandon, hleads]

/-- A leader that has published finds nothing to take back. -/
theorem abandon_of_published (h : Invariant g s) (htask : s.tasks[i]? = some task)
    (hinactive : ¬task.Active) (hfree : task.leads ≠ none → s.inflight task.scope.cacheKey = none) :
    s.abandon task = s := by
  cases hleads : task.leads with
  | none => exact abandon_of_follower hleads
  | some future =>
    have hsettled : s.futures[future]? ≠ some .pending := by
      intro hpending
      obtain ⟨j, u, hu, hul, hua⟩ := h.linked.led hpending
      have hji := h.linked.leader_unique hu htask hul hleads
      subst hji
      rw [htask] at hu
      cases hu
      exact hinactive hua
    have hpop : s.popInflight task.scope.cacheKey = s := by
      rw [ReadState.popInflight, ← hfree (by rw [hleads]; exact Option.some_ne_none future),
        Function.update_eq_self]
    rw [abandon_of_leader hleads, hpop]
    rcases settle_cases s future none with ⟨hpending, -⟩ | ⟨-, hset⟩
    · exact absurd hpending hsettled
    · exact hset

theorem not_active {stage : Stage} (hqueued : stage ≠ .queued)
    (hcalling : ∀ captured, stage ≠ .calling captured) (h : task.stage = stage) : ¬task.Active := by
  intro hactive
  rcases hactive with hstage | ⟨captured, hstage⟩
  · exact hqueued (h ▸ hstage)
  · exact hcalling captured (h ▸ hstage)

theorem Invariant.request (h : Invariant g s) (scope : Scope) : Invariant g (request s scope) := by
  unfold Web.request
  have hmem : ∀ entry ∈ (cached s.cache scope.cacheKey s.now).2, entry ∈ s.cache :=
    fun _ ↦ mem_of_mem_cached
  have hhit := @exists_of_cached s.cache scope.cacheKey s.now
  rcases hcached : cached s.cache scope.cacheKey s.now with ⟨hit, cache⟩
  rw [hcached] at hmem hhit
  have hcache : Archived g { s with cache := cache } :=
    h.archived.of_subset (le_refl _) hmem rfl rfl
  -- whatever the new task does, the earlier ones are answered and unharmed as before
  have hnew : ∀ {task : Task} {u : Task} {j : ℕ}, (s.tasks ++ [task])[j]? = some u →
      task.stage ≠ .raised .cancellation → u.stage = .raised .cancellation →
      u.cancelled = true := by
    intro task u j hu htask hstage
    rcases getElem?_concat_cases hu with ⟨-, rfl⟩ | hj
    · exact absurd hstage htask
    · exact h.unharmed j u hj hstage
  cases hit with
  | some messages =>
    obtain ⟨entry, hentry, hkey, hmessages, hexpires⟩ := hhit rfl
    obtain ⟨time, hproduced, htime⟩ := h.archived.stored entry hentry
    rw [hkey, hmessages] at hproduced
    constructor
    · exact h.linked.follow rfl fun f hf ↦ by cases hf
    · exact h.uncancelled
    · intro j u f messages' time' hu hf hset
      rcases getElem?_concat_cases hu with ⟨-, rfl⟩ | hj
      · cases hf
      · exact h.answered hj hf hset
    · exact (hcache.replay hproduced (htime ▸ hexpires.le)).of_subset (le_refl _) (fun _ he ↦ he)
        rfl rfl
    · exact fun j u hu hstage ↦ hnew hu (fun hraised ↦ by cases hraised) hstage
  | none =>
    cases hinflight : s.inflight scope.cacheKey with
    | some future =>
      constructor
      · refine h.linked.follow rfl fun f hf ↦ ?_
        cases hf
        exact hinflight
      · exact h.uncancelled
      · intro j u f messages time hu hf hset
        rcases getElem?_concat_cases hu with ⟨-, rfl⟩ | hj
        · cases hf
          obtain ⟨k, v, hv, hvl, -, hva⟩ := h.linked.registrant hinflight
          exact absurd hset (h.linked.unresolved hv hvl hva)
        · exact h.answered hj hf hset
      · exact hcache.of_subset (le_refl _) (fun _ he ↦ he) rfl rfl
      · exact fun j u hu hstage ↦ hnew hu (fun hraised ↦ by cases hraised) hstage
    | none =>
      constructor
      · exact h.linked.lead rfl (.inl rfl) (fun f hf ↦ by cases hf) hinflight
      · intro f hf
        rcases getElem?_concat_cases hf with ⟨-, hf⟩ | hf
        · cases hf
        · exact h.uncancelled f hf
      · intro j u f messages time hu hf hset
        rcases getElem?_concat_cases hset with ⟨-, hset⟩ | hset
        · cases hset
        · rcases getElem?_concat_cases hu with ⟨-, rfl⟩ | hj
          · cases hf
          · exact h.answered hj hf hset
      · exact hcache.of_subset (le_refl _) (fun _ he ↦ he) rfl rfl
      · exact fun j u hu hstage ↦ hnew hu (fun hraised ↦ by cases hraised) hstage

theorem not_active_replaying {left : List Message} (h : task.stage = .replaying left) :
    ¬task.Active := not_active (fun hq ↦ by cases hq) (fun _ hc ↦ by cases hc) h

/-- A task moves on to a stage in which it waits for no future. -/
theorem Invariant.enter {stage : Stage} (h : Invariant g s) (htask : s.tasks[i]? = some task)
    (htasks : s'.tasks = s.tasks.set i { task with stage := stage })
    (hfutures : s'.futures = s.futures) (hinflight : s'.inflight = s.inflight)
    (hproduced : s'.produced = s.produced) (harchived : Archived g s')
    (hactive : task.leads ≠ none → (Task.Active { task with stage := stage } ↔ task.Active))
    (hwaiting : ∀ f, stage ≠ .waiting f)
    (hraised : stage = .raised .cancellation → task.cancelled = true) : Invariant g s' :=
  h.restage htask htasks hfutures hinflight hproduced harchived rfl rfl hactive
    (fun f hf ↦ absurd hf (hwaiting f)) hraised

theorem Invariant.answer (h : Invariant g s) (htask : s.tasks[i]? = some task)
    {captured : List Message} (hstage : task.stage = .calling captured) :
    Invariant g (answer g s i task captured) := by
  unfold Web.answer
  split
  · rename_i hleads
    exact h.enter htask rfl rfl rfl rfl (h.archived.of_subset (le_refl _) (fun _ he ↦ he) rfl rfl)
      (fun hne ↦ absurd hleads hne) (fun f hf ↦ by cases hf) fun hraised ↦ by cases hraised
  · rename_i future hleads
    have hproduced : Produced (publish g s task future captured).produced task.scope.cacheKey
        captured s.now := by
      rw [publish, settle_produced]
      exact ⟨_, List.mem_append_right _ (List.mem_singleton_self _), rfl, rfl, rfl⟩
    have harchived : Archived g (publish g s task future captured) :=
      h.archived.produce settle_now settle_produced settle_cache settle_replays
    have hage : (publish g s task future captured).now ≤ s.now + g.ttlSeconds := by
      rw [publish, settle_now]
      exact le_add_of_nonneg_right g.ttl_nonneg
    refine h.close (some captured) (.replaying captured) htask hleads (.inr ⟨captured, hstage⟩)
      ?_ (settle_futures rfl rfl) settle_inflight ⟨_, settle_produced⟩ ?_
      ((harchived.replay hproduced hage).of_subset (le_refl _) (fun _ he ↦ he) rfl rfl)
      (not_active_replaying rfl) (fun f hf ↦ by cases hf) fun hraised ↦ by cases hraised
    · change (publish g s task future captured).tasks.set i _ = _
      rw [publish, settle_tasks]
      rfl
    · intro messages hmessages
      cases hmessages
      exact hproduced

theorem Invariant.wake (h : Invariant g s) (htask : s.tasks[i]? = some task) {future : ℕ}
    (hstage : task.stage = .waiting future) {state : Future} (hstate : s.futures[future]? = some state)
    (hcareful : ∀ messages time, state = .resolved (some messages) time →
      s.now ≤ time + g.ttlSeconds) (hstep : wake s i task state = some s') : Invariant g s' := by
  have hleads := h.linked.follower htask hstage
  cases state with
  | pending => cases hstep
  | cancelled => exact absurd hstate (h.uncancelled future)
  | resolved result time =>
    simp only [Web.wake] at hstep
    split at hstep
    · rename_i hcancelled
      cases hstep
      exact h.enter htask rfl rfl rfl rfl (h.archived.of_subset (le_refl _) (fun _ he ↦ he) rfl rfl)
        (fun hne ↦ absurd hleads hne) (fun f hf ↦ by cases hf) fun _ ↦ hcancelled
    · cases result with
      | none =>
        cases hstep
        exact h.enter htask rfl rfl rfl rfl
          (h.archived.of_subset (le_refl _) (fun _ he ↦ he) rfl rfl)
          (fun hne ↦ absurd hleads hne) (fun f hf ↦ by cases hf) fun hraised ↦ by cases hraised
      | some messages =>
        cases hstep
        have hreplay := h.archived.replay (h.answered htask hstage hstate) (hcareful messages time rfl)
        exact h.enter htask rfl rfl rfl rfl (hreplay.of_subset (le_refl _) (fun _ he ↦ he) rfl rfl)
          (fun hne ↦ absurd hleads hne) (fun f hf ↦ by cases hf) fun hraised ↦ by cases hraised

theorem Invariant.bulk (h : Invariant g s) (bulk : ℕ) : Invariant g { s with bulk := bulk } where
  linked := h.linked
  uncancelled := h.uncancelled
  answered := h.answered
  archived := h.archived.of_subset (le_refl _) (fun _ he ↦ he) rfl rfl
  unharmed := h.unharmed

/-- A task raises before it has published; the followers of a leader get no response. -/
theorem Invariant.abandon {cause : Cause} (h : Invariant g s) (htask : s.tasks[i]? = some task)
    (hactive : task.Active) (hraised : cause = .cancellation → task.cancelled = true) :
    Invariant g ((s.abandon task).setTask i { task with stage := .raised cause }) := by
  have hcancelled : Stage.raised cause = .raised .cancellation → task.cancelled = true := by
    intro heq
    exact hraised (Stage.raised.inj heq)
  rcases Option.eq_none_or_eq_some task.leads with hleads | ⟨future, hleads⟩
  · rw [abandon_of_follower hleads]
    exact h.enter htask rfl rfl rfl rfl (h.archived.of_subset (le_refl _) (fun _ he ↦ he) rfl rfl)
      (fun hne ↦ absurd hleads hne) (fun f hf ↦ by cases hf) hcancelled
  · rw [abandon_of_leader hleads]
    refine h.close none (.raised cause) htask hleads hactive ?_ (settle_futures rfl rfl)
      settle_inflight ⟨[], ?_⟩ (fun messages hmessages ↦ by cases hmessages) ?_
      (not_active (fun hq ↦ by cases hq) (fun _ hc ↦ by cases hc) rfl) (fun f hf ↦ by cases hf)
      hcancelled
    · change ((s.popInflight task.scope.cacheKey).settle future none).tasks.set i _ = _
      rw [settle_tasks]
      rfl
    · exact settle_produced.trans (List.append_nil _).symm
    · refine h.archived.of_subset ?_ ?_ settle_produced settle_replays
      · change s.now ≤ ((s.popInflight task.scope.cacheKey).settle future none).now
        rw [settle_now]
        exact le_refl s.now
      · intro entry hentry
        exact settle_cache (s := s.popInflight task.scope.cacheKey) ▸ hentry

theorem Invariant.cancel (h : Invariant g s) (htask : s.tasks[i]? = some task)
    (hcareful : ∀ f, task.stage = .waiting f → s.futures[f]? ≠ some .pending) :
    Invariant g (cancelTask s i task) := by
  have hset : cancelTask s i task = s.setTask i { task with cancelled := true } := by
    unfold cancelTask
    cases hstage : task.stage with
    | waiting future => exact if_neg (hcareful future hstage)
    | queued => rfl
    | calling captured => rfl
    | replaying left => rfl
    | returned => rfl
    | raised cause => rfl
  rw [hset]
  exact h.restage htask rfl rfl rfl rfl (h.archived.of_subset (le_refl _) (fun _ he ↦ he) rfl rfl)
    rfl rfl (fun _ ↦ Iff.rfl) (fun f hf ↦ hf) fun _ ↦ rfl

theorem Invariant.step {m : ReadMove} (h : Invariant g s) (hcareful : Careful g s m)
    (hstep : step g s m = some s') : Invariant g s' := by
  have hkept : ∀ {t : ReadState}, t.now = s.now → t.cache = s.cache → t.produced = s.produced →
      t.replays = s.replays → Archived g t := by
    intro t hnow hcache hproduced hreplays
    exact h.archived.of_subset hnow.ge (fun _ he ↦ hcache ▸ he) hproduced hreplays
  cases m with
  | tick later =>
    simp only [Web.step] at hstep
    split at hstep
    · rename_i hlater
      cases hstep
      exact ⟨h.linked, h.uncancelled, h.answered,
        h.archived.of_subset hlater (fun _ he ↦ he) rfl rfl, h.unharmed⟩
    · cases hstep
  | request scope =>
    simp only [Web.step] at hstep
    split at hstep
    · cases hstep
      exact h.request scope
    · cases hstep
  | acquire i =>
    obtain ⟨task, htask, hstep⟩ := Option.bind_eq_some_iff.mp hstep
    split at hstep
    · rename_i hqueued
      cases hstep
      exact (h.bulk _).enter htask rfl rfl rfl rfl (hkept rfl rfl rfl rfl)
        (fun _ ↦ ⟨fun _ ↦ .inl hqueued.1, fun _ ↦ .inr ⟨[], rfl⟩⟩) (fun f hf ↦ by cases hf)
        fun hraised ↦ by cases hraised
    · cases hstep
  | capture i message =>
    obtain ⟨task, htask, hstep⟩ := Option.bind_eq_some_iff.mp hstep
    split at hstep
    · rename_i captured hstage
      cases hstep
      exact h.enter htask rfl rfl rfl rfl (hkept rfl rfl rfl rfl)
        (fun _ ↦ ⟨fun _ ↦ .inr ⟨captured, hstage⟩, fun _ ↦ .inr ⟨_, rfl⟩⟩) (fun f hf ↦ by cases hf)
        fun hraised ↦ by cases hraised
    · cases hstep
  | answer i =>
    obtain ⟨task, htask, hstep⟩ := Option.bind_eq_some_iff.mp hstep
    split at hstep
    · rename_i captured hstage
      cases hstep
      exact h.answer htask hstage
    · cases hstep
  | refuse i =>
    obtain ⟨task, htask, hstep⟩ := Option.bind_eq_some_iff.mp hstep
    split at hstep
    · rename_i captured hstage
      cases hstep
      exact (h.bulk _).abandon htask (.inr ⟨captured, hstage⟩) fun hcause ↦ by cases hcause
    · cases hstep
  | interrupt i =>
    obtain ⟨task, htask, hstep⟩ := Option.bind_eq_some_iff.mp hstep
    split at hstep
    · rename_i hqueued
      cases hstep
      exact h.abandon htask (.inl hqueued.1) fun _ ↦ hqueued.2
    · cases hstep
  | wake i =>
    obtain ⟨task, htask, hstep⟩ := Option.bind_eq_some_iff.mp hstep
    split at hstep
    · rename_i future hstage
      obtain ⟨state, hstate, hstep⟩ := Option.bind_eq_some_iff.mp hstep
      refine h.wake htask hstage hstate (fun messages time heq ↦ ?_) hstep
      exact hcareful task future messages time htask hstage (heq ▸ hstate)
    · cases hstep
  | send i =>
    obtain ⟨task, htask, hstep⟩ := Option.bind_eq_some_iff.mp hstep
    split at hstep
    · rename_i message left hstage
      cases hstep
      exact h.enter htask rfl rfl rfl rfl (hkept rfl rfl rfl rfl)
        (fun _ ↦ iff_of_false (not_active_replaying rfl) (not_active_replaying hstage))
        (fun f hf ↦ by cases hf) fun hraised ↦ by cases hraised
    · cases hstep
  | failSend i =>
    obtain ⟨task, htask, hstep⟩ := Option.bind_eq_some_iff.mp hstep
    split at hstep
    · rename_i message left hstage
      cases hstep
      have hinactive : ¬task.Active := not_active_replaying hstage
      rw [abandon_of_published h htask hinactive (hcareful task htask)]
      refine h.enter htask rfl rfl rfl rfl (hkept rfl rfl rfl rfl)
        (fun _ ↦ iff_of_false (not_active (fun hq ↦ by cases hq) (fun _ hc ↦ by cases hc) rfl)
          hinactive) (fun f hf ↦ by cases hf) fun hraised ↦ ?_
      by_contra hcancelled
      rw [if_neg hcancelled] at hraised
      cases hraised
    · cases hstep
  | finish i =>
    obtain ⟨task, htask, hstep⟩ := Option.bind_eq_some_iff.mp hstep
    split at hstep
    · rename_i hstage
      cases hstep
      exact h.enter htask rfl rfl rfl rfl (hkept rfl rfl rfl rfl)
        (fun _ ↦ iff_of_false (not_active (fun hq ↦ by cases hq) (fun _ hc ↦ by cases hc) rfl)
          (not_active_replaying hstage)) (fun f hf ↦ by cases hf) fun hraised ↦ by cases hraised
    · cases hstep
  | cancel i =>
    obtain ⟨task, htask, hstep⟩ := Option.bind_eq_some_iff.mp hstep
    split at hstep
    · cases hstep
    · cases hstep
    · cases hstep
      exact h.cancel htask fun f hf ↦ hcareful task f htask hf

end Moves

def Task.Ended (task : Task) : Prop := task.stage = .returned ∨ ∃ cause, task.stage = .raised cause

theorem Task.Ended.not_active {task : Task} (h : task.Ended) : ¬task.Active := by
  rcases h with hstage | ⟨cause, hstage⟩
  · exact Web.not_active (fun hq ↦ by cases hq) (fun _ hc ↦ by cases hc) hstage
  · exact Web.not_active (fun hq ↦ by cases hq) (fun _ hc ↦ by cases hc) hstage

structure CoalescedSafely (g : ReadGuard) (s : ReadState) : Prop where
  oneCall : ∀ (i j : ℕ) (task task' : Task) (captured captured' : List Message),
    s.tasks[i]? = some task → s.tasks[j]? = some task' → task.leads ≠ none → task'.leads ≠ none →
    task.stage = .calling captured → task'.stage = .calling captured' →
    task.scope.cacheKey = task'.scope.cacheKey → i = j
  unharmed : ∀ (i : ℕ) (task : Task), s.tasks[i]? = some task → task.stage = .raised .cancellation →
    task.cancelled = true
  resolved : ∀ (i : ℕ) (task : Task) (f : ℕ), s.tasks[i]? = some task → task.leads = some f →
    task.Ended → s.futures[f]? ≠ some .pending
  registered : ∀ (key : CacheKey) (f : ℕ), s.inflight key = some f →
    s.futures[f]? = some .pending → ∃ (i : ℕ) (task : Task), s.tasks[i]? = some task ∧
      task.leads = some f ∧ task.scope.cacheKey = key ∧ ¬task.Ended
  fresh : ∀ r ∈ s.replays, ∃ p ∈ s.produced, p.scope.path = r.scope.path ∧
    p.scope.queryString = r.scope.queryString ∧
    p.scope.acceptEncoding = r.scope.acceptEncoding ∧ p.messages = r.messages ∧
    p.time ≤ r.time ∧ r.time ≤ p.time + g.ttlSeconds

theorem Invariant.safe {g : ReadGuard} {s : ReadState} (h : Invariant g s) : CoalescedSafely g s where
  oneCall i j task task' captured captured' htask htask' hleads hleads' hstage hstage' hkey := by
    obtain ⟨f, hf⟩ := Option.ne_none_iff_exists'.mp hleads
    obtain ⟨f', hf'⟩ := Option.ne_none_iff_exists'.mp hleads'
    have hreg := h.linked.registered htask hf (.inr ⟨captured, hstage⟩)
    have hreg' := h.linked.registered htask' hf' (.inr ⟨captured', hstage'⟩)
    rw [hkey, hreg'] at hreg
    exact h.linked.leader_unique htask htask' (hf.trans hreg.symm) hf'
  unharmed := h.unharmed
  resolved i task f htask hf hended hpending := by
    obtain ⟨j, u, hu, hul, hua⟩ := h.linked.led hpending
    have hji := h.linked.leader_unique hu htask hul hf
    subst hji
    rw [htask] at hu
    cases hu
    exact hended.not_active hua
  registered key f hf _ := by
    obtain ⟨i, task, htask, hleads, hkey, hactive⟩ := h.linked.registrant hf
    exact ⟨i, task, htask, hleads, hkey, fun hended ↦ hended.not_active hactive⟩
  fresh r hr := by
    obtain ⟨time, ⟨p, hp, hkey, hmessages, htime⟩, hpast, hage⟩ := h.archived.fresh r hr
    obtain ⟨hpath, hquery, hencoding⟩ := CacheKey.mk.inj hkey
    exact ⟨p, hp, hpath, hquery, hencoding, hmessages, htime ▸ hpast, htime ▸ hage⟩

/-- Reads are coalesced safely in every run of careful moves. -/
theorem careful_reads_safe {g : ReadGuard} {start : ℚ} {s : ReadState}
    (h : Reached (step g) (Careful g) (ReadState.initial g start) s) : CoalescedSafely g s := by
  have hinvariant : Invariant g s :=
    h.keeps (invariant_initial g start) fun _ _ _ hs hcareful hstep ↦ hs.step hcareful hstep
  exact hinvariant.safe

def dashboardGuard : ReadGuard := .make 2 64 8388608 4

def dashboard : Scope := { path := "/" }

def carefully (g : ReadGuard) (s : ReadState) : ReadMove → Bool
  | .cancel i =>
      match s.tasks[i]? with
      | some ⟨_, _, .waiting f, _⟩ => s.futures[f]? != some .pending
      | _ => true
  | .failSend i =>
      match s.tasks[i]? with
      | some task => task.leads == none || s.inflight task.scope.cacheKey == none
      | none => true
  | .wake i =>
      match s.tasks[i]? with
      | some ⟨_, _, .waiting f, _⟩ =>
          match s.futures[f]? with
          | some (.resolved (some _) time) => decide (s.now ≤ time + g.ttlSeconds)
          | _ => true
      | _ => true
  | _ => true

theorem careful_of_carefully {g : ReadGuard} {s : ReadState} {m : ReadMove} (h : carefully g s m = true) :
    Careful g s m := by
  cases m with
  | cancel i =>
    intro task f htask hstage
    obtain ⟨scope, leads, stage, cancelled⟩ := task
    cases hstage
    simpa [carefully, htask] using h
  | failSend i =>
    intro task htask hleads
    simpa [carefully, htask, hleads] using h
  | wake i =>
    intro task f messages time htask hstage hfuture
    obtain ⟨scope, leads, stage, cancelled⟩ := task
    cases hstage
    simpa [carefully, htask, hfuture] using h
  | _ => exact trivial

/-- A response that is replayed to its leader, whose client has gone, to a follower and, from the
cache, to a later request; another follower is cancelled before it goes on. -/
def sharedRead : List ReadMove :=
  [.request dashboard, .request dashboard, .request dashboard, .acquire 0,
    .capture 0 ⟨"http.response.start", some 200, [], none, false⟩, .answer 0, .failSend 0, .tick 1,
    .cancel 2, .wake 2, .wake 1, .send 1, .finish 1, .request dashboard]

theorem shared_read_safe : ∃ s, afterMoves
      (fun s m ↦ if carefully dashboardGuard s m then step dashboardGuard s m else none)
      (.initial dashboardGuard 0) sharedRead = some s ∧
    s.replays.length = 3 ∧
    s.tasks.map (·.stage) = [.raised .sending, .returned, .raised .cancellation,
      .replaying [⟨"http.response.start", some 200, [], none, false⟩]] ∧
    CoalescedSafely dashboardGuard s := by
  have hend : (afterMoves
      (fun s m ↦ if carefully dashboardGuard s m then step dashboardGuard s m else none)
      (.initial dashboardGuard 0) sharedRead).map (fun s ↦ (s.replays.length, s.tasks.map (·.stage))) =
        some (3, [.raised .sending, .returned, .raised .cancellation,
          .replaying [⟨"http.response.start", some 200, [], none, false⟩]]) := by decide +kernel
  obtain ⟨s, hs, hvalues⟩ := Option.map_eq_some_iff.mp hend
  obtain ⟨hreplays, hstages⟩ := Prod.mk.inj hvalues
  have hreached := (reached_of_guarded hs).mono fun _ _ h ↦ careful_of_carefully h
  exact ⟨s, hs, hreplays, hstages, careful_reads_safe hreached⟩

def cancelledFollower : List ReadMove :=
  [.request dashboard, .request dashboard, .request dashboard, .acquire 0, .cancel 1, .wake 2]

theorem cancelled_follower_fails_other : ∃ s,
    Reached (step dashboardGuard) (fun _ _ ↦ True) (.initial dashboardGuard 0) s ∧
      ¬CoalescedSafely dashboardGuard s := by
  have htask : (afterMoves (step dashboardGuard) (.initial dashboardGuard 0)
      cancelledFollower).map (·.tasks[2]?) =
        some (some ⟨dashboard, none, .raised .cancellation, false⟩) := by rfl
  obtain ⟨s, hs, htask⟩ := Option.map_eq_some_iff.mp htask
  refine ⟨s, reached_of_afterMoves hs fun _ _ _ ↦ trivial, fun hsafe ↦ ?_⟩
  exact absurd (hsafe.unharmed 2 _ htask rfl) Bool.false_ne_true

end SlurmScheduler.Web
