import SlurmScheduler.Pool.Scripts

namespace SlurmScheduler.Pool

open Relational

/-- In every reachable state the slot holders of a session have distinct slots below
`slots_total`, and together with the reservations that hold a slot they fit into the session. -/
theorem slots_conserved (svc : Service) (db : Db) (h : Reachable svc AnyWrite db) (s : Session)
    (hs : s ∈ db.sessions) :
    (∀ l ∈ db.occupants s.id, ∃ i, l.slotIndex = some i ∧ i < s.slotsTotal) ∧
    (∀ a ∈ db.occupants s.id, ∀ b ∈ db.occupants s.id, a.slotIndex = b.slotIndex → a = b) ∧
    (db.occupants s.id).length + db.held s.id ≤ s.slotsTotal := by
  have hdb : Sound db := h.holds sound_invariant
  have hocc : ∀ {l : Lease}, l ∈ db.occupants s.id ↔ l ∈ db.leases ∧ l.holds s.id = true :=
    Table.mem_select
  refine ⟨fun l hl ↦ ?_, fun a ha b hb hindex ↦ ?_, ?_⟩
  · obtain ⟨hl, hholds⟩ := hocc.mp hl
    simp only [Lease.holds, Bool.and_eq_true, beq_iff_eq] at hholds
    obtain ⟨x, hx, hsid, i, hi, hlt⟩ := hdb.seated.seat l hl hholds.2
    have hxs : x = s := Table.eq_of_key_eq hx hs (Option.some.inj (hsid.symm.trans hholds.1))
    exact ⟨i, hi, hxs ▸ hlt⟩
  · obtain ⟨ha, hah⟩ := hocc.mp ha
    obtain ⟨hb, hbh⟩ := hocc.mp hb
    exact hdb.seated.distinct a ha b hb s.id hah hbh hindex
  · have hlength : (db.occupants s.id).length = db.used s.id := by
      simp [Db.occupants, Db.used, Table.select, Table.count, List.countP_eq_length_filter]
    rw [hlength]
    exact hdb.seated.load s hs

def twoProjects : Db :=
  script sampleService (openDesktop .empty ++
    [.call {} 100010 (.requestLease (sampleRequest 1 0)),
     .call {} 100010 (.requestLease (sampleRequest 2 0))] ++
    attach 1 100011 ++ attach 2 100012) {}

def sharedDesktop : Session := (twoProjects.sessions.find? 1).getD { id := 0 }

theorem slots_conserved_two_projects :
    (∀ l ∈ twoProjects.occupants sharedDesktop.id,
      ∃ i, l.slotIndex = some i ∧ i < sharedDesktop.slotsTotal) ∧
    (∀ a ∈ twoProjects.occupants sharedDesktop.id, ∀ b ∈ twoProjects.occupants sharedDesktop.id,
      a.slotIndex = b.slotIndex → a = b) ∧
    (twoProjects.occupants sharedDesktop.id).length + twoProjects.held sharedDesktop.id ≤
      sharedDesktop.slotsTotal :=
  slots_conserved sampleService twoProjects (reachable_script (by decide +kernel)) sharedDesktop
    (find?_getD_mem (by decide +kernel))

example : (twoProjects.occupants 1).map (·.slotIndex) = [some 0, some 1] := by decide +kernel

end SlurmScheduler.Pool
