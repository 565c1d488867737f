import Glmaxx.Proof.Restore.Bytes
import Glmaxx.Proof.Restore.Hashing

namespace Glmaxx.Proof.Restore
open Std Library Cache Cache.DirectRestoreTable

variable {stray : Prop}
variable {t t' : DirectRestoreTable}

theorem Sound.rewire (sound : Sound stray t) (workers : Option DirectChecksumWorkers) (retired : Bool)
    (quiet : Quiet workers retired t.activeHashJobs) :
    Sound stray { t with checksumWorkers := workers, checksumWorkersRetired := retired } :=
  { (show Books stray t 0 none from sound) with
    others := fun j ticket other found => { sound.others j ticket other found with }
    quiet }

structure Culled (t t' : DirectRestoreTable) : Prop where
  tickets : ∀ id : Nat, t'.tickets[id]? = t.tickets[id]? ∨ (∃ ticket, t.tickets[id]? = some ticket) ∧ Dead t'.tickets[id]?
  nextTicket_eq : t'.nextTicket = t.nextTicket

theorem Culled.refl (t : DirectRestoreTable) : Culled t t := ⟨fun _ => .inl rfl, rfl⟩

theorem Culled.trans {t'' : DirectRestoreTable} (first : Culled t t') (second : Culled t' t'') : Culled t t'' where
  tickets id := by
    rcases second.tickets id with same | ⟨⟨ticket, found⟩, dead⟩
    · rw [same]
      exact first.tickets id
    · rcases first.tickets id with same | ⟨present, -⟩
      · exact .inr ⟨⟨ticket, same ▸ found⟩, dead⟩
      · exact .inr ⟨present, dead⟩
  nextTicket_eq := second.nextTicket_eq.trans first.nextTicket_eq

theorem Culled.follows {request : RestoreCall} (culled : Culled t t') (steady : Steady stray t') :
    Follows stray request t t' := by
  refine ⟨steady, fun id => ?_, culled.nextTicket_eq.ge⟩
  rcases culled.tickets id with same | ⟨⟨ticket, found⟩, dead⟩
  · rw [same]
    exact .same _ _
  · rw [found]
    exact .ends _ dead

theorem Sound.hashes_zero (sound : Sound stray t)
    (none : ∀ (id : Nat) (ticket : DirectRestoreTicket), t.tickets[id]? = some ticket → ticket.hashState = .none) :
    t.activeHashJobs = 0 := by
  have balance : total t.tickets (fun _ ticket => usage ticket .hashes) = t.activeHashJobs := sound.balance .hashes
  rw [← balance]
  by_contra positive
  obtain ⟨id, ticket, found, used⟩ := exists_of_total_pos _ (Nat.pos_of_ne_zero positive)
  simp [usage, none id ticket found] at used

/-- The loop of `fail_checksum_pool`: `ids` are the tickets that still have a hash job. -/
theorem failEach_ok (ids : List Nat) (sound : Sound stray t) (distinct : ids.Nodup)
    (listed : ∀ id : Nat, id ∈ ids ↔ ∃ ticket, t.tickets[id]? = some ticket ∧ ticket.hashState ≠ .none)
    (strays : ∀ (id : Nat) (ticket : DirectRestoreTicket), t.tickets[id]? = some ticket →
      ticket.originalPending = true → stray) :
    ∃ t', ids.forM failTicket t = (.ok (), t') ∧ Sound stray t' ∧ t'.activeHashJobs = 0 ∧
      t'.checksumWorkers = t.checksumWorkers ∧ Culled t t' := by
  induction ids generalizing t with
  | nil =>
    refine ⟨t, rfl, sound, sound.hashes_zero ?_, rfl, .refl t⟩
    intro id ticket found
    by_contra hash
    exact absurd ((listed id).mpr ⟨ticket, found, hash⟩) (List.not_mem_nil)
  | cons id rest ih =>
    obtain ⟨fresh, distinct⟩ := List.nodup_cons.mp distinct
    obtain ⟨ticket, found, hash⟩ := (listed id).mp (List.mem_cons_self ..)
    obtain ⟨t₁, ran, settled⟩ := failHashing_ok sound found hash (strays id ticket found)
    have here : ∀ left, t₁.tickets[id]? = some left → left = failedTicket ticket := by
      intro left isLeft
      rw [settled.found] at isLeft
      split at isLeft
      · exact (Option.some.inj isLeft).symm
      · cases isLeft
    have elsewhere := settled.inner.touches.tickets_eq
    have left : ∀ j : Nat, j ∈ rest ↔ ∃ ticket, t₁.tickets[j]? = some ticket ∧ ticket.hashState ≠ .none := by
      intro j
      by_cases same : j = id
      · subst same
        refine ⟨fun member => absurd member fresh, ?_⟩
        rintro ⟨left, isLeft, hash⟩
        rw [here left isLeft] at hash
        exact absurd rfl hash
      · rw [elsewhere j same, ← listed j]
        simp [same]
    have straysLeft : ∀ (j : Nat) (ticket : DirectRestoreTicket), t₁.tickets[j]? = some ticket →
        ticket.originalPending = true → stray := by
      intro j left isLeft pending
      by_cases same : j = id
      · subst same
        rw [here left isLeft] at pending
        exact strays j ticket found pending
      · rw [elsewhere j same] at isLeft
        exact strays j left isLeft pending
    have culled : Culled t t₁ := by
      refine ⟨fun j => ?_, settled.inner.touches.nextTicket_eq⟩
      by_cases same : j = id
      · subst same
        refine .inr ⟨⟨ticket, found⟩, fun last isLast => ?_⟩
        rw [here last isLast]
        exact .inr rfl
      · exact .inl (elsewhere j same)
    obtain ⟨t', loops, sound', zero, workers, rest⟩ := ih settled.sound distinct left straysLeft
    exact ⟨t', (Action.bind_ok ran).trans loops, sound', zero, workers.trans settled.inner.touches.workers_eq,
      culled.trans rest⟩

theorem failChecksumPool_ok (sound : Sound stray t) {workers : DirectChecksumWorkers}
    (pool : t.checksumWorkers = some workers)
    (strays : ∀ (id : Nat) (ticket : DirectRestoreTicket), t.tickets[id]? = some ticket →
      ticket.originalPending = true → stray) :
    ∃ t', failChecksumPool t = (.ok (), t') ∧ Sound stray t' ∧ t'.activeHashJobs = 0 ∧
      t'.checksumWorkers = some { workers with failed := true } ∧ Culled t t' := by
  have started : t.checksumWorkersRetired = true → False := by
    intro retired
    have gone := (sound.quiet retired).1
    rw [pool] at gone
    cases gone
  have marked := sound.rewire (some { workers with failed := true }) t.checksumWorkersRetired
    fun retired => (started retired).elim
  have distinct := keys_nodup t.tickets
  obtain ⟨t', loops, sound', zero, workers_eq, culled⟩ := failEach_ok
    ((t.tickets.toList.filter fun entry : Nat × DirectRestoreTicket => decide (entry.2.hashState ≠ .none)).map (·.1))
    marked
    (distinct.sublist (List.filter_sublist.map _))
    (by
      intro id
      simp only [List.mem_map, List.mem_filter, Prod.exists, exists_and_right, exists_eq_right,
        decide_eq_true_eq, mem_toList_iff])
    strays
  refine ⟨t', ?_, sound', zero, workers_eq, culled.tickets, culled.nextTicket_eq⟩
  refine (Action.bind_ok (Action.updates_pure (b := workers) (by rw [pool]; rfl))).trans ?_
  exact (Action.bind_ok rfl).trans loops

section Frame

def SamePool (t t' : DirectRestoreTable) : Prop := t'.checksumWorkers = t.checksumWorkers

instance : IsPreorder DirectRestoreTable SamePool where
  refl _ := rfl
  trans _ _ _ first second := second.trans first

theorem samePool_lenient : Lenient SamePool where
  besides _ _ _ same := same
  buffers _ _ _ := rfl

/-- Once `fail_checksum_pool` has started, the pool is marked, whatever becomes of the tickets. -/
theorem failChecksumPool_marks {workers : DirectChecksumWorkers} (pool : t.checksumWorkers = some workers) :
    (failChecksumPool t).2.poolFailed = true := by
  have marks : failChecksumPool t = _ :=
    (Action.bind_ok (Action.updates_pure (b := workers) (by rw [pool]; rfl))).trans (Action.bind_ok rfl)
  rw [marks]
  unfold poolFailed
  rw [Action.Frames.forM (R := SamePool) (fun id => failTicket_frames samePool_lenient id) _ _]
  rfl

end Frame

end Glmaxx.Proof.Restore
