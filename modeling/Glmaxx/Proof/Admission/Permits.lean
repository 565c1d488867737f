import Glmaxx.Proof.Admission.Word

namespace Glmaxx.Proof.Admission
open Library Engine Engine.WorkerPool

variable {pool pool' start : WorkerPool} {action : PoolAction} {operation : Operation} {maximum : BitVec 64}

section Live

def inHand : Dispatcher → List Operation
  | .running operation | .decided operation _ | .releasing operation _ => [operation]
  | .receiving | .replying _ _ | .terminal | .leaving | .draining => []

def live (pool : WorkerPool) : List Operation :=
  pool.held ++ pool.queue ++ pool.dropping ++ inHand pool.dispatcher

def outstandingPermits (pool : WorkerPool) : Nat := (live pool).countP fun operation => !operation.kind.isExclusive

def exclusivePermits (pool : WorkerPool) : Nat := (live pool).countP fun operation => operation.kind.isExclusive

inductive Effect (pool pool' : WorkerPool) : Prop where
  | moves (closes : Bool) (live_eq : (live pool').Perm (live pool)) (next_eq : pool'.nextId = pool.nextId)
      (word_eq : pool'.stateWord = if closes then setClosed pool.stateWord else pool.stateWord)
  | takes (kind : PoolCommandKind) (reserved : pool.reserve kind = .ok pool'.stateWord)
      (live_eq : live pool' = ⟨pool.nextId, kind⟩ :: live pool) (next_eq : pool'.nextId = pool.nextId + 1)
  | frees (operation : Operation) (live_eq : (live pool).Perm (operation :: live pool'))
      (next_eq : pool'.nextId = pool.nextId) (word_eq : pool'.stateWord = dropPermit operation pool.stateWord)

theorem Effect.stays (live_eq : (live pool').Perm (live pool)) (next_eq : pool'.nextId = pool.nextId)
    (word_eq : pool'.stateWord = pool.stateWord) : Effect pool pool' := .moves false live_eq next_eq word_eq

theorem live_abandon (member : operation ∈ pool.held) :
    (live { pool with held := pool.held.erase operation, dropping := operation :: pool.dropping }).Perm (live pool) := by
  have moved : (pool.held.erase operation ++ pool.queue ++ operation :: pool.dropping).Perm
      (pool.held ++ pool.queue ++ pool.dropping) := by
    refine List.perm_middle.trans ?_
    rw [← List.cons_append, ← List.cons_append]
    exact ((List.perm_cons_erase member).symm.append_right _).append_right _
  exact moved.append_right _

theorem sendCommand_effect (member : operation ∈ pool.held) (sent : pool.sendCommand operation = some pool') :
    Effect pool pool' := by
  unfold sendCommand at sent
  split at sent
  · cases sent
    refine .stays ?_ rfl rfl
    have queued : (pool.held.erase operation ++ (pool.queue ++ [operation])).Perm (pool.held ++ pool.queue) := by
      rw [← List.append_assoc]
      refine List.perm_append_singleton _ _ |>.trans ?_
      rw [← List.cons_append]
      exact (List.perm_cons_erase member).symm.append_right _
    exact (queued.append_right _).append_right _
  · cases sent
    exact .stays (live_abandon member) rfl rfl
  · split at sent
    · cases sent
    · cases sent
      exact .stays (live_abandon member) rfl rfl

theorem step_effect (taken : pool.step action = some pool') : Effect pool pool' := by
  cases action with
  | reserve kind =>
    simp only [WorkerPool.step] at taken
    split at taken
    · cases taken
    split at taken
    next word reserved =>
      cases taken
      exact .takes kind reserved rfl rfl
    next =>
      cases taken
      exact .stays (List.Perm.refl _) rfl rfl
  | send operation =>
    simp only [WorkerPool.step] at taken
    split at taken
    next member => exact sendCommand_effect member taken
    next => cases taken
  | abandon operation =>
    simp only [WorkerPool.step] at taken
    split at taken
    next member =>
      cases taken
      exact .stays (live_abandon member) rfl rfl
    next => cases taken
  | dropPermit operation =>
    simp only [WorkerPool.step] at taken
    split at taken
    next member =>
      cases taken
      refine .frees operation ?_ rfl rfl
      have dropped : (pool.held ++ pool.queue ++ pool.dropping).Perm
          (operation :: (pool.held ++ pool.queue ++ pool.dropping.erase operation)) :=
        ((List.perm_cons_erase member).append_left _).trans List.perm_middle
      exact dropped.append_right _
    next => cases taken
  | closeSender =>
    simp only [WorkerPool.step] at taken
    split at taken
    · cases taken
      exact .stays (List.Perm.refl _) rfl rfl
    · cases taken
  | receive =>
    simp only [WorkerPool.step] at taken
    split at taken
    next operation rest isReceiving isQueue =>
      cases taken
      refine .stays ?_ rfl rfl
      simp only [live, inHand, isReceiving, isQueue, List.append_nil]
      refine List.perm_append_singleton _ _ |>.trans ?_
      rw [List.append_assoc, List.append_assoc]
      exact List.perm_middle.symm
    next => cases taken
  | decide success =>
    simp only [WorkerPool.step] at taken
    split at taken
    next operation isRunning =>
      cases taken
      exact .stays (by simp [live, inHand, isRunning]) rfl rfl
    next => cases taken
  | closeOnFailure =>
    simp only [WorkerPool.step] at taken
    split at taken
    next operation success isDecided =>
      cases taken
      exact .moves (terminates operation success) (by simp [live, inHand, isDecided]) rfl rfl
    next => cases taken
  | release =>
    simp only [WorkerPool.step] at taken
    split at taken
    next operation success isReleasing =>
      cases taken
      refine .frees operation ?_ rfl rfl
      simp only [live, inHand, isReleasing, List.append_nil]
      exact List.perm_append_singleton _ _
    next => cases taken
  | reply =>
    simp only [WorkerPool.step] at taken
    split at taken
    next operation success isReplying =>
      cases taken
      refine .stays ?_ rfl rfl
      simp only [live, isReplying]
      split <;> exact List.Perm.refl _
    next => cases taken
  | retire =>
    simp only [WorkerPool.step] at taken
    split at taken
    next isTerminal =>
      cases taken
      exact .moves true (by simp [live, inHand, isTerminal]) rfl rfl
    next => cases taken
  | disconnected =>
    simp only [WorkerPool.step] at taken
    split at taken
    next done =>
      cases taken
      exact .stays (by simp [live, inHand, done.1]) rfl rfl
    next => cases taken
  | dropGuard =>
    simp only [WorkerPool.step] at taken
    split at taken
    next isLeaving =>
      cases taken
      exact .moves true (by simp [live, inHand, isLeaving]) rfl rfl
    next => cases taken
  | drain =>
    simp only [WorkerPool.step] at taken
    split at taken
    next operation rest isDraining isQueue =>
      cases taken
      refine .stays ?_ rfl rfl
      simp only [live, isQueue]
      refine List.Perm.append_right _ ?_
      rw [List.append_assoc, List.append_assoc]
      refine List.Perm.append_left _ ?_
      exact List.perm_middle
    next => cases taken

end Live

end Glmaxx.Proof.Admission
