import Glmaxx.Library.Outcome

/-!
# Actions that keep their state when they fail

`Action σ ε α` is a stateful computation whose failure leaves behind what it did before it failed,
as a method on `&mut self` does. `Ends x s good bad` is its specification from the state `s`.
-/

namespace Glmaxx.Library

def Action (σ ε α : Type) : Type := σ → Except ε α × σ

namespace Action
variable {σ τ ε ε' α β : Type}

instance : Monad (Action σ ε) where
  pure a s := (.ok a, s)
  bind x f s := match x s with
    | (.ok a, s') => f a s'
    | (.error e, s') => (.error e, s')

def get : Action σ ε σ := fun s => (.ok s, s)

def modify (f : σ → σ) : Action σ ε Unit := fun s => (.ok (), f s)

def fail (e : ε) : Action σ ε α := fun s => (.error e, s)

def failIf (condition : Prop) [Decidable condition] (e : ε) : Action σ ε Unit := fun s =>
  if condition then (.error e, s) else (.ok (), s)

/-- A computation that reads the state and leaves it alone. -/
def reads (f : σ → Except ε α) : Action σ ε α := fun s => (f s, s)

/-- A computation that changes the state only when it succeeds. -/
def updates (f : σ → Except ε (α × σ)) : Action σ ε α := fun s =>
  match f s with
  | .ok (a, s') => (.ok a, s')
  | .error e => (.error e, s)

/-- Runs an action on a part of the state. -/
def within (get : σ → τ) (set : τ → σ → σ) (lift : ε' → ε) (x : Action τ ε' α) : Action σ ε α := fun s =>
  match x (get s) with
  | (.ok a, part) => (.ok a, set part s)
  | (.error e, part) => (.error (lift e), set part s)

/-- Hands a failure to the caller as a value. -/
def attempt (x : Action σ ε α) : Action σ ε (Except ε α) := fun s => (.ok (x s).1, (x s).2)

/-- The outcome of running `x` from `s`. -/
def Ends (x : Action σ ε α) (s : σ) (good : α → σ → Prop) (bad : ε → σ → Prop) : Prop :=
  match x s with
  | (.ok a, s') => good a s'
  | (.error e, s') => bad e s'

variable {x : Action σ ε α} {f : α → Action σ ε β} {s s' : σ} {a : α} {e : ε}
  {good : α → σ → Prop} {bad : ε → σ → Prop} {last : β → σ → Prop}

theorem bind_ok (ran : x s = (.ok a, s')) : (x >>= f) s = f a s' := by
  show (match x s with | (.ok a, s') => f a s' | (.error e, s') => (.error e, s')) = _
  rw [ran]

theorem bind_error (ran : x s = (.error e, s')) : (x >>= f) s = (.error e, s') := by
  show (match x s with | (.ok a, s') => f a s' | (.error e, s') => (.error e, s')) = _
  rw [ran]

theorem bind_fail_state {x : Action σ ε α} : ((x >>= fun _ => (fail e : Action σ ε β)) s).2 = (x s).2 := by
  cases outcome : x s with
  | mk result s' =>
    cases result with
    | ok a => rw [bind_ok outcome]; rfl
    | error e => rw [bind_error outcome]

theorem bind_reply {b : β} (reply : ((x >>= f) s).1 = .ok b) :
    ∃ a, (x s).1 = .ok a ∧ (f a (x s).2).1 = .ok b := by
  cases outcome : x s with
  | mk result s' =>
    cases result with
    | ok a =>
      rw [bind_ok outcome] at reply
      exact ⟨a, rfl, reply⟩
    | error e =>
      rw [bind_error outcome] at reply
      cases reply

theorem failIf_reply {condition : Prop} [Decidable condition] {next : Unit → Action σ ε β} {b : β}
    (reply : ((failIf condition e >>= next) s).1 = .ok b) : ¬condition ∧ (next () s).1 = .ok b := by
  by_cases refused : condition
  · rw [bind_error (show failIf condition e s = (.error e, s) from if_pos refused)] at reply
    cases reply
  · rw [bind_ok (show failIf condition e s = (.ok (), s) from if_neg refused)] at reply
    exact ⟨refused, reply⟩

theorem bind_fail_ne_ok {b : β} : ((x >>= fun _ => (fail e : Action σ ε β)) s).1 ≠ .ok b := by
  intro reply
  obtain ⟨_, -, failed⟩ := bind_reply reply
  cases failed

theorem updates_ok {change : σ → Except ε (α × σ)} (ran : change s = .ok (a, s')) :
    updates change s = (.ok a, s') := by
  unfold updates
  rw [ran]

theorem updates_error {change : σ → Except ε (α × σ)} (ran : change s = .error e) :
    updates change s = (.error e, s) := by
  unfold updates
  rw [ran]

theorem updates_pure {read : σ → Except ε β} {write : σ → β → α × σ} {b : β} (ran : read s = .ok b) :
    updates (fun s => do let b ← read s; pure (write s b)) s = (.ok (write s b).1, (write s b).2) :=
  updates_ok (bind_eq_ok.mpr ⟨b, ran, rfl⟩)

theorem reads_ok {read : σ → Except ε α} (ran : read s = .ok a) : reads read s = (.ok a, s) := by
  unfold reads
  rw [ran]

theorem failIf_neg {condition : Prop} [Decidable condition] (fine : ¬condition) :
    (failIf condition e : Action σ ε Unit) s = (.ok (), s) := if_neg fine

theorem within_ok {get : σ → τ} {set : τ → σ → σ} {lift : ε' → ε} {part : Action τ ε' α} {rest : τ}
    (ran : part (get s) = (.ok a, rest)) : part.within get set lift s = (.ok a, set rest s) := by
  unfold within
  rw [ran]

theorem attempt_ok (ran : x s = (.ok a, s')) : x.attempt s = (.ok (.ok a), s') := by
  unfold attempt
  rw [ran]

theorem attempt_error (ran : x s = (.error e, s')) : x.attempt s = (.ok (.error e), s') := by
  unfold attempt
  rw [ran]

theorem Ends.of_ok (ran : x s = (.ok a, s')) (holds : good a s') : Ends x s good bad := by
  unfold Ends
  rw [ran]
  exact holds

theorem Ends.of_error (ran : x s = (.error e, s')) (holds : bad e s') : Ends x s good bad := by
  unfold Ends
  rw [ran]
  exact holds

theorem Ends.value (ends : Ends x s good bad) (ran : x s = (.ok a, s')) : good a s' := by
  unfold Ends at ends
  rwa [ran] at ends

theorem Ends.reply (ends : Ends x s good bad) (ran : (x s).1 = .ok a) : ∃ s', good a s' :=
  ⟨(x s).2, ends.value (Prod.ext ran rfl)⟩

theorem Ends.failure (ends : Ends x s good bad) (ran : x s = (.error e, s')) : bad e s' := by
  unfold Ends at ends
  rwa [ran] at ends

theorem Ends.relates {R : Except ε α → σ → Prop} (ends : Ends x s (fun a s' => R (.ok a) s') fun e s' => R (.error e) s') :
    R (x s).1 (x s).2 := by
  unfold Ends at ends
  split at ends
  next a s' ran => rwa [ran]
  next e s' ran => rwa [ran]

theorem Ends.mono {good' : α → σ → Prop} {bad' : ε → σ → Prop} (ends : Ends x s good bad)
    (ok : ∀ a s', good a s' → good' a s') (error : ∀ e s', bad e s' → bad' e s') : Ends x s good' bad' := by
  unfold Ends at ends ⊢
  split at ends
  · exact ok _ _ ends
  · exact error _ _ ends

theorem Ends.bind (first : Ends x s good bad) (next : ∀ a s', good a s' → Ends (f a) s' last bad) :
    Ends (x >>= f) s last bad := by
  unfold Ends at first
  split at first
  next a s' ran =>
    have rest := next a s' first
    unfold Ends at rest ⊢
    rwa [bind_ok ran]
  next e s' ran => exact Ends.of_error (bind_error ran) first

theorem Ends.pure (holds : good a s) : Ends (Pure.pure a : Action σ ε α) s good bad := holds

theorem Ends.fail (holds : bad e s) : Ends (Action.fail e : Action σ ε α) s good bad := holds

theorem Ends.step (ran : x s = (.ok a, s')) (rest : Ends (f a) s' last bad) : Ends (x >>= f) s last bad := by
  unfold Ends at rest ⊢
  rwa [bind_ok ran]

theorem Ends.within {get : σ → τ} {set : τ → σ → σ} {lift : ε' → ε} {part : Action τ ε' α}
    {goodPart : α → τ → Prop} {badPart : ε' → τ → Prop} (ends : Ends part (get s) goodPart badPart)
    (ok : ∀ a rest, goodPart a rest → good a (set rest s))
    (error : ∀ e rest, badPart e rest → bad (lift e) (set rest s)) : Ends (part.within get set lift) s good bad := by
  unfold Ends at ends
  split at ends
  next a rest ran => exact Ends.of_ok (within_ok ran) (ok a rest ends)
  next e rest ran =>
    have failed : part.within get set lift s = (.error (lift e), set rest s) := by
      unfold Action.within
      rw [ran]
    exact Ends.of_error failed (error e rest ends)

theorem Ends.failIf {condition : Prop} [Decidable condition] {next : Unit → Action σ ε β}
    (rejected : condition → bad e s) (rest : ¬condition → Ends (next ()) s last bad) :
    Ends (Action.failIf condition e >>= next) s last bad := by
  by_cases holds : condition
  · exact Ends.of_error (bind_error (if_pos holds)) (rejected holds)
  · exact Ends.step (if_neg holds) (rest holds)

theorem Ends.reads {read : σ → Except ε α} (ok : ∀ a, read s = .ok a → Ends (f a) s last bad)
    (error : ∀ e, read s = .error e → bad e s) : Ends (Action.reads read >>= f) s last bad := by
  cases outcome : read s with
  | ok a => exact Ends.step (show (read s, s) = _ by rw [outcome]) (ok a outcome)
  | error e => exact Ends.of_error (bind_error (show (read s, s) = _ by rw [outcome])) (error e outcome)

theorem Ends.updates {change : σ → Except ε (α × σ)} (ok : ∀ a s', change s = .ok (a, s') → good a s')
    (error : ∀ e, change s = .error e → bad e s) : Ends (Action.updates change) s good bad := by
  cases outcome : change s with
  | ok result => exact Ends.of_ok (updates_ok outcome) (ok _ _ outcome)
  | error e => exact Ends.of_error (updates_error outcome) (error e outcome)

/-- Whatever becomes of it, `x` relates the states before and after by `R`. -/
def Frames (R : σ → σ → Prop) (x : Action σ ε α) : Prop := ∀ s, R s (x s).2

section Frames
variable {R : σ → σ → Prop} [IsPreorder σ R]

theorem Frames.bind (first : Frames R x) (next : ∀ a, Frames R (f a)) : Frames R (x >>= f) := by
  intro s
  have start := first s
  cases outcome : x s with
  | mk result s' =>
    rw [outcome] at start
    cases result with
    | ok a =>
      rw [bind_ok outcome]
      exact trans_of R start (next a s')
    | error e =>
      rw [bind_error outcome]
      exact start

theorem Frames.read {read : σ → Except ε α} (next : ∀ a, Frames R (f a)) : Frames R (Action.reads read >>= f) :=
  Frames.bind (fun s => refl_of R s) next

theorem Frames.pure (a : α) : Frames R (Pure.pure a : Action σ ε α) := fun s => refl_of R s

theorem Frames.fail (e : ε) : Frames R (Action.fail e : Action σ ε α) := fun s => refl_of R s

theorem Frames.failIf (condition : Prop) [Decidable condition] (e : ε) :
    Frames R (Action.failIf condition e : Action σ ε Unit) := by
  intro s
  unfold Action.failIf
  split <;> exact refl_of R s

theorem Frames.guard {condition : Prop} [Decidable condition] {f : Unit → Action σ ε β} (next : Frames R (f ())) :
    Frames R (Action.failIf condition e >>= f) := Frames.bind (Frames.failIf _ _) fun _ => next

omit [IsPreorder σ R] in
theorem Frames.modify {change : σ → σ} (keeps : ∀ s, R s (change s)) :
    Frames R (Action.modify change : Action σ ε Unit) := keeps

theorem Frames.updates {change : σ → Except ε (α × σ)} (keeps : ∀ s a s', change s = .ok (a, s') → R s s') :
    Frames R (Action.updates change) := by
  intro s
  unfold Action.updates
  split
  next a s' changed => exact keeps s a s' changed
  next => exact refl_of R s

theorem Frames.writes {read : σ → Except ε β} {write : σ → β → α × σ} (keeps : ∀ s b, R s (write s b).2) :
    Frames R (Action.updates fun s => do let b ← read s; Pure.pure (write s b)) := by
  apply Frames.updates
  intro s _ s' changed
  obtain ⟨b, -, same⟩ := bind_eq_ok.mp changed
  have after : (write s b).2 = s' := congrArg Prod.snd (Except.ok.inj same)
  exact after ▸ keeps s b

omit [IsPreorder σ R] in
theorem Frames.within {get : σ → τ} {set : τ → σ → σ} {lift : ε' → ε} {part : Action τ ε' α}
    (keeps : ∀ rest s, R s (set rest s)) : Frames R (part.within get set lift) := by
  intro s
  unfold Action.within
  split <;> exact keeps _ s

omit [IsPreorder σ R] in
theorem Frames.attempt (frames : Frames R x) : Frames R x.attempt := frames

theorem Frames.forM {body : β → Action σ ε PUnit} (each : ∀ b, Frames R (body b)) (bs : List β) :
    Frames R (bs.forM body) := by
  induction bs with
  | nil => exact Frames.pure _
  | cons b bs ih => exact Frames.bind (each b) fun _ => ih

end Frames

end Action

end Glmaxx.Library
