import Mathlib

/-!
# Searching a ring of slots

`scanRing` walks a list of slots once around from a cursor. A slot it passes over may be rewritten;
the first one that is taken ends the walk.
-/

namespace Glmaxx.Library

inductive Visit (σ α : Type) where
  | skip (slot : σ)
  | take (slot : σ) (value : α)

variable {σ α : Type}

/-- The walk over the `remaining` slots that lie `distance` and more after `start`. -/
def scanRing (visit : Nat → σ → Visit σ α) (start : Nat) : Nat → Nat → List σ → Option (Nat × α) × List σ
  | 0, _, slots => (none, slots)
  | remaining + 1, distance, slots =>
    let index := (start + distance) % slots.length
    match slots[index]? with
    | none => (none, slots)
    | some slot =>
      match visit index slot with
      | .skip slot => scanRing visit start remaining (distance + 1) (slots.set index slot)
      | .take slot value => (some (index, value), slots.set index slot)

section Pointwise
variable {R : σ → σ → Prop} {slots passed later : List σ} {slot slot' : σ} {i : Nat}

theorem forall₂_same (refl : ∀ slot, R slot slot) (slots : List σ) : List.Forall₂ R slots slots := by
  induction slots with
  | nil => exact .nil
  | cons slot rest ih => exact .cons (refl slot) ih

theorem forall₂_trans (trans : ∀ a b c, R a b → R b c → R a c) (first : List.Forall₂ R slots passed)
    (second : List.Forall₂ R passed later) : List.Forall₂ R slots later := by
  induction first generalizing later with
  | nil => exact second
  | cons here _ ih =>
    cases second with
    | cons there rest => exact .cons (trans _ _ _ here there) (ih rest)

theorem forall₂_set (refl : ∀ slot, R slot slot) (get : slots[i]? = some slot) (rel : R slot slot') :
    List.Forall₂ R slots (slots.set i slot') := by
  induction slots generalizing i with
  | nil => cases get
  | cons first rest ih =>
    cases i with
    | zero =>
      obtain rfl : first = slot := by simpa using get
      exact .cons rel (forall₂_same refl rest)
    | succ i => exact .cons (refl first) (ih (by simpa using get))

theorem forall₂_getElem? (related : List.Forall₂ R slots passed) (get : slots[i]? = some slot) :
    ∃ slot', passed[i]? = some slot' ∧ R slot slot' := by
  induction related generalizing i with
  | nil => cases get
  | cons here _ ih =>
    cases i with
    | zero =>
      cases get
      exact ⟨_, rfl, here⟩
    | succ i => exact ih get

theorem forall₂_countP {p : σ → Bool} (keeps : ∀ slot slot', R slot slot' → p slot' = p slot)
    (related : List.Forall₂ R slots passed) : passed.countP p = slots.countP p := by
  induction related with
  | nil => rfl
  | cons here _ ih => rw [List.countP_cons, List.countP_cons, ih, keeps _ _ here]

theorem countP_set_of_get (p : σ → Bool) (new : σ) (get : slots[i]? = some slot) :
    (slots.set i new).countP p + (if p slot then 1 else 0) = slots.countP p + if p new then 1 else 0 := by
  induction slots generalizing i with
  | nil => cases get
  | cons first rest ih =>
    cases i with
    | zero =>
      obtain rfl : first = slot := by simpa using get
      rw [List.set_cons_zero, List.countP_cons, List.countP_cons]
      omega
    | succ i =>
      have tail := ih (i := i) (by simpa using get)
      rw [List.set_cons_succ, List.countP_cons, List.countP_cons]
      omega

end Pointwise

/-- Slots that are passed over change by `R`; the slot that is taken is the one `visit` took. -/
theorem scanRing_spec {visit : Nat → σ → Visit σ α} {R : σ → σ → Prop} (refl : ∀ slot, R slot slot)
    (trans : ∀ a b c, R a b → R b c → R a c)
    (skips : ∀ i slot slot', visit i slot = .skip slot' → R slot slot')
    (start remaining distance : Nat) (slots : List σ) :
    ∃ passed, List.Forall₂ R slots passed ∧
      match scanRing visit start remaining distance slots with
      | (none, slots') => slots' = passed
      | (some (i, value), slots') => ∃ slot slot', passed[i]? = some slot ∧
          visit i slot = .take slot' value ∧ slots' = passed.set i slot' := by
  have same := forall₂_same refl
  induction remaining generalizing distance slots with
  | zero => exact ⟨slots, same slots, rfl⟩
  | succ remaining ih =>
    unfold scanRing
    dsimp only
    cases get : slots[(start + distance) % slots.length]? with
    | none => exact ⟨slots, same slots, rfl⟩
    | some slot =>
      dsimp only
      cases visited : visit ((start + distance) % slots.length) slot with
      | take slot' value => exact ⟨slots, same slots, slot, slot', get, visited, rfl⟩
      | skip slot' =>
        obtain ⟨passed, related, outcome⟩ := ih (distance + 1) (slots.set _ slot')
        refine ⟨passed, ?_, outcome⟩
        exact forall₂_trans trans (forall₂_set refl get (skips _ _ _ visited)) related

/-- A walk that takes nothing has passed over every slot. -/
theorem scanRing_none {visit : Nat → σ → Visit σ α} {p : σ → Prop} {start : Nat} {slots slots' : List σ}
    (skips : ∀ i slot slot', visit i slot = .skip slot' → ¬p slot ∧ ¬p slot')
    (scanned : scanRing visit start slots.length 0 slots = (none, slots')) : ∀ slot ∈ slots, ¬p slot := by
  -- the slots already passed do not satisfy p, even as they were rewritten
  have walk (remaining distance : Nat) (slots : List σ)
      (scanned : scanRing visit start remaining distance slots = (none, slots'))
      (behind : ∀ d < distance, ∀ slot, slots[(start + d) % slots.length]? = some slot → ¬p slot) :
      ∀ d < distance + remaining, ∀ slot, slots[(start + d) % slots.length]? = some slot → ¬p slot := by
    induction remaining generalizing distance slots with
    | zero => exact behind
    | succ remaining ih =>
      unfold scanRing at scanned
      dsimp only at scanned
      cases get : slots[(start + distance) % slots.length]? with
      | none =>
        obtain rfl : slots = [] := by
          rw [List.getElem?_eq_none_iff] at get
          rw [← List.length_eq_zero_iff]
          by_contra some
          exact absurd (Nat.mod_lt (start + distance) (Nat.pos_of_ne_zero some)) (by omega)
        simp
      | some slot =>
        rw [get] at scanned
        dsimp only at scanned
        cases visited : visit ((start + distance) % slots.length) slot with
        | take slot' value => simp [visited] at scanned
        | skip slot' =>
          rw [visited] at scanned
          obtain ⟨here, there⟩ := skips _ _ _ visited
          have rest := ih (distance + 1) _ scanned fun d within other getD => ?_
          · intro d within other getD
            by_cases same : (start + d) % slots.length = (start + distance) % slots.length
            · rw [same, get] at getD
              cases getD
              exact here
            · refine rest d (by omega) other ?_
              rwa [List.length_set, List.getElem?_set_ne (Ne.symm same)]
          · rw [List.length_set, List.getElem?_set] at getD
            split at getD
            next =>
              split at getD
              · cases getD
                exact there
              · cases getD
            next other' =>
              refine behind d (lt_of_le_of_ne (Nat.lt_succ_iff.mp within) ?_) other getD
              rintro rfl
              exact other' rfl
  intro slot member
  obtain ⟨i, inside, rfl⟩ := List.getElem_of_mem member
  have positive : 0 < slots.length := by omega
  have reached : (start + (i + (slots.length - start % slots.length)) % slots.length) % slots.length = i := by
    have cycle : start % slots.length + (slots.length - start % slots.length) = slots.length :=
      Nat.add_sub_cancel' (Nat.mod_lt start positive).le
    rw [Nat.add_mod_mod, ← Nat.mod_add_mod, Nat.add_left_comm, cycle, Nat.add_mod_right, Nat.mod_eq_of_lt inside]
  refine walk slots.length 0 slots scanned (by simp) ((i + (slots.length - start % slots.length)) % slots.length) ?_ _ ?_
  · rw [Nat.zero_add]
    exact Nat.mod_lt _ positive
  · rw [reached, List.getElem?_eq_getElem inside]

end Glmaxx.Library
