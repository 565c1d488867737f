import Mathlib

/-!
# Lists with distinct keys

A list whose elements have distinct keys is a finite map: at most one element is found under a key.
Replacing an element by one with the same key, or adding one with a new key, changes what is found
under that key only.
-/

namespace Glmaxx.Library

variable {α κ : Type} [DecidableEq κ] {key : α → κ} {l : List α} {a old : α} {k : κ} {i : Nat}

theorem find?_key_iff (distinct : (l.map key).Nodup) : l.find? (key · = k) = some a ↔ a ∈ l ∧ key a = k := by
  constructor
  · intro found
    exact ⟨List.mem_of_find?_eq_some found, by simpa using List.find?_some found⟩
  · rintro ⟨member, isKey⟩
    cases found : l.find? (key · = k) with
    | none => simpa [isKey] using List.find?_eq_none.mp found a member
    | some b =>
      have same : key b = k := by simpa using List.find?_some found
      rw [List.inj_on_of_nodup_map distinct (List.mem_of_find?_eq_some found) member (same.trans isKey.symm)]

omit [DecidableEq κ] in
theorem map_key_set (get : l[i]? = some old) (same : key a = key old) : (l.set i a).map key = l.map key := by
  have inside := (List.getElem?_eq_some_iff.mp get).1
  refine List.ext_getElem? fun n => ?_
  rw [List.getElem?_map, List.getElem?_map, List.getElem?_set]
  split
  next here =>
    subst here
    rw [get]
    exact congrArg some same
  next => rfl

theorem find?_key_set (distinct : (l.map key).Nodup) (get : l[i]? = some old) (same : key a = key old) (k : κ) :
    (l.set i a).find? (key · = k) = if k = key a then some a else l.find? (key · = k) := by
  have inside := (List.getElem?_eq_some_iff.mp get).1
  have distinct' : ((l.set i a).map key).Nodup := (map_key_set get same).symm ▸ distinct
  refine Option.ext fun b => ?_
  rw [find?_key_iff distinct']
  by_cases here : k = key a
  · rw [if_pos here, Option.some.injEq]
    have member : a ∈ l.set i a := List.mem_iff_getElem?.mpr ⟨i, List.getElem?_set_self inside⟩
    constructor
    · rintro ⟨found, isKey⟩
      exact List.inj_on_of_nodup_map distinct' member found (here.symm.trans isKey.symm)
    · rintro rfl
      exact ⟨member, here.symm⟩
  · rw [if_neg here, find?_key_iff distinct]
    refine and_congr_left fun isKey => ?_
    rw [List.mem_iff_getElem?, List.mem_iff_getElem?]
    refine exists_congr fun n => ?_
    rw [List.getElem?_set]
    split
    next at_i =>
      subst at_i
      rw [get, Option.some.injEq, Option.some.injEq]
      constructor
      · rintro rfl
        exact absurd isKey.symm here
      · rintro rfl
        exact absurd (isKey.symm.trans same.symm) here
    next => rfl

theorem find?_key_append (fresh : key a ∉ l.map key) (k : κ) :
    (l ++ [a]).find? (key · = k) = if k = key a then some a else l.find? (key · = k) := by
  rw [List.find?_append]
  by_cases here : k = key a
  · have none : l.find? (key · = k) = none := by
      refine List.find?_eq_none.mpr fun b member => ?_
      have different : key b ≠ key a := fun same => fresh (same ▸ List.mem_map_of_mem member)
      simpa [here] using different
    rw [none, if_pos here]
    simp [here]
  · have other : [a].find? (key · = k) = none := by simpa [eq_comm] using here
    rw [if_neg here, other, Option.or_none]

end Glmaxx.Library
