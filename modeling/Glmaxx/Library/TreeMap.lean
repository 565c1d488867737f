import Mathlib

/-!
# Totals over ordered maps

`total m f` adds `f` over the bindings of `m`. A binding that is added, replaced or removed changes
the total by its own share.
-/

namespace Glmaxx.Library
open Std

variable {κ υ : Type} [Ord κ] [TransOrd κ] [LawfulEqOrd κ]

def total (m : ExtTreeMap κ υ) (f : κ → υ → Nat) : Nat :=
  (m.toList.map fun binding => f binding.1 binding.2).sum

omit [LawfulEqOrd κ] in
theorem total_eq_countP (m : ExtTreeMap κ υ) (p : υ → Bool) :
    total m (fun _ value => if p value then 1 else 0) = m.toList.countP fun binding => p binding.2 := by
  unfold total
  induction m.toList with
  | nil => rfl
  | cons binding rest ih =>
    rw [List.map_cons, List.sum_cons, List.countP_cons, ih]
    exact Nat.add_comm _ _

theorem toList_nodup (m : ExtTreeMap κ υ) : m.toList.Nodup := by
  have distinct := m.distinct_keys_toList
  refine distinct.imp ?_
  intro a b different same
  simp [same] at different

theorem mem_toList_iff {m : ExtTreeMap κ υ} {k : κ} {v : υ} : (k, v) ∈ m.toList ↔ m[k]? = some v :=
  ExtTreeMap.mem_toList_iff_getElem?_eq_some

theorem getElem?_insert_ne {m : ExtTreeMap κ υ} {k key : κ} {v : υ} (different : key ≠ k) :
    (m.insert k v)[key]? = m[key]? := by
  rw [ExtTreeMap.getElem?_insert, if_neg fun same => different (Std.compare_eq_iff_eq.mp same).symm]

theorem getElem?_insert_ite [DecidableEq κ] (m : ExtTreeMap κ υ) (k key : κ) (v : υ) :
    (m.insert k v)[key]? = if key = k then some v else m[key]? := by
  split
  next here => rw [here, ExtTreeMap.getElem?_insert_self]
  next different => exact getElem?_insert_ne different

theorem getElem?_insert_old {m : ExtTreeMap κ υ} {k key : κ} {v old : υ} (absent : m[k]? = none)
    (found : m[key]? = some old) : (m.insert k v)[key]? = some old := by
  rw [getElem?_insert_ne, found]
  rintro rfl
  cases absent.symm.trans found

theorem toList_insert_perm (m : ExtTreeMap κ υ) (k : κ) (v : υ) :
    (m.insert k v).toList.Perm ((k, v) :: (m.erase k).toList) := by
  refine (List.perm_ext_iff_of_nodup (toList_nodup _) ?_).mpr ?_
  · refine List.nodup_cons.mpr ⟨?_, toList_nodup _⟩
    rw [mem_toList_iff]
    simp
  · rintro ⟨key, value⟩
    rw [List.mem_cons, mem_toList_iff, mem_toList_iff, ExtTreeMap.getElem?_insert,
      ExtTreeMap.getElem?_erase]
    by_cases same : k = key
    · subst same
      simp [eq_comm]
    · have other : ¬ key = k := fun h => same h.symm
      simp [same, other]

theorem insert_erase_of_getElem? {m : ExtTreeMap κ υ} {k : κ} {v : υ} (found : m[k]? = some v) :
    (m.erase k).insert k v = m := by
  apply ExtTreeMap.ext_getElem?
  intro key
  by_cases same : k = key
  · subst same
    simp [found]
  · simp [ExtTreeMap.getElem?_insert, ExtTreeMap.getElem?_erase, same]

theorem erase_of_getElem?_none {m : ExtTreeMap κ υ} {k : κ} (absent : m[k]? = none) : m.erase k = m := by
  apply ExtTreeMap.ext_getElem?
  intro key
  by_cases same : k = key
  · subst same
    simp [absent]
  · simp [ExtTreeMap.getElem?_erase, same]

theorem insert_insert_same (m : ExtTreeMap κ υ) (k : κ) (u v : υ) : (m.insert k u).insert k v = m.insert k v := by
  apply ExtTreeMap.ext_getElem?
  intro key
  by_cases same : k = key
  · subst same
    simp
  · simp [ExtTreeMap.getElem?_insert, same]

theorem insert_of_getElem? {m : ExtTreeMap κ υ} {k : κ} {v : υ} (found : m[k]? = some v) : m.insert k v = m := by
  rw [← insert_erase_of_getElem? found, insert_insert_same]

/-- `collect` into an ordered map: a later entry for a key replaces an earlier one. -/
def collectMap (entries : List (κ × υ)) : ExtTreeMap κ υ :=
  entries.foldl (fun m entry => m.insert entry.1 entry.2) ∅

section
variable (entries : List (κ × υ)) (m : ExtTreeMap κ υ) (distinct : (entries.map (·.1)).Nodup)
include entries m distinct

theorem getElem?_foldl_insert (k : κ) (v : υ) :
    (entries.foldl (fun m entry => m.insert entry.1 entry.2) m)[k]? = some v ↔
      (k, v) ∈ entries ∨ (k ∉ entries.map (·.1) ∧ m[k]? = some v) := by
  induction entries generalizing m with
  | nil => simp
  | cons entry entries ih =>
    obtain ⟨key, value⟩ := entry
    obtain ⟨fresh, distinct⟩ := List.nodup_cons.mp distinct
    rw [List.foldl_cons, ih (m.insert key value) distinct]
    by_cases same : key = k
    · subst same
      have other : (key, v) ∉ entries := fun member => fresh (List.mem_map_of_mem (f := (·.1)) member)
      simp only [ExtTreeMap.getElem?_insert_self, List.mem_cons, List.map_cons, other, false_or, or_false,
        Prod.mk.injEq, true_and, true_or, not_true_eq_false, false_and, Option.some.injEq]
      exact ⟨fun h => h.2.symm, fun h => ⟨fresh, h.symm⟩⟩
    · have other : ¬k = key := fun h => same h.symm
      simp [ExtTreeMap.getElem?_insert, same, other]

theorem size_foldl_insert (absent : ∀ entry ∈ entries, m[entry.1]? = none) :
    (entries.foldl (fun m entry => m.insert entry.1 entry.2) m).size = m.size + entries.length := by
  induction entries generalizing m with
  | nil => rfl
  | cons entry entries ih =>
    obtain ⟨key, value⟩ := entry
    obtain ⟨fresh, distinct⟩ := List.nodup_cons.mp distinct
    have new : m.contains key = false := by
      rw [ExtTreeMap.contains_eq_isSome_getElem?, absent (key, value) (List.mem_cons_self ..)]
      rfl
    rw [List.foldl_cons, ih (m.insert key value) distinct, ExtTreeMap.size_insert, new, List.length_cons]
    · simp only [Bool.false_eq_true, if_false]
      omega
    · intro other member
      have different : key ≠ other.1 := fun same =>
        fresh (same ▸ List.mem_map_of_mem (f := (·.1)) member)
      simp [ExtTreeMap.getElem?_insert, different, absent other (List.mem_cons_of_mem _ member)]

end

omit [TransOrd κ] [LawfulEqOrd κ] [Ord κ] in
theorem foldr_values (tree : DTreeMap.Internal.Impl κ fun _ => υ) (bindings : List (κ × υ)) :
    tree.foldr (fun _ v rest => v :: rest) (bindings.map (·.2)) =
      (tree.foldr (fun k v rest => (k, v) :: rest) bindings).map (·.2) := by
  induction tree generalizing bindings with
  | leaf => rfl
  | inner size k v left right ihLeft ihRight =>
    show DTreeMap.Internal.Impl.foldr _ (_ :: DTreeMap.Internal.Impl.foldr _ _ right) left = _
    rw [ihRight]
    exact ihLeft ((k, v) :: _)

omit [LawfulEqOrd κ] in
theorem values_eq_map_toList (m : ExtTreeMap κ υ) : m.values = m.toList.map (·.2) := by
  obtain ⟨⟨quotient⟩⟩ := m
  induction quotient using Quotient.inductionOn with
  | h m => exact foldr_values m.inner []

theorem mem_values {m : ExtTreeMap κ υ} {v : υ} : v ∈ m.values ↔ ∃ k : κ, m[k]? = some v := by
  rw [values_eq_map_toList, List.mem_map]
  constructor
  · rintro ⟨⟨k, _⟩, member, rfl⟩
    exact ⟨k, mem_toList_iff.mp member⟩
  · rintro ⟨k, found⟩
    exact ⟨(k, v), mem_toList_iff.mpr found, rfl⟩

theorem keys_nodup (m : ExtTreeMap κ υ) : (m.toList.map (·.1)).Nodup := by
  rw [List.Nodup, List.pairwise_map]
  refine m.distinct_keys_toList.imp ?_
  intro a b different same
  simp [same] at different

variable {ω : Type}

theorem getElem?_collectMap (m : ExtTreeMap κ υ) (g : κ → υ → ω) (k : κ) :
    (collectMap (m.toList.map fun entry => (entry.1, g entry.1 entry.2)))[k]? = m[k]?.map (g k) := by
  have distinct : ((m.toList.map fun entry => (entry.1, g entry.1 entry.2)).map (·.1)).Nodup := by
    rw [List.map_map]
    exact keys_nodup m
  apply Option.ext
  intro w
  rw [collectMap, getElem?_foldl_insert _ _ distinct, Option.map_eq_some_iff]
  simp only [ExtTreeMap.getElem?_empty, reduceCtorEq, and_false, or_false, List.mem_map, Prod.exists]
  constructor
  · rintro ⟨key, v, member, pair⟩
    cases pair
    exact ⟨v, mem_toList_iff.mp member, rfl⟩
  · rintro ⟨v, found, rfl⟩
    exact ⟨k, v, mem_toList_iff.mpr found, rfl⟩

theorem size_collectMap (m : ExtTreeMap κ υ) (g : κ → υ → ω) :
    (collectMap (m.toList.map fun entry => (entry.1, g entry.1 entry.2))).size = m.size := by
  have distinct : ((m.toList.map fun entry => (entry.1, g entry.1 entry.2)).map (·.1)).Nodup := by
    rw [List.map_map]
    exact keys_nodup m
  rw [collectMap, size_foldl_insert _ _ distinct (by simp)]
  simp [ExtTreeMap.length_toList]

theorem getElem?_foldl_modify {δ : Type} [DecidableEq κ] (key : δ → κ) (change : δ → υ → υ) (changes : List δ)
    (m : ExtTreeMap κ υ) (distinct : (changes.map key).Nodup) (k : κ) :
    (changes.foldl (fun m d => m.modify (key d) (change d)) m)[k]? =
      (changes.find? (key · = k)).elim m[k]? fun d => m[k]?.map (change d) := by
  induction changes generalizing m with
  | nil => rfl
  | cons d changes ih =>
    obtain ⟨fresh, distinct⟩ := List.nodup_cons.mp distinct
    rw [List.foldl_cons, ih (m.modify (key d) (change d)) distinct]
    by_cases here : key d = k
    · have gone : changes.find? (key · = k) = none := by
        refine List.find?_eq_none.mpr fun other member => ?_
        have different : key other ≠ key d := fun same => fresh (same ▸ List.mem_map_of_mem member)
        simpa [← here] using different
      rw [gone, List.find?_cons_of_pos (by simpa using here)]
      simp [here]
    · rw [List.find?_cons_of_neg (by simpa using here)]
      simp [ExtTreeMap.getElem?_modify, here]

variable (f : κ → υ → Nat)

omit [LawfulEqOrd κ] in
@[simp] theorem total_empty : total (∅ : ExtTreeMap κ υ) f = 0 := by
  have empty : (∅ : ExtTreeMap κ υ).toList = [] := ExtTreeMap.toList_eq_nil_iff.mpr rfl
  simp [total, empty]

theorem total_insert (m : ExtTreeMap κ υ) (k : κ) (v : υ) :
    total (m.insert k v) f = f k v + total (m.erase k) f := by
  unfold total
  rw [((toList_insert_perm m k v).map _).sum_eq]
  simp

theorem total_erase {m : ExtTreeMap κ υ} {k : κ} {v : υ} (found : m[k]? = some v) :
    f k v + total (m.erase k) f = total m f := by
  have split := total_insert f (m.erase k) k v
  rw [insert_erase_of_getElem? found] at split
  have idem : (m.erase k).erase k = m.erase k := erase_of_getElem?_none (by simp)
  rw [split, idem]

theorem total_insert_new {m : ExtTreeMap κ υ} {k : κ} (v : υ) (absent : m[k]? = none) :
    total (m.insert k v) f = f k v + total m f := by
  rw [total_insert, erase_of_getElem?_none absent]

theorem total_insert_old {m : ExtTreeMap κ υ} {k : κ} {old : υ} (v : υ) (found : m[k]? = some old) :
    f k old + total (m.insert k v) f = f k v + total m f := by
  rw [total_insert, ← total_erase f found]
  omega

theorem le_total {m : ExtTreeMap κ υ} {k : κ} {v : υ} (found : m[k]? = some v) : f k v ≤ total m f := by
  have split := total_erase f found
  omega

theorem exists_of_total_pos {m : ExtTreeMap κ υ} (positive : 0 < total m f) :
    ∃ k v, m[k]? = some v ∧ 0 < f k v := by
  by_contra none
  push Not at none
  have zero : total m f = 0 := by
    unfold total
    apply List.sum_eq_zero
    intro n member
    obtain ⟨⟨k, v⟩, binding, rfl⟩ := List.mem_map.mp member
    exact Nat.le_zero.mp (none k v (mem_toList_iff.mp binding))
  omega

theorem add_le_total {m : ExtTreeMap κ υ} {j k : κ} {u v : υ} (different : j ≠ k)
    (foundJ : m[j]? = some u) (foundK : m[k]? = some v) : f j u + f k v ≤ total m f := by
  have split := total_erase f foundJ
  have rest : (m.erase j)[k]? = some v := by simp [ExtTreeMap.getElem?_erase, different, foundK]
  have bound := le_total f rest
  omega

omit [LawfulEqOrd κ] in
theorem total_mono {m : ExtTreeMap κ υ} {g : κ → υ → Nat} (less : ∀ k v, f k v ≤ g k v) : total m f ≤ total m g :=
  List.sum_le_sum fun _ _ => less _ _

theorem total_le_size_mul {m : ExtTreeMap κ υ} {bound : Nat} (each : ∀ k v, m[k]? = some v → f k v ≤ bound) :
    total m f ≤ m.size * bound := by
  have length : (m.toList.map fun binding => f binding.1 binding.2).length = m.size := by
    rw [List.length_map, ExtTreeMap.length_toList]
  rw [← length]
  refine List.sum_le_card_nsmul _ _ fun share member => ?_
  obtain ⟨binding, isBinding, rfl⟩ := List.mem_map.mp member
  exact each binding.1 binding.2 (mem_toList_iff.mp isBinding)

theorem mul_total_le {m : ExtTreeMap κ υ} {g : κ → υ → Nat} {scale slack : Nat}
    (each : ∀ k v, m[k]? = some v → scale * f k v ≤ g k v + slack) :
    scale * total m f ≤ total m g + m.size * slack := by
  have bound : ∀ bindings : List (κ × υ), (∀ binding ∈ bindings, m[binding.1]? = some binding.2) →
      scale * (bindings.map fun binding => f binding.1 binding.2).sum ≤
        (bindings.map fun binding => g binding.1 binding.2).sum + bindings.length * slack := by
    intro bindings
    induction bindings with
    | nil => simp
    | cons binding rest ih =>
      intro members
      have first := each _ _ (members binding (List.mem_cons_self ..))
      have others := ih fun other member => members other (List.mem_cons_of_mem _ member)
      simp only [List.map_cons, List.sum_cons, List.length_cons, Nat.mul_add, Nat.add_mul, Nat.one_mul] at others ⊢
      omega
  have all := bound m.toList fun binding member => mem_toList_iff.mp member
  rwa [ExtTreeMap.length_toList] at all

theorem total_congr {m : ExtTreeMap κ υ} {g : κ → υ → Nat}
    (same : ∀ k v, m[k]? = some v → f k v = g k v) : total m f = total m g := by
  unfold total
  congr 1
  apply List.map_congr_left
  rintro ⟨k, v⟩ binding
  exact same k v (mem_toList_iff.mp binding)

omit [LawfulEqOrd κ] in
theorem size_eq_total (m : ExtTreeMap κ υ) : m.size = total m fun _ _ => 1 := by
  simp [total, ExtTreeMap.length_toList]

theorem size_erase_of_getElem? {m : ExtTreeMap κ υ} {k : κ} {v : υ} (found : m[k]? = some v) :
    (m.erase k).size + 1 = m.size := by
  rw [size_eq_total, size_eq_total, ← total_erase _ found]
  omega

omit [LawfulEqOrd κ] in
theorem total_map {ω : Type} (m : ExtTreeMap κ ω) (g : κ → ω → υ) :
    total (m.map g) f = total m fun k w => f k (g k w) := by
  unfold total
  rw [ExtTreeMap.toList_map, List.map_map]
  rfl

omit [LawfulEqOrd κ] in
theorem countP_values (m : ExtTreeMap κ υ) (p : υ → Bool) :
    m.values.countP p = total m fun _ v => if p v then 1 else 0 := by
  rw [values_eq_map_toList, List.countP_map]
  unfold total
  induction m.toList with
  | nil => rfl
  | cons binding rest ih =>
    rw [List.countP_cons, List.map_cons, List.sum_cons, ih, Nat.add_comm]
    rfl

theorem total_agree {m m' : ExtTreeMap κ υ} (k : κ) (agree : ∀ j, j ≠ k → m'[j]? = m[j]?) :
    total m' f + m[k]?.elim 0 (f k) = total m f + m'[k]?.elim 0 (f k) := by
  have split (m : ExtTreeMap κ υ) : total m f = m[k]?.elim 0 (f k) + total (m.erase k) f := by
    cases found : m[k]? with
    | some v => exact (total_erase f found).symm
    | none => rw [erase_of_getElem?_none found, Option.elim_none, Nat.zero_add]
  have same : m'.erase k = m.erase k := by
    apply ExtTreeMap.ext_getElem?
    intro j
    by_cases here : k = j
    · subst here
      simp
    · simpa [ExtTreeMap.getElem?_erase, here] using agree j fun back => here back.symm
  rw [split m, split m', same]
  omega

end Glmaxx.Library
