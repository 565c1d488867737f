import Glmaxx.Library.Outcome

namespace Glmaxx.Cache
open Std

/-- `[u8; 32]`: digests, namespaces and page keys, ordered byte by byte. -/
abbrev Bytes32 := List.Vector UInt8 32

instance : Ord Bytes32 := ⟨compareOn List.Vector.toList⟩

instance : TransOrd Bytes32 := inferInstanceAs (TransCmp (compareOn List.Vector.toList))

instance : LawfulEqOrd Bytes32 where
  eq_of_compare equal := List.Vector.toList_injective (Std.compare_eq_iff_eq.mp equal)

def Bytes32.zero : Bytes32 := List.Vector.replicate 32 0

def pageTokens : Nat := 64
def targetLayers : Nat := 78
def indexerGroups : Nat := 21
def kvRecordBytes : Nat := 368
def indexerRecordBytes : Nat := 132
def draftCommittedRecordBytes : Nat := kvRecordBytes + indexerRecordBytes

inductive PageState where
  | free
  | hbmMutable
  | hbmTentative
  | hbmSealed
  | dramWriting
  | dramResident
  | nvmeWriting
  | nvmeResident
  | restoring
  | invalid
deriving DecidableEq, Repr

structure PageTransitionError where
  source : PageState
  target : PageState
deriving DecidableEq, Repr

def PageState.transition (self next : PageState) : Except PageTransitionError PageState :=
  match self, next with
  | .free, .hbmMutable
  | .hbmMutable, .hbmTentative | .hbmMutable, .hbmSealed | .hbmMutable, .invalid
  | .hbmTentative, .hbmMutable | .hbmTentative, .hbmSealed | .hbmTentative, .invalid
  | .hbmSealed, .dramWriting | .hbmSealed, .invalid
  | .dramWriting, .dramResident | .dramWriting, .invalid
  | .dramResident, .nvmeWriting | .dramResident, .restoring | .dramResident, .invalid
  | .nvmeWriting, .nvmeResident | .nvmeWriting, .invalid
  | .nvmeResident, .restoring | .nvmeResident, .invalid
  | .restoring, .hbmSealed | .restoring, .invalid
  | .invalid, .free => .ok next
  | _, _ => .error ⟨self, next⟩

def ownerRank (pageOrdinal : Nat) : Fin 4 := Fin.ofNat 4 pageOrdinal

/-- `checked_add` of an unsigned type with `2 ^ width` values. -/
def checkedAdd (width a b : Nat) : Option Nat :=
  if a + b < 2 ^ width then some (a + b) else none

/-- `checked_sub` of an unsigned type. -/
def checkedSub (a b : Nat) : Option Nat :=
  if b ≤ a then some (a - b) else none

/-- `checked_mul` of an unsigned type with `2 ^ width` values. -/
def checkedMul (width a b : Nat) : Option Nat :=
  if a * b < 2 ^ width then some (a * b) else none

/-- `try_from` into an unsigned type with `2 ^ width` values. -/
def narrow (width a : Nat) : Option Nat :=
  if a < 2 ^ width then some a else none

theorem checkedAdd_some {width a b sum : Nat} (h : checkedAdd width a b = some sum) : sum = a + b := by
  unfold checkedAdd at h
  grind

theorem checkedMul_eq_some {width a b product : Nat} :
    checkedMul width a b = some product ↔ a * b < 2 ^ width ∧ a * b = product := by
  unfold checkedMul
  split <;> simp_all

theorem narrow_eq_some {width a b : Nat} : narrow width a = some b ↔ a < 2 ^ width ∧ a = b := by
  unfold narrow
  split <;> simp_all

theorem checkedSub_some {a b rest : Nat} (h : checkedSub a b = some rest) : b ≤ a ∧ rest = a - b := by
  unfold checkedSub at h
  grind

theorem checkedSub_of_le {a b : Nat} (h : b ≤ a) : checkedSub a b = some (a - b) := if_pos h

/-- How the `u64` counters grow: with a check in the source, without a bound where a property
abstracts from their width. -/
structure Counter where
  add : Nat → Nat → Option Nat
  exact : ∀ {a b sum : Nat}, add a b = some sum → sum = a + b

def Counter.u64 : Counter := ⟨checkedAdd 64, checkedAdd_some⟩

def Counter.unbounded : Counter := ⟨fun a b => some (a + b), fun same => (Option.some.inj same).symm⟩

end Glmaxx.Cache
