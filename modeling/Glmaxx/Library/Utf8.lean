import Mathlib.Data.List.Basic
import Mathlib.Tactic.Linarith

/-!
# UTF-8 byte by byte

`utf8Step` reads the first character of a list of bytes the way a validator does, and `fromUtf8Lossy` replaces what
is not one. `Decodes` splits bytes into the text they make and an unfinished character at their end; bytes that come
later continue that character.
-/

namespace Glmaxx.Library

inductive Utf8Step where
  | done
  | valid (length : Nat)
  | invalid (length : Nat)
  | incomplete
deriving DecidableEq, Repr

def isContinuation (byte : UInt8) : Bool := 0x80 ≤ byte && byte ≤ 0xBF

def utf8CharWidth (byte : UInt8) : Nat :=
  if byte < 0x80 then 1
  else if byte < 0xC2 then 0
  else if byte < 0xE0 then 2
  else if byte < 0xF0 then 3
  else if byte < 0xF5 then 4
  else 0

/-- Whether the second byte goes with the first: no overlong forms, surrogates or numbers that are too large. -/
def secondByte (first second : UInt8) : Bool :=
  if first = 0xE0 then 0xA0 ≤ second && second ≤ 0xBF
  else if first = 0xED then 0x80 ≤ second && second ≤ 0x9F
  else if first = 0xF0 then 0x90 ≤ second && second ≤ 0xBF
  else if first = 0xF4 then 0x80 ≤ second && second ≤ 0x8F
  else isContinuation second

/-- The bytes after the second one, `seen` bytes into a character of `width`. -/
def continuationStep (width : Nat) : Nat → Nat → List UInt8 → Utf8Step
  | 0, _, _ => .valid width
  | _ + 1, _, [] => .incomplete
  | left + 1, seen, byte :: rest =>
    if isContinuation byte then continuationStep width left (seen + 1) rest else .invalid seen

def utf8Step : List UInt8 → Utf8Step
  | [] => .done
  | first :: rest =>
    match utf8CharWidth first with
    | 0 => .invalid 1
    | 1 => .valid 1
    | width + 2 => match rest with
      | [] => .incomplete
      | second :: rest =>
        if secondByte first second then continuationStep (width + 2) width 2 rest else .invalid 1

structure Utf8Error where
  validUpTo : Nat
  errorLen : Option Nat
deriving DecidableEq, Repr

def validateUtf8 : Nat → Nat → List UInt8 → Option Utf8Error
  | 0, _, _ => none
  | fuel + 1, offset, bytes => match utf8Step bytes with
    | .done => none
    | .valid length => validateUtf8 fuel (offset + length) (bytes.drop length)
    | .invalid length => some ⟨offset, some length⟩
    | .incomplete => some ⟨offset, none⟩

/-- What is wrong first with the bytes, if anything is. -/
def fromUtf8 (bytes : List UInt8) : Option Utf8Error := validateUtf8 bytes.length 0 bytes

/-- The bytes of U+FFFD. -/
def replacement : List UInt8 := [0xEF, 0xBF, 0xBD]

/-- The bytes looked at for one character, those past the end taken as zero, and whether they make one. -/
def chunkStep (bytes : List UInt8) : Nat × Bool :=
  let byteAt := fun i => bytes.getD i 0
  match utf8CharWidth (byteAt 0) with
  | 1 => (1, true)
  | 2 => if isContinuation (byteAt 1) then (2, true) else (1, false)
  | 3 =>
    if secondByte (byteAt 0) (byteAt 1) then if isContinuation (byteAt 2) then (3, true) else (2, false) else (1, false)
  | 4 =>
    if secondByte (byteAt 0) (byteAt 1) then
      if isContinuation (byteAt 2) then if isContinuation (byteAt 3) then (4, true) else (3, false) else (2, false)
    else (1, false)
  | _ => (1, false)

def lossyChunks : Nat → List UInt8 → List UInt8
  | 0, _ => []
  | fuel + 1, bytes =>
    if bytes = [] then []
    else (if (chunkStep bytes).2 then bytes.take (chunkStep bytes).1 else replacement) ++
      lossyChunks fuel (bytes.drop (chunkStep bytes).1)

/-- The text of the bytes, each part that is not UTF-8 replaced by U+FFFD. -/
def fromUtf8Lossy (bytes : List UInt8) : List UInt8 := lossyChunks bytes.length bytes

inductive Decodes : List UInt8 → List UInt8 → List UInt8 → Prop where
  | done : Decodes [] [] []
  | incomplete {bytes : List UInt8} (step : utf8Step bytes = .incomplete) : Decodes bytes [] bytes
  | valid {bytes out rest : List UInt8} {length : Nat} (step : utf8Step bytes = .valid length)
      (later : Decodes (bytes.drop length) out rest) : Decodes bytes (bytes.take length ++ out) rest
  | invalid {bytes out rest : List UInt8} {length : Nat} (step : utf8Step bytes = .invalid length)
      (later : Decodes (bytes.drop length) out rest) : Decodes bytes (replacement ++ out) rest

/-- How an unfinished character ends. -/
def replaced (rest : List UInt8) : List UInt8 := if rest = [] then [] else replacement

section Steps
variable {bytes more out rest : List UInt8} {length width left seen : Nat}

theorem continuationStep_bounds :
    (continuationStep width left seen bytes = .valid length → length = width ∧ left ≤ bytes.length) ∧
    (continuationStep width left seen bytes = .invalid length → seen ≤ length ∧ length < seen + bytes.length) ∧
    (continuationStep width left seen bytes = .incomplete → bytes.length < left) ∧
    continuationStep width left seen bytes ≠ .done := by
  induction left generalizing seen bytes with
  | zero => simp [continuationStep, eq_comm]
  | succ left ih =>
    cases bytes with
    | nil => simp [continuationStep]
    | cons byte bytes =>
      unfold continuationStep
      split
      · obtain ⟨valid, invalid, incomplete, done⟩ := @ih bytes (seen + 1)
        simp only [List.length_cons]
        refine ⟨fun h => ?_, fun h => ?_, fun h => ?_, done⟩
        · have := valid h; omega
        · have := invalid h; omega
        · have := incomplete h; omega
      · simp only [List.length_cons]
        refine ⟨nofun, fun h => ?_, nofun, nofun⟩
        cases h
        omega

theorem continuationStep_append (ended : continuationStep width left seen bytes ≠ .incomplete) :
    continuationStep width left seen (bytes ++ more) = continuationStep width left seen bytes := by
  induction left generalizing seen bytes with
  | zero => rfl
  | succ left ih =>
    cases bytes with
    | nil => exact absurd rfl ended
    | cons byte bytes =>
      unfold continuationStep at ended ⊢
      simp only [List.cons_append] at ended ⊢
      split
      · rename_i continues
        rw [if_pos continues] at ended
        exact ih ended
      · rfl

theorem utf8Step_bounds : (utf8Step bytes = .valid length → 0 < length ∧ length ≤ bytes.length) ∧
    (utf8Step bytes = .invalid length → 0 < length ∧ length ≤ bytes.length) ∧
    (utf8Step bytes = .done → bytes = []) ∧ (utf8Step bytes = .incomplete → bytes ≠ []) := by
  cases bytes with
  | nil => simp [utf8Step]
  | cons first rest =>
    unfold utf8Step
    simp only [List.length_cons]
    split
    · refine ⟨nofun, fun h => ?_, nofun, nofun⟩
      cases h
      omega
    · refine ⟨fun h => ?_, nofun, nofun, nofun⟩
      cases h
      omega
    · cases rest with
      | nil => exact ⟨nofun, nofun, nofun, fun _ => nofun⟩
      | cons second rest =>
        simp only [List.length_cons]
        split
        · rename_i width _ _
          obtain ⟨valid, invalid, incomplete, done⟩ := @continuationStep_bounds rest length (width + 2) width 2
          refine ⟨fun h => ?_, fun h => ?_, fun h => absurd h done, fun _ => nofun⟩
          · have := valid h
            omega
          · have := invalid h
            omega
        · refine ⟨nofun, fun h => ?_, nofun, nofun⟩
          cases h
          omega

theorem utf8Step_append (ended : utf8Step bytes ≠ .incomplete) (some : bytes ≠ []) :
    utf8Step (bytes ++ more) = utf8Step bytes := by
  cases bytes with
  | nil => exact absurd rfl some
  | cons first rest =>
    unfold utf8Step at ended ⊢
    simp only [List.cons_append] at ended ⊢
    split
    · rfl
    · rfl
    next width wide =>
      rw [wide] at ended
      cases rest with
      | nil => exact absurd rfl ended
      | cons second rest =>
        simp only [List.cons_append] at ended ⊢
        split
        next goes =>
          rw [if_pos goes] at ended
          exact continuationStep_append ended
        next => rfl

theorem utf8CharWidth_le (byte : UInt8) : utf8CharWidth byte ≤ 4 := by
  unfold utf8CharWidth
  split <;> (try split) <;> (try split) <;> (try split) <;> (try split) <;> omega

theorem utf8CharWidth_of_continuation {byte : UInt8} (continues : isContinuation byte = true) :
    utf8CharWidth byte = 0 := by
  unfold isContinuation at continues
  simp only [Bool.and_eq_true, decide_eq_true_eq, UInt8.le_iff_toNat_le] at continues
  unfold utf8CharWidth
  rw [if_neg, if_pos]
  · rw [UInt8.lt_iff_toNat_lt]
    exact Nat.lt_of_le_of_lt continues.2 (by decide)
  · rw [UInt8.lt_iff_toNat_lt]
    exact Nat.not_lt.mpr continues.1

theorem secondByte_zero (first : UInt8) : secondByte first 0 = false := by
  unfold secondByte
  split
  · rfl
  · split
    · rfl
    · split
      · rfl
      · split <;> rfl

theorem secondByte_of_two {first : UInt8} (second : UInt8) (two : utf8CharWidth first = 2) :
    secondByte first second = isContinuation second := by
  have apart : first ≠ 0xE0 ∧ first ≠ 0xED ∧ first ≠ 0xF0 ∧ first ≠ 0xF4 := by
    refine ⟨?_, ?_, ?_, ?_⟩ <;>
    · rintro rfl
      exact absurd two (by decide)
  unfold secondByte
  rw [if_neg apart.1, if_neg apart.2.1, if_neg apart.2.2.1, if_neg apart.2.2.2]

theorem chunkStep_eq (some : bytes ≠ []) : chunkStep bytes = match utf8Step bytes with
      | .done => (0, true)
      | .valid length => (length, true)
      | .invalid length => (length, false)
      | .incomplete => (bytes.length, false) := by
  have none : isContinuation 0 = false := rfl
  cases bytes with
  | nil => exact absurd rfl some
  | cons first rest =>
    have most := utf8CharWidth_le first
    unfold chunkStep utf8Step
    simp only [List.getD_cons_zero, List.getD_cons_succ]
    generalize width : utf8CharWidth first = wide at most
    match wide, most with
    | 0, _ => rfl
    | 1, _ => rfl
    | 2, _ =>
      cases rest with
      | nil => rfl
      | cons second rest =>
        simp only [secondByte_of_two second width, List.getD_cons_zero]
        cases isContinuation second <;> rfl
    | 3, _ =>
      cases rest with
      | nil => simp [secondByte_zero]
      | cons second rest =>
        simp only [List.getD_cons_zero, List.getD_cons_succ]
        cases secondByte first second with
        | false => rfl
        | true =>
          cases rest with
          | nil => rfl
          | cons third rest =>
            simp only [List.getD_cons_zero, continuationStep]
            cases isContinuation third <;> rfl
    | 4, _ =>
      cases rest with
      | nil => simp [secondByte_zero]
      | cons second rest =>
        simp only [List.getD_cons_zero, List.getD_cons_succ]
        cases secondByte first second with
        | false => rfl
        | true =>
          cases rest with
          | nil => rfl
          | cons third rest =>
            simp only [List.getD_cons_zero, List.getD_cons_succ, continuationStep]
            cases isContinuation third with
            | false => rfl
            | true =>
              cases rest with
              | nil => rfl
              | cons fourth rest =>
                simp only [List.getD_cons_zero, continuationStep]
                cases isContinuation fourth <;> rfl

end Steps

section Decoding
variable {bytes more out out' rest rest' : List UInt8} {fuel : Nat}

theorem decodes_exists (bytes : List UInt8) : ∃ out rest, Decodes bytes out rest := by
  induction size : bytes.length using Nat.strong_induction_on generalizing bytes with
  | _ n ih =>
    subst size
    cases step : utf8Step bytes with
    | done =>
      rw [(@utf8Step_bounds bytes 0).2.2.1 step]
      exact ⟨_, _, .done⟩
    | incomplete => exact ⟨_, _, .incomplete step⟩
    | valid length =>
      obtain ⟨pos, most⟩ := utf8Step_bounds.1 step
      obtain ⟨out, rest, later⟩ := ih (bytes.drop length).length (by rw [List.length_drop]; omega) _ rfl
      exact ⟨_, _, .valid step later⟩
    | invalid length =>
      obtain ⟨pos, most⟩ := utf8Step_bounds.2.1 step
      obtain ⟨out, rest, later⟩ := ih (bytes.drop length).length (by rw [List.length_drop]; omega) _ rfl
      exact ⟨_, _, .invalid step later⟩

theorem Decodes.unique (first : Decodes bytes out rest) (second : Decodes bytes out' rest') :
    out = out' ∧ rest = rest' := by
  induction first generalizing out' rest' with
  | done =>
    cases second with
    | done => exact ⟨rfl, rfl⟩
    | incomplete step | valid step later | invalid step later => cases step
  | incomplete step =>
    cases second with
    | done => cases step
    | incomplete _ => exact ⟨rfl, rfl⟩
    | valid step' later | invalid step' later => cases step.symm.trans step'
  | valid step later ih =>
    cases second with
    | done => cases step
    | incomplete step' => cases step.symm.trans step'
    | valid step' later' =>
      cases step.symm.trans step'
      obtain ⟨rfl, rfl⟩ := ih later'
      exact ⟨rfl, rfl⟩
    | invalid step' later' => cases step.symm.trans step'
  | invalid step later ih =>
    cases second with
    | done => cases step
    | incomplete step' | valid step' later' => cases step.symm.trans step'
    | invalid step' later' =>
      cases step.symm.trans step'
      obtain ⟨rfl, rfl⟩ := ih later'
      exact ⟨rfl, rfl⟩

theorem Decodes.rest_incomplete (decodes : Decodes bytes out rest) : rest = [] ∨ utf8Step rest = .incomplete := by
  induction decodes with
  | done => exact .inl rfl
  | incomplete step => exact .inr step
  | valid step later ih | invalid step later ih => exact ih

theorem Decodes.append (first : Decodes bytes out rest) (second : Decodes (rest ++ more) out' rest') :
    Decodes (bytes ++ more) (out ++ out') rest' := by
  induction first with
  | done | incomplete step => exact second
  | @valid bytes out rest length step later ih =>
    obtain ⟨pos, most⟩ := utf8Step_bounds.1 step
    have nonempty : bytes ≠ [] := List.ne_nil_of_length_pos (by omega)
    have stays : utf8Step (bytes ++ more) = utf8Step bytes := utf8Step_append (by rw [step]; nofun) nonempty
    have next := ih second
    rw [← List.drop_append_of_le_length most] at next
    have taken := Decodes.valid (stays.trans step) next
    rw [List.take_append_of_le_length most, ← List.append_assoc] at taken
    exact taken
  | @invalid bytes out rest length step later ih =>
    obtain ⟨pos, most⟩ := utf8Step_bounds.2.1 step
    have nonempty : bytes ≠ [] := List.ne_nil_of_length_pos (by omega)
    have stays : utf8Step (bytes ++ more) = utf8Step bytes := utf8Step_append (by rw [step]; nofun) nonempty
    have next := ih second
    rw [← List.drop_append_of_le_length most] at next
    have taken := Decodes.invalid (stays.trans step) next
    rw [← List.append_assoc] at taken
    exact taken

theorem Decodes.lossyChunks_eq (decodes : Decodes bytes out rest) (enough : bytes.length ≤ fuel) :
    lossyChunks fuel bytes = out ++ replaced rest := by
  have nothing (fuel : Nat) : lossyChunks fuel [] = [] := by cases fuel <;> rfl
  induction decodes generalizing fuel with
  | done => exact nothing fuel
  | @incomplete bytes step =>
    have nonempty := (@utf8Step_bounds bytes 0).2.2.2 step
    have chunk := chunkStep_eq nonempty
    rw [step] at chunk
    cases fuel with
    | zero => exact absurd (List.length_eq_zero_iff.mp (Nat.le_zero.mp enough)) nonempty
    | succ fuel =>
      rw [lossyChunks, if_neg nonempty, chunk, replaced, if_neg nonempty, List.drop_length, nothing]
      rfl
  | @valid bytes out rest length step later ih =>
    obtain ⟨pos, most⟩ := utf8Step_bounds.1 step
    have nonempty : bytes ≠ [] := List.ne_nil_of_length_pos (by omega)
    have chunk := chunkStep_eq nonempty
    rw [step] at chunk
    cases fuel with
    | zero => omega
    | succ fuel =>
      have next := @ih fuel (by rw [List.length_drop]; omega)
      rw [lossyChunks, if_neg nonempty, chunk]
      show bytes.take length ++ lossyChunks fuel (bytes.drop length) = _
      rw [next, List.append_assoc]
  | @invalid bytes out rest length step later ih =>
    obtain ⟨pos, most⟩ := utf8Step_bounds.2.1 step
    have nonempty : bytes ≠ [] := List.ne_nil_of_length_pos (by omega)
    have chunk := chunkStep_eq nonempty
    rw [step] at chunk
    cases fuel with
    | zero => omega
    | succ fuel =>
      have next := @ih fuel (by rw [List.length_drop]; omega)
      rw [lossyChunks, if_neg nonempty, chunk]
      show replacement ++ lossyChunks fuel (bytes.drop length) = _
      rw [next, List.append_assoc]

theorem Decodes.lossy (decodes : Decodes bytes out rest) : fromUtf8Lossy bytes = out ++ replaced rest :=
  decodes.lossyChunks_eq (Nat.le_refl _)

theorem validateUtf8_spec {offset : Nat} (enough : bytes.length ≤ fuel) :
    match validateUtf8 fuel offset bytes with
    | none => Decodes bytes bytes []
    | some error => ∃ length, error.validUpTo = offset + length ∧ length ≤ bytes.length ∧
      utf8Step (bytes.drop length) = error.errorLen.elim .incomplete .invalid ∧
      ∀ out rest, Decodes (bytes.drop length) out rest → Decodes bytes (bytes.take length ++ out) rest := by
  induction fuel generalizing bytes offset with
  | zero =>
    rw [List.length_eq_zero_iff.mp (Nat.le_zero.mp enough)]
    exact .done
  | succ fuel ih =>
    unfold validateUtf8
    cases step : utf8Step bytes with
    | done =>
      rw [(@utf8Step_bounds bytes 0).2.2.1 step]
      exact .done
    | incomplete | invalid length => exact ⟨0, rfl, Nat.zero_le _, step, fun out rest decodes => decodes⟩
    | valid length =>
      obtain ⟨pos, most⟩ := utf8Step_bounds.1 step
      have later := @ih (bytes.drop length) (offset + length) (by rw [List.length_drop]; omega)
      show match validateUtf8 fuel (offset + length) (bytes.drop length) with | none => _ | some error => _
      cases outcome : validateUtf8 fuel (offset + length) (bytes.drop length) with
      | none =>
        rw [outcome] at later
        have decodes := Decodes.valid step later
        rw [List.take_append_drop] at decodes
        exact decodes
      | some error =>
        rw [outcome] at later
        obtain ⟨more, upTo, most', step', prepend⟩ := later
        rw [List.drop_drop] at step' prepend
        rw [List.length_drop] at most'
        refine ⟨length + more, by omega, by omega, step', fun out rest decodes => ?_⟩
        have decodes := Decodes.valid step (prepend out rest decodes)
        rw [← List.append_assoc, ← List.take_add] at decodes
        exact decodes

theorem first_of_valid {first : UInt8} (valid : fromUtf8 (first :: rest) = none) : isContinuation first = false := by
  rw [← Bool.not_eq_true]
  intro continues
  have step : utf8Step (first :: rest) = .invalid 1 := by simp only [utf8Step, utf8CharWidth_of_continuation continues]
  have valid : validateUtf8 (rest.length + 1) 0 (first :: rest) = none := valid
  unfold validateUtf8 at valid
  rw [step] at valid
  cases valid

end Decoding

/-! ## Texts -/

/-- A row of characters. -/
inductive Text : List UInt8 → Prop where
  | nil : Text []
  | cons {char rest : List UInt8} (step : utf8Step char = .valid char.length) (later : Text rest) : Text (char ++ rest)

section Texts
variable {bytes front rest out : List UInt8} {length width left seen : Nat}

theorem continuationStep_valid (step : continuationStep width left seen bytes = .valid length) :
    continuationStep width left seen (bytes.take left) = .valid length ∧
      ∀ byte ∈ bytes.take left, isContinuation byte = true := by
  induction left generalizing seen bytes with
  | zero => exact ⟨step, by simp⟩
  | succ left ih =>
    cases bytes with
    | nil => cases step
    | cons byte bytes =>
      unfold continuationStep at step
      split at step
      · rename_i continues
        obtain ⟨again, all⟩ := ih step
        refine ⟨?_, ?_⟩
        · rw [List.take_succ_cons, continuationStep, if_pos continues]
          exact again
        · rw [List.take_succ_cons, List.forall_mem_cons]
          exact ⟨continues, all⟩
      · cases step

theorem secondByte_continues {first second : UInt8} (goes : secondByte first second = true) :
    isContinuation second = true := by
  unfold secondByte isContinuation at *
  split_ifs at goes <;> simp [UInt8.le_iff_toNat_le] at goes ⊢ <;> omega

theorem utf8Step_valid (step : utf8Step bytes = .valid length) :
    utf8Step (bytes.take length) = .valid (bytes.take length).length ∧
      ∃ first later, bytes.take length = first :: later ∧ isContinuation first = false ∧
        ∀ byte ∈ later, isContinuation byte = true := by
  have most := (utf8Step_bounds.1 step).2
  cases bytes with
  | nil => cases step
  | cons first rest =>
    rw [List.length_take, Nat.min_eq_left most]
    have leads : isContinuation first = false := by
      rw [← Bool.not_eq_true]
      intro continues
      simp only [utf8Step, utf8CharWidth_of_continuation continues] at step
      cases step
    generalize wide : utf8CharWidth first = wideness at *
    simp only [utf8Step, wide] at step
    match wideness with
    | 0 => cases step
    | 1 =>
      cases step
      exact ⟨by simp [utf8Step, wide], first, [], rfl, leads, nofun⟩
    | width + 2 =>
      cases rest with
      | nil => cases step
      | cons second rest =>
        simp only at step
        split at step
        · rename_i goes
          obtain ⟨rfl, -⟩ := continuationStep_bounds.1 step
          obtain ⟨again, all⟩ := continuationStep_valid step
          refine ⟨?_, first, second :: rest.take width, rfl, leads, ?_⟩
          · simp only [List.take_succ_cons, utf8Step, wide, if_pos goes]
            exact again
          · rw [List.forall_mem_cons]
            exact ⟨secondByte_continues goes, all⟩
        · cases step

theorem Decodes.text (decodes : Decodes bytes out rest) : Text out := by
  induction decodes with
  | done | incomplete step => exact .nil
  | valid step later ih => exact .cons (utf8Step_valid step).1 ih
  | invalid step later ih => exact .cons rfl ih

theorem Text.decodes (text : Text bytes) : Decodes bytes bytes [] := by
  induction text with
  | nil => exact .done
  | @cons char rest step later ih =>
    have some : char ≠ [] := by
      rintro rfl
      cases step
    have again : utf8Step (char ++ rest) = .valid char.length :=
      (utf8Step_append (by rw [step]; nofun) some).trans step
    have decodes := @Decodes.valid (char ++ rest) rest [] char.length again (by rw [List.drop_left]; exact ih)
    rw [List.take_left] at decodes
    exact decodes

theorem Text.of_valid (valid : fromUtf8 bytes = none) : Text bytes := by
  have spec := @validateUtf8_spec bytes bytes.length 0 (Nat.le_refl _)
  have same : validateUtf8 bytes.length 0 bytes = none := valid
  rw [same] at spec
  exact spec.text

theorem Text.split (text : Text (front ++ rest)) (starts : ∀ byte ∈ rest.head?, isContinuation byte = false) :
    Text front ∧ Text rest := by
  generalize whole : front ++ rest = bytes at text
  induction text generalizing front with
  | nil =>
    obtain ⟨rfl, rfl⟩ := List.append_eq_nil_iff.mp whole
    exact ⟨.nil, .nil⟩
  | @cons char tail step later ih =>
    rcases List.append_eq_append_iff.mp whole with ⟨within, rfl, rfl⟩ | ⟨beyond, rfl, same⟩
    · -- the cut is inside the first character, or at one of its ends
      obtain ⟨first, others, isChar, leads, all⟩ := (utf8Step_valid step).2
      rw [List.take_length] at isChar
      cases front with
      | nil => exact ⟨.nil, .cons step later⟩
      | cons byte front =>
        cases within with
        | nil =>
          rw [List.append_nil] at step
          have text := Text.cons step .nil
          rw [List.append_nil] at text
          exact ⟨text, later⟩
        | cons next within =>
          rw [List.cons_append, List.cons.injEq] at isChar
          have continues := all next (by rw [← isChar.2]; simp)
          rw [starts next (by simp)] at continues
          cases continues
    · obtain ⟨texts, other⟩ := ih same.symm
      exact ⟨.cons step texts, other⟩

theorem Text.of_append (text : Text front) (whole : Text (front ++ rest)) : Text rest := by
  obtain ⟨out, left, decodes⟩ := decodes_exists rest
  obtain ⟨same, rfl⟩ := (text.decodes.append decodes).unique whole.decodes
  rw [List.append_cancel_left_eq] at same
  exact same ▸ decodes.text

theorem Text.head (text : Text bytes) : ∀ byte ∈ bytes.head?, isContinuation byte = false := by
  cases text with
  | nil => nofun
  | @cons char rest step later =>
    obtain ⟨first, others, isChar, leads, -⟩ := (utf8Step_valid step).2
    rw [List.take_length] at isChar
    simp [isChar, leads]

end Texts

end Glmaxx.Library
