import Mathlib.Data.List.Infix
import Mathlib.Data.Prod.Lex
import Mathlib.Order.Bounds.Basic

/-!
# Looking for several patterns in a text that arrives in pieces

A match is an offset and the number of a pattern, and the first one is the least in that order. While no pattern has
occurred, only the longest suffix that begins a pattern has to be kept: every later match starts in it.
-/

namespace Glmaxx.Library

variable {α : Type} {patterns : List (List α)} {text more held pattern : List α} {offset : Nat} {m : ℕ ×ₗ ℕ}

/-- Where a pattern occurs, and which. -/
def Matches (patterns : List (List α)) (text : List α) : Set (ℕ ×ₗ ℕ) :=
  {m | ∃ pattern, patterns[(ofLex m).2]? = some pattern ∧ pattern <+: text.drop (ofLex m).1}

theorem infix_iff_exists_drop : pattern <:+: text ↔ ∃ offset, pattern <+: text.drop offset := by
  rw [List.infix_iff_prefix_suffix]
  constructor
  · rintro ⟨tail, starts, suffix⟩
    rw [List.suffix_iff_eq_drop] at suffix
    exact ⟨_, suffix ▸ starts⟩
  · rintro ⟨offset, starts⟩
    exact ⟨_, starts, List.drop_suffix _ _⟩

theorem Matches.infix (found : m ∈ Matches patterns text) : ∃ pattern ∈ patterns, pattern <:+: text := by
  obtain ⟨pattern, numbered, starts⟩ := found
  exact ⟨pattern, List.mem_of_getElem? numbered, infix_iff_exists_drop.mpr ⟨_, starts⟩⟩

theorem exists_mem_matches (member : pattern ∈ patterns) (occurs : pattern <:+: text) : ∃ m, m ∈ Matches patterns text := by
  obtain ⟨index, numbered⟩ := List.getElem?_of_mem member
  obtain ⟨offset, starts⟩ := infix_iff_exists_drop.mp occurs
  exact ⟨toLex (offset, index), pattern, numbered, starts⟩

theorem matches_eq_empty_iff : Matches patterns text = ∅ ↔ ∀ pattern ∈ patterns, ¬pattern <:+: text := by
  rw [Set.eq_empty_iff_forall_notMem]
  constructor
  · intro none pattern member occurs
    obtain ⟨m, found⟩ := exists_mem_matches member occurs
    exact none m found
  · intro absent m found
    obtain ⟨pattern, member, occurs⟩ := Matches.infix found
    exact absent pattern member occurs

theorem Matches.offset_lt (nonempty : [] ∉ patterns) (found : m ∈ Matches patterns text) : (ofLex m).1 < text.length := by
  obtain ⟨pattern, numbered, starts⟩ := found
  by_contra past
  rw [List.drop_eq_nil_of_le (by omega), List.prefix_nil] at starts
  exact nonempty (starts ▸ List.mem_of_getElem? numbered)

theorem Matches.mono (front : text <+: more) : Matches patterns text ⊆ Matches patterns more := by
  rintro m ⟨pattern, numbered, starts⟩
  exact ⟨pattern, numbered, starts.trans (front.drop _)⟩

theorem mem_matches_append {emitted : List α} {index : Nat} :
    toLex (emitted.length + offset, index) ∈ Matches patterns (emitted ++ text) ↔
      toLex (offset, index) ∈ Matches patterns text := by
  simp only [Matches, Set.mem_ofPred_eq, ofLex_toLex, List.drop_length_add_append]

section Held

/-- The longest suffix of the text that begins a pattern and is not the whole of it. -/
structure Held (patterns : List (List α)) (text held : List α) : Prop where
  suffix : held <:+ text
  begins : held = [] ∨ ∃ pattern ∈ patterns, held <+: pattern ∧ held ≠ pattern
  longest : ∀ pattern ∈ patterns, ∀ start, start <+: pattern → start ≠ pattern → start <:+ text →
    start.length ≤ held.length

theorem Held.covers {emitted : List α} (isHeld : Held patterns (emitted ++ held) held)
    (none : Matches patterns (emitted ++ held) = ∅) (found : m ∈ Matches patterns (emitted ++ held ++ more)) :
    emitted.length ≤ (ofLex m).1 := by
  obtain ⟨pattern, numbered, starts⟩ := found
  by_contra early
  rw [Nat.not_le] at early
  have within : (ofLex m).1 ≤ (emitted ++ held).length := by
    rw [List.length_append]
    omega
  rw [List.drop_append_of_le_length within] at starts
  have member := List.mem_of_getElem? numbered
  have tail : (emitted ++ held).drop (ofLex m).1 <:+ emitted ++ held := List.drop_suffix _ _
  rcases List.prefix_or_prefix_of_prefix starts (List.prefix_append _ more) with inside | begins
  · -- the whole pattern has been seen already
    have absent := matches_eq_empty_iff.mp none pattern member
    exact absent (infix_iff_exists_drop.mpr ⟨_, inside⟩)
  · have unfinished : (emitted ++ held).drop (ofLex m).1 ≠ pattern := by
      intro same
      exact matches_eq_empty_iff.mp none pattern member (same ▸ tail.isInfix)
    have most := isHeld.longest pattern member _ begins unfinished tail
    rw [List.length_drop, List.length_append] at most
    omega

theorem Held.append {emitted next : List α} (isHeld : Held patterns (emitted ++ held) held)
    (none : Matches patterns (emitted ++ held) = ∅) (after : Held patterns (held ++ more) next) :
    Held patterns (emitted ++ held ++ more) next := by
  refine ⟨?_, after.begins, ?_⟩
  · rw [List.append_assoc]
    exact after.suffix.trans (List.suffix_append _ _)
  · intro pattern member start begins short ends
    rw [List.append_assoc] at ends
    rcases List.suffix_or_suffix_of_suffix ends (List.suffix_append emitted (held ++ more)) with inside | beyond
    · exact after.longest pattern member start begins short inside
    · obtain ⟨front, rfl⟩ := beyond
      -- such a start would reach back past what is held
      have begins' : front ++ held <+: pattern := (List.prefix_append (front ++ held) more).trans
        (by rw [List.append_assoc]; exact begins)
      have ends' : front ++ held <:+ emitted ++ held := by
        obtain ⟨before, same⟩ := ends
        rw [← List.append_assoc, List.append_cancel_right_eq] at same
        exact ⟨before, by rw [← same, List.append_assoc]⟩
      have short' : front ++ held ≠ pattern := by
        rintro rfl
        exact matches_eq_empty_iff.mp none _ member ends'.isInfix
      have most := isHeld.longest pattern member _ begins' short' ends'
      rw [List.length_append] at most
      have front_nil : front = [] := List.length_eq_zero_iff.mp (by omega)
      subst front_nil
      exact after.longest pattern member _ begins short (List.suffix_refl _)

theorem Held.nil (patterns : List (List α)) : Held patterns [] [] := by
  refine ⟨List.suffix_refl _, .inl rfl, ?_⟩
  intro pattern member start begins short ends
  exact ends.length_le

end Held

theorem isLeast_matches_append {emitted : List α} {index : Nat}
    (covers : ∀ m ∈ Matches patterns (emitted ++ text), emitted.length ≤ (ofLex m).1)
    (first : IsLeast (Matches patterns text) (toLex (offset, index))) :
    IsLeast (Matches patterns (emitted ++ text)) (toLex (emitted.length + offset, index)) := by
  refine ⟨mem_matches_append.mpr first.1, ?_⟩
  intro m found
  obtain ⟨⟨place, number⟩, rfl⟩ := toLex.surjective m
  obtain ⟨later, rfl⟩ := Nat.exists_eq_add_of_le (covers _ found)
  have least := first.2 (mem_matches_append.mp found)
  simp only [Prod.Lex.toLex_le_toLex] at least ⊢
  omega

end Glmaxx.Library
