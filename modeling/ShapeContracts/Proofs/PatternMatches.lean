import Mathlib.Data.Nat.Bitwise
import ShapeContracts.Pattern

/-! What a pattern matches, as a relation between the places where a match starts and ends, and that the
search by sets of places finds it. A repetition without an upper bound needs no more steps than the
text has characters: each step that is worth taking leads forward. -/
namespace ShapeContracts.Pattern

variable {text : List Char}

def Iterates (step : Nat → Nat → Prop) : Nat → Nat → Nat → Prop
  | 0, i, j => i = j
  | n + 1, i, k => ∃ j, step i j ∧ Iterates step n j k

def before (first : Option Char) (text : List Char) : Nat → Option Char
  | 0 => first
  | i + 1 => text[i]?

/-- Some match of the pattern leads from place `i` to place `j`; place `i` is before the character `i`. -/
def Spans (text : List Char) : Pattern → Nat → Nat → Prop
  | empty, i, j => i = j
  | char accepts, i, j => j = i + 1 ∧ ∃ c, text[i]? = some c ∧ accepts c = true
  | assertion a, i, j => i = j ∧ i ≤ text.length ∧ a.holds (before none text i) text[i]? = true
  | cat p q, i, k => ∃ j, Spans text p i j ∧ Spans text q j k
  | alt p q, i, j => Spans text p i j ∨ Spans text q i j
  | repeated p min max, i, j =>
    ∃ n, min ≤ n ∧ (∀ m, max = some m → n ≤ m ∨ n = min) ∧ Iterates (Spans text p) n i j

def MatchesWhole (p : Pattern) (text : List Char) : Prop := Spans text p 0 text.length

def MatchesWithin (p : Pattern) (text : List Char) : Prop := ∃ i j, i ≤ text.length ∧ Spans text p i j

theorem MatchesWhole.within {p : Pattern} (whole : p.MatchesWhole text) : p.MatchesWithin text :=
  ⟨0, text.length, Nat.zero_le _, whole⟩

section Iterates

variable {step : Nat → Nat → Prop}

theorem iteratesAdd {m n i k : Nat} :
    Iterates step (m + n) i k ↔ ∃ j, Iterates step m i j ∧ Iterates step n j k := by
  induction m generalizing i with
  | zero => simp [Iterates]
  | succ m ih =>
    rw [Nat.add_right_comm]
    simp only [Iterates, ih]
    constructor
    · rintro ⟨j, first, l, middle, last⟩
      exact ⟨l, ⟨j, first, middle⟩, last⟩
    · rintro ⟨l, ⟨j, first, middle⟩, last⟩
      exact ⟨j, first, l, middle, last⟩

theorem iteratesShort (forward : ∀ {i j}, step i j → i ≤ j) {n i j : Nat} (iterates : Iterates step n i j) :
    i ≤ j ∧ ∃ m, m ≤ n ∧ m ≤ j - i ∧ Iterates step m i j := by
  -- steps that stay in place can be left out, and each of the others gains a place
  induction n generalizing i with
  | zero =>
    obtain rfl : i = j := iterates
    exact ⟨Nat.le_refl _, 0, Nat.le_refl _, Nat.zero_le _, rfl⟩
  | succ n ih =>
    obtain ⟨k, first, rest⟩ := iterates
    obtain ⟨order, m, fewer, short, last⟩ := ih rest
    have ahead := forward first
    refine ⟨Nat.le_trans ahead order, ?_⟩
    rcases Nat.eq_or_lt_of_le ahead with rfl | gained
    · exact ⟨m, Nat.le_succ_of_le fewer, short, last⟩
    · exact ⟨m + 1, Nat.succ_le_succ fewer, by omega, k, first, last⟩

end Iterates

theorem spansForward {p : Pattern} {i j : Nat} (spans : Spans text p i j) :
    i ≤ j ∧ (i < j → j ≤ text.length) := by
  induction p generalizing i j with
  | empty =>
    obtain rfl : i = j := spans
    omega
  | char accepts =>
    obtain ⟨rfl, c, here, -⟩ := spans
    have inside := (List.getElem?_eq_some_iff.mp here).1
    omega
  | assertion a =>
    obtain ⟨rfl, -⟩ := spans
    omega
  | cat p q ihp ihq =>
    obtain ⟨k, first, last⟩ := spans
    have := ihp first
    have := ihq last
    omega
  | alt p q ihp ihq =>
    rcases spans with left | right
    · exact ihp left
    · exact ihq right
  | repeated p min max ih =>
    obtain ⟨n, -, -, iterates⟩ := spans
    clear min max
    induction n generalizing i with
    | zero =>
      obtain rfl : i = j := iterates
      omega
    | succ n ihn =>
      obtain ⟨k, first, rest⟩ := iterates
      have := ih first
      have := ihn rest
      omega

/-! Sets of places. -/

theorem bitsZero (b : Bool) (n : Nat) : (b.toNat + 2 * n).testBit 0 = b := by
  rw [Nat.testBit_zero]
  cases b <;> simp

theorem bitsSucc (b : Bool) (n i : Nat) : (b.toNat + 2 * n).testBit (i + 1) = n.testBit i := by
  have half : (b.toNat + 2 * n) / 2 = n := by
    cases b
    · simp
    · simp only [Bool.toNat_true]
      omega
  rw [Nat.testBit_succ, half]

theorem charPlacesBit (accepts : Char → Bool) (text : List Char) (i : Nat) :
    (charPlaces accepts text).testBit i = true ↔ ∃ c, text[i]? = some c ∧ accepts c = true := by
  induction text generalizing i with
  | nil => simp [charPlaces]
  | cons c rest ih =>
    rw [charPlaces]
    cases i with
    | zero =>
      rw [bitsZero]
      simp
    | succ i => rw [bitsSucc, ih, List.getElem?_cons_succ]

theorem assertedPlacesBit (a : Assertion) (first : Option Char) (text : List Char) (i : Nat) :
    (assertedPlaces a first text).testBit i = true ↔
      i ≤ text.length ∧ a.holds (before first text i) text[i]? = true := by
  induction text generalizing first i with
  | nil =>
    rw [assertedPlaces]
    cases i with
    | zero => cases held : a.holds first none <;> simp [before, held]
    | succ i => cases a.holds first none <;> simp [Nat.testBit_succ]
  | cons c rest ih =>
    rw [assertedPlaces]
    cases i with
    | zero =>
      rw [bitsZero]
      simp [before]
    | succ i =>
      have next : before (some c) rest i = before first (c :: rest) (i + 1) := by cases i <;> rfl
      rw [bitsSucc, ih, next, List.getElem?_cons_succ, List.length_cons, Nat.add_le_add_iff_right]

section Additive

variable {step : Nat → Nat} {moves : Nat → Nat → Prop}
  (additive : ∀ places j, (step places).testBit j = true ↔ ∃ i, places.testBit i = true ∧ moves i j)

include additive

theorem stepsBit (n places j : Nat) : (steps step n places).testBit j = true ↔
    ∃ i, places.testBit i = true ∧ Iterates moves n i j := by
  induction n generalizing places with
  | zero => simp [steps, Iterates]
  | succ n ih =>
    rw [steps]
    split
    · rename_i none
      simp [none]
    · simp only [ih, additive, Iterates]
      constructor
      · rintro ⟨k, ⟨i, here, first⟩, rest⟩
        exact ⟨i, here, k, first, rest⟩
      · rintro ⟨i, here, k, first, rest⟩
        exact ⟨k, ⟨i, here, first⟩, rest⟩

theorem stepsUpToBit (n places j : Nat) : (stepsUpTo step n places).testBit j = true ↔
    ∃ i, places.testBit i = true ∧ ∃ m, m ≤ n ∧ Iterates moves m i j := by
  induction n generalizing places with
  | zero => simp [stepsUpTo, Iterates]
  | succ n ih =>
    rw [stepsUpTo]
    have more : ∀ k, (places ||| step places).testBit k = true ↔
        places.testBit k = true ∨ ∃ i, places.testBit i = true ∧ moves i k := by
      intro k
      rw [Nat.testBit_or, Bool.or_eq_true, additive]
    split
    · rename_i closed
      rw [closed] at more
      have stays : ∀ {m i}, places.testBit i = true → Iterates moves m i j → places.testBit j = true := by
        intro m
        induction m with
        | zero => rintro i here rfl; exact here
        | succ m ih =>
          rintro i here ⟨k, first, rest⟩
          exact ih ((more k).mpr (.inr ⟨i, here, first⟩)) rest
      constructor
      · intro here
        exact ⟨j, here, 0, Nat.zero_le _, rfl⟩
      · rintro ⟨i, here, m, -, iterates⟩
        exact stays here iterates
    · rw [ih]
      simp only [more]
      constructor
      · rintro ⟨k, here | ⟨i, here, first⟩, m, few, rest⟩
        · exact ⟨k, here, m, Nat.le_succ_of_le few, rest⟩
        · exact ⟨i, here, m + 1, Nat.succ_le_succ few, k, first, rest⟩
      · rintro ⟨i, here, m, few, iterates⟩
        cases m with
        | zero => exact ⟨i, .inl here, 0, Nat.zero_le _, iterates⟩
        | succ m =>
          obtain ⟨k, first, rest⟩ := iterates
          exact ⟨k, .inr ⟨i, here, first⟩, m, Nat.le_of_succ_le_succ few, rest⟩

end Additive

theorem reachBit (text : List Char) (p : Pattern) (places j : Nat) :
    (reach text p places).testBit j = true ↔ ∃ i, places.testBit i = true ∧ Spans text p i j := by
  rw [reach]
  induction p generalizing places j with
  | empty => simp [place, Placed.reach, Spans]
  | char accepts =>
    rw [place, Placed.reach, Nat.testBit_shiftLeft]
    simp only [Nat.testBit_and, Bool.and_eq_true, decide_eq_true_eq, charPlacesBit, Spans]
    constructor
    · rintro ⟨some, here, reads⟩
      exact ⟨j - 1, here, by omega, reads⟩
    · rintro ⟨i, here, rfl, reads⟩
      exact ⟨Nat.succ_pos i, here, reads⟩
  | assertion a =>
    rw [place, Placed.reach, Nat.testBit_and, Bool.and_eq_true, assertedPlacesBit]
    simp only [Spans]
    constructor
    · rintro ⟨here, held⟩
      exact ⟨j, here, rfl, held⟩
    · rintro ⟨i, here, rfl, held⟩
      exact ⟨here, held⟩
  | cat p q ihp ihq =>
    rw [place, Placed.reach, ihq]
    simp only [ihp, Spans]
    constructor
    · rintro ⟨k, ⟨i, here, first⟩, last⟩
      exact ⟨i, here, k, first, last⟩
    · rintro ⟨i, here, k, first, last⟩
      exact ⟨k, ⟨i, here, first⟩, last⟩
  | alt p q ihp ihq =>
    rw [place, Placed.reach, Nat.testBit_or, Bool.or_eq_true, ihp, ihq, ← exists_or]
    simp only [Spans, and_or_left]
  | repeated p min max ih =>
    obtain ⟨extra, placed, bounded, unbounded⟩ : ∃ extra,
        place text (.repeated p min max) = .repeated (p.place text) min extra ∧
          (∀ m, max = some m → extra = m - min) ∧ (max = none → extra = text.length) := by
      cases max <;> exact ⟨_, rfl, by simp, by simp⟩
    rw [placed, Placed.reach, stepsUpToBit ih]
    simp only [stepsBit ih, Spans]
    constructor
    · rintro ⟨k, ⟨i, here, first⟩, m, few, rest⟩
      refine ⟨i, here, min + m, Nat.le_add_right _ _, ?_, iteratesAdd.mpr ⟨k, first, rest⟩⟩
      intro most limit
      have := bounded most limit
      omega
    · rintro ⟨i, here, n, enough, most, iterates⟩
      obtain ⟨m, rfl⟩ := Nat.exists_eq_add_of_le enough
      obtain ⟨k, first, rest⟩ := iteratesAdd.mp iterates
      refine ⟨k, ⟨i, here, first⟩, ?_⟩
      cases max with
      | some max =>
        refine ⟨m, ?_, rest⟩
        have := most max rfl
        have := bounded max rfl
        omega
      | none =>
        obtain ⟨order, m, -, short, rest⟩ := iteratesShort (fun move => (spansForward move).1) rest
        refine ⟨m, ?_, rest⟩
        have inside : k < j → j ≤ text.length :=
          (spansForward (p := .repeated p 0 none) ⟨m, Nat.zero_le _, by simp, rest⟩).2
        have := unbounded rfl
        omega

theorem foundIn (p : Pattern) (text : List Char) : p.isFoundIn text = true ↔ p.MatchesWithin text := by
  have all : ∀ i, (Nat.pow 2 (text.length + 1) - 1).testBit i = true ↔ i ≤ text.length := by
    intro i
    rw [show Nat.pow 2 (text.length + 1) = 2 ^ (text.length + 1) from rfl, Nat.testBit_two_pow_sub_one,
      decide_eq_true_eq, Nat.lt_succ_iff]
  have reached := reachBit text p (Nat.pow 2 (text.length + 1) - 1)
  simp only [all] at reached
  rw [isFoundIn, bne_iff_ne]
  constructor
  · intro some
    obtain ⟨j, bit⟩ := Nat.exists_testBit_of_ne_zero some
    obtain ⟨i, inside, spans⟩ := (reached j).mp bit
    exact ⟨i, j, inside, spans⟩
  · rintro ⟨i, j, inside, spans⟩ none
    have bit := (reached j).mpr ⟨i, inside, spans⟩
    rw [none, Nat.zero_testBit] at bit
    contradiction

theorem matchesAllWhole (p : Pattern) (text : List Char) : p.matchesAll text = true ↔ p.MatchesWhole text := by
  rw [matchesAll, reachBit]
  have only : ∀ i, (1).testBit i = true ↔ i = 0 := by
    intro i
    cases i <;> simp [Nat.testBit_succ]
  simp only [only, exists_eq_left]
  rfl

end ShapeContracts.Pattern
