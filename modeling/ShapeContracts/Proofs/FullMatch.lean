import ShapeContracts.Evaluation
import ShapeContracts.Proofs.PatternMatches
import ShapeContracts.Proofs.PatternReading

/-! What the check of a pattern asks of a text. A pattern in a group between the ends of the text has to match
the whole of it; a pattern that is kept as it is written has only to be found. -/
namespace ShapeContracts.Pattern

variable {text : List Char}

theorem spansInside {p : Pattern} {i j : Nat} (inside : i ≤ text.length) (spans : Spans text p i j) :
    j ≤ text.length := by
  have := spansForward spans
  omega

theorem startHolds {i : Nat} : Spans text (.assertion .textStart) i j ↔ i = 0 ∧ j = 0 := by
  simp only [Spans, Assertion.holds, Option.isNone_iff_eq_none]
  constructor
  · rintro ⟨rfl, inside, first⟩
    cases i with
    | zero => exact ⟨rfl, rfl⟩
    | succ i =>
      have := List.getElem?_eq_none_iff.mp first
      omega
  · rintro ⟨rfl, rfl⟩
    exact ⟨rfl, Nat.zero_le _, rfl⟩

theorem endHolds {i : Nat} : Spans text (.assertion .textEnd) i j ↔ i = text.length ∧ j = text.length := by
  simp only [Spans, Assertion.holds, Option.isNone_iff_eq_none, List.getElem?_eq_none_iff]
  omega

theorem betweenEnds (p : Pattern) (text : List Char) : (fromEndToEnd p).MatchesWithin text ↔ p.MatchesWhole text := by
  rw [fromEndToEnd]
  constructor
  · rintro ⟨i, j, inside, k, first, l, spans, m, last, -⟩
    obtain ⟨rfl, rfl⟩ := startHolds.mp first
    obtain ⟨rfl, rfl⟩ := endHolds.mp last
    exact spans
  · intro whole
    exact ⟨0, text.length, Nat.zero_le _, 0, startHolds.mpr ⟨rfl, rfl⟩, text.length, whole, text.length,
      endHolds.mpr ⟨rfl, rfl⟩, rfl⟩

/-! Patterns that hold both ends of the text themselves. -/

def isStill : Pattern → Bool
  | empty => true
  | char _ => false
  | assertion _ => true
  | cat p q => p.isStill && q.isStill
  | alt p q => p.isStill && q.isStill
  | repeated p _ _ => p.isStill

def holdsStart : Pattern → Bool
  | empty => false
  | char _ => false
  | assertion .textStart => true
  | assertion _ => false
  | cat p q => p.holdsStart || (p.isStill && q.holdsStart)
  | alt p q => p.holdsStart && q.holdsStart
  | repeated p min _ => 0 < min && p.holdsStart

def holdsEnd : Pattern → Bool
  | empty => false
  | char _ => false
  | assertion .textEnd => true
  | assertion _ => false
  | cat p q => q.holdsEnd || (q.isStill && p.holdsEnd)
  | alt p q => p.holdsEnd && q.holdsEnd
  | repeated p min _ => 0 < min && p.holdsEnd

theorem stillStays {p : Pattern} {i j : Nat} (still : p.isStill = true) (spans : Spans text p i j) : i = j := by
  induction p generalizing i j with
  | empty => exact spans
  | char accepts => contradiction
  | assertion a => exact spans.1
  | cat p q ihp ihq =>
    rw [isStill, Bool.and_eq_true] at still
    obtain ⟨k, first, last⟩ := spans
    exact (ihp still.1 first).trans (ihq still.2 last)
  | alt p q ihp ihq =>
    rw [isStill, Bool.and_eq_true] at still
    rcases spans with left | right
    · exact ihp still.1 left
    · exact ihq still.2 right
  | repeated p min max ih =>
    rw [isStill] at still
    obtain ⟨n, -, -, iterates⟩ := spans
    clear min max
    induction n generalizing i with
    | zero => exact iterates
    | succ n ihn =>
      obtain ⟨k, first, rest⟩ := iterates
      exact (ih still first).trans (ihn rest)

theorem startHeld {p : Pattern} {i j : Nat} (held : p.holdsStart = true) (inside : i ≤ text.length)
    (spans : Spans text p i j) : i = 0 := by
  induction p generalizing i j with
  | empty => contradiction
  | char accepts => contradiction
  | assertion a =>
    cases a with
    | textStart => exact (startHolds.mp spans).1
    | _ => contradiction
  | cat p q ihp ihq =>
    rw [holdsStart, Bool.or_eq_true, Bool.and_eq_true] at held
    obtain ⟨k, first, last⟩ := spans
    rcases held with held | ⟨still, held⟩
    · exact ihp held inside first
    · exact (stillStays still first).trans (ihq held (spansInside inside first) last)
  | alt p q ihp ihq =>
    rw [holdsStart, Bool.and_eq_true] at held
    rcases spans with left | right
    · exact ihp held.1 inside left
    · exact ihq held.2 inside right
  | repeated p min max ih =>
    rw [holdsStart, Bool.and_eq_true, decide_eq_true_eq] at held
    obtain ⟨n, enough, -, iterates⟩ := spans
    obtain ⟨n, rfl⟩ := Nat.exists_eq_add_of_le' (Nat.le_trans held.1 enough)
    obtain ⟨k, first, -⟩ := iterates
    exact ih held.2 inside first

theorem endHeld {p : Pattern} {i j : Nat} (held : p.holdsEnd = true) (inside : i ≤ text.length)
    (spans : Spans text p i j) : j = text.length := by
  induction p generalizing i j with
  | empty => contradiction
  | char accepts => contradiction
  | assertion a =>
    cases a with
    | textEnd => exact (endHolds.mp spans).2
    | _ => contradiction
  | cat p q ihp ihq =>
    rw [holdsEnd, Bool.or_eq_true, Bool.and_eq_true] at held
    obtain ⟨k, first, last⟩ := spans
    rcases held with held | ⟨still, held⟩
    · exact ihq held (spansInside inside first) last
    · exact (stillStays still last).symm.trans (ihp held inside first)
  | alt p q ihp ihq =>
    rw [holdsEnd, Bool.and_eq_true] at held
    rcases spans with left | right
    · exact ihp held.1 inside left
    · exact ihq held.2 inside right
  | repeated p min max ih =>
    rw [holdsEnd, Bool.and_eq_true, decide_eq_true_eq] at held
    obtain ⟨n, enough, -, iterates⟩ := spans
    obtain ⟨n, rfl⟩ := Nat.exists_eq_add_of_le' (Nat.le_trans held.1 enough)
    obtain ⟨k, first, l, last, rfl⟩ := iteratesAdd.mp iterates
    have between : Spans text (.repeated p n (some n)) i k :=
      ⟨n, Nat.le_refl _, fun m same => .inl (Option.some.inj same ▸ Nat.le_refl _), first⟩
    exact ih held.2 (spansInside inside between) last

theorem heldWhole {p : Pattern} (start : p.holdsStart = true) (ends : p.holdsEnd = true) :
    p.MatchesWithin text ↔ p.MatchesWhole text := by
  constructor
  · rintro ⟨i, j, inside, spans⟩
    obtain rfl := startHeld start inside spans
    obtain rfl := endHeld ends inside spans
    exact spans
  · exact MatchesWhole.within

/-! The check. -/

theorem passesFound {pattern text : String} {q : Pattern} (anchors : parse (anchored pattern) = .ok q) :
    issue? pattern text = none ↔ q.MatchesWithin text.toList := by
  rw [issue?, anchors, verdict, ← foundIn]
  split <;> simp_all

/--
A pattern written between `^` and a last `$` is searched for as it is; every other one has to match the
whole text. The two are the same where each match of a kept pattern holds both ends of the text.
-/
theorem passesExactly {pattern : String} {p q : Pattern} (reads : parse pattern = .ok p)
    (anchors : parse (anchored pattern) = .ok q) (text : String) :
    (issue? pattern text = none ↔
      if isAnchored pattern.toList then p.MatchesWithin text.toList else p.MatchesWhole text.toList) ∧
    (isAnchored pattern.toList = false ∨ (p.holdsStart = true ∧ p.holdsEnd = true) →
      (issue? pattern text = none ↔ p.MatchesWhole text.toList)) := by
  rw [passesFound anchors]
  by_cases kept : isAnchored pattern.toList = true
  · obtain rfl : p = q := by
      rw [anchored, if_pos kept, reads] at anchors
      exact Except.ok.inj anchors
    rw [if_pos kept]
    refine ⟨Iff.rfl, ?_⟩
    rintro (wrapped | ⟨start, ends⟩)
    · rw [kept] at wrapped
      contradiction
    · exact heldWhole start ends
  · obtain rfl : q = fromEndToEnd p := by
      rw [anchored, if_neg kept] at anchors
      exact parseWithin reads anchors
    rw [if_neg kept, betweenEnds]
    exact ⟨Iff.rfl, fun _ => Iff.rfl⟩

theorem alternativesWhole : ∃ p q, parse "a|b+" = .ok p ∧ parse (anchored "a|b+") = .ok q ∧
    (issue? "a|b+" "ab" = none ↔ p.MatchesWhole "ab".toList) :=
  ⟨_, _, rfl, rfl, (passesExactly rfl rfl "ab").2 (.inl rfl)⟩

theorem keptWithin :
    (∃ p, parse "^a|b$" = .ok p ∧ parse (anchored "^a|b$") = .ok p ∧ issue? "^a|b$" "ab" = none ∧
      ¬ p.MatchesWhole "ab".toList) ∧
    ∃ p, parse "^a\\\\\\$" = .ok p ∧ parse (anchored "^a\\\\\\$") = .ok p ∧ issue? "^a\\\\\\$" "a\\$b" = none ∧
      ¬ p.MatchesWhole "a\\$b".toList := by
  refine ⟨⟨_, rfl, rfl, rfl, ?_⟩, ⟨_, rfl, rfl, rfl, ?_⟩⟩
  · rw [← matchesAllWhole]
    decide
  · rw [← matchesAllWhole]
    decide

end ShapeContracts.Pattern
