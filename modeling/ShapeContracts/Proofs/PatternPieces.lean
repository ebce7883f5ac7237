import ShapeContracts.Pattern.Bracket

/-! A group around a pattern is closed behind it, and a comment may swallow what closes it. The readers of
escapes and classes that succeed on a pattern go the same way with the closing behind it. -/
namespace ShapeContracts.Pattern

def closing : List Char := [')', '$']

/-- The same text with the closing behind it, or without it where a comment has swallowed it. -/
def Follows (cs cs' : List Char) : Prop := cs' = cs ++ closing ∨ cs' = cs

def Carries (view : α → β) (x : Except SyntaxError (α × List Char)) (x' : Except SyntaxError (β × List Char)) :
    Prop :=
  ∀ a rest, x = .ok (a, rest) → ∃ rest', x' = .ok (view a, rest') ∧ Follows rest rest'

variable {f : Flags} {cs cs' : List Char}

theorem followsCons {c : Char} {rest : List Char} (follows : Follows (c :: rest) cs') :
    ∃ rest', cs' = c :: rest' ∧ Follows rest rest' := by
  rcases follows with rfl | rfl
  · exact ⟨_, rfl, .inl rfl⟩
  · exact ⟨_, rfl, .inr rfl⟩

theorem followsCases (follows : Follows cs cs') :
    (cs = [] ∧ (cs' = [] ∨ cs' = closing)) ∨
      ∃ c rest rest', cs = c :: rest ∧ cs' = c :: rest' ∧ Follows rest rest' := by
  cases cs with
  | nil =>
    rcases follows with rfl | rfl
    · exact .inl ⟨rfl, .inr rfl⟩
    · exact .inl ⟨rfl, .inl rfl⟩
  | cons c rest =>
    obtain ⟨rest', same, tail⟩ := followsCons follows
    exact .inr ⟨c, rest, rest', rfl, same, tail⟩

theorem followsLength (follows : Follows cs cs') : cs.length ≤ cs'.length := by
  rcases follows with rfl | rfl <;> simp

theorem followsSkip (f : Flags) (follows : Follows cs cs') : Follows (skip f cs) (skip f cs') := by
  rcases follows with rfl | rfl
  · unfold skip
    split
    · have skipped : ∀ comment, Follows (skipVerbose comment cs) (skipVerbose comment (cs ++ closing)) := by
        induction cs with
        | nil =>
          rintro (_ | _)
          · exact .inl rfl
          · exact .inr rfl
        | cons c rest ih =>
          rintro (_ | _)
          · simp only [List.cons_append, skipVerbose]
            split
            · exact ih false
            split
            · exact ih true
            · exact .inl rfl
          · exact ih _
      exact skipped false
    · exact .inl rfl
  · exact .inr rfl

theorem skipLength (f : Flags) (cs : List Char) : (skip f cs).length ≤ cs.length := by
  unfold skip
  split
  · have skipped : ∀ comment, (skipVerbose comment cs).length ≤ cs.length := by
      induction cs with
      | nil => exact fun comment => Nat.le_refl _
      | cons c rest ih =>
        rintro (_ | _)
        · rw [skipVerbose]
          split
          · exact Nat.le_succ_of_le (ih false)
          split
          · exact Nat.le_succ_of_le (ih true)
          · exact Nat.le_refl _
        · exact Nat.le_succ_of_le (ih _)
    exact skipped false
  · exact Nat.le_refl _

section Carries

variable {view : α → β}

theorem carriesThrow {e : SyntaxError} {x' : Except SyntaxError (β × List Char)} : Carries view (throw e) x' := by
  intro a rest same
  contradiction

theorem carriesPure {a : α} (follows : Follows cs cs') : Carries view (pure (a, cs)) (pure (view a, cs')) := by
  rintro a rest ⟨⟩
  exact ⟨cs', rfl, follows⟩

theorem carriesThrowBind {e : SyntaxError} {k : γ → Except SyntaxError (α × List Char)}
    {x' : Except SyntaxError (β × List Char)} : Carries view (throw e >>= k) x' := by
  intro a rest same
  contradiction

theorem carriesBind {x x' : Except SyntaxError (γ × List Char)}
    {k : γ × List Char → Except SyntaxError (α × List Char)}
    {k' : γ × List Char → Except SyntaxError (β × List Char)} (first : Carries id x x')
    (next : ∀ c rest rest', Follows rest rest' → Carries view (k (c, rest)) (k' (c, rest'))) :
    Carries view (x >>= k) (x' >>= k') := by
  intro a rest same
  cases x with
  | error e => contradiction
  | ok read =>
    obtain ⟨c, middle⟩ := read
    obtain ⟨middle', rfl, follows⟩ := first c middle rfl
    exact next c middle middle' follows a rest same

theorem carriesLift {x : Except SyntaxError γ} {k : γ → Except SyntaxError (α × List Char)}
    {k' : γ → Except SyntaxError (β × List Char)} (next : ∀ c, Carries view (k c) (k' c)) :
    Carries view (x >>= k) (x >>= k') := by
  intro a rest same
  cases x with
  | error e => contradiction
  | ok c => exact next c a rest same

end Carries

theorem carriesWalk {walk : Nat → σ → List Char → τ × List Char} (goes : Char → Bool) (next : σ → Char → σ)
    (out : σ → τ) (rests : ∀ fuel s, walk fuel s [] = (out s, []))
    (walks : ∀ fuel s c rest, walk (fuel + 1) s (c :: rest) =
      if goes c then walk fuel (next s c) (skip f rest) else (out s, c :: rest))
    (closes : goes ')' = false) {fuel fuel' : Nat} {s : σ} (follows : Follows cs cs')
    (room : cs.length ≤ fuel) (room' : cs'.length ≤ fuel') :
    ∃ rest', walk fuel' s cs' = ((walk fuel s cs).1, rest') ∧ Follows (walk fuel s cs).2 rest' := by
  induction fuel' generalizing fuel s cs cs' with
  | zero =>
    obtain rfl : cs' = [] := List.eq_nil_of_length_eq_zero (Nat.le_zero.mp room')
    obtain rfl : cs = [] := List.eq_nil_of_length_eq_zero (Nat.le_zero.mp (followsLength follows))
    rw [rests, rests]
    exact ⟨_, rfl, follows⟩
  | succ fuel' ih =>
    rcases followsCases follows with ⟨rfl, rfl | rfl⟩ | ⟨c, rest, rest', rfl, rfl, tail⟩
    · rw [rests, rests]
      exact ⟨_, rfl, follows⟩
    · rw [rests, closing, walks, closes]
      exact ⟨_, rfl, follows⟩
    · obtain ⟨fuel, rfl⟩ := Nat.exists_eq_add_of_le' (Nat.le_trans (Nat.succ_pos _) room)
      rw [walks, walks]
      split
      · have shorter := skipLength f rest
        have shorter' := skipLength f rest'
        simp only [List.length_cons] at room room'
        exact ih (followsSkip f tail) (by omega) (by omega)
      · exact ⟨_, rfl, follows⟩

/-! Escapes. -/

theorem carriesHexDigits {n value : Nat} (follows : Follows cs cs') :
    Carries id (readHexDigits f n value cs) (readHexDigits f n value cs') := by
  induction n generalizing value cs cs' with
  | zero => exact carriesPure follows
  | succ n ih =>
    cases cs with
    | nil => exact carriesThrow
    | cons c rest =>
      obtain ⟨rest', rfl, tail⟩ := followsCons follows
      simp only [readHexDigits]
      split
      · exact ih (followsSkip f tail)
      · exact carriesThrow

theorem carriesBraced {fuel fuel' : Nat} {taken : List Char} (follows : Follows cs cs') (room : fuel ≤ fuel') :
    Carries id (readBraced f fuel taken cs) (readBraced f fuel' taken cs') := by
  induction fuel generalizing fuel' taken cs cs' with
  | zero => exact carriesThrow
  | succ fuel ih =>
    obtain ⟨fuel', rfl⟩ := Nat.exists_eq_add_of_le' room
    simp only [readBraced]
    rcases followsCases (followsSkip f follows) with ⟨none, -⟩ | ⟨c, rest, rest', here, here', tail⟩
    · rw [none]
      exact carriesThrow
    rw [here, here']
    by_cases close : c = '}'
    · subst close
      exact carriesPure tail
    · simp only
      exact ih tail (Nat.le_of_succ_le_succ room)

theorem carriesCode {letter : Char} (follows : Follows cs cs') :
    Carries id (readCode f letter cs) (readCode f letter cs') := by
  have skipped := followsSkip f follows
  unfold readCode
  rcases followsCases skipped with ⟨none, -⟩ | ⟨c, rest, rest', here, here', tail⟩
  · rw [none]
    exact carriesThrow
  rw [here, here'] at skipped ⊢
  by_cases brace : c = '{'
  · subst brace
    refine carriesBind (carriesBraced tail (Nat.succ_le_succ (followsLength tail))) ?_
    intro digits rest rest' tail
    dsimp only
    cases digits.mapM hexValue? with
    | none => exact carriesThrow
    | some values =>
      cases values with
      | nil => exact carriesThrow
      | cons d ds =>
        dsimp only
        split
        · exact carriesPure (followsSkip f tail)
        · exact carriesThrow
  · simp only [brace, List.cons.injEq, false_and, imp_self, implies_true]
    refine carriesBind (carriesHexDigits skipped) ?_
    intro value rest rest' tail
    dsimp only
    split
    · exact carriesThrowBind
    split
    · exact carriesPure tail
    · exact carriesThrow

theorem carriesProperty {negated : Bool} (follows : Follows cs cs') :
    Carries id (readProperty f negated cs) (readProperty f negated cs') := by
  unfold readProperty
  rcases followsCases (followsSkip f follows) with ⟨none, -⟩ | ⟨c, rest, rest', here, here', tail⟩
  · rw [none]
    exact carriesThrowBind
  rw [here, here']
  by_cases escape : c = '\\'
  · subst escape
    exact carriesThrowBind
  by_cases brace : c = '{'
  case' pos =>
    subst brace
    refine carriesBind (carriesBraced tail (Nat.succ_le_succ (followsLength tail))) ?_
  case' neg =>
    simp only
    refine carriesBind (carriesPure (followsSkip f tail)) ?_
  all_goals
    intro name rest rest' tail
    dsimp only
    split
    · exact carriesThrowBind
    split
    · exact carriesPure tail
    · exact carriesThrow

theorem carriesBoundaryName {fuel fuel' : Nat} (taken : List Char) (follows : Follows cs cs')
    (room : cs.length ≤ fuel) (room' : cs'.length ≤ fuel') :
    ∃ rest', readBoundaryName f fuel' taken cs' = ((readBoundaryName f fuel taken cs).1, rest') ∧
      Follows (readBoundaryName f fuel taken cs).2 rest' := by
  refine carriesWalk (f := f) isBoundaryLetter (fun taken c => c :: taken) List.reverse ?_ ?_ (by decide)
    follows room room'
  · intro fuel taken
    cases fuel <;> rfl
  · intro fuel taken c rest
    rfl

theorem carriesBoundary (follows : Follows cs cs') :
    Carries id (readBoundary f cs) (readBoundary f cs') := by
  rcases followsCases follows with ⟨rfl, rfl | rfl⟩ | ⟨c, rest, rest', rfl, rfl, tail⟩
  · exact carriesPure (.inr rfl)
  · exact carriesPure (.inl rfl)
  by_cases brace : c = '{'
  · subst brace
    simp only [readBoundary]
    rcases followsCases (followsSkip f tail) with ⟨none, -⟩ | ⟨c, more, more', here, here', -⟩
    · rw [none]
      exact carriesThrow
    have named := carriesBoundaryName (f := f) [] (followsSkip f tail) (skipLength f rest) (skipLength f rest')
    rw [here, here'] at named ⊢
    dsimp only
    split
    · obtain ⟨_, same, tail⟩ := named
      rw [same]
      generalize readBoundaryName f rest.length [] (c :: more) = taken at tail ⊢
      obtain ⟨name, _⟩ := taken
      dsimp only at tail ⊢
      rcases followsCases tail with ⟨none, -⟩ | ⟨c, rest, rest', rfl, rfl, past⟩
      · rw [none]
        exact carriesThrow
      by_cases close : c = '}'
      · subst close
        simp only
        split
        · exact carriesPure past
        · exact carriesThrow
      · simp only [Prod.mk.injEq, List.cons.injEq, close, false_and, and_false, imp_self, implies_true]
        exact carriesThrow
    · exact carriesPure follows
  · simp only [readBoundary, List.cons.injEq, brace, false_and, imp_self, implies_true]
    exact carriesPure follows

theorem carriesEscape (follows : Follows cs cs') :
    Carries id (readEscape f cs) (readEscape f cs') := by
  rcases followsCases follows with ⟨rfl, -⟩ | ⟨c, rest, rest', rfl, rfl, tail⟩
  · exact carriesThrow
  unfold readEscape
  dsimp only
  split
  · exact carriesThrow
  split
  · refine carriesBind (carriesCode tail) ?_
    intro d rest rest' tail
    exact carriesPure tail
  split
  · refine carriesBind (carriesProperty tail) ?_
    intro s rest rest' tail
    exact carriesPure tail
  split
  · exact carriesPure tail
  split
  · exact carriesPure tail
  split
  all_goals first | exact carriesPure tail | exact carriesBoundary tail | exact carriesThrow

/-! Bracketed classes. -/

theorem carriesClassAtom (follows : Follows cs cs') :
    Carries id (readClassAtom f cs) (readClassAtom f cs') := by
  rcases followsCases follows with ⟨rfl, -⟩ | ⟨c, rest, rest', rfl, rfl, tail⟩
  · exact carriesThrow
  by_cases escape : c = '\\'
  · subst escape
    exact carriesEscape tail
  · simp only [readClassAtom]
    exact carriesPure tail

theorem followsDropWhile {p : Char → Bool} (stops : p ')' = false) (follows : Follows cs cs') :
    Follows (cs.dropWhile p) (cs'.dropWhile p) := by
  rcases follows with rfl | rfl
  · rw [List.dropWhile_append]
    split
    · rename_i none
      rw [List.isEmpty_iff.mp none]
      exact .inl (by simp [closing, stops])
    · exact .inl rfl
  · exact .inr rfl

theorem followsHead (follows : Follows cs cs') {mark : Char} (other : mark ≠ ')') :
    cs'.head? = some mark ↔ cs.head? = some mark := by
  rcases followsCases follows with ⟨rfl, rfl | rfl⟩ | ⟨c, rest, rest', rfl, rfl, -⟩
  · rfl
  · simp [closing, other.symm]
  · rfl

theorem followingSame {c : Char} (follows : Follows cs cs') {mark : Char} (other : mark ≠ ')') :
    following? f (c :: cs') = some mark ↔ following? f (c :: cs) = some mark := by
  have space : Unicode.isWhiteSpace ')' = false := by decide
  simp only [following?, List.drop_succ_cons, List.drop_zero]
  split
  · have skipped := followsDropWhile space follows
    rcases followsCases skipped with ⟨none, none' | none'⟩ | ⟨d, rest, rest', here, here', tail⟩
    · rw [none, none']
    · rw [none, none']
      have ends : Follows [] closing := .inl rfl
      exact followsHead ends other
    · rw [here, here']
      by_cases comment : d = '#'
      · subst comment
        exact followsHead (followsDropWhile space tail) other
      · simp only [List.cons.injEq, comment, false_and, imp_self, implies_true]
        rfl
  · exact followsHead follows other

theorem carriesItem (follows : Follows cs cs') : Carries id (readItem f cs) (readItem f cs') := by
  unfold readItem
  refine carriesBind (carriesClassAtom follows) ?_
  intro first rest rest' tail
  dsimp only
  rcases followsCases (followsSkip f tail) with ⟨none, -⟩ | ⟨c, more, more', here, here', past⟩
  · rw [none]
    exact carriesThrow
  have skipped := followsSkip f tail
  rw [here, here'] at skipped ⊢
  by_cases hyphen : c = '-'
  · subst hyphen
    simp only [followingSame past (show ']' ≠ ')' by decide), followingSame past (show '-' ≠ ')' by decide)]
    split
    · refine carriesLift ?_
      intro s
      exact carriesPure skipped
    · refine carriesBind (carriesClassAtom (followsSkip f past)) ?_
      intro last rest rest' tail
      refine carriesLift ?_
      intro lo
      refine carriesLift ?_
      intro hi
      dsimp only
      split
      · exact carriesThrowBind
      · refine carriesLift ?_
        intro s
        exact carriesPure tail
  · simp only [hyphen, List.cons.injEq, false_and, imp_self, implies_true]
    refine carriesLift ?_
    intro s
    exact carriesPure skipped

theorem carriesHyphens {fuel fuel' : Nat} (items : Items) (follows : Follows cs cs')
    (room : cs.length ≤ fuel) (room' : cs'.length ≤ fuel') :
    ∃ rest', readHyphens f fuel' items cs' = ((readHyphens f fuel items cs).1, rest') ∧
      Follows (readHyphens f fuel items cs).2 rest' := by
  refine carriesWalk (f := f) (· == '-') (fun items _ => items.add (.single '-')) id ?_ ?_ (by decide)
    follows room room'
  · intro fuel items
    cases fuel <;> rfl
  · intro fuel items c rest
    by_cases hyphen : c = '-'
    · subst hyphen
      rfl
    · simp [readHyphens, hyphen]

def openBody (f : Flags) (negated : Bool) (cs : List Char) : Bool × Items × List Char :=
  match readHyphens f cs.length .empty cs with
  | (items, ']' :: rest) =>
    if cs.head? = some ']' then (negated, items.add (.single ']'), skip f rest)
    else (negated, items, ']' :: rest)
  | (items, rest) => (negated, items, rest)

theorem openClassCaret {rest : List Char} (here : skip f cs = '^' :: rest) :
    openClass f cs = openBody f true (skip f rest) := by
  simp only [openClass, here]
  rfl

theorem openClassPlain (plain : ∀ rest, skip f cs ≠ '^' :: rest) :
    openClass f cs = openBody f false (skip f cs) := by
  have other (rest : List Char) (caret : skip f cs = '^' :: rest) : False := plain rest caret
  simp only [openClass]
  rfl

theorem carriesOpenBody {negated : Bool} (follows : Follows cs cs') : ∃ rest',
    openBody f negated cs' = ((openBody f negated cs).1, (openBody f negated cs).2.1, rest') ∧
      Follows (openBody f negated cs).2.2 rest' := by
  obtain ⟨_, same, past⟩ := carriesHyphens (f := f) .empty follows (Nat.le_refl _) (Nat.le_refl _)
  have first := followsHead follows (show ']' ≠ ')' by decide)
  simp only [openBody, same, first]
  generalize readHyphens f cs.length .empty cs = taken at past ⊢
  obtain ⟨items, rest⟩ := taken
  rcases followsCases past with ⟨rfl, rfl | rfl⟩ | ⟨d, more, more', rfl, rfl, tail⟩
  · exact ⟨_, rfl, .inr rfl⟩
  · exact ⟨_, rfl, .inl rfl⟩
  by_cases close : d = ']'
  · subst close
    simp only
    split
    · exact ⟨_, rfl, followsSkip f tail⟩
    · exact ⟨_, rfl, past⟩
  · simp only [Prod.mk.injEq, List.cons.injEq, close, false_and, imp_self, implies_true]
    exact ⟨_, ⟨trivial, trivial, rfl⟩, past⟩

theorem carriesOpenClass (follows : Follows cs cs') : ∃ rest',
    openClass f cs' = ((openClass f cs).1, (openClass f cs).2.1, rest') ∧ Follows (openClass f cs).2.2 rest' := by
  have skipped := followsSkip f follows
  rcases followsCases skipped with ⟨none, none' | none'⟩ | ⟨c, rest, rest', here, here', tail⟩
  · rw [openClassPlain (by simp [none']), openClassPlain (by simp [none])]
    exact carriesOpenBody skipped
  · rw [openClassPlain (by simp [none', closing]), openClassPlain (by simp [none])]
    exact carriesOpenBody skipped
  by_cases caret : c = '^'
  · subst caret
    rw [openClassCaret here, openClassCaret here']
    exact carriesOpenBody (followsSkip f tail)
  · rw [openClassPlain (by simp [here', caret]), openClassPlain (by simp [here, caret])]
    exact carriesOpenBody skipped

theorem followsUntil {p : Char → Bool} (goes : p ')' = true ∧ p '$' = true) (follows : Follows cs cs') :
    (cs.dropWhile p = [] ∧ cs'.dropWhile p = []) ∨
      ∃ c rest rest', cs.dropWhile p = c :: rest ∧ cs'.dropWhile p = c :: rest' ∧ Follows rest rest' ∧
        cs'.takeWhile p = cs.takeWhile p := by
  -- a name ends at a mark; where the text has none, the closing has none either
  rcases follows with rfl | rfl
  · cases left : cs.dropWhile p with
    | nil => exact .inl ⟨rfl, by rw [List.dropWhile_append, left]; simp [closing, goes]⟩
    | cons c rest =>
      refine .inr ⟨c, rest, rest ++ closing, rfl, ?_, .inl rfl, ?_⟩
      · rw [List.dropWhile_append, left]
        rfl
      · rw [List.takeWhile_append, if_neg]
        intro all
        have whole := List.takeWhile_append_dropWhile (p := p) (l := cs)
        rw [left] at whole
        have := congrArg List.length whole
        rw [List.length_append, List.length_cons] at this
        omega
  · cases left : cs'.dropWhile p with
    | nil => exact .inl ⟨rfl, rfl⟩
    | cons c rest => exact .inr ⟨c, rest, rest, rfl, rfl, .inr rfl, rfl⟩

def asciiNamed? (f : Flags) (negated : Bool) (cs : List Char) : Option (CharSet × List Char) :=
  match cs.dropWhile (· ≠ ':') with
  | ':' :: ']' :: rest => do
    let s ← CharSet.ofAsciiName? (String.ofList (cs.takeWhile (· ≠ ':')))
    some ((f.fold s).negateIf negated, rest)
  | _ => none

theorem asciiClassCaret {rest : List Char} : asciiClass? f (':' :: '^' :: rest) = asciiNamed? f true rest := rfl

theorem asciiClassPlain {rest : List Char} (plain : ∀ more, rest ≠ '^' :: more) :
    asciiClass? f (':' :: rest) = asciiNamed? f false rest := by
  have other (more : List Char) (caret : rest = '^' :: more) : False := plain more caret
  simp only [asciiClass?]
  rfl

theorem carriesAsciiNamed {negated : Bool} (follows : Follows cs cs') :
    (asciiNamed? f negated cs = none ∧ asciiNamed? f negated cs' = none) ∨
      ∃ s rest rest', asciiNamed? f negated cs = some (s, rest) ∧ asciiNamed? f negated cs' = some (s, rest') ∧
        Follows rest rest' := by
  unfold asciiNamed?
  rcases followsUntil (p := (· ≠ ':')) (by decide) follows with
    ⟨none, none'⟩ | ⟨c, rest, rest', here, here', tail, name⟩
  · rw [none, none']
    exact .inl ⟨rfl, rfl⟩
  rw [here, here', name]
  by_cases colon : c = ':'
  · subst colon
    rcases followsCases tail with ⟨rfl, rfl | rfl⟩ | ⟨d, more, more', rfl, rfl, past⟩
    · exact .inl ⟨rfl, rfl⟩
    · exact .inl ⟨rfl, rfl⟩
    by_cases close : d = ']'
    · subst close
      simp only
      cases CharSet.ofAsciiName? (String.ofList (cs.takeWhile (· ≠ ':'))) with
      | none => exact .inl ⟨rfl, rfl⟩
      | some s => exact .inr ⟨_, _, _, rfl, rfl, past⟩
    · simp only [List.cons.injEq, close, false_and, and_false, imp_self, implies_true, and_self, true_or]
  · simp only [List.cons.injEq, colon, false_and, imp_self, implies_true, and_self, true_or]

theorem carriesAsciiClass (follows : Follows cs cs') :
    (asciiClass? f cs = none ∧ asciiClass? f cs' = none) ∨
      ∃ s rest rest', asciiClass? f cs = some (s, rest) ∧ asciiClass? f cs' = some (s, rest') ∧
        Follows rest rest' := by
  rcases followsCases follows with ⟨rfl, rfl | rfl⟩ | ⟨c, rest, rest', rfl, rfl, tail⟩
  · exact .inl ⟨rfl, rfl⟩
  · exact .inl ⟨rfl, rfl⟩
  by_cases colon : c = ':'
  · subst colon
    rcases followsCases tail with ⟨rfl, rfl | rfl⟩ | ⟨d, more, more', rfl, rfl, past⟩
    · exact .inl ⟨rfl, rfl⟩
    · exact .inl ⟨rfl, rfl⟩
    by_cases caret : d = '^'
    · subst caret
      rw [asciiClassCaret, asciiClassCaret]
      exact carriesAsciiNamed past
    · rw [asciiClassPlain (by simp [caret]), asciiClassPlain (by simp [caret])]
      exact carriesAsciiNamed tail
  · refine .inl ⟨?_, ?_⟩ <;> simp [asciiClass?, colon]

theorem itemsPlain {fuel : Nat} {outer : List (Bool × Items)} {negated : Bool} {items : Items} {c : Char}
    {rest : List Char} (here : skip f cs = c :: rest) (start : c ≠ '[') (stop : c ≠ ']')
    (single : ∀ more, rest = c :: more → ¬ (c = '&' ∨ c = '-' ∨ c = '~')) :
    readItems f (fuel + 1) outer negated items cs =
      readItem f (c :: rest) >>= fun r => readItems f fuel outer negated (items.add r.1) r.2 := by
  have apart {mark : Char} (operator : mark = '&' ∨ mark = '-' ∨ mark = '~') (more : List Char) (same : c = mark)
      (same' : rest = mark :: more) : False := single more (same ▸ same') (same ▸ operator)
  have unjoined := apart (.inl rfl)
  have undiffered := apart (.inr (.inl rfl))
  have undistinguished := apart (.inr (.inr rfl))
  simp only [readItems, here]

theorem carriesItems {fuel fuel' : Nat} {outer : List (Bool × Items)} {negated : Bool} {items : Items}
    (follows : Follows cs cs') (room : fuel ≤ fuel') :
    Carries id (readItems f fuel outer negated items cs) (readItems f fuel' outer negated items cs') := by
  induction fuel generalizing fuel' outer negated items cs cs' with
  | zero => exact carriesThrow
  | succ fuel ih =>
    obtain ⟨fuel', rfl⟩ := Nat.exists_eq_add_of_le' room
    have enough : fuel ≤ fuel' + fuel := Nat.le_of_succ_le_succ room
    have skipped := followsSkip f follows
    rcases followsCases skipped with ⟨none, -⟩ | ⟨c, rest, rest', here, here', tail⟩
    · rw [readItems, none]
      exact carriesThrow
    by_cases start : c = '['
    · subst start
      rw [← Nat.add_assoc, readItems, readItems, here, here']
      simp only
      rcases carriesAsciiClass (f := f) tail with ⟨none, none'⟩ | ⟨s, rest, rest', named, named', past⟩
      · rw [none, none']
        obtain ⟨rest', same, past⟩ := carriesOpenClass (f := f) tail
        rw [same]
        exact ih past enough
      · rw [named, named']
        exact carriesLift (fun s => ih past enough)
    by_cases stop : c = ']'
    · subst stop
      rw [← Nat.add_assoc, readItems, readItems, here, here']
      refine carriesLift ?_
      intro s
      cases outer with
      | nil => exact carriesPure tail
      | cons last outer => exact ih tail enough
    have plain (single : ∀ more, rest = c :: more → ¬ (c = '&' ∨ c = '-' ∨ c = '~'))
        (single' : ∀ more, rest' = c :: more → ¬ (c = '&' ∨ c = '-' ∨ c = '~')) :
        Carries id (readItems f (fuel + 1) outer negated items cs)
          (readItems f (fuel' + (fuel + 1)) outer negated items cs') := by
      rw [← Nat.add_assoc, itemsPlain here start stop single, itemsPlain here' start stop single']
      refine carriesBind (carriesItem (here ▸ here' ▸ skipped)) ?_
      intro s rest rest' tail
      exact ih tail enough
    -- an operator is two marks, and the closing holds none of them
    rcases followsCases tail with ⟨rfl, rfl | rfl⟩ | ⟨d, more, more', rfl, rfl, past⟩
    · exact plain (by simp) (by simp)
    · refine plain (by simp) ?_
      rintro more ⟨⟩
      decide
    by_cases both : d = c ∧ (c = '&' ∨ c = '-' ∨ c = '~')
    · rw [← Nat.add_assoc, readItems, readItems, here, here']
      obtain ⟨rfl, rfl | rfl | rfl⟩ := both
      · exact ih past enough
      · exact ih past enough
      · exact ih past enough
    · refine plain ?_ ?_
      · rintro _ ⟨⟩ operator
        exact both ⟨rfl, operator⟩
      · rintro _ ⟨⟩ operator
        exact both ⟨rfl, operator⟩

theorem carriesClass (follows : Follows cs cs') : Carries id (readClass f cs) (readClass f cs') := by
  obtain ⟨rest', same, tail⟩ := carriesOpenClass (f := f) follows
  simp only [readClass, same]
  exact carriesItems tail (Nat.succ_le_succ (followsLength tail))

end ShapeContracts.Pattern
