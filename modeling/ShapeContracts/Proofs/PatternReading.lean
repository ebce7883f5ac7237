import ShapeContracts.Pattern.Reader
import ShapeContracts.Proofs.PatternPieces

/-! Reading a pattern in a group between the ends of a text: the reader goes through the pattern as it goes
through it alone, so that the group holds the pattern read alone. -/
namespace ShapeContracts.Pattern

variable {f : Flags} {cs cs' : List Char}

/-! Groups. -/

theorem carriesFlags {seen : List Char} {on : Bool} (follows : Follows cs cs') :
    Carries id (readFlags seen on f cs) (readFlags seen on f cs') := by
  induction cs generalizing seen on f cs' with
  | nil => exact carriesThrow
  | cons c rest ih =>
    obtain ⟨rest', rfl, tail⟩ := followsCons follows
    simp only [readFlags]
    split
    · split
      · exact carriesThrow
      · exact carriesPure follows
    split
    · exact carriesThrow
    split
    · exact ih tail
    split
    · exact ih tail
    · exact carriesThrow

theorem carriesName (follows : Follows cs cs') : Carries id (readName cs) (readName cs') := by
  unfold readName
  rcases followsUntil (p := (· ≠ '>')) (by decide) follows with
    ⟨none, -⟩ | ⟨c, rest, rest', here, here', tail, name⟩
  · rw [none]
    split
    · contradiction
    · exact carriesThrow
  rw [here, here', name]
  cases cs.takeWhile (· ≠ '>') with
  | nil => exact carriesThrow
  | cons d name =>
    dsimp only
    split
    · exact carriesPure tail
    · exact carriesThrow

def Groups.within (frame : Frame) (g : Groups) : Groups := { g with outer := g.outer ++ [frame] }

variable {frame : Frame} {g : Groups}

theorem carriesNamed (follows : Follows cs cs') :
    Carries (Groups.within frame) (openNamed g cs) (openNamed (g.within frame) cs') := by
  unfold openNamed
  refine carriesBind (carriesName follows) ?_
  intro name rest rest' tail
  have known : (g.within frame).names = g.names := rfl
  dsimp only
  rw [known]
  split
  · exact carriesThrowBind
  · exact carriesPure tail

def openFlagged (g : Groups) (cs : List Char) : Except SyntaxError (Groups × List Char) := do
  match ← readFlags [] true g.flags cs with
  | ((f, _), ':' :: rest) => pure (g.openGroup f, rest)
  | ((f, seen), _ :: rest) =>
    if seen.isEmpty then throw .nothingToRepeat else pure (g.setFlags f, rest)
  | (_, []) => throw .invalidFlags

theorem carriesFlagged (follows : Follows cs cs') :
    Carries (Groups.within frame) (openFlagged g cs) (openFlagged (g.within frame) cs') := by
  unfold openFlagged
  refine carriesBind (carriesFlags follows) ?_
  intro read rest rest' tail
  rcases followsCases tail with ⟨rfl, -⟩ | ⟨c, more, more', rfl, rfl, past⟩
  · exact carriesThrow
  by_cases colon : c = ':'
  · subst colon
    exact carriesPure past
  · simp only
    split
    · exact carriesThrow
    · exact carriesPure past

theorem carriesOpening (follows : Follows cs cs') :
    Carries (Groups.within frame) (readOpening g cs) (readOpening (g.within frame) cs') := by
  have skipped := followsSkip g.flags follows
  have skipped' : skip (g.within frame).flags cs' = skip g.flags cs' := rfl
  unfold readOpening
  rw [skipped']
  rcases followsCases skipped with ⟨none, none' | none'⟩ | ⟨c, rest, rest', here, here', tail⟩
  · rw [none, none']
    exact carriesPure (.inr rfl)
  · rw [none, none']
    exact carriesPure (.inl rfl)
  rw [here, here']
  by_cases mark : c = '?'
  · subst mark
    rcases followsCases tail with ⟨rfl, -⟩ | ⟨d, more, more', rfl, rfl, past⟩
    · exact carriesThrow
    by_cases ahead : d = '='
    · subst ahead
      exact carriesThrow
    by_cases unahead : d = '!'
    · subst unahead
      exact carriesThrow
    by_cases angle : d = '<'
    · subst angle
      rcases followsCases past with ⟨rfl, -⟩ | ⟨e, last, last', rfl, rfl, -⟩
      · exact carriesThrow
      by_cases behind : e = '='
      · subst behind
        exact carriesThrow
      by_cases unbehind : e = '!'
      · subst unbehind
        exact carriesThrow
      · simp only [List.cons.injEq, behind, unbehind, false_and, imp_self, implies_true]
        exact carriesNamed past
    by_cases named : d = 'P'
    · subst named
      rcases followsCases past with ⟨rfl, -⟩ | ⟨e, last, last', rfl, rfl, name⟩
      · exact carriesThrow
      by_cases angle : e = '<'
      · subst angle
        exact carriesNamed name
      · simp only [List.cons.injEq, Char.reduceEq, angle, false_and, and_false, imp_self, implies_true]
        exact carriesFlagged tail
    · simp only [List.cons.injEq, ahead, unahead, angle, named, false_and, imp_self, implies_true]
      exact carriesFlagged tail
  · simp only [List.cons.injEq, mark, false_and, imp_self, implies_true]
    exact carriesPure (here ▸ here' ▸ skipped)

/-! Repetitions. -/

theorem carriesDigits {fuel fuel' : Nat} (taken : List Char) (follows : Follows cs cs')
    (room : cs.length ≤ fuel) (room' : cs'.length ≤ fuel') :
    ∃ rest', readDigits f fuel' taken cs' = ((readDigits f fuel taken cs).1, rest') ∧
      Follows (readDigits f fuel taken cs).2 rest' := by
  refine carriesWalk (f := f) Char.isDigit (fun taken c => c :: taken) List.reverse ?_ ?_ (by decide)
    follows room room'
  · intro fuel taken
    cases fuel <;> rfl
  · intro fuel taken c rest
    rfl

theorem carriesCount (follows : Follows cs cs') : Carries id (readCount f cs) (readCount f cs') := by
  have space : Unicode.isWhiteSpace ')' = false := by decide
  have spaced := followsDropWhile space follows
  obtain ⟨_, same, past⟩ := carriesDigits (f := f) [] spaced (Nat.le_refl _) (Nat.le_refl _)
  simp only [readCount, same]
  generalize readDigits f _ [] (cs.dropWhile Unicode.isWhiteSpace) = taken at past ⊢
  obtain ⟨digits, rest⟩ := taken
  dsimp only at past ⊢
  split
  · exact carriesThrow
  refine carriesPure ?_
  rcases followsCases past with ⟨rfl, rfl | rfl⟩ | ⟨c, more, more', rfl, rfl, tail⟩
  · exact .inr rfl
  · simpa [closing, space] using past
  · dsimp only
    split
    · exact followsSkip f (followsDropWhile space past)
    · exact past

theorem carriesCounts (follows : Follows cs cs') : Carries id (readCounts f cs) (readCounts f cs') := by
  unfold readCounts
  refine carriesBind (carriesCount (followsSkip f follows)) ?_
  intro min rest rest' tail
  dsimp only
  rcases followsCases tail with ⟨rfl, -⟩ | ⟨c, more, more', rfl, rfl, past⟩
  · exact carriesThrow
  by_cases close : c = '}'
  · subst close
    exact carriesPure past
  by_cases comma : c = ','
  · subst comma
    have skipped := followsSkip f past
    simp only
    rcases followsCases skipped with ⟨none, -⟩ | ⟨d, more, more', here, here', past⟩
    · rw [none]
      exact carriesThrow
    rw [here, here'] at skipped ⊢
    by_cases close : d = '}'
    · subst close
      exact carriesPure past
    · simp only [List.cons.injEq, close, false_and, imp_self, implies_true]
      refine carriesBind (carriesCount skipped) ?_
      intro max rest rest' tail
      dsimp only
      rcases followsCases tail with ⟨rfl, -⟩ | ⟨c, more, more', rfl, rfl, past⟩
      · exact carriesThrow
      by_cases close : c = '}'
      · subst close
        simp only
        split
        · exact carriesThrow
        · exact carriesPure past
      · simp only [List.cons.injEq, close, false_and, imp_self, implies_true]
        exact carriesThrow
  · simp only [List.cons.injEq, close, comma, false_and, imp_self, implies_true]
    exact carriesThrow

theorem followsLazy (follows : Follows cs cs') : Follows (dropLazyMark cs) (dropLazyMark cs') := by
  rcases followsCases follows with ⟨rfl, rfl | rfl⟩ | ⟨c, rest, rest', rfl, rfl, tail⟩
  · exact .inr rfl
  · exact .inl rfl
  by_cases mark : c = '?'
  · subst mark
    exact tail
  · simp only [dropLazyMark, List.cons.injEq, mark, false_and, imp_self, implies_true]
    exact follows

theorem carriesRepeat {min : Nat} {max : Option Nat} (follows : Follows cs cs') :
    Carries (Groups.within frame) (repeatLast g min max cs) (repeatLast (g.within frame) min max cs') := by
  refine carriesLift ?_
  intro repeated
  exact carriesPure (followsLazy follows)

theorem closeWithin {closed : Groups} (closes : g.closeGroup = .ok closed) :
    (g.within frame).closeGroup = .ok (closed.within frame) := by
  obtain ⟨current, outer, names⟩ := g
  cases outer with
  | nil => contradiction
  | cons last outer =>
    obtain rfl : _ = closed := Except.ok.inj closes
    rfl

theorem carriesToken (frame : Frame) {c : Char} (follows : Follows cs cs') :
    Carries (Groups.within frame) (readToken g c cs) (readToken (g.within frame) c cs') := by
  unfold readToken
  split
  · exact carriesOpening follows
  · intro g' rest read
    cases closed : g.closeGroup with
    | error e =>
      rw [closed] at read
      contradiction
    | ok g =>
      rw [closed] at read
      obtain ⟨rfl, rfl⟩ := read
      rw [closeWithin closed]
      exact ⟨cs', rfl, follows⟩
  · exact carriesPure follows
  · refine carriesBind (carriesClass follows) ?_
    intro s rest rest' tail
    exact carriesPure tail
  · exact carriesRepeat follows
  · exact carriesRepeat follows
  · exact carriesRepeat follows
  · refine carriesBind (carriesCounts follows) ?_
    intro counts rest rest' tail
    exact carriesRepeat (followsSkip _ tail)
  · refine carriesLift ?_
    intro s
    exact carriesPure follows
  · exact carriesPure follows
  · exact carriesPure follows
  · refine carriesBind (carriesEscape follows) ?_
    intro atom rest rest' tail
    refine carriesLift ?_
    intro p
    exact carriesPure tail
  · exact carriesPure follows

/-! The whole pattern. -/

theorem tokensEnd {fuel : Nat} (none : skip g.flags cs = []) : readTokens fuel g cs = g.finish := by
  rw [readTokens]
  exact none

theorem tokensNext {fuel : Nat} {c : Char} {rest : List Char} (here : skip g.flags cs = c :: rest) :
    readTokens (fuel + 1) g cs = readToken g c rest >>= fun next => readTokens fuel next.1 next.2 := by
  rw [readTokens.eq_def]
  simp only [here]

def fromEndToEnd (p : Pattern) : Pattern := .cat (.assertion .textStart) (.cat p (.cat (.assertion .textEnd) .empty))

def startFrame : Frame := (Frame.start .standard).push (.assertion .textStart)

theorem endRead (fuel : Nat) (p : Pattern) (names : List (List Char)) :
    readTokens (fuel + 1) ⟨startFrame.push p, [], names⟩ ['$'] = .ok (fromEndToEnd p) := by
  have here : skip (Groups.flags ⟨startFrame.push p, [], names⟩) ['$'] = '$' :: [] := rfl
  rw [tokensNext here]
  exact tokensEnd rfl

theorem finishWithin {fuel : Nat} {p q : Pattern} (none : skip g.flags cs = []) (follows : Follows cs cs')
    (ends : g.finish = .ok p) (read : readTokens (fuel + 2) (g.within startFrame) cs' = .ok q) :
    q = fromEndToEnd p := by
  have skipped := followsSkip g.flags follows
  obtain ⟨current, outer, names⟩ := g
  cases outer with
  | cons last outer => contradiction
  | nil =>
    obtain rfl := Except.ok.inj ends
    rw [none] at skipped
    rcases skipped with closed | swallowed
    · rw [tokensNext (g := Groups.within startFrame ⟨current, [], names⟩) closed] at read
      exact (Except.ok.inj ((endRead fuel current.pattern names).symm.trans read)).symm
    -- without its closing the group stays open, which the reader refuses
    · rw [tokensEnd (g := Groups.within startFrame ⟨current, [], names⟩) swallowed] at read
      contradiction

theorem tokensWithin {fuel fuel' : Nat} {p q : Pattern} (follows : Follows cs cs') (room : fuel + 2 ≤ fuel')
    (read : readTokens fuel g cs = .ok p) (read' : readTokens fuel' (g.within startFrame) cs' = .ok q) :
    q = fromEndToEnd p := by
  -- the two readers take the same tokens; two more close the group at the end
  induction fuel generalizing fuel' g cs cs' with
  | zero =>
    obtain ⟨fuel', rfl⟩ := Nat.exists_eq_add_of_le' room
    cases here : skip g.flags cs with
    | nil =>
      rw [tokensEnd here] at read
      exact finishWithin here follows read read'
    | cons c rest =>
      rw [readTokens.eq_def] at read
      simp only [here] at read
      contradiction
  | succ fuel ih =>
    obtain ⟨fuel', rfl⟩ := Nat.exists_eq_add_of_le' room
    rcases followsCases (followsSkip g.flags follows) with ⟨none, -⟩ | ⟨c, rest, rest', here, here', tail⟩
    · rw [tokensEnd none] at read
      exact finishWithin none follows read read'
    rw [tokensNext here] at read
    have one : fuel' + (fuel + 1 + 2) = fuel' + (fuel + 2) + 1 := by omega
    rw [one, tokensNext (g := g.within startFrame) here'] at read'
    cases token : readToken g c rest with
    | error e =>
      rw [token] at read
      contradiction
    | ok next =>
      obtain ⟨g, left⟩ := next
      obtain ⟨left', token', past⟩ := carriesToken startFrame tail g left token
      rw [token] at read
      rw [token'] at read'
      exact ih past (Nat.le_add_left _ _) read read'

theorem parseWithin {pattern : String} {p q : Pattern} (read : parse pattern = .ok p)
    (read' : parse ("^(?:" ++ pattern ++ ")$") = .ok q) : q = fromEndToEnd p := by
  have text : ("^(?:" ++ pattern ++ ")$").toList = '^' :: '(' :: '?' :: ':' :: (pattern.toList ++ closing) := by
    simp [closing]
  have length : ("^(?:" ++ pattern ++ ")$").length = pattern.length + 4 + 2 := by
    rw [String.length_append, String.length_append, show "^(?:".length = 4 from rfl, show ")$".length = 2 from rfl]
    omega
  rw [parse, text, length] at read'
  exact tokensWithin (.inl rfl) (by omega) read read'

end ShapeContracts.Pattern
