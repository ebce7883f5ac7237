import ShapeContracts.Fragment.Printer

/-! Reading code for its strings, comments and brackets. A text is closed when it ends outside of strings and
comments with every bracket matched; what is closed may stand anywhere in code without changing how
the rest is read. -/
namespace ShapeContracts.Scanner

inductive Mode where
  | code
  /-- After a slash that may begin a comment. -/
  | slash
  | string
  /-- After a backslash of a string. -/
  | escaped
  | comment
  /-- After an asterisk that may end a comment. -/
  | star
  deriving DecidableEq

structure State where
  mode : Mode
  pending : List Char
  deriving DecidableEq

def start : State := ⟨.code, []⟩

def close (c : Char) : List Char → Option State
  | [] => none
  | d :: rest => if c = d then some ⟨.code, rest⟩ else none

/- Other kinds of literals, slashes that begin no comment and strings over a line end are refused, so that what
is read is read as the language reads it. -/
def inCode (pending : List Char) (c : Char) : Option State :=
  match c with
  | '"' => some ⟨.string, pending⟩
  | '/' => some ⟨.slash, pending⟩
  | '(' => some ⟨.code, ')' :: pending⟩
  | '[' => some ⟨.code, ']' :: pending⟩
  | '{' => some ⟨.code, '}' :: pending⟩
  | ')' | ']' | '}' => close c pending
  | '\x27' | '\x60' => none
  | _ => some ⟨.code, pending⟩

def inString (pending : List Char) (c : Char) : Option State :=
  match c with
  | '"' => some ⟨.code, pending⟩
  | '\\' => some ⟨.escaped, pending⟩
  | '\n' | '\r' => none
  | _ => some ⟨.string, pending⟩

def inComment (pending : List Char) (c : Char) : State := ⟨if c = '*' then .star else .comment, pending⟩

def step (s : State) (c : Char) : Option State :=
  match s.mode with
  | .code => inCode s.pending c
  | .slash => if c = '*' then some ⟨.comment, s.pending⟩ else none
  | .string => inString s.pending c
  | .escaped => some ⟨.string, s.pending⟩
  | .comment => some (inComment s.pending c)
  | .star => if c = '/' then some ⟨.code, s.pending⟩ else some (inComment s.pending c)

def run (s : State) : List Char → Option State
  | [] => some s
  | c :: rest => (step s c).bind (fun next => run next rest)

/-- Read from the start, the text ends outside of strings and comments, and no closing bracket is missing. -/
def Closed (cs : List Char) : Prop := run start cs = some start

instance (cs : List Char) : Decidable (Closed cs) := inferInstanceAs (Decidable (run start cs = some start))

variable {s t : State} {cs ds : List Char}

theorem runAppend (s : State) (cs ds : List Char) :
    run s (cs ++ ds) = (run s cs).bind (fun next => run next ds) := by
  induction cs generalizing s with
  | nil => rfl
  | cons c rest ih =>
    simp only [List.cons_append, run, ih, Option.bind_assoc]

theorem runOnto (first : run s cs = some t) (ds : List Char) : run s (cs ++ ds) = run t ds := by
  rw [runAppend, first, Option.bind_some]

theorem runFlatMap {α : Type} {xs : List α} {f : α → List Char} (each : ∀ x ∈ xs, run s (f x) = some s) :
    run s (xs.flatMap f) = some s := by
  induction xs with
  | nil => rfl
  | cons x rest ih =>
    rw [List.flatMap_cons, runOnto (each x List.mem_cons_self)]
    exact ih (fun y mem => each y (List.mem_cons_of_mem _ mem))

def State.above (s : State) (below : List Char) : State := ⟨s.mode, s.pending ++ below⟩

theorem closeAbove {c : Char} {pending : List Char} (closes : close c pending = some t) (below : List Char) :
    close c (pending ++ below) = some (t.above below) := by
  cases pending with
  | nil => exact nomatch closes
  | cons d rest =>
    rw [close] at closes
    rw [List.cons_append, close]
    split at closes
    · rename_i same
      cases closes
      exact if_pos same
    · exact nomatch closes

theorem stepAbove {c : Char} (steps : step s c = some t) (below : List Char) :
    step (s.above below) c = some (t.above below) := by
  obtain ⟨mode, pending⟩ := s
  cases mode with
  | code =>
    simp only [step, inCode, State.above] at steps ⊢
    split at steps
    case h_6 | h_7 | h_8 => exact closeAbove steps below
    case h_9 | h_10 => exact nomatch steps
    all_goals
      cases steps
      rfl
  | string =>
    simp only [step, inString, State.above] at steps ⊢
    split at steps
    case h_3 | h_4 => exact nomatch steps
    all_goals
      cases steps
      rfl
  | slash =>
    simp only [step, State.above] at steps ⊢
    split at steps
    · rename_i opens
      cases steps
      exact if_pos opens
    · exact nomatch steps
  | escaped | comment =>
    cases steps
    rfl
  | star =>
    simp only [step, State.above] at steps ⊢
    split at steps
    · rename_i closes
      cases steps
      exact if_pos closes
    · rename_i goes
      cases steps
      exact if_neg goes

theorem runAbove (runs : run s cs = some t) (below : List Char) :
    run (s.above below) cs = some (t.above below) := by
  induction cs generalizing s with
  | nil =>
    cases runs
    rfl
  | cons c rest ih =>
    obtain ⟨next, steps, later⟩ := Option.bind_eq_some_iff.mp runs
    rw [run, stepAbove steps below, Option.bind_some]
    exact ih later

theorem closedWithin (closed : Closed cs) (pending : List Char) :
    run ⟨.code, pending⟩ cs = some ⟨.code, pending⟩ := runAbove closed pending

theorem closedThen (closed : Closed cs) (pending ds : List Char) :
    run ⟨.code, pending⟩ (cs ++ ds) = run ⟨.code, pending⟩ ds := runOnto (closedWithin closed pending) ds

theorem closedAppend (first : Closed cs) (second : Closed ds) : Closed (cs ++ ds) :=
  (closedThen first [] ds).trans second


theorem endedClosed (ended : Closed (cs ++ ['\n'])) : Closed cs := by
  rw [Closed, runAppend] at ended
  obtain ⟨⟨mode, pending⟩, runs, steps⟩ := Option.bind_eq_some_iff.mp ended
  cases mode with
  | code =>
    cases steps
    exact runs
  | slash | string | escaped | comment | star => exact nomatch steps


def delimiters : List Char := ['"', '\x27', '\x60', '/', '(', ')', '[', ']', '{', '}']

def Inert (cs : List Char) : Prop := ∀ c ∈ cs, c ∉ delimiters

/- By the list: the instance for statements on all characters would try every one of them. -/
instance (cs : List Char) : Decidable (Inert cs) := List.decidableBAll (· ∉ delimiters) cs

theorem noDelimiter {p : Char → Bool} (none : delimiters.all (fun d => !p d) = true) {c : Char}
    (holds : p c = true) : c ∉ delimiters := by
  intro mem
  have fails := List.all_eq_true.mp none c mem
  rw [holds] at fails
  exact nomatch fails

theorem inertStep {c : Char} (inert : c ∉ delimiters) (pending : List Char) :
    step ⟨.code, pending⟩ c = some ⟨.code, pending⟩ := by
  simp only [delimiters, List.mem_cons, List.not_mem_nil, not_or, or_false] at inert
  simp only [step, inCode]
  split <;> simp_all

theorem inertClosed (inert : Inert cs) : Closed cs := by
  induction cs with
  | nil => rfl
  | cons c rest ih =>
    obtain ⟨first, others⟩ := List.forall_mem_cons.mp inert
    rw [Closed, run, start, inertStep first, Option.bind_some]
    exact ih others

theorem inertCons {c : Char} (first : c ∉ delimiters) (rest : Inert cs) : Inert (c :: cs) :=
  List.forall_mem_cons.mpr ⟨first, rest⟩

theorem inertAppend (first : Inert cs) (second : Inert ds) : Inert (cs ++ ds) :=
  List.forall_mem_append.mpr ⟨first, second⟩


def Calm (s : State) : Prop := step s ' ' = some s

theorem calmLine (steps : step s '\n' = some t) : Calm t := by
  obtain ⟨mode, pending⟩ := s
  cases mode with
  | slash | string => exact nomatch steps
  | code | escaped | comment | star =>
    cases steps
    rfl

theorem calmPad (calm : Calm s) (n : Nat) (cs : List Char) : run s (Fragment.pad n ++ cs) = run s cs := by
  induction n with
  | zero => rfl
  | succ n ih =>
    have next : Fragment.pad (n + 1) ++ cs = ' ' :: (Fragment.pad n ++ cs) := rfl
    rw [next, run, calm, Option.bind_some, ih]

theorem runReindent (n : Nat) (s : State) (cs : List Char) : run s (Fragment.reindent n cs) = run s cs := by
  induction cs generalizing s with
  | nil => rfl
  | cons c rest ih =>
    rw [Fragment.reindent]
    split
    · rename_i line
      obtain ⟨rfl, -, -⟩ := line
      cases steps : step s '\n' with
      | none => simp [run, steps]
      | some t => simp only [run, steps, Option.bind_some, calmPad (calmLine steps), ih]
    · simp only [run, ih]

theorem runLines (n : Nat) (calm : Calm s) (lines : List (List Char)) :
    run s (lines.flatMap (fun l => Fragment.pad n ++ l ++ ['\n'])) =
      run s (lines.flatMap (fun l => l ++ ['\n'])) := by
  induction lines generalizing s with
  | nil => rfl
  | cons l rest ih =>
    rw [List.flatMap_cons, List.flatMap_cons, List.append_assoc, List.append_assoc, calmPad calm,
      ← List.append_assoc, runAppend, runAppend _ (l ++ _)]
    cases ended : run s (l ++ ['\n']) with
    | none => rfl
    | some t =>
      rw [runAppend] at ended
      obtain ⟨last, -, steps⟩ := Option.bind_eq_some_iff.mp ended
      obtain ⟨next, steps, same⟩ := Option.bind_eq_some_iff.mp steps
      cases same
      exact ih (calmLine steps)

end ShapeContracts.Scanner
