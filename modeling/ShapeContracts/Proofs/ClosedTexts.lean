import ShapeContracts.Proofs.Scanning
import ShapeContracts.Proofs.TraitMarkers

/-! Texts as they are written into code. A quoted string is closed whatever it quotes, escaped text stays
inside its comment, a block of documentation closes itself, and numbers, identifiers and aliases of
imports have no character in them that opens or closes anything. -/
namespace ShapeContracts

open Scanner

namespace Json

theorem stringStep {c : Char} (plain : c ∉ ['"', '\\', '\n', '\r']) (pending : List Char) :
    step ⟨.string, pending⟩ c = some ⟨.string, pending⟩ := by
  simp only [List.mem_cons, List.not_mem_nil, not_or, or_false] at plain
  simp only [step, inString]
  split <;> simp_all

theorem hexDigitPlain (n : Nat) : hexDigit n ∉ ['"', '\\', '\n', '\r'] := by
  have each : ∀ k < 16, Nat.digitChar k ∉ ['"', '\\', '\n', '\r'] := by decide
  exact each _ (Nat.mod_lt _ (by decide))

theorem escapeStays (c : Char) (pending : List Char) :
    run ⟨.string, pending⟩ (escape c) = some ⟨.string, pending⟩ := by
  unfold escape
  split
  case h_8 =>
    split
    · have unit : run ⟨.string, pending⟩ ['\\', 'u', '0', '0'] = some ⟨.string, pending⟩ := rfl
      refine (runOnto unit [hexDigit _, hexDigit _]).trans ?_
      rw [run, stringStep (hexDigitPlain _), Option.bind_some, run, stringStep (hexDigitPlain _)]
      rfl
    · have plain : c ∉ ['"', '\\', '\n', '\r'] := by simp_all
      rw [run, stringStep plain]
      rfl
  all_goals rfl

theorem stringClosed (cs : List Char) : Closed (renderString cs) := by
  have inside : run ⟨.string, []⟩ (cs.flatMap escape) = some ⟨.string, []⟩ :=
    runFlatMap (fun c _ => escapeStays c [])
  exact runOnto inside ['"']

theorem quoteClosed (s : String) : Closed (quote s).toList := by
  rw [quote, String.toList_ofList]
  exact stringClosed s.toList

end Json


def Numeric (cs : List Char) : Prop := ∀ c ∈ cs, c.isDigit = true ∨ c ∈ ['-', '+', '.', 'e']

instance (cs : List Char) : Decidable (Numeric cs) :=
  List.decidableBAll (fun (c : Char) => c.isDigit = true ∨ c ∈ ['-', '+', '.', 'e']) cs

section Numeric

variable {cs ds : List Char}

theorem numericInert (numeric : Numeric cs) : Inert cs := by
  intro c mem
  rcases numeric c mem with digit | sign
  · exact noDelimiter (by decide) digit
  · exact (by decide : Inert ['-', '+', '.', 'e']) c sign

theorem numericCons {c : Char} (first : c ∈ ['-', '+', '.', 'e']) (rest : Numeric cs) : Numeric (c :: cs) :=
  List.forall_mem_cons.mpr ⟨.inr first, rest⟩

theorem numericAppend (first : Numeric cs) (second : Numeric ds) : Numeric (cs ++ ds) :=
  List.forall_mem_append.mpr ⟨first, second⟩

theorem numericWithin (numeric : Numeric cs) (within : ds ⊆ cs) : Numeric ds :=
  fun c mem => numeric c (within mem)

theorem digitsNumeric (n : Nat) : Numeric (Nat.toDigits 10 n) :=
  fun _ mem => .inl (Nat.isDigit_of_mem_toDigits (by decide) (by decide) mem)

theorem naturalNumeric (n : Nat) : Numeric (toString n).toList := by
  simpa using digitsNumeric n

theorem integerNumeric (n : Int) : Numeric (toString n).toList := by
  cases n with
  | ofNat n => exact naturalNumeric n
  | negSucc n =>
    have written : toString (Int.negSucc n) = "-" ++ toString (n + 1) := rfl
    rw [written, String.toList_append]
    exact numericAppend (by decide) (naturalNumeric (n + 1))

theorem zerosNumeric (n : Nat) : Numeric (List.replicate n '0') := by
  intro c mem
  rw [(List.mem_replicate.mp mem).2]
  decide

end Numeric

theorem naturalInert (n : Nat) : Inert (toString n).toList := numericInert (naturalNumeric n)

theorem naturalClosed (n : Nat) : Closed (toString n).toList := inertClosed (naturalInert n)

theorem Decimal.positionalNumeric (d : Decimal) : Numeric d.positional.1 ∧ Numeric d.positional.2 := by
  have digits : Numeric d.digits := digitsNumeric d.coefficient
  unfold positional
  split
  · exact ⟨numericAppend digits (zerosNumeric _), by simp [Numeric]⟩
  · simp only
    split
    · exact ⟨zerosNumeric 1, numericAppend (zerosNumeric _) digits⟩
    · rw [List.splitAt_eq]
      exact ⟨numericWithin digits (List.take_subset _ _), numericWithin digits (List.drop_subset _ _)⟩

namespace Binary64

theorem signNumeric (x : Binary64) : Numeric x.sign := by
  unfold sign
  split <;> decide

theorem codeNumeric (x : Binary64) : Numeric x.code.toList := by
  unfold code
  split
  · exact integerNumeric _
  · obtain ⟨whole, fraction⟩ := (x.decimal .up).positionalNumeric
    simp only [plain, String.toList_ofList]
    refine numericAppend (numericAppend x.signNumeric whole) ?_
    split
    · simp [Numeric]
    · exact numericCons (by decide) fraction

theorem codeClosed (x : Binary64) : Closed x.code.toList := inertClosed (numericInert x.codeNumeric)

theorem literalNumeric (x : Binary64) : Numeric x.literal := by
  have digits : Numeric (x.decimal .even).digits := digitsNumeric _
  have first : Numeric ((x.decimal .even).digits.take 1) := numericWithin digits (List.take_subset _ _)
  have later : Numeric ((x.decimal .even).digits.drop 1) := numericWithin digits (List.drop_subset _ _)
  obtain ⟨whole, fraction⟩ := (x.decimal .even).positionalNumeric
  simp only [literal]
  split
  · refine numericAppend (numericAppend x.signNumeric whole) (numericCons (by decide) ?_)
    split
    · exact zerosNumeric 1
    · exact fraction
  · refine numericAppend (numericAppend (numericAppend (numericAppend x.signNumeric first) ?_) ?_)
      (digitsNumeric _)
    · split
      · simp [Numeric]
      · exact numericCons (by decide) later
    · split <;> decide

end Binary64

theorem Number.renderNumeric (n : Number) : Numeric n.render := by
  cases n with
  | float x => exact x.literalNumeric
  | whole n =>
    cases n with
    | ofNat n => exact digitsNumeric n
    | negSucc n => exact numericCons (by decide) (digitsNumeric (n + 1))

namespace Json

mutual

theorem valueClosed (j : Json) : Closed j.renderChars := by
  match j with
  | .null | .bool true | .bool false | .array [] | .object [] => exact (by decide)
  | .number n => exact inertClosed (numericInert n.renderNumeric)
  | .string s => exact stringClosed s.toList
  | .array (item :: rest) =>
    have first := closedThen (valueClosed item) [']'] (renderItems rest)
    exact first.trans (itemsClose rest)
  | .object ((name, value) :: rest) =>
    have named := closedThen (stringClosed name.toList) ['}'] (':' :: (renderChars value ++ renderMembers rest))
    have first := closedThen (valueClosed value) ['}'] (renderMembers rest)
    exact named.trans (first.trans (membersClose rest))

theorem itemsClose (items : List Json) : run ⟨.code, [']']⟩ (renderItems items) = some start := by
  match items with
  | [] => rfl
  | item :: rest =>
    have first := closedThen (valueClosed item) [']'] (renderItems rest)
    exact first.trans (itemsClose rest)

theorem membersClose (members : List (String × Json)) :
    run ⟨.code, ['}']⟩ (renderMembers members) = some start := by
  match members with
  | [] => rfl
  | (name, value) :: rest =>
    have named := closedThen (stringClosed name.toList) ['}'] (':' :: (renderChars value ++ renderMembers rest))
    have first := closedThen (valueClosed value) ['}'] (renderMembers rest)
    exact named.trans (first.trans (membersClose rest))

end

end Json

namespace Comment

/- Escaped text never ends the comment that it stands in. The second part is for text after an asterisk: what
was escaped does not begin with a slash then. -/
theorem escapeInside (pending : List Char) {c : Char} (other : c ≠ '*' ∧ c ≠ '/') (rest cs : List Char) :
    run ⟨.comment, pending⟩ (escape cs ++ c :: rest) = run ⟨.comment, pending⟩ rest ∧
    (cs.head? ≠ some '/' →
      run ⟨.star, pending⟩ (escape cs ++ c :: rest) = run ⟨.comment, pending⟩ rest) := by
  induction cs using escape.induct with
  | case1 => simp [escape, run, step, inComment, other]
  | case2 after ih => simp [escape, run, step, inComment, ih.1]
  | case3 d after apart ih =>
    by_cases star : d = '*'
    · subst star
      have next : after.head? ≠ some '/' := by
        intro slash
        obtain ⟨more, same⟩ := List.head?_eq_some_iff.mp slash
        exact apart more rfl same
      have kept : escape ('*' :: after) = '*' :: escape after := escape.eq_3 _ _ apart
      simp [kept, run, step, inComment, ih.2 next]
    · have kept : escape (d :: after) = d :: escape after := escape.eq_3 _ _ apart
      refine ⟨by simp [kept, run, step, inComment, star, ih.1], fun head => ?_⟩
      have slash : d ≠ '/' := fun same => head (congrArg some same)
      simp [kept, run, step, inComment, star, slash, ih.1]

theorem notedClosed (note : String) {cs : List Char} (closed : Closed cs) :
    Closed (['/', '*', ' '] ++ (escape note.toList ++ ([' ', '*', '/', ' '] ++ cs))) := by
  have opens : run start ['/', '*', ' '] = some ⟨.comment, []⟩ := rfl
  have inside := (escapeInside [] (by decide : ' ' ≠ '*' ∧ ' ' ≠ '/') ('*' :: '/' :: ' ' :: cs) note.toList).1
  exact (runOnto opens _).trans (inside.trans closed)

example : ¬ Closed "/* as it is: */ */ x".toList := by decide

def Stays (line : String) : Prop :=
  run ⟨.comment, []⟩ (line.toList ++ ['\n']) = some ⟨.comment, []⟩

instance (line : String) : Decidable (Stays line) := inferInstanceAs (Decidable (run _ _ = _))

theorem blockLineStays (line : List Char) : Stays (blockLine line) := by
  unfold Stays blockLine
  split
  · decide
  · have opens : run ⟨.comment, []⟩ " * ".toList = some ⟨.comment, []⟩ := by decide
    have text : (String.ofList (escape line)).toList = escape line := String.toList_ofList
    have inside := (escapeInside [] (by decide : '\n' ≠ '*' ∧ '\n' ≠ '/') [] line).1
    rw [String.toList_append, List.append_assoc, text]
    exact (runOnto opens _).trans inside

theorem docLinesStay {documentation : String} {lines : List String}
    (written : docLines? documentation = some lines) : ∀ line ∈ lines, Stays line := by
  unfold docLines? at written
  split at written
  · exact nomatch written
  · cases written
    intro line mem
    rcases List.mem_cons.mp mem with rfl | mem
    · decide
    · rcases List.mem_append.mp mem with text | last
      · obtain ⟨l, -, rfl⟩ := List.mem_map.mp text
        exact blockLineStays _
      · rw [List.mem_singleton.mp last]
        decide

def IsDocBlock (comment : String) : Prop := ∃ documentation, docBlock? documentation = some comment

theorem docBlockClosed {comment : String} (block : IsDocBlock comment) : Closed (endedLines [comment]) := by
  obtain ⟨documentation, written⟩ := block
  simp only [docBlock?, Option.bind_eq_bind, Option.bind_eq_some_iff, Option.some.injEq] at written
  obtain ⟨text, -, lines, doc, rfl⟩ := written
  have opens : run start "/**\n".toList = some ⟨.comment, []⟩ := by decide
  have inside : run ⟨.comment, []⟩ (endedLines lines) = some ⟨.comment, []⟩ := runFlatMap (docLinesStay doc)
  have ends : run ⟨.comment, []⟩ " */\n".toList = some start := by decide
  have split : endedLines [joinLines ("/**" :: lines ++ [" */"])] =
      "/**\n".toList ++ (endedLines lines ++ " */\n".toList) := by
    have joined := joinedEnded ("/**" :: lines) (List.cons_ne_nil " */" [])
    have whole : ∀ s : String, endedLines [s] = s.toList ++ ['\n'] := fun s => List.append_nil _
    rw [whole, joined, List.append_assoc]
    rfl
  rw [split, Closed, runOnto opens, runOnto inside]
  exact ends

theorem commentLinesClosed {comment : String} (block : IsDocBlock comment) (indent : Nat) :
    Closed (Fragment.commentLines indent comment) := by
  have plain : run start (Fragment.commentLines indent comment) = run start (endedLines [comment]) := by
    have calm : Calm start := rfl
    rw [← plainLines, Fragment.commentLines, Fragment.commentLines, runLines indent calm, runLines 0 calm]
  exact plain.trans (docBlockClosed block)

end Comment

namespace Unicode

theorem ofNatInert {n : Nat} (apart : n ∉ delimiters.map Char.toNat) : Char.ofNat n ∉ delimiters := by
  by_cases valid : n.isValidChar
  · have code : Char.ofNat n = Char.ofNatAux n valid := dif_pos valid
    rw [code]
    exact fun mem => apart (List.mem_map.mpr ⟨_, mem, rfl⟩)
  · have none : Char.ofNat n = '\x00' := dif_neg valid
    rw [none]
    decide

def Run.Avoids (r : Run) : Prop :=
  ∀ d ∈ delimiters, ¬ ((r.first : Int) ≤ d.toNat - r.delta ∧ (d.toNat : Int) - r.delta ≤ r.last)

instance (r : Run) : Decidable r.Avoids := List.decidableBAll (fun _ => ¬ (_ ∧ _)) delimiters

theorem mappedInert {runs : List Run} (avoid : ∀ r ∈ runs, r.Avoids) {c : Char} (inert : c ∉ delimiters) :
    ((mapped? runs c.toNat).map Char.ofNat).getD c ∉ delimiters := by
  cases found : mapped? runs c.toNat with
  | none => exact inert
  | some n =>
    obtain ⟨r, mem, rfl⟩ := Option.map_eq_some_iff.mp found
    have range := List.find?_some mem
    simp only [Bool.and_eq_true, decide_eq_true_eq] at range
    refine ofNatInert (fun hit => ?_)
    obtain ⟨d, delimiter, code⟩ := List.mem_map.mp hit
    have some : (d.toNat != 0) = true :=
      List.all_eq_true.mp (by decide : delimiters.all (fun d => d.toNat != 0) = true) d delimiter
    rw [bne_iff_ne] at some
    exact avoid r (List.mem_of_find?_eq_some mem) d delimiter (by omega)

theorem formsInert {table : List (Nat × List Nat)}
    (avoid : ∀ e ∈ table, ∀ n ∈ e.2, n ∉ delimiters.map Char.toNat) {n : Nat} {forms : List Nat}
    (found : table.lookup n = some forms) : Inert (forms.map Char.ofNat) := by
  obtain ⟨before, after, same, -⟩ := List.lookup_eq_some_iff.mp found
  intro c mem
  obtain ⟨form, listed, rfl⟩ := List.mem_map.mp mem
  exact ofNatInert (avoid (n, forms) (by simp [same]) form listed)

theorem asciiCases : ∀ n < 128, Char.ofNat n ∉ delimiters →
    (Char.ofNat n).toLower ∉ delimiters ∧ (Char.ofNat n).toUpper ∉ delimiters := by decide +kernel

theorem lowercaseInert {c : Char} (inert : c ∉ delimiters) : Inert (lowercase c) := by
  unfold lowercase
  split
  · rename_i ascii
    have lower := asciiCases c.toNat ascii
    rw [Char.ofNat_toNat] at lower
    exact List.forall_mem_singleton.mpr (lower inert).1
  · split
    · rename_i forms found
      exact formsInert (by decide +kernel) found
    · exact List.forall_mem_singleton.mpr (mappedInert (by decide +kernel) inert)

theorem uppercaseInert {c : Char} (inert : c ∉ delimiters) : Inert (uppercase c) := by
  unfold uppercase
  split
  · rename_i ascii
    have upper := asciiCases c.toNat ascii
    rw [Char.ofNat_toNat] at upper
    exact List.forall_mem_singleton.mpr (upper inert).2
  · split
    · rename_i forms found
      exact formsInert (by decide +kernel) found
    · exact List.forall_mem_singleton.mpr (mappedInert (by decide +kernel) inert)

end Unicode

namespace Text

open Unicode (isAlphanumeric)

theorem piecesInert (cs : List Char) : ∀ p ∈ pieces cs, Inert p := by
  induction cs with
  | nil => simp [pieces, Inert]
  | cons c rest ih =>
    rw [pieces]
    split
    · rename_i alphanumeric
      have first : c ∉ delimiters := noDelimiter (by decide +kernel) alphanumeric
      split
      · simpa [Inert] using first
      · rename_i p ps split
        rw [split] at ih
        obtain ⟨head, others⟩ := List.forall_mem_cons.mp ih
        exact List.forall_mem_cons.mpr ⟨inertCons first head, others⟩
    · exact List.forall_mem_cons.mpr ⟨by simp [Inert], ih⟩

theorem wordsInert (cs : List Char) : ∀ w ∈ words cs, Inert w := by
  intro w mem c inside
  obtain ⟨p, listed, cut⟩ := List.mem_flatMap.mp mem
  have whole := wordsOfPieceFlatten .boundary [] p
  have within : c ∈ (wordsOfPiece .boundary [] p).flatten := List.mem_flatten.mpr ⟨w, cut, inside⟩
  rw [whole] at within
  exact piecesInert cs p listed c within

theorem lowerWordInert {w : List Char} (inert : Inert w) : Inert (lowerWord w) := by
  fun_induction lowerWord w with
  | case1 => exact inert
  | case2 => decide
  | case3 c rest _ ih =>
    obtain ⟨first, others⟩ := List.forall_mem_cons.mp inert
    exact inertAppend (Unicode.lowercaseInert first) (ih others)

theorem capitalWordInert {w : List Char} (inert : Inert w) : Inert (capitalWord w) := by
  cases w with
  | nil => exact inert
  | cons c rest =>
    obtain ⟨first, others⟩ := List.forall_mem_cons.mp inert
    exact inertAppend (Unicode.uppercaseInert first) (lowerWordInert others)

theorem capitalsInert {ws : List (List Char)} (inert : ∀ w ∈ ws, Inert w) : Inert (ws.flatMap capitalWord) := by
  intro c mem
  obtain ⟨w, listed, inside⟩ := List.mem_flatMap.mp mem
  exact capitalWordInert (inert w listed) c inside

theorem upperCamelInert (s : String) : Inert (upperCamel s).toList := by
  rw [upperCamel, String.toList_ofList]
  exact capitalsInert (wordsInert s.toList)

theorem lowerCamelInert (s : String) : Inert (lowerCamel s).toList := by
  have inert := wordsInert s.toList
  unfold lowerCamel
  split
  · decide
  · rename_i w ws split
    rw [split] at inert
    obtain ⟨first, others⟩ := List.forall_mem_cons.mp inert
    rw [String.toList_ofList]
    exact inertAppend (lowerWordInert first) (capitalsInert others)

end Text

namespace Naming

theorem importAliasInert (module name : String) : Inert (importAlias module name).toList := by
  rw [importAlias, String.toList_append]
  refine inertAppend ?_ (Text.upperCamelInert name)
  unfold unlessEmpty
  split
  · decide
  · exact Text.lowerCamelInert _

theorem identifierInert {name : String} (identifier : isIdentifier name = true) : Inert name.toList := by
  unfold isIdentifier at identifier
  split at identifier
  · exact nomatch identifier
  · rename_i c rest written
    simp only [Bool.and_eq_true, List.all_eq_true] at identifier
    rw [written]
    exact inertCons (noDelimiter (by decide) identifier.1)
      (fun d inside => noDelimiter (by decide) (identifier.2 d inside))

end Naming

namespace Fragment.Bindings

variable {b : Bindings} {name module : String}

def Plain (b : Bindings) : Prop := ∀ i ∈ b.imports, Inert i.name.toList → Inert i.binding.toList

theorem freeNameInert {base : String} (inert : Inert base.toList) (taken : List String) (fuel n : Nat) :
    Inert (freeName taken base fuel n).toList := by
  have numbered : ∀ k : Nat, Inert (base ++ toString k).toList := by
    intro k
    rw [String.toList_append]
    exact inertAppend inert (naturalInert k)
  induction fuel generalizing n with
  | zero => exact numbered n
  | succ fuel ih =>
    have next : freeName taken base (fuel + 1) n =
        if candidate base n ∈ taken then freeName taken base fuel (n + 1) else candidate base n := rfl
    rw [next]
    split
    · exact ih (n + 1)
    · unfold candidate
      split
      · exact inert
      · exact numbered n

theorem bindPlain (plain : b.Plain) : (b.bind name module).2.Plain := by
  unfold bind
  split
  · exact plain
  · refine List.forall_mem_append.mpr ⟨plain, List.forall_mem_singleton.mpr (fun inert => ?_)⟩
    simp only [fresh]
    split
    · exact freeNameInert (Naming.importAliasInert module name) _ _ _
    · exact inert

theorem bindingInert (plain : b.Plain) (inert : Inert name.toList) : Inert (b.bind name module).1.toList :=
  bindPlain plain _ bindMem inert

end Fragment.Bindings

theorem Fragment.printPlain {b : Bindings} (plain : b.Plain) (ls : List Leaf) : (printLeaves b ls).2.Plain := by
  induction ls generalizing b with
  | nil => exact plain
  | cons l rest ih =>
    cases l with
    | imported name module => exact ih (Bindings.bindPlain plain)
    | text cs | symbol name => exact ih plain

end ShapeContracts
