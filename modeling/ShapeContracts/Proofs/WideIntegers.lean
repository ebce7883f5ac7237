import Mathlib.Algebra.Group.Nat.Defs
import Mathlib.Data.List.TakeDrop
import ShapeContracts.Json.Wide
import ShapeContracts.Proofs.Serialisation
import ShapeContracts.Proofs.ValueTexts

/-! Whole numbers of 64 bits in JSON texts. A value without floating-point numbers is read back from its text as it
is, so that the numbers a binary64 would lose are the same before and after. -/
namespace ShapeContracts.Json

def Follows (rest : List Char) : Prop := ∀ c ∈ rest.head?, c = ',' ∨ c = ']' ∨ c = '}'

theorem followsNone : Follows [] := nofun

theorem followsEnds {rest : List Char} (follows : Follows rest) : Ends rest := by
  intro c head
  rcases follows c head with rfl | rfl | rfl <;> decide

theorem itemsFollow (items : List Json) (rest : List Char) : Follows (renderItems items ++ rest) := by
  cases items with
  | nil => exact fun c head => .inr (.inl (Option.some.inj head).symm)
  | cons => exact fun c head => .inl (Option.some.inj head).symm

theorem membersFollow (members : List (String × Json)) (rest : List Char) :
    Follows (renderMembers members ++ rest) := by
  cases members with
  | nil => exact fun c head => .inr (.inr (Option.some.inj head).symm)
  | cons => exact fun c head => .inl (Option.some.inj head).symm

/-! Digits -/

theorem digitsSpan {ds rest : List Char} (digits : ∀ c ∈ ds, c.isDigit = true) (ends : Ends rest) :
    (ds ++ rest).span Char.isDigit = (ds, rest) := by
  have stops : rest.takeWhile Char.isDigit = [] ∧ rest.dropWhile Char.isDigit = rest := by
    cases rest with
    | nil => exact ⟨rfl, rfl⟩
    | cons c rest =>
      have stop : ¬ c.isDigit = true := by rw [ends c rfl]; exact Bool.false_ne_true
      exact ⟨List.takeWhile_cons_of_neg stop, List.dropWhile_cons_of_neg stop⟩
  rw [List.span_eq_takeWhile_dropWhile, List.takeWhile_append_of_pos digits, List.dropWhile_append_of_pos digits,
    stops.1, stops.2, List.append_nil]

theorem digitsValue (n : Nat) : natOfDigits 0 (Nat.toDigits 10 n) = n := by
  have steps : natOfDigits 0 (Nat.toDigits 10 n) = Nat.ofDigitChars 10 (Nat.toDigits 10 n) 0 := by
    simp only [natOfDigits, Nat.ofDigitChars_eq_foldl, Nat.mul_comm]
    rfl
  rw [steps, Nat.ofDigitChars_ten_toDigits]

theorem digitsLead {n : Nat} (positive : 0 < n) : (Nat.toDigits 10 n).head? ≠ some '0' := by
  induction n using Nat.strongRecOn with
  | ind n ih =>
    rcases Nat.lt_or_ge n 10 with small | large
    · have single : ∀ k < 10, 0 < k → [Nat.digitChar k].head? ≠ some '0' := by decide
      rw [Nat.toDigits_of_lt_base small]
      exact single n small positive
    · have first : (Nat.toDigits 10 n).head? = (Nat.toDigits 10 (n / 10)).head? := by
        rw [Nat.toDigits_of_base_le (by decide) large, List.head?_append,
          Option.or_of_isSome (List.isSome_head?.mpr Nat.toDigits_ne_nil)]
      rw [first]
      exact ih (n / 10) (Nat.div_lt_self positive (by decide)) (Nat.div_pos large (by decide))

theorem literalRead {ds rest : List Char} (digits : ∀ c ∈ ds, c.isDigit = true) (shown : ds ≠ [])
    (lead : 1 < ds.length → ds.head? ≠ some '0') (follows : Follows rest) (negative : Bool) :
    readLiteral ((if negative then ['-'] else []) ++ (ds ++ rest)) =
      some (⟨negative, ds, none, none⟩, rest) := by
  have span := digitsSpan digits (followsEnds follows)
  have proper : (ds.isEmpty || (decide (1 < ds.length) && ds.head? == some '0')) = false := by
    simp only [Bool.or_eq_false_iff, List.isEmpty_eq_false_iff, Bool.and_eq_false_iff, decide_eq_false_iff_not]
    refine ⟨shown, ?_⟩
    rcases Nat.lt_or_ge 1 ds.length with long | short
    · exact .inr (beq_eq_false_iff_ne.mpr (lead long))
    · exact .inl (Nat.not_lt.mpr short)
  have unsigned : ∀ cs, ds ++ rest ≠ '-' :: cs := by
    intro cs same
    obtain ⟨c, tail, rfl⟩ := List.exists_cons_of_ne_nil shown
    have digit := digits c List.mem_cons_self
    rw [(List.cons.inj same).1] at digit
    contradiction
  have rest' : rest = [] ∨ ∃ c cs, rest = c :: cs ∧ (c = ',' ∨ c = ']' ∨ c = '}') := by
    cases rest with
    | nil => exact .inl rfl
    | cons c cs => exact .inr ⟨c, cs, rfl, follows c rfl⟩
  cases negative with
  | true =>
    simp only [if_true, List.singleton_append, readLiteral, span, proper]
    rcases rest' with rfl | ⟨c, cs, rfl, rfl | rfl | rfl⟩ <;> rfl
  | false =>
    simp only [Bool.false_eq_true, if_false, List.nil_append]
    unfold readLiteral
    split
    rename_i n cs sign
    split at sign
    · rename_i same
      exact absurd same (unsigned _)
    · cases sign
      simp only [span, proper]
      rcases rest' with rfl | ⟨c, cs, rfl, rfl | rfl | rfl⟩ <;> rfl

theorem wholeRead {n : Int} (wide : (Number.whole n).Wide) {rest : List Char} (follows : Follows rest) :
    readNumber ((Number.whole n).render ++ rest) = some (.number (.whole n), rest) := by
  have literal (negative : Bool) {m : Nat} :
      readLiteral ((if negative then ['-'] else []) ++ (Nat.toDigits 10 m ++ rest)) =
        some (⟨negative, Nat.toDigits 10 m, none, none⟩, rest) := by
    refine literalRead (fun _ mem => Nat.isDigit_of_mem_toDigits (by decide) (by decide) mem) Nat.toDigits_ne_nil
      (fun long => digitsLead (Nat.pos_of_ne_zero ?_)) follows negative
    rintro rfl
    exact absurd long (by decide)
  cases n with
  | ofNat n =>
    have read : readLiteral ((Number.whole (.ofNat n)).render ++ rest) = _ := literal false
    have number : Literal.number? ⟨false, Nat.toDigits 10 n, none, none⟩ = some (.whole n) := by
      simp only [Literal.number?, digitsValue, Bool.false_eq_true, if_false]
      exact if_pos ⟨rfl, rfl, fun both => both.1, wide⟩
    simp only [readNumber, read, Option.bind_eq_bind, Option.bind_some, number]
    rfl
  | negSucc n =>
    have read : readLiteral ((Number.whole (.negSucc n)).render ++ rest) = _ := literal true
    have number : Literal.number? ⟨true, Nat.toDigits 10 (n + 1), none, none⟩ = some (.whole (.negSucc n)) := by
      simp only [Literal.number?, digitsValue, if_true]
      exact if_pos ⟨rfl, rfl, fun both => Nat.succ_ne_zero n both.2, wide⟩
    simp only [readNumber, read, Option.bind_eq_bind, Option.bind_some, number]

theorem blankless {c : Char} (type : typeOfText c ≠ "") : ¬ isBlank c = true := by
  intro blank
  simp only [isBlank, Bool.or_eq_true, beq_iff_eq] at blank
  rcases blank with ((rfl | rfl) | rfl) | rfl <;> exact type (by decide)

theorem shownSkip {j : Json} (floatless : j.Floatless) (rest : List Char) :
    skipBlanks (j.renderChars ++ rest) = j.renderChars ++ rest := by
  obtain ⟨c, cs, text, type⟩ := textBegins floatless
  rw [text, List.cons_append]
  refine List.dropWhile_cons_of_neg (blankless ?_)
  rw [type]
  cases j <;> simp [typeName]

theorem shownOpens {j : Json} (floatless : j.Floatless) (rest : List Char) :
    (j.renderChars ++ rest).head? ≠ some ']' := by
  intro head
  obtain ⟨later, same⟩ := List.head?_eq_some_iff.mp head
  exact textOpens floatless same (by decide)

section
variable {limit fuel depth : Nat} {cs : List Char}

theorem numberStep {c : Char} (number : typeOfText c = "number") :
    readValue limit (fuel + 1) depth (c :: cs) = readNumber (c :: cs) := by
  have skip : skipBlanks (c :: cs) = c :: cs :=
    List.dropWhile_cons_of_neg (blankless (by rw [number]; decide))
  rw [readValue, skip]
  split <;> first
    | rfl
    | (rename_i same; rw [(List.cons.inj same).1] at number; exact absurd number (by decide))

theorem wholeValueRead {n : Int} (wide : (Number.whole n).Wide) {rest : List Char} (follows : Follows rest) :
    readValue limit (fuel + 1) depth ((Number.whole n).render ++ rest) = some (.number (.whole n), rest) := by
  obtain ⟨c, cs, text, type⟩ := textBegins (j := .number (.whole n)) trivial
  rw [← wholeRead wide follows, show (Number.whole n).render = c :: cs from text, List.cons_append, numberStep type]

theorem arrayRead {item : Json} {items : List Json} {between after : List Char} (skip : skipBlanks cs = cs)
    (more : cs.head? ≠ some ']') (first : readValue limit fuel depth cs = some (item, between))
    (later : readItems limit fuel depth between = some (items, after)) :
    readValue limit (fuel + 1) (depth + 1) ('[' :: cs) = some (.array (item :: items), after) := by
  have here : skipBlanks ('[' :: cs) = '[' :: cs := rfl
  rw [readValue, here]
  simp only [skip]
  split
  · exact absurd rfl more
  · simp only [first, later, Option.bind_eq_bind, Option.bind_some]

theorem objectRead {member : String × Json} {members : List (String × Json)} {between after : List Char}
    (skip : skipBlanks cs = cs) (more : cs.head? ≠ some '\x7d')
    (first : readMember limit fuel depth cs = some (member, between))
    (later : readMembers limit fuel depth between = some (members, after)) :
    readValue limit (fuel + 1) (depth + 1) ('\x7b' :: cs) = some (.object (member :: members), after) := by
  have here : skipBlanks ('\x7b' :: cs) = '\x7b' :: cs := rfl
  rw [readValue, here]
  simp only [skip]
  split
  · exact absurd rfl more
  · simp only [first, later, Option.bind_eq_bind, Option.bind_some]

theorem nextItemRead {item : Json} {items : List Json} {between after : List Char}
    (first : readValue limit fuel depth cs = some (item, between))
    (later : readItems limit fuel depth between = some (items, after)) :
    readItems limit (fuel + 1) depth (',' :: cs) = some (item :: items, after) := by
  have here : skipBlanks (',' :: cs) = ',' :: cs := rfl
  rw [readItems, here]
  simp only [first, later, Option.bind_eq_bind, Option.bind_some]

theorem nextMemberRead {member : String × Json} {members : List (String × Json)} {between after : List Char}
    (first : readMember limit fuel depth cs = some (member, between))
    (later : readMembers limit fuel depth between = some (members, after)) :
    readMembers limit (fuel + 1) depth (',' :: cs) = some (member :: members, after) := by
  have here : skipBlanks (',' :: cs) = ',' :: cs := rfl
  rw [readMembers, here]
  simp only [first, later, Option.bind_eq_bind, Option.bind_some]

theorem quotedSkip (s rest : List Char) :
    skipBlanks (renderString s ++ rest) = '"' :: (s.flatMap escape ++ '"' :: rest) := by
  simp [renderString, skipBlanks, isBlank]

theorem memberRead {name : String} {value : Json} {after : List Char} (room : name.toList.length < limit)
    (read : readValue limit fuel depth cs = some (value, after)) :
    readMember limit (fuel + 1) depth (renderString name.toList ++ ':' :: cs) = some ((name, value), after) := by
  have colon : skipBlanks (':' :: cs) = ':' :: cs := rfl
  rw [readMember, quotedSkip]
  simp only [stringRead _ _ _ room, Option.bind_eq_bind, Option.bind_some, colon, String.ofList_toList, read]

theorem quotedRead {s : String} (room : s.toList.length < limit) :
    readValue limit (fuel + 1) depth (renderString s.toList ++ cs) = some (.string s, cs) := by
  rw [readValue, quotedSkip]
  simp only [stringRead _ _ _ room, Option.bind_eq_bind, Option.bind_some, String.ofList_toList]

end

theorem escapedLength (s : List Char) : s.length ≤ (s.flatMap escape).length := by
  induction s with
  | nil => exact Nat.le_refl _
  | cons c s ih =>
    have shown : 0 < (escape c).length := by
      unfold escape
      split <;> first
        | exact Nat.zero_lt_succ _
        | (split <;> exact Nat.zero_lt_succ _)
    rw [List.flatMap_cons, List.length_append, List.length_cons]
    omega

theorem quotedLength (s : List Char) : s.length < (renderString s).length := by
  have inside := escapedLength s
  rw [renderString, List.length_cons, List.length_append, List.length_singleton]
  omega

/- The induction is on the value. The length of its text bounds the fuel and the limit for strings: each part has a
shorter text than the whole, and each step of the reader spends one. -/
mutual

theorem valueRead (j : Json) (floatless : j.Floatless) (settled : j.Settled) {limit fuel depth : Nat}
    (room : j.renderChars.length ≤ limit) (enough : j.renderChars.length ≤ fuel) (deep : j.depth ≤ depth)
    {rest : List Char} (follows : Follows rest) :
    readValue limit fuel depth (j.renderChars ++ rest) = some (j, rest) := by
  obtain ⟨c, cs, text, -⟩ := textBegins floatless
  obtain ⟨fuel, rfl⟩ : ∃ less, fuel = less + 1 := by
    rw [text, List.length_cons] at enough
    exact ⟨fuel - 1, by omega⟩
  match j with
  | .null | .bool true | .bool false => rw [renderChars, readValue]; rfl
  | .number (.float _) => exact floatless.elim
  | .number (.whole n) => exact wholeValueRead settled follows
  | .string s =>
    rw [renderChars] at room
    exact quotedRead (Nat.lt_of_lt_of_le (quotedLength s.toList) room)
  | .array [] =>
    obtain ⟨depth, rfl⟩ : ∃ less, depth = less + 1 := ⟨depth - 1, (Nat.sub_add_cancel deep).symm⟩
    rw [renderChars, readValue]; rfl
  | .object [] =>
    obtain ⟨depth, rfl⟩ : ∃ less, depth = less + 1 := ⟨depth - 1, (Nat.sub_add_cancel deep).symm⟩
    rw [renderChars, readValue]; rfl
  | .array (item :: items) =>
    simp only [Json.depth, depthItems] at deep
    simp only [renderChars, List.length_cons, List.length_append] at room enough
    obtain ⟨depth, rfl⟩ : ∃ less, depth = less + 1 := ⟨depth - 1, by omega⟩
    have first : readValue limit fuel depth (item.renderChars ++ (renderItems items ++ rest)) = some (item, _) :=
      valueRead item floatless.1 settled.1 (by omega) (by omega) (by omega) (itemsFollow items rest)
    have later : readItems limit fuel depth (renderItems items ++ rest) = some (items, rest) :=
      itemsRead items floatless.2 settled.2 (by omega) (by omega) (by omega) rest
    rw [renderChars, List.cons_append, List.append_assoc]
    exact arrayRead (shownSkip floatless.1 _) (shownOpens floatless.1 _) first later
  | .object ((name, value) :: members) =>
    have short := quotedLength name.toList
    simp only [Json.depth, depthMembers] at deep
    simp only [renderChars, List.length_cons, List.length_append] at room enough
    obtain ⟨depth, rfl⟩ : ∃ less, depth = less + 1 := ⟨depth - 1, by omega⟩
    obtain ⟨fuel, rfl⟩ : ∃ less, fuel = less + 1 := ⟨fuel - 1, by omega⟩
    have first : readValue limit fuel depth (value.renderChars ++ (renderMembers members ++ rest)) = some (value, _) :=
      valueRead value floatless.1 settled.2.1 (by omega) (by omega) (by omega) (membersFollow members rest)
    have later : readMembers limit (fuel + 1) depth (renderMembers members ++ rest) = some (members, rest) :=
      membersRead members floatless.2 settled.2.2 (by omega) (by omega) (by omega) rest
    rw [renderChars, List.cons_append, List.append_assoc, List.cons_append, List.append_assoc]
    exact objectRead (List.dropWhile_cons_of_neg (by decide)) (by simp [renderString])
      (memberRead (by omega) first) later

theorem itemsRead (items : List Json) (floatless : FloatlessItems items) (settled : SettledItems items)
    {limit fuel depth : Nat} (room : (renderItems items).length ≤ limit)
    (enough : (renderItems items).length ≤ fuel) (deep : depthItems items ≤ depth) (rest : List Char) :
    readItems limit fuel depth (renderItems items ++ rest) = some (items, rest) := by
  match items with
  | [] =>
    obtain ⟨fuel, rfl⟩ : ∃ less, fuel = less + 1 := ⟨fuel - 1, (Nat.sub_add_cancel enough).symm⟩
    rw [renderItems, readItems]; rfl
  | item :: items =>
    simp only [depthItems] at deep
    simp only [renderItems, List.length_cons, List.length_append] at room enough
    obtain ⟨fuel, rfl⟩ : ∃ less, fuel = less + 1 := ⟨fuel - 1, by omega⟩
    have first : readValue limit fuel depth (item.renderChars ++ (renderItems items ++ rest)) = some (item, _) :=
      valueRead item floatless.1 settled.1 (by omega) (by omega) (by omega) (itemsFollow items rest)
    have later : readItems limit fuel depth (renderItems items ++ rest) = some (items, rest) :=
      itemsRead items floatless.2 settled.2 (by omega) (by omega) (by omega) rest
    rw [renderItems, List.cons_append, List.append_assoc]
    exact nextItemRead first later

theorem membersRead (members : List (String × Json)) (floatless : FloatlessMembers members)
    (settled : SettledMembers members) {limit fuel depth : Nat} (room : (renderMembers members).length ≤ limit)
    (enough : (renderMembers members).length ≤ fuel) (deep : depthMembers members ≤ depth) (rest : List Char) :
    readMembers limit fuel depth (renderMembers members ++ rest) = some (members, rest) := by
  match members with
  | [] =>
    obtain ⟨fuel, rfl⟩ : ∃ less, fuel = less + 1 := ⟨fuel - 1, (Nat.sub_add_cancel enough).symm⟩
    rw [renderMembers, readMembers]; rfl
  | (name, value) :: members =>
    have short := quotedLength name.toList
    simp only [depthMembers] at deep
    simp only [renderMembers, List.length_cons, List.length_append] at room enough
    obtain ⟨fuel, rfl⟩ : ∃ less, fuel = less + 2 := ⟨fuel - 2, by omega⟩
    have first : readValue limit fuel depth (value.renderChars ++ (renderMembers members ++ rest)) = some (value, _) :=
      valueRead value floatless.1 settled.1 (by omega) (by omega) (by omega) (membersFollow members rest)
    have later : readMembers limit (fuel + 1) depth (renderMembers members ++ rest) = some (members, rest) :=
      membersRead members floatless.2 settled.2 (by omega) (by omega) (by omega) rest
    rw [renderMembers, List.cons_append, List.append_assoc, List.cons_append, List.append_assoc]
    exact nextMemberRead (memberRead (by omega) first) later

end

/-! Objects without repeated names -/

mutual

theorem settledSettles (j : Json) (settled : j.Settled) : j.settle = j := by
  match j with
  | .null | .bool _ | .number _ | .string _ => rfl
  | .array items => exact settleArray (settledItemsSettle items settled)
  | .object members => exact settleObject settled.1 (settledMembersSettle members settled.2)

theorem settledItemsSettle (items : List Json) (settled : SettledItems items) : ∀ j ∈ items, j.settle = j := by
  match items with
  | [] => exact fun _ mem => absurd mem List.not_mem_nil
  | item :: rest =>
    exact List.forall_mem_cons.mpr ⟨settledSettles item settled.1, settledItemsSettle rest settled.2⟩

theorem settledMembersSettle (members : List (String × Json)) (settled : SettledMembers members) :
    ∀ e ∈ members, e.2.settle = e.2 := by
  match members with
  | [] => exact fun _ mem => absurd mem List.not_mem_nil
  | (_, value) :: rest =>
    exact List.forall_mem_cons.mpr ⟨settledSettles value settled.1, settledMembersSettle rest settled.2⟩

end

theorem textRead {j : Json} (floatless : j.Floatless) (settled : j.Settled) (nested : j.depth ≤ maxDepth) :
    parse? j.render = some j := by
  have read := valueRead j floatless settled (Nat.le_succ _) (Nat.le_succ _) nested followsNone
  rw [List.append_nil] at read
  have raw : parseRaw? j.render = some j := by
    simp only [parseRaw?, render, String.toList_ofList, read]
    rfl
  rw [parse?, raw, Option.map_some, settledSettles j settled]

/-! Numbers in document order -/

mutual

def wholes : Json → List Int
  | .number (.whole n) => [n]
  | .array items => wholesOfItems items
  | .object members => wholesOfMembers members
  | _ => []

def wholesOfItems : List Json → List Int
  | [] => []
  | item :: rest => wholes item ++ wholesOfItems rest

def wholesOfMembers : List (String × Json) → List Int
  | [] => []
  | (_, value) :: rest => wholes value ++ wholesOfMembers rest

end

/-- A binary64 tells the number from its neighbours no more. -/
def wide (n : Int) : Bool := 2 ^ 53 - 1 < n.natAbs

theorem unsafeWide (n : Int) : (if isSafe n then [] else [n]) = [n].filter wide := by
  by_cases safe : n.natAbs ≤ largestSafe
  · rw [isSafe, decide_eq_true safe, if_pos rfl, List.filter_cons_of_neg, List.filter_nil]
    exact fun far => absurd (of_decide_eq_true far) (Nat.not_lt.mpr safe)
  · rw [isSafe, decide_eq_false safe, if_neg Bool.false_ne_true, List.filter_cons_of_pos, List.filter_nil]
    exact decide_eq_true (Nat.not_le.mp safe)

mutual

theorem wideFiltered (j : Json) : j.wideIntegers = j.wholes.filter wide := by
  match j with
  | .null | .bool _ | .string _ | .number (.float _) => rfl
  | .number (.whole n) => exact unsafeWide n
  | .array items => exact wideItemsFiltered items
  | .object members => exact wideMembersFiltered members

theorem wideItemsFiltered (items : List Json) : wideIntegersOfItems items = (wholesOfItems items).filter wide := by
  match items with
  | [] => rfl
  | item :: rest =>
    rw [wideIntegersOfItems, wholesOfItems, List.filter_append, wideFiltered item, wideItemsFiltered rest]

theorem wideMembersFiltered (members : List (String × Json)) :
    wideIntegersOfMembers members = (wholesOfMembers members).filter wide := by
  match members with
  | [] => rfl
  | (_, value) :: rest =>
    rw [wideIntegersOfMembers, wholesOfMembers, List.filter_append, wideFiltered value, wideMembersFiltered rest]

end

theorem wideSurvive (j : Json) (floatless : j.Floatless) (settled : j.Settled) (nested : j.depth ≤ 127) :
    parse? j.render = some j ∧
      j.wideIntegers = j.wholes.filter (fun n => 2 ^ 53 - 1 < n.natAbs) ∧
      (parse? j.render).map wideIntegers = some j.wideIntegers := by
  have read := textRead floatless settled nested
  exact ⟨read, wideFiltered j, congrArg (Option.map wideIntegers) read⟩

def extremes : Json :=
  .object [("z\"\n\\", .array [.number (.whole (-9223372036854775808)), .number (.whole (-9007199254740991)), .null,
      .number (.whole 18446744073709551615)]),
    ("a", .object [("b", .array []), ("", .number (.whole 9007199254740992)), ("c", .bool true)])]

theorem extremesSurvive :
    (extremes.Floatless ∧ extremes.Settled ∧ extremes.depth ≤ 127) ∧
      parse? extremes.render = some extremes ∧
      extremes.wideIntegers = [-9223372036854775808, 18446744073709551615, 9007199254740992] := by
  have floatless : extremes.Floatless := by simp [extremes, Floatless, FloatlessItems, FloatlessMembers]
  have settled : extremes.Settled := by
    simp [extremes, Settled, SettledItems, SettledMembers, Number.Wide, Number.minWhole, Number.maxWhole]
  have nested : extremes.depth ≤ 127 := by decide
  exact ⟨⟨floatless, settled, nested⟩, (wideSurvive extremes floatless settled nested).1, rfl⟩

end ShapeContracts.Json
