import ShapeContracts.Json.Reader
import ShapeContracts.Evaluation

/-! Texts of values. The text of a value shows where it ends and what the value is, if no number in it is a
floating-point one; strings are read back from their text by the reader, whatever they hold. -/
namespace ShapeContracts

namespace Json

theorem hexDigitRead (n : Nat) : hexDigit? (hexDigit n) = some (n % 16) := by
  have each : ∀ k < 16, hexDigit? (Nat.digitChar k) = some k := by decide
  exact each _ (Nat.mod_lt _ (by decide))

theorem controlRead {c : Char} (control : c.toNat < 0x20) (rest : List Char) :
    escapedUnit? ('0' :: '0' :: hexDigit (c.toNat / 16) :: hexDigit c.toNat :: rest) = some (c, rest) := by
  have unit : codeUnit? ('0' :: '0' :: hexDigit (c.toNat / 16) :: hexDigit c.toNat :: rest) =
      some (c.toNat, rest) := by
    have zero : hexDigit? '0' = some 0 := by decide
    simp only [codeUnit?, zero, hexDigitRead, Option.bind_eq_bind, Option.bind_some]
    congr 2
    omega
  have low : isLowSurrogate c.toNat = false := by
    simp only [isLowSurrogate, Bool.and_eq_false_iff, decide_eq_false_iff_not]
    omega
  have high : isHighSurrogate c.toNat = false := by
    simp only [isHighSurrogate, Bool.and_eq_false_iff, decide_eq_false_iff_not]
    omega
  simp [escapedUnit?, unit, low, high]

theorem escapedRead (c : Char) (limit : Nat) (rest : List Char) :
    readString (limit + 1) (escape c ++ rest) = (readString limit rest).map (fun x => (c :: x.1, x.2)) := by
  have follows (cs : List Char) (read : escaped? cs = some (c, rest)) :
      readString (limit + 1) ('\\' :: cs) = (readString limit rest).map (fun x => (c :: x.1, x.2)) := by
    rw [readString, if_neg (by decide), if_pos rfl, read, Option.bind_eq_bind, Option.bind_some]
    dsimp only
    cases readString limit rest <;> rfl
  unfold escape
  split
  case h_8 quote backslash _ _ _ _ _ =>
    split
    · rename_i control
      exact follows _ (controlRead control rest)
    · rename_i shown
      rw [List.singleton_append, readString, if_neg quote, if_neg backslash, if_neg shown]
      cases readString limit rest <;> rfl
  all_goals exact follows _ rfl

theorem stringRead (s : List Char) (limit : Nat) (rest : List Char) (room : s.length < limit) :
    readString limit (s.flatMap escape ++ '"' :: rest) = some (s, rest) := by
  induction s generalizing limit with
  | nil =>
    obtain ⟨limit, rfl⟩ := Nat.exists_eq_add_one_of_ne_zero (Nat.ne_of_gt room)
    rfl
  | cons c s ih =>
    obtain ⟨limit, rfl⟩ := Nat.exists_eq_add_one_of_ne_zero (Nat.ne_of_gt (Nat.zero_lt_of_lt room))
    rw [List.flatMap_cons, List.append_assoc, escapedRead, ih limit (Nat.lt_of_succ_lt_succ room)]
    rfl

theorem stringCancels {s t rest rest' : List Char} (same : renderString s ++ rest = renderString t ++ rest') :
    s = t ∧ rest = rest' := by
  have inside : s.flatMap escape ++ '"' :: rest = t.flatMap escape ++ '"' :: rest' := by
    simpa [renderString] using same
  have read := stringRead s (s.length + t.length + 1) rest (by omega)
  rw [inside, stringRead t (s.length + t.length + 1) rest' (by omega)] at read
  cases Option.some.inj read
  exact ⟨rfl, rfl⟩

def Ends (rest : List Char) : Prop := ∀ c ∈ rest.head?, c.isDigit = false

theorem endsNone : Ends [] := fun _ mem => absurd mem (by simp)

theorem digitsCancel {m n : Nat} {rest rest' : List Char} (ends : Ends rest) (ends' : Ends rest')
    (same : Nat.toDigits 10 m ++ rest = Nat.toDigits 10 n ++ rest') : m = n ∧ rest = rest' := by
  have digits (k : Nat) : ∀ c ∈ Nat.toDigits 10 k, c.isDigit = true :=
    fun _ mem => Nat.isDigit_of_mem_toDigits (by decide) (by decide) mem
  have none {r : List Char} (ends : Ends r) : r.takeWhile Char.isDigit = [] := by
    cases r with
    | nil => rfl
    | cons c r => exact List.takeWhile_cons_of_neg (by simp [ends c rfl])
  have read := congrArg (List.takeWhile Char.isDigit) same
  rw [List.takeWhile_append_of_pos (digits m), List.takeWhile_append_of_pos (digits n), none ends, none ends',
    List.append_nil, List.append_nil] at read
  rw [read] at same
  have value := congrArg (fun ds => Nat.ofDigitChars 10 ds 0) read
  simp only [Nat.ofDigitChars_ten_toDigits] at value
  exact ⟨value, List.append_cancel_left same⟩

theorem wholeCancels {m n : Int} {rest rest' : List Char} (ends : Ends rest) (ends' : Ends rest')
    (same : (Number.whole m).render ++ rest = (Number.whole n).render ++ rest') : m = n ∧ rest = rest' := by
  have unsigned (k : Nat) (r r' : List Char) : Nat.toDigits 10 k ++ r ≠ '-' :: r' := by
    intro same
    cases written : Nat.toDigits 10 k with
    | nil => exact Nat.toDigits_ne_nil written
    | cons c cs =>
      have digit : c.isDigit = true :=
        Nat.isDigit_of_mem_toDigits (b := 10) (n := k) (by decide) (by decide) (written ▸ List.mem_cons_self)
      rw [written] at same
      rw [(List.cons.inj same).1] at digit
      contradiction
  cases m with
  | ofNat m =>
    cases n with
    | ofNat n =>
      obtain ⟨rfl, following⟩ := digitsCancel ends ends' same
      exact ⟨rfl, following⟩
    | negSucc n => exact absurd same (unsigned m _ _)
  | negSucc m =>
    cases n with
    | ofNat n => exact absurd same.symm (unsigned n _ _)
    | negSucc n =>
      obtain ⟨value, following⟩ := digitsCancel ends ends' (List.cons.inj same).2
      obtain rfl := Nat.succ.inj value
      exact ⟨rfl, following⟩

mutual

def Floatless : Json → Prop
  | .number (.float _) => False
  | .array items => FloatlessItems items
  | .object members => FloatlessMembers members
  | _ => True

def FloatlessItems : List Json → Prop
  | [] => True
  | item :: rest => Floatless item ∧ FloatlessItems rest

def FloatlessMembers : List (String × Json) → Prop
  | [] => True
  | (_, value) :: rest => Floatless value ∧ FloatlessMembers rest

end

def typeOfText (c : Char) : String :=
  match c with
  | 'n' => "null"
  | 't' | 'f' => "boolean"
  | '"' => "string"
  | '[' => "array"
  | '{' => "object"
  | c => if c.isDigit || c = '-' then "number" else ""

theorem digitBegins {c : Char} (digit : c.isDigit = true) : typeOfText c = "number" := by
  unfold typeOfText
  split <;> first
    | contradiction
    | simp [digit]

theorem textBegins {j : Json} (floatless : j.Floatless) :
    ∃ c cs, j.renderChars = c :: cs ∧ typeOfText c = j.typeName := by
  match j with
  | .null => exact ⟨_, _, rfl, rfl⟩
  | .bool true | .bool false => exact ⟨_, _, rfl, rfl⟩
  | .string _ => exact ⟨_, _, rfl, rfl⟩
  | .array [] | .array (_ :: _) => exact ⟨_, _, rfl, rfl⟩
  | .object [] | .object (_ :: _) => exact ⟨_, _, rfl, rfl⟩
  | .number (.float _) => exact floatless.elim
  | .number (.whole (.negSucc n)) => exact ⟨_, _, rfl, rfl⟩
  | .number (.whole (.ofNat n)) =>
    cases written : Nat.toDigits 10 n with
    | nil => exact absurd written Nat.toDigits_ne_nil
    | cons c cs =>
      have digit : c.isDigit = true :=
        Nat.isDigit_of_mem_toDigits (b := 10) (n := n) (by decide) (by decide) (written ▸ List.mem_cons_self)
      exact ⟨c, cs, written, digitBegins digit⟩

theorem typeCancels {a b : Json} (first : a.Floatless) (second : b.Floatless) {rest rest' : List Char}
    (same : a.renderChars ++ rest = b.renderChars ++ rest') : a.typeName = b.typeName := by
  obtain ⟨c, cs, text, type⟩ := textBegins first
  obtain ⟨c', cs', text', type'⟩ := textBegins second
  rw [text, text'] at same
  rw [← type, ← type', (List.cons.inj same).1]

theorem itemsEnd (items : List Json) (rest : List Char) : Ends (renderItems items ++ rest) := by
  cases items with
  | nil => exact fun c head => Option.some.inj head ▸ rfl
  | cons => exact fun c head => Option.some.inj head ▸ rfl

theorem membersEnd (members : List (String × Json)) (rest : List Char) :
    Ends (renderMembers members ++ rest) := by
  cases members with
  | nil => exact fun c head => Option.some.inj head ▸ rfl
  | cons => exact fun c head => Option.some.inj head ▸ rfl

theorem begins {c d : Char} {rest rest' : List Char} (apart : c ≠ d) : c :: rest ≠ d :: rest' :=
  fun same => apart (List.cons.inj same).1

theorem textOpens {j : Json} (floatless : j.Floatless) {c : Char} {rest rest' : List Char}
    (same : j.renderChars ++ rest = c :: rest') : typeOfText c ≠ "" := by
  obtain ⟨d, cs, text, type⟩ := textBegins floatless
  rw [text] at same
  rw [← (List.cons.inj same).1, type]
  cases j <;> simp [typeName]

theorem arrayListed {items items' : List Json} (first : FloatlessItems items) (second : FloatlessItems items')
    {rest rest' : List Char} (same : (array items).renderChars ++ rest = (array items').renderChars ++ rest') :
    renderItems items ++ rest = renderItems items' ++ rest' := by
  cases items with
  | nil =>
    cases items' with
    | nil => exact (List.cons.inj same).2
    | cons item' others' =>
      have inside : item'.renderChars ++ (renderItems others' ++ rest') = ']' :: rest :=
        (List.append_assoc ..).symm.trans (List.cons.inj same).2.symm
      exact absurd rfl (textOpens second.1 inside)
  | cons item others =>
    cases items' with
    | nil =>
      have inside : item.renderChars ++ (renderItems others ++ rest) = ']' :: rest' :=
        (List.append_assoc ..).symm.trans (List.cons.inj same).2
      exact absurd rfl (textOpens first.1 inside)
    | cons => exact congrArg (',' :: ·) (List.cons.inj same).2

theorem objectListed {members members' : List (String × Json)} {rest rest' : List Char}
    (same : (object members).renderChars ++ rest = (object members').renderChars ++ rest') :
    renderMembers members ++ rest = renderMembers members' ++ rest' := by
  cases members with
  | nil =>
    cases members' with
    | nil => exact (List.cons.inj same).2
    | cons => exact absurd (List.cons.inj same).2 (begins (by decide))
  | cons =>
    cases members' with
    | nil => exact absurd (List.cons.inj same).2 (begins (by decide))
    | cons => exact congrArg (',' :: ·) (List.cons.inj same).2

mutual

theorem textCancels (a b : Json) (first : a.Floatless) (second : b.Floatless) {rest rest' : List Char}
    (ends : Ends rest) (ends' : Ends rest') (same : a.renderChars ++ rest = b.renderChars ++ rest') :
    a = b ∧ rest = rest' := by
  have type := typeCancels first second same
  match a with
  | .null =>
    cases b with
    | null => exact ⟨rfl, List.append_cancel_left same⟩
    | _ => simp [typeName] at type
  | .bool x =>
    cases b with
    | bool y =>
      cases x <;> cases y <;> first
        | exact ⟨rfl, List.append_cancel_left same⟩
        | exact absurd same (begins (by decide))
    | _ => simp [typeName] at type
  | .number (.float _) => exact first.elim
  | .number (.whole m) =>
    cases b with
    | number n =>
      cases n with
      | whole n =>
        obtain ⟨rfl, following⟩ := wholeCancels ends ends' same
        exact ⟨rfl, following⟩
      | float => exact second.elim
    | _ => simp [typeName] at type
  | .string s =>
    cases b with
    | string t =>
      obtain ⟨text, following⟩ := stringCancels same
      exact ⟨congrArg Json.string (String.toList_inj.mp text), following⟩
    | _ => simp [typeName] at type
  | .array items =>
    cases b with
    | array items' =>
      have listed := arrayListed first second same
      obtain ⟨rfl, following⟩ := itemsCancel items items' first second ends ends' listed
      exact ⟨rfl, following⟩
    | _ => simp [typeName] at type
  | .object members =>
    cases b with
    | object members' =>
      have listed := objectListed same
      obtain ⟨rfl, following⟩ := membersCancel members members' first second ends ends' listed
      exact ⟨rfl, following⟩
    | _ => simp [typeName] at type

theorem itemsCancel (items items' : List Json) (first : FloatlessItems items) (second : FloatlessItems items')
    {rest rest' : List Char} (ends : Ends rest) (ends' : Ends rest')
    (same : renderItems items ++ rest = renderItems items' ++ rest') : items = items' ∧ rest = rest' := by
  match items with
  | [] =>
    cases items' with
    | nil => exact ⟨rfl, List.append_cancel_left same⟩
    | cons => exact absurd same (begins (by decide))
  | item :: others =>
    cases items' with
    | nil => exact absurd same (begins (by decide))
    | cons item' others' =>
      have shown : item.renderChars ++ (renderItems others ++ rest) =
          item'.renderChars ++ (renderItems others' ++ rest') := by
        simpa [renderItems] using same
      obtain ⟨rfl, later⟩ := textCancels item item' first.1 second.1 (itemsEnd _ _) (itemsEnd _ _) shown
      obtain ⟨rfl, following⟩ := itemsCancel others others' first.2 second.2 ends ends' later
      exact ⟨rfl, following⟩

theorem membersCancel (members members' : List (String × Json)) (first : FloatlessMembers members)
    (second : FloatlessMembers members') {rest rest' : List Char} (ends : Ends rest) (ends' : Ends rest')
    (same : renderMembers members ++ rest = renderMembers members' ++ rest') :
    members = members' ∧ rest = rest' := by
  match members with
  | [] =>
    cases members' with
    | nil => exact ⟨rfl, List.append_cancel_left same⟩
    | cons => exact absurd same (begins (by decide))
  | (name, value) :: others =>
    cases members' with
    | nil => exact absurd same (begins (by decide))
    | cons member others' =>
      obtain ⟨name', value'⟩ := member
      have shown : renderString name.toList ++ ':' :: (value.renderChars ++ (renderMembers others ++ rest)) =
          renderString name'.toList ++ ':' :: (value'.renderChars ++ (renderMembers others' ++ rest')) := by
        simpa [renderMembers] using same
      obtain ⟨named, valued⟩ := stringCancels shown
      obtain rfl := String.toList_inj.mp named
      obtain ⟨rfl, later⟩ := textCancels value value' first.1 second.1 (membersEnd _ _) (membersEnd _ _)
        (List.cons.inj valued).2
      obtain ⟨rfl, following⟩ := membersCancel others others' first.2 second.2 ends ends' later
      exact ⟨rfl, following⟩

end

theorem renderSame {a b : Json} (first : a.Floatless) (second : b.Floatless) : a.render = b.render ↔ a = b := by
  have read (same : a.render = b.render) : a = b := by
    have chars := congrArg (fun text : String => text.toList ++ []) same
    simp only [render, String.toList_ofList] at chars
    exact (textCancels a b first second endsNone endsNone chars).1
  exact ⟨read, congrArg render⟩

end Json

end ShapeContracts
