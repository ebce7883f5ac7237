import ShapeContracts.Schema
import ShapeContracts.Issue
import ShapeContracts.Visited
import ShapeContracts.Timestamp
import ShapeContracts.Json.Wide
import ShapeContracts.Text.Units
import ShapeContracts.Pattern.Anchored
import ShapeContracts.Pattern.Reader

/-!
Schemas as validators of JSON values. Absent optional members may stay absent, defaults fill absent
members, date-times come back normalized, and unknown members of objects are dropped. Following
references on one value ends: a reference met twice on the same value would be followed for ever,
and is reported instead.
-/
namespace ShapeContracts

inductive Outcome (α : Type) where
  | valid (a : α)
  | invalid (issues : List Issue)
  /-- References on the same value lead back to themselves. -/
  | endless

namespace Outcome

def issue (code : IssueCode) (message : String) : Outcome α := .invalid [.new code message]

def map (f : α → β) : Outcome α → Outcome β
  | valid a => valid (f a)
  | invalid issues => invalid issues
  | endless => endless

def bind (o : Outcome α) (f : α → Outcome β) : Outcome β :=
  match o with
  | valid a => f a
  | invalid issues => invalid issues
  | endless => endless

def both (f : α → β → γ) : Outcome α → Outcome β → Outcome γ
  | valid a, valid b => valid (f a b)
  | invalid i, invalid j => invalid (i ++ j)
  | invalid i, valid _ => invalid i
  | valid _, invalid j => invalid j
  | endless, _ => endless
  | _, endless => endless

def within (segment : PathSegment) : Outcome α → Outcome α
  | invalid issues => invalid (issues.map (fun i => i.within segment))
  | other => other

def finish (issues : List Issue) (a : α) : Outcome α :=
  if issues.isEmpty then valid a else invalid issues

def ofOption (o : Option α) (otherwise : Outcome α) : Outcome α :=
  match o with
  | some a => valid a
  | none => otherwise

end Outcome

namespace Json

def typeName : Json → String
  | .null => "null"
  | .bool _ => "boolean"
  | .number _ => "number"
  | .string _ => "string"
  | .array _ => "array"
  | .object _ => "object"

def isByte (j : Json) : Bool :=
  match j.natural? with
  | some n => n < 256
  | none => false

def length? : Json → Option Nat
  | .string s => some (Text.unitLength s)
  | .array items => some items.length
  | _ => none

end Json

/-- The issue of a value outside a bound; a bound says nothing on values that it does not fit. -/
def Check.issue? (c : Check) (j : Json) : Option Issue :=
  match c with
  | minLength n => j.length?.bind (fun l => Issue.belowLength? l n)
  | maxLength n => j.length?.bind (fun l => Issue.aboveLength? l n)
  | minValue x => j.float?.bind (fun y => Issue.belowValue? y x)
  | maxValue x => j.float?.bind (fun y => Issue.aboveValue? y x)

namespace Pattern

def noMatch (pattern : String) : Issue :=
  .new .invalidFormat (String.join ["Invalid string: must match pattern ", anchored pattern])

def unreadable (pattern : String) (e : SyntaxError) : Issue :=
  .new .custom (String.join ["Pattern ", pattern, " cannot be evaluated: ", e.message])

def verdict (pattern text : String) : Except SyntaxError Pattern → Option Issue
  | .ok p => if p.isFoundIn text.toList then none else some (noMatch pattern)
  | .error e => some (unreadable pattern e)

def issue? (pattern text : String) : Option Issue :=
  verdict pattern text (parse (anchored pattern))

end Pattern

namespace Schema

def expected : Schema → String
  | .string .. | .dateTime | .httpDate | .enum .. => "string"
  | .number .. | .epochSeconds => "number"
  | .bigint => "bigint"
  | .boolean => "boolean"
  | .bytes => "Uint8Array"
  | .array .. => "array"
  | .record .. | .object _ => "object"
  | _ => "value"

def mismatch (s : Schema) (received : String) : Outcome α :=
  .issue .invalidType (String.join ["Invalid input: expected ", s.expected, ", received ", received])

def checkText (min max : Option Nat) (pattern : Option String) (text : String) : List Issue :=
  let length := Text.unitLength text
  (min.bind (Issue.belowLength? length)).toList ++ (max.bind (Issue.aboveLength? length)).toList
    ++ (pattern.bind (fun p => Pattern.issue? p text)).toList

def checkNumber (integer : Bool) (min max : Option Binary64) (j : Json) (x : Binary64) : Outcome Json :=
  if integer && !j.isSafeInteger then
    .issue .invalidType "Invalid input: expected int, received number"
  else
    .finish ((min.bind (Issue.belowValue? x)).toList ++ (max.bind (Issue.aboveValue? x)).toList) j

def checkLength (min max : Option Nat) (items : List Json) : Outcome Unit :=
  .finish ((min.bind (Issue.belowLength? items.length)).toList
    ++ (max.bind (Issue.aboveLength? items.length)).toList) ()

def checkUnique (unique : Bool) (items : List Json) : Outcome Json :=
  .finish (if unique then (Issue.repeatedItem? items).toList else []) (.array items)

def quotedList (values : List String) : String :=
  "|".intercalate (values.map (fun v => "\"" ++ v ++ "\""))

def evaluateSimple (s : Schema) (j : Json) : Outcome Json :=
  match s with
  | .string min max pattern =>
    match j with
    | .string text => .finish (checkText min max pattern text) j
    | _ => s.mismatch j.typeName
  | .number integer min max =>
    match j.float? with
    | some x => checkNumber integer min max j x
    | none => s.mismatch j.typeName
  | .bigint => .ofOption (j.whole?.map (fun _ => j)) (s.mismatch j.typeName)
  | .boolean => .ofOption (j.bool?.map .bool) (s.mismatch j.typeName)
  | .bytes =>
    match j with
    | .array items => if items.all Json.isByte then .valid j else s.mismatch j.typeName
    | _ => s.mismatch j.typeName
  | .dateTime =>
    match j with
    | .string text =>
      match Timestamp.normalize text with
      | .ok normalized => .valid (.string normalized)
      | .error e => .issue .invalidFormat e.message
    | _ => s.mismatch j.typeName
  | .httpDate =>
    match j with
    | .string text =>
      match Timestamp.checkHttpDate text with
      | .ok () => .valid j
      | .error e => .issue .invalidFormat e.message
    | _ => s.mismatch j.typeName
  | .epochSeconds => .ofOption (j.float?.map (fun _ => j)) (s.mismatch j.typeName)
  | .enum _ values =>
    match j with
    | .string text =>
      if text ∈ values then .valid j
      else .issue .invalidValue (String.join ["Invalid option: expected one of ", quotedList values])
    | _ => s.mismatch j.typeName
  | _ => s.mismatch j.typeName

def noAlternative (issues : List Issue) : Outcome α :=
  .issue .invalidValue (String.join ["Invalid input: no union member matched (",
    toString issues.length, " issue(s) on the first)"])

theorem lookupSmaller {members : List (String × Json)} {name : String} {j : Json}
    (h : members.lookup name = some j) : sizeOf j < sizeOf members := by
  induction members with
  | nil => simp at h
  | cons m rest ih =>
    obtain ⟨n, v⟩ := m
    rw [List.lookup_cons] at h
    split at h
    · obtain rfl := Option.some.inj h
      simp only [List.cons.sizeOf_spec, Prod.mk.sizeOf_spec]
      omega
    · have := ih h
      simp only [List.cons.sizeOf_spec]
      omega

theorem sizeOfListPositive (l : List α) [SizeOf α] : 0 < sizeOf l := by
  cases l <;> simp +arith

theorem lookupOptionSmaller (members : List (String × Json)) (name : String) :
    sizeOf (members.lookup name) < sizeOf members + 1 := by
  cases h : members.lookup name with
  | none =>
    have := sizeOfListPositive members
    simp only [Option.none.sizeOf_spec]
    omega
  | some j =>
    have := lookupSmaller h
    simp only [Option.some.sizeOf_spec]
    omega

mutual

/--
A schema on a value, or on nothing for an absent member. The references that led here on the same
value are `followed`.
-/
def evaluate (schemas : Schemas) (s : Schema) (value : Option Json) (followed : List String) :
    Outcome (Option Json) :=
  match s, value with
  | .optional _, none => .valid none
  | .optional inner, some j => evaluate schemas inner (some j) followed
  | .withDefault _ fallback, none => .valid (some fallback.toJson)
  | .withDefault inner _, some j => evaluate schemas inner (some j) followed
  | .marked _ inner, value => evaluate schemas inner value followed
  | .lazy inner, value => evaluate schemas inner value followed
  | .ref r, value =>
    if r.shapeId ∉ schemas.ids then
      .issue .custom (String.join ["No schema generated for ", r.shapeId])
    else if r.shapeId ∈ followed then .endless
    else evaluate schemas (schemas.get r.shapeId) value (followed ++ [r.shapeId])
  | .unknown, value => .valid value
  | .refine inner check, value =>
    (evaluate schemas inner value followed).bind (fun parsed =>
      .finish (parsed.bind check.issue?).toList parsed)
  | s, none => s.mismatch "undefined"
  | .array item min max unique, some (.array items) =>
    (((evaluateItems schemas item items 0).both (fun parsed () => parsed)
      (checkLength min max items)).bind (checkUnique unique)).map some
  | .record key value, some (.object entries) =>
    (evaluateEntries schemas key value entries).map (fun entries => some (.object entries))
  | .union [], some j => Schema.mismatch (.union []) j.typeName
  | .union (first :: rest), some j => evaluateUnion schemas first rest j followed
  | .object fields, some (.object entries) =>
    (evaluateFields schemas fields entries).map
      (fun members => some (.object (Json.settleNames members)))
  | s, some j => (s.evaluateSimple j).map some
termination_by (sizeOf value, unvisited schemas followed, sizeOf s)
decreasing_by
  iterate 4
    apply Prod.Lex.right
    apply Prod.Lex.right
    simp +arith
  · apply Prod.Lex.right
    apply Prod.Lex.left
    exact unvisitedVisit (by simp_all [Schemas.ids]) (by simp_all)
  · apply Prod.Lex.right
    apply Prod.Lex.right
    simp +arith
  · apply Prod.Lex.left
    simp +arith
  · apply Prod.Lex.left
    simp +arith
  · apply Prod.Lex.right
    apply Prod.Lex.right
    simp +arith
  · apply Prod.Lex.left
    simp +arith

def evaluateItems (schemas : Schemas) (item : Schema) (items : List Json) (i : Nat) :
    Outcome (List Json) :=
  match items with
  | [] => .valid []
  | j :: rest =>
    ((evaluate schemas item (some j) []).within (.index i)).both
      (fun parsed parsedRest => parsed.getD .null :: parsedRest)
      (evaluateItems schemas item rest (i + 1))
termination_by (sizeOf items, 0, 0)
decreasing_by
  all_goals
    have := sizeOfListPositive rest
    apply Prod.Lex.left
    simp only [Option.some.sizeOf_spec, List.cons.sizeOf_spec]
    omega

def evaluateEntries (schemas : Schemas) (key value : Schema) (entries : List (String × Json)) :
    Outcome (List (String × Json)) :=
  match entries with
  | [] => .valid []
  | (name, j) :: rest =>
    (((evaluate schemas key (some (.string name)) []).bind
        (fun _ => evaluate schemas value (some j) [])).within (.key name)).both
      (fun parsed parsedRest => match parsed with
        | some parsed => (name, parsed) :: parsedRest
        | none => parsedRest)
      (evaluateEntries schemas key value rest)
termination_by (sizeOf entries, 0, 0)
decreasing_by
  all_goals
    have := sizeOfListPositive rest
    apply Prod.Lex.left
    simp only [Option.some.sizeOf_spec, Json.string.sizeOf_spec, List.cons.sizeOf_spec,
      Prod.mk.sizeOf_spec]
    omega

def evaluateUnion (schemas : Schemas) (first : Schema) (rest : List Schema) (j : Json)
    (followed : List String) : Outcome (Option Json) :=
  match evaluate schemas first (some j) followed with
  | .valid parsed => .valid (some (parsed.getD .null))
  | .endless => .endless
  | .invalid issues => evaluateOthers schemas issues rest j followed
termination_by (sizeOf (some j), unvisited schemas followed, sizeOf first + sizeOf rest + 1)
decreasing_by
  all_goals (apply Prod.Lex.right; apply Prod.Lex.right; simp +arith)

def evaluateOthers (schemas : Schemas) (issues : List Issue) (members : List Schema) (j : Json)
    (followed : List String) : Outcome (Option Json) :=
  match members with
  | [] => noAlternative issues
  | s :: rest =>
    match evaluate schemas s (some j) followed with
    | .valid parsed => .valid (some (parsed.getD .null))
    | .endless => .endless
    | .invalid _ => evaluateOthers schemas issues rest j followed
termination_by (sizeOf (some j), unvisited schemas followed, sizeOf members)
decreasing_by
  all_goals (apply Prod.Lex.right; apply Prod.Lex.right; simp +arith)

def evaluateFields (schemas : Schemas) (fields : List (String × Schema × List String))
    (entries : List (String × Json)) : Outcome (List (String × Json)) :=
  match fields with
  | [] => .valid []
  | (name, s, _) :: rest =>
    ((evaluate schemas s (entries.lookup name) []).within (.key name)).both
      (fun parsed parsedRest => match parsed with
        | some parsed => (name, parsed) :: parsedRest
        | none => parsedRest)
      (evaluateFields schemas rest entries)
termination_by (sizeOf entries + 1, 0, sizeOf fields)
decreasing_by
  · apply Prod.Lex.left
    exact lookupOptionSmaller entries name
  · apply Prod.Lex.right; apply Prod.Lex.right; simp +arith

end

def validate (schemas : Schemas) (s : Schema) (j : Json) : Outcome Json :=
  (evaluate schemas s (some j) []).map (fun parsed => parsed.getD .null)

end Schema
end ShapeContracts
