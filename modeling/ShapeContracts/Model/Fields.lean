import ShapeContracts.Json

/-!
Records in JSON. A record is an object in which no known field is repeated and unknown ones are
left out of account, or an array of its fields in order, whose last ones may be missing.
-/
namespace ShapeContracts.Fields

def ofJson? (names : List String) : Json → Option (List (String × Json))
  | .object members =>
    let known := members.filter (fun m => names.contains m.1)
    if (known.map Prod.fst).Nodup then some known else none
  | .array items => if items.length ≤ names.length then some (names.zip items) else none
  | _ => none

def required (fields : List (String × Json)) (name : String) (read : Json → Option α) : Option α :=
  (fields.lookup name).bind read

def withDefault (fields : List (String × Json)) (name : String) (absent : α)
    (read : Json → Option α) : Option α :=
  match fields.lookup name with
  | some j => read j
  | none => some absent

def optional (fields : List (String × Json)) (name : String) (read : Json → Option α) :
    Option (Option α) :=
  match fields.lookup name with
  | some .null | none => some none
  | some j => (read j).map some

def listOf (read : Json → Option α) : Json → Option (List α)
  | .array items => items.mapM read
  | _ => none

def mapOf (read : Json → Option α) : Json → Option (List (String × α))
  | .object members =>
    (members.mapM (fun m => (read m.2).map (fun v => (m.1, v)))).map Json.settleNames
  | _ => none

def word (read : String → Option α) : Json → Option α
  | .string s => read s
  | .object [(s, .null)] => read s
  | _ => none

def natural (bound : Nat) (j : Json) : Option Nat :=
  j.natural?.bind (fun n => if n < bound then some n else none)

end ShapeContracts.Fields
