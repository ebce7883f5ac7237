import ShapeContracts.FileKey
import ShapeContracts.Model.Shape
import ShapeContracts.Binary64.Decimal

/-!
Validators as data. A schema is what resolution yields for a reference; it is both written as code
and evaluated on values.
-/
namespace ShapeContracts

structure SchemaRef where
  shapeId : String
  name : String
  fileKey : FileKey
  kind : ShapeKind
  deriving DecidableEq, Repr

inductive Check where
  | minLength (bound : Nat)
  | maxLength (bound : Nat)
  | minValue (bound : Binary64)
  | maxValue (bound : Binary64)
  deriving DecidableEq

inductive DefaultValue where
  | text (s : String)
  | flag (b : Bool)
  | bytes (bs : List UInt8)
  | json (j : Json)

inductive Schema where
  | string (minLength maxLength : Option Nat) (pattern : Option String)
  | number (integer : Bool) (min max : Option Binary64)
  | bigint
  | boolean
  | bytes
  | unknown
  | dateTime
  | httpDate
  | epochSeconds
  | enum (typeName : String) (values : List String)
  | array (item : Schema) (minLength maxLength : Option Nat) (unique : Bool)
  | record (key value : Schema)
  | union (members : List Schema)
  | object (fields : List (String × Schema × List String))
  | ref (r : SchemaRef)
  | lazy (inner : Schema)
  | refine (inner : Schema) (check : Check)
  | optional (inner : Schema)
  | withDefault (inner : Schema) (value : DefaultValue)
  | marked (comment : String) (inner : Schema)

abbrev Schemas := List (String × Schema)

namespace Schemas

def ids (schemas : Schemas) : List String := schemas.map Prod.fst

/-- What is recorded for a shape, and the schema that accepts anything for every other. -/
def get (schemas : Schemas) (id : String) : Schema := (schemas.lookup id).getD .unknown

end Schemas

namespace Schema

instance : Inhabited Schema := ⟨.unknown⟩

def anyString : Schema := .string none none none

def anyInteger : Schema := .number true none none

def ofTimestampFormat : TimestampFormat → Schema
  | .dateTime => .dateTime
  | .httpDate => .httpDate
  | .epochSeconds => .epochSeconds

def replaceMarked : Schema → Schema → Schema
  | .marked comment inner, replacement => .marked comment (replaceMarked inner replacement)
  | _, replacement => replacement

def withNotes (notes : List String) (s : Schema) : Schema := notes.foldr .marked s

def isEnumRef : Schema → Bool
  | .ref r => r.kind == .enum
  | .lazy inner => isEnumRef inner
  | _ => false

theorem replaceWithNotes (s r : Schema) (notes : List String) :
    replaceMarked (withNotes notes s) r = withNotes notes (replaceMarked s r) := by
  induction notes with
  | nil => rfl
  | cons n ns ih => simpa [withNotes, replaceMarked] using ih

end Schema

namespace DefaultValue

def toJson : DefaultValue → Json
  | text s => .string s
  | flag b => .bool b
  | bytes bs => .array (bs.map (fun b => .ofNat b.toNat))
  | json j => j

end DefaultValue
end ShapeContracts
