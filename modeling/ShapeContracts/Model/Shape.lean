import ShapeContracts.Model.Traits
import ShapeContracts.ShapeId

/-!
Shapes and models. Shapes, members, traits and metadata stand in document order.
-/
namespace ShapeContracts

inductive Scalar where
  | blob
  | boolean
  | document
  | integer
  | long
  | string
  | timestamp
  deriving DecidableEq, Repr

def Scalar.name : Scalar → String
  | blob => "blob"
  | boolean => "boolean"
  | document => "document"
  | integer => "integer"
  | long => "long"
  | string => "string"
  | timestamp => "timestamp"

def Scalar.all : List Scalar := [blob, boolean, document, integer, long, string, timestamp]

inductive ShapeKind where
  | scalar (s : Scalar)
  | enum
  | list
  | map
  | struct
  | union
  | operation
  | service
  deriving DecidableEq, Repr

namespace ShapeKind

def name : ShapeKind → String
  | scalar s => s.name
  | enum => "enum"
  | list => "list"
  | map => "map"
  | struct => "structure"
  | union => "union"
  | operation => "operation"
  | service => "service"

def all : List ShapeKind :=
  Scalar.all.map scalar ++ [enum, list, map, struct, union, operation, service]

def ofName? (name : String) : Option ShapeKind := all.find? (fun k => k.name == name)

theorem nameRead (k : ShapeKind) : ofName? k.name = some k := by
  rcases k with (_ | _ | _ | _ | _ | _ | _) | _ <;> decide

def isSchemaBearing : ShapeKind → Bool
  | operation | service => false
  | _ => true

def isStringCompatible : ShapeKind → Bool
  | scalar .string | enum => true
  | _ => false

/-- Shapes of the kind have a declaration of their own; all others are expanded where they are used. -/
def isStandalone : ShapeKind → Bool
  | enum | struct => true
  | _ => false

end ShapeKind

structure Member where
  target : String
  traits : Traits

inductive Shape where
  | scalar (kind : Scalar) (traits : Traits)
  | enum (members : List (String × Member)) (traits : Traits)
  | list (member : Member) (traits : Traits)
  | map (key value : Member) (traits : Traits)
  | struct (members : List (String × Member)) (traits : Traits)
  | union (members : List (String × Member)) (traits : Traits)
  | operation (input output : Option String) (errors : List String) (traits : Traits)
  | service (version : Option String) (operations resources : List String) (traits : Traits)
  | unsupported

namespace Shape

def kind? : Shape → Option ShapeKind
  | scalar s _ => some (.scalar s)
  | enum .. => some .enum
  | list .. => some .list
  | map .. => some .map
  | struct .. => some .struct
  | union .. => some .union
  | operation .. => some .operation
  | service .. => some .service
  | unsupported => none

def traits? : Shape → Option Traits
  | scalar _ t | enum _ t | list _ t | map _ _ t | struct _ t | union _ t => some t
  | operation _ _ _ t | service _ _ _ t => some t
  | unsupported => none

def isError : Shape → Bool
  | struct _ t => t.error.isSome
  | _ => false

def memberNames : Shape → List String
  | enum members _ | struct members _ | union members _ => members.map Prod.fst
  | _ => []

def settleMembers : Shape → Shape
  | enum members t => enum (Json.settleNames members) t
  | struct members t => struct (Json.settleNames members) t
  | union members t => union (Json.settleNames members) t
  | other => other

theorem settleMembersDistinct (s : Shape) : s.settleMembers.memberNames.Nodup := by
  cases s <;> simp [settleMembers, memberNames, Json.settleNamesDistinct]

end Shape

structure Model where
  version : String
  shapes : List (String × Shape)
  metadata : List (String × Json)
  distinct : (shapes.map Prod.fst).Nodup
  membersDistinct : ∀ e ∈ shapes, e.2.memberNames.Nodup

namespace Model

def ofEntries (version : String) (shapes : List (String × Shape))
    (metadata : List (String × Json)) : Model where
  version := version
  shapes := Json.settleNames (shapes.map (fun e => (e.1, e.2.settleMembers)))
  metadata := metadata
  distinct := Json.settleNamesDistinct _
  membersDistinct e h := by
    obtain ⟨_, _, rfl⟩ := List.mem_map.1 (Json.memSettleNames h)
    exact Shape.settleMembersDistinct _

def shape? (m : Model) (id : String) : Option Shape := m.shapes.lookup id

def kind? (m : Model) (id : String) : Option ShapeKind := (m.shape? id).bind Shape.kind?

def ofKind (m : Model) (kind : ShapeKind) : List (String × Shape) :=
  m.shapes.filter (fun s => s.2.kind? == some kind)

def without (m : Model) (prefixes : List String) : Model where
  version := m.version
  shapes := m.shapes.filter (fun s => !prefixes.any (fun p => p.toList.isPrefixOf s.1.toList))
  metadata := m.metadata
  distinct := m.distinct.sublist (List.filter_sublist.map _)
  membersDistinct e h := m.membersDistinct e (List.mem_filter.1 h).1

def countName (s : Shape) : String := (s.kind?.map ShapeKind.name).getD "other"

def counts (m : Model) : List (String × Nat) :=
  let names := m.shapes.map (fun s => countName s.2)
  let sorted := sortedBy Text.le names.eraseDups
  sorted.map (fun name => (name, names.count name))

def unsupported (m : Model) : List String :=
  (m.shapes.filter (fun s => s.2.kind?.isNone)).map Prod.fst

def services (m : Model) : List String := (m.ofKind .service).map Prod.fst

end Model
end ShapeContracts
