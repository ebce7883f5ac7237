import ShapeContracts.Model.Shape
import ShapeContracts.Model.Fields
import ShapeContracts.Json.Reader

/-!
Models from JSON. Typed traits may be null, which leaves them absent; every other field has to have
its own form. A shape of a type that is not known is unsupported whatever else it holds.
-/
namespace ShapeContracts

open Fields

def Bounds.ofJson? (read : Json → Option α) (j : Json) : Option (Bounds α) := do
  let fields ← Fields.ofJson? ["min", "max"] j
  let min ← optional fields "min" read
  let max ← optional fields "max" read
  some ⟨min, max⟩

def Traits.ofJson? : Json → Option Traits
  | .object members => do
    let fields ← Fields.ofJson? Key.all (.object members)
    let documentation ← optional fields Key.documentation Json.string?
    let range ← optional fields Key.range (Bounds.ofJson? Json.float?)
    let length ← optional fields Key.length (Bounds.ofJson? Json.natural?)
    let pattern ← optional fields Key.pattern Json.string?
    let required ← optional fields Key.required (fun j => some j.settle)
    let defaultValue ← optional fields Key.defaultValue (fun j => some j.settle)
    let uniqueItems ← optional fields Key.uniqueItems (fun j => some j.settle)
    let timestampFormat ← optional fields Key.timestampFormat (word TimestampFormat.ofName?)
    let enumValue ← optional fields Key.enumValue (fun j => some j.settle)
    let error ← optional fields Key.error (word ErrorKind.ofName?)
    let httpError ← optional fields Key.httpError (natural 65536)
    let streaming ← optional fields Key.streaming (fun j => some j.settle)
    let extra := (members.filter (fun m => !Key.all.contains m.1)).map (fun m => (m.1, m.2.settle))
    some ⟨documentation, range, length, pattern, required, defaultValue, uniqueItems,
      timestampFormat, enumValue, error, httpError, streaming, Json.settleNames extra⟩
  | _ => none

def Traits.parse? (text : String) : Option Traits := (Json.parseRaw? text).bind ofJson?

def Shape.targetOfJson? (j : Json) : Option String := do
  let fields ← Fields.ofJson? ["target"] j
  required fields "target" Json.string?

def Member.ofJson? (j : Json) : Option Member := do
  let fields ← Fields.ofJson? ["target", "traits"] j
  let target ← required fields "target" Json.string?
  let traits ← withDefault fields "traits" Traits.empty Traits.ofJson?
  some ⟨target, traits⟩

namespace Shape

def fieldNames : ShapeKind → List String
  | .scalar _ => ["traits"]
  | .enum | .struct | .union => ["members", "traits"]
  | .list => ["member", "traits"]
  | .map => ["key", "value", "traits"]
  | .operation => ["input", "output", "errors", "traits"]
  | .service => ["version", "operations", "resources", "traits"]

def typed? : Json → Option (String × Json)
  | .object members =>
    match members.filter (fun m => m.1 == "type") with
    | [(_, .string type)] => some (type, .object (members.filter (fun m => m.1 != "type")))
    | _ => none
  | .array (.string type :: rest) => some (type, .array rest)
  | _ => none

def ofFields? (kind : ShapeKind) (j : Json) : Option Shape := do
  let fields ← Fields.ofJson? (fieldNames kind) j
  let traits ← withDefault fields "traits" Traits.empty Traits.ofJson?
  let members := withDefault fields "members" [] (mapOf Member.ofJson?)
  match kind with
  | .scalar s => some (.scalar s traits)
  | .enum => members.map (fun ms => .enum ms traits)
  | .struct => members.map (fun ms => .struct ms traits)
  | .union => members.map (fun ms => .union ms traits)
  | .list => (required fields "member" Member.ofJson?).map (fun m => .list m traits)
  | .map => do
    let key ← required fields "key" Member.ofJson?
    let value ← required fields "value" Member.ofJson?
    some (.map key value traits)
  | .operation => do
    let input ← optional fields "input" targetOfJson?
    let output ← optional fields "output" targetOfJson?
    let errors ← withDefault fields "errors" [] (listOf targetOfJson?)
    some (.operation input output errors traits)
  | .service => do
    let version ← optional fields "version" Json.string?
    let operations ← withDefault fields "operations" [] (listOf targetOfJson?)
    let resources ← withDefault fields "resources" [] (listOf targetOfJson?)
    some (.service version operations resources traits)

def ofJson? (j : Json) : Option Shape := do
  let (type, rest) ← typed? j
  match ShapeKind.ofName? type with
  | some kind => ofFields? kind rest
  | none => some .unsupported

end Shape

namespace Model

def ofJson? (j : Json) : Option Model := do
  let fields ← Fields.ofJson? ["smithy", "shapes", "metadata"] j
  let version ← required fields "smithy" Json.string?
  let shapes ← withDefault fields "shapes" [] (mapOf Shape.ofJson?)
  let metadata ← withDefault fields "metadata" [] (mapOf (fun j => some j.settle))
  some (.ofEntries version shapes metadata)

def parse? (text : String) : Option Model := (Json.parseRaw? text).bind ofJson?

end Model
end ShapeContracts
