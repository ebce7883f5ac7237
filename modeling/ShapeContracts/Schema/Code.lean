import ShapeContracts.Schema
import ShapeContracts.Fragment
import ShapeContracts.Pattern.Anchored

/-!
Schemas as code in the vocabulary of the validator library, seen from the file that they are
written in: a reference is a symbol inside that file and an import everywhere else.
-/
namespace ShapeContracts

structure CodeModules where
  validators : String
  runtime : String
  sharedRoot : Option String

def Settings.codeModules (s : Settings) : CodeModules :=
  ⟨s.modules.validators, s.modules.runtime, s.output.sharedRoot⟩

def Binary64.code (x : Binary64) : String :=
  if x.isWhole ∧ x.units < Nat.pow 10 15 * Binary64.one then toString x.truncate else x.plain

def dateTimeBinding : String := "rfc3339DateTimeTimestampSchema"

def httpDateBinding : String := "imfFixdateTimestampSchema"

def codeLines (lines : List String) : String := "\n".intercalate lines

def uniqueItemsCode : String :=
  codeLines ["(items, refinementContext) => \x7b",
    "  const seen = new Map<string, number>();",
    "  for (let index = 0; index < items.length; index += 1) \x7b",
    "    const serialized = JSON.stringify(items[index]);",
    "    const key = serialized === undefined ? \"__undefined__\" : serialized;",
    "    if (seen.has(key)) \x7b",
    "      refinementContext.addIssue(\x7b",
    "        code: \"custom\",",
    "        message: \"Duplicate items are not allowed.\",",
    "        path: [index],",
    "      \x7d);",
    "      return;",
    "    \x7d",
    "    seen.set(key, index);",
    "  \x7d",
    "\x7d"]

namespace Check

def preamble : Check → List String
  | minLength _ | maxLength _ =>
    ["  const valueWithLength = value as \x7b length?: number \x7d | null | undefined;",
     "  const currentLength = valueWithLength?.length;"]
  | minValue _ | maxValue _ => []

def bound : Check → String
  | minLength n | maxLength n => toString n
  | minValue x | maxValue x => x.code

def measured : Check → String
  | minLength _ | maxLength _ => "currentLength"
  | minValue _ | maxValue _ => "value"

def violation : Check → String
  | minLength _ | minValue _ => "<"
  | maxLength _ | maxValue _ => ">"

def condition (c : Check) : String :=
  String.join ["typeof ", c.measured, " === \"number\" && ", c.measured, " ", c.violation, " ",
    c.bound]

def issueCode : Check → String
  | minLength _ | minValue _ => "too_small"
  | maxLength _ | maxValue _ => "too_big"

def boundKey : Check → String
  | minLength _ | minValue _ => "minimum"
  | maxLength _ | maxValue _ => "maximum"

def origin : Check → String
  | minLength _ | maxLength _ => "array"
  | minValue _ | maxValue _ => "number"

def code (c : Check) : String :=
  codeLines ("(value, refinementContext) => \x7b" :: (c.preamble ++
    ["  if (" ++ c.condition ++ ") \x7b",
     "    refinementContext.addIssue(\x7b",
     "      code: \"" ++ c.issueCode ++ "\",",
     "      " ++ c.boundKey ++ ": " ++ c.bound ++ ",",
     "      inclusive: true,",
     "      origin: \"" ++ c.origin ++ "\",",
     "      path: [],",
     "    \x7d);",
     "  \x7d",
     "\x7d"]))

end Check

def DefaultValue.code : DefaultValue → Fragment
  | text s => .literal s
  | flag b => .raw (if b then "true" else "false")
  | bytes bs =>
    .raw ("new Uint8Array([" ++ ", ".intercalate (bs.map (fun b => toString b.toNat)) ++ "])")
  | json j => .raw j.render

namespace Schema

def whenSome (bound : Option α) (name : String) (code : α → String) (f : Fragment) : Fragment :=
  match bound with
  | some x => f.method name [.raw (code x)]
  | none => f

def refCode (source : FileKey) (m : CodeModules) (r : SchemaRef) : Fragment :=
  if r.fileKey = source then .symbol r.name
  else .imported r.name (r.fileKey.importPath source m.sharedRoot)

mutual

def lower (source : FileKey) (m : CodeModules) : Schema → Fragment
  | .string min max pattern =>
    let f := whenSome max "max" toString (whenSome min "min" toString ((z m).method "string" []))
    match pattern with
    | some p => f.method "regex" [.call (.raw "new RegExp") [.literal (Pattern.anchored p)]]
    | none => f
  | .number integer min max =>
    let f := (z m).method "number" []
    let f := if integer then f.method "int" [] else f
    whenSome max "max" Binary64.code (whenSome min "min" Binary64.code f)
  | .bigint => (z m).method "bigint" []
  | .boolean => (z m).method "boolean" []
  | .bytes => (z m).method "instanceof" [.raw "Uint8Array"]
  | .unknown => (z m).method "unknown" []
  | .dateTime => .imported dateTimeBinding m.runtime
  | .httpDate => .imported httpDateBinding m.runtime
  | .epochSeconds => (z m).method "number" []
  | .enum typeName _ => (z m).method "enum" [.symbol typeName]
  | .array item min max unique =>
    let f := (z m).method "array" [lower source m item]
    let f := whenSome max "max" toString (whenSome min "min" toString f)
    if unique then f.method "superRefine" [.raw uniqueItemsCode] else f
  | .record key value =>
    (z m).method (if key.isEnumRef then "partialRecord" else "record")
      [lower source m key, lower source m value]
  | .union [] => (z m).method "never" []
  | .union (first :: rest) =>
    (z m).method "union" [.array (lower source m first :: lowerAll source m rest)]
  | .object fields => (z m).method "object" [.object (lowerFields source m fields)]
  | .ref r => refCode source m r
  | .lazy inner => (z m).method "lazy" [.arrow (lower source m inner)]
  | .refine inner check => (lower source m inner).method "superRefine" [.raw check.code]
  | .optional inner => (lower source m inner).method "optional" []
  | .withDefault inner value => (lower source m inner).method "default" [value.code]
  | .marked comment inner => .commented comment (lower source m inner)
where
  z (m : CodeModules) : Fragment := .imported "z" m.validators

def lowerAll (source : FileKey) (m : CodeModules) : List Schema → List Fragment
  | [] => []
  | s :: rest => lower source m s :: lowerAll source m rest

def lowerFields (source : FileKey) (m : CodeModules) :
    List (String × Schema × List String) → List (String × Fragment × List String)
  | [] => []
  | (name, s, comments) :: rest =>
    (name, lower source m s, comments) :: lowerFields source m rest

end

end Schema
end ShapeContracts
