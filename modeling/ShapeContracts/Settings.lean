import ShapeContracts.Yaml.Node
import ShapeContracts.Json
import ShapeContracts.Text.Blank

/-!
Settings of a generation run. Every field has a default, so an empty document is a setting too.
-/
namespace ShapeContracts

namespace Settings

structure Modules where
  validators : String
  runtime : String
  deriving DecidableEq, Repr

structure Output where
  primaryDir : String
  sharedDir : String
  sharedRoot : Option String
  deriving DecidableEq, Repr

end Settings

structure Settings where
  primarySpace : String
  dateTimeSpaces : List String
  ignored : List String
  modules : Settings.Modules
  output : Settings.Output
  header : String
  deriving DecidableEq, Repr

namespace Settings

def standardModules : Modules := ⟨"zod/v4", "aws-api-shared"⟩

def standardOutput : Output :=
  ⟨"packages/s3/src/generated", "packages/aws-api-shared/src/generated", none⟩

def standard : Settings where
  primarySpace := "com.amazonaws.s3"
  dateTimeSpaces := ["com.amazonaws.shared"]
  ignored := ["smithy.test#", "smithy.waiters#"]
  modules := standardModules
  output := standardOutput
  header := "// Auto-generated by smithy-zod-gen. Do not edit."

def defaultsToDateTime (s : Settings) (space : String) : Bool :=
  space == s.primarySpace || s.dateTimeSpaces.contains space

open Yaml (Node)

def text? : Node → Option String
  | .scalar _ s => some s
  | _ => none

def optionalText? : Node → Option (Option String)
  | .scalar true s => some (if s ∈ ["", "~", "null", "Null", "NULL"] then none else some s)
  | .scalar false s => some (some s)
  | _ => none

def list? (read : Node → Option α) : Node → Option (List α)
  | .sequence items => items.mapM read
  | .scalar true "" => some []
  | _ => none

/-- The known fields of a mapping, none of which may be repeated; nothing is an empty mapping. -/
def fields? (names : List String) : Node → Option (List (String × Node))
  | .scalar true "" => some []
  | .mapping entries => do
    let named ← entries.mapM (fun e => (text? e.1).map (fun name => (name, e.2)))
    let known := named.filter (fun e => names.contains e.1)
    if (known.map Prod.fst).Nodup then some known else none
  | _ => none

def field? (fields : List (String × Node)) (name : String) (absent : α) (read : Node → Option α) :
    Option α :=
  match fields.lookup name with
  | some n => read n
  | none => some absent

def modules? (n : Node) : Option Modules := do
  let fields ← fields? ["zod", "runtime"] n
  let validators ← field? fields "zod" standardModules.validators text?
  let runtime ← field? fields "runtime" standardModules.runtime text?
  some ⟨validators, runtime⟩

def output? (n : Node) : Option Output := do
  let fields ← fields? ["primary_dir", "shared_dir", "shared_import_prefix"] n
  let primaryDir ← field? fields "primary_dir" standardOutput.primaryDir text?
  let sharedDir ← field? fields "shared_dir" standardOutput.sharedDir text?
  let sharedRoot ← field? fields "shared_import_prefix" none optionalText?
  some ⟨primaryDir, sharedDir, sharedRoot⟩

def ofNode? (n : Node) : Option Settings := do
  let fields ← fields? ["primary_namespace", "date_time_namespaces", "ignored_shape_prefixes",
    "imports", "output", "header"] n
  let primarySpace ← field? fields "primary_namespace" standard.primarySpace text?
  let dateTimeSpaces ← field? fields "date_time_namespaces" standard.dateTimeSpaces (list? text?)
  let ignored ← field? fields "ignored_shape_prefixes" standard.ignored (list? text?)
  let modules ← field? fields "imports" standardModules modules?
  let output ← field? fields "output" standardOutput output?
  let header ← field? fields "header" standard.header text?
  some ⟨primarySpace, dateTimeSpaces, ignored, modules, output, header⟩

def parse? (text : String) : Option Settings :=
  if Text.isBlank text.toList then some standard
  else do
    match ← Node.parse? text with
    | some n => ofNode? n
    | none => some standard

def toJson (s : Settings) : Json :=
  .object [("primary_namespace", .string s.primarySpace),
    ("date_time_namespaces", .array (s.dateTimeSpaces.map .string)),
    ("ignored_shape_prefixes", .array (s.ignored.map .string)),
    ("imports", .object [("zod", .string s.modules.validators),
      ("runtime", .string s.modules.runtime)]),
    ("output", .object ([("primary_dir", .string s.output.primaryDir),
      ("shared_dir", .string s.output.sharedDir)]
      ++ match s.output.sharedRoot with
        | some root => [("shared_import_prefix", .string root)]
        | none => [])),
    ("header", .string s.header)]

end Settings
end ShapeContracts
