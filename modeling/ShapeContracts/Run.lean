import ShapeContracts.Declaration.Enum
import ShapeContracts.Declaration.Structure
import ShapeContracts.Declaration.ErrorClass
import ShapeContracts.Declaration.Operation
import ShapeContracts.Declaration.Service

/-!
A run over a model. Shapes are registered first, so that references may point forward and back; then
the kinds are generated one after the other. A failure ends a run and keeps what was done before.
-/
namespace ShapeContracts

structure Run where
  symbols : SymbolTable
  code : List (FileKey × Fragment)
  signatures : List (String × Signature)
  recorded : List (String × Schema)

structure Job where
  model : Model
  settings : Settings

inductive Pass where
  | kind (k : ShapeKind)
  | errorClasses
  deriving DecidableEq, Repr

namespace Pass

def all : List Pass :=
  Scalar.all.map (fun s => kind (.scalar s))
    ++ [kind .enum, kind .struct, errorClasses, kind .list, kind .map, kind .union,
        kind .operation, kind .service]

def entries (m : Model) : Pass → List (String × Shape)
  | kind k => m.ofKind k
  | errorClasses => (m.ofKind .struct).filter (fun e => e.2.isError)

end Pass

namespace Run

def start (job : Job) : Run := ⟨.empty job.settings.primarySpace, [], [], []⟩

def scope (r : Run) (job : Job) : Scope := ⟨job.model, r.symbols, job.settings⟩

def addCode (r : Run) (key : FileKey) (f : Fragment) : Run := { r with code := r.code ++ [(key, f)] }

def addSchema (r : Run) (id : String) (s : Schema) : Run :=
  { r with recorded := Json.put id s r.recorded }

def addSignature (r : Run) (id : String) (s : Signature) : Run :=
  { r with signatures := Json.put id s r.signatures }

def add (r : Run) (id : String) (e : Emission) : Run :=
  let r := match e.schema with
    | some s => r.addSchema id s
    | none => r
  let r := match e.code with
    | some (key, f) => r.addCode key f
    | none => r
  match e.signature with
  | some s => r.addSignature id s
  | none => r

def discover (r : Run) (job : Job) : Except Failure Nat × Run :=
  let (result, symbols) := r.symbols.discover job.model
  (result, { r with symbols := symbols })

def emission (r : Run) (job : Job) (id : String) : Shape → Except Failure Emission
  | .enum members traits => Enum.emission (r.scope job) id members traits
  | .struct members traits => Structure.emission (r.scope job) id members traits
  | .operation input output errors traits =>
    Operation.emission (r.scope job) id input output errors traits
  | .service _ operations _ traits =>
    Service.emission (r.scope job) r.signatures id operations traits
  | _ => (r.scope job).inlineEmission id

def classEmission (r : Run) (job : Job) (id : String) : Shape → Except Failure Emission
  | .struct _ traits => ErrorClass.emission (r.scope job) id traits
  | _ => pure ⟨none, none, none⟩

def addEach (emit : Run → String → Shape → Except Failure Emission) :
    List (String × Shape) → Run → Except Failure Unit × Run
  | [], r => (.ok (), r)
  | (id, shape) :: rest, r =>
    match emit r id shape with
    | .error e => (.error e, r)
    | .ok e => addEach emit rest (r.add id e)

def pass (r : Run) (job : Job) (p : Pass) : Except Failure Unit × Run :=
  match p with
  | .kind _ => addEach (fun r => r.emission job) (p.entries job.model) r
  | .errorClasses => addEach (fun r => r.classEmission job) (p.entries job.model) r

def passes (r : Run) (job : Job) : List Pass → Except Failure Unit × Run
  | [] => (.ok (), r)
  | p :: rest =>
    match r.pass job p with
    | (.error e, r) => (.error e, r)
    | (.ok (), r) => passes r job rest

def generate (r : Run) (job : Job) : Except Failure Unit × Run :=
  match r.discover job with
  | (.error e, r) => (.error e, r)
  | (.ok _, r) => r.passes job Pass.all

def fileKeys (r : Run) : List FileKey :=
  sortedBy (fun a b => !b.lt a) (r.code.map Prod.fst).eraseDups

def codeOf (r : Run) (key : FileKey) : List Fragment :=
  (r.code.filter (fun c => c.1 == key)).map Prod.snd

def schemas (r : Run) : Schemas := sortedBy (fun a b => Text.le a.1 b.1) r.recorded

def schema? (r : Run) (id : String) : Option Schema := r.recorded.lookup id

end Run
end ShapeContracts
