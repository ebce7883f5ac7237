import ShapeContracts.Run
import ShapeContracts.Fragment.Printer
import ShapeContracts.Evaluation

/-!
The outcome of a run: the texts of the generated files, and the schemas to validate values with.
-/
namespace ShapeContracts

def fileText (header imports : String) (body : List Char) : String :=
  let imported := if imports.isEmpty then [] else '\n' :: '\n' :: imports.toList
  String.ofList (Text.trimEnd (header.toList ++ imported ++ '\n' :: '\n' :: body) ++ ['\n'])

namespace Run

def render (r : Run) (job : Job) (key : FileKey) : String :=
  let bindings := Fragment.Bindings.ofDeclared (r.symbols.declaredIn key)
  let (texts, bindings) := Fragment.printAll bindings (r.codeOf key)
  fileText job.settings.header bindings.importBlock (['\n', '\n'].intercalate texts)

def files (r : Run) (job : Job) : List (FileKey × String) :=
  r.fileKeys.map (fun key => (key, r.render job key))

end Run

structure Contracts where
  job : Job
  run : Run

namespace Contracts

def ofModel (job : Job) : Except Failure Contracts :=
  match (Run.start job).generate job with
  | (.error e, _) => .error e
  | (.ok (), r) => .ok ⟨job, r⟩

def files (c : Contracts) : List (FileKey × String) := c.run.files c.job

def schemas (c : Contracts) : Schemas := c.run.schemas

theorem ofModelOk {job : Job} {c : Contracts} :
    ofModel job = .ok c ↔ c.job = job ∧ (Run.start job).generate job = (.ok (), c.run) := by
  obtain ⟨job', run⟩ := c
  rw [ofModel]
  split <;> grind

def schema? (c : Contracts) (id : String) : Option Schema := c.schemas.lookup id

def validate (c : Contracts) (id : String) (j : Json) : Except Failure (Outcome Json) :=
  match c.schema? id with
  | some s => .ok (s.validate c.schemas j)
  | none => .error (.noSchema id)

/-- Stores files in order, each at its path, up to the first that has none or is refused. -/
def writeFiles [Monad m] (layout : Layout) (sink : String → String → m (Except Failure Unit)) :
    List (FileKey × String) → m (Except Failure (List String))
  | [] => pure (.ok [])
  | (key, text) :: rest =>
    match layout.path? key with
    | none => pure (.error (.missingOutputPath key))
    | some path => do
      match ← sink path text with
      | .error e => pure (.error e)
      | .ok () =>
        match ← writeFiles layout sink rest with
        | .error e => pure (.error e)
        | .ok paths => pure (.ok (path :: paths))

def writeTo [Monad m] (c : Contracts) (layout : Layout)
    (sink : String → String → m (Except Failure Unit)) : m (Except Failure (List String)) :=
  writeFiles layout sink c.files

/-- The sink of a store that gives a reason for each file that it refuses. -/
def sinkOf [Monad m] (store : String → String → m (Except String Unit)) (path text : String) :
    m (Except Failure Unit) := do
  match ← store path text with
  | .error reason => pure (.error (.write reason))
  | .ok () => pure (.ok ())

def write [Monad m] (c : Contracts) (layout : Layout)
    (store : String → String → m (Except String Unit)) : m (Except Failure (List String)) :=
  c.writeTo layout (sinkOf store)

end Contracts
end ShapeContracts
