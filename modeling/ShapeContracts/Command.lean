import ShapeContracts.Command.Arguments
import ShapeContracts.Contracts
import ShapeContracts.Model.Reader
import ShapeContracts.Storage

/-!
The command: it summarizes a model, or generates the files of a model and stores them. It speaks to
the outside through a storage and a way to print a line, so it can run on values alone.
-/
namespace ShapeContracts.Command

structure Surroundings (m : Type → Type) where
  storage : Storage m
  say : String → m Unit

structure Trouble where
  doing : String
  cause : Failure

def indented (text : String) : String :=
  "\n".intercalate ((Text.lines text.toList).map (fun line => "    " ++ String.ofList line))

def Trouble.report (t : Trouble) : String :=
  "Error: " ++ t.doing ++ "\n\nCaused by:\n" ++ indented t.cause.message

inductive Exit where
  | done
  | failed (t : Trouble)
  | usage (u : Usage)

def Exit.code : Exit → Nat
  | done => 0
  | failed _ => 1
  | usage .help => 0
  | usage .wrong => 2

def usageText : String :=
  "\n".intercalate ["Usage: [-v] parse --spec <file> [--config <file>]",
    "       [-v] generate --spec <file> [--config <file>] [--primary-namespace <name>]",
    "            [--primary-dir <dir>] [--shared-dir <dir>] [--dry-run]"]

def quotedChar (c : Char) : List Char :=
  match c with
  | '\x00' => ['\\', '0']
  | '\t' => ['\\', 't']
  | '\r' => ['\\', 'r']
  | '\n' => ['\\', 'n']
  | '\\' => ['\\', '\\']
  | '"' => ['\\', '"']
  | '\'' => ['\\', '\'']
  | c =>
    if Unicode.isPrintable c then [c]
    else "\\u\x7b".toList ++ Nat.toDigits 16 c.toNat ++ ['}']

def quotedPath (path : String) : String :=
  String.ofList ('"' :: (path.toList.flatMap quotedChar ++ ['"']))

variable {m : Type → Type} [Monad m]

def loadSettings (s : Surroundings m) : Option String → m (Except Trouble Settings)
  | none => pure (.ok .standard)
  | some path => do
    let trouble (reason : String) : Trouble :=
      ⟨"Failed to load config " ++ path, .parse reason⟩
    match ← s.storage.read path with
    | .error e => pure (.error (trouble
        ("Failed to read config file " ++ quotedPath path ++ ": " ++ e.message)))
    | .ok text =>
      match Settings.parse? text with
      | some settings => pure (.ok settings)
      | none => pure (.error (trouble
          ("Failed to parse config YAML from " ++ quotedPath path ++ ": it is no configuration")))

def loadModel (s : Surroundings m) (path : String) (settings : Settings) :
    m (Except Trouble Model) := do
  let trouble (reason : String) : Trouble := ⟨"Failed to load Smithy model", .parse reason⟩
  match ← s.storage.read path with
  | .error e => pure (.error (trouble
      ("Failed to read Smithy file " ++ path ++ ": " ++ e.message)))
  | .ok text =>
    match Model.parse? text with
    | some model => pure (.ok (model.without settings.ignored))
    | none => pure (.error (trouble "Failed to parse Smithy JSON: it is no model"))

def padRight (width : Nat) (text : String) : String :=
  text ++ String.ofList (List.replicate (width - text.length) ' ')

def summary (model : Model) (verbose : Bool) : List String :=
  let unsupported := model.unsupported
  ["\n✓ Parse successful!", "\nModel:", "  Smithy version: " ++ model.version,
    "  Shapes: " ++ toString model.shapes.length, "\nShapes by kind:"]
  ++ model.counts.map (fun (kind, n) => "  • " ++ padRight 10 kind ++ " " ++ toString n)
  ++ (if unsupported.isEmpty then [] else
    ("\n⚠ " ++ toString unsupported.length ++ " shape(s) of unsupported kinds will be skipped")
      :: (if verbose then unsupported.map (fun id => "  • " ++ id) else []))

def summarize (s : Surroundings m) (r : Request) : m (Except Trouble Unit) := do
  s.say ("→ Parsing model: " ++ r.spec)
  match ← loadSettings s r.config with
  | .error t => pure (.error t)
  | .ok settings =>
    match ← loadModel s r.spec settings with
    | .error t => pure (.error t)
    | .ok model => do
      (summary model r.verbose).forM s.say
      pure (.ok ())

def Overrides.apply (o : Overrides) (settings : Settings) : Settings :=
  { settings with
    primarySpace := o.primarySpace.getD settings.primarySpace
    output := { settings.output with
      primaryDir := o.primaryDir.getD settings.output.primaryDir
      sharedDir := o.sharedDir.getD settings.output.sharedDir } }

def fileLine (path : String) : String := "  📄 " ++ path

def listFiles (s : Surroundings m) (layout : Layout) :
    List (FileKey × String) → m (Except Trouble Unit)
  | [] => pure (.ok ())
  | (key, text) :: rest =>
    match layout.path? key with
    | none => pure (.error ⟨"No output path for " ++ key.toString, .missingOutputPath key⟩)
    | some path => do
      s.say (fileLine path ++ " (" ++ toString text.utf8ByteSize ++ " bytes)")
      listFiles s layout rest

def deliver (s : Surroundings m) (layout : Layout) (c : Contracts) (dryRun : Bool) :
    m (Except Trouble Unit) := do
  if dryRun then
    s.say "\n✓ Dry run complete!"
    s.say "\nFiles that would be written:"
    listFiles s layout c.files
  else
    match ← c.write layout s.storage.store with
    | .error e => pure (.error ⟨"Failed to write generated files", e⟩)
    | .ok paths => do
      s.say "\n✓ Generation complete!"
      s.say "\nGenerated files:"
      paths.forM (fun path => s.say (fileLine path))
      pure (.ok ())

def generateFrom (s : Surroundings m) (r : Request) (dryRun : Bool) (settings : Settings) :
    m (Except Trouble Unit) := do
  if r.verbose then
    s.say ("  Primary namespace: " ++ settings.primarySpace)
    s.say ("  Primary dir: " ++ settings.output.primaryDir)
    s.say ("  Shared dir: " ++ settings.output.sharedDir)
  s.say "→ Loading model..."
  match ← loadModel s r.spec settings with
  | .error t => pure (.error t)
  | .ok model => do
    s.say ("✓ Loaded " ++ toString model.shapes.length ++ " shapes")
    s.say "→ Generating files..."
    match Contracts.ofModel ⟨model, settings⟩ with
    | .error e => pure (.error ⟨"Failed to generate schemas", e⟩)
    | .ok c => deliver s (.ofOutput settings.output) c dryRun

def generate (s : Surroundings m) (r : Request) (o : Overrides) : m (Except Trouble Unit) := do
  s.say ("→ Generating schemas from: " ++ r.spec)
  match ← loadSettings s r.config with
  | .error t => pure (.error t)
  | .ok settings => generateFrom s r o.dryRun (o.apply settings)

def Action.request : Action → Request
  | .summarize r => r
  | .generate r _ => r

def act (s : Surroundings m) : Action → m (Except Trouble Unit)
  | .summarize r => summarize s r
  | .generate r o => generate s r o

def run (s : Surroundings m) (args : List String) : m Exit :=
  match readAction [] args with
  | .error u => pure (.usage u)
  | .ok action => do
    if action.request.verbose then s.say "→ Verbose mode enabled"
    match ← act s action with
    | .ok () => pure .done
    | .error t => pure (.failed t)

end ShapeContracts.Command
