import ShapeContracts.Text.Blank

/-!
Arguments of the command: a subcommand and its options. An option has a long and perhaps a short
name; its value follows it, as the next argument or behind an equals sign, and no option may be
given twice.
-/
namespace ShapeContracts.Command

inductive ValueKind where
  | switch
  | path
  | text
  deriving DecidableEq, Repr

structure Rule where
  long : String
  short : Option Char
  value : ValueKind
  deriving DecidableEq, Repr

inductive Usage where
  | help
  | wrong
  deriving DecidableEq, Repr

abbrev Given := List (String × String)

def verboseRule : Rule := ⟨"verbose", some 'v', .switch⟩

def parseRules : List Rule := [⟨"spec", some 's', .path⟩, ⟨"config", some 'c', .path⟩, verboseRule]

def generateRules : List Rule :=
  parseRules ++ [⟨"primary-namespace", none, .text⟩, ⟨"primary-dir", none, .path⟩,
    ⟨"shared-dir", none, .path⟩, ⟨"dry-run", none, .switch⟩]

def give (rule : Rule) (value : String) (given : Given) : Except Usage Given :=
  if (given.lookup rule.long).isSome ∨ (rule.value = .path ∧ value.isEmpty) then throw .wrong
  else pure (given ++ [(rule.long, value)])

def isOption (arg : String) : Bool := arg.toList.head? == some '-' && 1 < arg.length

def readLong (rules : List Rule) (body : List Char) (given : Given) :
    Except Usage (Given × Option Rule) := do
  let name := String.ofList (body.takeWhile (· ≠ '='))
  let attached := match body.dropWhile (· ≠ '=') with
    | _ :: value => some (String.ofList value)
    | [] => none
  if name = "help" ∧ attached.isNone then throw .help
  match rules.find? (fun r => r.long == name) with
  | none => throw .wrong
  | some rule =>
    match rule.value, attached with
    | .switch, none => return (← give rule "" given, none)
    | .switch, some _ => throw .wrong
    | _, some value => return (← give rule value given, none)
    | _, none => pure (given, some rule)

/-- Short options in one argument; the first that takes a value takes the rest of the argument. -/
def readShort (rules : List Rule) : List Char → Given → Except Usage (Given × Option Rule)
  | [], given => pure (given, none)
  | c :: rest, given =>
    if c = 'h' then throw .help
    else match rules.find? (fun r => r.short == some c) with
    | none => throw .wrong
    | some rule =>
      if rule.value = .switch then do
        readShort rules rest (← give rule "" given)
      else match rest with
        | [] => pure (given, some rule)
        | '=' :: value => return (← give rule (String.ofList value) given, none)
        | value => return (← give rule (String.ofList value) given, none)

def readOption (rules : List Rule) (arg : String) (given : Given) :
    Except Usage (Given × Option Rule) :=
  match arg.toList with
  | '-' :: '-' :: body => readLong rules body given
  | '-' :: body => readShort rules body given
  | _ => throw .wrong

/-- The options of a subcommand; `waiting` takes the next argument as its value. -/
def readOptions (rules : List Rule) : Option Rule → List String → Given → Except Usage Given
  | none, [], given => pure given
  | some _, [], _ => throw .wrong
  | some rule, arg :: rest, given =>
    if isOption arg then throw .wrong
    else do readOptions rules none rest (← give rule arg given)
  | none, arg :: rest, given =>
    if arg = "--" then (if rest.isEmpty then pure given else throw .wrong)
    else if isOption arg then do
      let (given, waiting) ← readOption rules arg given
      readOptions rules waiting rest given
    else throw .wrong

structure Request where
  spec : String
  config : Option String
  verbose : Bool
  deriving DecidableEq, Repr

structure Overrides where
  primarySpace : Option String
  primaryDir : Option String
  sharedDir : Option String
  dryRun : Bool
  deriving DecidableEq, Repr

inductive Action where
  | summarize (r : Request)
  | generate (r : Request) (o : Overrides)
  deriving DecidableEq, Repr

def request (verbose : Bool) (given : Given) : Except Usage Request :=
  match given.lookup "spec" with
  | none => throw .wrong
  | some spec =>
    pure ⟨spec, given.lookup "config", verbose || (given.lookup "verbose").isSome⟩

def readAction : Given → List String → Except Usage Action
  | _, [] => throw .wrong
  | given, arg :: rest =>
    let verbose := (given.lookup "verbose").isSome
    if arg = "parse" then do
      return .summarize (← request verbose (← readOptions parseRules none rest []))
    else if arg = "generate" then do
      let options ← readOptions generateRules none rest []
      return .generate (← request verbose options) ⟨options.lookup "primary-namespace",
        options.lookup "primary-dir", options.lookup "shared-dir",
        (options.lookup "dry-run").isSome⟩
    else if arg = "help" ∨ arg = "-V" ∨ arg = "--version" then throw .help
    else if arg = "--" then throw .wrong
    else if isOption arg then do
      let (given, _) ← readOption [verboseRule] arg given
      readAction given rest
    else throw .wrong

end ShapeContracts.Command
