import ShapeContracts.Yaml.Token

/-!
The node of a YAML document. An alias stands for the node of its anchor.
-/
namespace ShapeContracts.Yaml

inductive Node where
  | scalar (plain : Bool) (text : String)
  | sequence (items : List Node)
  | mapping (entries : List (Node × Node))

namespace Node

instance : Inhabited Node := ⟨.scalar true ""⟩

def empty : Node := .scalar true ""

abbrev Anchors := List (String × Node)

structure State where
  rest : List Token
  anchors : Anchors

namespace State

def next? (s : State) : Option Token := s.rest.head?

def skip (s : State) : State := { s with rest := s.rest.drop 1 }

def endsAt (s : State) (ts : List Token) : Bool :=
  match s.next? with
  | none => true
  | some t => ts.contains t

def properties : Nat → State → Bool × Option String × State
  | 0, s => (false, none, s)
  | fuel + 1, s =>
    match s.next? with
    | some (.anchor name) =>
      let (_, later, s) := properties fuel s.skip
      (true, some (later.getD name), s)
    | some .tag =>
      let (_, later, s) := properties fuel s.skip
      (true, later, s)
    | _ => (false, none, s)

def define (s : State) (name : Option String) (n : Node) : State :=
  match name with
  | some a => { s with anchors := (a, n) :: s.anchors }
  | none => s

end State

open State

mutual

/-- A node; block collections are admitted in block context only. -/
def read (inBlock indentless : Bool) : Nat → State → Option (Node × State)
  | 0, _ => none
  | fuel + 1, s =>
    match s.next? with
    | some (.alias name) => (s.anchors.lookup name).map (fun n => (n, s.skip))
    | _ =>
      let (present, name, s) := properties s.rest.length s
      let done := fun (r : Option (Node × State)) => r.map (fun (n, s) => (n, s.define name n))
      match s.next? with
      | some (.scalar plain text) => done (some (.scalar plain text, s.skip))
      | some .flowSequenceStart =>
        done ((readFlowItems true fuel s.skip).map (fun (items, s) => (.sequence items, s)))
      | some .flowMappingStart =>
        done ((readFlowEntries true fuel s.skip).map (fun (es, s) => (.mapping es, s)))
      | some .blockEntry =>
        if indentless then
          done ((readEntries true fuel s).map (fun (items, s) => (.sequence items, s)))
        else if present then done (some (empty, s)) else none
      | some .blockSequenceStart =>
        if inBlock then
          done ((readEntries false fuel s.skip).map (fun (items, s) => (.sequence items, s)))
        else if present then done (some (empty, s)) else none
      | some .blockMappingStart =>
        if inBlock then
          done ((readPairs fuel s.skip).map (fun (es, s) => (.mapping es, s)))
        else if present then done (some (empty, s)) else none
      | _ => if present then done (some (empty, s)) else none

def readEntries (indentless : Bool) : Nat → State → Option (List Node × State)
  | 0, _ => none
  | fuel + 1, s =>
    match s.next? with
    | some .blockEntry => do
      let s := s.skip
      let stops := if indentless then [.blockEntry, .key, .value, .blockEnd] else [.blockEntry, .blockEnd]
      let (item, s) ← if s.endsAt stops then some (empty, s) else read true false fuel s
      let (items, s) ← readEntries indentless fuel s
      some (item :: items, s)
    | some .blockEnd => some ([], if indentless then s else s.skip)
    | _ => if indentless then some ([], s) else none

def readPairs : Nat → State → Option (List (Node × Node) × State)
  | 0, _ => none
  | fuel + 1, s =>
    match s.next? with
    | some .blockEnd => some ([], s.skip)
    | some .key => do
      let s := s.skip
      let (key, s) ← if s.endsAt [.key, .value, .blockEnd] then some (empty, s) else read true true fuel s
      let (value, s) ← readPairValue fuel s
      let (rest, s) ← readPairs fuel s
      some ((key, value) :: rest, s)
    | _ => none

def readPairValue : Nat → State → Option (Node × State)
  | 0, _ => none
  | fuel + 1, s =>
    match s.next? with
    | some .value =>
      let s := s.skip
      if s.endsAt [.key, .value, .blockEnd] then some (empty, s) else read true true fuel s
    | _ => some (empty, s)

def readFlowItems (first : Bool) : Nat → State → Option (List Node × State)
  | 0, _ => none
  | fuel + 1, s =>
    match s.next? with
    | some .flowSequenceEnd => some ([], s.skip)
    | t => do
      let s ← if first then some s else if t == some .flowEntry then some s.skip else none
      match s.next? with
      | some .flowSequenceEnd => some ([], s.skip)
      | some .key =>
        let stops := [.value, .flowEntry, .flowSequenceEnd]
        let s := s.skip
        let (key, s) ← if s.endsAt stops then some (empty, s) else read false false fuel s
        let (value, s) ← readFlowValue .flowSequenceEnd fuel s
        let (rest, s) ← readFlowItems false fuel s
        some (.mapping [(key, value)] :: rest, s)
      | _ =>
        let (item, s) ← read false false fuel s
        let (rest, s) ← readFlowItems false fuel s
        some (item :: rest, s)

def readFlowEntries (first : Bool) : Nat → State → Option (List (Node × Node) × State)
  | 0, _ => none
  | fuel + 1, s =>
    match s.next? with
    | some .flowMappingEnd => some ([], s.skip)
    | t => do
      let s ← if first then some s else if t == some .flowEntry then some s.skip else none
      match s.next? with
      | some .flowMappingEnd => some ([], s.skip)
      | some .key =>
        let stops := [.value, .flowEntry, .flowMappingEnd]
        let s := s.skip
        let (key, s) ← if s.endsAt stops then some (empty, s) else read false false fuel s
        let (value, s) ← readFlowValue .flowMappingEnd fuel s
        let (rest, s) ← readFlowEntries false fuel s
        some ((key, value) :: rest, s)
      | _ =>
        let (key, s) ← read false false fuel s
        let (rest, s) ← readFlowEntries false fuel s
        some ((key, empty) :: rest, s)

def readFlowValue (close : Token) : Nat → State → Option (Node × State)
  | 0, _ => none
  | fuel + 1, s =>
    match s.next? with
    | some .value =>
      let s := s.skip
      if s.endsAt [.flowEntry, close] then some (empty, s) else read false false fuel s
    | _ => some (empty, s)

end

def openDocument? (ts : List Token) : Option (Bool × List Token) :=
  match ts.dropWhile (· == .directive) with
  | .documentStart :: rest => some (true, rest)
  | rest => if rest.length = ts.length then some (false, rest) else none

/--
The one document of a text. The inner value is none when the text has no document at all, and a
text with several ones is refused.
-/
def parse? (text : String) : Option (Option Node) := do
  let ts ← tokens? text
  let ts := ts.dropWhile (· == .documentEnd)
  if ts.isEmpty then some none
  else
    let (explicit, ts) ← openDocument? ts
    let s : State := ⟨ts, []⟩
    let (n, s) ←
      if explicit && s.endsAt [.directive, .documentStart, .documentEnd] then some (empty, s)
      else read true false (4 * ts.length + 4) s
    let rest := if s.next? == some .documentEnd then s.rest.dropWhile (· == .documentEnd) else s.rest
    if rest.isEmpty then some (some n) else none

end Node
end ShapeContracts.Yaml
