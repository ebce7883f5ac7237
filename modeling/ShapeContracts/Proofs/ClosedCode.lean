import ShapeContracts.Proofs.ClosedTexts
import ShapeContracts.Proofs.SchemaCode

/-! Code of validators is closed. Whatever the texts of a schema are, the strings and comments that hold them
end where the code ends them, and the brackets of the code are matched, so that no text of a model
reaches into the code around it. -/
namespace ShapeContracts

open Scanner

theorem codeLinesClosed {lines : List String} (some : lines ≠ []) (ended : Closed (Comment.endedLines lines)) :
    Closed (codeLines lines).toList := by
  have joined : Comment.endedLines lines = (codeLines lines).toList ++ ['\n'] := by
    rw [← List.dropLast_append_getLast some, codeLines, ← Comment.joinLines, Comment.joinedEnded _ (by simp)]
    simp [Comment.endedLines, Comment.joinLines]
  exact endedClosed (joined ▸ ended)

namespace Check

open Comment (endedLines)


def comparison (c : Check) : String :=
  String.join ["typeof ", c.measured, " === \"number\" && ", c.measured, " ", c.violation, " "]

def front (c : Check) : List Char :=
  endedLines ("(value, refinementContext) => \x7b" :: c.preamble) ++ String.toList ("  if (" ++ c.comparison)

def middle (c : Check) : List Char :=
  endedLines [") \x7b", "    refinementContext.addIssue(\x7b", "      code: \"" ++ c.issueCode ++ "\","] ++
    String.toList ("      " ++ c.boundKey ++ ": ")

def back (c : Check) : List Char :=
  endedLines [",", "      inclusive: true,", "      origin: \"" ++ c.origin ++ "\",", "      path: [],",
    "    \x7d);", "  \x7d"] ++ ['}']

theorem codeParts (c : Check) :
    c.code.toList = c.front ++ (c.bound.toList ++ (c.middle ++ (c.bound.toList ++ c.back))) := by
  have lines : c.code = Comment.joinLines (("(value, refinementContext) => \x7b" :: (c.preamble ++
      ["  if (" ++ c.condition ++ ") \x7b", "    refinementContext.addIssue(\x7b",
       "      code: \"" ++ c.issueCode ++ "\",", "      " ++ c.boundKey ++ ": " ++ c.bound ++ ",",
       "      inclusive: true,", "      origin: \"" ++ c.origin ++ "\",", "      path: [],",
       "    \x7d);", "  \x7d"])) ++ ["\x7d"]) := by
    simp only [code, codeLines, Comment.joinLines, List.cons_append, List.append_assoc, List.nil_append]
  have compared : c.condition = c.comparison ++ c.bound := rfl
  have last : (Comment.joinLines ["\x7d"]).toList = ['}'] := by decide
  rw [lines, Comment.joinedEnded _ (List.cons_ne_nil _ []), last, compared]
  simp only [front, middle, back, endedLines, List.flatMap_cons, List.flatMap_append, List.flatMap_nil,
    String.toList_append, List.append_assoc, List.nil_append, List.cons_append]

def kinds : List Check := [.minLength 0, .maxLength 0, .minValue (.zero false), .maxValue (.zero false)]

theorem kindOf (c : Check) : ∃ k ∈ kinds, c.front = k.front ∧ c.middle = k.middle ∧ c.back = k.back := by
  cases c with
  | minLength n => exact ⟨.minLength 0, by simp [kinds], rfl, rfl, rfl⟩
  | maxLength n => exact ⟨.maxLength 0, by simp [kinds], rfl, rfl, rfl⟩
  | minValue x => exact ⟨.minValue (.zero false), by simp [kinds], rfl, rfl, rfl⟩
  | maxValue x => exact ⟨.maxValue (.zero false), by simp [kinds], rfl, rfl, rfl⟩

theorem boundClosed (c : Check) : Closed c.bound.toList := by
  cases c with
  | minLength n | maxLength n => exact naturalClosed n
  | minValue x | maxValue x => exact x.codeClosed

theorem codeClosed (c : Check) : Closed c.code.toList := by
  have runs : ∀ k ∈ kinds, run start k.front = some ⟨.code, [')', '}']⟩ ∧
      run ⟨.code, [')', '}']⟩ k.middle = some ⟨.code, ['}', ')', '}', '}']⟩ ∧
      run ⟨.code, ['}', ')', '}', '}']⟩ k.back = some start := by
    simp only [kinds, List.forall_mem_cons, front, middle, back, comparison, preamble, measured, violation,
      issueCode, boundKey, origin, endedLines, List.flatMap_cons, List.flatMap_nil, List.append_nil,
      String.join, List.foldl, String.toList_append]
    repeat rw [String.toList_ofList]
    decide +kernel
  obtain ⟨k, mem, front, middle, back⟩ := c.kindOf
  obtain ⟨first, second, third⟩ := runs k mem
  rw [Closed, codeParts, front, middle, back, runOnto first, closedThen c.boundClosed, runOnto second,
    closedThen c.boundClosed]
  exact third

end Check

namespace Fragment

variable {b : Bindings}

mutual

def Contained : Fragment → Prop
  | .raw text => Closed text.toList
  | .literal _ => True
  | .symbol name => Inert name.toList
  | .imported name _ => Inert name.toList
  | .call callee args => Contained callee ∧ ContainedAll args
  | .member receiver property => Contained receiver ∧ Inert property.toList
  | .object properties => ContainedProperties properties
  | .array items => ContainedAll items
  | .arrow body => Contained body
  | .commented _ inner => Contained inner
  | .sequence parts => ContainedAll parts

def ContainedAll : List Fragment → Prop
  | [] => True
  | f :: rest => Contained f ∧ ContainedAll rest

def ContainedProperties : List (String × Fragment × List String) → Prop
  | [] => True
  | (_, value, comments) :: rest =>
    Contained value ∧ (∀ c ∈ comments, Comment.IsDocBlock c) ∧ ContainedProperties rest

end

theorem keyClosed (key : String) : Closed (Naming.propertyKey key).toList := by
  unfold Naming.propertyKey
  split
  · rename_i identifier
    exact inertClosed (Naming.identifierInert identifier)
  · exact Json.quoteClosed key

theorem padClosed (n : Nat) : Closed (pad n) := by
  have calm : Calm start := rfl
  have blank := calmPad calm n []
  rwa [List.append_nil] at blank

theorem afterPlain (plain : b.Plain) (indent : Nat) (f : Fragment) : (printAt indent b f).2.Plain := by
  rw [printAtLeaves]
  exact printPlain plain _

mutual

theorem printAtClosed (indent : Nat) {b : Bindings} (plain : b.Plain) (f : Fragment) (contained : f.Contained) :
    Closed (printAt indent b f).1 := by
  match f with
  | .raw text => exact (runReindent indent start text.toList).trans contained
  | .literal text =>
    simp only [printAt, Naming.quote]
    exact Json.quoteClosed text
  | .symbol name => exact inertClosed contained
  | .imported name module => exact inertClosed (Bindings.bindingInert plain contained)
  | .call callee args =>
    have head := printAtClosed indent plain callee contained.1
    have tail := printListClosed indent (afterPlain plain indent callee) args contained.2
    exact closedAppend head (closedThen tail [')'] [')'])
  | .member receiver property =>
    have name : Inert ('.' :: property.toList) := inertCons (by decide) contained.2
    exact closedAppend (printAtClosed indent plain receiver contained.1) (inertClosed name)
  | .object [] => exact (by decide : Closed ['{', '}'])
  | .object (p :: ps) =>
    have body := printPropertiesClosed (indent + 2) plain (p :: ps) contained
    exact (closedThen body ['}'] _).trans (closedThen (padClosed indent) ['}'] ['}'])
  | .array items => exact closedThen (printListClosed indent plain items contained) [']'] [']']
  | .arrow body =>
    have arrow : Closed ['(', ')', ' ', '=', '>', ' '] := by decide
    exact closedAppend arrow (printAtClosed indent plain body contained)
  | .commented comment inner => exact Comment.notedClosed comment (printAtClosed indent plain inner contained)
  | .sequence parts => exact printPartsClosed indent plain parts contained

theorem printListClosed (indent : Nat) {b : Bindings} (plain : b.Plain) (items : List Fragment)
    (contained : ContainedAll items) : Closed (printList indent b items).1 := by
  match items with
  | [] => rfl
  | [item] => exact printAtClosed indent plain item contained.1
  | item :: next :: rest =>
    have comma : Closed [',', ' '] := by decide
    have others := printListClosed indent (afterPlain plain indent item) (next :: rest) contained.2
    exact closedAppend (printAtClosed indent plain item contained.1) (closedAppend comma others)

theorem printPartsClosed (indent : Nat) {b : Bindings} (plain : b.Plain) (parts : List Fragment)
    (contained : ContainedAll parts) : Closed (printParts indent b parts).1 := by
  match parts with
  | [] => rfl
  | part :: rest =>
    have others := printPartsClosed indent (afterPlain plain indent part) rest contained.2
    exact closedAppend (printAtClosed indent plain part contained.1) others

theorem printPropertiesClosed (indent : Nat) {b : Bindings} (plain : b.Plain)
    (properties : List (String × Fragment × List String)) (contained : ContainedProperties properties) :
    Closed (printProperties indent b properties).1 := by
  match properties with
  | [] => rfl
  | (key, value, comments) :: rest =>
    have above : Closed (comments.flatMap (commentLines indent)) :=
      runFlatMap (fun c mem => Comment.commentLinesClosed (contained.2.1 c mem) indent)
    have colon : Closed [':', ' '] := by decide
    have comma : Closed [',', '\n'] := by decide
    have others := printPropertiesClosed indent (afterPlain plain indent value) rest contained.2.2
    have text := closedAppend (printAtClosed indent plain value contained.1) (closedAppend comma others)
    have named := closedAppend colon text
    exact closedAppend above (closedAppend (padClosed indent) (closedAppend (keyClosed key) named))

end

theorem methodContained {f : Fragment} {name : String} {args : List Fragment} (receiver : f.Contained)
    (inert : Inert name.toList) (contained : ContainedAll args) : (f.method name args).Contained :=
  ⟨⟨receiver, inert⟩, contained⟩

end Fragment

theorem DefaultValue.codeContained (value : DefaultValue) : value.code.Contained := by
  cases value with
  | text s => trivial
  | flag b => cases b <;> (show Closed _; decide)
  | json j =>
    have written : Closed (Json.render j).toList := by
      rw [Json.render, String.toList_ofList]
      exact j.valueClosed
    exact written
  | bytes bs =>
    have list : Inert (", ".intercalate (bs.map (fun b => toString b.toNat))).toList := by
      rw [String.toList_intercalate, List.map_map]
      intro c mem
      rcases Entries.joinedFrom mem with mem | ⟨part, listed, inside⟩
      · exact (by decide : Inert [',', ' ']) c mem
      · obtain ⟨b, -, rfl⟩ := List.mem_map.mp listed
        exact naturalInert b.toNat c inside
    have opens : run start "new Uint8Array([".toList = some ⟨.code, [']', ')']⟩ := by decide
    show Closed (String.toList ("new Uint8Array([" ++ _ ++ "])"))
    rw [String.toList_append, String.toList_append, List.append_assoc, Closed, runOnto opens,
      closedThen (inertClosed list)]
    decide

namespace Schema

variable {s t : Schema}

/-- The names that a schema puts into code are identifiers, and the comments beside its fields are blocks of
documentation; its other texts may be any. -/
structure Named (s : Schema) : Prop where
  references : ∀ {path r}, (ref r).Occurs path s → Naming.isIdentifier r.name = true
  enums : ∀ {path name values}, (enum name values).Occurs path s → Naming.isIdentifier name = true
  documented : ∀ {path fields}, (object fields).Occurs path s →
    ∀ field ∈ fields, ∀ comment ∈ field.2.2, Comment.IsDocBlock comment

theorem partNamed (named : s.Named)
    (inside : ∀ {u : Schema} {path : List Step}, u.Occurs path t → ∃ path', u.Occurs path' s) : t.Named where
  references occurs := (inside occurs).elim (fun _ within => named.references within)
  enums occurs := (inside occurs).elim (fun _ within => named.enums within)
  documented occurs := (inside occurs).elim (fun _ within => named.documented within)

theorem bareNamed (named : s.bare.Named) : s.Named where
  references occurs := named.references (occursBare rfl occurs)
  enums occurs := named.enums (occursBare rfl occurs)
  documented occurs := named.documented (occursBare rfl occurs)

theorem objectNamed {fields : List (String × Schema × List String)}
    (parts : ∀ f ∈ fields, f.2.1.Named ∧ ∀ comment ∈ f.2.2, Comment.IsDocBlock comment) :
    (object fields).Named where
  references occurs := by
    cases occurs with
    | field nth inside => exact (parts _ (List.mem_of_getElem? nth)).1.references inside
  enums occurs := by
    cases occurs with
    | field nth inside => exact (parts _ (List.mem_of_getElem? nth)).1.enums inside
  documented occurs := by
    cases occurs with
    | here => exact fun f mem => (parts f mem).2
    | field nth inside => exact (parts _ (List.mem_of_getElem? nth)).1.documented inside

theorem whenSomeContained {f : Fragment} (contained : f.Contained) (bound : Option α) {name : String}
    (inert : Inert name.toList) {code : α → String} (closed : ∀ x, Scanner.Closed (code x).toList) :
    (whenSome bound name code f).Contained := by
  cases bound with
  | none => exact contained
  | some x => exact Fragment.methodContained contained inert ⟨closed x, trivial⟩

theorem uniqueItemsClosed : Scanner.Closed uniqueItemsCode.toList := by
  refine codeLinesClosed (List.cons_ne_nil _ _) ?_
  simp only [Comment.endedLines, List.flatMap_cons, List.flatMap_nil, List.append_nil]
  repeat rw [String.toList_ofList]
  decide +kernel

theorem libraryContained (m : CodeModules) {name : String} (inert : Inert name.toList)
    {args : List Fragment} (contained : Fragment.ContainedAll args) : ((lower.z m).method name args).Contained :=
  Fragment.methodContained (by decide : Inert "z".toList) inert contained

theorem boundsContained {f : Fragment} (contained : f.Contained) (min max : Option α) {code : α → String}
    (closed : ∀ x, Scanner.Closed (code x).toList) :
    (whenSome max "max" code (whenSome min "min" code f)).Contained :=
  whenSomeContained (whenSomeContained contained min (by decide) closed) max (by decide) closed

mutual

theorem lowerContained (source : FileKey) (m : CodeModules) (s : Schema) (named : s.Named) :
    (s.lower source m).Contained := by
  match s with
  | .bigint | .boolean | .unknown | .epochSeconds | .union [] => exact libraryContained m (by decide) trivial
  | .bytes => exact libraryContained m (by decide) ⟨(by decide : Scanner.Closed "Uint8Array".toList), trivial⟩
  | .dateTime => exact (by decide : Inert dateTimeBinding.toList)
  | .httpDate => exact (by decide : Inert httpDateBinding.toList)
  | .enum typeName values =>
    exact libraryContained m (by decide) ⟨Naming.identifierInert (named.enums .here), trivial⟩
  | .ref r =>
    have inert : Inert r.name.toList := Naming.identifierInert (named.references .here)
    rw [lower, refCode]
    split <;> exact inert
  | .string min max pattern =>
    have string : ((lower.z m).method "string" []).Contained := libraryContained m (by decide) trivial
    have bounded := boundsContained string min max naturalClosed
    cases pattern with
    | none => exact bounded
    | some p =>
      have constructor : Scanner.Closed "new RegExp".toList := by decide
      exact Fragment.methodContained bounded (by decide) ⟨⟨constructor, trivial, trivial⟩, trivial⟩
  | .number integer min max =>
    have number : ((lower.z m).method "number" []).Contained := libraryContained m (by decide) trivial
    cases integer with
    | false => exact boundsContained number min max Binary64.codeClosed
    | true =>
      have whole : (((lower.z m).method "number" []).method "int" []).Contained :=
        Fragment.methodContained number (by decide) trivial
      exact boundsContained whole min max Binary64.codeClosed
  | .array item min max unique =>
    have inner := lowerContained source m item (partNamed named (fun occurs => ⟨_, .item occurs⟩))
    have array : ((lower.z m).method "array" [lower source m item]).Contained :=
      libraryContained m (by decide) ⟨inner, trivial⟩
    have bounded := boundsContained array min max naturalClosed
    cases unique with
    | false => exact bounded
    | true => exact Fragment.methodContained bounded (by decide) ⟨uniqueItemsClosed, trivial⟩
  | .record key value =>
    have keys := lowerContained source m key (partNamed named (fun occurs => ⟨_, .key occurs⟩))
    have values := lowerContained source m value (partNamed named (fun occurs => ⟨_, .value occurs⟩))
    refine libraryContained m ?_ ⟨keys, values, trivial⟩
    split <;> decide
  | .union (first :: rest) =>
    have members := lowerAllContained source m (first :: rest) (fun t mem => by
      obtain ⟨i, nth⟩ := List.mem_iff_getElem?.mp mem
      exact partNamed named (fun occurs => ⟨_, .alternative nth occurs⟩))
    exact libraryContained m (by decide) ⟨members, trivial⟩
  | .object fields =>
    have properties := lowerFieldsContained source m fields (fun f mem => by
      obtain ⟨i, nth⟩ := List.mem_iff_getElem?.mp mem
      exact ⟨partNamed named (fun occurs => ⟨_, .field nth occurs⟩), named.documented .here f mem⟩)
    exact libraryContained m (by decide) ⟨properties, trivial⟩
  | .lazy inner =>
    have body := lowerContained source m inner (partNamed named (fun occurs => ⟨_, .lazy occurs⟩))
    exact libraryContained m (by decide) ⟨body, trivial⟩
  | .refine inner check =>
    have receiver := lowerContained source m inner (partNamed named (fun occurs => ⟨_, .refine occurs⟩))
    exact Fragment.methodContained receiver (by decide) ⟨check.codeClosed, trivial⟩
  | .optional inner =>
    have receiver := lowerContained source m inner (partNamed named (fun occurs => ⟨_, .optional occurs⟩))
    exact Fragment.methodContained receiver (by decide) trivial
  | .withDefault inner value =>
    have receiver := lowerContained source m inner (partNamed named (fun occurs => ⟨_, .withDefault occurs⟩))
    exact Fragment.methodContained receiver (by decide) ⟨value.codeContained, trivial⟩
  | .marked comment inner =>
    exact lowerContained source m inner (partNamed named (fun occurs => ⟨_, .marked occurs⟩))

theorem lowerAllContained (source : FileKey) (m : CodeModules) (ss : List Schema) (named : ∀ s ∈ ss, s.Named) :
    Fragment.ContainedAll (lowerAll source m ss) := by
  match ss with
  | [] => trivial
  | s :: rest =>
    obtain ⟨first, others⟩ := List.forall_mem_cons.mp named
    exact ⟨lowerContained source m s first, lowerAllContained source m rest others⟩

theorem lowerFieldsContained (source : FileKey) (m : CodeModules)
    (fields : List (String × Schema × List String))
    (named : ∀ f ∈ fields, f.2.1.Named ∧ ∀ comment ∈ f.2.2, Comment.IsDocBlock comment) :
    Fragment.ContainedProperties (lowerFields source m fields) := by
  match fields with
  | [] => trivial
  | (name, s, comments) :: rest =>
    obtain ⟨first, others⟩ := List.forall_mem_cons.mp named
    exact ⟨lowerContained source m s first.1, first.2, lowerFieldsContained source m rest others⟩

end

theorem codeStaysClosed {s : Schema} (named : s.Named) (source : FileKey) (m : CodeModules)
    (names : List String) (earlier : List Fragment) : Scanner.Closed
      (Fragment.print (Fragment.printAll (.ofDeclared names) earlier).2 (s.lower source m)).1.toList := by
  have plain : (Fragment.printAll (.ofDeclared names) earlier).2.Plain := by
    have none : (Fragment.Bindings.ofDeclared names).Plain := fun _ mem => nomatch mem
    have row := congrArg Prod.snd (Fragment.printAllLeaves (.ofDeclared names) earlier)
    exact row ▸ Fragment.printPlain none _
  have written := Fragment.printAtClosed 0 plain (s.lower source m) (lowerContained source m s named)
  rw [Fragment.print, String.toList_ofList]
  exact written

def gate : Schema := .object
  [("we\"ird ]", .marked "*/ \"" (.withDefault (.string none (some 4) (some "[\"(")) (.json (.object
    [("\x7d", .array [.string "\\\"", .null])]))), (Comment.docBlock? (some "ends */ here (")).toList),
   ("tag", .lazy (.ref ⟨"iam#Tag", "tagSchema", .shared "iam" .structures, .struct⟩), [])]

theorem gateNamed : gate.Named := by
  have tag : (ref ⟨"iam#Tag", "tagSchema", .shared "iam" .structures, .struct⟩).Named := by
    refine ⟨fun occurs => ?_, nofun, nofun⟩
    cases occurs
    decide
  refine objectNamed (List.forall_mem_cons.mpr ⟨⟨bareNamed ⟨nofun, nofun, nofun⟩, ?_⟩,
    List.forall_mem_singleton.mpr ⟨bareNamed tag, nofun⟩⟩)
  exact fun comment mem => ⟨some "ends */ here (", Option.mem_toList.mp mem⟩

theorem gateClosed : Scanner.Closed (Fragment.print (Fragment.printAll (.ofDeclared ["tagSchema"])
    [.imported "tagSchema" "./com.amazonaws.shared.structures.js"]).2
    (gate.lower (.primary .structures) ⟨"zod/v4", "aws-api-shared", none⟩)).1.toList :=
  codeStaysClosed gateNamed (.primary .structures) ⟨"zod/v4", "aws-api-shared", none⟩ ["tagSchema"]
    [.imported "tagSchema" "./com.amazonaws.shared.structures.js"]

end Schema

end ShapeContracts
