import Mathlib.Data.List.TakeWhile
import ShapeContracts.Proofs.ClosedTexts
import ShapeContracts.Proofs.DocBlocks
import ShapeContracts.Proofs.Interfaces

/-! Markers in lines of their own. A line comment ends at the first line terminator, and names and targets are
written as the model has them; so a marker is a comment to its end exactly if none of its parts breaks it. -/
namespace ShapeContracts

namespace Comment

def terminators : List Char := ['\n', '\r', '\u2028', '\u2029']

def Unbroken (cs : List Char) : Prop := ∀ c ∈ cs, c ∉ terminators

def Unseparated (cs : List Char) : Prop := ∀ c ∈ cs, c ∉ ['\u2028', '\u2029']

instance (cs : List Char) : Decidable (Unbroken cs) := List.decidableBAll (· ∉ terminators) cs

def Kept (lines : List Char) : Prop := lines.dropWhile (fun c => decide (c ∉ terminators)) = ['\n']

inductive Lined (note : String) : List Char → Prop where
  | moved (indent : Nat) : Lined note (moved indent ("// " ++ note).toList)
  | plain : Lined note ("  // " ++ note ++ "\n").toList

section Unbroken

variable {cs ds : List Char}

theorem unbrokenAppend : Unbroken (cs ++ ds) ↔ Unbroken cs ∧ Unbroken ds := List.forall_mem_append

theorem unbrokenCons {c : Char} : Unbroken (c :: cs) ↔ c ∉ terminators ∧ Unbroken cs := List.forall_mem_cons

theorem keptLine : Kept (cs ++ ['\n']) ↔ Unbroken cs := by
  rw [Kept, List.dropWhile_append]
  split
  · rename_i none
    refine iff_of_true (by decide) (fun c mem => ?_)
    have each := List.dropWhile_eq_nil_iff.mp (List.isEmpty_iff.mp none)
    exact of_decide_eq_true (each c mem)
  · rename_i some
    -- a terminator is left in the text, so the line feed at the end is not the first one
    refine iff_of_false (fun same => ?_) (fun unbroken => ?_)
    · exact some (List.isEmpty_iff.mpr (List.append_left_eq_self.mp same))
    · exact some (List.isEmpty_iff.mpr
        (List.dropWhile_eq_nil_iff.mpr (fun c mem => decide_eq_true (unbroken c mem))))

theorem keptMoved (indent : Nat) (text : List Char) : Kept (moved indent text) ↔ Unbroken text := by
  have blank : Unbroken (List.replicate indent ' ') := by
    intro c mem
    rw [(List.mem_replicate.mp mem).2]
    decide
  rw [moved, keptLine, unbrokenAppend, and_iff_right blank]
  simp only [Unbroken, List.forall_mem_flatMap]
  -- a line feed stays where the text has one, so it breaks the lines as it breaks the text
  refine forall₂_congr (fun c _ => ?_)
  split
  · rename_i feed
    exact iff_of_false (fun each => each '\n' (by simp) (by decide)) (feed ▸ by decide)
  · simp

theorem prefixUnbroken (note : String) : Unbroken ("// " ++ note).toList ↔ Unbroken note.toList := by
  rw [String.toList_append, unbrokenAppend, and_iff_right (by decide)]

theorem printedWhole (indent : Nat) {note : String} (single : '\n' ∉ ("// " ++ note).toList) :
    (printedLine indent note).toList = List.replicate indent ' ' ++ (("// " ++ note).toList ++ ['\n']) := by
  have kept : ∀ text : List Char, '\n' ∉ text →
      text.flatMap (fun c => if c = '\n' then '\n' :: List.replicate indent ' ' else [c]) = text := by
    intro text single
    induction text with
    | nil => rfl
    | cons c rest ih =>
      obtain ⟨other, single⟩ := not_or.mp (List.mem_cons.not.mp single)
      rw [List.flatMap_cons, if_neg (Ne.symm other), ih single]
      rfl
  rw [printedLine, String.toList_ofList, moved, kept _ single, List.append_assoc]

theorem linedKept {note : String} (lined : Lined note cs) : Kept cs ↔ Unbroken note.toList := by
  cases lined with
  | moved indent => rw [keptMoved, prefixUnbroken]
  | plain =>
    have ended : ("  // " ++ note ++ "\n").toList = "  // ".toList ++ note.toList ++ ['\n'] := by simp
    rw [ended, keptLine, unbrokenAppend, and_iff_right (by decide)]

end Unbroken

end Comment

namespace Json

open Comment (Unbroken Unseparated unbrokenAppend unbrokenCons terminators)

mutual

def texts : Json → List String
  | .string s => [s]
  | .array items => itemTexts items
  | .object members => memberTexts members
  | _ => []

def itemTexts : List Json → List String
  | [] => []
  | item :: rest => texts item ++ itemTexts rest

def memberTexts : List (String × Json) → List String
  | [] => []
  | (name, value) :: rest => name :: (texts value ++ memberTexts rest)

end

theorem hexDigitUnbroken (n : Nat) : hexDigit n ∉ terminators := by
  have each : ∀ k < 16, Nat.digitChar k ∉ terminators := by decide
  exact each _ (Nat.mod_lt _ (by decide))

theorem escapeUnbroken (c : Char) : Unbroken (escape c) ↔ c ∉ ['\u2028', '\u2029'] := by
  unfold escape
  split
  case h_8 =>
    split
    · rename_i control
      refine iff_of_true ?_ (fun separator => ?_)
      · simp only [unbrokenCons]
        exact ⟨by decide, by decide, by decide, by decide, hexDigitUnbroken _, hexDigitUnbroken _, nofun⟩
      · rcases List.mem_cons.mp separator with rfl | last
        · exact absurd control (by decide)
        · obtain rfl := List.mem_singleton.mp last
          exact absurd control (by decide)
    · rw [unbrokenCons, and_iff_left nofun]
      simp_all [terminators]
  all_goals exact iff_of_true (by decide) (by decide)

theorem stringUnbroken (s : List Char) : Unbroken (renderString s) ↔ Unseparated s := by
  rw [renderString, unbrokenCons, unbrokenAppend, and_iff_right (by decide), and_iff_left (by decide)]
  simp only [Unbroken, List.forall_mem_flatMap]
  exact forall₂_congr (fun c _ => escapeUnbroken c)

theorem entryUnbroken {c : Char} (neutral : c ∉ terminators) (name value rest : List Char) :
    Unbroken (c :: (renderString name ++ ':' :: (value ++ rest))) ↔
      Unseparated name ∧ Unbroken value ∧ Unbroken rest := by
  have colon : ':' ∉ terminators := by decide
  rw [unbrokenCons, unbrokenAppend, unbrokenCons, unbrokenAppend, and_iff_right neutral, and_iff_right colon,
    stringUnbroken]

theorem numericUnbroken {cs : List Char} (numeric : Numeric cs) : Unbroken cs := by
  intro c mem
  rcases numeric c mem with digit | sign
  · intro ended
    have none := List.all_eq_true.mp (by decide : terminators.all (fun d => !d.isDigit) = true) c ended
    rw [digit] at none
    exact nomatch none
  · exact (by decide : Unbroken ['-', '+', '.', 'e']) c sign

def Clean (ts : List String) : Prop := ∀ t ∈ ts, Unseparated t.toList

theorem cleanAppend {ts us : List String} : Clean (ts ++ us) ↔ Clean ts ∧ Clean us := List.forall_mem_append

theorem cleanCons {t : String} {ts : List String} : Clean (t :: ts) ↔ Unseparated t.toList ∧ Clean ts :=
  List.forall_mem_cons

mutual

theorem valueUnbroken (j : Json) : Unbroken j.renderChars ↔ Clean j.texts := by
  match j with
  | .null | .bool true | .bool false | .array [] | .object [] =>
    exact iff_of_true (by decide) (by simp [texts, itemTexts, memberTexts, Clean])
  | .number n => exact iff_of_true (numericUnbroken n.renderNumeric) (by simp [texts, Clean])
  | .string s => rw [renderChars, texts, stringUnbroken, cleanCons, and_iff_left (by simp [Clean])]
  | .array (item :: rest) =>
    rw [renderChars, texts, itemTexts, unbrokenCons, unbrokenAppend, cleanAppend, and_iff_right (by decide),
      valueUnbroken item, itemsUnbroken rest]
  | .object ((name, value) :: rest) =>
    rw [renderChars, texts, memberTexts, entryUnbroken (by decide), cleanCons, cleanAppend,
      valueUnbroken value, membersUnbroken rest]

theorem itemsUnbroken (items : List Json) : Unbroken (renderItems items) ↔ Clean (itemTexts items) := by
  match items with
  | [] => exact iff_of_true (by decide) (by simp [itemTexts, Clean])
  | item :: rest =>
    rw [renderItems, itemTexts, unbrokenCons, unbrokenAppend, cleanAppend, and_iff_right (by decide),
      valueUnbroken item, itemsUnbroken rest]

theorem membersUnbroken (members : List (String × Json)) :
    Unbroken (renderMembers members) ↔ Clean (memberTexts members) := by
  match members with
  | [] => exact iff_of_true (by decide) (by simp [memberTexts, Clean])
  | (name, value) :: rest =>
    rw [renderMembers, memberTexts, entryUnbroken (by decide), cleanCons, cleanAppend,
      valueUnbroken value, membersUnbroken rest]

end

theorem renderUnbroken (j : Json) : Unbroken j.render.toList ↔ Clean j.texts := by
  rw [render, String.toList_ofList, valueUnbroken]

end Json

namespace Comment

def Whole (ts : List String) : Prop := ∀ t ∈ ts, Unbroken t.toList

instance (ts : List String) : Decidable (Whole ts) :=
  List.decidableBAll (fun (t : String) => Unbroken t.toList) ts

theorem wholeCons {t : String} {ts : List String} : Whole (t :: ts) ↔ Unbroken t.toList ∧ Whole ts :=
  List.forall_mem_cons

theorem joinUnbroken (ts : List String) : Unbroken (String.join ts).toList ↔ Whole ts := by
  induction ts with
  | nil => exact iff_of_true nofun nofun
  | cons t rest ih =>
    rw [wholeCons, ← ih, ← unbrokenAppend]
    simp

theorem listedUnbroken (ts : List String) : Unbroken (", ".intercalate ts).toList ↔ Whole ts := by
  induction ts with
  | nil => exact iff_of_true nofun nofun
  | cons t rest ih =>
    cases rest with
    | nil => simp [Whole]
    | cons next rest =>
      rw [String.intercalate_cons_of_ne_nil (by simp), String.toList_append, String.toList_append,
        unbrokenAppend, unbrokenAppend, ih, wholeCons (t := t), and_iff_left (b := Unbroken _) (by decide)]

theorem unmappedUnbroken (key : String) (value : Json) (location : String) :
    Unbroken (report key value location).toList ↔ Whole [key, location] ∧ Json.Clean value.texts := by
  have fixed : Whole ["UNMAPPED TRAIT: ", " (", ") on ", " is not mapped to zod."] := by decide
  rw [report, joinUnbroken, ← Json.renderUnbroken]
  simp only [wholeCons] at fixed ⊢
  grind

theorem memberUnbroken {target owner name note : String} {recursive : Bool}
    (opens : Opens "structure member" target (owner ++ "." ++ name) recursive note) :
    Unbroken note.toList ↔ Whole [target, owner, name] := by
  have fixed : Whole ["UNRESOLVED: ", "structure member", " target ", " for ", ".",
    " is not generated.", " is a recursive reference."] := by decide
  cases opens with
  | missing | recursive =>
    rw [joinUnbroken]
    simp only [wholeCons, String.toList_append, unbrokenAppend] at fixed ⊢
    grind

theorem typesUnbroken (name : String) (targets : List String) :
    Unbroken (String.join ["UNRESOLVED: operation ", name, " references unresolved target(s): ",
      ", ".intercalate targets, "."]).toList ↔ Whole (name :: targets) := by
  have fixed : Whole ["UNRESOLVED: operation ", " references unresolved target(s): ", "."] := by decide
  have listed := listedUnbroken targets
  rw [joinUnbroken]
  simp only [wholeCons] at fixed ⊢
  grind

theorem missingUnbroken (target : String) :
    Unbroken (String.join ["UNRESOLVED: operation target ", target, " is not generated."]).toList ↔
      Whole [target] := by
  have fixed : Whole ["UNRESOLVED: operation target ", " is not generated."] := by decide
  rw [joinUnbroken]
  simp only [wholeCons] at fixed ⊢
  grind

end Comment

namespace Contracts

open Comment (Lined Kept Whole)

variable {job : Job} {c : Contracts}

/-- A marker in lines of its own in a file, with the texts of the model that it shows as they are
and those that it shows in a value. -/
inductive Marker (c : Contracts) (file : FileKey) : String → List String → List String → Prop where
  | unmapped {id : String} {traits : Traits} {mapped : List String} {location key : String} {value : Json}
      (routed : c.job.fileOf id = .ok file) (attaches : c.job.model.Attaches id traits mapped location)
      (mem : (key, value) ∈ traits.entries) (apart : key ∉ mapped) :
      Marker c file (Comment.report key value location) [key, location] value.texts
  | member {id : String} {members : List (String × Member)} {traits : Traits} {entry : String × Member}
      {r : Resolution} {note : String} (routed : c.job.fileOf id = .ok file)
      (found : c.job.model.shape? id = some (.struct members traits)) (mem : entry ∈ members)
      (resolved : c.scope.resolve entry.2.target file .deferred = .ok r) (lost : r.resolved = false)
      (opens : Comment.Opens "structure member" entry.2.target (ShapeId.localName id ++ "." ++ entry.1)
        r.recursive note) : Marker c file note [entry.2.target, ShapeId.localName id, entry.1] []
  | types {id : String} {version : Option String} {operations resources : List String} {traits : Traits}
      {target : String} {input output : Option String} {errors : List String} {own : Traits}
      {takes gives : TypeRef} {missingInput missingOutput : List String} (routed : c.job.fileOf id = .ok file)
      (found : c.job.model.shape? id = some (.service version operations resources traits))
      (offered : target ∈ operations)
      (operation : c.job.model.shape? target = some (.operation input output errors own))
      (input : c.Types input takes missingInput) (output : c.Types output gives missingOutput)
      (some : missingInput ++ missingOutput ≠ []) :
      Marker c file (String.join ["UNRESOLVED: operation ", ShapeId.localName target,
        " references unresolved target(s): ", ", ".intercalate (missingInput ++ missingOutput), "."])
        (ShapeId.localName target :: (missingInput ++ missingOutput)) []
  | missing {id : String} {version : Option String} {operations resources : List String} {traits : Traits}
      {target : String} (routed : c.job.fileOf id = .ok file)
      (found : c.job.model.shape? id = some (.service version operations resources traits))
      (offered : target ∈ operations) (other : ∀ input output errors own,
        c.job.model.shape? target ≠ some (.operation input output errors own)) :
      Marker c file (String.join ["UNRESOLVED: operation target ", target, " is not generated."]) [target] []

theorem typesMissing {target : Option String} {t t' : TypeRef} {missing missing' : List String}
    (types : c.Types target t missing) (types' : c.Types target t' missing') : missing = missing' := by
  cases types with
  | absent =>
    cases types'
    rfl
  | unit =>
    cases types' with
    | unit => rfl
    | validator apart => contradiction
    | unresolved apart => contradiction
  | validator apart modelled validated =>
    cases types' with
    | unit => contradiction
    | validator => rfl
    | unresolved _ other => exact absurd validated (not_or.mpr (other _ modelled))
  | unresolved apart other =>
    cases types' with
    | unit => contradiction
    | validator _ modelled validated => exact absurd validated (not_or.mpr (other _ modelled))
    | unresolved => rfl

theorem memberReported (done : ofModel job = .ok c) {id : String} {members : List (String × Member)}
    {traits : Traits} {file : FileKey} (found : job.model.shape? id = some (.struct members traits))
    (routed : job.fileOf id = .ok file) {entry : String × Member} (mem : entry ∈ members) {r : Resolution}
    (resolved : c.scope.resolve entry.2.target file .deferred = .ok r) (lost : r.resolved = false)
    {note : String} (opens : Comment.Opens "structure member" entry.2.target
      (ShapeId.localName id ++ "." ++ entry.1) r.recursive note) :
    c.Shows file (Comment.printedLine 2 note) := by
  obtain rfl := Comment.opensOnly opens
  rw [← Comment.linesPrinted]
  obtain ⟨symbol, fields, f, registered, recorded, -, there, made⟩ := memberMade done found mem
  obtain rfl := Except.ok.inj ((writtenFile done registered).symm.trans routed)
  refine structShown done found routed recorded (Schema.fieldShown there ?_ 0)
  cases Structure.fieldMade made with
  | found resolved' closed =>
    cases resolved.symm.trans resolved'
    exact absurd closed (lost ▸ Bool.false_ne_true)
  | lost resolved' =>
    cases resolved.symm.trans resolved'
    exact List.mem_append_right _ (List.mem_singleton_self _)

theorem markerShown (done : ofModel job = .ok c) {file : FileKey} {note : String} {raw valued : List String}
    (marker : c.Marker file note raw valued) : ∃ cs, Lined note cs ∧ c.Shows file (String.ofList cs) := by
  obtain rfl := (finishedTrace done).1
  cases marker with
  | unmapped routed attaches mem apart =>
    obtain ⟨file', indent, routed', shown⟩ := declaredReported done attaches mem apart
    obtain rfl := Except.ok.inj (routed.symm.trans routed')
    exact ⟨_, .moved indent, shown⟩
  | member routed found mem resolved lost opens =>
    exact ⟨_, .moved 2, memberReported done found routed mem resolved lost opens⟩
  | types routed found offered operation input output some =>
    obtain ⟨text, method, shown⟩ := methodShown done found routed offered
    cases method with
    | fallback other => exact absurd operation (other _ _ _ _)
    | declared found' signed signs =>
      cases operation.symm.trans found'
      obtain ⟨missingInput, missingOutput, input', output', incomplete⟩ := signs.typed
      obtain rfl := typesMissing input input'
      obtain rfl := typesMissing output output'
      refine ⟨_, .moved 2, shown _ ?_⟩
      rw [incompleteMissing incomplete some]
      exact ⟨[], _, by simp; rfl⟩
  | @missing id version operations resources traits target routed found offered other =>
    obtain ⟨text, method, shown⟩ := methodShown done found routed offered
    cases method with
    | declared found' => exact absurd found' (other _ _ _ _)
    | fallback => exact ⟨_, .plain, shown _ ⟨[], ("  " ++ Naming.methodName (ShapeId.localName target) ++
        "(input: unknown): unknown;").toList, by simp⟩⟩

theorem markersKept (done : ofModel job = .ok c) {file : FileKey} {note : String} {raw valued : List String}
    (marker : c.Marker file note raw valued) : (∃ cs, Lined note cs ∧ c.Shows file (String.ofList cs)) ∧
      ∀ cs, Lined note cs → (Kept cs ↔ Whole raw ∧ Json.Clean valued) := by
  refine ⟨markerShown done marker, fun cs lined => (Comment.linedKept lined).trans ?_⟩
  have clean : Json.Clean [] := nofun
  cases marker with
  | unmapped => exact Comment.unmappedUnbroken _ _ _
  | member _ _ _ _ _ opens => rw [Comment.memberUnbroken opens, and_iff_left clean]
  | types => rw [Comment.typesUnbroken, and_iff_left clean]
  | missing => rw [Comment.missingUnbroken, and_iff_left clean]

def grants : Model where
  version := "2.0"
  shapes := [
    ("com.amazonaws.s3#Grants", .service none ["com.amazonaws.s3#Gone"] [] .empty),
    ("com.amazonaws.s3#Grant", .struct [] { Traits.empty with extra :=
      [("smithy.api#deprecated", .object [("message", .string "Use Permit.\u2028alert(1)")])] })]
  metadata := []
  distinct := by decide
  membersDistinct := by simp [Shape.memberNames]

theorem goneKept : ∃ c cs, ofModel ⟨grants, .standard⟩ = .ok c ∧
    c.Shows (.primary .service) (String.ofList cs) ∧ Kept cs ∧ Lined (String.join
      ["UNRESOLVED: operation target ", "com.amazonaws.s3#Gone", " is not generated."]) cs := by
  obtain ⟨c, done⟩ : ∃ c, ofModel ⟨grants, .standard⟩ = .ok c :=
    completes (fun b => by cases b <;> rfl) (by decide)
  obtain ⟨job, run⟩ := c
  obtain rfl := (finishedTrace done).1
  have routed : Job.fileOf ⟨grants, .standard⟩ "com.amazonaws.s3#Grants" = .ok (.primary .service) := rfl
  have gone : grants.shape? "com.amazonaws.s3#Gone" = none := rfl
  obtain ⟨⟨cs, lined, shown⟩, kept⟩ := markersKept done (.missing routed rfl (List.mem_singleton_self _)
    (fun _ _ _ _ found => nomatch gone.symm.trans found))
  exact ⟨_, cs, done, shown, (kept cs lined).mpr ⟨by decide, nofun⟩, lined⟩

def grantNote : String := Comment.report "smithy.api#deprecated"
  (.object [("message", .string "Use Permit.\u2028alert(1)")]) "structure Grant"

def grantLine : String := String.join
  ["// UNMAPPED TRAIT: smithy.api#deprecated (\x7b\"message\":\"Use Permit.", "\u2028",
    "alert(1)\"\x7d) on structure Grant is not mapped to zod.\n"]

theorem grantBroken : ∃ c, ofModel ⟨grants, .standard⟩ = .ok c ∧
    c.Marker (.primary .structures) grantNote ["smithy.api#deprecated", "structure Grant"]
      ["message", "Use Permit.\u2028alert(1)"] ∧
    c.Shows (.primary .structures) grantLine ∧ ¬ Comment.Unbroken grantNote.toList := by
  obtain ⟨c, done⟩ : ∃ c, ofModel ⟨grants, .standard⟩ = .ok c :=
    completes (fun b => by cases b <;> rfl) (by decide)
  obtain ⟨job, run⟩ := c
  obtain rfl := (finishedTrace done).1
  have routed : Job.fileOf ⟨grants, .standard⟩ "com.amazonaws.s3#Grant" = .ok (.primary .structures) := rfl
  have attaches : grants.Attaches "com.amazonaws.s3#Grant" _ _ _ := .struct rfl
  refine ⟨_, done, .unmapped routed attaches (List.mem_singleton_self _) (by decide), ?_, ?_⟩
  · obtain ⟨file, indent, routed', front, back, there⟩ :=
      declaredReported done attaches (List.mem_singleton_self _) (by decide)
    obtain rfl := Except.ok.inj (routed.symm.trans routed')
    have moved := Comment.printedWhole indent (by decide +kernel : '\n' ∉ ("// " ++ grantNote).toList)
    have text : ("// " ++ grantNote).toList ++ ['\n'] = grantLine.toList := by decide +kernel
    refine ⟨front ++ List.replicate indent ' ', back, ?_⟩
    rwa [List.append_assoc front, ← text, ← moved]
  · decide +kernel

end Contracts
end ShapeContracts
