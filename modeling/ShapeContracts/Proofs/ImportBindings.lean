import ShapeContracts.Proofs.Entries
import ShapeContracts.Proofs.Printing
import ShapeContracts.Proofs.ValueTexts

/-! Imports over the whole text of a file. After any part of what is printed, the imports are the pairs of
module and name that stand in it, each with the binding of its first use, and the text has these
bindings in it; what is printed later changes none of them. The block of imports has a line for each module
that binds its names so. -/
namespace ShapeContracts

def Naming.Quotes (text quoted : String) : Prop := ∃ inside, quoted.toList = '"' :: inside ∧
  ∀ limit rest, text.toList.length < limit → Json.readString limit (inside ++ rest) = some (text.toList, rest)

theorem Naming.quoteRead (text : String) : Quotes text (quote text) := by
  refine ⟨text.toList.flatMap Json.escape ++ ['"'], by simp [quote, Json.quote, Json.renderString], ?_⟩
  intro limit rest room
  rw [List.append_assoc, List.singleton_append]
  exact Json.stringRead text.toList limit rest room

namespace Fragment

namespace Bindings

inductive Clause : Import → String → Prop where
  | plain (module name : String) : Clause ⟨module, name, name⟩ name
  | renamed {module name binding : String} (apart : name ≠ binding) :
      Clause ⟨module, name, binding⟩ (String.join [name, " as ", binding])

theorem clauseRead (i : Import) : Clause i (clause i) := by
  obtain ⟨module, name, binding⟩ := i
  by_cases same : name = binding
  · subst same
    rw [clause, if_pos rfl]
    exact .plain module name
  · rw [clause, if_neg same]
    exact .renamed same

inductive Spells (module : String) : List Import → String → Prop where
  | of {imports clauses} {quoted : String}
      (each : List.Forall₂ Clause imports clauses) (specifier : Naming.Quotes module quoted) :
      Spells module imports
        (String.join ["import \x7b ", ", ".intercalate clauses, " \x7d from ", quoted, ";"])

theorem importLineSpells (b : Bindings) (module : String) :
    Spells module (b.ofModule module) (b.importLine module) := by
  refine .of ?_ (Naming.quoteRead module)
  rw [List.forall₂_map_right_iff]
  exact List.forall₂_same.mpr (fun i _ => clauseRead i)

variable {b : Bindings} {name module : String}

inductive Searches (taken : List String) (base : String) : Nat → String → Prop
  | free {n} (untaken : candidate base n ∉ taken) : Searches taken base n (candidate base n)
  | next {n found} (held : candidate base n ∈ taken) (later : Searches taken base (n + 1) found) :
      Searches taken base n found

theorem freeNameSearches {taken : List String} {base : String} {fuel n : Nat} (numbered : 2 ≤ n + fuel)
    (untaken : freeName taken base fuel n ∉ taken) : Searches taken base n (freeName taken base fuel n) := by
  -- the bound on the search is never met: it would leave a name that is taken
  induction fuel generalizing n with
  | zero =>
    have last : freeName taken base 0 n = candidate base n := by
      rw [freeName, candidate, if_neg (by omega)]
    rw [last] at untaken ⊢
    exact .free untaken
  | succ fuel ih =>
    by_cases held : candidate base n ∈ taken
    · have onward : freeName taken base (fuel + 1) n = freeName taken base fuel (n + 1) := by
        rw [freeName]
        exact if_pos held
      rw [onward] at untaken ⊢
      exact .next held (ih (by omega) untaken)
    · have here : freeName taken base (fuel + 1) n = candidate base n := by
        rw [freeName]
        exact if_neg held
      rw [here]
      exact .free held

theorem freshSearches (held : name ∈ b.taken) :
    Searches b.taken (Naming.importAlias module name) 1 (b.fresh name module) := by
  have some := List.length_pos_iff.mpr (List.ne_nil_of_mem held)
  rw [fresh, if_pos held]
  exact freeNameSearches (by omega) (freeNameFree _ (List.ne_nil_of_mem held))

theorem findKnown (sound : b.Sound) {i : Import} (known : i ∈ b.imports) :
    b.find? i.name i.module = some i := by
  cases found : b.find? i.name i.module with
  | none => exact absurd ⟨rfl, rfl⟩ (findNone found known)
  | some j =>
    obtain ⟨mem, module, name⟩ := findSome found
    rw [sound.once j mem i known module name]

theorem bindKnown (sound : b.Sound) {i : Import} (known : i ∈ b.imports) :
    b.bind i.name i.module = (i.binding, b) := by
  rw [bind, findKnown sound known]

def Knows (b : Bindings) (name module : String) : Prop := ∃ binding, ⟨module, name, binding⟩ ∈ b.imports

theorem bindNew (unknown : ¬ b.Knows name module) : (b.bind name module).1 = b.fresh name module := by
  unfold bind
  split
  · rename_i i found
    obtain ⟨mem, rfl, rfl⟩ := findSome found
    exact absurd ⟨_, mem⟩ unknown
  · rfl

theorem bindKnows {name' module' : String} :
    (b.bind name module).2.Knows name' module' ↔
      b.Knows name' module' ∨ (name' = name ∧ module' = module) := by
  have self : (b.bind name module).2.Knows name module := ⟨_, bindMem⟩
  constructor
  · rintro ⟨binding, known⟩
    unfold bind at known
    split at known
    · exact .inl ⟨binding, known⟩
    · rcases List.mem_append.mp known with old | new
      · exact .inl ⟨binding, old⟩
      · cases List.mem_singleton.mp new
        exact .inr ⟨rfl, rfl⟩
  · rintro (⟨binding, known⟩ | ⟨rfl, rfl⟩)
    · exact ⟨binding, bindGrows.kept _ known⟩
    · exact self

def Lines (b : Bindings) (lines : List String) : Prop :=
  List.Forall₂ (fun module line => Spells module (b.ofModule module) line) b.modules lines

theorem importBlockLines (b : Bindings) : ∃ lines, b.Lines lines ∧ b.importBlock = "\n".intercalate lines := by
  refine ⟨b.modules.map b.importLine, ?_, rfl⟩
  rw [Lines, List.forall₂_map_right_iff]
  exact List.forall₂_same.mpr (fun module _ => b.importLineSpells module)

theorem linesBlank {lines : List String} (each : b.Lines lines) :
    ("\n".intercalate lines).isEmpty = true ↔ lines = [] := by
  cases lines with
  | nil => exact iff_of_true rfl rfl
  | cons line rest =>
    obtain ⟨module, -, spells⟩ := Entries.paired each.flip List.mem_cons_self
    have begun : ("\n".intercalate (line :: rest)).toList.head? = some 'i' := by
      cases spells
      cases rest with
      | nil => simp
      | cons next rest =>
        rw [String.intercalate_cons_of_ne_nil (List.cons_ne_nil _ _)]
        simp
    refine iff_of_false (fun blank => ?_) (List.cons_ne_nil _ _)
    rw [String.isEmpty_iff.mp blank] at begun
    exact nomatch begun

def Binds (i : Import) (line : String) : Prop := ∃ before clause after quoted,
  Clause i clause ∧ Naming.Quotes i.module quoted ∧
    line = String.join ["import \x7b ", ", ".intercalate (before ++ clause :: after), " \x7d from ", quoted, ";"]

theorem linesBind {lines : List String} (each : b.Lines lines) {binding : String}
    (imports : b.Imports module name binding) : ∃ line ∈ lines, Binds ⟨module, name, binding⟩ line := by
  obtain ⟨line, listed, spells⟩ := Entries.paired each imports.1
  refine ⟨line, listed, ?_⟩
  cases spells with
  | @of clauses quoted clause specifier =>
    obtain ⟨text, inside, reads⟩ := Entries.paired clause imports.2
    obtain ⟨before, after, rfl⟩ := List.append_of_mem inside
    exact ⟨before, text, after, quoted, reads, specifier, rfl⟩

structure Listed (b : Bindings) : Prop where
  modules : b.modules.Pairwise (fun m n => Text.lt m n = true)
  names : ∀ m, (b.ofModule m).Pairwise (fun i j => Text.lt i.name j.name = true)
  whole : ∀ i, i ∈ b.imports ↔ i.module ∈ b.modules ∧ i ∈ b.ofModule i.module
  only : ∀ m, ∀ i ∈ b.ofModule m, i.module = m
  block : ∃ lines, b.Lines lines ∧ b.importBlock = "\n".intercalate lines

theorem soundListed (sound : b.Sound) : b.Listed where
  modules := Entries.sortedRises id (by simpa using Entries.eraseDupsDistinct (b.imports.map Import.module))
  names m := by
    refine Entries.sortedRises Import.name (List.pairwise_map.mpr ?_)
    have distinct : b.imports.Nodup := List.Pairwise.of_map Import.binding
      (fun _ _ apart same => apart (congrArg _ same)) sound.distinct
    refine (distinct.filter _).imp_of_mem ?_
    intro i j hi hj apart names
    simp only [List.mem_filter, beq_iff_eq] at hi hj
    exact apart (sound.once i hi.1 j hj.1 (hi.2.trans hj.2.symm) names)
  whole i := importsMem.symm
  only m i mem := by
    simp only [ofModule, memSortedBy, List.mem_filter, beq_iff_eq] at mem
    exact mem.2
  block := b.importBlockLines

end Bindings

open Bindings (Knows)

def Leaf.spelling (b : Bindings) : Leaf → List Char
  | .text cs => cs
  | .symbol name => name.toList
  | .imported name module => (((b.find? name module).map Import.binding).getD "").toList

theorem printKnows {b : Bindings} {ls : List Leaf} {name module : String} :
    (printLeaves b ls).2.Knows name module ↔ b.Knows name module ∨ Leaf.imported name module ∈ ls := by
  induction ls generalizing b with
  | nil => simp [printLeaves]
  | cons l rest ih =>
    rw [printLeaves, ih]
    cases l with
    | imported name' module' =>
      simp only [Leaf.print, Bindings.bindKnows, List.mem_cons, Leaf.imported.injEq, or_assoc]
    | text cs | symbol name' => simp [Leaf.print]

theorem printCons (b : Bindings) (l : Leaf) (rest : List Leaf) : printLeaves b (l :: rest) =
    ((l.print b).1 ++ (printLeaves (l.print b).2 rest).1, (printLeaves (l.print b).2 rest).2) := rfl

theorem leafSpelled {b later : Bindings} (sound : later.Sound) {l : Leaf} (grows : (l.print b).2.Grows later) :
    (l.print b).1 = l.spelling later := by
  cases l with
  | text cs | symbol name => rfl
  | imported name module =>
    have found := Bindings.findKnown sound (grows.kept _ Bindings.bindMem)
    simp only [Leaf.spelling, found, Option.map_some, Option.getD_some, Leaf.print]

theorem printSpelled {b later : Bindings} (sound : later.Sound) {ls : List Leaf}
    (grows : (printLeaves b ls).2.Grows later) : (printLeaves b ls).1 = ls.flatMap (Leaf.spelling later) := by
  induction ls generalizing b with
  | nil => rfl
  | cons l rest ih =>
    have first := leafSpelled sound (Bindings.growsTrans (printGrows (l.print b).2 rest) grows)
    rw [printCons, List.flatMap_cons, ← first]
    exact congrArg ((l.print b).1 ++ ·) (ih grows)

theorem printAgain {b : Bindings} (sound : b.Sound) {ls : List Leaf}
    (known : ∀ name module, Leaf.imported name module ∈ ls → b.Knows name module) :
    printLeaves b ls = (ls.flatMap (Leaf.spelling b), b) := by
  have still : (printLeaves b ls).2 = b := by
    induction ls with
    | nil => rfl
    | cons l rest ih =>
      have same : (l.print b).2 = b := by
        cases l with
        | text cs | symbol name => rfl
        | imported name module =>
          obtain ⟨binding, mem⟩ := known name module List.mem_cons_self
          exact congrArg Prod.snd (Bindings.bindKnown sound mem)
      rw [printCons, same]
      exact ih (fun name module mem => known name module (List.mem_cons_of_mem _ mem))
  exact Prod.ext (printSpelled sound (still.symm ▸ Bindings.growsRefl b)) still

def spelled (b : Bindings) (fs : List Fragment) : List Char := (partLeaves 0 fs).flatMap (Leaf.spelling b)

theorem spelledAppend (b : Bindings) (fs gs : List Fragment) :
    spelled b (fs ++ gs) = spelled b fs ++ spelled b gs := by
  rw [spelled, partAppend, List.flatMap_append, spelled, spelled]

theorem spelledCons (b : Bindings) (f : Fragment) (fs : List Fragment) :
    spelled b (f :: fs) = spelled b [f] ++ spelled b fs := spelledAppend b [f] fs

theorem spelledRaw (b : Bindings) (text : String) : spelled b [.raw text] = text.toList := by
  simp [spelled, partLeaves, leaves, reindentZero, Leaf.spelling]

theorem spelledSequence (b : Bindings) (parts : List Fragment) :
    spelled b [.sequence parts] = spelled b parts := by
  simp [spelled, partLeaves, leaves]

theorem spelledJoined (b : Bindings) (separator : String) (rows : List (List Fragment)) :
    spelled b ([.raw separator].intercalate rows) = separator.toList.intercalate (rows.map (spelled b)) := by
  induction rows with
  | nil => rfl
  | cons row rest ih =>
    cases rest with
    | nil => simp [List.intercalate]
    | cons next rest =>
      rw [List.intercalate_cons_cons, spelledAppend, spelledAppend, ih, spelledRaw]
      exact List.intercalate_cons_cons.symm

def rowOf (fs : List Fragment) : List Leaf := fs.flatMap (leaves 0)

theorem printAllRow (b : Bindings) (fs : List Fragment) :
    printLeaves b (rowOf fs) = ((printAll b fs).1.flatten, (printAll b fs).2) := by
  induction fs generalizing b with
  | nil => rfl
  | cons f rest ih =>
    have row : rowOf (f :: rest) = leaves 0 f ++ rowOf rest := List.flatMap_cons
    rw [row, printAppend, printAllCons, ih, List.flatten_cons]

/-- What the imports of a file account for after some leaves: the pairs that stand in them, each with one
binding that the text has there, and that is neither another one's nor a name of the file. -/
structure Accounts (names : List String) (ls : List Leaf) (printed : Printed) : Prop where
  text : printed.1 = ls.flatMap (Leaf.spelling printed.2)
  occurred : ∀ name module, printed.2.Knows name module ↔ Leaf.imported name module ∈ ls
  once : ∀ i ∈ printed.2.imports, ∀ j ∈ printed.2.imports, i.module = j.module → i.name = j.name → i = j
  apart : (printed.2.imports.map Import.binding).Nodup
  undeclared : ∀ i ∈ printed.2.imports, i.binding ∉ names
  listed : printed.2.Listed

def upTo (names : List String) (ls : List Leaf) : Printed := printLeaves (.ofDeclared names) ls

theorem upToSound (names : List String) (ls : List Leaf) : (upTo names ls).2.Sound :=
  printSound (Bindings.emptySound names) ls

theorem upToAccounts (names : List String) (ls : List Leaf) : Accounts names ls (upTo names ls) := by
  have sound := upToSound names ls
  refine ⟨printSpelled sound (Bindings.growsRefl _), fun name module => ?_, sound.once, sound.distinct, ?_,
    Bindings.soundListed sound⟩
  · rw [upTo, printKnows]
    simp [Knows, Bindings.ofDeclared]
  · have declared : (upTo names ls).2.declared = names := (printGrows _ ls).declared
    exact fun i mem => declared ▸ sound.apart i mem

theorem upToGrows {names : List String} {ls ls' : List Leaf} (later : ls <+: ls') :
    (upTo names ls).2.Grows (upTo names ls').2 := by
  obtain ⟨rest, rfl⟩ := later
  rw [upTo, upTo, printAppend]
  exact printGrows _ rest

theorem printedAgain {names : List String} {ls : List Leaf} {before : List Fragment} {f : Fragment}
    (printed : rowOf (before ++ [f]) <+: ls) : printAt 0 (upTo names ls).2 f =
      ((printAt 0 (printAll (.ofDeclared names) before).2 f).1, (upTo names ls).2) := by
  have row : rowOf (before ++ [f]) = rowOf before ++ leaves 0 f := by simp [rowOf]
  have sound := upToSound names ls
  have known : ∀ name module, Leaf.imported name module ∈ leaves 0 f → (upTo names ls).2.Knows name module :=
    fun name module mem => ((upToAccounts names ls).occurred name module).mpr
      (printed.subset (row ▸ List.mem_append_right _ mem))
  have first : (printLeaves (printAll (.ofDeclared names) before).2 (leaves 0 f)).2.Grows (upTo names ls).2 := by
    have grows : (upTo names _).2.Grows _ := upToGrows printed
    rwa [row, upTo, printAppend, printAllRow] at grows
  rw [printAtLeaves, printAtLeaves, printAgain sound known, printSpelled sound first]

theorem importsStand (names : List String) (fs : List Fragment) :
    upTo names (rowOf fs) =
      ((printAll (.ofDeclared names) fs).1.flatten, (printAll (.ofDeclared names) fs).2) ∧
    ∀ ls, ls <+: rowOf fs →
      Accounts names ls (upTo names ls) ∧
      (∀ ls', ls <+: ls' → ls' <+: rowOf fs → ∀ i ∈ (upTo names ls).2.imports,
        i ∈ (upTo names ls').2.imports) ∧
      (∀ name module, ¬ (upTo names ls).2.Knows name module →
        (name ∉ (upTo names ls).2.taken → ((upTo names ls).2.bind name module).1 = name) ∧
        (name ∈ (upTo names ls).2.taken →
          Bindings.Searches (upTo names ls).2.taken (Naming.importAlias module name) 1
            ((upTo names ls).2.bind name module).1)) ∧
      ∀ before f, rowOf (before ++ [f]) <+: ls → printAt 0 (upTo names ls).2 f =
        ((printAt 0 (printAll (.ofDeclared names) before).2 f).1, (upTo names ls).2) := by
  refine ⟨printAllRow _ fs, fun ls _ => ⟨upToAccounts names ls, ?_, ?_, fun before f => printedAgain⟩⟩
  · exact fun ls' later _ i mem => (upToGrows later).kept i mem
  · intro name module unknown
    rw [Bindings.bindNew unknown]
    exact ⟨fun free => by rw [Bindings.fresh, if_neg free], Bindings.freshSearches⟩

def sharedTag : Fragment := .imported "tagSchema" "./com.amazonaws.shared.structures.js"

def iamTag : Fragment := .imported "tagSchema" "./com.amazonaws.iam.structures.js"

theorem tagsStand : let b := (printAll (.ofDeclared ["tagSchema", "sharedTagSchema"]) [sharedTag, iamTag]).2
    b.imports = [⟨"./com.amazonaws.shared.structures.js", "tagSchema", "sharedTagSchema2"⟩,
      ⟨"./com.amazonaws.iam.structures.js", "tagSchema", "iamTagSchema"⟩] ∧
    b.Listed ∧ (b.imports.map Import.binding).Nodup ∧
    printAt 0 b sharedTag = ("sharedTagSchema2".toList, b) := by
  intro b
  obtain ⟨whole, points⟩ := importsStand ["tagSchema", "sharedTagSchema"] [sharedTag, iamTag]
  obtain ⟨accounts, -, -, again⟩ := points _ (List.prefix_refl _)
  have last : (upTo ["tagSchema", "sharedTagSchema"] (rowOf [sharedTag, iamTag])).2 = b :=
    congrArg Prod.snd whole
  have printed := again [] sharedTag ⟨leaves 0 iamTag, rfl⟩
  rw [last] at printed
  refine ⟨by decide +kernel, last ▸ accounts.listed, last ▸ accounts.apart, printed.trans ?_⟩
  exact congrArg (·, b) (by decide +kernel)

end Fragment
end ShapeContracts
