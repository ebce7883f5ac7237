import Mathlib.Data.List.Forall2
import ShapeContracts.Command
import ShapeContracts.Proofs.Entries

/-! Delivery of the generated files. Files are stored in the order of their keys, up to the first that has no path
or is refused; nothing is stored behind it. A rehearsal stores nothing and says beforehand where each file
would stand and how long it is. -/
namespace ShapeContracts

namespace FileKey

def UpTo (a b : FileKey) : Prop :=
  match a.group, b.group with
  | .primary, .primary => a.sub.rank ≤ b.sub.rank
  | .primary, .shared _ => True
  | .shared _, .primary => False
  | .shared x, .shared y => Text.le x y = true ∧ (x = y → a.sub.rank ≤ b.sub.rank)

variable {a b c : FileKey}

theorem notBehind : (!b.lt a) = true ↔ a.UpTo b := by
  obtain ⟨_ | x, sub⟩ := a <;> obtain ⟨_ | y, sub'⟩ := b
  · simp [lt, UpTo]
  · simp [lt, UpTo]
  · simp [lt, UpTo]
  · have sides : y = x ↔ x = y := eq_comm
    simp [lt, UpTo, Text.lt, sides, imp_iff_not_or]

theorem upToTotal (a b : FileKey) : a.UpTo b ∨ b.UpTo a := by
  obtain ⟨_ | x, sub⟩ := a <;> obtain ⟨_ | y, sub'⟩ := b
  · exact Nat.le_total ..
  · exact .inl trivial
  · exact .inr trivial
  · have total := Text.leTotal x y
    rw [Bool.or_eq_true] at total
    by_cases same : x = y
    · subst same
      have le : Text.le x x = true := total.elim id id
      exact (Nat.le_total sub.rank sub'.rank).imp (fun h => ⟨le, fun _ => h⟩) (fun h => ⟨le, fun _ => h⟩)
    · exact total.imp (fun le => ⟨le, fun h => absurd h same⟩) (fun le => ⟨le, fun h => absurd h.symm same⟩)

theorem upToTrans (first : a.UpTo b) (second : b.UpTo c) : a.UpTo c := by
  obtain ⟨_ | x, sub⟩ := a <;> obtain ⟨_ | y, sub'⟩ := b <;> obtain ⟨_ | z, sub''⟩ := c <;>
    try first | exact trivial | contradiction
  · exact Nat.le_trans first second
  · obtain ⟨le, rank⟩ := first
    obtain ⟨le', rank'⟩ := second
    refine ⟨Text.leTrans x y z le le', fun same => ?_⟩
    subst same
    obtain rfl := Text.leAntisymm le le'
    exact Nat.le_trans (rank rfl) (rank' rfl)

theorem upToAntisymm (first : a.UpTo b) (second : b.UpTo a) : a = b := by
  obtain ⟨_ | x, sub⟩ := a <;> obtain ⟨_ | y, sub'⟩ := b <;> try contradiction
  · obtain rfl := SubFile.rankInjective (Nat.le_antisymm first second)
    rfl
  · obtain ⟨le, rank⟩ := first
    obtain ⟨le', rank'⟩ := second
    obtain rfl := Text.leAntisymm le le'
    obtain rfl := SubFile.rankInjective (Nat.le_antisymm (rank rfl) (rank' rfl))
    rfl

end FileKey

theorem Run.keysDistinct (r : Run) : r.fileKeys.Nodup :=
  (sortedByPerm _ _).nodup_iff.mpr (Entries.eraseDupsDistinct _)

theorem Run.keysRise (r : Run) : r.fileKeys.Pairwise (fun a b => a.lt b = true) := by
  have ordered := @sortedByPairwise FileKey (fun a b => !b.lt a)
    (fun a b c first second => FileKey.notBehind.mpr
      (FileKey.upToTrans (FileKey.notBehind.mp first) (FileKey.notBehind.mp second)))
    (fun a b => Bool.or_eq_true_iff.mpr ((FileKey.upToTotal a b).imp FileKey.notBehind.mpr FileKey.notBehind.mpr))
    (r.code.map Prod.fst).eraseDups
  refine (ordered.and r.keysDistinct).imp ?_
  rintro a b ⟨before, apart⟩
  cases less : a.lt b with
  | true => rfl
  | false =>
    have after : (!a.lt b) = true := by rw [less, Bool.not_false]
    exact absurd (FileKey.upToAntisymm (FileKey.notBehind.mp before) (FileKey.notBehind.mp after)) apart

abbrev Sink (σ : Type) := String → String → StateM σ (Except Failure Unit)

structure Attempt where
  path : String
  text : String
  answer : Except Failure Unit

def Sink.observed {σ : Type} (sink : Sink σ) : Sink (σ × List Attempt) := fun path text before =>
  let (answer, after) := sink path text before.1
  (answer, (after, before.2 ++ [⟨path, text, answer⟩]))

namespace Layout

variable {σ : Type} {layout : Layout}

def Takes (layout : Layout) (file : FileKey × String) (a : Attempt) : Prop :=
  layout.path? file.1 = some a.path ∧ a.text = file.2 ∧ a.answer = .ok ()

inductive Ends (layout : Layout) (taken : List Attempt) :
    List (FileKey × String) → List Attempt → Except Failure (List String) → Prop where
  | complete : Ends layout taken [] taken (.ok (taken.map Attempt.path))
  | pathless {key : FileKey} {text : String} {rest : List (FileKey × String)}
      (missing : layout.path? key = none) :
      Ends layout taken ((key, text) :: rest) taken (.error (.missingOutputPath key))
  | refused {key : FileKey} {text path : String} {e : Failure} {rest : List (FileKey × String)}
      (found : layout.path? key = some path) :
      Ends layout taken ((key, text) :: rest) (taken ++ [⟨path, text, .error e⟩]) (.error e)

def Delivers (layout : Layout) (files : List (FileKey × String)) (calls : List Attempt)
    (result : Except Failure (List String)) : Prop :=
  ∃ stored rest taken, files = stored ++ rest ∧ List.Forall₂ layout.Takes stored taken ∧
    layout.Ends taken rest calls result

theorem deliversMore {key : FileKey} {text path : String} {rest : List (FileKey × String)} {calls : List Attempt}
    {result : Except Failure (List String)} (found : layout.path? key = some path)
    (delivers : layout.Delivers rest calls result) :
    layout.Delivers ((key, text) :: rest) (⟨path, text, .ok ()⟩ :: calls) (result.map (path :: ·)) := by
  obtain ⟨stored, left, taken, rfl, each, ends⟩ := delivers
  refine ⟨(key, text) :: stored, left, ⟨path, text, .ok ()⟩ :: taken, rfl, .cons ⟨found, rfl, rfl⟩ each, ?_⟩
  cases ends with
  | complete => exact .complete
  | pathless missing => exact .pathless missing
  | refused found' => exact .refused found'

theorem filesDelivered (layout : Layout) (sink : Sink σ) (files : List (FileKey × String)) (s : σ)
    (before : List Attempt) : ∃ calls result s', Contracts.writeFiles layout sink files s = (result, s') ∧
      Contracts.writeFiles layout sink.observed files (s, before) = (result, s', before ++ calls) ∧
      layout.Delivers files calls result := by
  induction files generalizing s before with
  | nil => exact ⟨[], .ok [], s, rfl, by rw [List.append_nil]; rfl, [], [], [], rfl, .nil, .complete⟩
  | cons file rest ih =>
    obtain ⟨key, text⟩ := file
    cases found : layout.path? key with
    | none =>
      refine ⟨[], .error (.missingOutputPath key), s, ?_, ?_, [], _, [], rfl, .nil, .pathless found⟩
      · rw [Contracts.writeFiles, found]
        rfl
      · rw [Contracts.writeFiles, found, List.append_nil]
        rfl
    | some path =>
      cases answered : sink path text s with
      | mk answer s₁ =>
        have observed : sink.observed path text (s, before) =
            (answer, s₁, before ++ [⟨path, text, answer⟩]) := by
          rw [Sink.observed, answered]
        cases answer with
        | error e =>
          refine ⟨[⟨path, text, .error e⟩], .error e, s₁, ?_, ?_, [], _, [], rfl, .nil, .refused found⟩
          · simp only [Contracts.writeFiles, found, bind, StateT.bind, answered]
            rfl
          · simp only [Contracts.writeFiles, found, bind, StateT.bind, observed]
            rfl
        | ok =>
          obtain ⟨calls, result, s', same, seen, delivers⟩ := ih s₁ (before ++ [⟨path, text, .ok ()⟩])
          refine ⟨⟨path, text, .ok ()⟩ :: calls, result.map (path :: ·), s', ?_, ?_, deliversMore found delivers⟩
          · simp only [Contracts.writeFiles, found, bind, StateT.bind, answered, same]
            cases result <;> rfl
          · simp only [Contracts.writeFiles, found, bind, StateT.bind, observed, seen, List.append_assoc,
              List.singleton_append]
            cases result <;> rfl

theorem deliversPaths {files : List (FileKey × String)} {calls : List Attempt} {paths : List String}
    (delivers : layout.Delivers files calls (.ok paths)) :
    files.map (fun f => layout.path? f.1) = paths.map some := by
  obtain ⟨stored, rest, taken, rfl, each, ends⟩ := delivers
  cases ends
  rw [List.append_nil]
  induction each with
  | nil => rfl
  | cons takes _ ih => rw [List.map_cons, takes.1, ih]; rfl

end Layout

namespace Command

inductive Change where
  | file (path text : String)
  | directory (path : String)
  deriving DecidableEq, Repr

structure Session (σ : Type) where
  state : σ
  changes : List Change
  printed : List String

variable {σ : Type}

def Session.ask (change : List Change) (action : StateM σ α) : StateM (Session σ) α := fun w =>
  let (answer, state) := action w.state
  (answer, { w with state := state, changes := w.changes ++ change })

def Session.print (w : Session σ) (lines : List String) : Session σ := { w with printed := w.printed ++ lines }

def observed (storage : Storage (StateM σ)) : Surroundings (StateM (Session σ)) where
  storage :=
    { read := fun path => Session.ask [] (storage.read path)
      write := fun path text => Session.ask [.file path text] (storage.write path text)
      makeDirectory := fun path => Session.ask [.directory path] (storage.makeDirectory path)
      isDirectory := fun path => Session.ask [] (storage.isDirectory path) }
  say line := fun w => ((), w.print [line])

section
variable {m : Type → Type} [Monad m] (s : Surroundings m) (r : Request) (o : Overrides)

def contractsOf (settings : Settings) : m (Except Trouble Contracts) := do
  s.say "→ Loading model..."
  match ← loadModel s r.spec settings with
  | .error t => pure (.error t)
  | .ok model => do
    s.say ("✓ Loaded " ++ toString model.shapes.length ++ " shapes")
    s.say "→ Generating files..."
    match Contracts.ofModel ⟨model, settings⟩ with
    | .error e => pure (.error ⟨"Failed to generate schemas", e⟩)
    | .ok c => pure (.ok c)

def produce (settings : Settings) : m (Except Trouble Contracts) := do
  if r.verbose then
    s.say ("  Primary namespace: " ++ settings.primarySpace)
    s.say ("  Primary dir: " ++ settings.output.primaryDir)
    s.say ("  Shared dir: " ++ settings.output.sharedDir)
  contractsOf s r settings

def prepare : m (Except Trouble (Layout × Contracts)) := do
  s.say ("→ Generating schemas from: " ++ r.spec)
  match ← loadSettings s r.config with
  | .error t => pure (.error t)
  | .ok settings =>
    match ← produce s r (o.apply settings) with
    | .error t => pure (.error t)
    | .ok c => pure (.ok (.ofOutput (o.apply settings).output, c))

variable [LawfulMonad m]

theorem generateFromProduced (settings : Settings) (dryRun : Bool) : generateFrom s r dryRun settings = (do
    match ← produce s r settings with
    | .error t => pure (.error t)
    | .ok c => deliver s (.ofOutput settings.output) c dryRun) := by
  unfold generateFrom produce contractsOf
  cases r.verbose <;> simp only [Bool.false_eq_true, if_false, if_true, bind_assoc] <;>
    repeat refine bind_congr (fun loaded => ?_)
  all_goals
    rename_i loaded
    cases loaded with
    | error t => rw [pure_bind]
    | ok model =>
      simp only [bind_assoc]
      refine bind_congr (fun _ => bind_congr (fun _ => ?_))
      cases Contracts.ofModel ⟨model, settings⟩ <;> rw [pure_bind]

theorem generatePrepared (dryRun : Bool) : generate s r { o with dryRun := dryRun } = (do
      match ← prepare s r o with
      | .error t => pure (.error t)
      | .ok (layout, c) => deliver s layout c dryRun) := by
  simp only [generate, prepare, bind_assoc]
  refine bind_congr (fun _ => bind_congr (fun loaded => ?_))
  cases loaded with
  | error t => rw [pure_bind]
  | ok settings =>
    have same : Overrides.apply { o with dryRun := dryRun } settings = o.apply settings := rfl
    simp only [generateFromProduced, same, bind_assoc]
    refine bind_congr (fun produced => ?_)
    cases produced <;> rw [pure_bind]

end

theorem runNext {τ : Type} (action : StateM τ α) (next : α → StateM τ β) (w : τ) :
    (action >>= next) w = next (action w).1 (action w).2 := rfl

/-! What comes before a delivery changes nothing in the storage. -/

section
variable {action : StateM (Session σ) α}

def Quiet (action : StateM (Session σ) α) : Prop := ∀ w, (action w).2.changes = w.changes

theorem quietPure (a : α) : Quiet (pure a : StateM (Session σ) α) := fun _ => rfl

theorem quietBind {next : α → StateM (Session σ) β} (first : Quiet action) (later : ∀ a, Quiet (next a)) :
    Quiet (action >>= next) :=
  fun w => (later (action w).1 (action w).2).trans (first w)

variable (storage : Storage (StateM σ))

theorem quietSay (line : String) : Quiet ((observed storage).say line) := fun _ => rfl

theorem quietRead (path : String) : Quiet ((observed storage).storage.read path) :=
  fun w => List.append_nil w.changes

theorem quietSettings (config : Option String) : Quiet (loadSettings (observed storage) config) := by
  cases config with
  | none => exact quietPure _
  | some path =>
    refine quietBind (quietRead storage path) (fun text => ?_)
    cases text with
    | error e => exact quietPure _
    | ok text => dsimp only; split <;> exact quietPure _

theorem quietModel (path : String) (settings : Settings) :
    Quiet (loadModel (observed storage) path settings) := by
  refine quietBind (quietRead storage path) (fun text => ?_)
  cases text with
  | error e => exact quietPure _
  | ok text => dsimp only; split <;> exact quietPure _

theorem quietContracts (r : Request) (settings : Settings) : Quiet (contractsOf (observed storage) r settings) := by
  have say := fun line => quietSay storage line
  refine quietBind (say _) (fun _ => quietBind (quietModel storage r.spec settings) (fun loaded => ?_))
  cases loaded with
  | error t => exact quietPure _
  | ok model =>
    refine quietBind (say _) (fun _ => quietBind (say _) (fun _ => ?_))
    split <;> exact quietPure _

theorem quietProduce (r : Request) (settings : Settings) : Quiet (produce (observed storage) r settings) := by
  have say := fun line => quietSay storage line
  have rest := quietContracts storage r settings
  unfold produce
  cases r.verbose with
  | false => exact rest
  | true => exact quietBind (say _) (fun _ => quietBind (say _) (fun _ => quietBind (say _) (fun _ => rest)))

theorem quietPrepare (r : Request) (o : Overrides) : Quiet (prepare (observed storage) r o) := by
  refine quietBind (quietSay storage _) (fun _ => quietBind (quietSettings storage r.config) (fun loaded => ?_))
  cases loaded with
  | error t => exact quietPure _
  | ok settings =>
    refine quietBind (quietProduce storage r _) (fun produced => ?_)
    cases produced <;> exact quietPure _

end

/-! What a rehearsal says of the files. -/

def sizeLine (path text : String) : String :=
  "  📄 " ++ path ++ " (" ++ toString text.utf8ByteSize ++ " bytes)"

def Session.announce (w : Session σ) : Session σ :=
  (w.print ["\n✓ Dry run complete!"]).print ["\nFiles that would be written:"]

def verdict (layout : Layout) (files : List (FileKey × String)) : Except Trouble Unit :=
  match files.find? (fun f => (layout.path? f.1).isNone) with
  | none => .ok ()
  | some f => .error ⟨"No output path for " ++ f.1.toString, .missingOutputPath f.1⟩

section
variable {storage : Storage (StateM σ)} {layout : Layout} {files : List (FileKey × String)}

theorem listFirst {key : FileKey} {text path : String} (found : layout.path? key = some path) (w : Session σ) :
    listFiles (observed storage) layout ((key, text) :: files) w =
      listFiles (observed storage) layout files (w.print [sizeLine path text]) := by
  rw [listFiles, found]
  rfl

theorem listNone {key : FileKey} {text : String} (missing : layout.path? key = none) (w : Session σ) :
    listFiles (observed storage) layout ((key, text) :: files) w = (verdict layout ((key, text) :: files), w) := by
  have first : verdict layout ((key, text) :: files) =
      .error ⟨"No output path for " ++ key.toString, .missingOutputPath key⟩ := by
    rw [verdict, List.find?_cons_of_pos (by rw [missing]; rfl)]
  rw [listFiles, missing, first]
  rfl

theorem listEnds (w : Session σ) : ∃ lines,
    listFiles (observed storage) layout files w = (verdict layout files, w.print lines) := by
  induction files generalizing w with
  | nil => exact ⟨[], by rw [Session.print, List.append_nil]; rfl⟩
  | cons file files ih =>
    obtain ⟨key, text⟩ := file
    cases found : layout.path? key with
    | none => exact ⟨[], by rw [listNone found, Session.print, List.append_nil]⟩
    | some path =>
      obtain ⟨lines, ends⟩ := ih (w.print [sizeLine path text])
      have same : verdict layout ((key, text) :: files) = verdict layout files := by
        rw [verdict, List.find?_cons_of_neg (by rw [found]; exact Bool.false_ne_true)]
        rfl
      exact ⟨sizeLine path text :: lines, by rw [listFirst found, ends, same]; simp [Session.print]⟩

theorem listPaths {paths : List String} (each : files.map (fun f => layout.path? f.1) = paths.map some)
    (w : Session σ) : listFiles (observed storage) layout files w =
      (.ok (), w.print (List.zipWith sizeLine paths (files.map Prod.snd))) := by
  induction files generalizing paths w with
  | nil => rw [List.map_nil, List.zipWith_nil_right, Session.print, List.append_nil]; rfl
  | cons file files ih =>
    cases paths with
    | nil => contradiction
    | cons path paths =>
      obtain ⟨found, each⟩ := List.cons.inj each
      rw [listFirst found, ih each]
      simp [Session.print]

theorem verdictFails : (∃ t, verdict layout files = .error t) ↔ ∃ f ∈ files, layout.path? f.1 = none := by
  unfold verdict
  cases first : files.find? (fun f => (layout.path? f.1).isNone) with
  | none =>
    have all := List.find?_eq_none.mp first
    refine ⟨nofun, fun ⟨f, mem, missing⟩ => absurd ?_ (all f mem)⟩
    rw [missing]
    rfl
  | some f =>
    have missing := List.find?_some first
    exact ⟨fun _ => ⟨f, List.mem_of_find?_eq_some first, Option.isNone_iff_eq_none.mp missing⟩, fun _ => ⟨_, rfl⟩⟩

end

structure Rehearses (layout : Layout) (files : List (FileKey × String)) (ready : Session σ)
    (outcome : Except Trouble Unit × Session σ) : Prop where
  state : outcome.2.state = ready.state
  changes : outcome.2.changes = ready.changes
  lists : ∀ paths, files.map (fun f => layout.path? f.1) = paths.map some →
    outcome = (.ok (), ready.announce.print (List.zipWith sizeLine paths (files.map Prod.snd)))
  fails : (∃ t, outcome.1 = .error t) ↔ ∃ f ∈ files, layout.path? f.1 = none
  first : outcome.1 = verdict layout files

theorem rehearsed (storage : Storage (StateM σ)) (layout : Layout) (c : Contracts) (ready : Session σ) :
    Rehearses layout c.files ready (deliver (observed storage) layout c true ready) := by
  have listing : deliver (observed storage) layout c true ready =
      listFiles (observed storage) layout c.files ready.announce := rfl
  obtain ⟨lines, ends⟩ := @listEnds σ storage layout c.files ready.announce
  rw [listing]
  refine ⟨by rw [ends]; rfl, by rw [ends]; rfl, fun paths each => listPaths each _, ?_, by rw [ends]⟩
  rw [ends]
  exact verdictFails

def Completes (delivered : Except Failure (List String) × Session σ)
    (outcome : Except Trouble Unit × Session σ) : Prop :=
  match delivered with
  | (.error e, w) => outcome = (.error ⟨"Failed to write generated files", e⟩, w)
  | (.ok paths, w) => outcome =
      (.ok (), w.print (["\n✓ Generation complete!", "\nGenerated files:"] ++
        paths.map (fun path => "  📄 " ++ path)))

theorem saidEach (storage : Storage (StateM σ)) (paths : List String) (w : Session σ) :
    paths.forM (fun path => (observed storage).say (fileLine path)) w = ((), w.print (paths.map fileLine)) := by
  induction paths generalizing w with
  | nil => rw [List.map_nil, Session.print, List.append_nil]; rfl
  | cons path paths ih =>
    have here : (path :: paths).forM (fun path => (observed storage).say (fileLine path)) w =
      paths.forM (fun path => (observed storage).say (fileLine path)) (w.print [fileLine path]) := rfl
    rw [here, ih]
    simp [Session.print]

theorem completed (storage : Storage (StateM σ)) (layout : Layout) (c : Contracts) (ready : Session σ) :
    Completes (c.write layout (observed storage).storage.store ready)
      (deliver (observed storage) layout c false ready) := by
  simp only [deliver, Bool.false_eq_true, if_false, runNext]
  rcases c.write layout (observed storage).storage.store ready with ⟨e | paths, w⟩
  · rfl
  · simp only [runNext, Completes, saidEach]
    simp only [observed, Session.print, List.append_assoc]
    rfl

def Foretells (storage : Storage (StateM σ)) (r : Request) (o : Overrides) (start : Session σ) : Prop :=
  let rehearsal := generate (observed storage) r { o with dryRun := true } start
  let delivery := generate (observed storage) r { o with dryRun := false } start
  rehearsal.2.changes = start.changes ∧
  match prepare (observed storage) r o start with
  | (.error t, w) => rehearsal = (.error t, w) ∧ delivery = (.error t, w)
  | (.ok (layout, c), ready) =>
    Rehearses layout c.files ready rehearsal ∧
    Completes (c.write layout (observed storage).storage.store ready) delivery ∧
    ∀ paths w, c.write layout (observed storage).storage.store ready = (.ok paths, w) →
      c.files.map (fun f => layout.path? f.1) = paths.map some

theorem foretold (storage : Storage (StateM σ)) (r : Request) (o : Overrides) (start : Session σ) :
    Foretells storage r o start := by
  have run (dryRun : Bool) : generate (observed storage) r { o with dryRun := dryRun } start =
      match prepare (observed storage) r o start with
      | (.error t, w) => (.error t, w)
      | (.ok (layout, c), w) => deliver (observed storage) layout c dryRun w := by
    rw [generatePrepared, runNext]
    rcases prepare (observed storage) r o start with ⟨t | ⟨layout, c⟩, w⟩ <;> rfl
  have quiet := quietPrepare storage r o start
  unfold Foretells
  rw [run true, run false]
  generalize prepare (observed storage) r o start = prepared at quiet ⊢
  obtain ⟨t | ⟨layout, c⟩, w⟩ := prepared
  · exact ⟨quiet, rfl, rfl⟩
  · have rehearses := rehearsed storage layout c w
    refine ⟨rehearses.changes.trans quiet, rehearses, completed storage layout c w, fun paths w' written => ?_⟩
    obtain ⟨calls, result, s, same, -, delivers⟩ :=
      Layout.filesDelivered layout (Contracts.sinkOf (observed storage).storage.store) c.files w []
    cases same.symm.trans written
    exact Layout.deliversPaths delivers

end Command

theorem deliveredInOrder {σ τ : Type} (c : Contracts) (layout : Layout) (sink : Sink σ) (s : σ)
    (storage : Storage (StateM τ)) (r : Command.Request) (o : Command.Overrides) (start : Command.Session τ) :
    (c.files.map Prod.fst).Pairwise (fun a b => a.lt b = true) ∧
    (∀ f ∈ c.files, f.2 = c.run.render c.job f.1) ∧
    (∃ calls result s', c.writeTo layout sink s = (result, s') ∧
      c.writeTo layout sink.observed (s, []) = (result, s', calls) ∧ layout.Delivers c.files calls result) ∧
    Command.Foretells storage r o start := by
  refine ⟨?_, ?_, ?_, Command.foretold storage r o start⟩
  · have keys : c.files.map Prod.fst = c.run.fileKeys := by
      rw [Contracts.files, Run.files, List.map_map]
      exact List.map_id _
    rw [keys]
    exact c.run.keysRise
  · intro f mem
    obtain ⟨key, -, rfl⟩ := List.mem_map.mp mem
    rfl
  · obtain ⟨calls, result, s', same, seen, delivers⟩ := layout.filesDelivered sink c.files s []
    exact ⟨calls, result, s', same, seen, delivers⟩

end ShapeContracts
