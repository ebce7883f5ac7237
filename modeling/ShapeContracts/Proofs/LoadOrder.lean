import ShapeContracts.Proofs.FatalExact
import ShapeContracts.Sorted

/-! The order in which declarations can be loaded. A schema reads a declaration at once exactly when a
member leads to it and it stands in another file; a load order exists exactly when no chain of such
uses closes. -/
namespace ShapeContracts

namespace Model

/-- A way from a target to a declaration, with the shapes that are expanded on it. -/
inductive Way (m : Model) : List String → String → String → Prop where
  | declared {id kind} (foreign : Builtin.ofId? id = none) (kinded : m.schemaKind? id = some kind)
      (standalone : kind.isStandalone = true) : m.Way [] id id
  | through {id shape target visited last} (foreign : Builtin.ofId? id = none)
      (found : m.shape? id = some shape) (compound : shape.isCompound = true)
      (refers : target ∈ shape.targets) (rest : m.Way visited target last) :
      m.Way (id :: visited) id last

def Standalone (m : Model) (id : String) : Prop :=
  ∃ kind, m.schemaKind? id = some kind ∧ kind.isStandalone = true

variable {m : Model}

theorem leadsWay {target last : String} (leads : m.LeadsTo target last) :
    ∃ visited, m.Way visited target last := by
  induction leads with
  | declared foreign kinded standalone => exact ⟨_, .declared foreign kinded standalone⟩
  | through foreign found compound refers _ ih =>
    obtain ⟨visited, way⟩ := ih
    exact ⟨_, .through foreign found compound refers way⟩

theorem wayFrom {visited : List String} {target last id : String} (way : m.Way visited target last)
    (mem : id ∈ visited) : ∃ rest, m.Way rest id last ∧ rest.length ≤ visited.length ∧ rest ⊆ visited := by
  induction way with
  | declared => contradiction
  | @through id' shape target visited last foreign found compound refers rest ih =>
    rcases List.mem_cons.mp mem with rfl | mem
    · exact ⟨_, .through foreign found compound refers rest, Nat.le_refl _, List.Subset.refl _⟩
    · obtain ⟨shorter, way, short, inside⟩ := ih mem
      exact ⟨shorter, way, Nat.le_succ_of_le short, List.subset_cons_of_subset _ inside⟩

theorem compoundKind {id : String} {shape : Shape} (found : m.shape? id = some shape)
    (compound : shape.isCompound = true) :
    ∃ kind, m.schemaKind? id = some kind ∧ kind.isStandalone = false := by
  cases shape with
  | list | map | union => exact ⟨_, schemaKindSome.mpr ⟨_, found, rfl, rfl⟩, rfl⟩
  | _ => contradiction

end Model

namespace Scope

variable {scope : Scope} {source : FileKey}

theorem resolvedHolds (discovered : scope.Discovered) {visited stack : List String}
    {target last : String} {res : Resolution} (way : scope.model.Way visited target last)
    (plain : ∀ s ∈ stack, ¬ scope.model.Standalone s) (apart : ∀ s ∈ visited, s ∉ stack)
    (ok : resolveIn scope target source .deferred stack = .ok res) :
    ∃ r d, res.schema.Refers r d ∧ r.shapeId = last := by
  -- a way that comes back to its start is shortened, so that the stack never meets it
  induction size : visited.length using Nat.strongRecOn generalizing visited stack target res with
  | ind n ih =>
    subst size
    have reference := resolveOk.mp ok
    cases way with
    | declared foreign kinded standalone =>
      cases reference with
      | recursive mem => exact absurd ⟨_, kinded, standalone⟩ (plain _ mem)
      | builtin _ known => cases foreign.symm.trans known
      | missing _ _ _ absent => cases kinded.symm.trans ((registeredNone discovered).mp absent)
      | declared _ _ _ registered _ => exact ⟨_, _, refSchemaRefers.mpr ⟨rfl, decide_eq_true_iff⟩, rfl⟩
      | inlined _ _ _ registered inline =>
        cases kinded.symm.trans (registeredKind discovered registered).1
        cases standalone.symm.trans inline
    | @through _ shape next visited _ foreign found compound refers rest =>
      by_cases again : target ∈ visited
      · obtain ⟨shorter, way, short, inside⟩ := Model.wayFrom rest again
        exact ih _ (Nat.lt_succ_of_le short) way plain
          (fun s mem => apart s (List.mem_cons_of_mem _ (inside mem))) ok rfl
      obtain ⟨kind, kinded, inline⟩ := Model.compoundKind found compound
      cases reference with
      | recursive mem => exact absurd mem (apart _ List.mem_cons_self)
      | builtin _ known => cases foreign.symm.trans known
      | missing _ _ _ absent => cases kinded.symm.trans ((registeredNone discovered).mp absent)
      | declared _ _ _ registered standalone =>
        cases kinded.symm.trans (registeredKind discovered registered).1
        cases standalone.symm.trans inline
      | inlined _ _ _ registered _ body =>
        obtain ⟨res', resolved, holds⟩ := expansionHolds found compound (expandOk.mp body) _ refers
        have plain' : ∀ s ∈ stack ++ [target], ¬ scope.model.Standalone s := by
          intro s mem
          rcases List.mem_append.mp mem with mem | mem
          · exact plain s mem
          · rw [List.mem_singleton.mp mem]
            rintro ⟨kind', kinded', standalone⟩
            cases kinded.symm.trans kinded'
            cases standalone.symm.trans inline
        have apart' : ∀ s ∈ visited, s ∉ stack ++ [target] := by
          intro s mem there
          rcases List.mem_append.mp there with there | there
          · exact apart s (List.mem_cons_of_mem _ mem) there
          · exact again (List.mem_singleton.mp there ▸ mem)
        obtain ⟨r, d, inside, same⟩ := ih _ (Nat.lt_succ_self _) rest plain' apart' resolved rfl
        exact ⟨r, d, holds r d inside, same⟩

end Scope

def Job.fileOf (job : Job) (id : String) : Except Failure FileKey :=
  outputFileKey job.settings.primarySpace job.model id

def Job.UsesAcross (job : Job) (user used : String) : Prop :=
  (∃ members traits, job.model.shape? user = some (.struct members traits) ∧
    ∃ m ∈ members, job.model.LeadsTo m.2.target used) ∧ job.fileOf user ≠ job.fileOf used

namespace Contracts

variable {job : Job} {c : Contracts}

def Reads (c : Contracts) (reader read : String) : Prop :=
  c.job.model.Standalone reader ∧
    ∃ s r, c.schema? reader = some s ∧ s.Refers r false ∧ r.shapeId = read

def LoadOrder (c : Contracts) (order : List String) : Prop :=
  order.Nodup ∧ (∀ id, id ∈ order ↔ c.job.model.Standalone id) ∧
    ∀ before reader after, order = before ++ reader :: after →
      ∀ read, c.Reads reader read → read ∈ before

theorem writtenFile (done : ofModel job = .ok c) {id : String} {symbol : Symbol}
    (registered : c.scope.symbols.lookup? id = some symbol) : job.fileOf id = .ok symbol.fileKey := by
  obtain ⟨same, discovered, spaced, -⟩ := finishedTrace done
  have routed := (Scope.registeredKind discovered registered).2.1
  have model : c.scope.model = job.model := congrArg Job.model same
  rwa [spaced, model] at routed

theorem bearingRouted (done : ofModel job = .ok c) {id : String} {kind : ShapeKind}
    (kinded : job.model.schemaKind? id = some kind) : ∃ file, job.fileOf id = .ok file := by
  obtain ⟨rfl, discovered, -, -⟩ := finishedTrace done
  obtain ⟨symbol, registered, -⟩ := Scope.registeredSome discovered kinded
  exact ⟨_, writtenFile done registered⟩

variable {id : String} {members : List (String × Member)} {traits : Traits} {s : Schema}

theorem structPoints (done : ofModel job = .ok c)
    (found : job.model.shape? id = some (.struct members traits)) {key : FileKey}
    (routed : job.fileOf id = .ok key) (recorded : c.schema? id = some s) {r : SchemaRef} {d : Bool}
    (inside : s.Refers r d) :
    c.scope.Points key r d ∧ ∃ m ∈ members, job.model.LeadsTo m.2.target r.shapeId := by
  obtain ⟨same, discovered, -, -⟩ := finishedTrace done
  have model : c.scope.model = job.model := congrArg Job.model same
  obtain ⟨symbol, fields, registered, rfl, each⟩ := structFields done found recorded
  obtain ⟨m, hm, res, resolved, inside⟩ := (Structure.fieldsRefers discovered each).mp inside
  obtain ⟨points, leads⟩ := Scope.resolvedRefers discovered resolved inside
  rw [Except.ok.inj (routed.symm.trans (writtenFile done registered))]
  exact ⟨points, m, hm, model ▸ leads⟩

theorem structHolds (done : ofModel job = .ok c)
    (found : job.model.shape? id = some (.struct members traits)) (recorded : c.schema? id = some s)
    {m : String × Member} (mem : m ∈ members) {last : String}
    (leads : job.model.LeadsTo m.2.target last) : ∃ r d, s.Refers r d ∧ r.shapeId = last := by
  obtain ⟨same, discovered, -, -⟩ := finishedTrace done
  have model : c.scope.model = job.model := congrArg Job.model same
  obtain ⟨symbol, fields, registered, rfl, each⟩ := structFields done found recorded
  obtain ⟨f, made⟩ := Structure.fieldsOk.mp ⟨_, each⟩ m mem
  obtain ⟨res, resolved, -⟩ := Structure.fieldOk.mp ⟨f, made⟩
  obtain ⟨visited, way⟩ := Model.leadsWay leads
  rw [← model] at way
  obtain ⟨r, d, inside, ends⟩ := Scope.resolvedHolds discovered way (by simp) (by simp) resolved
  exact ⟨r, d, (Structure.fieldsRefers discovered each).mpr ⟨m, mem, res, resolved, inside⟩, ends⟩

theorem structReads (done : ofModel job = .ok c)
    (found : job.model.shape? id = some (.struct members traits)) {read : String} : c.Reads id read ↔
      (∃ m ∈ members, job.model.LeadsTo m.2.target read) ∧ job.fileOf id ≠ job.fileOf read := by
  have kinded : job.model.schemaKind? id = some .struct := schemaKindSome.mpr ⟨_, found, rfl, rfl⟩
  obtain ⟨key, routed⟩ := bearingRouted done kinded
  constructor
  · rintro ⟨-, s, r, recorded, inside, rfl⟩
    obtain ⟨⟨symbol, registered, -, -, deferred⟩, led⟩ := structPoints done found routed recorded inside
    refine ⟨led, fun together => ?_⟩
    rw [routed, writtenFile done registered] at together
    cases deferred.mpr (Except.ok.inj together).symm
  · rintro ⟨⟨m, mem, leads⟩, across⟩
    obtain ⟨s, recorded⟩ := finishedAll done kinded
    obtain ⟨r, d, inside, rfl⟩ := structHolds done found recorded mem leads
    obtain ⟨⟨symbol, registered, -, -, deferred⟩, -⟩ := structPoints done found routed recorded inside
    cases d with
    | true =>
      rw [routed, writtenFile done registered, deferred.mp rfl] at across
      contradiction
    | false => exact ⟨⟨_, (finishedTrace done).1 ▸ kinded, rfl⟩, s, r, recorded, inside, rfl⟩

theorem readsAcross (done : ofModel job = .ok c) {reader read : String} :
    c.Reads reader read ↔ job.UsesAcross reader read := by
  constructor
  · intro reads
    have ⟨⟨kind, kinded, standalone⟩, s, r, there, inside, _⟩ := reads
    rw [(finishedTrace done).1] at kinded
    obtain ⟨s', shape, there', found, shaped, declares⟩ := finishedKind done kinded
    obtain rfl := Option.some.inj (there.symm.trans there')
    cases declares with
    | enum => cases inside
    | struct named registered each =>
      obtain ⟨led, across⟩ := (structReads done found).mp reads
      exact ⟨⟨_, _, found, led⟩, across⟩
    | expanded inlined => cases inlined.symm.trans (Shape.standaloneWhole shaped standalone)
  · rintro ⟨⟨members, traits, found, led⟩, across⟩
    exact (structReads done found).mpr ⟨led, across⟩

end Contracts

/-! Finite relations without cycles can be ordered. -/
namespace Acyclic

open Relation (TransGen)

variable {reads : String → String → Prop}

open Classical in
noncomputable def rank (reads : String → String → Prop) (nodes : List String) (a : String) : Nat :=
  (nodes.filter (fun b => TransGen reads a b)).length

theorem rankLess (acyclic : ∀ a, ¬ TransGen reads a a) {nodes : List String} {a b : String}
    (mem : b ∈ nodes) (step : reads a b) : rank reads nodes b < rank reads nodes a := by
  classical
  have nested : nodes.filter (fun c => TransGen reads b c) =
      (nodes.filter (fun c => TransGen reads a c)).filter (fun c => TransGen reads b c) := by
    rw [List.filter_filter]
    refine List.filter_congr (fun c _ => ?_)
    have onward : TransGen reads b c → TransGen reads a c := (TransGen.single step).trans
    simpa using fun h => onward h
  have fewer : ((nodes.filter (fun c => TransGen reads a c)).filter
      (fun c => TransGen reads b c)).length < (nodes.filter (fun c => TransGen reads a c)).length :=
    List.length_filter_lt_length_iff_exists.mpr ⟨b, by simp [mem, TransGen.single step], by
      simpa using acyclic b⟩
  rw [← nested] at fewer
  exact fewer

theorem ordered (acyclic : ∀ a, ¬ TransGen reads a a) (nodes : List String) :
    ∃ order : List String, order.Perm nodes ∧ ∀ before a after, order = before ++ a :: after →
      ∀ b ∈ nodes, reads a b → b ∈ before := by
  let le (a b : String) : Bool := decide (rank reads nodes a ≤ rank reads nodes b)
  have trans : ∀ a b c, le a b → le b c → le a c := by
    intro a b c below above
    exact decide_eq_true (Nat.le_trans (of_decide_eq_true below) (of_decide_eq_true above))
  have total : ∀ a b, le a b || le b a := by
    intro a b
    simpa [le] using Nat.le_total _ _
  have perm : (sortedBy le nodes).Perm nodes := sortedByPerm le nodes
  refine ⟨sortedBy le nodes, perm, fun before a after split b mem step => ?_⟩
  have less : rank reads nodes b < rank reads nodes a := rankLess acyclic mem step
  have placed : b ∈ before ++ a :: after := split ▸ perm.mem_iff.mpr mem
  have rising := sortedByPairwise trans total nodes
  rw [split, List.pairwise_append, List.pairwise_cons] at rising
  rcases List.mem_append.mp placed with there | there
  · exact there
  · rcases List.mem_cons.mp there with rfl | there
    · exact absurd less (Nat.lt_irrefl _)
    · have below := of_decide_eq_true (rising.2.1.1 b there)
      exact absurd less (Nat.not_lt_of_le below)

theorem rise {order : List String} (distinct : order.Nodup) {nodes : String → Prop}
    (listed : ∀ a, nodes a → a ∈ order) (source : ∀ a b, reads a b → nodes a)
    (earlier : ∀ before a after, order = before ++ a :: after → ∀ b, reads a b → b ∈ before)
    {a b : String} (chain : TransGen reads a b) : order.idxOf b < order.idxOf a := by
  have step : ∀ {a b}, reads a b → order.idxOf b < order.idxOf a := by
    intro a b reading
    obtain ⟨before, after, split⟩ := List.append_of_mem (listed a (source a b reading))
    have there := earlier before a after split b reading
    rw [split] at distinct
    have fresh : a ∉ before := fun mem =>
      (List.nodup_append.mp distinct).2.2 a mem a List.mem_cons_self rfl
    rw [split, List.idxOf_append, if_pos there, List.idxOf_append, if_neg fresh, List.idxOf_cons_self]
    exact Nat.lt_add_left _ (List.idxOf_lt_length_of_mem there)
  induction chain with
  | single reading => exact step reading
  | tail _ reading ih => exact Nat.lt_trans (step reading) ih

end Acyclic

namespace Contracts

variable {job : Job} {c : Contracts}

def standaloneIds (c : Contracts) : List String :=
  (c.job.model.shapes.map Prod.fst).filter
    (fun id => ((c.job.model.schemaKind? id).filter ShapeKind.isStandalone).isSome)

theorem standaloneListed {id : String} : id ∈ c.standaloneIds ↔ c.job.model.Standalone id := by
  simp only [standaloneIds, List.mem_filter, Option.isSome_iff_exists, Option.filter_eq_some_iff]
  constructor
  · rintro ⟨-, kind, kinded, standalone⟩
    exact ⟨kind, kinded, standalone⟩
  · rintro ⟨kind, kinded, standalone⟩
    obtain ⟨shape, found, -⟩ := schemaKindSome.mp kinded
    exact ⟨List.mem_map_of_mem (Entries.memOfLookup found), kind, kinded, standalone⟩

theorem standaloneDistinct (c : Contracts) : c.standaloneIds.Nodup :=
  c.job.model.distinct.sublist List.filter_sublist

theorem leadsStandalone {m : Model} {target last : String} (leads : m.LeadsTo target last) :
    m.Standalone last := by
  induction leads with
  | declared foreign kinded standalone => exact ⟨_, kinded, standalone⟩
  | through _ _ _ _ _ ih => exact ih

theorem readStandalone (done : ofModel job = .ok c) {reader read : String}
    (reads : c.Reads reader read) : c.job.model.Standalone read := by
  obtain ⟨⟨members, traits, found, m, hm, leads⟩, -⟩ := (readsAcross done).mp reads
  rw [(finishedTrace done).1]
  exact leadsStandalone leads

theorem loadsExactly (done : ofModel job = .ok c) :
    (∀ reader read, c.Reads reader read ↔ job.UsesAcross reader read) ∧
      ((∃ order, c.LoadOrder order) ↔ ∀ id, ¬ Relation.TransGen job.UsesAcross id id) := by
  have same : c.Reads = job.UsesAcross := by
    funext reader read
    exact propext (readsAcross done)
  refine ⟨fun _ _ => readsAcross done, ?_⟩
  rw [← same]
  constructor
  · rintro ⟨order, distinct, listed, earlier⟩ id chain
    have below := Acyclic.rise distinct (fun a => (listed a).mpr) (fun _ _ reads => reads.1) earlier chain
    exact Nat.lt_irrefl _ below
  · intro acyclic
    obtain ⟨order, perm, earlier⟩ := Acyclic.ordered acyclic c.standaloneIds
    refine ⟨order, perm.nodup_iff.mpr (standaloneDistinct c), fun id => ?_, ?_⟩
    · rw [perm.mem_iff, standaloneListed]
    · intro before reader after split read reads
      exact earlier before reader after split read (standaloneListed.mpr (readStandalone done reads))
        reads

def crossed : Model where
  version := "2.0"
  shapes := [
    ("com.amazonaws.s3#Grant", .struct [("Owner", ⟨"com.amazonaws.shared#Owner", .empty⟩)] .empty),
    ("com.amazonaws.shared#Owner", .struct [("Grant", ⟨"com.amazonaws.s3#Grant", .empty⟩)] .empty)]
  metadata := []
  distinct := by decide
  membersDistinct := by simp [Shape.memberNames]

theorem crossedUses : Job.UsesAcross ⟨crossed, .standard⟩ "com.amazonaws.s3#Grant"
    "com.amazonaws.shared#Owner" ∧ Job.UsesAcross ⟨crossed, .standard⟩ "com.amazonaws.shared#Owner"
    "com.amazonaws.s3#Grant" := by
  have owner : crossed.schemaKind? "com.amazonaws.shared#Owner" = some .struct := rfl
  have grant : crossed.schemaKind? "com.amazonaws.s3#Grant" = some .struct := rfl
  have ownerFile : Job.fileOf ⟨crossed, .standard⟩ "com.amazonaws.shared#Owner" =
      .ok (.shared "com.amazonaws.shared" .structures) := rfl
  have grantFile : Job.fileOf ⟨crossed, .standard⟩ "com.amazonaws.s3#Grant" =
      .ok (.primary .structures) := rfl
  refine ⟨⟨⟨_, _, rfl, _, List.mem_cons_self, .declared rfl owner rfl⟩, ?_⟩,
    ⟨⟨_, _, rfl, _, List.mem_cons_self, .declared rfl grant rfl⟩, ?_⟩⟩
  · rw [ownerFile, grantFile]
    exact fun same => by cases same
  · rw [ownerFile, grantFile]
    exact fun same => by cases same

theorem crossedCompletes : ∃ c, ofModel ⟨crossed, .standard⟩ = .ok c :=
  completes (fun b => by cases b <;> rfl) (by decide)

theorem crossedCycle : ∃ c, ofModel ⟨crossed, .standard⟩ = .ok c ∧
    Relation.TransGen c.Reads "com.amazonaws.s3#Grant" "com.amazonaws.s3#Grant" := by
  obtain ⟨c, done⟩ := crossedCompletes
  obtain ⟨there, back⟩ := crossedUses
  exact ⟨c, done, .tail (.single ((readsAcross done).mpr there)) ((readsAcross done).mpr back)⟩

theorem crossedUnordered : ∃ c, ofModel ⟨crossed, .standard⟩ = .ok c ∧ ¬ ∃ order, c.LoadOrder order := by
  obtain ⟨c, done⟩ := crossedCompletes
  obtain ⟨there, back⟩ := crossedUses
  exact ⟨c, done, fun ordered => (loadsExactly done).2.mp ordered _ (.tail (.single there) back)⟩

end Contracts
end ShapeContracts
