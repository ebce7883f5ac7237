import Mathlib.Data.List.Perm.Basic
import ShapeContracts.Proofs.Correspondence
import ShapeContracts.Proofs.DeclaredNames

/-! The passes commute once the shapes are registered, but for the services, which show the signatures
of the operations. What a shape contributes depends on the symbols alone, and on the signatures for
a service; and every file but those of the errors is written by one pass. -/
namespace ShapeContracts

theorem Pass.orderFilter {order order' : List Pass} (once : order.Perm Pass.all)
    (once' : order'.Perm Pass.all) {keep : Pass → Bool} (few : (Pass.all.filter keep).length ≤ 1) :
    order.filter keep = order'.filter keep := by
  have perm := once.filter keep
  have perm' := once'.filter keep
  cases parts : Pass.all.filter keep with
  | nil =>
    rw [parts] at perm perm'
    rw [List.perm_nil.mp perm, List.perm_nil.mp perm']
  | cons p rest =>
    cases rest with
    | nil =>
      rw [parts] at perm perm'
      rw [List.perm_singleton.mp perm, List.perm_singleton.mp perm']
    | cons q rest => simp [parts] at few

def Pass.signs (p : Pass) : Bool := p == .kind .operation

namespace Run

variable {job : Job} {r r' q q' : Run} {order order' : List Pass}

theorem workFilter {m : Model} {keep : Pass → Bool} :
    (work m order).filter (fun x => keep x.1) = work m (order.filter keep) := by
  induction order with
  | nil => rfl
  | cons p rest ih =>
    have split : work m (p :: rest) = (p.entries m).map (fun e => (p, e)) ++ work m rest := rfl
    rw [split, List.filter_append, ih, List.filter_map]
    by_cases kept : keep p = true
    · rw [List.filter_cons_of_pos kept]
      simp [work, Function.comp_def, kept]
    · rw [List.filter_cons_of_neg kept]
      simp [Function.comp_def, kept]

theorem discoverStarts {n : Nat} (found : (start job).discover job = (.ok n, r)) :
    r = { start job with symbols := r.symbols } ∧
      r.symbols.primarySpace = job.settings.primarySpace ∧ (r.scope job).Discovered := by
  unfold discover at found
  cases stepped : (start job).symbols.discover job.model with
  | mk result table =>
    rw [stepped] at found
    cases found
    obtain ⟨spaced, discovered⟩ := discoverOk job.settings stepped
    exact ⟨rfl, spaced, discovered⟩

theorem traceUnique {w : List (Pass × String × Shape)} (h : Trace job r w r') (k : Trace job r w q') :
    r' = q' := by
  induction h with
  | done r =>
    cases k
    rfl
  | step made tail ih =>
    cases k with
    | step made' tail' =>
      cases Except.ok.inj (made.symm.trans made')
      exact ih tail'

theorem contributionEq (symbols : r.symbols = q.symbols) (signatures : r.signatures = q.signatures) :
    r.contribution job = q.contribution job := by
  cases r
  cases q
  cases symbols
  cases signatures
  rfl

/-! Signatures come from the operations alone. -/

theorem traceSigning {w : List (Pass × String × Shape)} (h : Trace job r w r')
    (listed : ∀ x ∈ w, x ∈ work job.model Pass.all) (symbols : q.symbols = r.symbols)
    (signatures : q.signatures = r.signatures) :
    ∃ q', Trace job q (w.filter (fun x => x.1.signs)) q' ∧ q'.signatures = r'.signatures := by
  induction h generalizing q with
  | done r => exact ⟨q, .done q, signatures⟩
  | @step r r' p id shape e rest made tail ih =>
    have here := listed _ List.mem_cons_self
    have later : ∀ x ∈ rest, x ∈ work job.model Pass.all :=
      fun x mem => listed x (List.mem_cons_of_mem _ mem)
    cases signs : p.signs with
    | true =>
      simp only [List.filter_cons, signs, if_true]
      have replayed := contributionSame here symbols (fun _ => signatures)
      obtain ⟨q', tail', same⟩ := ih (q := q.add id e) later (by rw [addSymbols, addSymbols, symbols])
        (by rw [addSignatures, addSignatures, signatures])
      exact ⟨q', .step (replayed.trans made) tail', same⟩
    | false =>
      simp only [List.filter_cons, signs, Bool.false_eq_true, if_false]
      have silent : e.signature = none :=
        unsigned here (fun same => absurd (beq_iff_eq.mpr same) (Bool.eq_false_iff.mp signs)) made
      exact ih later (by rw [addSymbols, symbols]) (by rw [addSignatures, silent, Option.elim_none, signatures])

theorem orderedSignatures (ordered : Pass.IsOrder order) (ordered' : Pass.IsOrder order')
    (h : Trace job r (work job.model order) r') (k : Trace job r (work job.model order') q') :
    r'.signatures = q'.signatures := by
  obtain ⟨end₁, first, same⟩ :=
    traceSigning h (fun x => (workPerm ordered.once).mem_iff.mp) rfl rfl
  obtain ⟨end₂, second, same'⟩ :=
    traceSigning k (fun x => (workPerm ordered'.once).mem_iff.mp) rfl rfl
  rw [workFilter] at first second
  rw [Pass.orderFilter ordered'.once ordered.once (by decide)] at second
  rw [← same, ← same', traceUnique first second]

/-! A shape contributes in every order or in none. -/

theorem orderSucceeds {table : SymbolTable} (ready : r.Ready table)
    (discovered : (r.scope job).Discovered) (once : order.Perm Pass.all)
    (once' : order'.Perm Pass.all) (h : Trace job r (work job.model order) r') :
    ∃ q', Trace job r (work job.model order') q' := by
  refine traceAlike ready ready (Scope.alikeSelf discovered) (fun x mem => ?_) h
  have entry := (workPerm once').mem_iff.mp mem
  exact ⟨(workPerm once).mem_iff.mpr entry, entry⟩

/-! What is recorded and written. -/

theorem orderedSchemas (ordered : Pass.IsOrder order) (ordered' : Pass.IsOrder order')
    (h : Trace job r (work job.model order) r') (k : Trace job r (work job.model order') q')
    (fresh : r.recorded = []) : r'.schemas = q'.schemas := by
  have start : (r.recorded.map Prod.fst).Nodup := by
    rw [fresh]
    exact .nil
  have declared : ∀ {order : List Pass} {r' : Run}, order.Perm Pass.all →
      Trace job r (work job.model order) r' → ∀ id s, r'.recorded.lookup id = some s ↔
        ∃ shape, job.model.shape? id = some shape ∧ (r.scope job).Declares id shape s := by
    intro order r' once trace id s
    refine ⟨recordedDeclares once trace fresh, fun ⟨shape, found, declares⟩ => ?_⟩
    obtain ⟨kind, shaped, bears⟩ := Scope.declaresKind declares
    obtain ⟨s', there⟩ := recordedAll once trace (schemaKindSome.mpr ⟨shape, found, shaped, bears⟩)
    obtain ⟨shape', found', declares'⟩ := recordedDeclares once trace fresh there
    obtain rfl := Option.some.inj (found.symm.trans found')
    rw [there, Scope.declaresUnique declares declares']
  refine Entries.sortedSame (traceDistinct h start) (traceDistinct k start) (fun id => ?_)
  ext s
  rw [declared ordered.once h, declared ordered'.once k]

theorem writesPass {key : FileKey} {x : Pass × String × Shape} (mem : x ∈ work job.model Pass.all)
    (writes : job.writes key x = true) : x.1 ∈ key.sub.passes :=
  (Contracts.contentsExact.mp ⟨x.2.2, List.mem_filter.mpr ⟨mem, writes⟩⟩).2

theorem writesNarrowed (key : FileKey) (once : order.Perm Pass.all) :
    (work job.model order).filter (job.writes key) =
      (work job.model (order.filter (· ∈ key.sub.passes))).filter (job.writes key) := by
  rw [← workFilter, List.filter_filter]
  refine List.filter_congr (fun x mem => ?_)
  cases writes : job.writes key x with
  | false => rfl
  | true =>
    have here := writesPass ((workPerm once).mem_iff.mp mem) writes
    simp [here]

theorem writesOnce {key : FileKey} (plain : key.sub ≠ .errors) (once : order.Perm Pass.all)
    (once' : order'.Perm Pass.all) :
    (work job.model order).filter (job.writes key) = (work job.model order').filter (job.writes key) := by
  have few : (Pass.all.filter (· ∈ key.sub.passes)).length ≤ 1 := by
    cases sub : key.sub with
    | errors => contradiction
    | _ => decide
  rw [writesNarrowed key once, writesNarrowed key once', Pass.orderFilter once once' few]

/-- Two runs with the same output, but for the order of the classes in the files of the errors. -/
structure Agrees (job : Job) (r q : Run) : Prop where
  schemas : r.schemas = q.schemas
  signatures : r.signatures = q.signatures
  files : ∀ key, key ∈ r.fileKeys ↔ key ∈ q.fileKeys
  code : ∀ key, key.sub ≠ .errors → r.codeOf key = q.codeOf key
  text : ∀ key, key.sub ≠ .errors → r.render job key = q.render job key
  errors : ∀ key, key.sub = .errors → (r.codeOf key).Perm (q.codeOf key)

theorem ordersAgree (ordered : Pass.IsOrder order) (ordered' : Pass.IsOrder order')
    (h : Trace job r (work job.model order) r') (k : Trace job r (work job.model order') q')
    (fresh : r = { start job with symbols := r.symbols }) (discovered : (r.scope job).Discovered)
    (spaced : r.symbols.primarySpace = job.settings.primarySpace) : Agrees job r' q' := by
  have symbols : r'.symbols = q'.symbols := (traceSymbols h).trans (traceSymbols k).symm
  have signatures := orderedSignatures ordered ordered' h k
  have written : ∀ key, List.Forall₂ (r'.Writes job key)
      ((work job.model order).filter (job.writes key)) (r'.codeOf key) := by
    intro key
    obtain ⟨fs, code, each⟩ := orderedCode ordered h discovered spaced key
    rw [fresh] at code
    rw [code]
    exact each
  have written' : ∀ key, List.Forall₂ (r'.Writes job key)
      ((work job.model order').filter (job.writes key)) (q'.codeOf key) := by
    intro key
    obtain ⟨fs, code, each⟩ := orderedCode ordered' k discovered spaced key
    rw [fresh] at code
    rw [code]
    have view : q'.Writes job key = r'.Writes job key := by
      unfold Writes
      rw [contributionEq symbols signatures]
    exact view ▸ each
  have functional : ∀ key, Relator.RightUnique (r'.Writes job key) := by
    rintro key x f g ⟨e, made, code⟩ ⟨e', made', code'⟩
    cases Except.ok.inj (made.symm.trans made')
    cases code.symm.trans code'
    rfl
  have same : ∀ key, key.sub ≠ .errors → r'.codeOf key = q'.codeOf key := by
    intro key plain
    have there := written' key
    rw [writesOnce plain ordered'.once ordered.once] at there
    exact List.right_unique_forall₂' (functional key) (written key) there
  have permuted : ∀ key, (r'.codeOf key).Perm (q'.codeOf key) := by
    intro key
    refine List.rel_perm_imp (functional key) (written key) (written' key) (List.Perm.filter _ ?_)
    exact (workPerm ordered.once).trans (workPerm ordered'.once).symm
  refine ⟨orderedSchemas ordered ordered' h k (by rw [fresh]; rfl), signatures, ?_, same, ?_,
    fun key _ => permuted key⟩
  · intro key
    have listed : ∀ r : Run, key ∈ r.fileKeys ↔ r.codeOf key ≠ [] :=
      fun r => @Contracts.writtenKeys ⟨job, r⟩ key
    rw [listed, listed, ne_eq, ne_eq, ← List.length_eq_zero_iff, ← List.length_eq_zero_iff,
      (permuted key).length_eq]
  · intro key plain
    rw [render, render, symbols, same key plain]

end Run

namespace Contracts

variable {job : Job}

theorem passesCommute {n : Nat} {r : Run} (found : (Run.start job).discover job = (.ok n, r)) :
    ((∀ order, Pass.IsOrder order → ∃ e r', r.passes job order = (.error e, r')) ∨
      ∀ order, Pass.IsOrder order → ∃ r', r.passes job order = (.ok (), r')) ∧
    ∀ order order' r' q', Pass.IsOrder order → Pass.IsOrder order' →
      r.passes job order = (.ok (), r') → r.passes job order' = (.ok (), q') → r'.Agrees job q' := by
  obtain ⟨fresh, spaced, discovered⟩ := Run.discoverStarts found
  have ready : r.Ready r.symbols := fresh ▸ Run.startReady job r.symbols
  refine ⟨?_, fun order order' r' q' ordered ordered' ran ran' => Run.ordersAgree ordered ordered'
    (Run.passesExact.mp ran) (Run.passesExact.mp ran') fresh discovered spaced⟩
  by_cases some : ∃ order r', Pass.IsOrder order ∧ r.passes job order = (.ok (), r')
  · obtain ⟨order, r', ordered, ran⟩ := some
    refine .inr (fun order' ordered' => ?_)
    obtain ⟨q', trace⟩ := Run.orderSucceeds ready discovered ordered.once ordered'.once (Run.passesExact.mp ran)
    exact ⟨q', Run.passesExact.mpr trace⟩
  · refine .inl (fun order ordered => ?_)
    cases ran : r.passes job order with
    | mk result r' =>
      cases result with
      | error e => exact ⟨e, r', rfl⟩
      | ok u => exact absurd ⟨order, r', ordered, ran⟩ some

def depot : Model where
  version := "2.0"
  shapes := [
    ("example#Depot", .service "1" ["example#Send"] [] .empty),
    ("example#Send", .operation (some "example#Parcel") none ["example#Lost"] .empty),
    ("example#Parcel", .struct [("contents", ⟨"example#Parcels", .empty⟩)] .empty),
    ("example#Parcels", .list ⟨"example#Parcel", .empty⟩ .empty),
    ("example#Lost", .struct [] { Traits.empty with error := some .client })]
  metadata := []
  distinct := by decide
  membersDistinct := by simp [Shape.memberNames]

def signaturesFirst : List Pass :=
  [.kind .operation, .kind .service] ++ Pass.all.dropLast.dropLast

theorem depotCommutes : ∃ n r r' q', (Run.start ⟨depot, .standard⟩).discover ⟨depot, .standard⟩ = (.ok n, r) ∧
    r.passes ⟨depot, .standard⟩ Pass.all = (.ok (), r') ∧
    r.passes ⟨depot, .standard⟩ signaturesFirst = (.ok (), q') ∧ r'.Agrees ⟨depot, .standard⟩ q' := by
  have first : Pass.IsOrder signaturesFirst :=
    ⟨by decide, [.kind .operation], Pass.all.dropLast.dropLast, rfl, List.mem_cons_self⟩
  obtain ⟨c, done⟩ : ∃ c, ofModel ⟨depot, .standard⟩ = .ok c :=
    completes (fun b => by cases b <;> rfl) (by decide)
  obtain ⟨-, generated⟩ := ofModelOk.mp done
  unfold Run.generate at generated
  split at generated
  · cases generated
  · rename_i n r found
    obtain ⟨fails | succeeds, agree⟩ := passesCommute found
    · obtain ⟨e, r', failed⟩ := fails _ Pass.allOrder
      cases generated.symm.trans failed
    · obtain ⟨q', ran⟩ := succeeds _ first
      exact ⟨n, r, c.run, q', found, generated, ran, agree _ _ _ _ Pass.allOrder first generated ran⟩

end Contracts
end ShapeContracts
