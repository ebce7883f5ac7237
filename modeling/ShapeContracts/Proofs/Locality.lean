import Mathlib.Logic.Relation
import ShapeContracts.Proofs.Correspondence
import ShapeContracts.Proofs.Termination

/-! A schema depends on nothing but what its shape reaches. Two runs whose models agree on the shapes
that a shape reaches stand side by side there, with equal schemas and equal files. -/
namespace ShapeContracts

namespace Model

def Uses (m : Model) (id target : String) : Prop :=
  ∃ shape, m.shape? id = some shape ∧ shape.isAggregate = true ∧ target ∈ shape.targets

def Reaches (m : Model) : String → String → Prop := Relation.ReflTransGen m.Uses

end Model

namespace Contracts

variable {m n : Model} {settings : Settings} {c d : Contracts}

theorem scopesAgree (done : ofModel ⟨m, settings⟩ = .ok c) (done' : ofModel ⟨n, settings⟩ = .ok d)
    {id : String} (agree : ∀ i, m.Reaches id i → n.shape? i = m.shape? i) :
    c.scope.Alike .same (m.Reaches id) d.scope := by
  obtain ⟨same, discovered, spaced, -⟩ := finishedTrace done
  obtain ⟨same', discovered', spaced', -⟩ := finishedTrace done'
  have model : c.scope.model = m := congrArg Job.model same
  have model' : d.scope.model = n := congrArg Job.model same'
  refine ⟨discovered, discovered', ?_, ?_, ?_, ?_⟩
  · intro i here
    rw [model, model', agree i here]
  · intro i shape target here found aggregate refers
    exact here.tail ⟨shape, model ▸ found, aggregate, refers⟩
  · intro i key key' here routed routed'
    rw [Scope.outputFileKey, outputFileKey, spaced, model] at routed
    rw [Scope.outputFileKey, outputFileKey, spaced', model', agree i here] at routed'
    exact Except.ok.inj (routed.symm.trans routed')
  · intro i kind traits parts _ _ _
    have settings : c.scope.settings = d.scope.settings :=
      (congrArg Job.settings same).trans (congrArg Job.settings same').symm
    unfold Scope.scalarSchema
    rw [settings]

theorem schemaLocal (done : ofModel ⟨m, settings⟩ = .ok c) (done' : ofModel ⟨n, settings⟩ = .ok d)
    {id : String} {kind : ShapeKind} (kinded : m.schemaKind? id = some kind)
    (agree : ∀ i, m.Reaches id i → n.shape? i = m.shape? i) :
    ∃ s, c.schema? id = some s ∧ d.schema? id = some s := by
  obtain ⟨s, shape, there, found, -, declares⟩ := finishedKind done kinded
  have model : c.scope.model = m := congrArg Job.model (finishedTrace done).1
  obtain ⟨s', declares', rfl⟩ := Scope.declaresAlike (scopesAgree done done' agree) .refl
    (model.symm ▸ found) declares
  exact ⟨s, there, (finishedSchema done').mpr ⟨shape, (agree id .refl).trans found, declares'⟩⟩

theorem reachDetermines (done : ofModel ⟨m, settings⟩ = .ok c)
    (done' : ofModel ⟨n, settings⟩ = .ok d) :
    (∀ id kind, m.schemaKind? id = some kind → (∀ i, m.Reaches id i → n.shape? i = m.shape? i) →
      ∃ s, c.schema? id = some s ∧ d.schema? id = some s) ∧
    (m.shapes.Perm n.shapes → c.schemas = d.schemas) := by
  refine ⟨fun id kind kinded agree => schemaLocal done done' kinded agree, fun perm => ?_⟩
  have agree : ∀ i, n.shape? i = m.shape? i := Entries.lookupPerm perm m.distinct
  refine Entries.sortedSame (finishedDistinct done) (finishedDistinct done') (fun id => ?_)
  rw [← schemaRecorded done, ← schemaRecorded done']
  cases kinded : m.schemaKind? id with
  | none =>
    rw [schemaless done kinded, schemaless done' ((schemaKindSame (agree id)).trans kinded)]
  | some kind =>
    obtain ⟨s, there, there'⟩ := schemaLocal done done' kinded (fun i _ => agree i)
    rw [there, there']

def nestedBehind : Model where
  version := "2.0"
  shapes := ("other#Label", .scalar .string .empty) :: nested.shapes.reverse
  metadata := []
  distinct := by decide
  membersDistinct := by simp [nested, Shape.memberNames]

theorem nestedReaches {i : String} (reaches : nested.Reaches "example#Node" i) :
    i = "example#Node" ∨ i = "other#Nodes" := by
  induction reaches with
  | refl => exact .inl rfl
  | tail _ uses ih =>
    obtain ⟨shape, found, -, refers⟩ := uses
    rcases ih with rfl | rfl
    · obtain rfl := Option.some.inj found
      exact .inr (List.mem_singleton.mp refers)
    · obtain rfl := Option.some.inj found
      exact .inl (List.mem_singleton.mp refers)

theorem nestedLocal : ∃ c d s, ofModel ⟨nested, .standard⟩ = .ok c ∧
    ofModel ⟨nestedBehind, .standard⟩ = .ok d ∧ c.schema? "example#Node" = some s ∧
      d.schema? "example#Node" = some s := by
  obtain ⟨c, done⟩ : ∃ c, ofModel ⟨nested, .standard⟩ = .ok c :=
    completes (fun b => by cases b <;> rfl) (by decide)
  obtain ⟨d, done'⟩ : ∃ d, ofModel ⟨nestedBehind, .standard⟩ = .ok d :=
    completes (fun b => by cases b <;> rfl) (by decide)
  obtain ⟨s, there, there'⟩ := (reachDetermines done done').1 "example#Node" .struct rfl (by
    intro i reaches
    rcases nestedReaches reaches with rfl | rfl <;> rfl)
  exact ⟨c, d, s, done, done', there, there'⟩

end Contracts
end ShapeContracts
