import ShapeContracts.Proofs.Resolution

/-! The stack of a resolution as one value that is changed in place. The same resolution is written with
pushes and pops on a shared stack and with a limit on its nesting; it ends in what `resolveIn` and
`expand` give, within a limit that the symbol table alone determines, and leaves the stack as it was. -/
namespace ShapeContracts

structure Visit where
  stack : List String
  /-- What was pushed so far, each time with the stack that it was pushed on. -/
  pushes : List (String × List String)

/-- Work on the stack: a result or a failure, in both cases with the stack that is left; or neither, when
the work nests deeper than it may. -/
abbrev Visiting := ExceptT Failure (StateT Visit Option)

namespace Visiting

def run (x : Visiting α) (v : Visit) : Option (Except Failure α × Visit) := StateT.run (ExceptT.run x) v

def tooDeep : Visiting α := ExceptT.mk (fun _ => none)

def ofResult (r : Except Failure α) : Visiting α := ExceptT.mk (pure r)

def onStack : Visiting (List String) := ExceptT.mk (fun v => some (.ok v.stack, v))

def push (id : String) : Visiting Unit :=
  ExceptT.mk (fun v => some (.ok (), ⟨v.stack ++ [id], v.pushes ++ [(id, v.stack)]⟩))

def pop : Visiting Unit := ExceptT.mk (fun v => some (.ok (), { v with stack := v.stack.dropLast }))

def outcome (x : Visiting α) : Visiting (Except Failure α) :=
  ExceptT.mk (fun v => (x.run v).map (fun (r, v) => (.ok r, v)))

def within (id : String) (body : Visiting α) : Visiting α := do
  push id
  let r ← outcome body
  pop
  ofResult r

/-- The work ends in `r` and leaves the stack as it was, and it pushed nothing that stood on the stack. -/
def Restores (x : Visiting α) (stack : List String) (r : Except Failure α) : Prop :=
  ∀ pushes, ∃ more, x.run ⟨stack, pushes⟩ = some (r, ⟨stack, pushes ++ more⟩) ∧
    ∀ p ∈ more, p.1 ∉ p.2

theorem runBind (x : Visiting α) (f : α → Visiting β) (v : Visit) : (x >>= f).run v =
    (x.run v).bind (fun (r, w) => match r with
      | .ok a => (f a).run w
      | .error e => some (.error e, w)) := by
  change (x.run v).bind _ = _
  cases x.run v with
  | none => rfl
  | some result =>
    obtain ⟨r, w⟩ := result
    cases r <;> rfl

variable {stack : List String}

theorem restoresResult (r : Except Failure α) : Restores (ofResult r) stack r := by
  intro pushes
  exact ⟨[], by rw [List.append_nil]; rfl, by simp⟩

theorem restoresPure (a : α) : Restores (pure a) stack (pure a) := restoresResult (.ok a)

theorem restoresStack {f : List String → Visiting α} {r : Except Failure α}
    (rest : Restores (f stack) stack r) : Restores (onStack >>= f) stack r := by
  intro pushes
  obtain ⟨more, ran, fresh⟩ := rest pushes
  exact ⟨more, by rw [runBind]; exact ran, fresh⟩

theorem restoresBind {x : Visiting α} {f : α → Visiting β} {r : Except Failure α}
    {g : α → Except Failure β} (first : Restores x stack r)
    (second : ∀ a, r = .ok a → Restores (f a) stack (g a)) :
    Restores (x >>= f) stack (r >>= g) := by
  intro pushes
  obtain ⟨more, ran, fresh⟩ := first pushes
  rw [runBind, ran]
  cases r with
  | error e => exact ⟨more, rfl, fresh⟩
  | ok a =>
    obtain ⟨later, ran, fresh'⟩ := second a rfl (pushes ++ more)
    refine ⟨more ++ later, by rw [← List.append_assoc]; exact ran, fun p mem => ?_⟩
    exact (List.mem_append.mp mem).elim (fresh p) (fresh' p)

theorem restoresWithin {id : String} {body : Visiting α} {r : Except Failure α} (new : id ∉ stack)
    (inner : Restores body (stack ++ [id]) r) : Restores (within id body) stack r := by
  intro pushes
  obtain ⟨more, ran, fresh⟩ := inner (pushes ++ [(id, stack)])
  refine ⟨(id, stack) :: more, ?_, fun p mem => ?_⟩
  · have step : (within id body).run ⟨stack, pushes⟩ =
        (body.run ⟨stack ++ [id], pushes ++ [(id, stack)]⟩).bind
          (fun (r, v) => some (r, { v with stack := v.stack.dropLast })) := by
      change ((body.run _).map _).bind _ = _
      cases body.run ⟨stack ++ [id], pushes ++ [(id, stack)]⟩ <;> rfl
    rw [step, ran]
    simp
  · rcases List.mem_cons.mp mem with rfl | mem
    · exact new
    · exact fresh p mem

end Visiting

open Visiting

def SymbolTable.inlineIds (t : SymbolTable) : List String :=
  t.ids.eraseDups.filter (fun id => (t.standalone? id).isNone)

namespace Scope

/-! The resolution on the stack. -/

def visitMembers (resolve : String → Visiting Resolution) (owner : String) :
    List (String × Member) → Visiting (List Schema)
  | [] => pure []
  | (name, member) :: rest => do
    let r ← resolve member.target
    let schemas ← visitMembers resolve owner rest
    pure (markUnresolved r "union member" member.target (owner ++ "." ++ name) :: schemas)

def visitShape (scope : Scope) (resolve : String → Visiting Resolution) (id : String) : Visiting Schema :=
  match scope.model.shape? id with
  | none => pure .unknown
  | some shape => do
    let parts ← ofResult (ShapeId.parse id)
    match shape with
    | .scalar kind traits => pure (.withNotes (shape.notes id) (scope.scalarSchema parts.space traits kind))
    | .list member traits => do
      let r ← resolve member.target
      let item := markUnresolved r "list member" member.target parts.name
      pure (.withNotes (shape.notes id)
        (.array item traits.minLength traits.maxLength traits.hasUniqueItems))
    | .map key value _ => do
      let k ← resolve key.target
      let keySchema ← ofResult (keySchema id key.target k)
      let r ← resolve value.target
      let valueSchema := markUnresolved r "map value" value.target parts.name
      pure (.withNotes (shape.notes id) (.record keySchema valueSchema))
    | .union members _ => do
      let alternatives ← visitMembers resolve parts.name members
      pure (.withNotes (shape.notes id) (.union alternatives))
    | .enum .. | .struct .. | .operation .. | .service .. | .unsupported => pure .unknown

def visitTarget (scope : Scope) (source : FileKey) (expand : String → Visiting Schema)
    (options : ResolveOptions) (target : String) : Visiting Resolution := do
  let stack ← onStack
  if target ∈ options.current.toList ++ stack then pure (.placeholder true)
  else match Builtin.ofId? target with
    | some b => pure b.resolution
    | none => do
      let _ ← ofResult (ShapeId.parse target)
      if target ∉ scope.symbols.ids then pure (.placeholder false)
      else match scope.symbols.standalone? target with
        | some symbol =>
          pure (.found (refSchema target symbol source options.lazyInFile) (some symbol.kind))
        | none => do
          let schema ← within target (expand target)
          pure (.found schema (scope.symbols.kind? target))

def visit (scope : Scope) (source : FileKey) : Nat → ResolveOptions → String → Visiting Resolution
  | 0, _, _ => tooDeep
  | depth + 1, options, target =>
    visitTarget scope source (visitShape scope (visit scope source depth .deferred)) options target

variable {scope : Scope} {source : FileKey} {stack : List String} {resolve : String → Visiting Resolution}

def Resolves (scope : Scope) (source : FileKey) (stack : List String)
    (resolve : String → Visiting Resolution) : Prop :=
  ∀ target, Restores (resolve target) stack (resolveIn scope target source .deferred stack)

theorem membersRestore (resolves : scope.Resolves source stack resolve) (owner : String)
    (members : List (String × Member)) : Restores (visitMembers resolve owner members) stack
      (expandMembers scope owner source stack members) := by
  induction members with
  | nil =>
    rw [expandMembers]
    exact restoresPure _
  | cons m rest ih =>
    obtain ⟨name, member⟩ := m
    rw [expandMembers]
    exact restoresBind (resolves member.target) fun r _ =>
      restoresBind ih fun schemas _ => restoresPure _

theorem shapeRestores (resolves : scope.Resolves source stack resolve) (id : String) :
    Restores (visitShape scope resolve id) stack (expand scope id source stack) := by
  rw [expand, visitShape]
  cases scope.model.shape? id with
  | none => exact restoresPure _
  | some shape =>
    refine restoresBind (restoresResult _) fun parts named => ?_
    cases shape with
    | scalar kind traits =>
      cases kind with
      | timestamp =>
        simp only [timestampSchemaOk named]
        exact restoresPure _
      | _ => exact restoresPure _
    | list member traits => exact restoresBind (resolves member.target) fun r _ => restoresPure _
    | map key value traits =>
      exact restoresBind (resolves key.target) fun k _ =>
        restoresBind (restoresResult _) fun keyed _ =>
          restoresBind (resolves value.target) fun r _ => restoresPure _
    | union members traits =>
      exact restoresBind (membersRestore resolves _ members) fun alternatives _ => restoresPure _
    | _ => exact restoresPure _

def inlineRoom (scope : Scope) (stack : List String) : Nat :=
  (scope.symbols.inlineIds.filter (fun id => id ∉ stack)).length

theorem inlineRoomPush {target : String} (inline : target ∈ scope.symbols.inlineIds)
    (new : target ∉ stack) : scope.inlineRoom (stack ++ [target]) < scope.inlineRoom stack := by
  have nested : scope.symbols.inlineIds.filter (fun id => id ∉ stack ++ [target]) =
      (scope.symbols.inlineIds.filter (fun id => id ∉ stack)).filter (fun id => id ≠ target) := by
    rw [List.filter_filter]
    refine List.filter_congr (fun id _ => ?_)
    by_cases here : id ∈ stack <;> by_cases same : id = target <;> simp [here, same]
  rw [inlineRoom, inlineRoom, nested]
  exact List.length_filter_lt_length_iff_exists.mpr ⟨target, by simp [inline, new], by simp⟩

theorem visitRestores {depth : Nat} (deep : scope.inlineRoom stack < depth) (options : ResolveOptions)
    (target : String) : Restores (visit scope source depth options target) stack
      (resolveIn scope target source options stack) := by
  induction depth generalizing stack options target with
  | zero => contradiction
  | succ depth ih =>
    rw [visit, visitTarget, resolveIn]
    refine restoresStack ?_
    by_cases visited : target ∈ options.current.toList ++ stack
    · rw [if_pos visited, if_pos visited]
      exact restoresPure _
    rw [if_neg visited, if_neg visited]
    cases Builtin.ofId? target with
    | some b => exact restoresPure _
    | none =>
      refine restoresBind (restoresResult _) fun parts named => ?_
      by_cases absent : target ∉ scope.symbols.ids
      · rw [if_pos absent, if_pos absent]
        exact restoresPure _
      rw [if_neg absent, if_neg absent]
      cases standalone : scope.symbols.standalone? target with
      | some symbol => exact restoresPure _
      | none =>
        have new : target ∉ stack := fun mem => visited (List.mem_append_right _ mem)
        have inline : target ∈ scope.symbols.inlineIds := by
          simp [SymbolTable.inlineIds, standalone, Decidable.not_not.mp absent]
        have room := inlineRoomPush inline new
        have resolves : scope.Resolves source (stack ++ [target]) (visit scope source depth .deferred) :=
          fun t => ih (by omega) .deferred t
        exact restoresBind (restoresWithin new (shapeRestores resolves target)) fun s _ => restoresPure _

theorem stackRestored (scope : Scope) (source : FileKey) (stack : List String) :
    (∀ options target,
      Restores (visit scope source (scope.symbols.inlineIds.length + 1) options target) stack
        (resolveIn scope target source options stack)) ∧
    ∀ id, Restores (visitShape scope
        (visit scope source (scope.symbols.inlineIds.length + 1) .deferred) id) stack
      (expand scope id source stack) := by
  have deep : scope.inlineRoom stack < scope.symbols.inlineIds.length + 1 :=
    Nat.lt_succ_of_le (List.length_filter_le _ _)
  exact ⟨fun options target => visitRestores deep options target,
    fun id => shapeRestores (fun target => visitRestores deep .deferred target) id⟩

end Scope
end ShapeContracts
