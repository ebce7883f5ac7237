import ShapeContracts.Resolution
import ShapeContracts.Proofs.Entries

/-! What a successful resolution can be, stated once. A reference is one of five cases, and an
expansion is determined by how the references of its shape resolve; everything that holds of
resolved references follows by `referenceInduct`. -/
namespace ShapeContracts

theorem bindOk {x : Except ε α} {f : α → Except ε β} {b : β} :
    (x >>= f) = .ok b ↔ ∃ a, x = .ok a ∧ f a = .ok b := by
  cases x <;> simp [bind, Except.bind]

@[simp]
theorem pureOk {a b : α} : (pure a : Except ε α) = .ok b ↔ a = b := by
  simp [pure, Except.pure]

@[simp]
theorem throwOk {e : ε} {a : α} : (throw e : Except ε α) ≠ .ok a := by
  simp [throw, throwThe, MonadExceptOf.throw]

namespace ShapeId

theorem parseOk {id : String} : (∃ parts, parse id = .ok parts) ↔ '#' ∈ id.toList := by
  rw [← ofStringDefined]
  unfold parse
  cases ofString? id <;> simp

def localName (id : String) : String := ((ofString? id).map name).getD ""

theorem parseLocal {id : String} {parts : ShapeId} (named : parse id = .ok parts) :
    localName id = parts.name := by
  unfold parse at named
  split at named
  · rename_i i found
    rw [localName, found, ← Except.ok.inj named]
    rfl
  · contradiction

end ShapeId

def Shape.isCompound : Shape → Bool
  | .list .. | .map .. | .union .. => true
  | _ => false

def Shape.isExpanded : Shape → Bool
  | .scalar .. => true
  | shape => shape.isCompound

theorem Shape.expandedKind {shape : Shape} {kind : ShapeKind} (kinded : shape.kind? = some kind) :
    shape.isExpanded = (kind.isSchemaBearing && !kind.isStandalone) := by
  cases shape with
  | unsupported => contradiction
  | _ =>
    obtain rfl := Option.some.inj kinded
    rfl

theorem Shape.standaloneWhole {shape : Shape} {kind : ShapeKind} (kinded : shape.kind? = some kind)
    (standalone : kind.isStandalone = true) : shape.isExpanded = false := by
  rw [expandedKind kinded, standalone, Bool.not_true, Bool.and_false]

theorem Shape.bearingExpanded {shape : Shape} {kind : ShapeKind} (kinded : shape.kind? = some kind)
    (bears : kind.isSchemaBearing = true) (apart : kind.isStandalone = false) :
    shape.isExpanded = true := by
  rw [expandedKind kinded, bears, apart]
  rfl

def Shape.targets : Shape → List String
  | .list member _ => [member.target]
  | .map key value _ => [key.target, value.target]
  | .struct members _ | .union members _ => members.map (fun m => m.2.target)
  | .operation input output errors _ => input.toList ++ output.toList ++ errors
  | .service _ operations _ _ => operations
  | _ => []

namespace Scope

def scalarSchema (scope : Scope) (space : String) (traits : Traits) : Scalar → Schema
  | .blob => .bytes
  | .boolean => .boolean
  | .document => .unknown
  | .long => .bigint
  | .integer => .number true traits.minValue traits.maxValue
  | .string => .string traits.minLength traits.maxLength traits.pattern
  | .timestamp =>
    match traits.timestampFormat with
    | some format => .ofTimestampFormat format
    | none => if scope.settings.defaultsToDateTime space then .dateTime else .httpDate

theorem timestampSchemaOk {scope : Scope} {id : String} {parts : ShapeId} {traits : Traits}
    (named : ShapeId.parse id = .ok parts) :
    scope.timestampSchema id traits = .ok (scope.scalarSchema parts.space traits .timestamp) := by
  unfold timestampSchema scalarSchema
  cases traits.timestampFormat with
  | some format => rfl
  | none => simp only [named]; rfl

inductive Expansion (scope : Scope) (resolves : String → Resolution → Prop) (id : String) :
    Schema → Prop where
  | absent (missing : scope.model.shape? id = none) : Expansion scope resolves id .unknown
  | scalar {kind traits parts} (found : scope.model.shape? id = some (.scalar kind traits))
      (named : ShapeId.parse id = .ok parts) :
      Expansion scope resolves id (.withNotes ((Shape.scalar kind traits).notes id)
        (scope.scalarSchema parts.space traits kind))
  | list {member traits parts r} (found : scope.model.shape? id = some (.list member traits))
      (named : ShapeId.parse id = .ok parts) (item : resolves member.target r) :
      Expansion scope resolves id (.withNotes ((Shape.list member traits).notes id)
        (.array (markUnresolved r "list member" member.target parts.name)
          traits.minLength traits.maxLength traits.hasUniqueItems))
  | map {key value traits parts k keyed r}
      (found : scope.model.shape? id = some (.map key value traits))
      (named : ShapeId.parse id = .ok parts) (keys : resolves key.target k)
      (fits : keySchema id key.target k = .ok keyed) (values : resolves value.target r) :
      Expansion scope resolves id (.withNotes ((Shape.map key value traits).notes id)
        (.record keyed (markUnresolved r "map value" value.target parts.name)))
  | union {members traits parts} (rs : String → Resolution)
      (found : scope.model.shape? id = some (.union members traits))
      (named : ShapeId.parse id = .ok parts)
      (alternatives : ∀ m ∈ members, resolves m.2.target (rs m.2.target)) :
      Expansion scope resolves id (.withNotes ((Shape.union members traits).notes id)
        (.union (members.map (fun m => markUnresolved (rs m.2.target) "union member" m.2.target
          (parts.name ++ "." ++ m.1)))))
  | other {shape parts} (found : scope.model.shape? id = some shape)
      (named : ShapeId.parse id = .ok parts) (apart : shape.isExpanded = false) :
      Expansion scope resolves id .unknown

theorem expansionMono {scope : Scope} {id : String} {s : Schema}
    {resolves resolves' : String → Resolution → Prop} (e : Expansion scope resolves id s)
    (le : ∀ t r, resolves t r → resolves' t r) : Expansion scope resolves' id s := by
  cases e with
  | absent missing => exact .absent missing
  | scalar found named => exact .scalar found named
  | list found named item => exact .list found named (le _ _ item)
  | map found named keys fits values => exact .map found named (le _ _ keys) fits (le _ _ values)
  | union rs found named alternatives =>
      exact .union rs found named (fun m hm => le _ _ (alternatives m hm))
  | other found named apart => exact .other found named apart

variable {scope : Scope} {source : FileKey}

theorem expandMembersOk {owner : String} {stack : List String}
    {members : List (String × Member)} {schemas : List Schema} :
    expandMembers scope owner source stack members = .ok schemas ↔
      ∃ rs : String → Resolution,
        (∀ m ∈ members, resolveIn scope m.2.target source .deferred stack = .ok (rs m.2.target)) ∧
        schemas = members.map (fun m => markUnresolved (rs m.2.target) "union member" m.2.target
          (owner ++ "." ++ m.1)) := by
  constructor
  · intro ok
    -- resolution is a function of the target, so one choice serves all members
    refine ⟨fun t => match resolveIn scope t source .deferred stack with
      | .ok r => r
      | .error _ => .placeholder false, ?_⟩
    induction members generalizing schemas with
    | nil => simp_all [expandMembers]
    | cons m rest ih =>
      obtain ⟨name, member⟩ := m
      rw [expandMembers] at ok
      obtain ⟨r, hr, ok⟩ := bindOk.mp ok
      obtain ⟨tail, ht, ok⟩ := bindOk.mp ok
      obtain ⟨each, same⟩ := ih ht
      refine ⟨fun m hm => ?_, ?_⟩
      · rcases List.mem_cons.mp hm with rfl | hm
        · simp [hr]
        · exact each m hm
      · rw [← pureOk.mp ok, same]
        simp [hr]
  · rintro ⟨rs, each, rfl⟩
    induction members with
    | nil => simp [expandMembers]
    | cons m rest ih =>
      obtain ⟨name, member⟩ := m
      rw [expandMembers]
      refine bindOk.mpr ⟨_, each _ List.mem_cons_self, bindOk.mpr ⟨_, ih ?_, rfl⟩⟩
      exact fun m hm => each m (List.mem_cons_of_mem _ hm)

theorem expandOk {id : String} {stack : List String} {s : Schema} :
    expand scope id source stack = .ok s ↔
      Expansion scope (fun t r => resolveIn scope t source .deferred stack = .ok r) id s := by
  rw [expand]
  constructor
  · intro ok
    cases found : scope.model.shape? id with
    | none =>
      rw [found] at ok
      obtain rfl := pureOk.mp ok
      exact .absent found
    | some shape =>
      rw [found] at ok
      obtain ⟨parts, named, ok⟩ := bindOk.mp ok
      cases shape with
      | scalar kind traits =>
        cases kind with
        | timestamp =>
          obtain ⟨core, hc, ok⟩ := bindOk.mp ok
          obtain rfl := Except.ok.inj ((timestampSchemaOk named).symm.trans hc)
          obtain rfl := pureOk.mp ok
          exact .scalar found named
        | _ =>
          obtain rfl := pureOk.mp ok
          exact .scalar found named
      | list member traits =>
        obtain ⟨r, item, ok⟩ := bindOk.mp ok
        obtain rfl := pureOk.mp ok
        exact .list found named item
      | map key value traits =>
        obtain ⟨k, keys, ok⟩ := bindOk.mp ok
        obtain ⟨keyed, fits, ok⟩ := bindOk.mp ok
        obtain ⟨r, values, ok⟩ := bindOk.mp ok
        obtain rfl := pureOk.mp ok
        exact .map found named keys fits values
      | union members traits =>
        obtain ⟨schemas, each, ok⟩ := bindOk.mp ok
        obtain rfl := pureOk.mp ok
        obtain ⟨rs, alternatives, rfl⟩ := expandMembersOk.mp each
        exact .union rs found named alternatives
      | _ =>
        obtain rfl := pureOk.mp ok
        exact .other found named rfl
  · intro e
    cases e with
    | absent missing => rw [missing]; rfl
    | @scalar kind traits parts found named =>
      rw [found]
      refine bindOk.mpr ⟨parts, named, ?_⟩
      cases kind with
      | timestamp => exact bindOk.mpr ⟨_, timestampSchemaOk named, rfl⟩
      | _ => rfl
    | list found named item =>
      rw [found]
      exact bindOk.mpr ⟨_, named, bindOk.mpr ⟨_, item, rfl⟩⟩
    | map found named keys fits values =>
      rw [found]
      exact bindOk.mpr ⟨_, named, bindOk.mpr ⟨_, keys, bindOk.mpr ⟨_, fits,
        bindOk.mpr ⟨_, values, rfl⟩⟩⟩⟩
    | union rs found named alternatives =>
      rw [found]
      exact bindOk.mpr ⟨_, named, bindOk.mpr ⟨_, expandMembersOk.mpr ⟨rs, alternatives, rfl⟩, rfl⟩⟩
    | @other shape parts found named apart =>
      rw [found]
      refine bindOk.mpr ⟨parts, named, ?_⟩
      cases shape <;> first | rfl | contradiction

inductive Reference (scope : Scope) (source : FileKey) (expands : String → Schema → Prop)
    (stack : List String) (target : String) : Resolution → Prop where
  | recursive (visited : target ∈ stack) :
      Reference scope source expands stack target (.placeholder true)
  | builtin {b} (fresh : target ∉ stack) (known : Builtin.ofId? target = some b) :
      Reference scope source expands stack target b.resolution
  | missing {parts} (fresh : target ∉ stack) (foreign : Builtin.ofId? target = none)
      (named : ShapeId.parse target = .ok parts) (absent : scope.symbols.lookup? target = none) :
      Reference scope source expands stack target (.placeholder false)
  | declared {symbol parts} (fresh : target ∉ stack) (foreign : Builtin.ofId? target = none)
      (named : ShapeId.parse target = .ok parts)
      (registered : scope.symbols.lookup? target = some symbol)
      (standalone : symbol.isStandalone = true) :
      Reference scope source expands stack target
        (.found (refSchema target symbol source true) (some symbol.kind))
  | inlined {symbol parts s} (fresh : target ∉ stack) (foreign : Builtin.ofId? target = none)
      (named : ShapeId.parse target = .ok parts)
      (registered : scope.symbols.lookup? target = some symbol)
      (apart : symbol.isStandalone = false) (body : expands target s) :
      Reference scope source expands stack target (.found s (some symbol.kind))

theorem resolveOk {target : String} {stack : List String} {r : Resolution} :
    resolveIn scope target source .deferred stack = .ok r ↔
      Reference scope source (fun id s => expand scope id source (stack ++ [id]) = .ok s)
        stack target r := by
  rw [resolveIn]
  by_cases visited : target ∈ stack
  · rw [if_pos (by simpa [ResolveOptions.deferred] using visited), pureOk]
    constructor
    · rintro rfl
      exact .recursive visited
    · intro h
      cases h <;> first | rfl | contradiction
  rw [if_neg (by simpa [ResolveOptions.deferred] using visited)]
  cases known : Builtin.ofId? target with
  | some b =>
    rw [pureOk]
    constructor
    · rintro rfl
      exact .builtin visited known
    · intro h
      cases h <;> simp_all
  | none =>
    cases registered : scope.symbols.lookup? target with
    | none =>
      have absent : target ∉ scope.symbols.ids := Entries.lookupNone.mp registered
      simp only [if_pos absent, bindOk, pureOk]
      constructor
      · rintro ⟨parts, named, rfl⟩
        exact .missing visited known named registered
      · intro h
        cases h with
        | missing _ _ named _ => exact ⟨_, named, rfl⟩
        | _ => simp_all
    | some symbol =>
      have here : ¬ target ∉ scope.symbols.ids :=
        not_not_intro (Entries.lookupSome.mp ⟨symbol, registered⟩)
      simp only [if_neg here, SymbolTable.standalone?, SymbolTable.kind?, registered,
        Option.map_some, Option.filter_some]
      by_cases standalone : symbol.isStandalone = true
      · simp only [standalone, if_true, bindOk, pureOk]
        constructor
        · rintro ⟨parts, named, rfl⟩
          exact .declared visited known named registered standalone
        · intro h
          cases h with
          | declared _ _ named found _ => exact ⟨_, named, by simp_all [ResolveOptions.deferred]⟩
          | _ => simp_all
      · simp only [standalone, Bool.false_eq_true, if_false, bindOk, pureOk]
        constructor
        · rintro ⟨parts, named, s, body, rfl⟩
          exact .inlined visited known named registered (by simpa using standalone) body
        · intro h
          cases h with
          | inlined _ _ named found _ body => exact ⟨_, named, _, body, by simp_all⟩
          | _ => simp_all

theorem referenceInduct {P : List String → String → Resolution → Prop}
    (step : ∀ stack target r,
      Reference scope source (fun id s => Expansion scope (P (stack ++ [id])) id s) stack target r →
        P stack target r)
    {stack : List String} {target : String} {r : Resolution}
    (ok : resolveIn scope target source .deferred stack = .ok r) : P stack target r := by
  -- on the room that the stack leaves, as the resolution itself
  induction room : scope.room stack using Nat.strongRecOn generalizing stack target r with
  | ind n ih =>
    subst room
    refine step stack target r ?_
    have h := resolveOk.mp ok
    cases h with
    | inlined fresh foreign named registered apart body =>
      refine .inlined fresh foreign named registered apart (expansionMono (expandOk.mp body) ?_)
      intro t r' ok'
      exact ih _ (roomPush (Entries.lookupSome.mp ⟨_, registered⟩) fresh) ok' rfl
    | recursive visited => exact .recursive visited
    | builtin fresh known => exact .builtin fresh known
    | missing fresh foreign named absent => exact .missing fresh foreign named absent
    | declared fresh foreign named registered standalone =>
      exact .declared fresh foreign named registered standalone

end Scope
end ShapeContracts
