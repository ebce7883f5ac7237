import ShapeContracts.Schema.Code
import ShapeContracts.Proofs.Places
import ShapeContracts.Proofs.Printing

/-! The code of a schema. It holds the code of every schema that occurs inside, so a reference and a
comment that stand anywhere in a schema stand in the file that it is written to. -/
namespace ShapeContracts.Schema

open Fragment (Leaf)

variable {source : FileKey} {m : CodeModules} {leaf : Leaf} {s t u : Schema}

theorem bareOccurs {path : List Step} (occurs : u.Occurs path s.bare) : u.Occurs path s := by
  fun_induction bare s with
  | case1 inner ih => exact .lazy (ih occurs)
  | case2 inner check ih => exact .refine (ih occurs)
  | case3 inner ih => exact .optional (ih occurs)
  | case4 inner value ih => exact .withDefault (ih occurs)
  | case5 comment inner ih => exact .marked (ih occurs)
  | case6 => exact occurs

theorem occursBare {path : List Step} (plain : t.bare = t) (occurs : t.Occurs path s) : t.Occurs path s.bare := by
  induction occurs with
  | here => exact plain.symm ▸ .here
  | lazy _ ih | refine _ ih | optional _ ih | withDefault _ ih | marked _ ih => exact ih
  | item inside => exact .item inside
  | key inside => exact .key inside
  | value inside => exact .value inside
  | alternative nth inside => exact .alternative nth inside
  | field nth inside => exact .field nth inside

theorem refersOccurs {r : SchemaRef} {d : Bool} (inside : s.Refers r d) :
    ∃ path, (Schema.ref r).Occurs path s := by
  induction inside with
  | here r => exact ⟨[], .here⟩
  | lazy _ ih => exact ih.imp (fun _ occurs => .lazy occurs)
  | refine _ ih => exact ih.imp (fun _ occurs => .refine occurs)
  | optional _ ih => exact ih.imp (fun _ occurs => .optional occurs)
  | withDefault _ ih => exact ih.imp (fun _ occurs => .withDefault occurs)
  | marked _ ih => exact ih.imp (fun _ occurs => .marked occurs)
  | item _ ih =>
    obtain ⟨path, occurs⟩ := ih
    exact ⟨_, .item occurs⟩
  | key _ ih =>
    obtain ⟨path, occurs⟩ := ih
    exact ⟨_, .key occurs⟩
  | value _ ih =>
    obtain ⟨path, occurs⟩ := ih
    exact ⟨_, .value occurs⟩
  | member mem _ ih =>
    obtain ⟨path, occurs⟩ := ih
    obtain ⟨i, nth⟩ := List.mem_iff_getElem?.mp mem
    exact ⟨_, .alternative nth occurs⟩
  | field mem _ ih =>
    obtain ⟨path, occurs⟩ := ih
    obtain ⟨i, nth⟩ := List.mem_iff_getElem?.mp mem
    exact ⟨_, .field nth occurs⟩

theorem methodMem {indent : Nat} {f : Fragment} (inside : leaf ∈ Fragment.leaves indent f) (name : String)
    (args : List Fragment) : leaf ∈ Fragment.leaves indent (f.method name args) := by
  rw [Fragment.method, Fragment.leaves, Fragment.leaves]
  exact List.mem_append_left _ (List.mem_append_left _ inside)

theorem argumentMem {indent : Nat} {f : Fragment} {args : List Fragment} (mem : f ∈ args)
    (inside : leaf ∈ Fragment.leaves indent f) (receiver : Fragment) (name : String) :
    leaf ∈ Fragment.leaves indent (receiver.method name args) := by
  rw [Fragment.method, Fragment.leaves]
  exact List.mem_append_right _ (List.mem_cons_of_mem _ (List.mem_append_left _
    (Fragment.listMem mem inside)))

theorem whenSomeMem {indent : Nat} {f : Fragment} (inside : leaf ∈ Fragment.leaves indent f)
    (bound : Option α) (name : String) (code : α → String) :
    leaf ∈ Fragment.leaves indent (whenSome bound name code f) := by
  cases bound with
  | none => exact inside
  | some x => exact methodMem inside name _

theorem lowerAllMap (ss : List Schema) : lowerAll source m ss = ss.map (lower source m) := by
  induction ss with
  | nil => rfl
  | cons s rest ih => rw [lowerAll, ih, List.map_cons]

theorem lowerFieldsMap (fields : List (String × Schema × List String)) :
    lowerFields source m fields = fields.map (fun f => (f.1, lower source m f.2.1, f.2.2)) := by
  induction fields with
  | nil => rfl
  | cons f rest ih => rw [lowerFields, ih, List.map_cons]

theorem objectMem {indent : Nat} {fields : List (String × Schema × List String)}
    (inside : leaf ∈ Fragment.propertyLeaves (indent + 2) (lowerFields source m fields)) :
    leaf ∈ Fragment.leaves indent ((Schema.object fields).lower source m) := by
  rw [lower]
  refine argumentMem List.mem_cons_self ?_ _ _
  cases lowered : lowerFields source m fields with
  | nil =>
    rw [lowered, Fragment.propertyLeaves] at inside
    contradiction
  | cons f rest =>
    rw [lowered] at inside
    rw [Fragment.leaves]
    exact List.mem_cons_of_mem _ (List.mem_append_left _ inside)

theorem occursLower (source : FileKey) (m : CodeModules) {path : List Step} (occurs : u.Occurs path s)
    (indent : Nat) : ∃ inner, Fragment.leaves inner (u.lower source m) ⊆ Fragment.leaves indent (s.lower source m) := by
  induction occurs generalizing indent with
  | here => exact ⟨indent, List.Subset.refl _⟩
  | lazy _ ih =>
    obtain ⟨inner, lowered⟩ := ih indent
    refine ⟨inner, fun leaf inside => ?_⟩
    rw [lower]
    refine argumentMem List.mem_cons_self ?_ _ _
    rw [Fragment.leaves]
    exact List.mem_cons_of_mem _ (lowered inside)
  | refine _ ih | optional _ ih | withDefault _ ih =>
    obtain ⟨inner, lowered⟩ := ih indent
    refine ⟨inner, fun leaf inside => ?_⟩
    rw [lower]
    exact methodMem (lowered inside) _ _
  | marked _ ih =>
    obtain ⟨inner, lowered⟩ := ih indent
    refine ⟨inner, fun leaf inside => ?_⟩
    rw [lower, Fragment.leaves]
    exact List.mem_cons_of_mem _ (lowered inside)
  | @item path item min max unique _ ih =>
    obtain ⟨inner, lowered⟩ := ih indent
    refine ⟨inner, fun leaf inside => ?_⟩
    have array : leaf ∈ Fragment.leaves indent ((lower.z m).method "array" [lower source m item]) :=
      argumentMem List.mem_cons_self (lowered inside) _ _
    have bounded := whenSomeMem (whenSomeMem array min "min" toString) max "max" toString
    rw [lower]
    cases unique with
    | false => exact bounded
    | true => exact methodMem bounded _ _
  | key _ ih =>
    obtain ⟨inner, lowered⟩ := ih indent
    refine ⟨inner, fun leaf inside => ?_⟩
    rw [lower]
    exact argumentMem List.mem_cons_self (lowered inside) _ _
  | value _ ih =>
    obtain ⟨inner, lowered⟩ := ih indent
    refine ⟨inner, fun leaf inside => ?_⟩
    rw [lower]
    exact argumentMem (List.mem_cons_of_mem _ List.mem_cons_self) (lowered inside) _ _
  | @alternative path members i s nth _ ih =>
    obtain ⟨inner, lowered⟩ := ih indent
    refine ⟨inner, fun leaf inside => ?_⟩
    have mem := List.mem_of_getElem? nth
    cases members with
    | nil => contradiction
    | cons first rest =>
      rw [lower, lowerAllMap, ← List.map_cons]
      refine argumentMem List.mem_cons_self ?_ _ _
      rw [Fragment.leaves]
      exact List.mem_cons_of_mem _ (List.mem_append_left _
        (Fragment.listMem (List.mem_map_of_mem mem) (lowered inside)))
  | @field path fields i name s comments nth _ ih =>
    obtain ⟨inner, lowered⟩ := ih (indent + 2)
    refine ⟨inner, fun leaf inside => objectMem ?_⟩
    have mem := List.mem_map_of_mem (f := fun f => (f.1, lower source m f.2.1, f.2.2))
      (List.mem_of_getElem? nth)
    rw [lowerFieldsMap]
    exact Fragment.propertyMem mem (lowered inside)

end ShapeContracts.Schema
