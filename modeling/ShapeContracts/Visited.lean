/-!
How many entries of a table are not visited yet. A walk that never visits a name twice ends, because
every visit makes the number smaller.
-/
namespace ShapeContracts

def unvisited (table : List (String × α)) (visited : List String) : Nat :=
  (table.filter (fun e => !visited.contains e.1)).length

theorem unvisitedVisit {table : List (String × α)} {name : String} {visited : List String}
    (h : name ∈ table.map Prod.fst) (hv : name ∉ visited) :
    unvisited table (visited ++ [name]) < unvisited table visited := by
  obtain ⟨a, ha⟩ : ∃ a, (name, a) ∈ table := by simpa using h
  obtain ⟨l₁, l₂, hl⟩ := List.append_of_mem ha
  have hsub : ∀ e : String × α,
      (!(visited ++ [name]).contains e.1) = (!visited.contains e.1 && e.1 != name) := by
    intro e
    by_cases h1 : e.1 ∈ visited <;> by_cases h2 : e.1 = name <;> simp_all
  have hle : ∀ l : List (String × α),
      (l.filter (fun e => !visited.contains e.1 && e.1 != name)).length
        ≤ (l.filter (fun e => !visited.contains e.1)).length := by
    intro l
    induction l with
    | nil => simp
    | cons a rest ih =>
      simp only [List.filter_cons]
      split <;> split <;> grind
  unfold unvisited
  simp only [hsub]
  rw [hl]
  have h1 := hle l₁
  have h2 := hle l₂
  simp only [List.filter_append, List.filter_cons, List.length_append]
  simp only [List.contains_eq_mem, hv, decide_false, Bool.not_false, bne_self_eq_false,
    Bool.and_false, Bool.false_eq_true, if_false, if_true, List.length_cons] at h1 h2 ⊢
  omega

end ShapeContracts
