/-!
Sorting by insertion. Items that may stand either way keep their order.
-/
namespace ShapeContracts

def insertSorted (le : α → α → Bool) (x : α) : List α → List α
  | [] => [x]
  | y :: rest =>
    match le x y with
    | true => x :: y :: rest
    | false => y :: insertSorted le x rest

def sortedBy (le : α → α → Bool) : List α → List α
  | [] => []
  | x :: rest => insertSorted le x (sortedBy le rest)

theorem insertSortedPerm (le : α → α → Bool) (x : α) (l : List α) :
    (insertSorted le x l).Perm (x :: l) := by
  induction l with
  | nil => exact .refl _
  | cons y rest ih =>
    rw [insertSorted]
    split
    · exact .refl _
    · exact (ih.cons y).trans (.swap x y rest)

theorem sortedByPerm (le : α → α → Bool) (l : List α) : (sortedBy le l).Perm l := by
  induction l with
  | nil => exact .refl _
  | cons x rest ih => exact (insertSortedPerm le x _).trans (ih.cons x)

@[simp] theorem memSortedBy {le : α → α → Bool} {l : List α} {a : α} : a ∈ sortedBy le l ↔ a ∈ l :=
  (sortedByPerm le l).mem_iff

section
variable {le : α → α → Bool} (trans : ∀ a b c, le a b → le b c → le a c)
  (total : ∀ a b, le a b || le b a)
include trans total

theorem insertSortedPairwise {x : α} {l : List α} (h : l.Pairwise (fun a b => le a b)) :
    (insertSorted le x l).Pairwise (fun a b => le a b) := by
  induction l with
  | nil => simp [insertSorted]
  | cons y rest ih =>
    obtain ⟨hy, hrest⟩ := List.pairwise_cons.1 h
    rw [insertSorted]
    split
    · rename_i hxy
      refine List.pairwise_cons.2 ⟨fun a ha => ?_, h⟩
      rcases List.mem_cons.1 ha with rfl | ha
      · exact hxy
      · exact trans _ _ _ hxy (hy a ha)
    · rename_i hxy
      refine List.pairwise_cons.2 ⟨fun a ha => ?_, ih hrest⟩
      rcases List.mem_cons.1 ((insertSortedPerm le x rest).mem_iff.1 ha) with rfl | ha
      · simpa [hxy] using total a y
      · exact hy a ha

theorem sortedByPairwise (l : List α) : (sortedBy le l).Pairwise (fun a b => le a b) := by
  induction l with
  | nil => exact .nil
  | cons x rest ih => exact insertSortedPairwise trans total ih

end
end ShapeContracts
