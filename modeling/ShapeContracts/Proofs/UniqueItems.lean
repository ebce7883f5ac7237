import ShapeContracts.Proofs.ValueTexts

/-! Lists whose items have to differ. Items are compared by their texts, and the first text that comes again
is reported at its place. -/
namespace ShapeContracts

namespace Issue

def RepeatsAt (texts : List String) (j : Nat) : Prop :=
  ∃ i < j, ∃ text, texts[i]? = some text ∧ texts[j]? = some text

theorem repeatsHere {before rest : List String} {text : String} :
    RepeatsAt (before ++ text :: rest) before.length ↔ text ∈ before := by
  have here : (before ++ text :: rest)[before.length]? = some text := by simp
  rw [List.mem_iff_getElem?]
  apply Iff.intro
  · intro repeats
    obtain ⟨i, less, found, there, same⟩ := repeats
    cases here.symm.trans same
    rw [List.getElem?_append_left less] at there
    exact ⟨i, there⟩
  · intro known
    obtain ⟨i, there⟩ := known
    have less : i < before.length := (List.getElem?_eq_some_iff.mp there).1
    rw [← List.getElem?_append_left less] at there
    exact ⟨i, less, text, there, here⟩

theorem firstRepeatFinds {before seen texts : List String}
    (known : ∀ text, text ∈ seen ↔ text ∈ before) (j : Nat) :
    firstRepeat? seen texts before.length = some j ↔
      before.length ≤ j ∧ RepeatsAt (before ++ texts) j ∧
        ∀ k < j, before.length ≤ k → ¬ RepeatsAt (before ++ texts) k := by
  induction texts generalizing before seen with
  | nil =>
    apply iff_of_false nofun
    intro found
    obtain ⟨beyond, ⟨i, less, text, -, here⟩, -⟩ := found
    rw [List.append_nil, List.getElem?_eq_none beyond] at here
    contradiction
  | cons text rest ih =>
    rw [firstRepeat?]
    split
    · rename_i again
      have here : RepeatsAt (before ++ text :: rest) before.length := repeatsHere.mpr ((known text).mp again)
      apply Iff.intro
      · intro found
        cases found
        exact ⟨Nat.le_refl _, here, fun k less le => absurd less (Nat.not_lt.mpr le)⟩
      · intro first
        obtain ⟨le, -, least⟩ := first
        have same : before.length = j :=
          Nat.le_antisymm le (Nat.not_lt.mp (fun less => least _ less (Nat.le_refl _) here))
        exact congrArg some same
    · rename_i fresh
      have apart : ¬ RepeatsAt (before ++ text :: rest) before.length :=
        fun here => fresh ((known text).mpr (repeatsHere.mp here))
      have known' : ∀ t, t ∈ text :: seen ↔ t ∈ before ++ [text] := by
        intro t
        rw [List.mem_cons, List.mem_append, List.mem_singleton, known, or_comm]
      have later := ih known'
      rw [List.length_append, List.length_singleton, List.append_assoc, List.singleton_append] at later
      rw [later]
      apply Iff.intro
      · intro first
        obtain ⟨le, here, least⟩ := first
        have still : ∀ k < j, before.length ≤ k → ¬ RepeatsAt (before ++ text :: rest) k := by
          intro k less le'
          rcases Nat.eq_or_lt_of_le le' with same | beyond
          · exact same ▸ apart
          · exact least k less beyond
        exact ⟨by omega, here, still⟩
      · intro first
        obtain ⟨le, here, least⟩ := first
        have beyond : before.length ≠ j := fun same => apart (same ▸ here)
        exact ⟨by omega, here, fun k less le' => least k less (by omega)⟩

theorem firstRepeatNone {seen texts : List String} {start : Nat} :
    firstRepeat? seen texts start = none ↔ texts.Nodup ∧ ∀ text ∈ texts, text ∉ seen := by
  induction texts generalizing seen start with
  | nil => simp [firstRepeat?]
  | cons text rest ih =>
    rw [firstRepeat?]
    split
    · rename_i again
      exact iff_of_false nofun (fun fresh => fresh.2 text List.mem_cons_self again)
    · rename_i fresh
      rw [ih, List.nodup_cons, List.forall_mem_cons]
      simp only [List.mem_cons, not_or]
      apply Iff.intro
      · intro later
        obtain ⟨distinct, apart⟩ := later
        exact ⟨⟨fun mem => (apart text mem).1 rfl, distinct⟩, fresh, fun t mem => (apart t mem).2⟩
      · intro later
        obtain ⟨⟨first, distinct⟩, -, apart⟩ := later
        exact ⟨distinct, fun t mem => ⟨fun same => first (same ▸ mem), apart t mem⟩⟩

theorem repeatedNone {items : List Json} : repeatedItem? items = none ↔ (items.map Json.render).Nodup := by
  rw [repeatedItem?, Option.map_eq_none_iff, firstRepeatNone]
  exact and_iff_left (fun _ _ => List.not_mem_nil)

theorem repeatedFirst {items : List Json} {issue : Issue} : repeatedItem? items = some issue ↔
    ∃ j, RepeatsAt (items.map Json.render) j ∧ (∀ k < j, ¬ RepeatsAt (items.map Json.render) k) ∧
      issue = ⟨[.index j], .custom, "Duplicate items are not allowed."⟩ := by
  have found := @firstRepeatFinds [] [] (items.map Json.render) (fun _ => Iff.rfl)
  rw [repeatedItem?, Option.map_eq_some_iff]
  apply Iff.intro
  · intro reported
    obtain ⟨j, first, rfl⟩ := reported
    obtain ⟨-, here, least⟩ := (found j).mp first
    exact ⟨j, here, fun k less => least k less (Nat.zero_le k), rfl⟩
  · intro repeated
    obtain ⟨j, here, least, rfl⟩ := repeated
    exact ⟨j, (found j).mpr ⟨Nat.zero_le j, here, fun k less _ => least k less⟩, rfl⟩

theorem repeatsExactly (items : List Json) :
    (repeatedItem? items = none ↔ (items.map Json.render).Nodup) ∧
    (∀ issue, repeatedItem? items = some issue ↔
      ∃ j, RepeatsAt (items.map Json.render) j ∧ (∀ k < j, ¬ RepeatsAt (items.map Json.render) k) ∧
        issue = ⟨[.index j], .custom, "Duplicate items are not allowed."⟩) ∧
    (∀ a b : Json, a.Floatless → b.Floatless → (a.render = b.render ↔ a = b)) ∧
    ((∀ item ∈ items, item.Floatless) → (repeatedItem? items = none ↔ items.Nodup)) := by
  have differ (floatless : ∀ item ∈ items, item.Floatless) : repeatedItem? items = none ↔ items.Nodup := by
    rw [repeatedNone, List.Nodup, List.pairwise_map]
    exact List.Pairwise.iff_of_mem
      (fun here there => not_congr (Json.renderSame (floatless _ here) (floatless _ there)))
  exact ⟨repeatedNone, fun _ => repeatedFirst, fun _ _ => Json.renderSame, differ⟩

def lookalikes : List Json :=
  [.string "1", .number (.whole 1), .string "\n", .string "\\n", .array [.string "a\",\"b"],
    .array [.string "a", .string "b"], .object [("a", .number (.whole 1)), ("b", .null)],
    .object [("b", .null), ("a", .number (.whole 1))], .array [.array []], .array []]

theorem lookalikesDiffer : (∀ item ∈ lookalikes, item.Floatless) ∧ lookalikes.Nodup ∧
    repeatedItem? lookalikes = none := by
  have floatless : ∀ item ∈ lookalikes, item.Floatless := by
    simp [lookalikes, Json.Floatless, Json.FloatlessItems, Json.FloatlessMembers]
  have distinct : lookalikes.Nodup := by simp [lookalikes]
  exact ⟨floatless, distinct, ((repeatsExactly lookalikes).2.2.2 floatless).mpr distinct⟩

end Issue
end ShapeContracts
