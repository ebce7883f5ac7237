import Mathlib.Data.List.Forall2
import ShapeContracts.Json
import ShapeContracts.Sorted
import ShapeContracts.Text.Order

/-! Entries by name. A list without repeated names is a finite map: membership and lookup agree,
reordering does not show, and putting a name changes that name alone; sorted by name it rises. -/
namespace ShapeContracts.Entries

theorem paired {R : α → β → Prop} {xs : List α} {ys : List β} (each : List.Forall₂ R xs ys) {x : α}
    (mem : x ∈ xs) : ∃ y ∈ ys, R x y := by
  obtain ⟨i, inside, rfl⟩ := List.getElem_of_mem mem
  have within : i < ys.length := each.length_eq ▸ inside
  exact ⟨ys[i], List.getElem_mem within, each.get inside within⟩

theorem memOfLookup {l : List (String × α)} {name : String} {a : α}
    (found : l.lookup name = some a) : (name, a) ∈ l := by
  obtain ⟨before, after, rfl, _⟩ := List.lookup_eq_some_iff.mp found
  simp

theorem lookupOfMem {l : List (String × α)} {name : String} {a : α}
    (distinct : (l.map Prod.fst).Nodup) (mem : (name, a) ∈ l) : l.lookup name = some a := by
  obtain ⟨before, after, rfl⟩ := List.append_of_mem mem
  refine List.lookup_eq_some_iff.mpr ⟨before, after, rfl, fun e he => ?_⟩
  have apart : e.1 ≠ name := by
    intro same
    simp only [List.map_append, List.map_cons, List.nodup_append] at distinct
    exact distinct.2.2 e.1 (List.mem_map_of_mem he) name List.mem_cons_self same
  simpa using fun h => apart h.symm

theorem lookupIff {l : List (String × α)} {name : String} {a : α}
    (distinct : (l.map Prod.fst).Nodup) : l.lookup name = some a ↔ (name, a) ∈ l :=
  ⟨memOfLookup, lookupOfMem distinct⟩

theorem lookupSome {l : List (String × α)} {name : String} :
    (∃ a, l.lookup name = some a) ↔ name ∈ l.map Prod.fst := by
  rw [← Option.isSome_iff_exists, List.lookup_isSome_iff]
  simp only [List.mem_map, beq_iff_eq]
  exact ⟨fun ⟨e, he, same⟩ => ⟨e, he, same.symm⟩, fun ⟨e, he, same⟩ => ⟨e, he, same.symm⟩⟩

theorem lookupNone {l : List (String × α)} {name : String} :
    l.lookup name = none ↔ name ∉ l.map Prod.fst := by
  rw [← lookupSome]
  cases l.lookup name <;> simp

theorem lookupPerm {l l' : List (String × α)} (perm : l.Perm l')
    (distinct : (l.map Prod.fst).Nodup) (name : String) : l'.lookup name = l.lookup name := by
  have distinct' := (perm.map Prod.fst).nodup_iff.mp distinct
  ext a
  rw [lookupIff distinct, lookupIff distinct', perm.mem_iff]

theorem lookupCons (name key : String) (a : α) (rest : List (String × α)) :
    ((name, a) :: rest).lookup key = if key = name then some a else rest.lookup key := by
  rw [List.lookup_cons]
  by_cases same : key = name
  · simp [same]
  · rw [if_neg same, beq_eq_false_iff_ne.mpr same]

theorem lookupMap (f : α → β) (l : List (String × α)) (key : String) :
    (l.map (fun e => (e.1, f e.2))).lookup key = (l.lookup key).map f := by
  induction l with
  | nil => rfl
  | cons e rest ih =>
    obtain ⟨name, a⟩ := e
    rw [List.map_cons, lookupCons, lookupCons, ih]
    split <;> rfl

theorem lookupFilter (kept : String → Bool) (l : List (String × α)) (key : String) :
    (l.filter (fun e => kept e.1)).lookup key = if kept key then l.lookup key else none := by
  induction l with
  | nil => simp
  | cons e rest ih =>
    obtain ⟨name, a⟩ := e
    rw [List.filter_cons]
    split
    · rename_i here
      rw [lookupCons, lookupCons, ih]
      split
      · rename_i same
        rw [same, if_pos here]
      · rfl
    · rename_i dropped
      rw [ih, lookupCons]
      split
      · rename_i listed
        have apart : key ≠ name := fun same => dropped (same ▸ listed)
        rw [if_neg apart]
      · rfl

theorem mapSame {f : α → α} {l : List (String × α)} (each : ∀ e ∈ l, f e.2 = e.2) :
    l.map (fun e => (e.1, f e.2)) = l := by
  refine (List.map_congr_left (fun e mem => ?_)).trans l.map_id
  rw [each e mem]
  rfl

theorem lookupPut (l : List (String × α)) (name key : String) (a : α) :
    (Json.put name a l).lookup key = if key = name then some a else l.lookup key := by
  induction l with
  | nil => exact lookupCons name key a []
  | cons e rest ih =>
    obtain ⟨n, b⟩ := e
    rw [Json.put]
    split
    · rename_i same
      subst same
      simp only [lookupCons]
      split <;> rfl
    · rename_i other
      simp only [lookupCons, ih]
      split
      · rename_i here
        rw [if_neg (fun same => other (here.symm.trans same))]
      · rfl

theorem putNew {l : List (String × α)} {name : String} (fresh : name ∉ l.map Prod.fst) (a : α) :
    Json.put name a l = l ++ [(name, a)] := by
  induction l with
  | nil => rfl
  | cons e rest ih =>
    obtain ⟨n, b⟩ := e
    have apart : n ≠ name := fun same => fresh (by simp [same])
    rw [Json.put, if_neg apart, ih (fun h => fresh (List.mem_cons_of_mem _ h)), List.cons_append]

theorem sortedSame {l l' : List (String × α)} (distinct : (l.map Prod.fst).Nodup)
    (distinct' : (l'.map Prod.fst).Nodup) (same : ∀ name, l.lookup name = l'.lookup name) :
    sortedBy (fun a b => Text.le a.1 b.1) l = sortedBy (fun a b => Text.le a.1 b.1) l' := by
  -- without repeated names nothing ties, so that what is found under each name gives the sorted list
  have whole {l : List (String × α)} (distinct : (l.map Prod.fst).Nodup) : l.Nodup :=
    List.Pairwise.of_map Prod.fst (fun _ _ apart same => apart (congrArg _ same)) distinct
  have perm : l.Perm l' := by
    refine (List.perm_ext_iff_of_nodup (whole distinct) (whole distinct')).mpr ?_
    rintro ⟨name, a⟩
    rw [← lookupIff distinct, ← lookupIff distinct', same]
  have sorted := @sortedByPairwise (String × α) (fun a b => Text.le a.1 b.1)
    (fun a b c => Text.leTrans a.1 b.1 c.1) (fun a b => Text.leTotal a.1 b.1)
  refine List.Perm.eq_of_pairwise ?_ (sorted l) (sorted l')
    ((sortedByPerm _ l).trans (perm.trans (sortedByPerm _ l').symm))
  rintro ⟨name, a⟩ ⟨name', b⟩ left right before after
  obtain rfl : name = name' := Text.leAntisymm before after
  have here := lookupOfMem distinct (memSortedBy.mp left)
  have there := lookupOfMem distinct' (memSortedBy.mp right)
  rw [Option.some.inj (here.symm.trans ((same name).trans there))]

theorem eraseDupsDistinct [BEq α] [LawfulBEq α] (items : List α) : items.eraseDups.Nodup := by
  induction size : items.length using Nat.strongRecOn generalizing items with
  | ind n ih =>
    cases items with
    | nil => simp
    | cons item rest =>
      have shorter : (rest.filter (fun other => !other == item)).length < n := by
        rw [← size]
        exact Nat.lt_succ_of_le (List.length_filter_le _ _)
      rw [List.eraseDups_cons, List.nodup_cons]
      exact ⟨by simp [List.mem_eraseDups], ih _ shorter _ rfl⟩

theorem sortedRises (key : α → String) {l : List α} (distinct : (l.map key).Nodup) :
    (sortedBy (fun a b => Text.le (key a) (key b)) l).Pairwise (fun a b => Text.lt (key a) (key b) = true) := by
  have apart : (sortedBy (fun a b => Text.le (key a) (key b)) l).Pairwise (fun a b => key a ≠ key b) :=
    List.pairwise_map.mp (((sortedByPerm _ l).map key).nodup_iff.mpr distinct)
  have ordered := @sortedByPairwise α (fun a b => Text.le (key a) (key b))
    (fun a b c => Text.leTrans (key a) (key b) (key c)) (fun a b => Text.leTotal (key a) (key b)) l
  refine (ordered.and apart).imp ?_
  rintro a b ⟨before, other⟩
  cases back : Text.le (key b) (key a) with
  | false => rw [Text.lt, back, Bool.not_false]
  | true => exact absurd (Text.leAntisymm before back) other

theorem settleNamesOf {l : List (String × α)} (distinct : (l.map Prod.fst).Nodup) :
    Json.settleNames l = l := by
  suffices h : ∀ kept : List (String × α), ((kept ++ l).map Prod.fst).Nodup →
      l.foldl (fun kept m => Json.put m.1 m.2 kept) kept = kept ++ l from by
    simpa [Json.settleNames] using h [] (by simpa using distinct)
  clear distinct
  induction l with
  | nil => simp
  | cons e rest ih =>
    intro kept distinct
    have fresh : e.1 ∉ kept.map Prod.fst := by
      intro mem
      simp only [List.map_append, List.map_cons, List.nodup_append] at distinct
      exact distinct.2.2 _ mem _ List.mem_cons_self rfl
    rw [List.foldl_cons, putNew fresh, ih _ (by simpa using distinct)]
    simp

theorem settledLookup (l : List (String × α)) (key : String) :
    (Json.settleNames l).lookup key = l.reverse.lookup key := by
  suffices h : ∀ kept : List (String × α), (l.foldl (fun kept m => Json.put m.1 m.2 kept) kept).lookup key =
      (l.reverse.lookup key).or (kept.lookup key) from by
    simpa [Json.settleNames] using h []
  induction l with
  | nil => simp
  | cons e rest ih =>
    intro kept
    obtain ⟨name, a⟩ := e
    rw [List.foldl_cons, ih, List.reverse_cons, List.lookup_append, lookupPut, lookupCons, Option.or_assoc]
    split <;> rfl

theorem joinedFrom {separator : List α} {parts : List (List α)} {a : α} (mem : a ∈ separator.intercalate parts) :
    a ∈ separator ∨ ∃ part ∈ parts, a ∈ part := by
  induction parts with
  | nil => simp [List.intercalate] at mem
  | cons first rest ih =>
    cases rest with
    | nil => exact .inr ⟨first, List.mem_cons_self, by simpa [List.intercalate] using mem⟩
    | cons next rest =>
      rw [List.intercalate_cons_cons] at mem
      rcases List.mem_append.mp mem with mem | mem
      · rcases List.mem_append.mp mem with mem | mem
        · exact .inr ⟨first, List.mem_cons_self, mem⟩
        · exact .inl mem
      · rcases ih mem with mem | ⟨part, listed, inside⟩
        · exact .inl mem
        · exact .inr ⟨part, List.mem_cons_of_mem _ listed, inside⟩

end ShapeContracts.Entries
