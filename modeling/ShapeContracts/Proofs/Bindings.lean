import Mathlib.Data.List.Nodup
import Mathlib.Data.List.Perm.Subperm
import ShapeContracts.Fragment.Bindings

/-! Bindings of one file while its imports grow. A new binding is never taken, a binding once given
is kept, and so two imports never share one and none hides a declaration of the file. -/
namespace ShapeContracts.Fragment.Bindings

def candidate (base : String) (n : Nat) : String := if n < 2 then base else base ++ toString n

theorem candidateInjective {base : String} {m n : Nat} (hm : 0 < m) (hn : 0 < n)
    (same : candidate base m = candidate base n) : m = n := by
  have numbered : ∀ k : Nat, base ++ toString k ≠ base := by
    intro k h
    have empty : toString k = "" := by simpa using congrArg String.toList h
    exact Nat.repr_ne_empty empty
  unfold candidate at same
  split at same <;> split at same
  · omega
  · exact absurd same.symm (numbered n)
  · exact absurd same (numbered m)
  · have digits : Nat.toDigits 10 m = Nat.toDigits 10 n := by simpa using congrArg String.toList same
    have read := congrArg (fun cs => Nat.ofDigitChars 10 cs 0) digits
    simpa only [Nat.ofDigitChars_ten_toDigits] using read

theorem freeNameTaken {taken : List String} {base : String} {fuel n : Nat} (numbered : 2 ≤ n + fuel)
    (found : freeName taken base fuel n ∈ taken) {k : Nat} (low : n ≤ k) (high : k ≤ n + fuel) :
    candidate base k ∈ taken := by
  induction fuel generalizing n with
  | zero =>
    have same : k = n := by omega
    have late : ¬ n < 2 := by omega
    rw [same, candidate, if_neg late]
    exact found
  | succ fuel ih =>
    have here : candidate base n ∈ taken := by
      by_contra free
      rw [freeName] at found
      change (if candidate base n ∈ taken then _ else candidate base n) ∈ taken at found
      rw [if_neg free] at found
      exact free found
    by_cases first : k = n
    · rw [first]
      exact here
    · rw [freeName] at found
      change (if candidate base n ∈ taken then _ else candidate base n) ∈ taken at found
      rw [if_pos here] at found
      exact ih (by omega) found (by omega) (by omega)

theorem freeNameFree {taken : List String} (base : String) (some : taken ≠ []) :
    freeName taken base taken.length 1 ∉ taken := by
  -- one candidate more than there are names taken: they cannot all be taken
  intro found
  have long : 0 < taken.length := List.length_pos_iff.mpr some
  have inside : (List.range' 1 (taken.length + 1)).map (candidate base) ⊆ taken := by
    intro name mem
    obtain ⟨k, range, rfl⟩ := List.mem_map.mp mem
    have bounds := List.mem_range'_1.mp range
    exact freeNameTaken (by omega) found bounds.1 (by omega)
  have distinct : ((List.range' 1 (taken.length + 1)).map (candidate base)).Nodup := by
    refine List.Nodup.map_on ?_ List.nodup_range'
    intro m hm n hn same
    have pm := (List.mem_range'_1.mp hm).1
    have pn := (List.mem_range'_1.mp hn).1
    exact candidateInjective pm pn same
  have short := (List.subperm_of_subset distinct inside).length_le
  simp only [List.length_map, List.length_range'] at short
  omega

theorem freshFree (b : Bindings) (name module : String) : b.fresh name module ∉ b.taken := by
  unfold fresh
  split
  · rename_i there
    exact freeNameFree _ (List.ne_nil_of_mem there)
  · assumption

structure Sound (b : Bindings) : Prop where
  distinct : (b.imports.map Import.binding).Nodup
  apart : ∀ i ∈ b.imports, i.binding ∉ b.declared
  once : ∀ i ∈ b.imports, ∀ j ∈ b.imports, i.module = j.module → i.name = j.name → i = j

structure Grows (b later : Bindings) : Prop where
  kept : ∀ i ∈ b.imports, i ∈ later.imports
  declared : later.declared = b.declared

theorem growsRefl (b : Bindings) : b.Grows b := ⟨fun _ mem => mem, rfl⟩

theorem growsTrans {a b c : Bindings} (first : a.Grows b) (second : b.Grows c) : a.Grows c :=
  ⟨fun i mem => second.kept i (first.kept i mem), second.declared.trans first.declared⟩

theorem emptySound (names : List String) : (ofDeclared names).Sound := by
  constructor <;> simp [ofDeclared]

variable {b : Bindings} {name module : String}

theorem findSome {i : Import} (found : b.find? name module = some i) :
    i ∈ b.imports ∧ i.module = module ∧ i.name = name := by
  unfold find? at found
  have fits := List.find?_some found
  simp only [Bool.and_eq_true, beq_iff_eq] at fits
  exact ⟨List.mem_of_find?_eq_some found, fits⟩

theorem findNone (absent : b.find? name module = none) {i : Import} (mem : i ∈ b.imports) :
    ¬ (i.module = module ∧ i.name = name) := by
  unfold find? at absent
  simpa using List.find?_eq_none.mp absent i mem

theorem bindGrows : b.Grows (b.bind name module).2 := by
  unfold bind
  split
  · exact growsRefl b
  · exact ⟨fun i mem => List.mem_append_left _ mem, rfl⟩

theorem bindMem : ⟨module, name, (b.bind name module).1⟩ ∈ (b.bind name module).2.imports := by
  unfold bind
  split
  · rename_i i found
    obtain ⟨mem, rfl, rfl⟩ := findSome found
    exact mem
  · simp

theorem bindSound (sound : b.Sound) : (b.bind name module).2.Sound := by
  unfold bind
  split
  · exact sound
  rename_i absent
  have free : b.fresh name module ∉ b.declared ++ b.imports.map Import.binding := freshFree b name module
  obtain ⟨undeclared, unbound⟩ := not_or.mp (fun h => free (List.mem_append.mpr h))
  constructor
  · simp only [List.map_append, List.map_cons, List.map_nil]
    refine List.nodup_append.mpr ⟨sound.distinct, List.nodup_singleton _, ?_⟩
    intro x mem y here same
    rw [List.mem_singleton.mp here] at same
    exact unbound (same ▸ mem)
  · intro i mem
    rcases List.mem_append.mp mem with old | new
    · exact sound.apart i old
    · rw [List.mem_singleton.mp new]
      exact undeclared
  · intro i hi j hj modules names
    have other := fun {k : Import} mem => findNone (i := k) absent mem
    rcases List.mem_append.mp hi with hi | hi <;> rcases List.mem_append.mp hj with hj | hj
    · exact sound.once i hi j hj modules names
    · rw [List.mem_singleton.mp hj] at modules names
      exact absurd ⟨modules, names⟩ (other hi)
    · rw [List.mem_singleton.mp hi] at modules names
      exact absurd ⟨modules.symm, names.symm⟩ (other hj)
    · rw [List.mem_singleton.mp hi, List.mem_singleton.mp hj]

theorem bindingOwner (sound : b.Sound) {i j : Import} (hi : i ∈ b.imports) (hj : j ∈ b.imports)
    (same : i.binding = j.binding) : i = j :=
  List.inj_on_of_nodup_map sound.distinct hi hj same

def Imports (b : Bindings) (module name binding : String) : Prop :=
  module ∈ b.modules ∧ ⟨module, name, binding⟩ ∈ b.ofModule module

theorem importsMem {binding : String} :
    b.Imports module name binding ↔ ⟨module, name, binding⟩ ∈ b.imports := by
  unfold Imports modules ofModule
  simp only [memSortedBy, List.mem_eraseDups, List.mem_map, List.mem_filter, beq_self_eq_true, and_true]
  constructor
  · exact fun h => h.2
  · exact fun mem => ⟨⟨_, mem, rfl⟩, mem⟩

end ShapeContracts.Fragment.Bindings
