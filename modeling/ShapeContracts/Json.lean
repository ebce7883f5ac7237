import ShapeContracts.Binary64

/-!
JSON values in document order. A whole number within 64 bits is kept exactly; every other number
is a binary64. `Json.Settled` says that no object repeats a member name, and `settle` reaches such
a value: the last value of a name stands at its first place.
-/
namespace ShapeContracts

inductive Number where
  | whole (n : Int)
  | float (x : Binary64)
  deriving DecidableEq

inductive Json where
  | null
  | bool (b : Bool)
  | number (n : Number)
  | string (s : String)
  | array (items : List Json)
  | object (members : List (String × Json))

namespace Number

def minWhole : Int := -9223372036854775808

def maxWhole : Int := 18446744073709551615

def Wide : Number → Prop
  | .whole n => minWhole ≤ n ∧ n ≤ maxWhole
  | .float _ => True

def toFloat? : Number → Option Binary64
  | .whole n => Binary64.ofInt? n
  | .float x => some x

def ofInt? (n : Int) : Option Number :=
  if minWhole ≤ n ∧ n ≤ maxWhole then some (.whole n) else (Binary64.ofInt? n).map .float

end Number

namespace Json

instance : Inhabited Json := ⟨.null⟩

def ofNat (n : Nat) : Json := .number (.whole n)

def string? : Json → Option String
  | .string s => some s
  | _ => none

def bool? : Json → Option Bool
  | .bool b => some b
  | _ => none

def array? : Json → Option (List Json)
  | .array items => some items
  | _ => none

def object? : Json → Option (List (String × Json))
  | .object members => some members
  | _ => none

def whole? : Json → Option Int
  | .number (.whole n) => some n
  | _ => none

def natural? (j : Json) : Option Nat :=
  match j.whole? with
  | some (.ofNat n) => some n
  | _ => none

def float? : Json → Option Binary64
  | .number n => n.toFloat?
  | _ => none

def get? (name : String) : Json → Option Json
  | .object members => members.lookup name
  | _ => none

def put (name : String) (value : α) : List (String × α) → List (String × α)
  | [] => [(name, value)]
  | (n, v) :: rest => if n = name then (n, value) :: rest else (n, v) :: put name value rest

def settleNames (members : List (String × α)) : List (String × α) :=
  members.foldl (fun kept member => put member.1 member.2 kept) []

mutual

def settle : Json → Json
  | .array items => .array (settleItems items)
  | .object members => .object (settleNames (settleMembers members))
  | other => other

def settleItems : List Json → List Json
  | [] => []
  | item :: rest => settle item :: settleItems rest

def settleMembers : List (String × Json) → List (String × Json)
  | [] => []
  | (name, value) :: rest => (name, settle value) :: settleMembers rest

end

mutual

/-- No object inside the value repeats a name, and every whole number is within 64 bits. -/
def Settled : Json → Prop
  | .number n => n.Wide
  | .array items => SettledItems items
  | .object members => (members.map Prod.fst).Nodup ∧ SettledMembers members
  | _ => True

def SettledItems : List Json → Prop
  | [] => True
  | item :: rest => Settled item ∧ SettledItems rest

def SettledMembers : List (String × Json) → Prop
  | [] => True
  | (_, value) :: rest => Settled value ∧ SettledMembers rest

end

mutual

def depth : Json → Nat
  | .array items => depthItems items + 1
  | .object members => depthMembers members + 1
  | _ => 0

def depthItems : List Json → Nat
  | [] => 0
  | item :: rest => max (depth item) (depthItems rest)

def depthMembers : List (String × Json) → Nat
  | [] => 0
  | (_, value) :: rest => max (depth value) (depthMembers rest)

end

theorem memPut {name : String} {value : α} {l : List (String × α)} {e : String × α}
    (h : e ∈ put name value l) : e = (name, value) ∨ e ∈ l := by
  induction l with
  | nil => simpa [put] using h
  | cons m rest ih =>
    obtain ⟨n, v⟩ := m
    rw [put] at h
    split at h
    · rcases List.mem_cons.1 h with rfl | h
      · rename_i hn
        exact .inl (by rw [hn])
      · exact .inr (List.mem_cons_of_mem _ h)
    · rcases List.mem_cons.1 h with rfl | h
      · exact .inr List.mem_cons_self
      · exact (ih h).imp_right (List.mem_cons_of_mem _)

theorem putDistinct {name : String} {value : α} {l : List (String × α)}
    (h : (l.map Prod.fst).Nodup) : ((put name value l).map Prod.fst).Nodup := by
  induction l with
  | nil => simp [put]
  | cons m rest ih =>
    obtain ⟨n, v⟩ := m
    obtain ⟨hn, hrest⟩ := List.nodup_cons.1 h
    rw [put]
    split
    · exact List.nodup_cons.2 ⟨hn, hrest⟩
    · refine List.nodup_cons.2 ⟨fun hm => ?_, ih hrest⟩
      obtain ⟨e, he, heq⟩ := List.mem_map.1 hm
      rcases memPut he with rfl | he
      · rename_i hne
        exact hne heq.symm
      · exact hn (List.mem_map.2 ⟨e, he, heq⟩)

theorem settleNamesDistinct (members : List (String × α)) :
    ((settleNames members).map Prod.fst).Nodup := by
  suffices h : ∀ kept : List (String × α), (kept.map Prod.fst).Nodup →
      ((members.foldl (fun kept m => put m.1 m.2 kept) kept).map Prod.fst).Nodup from h [] .nil
  induction members with
  | nil => exact fun _ h => h
  | cons m rest ih => exact fun kept h => ih _ (putDistinct h)

theorem memSettleNames {members : List (String × α)} {e : String × α}
    (h : e ∈ settleNames members) : e ∈ members := by
  suffices hk : ∀ kept : List (String × α),
      e ∈ members.foldl (fun kept m => put m.1 m.2 kept) kept → e ∈ kept ∨ e ∈ members from
    (hk [] h).resolve_left List.not_mem_nil
  clear h
  induction members with
  | nil => exact fun _ h => .inl h
  | cons m rest ih =>
    intro kept h
    rcases ih _ h with h | h
    · rcases memPut h with rfl | h
      · exact .inr List.mem_cons_self
      · exact .inl h
    · exact .inr (List.mem_cons_of_mem _ h)

@[simp] theorem settleItemsMap (items : List Json) : settleItems items = items.map settle := by
  induction items with
  | nil => rfl
  | cons item rest ih => simp [settleItems, ih]

@[simp] theorem settleMembersMap (members : List (String × Json)) :
    settleMembers members = members.map (fun m => (m.1, settle m.2)) := by
  induction members with
  | nil => rfl
  | cons m rest ih => simp [settleMembers, ih]

theorem settledItemsExact (items : List Json) : SettledItems items ↔ ∀ j ∈ items, Settled j := by
  induction items with
  | nil => simp [SettledItems]
  | cons item rest ih => simp [SettledItems, ih]

theorem settledMembersExact (members : List (String × Json)) :
    SettledMembers members ↔ ∀ m ∈ members, Settled m.2 := by
  induction members with
  | nil => simp [SettledMembers]
  | cons m rest ih => simp [SettledMembers, ih]

end Json
end ShapeContracts
