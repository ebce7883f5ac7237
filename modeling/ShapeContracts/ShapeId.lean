/-!
Absolute shape identifiers, a namespace and a local name around the first `#`, and the shapes of
the prelude that need no definition in a model.
-/
namespace ShapeContracts

structure ShapeId where
  space : String
  name : String
  deriving DecidableEq, Repr

namespace ShapeId

def ofString? (id : String) : Option ShapeId :=
  match id.toList.dropWhile (· ≠ '#') with
  | [] => none
  | _ :: name => some ⟨String.ofList (id.toList.takeWhile (· ≠ '#')), String.ofList name⟩

def toString (id : ShapeId) : String := id.space ++ "#" ++ id.name

def preludeSpace : String := "smithy.api"

def isPrelude (id : ShapeId) : Bool := id.space == preludeSpace

theorem ofStringDefined (id : String) : (ofString? id).isSome ↔ '#' ∈ id.toList := by
  unfold ofString?
  generalize id.toList = cs
  induction cs with
  | nil => simp
  | cons c rest ih =>
    by_cases h : c = '#'
    · subst h; simp
    · have hn : ('#' : Char) ≠ c := fun e => h e.symm
      simp only [List.dropWhile, h, ne_eq, not_false_eq_true, decide_true, List.mem_cons, hn,
        false_or]
      rw [← ih]
      cases rest.dropWhile (fun x => decide (x ≠ '#')) <;> simp_all

end ShapeId

inductive Builtin where
  | string
  | boolean
  | integer
  | long
  | blob
  | timestamp
  | document
  | unit
  deriving DecidableEq, Repr

namespace Builtin

def id : Builtin → String
  | string => "smithy.api#String"
  | boolean => "smithy.api#Boolean"
  | integer => "smithy.api#Integer"
  | long => "smithy.api#Long"
  | blob => "smithy.api#Blob"
  | timestamp => "smithy.api#Timestamp"
  | document => "smithy.api#Document"
  | unit => "smithy.api#Unit"

def all : List Builtin := [string, boolean, integer, long, blob, timestamp, document, unit]

def ofId? (id : String) : Option Builtin := all.find? (fun b => b.id == id)

theorem idRead (b : Builtin) : ofId? b.id = some b := by
  cases b <;> decide

theorem ofIdSome {id : String} {b : Builtin} (h : ofId? id = some b) : id = b.id := by
  have := List.find?_some h
  simpa using (beq_iff_eq.1 this).symm

end Builtin
end ShapeContracts
