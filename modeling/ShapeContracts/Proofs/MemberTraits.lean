import ShapeContracts.Contracts
import ShapeContracts.Proofs.Entries

/-! Members that are expanded with their shape: the items of a list, the keys and values of a map, the
alternatives of a union. Of such a member nothing but its target is read, so a run ends alike whatever traits
these members have. -/
namespace ShapeContracts

def Member.stripped (member : Member) : Member := ⟨member.target, .empty⟩

namespace Shape

/-- The shape without the traits of the members that are expanded with it. -/
def stripped : Shape → Shape
  | list member traits => list member.stripped traits
  | map key value traits => map key.stripped value.stripped traits
  | union members traits => union (members.map (fun e => (e.1, e.2.stripped))) traits
  | shape => shape

variable (s : Shape)

@[simp]
theorem strippedError : s.stripped.isError = s.isError := by cases s <;> rfl

@[simp]
theorem strippedNames : s.stripped.memberNames = s.memberNames := by
  cases s <;> simp [stripped, memberNames]

end Shape

namespace Model

def stripped (m : Model) : Model where
  version := m.version
  shapes := m.shapes.map (fun e => (e.1, e.2.stripped))
  metadata := m.metadata
  distinct := by simpa [Function.comp_def] using m.distinct
  membersDistinct := List.forall_mem_map.mpr (fun e listed => by simpa using m.membersDistinct e listed)

variable (m : Model)

end Model

/-! The discovery of the shapes. -/

namespace SymbolTable

end SymbolTable

namespace Scope

def stripped (scope : Scope) : Scope := ⟨scope.model.stripped, scope.symbols, scope.settings⟩

variable (scope : Scope) (source : FileKey)

end Scope

/-! The shapes, one by one. -/

variable (scope : Scope) (id : String)

def Job.stripped (job : Job) : Job := ⟨job.model.stripped, job.settings⟩

namespace Run

variable (r : Run) (job : Job)

end Run

end ShapeContracts
