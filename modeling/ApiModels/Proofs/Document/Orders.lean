import ApiModels.Proofs.Document.Extensions
import ApiModels.Resolution.Levels

namespace ApiModels
namespace Document

def Reorders (one two : Document) : Prop := one.schemas.entries.Perm two.schemas.entries

def SameSchemas (one two : Document) : Prop := ∀ name, two.get? name = one.get? name

variable {one two : Document}

theorem Reorders.same (reorders : one.Reorders two) : one.SameSchemas two := by
  intro name
  ext s
  change two.schemas.get? name = some s ↔ one.schemas.get? name = some s
  rw [Table.get?_eq_some, Table.get?_eq_some]
  exact reorders.mem_iff.symm

namespace SameSchemas
variable (same : one.SameSchemas two)
include same

theorem symm : two.SameSchemas one := fun name => (same name).symm

theorem agrees : one.Agrees two [] := ⟨fun name _ => same name, fun _ s _ => .nil s⟩

theorem unalias (s : Schema) : two.unalias s = one.unalias s := same.agrees.unalias (.nil s)

theorem unfolding (mappings : TypeMappings) (met : List String) (s : Schema) :
    Unfolding.of two mappings met s = Unfolding.of one mappings met s := same.agrees.unfolding mappings met (.nil s)

theorem aliases (mappings : TypeMappings) (name : String) :
    (two.aliases mappings).get? name = (one.aliases mappings).get? name :=
  same.agrees.aliases mappings List.not_mem_nil

theorem isCyclic (name : String) :
    (Inheritance.ofDocument two).isCyclic name = (Inheritance.ofDocument one).isCyclic name :=
  same.agrees.isCyclic List.not_mem_nil

end SameSchemas
end Document
end ApiModels
