import ApiModels.Proofs.Document.References

namespace ApiModels
namespace Document
variable {document : Document} {s next target : Schema} {count : Nat}

def Forwards (document : Document) (s next : Schema) : Prop :=
  ∃ name, s.refName? = some name ∧ document.get? name = some next ∧ next.hasStructure = false

def Rests (document : Document) (s : Schema) : Prop :=
  ∀ name, s.refName? = some name → ∃ own, document.get? name = some own ∧ own.hasStructure

inductive Leads (document : Document) : Nat → Schema → Schema → Prop where
  | rest {s : Schema} : document.Rests s → Leads document 0 s s
  | onward {s next target : Schema} {count : Nat} : document.Forwards s next → Leads document count next target →
      Leads document (count + 1) s target

theorem Rests.not_forwards (rests : document.Rests s) : ¬ document.Forwards s next := by
  intro ⟨name, refers, found, bare⟩
  obtain ⟨own, held, structured⟩ := rests name refers
  cases found.symm.trans held
  exact absurd structured (by simp [bare])

theorem Forwards.unique {other : Schema} (one : document.Forwards s next) (two : document.Forwards s other) :
    next = other := by
  obtain ⟨name, refers, found, -⟩ := one
  obtain ⟨name', refers', found', -⟩ := two
  cases refers.symm.trans refers'
  exact Option.some.inj (found.symm.trans found')

theorem Leads.rests (leads : document.Leads count s target) : document.Rests target := by
  induction leads with
  | rest rests => exact rests
  | onward _ _ ih => exact ih

end Document
end ApiModels
