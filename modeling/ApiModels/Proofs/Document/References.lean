import Mathlib.Data.List.Chain
import ApiModels.Resolution.Levels

namespace ApiModels
namespace Schema

theorem isComposed_of_member {s member : Schema} (listed : member ∈ s.allOfMembers) : s.isComposed := by
  have some : s.allOfMembers ≠ [] := List.ne_nil_of_mem listed
  simp [isComposed, some]

theorem isComposed_of_arm {s arm : Schema} (listed : arm ∈ s.oneOfArms) : s.isComposed := by
  have some : s.oneOfArms ≠ [] := List.ne_nil_of_mem listed
  simp [isComposed, some]

end Schema

namespace Document

def RefersTo (document : Document) (name next : String) : Prop :=
  ∃ s, document.get? name = some s ∧ s.refName? = some next

-- References from name to name, the last of them a name that was passed before.
def Loop (document : Document) (chain : List String) : Prop :=
  chain.IsChain document.RefersTo ∧ ∃ passed last, chain = passed ++ [last] ∧ last ∈ passed

end Document

inductive RefIssue.Genuine (document : Document) : RefIssue → Prop where
  | missing {name : String} : name ∉ document.names → Genuine document (.missing name)
  | cycle {chain : List String} : document.Loop chain → Genuine document (.cycle chain)

namespace Document
variable {document : Document}

theorem follow_genuine {passed : List String} {s : Schema} {issue : RefIssue}
    (linked : passed.IsChain document.RefersTo)
    (inHand : ∀ last ∈ passed.getLast?, document.get? last = some s)
    (ended : follow document.schemas passed s = .error issue) : issue.Genuine document := by
  induction passed, s using follow.induct document.schemas with
  | case1 passed current refers =>
      rw [follow_eq, refers] at ended
      cases ended
  | case2 passed current name refers met =>
      rw [follow_eq] at ended
      simp only [refers, met, if_true, Except.error.injEq] at ended
      subst ended
      refine .cycle ⟨?_, passed, name, rfl, met⟩
      refine List.isChain_append.mpr ⟨linked, List.isChain_singleton _, ?_⟩
      intro last listed next single
      cases single
      exact ⟨current, inHand last listed, refers⟩
  | case3 passed current name refers fresh absent =>
      rw [follow_eq] at ended
      simp only [refers, fresh, absent, if_false, Except.error.injEq] at ended
      subst ended
      exact .missing (Table.get?_eq_none.mp absent)
  | case4 passed current name refers fresh next found structured =>
      rw [follow_eq] at ended
      simp [refers, fresh, found, structured] at ended
  | case5 passed current name refers fresh next found bare ih =>
      rw [follow_eq] at ended
      simp only [refers, fresh, found, bare, if_false] at ended
      refine ih ?_ ?_ ended
      · refine List.isChain_append.mpr ⟨linked, List.isChain_singleton _, ?_⟩
        intro last listed next single
        cases single
        exact ⟨current, inHand last listed, refers⟩
      · intro last listed
        rw [List.getLast?_append, List.getLast?_singleton] at listed
        cases listed
        exact found

-- References are followed to bare types only, so a schema that composes anything is the one that is written.
theorem unalias_composed {s target : Schema} (led : document.unalias s = .ok target) (composed : target.isComposed) :
    target = s := by
  rcases follow_origin led with same | ⟨-, bare⟩
  · exact same
  · simp [Schema.hasStructure, composed] at bare

theorem follow_known {passed : List String} {s target : Schema} {name : String}
    (led : follow document.schemas passed s = .ok target) (refers : target.refName? = some name) :
    name ∈ document.names := by
  induction passed, s using follow.induct document.schemas with
  | case1 passed current ends =>
      rw [follow_eq, ends] at led
      cases led
      cases ends.symm.trans refers
  | case2 passed current other onward met =>
      rw [follow_eq] at led
      simp [onward, met] at led
  | case3 passed current other onward fresh absent =>
      rw [follow_eq] at led
      simp [onward, fresh, absent] at led
  | case4 passed current other onward fresh next found structured =>
      rw [follow_eq] at led
      simp only [onward, fresh, found, structured, if_false, if_true, Except.ok.injEq] at led
      subst led
      cases onward.symm.trans refers
      exact Table.mem_names_of_get? found
  | case5 passed current other onward fresh next found bare ih =>
      rw [follow_eq] at led
      simp only [onward, fresh, found, bare, if_false] at led
      exact ih led

theorem unalias_known {s target : Schema} {name : String} (led : document.unalias s = .ok target)
    (refers : target.refName? = some name) : name ∈ document.names := follow_known led refers

theorem unalias_genuine {s : Schema} {issue : RefIssue} (ended : document.unalias s = .error issue) :
    issue.Genuine document :=
  follow_genuine List.isChain_nil (by simp) ended

end Document

theorem Unfolding.of_genuine {document : Document} {mappings : TypeMappings} {met : List String} {s : Schema}
    {issue : RefIssue} (ended : Unfolding.of document mappings met s = .error issue) : issue.Genuine document := by
  fun_induction Unfolding.of document mappings met s with
  | case3 met s refers kind container inner holds ih =>
      cases below : Unfolding.of document mappings met inner with
      | ok unfolding => simp [below, Except.map] at ended
      | error other =>
          simp only [below, Except.map, Except.error.injEq] at ended
          exact ih (ended ▸ below)
  | case5 met s name refers fresh other followed =>
      cases ended
      exact Document.unalias_genuine followed
  | case9 met s name refers fresh target followed ends kind container inner within ih =>
      cases below : Unfolding.of document mappings (met ++ [name]) inner with
      | ok unfolding => simp [below, Except.map] at ended
      | error other =>
          simp only [below, Except.map, Except.error.injEq] at ended
          exact ih (ended ▸ below)
  | _ => cases ended

end ApiModels
