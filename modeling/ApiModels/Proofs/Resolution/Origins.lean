import ApiModels.Proofs.Resolution.Sequence

namespace ApiModels
namespace Drafting

theorem toList_repr (index : Nat) : (Nat.repr index).toList = Nat.toDigits 10 index := by
  rw [Nat.repr_eq_ofList_toDigits, String.toList_ofList]

-- The digits at the end of the name of an arm are its position.
theorem takeWhile_armName (parent : String) (index : Nat) :
    (armName parent index).toList.reverse.takeWhile Char.isDigit = (Nat.toDigits 10 index).reverse := by
  have split : (armName parent index).toList.reverse =
      (Nat.toDigits 10 index).reverse ++ 'f' :: ['O', 'e', 'n', 'O'] ++ parent.toList.reverse := by
    simp [armName, String.toList_append]
  rw [split, List.append_assoc, List.takeWhile_append_of_pos]
  · simp
  · intro c listed
    exact Nat.isDigit_of_mem_toDigits (by decide) (by decide) (List.mem_reverse.mp listed)

theorem armName_inj {parent other : String} {index position : Nat}
    (same : armName parent index = armName other position) : parent = other ∧ index = position := by
  have digits : Nat.toDigits 10 index = Nat.toDigits 10 position := by
    rw [← List.reverse_inj, ← takeWhile_armName parent, same, takeWhile_armName]
  have indices : index = position := by
    rw [← Nat.ofDigitChars_ten_toDigits (n := index), digits, Nat.ofDigitChars_ten_toDigits]
  subst indices
  refine ⟨?_, rfl⟩
  unfold armName at same
  exact (String.append_left_inj "OneOf").mp ((String.append_left_inj (Nat.repr index)).mp same)

theorem armName_last (parent : String) (index : Nat) : ((armName parent index).toList.getLast?).any Char.isDigit := by
  obtain ⟨before, last, digits⟩ := (List.eq_nil_or_concat (Nat.toDigits 10 index)).resolve_left Nat.toDigits_ne_nil
  have isDigit : last.isDigit :=
    Nat.isDigit_of_mem_toDigits (b := 10) (n := index) (by decide) (by decide) (by rw [digits]; simp)
  have ends : (armName parent index).toList = (parent.toList ++ "OneOf".toList ++ before) ++ [last] := by
    rw [List.concat_eq_append] at digits
    simp only [armName, String.toList_append, toList_repr, digits, List.append_assoc]
  rw [ends, List.getLast?_concat]
  exact isDigit

end Drafting

namespace Progress
variable {project : Project} {k next later : Progress} {name : String} {s : Schema}

theorem Passes.carries {P : Progress → Prop} (before : Passes project k) (after : Passes project later)
    (run : Run project k later) (holds : P k)
    (keeps : ∀ k next, Passes project k → Passes project next → Step project k next → P k → P next) : P later := by
  induction run using Relation.ReflTransGen.head_induction_on with
  | refl => exact holds
  | head step rest ih =>
      have further : Passes project _ := ⟨before.1.tail step, rest.trans after.2⟩
      exact ih further (keeps _ _ before further step holds)

def Treats (k : Progress) (name : String) (s : Schema) : Prop :=
  (∃ build ∈ k.builds, build.name = name ∧ build.written = s) ∨
    ∃ entry, k.cache.entries.get? name = some entry ∧ entry.isFinal

theorem Treats.step (valid : Coherent k) (treats : k.Treats name s) (step : Step project k next) :
    next.Treats name s := by
  rcases treats with ⟨build, under, rfl, rfl⟩ | ended
  · rcases step.remains under with inNext | ⟨below, top⟩
    · exact .inl ⟨build, inNext, rfl, rfl⟩
    cases step with
    | begin asks fresh => exact .inl ⟨build, List.mem_cons_of_mem _ under, rfl, rfl⟩
    | reuse known => cases under
    | @close session name written m below waiting =>
        cases top
        have named : m.name = name := (valid.shown _ List.mem_cons_self).named m rfl
        have kept := (Model.complete_rearranges project.settings m).name.trans named
        exact .inr ⟨_, Cache.get?_finish.trans (if_pos kept), rfl⟩
    | fail fault =>
        cases top
        exact .inr ⟨_, Cache.get?_fail.trans (if_pos rfl), rfl⟩
    | _ =>
        cases top
        exact .inl ⟨_, List.mem_cons_self, rfl, rfl⟩
  · exact .inr (valid.keeps_final step ended)

end Progress

namespace Project
variable {project : Project} {name : String} {s t : Schema}

theorem Begins.unique (one : project.Begins name s) (two : project.Begins name t) : s = t := by
  have ordered {k l : Progress} {s t : Schema} (before : Progress.Passes project k) (after : Progress.Passes project l)
      (run : Progress.Run project k l) (first : k.builds.head? = some ⟨name, s, .opening⟩)
      (second : l.builds.head? = some ⟨name, t, .opening⟩) : s = t := by
    have treats := before.carries (P := (·.Treats name s)) after run
      (.inl ⟨_, List.mem_of_mem_head? first, rfl, rfl⟩) fun _ _ before _ step treats => treats.step before.coherent step
    have under := List.mem_of_mem_head? second
    rcases treats with ⟨build, other, same, rfl⟩ | ⟨entry, found, final⟩
    · rw [after.coherent.same_build other under same]
    · exact absurd rfl (after.coherent.apart under found final)
  obtain ⟨k, before, first⟩ := one
  obtain ⟨l, after, second⟩ := two
  rcases before.total after with run | run
  · exact ordered before after run first second
  · exact (ordered after before run second first).symm

end Project

namespace Progress
variable {project : Project} {k next : Progress} {name : String} {s : Schema}

theorem Passes.begun (passes : Passes project k) (listed : name ∈ k.cache.entries.names) :
    ∃ s, project.Begins name s := by
  refine passes.induction (P := fun k => ∀ name ∈ k.cache.entries.names, ∃ s, project.Begins name s)
    (fun _ listed => nomatch listed) ?_ name listed
  intro k next before after step known name listed
  by_cases old : name ∈ k.cache.entries.names
  · exact known name old
  · obtain ⟨s, asks⟩ := (before.coherent.fresh_name step listed).resolve_left old
    have fresh := Cache.lookup_eq_none.mpr (Table.get?_eq_none.mpr old)
    obtain ⟨session, builds, waiting⟩ := k
    exact ⟨s, next, after, step.begin_unique asks fresh ▸ rfl⟩

theorem Passes.concluded (passes : Passes project k) (under : name ∈ k.buildNames) :
    ∃ entry, project.resolveAll.cache.entries.get? name = some entry ∧ entry.isFinal := by
  obtain ⟨build, listed, rfl⟩ := List.mem_map.mp under
  have known := Cache.mem_names_of_phase? (passes.coherent.shown build listed).phase
  obtain ⟨entry, found⟩ := Option.ne_none_iff_exists'.mp (Cache.mem_names_iff.mp (passes.2.names known))
  exact ⟨entry, found, project.final_done found⟩

end Progress

namespace Project
variable {project : Project} {name : String} {s : Schema}

theorem Begins.concluded (begins : project.Begins name s) :
    ∃ entry, project.resolveAll.cache.entries.get? name = some entry ∧ entry.isFinal := by
  obtain ⟨k, passes, top⟩ := begins
  exact passes.concluded (List.mem_map_of_mem (List.mem_of_mem_head? top))

theorem begun_of_found {entry : CacheEntry} (found : project.resolveAll.cache.entries.get? name = some entry) :
    ∃ s, project.Begins name s :=
  (Progress.passes_done project).begun (Table.mem_names_of_get? found)

end Project
end ApiModels
