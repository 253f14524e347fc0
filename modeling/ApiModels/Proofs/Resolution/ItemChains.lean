import Mathlib.Data.List.Nodup
import ApiModels.Proofs.Document.Extensions
import ApiModels.Proofs.Document.Routes
import ApiModels.Proofs.Resolution.LevelChains

namespace ApiModels

namespace Unfolding
variable {document : Document} {mappings : TypeMappings} {met : List String} {s target inner : Schema}
  {kind : ContainerKind} {unfolding : Unfolding} {name : String}

-- The schema that a level stands for, unless it stands for a model.
structure Reads (document : Document) (met : List String) (s target : Schema) : Prop where
  fresh : ∀ name, s.refName? = some name → name ∉ met
  led : document.unalias s = .ok target
  ends : target.refName? = none

-- A level goes down into another, from the names met and the schema there to those below.
inductive Calls (document : Document) (mappings : TypeMappings) :
    List String × Schema → List String × Schema → Prop where
  | content {met : List String} {s target inner : Schema} {kind : ContainerKind} : Reads document met s target →
      (target.inferTag mappings).container? = some kind → target.content? kind = some inner →
      Calls document mappings (met, s) (met ++ s.refName?.toList, inner)

theorem Reads.self (met : List String) (plain : s.refName? = none) : Reads document met s s where
  fresh name refers := by cases plain.symm.trans refers
  led := Document.Rests.unalias fun name refers => by cases plain.symm.trans refers
  ends := plain

theorem of_reads (reads : Reads document met s target) : Unfolding.of document mappings met s =
    match (target.inferTag mappings).container? with
    | none => .ok (.value s target)
    | some kind =>
        match target.content? kind with
        | none => .ok (.container s target kind (.value Schema.blank Schema.blank))
        | some inner => (Unfolding.of document mappings (met ++ s.refName?.toList) inner).map (.container s target kind) := by
  have unfolds := of_eq document mappings met s
  cases refers : s.refName? with
  | none =>
      obtain rfl : target = s := Except.ok.inj (reads.led.symm.trans (Reads.self met refers).led)
      simp only [refers] at unfolds
      rw [Option.toList_none, List.append_nil]
      exact unfolds
  | some name =>
      simp only [refers, reads.fresh name refers, reads.led, reads.ends, if_false] at unfolds
      exact unfolds

theorem of_unread (unread : ∀ target, ¬ Reads document met s target)
    (unfolds : Unfolding.of document mappings met s = .ok unfolding) :
    ∃ target name, unfolding = .model s target name := by
  rw [of_eq] at unfolds
  cases refers : s.refName? with
  | none => exact absurd (Reads.self met refers) (unread s)
  | some name =>
      simp only [refers] at unfolds
      split at unfolds
      · cases unfolds
        exact ⟨_, _, rfl⟩
      · rename_i fresh
        split at unfolds
        · cases unfolds
        · rename_i target led
          cases ends : target.refName? with
          | some other =>
              rw [ends] at unfolds
              cases unfolds
              exact ⟨_, _, rfl⟩
          | none => exact absurd ⟨fun other refers' => by cases refers.symm.trans refers'; exact fresh, led, ends⟩ (unread target)

theorem Reads.nodup (reads : Reads document met s target) (distinct : met.Nodup) : (met ++ s.refName?.toList).Nodup := by
  cases refers : s.refName? with
  | none => simpa using distinct
  | some name => exact List.Nodup.append distinct (List.nodup_singleton name) (by simpa using reads.fresh name refers)

theorem Calls.nodup {caller callee : List String × Schema} (calls : Calls document mappings caller callee)
    (distinct : caller.1.Nodup) : callee.1.Nodup := by
  cases calls with
  | content reads container holds => exact reads.nodup distinct

theorem nodup_of_called {start level : List String × Schema}
    (called : Relation.ReflTransGen (Calls document mappings) start level) (distinct : start.1.Nodup) : level.1.Nodup := by
  induction called with
  | refl => exact distinct
  | tail _ calls ih => exact calls.nodup ih

noncomputable def reach (document : Document) (level : List String × Schema) : Nat :=
  (document.schemas.unmet level.1).length * (document.sizeBound + 1) + sizeOf level.2

theorem Calls.reach_lt {caller callee : List String × Schema} (calls : Calls document mappings caller callee) :
    reach document callee < reach document caller := by
  cases calls with
  | @content met s target inner kind reads container holds =>
      have smaller := Schema.content?_lt holds
      unfold reach
      dsimp only
      cases refers : s.refName? with
      | none =>
          obtain rfl : target = s := Except.ok.inj (reads.led.symm.trans (Reads.self met refers).led)
          rw [Option.toList_none, List.append_nil]
          omega
      | some name =>
          rw [Option.toList_some]
          exact Document.replaced_lt refers (reads.fresh name refers) reads.led reads.ends smaller

theorem calls_wellFounded (document : Document) (mappings : TypeMappings) :
    WellFounded fun callee caller => Calls document mappings caller callee :=
  Subrelation.wf (fun calls => calls.reach_lt) (InvImage.wf (reach document) Nat.lt_wfRel.wf)

def replaced : Unfolding → List String
  | .model .. => []
  | .value written _ => written.refName?.toList
  | .container written _ _ inner => written.refName?.toList ++ inner.replaced

theorem of_replaced (unfolds : Unfolding.of document mappings met s = .ok unfolding) :
    (met ++ unfolding.replaced).Nodup ↔ met.Nodup := by
  suffices fresh : ∀ level : List String × Schema, ∀ unfolding,
      Unfolding.of document mappings level.1 level.2 = .ok unfolding → level.1.Nodup → (level.1 ++ unfolding.replaced).Nodup from
    ⟨fun distinct => (List.nodup_append.mp distinct).1, fresh (met, s) unfolding unfolds⟩
  intro level
  induction level using (calls_wellFounded document mappings).induction with
  | _ level ih =>
      obtain ⟨met, s⟩ := level
      intro unfolding unfolds distinct
      dsimp only at unfolds distinct ⊢
      by_cases read : ∃ target, Reads document met s target
      · obtain ⟨target, reads⟩ := read
        have grown := reads.nodup distinct
        rw [of_reads reads] at unfolds
        split at unfolds
        · cases unfolds
          exact grown
        · rename_i kind container
          split at unfolds
          · cases unfolds
            simpa [replaced, Schema.blank, Schema.refName?] using grown
          · rename_i inner holds
            cases below : Unfolding.of document mappings (met ++ s.refName?.toList) inner with
            | error issue => simp [below, Except.map] at unfolds
            | ok inside =>
                rw [below] at unfolds
                cases unfolds
                rw [replaced, ← List.append_assoc]
                exact ih _ (.content reads container holds) inside below grown
      · obtain ⟨target, name, rfl⟩ := of_unread (not_exists.mp read) unfolds
        simpa [replaced] using distinct

end Unfolding

namespace Level

def needs (mapped : String → Bool) (l : Level) : NameSet :=
  match l.complexType with
  | some classname => NameSet.ofList [classname]
  | none => if mapped l.typeTag.text then NameSet.ofList [l.typeTag.text] else NameSet.empty

variable {project : Project} {level : Level} {rest : List Level}

theorem Ends.imports (ends : level.Ends project) : level.imports = level.needs project.settings.needsImport := by
  unfold needs
  cases ends.means with
  | model known complexType dataType imports => rw [complexType, imports]
  | type complexType dataType imports => rw [complexType, imports]

theorem Chain.outer (chain : Chain project level rest) : ∀ l ∈ (level :: rest).dropLast, l.Wraps := by
  induction chain with
  | single ends => exact fun l none_ => absurd none_ List.not_mem_nil
  | wrap wraps imports chain ih => exact List.forall_mem_cons.mpr ⟨wraps, ih⟩

theorem Chain.each_imports (chain : Chain project level rest) :
    ∀ l ∈ level :: rest, l.imports = (rest.getLastD level).needs project.settings.needsImport := by
  induction chain with
  | single ends =>
      intro l listed
      rw [List.mem_singleton.mp listed]
      exact ends.imports
  | wrap wraps imports chain ih =>
      rw [List.getLastD_cons]
      exact List.forall_mem_cons.mpr ⟨imports.trans (ih _ List.mem_cons_self), ih⟩

end Level

-- Containers around one level that is none. All of them import what this level needs.
structure Property.WellFormed (project : Project) (mapped : String → Bool) (p : Property) : Prop where
  outer : ∀ l ∈ p.levels.dropLast, l.Wraps
  isContainer : p.innermost.isContainer = false
  means : (∃ name ∈ project.document.names, p.innermost.complexType = some (project.naming.modelName name) ∧
      p.innermost.dataType = project.naming.modelName name) ∨
    p.innermost.complexType = none ∧ p.innermost.dataType = p.innermost.typeTag.text
  imports : ∀ l ∈ p.levels, l.imports = p.innermost.needs mapped

theorem Property.Chained.wellFormed {project : Project} {p : Property} (chained : p.Chained project) :
    p.WellFormed project project.settings.needsImport where
  outer := Level.Chain.outer chained
  isContainer := (Level.Chain.last chained).isContainer
  means := by
    cases (Level.Chain.last chained).means with
    | model known complexType dataType => exact .inl ⟨_, known, complexType, dataType⟩
    | type complexType dataType => exact .inr ⟨complexType, dataType⟩
  imports := Level.Chain.each_imports chained

namespace Project

-- No property goes down forever or replaces references to one name at two levels, and those that are made
-- are well formed.
structure Chains (project : Project) (mapped : String → Bool) : Prop where
  ends : WellFounded fun callee caller => Unfolding.Calls project.document project.settings.typeMappings caller callee
  apart : ∀ s level, Relation.ReflTransGen (Unfolding.Calls project.document project.settings.typeMappings) ([], s) level →
    level.1.Nodup ∧ ∀ target, Unfolding.Reads project.document level.1 level.2 target →
      (level.1 ++ level.2.refName?.toList).Nodup
  made : ∀ owner key s session p next, Resolution.property project owner key s session = .ok p next →
    ∃ unfolding, Unfolding.of project.document project.settings.typeMappings [] s = .ok unfolding ∧
      unfolding.replaced.Nodup ∧ p = unfolding.toProperty project.settings key ∧ p.WellFormed project mapped

-- The empty type is never imported, whatever it is mapped to.
theorem property_chains (project : Project) : project.Chains project.settings.needsImport where
  ends := Unfolding.calls_wellFounded _ _
  apart s level called := by
    have distinct := Unfolding.nodup_of_called called List.nodup_nil
    exact ⟨distinct, fun target reads => reads.nodup distinct⟩
  made owner key s session p next ran := by
    obtain ⟨unfolding, unfolds, same⟩ := property_unfolds owner key s session p next ran
    have chained := (property_makes owner key s session p next ran).chained
    exact ⟨unfolding, unfolds, (Unfolding.of_replaced unfolds).mpr List.nodup_nil, same, chained.wellFormed⟩

def blankMapped : Project :=
  of { GeneratorSettings.defaults with importMappings := SortedTable.ofList [("", "com.example.Blank")] }
    { schemas := Table.empty, fingerprint := "" }

def blankTyped : Schema := { type := some (.single "") }

theorem not_chains_blank : ¬ blankMapped.Chains blankMapped.settings.importMappings.contains := by
  intro chains
  have unfolds : Unfolding.of blankMapped.document blankMapped.settings.typeMappings [] blankTyped =
      .ok (.value blankTyped blankTyped) := by
    rw [Unfolding.of_reads (.self [] rfl)]
    rfl
  obtain ⟨next, ran⟩ := property_of_unfolds unfolds "Item" "code" {}
  obtain ⟨unfolding, -, -, -, formed⟩ := chains.made _ _ _ _ _ _ ran
  have same := congrArg NameSet.toList (formed.imports _ List.mem_cons_self)
  exact absurd same (by decide +kernel)

end Project
end ApiModels
