import ApiModels.Proofs.Model.Imports
import ApiModels.Proofs.Resolution.TypeNames
import ApiModels.Proofs.Resolution.TypedModels

namespace ApiModels

-- The run knows the import by one of its names, or the settings do.
def Report.Justifies (settings : GeneratorSettings) (report : Report) (classname text : String) : Prop :=
  (∃ name ∈ report.outcomes, text = settings.naming.modelName name) ∨ settings.importMappings.contains text ∨
    text ∈ settings.instantiationTypes.entries.map Prod.snd ∨ text ∈ settings.modelImports ∨
    text = classname ++ settings.converterSuffix

instance (settings : GeneratorSettings) (report : Report) (classname text : String) :
    Decidable (report.Justifies settings classname text) := inferInstanceAs (Decidable (_ ∨ _))

-- No model imports anything else.
def Report.Justified (settings : GeneratorSettings) (report : Report) : Prop :=
  ∀ m ∈ report.models, ∀ text ∈ m.imports.toList, report.Justifies settings m.classname text

instance (settings : GeneratorSettings) (report : Report) : Decidable (report.Justified settings) :=
  inferInstanceAs (Decidable (∀ m ∈ report.models, _))

namespace Project

-- The array model of this name has items that refer to a bare type, and this is the tag of the type.
def ListsBare (project : Project) (name text : String) : Prop :=
  ∃ target items other bare, project.Composes name target ∧ target.isArray ∧ target.items = some items ∧
    items.refName? = some other ∧ other ≠ name ∧ project.document.unalias items = .ok bare ∧ bare.refName? = none ∧
    text = (bare.inferTag project.settings.typeMappings).text

variable {project : Project} {name text : String}

theorem outcome_of_begins {s : Schema} (begins : project.Begins name s) : name ∈ project.run.outcomes := by
  obtain ⟨entry, found, -⟩ := begins.concluded
  exact project.outcomes_perm.mem_iff.mpr (Table.mem_names_of_get? found)

theorem outcome_of_listed (listed : name ∈ project.document.names) : name ∈ project.run.outcomes :=
  project.outcomes_perm.mem_iff.mpr (project.known_of_listed listed)

theorem configured_of_instantiation {settings : GeneratorSettings} {container : String}
    (held : settings.instantiationType? container = some text) :
    text ∈ settings.instantiationTypes.entries.map Prod.snd := by
  obtain ⟨entry, found, rfl⟩ := Option.map_eq_some_iff.mp held
  exact List.mem_map_of_mem (List.mem_of_find?_eq_some found)

theorem Outlined.origin {target : Schema} {classname : String} (outlined : project.Outlined name target text)
    (composes : project.Composes name target) :
    project.run.Justifies project.settings classname text ∨ project.ListsBare name text := by
  cases outlined with
  | wrapper array wrapper => exact .inl (.inr (.inr (.inl (configured_of_instantiation wrapper))))
  | @items items other array held refers apart named =>
      have foreign : ¬ items.refName? = some name := fun own => apart (Option.some.inj (refers.symm.trans own))
      rw [typeName?, if_neg foreign] at named
      cases led : project.document.unalias items with
      | error issue =>
          rw [led] at named
          cases named
      | ok bare =>
          rw [led] at named
          cases ends : bare.refName? with
          | some model =>
              have same : text = project.naming.modelName model := by simpa [Except.map, ends, eq_comm] using named
              exact .inl (.inl ⟨model, outcome_of_listed (Document.unalias_known led ends), same⟩)
          | none =>
              have same : text = (bare.inferTag project.settings.typeMappings).text := by
                simpa [Except.map, ends, eq_comm] using named
              exact .inr ⟨target, items, other, bare, composes, array, held, refers, apart, led, ends, same⟩

theorem ListsBare.outlined {target : Schema} (lists : project.ListsBare name text)
    (composes : project.Composes name target) : project.Outlined name target text := by
  obtain ⟨other, items, referred, bare, composed, array, held, refers, apart, led, ends, rfl⟩ := lists
  cases composed.unique composes
  refine .items array held refers apart ?_
  have foreign : ¬ items.refName? = some name := fun own => apart (Option.some.inj (refers.symm.trans own))
  rw [typeName?, if_neg foreign, led]
  simp [Except.map, ends]

end Project

namespace Model
variable {project : Project} {m parent next : Model}

structure Sourced (project : Project) (m : Model) : Prop extends Typed project m where
  known : m.name ∈ project.run.outcomes
  origin : ∀ text ∈ m.imports, project.run.Justifies project.settings m.classname text ∨
    text ≠ "" ∧ project.ListsBare m.name text
  listed : ∀ text, text ≠ "" → project.ListsBare m.name text → text ∈ m.imports

namespace Sourced

theorem opened {name : String} {written target : Schema} (begun : project.Begins name written)
    (opens : project.Opens name written target m) : m.Sourced project := by
  have named : m.name = name := opens.fresh.name
  have composes : project.Composes m.name target := by
    obtain ⟨s, next, opened⟩ := opens
    exact ⟨written, named.symm ▸ begun, (Resolution.opening_ok opened).1⟩
  refine ⟨.opened opens, named ▸ Project.outcome_of_begins begun, fun text imported => ?_, fun text nonempty lists => ?_⟩
  · obtain ⟨outlined, nonempty⟩ := opens.imports.mp imported
    exact (outlined.origin (named ▸ composes)).imp id fun lists => ⟨nonempty, named ▸ lists⟩
  · exact opens.imports.mpr ⟨named ▸ lists.outlined composes, nonempty⟩

theorem grow (sourced : m.Sourced project) (typed : next.Typed project) (name : next.name = m.name)
    (added : ∀ text ∈ next.imports, text ∈ m.imports ∨ project.run.Justifies project.settings m.classname text)
    (keeps : ∀ text ∈ m.imports, text ∈ next.imports) : next.Sourced project where
  toTyped := typed
  known := name ▸ sourced.known
  origin text imported := by
    rw [typed.classname, name, ← sourced.classname]
    exact (added text imported).elim (sourced.origin text) .inl
  listed text nonempty lists := keeps text (sourced.listed text nonempty (name ▸ lists))

theorem extend (sourced : m.Sourced project) (elder : parent.Sourced project) : (m.extend parent).Sourced project := by
  refine sourced.grow (sourced.toTyped.extend elder.toTyped) (extend_name m parent) (fun text imported => ?_) fun text old => ?_
  · rcases mem_imports_extend.mp imported with ⟨same, -⟩ | old
    · exact .inr (.inl ⟨parent.name, elder.known, same.trans elder.classname⟩)
    · exact .inl old
  · exact mem_imports_extend.mpr (.inr old)

theorem of_property {p : Property} (chained : p.Chained project) {text classname : String} (imported : text ∈ p.imports) :
    project.run.Justifies project.settings classname text := by
  rcases chained.of_imports imported with ⟨other, listed, same⟩ | needed
  · exact .inl ⟨other, Project.outcome_of_listed listed, same⟩
  · exact .inr (.inl (Bool.and_eq_true_iff.mp needed).2)

theorem declare (sourced : m.Sourced project) {p : Property} (makes : project.Makes p) : (m.declare p).Sourced project := by
  refine sourced.grow ((Typed.invariant project).declared p makes sourced.toTyped) rfl (fun text imported => ?_) fun text old => ?_
  · exact (mem_imports_declare.mp imported).elim (fun new => .inr (of_property makes.chained new)) .inl
  · exact mem_imports_declare.mpr (.inr old)

theorem implement (sourced : m.Sourced project) {link : PendingLink} (genuine : link.Genuine project) :
    (Cache.implement m link).Sourced project := by
  refine sourced.grow (sourced.toTyped.implement link) (Cache.implement_name m link) (fun text imported => ?_) fun text old => ?_
  · rcases mem_imports_implement.mp imported with ⟨same, -⟩ | old
    · obtain ⟨written, begun⟩ := genuine.begun
      exact .inr (.inl ⟨link.parent, Project.outcome_of_begins begun, same.trans genuine.parentClass⟩)
    · exact .inl old
  · exact mem_imports_implement.mpr (.inr old)

theorem complete (sourced : m.Sourced project) : (m.complete project.settings).Sourced project := by
  refine sourced.grow (sourced.toTyped.complete project.settings) (complete_rearranges _ m).name (fun text imported => ?_)
    fun text old => ?_
  · rcases mem_imports_complete.mp imported with ⟨⟨p, listed, asked⟩ | configured | ⟨-, -, converter⟩, -⟩ | old
    · refine .inr ?_
      rcases List.mem_append.mp asked with own | instantiated
      · exact of_property (sourced.properties p listed) own
      · split at instantiated
        · obtain ⟨level, -, made⟩ := List.mem_filterMap.mp instantiated
          obtain ⟨kind, -, held⟩ := Option.bind_eq_some_iff.mp made
          exact .inr (.inr (.inl (Project.configured_of_instantiation held)))
        · cases instantiated
    · exact .inr (.inr (.inr (.inr (.inl configured))))
    · exact .inr (.inr (.inr (.inr (.inr converter))))
    · exact .inl old
  · exact mem_imports_complete.mpr (.inr old)

theorem invariant (project : Project) : Invariant project (Sourced project) where
  opened := opened
  collapsed names sourced := sourced.grow ((Typed.invariant project).collapsed names sourced.toTyped) rfl
    (fun _ => .inl) fun _ old => old
  extended := extend
  declared _ makes sourced := sourced.declare makes
  required name known sourced := sourced.grow ((Typed.invariant project).required name known sourced.toTyped) rfl
    (fun _ => .inl) fun _ old => old
  refreshed sourced := sourced.grow ((Typed.invariant project).refreshed sourced.toTyped) rfl (fun _ => .inl) fun _ old => old
  member child sourced := sourced.grow ((Typed.invariant project).member child sourced.toTyped) rfl
    (fun _ => .inl) fun _ old => old
  shown union sourced := sourced.grow ((Typed.invariant project).shown union sourced.toTyped) rfl
    (fun _ => .inl) fun _ old => old
  linked _ genuine sourced := sourced.implement genuine
  completed := complete

end Sourced
end Model

namespace Project

-- The imports are sound exactly when no array model refers to a bare type that is not imported for another reason.
theorem run_justified_iff (project : Project) : project.run.Justified project.settings ↔
    ∀ m ∈ project.run.models, ∀ text, text ≠ "" → project.ListsBare m.name text →
      project.run.Justifies project.settings m.classname text := by
  have sourced {m : Model} (known : m ∈ project.run.models) : m.Sourced project :=
    (Model.Sourced.invariant project).criterion.of_model known
  constructor
  · intro justified m known text nonempty lists
    exact justified m known text ((sourced known).listed text nonempty lists)
  · intro harmless m known text imported
    rcases (sourced known).origin text imported with justifies | ⟨nonempty, lists⟩
    · exact justifies
    · exact harmless m known text nonempty lists

-- A list of numbers, by the name that the document gives to them.
def lengthsList : Document where
  schemas := Table.ofEntries [
    ("Meters", { type := some (.single "number") }),
    ("Path", { type := some (.single "array"), items := some (Schema.referenceTo "Meters") })]
  fingerprint := ""

theorem run_not_justified_path :
    ¬ (Project.of GeneratorSettings.defaults lengthsList).run.Justified GeneratorSettings.defaults := by decide +kernel

end Project
end ApiModels
