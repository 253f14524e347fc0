import ApiModels.Proofs.Model.Layouts

namespace ApiModels
namespace Model
variable {m : Model} {inherited defined : List Property}

def preferred? (inherited defined : List Property) (name : String) : Option Property :=
  (named name defined.reverse).or (named name inherited)

-- The views of a model that has inherited and defined these properties. Where they stand is left open: it differs
-- with the order of the two.
structure Prefers (inherited defined : List Property) (m : Model) : Prop where
  distinct : m.propertyNames.Nodup
  own : ∀ name, m.ownProperty? name = named name defined.reverse
  all : ∀ name, m.property? name = preferred? inherited defined name

theorem named_reverse_concat (defined : List Property) (p : Property) (name : String) :
    named name (defined ++ [p]).reverse = if p.baseName = name then some p else named name defined.reverse := by
  rw [List.reverse_append, List.reverse_singleton, List.singleton_append, named_cons]

namespace Prefers

theorem nothing (own : m.ownProperties = []) (all : m.allProperties = []) : m.Prefers [] [] where
  distinct := by simp [propertyNames, all]
  own name := by rw [ownProperty?, own, List.reverse_nil]
  all name := by rw [property?, all]; rfl

theorem upsertOwn (prefers : Prefers inherited defined m) (p : Property) :
    Prefers inherited (defined ++ [p]) (m.upsertOwn p) where
  distinct := upsert_nodup prefers.distinct
  own name := by
    have before := prefers.own name
    rw [ownProperty?] at before ⊢
    rw [Model.upsertOwn, named_upsert, before, named_reverse_concat]
  all name := by
    have before := prefers.all name
    rw [property?] at before ⊢
    rw [Model.upsertOwn, named_upsert, before, preferred?, preferred?, named_reverse_concat]
    split <;> rfl

theorem foldl_upsertOwn (prefers : Prefers inherited defined m) (more : List Property) :
    Prefers inherited (defined ++ more) (more.foldl Model.upsertOwn m) := by
  induction more generalizing defined m with
  | nil => rwa [List.append_nil]
  | cons p rest ih =>
      rw [List.append_cons]
      exact ih (prefers.upsertOwn p)

theorem inherit (prefers : Prefers [] defined m) (distinct : (inherited.map (·.baseName)).Nodup) :
    Prefers inherited defined (m.inherit inherited) where
  distinct := foldl_append_nodup _ ((List.filter_sublist.map _).nodup distinct)
  own := prefers.own
  all name := by
    have own := prefers.own name
    have before := prefers.all name
    rw [property?] at before ⊢
    rw [Model.inherit, named_appendUnlessNamed, named_filter fun name => (m.ownProperty? name).isNone, before, own,
      preferred?, preferred?]
    cases named name defined.reverse with
    | none => simp [named]
    | some p => rfl

end Prefers

theorem own_definitions_win (own : m.ownProperties = []) (all : m.allProperties = [])
    (distinct : (inherited.map (·.baseName)).Nodup) (defined : List Property) :
    Prefers inherited defined (defined.foldl upsertOwn (m.inherit inherited)) ∧
      Prefers inherited defined ((defined.foldl upsertOwn m).inherit inherited) := by
  have bare : m.Prefers [] [] := .nothing own all
  constructor
  · exact (bare.inherit distinct).foldl_upsertOwn defined
  · exact (bare.foldl_upsertOwn defined).inherit distinct

def plainProperty (name : String) (tag : TypeTag) : Property :=
  { baseName := name, name := name, varName := name, typeTag := tag, dataType := tag.text }

theorem own_definitions_win_pet :
    let pet := Model.new NamingRules.defaults "Pet"
    let inherited := [plainProperty "id" .long, plainProperty "name" .boolean]
    let defined := [plainProperty "name" .uuid, plainProperty "tag" .string, plainProperty "name" .string]
    pet.ownProperties = [] ∧ pet.allProperties = [] ∧ (inherited.map (·.baseName)).Nodup ∧
      (defined.foldl upsertOwn (pet.inherit inherited)).property? "name" = some (plainProperty "name" .string) ∧
      ((defined.foldl upsertOwn pet).inherit inherited).property? "name" = some (plainProperty "name" .string) ∧
      ((defined.foldl upsertOwn pet).inherit inherited).property? "id" = some (plainProperty "id" .long) := by
  intro pet inherited defined
  have distinct : (inherited.map (·.baseName)).Nodup := by decide
  obtain ⟨first, last⟩ := own_definitions_win (m := pet) rfl rfl distinct defined
  exact ⟨rfl, rfl, distinct, first.all "name", last.all "name", last.all "id"⟩

end Model
end ApiModels
