import Mathlib.Data.List.TakeWhile
import ApiModels.Proofs.Resolution.Execution

namespace ApiModels

structure PlainName (name : String) : Prop where
  unbroken : ∀ c ∈ name.toList, isSeparator c = false
  unfiled : ¬ ".json".toList <:+ name.toList
  unschemed : ¬ ".schema".toList <:+ name.toList

section Paths
variable {chars : List Char} {name : String}

theorem dropEnding_sublist (ending chars : List Char) : (dropEnding ending chars).Sublist chars := by
  unfold dropEnding
  split
  · exact List.take_sublist _ _
  · exact List.Sublist.refl _

theorem dropEnding_eq_self {ending : List Char} (some : ending ≠ []) :
    dropEnding ending chars = chars ↔ ¬ ending <:+ chars := by
  unfold dropEnding
  split
  · rename_i ends
    have suffix := List.isSuffixOf_iff_suffix.mp ends
    refine iff_of_false (fun same => ?_) (not_not_intro suffix)
    have kept := congrArg List.length same
    rw [List.length_take] at kept
    have present := List.length_pos_iff.mpr some
    have bound := suffix.length_le
    omega
  · rename_i differs
    exact iff_of_true rfl fun suffix => differs (List.isSuffixOf_iff_suffix.mpr suffix)

theorem lastSegment_sublist (chars : List Char) : (lastSegment chars).Sublist chars := by
  have trimmed : (chars.reverse.dropWhile (· = '#')).Sublist chars.reverse := List.dropWhile_sublist _
  have cut := ((List.takeWhile_sublist (!isSeparator ·)).trans trimmed).reverse
  rwa [List.reverse_reverse] at cut

theorem lastSegment_eq_self : lastSegment chars = chars ↔ ∀ c ∈ chars, isSeparator c = false := by
  constructor
  · intro same c listed
    rw [← same] at listed
    simpa using List.mem_takeWhile_imp (List.mem_reverse.mp listed)
  · intro unbroken
    have hashless : chars.reverse.dropWhile (· = '#') = chars.reverse := by
      refine List.dropWhile_eq_self_iff.mpr fun some => ?_
      have free := unbroken _ (List.mem_reverse.mp (List.getElem_mem some))
      simp only [isSeparator, Bool.or_eq_false_iff] at free
      simpa using free.2
    have whole : chars.reverse.takeWhile (!isSeparator ·) = chars.reverse :=
      List.takeWhile_eq_self_iff.mpr fun c listed => by simp [unbroken c (List.mem_reverse.mp listed)]
    rw [lastSegment, hashless, whole, List.reverse_reverse]

theorem lastSegment_append (path chars : List Char) : lastSegment (path ++ '/' :: chars) = lastSegment chars := by
  have slash : isSeparator '/' = true := rfl
  have trimmed : (path ++ '/' :: chars).reverse.dropWhile (· = '#') =
      chars.reverse.dropWhile (· = '#') ++ '/' :: path.reverse := by
    rw [List.reverse_append, List.reverse_cons, List.append_assoc, List.dropWhile_append]
    split
    · rename_i hashes
      rw [List.isEmpty_iff.mp hashes]
      rfl
    · rfl
  rw [lastSegment, lastSegment, trimmed, List.takeWhile_append]
  split
  · rename_i whole
    rw [(List.takeWhile_sublist _).eq_of_length whole, List.takeWhile_cons_of_neg (by simp [slash]), List.append_nil]
  · rfl

-- None of the three cuts can undo another, since none of them makes the text longer.
theorem simpleName_eq_self : simpleName chars = chars ↔
    (∀ c ∈ chars, isSeparator c = false) ∧ ¬ ".json".toList <:+ chars ∧ ¬ ".schema".toList <:+ chars := by
  rw [← lastSegment_eq_self, ← dropEnding_eq_self (by decide), ← dropEnding_eq_self (by decide)]
  constructor
  · intro same
    have outer := dropEnding_sublist ".schema".toList (dropEnding ".json".toList (lastSegment chars))
    have middle := dropEnding_sublist ".json".toList (lastSegment chars)
    rw [show dropEnding ".schema".toList (dropEnding ".json".toList (lastSegment chars)) = chars from same] at outer
    have segment : lastSegment chars = chars := (lastSegment_sublist chars).antisymm (outer.trans middle)
    rw [segment] at outer middle
    have filed : dropEnding ".json".toList chars = chars := middle.antisymm outer
    refine ⟨segment, filed, ?_⟩
    rwa [simpleName, segment, filed] at same
  · rintro ⟨segment, filed, schemed⟩
    rw [simpleName, segment, filed, schemed]

theorem refName_eq_self : refName name = name ↔ PlainName name := by
  have texts : refName name = name ↔ simpleName name.toList = name.toList := by
    rw [refName, ← String.toList_inj, String.toList_ofList]
  rw [texts, simpleName_eq_self]
  exact ⟨fun ⟨unbroken, unfiled, unschemed⟩ => ⟨unbroken, unfiled, unschemed⟩,
    fun plain => ⟨plain.unbroken, plain.unfiled, plain.unschemed⟩⟩

theorem refName_schemaPath (name : String) : refName (schemaPath ++ name) = refName name := by
  have path : schemaPath.toList = "#/components/schemas".toList ++ ['/'] := by decide +kernel
  have split : (schemaPath ++ name).toList = "#/components/schemas".toList ++ '/' :: name.toList := by
    rw [String.toList_append, path, List.append_assoc, List.singleton_append]
  rw [refName, refName, simpleName, simpleName, split, lastSegment_append]

end Paths

namespace Document
variable {document : Document} {child name : String} {s member : Schema} {before after : List Schema}

def parentsAmong (document : Document) (members : List Schema) : List String :=
  (members.filterMap Schema.refName?).filter document.contains

theorem parents_eq (found : document.get? child = some s) :
    document.parents child = document.parentsAmong s.allOfMembers := by
  rw [parents, found]
  rfl

theorem parentsAmong_append (one two : List Schema) :
    document.parentsAmong (one ++ two) = document.parentsAmong one ++ document.parentsAmong two := by
  simp [parentsAmong]

theorem unalias_refers (refers : s.refName? = some name) : document.unalias s =
    match document.get? name with
    | none => .error (.missing name)
    | some own => if own.hasStructure then .ok s else follow document.schemas [name] own := by
  rw [unalias, follow_eq, refers]
  exact if_neg List.not_mem_nil

theorem parentsAmong_cons (refers : member.refName? = some name) (rest : List Schema) :
    document.parentsAmong (member :: rest) =
      (if document.contains name then [name] else []) ++ document.parentsAmong rest := by
  unfold parentsAmong
  rw [List.filterMap_cons_some refers, List.filter_cons]
  split <;> rfl

end Document

namespace Project
variable {project : Project} {pointer name : String} {own : Schema}

-- All that read the reference come to this schema of the document: the walk to bare types, the request for
-- a model, and the edge of descent that an allOf member stands for.
structure LeadsTo (project : Project) (pointer name : String) (own : Schema) : Prop where
  simple : refName pointer = name
  held : project.document.get? name = some own
  followed : ∀ s : Schema, s.reference = some pointer → project.document.unalias s =
    if own.hasStructure then .ok s else Document.follow project.document.schemas [name] own
  resolved : ∀ (resolver : Resolver) (requester : String), Resolution.reference project resolver requester pointer =
    (resolver name own).adaptExcept ((Request.reference name).blame requester)
  inherited : ∀ (child : String) (s member : Schema) (before after : List Schema),
    project.document.get? child = some s → s.allOfMembers = before ++ member :: after →
    member.reference = some pointer → project.document.parents child =
      project.document.parentsAmong before ++ name :: project.document.parentsAmong after

-- All that read the reference find nothing.
structure Dangles (project : Project) (pointer : String) : Prop where
  followed : ∀ s : Schema, s.reference = some pointer →
    project.document.unalias s = .error (.missing (refName pointer))
  resolved : ∀ (resolver : Resolver) (requester : String), Resolution.reference project resolver requester pointer =
    throw (.unresolvedReference requester (refName pointer))
  inherited : ∀ (child : String) (s member : Schema) (before after : List Schema),
    project.document.get? child = some s → s.allOfMembers = before ++ member :: after →
    member.reference = some pointer → project.document.parents child =
      project.document.parentsAmong before ++ project.document.parentsAmong after

theorem leadsTo_iff : project.LeadsTo pointer name own ↔ refName pointer = name ∧ project.document.get? name = some own := by
  refine ⟨fun leads => ⟨leads.simple, leads.held⟩, ?_⟩
  rintro ⟨rfl, held⟩
  refine ⟨rfl, held, fun s refers => ?_, fun resolver requester => ?_, fun child s member before after found split refers => ?_⟩
  · rw [Document.unalias_refers (congrArg (Option.map refName) refers), held]
  · rw [Request.reference_eq, Request.resolve, Request.schema?, held]
    rfl
  · have named : member.refName? = some (refName pointer) := congrArg (Option.map refName) refers
    have known : project.document.contains (refName pointer) :=
      (Table.contains_iff _ _).mpr (Table.mem_names_of_get? held)
    rw [Document.parents_eq found, split, Document.parentsAmong_append, Document.parentsAmong_cons named, if_pos known]
    rfl

theorem dangles_of_absent (absent : refName pointer ∉ project.document.names) : project.Dangles pointer := by
  have lost : project.document.get? (refName pointer) = none := Table.get?_eq_none.mpr absent
  refine ⟨fun s refers => ?_, fun resolver requester => ?_, fun child s member before after found split refers => ?_⟩
  · rw [Document.unalias_refers (congrArg (Option.map refName) refers), lost]
  · rw [Request.reference_eq, Request.resolve, Request.schema?, lost]
    rfl
  · have named : member.refName? = some (refName pointer) := congrArg (Option.map refName) refers
    have unknown : ¬ project.document.contains (refName pointer) := mt (Table.contains_iff _ _).mp absent
    rw [Document.parents_eq found, split, Document.parentsAmong_append, Document.parentsAmong_cons named, if_neg unknown]
    rfl

def Referable (project : Project) : Prop :=
  ∀ name own, project.document.get? name = some own → project.LeadsTo (schemaPath ++ name) name own

variable (project)

-- The reference made for a name leads to the schema of its simple name, if the document has one. So every
-- schema can be referred to exactly if all names are plain.
theorem referable_iff : (project.Referable ↔ ∀ name ∈ project.document.names, PlainName name) ∧
    ∀ name, (∀ own, project.document.get? (refName name) = some own →
        project.LeadsTo (schemaPath ++ name) (refName name) own) ∧
      (refName name ∉ project.document.names → project.Dangles (schemaPath ++ name)) := by
  refine ⟨⟨fun referable name listed => ?_, fun plain name own held => ?_⟩, fun name => ⟨fun own held => ?_, fun absent => ?_⟩⟩
  · obtain ⟨own, held⟩ := Option.ne_none_iff_exists'.mp (mt Table.get?_eq_none.mp (not_not_intro listed))
    have simple := (referable name own held).simple
    rw [refName_schemaPath] at simple
    exact refName_eq_self.mp simple
  · have simple := refName_eq_self.mpr (plain name (Table.mem_names_of_get? held))
    exact leadsTo_iff.mpr ⟨(refName_schemaPath name).trans simple, held⟩
  · exact leadsTo_iff.mpr ⟨refName_schemaPath name, held⟩
  · exact dangles_of_absent (by rwa [refName_schemaPath])

-- A schema whose name ends like that of a file, beside the one that its reference is taken for.
def filed : Document where
  schemas := Table.ofEntries [
    ("Pet", { properties := [("legs", { type := some (.single "integer") })] }),
    ("Pet.json", { properties := [("name", { type := some (.single "string") })] }),
    ("Cat", { allOf := some [Schema.referenceTo "Pet.json"] })]
  fingerprint := ""

theorem not_referable_filed : ¬ (of GeneratorSettings.defaults filed).Referable ∧
    ∃ m ∈ (of GeneratorSettings.defaults filed).run.models,
      m.name = "Cat" ∧ m.parentName = some "Pet" ∧ m.propertyNames = ["legs"] := by
  refine ⟨fun referable => ?_, by decide +kernel⟩
  have simple := (referable "Pet.json" _ rfl).simple
  exact absurd simple (by decide)

end Project
end ApiModels
