import Mathlib.Logic.Basic
import ApiModels.Model.Cache

namespace ApiModels
namespace CacheEntry

inductive Phase where
  | pending | building | ready | failed
  deriving DecidableEq

def phase : CacheEntry → Phase
  | .pending => .pending
  | .building _ => .building
  | .ready _ => .ready
  | .failed _ => .failed

def model? : CacheEntry → Option Model
  | .building placeholder => some placeholder
  | .ready model => some model
  | _ => none

def isFinal : CacheEntry → Bool
  | .ready _ => true
  | .failed _ => true
  | _ => false

def linked (link : PendingLink) : CacheEntry → CacheEntry
  | .ready model => .ready (Cache.implement model link)
  | .building placeholder => .building (placeholder.addInterface link.parent)
  | entry => entry

@[simp] theorem linked_phase (link : PendingLink) (entry : CacheEntry) : (entry.linked link).phase = entry.phase := by
  cases entry <;> rfl

end CacheEntry

namespace Cache
variable {cache : Cache} {name other : String} {m : Model} {e : ModelError}

section Lookup

theorem lookup_eq_none : cache.lookup name = none ↔ cache.entries.get? name = none := by
  simp [lookup]

theorem lookup_ok : cache.lookup name = some (.ok m) ↔
    cache.entries.get? name = some (.ready m) ∨ cache.entries.get? name = some (.building m) := by
  unfold lookup
  cases cache.entries.get? name with
  | none => simp
  | some entry => cases entry <;> simp

theorem lookup_error : cache.lookup name = some (.error e) ↔
    cache.entries.get? name = some (.failed e) ∨
      cache.entries.get? name = some .pending ∧ e = .cyclicReference name (cache.chainTo name) := by
  unfold lookup
  cases cache.entries.get? name with
  | none => simp
  | some entry => cases entry <;> simp [eq_comm]

theorem mem_names_of_lookup {answer : Except ModelError Model} (known : cache.lookup name = some answer) :
    name ∈ cache.entries.names := by
  obtain ⟨entry, found, -⟩ := Option.map_eq_some_iff.mp known
  exact Table.mem_names_of_get? found

end Lookup

section Outcomes

def fault? (cache : Cache) (name : String) : Option ModelError :=
  match cache.entries.get? name with
  | some (.failed e) => some e
  | _ => none

theorem fault?_eq_some : cache.fault? name = some e ↔ cache.entries.get? name = some (.failed e) := by
  unfold fault?
  cases cache.entries.get? name with
  | none => simp
  | some entry => cases entry <;> simp

theorem get?_eq_some : cache.get? name = some m ↔ cache.entries.get? name = some (.ready m) := by
  unfold get?
  cases cache.entries.get? name with
  | none => simp
  | some entry => cases entry <;> simp

theorem exists_ready (found : (cache.get? name).isSome) : ∃ m, cache.entries.get? name = some (.ready m) :=
  (Option.isSome_iff_exists.mp found).imp fun _ => get?_eq_some.mp

end Outcomes

section Operations

@[simp] theorem get?_begin : (cache.begin name).entries.get? other =
    if name = other then some .pending else cache.entries.get? other :=
  Table.get?_put _ _ _ _

theorem buildCount_begin : (cache.begin name).buildCount other =
    if name = other then cache.buildCount name + 1 else cache.buildCount other := by
  unfold buildCount begin
  simp only [Table.get?_put]
  split <;> rfl

theorem publish_eq : cache.publish m =
    { cache with entries := if (cache.entries.get? m.name).any (!·.isFinal)
        then cache.entries.put m.name (.building m) else cache.entries } := by
  unfold publish
  cases cache.entries.get? m.name with
  | none => rfl
  | some entry => cases entry <;> rfl

theorem get?_publish : (cache.publish m).entries.get? other =
    if m.name = other ∧ (cache.entries.get? m.name).any (!·.isFinal) then some (.building m)
    else cache.entries.get? other := by
  rw [publish_eq]
  by_cases unfinished : (cache.entries.get? m.name).any (!·.isFinal)
  · simp [unfinished, Table.get?_put]
  · simp [unfinished]

theorem get?_publish_final {entry : CacheEntry} (found : cache.entries.get? name = some entry) (final : entry.isFinal) :
    (cache.publish m).entries.get? name = some entry := by
  rw [get?_publish, if_neg]
  · exact found
  · rintro ⟨rfl, unfinished⟩
    simp [found, final] at unfinished

@[simp] theorem publish_stack : (cache.publish m).stack = cache.stack := by rw [publish_eq]

@[simp] theorem publish_pendingLinks : (cache.publish m).pendingLinks = cache.pendingLinks := by rw [publish_eq]

@[simp] theorem publish_buildCounts : (cache.publish m).buildCounts = cache.buildCounts := by rw [publish_eq]

theorem finish_publish {draft : Model} (same : draft.name = m.name) :
    (cache.publish draft).finish m = cache.finish m := by
  have links : (cache.publish draft).linksOf m.name = cache.linksOf m.name := by simp [linksOf]
  unfold finish
  rw [links, publish_eq, same]
  dsimp only
  split
  · rw [Table.put_put]
  · rfl

@[simp] theorem get?_finish : (cache.finish m).1.entries.get? other =
    if m.name = other then some (.ready (cache.finish m).2) else cache.entries.get? other :=
  Table.get?_put _ _ _ _

@[simp] theorem get?_fail : (cache.fail name e).entries.get? other =
    if name = other then some (.failed e) else cache.entries.get? other :=
  Table.get?_put _ _ _ _

theorem popName_concat (name : String) (stack : List String) : popName name (stack ++ [name]) = stack := by
  simp [popName]

variable {child parent parentClass : String}

theorem get?_registerInterface : (cache.registerInterface child parent parentClass).entries.get? other =
    if child = other then (cache.entries.get? child).map (·.linked ⟨parent, parentClass⟩)
    else cache.entries.get? other := by
  unfold registerInterface
  by_cases same : child = other
  · subst same
    cases found : cache.entries.get? child with
    | none => simp [addPending, found]
    | some entry => cases entry <;> simp [addPending, found, CacheEntry.linked, Table.get?_put]
  · cases found : cache.entries.get? child with
    | none => simp [addPending, same]
    | some entry => cases entry <;> simp [addPending, same, Table.get?_put]

@[simp] theorem registerInterface_stack :
    (cache.registerInterface child parent parentClass).stack = cache.stack := by
  unfold registerInterface
  dsimp only
  split <;> rfl

@[simp] theorem registerInterface_buildCounts :
    (cache.registerInterface child parent parentClass).buildCounts = cache.buildCounts := by
  unfold registerInterface
  dsimp only
  split <;> rfl

theorem registerInterface_ready (found : cache.entries.get? child = some (.ready m)) :
    (cache.registerInterface child parent parentClass).pendingLinks = cache.pendingLinks := by
  simp [registerInterface, found]

theorem registerInterface_building {placeholder : Model}
    (found : cache.entries.get? child = some (.building placeholder)) :
    (cache.registerInterface child parent parentClass).pendingLinks =
      (cache.addPending child ⟨parent, parentClass⟩).pendingLinks := by
  unfold registerInterface
  rw [found]
  rfl

theorem mem_linksOf_addPending {link wanted : PendingLink} :
    wanted ∈ (cache.addPending child link).linksOf other ↔
      other = child ∧ wanted = link ∨ wanted ∈ cache.linksOf other := by
  unfold linksOf addPending
  dsimp only
  rw [Table.get?_put]
  by_cases same : child = other
  · subst same
    simp only [if_true, Option.getD_some, true_and]
    split
    · rename_i known
      exact ⟨.inr, fun either => either.elim (fun eq => eq ▸ known) id⟩
    · simp [linksOf, or_comm]
  · simp [same, Ne.symm same]

end Operations

section Phases

def phase? (cache : Cache) (name : String) : Option CacheEntry.Phase := (cache.entries.get? name).map (·.phase)

theorem phase?_of_get? {entry : CacheEntry} (found : cache.entries.get? name = some entry) :
    cache.phase? name = some entry.phase := by
  simp [phase?, found]

theorem phase?_eq_none : cache.phase? name = none ↔ cache.entries.get? name = none := by
  simp [phase?]

theorem mem_names_of_phase? {phase : CacheEntry.Phase} (found : cache.phase? name = some phase) :
    name ∈ cache.entries.names := by
  obtain ⟨entry, listed, -⟩ := Option.map_eq_some_iff.mp found
  exact Table.mem_names_of_get? listed

theorem phase?_pending : cache.phase? name = some .pending ↔ cache.entries.get? name = some .pending := by
  unfold phase?
  cases cache.entries.get? name with
  | none => simp
  | some entry => cases entry <;> simp [CacheEntry.phase]

theorem phase?_building : cache.phase? name = some .building ↔
    ∃ placeholder, cache.entries.get? name = some (.building placeholder) := by
  unfold phase?
  cases cache.entries.get? name with
  | none => simp
  | some entry => cases entry <;> simp [CacheEntry.phase]

theorem phase?_begin : (cache.begin name).phase? other = if name = other then some .pending else cache.phase? other := by
  unfold phase?
  rw [get?_begin]
  split <;> rfl

theorem phase?_publish (unfinished : cache.phase? m.name = some .pending ∨ cache.phase? m.name = some .building) :
    (cache.publish m).phase? other = if m.name = other then some .building else cache.phase? other := by
  have open_ : (cache.entries.get? m.name).any (!·.isFinal) := by
    unfold phase? at unfinished
    cases found : cache.entries.get? m.name with
    | none => simp [found] at unfinished
    | some entry => cases entry <;> simp_all [CacheEntry.phase, CacheEntry.isFinal]
  unfold phase?
  rw [get?_publish]
  simp only [open_, and_true]
  split <;> rfl

theorem phase?_finish : (cache.finish m).1.phase? other = if m.name = other then some .ready else cache.phase? other := by
  unfold phase?
  rw [get?_finish]
  split <;> rfl

theorem phase?_fail : (cache.fail name e).phase? other = if name = other then some .failed else cache.phase? other := by
  unfold phase?
  rw [get?_fail]
  split <;> rfl

@[simp] theorem phase?_registerInterface {child parent parentClass : String} :
    (cache.registerInterface child parent parentClass).phase? other = cache.phase? other := by
  unfold phase?
  rw [get?_registerInterface]
  split
  · rename_i same
    subst same
    simp [Function.comp_def]
  · rfl

end Phases

section Links
variable {child parent parentClass : String} {link wanted : PendingLink}

@[simp] theorem linksOf_publish : (cache.publish m).linksOf other = cache.linksOf other := by
  simp [linksOf]

theorem linksOf_erase (pendingLinks : Table (List PendingLink)) :
    ((pendingLinks.erase name).get? other).getD [] = if name = other then [] else (pendingLinks.get? other).getD [] := by
  rw [Table.get?_erase]
  split <;> rfl

theorem linksOf_finish : (cache.finish m).1.linksOf other = if m.name = other then [] else cache.linksOf other :=
  linksOf_erase _

theorem linksOf_fail : (cache.fail name e).linksOf other = if name = other then [] else cache.linksOf other :=
  linksOf_erase _

theorem mem_linksOf_registerInterface (wanted : PendingLink) :
    wanted ∈ (cache.registerInterface child parent parentClass).linksOf other ↔
      other = child ∧ wanted = ⟨parent, parentClass⟩ ∧ cache.phase? child ≠ some .ready ∨
        wanted ∈ cache.linksOf other := by
  have waits : wanted ∈ (cache.addPending child ⟨parent, parentClass⟩).linksOf other ↔
      other = child ∧ wanted = ⟨parent, parentClass⟩ ∨ wanted ∈ cache.linksOf other := mem_linksOf_addPending
  unfold registerInterface
  cases found : cache.entries.get? child with
  | none => simpa [phase?, found] using waits
  | some entry =>
      cases entry with
      | ready m => simp [phase?, found, CacheEntry.phase, linksOf]
      | pending => simpa [phase?, found, CacheEntry.phase] using waits
      | failed e => simpa [phase?, found, CacheEntry.phase] using waits
      | building placeholder =>
          change wanted ∈ (cache.addPending child ⟨parent, parentClass⟩).linksOf other ↔ _
          simpa [phase?, found, CacheEntry.phase] using waits

theorem implement_unionMembers (m : Model) (link : PendingLink) : (implement m link).unionMembers = m.unionMembers := by
  unfold implement Model.addImport
  split <;> rfl

theorem mem_interfaces_implement (m : Model) (link : PendingLink) (union : String) :
    union ∈ (implement m link).interfaces ↔ union = link.parent ∨ union ∈ m.interfaces := by
  have same : (implement m link).interfaces = Model.link m.interfaces link.parent := by
    unfold implement Model.addImport
    split <;> rfl
  rw [same, Model.mem_link]

end Links

section Names

theorem mem_names_iff {t : Table CacheEntry} : name ∈ t.names ↔ t.get? name ≠ none := by
  rw [Ne, Table.get?_eq_none, not_not]

@[simp] theorem mem_names_publish : name ∈ (cache.publish m).entries.names ↔ name ∈ cache.entries.names := by
  rw [mem_names_iff, mem_names_iff, get?_publish]
  split
  · rename_i unfinished
    have known : cache.entries.get? name ≠ none := by
      rw [← unfinished.1]
      intro absent
      simp [absent] at unfinished
    simp [known]
  · rfl

@[simp] theorem mem_names_registerInterface {child parent parentClass : String} :
    name ∈ (cache.registerInterface child parent parentClass).entries.names ↔ name ∈ cache.entries.names := by
  rw [mem_names_iff, mem_names_iff, get?_registerInterface]
  split
  · rename_i same
    subst same
    simp
  · rfl

theorem names_publish : cache.entries.names <+: (cache.publish m).entries.names := by
  rw [publish_eq]
  dsimp only
  split
  · exact Table.names_put _ _ _
  · exact List.prefix_rfl

theorem names_registerInterface {child parent parentClass : String} :
    cache.entries.names <+: (cache.registerInterface child parent parentClass).entries.names := by
  unfold registerInterface
  dsimp only
  split
  · exact Table.names_put _ _ _
  · exact Table.names_put _ _ _
  · exact List.prefix_rfl

theorem implement_name (m : Model) (link : PendingLink) : (implement m link).name = m.name := by
  unfold implement Model.addImport
  split <;> rfl

end Names

section Models
variable {P : String → Model → Prop}

def Each (P : String → Model → Prop) (cache : Cache) : Prop :=
  ∀ (name : String) (entry : CacheEntry) (m : Model),
    cache.entries.get? name = some entry → entry.model? = some m → P name m

theorem Each.begin (each : cache.Each P) (name : String) : (cache.begin name).Each P := by
  intro other entry m found model
  rw [get?_begin] at found
  split at found
  · cases found
    cases model
  · exact each other entry m found model

theorem Each.publish (each : cache.Each P) (holds : P m.name m) : (cache.publish m).Each P := by
  intro other entry published found model
  rw [get?_publish] at found
  split at found
  · rename_i here
    cases found
    cases model
    exact here.1 ▸ holds
  · exact each other entry published found model

theorem Each.fail (each : cache.Each P) (name : String) (e : ModelError) : (cache.fail name e).Each P := by
  intro other entry m found model
  rw [get?_fail] at found
  split at found
  · cases found
    cases model
  · exact each other entry m found model

theorem Each.lookup (each : cache.Each P) (answered : cache.lookup name = some (.ok m)) : P name m := by
  rcases lookup_ok.mp answered with found | found <;> exact each name _ m found rfl

theorem Each.finish (each : cache.Each P) (holds : P m.name m)
    (linked : ∀ {name : String} {other : Model}, ∀ link ∈ cache.linksOf m.name, P name other → P name (implement other link)) :
    (cache.finish m).1.Each P := by
  have finished : P m.name (cache.finish m).2 :=
    List.foldlRecOn (cache.linksOf m.name) implement holds fun _ kept link waits => linked link waits kept
  intro other entry stored found model
  rw [get?_finish] at found
  split at found
  · rename_i here
    cases found
    cases model
    exact here ▸ finished
  · exact each other entry stored found model

theorem Each.registerInterface {child parent parentClass : String} (each : cache.Each P)
    (shown : ∀ {name : String} {m : Model}, P name m → P name (m.addInterface parent))
    (linked : ∀ {name : String} {m : Model}, P name m → P name (implement m ⟨parent, parentClass⟩)) :
    (cache.registerInterface child parent parentClass).Each P := by
  intro other entry m found model
  rw [get?_registerInterface] at found
  split at found
  · rename_i same
    subst same
    obtain ⟨old, before, rfl⟩ := Option.map_eq_some_iff.mp found
    cases old with
    | pending => cases model
    | failed e => cases model
    | building placeholder =>
        cases model
        exact shown (each child _ placeholder before rfl)
    | ready finished =>
        cases model
        exact linked (each child _ finished before rfl)
  · exact each other entry m found model

def Named (cache : Cache) : Prop :=
  ∀ (name : String) (entry : CacheEntry) (m : Model),
    cache.entries.get? name = some entry → entry.model? = some m → m.name = name

theorem named_implement {name : String} {m : Model} (link : PendingLink) (named : m.name = name) :
    (implement m link).name = name := (implement_name m link).trans named

theorem Named.begin (named : cache.Named) (name : String) : (cache.begin name).Named := Each.begin named name

theorem Named.publish (named : cache.Named) (m : Model) : (cache.publish m).Named := Each.publish named rfl

theorem Named.finish (named : cache.Named) (m : Model) : (cache.finish m).1.Named :=
  Each.finish named rfl fun link _ => named_implement link

theorem Named.fail (named : cache.Named) (name : String) (e : ModelError) : (cache.fail name e).Named :=
  Each.fail named name e

theorem Named.registerInterface (named : cache.Named) (child parent parentClass : String) :
    (cache.registerInterface child parent parentClass).Named :=
  Each.registerInterface named id (named_implement _)

end Models
end Cache
end ApiModels
