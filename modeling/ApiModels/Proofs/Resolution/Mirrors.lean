import ApiModels.Proofs.Document.Orders
import ApiModels.Proofs.Model.Twins
import ApiModels.Proofs.Resolution.Drafts

namespace ApiModels

-- Either both fail, or both give related values and leave related states.
def Concur {ε σ τ α β : Type} (R : σ → τ → Prop) (V : α → β → Prop) :
    EStateM.Result ε σ α → EStateM.Result ε τ β → Prop
  | .ok a next, .ok b later => V a b ∧ R next later
  | .error _ _, .error _ _ => True
  | _, _ => False

def Mirrors {ε σ τ α β : Type} (R : σ → τ → Prop) (V : α → β → Prop) (x : EStateM ε σ α) (y : EStateM ε τ β) : Prop :=
  ∀ s t, R s t → Concur R V (x s) (y t)

section Laws
variable {ε σ τ α β γ δ : Type} {R : σ → τ → Prop} {V : α → β → Prop} {W : γ → δ → Prop}
  {x : EStateM ε σ α} {y : EStateM ε τ β} {s next : σ} {t later : τ}

theorem Concur.ok {result : EStateM.Result ε τ β} {a : α} (both : Concur R V (.ok a next : EStateM.Result ε σ α) result) :
    ∃ b later, result = .ok b later ∧ V a b ∧ R next later := by
  cases result with
  | ok b later => exact ⟨b, later, rfl, both⟩
  | error e later => exact both.elim

theorem Concur.error {result : EStateM.Result ε τ β} {e : ε}
    (both : Concur R V (.error e next : EStateM.Result ε σ α) result) : ∃ f later, result = .error f later := by
  cases result with
  | ok b later => exact both.elim
  | error f later => exact ⟨f, later, rfl⟩

theorem Concur.bind {f : α → EStateM ε σ γ} {g : β → EStateM ε τ δ} (first : Concur R V (x s) (y t))
    (rest : ∀ a b, V a b → Mirrors R W (f a) (g b)) : Concur R W ((x >>= f) s) ((y >>= g) t) := by
  change Concur R W (EStateM.bind x f s) (EStateM.bind y g t)
  unfold EStateM.bind
  cases one : x s with
  | ok a middle =>
      rw [one] at first
      obtain ⟨b, between, two, same, related⟩ := first.ok
      rw [two]
      exact rest a b same middle between related
  | error e middle =>
      rw [one] at first
      obtain ⟨f, between, two⟩ := first.error
      rw [two]
      trivial

theorem Mirrors.bind {f : α → EStateM ε σ γ} {g : β → EStateM ε τ δ} (first : Mirrors R V x y)
    (rest : ∀ a b, V a b → Mirrors R W (f a) (g b)) : Mirrors R W (x >>= f) (y >>= g) :=
  fun s t start => (first s t start).bind rest

theorem Mirrors.pure {a : α} {b : β} (same : V a b) :
    Mirrors R V (Pure.pure a : EStateM ε σ α) (Pure.pure b : EStateM ε τ β) :=
  fun _ _ start => ⟨same, start⟩

theorem Mirrors.forM {f : α → EStateM ε σ PUnit} {g : α → EStateM ε τ PUnit} (list : List α)
    (each : ∀ a, Mirrors R Eq (f a) (g a)) : Mirrors R Eq (list.forM f) (list.forM g) := by
  induction list with
  | nil => exact Mirrors.pure rfl
  | cons head rest ih => exact Mirrors.bind (each head) fun _ _ _ => ih

end Laws

-- Two projects that differ only in the order of their schemas.
structure Project.Alike (one two : Project) : Prop where
  settings : two.settings = one.settings
  schemas : one.document.SameSchemas two.document
  aliases : ∀ name, two.aliases.get? name = one.aliases.get? name
  cyclic : ∀ name, two.inheritance.isCyclic name = one.inheritance.isCyclic name

namespace Project.Alike
variable {one two : Project}

theorem refl (project : Project) : project.Alike project := ⟨rfl, fun _ => rfl, fun _ => rfl, fun _ => rfl⟩

theorem symm (alike : one.Alike two) : two.Alike one :=
  ⟨alike.settings.symm, alike.schemas.symm, fun name => (alike.aliases name).symm, fun name => (alike.cyclic name).symm⟩

theorem of_reorders {document other : Document} (settings : GeneratorSettings) (reorders : document.Reorders other) :
    (Project.of settings document).Alike (Project.of settings other) :=
  ⟨rfl, reorders.same, reorders.same.aliases settings.typeMappings, reorders.same.isCyclic⟩

end Project.Alike

namespace Resolution
variable {one two : Project}

def Matches {α : Type} (x y : Resolution α) : Prop := Mirrors (fun _ _ => True) Eq x y

theorem modify_matches (f g : Session → Session) : Matches (modify f) (modify g) := fun _ _ _ => ⟨rfl, trivial⟩

theorem ofExcept_matches {α : Type} (x : Except ModelError α) : Matches (ofExcept x) (ofExcept x) := by
  cases x with
  | ok a => exact Mirrors.pure rfl
  | error e => exact fun _ _ _ => trivial

theorem reportNote_matches (subject : String) (note : Option InferenceNote) :
    Matches (reportNote subject note) (reportNote subject note) := by
  cases note with
  | none => exact Mirrors.pure rfl
  | some note => exact modify_matches _ _

variable (alike : one.Alike two)
include alike

theorem infer_matches (subject : String) (s : Schema) : Matches (infer one subject s) (infer two subject s) := by
  unfold infer
  rw [alike.settings]
  exact Mirrors.bind (reportNote_matches _ _) fun _ _ _ => Mirrors.pure rfl

theorem unalias_matches (owner : String) (s : Schema) : Matches (unalias one owner s) (unalias two owner s) := by
  unfold unalias
  rw [alike.schemas.unalias]
  exact ofExcept_matches _

theorem typeName_matches (owner : String) (s : Schema) : Matches (typeName one owner s) (typeName two owner s) := by
  unfold typeName Project.naming
  rw [alike.settings]
  split
  · exact Mirrors.pure rfl
  · refine Mirrors.bind (unalias_matches alike owner s) fun target _ same => ?_
    cases same
    split
    · exact Mirrors.pure rfl
    · refine Mirrors.bind (infer_matches alike owner target) fun tag _ same => ?_
      cases same
      exact Mirrors.pure rfl

theorem property_matches (owner name : String) (s : Schema) :
    Matches (property one owner name s) (property two owner name s) := by
  unfold property
  rw [alike.settings]
  dsimp only
  rw [alike.schemas.unfolding]
  refine Mirrors.bind (ofExcept_matches _) fun unfolding _ same => ?_
  cases same
  exact Mirrors.bind (reportNote_matches _ _) fun _ _ _ => Mirrors.pure rfl

theorem refuseCycle_matches (name : String) : Matches (refuseCycle one name) (refuseCycle two name) := by
  intro s t _
  have same := alike.cyclic name
  unfold Inheritance.isCyclic at same
  rw [refuseCycle_run, refuseCycle_run]
  cases first : one.inheritance.cycleOf? name <;> cases second : two.inheritance.cycleOf? name
  · exact ⟨rfl, trivial⟩
  · simp [first, second] at same
  · simp [first, second] at same
  · trivial

theorem outline_matches (name : String) (written target : Schema) :
    Matches (outline one name written target) (outline two name written target) := by
  have typed (m : Model) (tag : TypeTag) : m.setType two target tag = m.setType one target tag := by
    unfold Model.setType Project.naming
    rw [alike.settings, alike.aliases]
  unfold outline
  refine Mirrors.bind (infer_matches alike name target) fun tag _ same => ?_
  cases same
  refine Mirrors.bind (V := Eq) ?_ fun _ _ _ => ?_
  · unfold reportContradiction
    split
    · exact modify_matches _ _
    · exact Mirrors.pure rfl
  refine Mirrors.bind (V := Eq) ?_ fun extras _ same => ?_
  · unfold extrasType
    split
    · refine Mirrors.bind (typeName_matches alike name _) fun type _ same => ?_
      cases same
      exact Mirrors.pure rfl
    · exact Mirrors.pure rfl
  cases same
  unfold withItems Project.naming
  rw [typed, alike.settings]
  split
  · refine Mirrors.bind (typeName_matches alike name _) fun type _ same => ?_
    cases same
    exact Mirrors.pure rfl
  · exact Mirrors.pure rfl

theorem opening_matches (name : String) (written : Schema) :
    Matches (opening one name written) (opening two name written) := by
  unfold opening
  refine Mirrors.bind (refuseCycle_matches alike name) fun _ _ _ => ?_
  refine Mirrors.bind (unalias_matches alike name written) fun target _ same => ?_
  cases same
  refine Mirrors.bind (outline_matches alike name written target) fun outlined _ same => ?_
  cases same
  exact Mirrors.bind (modify_matches _ _) fun _ _ _ => Mirrors.pure rfl

end Resolution

namespace Model

def requireDeclared (m : Model) (name : String) : Model := if (m.property? name).isSome then m.requireName name else m

-- Between two models and what they become by declaring the same properties.
structure Pairing (R : Model → Model → Prop) : Prop where
  name : ∀ {m other}, R m other → other.name = m.name
  isAlias : ∀ {m other}, R m other → other.isAlias = m.isAlias
  declare : ∀ {m other} (p : Property), R m other → R (m.declare p) (other.declare p)
  require : ∀ {m other} (name : String), R m other → R (m.requireDeclared name) (other.requireDeclared name)
  refresh : ∀ {m other}, R m other → R m.refresh other.refresh

theorem Twins.pairing : Pairing Twins where
  name twins := twins.name
  isAlias twins := twins.isAlias
  declare p twins := twins.declare p
  require name twins := by
    unfold requireDeclared
    rw [twins.all]
    split
    · exact twins.requireName name
    · exact twins
  refresh twins := twins.refresh

def Namesakes (m other : Model) : Prop := other.name = m.name ∧ other.isAlias = m.isAlias

theorem Namesakes.pairing : Pairing Namesakes where
  name := And.left
  isAlias := And.right
  declare _ same := same
  require name same := by
    unfold requireDeclared
    split <;> split <;> exact same
  refresh same := same

theorem Namesakes.adopt {m other : Model} (same : m.Namesakes other) (parents elders : List Model) :
    (m.adopt parents).Namesakes (other.adopt elders) := by
  have kept (m : Model) (parents : List Model) : m.Namesakes (m.adopt parents) := by
    unfold Model.adopt
    split
    · exact ⟨rfl, rfl⟩
    · dsimp only
      split <;> exact ⟨extend_name _ _, extend_isAlias _ _⟩
  exact ⟨(kept other elders).1.trans (same.1.trans (kept m parents).1.symm),
    (kept other elders).2.trans (same.2.trans (kept m parents).2.symm)⟩

theorem Twins.adopt {m other : Model} {parents elders : List Model} (twins : m.Twins other)
    (last : Option.Rel Twins parents.getLast? elders.getLast?) : (m.adopt parents).Twins (other.adopt elders) := by
  have collapsed (m : Model) (names : List String) :
      m.Twins (if names.isEmpty then m else { m with collapsedParents := names }) := by
    split
    · exact .refl m
    · exact ⟨rfl, rfl, rfl, fun _ => rfl, fun _ => rfl, rfl⟩
  unfold Model.adopt
  generalize parents.getLast? = kept at last
  generalize elders.getLast? = elder at last
  cases last with
  | none => exact twins
  | some same => exact (((collapsed m _).symm.trans twins).trans (collapsed other _)).extend same

end Model

namespace Drafting
variable {one two : Project} {R : Model → Model → Prop}

def Pairs {α : Type} (R : Model → Model → Prop) (x y : Drafting α) : Prop :=
  Mirrors (fun d e => R d.model e.model) Eq x y

theorem ofResolution_pairs {α : Type} {x y : Resolution α} (matches_ : Resolution.Matches x y) :
    Pairs R (ofResolution x) (ofResolution y) := by
  intro d e start
  have both := matches_ d.session e.session trivial
  unfold ofResolution
  cases first : x d.session <;> cases second : y e.session <;> rw [first, second] at both
  · exact ⟨both.1, start⟩
  · exact both.elim
  · exact both.elim
  · trivial

theorem report_pairs (code : DiagnosticCode) (message other : String) : Pairs R (report code message) (report code other) :=
  fun _ _ start => ⟨rfl, start⟩

theorem declareRequired_run (name : String) (d : Draft) :
    ∃ session, declareRequired name d = .ok () ⟨session, d.model.requireDeclared name⟩ := by
  change ∃ session, (if (d.model.property? name).isSome then edit (·.requireName name) else _) d = .ok () ⟨session, _⟩
  unfold Model.requireDeclared
  split <;> exact ⟨_, rfl⟩

theorem declareProperty_at (project : Project) (name : String) (s : Schema) (d : Draft) : declareProperty project name s d =
    (ofResolution (Resolution.property project d.model.name name s) >>= fun p => edit (·.declare p)) d := rfl

theorem flat_at (project : Project) (target : Schema) (d : Draft) : Resolution.flat project target d =
    (if d.model.isAlias then
      if !target.properties.isEmpty then report .aliasPropertiesIgnored (Resolution.ignoredMessage d.model target) else pure ()
    else declare project target.properties target.required) d := rfl

theorem reportBranches_pairs (s : Schema) : Pairs R (reportBranches s) (reportBranches s) := by
  unfold reportBranches
  split
  · exact Mirrors.pure rfl
  · split <;> exact report_pairs _ _ _

variable (alike : one.Alike two) (law : Model.Pairing R)
include alike law

theorem declareProperty_pairs (name : String) (s : Schema) :
    Pairs R (declareProperty one name s) (declareProperty two name s) := by
  intro d e start
  have both : Pairs R
      (ofResolution (Resolution.property one d.model.name name s) >>= fun p => edit (·.declare p))
      (ofResolution (Resolution.property two d.model.name name s) >>= fun p => edit (·.declare p)) := by
    refine Mirrors.bind (ofResolution_pairs (Resolution.property_matches alike _ name s)) fun p _ same => ?_
    cases same
    exact fun _ _ related => ⟨rfl, law.declare p related⟩
  rw [declareProperty_at, declareProperty_at, law.name start]
  exact both d e start

theorem declare_pairs (properties : List (String × Schema)) (required : List String) :
    Pairs R (declare one properties required) (declare two properties required) := by
  refine Mirrors.bind (Mirrors.forM properties fun property => declareProperty_pairs alike law property.1 property.2)
    fun _ _ _ => ?_
  refine Mirrors.bind (Mirrors.forM required fun name => ?_) fun _ _ _ => ?_
  · intro d e start
    obtain ⟨session, ran⟩ := declareRequired_run name d
    obtain ⟨session', ran'⟩ := declareRequired_run name e
    rw [ran, ran']
    exact ⟨rfl, law.require name start⟩
  · exact fun _ _ related => ⟨rfl, law.refresh related⟩

theorem flat_pairs (target : Schema) : Pairs R (Resolution.flat one target) (Resolution.flat two target) := by
  intro d e start
  rw [flat_at, flat_at, law.isAlias start]
  by_cases alias_ : d.model.isAlias
  · rw [if_pos alias_, if_pos alias_]
    by_cases ignored : !target.properties.isEmpty
    · rw [if_pos ignored, if_pos ignored]
      exact report_pairs _ _ _ d e start
    · rw [if_neg ignored, if_neg ignored]
      exact ⟨rfl, start⟩
  · rw [if_neg alias_, if_neg alias_]
    exact declare_pairs alike law _ _ d e start

theorem inheritFrom_concur (members : List Schema) {parents elders : List Model} {d e : Draft}
    (start : R d.model e.model) (adopted : R (d.model.adopt parents) (e.model.adopt elders)) :
    Concur (fun d e => R d.model e.model) Eq (inheritFrom one members parents d) (inheritFrom two members elders e) := by
  unfold inheritFrom
  split
  · exact ⟨rfl, start⟩
  · obtain ⟨session, linked⟩ := linkParent_run parents d
    obtain ⟨session', linked'⟩ := linkParent_run elders e
    refine Concur.bind (V := Eq) ?_ fun _ _ _ => ?_
    · rw [linked, linked']
      exact ⟨rfl, adopted⟩
    · refine Mirrors.bind (Mirrors.forM _ fun member => declare_pairs alike law member.properties member.required)
        fun _ _ _ => ?_
      exact fun _ _ related => ⟨rfl, law.refresh related⟩

theorem groundwork_concur (target : Schema) {parents elders : List Model} {d e : Draft}
    (start : R d.model e.model) (adopted : R (d.model.adopt parents) (e.model.adopt elders)) :
    Concur (fun d e => R d.model e.model) Eq (groundwork one target parents d) (groundwork two target elders e) := by
  unfold groundwork
  split
  · refine Concur.bind (inheritFrom_concur alike law target.allOfMembers start adopted) fun _ _ _ => ?_
    refine Mirrors.bind (declare_pairs alike law _ _) fun _ _ _ => ?_
    refine Mirrors.bind (reportBranches_pairs target) fun _ _ _ => ?_
    intro d e related
    obtain ⟨session, ran, -⟩ := announce_run target d
    obtain ⟨session', ran', -⟩ := announce_run target e
    rw [ran, ran']
    exact ⟨rfl, related⟩
  · exact flat_pairs alike law target d e start

end Drafting
end ApiModels
