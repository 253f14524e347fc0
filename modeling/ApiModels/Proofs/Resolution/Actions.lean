import ApiModels.Resolution.Draft

namespace ApiModels

section Outcomes
variable {ε σ α β : Type} {x : EStateM ε σ α} {f : α → EStateM ε σ β} {s next : σ}

theorem bind_ok {b : β} :
    (x >>= f) s = .ok b next ↔ ∃ a middle, x s = .ok a middle ∧ f a middle = .ok b next := by
  change EStateM.bind x f s = _ ↔ _
  unfold EStateM.bind
  cases x s with
  | ok a middle =>
      constructor
      · exact fun ran => ⟨a, middle, rfl, ran⟩
      · rintro ⟨_, _, same, ran⟩
        cases same
        exact ran
  | error e middle => simp

theorem bind_error {e : ε} :
    (x >>= f) s = .error e next ↔
      x s = .error e next ∨ ∃ a middle, x s = .ok a middle ∧ f a middle = .error e next := by
  change EStateM.bind x f s = _ ↔ _
  unfold EStateM.bind
  cases x s with
  | ok a middle =>
      constructor
      · exact fun ran => .inr ⟨a, middle, rfl, ran⟩
      · rintro (same | ⟨_, _, same, ran⟩)
        · cases same
        · cases same
          exact ran
  | error e middle => simp

theorem bind_agree {g : α → EStateM ε σ β} (same : ∀ s a next, x s = .ok a next → f a next = g a next) :
    x >>= f = x >>= g := by
  funext s
  change EStateM.bind x f s = EStateM.bind x g s
  unfold EStateM.bind
  cases ran : x s with
  | ok a next => exact same s a next ran
  | error e next => rfl

theorem forM_agree {one two : α → EStateM ε σ PUnit} (list : List α) (same : ∀ a ∈ list, two a = one a) :
    list.forM two = list.forM one := by
  induction list with
  | nil => rfl
  | cons head rest ih =>
      change (two head >>= fun _ => rest.forM two) = one head >>= fun _ => rest.forM one
      rw [same head List.mem_cons_self, ih fun a later => same a (List.mem_cons_of_mem _ later)]

theorem mapM_agree {one two : α → EStateM ε σ β} (list : List α) (same : ∀ a ∈ list, two a = one a) :
    list.mapM two = list.mapM one := by
  induction list with
  | nil => rfl
  | cons head rest ih =>
      rw [List.mapM_cons, List.mapM_cons, same head List.mem_cons_self,
        ih fun a later => same a (List.mem_cons_of_mem _ later)]

theorem get_bind {g : σ → EStateM ε σ β} : (get >>= g) s = g s s := rfl

end Outcomes

-- From this state on the state changes only along `R`, and an error is one that `B` allows.
def WithinAt {ε σ α : Type} (R : σ → σ → Prop) (B : σ → ε → Prop) (action : EStateM ε σ α) (s : σ) : Prop :=
  match action s with
  | .ok _ next => R s next
  | .error e next => R s next ∧ B s e

def Within {ε σ α : Type} (R : σ → σ → Prop) (B : σ → ε → Prop) (action : EStateM ε σ α) : Prop :=
  ∀ s, WithinAt R B action s

-- Changes can be joined, and what a later state may fail with an earlier one may.
structure Discipline {ε σ : Type} (R : σ → σ → Prop) (B : σ → ε → Prop) : Prop where
  refl : ∀ s, R s s
  trans : ∀ {a b c}, R a b → R b c → R a c
  stable : ∀ {a b e}, R a b → B b e → B a e

def Returns {ε σ α : Type} (P : α → Prop) (action : EStateM ε σ α) : Prop :=
  ∀ s a next, action s = .ok a next → P a

section Laws
variable {ε σ α β : Type} {R : σ → σ → Prop} {B : σ → ε → Prop}

theorem WithinAt.ok {action : EStateM ε σ α} {s next : σ} {a : α} (within : WithinAt R B action s)
    (ran : action s = .ok a next) : R s next := by
  simpa [WithinAt, ran] using within

theorem WithinAt.error {action : EStateM ε σ α} {s next : σ} {e : ε} (within : WithinAt R B action s)
    (ran : action s = .error e next) : R s next ∧ B s e := by
  simpa [WithinAt, ran] using within

theorem Within.pure (law : Discipline R B) (a : α) : Within R B (Pure.pure a : EStateM ε σ α) :=
  fun s => law.refl s

theorem WithinAt.bind_returns (law : Discipline R B) {P : α → Prop} {x : EStateM ε σ α} {f : α → EStateM ε σ β} {s : σ}
    (first : WithinAt R B x s) (gives : Returns P x) (rest : ∀ a, P a → Within R B (f a)) : WithinAt R B (x >>= f) s := by
  unfold WithinAt
  cases ran : (x >>= f) s with
  | ok b next =>
      obtain ⟨a, middle, one, two⟩ := bind_ok.mp ran
      have given : P a := gives s a middle one
      exact law.trans (first.ok one) ((rest a given middle).ok two)
  | error e next =>
      rcases bind_error.mp ran with one | ⟨a, middle, one, two⟩
      · exact first.error one
      · have given : P a := gives s a middle one
        obtain ⟨moved, allowed⟩ := (rest a given middle).error two
        exact ⟨law.trans (first.ok one) moved, law.stable (first.ok one) allowed⟩

theorem WithinAt.bind (law : Discipline R B) {x : EStateM ε σ α} {f : α → EStateM ε σ β} {s : σ}
    (first : WithinAt R B x s) (rest : ∀ a, Within R B (f a)) : WithinAt R B (x >>= f) s :=
  bind_returns law first (P := fun _ => True) (fun _ _ _ _ => trivial) fun a _ => rest a

theorem Within.bind (law : Discipline R B) {x : EStateM ε σ α} {f : α → EStateM ε σ β}
    (first : Within R B x) (rest : ∀ a, Within R B (f a)) : Within R B (x >>= f) :=
  fun s => WithinAt.bind law (first s) rest

theorem Within.weaken {R' : σ → σ → Prop} {B' : σ → ε → Prop} {action : EStateM ε σ α}
    (within : Within R B action) (moves : ∀ {s next}, R s next → R' s next)
    (allows : ∀ {s e}, B s e → B' s e) : Within R' B' action := by
  intro s
  have known := within s
  unfold WithinAt at known ⊢
  cases ran : action s with
  | ok a next => exact moves (by simpa [ran] using known)
  | error e next =>
      rw [ran] at known
      exact ⟨moves known.1, allows known.2⟩

theorem Within.forM (law : Discipline R B) {f : α → EStateM ε σ PUnit} (list : List α)
    (each : ∀ a ∈ list, Within R B (f a)) : Within R B (list.forM f) := by
  induction list with
  | nil => exact Within.pure law _
  | cons head rest ih =>
      exact Within.bind law (each head (by simp)) fun _ => ih fun a later => each a (List.mem_cons_of_mem _ later)

theorem Returns.pure {P : α → Prop} {a : α} (holds : P a) : Returns P (Pure.pure a : EStateM ε σ α) := by
  intro s b next ran
  cases ran
  exact holds

theorem Returns.bind {P : β → Prop} {x : EStateM ε σ α} {f : α → EStateM ε σ β}
    (rest : ∀ a, Returns P (f a)) : Returns P (x >>= f) := by
  intro s b next ran
  obtain ⟨a, middle, _, two⟩ := bind_ok.mp ran
  exact rest a middle b next two

end Laws
end ApiModels
