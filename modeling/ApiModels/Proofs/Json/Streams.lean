import Mathlib.Data.List.Forall2
import ApiModels.Json.Reader

namespace ApiModels.Json.Reader

def Blank (chars : List Char) : Prop := ∀ c ∈ chars, isBlank c

section Machine
variable {depth : Nat} {state next : State} {value other : Value} {frames : List Frame} {chars more : List Char}

def Reads (depth : Nat) (chars : List Char) (value : Value) : Prop :=
  ∃ frames, chars.foldlM (step depth) start = some ⟨.finished value, frames⟩

theorem step_finished (depth : Nat) (value : Value) (frames : List Frame) (c : Char) :
    step depth ⟨.finished value, frames⟩ c = if isBlank c then some ⟨.finished value, frames⟩ else none := rfl

theorem foldlM_finished (ran : chars.foldlM (step depth) ⟨.finished value, frames⟩ = some next) :
    next = ⟨.finished value, frames⟩ ∧ Blank chars := by
  induction chars with
  | nil =>
      cases ran
      exact ⟨rfl, fun _ listed => absurd listed List.not_mem_nil⟩
  | cons c rest ih =>
      rw [List.foldlM_cons, step_finished] at ran
      split at ran
      · rename_i blank
        obtain ⟨same, later⟩ := ih ran
        exact ⟨same, List.forall_mem_cons.mpr ⟨blank, later⟩⟩
      · cases ran

theorem foldlM_blank (blank : Blank chars) : chars.foldlM (step depth) start = some start := by
  induction chars with
  | nil => rfl
  | cons c rest ih =>
      obtain ⟨here, later⟩ := List.forall_mem_cons.mp blank
      have stays : step depth start c = some start := if_pos here
      rw [List.foldlM_cons, stays]
      exact ih later

theorem Reads.not_blank (reads : Reads depth chars value) : ¬ Blank chars := by
  intro blank
  obtain ⟨frames, ran⟩ := reads
  rw [foldlM_blank blank] at ran
  cases ran

theorem Reads.behind (blank : Blank more) (reads : Reads depth chars value) : Reads depth (more ++ chars) value := by
  obtain ⟨frames, ran⟩ := reads
  refine ⟨frames, ?_⟩
  rw [List.foldlM_append, foldlM_blank blank]
  exact ran

theorem Reads.extended (reads : Reads depth chars value) (whole : Reads depth (chars ++ more) other) :
    value = other ∧ Blank more := by
  obtain ⟨frames, ran⟩ := reads
  obtain ⟨others, further⟩ := whole
  rw [List.foldlM_append, ran] at further
  obtain ⟨same, blank⟩ := foldlM_finished further
  cases same
  exact ⟨rfl, blank⟩

end Machine

section Texts
variable {depth : Nat} {texts others : List (List Char)} {values more : List Value} {before after : List Char}

theorem not_blank_flatten {text : List Char} {value : Value} (reads : Reads depth text value) :
    ¬ Blank (before ++ (text ++ texts.flatten)) := by
  intro blank
  exact reads.not_blank fun c listed => blank c (List.mem_append_right before (List.mem_append_left _ listed))

-- Two sequences of texts with the same joined text hold the same values. What is left over of a text that reaches
-- further than the other is blank, and is taken as read before the next one.
theorem values_joined (left : List.Forall₂ (Reads depth) texts values) (right : List.Forall₂ (Reads depth) others more)
    (front : Blank before) (back : Blank after) (same : before ++ texts.flatten = after ++ others.flatten) :
    values = more := by
  induction left generalizing others more before after with
  | nil =>
      cases right with
      | nil => rfl
      | cons reads _ =>
          rw [List.flatten_nil, List.append_nil, List.flatten_cons] at same
          exact absurd (same ▸ front) (not_blank_flatten reads)
  | @cons text value texts values reads left ih =>
      cases right with
      | nil =>
          rw [List.flatten_nil, List.append_nil, List.flatten_cons] at same
          exact absurd (same ▸ back) (not_blank_flatten reads)
      | @cons other known others more reads' right =>
          rw [List.flatten_cons, List.flatten_cons, ← List.append_assoc, ← List.append_assoc] at same
          have first := reads.behind front
          have second := reads'.behind back
          rcases List.append_eq_append_iff.mp same with ⟨rest, longer, same⟩ | ⟨rest, longer, same⟩
          · rw [longer] at second
            obtain ⟨rfl, blank⟩ := first.extended second
            have none : Blank [] := fun _ listed => absurd listed List.not_mem_nil
            rw [ih right none blank same]
          · rw [longer] at first
            obtain ⟨rfl, blank⟩ := second.extended first
            have none : Blank [] := fun _ listed => absurd listed List.not_mem_nil
            rw [ih right blank none same.symm]

end Texts

section Objects
variable {state : State} {fields : List (String × Value)}

theorem finishNumeral_value {read : List Char} {frames : List Frame} {value : Value} {rest : List Frame}
    (ended : finishNumeral read frames = some ⟨.finished value, rest⟩) : ∃ number, value = .number number := by
  obtain ⟨number, -, delivered⟩ := Option.map_eq_some_iff.mp ended
  cases frames with
  | nil =>
      cases delivered
      exact ⟨number, rfl⟩
  | cons frame _ => cases frame <;> cases delivered

-- An object has been read to its end when its text ends; only a numeral waits for more.
theorem finish_object (ended : finish state = some (.object fields)) : state.mode = .finished (.object fields) := by
  obtain ⟨mode, frames⟩ := state
  cases mode with
  | finished value =>
      cases ended
      rfl
  | numeral read =>
      unfold finish at ended
      dsimp only at ended
      split at ended
      · rename_i value _ numeral
        cases ended
        obtain ⟨number, same⟩ := finishNumeral_value numeral
        cases same
      · cases ended
  | _ => cases ended

theorem reads_of_read? {text : String} {depth : Nat} (read : read? text depth = some (.object fields)) :
    Reads depth text.toList (.object fields) := by
  obtain ⟨⟨mode, frames⟩, ran, ended⟩ := Option.bind_eq_some_iff.mp read
  obtain rfl : mode = _ := finish_object ended
  exact ⟨frames, ran⟩

end Objects
end ApiModels.Json.Reader
