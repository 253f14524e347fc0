import Mathlib.Data.List.Basic
import ApiModels.Resolution.Links

namespace ApiModels
namespace Schema

mutual
-- The arms inside an arm that is a reference are never looked at.
def inlineArms : Schema → Nat
  | { oneOf, .. } => inlineArmsOfList oneOf

def inlineArmsOfList : Option (List Schema) → Nat
  | none => 0
  | some arms => countInlineArms arms

def countInlineArms : List Schema → Nat
  | [] => 0
  | arm :: rest => (if arm.reference.isSome then 0 else arm.inlineArms + 1) + countInlineArms rest
end

mutual
def armNames (parent : String) : Schema → List String
  | { oneOf, .. } => armNamesOfList parent oneOf

def armNamesOfList (parent : String) : Option (List Schema) → List String
  | none => []
  | some arms => armNamesFrom parent 0 arms

def armNamesFrom (parent : String) (index : Nat) : List Schema → List String
  | [] => []
  | arm :: rest =>
      (if arm.reference.isSome then []
        else Drafting.armName parent index :: arm.armNames (Drafting.armName parent index)) ++
        armNamesFrom parent (index + 1) rest
end

mutual
theorem armNames_length (parent : String) : (s : Schema) → (s.armNames parent).length = s.inlineArms
  | { oneOf, .. } => by
      unfold armNames inlineArms
      exact armNamesOfList_length parent oneOf

theorem armNamesOfList_length (parent : String) :
    (arms : Option (List Schema)) → (armNamesOfList parent arms).length = inlineArmsOfList arms
  | none => rfl
  | some arms => by
      unfold armNamesOfList inlineArmsOfList
      exact armNamesFrom_length parent 0 arms

theorem armNamesFrom_length (parent : String) (index : Nat) :
    (arms : List Schema) → (armNamesFrom parent index arms).length = countInlineArms arms
  | [] => rfl
  | arm :: rest => by
      have nested := armNames_length (Drafting.armName parent index) arm
      have later := armNamesFrom_length parent (index + 1) rest
      unfold armNamesFrom countInlineArms
      split
      · simpa using later
      · simp only [List.cons_append, List.length_cons, List.length_append, nested, later]
        omega
end

theorem armNamesFrom_subset {parent : String} {arms : List Schema} {start index : Nat} {arm : Schema}
    (found : arms[index]? = some arm) (inline : arm.reference = none) :
    Drafting.armName parent (start + index) :: arm.armNames (Drafting.armName parent (start + index)) ⊆
      armNamesFrom parent start arms := by
  induction arms generalizing start index with
  | nil => cases found
  | cons head rest ih =>
      unfold armNamesFrom
      cases index with
      | zero =>
          cases found
          simp [inline]
      | succ index =>
          have later : _ ⊆ armNamesFrom parent (start + 1) rest := ih found
          rw [Nat.add_right_comm, Nat.add_assoc] at later
          exact fun name listed => List.mem_append_right _ (later listed)

theorem armNames_arm {parent : String} {s arm : Schema} {index : Nat} (found : s.oneOfArms[index]? = some arm)
    (inline : arm.reference = none) :
    Drafting.armName parent index :: arm.armNames (Drafting.armName parent index) ⊆ s.armNames parent := by
  have unfolds : s.armNames parent = armNamesOfList parent s.oneOf := by
    cases s
    rfl
  rw [unfolds]
  unfold oneOfArms at found
  cases arms : s.oneOf with
  | none => simp [arms] at found
  | some list =>
      rw [arms] at found
      have listed : _ ⊆ armNamesFrom parent 0 list := armNamesFrom_subset found inline
      rwa [Nat.zero_add] at listed

end Schema

namespace Document

def inlineArms (document : Document) : Nat :=
  document.schemas.values.foldr (fun s count => s.inlineArms + count) 0

def armNames (document : Document) : List String :=
  document.schemas.entries.flatMap fun (name, s) => s.armNames name

theorem armNames_length (document : Document) : document.armNames.length = document.inlineArms := by
  unfold armNames inlineArms Table.values
  induction document.schemas.entries with
  | nil => rfl
  | cons head rest ih =>
      rw [List.flatMap_cons, List.length_append, ih, Schema.armNames_length]
      rfl

theorem armNames_of_get? {document : Document} {name : String} {s : Schema} (found : document.get? name = some s) :
    s.armNames name ⊆ document.armNames :=
  fun _ listed => List.mem_flatMap.mpr ⟨(name, s), Table.get?_eq_some.mp found, listed⟩

end Document
end ApiModels
