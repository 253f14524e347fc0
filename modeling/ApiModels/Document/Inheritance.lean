import ApiModels.Document.Basic

namespace ApiModels

namespace Document

def parents (document : Document) (name : String) : List String :=
  match document.get? name with
  | some s => (s.allOfMembers.filterMap Schema.refName?).filter document.contains
  | none => []

def edgeCount (document : Document) : Nat :=
  (document.names.flatMap document.parents).length

theorem foldr_cost_erase (edges : String → List String) {name : String} {remaining : List String}
    (listed : name ∈ remaining) :
    (remaining.erase name).foldr (fun name cost => (edges name).length + 1 + cost) 0 + (edges name).length + 1
      = remaining.foldr (fun name cost => (edges name).length + 1 + cost) 0 := by
  induction remaining with
  | nil => cases listed
  | cons head rest ih =>
      by_cases same : head = name
      · subst same
        simp only [List.erase_cons_head, List.foldr_cons]
        omega
      · have later : name ∈ rest := by
          simpa [Ne.symm same] using listed
        have step := ih later
        rw [List.erase_cons_tail (by simpa using same)]
        simp only [List.foldr_cons]
        omega

-- Every name met on the way from the pending ones, each once. Taking up a name costs its edges.
def reached (edges : String → List String) (remaining pending : List String) : List String :=
  match pending with
  | [] => []
  | name :: rest =>
      if _fresh : name ∈ remaining then
        name :: reached edges (remaining.erase name) (edges name ++ rest)
      else reached edges remaining rest
termination_by remaining.foldr (fun name cost => (edges name).length + 1 + cost) 0 + pending.length
decreasing_by
  · have spent := foldr_cost_erase edges _fresh
    simp only [List.length_append, List.length_cons]
    omega
  · simp

def ancestors (document : Document) (name : String) : List String :=
  reached document.parents document.names (document.parents name)

end Document

structure Inheritance where
  cycles : List (List String)
  edgeCount : Nat

namespace Inheritance

def cycleOf? (inheritance : Inheritance) (name : String) : Option (List String) :=
  inheritance.cycles.find? (name ∈ ·)

def isCyclic (inheritance : Inheritance) (name : String) : Bool := (inheritance.cycleOf? name).isSome

-- The cycle through a name, given the ancestors of all names: those it reaches and that reach it.
def cycleThrough (lines : List (String × List String)) (name : String) (line : List String) : List String :=
  (lines.filter fun other => other.1 ∈ line && name ∈ other.2).map Prod.fst

def ofDocument (document : Document) : Inheritance :=
  let lines := document.names.map fun name => (name, document.ancestors name)
  { cycles := lines.filterMap fun (name, line) =>
      let cycle := cycleThrough lines name line
      if cycle.head? = some name then some cycle else none
    edgeCount := document.edgeCount }

end Inheritance
end ApiModels
