import ApiModels.Model.Basic
import ApiModels.Model.Error
import ApiModels.Table.Ordered

namespace ApiModels

-- A name that is asked for again while it is building is answered with the placeholder; while it is pending, the
-- request closes a circle.
inductive CacheEntry where
  | pending
  | building (placeholder : Model)
  | ready (model : Model)
  | failed (error : ModelError)

structure PendingLink where
  parent : String
  parentClass : String
  deriving DecidableEq

structure Cache where
  entries : Table CacheEntry := Table.empty
  stack : List String := []
  pendingLinks : Table (List PendingLink) := Table.empty
  buildCounts : Table Nat := Table.empty

namespace Cache

def isBuilding (cache : Cache) (name : String) : Bool := name ∈ cache.stack

def chainTo (cache : Cache) (name : String) : List String :=
  let start := if name ∈ cache.stack then cache.stack.dropWhile (· ≠ name) else cache.stack
  start ++ [name]

def lookup (cache : Cache) (name : String) : Option (Except ModelError Model) :=
  (cache.entries.get? name).map fun
    | .ready model => .ok model
    | .building placeholder => .ok placeholder
    | .failed error => .error error
    | .pending => .error (.cyclicReference name (cache.chainTo name))

def buildCount (cache : Cache) (name : String) : Nat := (cache.buildCounts.get? name).getD 0

def begin (cache : Cache) (name : String) : Cache :=
  { cache with
    entries := cache.entries.put name .pending
    stack := cache.stack ++ [name]
    buildCounts := cache.buildCounts.put name (cache.buildCount name + 1) }

def publish (cache : Cache) (model : Model) : Cache :=
  match cache.entries.get? model.name with
  | some .pending => { cache with entries := cache.entries.put model.name (.building model) }
  | some (.building _) => { cache with entries := cache.entries.put model.name (.building model) }
  | _ => cache

-- Leaves the last occurrence of a name and everything above it.
def popName (name : String) (stack : List String) : List String :=
  if name ∈ stack then (stack.reverse.dropWhile (· ≠ name)).tail.reverse else stack

def linksOf (cache : Cache) (name : String) : List PendingLink := (cache.pendingLinks.get? name).getD []

def implement (model : Model) (link : PendingLink) : Model :=
  (model.addInterface link.parent).addImport link.parentClass

def finish (cache : Cache) (model : Model) : Cache × Model :=
  let finished := (cache.linksOf model.name).foldl implement model
  ({ cache with
      entries := cache.entries.put model.name (.ready finished)
      stack := popName model.name cache.stack
      pendingLinks := cache.pendingLinks.erase model.name },
    finished)

def fail (cache : Cache) (name : String) (error : ModelError) : Cache :=
  { cache with
    entries := cache.entries.put name (.failed error)
    stack := popName name cache.stack
    pendingLinks := cache.pendingLinks.erase name }

def addPending (cache : Cache) (child : String) (link : PendingLink) : Cache :=
  let links := cache.linksOf child
  { cache with pendingLinks := cache.pendingLinks.put child (if link ∈ links then links else links ++ [link]) }

-- Links a child to a union parent. A finished child changes in place; a child under
-- construction gets the link when it is finished.
def registerInterface (cache : Cache) (child parent parentClass : String) : Cache :=
  let link : PendingLink := ⟨parent, parentClass⟩
  match cache.entries.get? child with
  | some (.ready model) => { cache with entries := cache.entries.put child (.ready (implement model link)) }
  | some (.building placeholder) =>
      { cache with entries := cache.entries.put child (.building (placeholder.addInterface parent)) }.addPending child link
  | _ => cache.addPending child link

def get? (cache : Cache) (name : String) : Option Model :=
  match cache.entries.get? name with
  | some (.ready model) => some model
  | _ => none

def readyModel? : CacheEntry → Option Model
  | .ready model => some model
  | _ => none

def failure? : String × CacheEntry → Option (String × ModelError)
  | (name, .failed error) => some (name, error)
  | _ => none

def models (cache : Cache) : List Model := cache.entries.values.filterMap readyModel?

def failures (cache : Cache) : List (String × ModelError) := cache.entries.entries.filterMap failure?

def size (cache : Cache) : Nat := cache.entries.size

end Cache
end ApiModels
