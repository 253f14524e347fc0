import ApiModels.Resolution.Draft

namespace ApiModels

namespace Resolution

def reference (project : Project) (resolver : Resolver) (requester reference : String) : Resolution Model :=
  let target := refName reference
  match project.document.get? target with
  | none => throw (.unresolvedReference requester target)
  | some s => (resolver target s).adaptExcept fun
      | .cyclicReference _ chain => .cyclicReference requester chain
      | _ => .dependencyFailed requester target

end Resolution

namespace Model

def extend (m parent : Model) : Model :=
  let linked := ({ m with parentName := some parent.name }.addImport parent.classname).inherit parent.allProperties
  { linked with allRequiredNames := linked.allRequiredNames.union parent.allRequiredNames }

end Model

namespace Drafting

def collapsedMessage (kept : Model) (collapsed : List String) : String :=
  "allOf lists " ++ Nat.repr (collapsed.length + 1) ++ " parents; only '" ++ kept.name ++ "' is kept, "
    ++ String.intercalate ", " collapsed ++ " collapsed"

def noteCollapsed (kept : Model) (collapsed : List String) : Drafting Unit :=
  if collapsed.isEmpty then pure ()
  else do
    report .collapsedInheritance (collapsedMessage kept collapsed)
    edit fun m => { m with collapsedParents := collapsed }

-- Of several parents the last one is kept and the others are listed as collapsed.
def linkParent (parents : List Model) : Drafting Unit :=
  match parents.getLast? with
  | none => pure ()
  | some parent => do
      noteCollapsed parent (parents.dropLast.map (·.name))
      edit (·.extend parent)

def inheritFrom (project : Project) (members : List Schema) (parents : List Model) : Drafting Unit :=
  if members.isEmpty then pure ()
  else do
    linkParent parents
    (members.filter (·.reference.isNone)).forM fun member => declare project member.properties member.required
    edit Model.refresh

def resolveParents (project : Project) (resolver : Resolver) (members : List Schema) : Drafting (List Model) := do
  let name := (← model).name
  ofResolution ((members.filterMap (·.reference)).mapM (Resolution.reference project resolver name))

-- Inline arms are named by their position, which counts from zero.
def armName (parent : String) (index : Nat) : String := parent ++ "OneOf" ++ Nat.repr index

def resolveArm (project : Project) (resolver : Resolver) (parent : String) (index : Nat) (arm : Schema) :
    Resolution String :=
  match arm.reference with
  | some reference => do
      let _ ← Resolution.reference project resolver parent reference
      return refName reference
  | none => do
      let child := armName parent index
      let _ ← (resolver child arm).adaptExcept fun _ => ModelError.dependencyFailed parent child
      return child

def linkArm (project : Project) (resolver : Resolver) (index : Nat) (arm : Schema) : Drafting Unit := do
  let parent := (← model).name
  let child ← ofResolution (resolveArm project resolver parent index arm)
  edit (·.addMember child)
  ofResolution (Resolution.registerInterface project child parent)

def reportMixed (s : Schema) : Drafting Unit :=
  if s.properties.isEmpty then pure ()
  else report .mixedOneOfProperties
    "oneOf is combined with inline properties; they are kept as shared properties"

-- Arms that ask for this model see its shared properties.
def announce (s : Schema) : Drafting Unit :=
  if s.oneOfArms.isEmpty then pure ()
  else do
    reportMixed s
    publish

def linkArms (project : Project) (resolver : Resolver) (s : Schema) : Drafting Unit := do
  s.oneOfArms.zipIdx.forM fun (arm, index) => linkArm project resolver index arm
  if !s.oneOfArms.isEmpty then publish

def ignoredBranches (s : Schema) : String :=
  let branches := s.anyOfBranches.map fun branch => branch.refName?.getD "<inline>"
  "anyOf is not supported; " ++ Nat.repr branches.length ++ " branch(es) ignored: "
    ++ String.intercalate ", " branches

def reportBranches (s : Schema) : Drafting Unit :=
  if s.anyOfBranches.isEmpty then pure ()
  else if s.oneOfArms.isEmpty then report .unsupportedComposition (ignoredBranches s)
  else report .ignoredAnyOf "Both oneOf and anyOf are present; anyOf is ignored"

def settle (project : Project) (s : Schema) (parents : List Model) : Drafting Unit := do
  inheritFrom project s.allOfMembers parents
  declare project s.properties s.required
  reportBranches s
  announce s

-- anyOf is only reported, and not even followed where oneOf stands beside it.
def compose (project : Project) (resolver : Resolver) (s : Schema) : Drafting Unit := do
  let parents ← resolveParents project resolver s.allOfMembers
  settle project s parents
  linkArms project resolver s

end Drafting
end ApiModels
