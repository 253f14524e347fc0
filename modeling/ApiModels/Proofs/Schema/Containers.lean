import ApiModels.Types.Inference

namespace ApiModels

theorem TypeDecl.primary?_of_isNullOnly {t : TypeDecl} (nullOnly : t.isNullOnly) : t.primary? = none := by
  cases t with
  | single name => simpa [isNullOnly, primary?] using nullOnly
  | listed names =>
      simp only [isNullOnly, Bool.and_eq_true] at nullOnly
      simpa [primary?, List.find?_eq_none] using nullOnly.2

def ContainerKind.tag : ContainerKind → TypeTag
  | .array => .array
  | .set => .set
  | .map => .map

theorem TypeTag.container?_eq_some (tag : TypeTag) (kind : ContainerKind) :
    tag.container? = some kind ↔ tag = kind.tag := by
  cases tag <;> cases kind <;> simp [container?, ContainerKind.tag]

namespace Schema
variable {s : Schema} {mappings : TypeMappings}

-- A type that inference tells before it looks for a container.
def isToldFirst (s : Schema) : Bool :=
  s.isNull || (s.isString && s.formatIs "number") || s.isByteArray || s.isFile || s.isBinary || s.isBoolean ||
    s.isDate || s.isDateTime || s.isNumber || s.isInteger

theorem ofNumberFormat_container? (format : Option String) : (Inference.ofNumberFormat format).tag.container? = none := by
  unfold Inference.ofNumberFormat
  split <;> rfl

theorem ofDeclaredType_container? (type : Option String) : (Inference.ofDeclaredType type).tag.container? = none := by
  unfold Inference.ofDeclaredType
  split <;> rfl

theorem inferTag_container? (mappings : TypeMappings) (s : Schema) : (s.inferTag mappings).container? =
    if s.isToldFirst then none
    else if s.isMap then some .map
    else if s.isArray then some (if s.isSet then .set else .array)
    else none := by
  unfold inferTag infer isToldFirst
  cases s.isNull
  case true => rfl
  cases s.isString && s.formatIs "number"
  case true => rfl
  cases s.isByteArray
  case true => rfl
  cases s.isFile
  case true => rfl
  cases s.isBinary
  case true => rfl
  cases s.isBoolean
  case true => rfl
  cases s.isDate
  case true => rfl
  cases s.isDateTime
  case true => rfl
  cases s.isNumber
  case true => exact ofNumberFormat_container? s.format
  cases s.isInteger
  case true => cases s.isLong <;> rfl
  cases s.isMap
  case true => rfl
  cases s.isArray
  case true => cases s.isSet <;> rfl
  cases s.isUuid
  case true => rfl
  cases s.isUri
  case true => rfl
  cases s.isString
  case true => cases s.format.bind mappings.get? <;> rfl
  cases s.isFreeForm
  case true => rfl
  cases s.isObject && !s.properties.isEmpty
  case true => rfl
  cases s.isAny
  case true => rfl
  exact ofDeclaredType_container? s.primaryType?

theorem not_toldFirst_of_isArray (array : s.isArray) : s.isToldFirst = false := by
  have declared : s.primaryType? = some "array" := by simpa [isArray, typeIs] using array
  have notNull : s.isNull = false := by
    cases typed : s.type with
    | none => simp [isNull, typed]
    | some t =>
        rw [primaryType?, typed, Option.bind_some] at declared
        refine Bool.eq_false_iff.mpr fun nullOnly => ?_
        rw [isNull, typed, Option.any_some] at nullOnly
        cases declared.symm.trans (TypeDecl.primary?_of_isNullOnly nullOnly)
  simp [isToldFirst, notNull, isString, isByteArray, isFile, isBinary, isBoolean, isDate, isDateTime, isNumber, isInteger,
    typeIs, declared]

theorem inferTag_eq_map : s.inferTag mappings = .map ↔ s.isMap ∧ ¬ s.isToldFirst := by
  refine (TypeTag.container?_eq_some _ .map).symm.trans ?_
  rw [inferTag_container?]
  cases s.isToldFirst <;> cases s.isMap <;> cases s.isArray <;> cases s.isSet <;> simp

theorem inferTag_eq_sequence :
    (s.inferTag mappings = .array ∨ s.inferTag mappings = .set) ↔ s.isArray ∧ ¬ s.isMap := by
  refine (or_congr (TypeTag.container?_eq_some _ .array) (TypeTag.container?_eq_some _ .set)).symm.trans ?_
  rw [inferTag_container?]
  cases array : s.isArray with
  | true =>
      rw [not_toldFirst_of_isArray array]
      cases s.isMap <;> cases s.isSet <;> simp
  | false => cases s.isToldFirst <;> cases s.isMap <;> simp

theorem isArray_of_container {kind : ContainerKind} (container : (s.inferTag mappings).container? = some kind)
    (apart : kind ≠ .map) : s.isArray := by
  have tagged := (TypeTag.container?_eq_some _ kind).mp container
  have sequence : s.inferTag mappings = .array ∨ s.inferTag mappings = .set := by
    cases kind with
    | array => exact .inl tagged
    | set => exact .inr tagged
    | map => exact absurd rfl apart
  exact (inferTag_eq_sequence.mp sequence).1

theorem kind_eq_array (plain : s.reference = none) (whole : s.isComposed = false) (unlisted : s.hasEnum = false) :
    s.kind = .array ↔ s.isArray := by
  unfold kind
  rw [plain, whole, unlisted]
  cases s.isArray <;> cases s.isMap <;> cases s.properties.isEmpty <;> cases s.isFreeForm || s.isAny <;> simp

theorem kind_eq_map (plain : s.reference = none) (whole : s.isComposed = false) (unlisted : s.hasEnum = false) :
    s.kind = .map ↔ s.isMap ∧ ¬ s.isArray := by
  unfold kind
  rw [plain, whole, unlisted]
  cases s.isArray <;> cases s.isMap <;> cases s.properties.isEmpty <;> cases s.isFreeForm || s.isAny <;> simp

end Schema
end ApiModels
