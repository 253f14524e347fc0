import ApiModels.Naming.Rules
import ApiModels.Proofs.Naming.Words

namespace ApiModels.NamingRules

open Naming

def Standard (rules : NamingRules) : Prop := rules.reservedWords = NameSet.ofList defaultReservedWords

structure IsClassName (rules : NamingRules) (name : String) : Prop where
  begins : name.toList.head?.any isLetter
  spelled : ∀ c ∈ name.toList, isAlphanumeric c
  unreserved : ∀ word ∈ rules.reservedWords, Text.lowercase word ≠ Text.lowercase name

structure IsVariableName (rules : NamingRules) (name : String) : Prop where
  nonempty : name ≠ ""
  spelled : ∀ c ∈ name.toList, isWordChar c
  begins : startsWithDigit name = false
  unreserved : name ∉ rules.reservedWords

-- A word without lower case letters that begins, as it is spelled, with a digit.
def NumberedConstant (word : String) : Prop := (spoken word).all isConstantChar ∧ (spoken word).head?.any isDigit

section Reserved
variable {rules : NamingRules} {word name : String}

structure Plain (word : String) : Prop where
  letters : word.toList.all fun c => 'a' ≤ c ∧ c ≤ 'z'
  lowered : Text.lowercase word = word
  apart : word.toList.head? ≠ some 'm'

theorem Standard.mem_reservedWords (standard : rules.Standard) :
    word ∈ rules.reservedWords ↔ word ∈ defaultReservedWords := by
  rw [standard, NameSet.mem_ofList]

theorem Standard.isReserved_eq (standard : rules.Standard) (word : String) :
    rules.isReserved word = decide (Text.lowercase word ∈ defaultReservedWords) :=
  decide_eq_decide.mpr standard.mem_reservedWords

theorem Standard.plain (standard : rules.Standard) (reserved : word ∈ rules.reservedWords) : Plain word := by
  have each : ∀ word ∈ defaultReservedWords, (word.toList.all fun c => 'a' ≤ c ∧ c ≤ 'z') ∧
      Text.lowercase word = word ∧ word.toList.head? ≠ some 'm' := by decide +kernel
  obtain ⟨letters, lowered, apart⟩ := each word (standard.mem_reservedWords.mp reserved)
  exact ⟨letters, lowered, apart⟩

theorem Standard.isReserved (standard : rules.Standard) (reserved : word ∈ rules.reservedWords) :
    rules.isReserved word := by
  rw [NamingRules.isReserved, decide_eq_true_eq, (standard.plain reserved).lowered]
  exact reserved

theorem Standard.unreserved (standard : rules.Standard) (free : rules.isReserved name = false) :
    ∀ word ∈ rules.reservedWords, Text.lowercase word ≠ Text.lowercase name := by
  intro word reserved same
  rw [(standard.plain reserved).lowered] at same
  rw [NamingRules.isReserved, ← same, decide_eq_false_iff_not] at free
  exact free reserved

theorem Standard.isReserved_model (standard : rules.Standard) (name : String) :
    rules.isReserved ("Model" ++ name) = false := by
  rw [NamingRules.isReserved, decide_eq_false_iff_not]
  intro reserved
  apply (standard.plain reserved).apart
  simp [Text.lowercase, Text.lowerChars, Text.lowerChar]

theorem Standard.lower (standard : rules.Standard) (reserved : name ∈ rules.reservedWords) {c : Char}
    (listed : c ∈ name.toList) : 'a' ≤ c ∧ c ≤ 'z' := by
  simpa using List.all_eq_true.mp (standard.plain reserved).letters c listed

end Reserved

section ClassNames
variable {rules : NamingRules} {word name : String}

theorem spoken_decorated (rules : NamingRules) (sounded : spoken word ≠ []) : spoken (rules.decorated word) ≠ [] := by
  unfold decorated
  dsimp only
  split <;> split <;> simp [spoken_append, sounded]

theorem decorated_bare (front : rules.modelPrefix = "") (behind : rules.modelSuffix = "") (word : String) :
    rules.decorated word = word := by
  simp [decorated, front, behind]

theorem modelName_cases (rules : NamingRules) (name : String) :
    rules.modelName name = "Model" ++ camelize (rules.decorated (sanitize name)) ∨
      rules.modelName name = camelize (rules.decorated (sanitize name)) ∧
        rules.isReserved (rules.modelName name) = false ∧ startsWithDigit (rules.modelName name) = false := by
  by_cases escaped : rules.isReserved (camelize (rules.decorated (sanitize name))) ||
      startsWithDigit (camelize (rules.decorated (sanitize name)))
  · exact .inl (if_pos escaped)
  · have kept : rules.modelName name = camelize (rules.decorated (sanitize name)) := if_neg escaped
    rw [kept]
    exact .inr ⟨rfl, by simpa using escaped⟩

theorem modelName_spelled (rules : NamingRules) (name : String) :
    ∀ c ∈ (rules.modelName name).toList, isAlphanumeric c := by
  have model : ∀ c ∈ "Model".toList, isAlphanumeric c := List.all_eq_true.mp (by decide)
  have spelled := camelize_isAlphanumeric (rules.decorated (sanitize name))
  rcases rules.modelName_cases name with escaped | ⟨kept, -, -⟩
  · rw [escaped, String.toList_append]
    intro c listed
    exact (List.mem_append.mp listed).elim (model c) (spelled c)
  · rw [kept]
    exact spelled

theorem modelName_begins (rules : NamingRules) (sounded : spoken name ≠ []) :
    ∃ c rest, (rules.modelName name).toList = c :: rest ∧ Begins c ∧ isLetter c := by
  rcases rules.modelName_cases name with escaped | ⟨kept, -, letter⟩
  · refine ⟨'M', "odel".toList ++ (camelize (rules.decorated (sanitize name))).toList, ?_, by decide, by decide⟩
    rw [escaped, String.toList_append]
    rfl
  · have heard : spoken (sanitize name) ≠ [] := by rwa [spoken_sanitize]
    obtain ⟨c, rest, written, begun⟩ := camelize_ne_empty (rules.spoken_decorated heard)
    rw [← kept] at written
    refine ⟨c, rest, written, begun, ?_⟩
    rw [startsWithDigit, written] at letter
    simpa [isAlphanumeric, show isDigit c = false from letter] using begun.1

theorem Standard.isReserved_modelName (standard : rules.Standard) (name : String) :
    rules.isReserved (rules.modelName name) = false := by
  rcases rules.modelName_cases name with escaped | ⟨-, free, -⟩
  · rw [escaped]
    exact standard.isReserved_model _
  · exact free

theorem isClassName_modelName (standard : rules.Standard) (sounded : spoken name ≠ []) :
    rules.IsClassName (rules.modelName name) where
  begins := by
    obtain ⟨c, rest, written, -, letter⟩ := rules.modelName_begins sounded
    rw [written]
    exact letter
  spelled := rules.modelName_spelled name
  unreserved := standard.unreserved (standard.isReserved_modelName name)

theorem camelCased_modelName (rules : NamingRules) (sounded : spoken name ≠ []) : CamelCased (rules.modelName name) where
  spelled := rules.modelName_spelled name
  begins c first := by
    obtain ⟨d, rest, written, begun, -⟩ := rules.modelName_begins sounded
    rw [written] at first
    cases first
    exact begun.2

theorem modelName_modelName (standard : rules.Standard) (sounded : spoken name ≠ [])
    (front : rules.modelPrefix = "") (behind : rules.modelSuffix = "") :
    rules.modelName (rules.modelName name) = rules.modelName name := by
  obtain ⟨c, rest, written, -, letter⟩ := rules.modelName_begins sounded
  have again : camelize (rules.decorated (sanitize (rules.modelName name))) = rules.modelName name := by
    rw [decorated_bare front behind, camelize_sanitize, (rules.camelCased_modelName sounded).camelize]
  have free := standard.isReserved_modelName name
  have unnumbered : startsWithDigit (rules.modelName name) = false := by
    rw [startsWithDigit, written]
    exact isDigit_of_isLetter letter
  conv => lhs; rw [modelName]
  simp [again, free, unnumbered]

-- Whatever prefix and suffix a run has, its class names are identifiers; without them a class name stays as it is.
theorem class_names (rules : NamingRules) (standard : rules.Standard) (name : String)
    (sounded : ∃ c ∈ name.toList, isAlphanumeric c) : rules.IsClassName (rules.modelName name) ∧
      (rules.modelPrefix = "" → rules.modelSuffix = "" →
        rules.modelName (rules.modelName name) = rules.modelName name) :=
  ⟨isClassName_modelName standard (spoken_ne_nil.mpr sounded), modelName_modelName standard (spoken_ne_nil.mpr sounded)⟩

theorem class_names_numbered : (∃ c ∈ "200".toList, isAlphanumeric c) ∧
    { defaults with modelPrefix := "__" }.IsClassName "Model200" ∧ (∃ c ∈ "class".toList, isAlphanumeric c) ∧
      defaults.IsClassName "ModelClass" ∧ defaults.modelName "ModelClass" = "ModelClass" := by
  have digit : ∃ c ∈ "200".toList, isAlphanumeric c := ⟨'2', by decide⟩
  have letter : ∃ c ∈ "class".toList, isAlphanumeric c := ⟨'c', by decide⟩
  have numbered := class_names { defaults with modelPrefix := "__" } rfl "200" digit
  have reserved := class_names defaults rfl "class" letter
  have first : { defaults with modelPrefix := "__" }.modelName "200" = "Model200" := by
    simp only [modelName, Standard.isReserved_eq (rfl : Standard { defaults with modelPrefix := "__" })]
    decide +kernel
  have second : defaults.modelName "class" = "ModelClass" := by
    simp only [modelName, Standard.isReserved_eq (rfl : defaults.Standard)]
    decide +kernel
  rw [first] at numbered
  rw [second] at reserved
  exact ⟨digit, numbered.1, letter, reserved.1, reserved.2 rfl rfl⟩

end ClassNames

section VariableNames
variable {rules : NamingRules} {word name : String}

theorem isConstantChar_lower {c : Char} (spelled : isAlphanumeric c) (lower : 'a' ≤ c ∧ c ≤ 'z') :
    isConstantChar c = false :=
  forall_isAlphanumeric (P := fun c => 'a' ≤ c ∧ c ≤ 'z' → isConstantChar c = false) (by decide +kernel) spelled lower

theorem sanitize_ne_empty (sounded : spoken word ≠ []) : sanitize word ≠ "" := by
  intro empty
  apply sounded
  rw [← spoken_sanitize, empty]
  rfl

theorem varName_constant (constant : (spoken word).all isConstantChar) (sounded : spoken word ≠ []) :
    rules.varName word = sanitize word := by
  have present : (sanitize word).isEmpty = false := by simpa using sanitize_ne_empty sounded
  rw [← all_sanitize (by decide)] at constant
  simp [varName, present, constant]

theorem varName_cases (rules : NamingRules) (varied : (spoken word).all isConstantChar = false) :
    rules.varName word = "_" ++ camelizeLower (sanitize word) ∨
      rules.varName word = camelizeLower (sanitize word) ∧
        rules.isReserved (rules.varName word) = false ∧ startsWithDigit (rules.varName word) = false := by
  have lower : rules.varName word = if rules.isReserved (camelizeLower (sanitize word)) ||
      startsWithDigit (camelizeLower (sanitize word)) then "_" ++ camelizeLower (sanitize word)
      else camelizeLower (sanitize word) := by
    rw [← all_sanitize (by decide)] at varied
    rw [varName, varied, Bool.and_false]
    rfl
  by_cases escaped : rules.isReserved (camelizeLower (sanitize word)) ||
      startsWithDigit (camelizeLower (sanitize word))
  · exact .inl (lower.trans (if_pos escaped))
  · have kept := lower.trans (if_neg escaped)
    rw [kept]
    exact .inr ⟨rfl, by simpa using escaped⟩

theorem varName_isWordChar (rules : NamingRules) (sounded : spoken word ≠ []) :
    ∀ c ∈ (rules.varName word).toList, isWordChar c := by
  have spelled : ∀ c ∈ (camelizeLower (sanitize word)).toList, isWordChar c := fun c listed =>
    isWordChar_of_isAlphanumeric (camelizeLower_isAlphanumeric c listed)
  by_cases constant : (spoken word).all isConstantChar
  · rw [varName_constant constant sounded]
    exact sanitize_isWordChar
  · rcases rules.varName_cases (Bool.eq_false_iff.mpr constant) with escaped | ⟨kept, -, -⟩
    · rw [escaped, String.toList_append]
      exact List.forall_mem_cons.mpr ⟨by decide, spelled⟩
    · rw [kept]
      exact spelled

theorem varName_ne_empty (rules : NamingRules) (sounded : spoken word ≠ []) : rules.varName word ≠ "" := by
  by_cases constant : (spoken word).all isConstantChar
  · rw [varName_constant constant sounded]
    exact sanitize_ne_empty sounded
  · rcases rules.varName_cases (Bool.eq_false_iff.mpr constant) with escaped | ⟨kept, -, -⟩
    · simp [escaped]
    · rw [kept]
      exact camelizeLower_ne_empty (by rwa [spoken_sanitize])

theorem varName_unreserved (standard : rules.Standard) (sounded : spoken word ≠ []) :
    rules.varName word ∉ rules.reservedWords := by
  intro reserved
  by_cases constant : (spoken word).all isConstantChar
  · rw [varName_constant constant sounded] at reserved
    rw [← spoken_sanitize] at sounded
    rw [← all_sanitize (by decide), List.all_eq_true] at constant
    obtain ⟨c, listed, spelled⟩ := spoken_ne_nil.mp sounded
    exact Bool.eq_false_iff.mp (isConstantChar_lower spelled (standard.lower reserved listed)) (constant c listed)
  · rcases rules.varName_cases (Bool.eq_false_iff.mpr constant) with escaped | ⟨-, free, -⟩
    · have underscore := standard.lower reserved (c := '_') (by simp [escaped])
      revert underscore
      decide
    · exact Bool.eq_false_iff.mp free (standard.isReserved reserved)

theorem startsWithDigit_escaped (name : String) : startsWithDigit ("_" ++ name) = false := by
  rw [startsWithDigit, String.toList_append]
  rfl

theorem startsWithDigit_varName (rules : NamingRules) (sounded : spoken word ≠ []) :
    startsWithDigit (rules.varName word) ↔ NumberedConstant word := by
  by_cases constant : (spoken word).all isConstantChar
  · rw [varName_constant constant sounded, startsWithDigit_sanitize, NumberedConstant]
    exact (and_iff_right constant).symm
  · refine iff_of_false ?_ fun numbered => constant numbered.1
    rcases rules.varName_cases (Bool.eq_false_iff.mpr constant) with escaped | ⟨-, -, letter⟩
    · simp [escaped, startsWithDigit_escaped]
    · simp [letter]

-- Every variable name has a letter or digit to it, is spelled as an identifier and is no reserved word. It begins
-- with a digit exactly where the word is a constant that does.
theorem variable_names (rules : NamingRules) (standard : rules.Standard) (word : String)
    (sounded : ∃ c ∈ word.toList, isAlphanumeric c) :
    (rules.varName word ≠ "" ∧ (∀ c ∈ (rules.varName word).toList, isWordChar c) ∧
      rules.varName word ∉ rules.reservedWords) ∧
    (rules.IsVariableName (rules.varName word) ↔ ¬ NumberedConstant word) := by
  have heard := spoken_ne_nil.mpr sounded
  have nonempty := rules.varName_ne_empty heard
  have spelled := rules.varName_isWordChar heard
  have unreserved := varName_unreserved standard heard
  have begins := rules.startsWithDigit_varName heard
  refine ⟨⟨nonempty, spelled, unreserved⟩, fun usable numbered => ?_, fun plain => ?_⟩
  · exact Bool.eq_false_iff.mp usable.begins (begins.mpr numbered)
  · exact ⟨nonempty, spelled, Bool.eq_false_iff.mpr (mt begins.mp plain), unreserved⟩

theorem variable_names_first : (∃ c ∈ "1st".toList, isAlphanumeric c) ∧ defaults.varName "1st" = "_1st" ∧
    defaults.IsVariableName "_1st" := by
  have letter : ∃ c ∈ "1st".toList, isAlphanumeric c := ⟨'1', by decide⟩
  have same : defaults.varName "1st" = "_1st" := by
    simp only [varName, Standard.isReserved_eq (rfl : defaults.Standard)]
    decide +kernel
  have varied : ¬ NumberedConstant "1st" := fun numbered => absurd numbered.1 (by decide)
  have usable := (variable_names defaults rfl "1st" letter).2.mpr varied
  rw [same] at usable
  exact ⟨letter, same, usable⟩

-- The constant is returned before the digit in front of it is seen.
theorem not_variable_numbered : (∃ c ∈ "404".toList, isAlphanumeric c) ∧ defaults.varName "404" = "404" ∧
    ¬ defaults.IsVariableName (defaults.varName "404") := by
  have same : defaults.varName "404" = "404" := by decide +kernel
  refine ⟨⟨'4', by decide⟩, same, fun usable => ?_⟩
  have begins := usable.begins
  rw [same] at begins
  revert begins
  decide

end VariableNames
end ApiModels.NamingRules
