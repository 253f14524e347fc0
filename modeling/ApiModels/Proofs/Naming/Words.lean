import Mathlib.Data.List.DropRight
import ApiModels.Naming.Words

namespace ApiModels.Text

structure Trims (drop : Char → Bool) (chars kept : List Char) : Prop where
  split : ∃ front behind, chars = front ++ (kept ++ behind) ∧ (∀ c ∈ front, drop c) ∧ ∀ c ∈ behind, drop c
  begins : kept.head?.any drop = false
  ends : kept.getLast?.any drop = false

theorem head?_dropWhile_any (drop : Char → Bool) (chars : List Char) : (chars.dropWhile drop).head?.any drop = false := by
  have refused := List.head?_dropWhile_not drop chars
  cases first : (chars.dropWhile drop).head? with
  | none => rfl
  | some c => simpa [first] using refused

theorem trims_trimBoth (drop : Char → Bool) (chars : List Char) : Trims drop chars (trimBoth drop chars) := by
  have split : chars.dropWhile drop = trimBoth drop chars ++ (chars.dropWhile drop).rtakeWhile drop :=
    List.rdropWhile_append_rtakeWhile.symm
  refine ⟨⟨chars.takeWhile drop, (chars.dropWhile drop).rtakeWhile drop, ?_, ?_, ?_⟩, ?_, ?_⟩
  · rw [← split, List.takeWhile_append_dropWhile]
  · exact fun c listed => List.mem_takeWhile_imp listed
  · exact fun c listed => List.mem_rtakeWhile_imp listed
  · have refused := head?_dropWhile_any drop chars
    rw [split] at refused
    cases kept : trimBoth drop chars with
    | nil => rfl
    | cons c rest => simpa [kept] using refused
  · rw [trimBoth, List.getLast?_reverse]
    exact head?_dropWhile_any drop _

end ApiModels.Text

namespace ApiModels.Naming

def spoken (word : String) : List Char := word.toList.filter isAlphanumeric

def Silent (chars : List Char) : Prop := ∀ c ∈ chars, isAlphanumeric c = false

def Begins (c : Char) : Prop := isAlphanumeric c ∧ c.toUpper = c

instance (c : Char) : Decidable (Begins c) := inferInstanceAs (Decidable (_ ∧ _))

section Characters
variable {c : Char}

theorem ascii_of_isAlphanumeric (spelled : isAlphanumeric c) : c.toNat < 128 := by
  simp only [isAlphanumeric, isLetter, isDigit, Bool.or_eq_true, Bool.and_eq_true, decide_eq_true_eq, Char.le_def,
    UInt32.le_iff_toNat_le] at spelled
  change c.val.toNat < 128
  rcases spelled with (⟨-, below⟩ | ⟨-, below⟩) | ⟨-, below⟩
  all_goals exact Nat.lt_of_le_of_lt below (by decide)

theorem forall_isAlphanumeric {P : Char → Prop} (each : ∀ n < 128, isAlphanumeric (Char.ofNat n) → P (Char.ofNat n))
    (spelled : isAlphanumeric c) : P c := by
  have one := each c.toNat (ascii_of_isAlphanumeric spelled)
  rw [Char.ofNat_toNat] at one
  exact one spelled

theorem begins_toUpper (spelled : isAlphanumeric c) : Begins c.toUpper :=
  forall_isAlphanumeric (P := fun c => Begins c.toUpper) (by decide +kernel) spelled

theorem isWordChar_of_isAlphanumeric (spelled : isAlphanumeric c) : isWordChar c := by
  simp [isWordChar, spelled]

theorem isAlphanumeric_of_isWordChar (kept : isWordChar c) (spoken : c ≠ '_') : isAlphanumeric c := by
  simpa [isWordChar, spoken] using kept

theorem isAlphanumeric_toLower (spelled : isAlphanumeric c) : isAlphanumeric c.toLower :=
  forall_isAlphanumeric (P := fun c => isAlphanumeric c.toLower) (by decide +kernel) spelled

theorem toUpper_toLower (begun : Begins c) : c.toLower.toUpper = c :=
  forall_isAlphanumeric (P := fun c => c.toUpper = c → c.toLower.toUpper = c) (by decide +kernel) begun.1 begun.2

theorem isDigit_of_isLetter (letter : isLetter c) : isDigit c = false :=
  forall_isAlphanumeric (P := fun c => isLetter c → isDigit c = false) (by decide +kernel)
    (by simp [isAlphanumeric, letter]) letter

theorem silent_underscores {marks : List Char} (all : ∀ c ∈ marks, c = '_') : Silent marks := by
  intro c listed
  rw [all c listed]
  decide

theorem Silent.filter {chars : List Char} (silent : Silent chars) : chars.filter isAlphanumeric = [] := by
  rw [List.filter_eq_nil_iff]
  intro c listed
  simp [silent c listed]

end Characters

section Spoken
variable {word : String}

theorem spoken_ne_nil : spoken word ≠ [] ↔ ∃ c ∈ word.toList, isAlphanumeric c := by
  simp [spoken, List.filter_eq_nil_iff]

theorem spoken_append (word more : String) : spoken (word ++ more) = spoken word ++ spoken more := by
  simp [spoken]

end Spoken

section CamelCase
variable {begins inRun : Bool} {chars more : List Char} {keep : Char → Bool}

theorem camelChars_isAlphanumeric (begins : Bool) (chars : List Char) :
    ∀ c ∈ camelChars begins chars, isAlphanumeric c := by
  induction chars generalizing begins with
  | nil => simp [camelChars]
  | cons c rest ih =>
      rw [camelChars]
      split
      · rename_i spelled
        intro d listed
        rcases List.mem_cons.mp listed with rfl | later
        · cases begins
          · exact spelled
          · exact (begins_toUpper spelled).1
        · exact ih false d later
      · exact ih true

theorem camelChars_begins {c : Char} {rest : List Char} (written : camelChars true chars = c :: rest) : Begins c := by
  induction chars with
  | nil => cases written
  | cons d chars ih =>
      rw [camelChars] at written
      split at written
      · rename_i spelled
        cases written
        exact begins_toUpper spelled
      · exact ih written

theorem camelChars_eq_nil : camelChars begins chars = [] ↔ chars.filter isAlphanumeric = [] := by
  induction chars generalizing begins with
  | nil => simp [camelChars]
  | cons c rest ih =>
      rw [camelChars]
      by_cases spelled : isAlphanumeric c
      · simp [spelled]
      · simp [spelled, ih]

theorem camelChars_before (silent : Silent more) : camelChars true (more ++ chars) = camelChars true chars := by
  induction more with
  | nil => rfl
  | cons c rest ih =>
      obtain ⟨here, later⟩ := List.forall_mem_cons.mp silent
      simp [camelChars, here, ih later]

theorem camelChars_behind (silent : Silent more) : camelChars begins (chars ++ more) = camelChars begins chars := by
  induction chars generalizing begins with
  | nil => exact camelChars_eq_nil.mpr silent.filter
  | cons c rest ih => simp only [List.cons_append, camelChars, ih]

theorem camelChars_of_isAlphanumeric (spelled : ∀ c ∈ chars, isAlphanumeric c) : camelChars false chars = chars := by
  induction chars with
  | nil => rfl
  | cons c rest ih =>
      obtain ⟨here, later⟩ := List.forall_mem_cons.mp spelled
      simp [camelChars, here, ih later]

-- A run that is replaced holds no letter and no digit, and parts as its underscore does. Inside the run the
-- underscore has been read.
theorem camelChars_underscoreRuns (keeps : ∀ c, isAlphanumeric c → keep c) (parted : inRun → begins) :
    camelChars begins (underscoreRuns keep inRun chars) = camelChars begins chars := by
  have mark : isAlphanumeric '_' = false := by decide
  induction chars generalizing begins inRun with
  | nil => rfl
  | cons c rest ih =>
      rw [underscoreRuns]
      split
      · simp [camelChars, ih]
      · rename_i dropped
        have silent : isAlphanumeric c = false := by simpa using mt (keeps c) dropped
        cases inRun with
        | true => simp [camelChars, silent, parted rfl, ih]
        | false => simp [camelChars, silent, mark, ih]

end CamelCase

section Trimming
variable {keep : Char → Bool} {inRun : Bool} {chars : List Char}

theorem filter_underscoreRuns (inRun : Bool) (chars : List Char) (keeps : ∀ c, isAlphanumeric c → keep c) :
    (underscoreRuns keep inRun chars).filter isAlphanumeric = chars.filter isAlphanumeric := by
  have mark : isAlphanumeric '_' = false := by decide
  induction chars generalizing inRun with
  | nil => rfl
  | cons c rest ih =>
      rw [underscoreRuns]
      split
      · simp [List.filter_cons, ih]
      · rename_i dropped
        have silent : isAlphanumeric c = false := by simpa using mt (keeps c) dropped
        cases inRun <;> simp [silent, mark, ih]

theorem underscoreRuns_isWordChar : ∀ c ∈ underscoreRuns isWordChar inRun chars, isWordChar c := by
  have mark : isWordChar '_' := by decide
  induction chars generalizing inRun with
  | nil => simp [underscoreRuns]
  | cons c rest ih =>
      rw [underscoreRuns]
      split
      · rename_i kept
        exact List.forall_mem_cons.mpr ⟨kept, ih⟩
      · cases inRun with
        | true => exact ih
        | false => exact List.forall_mem_cons.mpr ⟨mark, ih⟩

theorem trims_trimUnderscores (chars : List Char) : Text.Trims (· = '_') chars (trimUnderscores chars) :=
  Text.trims_trimBoth _ chars

theorem trimUnderscores_split (chars : List Char) : ∃ front behind, chars = front ++ (trimUnderscores chars ++ behind) ∧
    Silent front ∧ Silent behind := by
  obtain ⟨front, behind, split, before, after⟩ := (trims_trimUnderscores chars).split
  exact ⟨front, behind, split, silent_underscores (by simpa using before), silent_underscores (by simpa using after)⟩

theorem trimUnderscores_begins {c : Char} {rest : List Char} (trimmed : trimUnderscores chars = c :: rest) : c ≠ '_' := by
  have begins := (trims_trimUnderscores chars).begins
  simpa [trimmed] using begins

end Trimming

section Spellings
variable {word : String}

theorem toList_sanitize (word : String) :
    (sanitize word).toList = trimUnderscores (underscoreRuns isWordChar false word.toList) :=
  String.toList_ofList

theorem toList_camelize (word : String) : (camelize word).toList = camelChars true word.toList :=
  String.toList_ofList

theorem toList_camelizeLower (word : String) :
    (camelizeLower word).toList = lowerFirst (camelChars true word.toList) :=
  String.toList_ofList

end Spellings

section Sanitized
variable {word : String}

theorem sanitize_isWordChar : ∀ c ∈ (sanitize word).toList, isWordChar c := by
  intro c listed
  obtain ⟨front, behind, split, -, -⟩ := trimUnderscores_split (underscoreRuns isWordChar false word.toList)
  apply underscoreRuns_isWordChar c
  rw [split]
  rw [toList_sanitize] at listed
  exact List.mem_append_right front (List.mem_append_left behind listed)

theorem spoken_sanitize (word : String) : spoken (sanitize word) = spoken word := by
  obtain ⟨front, behind, split, before, after⟩ := trimUnderscores_split (underscoreRuns isWordChar false word.toList)
  have kept := filter_underscoreRuns false word.toList fun _ => isWordChar_of_isAlphanumeric
  rw [split] at kept
  simpa [spoken, toList_sanitize, before.filter, after.filter] using kept

theorem camelize_sanitize (word : String) : camelize (sanitize word) = camelize word := by
  obtain ⟨front, behind, split, before, after⟩ := trimUnderscores_split (underscoreRuns isWordChar false word.toList)
  have kept : camelChars true (underscoreRuns isWordChar false word.toList) = camelChars true word.toList :=
    camelChars_underscoreRuns (fun _ => isWordChar_of_isAlphanumeric) (by simp)
  rw [split, camelChars_before before, camelChars_behind after] at kept
  rw [camelize, toList_sanitize, kept, camelize]

theorem head?_sanitize (word : String) : (sanitize word).toList.head? = (spoken word).head? := by
  rw [← spoken_sanitize]
  cases trimmed : (sanitize word).toList with
  | nil => simp [spoken, trimmed]
  | cons c rest =>
      have whole : trimUnderscores (underscoreRuns isWordChar false word.toList) = c :: rest := by
        rw [← trimmed, toList_sanitize]
      have listed : c ∈ (sanitize word).toList := trimmed ▸ List.mem_cons_self
      have spelled := isAlphanumeric_of_isWordChar (sanitize_isWordChar c listed) (trimUnderscores_begins whole)
      simp [spoken, trimmed, spelled]

theorem startsWithDigit_sanitize (word : String) : startsWithDigit (sanitize word) = (spoken word).head?.any isDigit := by
  rw [startsWithDigit, head?_sanitize]

theorem all_sanitize {p : Char → Bool} (mark : p '_') : (sanitize word).toList.all p = (spoken word).all p := by
  rw [← spoken_sanitize, spoken, List.all_filter, Bool.eq_iff_iff, List.all_eq_true, List.all_eq_true]
  refine forall₂_congr fun c listed => ?_
  by_cases underscore : c = '_'
  · simp [underscore, mark]
  · simp [isAlphanumeric_of_isWordChar (sanitize_isWordChar c listed) underscore]

end Sanitized

section Camelized
variable {word : String}

theorem camelize_isAlphanumeric (word : String) : ∀ c ∈ (camelize word).toList, isAlphanumeric c := by
  rw [toList_camelize]
  exact camelChars_isAlphanumeric true word.toList

theorem camelize_ne_empty (spelled : spoken word ≠ []) : ∃ c rest, (camelize word).toList = c :: rest ∧ Begins c := by
  rw [toList_camelize]
  cases written : camelChars true word.toList with
  | nil => exact absurd (camelChars_eq_nil.mp written) spelled
  | cons c rest => exact ⟨c, rest, rfl, camelChars_begins written⟩

-- What camel case leaves as it is: a single part that begins as it may, or nothing.
structure CamelCased (word : String) : Prop where
  spelled : ∀ c ∈ word.toList, isAlphanumeric c
  begins : ∀ c ∈ word.toList.head?, c.toUpper = c

theorem camelCased_camelize (word : String) : CamelCased (camelize word) where
  spelled := camelize_isAlphanumeric word
  begins c first := by
    obtain ⟨rest, written⟩ := List.head?_eq_some_iff.mp first
    rw [toList_camelize] at written
    exact (camelChars_begins written).2

theorem CamelCased.begun {c : Char} {rest : List Char} (cased : CamelCased word) (written : word.toList = c :: rest) :
    Begins c ∧ ∀ d ∈ rest, isAlphanumeric d := by
  obtain ⟨here, later⟩ := List.forall_mem_cons.mp (written ▸ cased.spelled)
  exact ⟨⟨here, cased.begins c (by simp [written])⟩, later⟩

theorem CamelCased.camelize (cased : CamelCased word) : camelize word = word := by
  apply String.toList_injective
  rw [toList_camelize]
  cases written : word.toList with
  | nil => rfl
  | cons c rest =>
      obtain ⟨begun, spelled⟩ := cased.begun written
      simp [camelChars, begun.1, begun.2, camelChars_of_isAlphanumeric spelled]

theorem camelize_eq_self_iff : camelize word = word ↔ CamelCased word :=
  ⟨fun same => same ▸ camelCased_camelize word, CamelCased.camelize⟩

theorem camelize_camelize (word : String) : camelize (camelize word) = camelize word := (camelCased_camelize word).camelize

-- Only the case of the first character is given up, which camel case settles again.
theorem camelize_camelizeLower (word : String) : camelize (camelizeLower word) = camelize word := by
  have cased := camelCased_camelize word
  apply String.toList_injective
  rw [toList_camelize, toList_camelizeLower, ← toList_camelize]
  cases written : (camelize word).toList with
  | nil => rfl
  | cons c rest =>
      obtain ⟨begun, spelled⟩ := cased.begun written
      have small := isAlphanumeric_toLower begun.1
      simp [lowerFirst, camelChars, small, toUpper_toLower begun, camelChars_of_isAlphanumeric spelled]

theorem camelizeLower_isAlphanumeric : ∀ c ∈ (camelizeLower word).toList, isAlphanumeric c := by
  have spelled := camelChars_isAlphanumeric true word.toList
  rw [toList_camelizeLower]
  cases written : camelChars true word.toList with
  | nil => simp [lowerFirst]
  | cons c rest =>
      rw [written] at spelled
      obtain ⟨here, later⟩ := List.forall_mem_cons.mp spelled
      exact List.forall_mem_cons.mpr ⟨isAlphanumeric_toLower here, later⟩

theorem camelizeLower_ne_empty (sounded : spoken word ≠ []) : camelizeLower word ≠ "" := by
  intro empty
  have written := congrArg String.toList empty
  rw [toList_camelizeLower] at written
  cases chars : camelChars true word.toList with
  | nil => exact sounded (camelChars_eq_nil.mp chars)
  | cons c rest => simp [chars, lowerFirst] at written

end Camelized
end ApiModels.Naming
