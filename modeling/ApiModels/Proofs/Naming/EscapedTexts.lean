import Mathlib.Data.List.Chain
import ApiModels.Proofs.Naming.Words

namespace ApiModels.Naming

def isQuoting (c : Char) : Bool := c = '\\' || c = '"'

def isMark (c d : Char) : Bool := (c = '*' && d = '/') || (c = '/' && d = '*')

def escaped (c : Char) : List Char := if isQuoting c then ['\\', c] else [c]

-- Undoes the escapes; a quote without an escape and an escape of anything else are refused.
def unescape? : List Char → Option (List Char)
  | [] => some []
  | '\\' :: c :: rest => if isQuoting c then (unescape? rest).map (c :: ·) else none
  | c :: rest => if isQuoting c then none else (unescape? rest).map (c :: ·)

-- Puts an underscore between any two neighbours that are to be kept apart.
def part (apart : Char → Char → Bool) : List Char → List Char
  | [] => []
  | c :: rest => c :: if rest.head?.any (apart c) then '_' :: part apart rest else part apart rest

-- Text that neither breaks a line nor opens or closes a block comment.
structure Contained (written : List Char) : Prop where
  unbroken : ∀ c ∈ written, c ≠ '\t' ∧ c ≠ '\n' ∧ c ≠ '\r'
  opens : ¬ ['/', '*'] <:+: written
  closes : ¬ ['*', '/'] <:+: written

section Parting
variable {apart : Char → Char → Bool} {chars : List Char}

theorem head?_part (apart : Char → Char → Bool) (chars : List Char) : (part apart chars).head? = chars.head? := by
  cases chars <;> rfl

theorem mem_part {c : Char} (listed : c ∈ part apart chars) : c = '_' ∨ c ∈ chars := by
  induction chars with
  | nil => cases listed
  | cons d rest ih =>
      rw [part] at listed
      rcases List.mem_cons.mp listed with rfl | later
      · exact .inr List.mem_cons_self
      · split at later
        · rcases List.mem_cons.mp later with mark | later
          · exact .inl mark
          · exact (ih later).imp id (List.mem_cons_of_mem d)
        · exact (ih later).imp id (List.mem_cons_of_mem d)

theorem isChain_part (free : ∀ c, apart c '_' = false ∧ apart '_' c = false) (chars : List Char) :
    (part apart chars).IsChain fun c d => apart c d = false := by
  induction chars with
  | nil => exact .nil
  | cons c rest ih =>
      rw [part]
      split
      · refine List.isChain_cons.mpr ⟨by simpa using (free c).1, ?_⟩
        exact List.isChain_cons.mpr ⟨fun d _ => (free d).2, ih⟩
      · rename_i together
        refine List.isChain_cons.mpr ⟨fun d first => ?_, ih⟩
        rw [head?_part] at first
        simpa [Option.mem_def.mp first] using together

theorem part_part {one other : Char → Char → Bool} (free : ∀ c, other c '_' = false ∧ other '_' c = false)
    (chars : List Char) :
    part other (part one chars) = part (fun c d => one c d || other c d) chars := by
  induction chars with
  | nil => rfl
  | cons c rest ih =>
      have either : rest.head?.any (fun d => one c d || other c d) =
          (rest.head?.any (one c) || rest.head?.any (other c)) := by
        cases rest <;> rfl
      have marked : (part one rest).head?.any (other '_') = false := by
        cases (part one rest).head? <;> simp [(free _).2]
      by_cases parted : rest.head?.any (one c)
      · simp [part, either, parted, (free c).1, marked, ih]
      · simp [part, either, parted, head?_part, ih]

theorem not_infix_part (free : ∀ c, apart c '_' = false ∧ apart '_' c = false) {c d : Char} (refused : apart c d) :
    ¬ [c, d] <:+: part apart chars := by
  intro among
  have together := List.IsChain.infix (isChain_part free chars) among
  rw [List.isChain_pair] at together
  exact Bool.eq_false_iff.mp together refused

-- Two different characters cannot overlap with themselves, so the replacement misses no pair.
theorem breakUp_eq {first second : Char} (differ : first ≠ second) (chars : List Char) :
    breakUp first second chars = part (fun c d => c = first && d = second) chars := by
  induction chars using breakUp.induct first second with
  | case1 => rfl
  | case2 c => simp [breakUp, part]
  | case3 c d rest here ih =>
      obtain ⟨rfl, rfl⟩ := here
      simp [breakUp, part, ih, Ne.symm differ]
  | case4 c d rest apart ih =>
      have kept : ((d :: rest).head?.any fun d => c = first && d = second) = false := by simpa using apart
      rw [breakUp, if_neg apart, ih, part.eq_2 _ c, kept]
      rfl

end Parting

section Escaping
variable {c : Char} {chars : List Char}

theorem mem_escaped {d : Char} (listed : d ∈ escaped c) : d = '\\' ∨ d = c := by
  unfold escaped at listed
  split at listed
  · simpa using listed
  · exact .inr (List.mem_singleton.mp listed)

theorem unescape?_cons (plain : isQuoting c = false) (rest : List Char) :
    unescape? (c :: rest) = (unescape? rest).map (c :: ·) := by
  rw [unescape?]
  · simp [plain]
  · intro d more backslash
    simp [isQuoting, backslash] at plain

theorem unescape?_escaped (chars : List Char) : unescape? (chars.flatMap escaped) = some chars := by
  induction chars with
  | nil => rfl
  | cons c rest ih =>
      by_cases quoting : isQuoting c
      · simp [escaped, quoting, unescape?, ih]
      · have plain : isQuoting c = false := by simpa using quoting
        rw [List.flatMap_cons, escaped, if_neg quoting, List.singleton_append, unescape?_cons plain, ih]
        rfl

theorem replaceChar_escaped (chars : List Char) :
    replaceChar '"' ['\\', '"'] (replaceChar '\\' ['\\', '\\'] chars) = chars.flatMap escaped := by
  rw [replaceChar, replaceChar, List.flatMap_assoc]
  refine List.flatMap_congr fun c _ => ?_
  by_cases backslash : c = '\\'
  · subst backslash
    rfl
  · by_cases quote : c = '"'
    · subst quote
      rfl
    · simp [escaped, isQuoting, backslash, quote]

theorem isMark_quoting (quoting : isQuoting c) (d : Char) : isMark c d = false ∧ isMark d c = false := by
  have either : c = '\\' ∨ c = '"' := by simpa [isQuoting] using quoting
  rcases either with rfl | rfl <;> simp [isMark]

theorem head?_escaped (c : Char) (rest : List Char) :
    (rest.flatMap escaped).head?.any (isMark c) = rest.head?.any (isMark c) := by
  cases rest with
  | nil => rfl
  | cons d more =>
      by_cases quoting : isQuoting d
      · have backslash := (isMark_quoting (c := '\\') rfl c).2
        simp [escaped, quoting, backslash, (isMark_quoting quoting c).2]
      · simp [escaped, quoting]

-- No escape begins or ends in a character of a mark.
theorem part_escaped (chars : List Char) :
    part isMark (chars.flatMap escaped) = (part isMark chars).flatMap escaped := by
  induction chars with
  | nil => rfl
  | cons c rest ih =>
      have beside := head?_escaped c rest
      by_cases quoting : isQuoting c
      · have backslash := (isMark_quoting (c := '\\') rfl c).1
        have unmarked : rest.head?.any (isMark c) = false := by
          cases rest <;> simp [(isMark_quoting quoting _).1]
        simp [part, escaped, quoting, backslash, beside, unmarked, ih]
      · by_cases marked : rest.head?.any (isMark c)
        · have underscore : isQuoting '_' = false := by decide
          simp [part, escaped, quoting, beside, marked, underscore, ih]
        · simp [part, escaped, quoting, beside, marked, ih]

end Escaping

section Texts

theorem spaced_unbroken (c : Char) : spaced c ≠ '\t' ∧ spaced c ≠ '\n' ∧ spaced c ≠ '\r' := by
  unfold spaced
  split
  · decide
  · rename_i visible
    simpa using visible

theorem isMark_underscore (c : Char) : isMark c '_' = false ∧ isMark '_' c = false := by
  simp [isMark]

theorem escapeChars_eq (chars : List Char) : escapeChars chars = part isMark ((chars.map spaced).flatMap escaped) := by
  rw [escapeChars, replaceChar_escaped, breakUp_eq (by decide), breakUp_eq (by decide), part_part]
  · rfl
  · simp

theorem mem_escapeChars {c : Char} {chars : List Char} (listed : c ∈ escapeChars chars) :
    c = '_' ∨ c = '\\' ∨ ∃ d, c = spaced d := by
  rw [escapeChars_eq] at listed
  refine (mem_part listed).imp id fun written => ?_
  obtain ⟨d, among, either⟩ := List.mem_flatMap.mp written
  obtain ⟨e, -, rfl⟩ := List.mem_map.mp among
  exact (mem_escaped either).imp id fun same => ⟨e, same⟩

theorem contained_escapeChars (chars : List Char) : Contained (escapeChars chars) where
  unbroken c listed := by
    rcases mem_escapeChars listed with rfl | rfl | ⟨d, rfl⟩
    · decide
    · decide
    · exact spaced_unbroken d
  opens := by
    rw [escapeChars_eq]
    exact not_infix_part isMark_underscore rfl
  closes := by
    rw [escapeChars_eq]
    exact not_infix_part isMark_underscore rfl

theorem unescape?_escapeChars (chars : List Char) :
    unescape? (escapeChars chars) = some (part isMark (chars.map spaced)) := by
  rw [escapeChars_eq, part_escaped, unescape?_escaped]

-- Any text can be embedded once it is escaped, and all but its line breaks, its tabs and what surrounds it can be
-- read back.
theorem escaped_texts (text : String) : Contained (escapeText text).toList ∧
    ∃ kept, Text.Trims Text.isBlank text.toList kept ∧
      unescape? (escapeText text).toList = some (part isMark (kept.map spaced)) := by
  rw [escapeText, String.toList_ofList]
  exact ⟨contained_escapeChars _, _, Text.trims_trimBoth _ _, unescape?_escapeChars _⟩

example : escapeText "\t/*/ \\\"*/*\n" = "/_*_/ \\\\\\\"*_/_*" := by decide

end Texts
end ApiModels.Naming
