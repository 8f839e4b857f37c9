import Telemetry.Artifact.TypeScript
import Telemetry.Proofs.Identifier.Words

/-!
# The forms of names

A form of names says how a name begins and how it goes on.

* `hasForm_iff` takes a name of a form apart, and `hasForm_of_head` and `hasForm_append` put one
  together;
* `isTypeName`, `isFieldName`, `isConstantName` and `isPropertyName` are the forms that names in
  artifacts have;
* `Artifact.Rust.isTypeName_typeName`, `Artifact.Rust.isTypeName_variantName` and
  `Artifact.Rust.isFieldName_fieldName`: so do the names that are made for a target, whatever they
  are made of;
* `isConstantName_constantName` and `isPropertyName_asciiIdentifier` are about names that artifacts
  take over from plans;
* `notMem_of_suffix`: a name that gets a suffix where it is taken is not taken.
-/

namespace Telemetry

/-- Whether a text begins with a character of one class and goes on with characters of another. -/
def hasForm (first others : Char → Bool) (s : String) : Bool :=
  s.toList.head?.any first && s.toList.tail.all others

/-- Whether a name has the form of types and variants: an upper-case letter, then letters and
digits. -/
def isTypeName : String → Bool :=
  hasForm Char.isUpper Char.isAlphanum

/-- Whether a name has the form of fields: a lower-case letter, then lower-case letters, digits and
underscores. -/
def isFieldName : String → Bool :=
  hasForm Char.isLower fun c => c.isLower || c.isDigit || c == '_'

/-- Whether a name has the form of constants: an upper-case letter, then upper-case letters, digits
and underscores. -/
def isConstantName : String → Bool :=
  hasForm Char.isUpper fun c => c.isUpper || c.isDigit || c == '_'

/-- Whether a name has the form of properties: a letter or an underscore, then letters, digits and
underscores. -/
def isPropertyName : String → Bool :=
  hasForm (fun c => c.isAlpha || c == '_') isIdentifierChar

section HasForm

variable {first others : Char → Bool} {a b : String}

/-- A name of a form, taken apart. -/
theorem hasForm_iff : hasForm first others a = true ↔
    ∃ c rest, a.toList = c :: rest ∧ first c = true ∧ ∀ d ∈ rest, others d = true := by
  rw [hasForm, Bool.and_eq_true, List.all_eq_true]
  cases a.toList with
  | nil =>
    constructor
    · rintro ⟨begins, -⟩
      cases begins
    · rintro ⟨c, rest, isList, -⟩
      cases isList
  | cons c rest =>
    constructor
    · rintro ⟨begins, goesOn⟩
      exact ⟨c, rest, rfl, begins, goesOn⟩
    · rintro ⟨_, _, isList, begins, goesOn⟩
      cases isList
      exact ⟨begins, goesOn⟩

theorem hasForm_of_head (begins : a.toList.head?.any first = true)
    (goesOn : ∀ c ∈ a.toList, others c = true) : hasForm first others a = true := by
  rw [hasForm, Bool.and_eq_true, List.all_eq_true]
  exact ⟨begins, fun c hc => goesOn c (List.mem_of_mem_tail hc)⟩

theorem hasForm_append (ha : hasForm first others a = true)
    (hb : ∀ c ∈ b.toList, others c = true) : hasForm first others (a ++ b) = true := by
  obtain ⟨c, rest, letters, begins, goesOn⟩ := hasForm_iff.1 ha
  refine hasForm_iff.2 ⟨c, rest ++ b.toList, ?_, begins, List.forall_mem_append.2 ⟨goesOn, hb⟩⟩
  rw [String.toList_append, letters, List.cons_append]

end HasForm

/-- A name that gets a suffix where it is taken is not taken, if nothing taken has the suffix. -/
theorem notMem_of_suffix {taken : List String} {suffix name : String} {isTaken : Bool}
    (noSuffix : ∀ k ∈ taken, ¬ suffix.toList.isSuffixOf k.toList)
    (detects : name ∈ taken → isTaken = true) :
    (if isTaken then name ++ suffix else name) ∉ taken := by
  split
  · intro there
    refine noSuffix _ there ?_
    rw [String.toList_append]
    exact List.isSuffixOf_iff_suffix.2 (List.suffix_append _ _)
  · rename_i free
    exact fun there => free (detects there)

/-! ### Names of plans -/

/-- Names with segments capitalized have no underscores. -/
theorem isAlphanum_of_mem_pascalCase {name : String} (h : IsWord name) :
    ∀ c ∈ (pascalCase name).toList, c.isAlphanum = true := by
  intro c hc
  rw [pascalCase, String.toList_ofList] at hc
  obtain ⟨segment, hs, hc⟩ := List.mem_flatMap.1 hc
  have alphanumeric : ∀ d ∈ segment, d.isAlphanum = true := by
    intro d hd
    have isChar := h d (Text.mem_of_mem_splitOnP hs hd)
    have noUnderscore := Text.eq_false_of_mem_splitOnP hs hd
    simp only [isIdentifierChar, Bool.or_eq_true] at isChar
    exact isChar.resolve_right fun eq => absurd eq (Bool.eq_false_iff.1 noUnderscore)
  cases segment with
  | nil => cases hc
  | cons d rest =>
    obtain ⟨first, rest⟩ := List.forall_mem_cons.1 alphanumeric
    have ascii := Text.toNat_lt_of_isAlphanum first
    rw [capitalized, Text.upper_of_ascii ascii] at hc
    rcases List.mem_cons.1 hc with rfl | hc
    · exact Text.of_ascii (p := fun d => d.isAlphanum = true → d.toUpper.isAlphanum = true)
        (by decide) ascii first
    · exact rest c hc

/-- The constant of a metric has the form of constants. -/
theorem isConstantName_constantName {name : String} (h : SnakeCase name) :
    isConstantName (constantName name) = true := by
  have ascii : ∀ c ∈ name.toList, c.toNat < 128 :=
    fun c hc => toNat_lt_of_isIdentifierChar (h.isWord c hc)
  have letters : (constantName name).toList = name.toList.map Char.toUpper :=
    String.toList_map
  refine hasForm_of_head ?_ ?_
  · obtain ⟨first, head, tail, letter, -, -, isJoined⟩ := h
    rw [letters, isJoined]
    rw [isJoined] at ascii
    exact Text.of_ascii (p := fun c => c.isLower = true → c.toUpper.isUpper = true)
      (by decide) (ascii first List.mem_cons_self) letter
  · rw [letters, List.forall_mem_map]
    intro c hc
    have cases := h.isSegmentChar_or c hc
    exact Text.of_ascii (p := fun c => isSegmentChar c = true ∨ c = '_' →
      (c.toUpper.isUpper || c.toUpper.isDigit || c.toUpper == '_') = true)
      (by decide) (ascii c hc) cases

/-- Identifiers have the form of properties. -/
theorem isPropertyName_asciiIdentifier (text : String) :
    isPropertyName (asciiIdentifier text) = true := by
  refine hasForm_of_head ?_ (isWord_asciiIdentifier text)
  have kept : ∀ c ∈ text.toList.filter isIdentifierChar, isIdentifierChar c = true :=
    fun c hc => (List.mem_filter.1 hc).2
  unfold asciiIdentifier
  cases isList : text.toList.filter isIdentifierChar with
  | nil => decide
  | cons c rest =>
    rw [isList] at kept
    have first := kept c List.mem_cons_self
    show (String.toList (.ofList (if c.isDigit then '_' :: c :: rest else c :: rest))).head?.any _
      = true
    rw [String.toList_ofList]
    by_cases digit : c.isDigit = true
    · rw [if_pos digit]
      rfl
    · rw [if_neg digit]
      show (c.isAlpha || c == '_') = true
      simp only [isIdentifierChar, Char.isAlphanum, digit, Bool.or_false] at first
      exact first

namespace Artifact.Rust

/-! ### Types and variants -/

/-- A name of letters and digits that can begin a name, but not in lower case, has the form of
types. -/
theorem isTypeName_of_startsName {s : String} (goesOn : ∀ c ∈ s.toList, c.isAlphanum = true)
    (notLower : startsLower s = false) (starts : startsName s = true) : isTypeName s = true := by
  refine hasForm_of_head ?_ goesOn
  rw [startsName] at starts
  rw [startsLower] at notLower
  cases letters : s.toList with
  | nil =>
    rw [letters] at starts
    cases starts
  | cons c rest =>
    rw [letters] at starts notLower goesOn
    have alphanumeric := goesOn c List.mem_cons_self
    exact Text.of_ascii (p := fun c => c.isAlphanum = true → c.isLower = false →
      (c == '_' || c.isAlpha) = true → c.isUpper = true)
      (by decide) (Text.toNat_lt_of_isAlphanum alphanumeric) alphanumeric notLower starts

/-- A name of the form of types can begin a name. -/
theorem startsName_of_isTypeName {s : String} (h : isTypeName s = true) : startsName s = true := by
  obtain ⟨c, rest, letters, upper, -⟩ := hasForm_iff.1 h
  rw [startsName, letters]
  show (c == '_' || (c.isUpper || c.isLower)) = true
  rw [upper, Bool.true_or, Bool.or_true]

/-- A name of the form of types is a word. -/
theorem isWord_of_isTypeName {s : String} (h : isTypeName s = true) : IsWord s ∧ s ≠ "" := by
  obtain ⟨c, rest, letters, upper, goesOn⟩ := hasForm_iff.1 h
  constructor
  · intro d there
    rw [letters] at there
    rw [isIdentifierChar, Bool.or_eq_true]
    rcases List.mem_cons.1 there with rfl | there
    · exact .inl (by rw [Text.isAlphanum_eq_or, upper, Bool.true_or, Bool.true_or])
    · exact .inl (goesOn d there)
  · rintro rfl
    cases letters

/-- Letters and digits, not in lower case at first, come to have the form of types if they get a
mark in front where they cannot begin a name. -/
theorem isTypeName_marked (whenEmpty mark : String) {raw : String}
    (goesOn : ∀ c ∈ raw.toList, c.isAlphanum = true) (notLower : startsLower raw = false)
    (hEmpty : isTypeName whenEmpty = true) (hMark : isTypeName mark = true) :
    isTypeName
      (if startsName (if raw.isEmpty then whenEmpty else raw) then
        if raw.isEmpty then whenEmpty else raw
      else mark ++ if raw.isEmpty then whenEmpty else raw) = true := by
  by_cases empty : raw.isEmpty = true
  · simp only [if_pos empty]
    split
    · exact hEmpty
    · rename_i noStart
      exact absurd (startsName_of_isTypeName hEmpty) noStart
  · simp only [if_neg empty]
    split
    · rename_i starts
      exact isTypeName_of_startsName goesOn notLower starts
    · exact hasForm_append hMark goesOn

/-- The name of a type has the form of types. -/
theorem isTypeName_typeName {raw : String} (goesOn : ∀ c ∈ raw.toList, c.isAlphanum = true)
    (notLower : startsLower raw = false) : isTypeName (typeName raw) = true := by
  have marked := isTypeName_marked "Type" "Type" goesOn notLower (by decide) (by decide)
  unfold typeName
  extract_lets present name
  split
  · exact hasForm_append marked (List.all_eq_true.1 (by decide))
  · exact marked

/-- The name of a variant has the form of types. -/
theorem isTypeName_variantName (value : String) : isTypeName (variantName value) = true := by
  have isWord := isWord_asciiIdentifier value
  have marked := isTypeName_marked "Variant" "V" (isAlphanum_of_mem_pascalCase isWord)
    (startsLower_pascalCase isWord) (by decide) (by decide)
  unfold variantName
  extract_lets raw present name
  split
  · exact hasForm_append marked (List.all_eq_true.1 (by decide))
  · exact marked

/-- No type gets a name that cannot be one. -/
theorem typeName_notMem_keywords (raw : String) : typeName raw ∉ keywords := by
  unfold typeName
  extract_lets present name
  refine notMem_of_suffix (by decide) fun there => ?_
  rw [Bool.or_eq_true, List.contains_iff_mem]
  exact .inl there

/-- No type gets a name that the artifact uses for something else. -/
theorem typeName_notMem_reservedTypes (raw : String) : typeName raw ∉ reservedTypes := by
  unfold typeName
  extract_lets present name
  refine notMem_of_suffix (by decide) fun there => ?_
  rw [Bool.or_eq_true, List.contains_iff_mem, List.contains_iff_mem]
  exact .inr there

/-- No variant gets a name that cannot be one. -/
theorem variantName_notMem_keywords (value : String) : variantName value ∉ keywords := by
  unfold variantName
  extract_lets raw present name
  exact notMem_of_suffix (by decide) List.contains_iff_mem.2

/-! ### Fields -/

/-- No word of a run is empty. -/
theorem ne_nil_of_mem_camelWords {cs word : List Char} (h : word ∈ camelWords cs) : word ≠ [] := by
  induction cs using camelWords.induct generalizing word with
  | case1 => cases h
  | case2 c =>
    rw [camelWords, List.mem_singleton] at h
    rw [h]
    exact List.cons_ne_nil _ _
  | case3 c d rest nothing ih =>
    rw [camelWords, nothing] at h
    rw [List.mem_singleton.1 h]
    exact List.cons_ne_nil _ _
  | case4 c d rest first words found ends ih =>
    rw [camelWords, found] at h
    simp only [ends, if_true] at h
    rcases List.mem_cons.1 h with rfl | h
    · exact List.cons_ne_nil _ _
    · rw [found] at ih
      exact ih h
  | case5 c d rest first words found goesOn ih =>
    rw [camelWords, found] at h
    simp only [goesOn] at h
    rcases List.mem_cons.1 h with rfl | h
    · exact List.cons_ne_nil _ _
    · rw [found] at ih
      exact ih (List.mem_cons_of_mem _ h)

/-- Whether a text is a word of letters in lower case and digits. -/
def IsLowerWord (word : String) : Prop :=
  word.toList ≠ [] ∧ ∀ c ∈ word.toList, (c.isLower || c.isDigit) = true

/-- The words of an identifier consist of lower-case letters and digits, and are not empty. -/
theorem isLowerWord_of_mem_words {identifier word : String} (h : word ∈ words identifier) :
    IsLowerWord word := by
  obtain ⟨letters, hLetters, rfl⟩ := List.mem_map.1 h
  obtain ⟨run, hRun, hLetters⟩ := List.mem_flatMap.1 hLetters
  have split := (List.mem_filter.1 hRun).1
  rw [IsLowerWord, String.toList_ofList]
  refine ⟨fun empty => ne_nil_of_mem_camelWords hLetters (List.map_eq_nil_iff.1 empty), ?_⟩
  rw [List.forall_mem_map]
  intro c hc
  have alphanumeric : c.isAlphanum = true := by
    have kept := Text.eq_false_of_mem_splitOnP split (mem_of_mem_camelWords hLetters hc)
    exact (Bool.not_eq_false' ..).mp kept
  exact Text.of_ascii
    (p := fun c => c.isAlphanum = true → (c.toLower.isLower || c.toLower.isDigit) = true)
    (by decide) (Text.toNat_lt_of_isAlphanum alphanumeric) alphanumeric

/-- Words joined by underscores begin as the first of them does. -/
theorem head?_intercalate {first : String} (h : first.toList ≠ []) (rest : List String) :
    ("_".intercalate (first :: rest)).toList.head? = first.toList.head? := by
  cases rest with
  | nil => rw [String.intercalate_singleton]
  | cons second rest =>
    rw [String.intercalate_cons_cons, String.toList_append, String.toList_append,
      List.append_assoc, List.head?_append_of_ne_nil _ h]

/-- What is said of underscores and of the characters of words is said of the words joined. -/
theorem forall_mem_intercalate {p : Char → Prop} (underscore : p '_') {words : List String}
    (h : ∀ word ∈ words, ∀ c ∈ word.toList, p c) : ∀ c ∈ ("_".intercalate words).toList, p c := by
  induction words with
  | nil => exact List.forall_mem_nil _
  | cons first rest ih =>
    obtain ⟨head, others⟩ := List.forall_mem_cons.1 h
    cases rest with
    | nil =>
      rw [String.intercalate_singleton]
      exact head
    | cons second rest =>
      rw [String.intercalate_cons_cons, String.toList_append, String.toList_append,
        List.forall_mem_append, List.forall_mem_append]
      exact ⟨⟨head, List.forall_mem_singleton.2 underscore⟩, ih others⟩

/-- The name of a field has the form of fields. -/
theorem isFieldName_fieldName (identifier : String) :
    isFieldName (fieldName identifier) = true := by
  unfold fieldName
  extract_lets joined name
  have isJoined : joined.toList.head?.any (fun c => c.isLower || c.isDigit) = true ∧
      ∀ c ∈ joined.toList, (c.isLower || c.isDigit || c == '_') = true := by
    have all : ∀ word ∈ words identifier, IsLowerWord word := fun _ => isLowerWord_of_mem_words
    simp only [joined]
    cases isWords : words identifier with
    | nil => exact ⟨by decide, List.all_eq_true.1 (by decide)⟩
    | cons first rest =>
      rw [isWords] at all
      have goesOn : ∀ c ∈ ("_".intercalate (first :: rest)).toList,
          (c.isLower || c.isDigit || c == '_') = true :=
        forall_mem_intercalate (by decide) fun word hw c hc => by
          rw [(all word hw).2 c hc, Bool.true_or]
      refine ⟨?_, goesOn⟩
      obtain ⟨notEmpty, letters⟩ := all first List.mem_cons_self
      show ("_".intercalate (first :: rest)).toList.head?.any _ = true
      rw [head?_intercalate notEmpty]
      cases isList : first.toList with
      | nil => exact absurd isList notEmpty
      | cons c cs =>
        rw [isList] at letters
        exact letters c List.mem_cons_self
  obtain ⟨begins, goesOn⟩ := isJoined
  have isName : isFieldName name = true := by
    simp only [name]
    split
    · exact hasForm_append (by decide) goesOn
    · rename_i noDigit
      refine hasForm_of_head ?_ goesOn
      cases letters : joined.toList with
      | nil =>
        rw [letters] at begins
        cases begins
      | cons c rest =>
        rw [letters] at begins noDigit
        exact (Bool.or_eq_true .. ▸ begins).resolve_right noDigit
  split
  · exact hasForm_append isName (List.all_eq_true.1 (by decide))
  · exact isName

/-- No field gets a name that cannot be one. -/
theorem fieldName_notMem_keywords (identifier : String) : fieldName identifier ∉ keywords := by
  unfold fieldName
  extract_lets joined name
  exact notMem_of_suffix (by decide) List.contains_iff_mem.2

end Artifact.Rust

namespace Artifact.TypeScript

/-- No declaration gets the name of a keyword. -/
theorem typeName_notMem_keywords (identifier : String) : typeName identifier ∉ keywords := by
  unfold typeName
  refine notMem_of_suffix (by decide) fun there => ?_
  rw [Bool.or_eq_true, List.contains_iff_mem]
  exact .inl there

/-- No declaration hides a global type. -/
theorem typeName_notMem_reservedTypes (identifier : String) :
    typeName identifier ∉ reservedTypes := by
  unfold typeName
  refine notMem_of_suffix (by decide) fun there => ?_
  rw [Bool.or_eq_true, List.contains_iff_mem, List.contains_iff_mem]
  exact .inr there

end Artifact.TypeScript

end Telemetry
