import Telemetry.Artifact.RustNames
import Telemetry.Proofs.Metric.Name
import Telemetry.Proofs.Text.Runs
import Telemetry.Proofs.Text.Unbroken

/-!
# Identifiers are words

A word is a text of characters that an identifier can hold.  Whatever artifacts use as a name is a
word, so a reader finds its end without knowing it.

* `isWord_asciiIdentifier`, `SnakeCase.isWord`, `isWord_pascalCase` and `isWord_constantName` are
  about the names of plans;
* `Artifact.Rust.isWord_fieldName`, `Artifact.Rust.isWord_typeName` and
  `Artifact.Rust.isWord_variantName` are about the names that a target makes of these;
* `constantName_inj`: metrics with different names have different constants;
* `startsLower_pascalCase` and `Artifact.Rust.startsLower_typeName`: the name of a type does not
  begin with a lower-case letter.
-/

namespace Telemetry

/-- Whether a text consists of characters that an identifier can hold. -/
def IsWord (s : String) : Prop :=
  ∀ c ∈ s.toList, isIdentifierChar c = true

instance (s : String) : Decidable (IsWord s) :=
  List.decidableBAll (fun c => isIdentifierChar c = true) s.toList

theorem isWord_append {a b : String} : IsWord (a ++ b) ↔ IsWord a ∧ IsWord b := by
  rw [IsWord, String.toList_append]
  exact List.forall_mem_append

theorem isWord_ofList {cs : List Char} :
    IsWord (.ofList cs) ↔ ∀ c ∈ cs, isIdentifierChar c = true := by
  rw [IsWord, String.toList_ofList]

theorem isWord_ite {p : Prop} [Decidable p] {a b : String} (ha : IsWord a) (hb : IsWord b) :
    IsWord (if p then a else b) := by
  split
  · exact ha
  · exact hb

theorem toNat_lt_of_isIdentifierChar {c : Char} (h : isIdentifierChar c = true) :
    c.toNat < 128 := by
  rw [isIdentifierChar, Bool.or_eq_true] at h
  rcases h with h | h
  · exact Text.toNat_lt_of_isAlphanum h
  · rw [beq_iff_eq] at h
    rw [h]
    decide

/-- A word stays on its line. -/
theorem IsWord.unbroken {s : String} (h : IsWord s) : Text.Unbroken s.toList := by
  have all : ∀ n < 128, isIdentifierChar (Char.ofNat n) = true →
      Text.isLineBreaking (Char.ofNat n) = false := by decide +kernel
  intro c there
  exact Text.of_ascii (p := fun c => isIdentifierChar c = true → Text.isLineBreaking c = false) all
    (toNat_lt_of_isIdentifierChar (h c there)) (h c there)

theorem isIdentifierChar_toUpper {c : Char} (h : isIdentifierChar c = true) :
    isIdentifierChar c.toUpper = true :=
  Text.of_ascii (p := fun c => isIdentifierChar c = true → isIdentifierChar c.toUpper = true)
    (by decide +kernel) (toNat_lt_of_isIdentifierChar h) h

theorem isIdentifierChar_toLower {c : Char} (h : isIdentifierChar c = true) :
    isIdentifierChar c.toLower = true :=
  Text.of_ascii (p := fun c => isIdentifierChar c = true → isIdentifierChar c.toLower = true)
    (by decide +kernel) (toNat_lt_of_isIdentifierChar h) h

theorem isIdentifierChar_of_isSegmentChar {c : Char} (h : isSegmentChar c = true) :
    isIdentifierChar c = true := by
  simp only [isSegmentChar, Bool.or_eq_true] at h
  simp only [isIdentifierChar, Text.isAlphanum_eq_or, Bool.or_eq_true]
  rcases h with h | h
  · exact .inl (.inl (.inr h))
  · exact .inl (.inr h)

/-! ### The names of plans -/

theorem isWord_asciiIdentifier (text : String) : IsWord (asciiIdentifier text) := by
  have kept : ∀ c ∈ text.toList.filter isIdentifierChar, isIdentifierChar c = true :=
    fun c hc => (List.mem_filter.1 hc).2
  unfold asciiIdentifier
  cases isList : text.toList.filter isIdentifierChar with
  | nil => decide
  | cons c rest =>
    rw [isList] at kept
    show IsWord (.ofList (if c.isDigit then '_' :: c :: rest else c :: rest))
    rw [isWord_ofList]
    split
    · exact List.forall_mem_cons.2 ⟨by decide, kept⟩
    · exact kept

/-- A name in snake case holds nothing but what may stand in a segment, and underscores. -/
theorem SnakeCase.isSegmentChar_or {name : String} (h : SnakeCase name) :
    ∀ c ∈ name.toList, isSegmentChar c = true ∨ c = '_' := by
  obtain ⟨first, head, tail, letter, others, segments, isJoined⟩ := h
  intro c hc
  rw [isJoined] at hc
  rcases List.mem_append.1 hc with hc | hc
  · rcases List.mem_cons.1 hc with rfl | hc
    · exact .inl (isSegmentChar_of_isLower letter)
    · exact .inl (others c hc)
  · obtain ⟨segment, hs, hc⟩ := List.mem_flatMap.1 hc
    rcases List.mem_cons.1 hc with rfl | hc
    · exact .inr rfl
    · exact .inl ((segments segment hs).2 c hc)

theorem SnakeCase.isWord {name : String} (h : SnakeCase name) : IsWord name := by
  intro c hc
  rcases h.isSegmentChar_or c hc with segment | rfl
  · exact isIdentifierChar_of_isSegmentChar segment
  · decide

theorem asciiIdentifier_ne_empty (text : String) : asciiIdentifier text ≠ "" := by
  unfold asciiIdentifier
  cases text.toList.filter isIdentifierChar with
  | nil => decide
  | cons c rest =>
    intro empty
    have letters := congrArg String.toList empty
    simp only [String.toList_ofList] at letters
    split at letters
    · cases letters
    · cases letters

theorem SnakeCase.constantName_ne_empty {name : String} (h : SnakeCase name) :
    constantName name ≠ "" := by
  obtain ⟨first, head, tail, -, -, -, isJoined⟩ := h
  intro empty
  have letters := congrArg String.toList empty
  rw [constantName, show name.toUpper = name.map Char.toUpper from rfl, String.toList_map,
    isJoined] at letters
  cases letters

theorem isIdentifierChar_of_mem_capitalized {segment : List Char}
    (h : ∀ c ∈ segment, isIdentifierChar c = true) :
    ∀ c ∈ capitalized segment, isIdentifierChar c = true := by
  cases segment with
  | nil => exact List.forall_mem_nil _
  | cons c rest =>
    obtain ⟨first, others⟩ := List.forall_mem_cons.1 h
    rw [capitalized, Text.upper_of_ascii (toNat_lt_of_isIdentifierChar first)]
    exact List.forall_mem_cons.2 ⟨isIdentifierChar_toUpper first, others⟩

theorem isWord_pascalCase {name : String} (h : IsWord name) : IsWord (pascalCase name) := by
  rw [pascalCase, isWord_ofList]
  intro c hc
  obtain ⟨segment, hs, hc⟩ := List.mem_flatMap.1 hc
  refine isIdentifierChar_of_mem_capitalized (fun d hd => h d ?_) c hc
  exact Text.mem_of_mem_splitOnP hs hd

theorem isWord_constantName {name : String} (h : IsWord name) : IsWord (constantName name) := by
  intro c hc
  rw [constantName, show name.toUpper = name.map Char.toUpper from rfl, String.toList_map] at hc
  obtain ⟨d, hd, rfl⟩ := List.mem_map.1 hc
  exact isIdentifierChar_toUpper (h d hd)

theorem SnakeCase.toLower_char {name : String} (h : SnakeCase name) :
    ∀ c ∈ name.toList, c.toLower = c := by
  intro c hc
  rcases h.isSegmentChar_or c hc with segment | rfl
  · exact toLower_of_isSegmentChar segment
  · decide

/-- In lower case, the constant of a metric is its name. -/
theorem toLower_constantName {name : String} (h : SnakeCase name) :
    (constantName name).toLower = name := by
  refine String.toList_inj.1 ?_
  show (String.map Char.toLower (String.map Char.toUpper name)).toList = _
  rw [String.toList_map, String.toList_map, List.map_map]
  refine (List.map_congr_left fun c hc => ?_).trans (List.map_id' _)
  have ascii := toNat_lt_of_isIdentifierChar (h.isWord c hc)
  exact (Text.toLower_toUpper_of_ascii ascii).trans (h.toLower_char c hc)

/-- Metrics with different names have different constants. -/
theorem constantName_inj {a b : String} (ha : SnakeCase a) (hb : SnakeCase b)
    (h : constantName a = constantName b) : a = b := by
  rw [← toLower_constantName ha, h, toLower_constantName hb]

/-! ### How names begin -/

/-- Whether a text begins with a lower-case letter. -/
def startsLower (s : String) : Bool :=
  s.toList.head?.any Char.isLower

theorem startsLower_append {a b : String} (ha : startsLower a = false)
    (hb : startsLower b = false) : startsLower (a ++ b) = false := by
  rw [startsLower, String.toList_append]
  rw [startsLower] at ha hb
  cases letters : a.toList with
  | nil => exact hb
  | cons c rest =>
    rw [letters] at ha
    exact ha

theorem startsLower_ite {p : Prop} [Decidable p] {a b : String} (ha : startsLower a = false)
    (hb : startsLower b = false) : startsLower (if p then a else b) = false := by
  split
  · exact ha
  · exact hb

/-- A type name does not begin with a lower-case letter. -/
theorem startsLower_pascalCase {name : String} (h : IsWord name) :
    startsLower (pascalCase name) = false := by
  have letters : ∀ segments : List (List Char),
      (∀ segment ∈ segments, ∀ c ∈ segment, isIdentifierChar c = true) →
      (segments.flatMap capitalized).head?.any Char.isLower = false := by
    intro segments isWord
    induction segments with
    | nil => rfl
    | cons segment rest ih =>
      obtain ⟨first, others⟩ := List.forall_mem_cons.1 isWord
      cases segment with
      | nil => exact ih others
      | cons c segment =>
        have ascii := toNat_lt_of_isIdentifierChar (first c List.mem_cons_self)
        rw [List.flatMap_cons, capitalized, Text.upper_of_ascii ascii]
        exact Text.of_ascii (p := fun c => c.toUpper.isLower = false) (by decide +kernel) ascii
  rw [startsLower, pascalCase, String.toList_ofList]
  exact letters _ fun segment hs c hc => h c (Text.mem_of_mem_splitOnP hs hc)

namespace Artifact.Rust

/-! ### Names made of words -/

/-- The words of a run consist of its characters. -/
theorem mem_of_mem_camelWords {cs word : List Char} (h : word ∈ camelWords cs) {c : Char}
    (hc : c ∈ word) : c ∈ cs := by
  induction cs using camelWords.induct generalizing word with
  | case1 => cases h
  | case2 d =>
    rw [camelWords, List.mem_singleton] at h
    rwa [h] at hc
  | case3 d e rest nothing ih =>
    rw [camelWords, nothing] at h
    rw [List.mem_singleton.1 h, List.mem_singleton] at hc
    rw [hc]
    exact List.mem_cons_self
  | case4 d e rest first words found ends ih =>
    rw [camelWords, found] at h
    simp only [ends, if_true] at h
    rcases List.mem_cons.1 h with rfl | h
    · rw [List.mem_singleton.1 hc]
      exact List.mem_cons_self
    · rw [found] at ih
      exact List.mem_cons_of_mem _ (ih h hc)
  | case5 d e rest first words found goesOn ih =>
    rw [camelWords, found] at h
    simp only [goesOn] at h
    rw [found] at ih
    rcases List.mem_cons.1 h with rfl | h
    · rcases List.mem_cons.1 hc with rfl | hc
      · exact List.mem_cons_self
      · exact List.mem_cons_of_mem _ (ih List.mem_cons_self hc)
    · exact List.mem_cons_of_mem _ (ih (List.mem_cons_of_mem _ h) hc)

theorem isWord_of_mem_words {identifier : String} (h : IsWord identifier) :
    ∀ word ∈ words identifier, IsWord word := by
  intro word hw
  obtain ⟨run, hRun, rfl⟩ := List.mem_map.1 hw
  obtain ⟨piece, hPiece, hRun⟩ := List.mem_flatMap.1 hRun
  have split := (List.mem_filter.1 hPiece).1
  rw [isWord_ofList, List.forall_mem_map]
  intro c hc
  exact isIdentifierChar_toLower
    (h c (Text.mem_of_mem_splitOnP split (mem_of_mem_camelWords hRun hc)))

/-- Words joined by underscores are a word. -/
theorem isWord_intercalate {words : List String} (h : ∀ word ∈ words, IsWord word) :
    IsWord ("_".intercalate words) := by
  induction words with
  | nil => decide
  | cons first rest ih =>
    obtain ⟨isWord, others⟩ := List.forall_mem_cons.1 h
    cases rest with
    | nil =>
      rw [String.intercalate_singleton]
      exact isWord
    | cons second rest =>
      rw [String.intercalate_cons_cons, isWord_append, isWord_append]
      exact ⟨⟨isWord, by decide⟩, ih others⟩

theorem isWord_fieldName {identifier : String} (h : IsWord identifier) :
    IsWord (fieldName identifier) := by
  unfold fieldName
  extract_lets joined name
  have isJoined : IsWord joined := by
    have all := isWord_of_mem_words h
    simp only [joined]
    split
    · decide
    · exact isWord_intercalate all
  have isName : IsWord name := isWord_ite (isWord_append.2 ⟨by decide, isJoined⟩) isJoined
  exact isWord_ite (isWord_append.2 ⟨isName, by decide⟩) isName

theorem isWord_typeName {raw : String} (h : IsWord raw) : IsWord (typeName raw) := by
  unfold typeName
  extract_lets present name
  have isPresent : IsWord present := isWord_ite (by decide) h
  have isName : IsWord name := isWord_ite isPresent (isWord_append.2 ⟨by decide, isPresent⟩)
  exact isWord_ite (isWord_append.2 ⟨isName, by decide⟩) isName

theorem startsLower_typeName {raw : String} (h : startsLower raw = false) :
    startsLower (typeName raw) = false := by
  unfold typeName
  extract_lets present name
  have isPresent : startsLower present = false := startsLower_ite (by decide) h
  have isName : startsLower name = false :=
    startsLower_ite isPresent (startsLower_append (by decide) isPresent)
  exact startsLower_ite (startsLower_append isName (by decide)) isName

theorem isWord_variantName (value : String) : IsWord (variantName value) := by
  have isPascal := isWord_pascalCase (isWord_asciiIdentifier value)
  unfold variantName
  extract_lets raw present name
  have isPresent : IsWord present := isWord_ite (by decide) isPascal
  have isName : IsWord name := isWord_ite isPresent (isWord_append.2 ⟨by decide, isPresent⟩)
  exact isWord_ite (isWord_append.2 ⟨isName, by decide⟩) isName

end Artifact.Rust

end Telemetry
