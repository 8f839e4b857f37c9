import Telemetry.Proofs.Identifier.Forms
import Telemetry.Proofs.Metric.Reference
import Telemetry.Proofs.Text.LetterCase

/-!
# What names keep of their texts

Deriving a name drops and changes characters, and yet little is lost: which names come to the same
can be read off the letters and digits that are kept.

* `Artifact.Rust.join_words`: the words of a text are its ASCII letters and digits in lower case,
  all of them and in order;
* `Artifact.Rust.derivesNames` collects what the names of fields and variants are, whatever they
  are made from: well formed, no keywords, stable, and for fields apart from each other unless the
  letters and digits agree;
* `identifiers_exact` says which names of metrics come to one type name or to one constant.
-/

namespace Telemetry

/-! ### Names of metrics -/

/-- The type name of a metric has the form of types. -/
theorem SnakeCase.isTypeName_pascalCase {name : String} (h : SnakeCase name) :
    isTypeName (pascalCase name) = true := by
  refine hasForm_of_head ?_ (isAlphanum_of_mem_pascalCase h.isWord)
  obtain ⟨first, head, tail, letter, others, segments, isJoined⟩ := h
  have opening : ∀ c ∈ first :: head, isSegmentChar c = true :=
    List.forall_mem_cons.2 ⟨isSegmentChar_of_isLower letter, others⟩
  have ascii := toNat_lt_of_isSegmentChar (opening first List.mem_cons_self)
  rw [pascalCase, String.toList_ofList, isJoined, splitOn_joined (notMem_underscore opening)
    fun segment hs => notMem_underscore (segments segment hs).2, List.flatMap_cons, capitalized,
    Text.upper_of_ascii ascii]
  show first.toUpper.isUpper = true
  exact Text.of_ascii (p := fun c => c.isLower = true → c.toUpper.isUpper = true)
    (by decide) ascii letter

/-- Metrics that are accepted have type names of the form of types.  Two of them agree up to the
case of letters exactly if the names of the metrics agree but for underscores, and two constants
agree only if the names do. -/
theorem identifiers_exact {a b : MetricEntry} {m n : Metric MetadataSource}
    (ha : Metric.ofEntry a = .ok m) (hb : Metric.ofEntry b = .ok n) :
    isTypeName (pascalCase m.name) = true ∧
    (Text.SameLetters (pascalCase m.name) (pascalCase n.name) ↔
      withoutUnderscores m.name = withoutUnderscores n.name) ∧
    (constantName m.name = constantName n.name → m.name = n.name) := by
  obtain ⟨snakeA, -, -, nameA, -⟩ := Metric.ofEntry_eq_ok_iff.1 ha
  obtain ⟨snakeB, -, -, nameB, -⟩ := Metric.ofEntry_eq_ok_iff.1 hb
  rw [nameA, nameB]
  refine ⟨snakeA.isTypeName_pascalCase, ?_, constantName_inj snakeA snakeB⟩
  rw [Text.sameLetters_iff, toLower_pascalCase snakeA, toLower_pascalCase snakeB]

/-- A segment that begins with a digit has no upper case, so here the type names are the same. -/
theorem identifiers_exact_of_digits :
    Metric.ofEntry ⟨"s3_2nd", "count", none, []⟩ = .ok ⟨"s3_2nd", .count, none, []⟩ ∧
    Metric.ofEntry ⟨"s32nd", "count", none, []⟩ = .ok ⟨"s32nd", .count, none, []⟩ ∧
    Text.SameLetters (pascalCase "s3_2nd") (pascalCase "s32nd") ∧
    constantName "s3_2nd" ≠ constantName "s32nd" := by
  have isCount : (Text.trim "count").toLower = MetricUnit.count.name := by decide +kernel
  have first : Metric.ofEntry ⟨"s3_2nd", "count", none, []⟩
      = .ok ⟨"s3_2nd", .count, none, []⟩ :=
    Metric.ofEntry_eq_ok_iff.2
      ⟨isSnakeCase_iff.1 (by decide +kernel), isCount, .nil, rfl, rfl⟩
  have second : Metric.ofEntry ⟨"s32nd", "count", none, []⟩
      = .ok ⟨"s32nd", .count, none, []⟩ :=
    Metric.ofEntry_eq_ok_iff.2
      ⟨isSnakeCase_iff.1 (by decide +kernel), isCount, .nil, rfl, rfl⟩
  obtain ⟨-, sameLetters, sameConstant⟩ := identifiers_exact first second
  exact ⟨first, second, sameLetters.2 (by decide +kernel),
    fun same => absurd (sameConstant same) (by decide)⟩

namespace Artifact.Rust

/-! ### Words -/

/-- The ASCII letters and digits of a text, in lower case. -/
def letters (text : String) : String :=
  .ofList ((text.toList.filter Char.isAlphanum).map Char.toLower)

/-- The words of a run, one behind the other, are the run. -/
theorem flatten_camelWords (cs : List Char) : (camelWords cs).flatten = cs := by
  induction cs using camelWords.induct with
  | case1 => rfl
  | case2 c => rfl
  | case3 c d rest nothing ih =>
    rw [nothing] at ih
    cases ih
  | case4 c d rest first words found ends ih =>
    rw [found] at ih
    rw [camelWords, found]
    simp only [ends, if_true]
    exact congrArg (c :: ·) ih
  | case5 c d rest first words found goesOn ih =>
    rw [found] at ih
    rw [camelWords, found]
    simp only [goesOn]
    exact congrArg (c :: ·) ih

/-- A run without upper-case letters is one word. -/
theorem camelWords_of_noUpper {cs : List Char} (ne : cs ≠ []) (h : ∀ c ∈ cs, c.isUpper = false) :
    camelWords cs = [cs] := by
  induction cs using camelWords.induct with
  | case1 => exact absurd rfl ne
  | case2 c => rfl
  | case3 c d rest nothing ih =>
    have words := ih (List.cons_ne_nil _ _) fun e he => h e (List.mem_cons_of_mem _ he)
    rw [nothing] at words
    cases words
  | case4 c d rest first words found ends ih =>
    -- a word ends nowhere but in front of an upper-case letter
    have noUpper := h d (List.mem_cons_of_mem _ List.mem_cons_self)
    rw [wordEndsBetween, noUpper, Bool.and_false, Bool.and_false, Bool.false_and] at ends
    cases ends
  | case5 c d rest first words found goesOn ih =>
    have isWord := ih (List.cons_ne_nil _ _) fun e he => h e (List.mem_cons_of_mem _ he)
    rw [found] at isWord
    cases isWord
    rw [camelWords, found]
    simp only [goesOn]
    rfl

/-- The words of a text are its letters and digits in lower case, in order. -/
theorem join_words (text : String) : String.join (words text) = letters text := by
  refine String.toList_inj.1 ?_
  rw [String.toList_join, letters, String.toList_ofList, words, List.flatMap_map]
  have chars : ∀ word : List Char,
      (String.ofList (word.map Char.toLower)).toList = word.map Char.toLower :=
    fun _ => String.toList_ofList
  have kept : (fun c : Char => !!c.isAlphanum) = Char.isAlphanum :=
    funext fun c => Bool.not_not _
  have whole : List.flatten ∘ camelWords = id := funext flatten_camelWords
  simp only [chars]
  rw [← List.map_flatMap, List.flatMap_id', List.flatMap_def, List.flatten_flatten, List.map_map,
    whole, List.map_id, List.flatten_filter_not_isEmpty, Text.flatten_splitOnP, kept]

/-- What an underscore joins has the words of both sides. -/
theorem words_append_underscore (a b : String) : words (a ++ "_" ++ b) = words a ++ words b := by
  have underscore : (a ++ "_" ++ b).toList = a.toList ++ '_' :: b.toList := by
    rw [String.toList_append, String.toList_append, List.append_assoc]
    rfl
  have split : (a.toList ++ '_' :: b.toList).splitOnP (fun c => !c.isAlphanum)
      = a.toList.splitOnP (fun c => !c.isAlphanum) ++ b.toList.splitOnP fun c => !c.isAlphanum :=
    List.splitOnP_append_cons _ _ rfl
  rw [words, underscore, split, List.filter_append, List.flatMap_append, List.map_append, words,
    words]

theorem words_empty : words "" = [] :=
  rfl

/-- A word of letters in lower case and digits is the one word that it has. -/
theorem words_of_isLowerWord {word : String} (h : IsLowerWord word) : words word = [word] := by
  obtain ⟨ne, lower⟩ := h
  have ascii : ∀ c ∈ word.toList, c.toNat < 128 := by
    intro c hc
    refine Text.toNat_lt_of_isAlphanum ?_
    rw [Text.isAlphanum_eq_or, Bool.or_assoc, lower c hc, Bool.or_true]
  have whole : ∀ c ∈ word.toList, (!c.isAlphanum) = false := by
    intro c hc
    rw [Text.isAlphanum_eq_or, Bool.or_assoc, lower c hc, Bool.or_true]
    rfl
  have noUpper : ∀ c ∈ word.toList, c.isUpper = false := fun c hc =>
    Text.of_ascii (p := fun c => (c.isLower || c.isDigit) = true → c.isUpper = false)
      (by decide) (ascii c hc) (lower c hc)
  have same : word.toList.map Char.toLower = word.toList := by
    refine (List.map_congr_left fun c hc => ?_).trans (List.map_id' _)
    exact Text.of_ascii (p := fun c => (c.isLower || c.isDigit) = true → c.toLower = c)
      (by decide) (ascii c hc) (lower c hc)
  have kept : [word.toList].filter (fun run => !run.isEmpty) = [word.toList] := by
    rw [List.filter_eq_self, List.forall_mem_singleton, Bool.not_eq_true',
      List.isEmpty_eq_false_iff]
    exact ne
  rw [words, List.splitOnP_eq_singleton whole, kept, List.flatMap_singleton,
    camelWords_of_noUpper ne noUpper, List.map_singleton, same, String.ofList_toList]

/-- Words that are joined are got back. -/
theorem words_intercalate {ws : List String} (h : ∀ word ∈ ws, IsLowerWord word) :
    words ("_".intercalate ws) = ws := by
  induction ws with
  | nil => rfl
  | cons first rest ih =>
    obtain ⟨isWord, others⟩ := List.forall_mem_cons.1 h
    cases rest with
    | nil =>
      rw [String.intercalate_singleton]
      exact words_of_isLowerWord isWord
    | cons second rest =>
      rw [String.intercalate_cons_cons, words_append_underscore, words_of_isLowerWord isWord,
        ih others]
      rfl

/-! ### Fields -/

/-- The name of a field with the given words, before it is told apart from keywords. -/
def fieldStem (ws : List String) : String :=
  let name := match ws with
    | [] => "field"
    | found => "_".intercalate found
  if name.toList.head?.any Char.isDigit then "field_" ++ name else name

/-- The name of a field hangs on its words alone. -/
theorem fieldName_eq (identifier : String) :
    fieldName identifier =
      if keywords.contains (fieldStem (words identifier)) then fieldStem (words identifier) ++ "_"
      else fieldStem (words identifier) :=
  rfl

theorem fieldStem_cons (first : String) (rest : List String) :
    fieldStem (first :: rest) =
      if ("_".intercalate (first :: rest)).toList.head?.any Char.isDigit then
        "field_" ++ "_".intercalate (first :: rest)
      else "_".intercalate (first :: rest) :=
  rfl

theorem isLowerWord_field : IsLowerWord "field" :=
  ⟨by decide, List.all_eq_true.1 (by decide)⟩

/-- The words of a stem are those that it was made of, or these behind one more; it is the stem of
its words. -/
theorem words_fieldStem {ws : List String} (h : ∀ word ∈ ws, IsLowerWord word) :
    (words (fieldStem ws) = ws ∨ words (fieldStem ws) = "field" :: ws) ∧
      fieldStem (words (fieldStem ws)) = fieldStem ws := by
  cases ws with
  | nil =>
    have isField : words (fieldStem []) = ["field"] := words_of_isLowerWord isLowerWord_field
    rw [isField]
    exact ⟨.inr rfl, rfl⟩
  | cons first rest =>
    rw [fieldStem_cons]
    split
    · -- the word in front keeps the stem from beginning with a digit again
      have isWords : words ("field_" ++ "_".intercalate (first :: rest))
          = "field" :: first :: rest := by
        have joined := words_append_underscore "field" ("_".intercalate (first :: rest))
        rw [words_of_isLowerWord isLowerWord_field, words_intercalate h] at joined
        exact joined
      rw [isWords]
      refine ⟨.inr rfl, ?_⟩
      rw [fieldStem_cons, head?_intercalate isLowerWord_field.1, if_neg (by decide),
        String.intercalate_cons_cons]
      rfl
    · rename_i noDigit
      rw [words_intercalate h, fieldStem_cons, if_neg noDigit]
      exact ⟨.inl rfl, rfl⟩

/-- Telling a name apart from keywords leaves its words. -/
theorem words_fieldName (identifier : String) :
    words (fieldName identifier) = words (fieldStem (words identifier)) := by
  rw [fieldName_eq]
  split
  · have behind := words_append_underscore (fieldStem (words identifier)) ""
    rw [String.append_empty, words_empty, List.append_nil] at behind
    exact behind
  · rfl

/-- The name of a field is the name of the field that is called so. -/
theorem fieldName_fieldName (identifier : String) :
    fieldName (fieldName identifier) = fieldName identifier := by
  have all : ∀ word ∈ words identifier, IsLowerWord word := fun _ => isLowerWord_of_mem_words
  rw [fieldName_eq (fieldName identifier), words_fieldName, (words_fieldStem all).2, ← fieldName_eq]

/-- The name of a field has the letters and digits of its identifier, or these behind one word. -/
theorem letters_fieldName (identifier : String) :
    letters (fieldName identifier) = letters identifier ∨
      letters (fieldName identifier) = "field" ++ letters identifier := by
  have all : ∀ word ∈ words identifier, IsLowerWord word := fun _ => isLowerWord_of_mem_words
  rw [← join_words, ← join_words, words_fieldName]
  rcases (words_fieldStem all).1 with same | behind
  · exact .inl (congrArg String.join same)
  · rw [behind, String.join_cons]
    exact .inr rfl

/-- Two identifiers that share a field name have the same letters and digits, or the one has them
behind one word. -/
theorem letters_of_fieldName_eq {x y : String} (h : fieldName x = fieldName y) :
    letters x = letters y ∨ letters x = "field" ++ letters y ∨
      letters y = "field" ++ letters x := by
  have lettersX := letters_fieldName x
  rw [h] at lettersX
  rcases lettersX with sameX | behindX
  · rcases letters_fieldName y with sameY | behindY
    · exact .inl (sameX.symm.trans sameY)
    · exact .inr (.inl (sameX.symm.trans behindY))
  · rcases letters_fieldName y with sameY | behindY
    · exact .inr (.inr (sameY.symm.trans behindX))
    · -- both names have the word in front, so it tells nothing apart
      have joined := behindX.symm.trans behindY
      exact .inl ((String.append_right_inj "field").1 joined)

/-! ### Variants -/

/-- A name of the form of types, taken apart. -/
theorem exists_cons_of_isTypeName {s : String} (h : isTypeName s = true) :
    ∃ c rest, s.toList = c :: rest ∧ c.isUpper = true ∧ ∀ d ∈ c :: rest, d.isAlphanum = true := by
  obtain ⟨c, rest, isList, upper, goesOn⟩ := hasForm_iff.1 h
  refine ⟨c, rest, isList, upper, List.forall_mem_cons.2 ⟨?_, goesOn⟩⟩
  rw [Text.isAlphanum_eq_or, upper, Bool.true_or, Bool.true_or]

/-- A name of the form of types is the identifier made of it. -/
theorem asciiIdentifier_of_isTypeName {s : String} (h : isTypeName s = true) :
    asciiIdentifier s = s := by
  obtain ⟨c, rest, isList, upper, alphanumeric⟩ := exists_cons_of_isTypeName h
  have kept : (c :: rest).filter isIdentifierChar = c :: rest := by
    refine List.filter_eq_self.2 fun d hd => ?_
    rw [isIdentifierChar, alphanumeric d hd, Bool.true_or]
  have noDigit : c.isDigit = false :=
    Text.of_ascii (p := fun c => c.isUpper = true → c.isDigit = false) (by decide)
      (Text.toNat_lt_of_isAlphanum (alphanumeric c List.mem_cons_self)) upper
  rw [asciiIdentifier, isList, kept]
  show String.ofList (if c.isDigit = true then '_' :: c :: rest else c :: rest) = s
  rw [if_neg (Bool.eq_false_iff.1 noDigit), ← isList, String.ofList_toList]

/-- A name of the form of types is its own type name. -/
theorem pascalCase_of_isTypeName {s : String} (h : isTypeName s = true) : pascalCase s = s := by
  obtain ⟨c, rest, isList, upper, alphanumeric⟩ := exists_cons_of_isTypeName h
  have whole : '_' ∉ c :: rest := fun there => absurd (alphanumeric '_' there) (by decide)
  have ascii := Text.toNat_lt_of_isAlphanum (alphanumeric c List.mem_cons_self)
  have same : c.toUpper = c :=
    Text.of_ascii (p := fun c => c.isUpper = true → c.toUpper = c) (by decide) ascii upper
  rw [pascalCase, isList, List.splitOn_eq_singleton whole, List.flatMap_singleton, capitalized,
    Text.upper_of_ascii ascii, same, List.singleton_append, ← isList, String.ofList_toList]

/-- A name of the form of types that is no keyword is the name of the variant for it. -/
theorem variantName_of_isTypeName {s : String} (form : isTypeName s = true)
    (free : s ∉ keywords) : variantName s = s := by
  have notEmpty : s.isEmpty = false := by
    rw [Bool.eq_false_iff, ne_eq, String.isEmpty_iff]
    rintro rfl
    cases form
  have notTaken : keywords.contains s = false := by
    rw [Bool.eq_false_iff, ne_eq, List.contains_iff_mem]
    exact free
  simp only [variantName, asciiIdentifier_of_isTypeName form, pascalCase_of_isTypeName form,
    notEmpty, startsName_of_isTypeName form, notTaken, Bool.false_eq_true, if_true, if_false]

/-- What the names made of a text are. -/
structure DerivesNames (x : String) : Prop where
  fieldForm : isFieldName (fieldName x) = true
  fieldFree : fieldName x ∉ keywords
  fieldStable : fieldName (fieldName x) = fieldName x
  noEmptyWord : ∀ word ∈ words x, word ≠ ""
  /-- No letter and no digit is lost, and none comes in. -/
  wordsWhole : String.join (words x) = letters x
  /-- Another text shares the field name only if it has the same letters and digits, or one of the
  two has them behind the word that stands in for a letter. -/
  fieldShared (y : String) : fieldName x = fieldName y →
    letters x = letters y ∨ letters x = "field" ++ letters y ∨ letters y = "field" ++ letters x
  variantForm : isTypeName (variantName x) = true
  variantFree : variantName x ∉ keywords
  variantStable : variantName (variantName x) = variantName x

/-- Every text derives such names. -/
theorem derivesNames (x : String) : DerivesNames x where
  fieldForm := isFieldName_fieldName x
  fieldFree := fieldName_notMem_keywords x
  fieldStable := fieldName_fieldName x
  noEmptyWord word there := by
    rintro rfl
    exact (isLowerWord_of_mem_words there).1 rfl
  wordsWhole := join_words x
  fieldShared _ := letters_of_fieldName_eq
  variantForm := isTypeName_variantName x
  variantFree := variantName_notMem_keywords x
  variantStable := variantName_of_isTypeName (isTypeName_variantName x)
    (variantName_notMem_keywords x)

-- A word in front of a digit, and the suffixes of keywords.
example : fieldName "2fa" = "field_2fa" ∧ fieldName "Type" = "type_" ∧
    variantName "self" = "SelfValue" := by
  decide +kernel

end Artifact.Rust

end Telemetry
