import Mathlib.Data.List.Basic
import Telemetry.Identifier.Derived
import Telemetry.Metric.Definition
import Telemetry.Proofs.Text.Ascii

/-!
# Names of metrics

* `SnakeCase` is the language of metric names: a segment that begins with a letter, then any number
  of segments behind an underscore each; `isSnakeCase_iff` says that the check decides it;
* `toLower_pascalCase`: the type name of a metric, in lower case, is the name without its
  underscores.  So two type names differ at most in the case of letters exactly if the names differ
  at most in their underscores.
-/

namespace Telemetry

/-- Segments joined by underscores, the first without one before it. -/
def joined (head : List Char) (tail : List (List Char)) : List Char :=
  head ++ tail.flatMap ('_' :: ·)

/-- The names `[a-z][a-z0-9]*(_[a-z0-9]+)*`. -/
def SnakeCase (name : String) : Prop :=
  ∃ first head tail, Char.isLower first = true ∧ (∀ c ∈ head, isSegmentChar c = true) ∧
    (∀ segment ∈ tail, segment ≠ [] ∧ ∀ c ∈ segment, isSegmentChar c = true) ∧
    name.toList = joined (first :: head) tail

/-- The name with all underscores deleted. -/
def withoutUnderscores (name : String) : String :=
  .ofList (name.toList.filter (· != '_'))

theorem toNat_lt_of_isSegmentChar {c : Char} (h : isSegmentChar c = true) : c.toNat < 128 := by
  refine Text.toNat_lt_of_isAlphanum ?_
  rw [isSegmentChar, Bool.or_eq_true] at h
  rw [Text.isAlphanum_eq_or, Bool.or_eq_true, Bool.or_eq_true]
  rcases h with h | h
  · exact .inl (.inr h)
  · exact .inr h

theorem isSegmentChar_of_isLower {c : Char} (h : c.isLower = true) : isSegmentChar c = true := by
  rw [isSegmentChar, h, Bool.true_or]

theorem ne_underscore_of_isSegmentChar {c : Char} (h : isSegmentChar c = true) : c ≠ '_' := by
  intro eq
  rw [eq] at h
  exact absurd h (by decide)

theorem toLower_of_isSegmentChar {c : Char} (h : isSegmentChar c = true) : c.toLower = c :=
  Text.of_ascii (p := fun c => isSegmentChar c = true → c.toLower = c) (by decide +kernel)
    (toNat_lt_of_isSegmentChar h) h

/-! ### Segments -/

/-- Joined segments are what was joined. -/
theorem splitOn_joined {head : List Char} {tail : List (List Char)} (first : '_' ∉ head)
    (others : ∀ segment ∈ tail, '_' ∉ segment) :
    (joined head tail).splitOn '_' = head :: tail := by
  induction tail generalizing head with
  | nil =>
    rw [joined, List.flatMap_nil, List.append_nil]
    exact List.splitOn_eq_singleton first
  | cons segment tail ih =>
    have rest := ih (others segment List.mem_cons_self)
      fun s hs => others s (List.mem_cons_of_mem _ hs)
    rw [joined, List.flatMap_cons, List.cons_append,
      List.splitOn_append_cons_self_of_not_mem first]
    exact congrArg (head :: ·) rest

/-- The segments of a text, joined, are the text. -/
theorem exists_joined (cs : List Char) :
    ∃ head tail, cs.splitOn '_' = head :: tail ∧ cs = joined head tail := by
  induction cs with
  | nil => exact ⟨[], [], rfl, rfl⟩
  | cons c cs ih =>
    obtain ⟨head, tail, split, rfl⟩ := ih
    rw [List.splitOn_cons_eq_if_modifyHead, split]
    by_cases underscore : c = '_'
    · rw [underscore]
      exact ⟨[], head :: tail, rfl, rfl⟩
    · rw [if_neg (by rwa [beq_iff_eq])]
      exact ⟨c :: head, tail, rfl, rfl⟩

theorem notMem_underscore {cs : List Char} (h : ∀ c ∈ cs, isSegmentChar c = true) : '_' ∉ cs :=
  fun there => ne_underscore_of_isSegmentChar (h _ there) rfl

/-- The check decides the language. -/
theorem isSnakeCase_iff {name : String} : isSnakeCase name = true ↔ SnakeCase name := by
  rw [isSnakeCase, Bool.and_eq_true, List.all_eq_true]
  constructor
  · intro h
    obtain ⟨letter, segments⟩ := h
    obtain ⟨head, tail, split, isJoined⟩ := exists_joined name.toList
    rw [split] at segments
    have sound : ∀ segment ∈ head :: tail,
        segment ≠ [] ∧ ∀ c ∈ segment, isSegmentChar c = true := by
      intro segment hs
      have checked := segments segment hs
      simp only [Bool.and_eq_true, Bool.not_eq_true', List.isEmpty_eq_false_iff,
        List.all_eq_true] at checked
      exact checked
    have first := sound head List.mem_cons_self
    cases head with
    | nil => exact absurd rfl first.1
    | cons c head =>
      rw [isJoined] at letter
      refine ⟨c, head, tail, letter, ?_, ?_, isJoined⟩
      · exact fun d hd => first.2 d (List.mem_cons_of_mem _ hd)
      · exact fun segment hs => sound segment (List.mem_cons_of_mem _ hs)
  · intro h
    obtain ⟨first, head, tail, letter, others, segments, isJoined⟩ := h
    have opening : ∀ c ∈ first :: head, isSegmentChar c = true :=
      List.forall_mem_cons.2 ⟨isSegmentChar_of_isLower letter, others⟩
    rw [isJoined, splitOn_joined (notMem_underscore opening)
      fun segment hs => notMem_underscore (segments segment hs).2]
    refine ⟨letter, ?_⟩
    intro segment hs
    simp only [Bool.and_eq_true, Bool.not_eq_true', List.isEmpty_eq_false_iff, List.all_eq_true]
    rcases List.mem_cons.1 hs with rfl | hs
    · exact ⟨List.cons_ne_nil _ _, opening⟩
    · exact segments segment hs

/-! ### Type names -/

theorem map_toLower_of_segment {cs : List Char} (h : ∀ c ∈ cs, isSegmentChar c = true) :
    cs.map Char.toLower = cs := by
  rw [List.map_congr_left fun c hc => toLower_of_isSegmentChar (h c hc)]
  exact List.map_id' cs

/-- In lower case, a capitalized segment is the segment. -/
theorem map_toLower_capitalized {segment : List Char}
    (h : ∀ c ∈ segment, isSegmentChar c = true) :
    (capitalized segment).map Char.toLower = segment := by
  cases segment with
  | nil => rfl
  | cons c rest =>
    obtain ⟨first, others⟩ := List.forall_mem_cons.1 h
    have ascii := toNat_lt_of_isSegmentChar first
    rw [capitalized, Text.upper_of_ascii ascii, List.singleton_append, List.map_cons,
      Text.toLower_toUpper_of_ascii ascii, toLower_of_isSegmentChar first,
      map_toLower_of_segment others]

theorem filter_segment {cs : List Char} (h : ∀ c ∈ cs, isSegmentChar c = true) :
    cs.filter (· != '_') = cs :=
  List.filter_eq_self.2 fun c hc => bne_iff_ne.2 (ne_underscore_of_isSegmentChar (h c hc))

theorem filter_joined {head : List Char} {tail : List (List Char)}
    (h : ∀ segment ∈ head :: tail, ∀ c ∈ segment, isSegmentChar c = true) :
    (joined head tail).filter (· != '_') = (head :: tail).flatten := by
  obtain ⟨first, others⟩ := List.forall_mem_cons.1 h
  rw [joined, List.filter_append, filter_segment first, List.flatten_cons]
  refine congrArg (head ++ ·) ?_
  rw [List.filter_flatMap, ← List.flatMap_id']
  refine List.flatMap_congr fun segment hs => ?_
  rw [List.filter_cons_of_neg (by decide), filter_segment (others segment hs)]

/-- The type name of a metric is its name without underscores, up to the case of letters. -/
theorem toLower_pascalCase {name : String} (h : SnakeCase name) :
    (pascalCase name).toLower = withoutUnderscores name := by
  obtain ⟨first, head, tail, letter, others, segments, isJoined⟩ := h
  have all : ∀ segment ∈ (first :: head) :: tail, ∀ c ∈ segment, isSegmentChar c = true := by
    refine List.forall_mem_cons.2 ⟨?_, fun segment hs => (segments segment hs).2⟩
    exact List.forall_mem_cons.2 ⟨isSegmentChar_of_isLower letter, others⟩
  have split := splitOn_joined (notMem_underscore (all _ List.mem_cons_self))
    fun segment hs => notMem_underscore (segments segment hs).2
  have lowered : (((first :: head) :: tail).flatMap capitalized).map Char.toLower
      = ((first :: head) :: tail).flatten := by
    rw [List.map_flatMap, ← List.flatMap_id']
    exact List.flatMap_congr fun segment hs => map_toLower_capitalized (all segment hs)
  refine String.toList_inj.1 ?_
  show (String.map Char.toLower (pascalCase name)).toList = _
  rw [String.toList_map, pascalCase, withoutUnderscores, String.toList_ofList,
    String.toList_ofList, isJoined, split, lowered, filter_joined all]

end Telemetry
