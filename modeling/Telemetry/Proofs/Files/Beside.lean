import Mathlib.Data.List.Induction
import Telemetry.Proofs.Files.Write

/-!
# The directory of a file

A path that leads to a file leads to the directory of the file without its last part, and with
another last part to the other names in this directory.

* `Path.exists_beginnings_eq`: the longest beginning of a path that counts, and what is passed over
  behind it;
* `Path.Written` says how a path to a file is written, and `Path.exists_written` that it is;
* `Tree.follow_append`: what is behind the parts of a path is followed from the directory that the
  parts lead to, and `Tree.follow_filter`: parts `.` do not count;
* `Tree.target?_temporaryPath`: where the temporary file of a file is;
* `makeDirectories_of_target?`: there is no directory to make for a file that can be reached.
-/

namespace Telemetry.Files

namespace Path

/-! ### Segments -/

theorem toList_join (segments : List (List Char)) :
    (join segments).toList = ['/'].intercalate segments := by
  rw [join, String.toList_ofList]

theorem segments_join {kept : List (List Char)} (notEmpty : kept ≠ [])
    (noSlash : ∀ segment ∈ kept, '/' ∉ segment) : segments (join kept) = kept := by
  rw [segments, toList_join, List.splitOn_intercalate _ noSlash notEmpty]

theorem join_segments (written : String) : join (segments written) = written := by
  rw [join, segments, List.intercalate_splitOn, String.ofList_toList]

/-- A segment behind others is behind a slash. -/
theorem toList_join_concat {kept : List (List Char)} (notEmpty : kept ≠ [])
    (segment : List Char) :
    (join (kept ++ [segment])).toList = (join kept).toList ++ '/' :: segment := by
  rw [toList_join, toList_join]
  induction kept with
  | nil => exact absurd rfl notEmpty
  | cons first rest ih =>
    cases rest with
    | nil =>
      rw [List.singleton_append, List.intercalate_cons_cons, List.intercalate_singleton,
        List.intercalate_singleton, List.append_assoc]
      rfl
    | cons second rest =>
      rw [List.cons_append, List.cons_append, List.intercalate_cons_cons, ← List.cons_append,
        ih (List.cons_ne_nil _ _), List.intercalate_cons_cons, List.append_assoc _ _ ('/' :: _)]

/-- A text begins with a slash exactly if the path that it writes does, whatever is behind the first
segments. -/
theorem head?_join_concat {kept : List (List Char)} (notEmpty : kept ≠ []) (segment : List Char)
    (rest : List (List Char)) :
    (join (kept ++ segment :: rest)).toList.head? = ((join kept).toList ++ ['/']).head? := by
  rw [toList_join, toList_join]
  induction kept with
  | nil => exact absurd rfl notEmpty
  | cons first more ih =>
    cases more with
    | nil =>
      rw [List.singleton_append, List.intercalate_cons_cons, List.intercalate_singleton]
      cases first <;> rfl
    | cons second more =>
      rw [List.cons_append, List.cons_append, List.intercalate_cons_cons,
        List.intercalate_cons_cons]
      cases first <;> rfl

theorem mem_of_mem_pieces {written name : String} {c : Char} (isPiece : name ∈ pieces written)
    (h : c ∈ name.toList) : c ∈ written.toList := by
  rw [pieces, parts, List.mem_filterMap] at isPiece
  obtain ⟨segment, isSegment, isName⟩ := isPiece
  split at isName
  · cases isName
  · cases isName
    rw [segments, List.splitOn_eq_splitOnP] at isSegment
    rw [String.toList_ofList] at h
    exact Text.mem_of_mem_splitOnP isSegment h

/-! ### Beginnings that count -/

/-- A segment that does not count behind others: an empty one, or the directory itself. -/
def Passed (segment : List Char) : Prop :=
  segment = [] ∨ segment = ['.']

theorem counts_concat {segments : List (List Char)} (notEmpty : segments ≠ [])
    (segment : List Char) :
    counts (segments ++ [segment]) = false ↔ Passed segment := by
  have last : counts (segments ++ [segment]) = (!segment.isEmpty && segment != ['.']) := by
    cases segments with
    | nil => exact absurd rfl notEmpty
    | cons first rest =>
      cases rest with
      | nil => rfl
      | cons second rest => simp [counts]
  rw [last, Bool.and_eq_false_iff, Bool.not_eq_false', List.isEmpty_iff, bne_eq_false_iff_eq,
    Passed]

theorem beginnings_concat (segments : List (List Char)) (segment : List Char) :
    beginnings (segments ++ [segment]) =
      (if counts (segments ++ [segment]) then [segments ++ [segment]] else []) ++
        beginnings segments := by
  have shorter : (List.range (segments.length + 1)).map (segments ++ [segment]).take =
      (List.range (segments.length + 1)).map segments.take := by
    refine List.map_congr_left fun count inside => ?_
    exact List.take_append_of_le_length (Nat.le_of_lt_succ (List.mem_range.1 inside))
  have whole : (segments ++ [segment]).take (segments.length + 1) = segments ++ [segment] := by
    rw [List.take_of_length_le]
    simp
  rw [beginnings, beginnings, List.length_append, List.length_singleton, List.range_succ,
    List.reverse_append, List.reverse_singleton, List.map_append, List.filter_append,
    List.map_reverse, shorter, ← List.map_reverse, List.map_singleton, whole]
  congr 1
  split <;> simp [*]

/-- The longest beginning that counts, if there is one: nothing counts behind it. -/
theorem exists_beginnings_eq (segments : List (List Char)) :
    ∃ kept passed, segments = kept ++ passed ∧ (∀ segment ∈ passed, Passed segment) ∧
      ((kept = [] ∧ beginnings segments = [] ∧ ∀ first ∈ segments.head?, first = []) ∨
        counts kept = true ∧ ∃ more, beginnings segments = kept :: more) := by
  induction segments using List.reverseRecOn with
  | nil => exact ⟨[], [], rfl, List.forall_mem_nil _, .inl ⟨rfl, rfl, nofun⟩⟩
  | append_singleton segments segment ih =>
    rw [beginnings_concat]
    cases here : counts (segments ++ [segment]) with
    | true =>
      exact ⟨segments ++ [segment], [], (List.append_nil _).symm, List.forall_mem_nil _,
        .inr ⟨here, _, rfl⟩⟩
    | false =>
      obtain ⟨kept, passed, rfl, all, longest⟩ := ih
      rw [if_neg Bool.false_ne_true, List.nil_append]
      refine ⟨kept, passed ++ [segment], List.append_assoc .., ?_, ?_⟩
      · refine List.forall_mem_append.2 ⟨all, List.forall_mem_singleton.2 ?_⟩
        by_cases alone : kept ++ passed = []
        · rw [alone] at here
          exact .inl (by simpa [counts] using here)
        · exact (counts_concat alone segment).1 here
      · refine longest.imp_left fun ⟨isNil, nothing, first⟩ => ⟨isNil, nothing, ?_⟩
        by_cases alone : kept ++ passed = []
        · rw [alone] at here ⊢
          rintro _ ⟨⟩
          simpa [counts] using here
        · rwa [List.head?_append_of_ne_nil _ alone]

/-- A beginning that counts ends in a letter. -/
theorem exists_join_eq_of_counts {kept : List (List Char)} (h : counts kept = true)
    (noSlash : ∀ segment ∈ kept, '/' ∉ segment) :
    ∃ c, (join kept).toList.getLast? = some c ∧ c ≠ '/' := by
  have ends : ∃ last, last ≠ [] ∧ last ∈ kept ∧
      (join kept).toList.getLast? = last.getLast? := by
    rcases List.eq_nil_or_concat kept with rfl | ⟨front, last, rfl⟩
    · cases h
    · rw [List.concat_eq_append] at h ⊢
      have someLetters : last ≠ [] := by
        rintro rfl
        cases front with
        | nil => cases h
        | cons first rest =>
          rw [(counts_concat (List.cons_ne_nil _ _) []).2 (.inl rfl)] at h
          cases h
      refine ⟨last, someLetters, List.mem_append_right _ (List.mem_singleton_self _), ?_⟩
      by_cases alone : front = []
      · rw [alone, List.nil_append, toList_join, List.intercalate_singleton]
      · rw [toList_join_concat alone, List.getLast?_append_of_ne_nil _ (List.cons_ne_nil _ _),
          List.getLast?_cons_of_ne_nil someLetters]
  obtain ⟨last, someLetters, isSegment, isLast⟩ := ends
  refine ⟨last.getLast someLetters, isLast.trans (List.getLast?_eq_some_getLast someLetters), ?_⟩
  intro slash
  exact noSlash last isSegment (slash ▸ List.getLast_mem someLetters)

/-! ### Putting another name in the place of a file name -/

/-- How a path is written that ends in a name: some segments that are kept if another name takes its
place, and segments that do not count. -/
structure Written (path : String) (kept passed : List (List Char)) (name : String) : Prop where
  isPiece : IsPiece name
  segments_eq : segments path = kept ++ (passed ++ [name.toList])
  each : ∀ segment ∈ passed, Passed segment
  alone : kept = [] → passed = []
  sibling (other : String) : ((ofString path).sibling other).text = join (kept ++ [other.toList])
  outer : (kept = [] ∧ (ofString path).outer = []) ∨ (kept ≠ [] ∧
    ∃ front more, (ofString path).outer = front :: more ∧ front.text ≠ "" ∧
      front.text.toList <+: (join kept).toList ++ ['/'] ∧ pieces front.text = parts kept)

/-- A path that does not end in a slash ends in its last piece. -/
theorem exists_segments_eq {written name : String} {before : List String}
    (isPieces : pieces written = before ++ [name]) (noSlash : written.toList.getLast? ≠ some '/') :
    ∃ front, segments written = front ++ [name.toList] ∧ before = parts front := by
  rcases List.eq_nil_or_concat (segments written) with none | ⟨front, last, isSegments⟩
  · rw [pieces, none] at isPieces
    exact absurd isPieces.symm (List.append_ne_nil_of_right_ne_nil _ (List.cons_ne_nil _ _))
  rw [List.concat_eq_append] at isSegments
  rw [pieces, isSegments, parts_append] at isPieces
  have someLetters : last ≠ [] := by
    rintro rfl
    by_cases alone : front = []
    · rw [alone] at isPieces
      exact absurd isPieces.symm (List.append_ne_nil_of_right_ne_nil _ (List.cons_ne_nil _ _))
    · refine noSlash ?_
      rw [← join_segments written, isSegments, toList_join_concat alone, List.getLast?_concat]
  have isPart : parts [last] = [String.ofList last] := by simp [parts, someLetters]
  rw [isPart] at isPieces
  obtain ⟨rfl, isName⟩ := List.append_inj' isPieces rfl
  refine ⟨front, ?_, rfl⟩
  rw [isSegments, ← List.singleton_inj.1 isName, String.toList_ofList]

/-- What the path of a file lies in. -/
theorem outer_eq {path name : String} {front : List (List Char)}
    (isSegments : segments path = front ++ [name.toList]) (notEmpty : name ≠ "")
    (notDot : name ≠ ".") :
    (ofString path).outer =
      (beginnings front).map (fun front => ⟨join front⟩) ++ (ofString path).root := by
  have counted : counts (front ++ [name.toList]) = true := by
    have noPassed : ¬ Passed name.toList := by
      rintro (empty | dot)
      · exact notEmpty (by simpa using empty)
      · exact notDot (String.toList_inj.1 dot)
    by_cases alone : front = []
    · rw [alone]
      simpa [counts] using notEmpty
    · rw [← Bool.not_eq_false, counts_concat alone]
      exact noPassed
  rw [outer, directories, ofString]
  dsimp only
  rw [isSegments, beginnings_concat, if_pos counted]
  rfl

/-- What stays in front of another name. -/
theorem text_sibling_eq {path : Path} {name other front : String}
    (isName : path.fileName? = some name)
    (isFront : (path.outer.head?.map text).getD "" = front) :
    (path.sibling other).text =
      front ++ (if front.isEmpty || front.toList.getLast? == some '/' then "" else "/") ++
        other := by
  rw [sibling, isName, Option.isSome_some, if_pos rfl, isFront]

section Written

variable {path name : String} {kept passed : List (List Char)}

/-- The name may be all of the path. -/
theorem written_alone (isPiece : IsPiece name) (isName : (ofString path).fileName? = some name)
    (isSegments : segments path = [name.toList])
    (isOuter : (ofString path).outer = (ofString path).root) : Written path [] [] name := by
  have isPath : path = name := by
    rw [← join_segments path, isSegments, join, List.intercalate_singleton, String.ofList_toList]
  have relative : (ofString path).root = [] := by
    rw [root, if_neg]
    intro absolute
    rw [isPath] at absolute
    exact isPiece.2 (List.mem_of_mem_head? (beq_iff_eq.1 absolute))
  rw [relative] at isOuter
  constructor
  case isPiece => exact isPiece
  case segments_eq => exact isSegments
  case each => exact List.forall_mem_nil _
  case alone => exact fun _ => rfl
  case sibling =>
    intro other
    have noFront : ((ofString path).outer.head?.map text).getD "" = "" := by simp [isOuter]
    rw [text_sibling_eq isName noFront]
    simp [join]
  case outer => exact .inl ⟨rfl, isOuter⟩

/-- Nothing but the root may be in front of the name. -/
theorem written_root (isPiece : IsPiece name) (isName : (ofString path).fileName? = some name)
    (isSegments : segments path = [[]] ++ (passed ++ [name.toList]))
    (each : ∀ segment ∈ passed, Passed segment)
    (isOuter : (ofString path).outer = (ofString path).root) : Written path [[]] passed name := by
  have isRoot : (ofString path).root = [⟨"/"⟩] := by
    rw [root, if_pos]
    rw [ofString, ← join_segments path, isSegments]
    cases isRest : passed ++ [name.toList] with
    | nil => exact absurd isRest (List.append_ne_nil_of_right_ne_nil _ (List.cons_ne_nil _ _))
    | cons segment rest =>
      rw [head?_join_concat (List.cons_ne_nil _ _)]
      rfl
  rw [isRoot] at isOuter
  constructor
  case isPiece => exact isPiece
  case segments_eq => exact isSegments
  case each => exact each
  case alone => exact fun none => absurd none (List.cons_ne_nil _ _)
  case sibling =>
    intro other
    have isFront : ((ofString path).outer.head?.map text).getD "" = "/" := by simp [isOuter]
    rw [text_sibling_eq isName isFront]
    refine String.toList_inj.1 ?_
    rw [toList_join_concat (List.cons_ne_nil _ _), String.toList_append]
    rfl
  case outer =>
    exact .inr ⟨List.cons_ne_nil _ _, _, _, isOuter, by decide, List.prefix_refl _, rfl⟩

/-- The name may be in a directory that the path writes. -/
theorem written_inside (isPiece : IsPiece name) (isName : (ofString path).fileName? = some name)
    (isSegments : segments path = kept ++ (passed ++ [name.toList]))
    (each : ∀ segment ∈ passed, Passed segment) (counted : counts kept = true)
    (slashes : ∀ segment ∈ kept, '/' ∉ segment) {more : List Path}
    (isOuter : (ofString path).outer = ⟨join kept⟩ :: more) : Written path kept passed name := by
  have notNil : kept ≠ [] := by
    rintro rfl
    cases counted
  obtain ⟨c, isLast, notSlash⟩ := exists_join_eq_of_counts counted slashes
  have someText : join kept ≠ "" := by
    intro empty
    rw [empty] at isLast
    cases isLast
  constructor
  case isPiece => exact isPiece
  case segments_eq => exact isSegments
  case each => exact each
  case alone => exact fun none => absurd none notNil
  case sibling =>
    intro other
    have isFront : ((ofString path).outer.head?.map text).getD "" = join kept := by simp [isOuter]
    rw [text_sibling_eq isName isFront]
    refine String.toList_inj.1 ?_
    rw [toList_join_concat notNil]
    simp [someText, isLast, notSlash]
  case outer =>
    have isPieces : pieces (join kept) = parts kept := by rw [pieces, segments_join notNil slashes]
    exact .inr ⟨notNil, _, _, isOuter, someText, List.prefix_append _ _, isPieces⟩

end Written

/-- A path to a file is written so. -/
theorem exists_written {path name : String} {before : List String}
    (isPieces : pieces path = before ++ [name]) (noSlash : path.toList.getLast? ≠ some '/')
    (notDot : name ≠ ".") (notDots : name ≠ "..") :
    ∃ kept passed, Written path kept passed name := by
  have isName := fileName?_of_pieces isPieces notDot notDots
  have isPiece := isPiece_of_mem_pieces (show name ∈ pieces path by simp [isPieces])
  obtain ⟨front, isSegments, -⟩ := exists_segments_eq isPieces noSlash
  have isOuter := outer_eq isSegments isPiece.1 notDot
  have slashes : ∀ segment ∈ front, '/' ∉ segment := by
    intro segment there
    have inSegments : segment ∈ segments path := by simp [isSegments, there]
    exact slash_notMem_of_mem_segments inSegments
  obtain ⟨kept, passed, rfl, each, longest⟩ := exists_beginnings_eq front
  rw [List.append_assoc] at isSegments
  rcases longest with ⟨rfl, nothing, first⟩ | ⟨counted, more, isLongest⟩
  · rw [nothing, List.map_nil, List.nil_append] at isOuter
    cases passed with
    | nil => exact ⟨[], [], written_alone isPiece isName isSegments isOuter⟩
    | cons segment passed =>
      obtain rfl : segment = [] := first segment rfl
      obtain ⟨-, each⟩ := List.forall_mem_cons.1 each
      exact ⟨[[]], passed, written_root isPiece isName isSegments each isOuter⟩
  · rw [isLongest, List.map_cons, List.cons_append] at isOuter
    have keptSlashes : ∀ segment ∈ kept, '/' ∉ segment := fun segment there =>
      slashes segment (List.mem_append_left _ there)
    exact ⟨kept, passed,
      written_inside isPiece isName isSegments each counted keptSlashes isOuter⟩

theorem filter_parts_passed {passed : List (List Char)} (h : ∀ segment ∈ passed, Passed segment) :
    (parts passed).filter (· != ".") = [] := by
  rw [parts, List.filter_eq_nil_iff]
  intro part there
  obtain ⟨segment, isSegment, isPart⟩ := List.mem_filterMap.1 there
  rcases h segment isSegment with rfl | rfl
  · cases isPart
  · cases isPart
    decide

theorem mem_join {segments : List (List Char)} {c : Char} (h : c ∈ (join segments).toList) :
    c = '/' ∨ ∃ segment ∈ segments, c ∈ segment := by
  rw [toList_join] at h
  induction segments with
  | nil => cases h
  | cons first rest ih =>
    cases rest with
    | nil => exact .inr ⟨first, List.mem_cons_self, by simpa using h⟩
    | cons second rest =>
      rw [List.intercalate_cons_cons, List.mem_append, List.mem_append] at h
      rcases h with (here | slash) | there
      · exact .inr ⟨first, List.mem_cons_self, here⟩
      · exact .inl (List.mem_singleton.1 slash)
      · exact (ih there).imp_right fun ⟨segment, isSegment, found⟩ =>
          ⟨segment, List.mem_cons_of_mem _ isSegment, found⟩

namespace Written

variable {path name : String} {kept passed : List (List Char)}

theorem pieces_eq (h : Written path kept passed name) :
    pieces path = parts kept ++ parts passed ++ [name] := by
  rw [pieces, h.segments_eq, parts_append, parts_append, parts_singleton h.isPiece.1,
    List.append_assoc]

theorem slash_notMem (h : Written path kept passed name) {segment : List Char}
    (there : segment ∈ kept) : '/' ∉ segment := by
  have inSegments : segment ∈ segments path := by
    rw [h.segments_eq]
    exact List.mem_append_left _ there
  exact slash_notMem_of_mem_segments inSegments

theorem mem_of_mem_kept (h : Written path kept passed name) {segment : List Char} {c : Char}
    (there : segment ∈ kept) (inside : c ∈ segment) : c ∈ path.toList := by
  have isSegment : segment ∈ path.toList.splitOn '/' := by
    show segment ∈ segments path
    rw [h.segments_eq]
    exact List.mem_append_left _ there
  rw [List.splitOn_eq_splitOnP] at isSegment
  exact Text.mem_of_mem_splitOnP isSegment inside

theorem mem_of_mem_name (h : Written path kept passed name) {c : Char} (inside : c ∈ name.toList) :
    c ∈ path.toList := by
  have inPieces : name ∈ pieces path := by
    rw [h.pieces_eq]
    exact List.mem_append_right _ (List.mem_singleton_self _)
  exact mem_of_mem_pieces inPieces inside

theorem pieces_join (h : Written path kept passed name) {other : String} (isPiece : IsPiece other) :
    pieces (join (kept ++ [other.toList])) = parts kept ++ [other] := by
  have noSlash : ∀ segment ∈ kept ++ [other.toList], '/' ∉ segment :=
    List.forall_mem_append.2 ⟨fun _ => h.slash_notMem, List.forall_mem_singleton.2 isPiece.2⟩
  rw [pieces, segments_join (by simp) noSlash, parts_append, parts_singleton isPiece.1]

/-- The path begins with what is kept. -/
theorem head?_eq (h : Written path kept passed name) (notNil : kept ≠ []) :
    path.toList.head? = ((join kept).toList ++ ['/']).head? := by
  rw [← join_segments path, h.segments_eq]
  cases isRest : passed ++ [name.toList] with
  | nil => exact absurd isRest (List.append_ne_nil_of_right_ne_nil _ (List.cons_ne_nil _ _))
  | cons segment rest => exact head?_join_concat notNil segment rest

/-- With another name a path begins at the root exactly if it did before. -/
theorem absolute_join (h : Written path kept passed name) {other : String}
    (isPiece : IsPiece other) :
    ((join (kept ++ [other.toList])).toList.head? == some '/') =
      (path.toList.head? == some '/') := by
  by_cases isNil : kept = []
  · have relative {name : String} (isPiece : IsPiece name) :
        ((join [name.toList]).toList.head? == some '/') = false := by
      rw [toList_join, List.intercalate_singleton, beq_eq_false_iff_ne]
      exact fun slash => isPiece.2 (List.mem_of_mem_head? slash)
    have isPath : path = join [name.toList] := by
      rw [← join_segments path, h.segments_eq, isNil, h.alone isNil]
      rfl
    rw [isPath, relative h.isPiece, isNil, List.nil_append, relative isPiece]
  · rw [head?_join_concat isNil, h.head?_eq isNil]

theorem absolute_front (h : Written path kept passed name) (notNil : kept ≠ []) {front : String}
    (notEmpty : front ≠ "") (isFront : front.toList <+: (join kept).toList ++ ['/']) :
    (front.toList.head? == some '/') = (path.toList.head? == some '/') := by
  obtain ⟨c, cs, isList⟩ := List.exists_cons_of_ne_nil
    (show front.toList ≠ [] by simpa using notEmpty)
  obtain ⟨rest, whole⟩ := isFront
  rw [h.head?_eq notNil, ← whole, isList]
  rfl

/-- What the file lies in is no longer than the path with another name. -/
theorem utf8ByteSize_front_le (notNil : kept ≠ []) {front : String}
    (isFront : front.toList <+: (join kept).toList ++ ['/']) (other : String) :
    front.utf8ByteSize ≤ (join (kept ++ [other.toList])).utf8ByteSize := by
  obtain ⟨rest, whole⟩ := isFront
  have split : join (kept ++ [other.toList]) = front ++ .ofList rest ++ other := by
    refine String.toList_inj.1 ?_
    rw [toList_join_concat notNil, String.toList_append, String.toList_append, String.toList_ofList,
      whole, List.append_assoc]
    rfl
  rw [split, String.utf8ByteSize_append, String.utf8ByteSize_append, Nat.add_assoc]
  exact Nat.le_add_right _ _

end Written

end Path

namespace Tree

variable {tree : Tree} {path : String} {names : Names}

/-! ### Following parts -/

/-- Parts `.` before other parts do not count. -/
theorem follow_filter (slash : Bool) (directory : Names) (parts : List String) {rest : List String}
    (more : rest ≠ []) :
    tree.follow slash directory (parts.filter (· != ".") ++ rest) =
      tree.follow slash directory (parts ++ rest) := by
  induction parts generalizing directory with
  | nil => rfl
  | cons part others ih =>
    have isMore (parts : List String) : (parts ++ rest).isEmpty = false := by simp [more]
    by_cases stays : part = "."
    · subst stays
      rw [List.filter_cons_of_neg (by simp), ih, List.cons_append, follow, if_pos rfl]
    · rw [List.filter_cons_of_pos (by simpa using stays)]
      simp only [List.cons_append, follow, isMore, if_neg stays, ih]

/-- Behind parts that lead to a directory, the others are followed from there. -/
theorem follow_append {slash : Bool} {start directory : Names} {parts : List String}
    {name : String} (h : tree.follow slash start (parts ++ [name]) =
      .ok ⟨directory, some name, slash⟩) (notDot : name ≠ ".") (notDots : name ≠ "..")
    (slash' : Bool) {rest : List String} (more : rest ≠ []) :
    tree.follow slash' start (parts ++ rest) = tree.follow slash' directory rest := by
  induction parts generalizing start with
  | nil =>
    rw [List.nil_append, follow, if_neg notDot, if_neg notDots] at h
    split at h
    · cases h
    · rw [List.isEmpty_nil, if_pos rfl] at h
      cases h
      rfl
  | cons part others ih =>
    have isMore : (others ++ rest).isEmpty = false := by simp [more]
    have isMore' : (others ++ [name]).isEmpty = false := by simp
    rw [List.cons_append, follow, isMore'] at h
    rw [List.cons_append, follow, isMore]
    by_cases stays : part = "."
    · rw [if_pos stays] at h ⊢
      exact ih h
    by_cases up : part = ".."
    · rw [if_neg stays, if_pos up] at h ⊢
      exact ih h
    rw [if_neg stays, if_neg up] at h ⊢
    split at h
    · cases h
    · rename_i short
      rw [if_neg short]
      cases isEntry : tree.get? (start ++ [part]) with
      | none =>
        rw [isEntry] at h
        cases h
      | some entry =>
        rw [isEntry] at h
        cases entry with
        | file content => cases h
        | directory => exact ih h

/-- The parts in front of a name lead to a directory. -/
theorem exists_follow_eq {slash : Bool} {start directory : Names} {parts : List String}
    {name : String} (h : tree.follow slash start (parts ++ [name]) =
      .ok ⟨directory, some name, slash⟩) (slash' : Bool) :
    ∃ location, tree.follow slash' start parts = .ok location ∧
      ∀ last ∈ location.last, tree.get? (location.directory ++ [last]) = some .directory := by
  induction parts generalizing start with
  | nil => exact ⟨_, rfl, nofun⟩
  | cons part others ih =>
    have isMore : (others ++ [name]).isEmpty = false := by simp
    rw [List.cons_append, follow, isMore] at h
    rw [follow]
    by_cases stays : part = "."
    · rw [if_pos stays] at h ⊢
      exact ih h
    by_cases up : part = ".."
    · rw [if_neg stays, if_pos up] at h ⊢
      exact ih h
    rw [if_neg stays, if_neg up] at h ⊢
    split at h
    · cases h
    · rename_i short
      rw [if_neg short]
      cases isEntry : tree.get? (start ++ [part]) with
      | none =>
        rw [isEntry] at h
        cases h
      | some entry =>
        rw [isEntry] at h
        cases entry with
        | file content => cases h
        | directory =>
          split
          · exact ⟨_, rfl, fun last isLast => by cases isLast; exact isEntry⟩
          · exact ih h

theorem slash_of_follow {slash : Bool} {directory : Names} {parts : List String}
    {location : Location} (h : tree.follow slash directory parts = .ok location) :
    location.slash = slash := by
  fun_induction follow tree slash directory parts with
  | case1 | case5 =>
    cases h
    rfl
  | case4 | case6 | case7 => cases h
  | case2 _ _ ih | case3 _ _ _ ih | case8 _ _ _ _ _ _ _ _ ih => exact ih h

/-! ### Beside a file -/

/-- What a path to a file consists of: segments that lead to a directory, and the name of the
file. -/
structure Leads (tree : Tree) (path : String) (kept passed : List (List Char)) (directory : Names)
    (name : String) : Prop where
  written : Path.Written path kept passed name
  noNul : '\x00' ∉ path.toList
  notDot : name ≠ "."
  notDots : name ≠ ".."
  followed : tree.follow false (tree.start path) (Path.parts kept ++ [name]) =
    .ok ⟨directory, some name, false⟩

theorem exists_leads_of_target? (h : tree.target? path = some names) :
    ∃ kept passed directory name, tree.Leads path kept passed directory name ∧
      names = directory ++ [name] := by
  obtain ⟨directory, name, isLocation, rfl⟩ := target?_eq_some_iff.1 h
  rw [locate] at isLocation
  split at isLocation
  · cases isLocation
  rename_i noNul
  split at isLocation
  · cases isLocation
  split at isLocation
  · cases isLocation
  have noSlash := slash_of_follow isLocation
  rw [← noSlash] at isLocation
  obtain ⟨before, isPieces, notDot, notDots⟩ := exists_append_of_follow isLocation rfl
  obtain ⟨kept, passed, written⟩ := Path.exists_written isPieces
    (by simpa using noSlash.symm) notDot notDots
  refine ⟨kept, passed, directory, name, ⟨written, by simpa using noNul, notDot, notDots, ?_⟩, rfl⟩
  rw [written.pieces_eq, ← follow_filter _ _ _ (List.cons_ne_nil _ _), List.filter_append,
    Path.filter_parts_passed written.each, List.append_nil,
    follow_filter _ _ _ (List.cons_ne_nil _ _)] at isLocation
  exact isLocation

namespace Leads

variable {kept passed : List (List Char)} {directory : Names} {name : String}

theorem fileName?_eq (h : tree.Leads path kept passed directory name) :
    (Path.ofString path).fileName? = some name :=
  Path.fileName?_of_pieces h.written.pieces_eq h.notDot h.notDots

/-- Where another name beside a file is. -/
theorem target?_join (h : tree.Leads path kept passed directory name) {other : String}
    (isPiece : IsPiece other) (noNul : '\x00' ∉ other.toList) (notDot : other ≠ ".")
    (notDots : other ≠ "..") :
    tree.target? (Path.join (kept ++ [other.toList])) =
      if (Path.join (kept ++ [other.toList])).utf8ByteSize ≤ maxPathBytes ∧
          other.utf8ByteSize ≤ maxNameBytes then some (directory ++ [other]) else none := by
  have isPieces := h.written.pieces_join isPiece
  have noNuls : ¬ (Path.join (kept ++ [other.toList])).toList.contains '\x00' = true := by
    rw [List.contains_iff_mem]
    intro nul
    rcases Path.mem_join nul with isSlash | ⟨segment, there, nul⟩
    · exact absurd isSlash (by decide)
    · rcases List.mem_append.1 there with there | there
      · exact h.noNul (h.written.mem_of_mem_kept there nul)
      · cases List.mem_singleton.1 there
        exact noNul nul
  obtain ⟨front, isLast⟩ : ∃ front,
      (Path.join (kept ++ [other.toList])).toList = front ++ other.toList := by
    by_cases alone : kept = []
    · exact ⟨[], by rw [alone, Path.toList_join, List.nil_append, List.intercalate_singleton]; rfl⟩
    · exact ⟨_ ++ ['/'], by rw [Path.toList_join_concat alone, List.append_assoc]; rfl⟩
  have someLetters : other.toList ≠ [] := by simpa using isPiece.1
  have notEmpty : ¬ (Path.join (kept ++ [other.toList])).isEmpty = true := by
    rw [String.isEmpty_iff]
    intro empty
    rw [empty] at isLast
    exact someLetters (List.append_eq_nil_iff.1 isLast.symm).2
  have noSlash : ((Path.join (kept ++ [other.toList])).toList.getLast? == some '/') = false := by
    rw [isLast, List.getLast?_append_of_ne_nil _ someLetters, beq_eq_false_iff_ne]
    exact fun slash => isPiece.2 (List.mem_of_getLast? slash)
  rw [target?, locate, if_neg noNuls, if_neg notEmpty, noSlash, isPieces, start,
    h.written.absolute_join isPiece, ← start]
  by_cases size : maxPathBytes < (Path.join (kept ++ [other.toList])).utf8ByteSize
  · rw [if_pos size, if_neg fun h => absurd size (Nat.not_lt.2 h.1)]
  · rw [if_neg size, follow_append h.followed h.notDot h.notDots _ (List.cons_ne_nil _ _), follow,
      if_neg notDot, if_neg notDots]
    by_cases long : maxNameBytes < other.utf8ByteSize
    · rw [if_pos long, if_neg fun h => absurd long (Nat.not_lt.2 h.2)]
    · rw [if_neg long, List.isEmpty_nil, if_pos rfl,
        if_pos ⟨Nat.not_lt.1 size, Nat.not_lt.1 long⟩]

/-- The directory of a file can be reached, if its path is short enough. -/
theorem exists_locate_eq (h : tree.Leads path kept passed directory name) {front : String}
    (notEmpty : front ≠ "") (isFront : front.toList <+: (Path.join kept).toList ++ ['/'])
    (isPieces : Path.pieces front = Path.parts kept) (notNil : kept ≠ [])
    (size : front.utf8ByteSize ≤ maxPathBytes) :
    ∃ location, tree.locate front = .ok location ∧
      ∀ last ∈ location.last, tree.get? (location.directory ++ [last]) = some .directory := by
  have noNuls : ¬ front.toList.contains '\x00' = true := by
    rw [List.contains_iff_mem]
    intro nul
    rcases List.mem_append.1 (isFront.subset nul) with nul | isSlash
    · rcases Path.mem_join nul with isSlash | ⟨segment, there, nul⟩
      · exact absurd isSlash (by decide)
      · exact h.noNul (h.written.mem_of_mem_kept there nul)
    · exact absurd (List.mem_singleton.1 isSlash) (by decide)
  rw [locate, if_neg noNuls, if_neg (by simpa using notEmpty), if_neg (Nat.not_lt.2 size), isPieces,
    start, h.written.absolute_front notNil notEmpty isFront, ← start]
  exact exists_follow_eq h.followed _

end Leads

/-- A directory that is there cannot be made. -/
theorem makeDirectory_of_locate {location : Location} (h : tree.locate path = .ok location)
    (isDirectory : ∀ last ∈ location.last,
      tree.get? (location.directory ++ [last]) = some .directory) :
    tree.makeDirectory path = .error .alreadyThere ∧ tree.isDirectory path = true := by
  obtain ⟨directory, last, slash⟩ := location
  rw [makeDirectory, Tree.isDirectory, h]
  cases last with
  | none => exact ⟨rfl, rfl⟩
  | some last =>
    have found := isDirectory last rfl
    constructor
    · dsimp only [bind, Except.bind]
      rw [found]
      rfl
    · simp [found]


end Tree

/-- The temporary file of a file has another name in the same directory. -/
theorem Tree.target?_temporaryPath {tree : Tree} {path : String} {names : Names} {mark : String}
    (h : tree.target? path = some names) (noSlash : '/' ∉ mark.toList)
    (noNul : '\x00' ∉ mark.toList) :
    tree.target? (temporaryPath path mark) =
      if (temporaryPath path mark).utf8ByteSize ≤ maxPathBytes ∧
          (temporaryName (Path.ofString path) mark).utf8ByteSize ≤ maxNameBytes then
        some (names.dropLast ++ [temporaryName (Path.ofString path) mark])
      else none := by
  obtain ⟨kept, passed, directory, name, leads, rfl⟩ := exists_leads_of_target? h
  have noNul : '\x00' ∉ (temporaryName (Path.ofString path) mark).toList := by
    have inName : '\x00' ∉ name.toList := fun nul => leads.noNul (leads.written.mem_of_mem_name nul)
    simp only [temporaryName, leads.fileName?_eq, Option.getD_some, String.toList_append,
      List.mem_append, not_or]
    exact ⟨⟨⟨by decide, inName⟩, by decide⟩, noNul⟩
  have long (dots : String) (short : dots.toList.length ≤ 2) :
      temporaryName (Path.ofString path) mark ≠ dots := by
    rintro rfl
    simp only [temporaryName, String.toList_append, List.length_append] at short
    have suffix : ".tmp-".toList.length = 5 := rfl
    omega
  rw [List.dropLast_concat, temporaryPath, temporarySibling, leads.written.sibling]
  exact leads.target?_join (isPiece_temporaryName path noSlash) noNul (long _ (by decide))
    (long _ (by decide))

/-- Where a file can be reached, there is no directory to make. -/
theorem makeDirectories_of_target? {w : Workspace} {path : String} {names : Names} {mark : String}
    (h : w.tree.target? path = some names)
    (size : (temporaryPath path mark).utf8ByteSize ≤ maxPathBytes) :
    (makeDirectories (outerDirectories path) : StateM Workspace (Except FileFault Unit)) w =
      (.ok (), w) := by
  obtain ⟨kept, passed, directory, name, leads, rfl⟩ := Tree.exists_leads_of_target? h
  rw [temporaryPath, temporarySibling, leads.written.sibling] at size
  rw [outerDirectories]
  rcases leads.written.outer with ⟨-, nothing⟩ | ⟨notNil, front, more, isOuter, notEmpty, isFront,
    isPieces⟩
  · rw [nothing]
    rfl
  · obtain ⟨location, isLocation, isDirectory⟩ := leads.exists_locate_eq notEmpty isFront isPieces
      notNil ((Path.Written.utf8ByteSize_front_le notNil isFront _).trans size)
    obtain ⟨isThere, isDirectory⟩ := Tree.makeDirectory_of_locate isLocation isDirectory
    rw [isOuter, makeDirectories_cons, isThere]
    simp [Tree.settle, isDirectory]

end Telemetry.Files
