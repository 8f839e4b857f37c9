import Telemetry.Files.Store
import Telemetry.Proofs.Text.Runs

/-!
# Temporary files beside a path

* `Path.exists_pieces_sibling`: a path with another name in the place of its file name ends in this
  name;
* `Path.fileName?_of_pieces`: a path that ends in a name has this file name;
* `temporaryName` is the name of the temporary file beside a path and `temporaryPath` leads to it:
  `pieces_temporaryPath`.  It differs from the file name of the path, `temporaryName_ne`.
-/

namespace Telemetry.Files

/-- Whether a text can stand between the slashes of a path. -/
def IsPiece (name : String) : Prop :=
  name ≠ "" ∧ '/' ∉ name.toList

namespace Path

theorem parts_append (a b : List (List Char)) : parts (a ++ b) = parts a ++ parts b :=
  List.filterMap_append

theorem parts_singleton {name : String} (notEmpty : name ≠ "") : parts [name.toList] = [name] := by
  have someLetters : name.toList ≠ [] := by simpa using notEmpty
  simp [parts, someLetters]

theorem slash_notMem_of_mem_segments {written : String} {segment : List Char}
    (h : segment ∈ segments written) : '/' ∉ segment := by
  rw [segments, List.splitOn_eq_splitOnP] at h
  intro slash
  simpa using Text.eq_false_of_mem_splitOnP h slash

theorem isPiece_of_mem_pieces {written name : String} (h : name ∈ pieces written) :
    IsPiece name := by
  rw [pieces, parts, List.mem_filterMap] at h
  obtain ⟨segment, isSegment, isName⟩ := h
  split at isName
  · cases isName
  · rename_i notEmpty
    cases isName
    refine ⟨fun empty => notEmpty ?_, ?_⟩
    · rw [List.isEmpty_iff]
      simpa using congrArg String.toList empty
    · rw [String.toList_ofList]
      exact slash_notMem_of_mem_segments isSegment

/-- A name behind a slash, or with nothing before it, is the last piece. -/
theorem exists_pieces_eq {written name : String} (isPiece : IsPiece name)
    (h : written.toList = name.toList ∨ ∃ front, written.toList = front ++ '/' :: name.toList) :
    ∃ before, pieces written = before ++ [name] := by
  have single : name.toList.splitOn '/' = [name.toList] := List.splitOn_eq_singleton isPiece.2
  have last : ∃ before, segments written = before ++ [name.toList] := by
    rcases h with h | ⟨front, h⟩
    · exact ⟨[], by rw [segments, h, single]; rfl⟩
    · exact ⟨front.splitOn '/', by rw [segments, h, List.splitOn_append_cons_self, single]⟩
  obtain ⟨before, isSplit⟩ := last
  exact ⟨parts before, by rw [pieces, isSplit, parts_append, parts_singleton isPiece.1]⟩

/-- A path with a name in the place of its file name ends in this name. -/
theorem toList_text_sibling (path : Path) (name : String) :
    (path.sibling name).text.toList = name.toList ∨
      ∃ front, (path.sibling name).text.toList = front ++ '/' :: name.toList := by
  unfold sibling
  extract_lets front slash
  dsimp only
  rw [String.toList_append, String.toList_append]
  by_cases bare : front = ""
  · refine .inl ?_
    simp [slash, bare]
  · refine .inr ?_
    have notEmpty : front.isEmpty = false := by simpa using bare
    by_cases ends : front.toList.getLast? = some '/'
    · obtain ⟨before, isFront⟩ := List.getLast?_eq_some_iff.1 ends
      refine ⟨before, ?_⟩
      simp [slash, isFront]
    · refine ⟨front.toList, ?_⟩
      simp [slash, bare, ends]

theorem exists_pieces_sibling (path : Path) {name : String} (isPiece : IsPiece name) :
    ∃ before, pieces (path.sibling name).text = before ++ [name] :=
  exists_pieces_eq isPiece (toList_text_sibling path name)

/-- A path that ends in a name has this file name. -/
theorem fileName?_of_pieces {written name : String} {before : List String}
    (h : pieces written = before ++ [name]) (notDot : name ≠ ".") (notDots : name ≠ "..") :
    (ofString written).fileName? = some name := by
  rw [fileName?, ofString, h, List.filter_append, List.filter_cons_of_pos (by simpa using notDot),
    List.filter_nil, List.getLast?_concat]
  simp [notDots]

theorem isPiece_of_fileName? {written name : String}
    (h : (ofString written).fileName? = some name) :
    IsPiece name := by
  rw [fileName?, Option.filter_eq_some_iff] at h
  exact isPiece_of_mem_pieces (List.mem_filter.1 (List.mem_of_getLast? h.1)).1

end Path

/-! ### The temporary file -/

/-- The text of the path of the temporary file beside a written path. -/
def temporaryPath (path mark : String) : String :=
  (temporarySibling (Path.ofString path) mark).text

theorem isPiece_temporaryName (path : String) {mark : String} (h : '/' ∉ mark.toList) :
    IsPiece (temporaryName (Path.ofString path) mark) := by
  have inside : '/' ∉ ((Path.ofString path).fileName?.getD "artifact").toList := by
    cases isName : (Path.ofString path).fileName? with
    | none => decide
    | some name => exact (Path.isPiece_of_fileName? isName).2
  constructor
  · intro empty
    have letters := congrArg String.toList empty
    simp [temporaryName] at letters
  · simp only [temporaryName, String.toList_append, List.mem_append, not_or]
    exact ⟨⟨⟨by decide, inside⟩, by decide⟩, h⟩

theorem temporaryName_ne (path : Path) (mark : String) :
    path.fileName? ≠ some (temporaryName path mark) := by
  intro same
  have length := congrArg (fun name => name.toList.length) (Option.some.inj
    (show some (path.fileName?.getD "artifact") = some (temporaryName path mark) by rw [same]; rfl))
  simp only [temporaryName, String.toList_append, List.length_append] at length
  have dot : ".".toList.length = 1 := rfl
  omega

theorem pieces_temporaryPath (path : String) {mark : String} (h : '/' ∉ mark.toList) :
    ∃ before, Path.pieces (temporaryPath path mark) =
      before ++ [temporaryName (Path.ofString path) mark] :=
  Path.exists_pieces_sibling _ (isPiece_temporaryName path h)

theorem slash_notMem_toString (n : Nat) : '/' ∉ (toString n).toList := by
  rw [Nat.toString_eq_repr, Nat.toList_repr]
  intro slash
  exact absurd (Nat.isDigit_of_mem_toDigits (by decide) (by decide) slash) (by decide)

end Telemetry.Files
