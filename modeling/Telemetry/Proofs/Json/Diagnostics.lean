import Telemetry.Proofs.Json.Advance
import Telemetry.Proofs.Json.Places

/-!
# Where the defects of a text are

* `Defect.Cause.ofScanner` tells the causes that the scanner finds from those that the reader finds;
  `Defect.Cause.message_ne`: no two of them are worded alike;
* `Defect.OfReader` says of a defect that it is at a token or at the end and none of the scanner's,
  and `Finding.all` that this holds of everything that the reader finds; `ofScanner_of_scan` is the
  counterpart for the scanner;
* `report_placed` says where the defects of a text are, that they are in order, and that none of the
  scanner's is lost or comes twice.
-/

namespace Telemetry.Json

/-! ### The causes of the scanner -/

/-- Whether the cause is one that the scanner finds. -/
def Defect.Cause.ofScanner : Defect.Cause → Bool
  | .unterminatedComment | .unterminatedString | .invalidUnicodeEscape | .invalidEscape _
  | .controlInString | .invalidNumber _ | .invalidSymbol _ => true
  | _ => false

/-- The first letter of the wording of a cause. -/
def Defect.Cause.initial : Defect.Cause → Char
  | .unterminatedComment | .unterminatedString => 'u'
  | .invalidUnicodeEscape | .invalidEscape _ | .controlInString | .invalidNumber _
  | .invalidSymbol _ => 'i'
  | .valueExpected => 'v'
  | .endExpected => 'e'
  | .tooDeep => 'm'
  | .propertyNameExpected => 'p'
  | .colonExpected | .commaExpected | .closingBraceExpected | .closingBracketExpected => 'c'
  | .duplicateKey _ => 'd'

theorem head?_toList_append {front : String} {c : Char} (h : front.toList.head? = some c)
    (rest : String) : (front ++ rest).toList.head? = some c := by
  rw [String.toList_append, List.head?_append, h]
  rfl

theorem Defect.Cause.head?_message (cause : Defect.Cause) :
    cause.message.toList.head? = some cause.initial := by
  have quoted {front : String} {c : Char} (h : front.toList.head? = some c) (middle back : String) :
      (front ++ middle ++ back).toList.head? = some c :=
    head?_toList_append (head?_toList_append h middle) back
  cases cause with
  | tooDeep => exact quoted (show _ = some 'm' by decide +kernel) _ _
  | invalidEscape | invalidNumber | invalidSymbol =>
    exact quoted (show _ = some 'i' by decide +kernel) _ _
  | duplicateKey => exact quoted (show _ = some 'd' by decide +kernel) _ _
  | _ => decide +kernel

/-- The wordings of the scanner's causes begin with two letters that no others begin with. -/
theorem Defect.Cause.ofScanner_eq (cause : Defect.Cause) :
    cause.ofScanner = (cause.initial == 'u' || cause.initial == 'i') := by
  cases cause <;> rfl

/-- What the scanner finds is not worded as anything that the reader finds. -/
theorem Defect.Cause.message_ne {cause other : Defect.Cause} (h : cause.ofScanner = true)
    (h' : other.ofScanner = false) : cause.message ≠ other.message := by
  intro same
  have initials := congrArg (fun message => message.toList.head?) same
  rw [head?_message, head?_message, Option.some.injEq] at initials
  rw [ofScanner_eq, initials, ← ofScanner_eq, h'] at h
  cases h

/-! ### What the reader finds -/

/-- Whether a defect is at one of the tokens or at the end, and none of the scanner's. -/
structure Defect.OfReader (stop : Place) (tokens : List Token) (d : Defect) : Prop where
  place : d.place = stop ∨ ∃ t ∈ tokens, d.place = t.place
  cause : d.cause.ofScanner = false

variable {stop : Place} {tokens : List Token}

theorem Defect.OfReader.mono {others : List Token} {d : Defect} (h : d.OfReader stop tokens)
    (sub : tokens ⊆ others) : d.OfReader stop others where
  place := h.place.imp_right fun ⟨t, isToken, same⟩ => ⟨t, sub isToken, same⟩
  cause := h.cause

theorem ofReader_head {t : Token} {rest : List Token} {cause : Defect.Cause}
    (h : cause.ofScanner = false) : Defect.OfReader stop (t :: rest) ⟨t.place, cause⟩ :=
  ⟨.inr ⟨t, List.mem_cons_self, rfl⟩, h⟩

theorem ofReader_nextPlace {cause : Defect.Cause} (h : cause.ofScanner = false) :
    Defect.OfReader stop tokens ⟨nextPlace stop tokens, cause⟩ := by
  cases tokens with
  | nil => exact ⟨.inl rfl, h⟩
  | cons t rest => exact ofReader_head h

theorem ofReader_of_stepOver (container : Container) :
    ∀ d ∈ (stepOver stop container tokens).defects, d.OfReader stop tokens := by
  cases tokens with
  | nil =>
    refine List.forall_mem_singleton.2 ⟨.inl rfl, ?_⟩
    cases container <;> rfl
  | cons t rest =>
    rw [stepOver]
    split
    · split <;> exact List.forall_mem_nil _
    · exact List.forall_mem_nil _

theorem ofReader_of_afterEntry (container : Container) :
    ∀ d ∈ (afterEntry stop container tokens).defects, d.OfReader stop tokens := by
  cases tokens with
  | nil => exact ofReader_of_stepOver container
  | cons t rest =>
    rw [afterEntry]
    split
    · exact ofReader_of_stepOver container
    · dsimp only
      split
      · exact List.forall_mem_singleton.2 (ofReader_head rfl)
      · refine List.forall_mem_cons.2 ⟨ofReader_head rfl, fun d isDefect => ?_⟩
        exact (ofReader_of_stepOver container d isDefect).mono (skipTo_suffix _ _ _).subset

/-- What is found at an entry and behind it. -/
theorem ofReader_turn {α : Type} {entry : Reading α} (container : Container)
    (left : entry.rest ⊆ tokens) (own : ∀ d ∈ entry.defects, d.OfReader stop tokens) :
    ∀ d ∈ entry.defects ++ (afterEntry stop container entry.rest).defects,
      d.OfReader stop tokens :=
  List.forall_mem_append.2
    ⟨own, fun d isDefect => (ofReader_of_afterEntry container d isDefect).mono left⟩

/-- What the reader finds with `fuel` is at the tokens or at the end, and none of the scanner's. -/
structure Finding (stop : Place) (fuel : Nat) : Prop where
  value : ∀ depth tokens r, readValue stop fuel depth tokens = some r →
    ∀ d ∈ r.defects, d.OfReader stop tokens
  members : ∀ depth found tokens r, readMembers stop fuel depth found tokens = some r →
    ∀ d ∈ r.defects, d.OfReader stop tokens
  member : ∀ depth found tokens r, readMember stop fuel depth found tokens = some r →
    ∀ d ∈ r.defects, d.OfReader stop tokens
  items : ∀ depth tokens r, readItems stop fuel depth tokens = some r →
    ∀ d ∈ r.defects, d.OfReader stop tokens

namespace Finding

variable {fuel : Nat}

theorem value_succ (ih : Finding stop fuel) (depth : Nat) (tokens : List Token) (r : Reading Value)
    (h : readValue stop (fuel + 1) depth tokens = some r) :
    ∀ d ∈ r.defects, d.OfReader stop tokens := by
  cases tokens with
  | nil =>
    rw [readValue] at h
    cases h
    exact List.forall_mem_singleton.2 ⟨.inl rfl, rfl⟩
  | cons t rest =>
    obtain ⟨lexeme, place⟩ := t
    cases lexeme with
    | mark m =>
      cases m with
      | openBrace =>
        simp only [readValue] at h
        split at h
        · cases h
          exact List.forall_mem_singleton.2 (ofReader_head rfl)
        · obtain ⟨inside, isInside, rfl⟩ := Option.map_eq_some_iff.1 h
          exact fun d isDefect => (ih.members _ _ _ _ isInside d isDefect).mono
            (List.subset_cons_self _ _)
      | openBracket =>
        simp only [readValue] at h
        split at h
        · cases h
          exact List.forall_mem_singleton.2 (ofReader_head rfl)
        · obtain ⟨inside, isInside, rfl⟩ := Option.map_eq_some_iff.1 h
          exact fun d isDefect => (ih.items _ _ _ isInside d isDefect).mono
            (List.subset_cons_self _ _)
      | closeBrace | closeBracket | colon | comma =>
        simp only [readValue] at h
        cases h
        exact List.forall_mem_singleton.2 (ofReader_head rfl)
    | text | number | bool | null | broken =>
      simp only [readValue] at h
      cases h
      exact List.forall_mem_nil _

theorem members_succ (ih : Finding stop fuel) (depth : Nat) (found : Members) (tokens : List Token)
    (r : Reading Members) (h : readMembers stop (fuel + 1) depth found tokens = some r) :
    ∀ d ∈ r.defects, d.OfReader stop tokens := by
  cases tokens with
  | nil =>
    rw [readMembers] at h
    cases h
    exact List.forall_mem_singleton.2 ⟨.inl rfl, rfl⟩
  | cons t rest =>
    rw [readMembers] at h
    split at h
    · cases h
      exact List.forall_mem_nil _
    · obtain ⟨entry, isEntry, h⟩ := Option.bind_eq_some_iff.1 h
      have left := rest_suffix_of_readMember isEntry
      have next := ((afterEntry_suffix stop .braces entry.rest).trans left).subset
      have turn := ofReader_turn .braces left.subset (ih.member _ _ _ _ isEntry)
      dsimp only at h
      split at h
      · obtain ⟨others, isOthers, h⟩ := Option.bind_eq_some_iff.1 h
        cases h
        exact List.forall_mem_append.2 ⟨turn, fun d isDefect =>
          (ih.members _ _ _ _ isOthers d isDefect).mono next⟩
      · cases h
        exact turn

theorem items_succ (ih : Finding stop fuel) (depth : Nat) (tokens : List Token)
    (r : Reading (List Value)) (h : readItems stop (fuel + 1) depth tokens = some r) :
    ∀ d ∈ r.defects, d.OfReader stop tokens := by
  cases tokens with
  | nil =>
    rw [readItems] at h
    cases h
    exact List.forall_mem_singleton.2 ⟨.inl rfl, rfl⟩
  | cons t rest =>
    rw [readItems] at h
    split at h
    · cases h
      exact List.forall_mem_nil _
    · obtain ⟨entry, isEntry, h⟩ := Option.bind_eq_some_iff.1 h
      have left := rest_suffix_of_readValue isEntry
      have next := ((afterEntry_suffix stop .brackets entry.rest).trans left).subset
      have turn := ofReader_turn .brackets left.subset (ih.value _ _ _ isEntry)
      dsimp only at h
      split at h
      · obtain ⟨others, isOthers, h⟩ := Option.bind_eq_some_iff.1 h
        cases h
        exact List.forall_mem_append.2 ⟨turn, fun d isDefect =>
          (ih.items _ _ _ isOthers d isDefect).mono next⟩
      · cases h
        exact turn

theorem member_succ (ih : Finding stop fuel) (depth : Nat) (found : Members) (tokens : List Token)
    (r : Reading Members) (h : readMember stop (fuel + 1) depth found tokens = some r) :
    ∀ d ∈ r.defects, d.OfReader stop tokens := by
  cases tokens with
  | nil =>
    rw [readMember] at h
    cases h
    exact List.forall_mem_nil _
  | cons t rest =>
    have value {others : List Token} {v : Reading Value} (sub : others ⊆ t :: rest)
        (isValue : readValue stop fuel depth others = some v) :
        ∀ d ∈ v.defects, d.OfReader stop (t :: rest) := fun d isDefect =>
      (ih.value _ _ _ isValue d isDefect).mono sub
    rw [readMember.eq_3] at h
    split at h
    · split at h
      · obtain ⟨v, isValue, h⟩ := Option.bind_eq_some_iff.1 h
        have behind : rest.drop 1 ⊆ t :: rest :=
          ((List.drop_suffix 1 rest).trans (List.suffix_cons t rest)).subset
        split at h
        · cases h
          exact List.forall_mem_append.2 ⟨value behind isValue,
            List.forall_mem_singleton.2 (ofReader_head rfl)⟩
        · cases h
          exact value behind isValue
      · have colon : Defect.OfReader stop (t :: rest) ⟨nextPlace stop rest, .colonExpected⟩ :=
          (ofReader_nextPlace rfl).mono (List.subset_cons_self t rest)
        dsimp only at h
        split at h
        · obtain ⟨v, isValue, h⟩ := Option.bind_eq_some_iff.1 h
          cases h
          exact List.forall_mem_cons.2 ⟨colon, value (List.subset_cons_self t rest) isValue⟩
        · cases h
          exact List.forall_mem_singleton.2 colon
    · dsimp only at h
      split at h
      · obtain ⟨v, isValue, h⟩ := Option.bind_eq_some_iff.1 h
        cases h
        exact List.forall_mem_cons.2 ⟨ofReader_head rfl,
          value ((List.drop_suffix 1 _).trans (skipTo_suffix _ 0 (t :: rest))).subset isValue⟩
      · cases h
        exact List.forall_mem_singleton.2 (ofReader_head rfl)

/-- It holds of everything that the reader finds. -/
theorem all (stop : Place) (fuel : Nat) : Finding stop fuel := by
  induction fuel with
  | zero =>
    refine ⟨fun _ _ _ h => ?_, fun _ _ _ _ h => ?_, fun _ _ _ _ h => ?_, fun _ _ _ h => ?_⟩
    · rw [readValue] at h
      cases h
    · rw [readMembers] at h
      cases h
    · rw [readMember] at h
      cases h
    · rw [readItems] at h
      cases h
  | succ fuel ih => exact ⟨ih.value_succ, ih.members_succ, ih.member_succ, ih.items_succ⟩

end Finding

/-- What the reader finds in a whole list of tokens is at one of them or at the end, and is none of
the scanner's. -/
theorem ofReader_of_readDocument {r : Reading Value} (h : readDocument stop tokens = some r) :
    ∀ d ∈ r.defects, d.OfReader stop tokens := by
  obtain ⟨v, isValue, h⟩ := Option.map_eq_some_iff.1 h
  have found := (Finding.all stop _).value _ _ _ isValue
  split at h
  · cases h
    exact found
  · cases h
    have left := (rest_suffix_of_readValue isValue).subset
    exact List.forall_mem_append.2
      ⟨found, List.forall_mem_singleton.2 ((ofReader_nextPlace rfl).mono left)⟩

/-! ### What the scanner finds -/

theorem Escape.ofScanner_of_readLow {high : Nat} {rest : List Char} {cause : Defect.Cause}
    (h : (Escape.readLow high rest).denoted = .error cause) : cause.ofScanner = true := by
  revert h
  fun_cases Escape.readLow high rest <;> rintro ⟨⟩ <;> rfl

theorem Escape.ofScanner_of_read {c : Char} {rest : List Char} {cause : Defect.Cause}
    (h : (Escape.read c rest).denoted = .error cause) : cause.ofScanner = true := by
  revert h
  fun_cases Escape.read c rest with
  | case9 =>
    fun_cases Escape.readUnicode rest with
    | case2 => exact Escape.ofScanner_of_readLow
    | _ =>
      rintro ⟨⟩
      try rfl
  | case10 =>
    rintro ⟨⟩
    rfl
  | _ => rintro ⟨⟩

theorem StringLiteral.ofScanner_of_read {opened place : Place} {skip : Nat} {cs : List Char} :
    ∀ d ∈ (StringLiteral.read opened skip place cs).defects, d.cause.ofScanner = true := by
  fun_induction StringLiteral.read opened skip place cs with
  | case1 | case4 | case5 => exact List.forall_mem_singleton.2 rfl
  | case2 _ _ _ _ ih => exact ih
  | case3 => exact List.forall_mem_nil _
  | case6 _ _ _ _ _ _ _ _ _ ih => exact ih
  | case7 _ _ _ _ _ isWrong _ _ _ ih =>
    exact List.forall_mem_cons.2 ⟨Escape.ofScanner_of_read isWrong, ih⟩
  | case8 _ _ _ _ _ _ _ ih => exact List.forall_mem_cons.2 ⟨rfl, ih⟩
  | case9 _ _ _ _ _ _ _ ih => exact ih

theorem Item.ofScanner_of_comment? {place : Place} {cs : List Char} {item : Item}
    (h : Item.comment? place cs = some item) : ∀ d ∈ item.defects, d.cause.ofScanner = true := by
  unfold Item.comment? at h
  split at h
  · cases h
    exact List.forall_mem_nil _
  · split at h
    · cases h
      exact List.forall_mem_nil _
    · cases h
      exact List.forall_mem_singleton.2 rfl
  · cases h

theorem Item.ofScanner_of_readPlain {place : Place} {c : Char} {rest : List Char} :
    ∀ d ∈ (Item.readPlain place c rest).defects, d.cause.ofScanner = true := by
  rw [Item.readPlain]
  split
  · exact List.forall_mem_nil _
  · split
    · exact StringLiteral.ofScanner_of_read
    · split
      · rw [Item.number]
        split
        · exact List.forall_mem_nil _
        · exact List.forall_mem_singleton.2 rfl
      · split
        · rw [Item.word]
          split
          · exact List.forall_mem_singleton.2 rfl
          · exact List.forall_mem_nil _
        · exact List.forall_mem_singleton.2 rfl

theorem Item.ofScanner_of_read {place : Place} {c : Char} {rest : List Char} :
    ∀ d ∈ (Item.read place c rest).defects, d.cause.ofScanner = true := by
  rw [Item.read]
  split
  · exact List.forall_mem_nil _
  · split
    · cases isComment : Item.comment? place rest with
      | none => exact Item.ofScanner_of_readPlain
      | some item => exact Item.ofScanner_of_comment? isComment
    · exact Item.ofScanner_of_readPlain

theorem Scan.ofScanner_of_run {s : Scan} {skip : Nat} {cs : List Char}
    (h : ∀ d ∈ s.defects, d.cause.ofScanner = true) :
    ∀ d ∈ (Scan.run s skip cs).defects, d.cause.ofScanner = true := by
  fun_induction Scan.run s skip cs with
  | case1 => exact h
  | case2 _ _ _ _ ih => exact ih h
  | case3 s c rest item ih =>
    exact ih (List.forall_mem_append.2
      ⟨fun d isDefect => Item.ofScanner_of_read d (List.mem_reverse.1 isDefect), h⟩)

theorem ofScanner_of_scan (cs : List Char) :
    ∀ d ∈ (scan cs).defects, d.cause.ofScanner = true := fun d isDefect =>
  Scan.ofScanner_of_run (List.forall_mem_nil _) d (List.mem_reverse.1 isDefect)

/-! ### Whole texts -/

/-- What a text that is not accepted has been reported with: what the scanner has found, and then
what the reader has found, in order. -/
theorem exists_of_parse_eq_error {text : String} {ds : List Defect} (h : parse text = .error ds) :
    ∃ r, readDocument (scan (contentChars text)).stop (scan (contentChars text)).tokens = some r ∧
      ds = Defect.inOrder ((scan (contentChars text)).defects ++ r.defects) := by
  obtain ⟨r, isRead⟩ := Option.isSome_iff_exists.1
    (readDocument_isSome (scan (contentChars text)).stop (scan (contentChars text)).tokens)
  refine ⟨r, isRead, ?_⟩
  rw [parse] at h
  dsimp only at h
  rw [isRead] at h
  dsimp only at h
  split at h
  · cases h
  · exact (Except.error.inj h).symm

/-- The places of a report.  It is in the order of its places; each of them is the one of a
character of the text or of its end; what the scanner has found is in it exactly once, wherever the
reader has passed it over; and the tokens stand one behind the other. -/
theorem report_placed {text : String} {ds : List Defect} (h : parse text = .error ds) :
    ds.Pairwise (fun d e => d.place.notAfter e.place = true) ∧
      (∀ d ∈ ds, ∃ i ≤ (contentChars text).length,
        d.place = Place.ofIndex (contentChars text) i) ∧
      (∀ d ∈ (scan (contentChars text)).defects,
        (ds.map fun e => (e.place, e.cause.message)).count (d.place, d.cause.message) = 1) ∧
      (scan (contentChars text)).tokens.Pairwise fun t u => t.place.Before u.place := by
  obtain ⟨r, isRead, rfl⟩ := exists_of_parse_eq_error h
  have placed := scan_placed (contentChars text)
  have ofReader := ofReader_of_readDocument isRead
  refine ⟨Defect.pairwise_inOrder _, fun d isDefect => ?_, fun d isDefect => ?_,
    placed.tokenOrder⟩
  · have atEnd : (scan (contentChars text)).stop =
        Place.ofIndex (contentChars text) (contentChars text).length := by
      rw [placed.stop, Place.ofIndex_eq_past, List.take_length]
    have atChar {p : Place} (within : Place.start.Within (contentChars text) p) :
        ∃ i ≤ (contentChars text).length, p = Place.ofIndex (contentChars text) i :=
      within.exists_ofIndex.imp fun _ index => ⟨index.1.le, index.2⟩
    rcases List.mem_append.1 ((Defect.inOrder_perm _).mem_iff.1 isDefect) with found | found
    · exact atChar (placed.defectWithin d found)
    · rcases (ofReader d found).place with isEnd | ⟨t, isToken, isPlace⟩
      · exact ⟨_, le_rfl, isEnd.trans atEnd⟩
      · rw [isPlace]
        exact atChar (placed.tokenWithin t isToken)
  · let line (e : Defect) : Place × String := (e.place, e.cause.message)
    have once : ((scan (contentChars text)).defects.map line).count (line d) = 1 := by
      have apart : ((scan (contentChars text)).defects.map line).Nodup :=
        List.pairwise_map.2 (placed.apart.imp fun ne same => ne (congrArg Prod.fst same))
      exact List.count_eq_one_of_mem apart (List.mem_map_of_mem isDefect)
    have never : (r.defects.map line).count (line d) = 0 := by
      refine List.count_eq_zero.2 fun again => ?_
      obtain ⟨e, isFound, same⟩ := List.mem_map.1 again
      exact Defect.Cause.message_ne (ofScanner_of_scan _ d isDefect) (ofReader e isFound).cause
        (congrArg Prod.snd same).symm
    rw [((Defect.inOrder_perm _).map line).count_eq, List.map_append, List.count_append, once,
      never]

/-- A text of three lines.  The reader passes over the number and the string of its second line,
which is broken; and the string of its third line is not closed. -/
def strayText : String :=
  "\x7b\n 1 \"b\\q\",\n \"c\": \"d"

/-- What is reported of `strayText`, in order: the key that is missing, the escape in the string
that the reader passes over, the string that is not closed, and at the end the brace. -/
def strayReport : List Defect :=
  [⟨⟨2, 2⟩, .propertyNameExpected⟩, ⟨⟨2, 6⟩, .invalidEscape 'q'⟩, ⟨⟨3, 7⟩, .unterminatedString⟩,
    ⟨⟨3, 9⟩, .closingBraceExpected⟩]

theorem report_placed_of_strayText :
    parse strayText = .error strayReport ∧
      (∀ d ∈ strayReport, ∃ i ≤ (contentChars strayText).length,
        d.place = Place.ofIndex (contentChars strayText) i) ∧
      (scan (contentChars strayText)).defects =
        [⟨⟨2, 6⟩, .invalidEscape 'q'⟩, ⟨⟨3, 7⟩, .unterminatedString⟩] ∧
      (strayReport.map fun e => (e.place, e.cause.message)).count
        (⟨2, 6⟩, (Defect.Cause.invalidEscape 'q').message) = 1 := by
  have scanned : (scan (contentChars strayText)).defects =
      [⟨⟨2, 6⟩, .invalidEscape 'q'⟩, ⟨⟨3, 7⟩, .unterminatedString⟩] := by decide +kernel
  have rejected : parse strayText = .error strayReport := by
    have found : (readDocument (scan (contentChars strayText)).stop
        (scan (contentChars strayText)).tokens).map Reading.defects =
          some [⟨⟨2, 2⟩, .propertyNameExpected⟩, ⟨⟨3, 9⟩, .closingBraceExpected⟩] := by
      decide +kernel
    obtain ⟨r, isRead, isFound⟩ := Option.map_eq_some_iff.1 found
    have perm : ((scan (contentChars strayText)).defects ++ r.defects).Perm strayReport := by
      rw [scanned, isFound]
      decide
    have ordered : strayReport.Pairwise fun d e => d.place.Before e.place := by
      unfold Place.Before
      decide
    rw [parse]
    simp only [isRead, Defect.inOrder_eq_of_perm perm ordered]
    rw [scanned]
    rfl
  obtain ⟨-, atChar, once, -⟩ := report_placed rejected
  have found : ⟨⟨2, 6⟩, .invalidEscape 'q'⟩ ∈ (scan (contentChars strayText)).defects := by
    rw [scanned]
    exact List.mem_cons_self
  exact ⟨rejected, atChar, scanned, once _ found⟩

end Telemetry.Json
