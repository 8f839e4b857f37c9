import Telemetry.Proofs.Json.Flaws

/-!
# Where tokens and defects of the scanner are

* `Place.ofIndex` is the place of a character by what stands before it: the line feeds, and the
  characters behind the last of them.  `Place.ofIndex_eq_past`: moving over the characters one by
  one leads there;
* `Place.Within` says of a place that it is the one of a character;
* `StringLiteral.read_placed`, `Item.read_placed`, `Scan.run_placed` and `scan_placed`: a string, an
  item and a text have their tokens and defects at characters, tokens one behind the other, and no
  two defects at one place.
-/

namespace Telemetry.Json

namespace Place

/-! ### The place of a character -/

/-- The place of the character at an index, or of the end: the line is one more than the line feeds
before it, and the column one more than the characters since the last of these. -/
def ofIndex (cs : List Char) (i : Nat) : Place :=
  ⟨1 + (cs.take i).count '\n', 1 + ((cs.take i).reverse.takeWhile (· != '\n')).length⟩

theorem start_past (cs : List Char) :
    start.past cs = ⟨1 + cs.count '\n', 1 + (cs.reverse.takeWhile (· != '\n')).length⟩ := by
  induction cs using List.reverseRecOn with
  | nil => rfl
  | append_singleton cs c ih =>
    rw [past_append, ih, past_cons, past_nil, after, List.reverse_append, List.count_append]
    by_cases isFeed : c = '\n'
    · subst isFeed
      simp [Nat.add_assoc]
    · simp [isFeed, Nat.add_comm]

theorem ofIndex_eq_past (cs : List Char) (i : Nat) : ofIndex cs i = start.past (cs.take i) :=
  (start_past _).symm

/-- Whether a place is the one of a character, in characters that begin at `place`. -/
def Within (place : Place) (cs : List Char) (p : Place) : Prop :=
  ∃ front c behind, cs = front ++ c :: behind ∧ p = place.past front

variable {place p : Place} {cs ds : List Char} {c : Char}

theorem within_head (place : Place) (c : Char) (cs : List Char) : place.Within (c :: cs) place :=
  ⟨[], c, cs, rfl, rfl⟩

theorem Within.cons (h : (place.after c).Within cs p) : place.Within (c :: cs) p := by
  obtain ⟨front, d, behind, rfl, rfl⟩ := h
  exact ⟨c :: front, d, behind, rfl, rfl⟩

theorem Within.append_left (h : (place.past cs).Within ds p) : place.Within (cs ++ ds) p := by
  obtain ⟨front, c, behind, rfl, rfl⟩ := h
  exact ⟨cs ++ front, c, behind, by rw [List.append_assoc], (past_append place cs front).symm⟩

theorem Within.append_right (h : place.Within cs p) (ds : List Char) :
    place.Within (cs ++ ds) p := by
  obtain ⟨front, c, behind, rfl, rfl⟩ := h
  exact ⟨front, c, behind ++ ds, by rw [List.append_assoc]; rfl, rfl⟩

/-- A character is no earlier than the first one. -/
theorem Within.notAfter (h : place.Within cs p) : place.notAfter p = true := by
  obtain ⟨front, c, behind, rfl, rfl⟩ := h
  cases front with
  | nil => exact place.notAfter_refl
  | cons d front => exact (place.before_past (List.cons_ne_nil d front)).notAfter

/-- A character is before the end. -/
theorem Within.before (h : place.Within cs p) : p.Before (place.past cs) := by
  obtain ⟨front, c, behind, rfl, rfl⟩ := h
  rw [past_append]
  exact (place.past front).before_past (List.cons_ne_nil c behind)

theorem Before.trans_notAfter {q r : Place} (h : p.Before q) (h' : q.notAfter r = true) :
    p.Before r := by
  rw [notAfter_iff] at h'
  unfold Before at *
  omega

/-- The place of a character has an index. -/
theorem Within.exists_ofIndex (h : start.Within cs p) : ∃ i < cs.length, p = ofIndex cs i := by
  obtain ⟨front, c, behind, rfl, rfl⟩ := h
  refine ⟨front.length, by simp, ?_⟩
  rw [ofIndex_eq_past, List.take_left]

end Place

/-! ### Strings -/

/-- Whether the defects of a literal that goes on with the characters at `place` are at these or at
the opening quote, and no two of them at one place. -/
structure StringLiteral.Placed (opened place : Place) (cs : List Char) (l : StringLiteral) :
    Prop where
  within : ∀ d ∈ l.defects, d.place = opened ∨ place.Within (cs.take l.taken) d.place
  apart : l.defects.Pairwise fun d e => d.place ≠ e.place

namespace StringLiteral

variable {opened place : Place} {c : Char} {cs : List Char} {l : StringLiteral}

theorem placed_of_opened (content : List Char) (taken : Nat) (cause : Defect.Cause) :
    Placed opened place cs ⟨content, [⟨opened, cause⟩], taken⟩ where
  within := List.forall_mem_singleton.2 (.inl rfl)
  apart := List.pairwise_singleton _ _

theorem Placed.passed (h : Placed opened (place.after c) cs l) :
    Placed opened place (c :: cs) l.passed where
  within d isDefect := (h.within d isDefect).imp_right Place.Within.cons
  apart := h.apart

theorem Placed.withChar (h : Placed opened (place.after c) cs l) (denoted : Char) :
    Placed opened place (c :: cs) (l.withChar denoted) where
  within := h.passed.within
  apart := h.apart

theorem Placed.withDefect (before : opened.Before place) (h : Placed opened (place.after c) cs l)
    (cause : Defect.Cause) : Placed opened place (c :: cs) (l.withDefect ⟨place, cause⟩) where
  within := List.forall_mem_cons.2 ⟨.inr (place.within_head c _), h.passed.within⟩
  apart := by
    refine List.pairwise_cons.2 ⟨fun d isDefect => ?_, h.apart⟩
    rcases h.within d isDefect with atQuote | inside
    · rw [atQuote]
      exact before.ne.symm
    · exact ((place.before_after c).trans_notAfter inside.notAfter).ne

/-- What is wrong with a string is at one of its characters or at its opening quote, and no two
things are at one place. -/
theorem read_placed (skip : Nat) (cs : List Char) (before : opened.Before place) :
    Placed opened place cs (read opened skip place cs) := by
  have next {place : Place} (before : opened.Before place) (c : Char) :
      opened.Before (place.after c) := before.trans (place.before_after c)
  fun_induction read opened skip place cs with
  | case1 => exact placed_of_opened _ _ _
  | case2 _ _ _ _ ih => exact (ih (next before _)).passed
  | case3 => exact ⟨List.forall_mem_nil _, .nil⟩
  | case4 => exact placed_of_opened _ _ _
  | case5 => exact placed_of_opened _ _ _
  | case6 _ _ _ _ denoted _ _ _ _ ih => exact (ih (next before _)).withChar denoted
  | case7 _ _ _ _ cause _ _ _ _ ih => exact (ih (next before _)).withDefect before cause
  | case8 _ _ _ _ _ _ _ ih => exact (ih (next before _)).withDefect before _
  | case9 _ _ _ _ _ _ _ ih => exact (ih (next before _)).withChar _

end StringLiteral

/-! ### Items -/

/-- Whether the defects of an item at `place` are at its characters, no two of them at one place. -/
structure Item.Placed (place : Place) (c : Char) (rest : List Char) (item : Item) : Prop where
  within : ∀ d ∈ item.defects, place.Within (c :: rest.take item.more) d.place
  apart : item.defects.Pairwise fun d e => d.place ≠ e.place

namespace Item

variable {place : Place} {c : Char} {rest : List Char}

theorem placed_of_sound (lexeme : Option Lexeme) (more : Nat) :
    Placed place c rest ⟨lexeme, [], more⟩ :=
  ⟨List.forall_mem_nil _, .nil⟩

theorem placed_of_defect (lexeme : Option Lexeme) (cause : Defect.Cause) (more : Nat) :
    Placed place c rest ⟨lexeme, [⟨place, cause⟩], more⟩ where
  within := List.forall_mem_singleton.2 (place.within_head c _)
  apart := List.pairwise_singleton _ _

theorem string_placed (place : Place) (rest : List Char) :
    Placed place '"' rest (string place rest) := by
  have placed := StringLiteral.read_placed 0 rest (place.before_after '"')
  refine ⟨fun d isDefect => ?_, placed.apart⟩
  rcases placed.within d isDefect with atQuote | inside
  · rw [atQuote]
    exact place.within_head _ _
  · exact inside.cons

theorem readPlain_placed (place : Place) (c : Char) (rest : List Char) :
    Placed place c rest (readPlain place c rest) := by
  rw [readPlain]
  split
  · exact placed_of_sound _ _
  · split
    · rename_i isQuote
      rw [isQuote]
      exact string_placed place rest
    · split
      · rw [number]
        split
        · exact placed_of_sound _ _
        · exact placed_of_defect _ _ _
      · split
        · rw [word]
          split
          · exact placed_of_defect _ _ _
          · exact placed_of_sound _ _
        · exact placed_of_defect _ _ _

/-- What is wrong with an item is at one of its characters. -/
theorem read_placed (place : Place) (c : Char) (rest : List Char) :
    Placed place c rest (read place c rest) := by
  rw [read]
  split
  · exact placed_of_sound _ _
  · split
    · cases isComment : comment? place rest with
      | none => exact readPlain_placed place c rest
      | some item =>
        rw [Option.getD_some]
        unfold comment? at isComment
        split at isComment
        · cases isComment
          exact placed_of_sound _ _
        · split at isComment
          · cases isComment
            exact placed_of_sound _ _
          · cases isComment
            exact placed_of_defect _ _ _
        · cases isComment
    · exact readPlain_placed place c rest

end Item

/-! ### Whole texts -/

namespace Scan

/-- Whether a scan that has gone on from `s` over some characters has reached their end, and whether
what it has found in them is at these characters: the tokens one behind the other, and no two
defects at one place.  What is found stands with the latest first. -/
structure Placed (s : Scan) (cs : List Char) (after : Scan) (tokens : List Token)
    (defects : List Defect) : Prop where
  eq : after = ⟨tokens ++ s.tokens, defects ++ s.defects, s.stop.past cs⟩
  tokenWithin : ∀ t ∈ tokens, s.stop.Within cs t.place
  tokenOrder : tokens.Pairwise fun t u => u.place.Before t.place
  defectWithin : ∀ d ∈ defects, s.stop.Within cs d.place
  apart : defects.Pairwise fun d e => d.place ≠ e.place

theorem placed_nil (s : Scan) : Placed s [] s [] [] :=
  ⟨rfl, List.forall_mem_nil _, .nil, List.forall_mem_nil _, .nil⟩

/-- An item in front of what is placed is placed. -/
theorem Placed.cons {s after : Scan} {c : Char} {cs : List Char} {tokens : List Token}
    {defects : List Defect} {item : Item} (itemPlaced : item.Placed s.stop c cs)
    (h : Placed (s.pass item (c :: cs.take item.more)) (cs.drop item.more) after tokens defects) :
    ∃ tokens defects, Placed s (c :: cs) after tokens defects := by
  have chars : c :: cs = (c :: cs.take item.more) ++ cs.drop item.more := by
    rw [List.cons_append, List.take_append_drop]
  have stop : (s.pass item (c :: cs.take item.more)).stop = s.stop.past (c :: cs.take item.more) :=
    rfl
  have moved := s.stop.before_past (List.cons_ne_nil c (cs.take item.more))
  refine ⟨tokens ++ (item.lexeme.map fun lexeme => ⟨lexeme, s.stop⟩).toList,
    defects ++ item.defects.reverse, ?_, ?_, ?_, ?_, ?_⟩
  · rw [h.eq, defects_pass, tokens_pass, stop, chars, Place.past_append, List.append_assoc,
      List.append_assoc]
    cases item.lexeme <;> rfl
  · refine List.forall_mem_append.2 ⟨fun t isToken => ?_, fun t isToken => ?_⟩
    · rw [chars]
      exact (h.tokenWithin t isToken).append_left
    · obtain ⟨lexeme, -, rfl⟩ := Option.map_eq_some_iff.1 (Option.mem_toList.1 isToken)
      exact s.stop.within_head c cs
  · refine List.pairwise_append.2 ⟨h.tokenOrder, ?_, fun t isToken u isFirst => ?_⟩
    · cases item.lexeme with
      | none => exact .nil
      | some lexeme => exact List.pairwise_singleton _ _
    · obtain ⟨lexeme, -, rfl⟩ := Option.map_eq_some_iff.1 (Option.mem_toList.1 isFirst)
      exact moved.trans_notAfter (h.tokenWithin t isToken).notAfter
  · refine List.forall_mem_append.2 ⟨fun d isDefect => ?_, fun d isDefect => ?_⟩
    · rw [chars]
      exact (h.defectWithin d isDefect).append_left
    · rw [chars]
      exact (itemPlaced.within d (List.mem_reverse.1 isDefect)).append_right _
  · refine List.pairwise_append.2 ⟨h.apart, ?_, fun d isDefect e isFirst => ?_⟩
    · exact List.pairwise_reverse.2 (itemPlaced.apart.imp Ne.symm)
    · have first := (itemPlaced.within e (List.mem_reverse.1 isFirst)).before
      exact (first.trans_notAfter (h.defectWithin d isDefect).notAfter).ne.symm

/-- What the scanner finds is placed. -/
theorem run_placed (s : Scan) (cs : List Char) :
    ∃ tokens defects, Placed s cs (run s 0 cs) tokens defects := by
  -- An item takes up several characters at once, so the induction is on the length.
  induction len : cs.length using Nat.strong_induction_on generalizing s cs with
  | _ n ih =>
    subst len
    cases cs with
    | nil => exact ⟨[], [], placed_nil s⟩
    | cons c rest =>
      rw [run_cons]
      have shorter : (rest.drop (Item.read s.stop c rest).more).length < (c :: rest).length := by
        rw [List.length_drop, List.length_cons]
        omega
      obtain ⟨tokens, defects, placed⟩ := ih _ shorter _ _ rfl
      exact placed.cons (Item.read_placed s.stop c rest)

end Scan

/-- The scanner reaches the end of a text; its tokens stand one behind the other, and its defects
are at characters, no two of them at one place. -/
structure PlacedScan (cs : List Char) : Prop where
  stop : (scan cs).stop = Place.start.past cs
  tokenWithin : ∀ t ∈ (scan cs).tokens, Place.start.Within cs t.place
  tokenOrder : (scan cs).tokens.Pairwise fun t u => t.place.Before u.place
  defectWithin : ∀ d ∈ (scan cs).defects, Place.start.Within cs d.place
  apart : (scan cs).defects.Pairwise fun d e => d.place ≠ e.place

theorem scan_placed (cs : List Char) : PlacedScan cs := by
  obtain ⟨tokens, defects, placed⟩ := Scan.run_placed ⟨[], [], .start⟩ cs
  have isScan : scan cs = ⟨tokens.reverse, defects.reverse, Place.start.past cs⟩ := by
    rw [scan, placed.eq]
    simp
  constructor
  · rw [isScan]
  · rw [isScan]
    exact fun t isToken => placed.tokenWithin t (List.mem_reverse.1 isToken)
  · rw [isScan]
    exact List.pairwise_reverse.2 placed.tokenOrder
  · rw [isScan]
    exact fun d isDefect => placed.defectWithin d (List.mem_reverse.1 isDefect)
  · rw [isScan]
    exact List.pairwise_reverse.2 (placed.apart.imp Ne.symm)

end Telemetry.Json
