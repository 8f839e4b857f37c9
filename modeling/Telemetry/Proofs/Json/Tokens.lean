import Telemetry.Proofs.Json.Literals

/-!
# The scanner cuts a text as the grammar does

* `Item.read_of_piece` and `Item.piece_of_read`: an item is read without a defect exactly if it is
  one of the grammar, and leaves and takes up the same;
* `scan_iff_tokens`: a text is scanned without a defect exactly if it can be cut into items, and the
  tokens found are the lexemes that these leave.
-/

namespace Telemetry.Json

open Text (Ends ends_nil ends_cons ends_dropWhile takeWhile_run drop_length_takeWhile
  take_length_takeWhile)
open Grammar

/-! ### Characters that begin an item -/

theorem isBlank_of_digit {c : Char} (h : c.isDigit = true) : Text.isBlank c = false := by
  rw [Char.isDigit_iff_toNat] at h
  have zero : '0'.toNat = 48 := rfl
  have nine : '9'.toNat = 57 := rfl
  simp only [Text.isBlank, Text.blanks, Text.CharRanges.holds, List.any_cons, List.any_nil,
    Bool.or_eq_false_iff, Bool.and_eq_false_iff, decide_eq_false_iff_not, and_true]
  omega

theorem ofChar?_of_digit {c : Char} (h : c.isDigit = true) : Mark.ofChar? c = none := by
  unfold Mark.ofChar?
  split <;> first | rfl | cases h

/-- A number literal begins with a minus sign or a digit, and goes on with number characters. -/
theorem chars_of_numberText {cs : List Char} {l : NumberLiteral} (h : NumberText cs l) :
    ∃ c more, cs = c :: more ∧ (c = '-' ∨ c.isDigit = true) ∧
      ∀ d ∈ more, isNumberChar d = true := by
  have digit : ∀ {d : Char}, d.isDigit = true → isNumberChar d = true := by
    intro d hd
    rw [isNumberChar, Char.isAlphanum, hd]
    simp
  have whole : ∀ {ds : List Char}, Digits ds → ∀ d ∈ ds, isNumberChar d = true := fun hd d m =>
    digit (hd.2 d m)
  obtain ⟨signed, ⟨digits, -⟩, hf, he⟩ := h
  rename_i sign ds fraction exponent negative f e
  have fractionChars : ∀ d ∈ fraction, isNumberChar d = true := by
    cases hf with
    | absent => intro d hd; cases hd
    | present digits =>
      intro d hd
      rcases List.mem_cons.1 hd with rfl | hd
      · rfl
      · exact whole digits d hd
  have exponentChars : ∀ d ∈ exponent, isNumberChar d = true := by
    cases he with
    | absent => intro d hd; cases hd
    | present letter signed digits =>
      intro d hd
      rcases List.mem_cons.1 hd with rfl | hd
      · rcases letter with rfl | rfl <;> rfl
      rcases List.mem_append.1 hd with hd | hd
      · cases signed with
        | absent => cases hd
        | plus => rw [List.mem_singleton.1 hd]; rfl
        | minus => rw [List.mem_singleton.1 hd]; rfl
      · exact whole digits d hd
  have restChars : ∀ d ∈ ds ++ (fraction ++ exponent), isNumberChar d = true := by
    intro d hd
    rcases List.mem_append.1 hd with hd | hd
    · exact whole digits d hd
    rcases List.mem_append.1 hd with hd | hd
    · exact fractionChars d hd
    · exact exponentChars d hd
  cases signed with
  | minus => exact ⟨'-', _, rfl, .inl rfl, restChars⟩
  | absent =>
    obtain ⟨d, more, rfl⟩ := List.exists_cons_of_ne_nil digits.1
    refine ⟨d, _, rfl, .inr (digits.2 d List.mem_cons_self), fun c hc => ?_⟩
    exact restChars c (List.mem_cons_of_mem _ hc)

/-! ### Block comments -/

theorem blockCommentLength_of_body {body : List Char} (h : ¬ ['*', '/'] <:+: body)
    (passed : Nat) (rest : List Char) :
    blockCommentLength passed (body ++ '*' :: '/' :: rest) = some (passed + body.length + 2) := by
  induction body generalizing passed with
  | nil => rfl
  | cons c body ih =>
    have inner : ¬ ['*', '/'] <:+: body := fun inside =>
      h (inside.trans (List.suffix_cons c body).isInfix)
    rw [List.cons_append, blockCommentLength, ih inner, List.length_cons]
    · congr 1
      omega
    · intro more star slash
      subst star
      cases body with
      | nil => cases slash
      | cons d body =>
        cases slash
        exact h ⟨[], body, rfl⟩

theorem body_of_blockCommentLength {passed more : Nat} {cs : List Char}
    (h : blockCommentLength passed cs = some more) :
    ∃ body rest, cs = body ++ '*' :: '/' :: rest ∧ ¬ ['*', '/'] <:+: body ∧
      more = passed + body.length + 2 := by
  induction cs generalizing passed with
  | nil => cases h
  | cons c cs ih =>
    by_cases ends : c = '*' ∧ cs.head? = some '/'
    · obtain ⟨rfl, slash⟩ := ends
      obtain ⟨rest, rfl⟩ := List.head?_eq_some_iff.1 slash
      rw [blockCommentLength] at h
      cases h
      exact ⟨[], rest, rfl, by decide, rfl⟩
    · rw [blockCommentLength] at h
      · obtain ⟨body, rest, rfl, inner, rfl⟩ := ih h
        refine ⟨c :: body, rest, rfl, ?_, ?_⟩
        · intro inside
          rcases List.infix_cons_iff.1 inside with front | inside
          · obtain ⟨tail, eq⟩ := front
            cases eq
            exact ends ⟨rfl, rfl⟩
          · exact inner inside
        · rw [List.length_cons]
          omega
      · rintro rest rfl rfl
        exact ends ⟨rfl, rfl⟩

/-! ### Items -/

namespace Item

/-- What begins neither with a blank nor with a slash is read as an item that is no comment. -/
theorem read_eq_readPlain {c : Char} (noBlank : Text.isBlank c = false) (noSlash : c ≠ '/')
    (place : Place) (rest : List Char) : read place c rest = readPlain place c rest := by
  rw [read, noBlank, if_neg Bool.false_ne_true, if_neg noSlash]

theorem read_mark {c : Char} {m : Mark} (h : Mark.ofChar? c = some m) (place : Place)
    (rest : List Char) : read place c rest = sound (.mark m) 0 := by
  have plain : Text.isBlank c = false ∧ c ≠ '/' := by
    unfold Mark.ofChar? at h
    split at h
    all_goals first | exact ⟨by decide, by decide⟩ | cases h
  rw [read_eq_readPlain plain.1 plain.2, readPlain, h]

theorem read_number {c : Char} {cs rest : List Char} {n : Number}
    (start : c = '-' ∨ c.isDigit = true) (chars : ∀ d ∈ cs, isNumberChar d = true)
    (ends : Ends isNumberChar rest)
    (value : Number.ofLiteral? (c :: cs) = some n) (place : Place) :
    read place c (cs ++ rest) = sound (.number n) cs.length := by
  have plain : Text.isBlank c = false ∧ c ≠ '/' ∧ Mark.ofChar? c = none ∧ c ≠ '"' := by
    rcases start with rfl | digit
    · exact ⟨by decide, by decide, rfl, by decide⟩
    · refine ⟨isBlank_of_digit digit, ?_, ofChar?_of_digit digit, ?_⟩
      · rintro rfl
        cases digit
      · rintro rfl
        cases digit
  obtain ⟨noBlank, noSlash, noMark, noQuote⟩ := plain
  rw [read_eq_readPlain noBlank noSlash, readPlain, noMark]
  dsimp only
  rw [if_neg noQuote, if_pos start, number, takeWhile_run chars ends, value]

/-- A word that is no mark, string or number is read as far as its characters go. -/
theorem read_word {c : Char} {cs rest : List Char} {lexeme : Lexeme}
    (h : (c :: cs, lexeme) ∈ words) (ends : Ends isWordChar rest) (place : Place) :
    read place c (cs ++ rest) = sound lexeme cs.length := by
  simp only [words, List.mem_cons, Prod.mk.injEq, List.not_mem_nil, or_false,
    List.cons.injEq] at h
  rcases h with ⟨⟨rfl, rfl⟩, rfl⟩ | ⟨⟨rfl, rfl⟩, rfl⟩ | ⟨⟨rfl, rfl⟩, rfl⟩
  all_goals
    rw [read_eq_readPlain (by decide) (by decide), readPlain]
    dsimp only [Mark.ofChar?]
    rw [if_neg (by decide), if_neg (by decide), if_pos (by decide), word,
      takeWhile_run (List.all_eq_true.1 (by decide)) ends]
    rfl

theorem read_of_piece {cs rest : List Char} {left : Option Lexeme} (h : Piece cs left rest) :
    ∃ c more, cs = c :: more ∧ ∀ place, read place c (more ++ rest) = ⟨left, [], more.length⟩ := by
  cases h with
  | @blank c rest isBlank =>
    refine ⟨c, [], rfl, fun place => ?_⟩
    rw [List.nil_append, read, if_pos isBlank]
    rfl
  | @lineComment body rest oneLine ends =>
    refine ⟨'/', '/' :: body, rfl, fun place => ?_⟩
    have chars : ∀ c ∈ body, (c != '\n') = true := by
      intro c hc
      rw [bne_iff_ne]
      rintro rfl
      exact oneLine hc
    rw [List.cons_append, read, if_neg (by decide), if_pos rfl, comment?, Option.getD_some,
      takeWhile_run chars ends, List.length_cons, Nat.add_comm]
    rfl
  | @blockComment body rest inner =>
    refine ⟨'/', '*' :: (body ++ ['*', '/']), rfl, fun place => ?_⟩
    have length := blockCommentLength_of_body inner 1 rest
    rw [List.cons_append, List.append_assoc, read, if_neg (by decide), if_pos rfl, comment?]
    rw [List.cons_append, List.cons_append, List.nil_append, length, Option.getD_some,
      List.length_cons, List.length_append, blank]
    congr 1
    simp only [List.length_cons, List.length_nil]
    omega
  | @mark c m rest isMark =>
    exact ⟨c, [], rfl, fun place => read_mark isMark place rest⟩
  | @text w s rest body =>
    refine ⟨'"', w ++ ['"'], rfl, fun place => ?_⟩
    rw [read_eq_readPlain (by decide) (by decide), readPlain]
    dsimp only [Mark.ofChar?]
    rw [if_pos rfl, string, List.append_assoc, List.cons_append, List.nil_append,
      StringLiteral.read_of_stringText body, List.length_append]
    rfl
  | @number cs rest l n literal denotes ends =>
    obtain ⟨c, more, rfl, start, chars⟩ := chars_of_numberText literal
    have value := ofLiteral?_eq_some_iff.2 ⟨l, literal, denotes⟩
    exact ⟨c, more, rfl, fun place => read_number start chars ends value place⟩
  | @word cs rest lexeme isWord ends =>
    have shape : ∃ c more, cs = c :: more := by
      simp only [words, List.mem_cons, Prod.mk.injEq, List.not_mem_nil, or_false] at isWord
      rcases isWord with ⟨rfl, -⟩ | ⟨rfl, -⟩ | ⟨rfl, -⟩
      all_goals exact ⟨_, _, rfl⟩
    obtain ⟨c, more, rfl⟩ := shape
    exact ⟨c, more, rfl, fun place => read_word isWord ends place⟩

/-- The item that a slash begins is a comment, unless the slash is reported. -/
theorem piece_of_comment {place : Place} {rest : List Char}
    (h : ((comment? place rest).getD (readPlain place '/' rest)).defects = []) :
    Piece ('/' :: rest.take ((comment? place rest).getD (readPlain place '/' rest)).more)
      ((comment? place rest).getD (readPlain place '/' rest)).lexeme
      (rest.drop ((comment? place rest).getD (readPlain place '/' rest)).more) := by
  unfold comment? at h ⊢
  split at h
  · rename_i more
    dsimp only [Option.getD_some, blank] at h ⊢
    rw [Nat.add_comm, List.take_succ_cons, List.drop_succ_cons, take_length_takeWhile,
      drop_length_takeWhile]
    refine .lineComment ?_ (ends_dropWhile _ _)
    intro inside
    exact absurd (List.mem_takeWhile_imp inside) (by decide)
  · rename_i more
    cases length : blockCommentLength 1 more with
    | none =>
      rw [length] at h
      cases h
    | some taken =>
      obtain ⟨body, rest, rfl, inner, rfl⟩ := body_of_blockCommentLength length
      dsimp only [Option.getD_some, blank]
      have shape : body ++ '*' :: '/' :: rest = (body ++ ['*', '/']) ++ rest := by
        rw [List.append_assoc]
        rfl
      have count : 1 + body.length + 2 = (body ++ ['*', '/']).length + 1 := by
        rw [List.length_append]
        simp only [List.length_cons, List.length_nil]
        omega
      rw [count, List.take_succ_cons, List.drop_succ_cons, shape, List.take_left, List.drop_left]
      exact .blockComment inner
  · have noWord : ¬ isWordChar '/' = true := by decide +kernel
    rw [Option.getD_none, readPlain] at h
    dsimp only [Mark.ofChar?] at h
    rw [if_neg (by decide), if_neg (by decide), if_neg noWord] at h
    cases h

theorem mem_words_of_ofWord {cs : List Char} {lexeme : Lexeme}
    (h : Lexeme.ofWord (.ofList cs) = lexeme) (sound : lexeme ≠ .broken) :
    (cs, lexeme) ∈ words := by
  have chars : ∀ s : String, String.ofList cs = s → cs = s.toList := by
    rintro s rfl
    exact String.toList_ofList.symm
  unfold Lexeme.ofWord at h
  split at h
  · rename_i is
    rw [chars _ is, ← h]
    decide
  · split at h
    · rename_i is
      rw [chars _ is, ← h]
      decide
    · split at h
      · rename_i is
        rw [chars _ is, ← h]
        decide
      · exact absurd h.symm sound

theorem piece_of_word {place : Place} {c : Char} {rest : List Char}
    (h : (word place c rest).defects = []) :
    Piece (c :: rest.take (word place c rest).more) (word place c rest).lexeme
      (rest.drop (word place c rest).more) := by
  unfold word at h ⊢
  dsimp only at h ⊢
  split at h
  · cases h
  · rename_i lexeme sounds
    dsimp only [sound]
    rw [take_length_takeWhile, drop_length_takeWhile]
    exact .word (mem_words_of_ofWord rfl sounds) (ends_dropWhile _ _)

theorem piece_of_readPlain {place : Place} {c : Char} {rest : List Char}
    (h : (readPlain place c rest).defects = []) :
    Piece (c :: rest.take (readPlain place c rest).more) (readPlain place c rest).lexeme
      (rest.drop (readPlain place c rest).more) := by
  unfold readPlain at h ⊢
  split at h
  · rename_i m isMark
    exact .mark isMark
  · split at h
    · rename_i quote
      subst quote
      rw [if_pos rfl]
      dsimp only [string] at h ⊢
      obtain ⟨w, rest', split, body, taken⟩ := StringLiteral.stringText_of_read h
      have shape : rest = (w ++ ['"']) ++ rest' := by
        rw [split, List.append_assoc]
        rfl
      have count : (StringLiteral.read place 0 (place.after '"') rest).taken
          = (w ++ ['"']).length := by
        rw [taken, List.length_append]
        rfl
      rw [count]
      have front : rest.take (w ++ ['"']).length = w ++ ['"'] := by
        rw [shape, List.take_left]
      rw [front]
      exact .text body
    · rename_i noQuote
      rw [if_neg noQuote]
      split at h
      · rename_i start
        rw [if_pos start]
        unfold number at h ⊢
        dsimp only at h ⊢
        split at h
        · rename_i value literal
          obtain ⟨l, text, denotes⟩ := ofLiteral?_eq_some_iff.1 literal
          dsimp only [sound]
          rw [take_length_takeWhile, drop_length_takeWhile]
          exact .number text denotes (ends_dropWhile _ _)
        · cases h
      · rename_i noNumber
        rw [if_neg noNumber]
        split at h
        · rename_i isWord
          rw [if_pos isWord]
          exact piece_of_word h
        · cases h

/-- An item that is read without a defect is one of the grammar. -/
theorem piece_of_read {place : Place} {c : Char} {rest : List Char}
    (h : (read place c rest).defects = []) :
    Piece (c :: rest.take (read place c rest).more) (read place c rest).lexeme
      (rest.drop (read place c rest).more) := by
  by_cases isBlank : Text.isBlank c = true
  · have step : read place c rest = blank 0 := by rw [read, if_pos isBlank]
    rw [step]
    exact .blank isBlank
  · by_cases slash : c = '/'
    · subst slash
      have step : read place '/' rest = (comment? place rest).getD (readPlain place '/' rest) := by
        rw [read, if_neg isBlank, if_pos rfl]
      rw [step] at h ⊢
      exact piece_of_comment h
    · have step := read_eq_readPlain (Bool.eq_false_iff.2 isBlank) slash place rest
      rw [step] at h ⊢
      exact piece_of_readPlain h

end Item

/-! ### Whole texts -/

namespace Scan

/-- The lexemes of the tokens found, the latest first. -/
def lexemes (s : Scan) : List Lexeme :=
  s.tokens.map Token.lexeme

/-- The characters of an item that has been read are passed over. -/
theorem run_skip (s : Scan) (skip : Nat) (cs : List Char) :
    run s skip cs = run { s with stop := s.stop.past (cs.take skip) } 0 (cs.drop skip) := by
  induction cs generalizing s skip with
  | nil =>
    rw [List.take_nil, List.drop_nil]
    cases skip <;> rfl
  | cons c cs ih =>
    cases skip with
    | zero => rfl
    | succ skip =>
      rw [run, ih]
      rfl

/-- Defects found are kept. -/
theorem defects_suffix_run (s : Scan) (skip : Nat) (cs : List Char) :
    s.defects <:+ (run s skip cs).defects := by
  induction cs generalizing s skip with
  | nil => cases skip <;> exact List.suffix_refl _
  | cons c cs ih =>
    cases skip with
    | zero => exact (List.suffix_append _ _).trans (ih ((s.add _).move c) _)
    | succ skip => exact ih (s.move c) skip

/-- The scan behind an item at the place reached, given the characters of the item. -/
def pass (s : Scan) (item : Item) (cs : List Char) : Scan :=
  { s.add item with stop := s.stop.past cs }

theorem lexemes_pass (s : Scan) (item : Item) (cs : List Char) :
    (s.pass item cs).lexemes = item.lexeme.toList ++ s.lexemes := by
  unfold pass add lexemes
  cases item.lexeme <;> rfl

theorem defects_pass (s : Scan) (item : Item) (cs : List Char) :
    (s.pass item cs).defects = item.defects.reverse ++ s.defects := rfl

/-- The item that comes next is read, and the scan goes on behind it. -/
theorem run_cons (s : Scan) (c : Char) (rest : List Char) :
    run s 0 (c :: rest) =
      run (s.pass (Item.read s.stop c rest) (c :: rest.take (Item.read s.stop c rest).more)) 0
        (rest.drop (Item.read s.stop c rest).more) := by
  rw [run, run_skip]
  rfl

/-- A text that the grammar cuts into items is scanned without a defect. -/
theorem run_of_tokens {cs : List Char} {ls : List Lexeme} (h : Tokens cs ls) (s : Scan) :
    (run s 0 cs).lexemes = ls.reverse ++ s.lexemes ∧ (run s 0 cs).defects = s.defects := by
  induction h generalizing s with
  | nil => exact ⟨rfl, rfl⟩
  | @cons cs rest left ls piece _ ih =>
    obtain ⟨c, more, rfl, read⟩ := Item.read_of_piece piece
    rw [List.cons_append, run_cons, read s.stop, List.take_left, List.drop_left]
    obtain ⟨lexemes, defects⟩ := ih (s.pass ⟨left, [], more.length⟩ (c :: more))
    refine ⟨?_, defects⟩
    rw [lexemes, lexemes_pass, List.reverse_append, List.append_assoc]
    cases left <;> rfl

/-- A text that is scanned without a defect is cut into items of the grammar. -/
theorem tokens_of_run {s : Scan} {cs : List Char} (h : (run s 0 cs).defects = s.defects) :
    ∃ ls, Tokens cs ls ∧ (run s 0 cs).lexemes = ls.reverse ++ s.lexemes := by
  -- An item takes up several characters at once, so the induction is on the length.
  induction len : cs.length using Nat.strong_induction_on generalizing s cs with
  | _ n ih =>
    subst len
    cases cs with
    | nil => exact ⟨[], .nil, rfl⟩
    | cons c rest =>
      have step := run_cons s c rest
      generalize item : Item.read s.stop c rest = read at step
      rw [step] at h ⊢
      have kept := defects_suffix_run (s.pass read (c :: rest.take read.more)) 0
        (rest.drop read.more)
      rw [h, defects_pass] at kept
      have sound : read.defects = [] := by
        have le := kept.length_le
        rw [List.length_append, List.length_reverse] at le
        exact List.eq_nil_of_length_eq_zero (by omega)
      have same : (s.pass read (c :: rest.take read.more)).defects = s.defects := by
        rw [defects_pass, sound]
        rfl
      have shorter : (rest.drop read.more).length < (c :: rest).length := by
        rw [List.length_drop, List.length_cons]
        omega
      obtain ⟨ls, tokens, lexemes⟩ := ih _ shorter (h.trans same.symm) rfl
      have piece := Item.piece_of_read (item ▸ sound)
      rw [item] at piece
      refine ⟨read.lexeme.toList ++ ls, ?_, ?_⟩
      · have joined := Tokens.cons piece tokens
        rwa [List.cons_append, List.take_append_drop] at joined
      · rw [lexemes, lexemes_pass, List.reverse_append, List.append_assoc]
        cases read.lexeme <;> rfl

end Scan

/-- A text is scanned without a defect exactly if the grammar cuts it into items, and then the
tokens are those of the items. -/
theorem scan_iff_tokens {cs : List Char} {ls : List Lexeme} :
    (scan cs).defects = [] ∧ (scan cs).tokens.map Token.lexeme = ls ↔ Tokens cs ls := by
  have none : (scan cs).defects = [] ↔ (Scan.run ⟨[], [], .start⟩ 0 cs).defects = [] :=
    List.reverse_eq_nil_iff
  have lexemes : (scan cs).tokens.map Token.lexeme
      = (Scan.run ⟨[], [], .start⟩ 0 cs).lexemes.reverse := List.map_reverse
  rw [none, lexemes]
  constructor
  · rintro ⟨sound, rfl⟩
    obtain ⟨ls, tokens, found⟩ := Scan.tokens_of_run sound
    rw [found, List.reverse_append, List.reverse_reverse]
    exact tokens
  · intro h
    obtain ⟨found, sound⟩ := Scan.run_of_tokens h ⟨[], [], .start⟩
    refine ⟨sound, ?_⟩
    rw [found, List.reverse_append, List.reverse_reverse]
    rfl

end Telemetry.Json
