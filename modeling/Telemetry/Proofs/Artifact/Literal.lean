import Mathlib.Data.List.Forall2
import Telemetry.Artifact.Rust
import Telemetry.Artifact.TypeScript
import Telemetry.Json.StringLiteral
import Telemetry.Proofs.Text.Runs
import Telemetry.Proofs.Text.Unbroken

/-!
# Reading string literals of artifacts

A literal of an artifact is read by the rules of its language, without knowing how it was written:

* `Quoting` holds what the rules of the two languages differ in: the quote, the escapes of one
  letter, and what may stand behind `\u`;
* `Quoting.read?` reads a literal up to its closing quote, and `Quoting.Reads` says what stands for
  one character of it;
* `Rust.spelled_cases`: a character of a Rust literal is written by its letter, as a code point, or
  as it is;
* `TypeScript.read_literal` and `Rust.read_literal`: it reads the text that was written, and ends at
  the closing quote, whatever stands behind it;
* `unbroken_literal`, for either language: a literal holds no character that could end its line.
-/

namespace Telemetry.Artifact

/-! ### Hexadecimal numbers -/

/-- The number that hexadecimal digits denote. -/
def hexNumber? (digits : List Char) : Option Nat :=
  digits.foldlM (fun n c => (Json.hexValue? c).map (16 * n + ·)) 0

theorem hexValue?_digitChar {n : Nat} (h : n < 16) :
    Json.hexValue? (Nat.digitChar n) = some n := by
  have all : ∀ n < 16, Json.hexValue? (Nat.digitChar n) = some n := by decide
  exact all n h

/-- Hexadecimal digits denote the number that they were made from. -/
theorem hexNumber?_toDigits (n : Nat) : hexNumber? (Nat.toDigits 16 n) = some n := by
  induction n using Nat.strongRecOn with
  | _ n ih =>
    by_cases small : n < 16
    · rw [Nat.toDigits_of_lt_base small, hexNumber?]
      simp only [List.foldlM_cons, List.foldlM_nil, hexValue?_digitChar small, Option.map_some]
      rw [Nat.mul_zero, Nat.zero_add]
      rfl
    · have large : 16 ≤ n := Nat.le_of_not_lt small
      have front := ih (n / 16) (Nat.div_lt_self (by omega) (by omega))
      have last : n % 16 < 16 := Nat.mod_lt _ (by omega)
      rw [hexNumber?] at front
      rw [Nat.toDigits_of_base_le (by omega) large, hexNumber?, List.foldlM_append, front]
      simp only [Option.bind_eq_bind, Option.bind_some, List.foldlM_cons, List.foldlM_nil,
        hexValue?_digitChar last, Option.map_some]
      rw [Nat.div_add_mod]
      rfl

/-- Zeros in front do not matter. -/
theorem hexNumber?_replicate_append (k : Nat) (digits : List Char) :
    hexNumber? (List.replicate k '0' ++ digits) = hexNumber? digits := by
  induction k with
  | zero => rfl
  | succ k ih =>
    rw [← ih]
    rfl

/-- What holds of the sixteen digits holds of the digits of every number. -/
theorem of_mem_toDigits {P : Char → Prop} (h : ∀ n < 16, P (Nat.digitChar n)) (n : Nat) :
    ∀ c ∈ Nat.toDigits 16 n, P c := by
  induction n using Nat.strongRecOn with
  | _ n ih =>
    intro c hc
    by_cases small : n < 16
    · rw [Nat.toDigits_of_lt_base small] at hc
      rw [List.mem_singleton.1 hc]
      exact h n small
    · rw [Nat.toDigits_of_base_le (by omega) (Nat.le_of_not_lt small)] at hc
      rcases List.mem_append.1 hc with front | last
      · exact ih (n / 16) (Nat.div_lt_self (by omega) (by omega)) c front
      · rw [List.mem_singleton.1 last]
        exact h _ (Nat.mod_lt _ (by omega))

theorem unbroken_toDigits (n : Nat) : Text.Unbroken (Nat.toDigits 16 n) :=
  of_mem_toDigits (by decide) n

/-! ### Quoting -/

/-- How a language writes string literals. -/
structure Quoting where
  quote : Char
  /-- The letters that stand for a character behind a backslash. -/
  letters : List (Char × Char)
  /-- The code point written behind a backslash and the letter `u`, and what follows it. -/
  code? : List Char → Option (Nat × List Char)

namespace Quoting

variable (q : Quoting)

/-- What stands behind a backslash, and what follows. -/
def escape? : List Char → Option (Char × List Char)
  | [] => none
  | e :: rest =>
    if e = 'u' then (q.code? rest).map fun (n, rest) => (.ofNat n, rest)
    else (q.letters.lookup e).map fun c => (c, rest)

/-- The next character of a literal, or its closing quote, and what follows. -/
def next? : List Char → Option (Option Char × List Char)
  | [] => none
  | c :: rest =>
    if c = '\\' then (q.escape? rest).map fun (c, rest) => (some c, rest)
    else if c = q.quote then some (none, rest)
    else some (some c, rest)

/-- The characters up to the closing quote, and what follows it. -/
def body? : (fuel : Nat) → List Char → Option (List Char × List Char)
  | 0, _ => none
  | fuel + 1, cs =>
    match q.next? cs with
    | none => none
    | some (none, rest) => some ([], rest)
    | some (some c, rest) => (body? fuel rest).map fun (s, rest) => (c :: s, rest)

/-- The text of the literal that begins here, and what follows it. -/
def read? : List Char → Option (String × List Char)
  | [] => none
  | c :: rest =>
    if c = q.quote then (q.body? rest.length rest).map fun (s, rest) => (.ofList s, rest)
    else none

/-- Whether some characters are read as one character of a literal, whatever follows. -/
def Reads (written : List Char) (c : Char) : Prop :=
  ∀ rest, q.next? (written ++ rest) = some (some c, rest)

/-- Whether some characters stay on a line and are read as one character of a literal, whatever
follows. -/
structure Writes (written : List Char) (c : Char) : Prop where
  read : ∀ rest, q.next? (written ++ rest) = some (some c, rest)
  plain : Text.Unbroken written

variable {q}

theorem Reads.ne_nil {written : List Char} {c : Char} (h : q.Reads written c) : written ≠ [] := by
  rintro rfl
  have nothing := h []
  cases nothing

/-- A closing quote is read as such. -/
theorem next?_quote (noEscape : q.quote ≠ '\\') (rest : List Char) :
    q.next? (q.quote :: rest) = some (none, rest) := by
  rw [next?, if_neg noEscape, if_pos rfl]

section Pieces

variable {pieces : List (List Char)} {s : List Char}

/-- Characters written one by one are read one by one. -/
theorem body?_flatten (h : List.Forall₂ q.Reads pieces s) (noEscape : q.quote ≠ '\\') {fuel : Nat}
    (enough : s.length < fuel) (rest : List Char) :
    q.body? fuel (pieces.flatten ++ q.quote :: rest) = some (s, rest) := by
  induction h generalizing fuel with
  | nil =>
    cases fuel with
    | zero => omega
    | succ fuel =>
      rw [List.flatten_nil, List.nil_append, body?, next?_quote noEscape]
  | cons first _ ih =>
    cases fuel with
    | zero => omega
    | succ fuel =>
      rw [List.length_cons] at enough
      rw [List.flatten_cons, List.append_assoc, body?, first]
      simp only
      rw [ih (by omega)]
      rfl

/-- No character is written as nothing. -/
theorem length_le_flatten (h : List.Forall₂ q.Reads pieces s) :
    s.length ≤ pieces.flatten.length := by
  induction h with
  | nil => exact Nat.le_refl _
  | cons first _ ih =>
    have positive := List.length_pos_iff.2 first.ne_nil
    rw [List.flatten_cons, List.length_append, List.length_cons]
    omega

/-- A literal whose characters are written one by one is read. -/
theorem read?_flatten (h : List.Forall₂ q.Reads pieces s) (noEscape : q.quote ≠ '\\')
    (rest : List Char) :
    q.read? (q.quote :: (pieces.flatten ++ q.quote :: rest)) = some (.ofList s, rest) := by
  have enough : s.length < (pieces.flatten ++ q.quote :: rest).length := by
    have le := length_le_flatten h
    rw [List.length_append, List.length_cons]
    omega
  rw [read?, if_pos rfl, body?_flatten h noEscape enough]
  rfl

/-- A literal whose characters are written one by one stays on its line. -/
theorem unbroken_quoted (h : List.Forall₂ q.Writes pieces s)
    (plainQuote : Text.isLineBreaking q.quote = false) :
    Text.Unbroken (q.quote :: (pieces.flatten ++ [q.quote])) := by
  have inner : Text.Unbroken pieces.flatten := by
    induction h with
    | nil => exact Text.unbroken_nil
    | cons first _ ih =>
      rw [List.flatten_cons, Text.unbroken_append]
      exact ⟨first.plain, ih⟩
  rw [Text.unbroken_cons, Text.unbroken_append, Text.unbroken_cons]
  exact ⟨plainQuote, inner, plainQuote, Text.unbroken_nil⟩

end Pieces

/-- Characters that are all written by one rule. -/
theorem forall₂_map {write : Char → List Char} (h : ∀ c, q.Writes (write c) c) (s : List Char) :
    List.Forall₂ q.Writes (s.map write) s := by
  rw [List.forall₂_map_left_iff, List.forall₂_same]
  exact fun c _ => h c

/-- A character that stands for itself. -/
theorem reads_self {c : Char} (noEscape : c ≠ '\\') (noQuote : c ≠ q.quote) : q.Reads [c] c := by
  intro rest
  rw [List.singleton_append, next?, if_neg noEscape, if_neg noQuote]

theorem writes_self {c : Char} (noEscape : c ≠ '\\') (noQuote : c ≠ q.quote)
    (plain : Text.isLineBreaking c = false) : q.Writes [c] c :=
  ⟨reads_self noEscape noQuote, Text.unbroken_cons.2 ⟨plain, Text.unbroken_nil⟩⟩

/-- A character behind a backslash and a letter. -/
theorem reads_letter {e c : Char} (noCode : e ≠ 'u') (h : q.letters.lookup e = some c) :
    q.Reads ['\\', e] c := by
  intro rest
  show q.next? ('\\' :: e :: rest) = _
  rw [next?, if_pos rfl, escape?, if_neg noCode, h]
  rfl

theorem writes_letter {e c : Char} (noCode : e ≠ 'u') (plain : Text.isLineBreaking e = false)
    (h : q.letters.lookup e = some c) : q.Writes ['\\', e] c := by
  refine ⟨reads_letter noCode h, ?_⟩
  rw [Text.unbroken_cons, Text.unbroken_cons]
  exact ⟨by decide, plain, Text.unbroken_nil⟩

/-- A rule that writes one character behind a backslash and a letter. -/
theorem writes_ite {c k e : Char} {written : List Char} (noCode : e ≠ 'u')
    (plain : Text.isLineBreaking e = false) (h : q.letters.lookup e = some k)
    (others : c ≠ k → q.Writes written c) :
    q.Writes (if c = k then ['\\', e] else written) c := by
  by_cases same : c = k
  · rw [if_pos same, same]
    exact writes_letter noCode plain h
  · rw [if_neg same]
    exact others same

/-- A character behind a backslash as a code point. -/
theorem writes_code {written : List Char} {c : Char} (plain : Text.Unbroken written)
    (h : ∀ rest, q.code? (written ++ rest) = some (c.toNat, rest)) :
    q.Writes ('\\' :: 'u' :: written) c := by
  constructor
  · intro rest
    show q.next? ('\\' :: 'u' :: (written ++ rest)) = _
    rw [next?, if_pos rfl, escape?, if_pos rfl, h]
    simp only [Option.map_some, Char.ofNat_toNat]
  · rw [Text.unbroken_cons, Text.unbroken_cons]
    exact ⟨by decide, by decide, plain⟩

end Quoting

/-! ### TypeScript -/

namespace TypeScript

/-- Single quotes; a code point is four hexadecimal digits. -/
def quoting : Quoting where
  quote := '\''
  letters := [('\\', '\\'), ('\'', '\''), ('"', '"'), ('n', '\n'), ('r', '\r'), ('t', '\t'),
    ('b', '\x08'), ('f', '\x0c'), ('v', '\x0b'), ('0', '\x00')]
  code? cs := if 4 ≤ cs.length then (hexNumber? (cs.take 4)).map fun n => (n, cs.drop 4) else none

theorem toNat_lt_of_isLineBreaking {c : Char} (h : Text.isLineBreaking c = true) :
    c.toNat < 65536 := by
  simp only [Text.isLineBreaking, Text.isControl, Bool.or_eq_true, Bool.and_eq_true,
    decide_eq_true_eq, beq_iff_eq] at h
  rcases h with ((h | h) | rfl) | rfl
  · omega
  · omega
  · decide
  · decide

/-- Four hexadecimal digits with zeros in front are a code point. -/
theorem writes_padded {c : Char} (h : c.toNat < 65536) :
    quoting.Writes ('\\' :: 'u' :: (List.replicate (4 - (Nat.toDigits 16 c.toNat).length) '0'
      ++ Nat.toDigits 16 c.toNat)) c := by
  have short : (Nat.toDigits 16 c.toNat).length ≤ 4 :=
    (Nat.length_toDigits_le_iff (by omega) (by omega)).2 h
  have plain : Text.Unbroken (List.replicate (4 - (Nat.toDigits 16 c.toNat).length) '0'
      ++ Nat.toDigits 16 c.toNat) := by
    rw [Text.unbroken_append]
    refine ⟨fun d zero => ?_, unbroken_toDigits c.toNat⟩
    rw [List.eq_of_mem_replicate zero]
    decide
  refine Quoting.writes_code plain fun rest => ?_
  generalize isPadded : List.replicate (4 - (Nat.toDigits 16 c.toNat).length) '0'
      ++ Nat.toDigits 16 c.toNat = padded
  have four : padded.length = 4 := by
    rw [← isPadded, List.length_append, List.length_replicate]
    omega
  show (if 4 ≤ (padded ++ rest).length then (hexNumber? ((padded ++ rest).take 4)).map
    fun n => (n, (padded ++ rest).drop 4) else none) = _
  rw [if_pos (by rw [List.length_append]; omega), List.take_left' four, List.drop_left' four,
    ← isPadded, hexNumber?_replicate_append, hexNumber?_toDigits]
  rfl

theorem writes_literalChar (c : Char) : quoting.Writes (literalChar c) c := by
  unfold literalChar
  refine Quoting.writes_ite (by decide) (by decide) rfl fun noBackslash => ?_
  refine Quoting.writes_ite (by decide) (by decide) rfl fun noQuote => ?_
  refine Quoting.writes_ite (by decide) (by decide) rfl fun _ => ?_
  refine Quoting.writes_ite (by decide) (by decide) rfl fun _ => ?_
  refine Quoting.writes_ite (by decide) (by decide) rfl fun _ => ?_
  by_cases breaking : Text.isLineBreaking c = true
  · rw [if_pos breaking]
    exact writes_padded (toNat_lt_of_isLineBreaking breaking)
  · rw [if_neg breaking]
    exact Quoting.writes_self noBackslash noQuote (Bool.eq_false_iff.2 breaking)

theorem toList_literal (s : String) :
    (literal s).toList = '\'' :: ((s.toList.map literalChar).flatten ++ ['\'']) := by
  rw [literal, String.toList_ofList, List.flatMap_def]

/-- A literal is read as the text that was written. -/
theorem read_literal (s : String) (rest : List Char) :
    quoting.read? ((literal s).toList ++ rest) = some (s, rest) := by
  have pieces := Quoting.forall₂_map writes_literalChar s.toList
  have h := Quoting.read?_flatten (pieces.imp fun _ _ one => one.read) (by decide) rest
  rw [String.ofList_toList] at h
  rw [toList_literal, List.cons_append, List.append_assoc, List.singleton_append]
  exact h

/-- A literal stays on its line. -/
theorem unbroken_literal (s : String) : Text.Unbroken (literal s).toList := by
  have pieces := Quoting.forall₂_map writes_literalChar s.toList
  rw [toList_literal]
  exact Quoting.unbroken_quoted pieces (by decide)

end TypeScript

/-! ### Rust -/

namespace Rust

/-- Double quotes; a code point is any number of hexadecimal digits between braces. -/
def quoting : Quoting where
  quote := '"'
  letters := [('0', '\x00'), ('t', '\t'), ('r', '\r'), ('n', '\n'), ('\\', '\\'), ('\'', '\''),
    ('"', '"')]
  code? cs :=
    match cs with
    | '\x7b' :: rest =>
      let digits := rest.takeWhile (· != '\x7d')
      (hexNumber? digits).map fun n => (n, rest.drop (digits.length + 1))
    | _ => none

/-- Hexadecimal digits in braces are a code point. -/
theorem writes_bracedCode (c : Char) : quoting.Writes (Text.bracedCode c) c := by
  have plain : Text.Unbroken ('\x7b' :: (Nat.toDigits 16 c.toNat ++ ['\x7d'])) := by
    rw [Text.unbroken_cons, Text.unbroken_append]
    exact ⟨by decide, unbroken_toDigits c.toNat, by decide⟩
  refine Quoting.writes_code plain fun rest => ?_
  have inner : ∀ d ∈ Nat.toDigits 16 c.toNat, (d != '\x7d') = true := fun d hd =>
    bne_iff_ne.2 (of_mem_toDigits (P := (· ≠ '\x7d')) (by decide) _ d hd)
  generalize isDigits : Nat.toDigits 16 c.toNat = digits at inner
  have run : (digits ++ '\x7d' :: rest).takeWhile (· != '\x7d') = digits :=
    Text.takeWhile_run inner (Text.ends_cons (by decide) rest)
  have shape : (digits ++ ['\x7d']) ++ rest = digits ++ '\x7d' :: rest := by
    rw [List.append_assoc, List.singleton_append]
  show ((hexNumber? (((digits ++ ['\x7d']) ++ rest).takeWhile (· != '\x7d'))).map fun n =>
    (n, ((digits ++ ['\x7d']) ++ rest).drop
      ((((digits ++ ['\x7d']) ++ rest).takeWhile (· != '\x7d')).length + 1))) = _
  have length : digits.length + 1 = (digits ++ ['\x7d']).length := by
    rw [List.length_append, List.length_singleton]
  rw [shape, run, ← shape, length, List.drop_left, ← isDigits, hexNumber?_toDigits]
  rfl

/-- A character between double quotes: a few have a letter behind a backslash, and any other may be
written as a code point. -/
def spelled (coded : Bool) (c : Char) : List Char :=
  if c = '\x00' then ['\\', '0']
  else if c = '\t' then ['\\', 't']
  else if c = '\r' then ['\\', 'r']
  else if c = '\n' then ['\\', 'n']
  else if c = '\\' || Text.EscapeStyle.literal.quotes.contains c then ['\\', c]
  else if coded then Text.bracedCode c
  else [c]

/-- Literals write what has no visible form as a code point. -/
theorem char_eq_spelled (extending : Bool) (c : Char) :
    Text.EscapeStyle.literal.char extending c =
      spelled ((extending && Text.isExtending c) || !Text.isPrintable c) c :=
  rfl

/-- A character is written by its letter, as a code point, or as it is. -/
theorem spelled_cases (coded : Bool) (c : Char) :
    (∃ e, spelled coded c = ['\\', e] ∧ e ≠ 'u' ∧ Text.isLineBreaking e = false ∧
      quoting.letters.lookup e = some c) ∨
    (coded = true ∧ spelled coded c = Text.bracedCode c) ∨
    (coded = false ∧ spelled coded c = [c] ∧ c ≠ '\\' ∧ c ≠ '"' ∧ c ≠ '\n' ∧ c ≠ '\r') := by
  unfold spelled
  by_cases null : c = '\x00'
  · exact .inl ⟨'0', by rw [if_pos null], by decide, by decide, by rw [null]; rfl⟩
  by_cases tab : c = '\t'
  · exact .inl ⟨'t', by rw [if_neg null, if_pos tab], by decide, by decide, by rw [tab]; rfl⟩
  by_cases back : c = '\r'
  · exact .inl ⟨'r', by rw [if_neg null, if_neg tab, if_pos back], by decide, by decide,
      by rw [back]; rfl⟩
  by_cases feed : c = '\n'
  · exact .inl ⟨'n', by rw [if_neg null, if_neg tab, if_neg back, if_pos feed], by decide,
      by decide, by rw [feed]; rfl⟩
  rw [if_neg null, if_neg tab, if_neg back, if_neg feed]
  by_cases quoted : (c = '\\' || Text.EscapeStyle.literal.quotes.contains c) = true
  · have isQuoted : c = '\\' ∨ c = '"' ∨ c = '\'' := by
      simpa [Text.EscapeStyle.literal] using quoted
    rw [if_pos quoted]
    rcases isQuoted with rfl | rfl | rfl
    · exact .inl ⟨'\\', rfl, by decide, by decide, rfl⟩
    · exact .inl ⟨'"', rfl, by decide, by decide, rfl⟩
    · exact .inl ⟨'\'', rfl, by decide, by decide, rfl⟩
  rw [if_neg quoted]
  cases coded with
  | true => exact .inr (.inl ⟨rfl, rfl⟩)
  | false =>
    refine .inr (.inr ⟨rfl, rfl, ?_, ?_, feed, back⟩)
    · rintro rfl
      exact quoted rfl
    · rintro rfl
      exact quoted rfl

/-- A character is read, whether it is written as a code point or not. -/
theorem reads_spelled (coded : Bool) (c : Char) : quoting.Reads (spelled coded c) c := by
  obtain ⟨e, isLetter, noCode, -, h⟩ | ⟨-, isCode⟩ | ⟨-, isSelf, noEscape, noQuote, -⟩ :=
    spelled_cases coded c
  · rw [isLetter]
    exact Quoting.reads_letter noCode h
  · rw [isCode]
    exact (writes_bracedCode c).read
  · rw [isSelf]
    exact Quoting.reads_self noEscape noQuote

theorem writes_char (extending : Bool) (c : Char) :
    quoting.Writes (Text.EscapeStyle.literal.char extending c) c := by
  rw [char_eq_spelled]
  refine ⟨reads_spelled _ c, ?_⟩
  obtain ⟨e, isLetter, -, plain, -⟩ | ⟨-, isCode⟩ | ⟨notCoded, isSelf, -⟩ := spelled_cases
    ((extending && Text.isExtending c) || !Text.isPrintable c) c
  · rw [isLetter, Text.unbroken_cons, Text.unbroken_cons]
    exact ⟨by decide, plain, Text.unbroken_nil⟩
  · rw [isCode]
    exact (writes_bracedCode c).plain
  · rw [Bool.or_eq_false_iff, Bool.not_eq_false'] at notCoded
    rw [isSelf, Text.unbroken_cons]
    exact ⟨Text.isLineBreaking_of_isPrintable notCoded.2, Text.unbroken_nil⟩

/-- A literal is written character by character; the first has a rule of its own. -/
theorem exists_pieces (s : String) :
    ∃ pieces, (literal s).toList = '"' :: (pieces.flatten ++ ['"']) ∧
      List.Forall₂ quoting.Writes pieces s.toList := by
  rw [literal, Text.EscapeStyle.quoted, String.toList_ofList]
  cases s.toList with
  | nil => exact ⟨[], rfl, .nil⟩
  | cons c rest =>
    have others := Quoting.forall₂_map (writes_char false) rest
    refine ⟨Text.EscapeStyle.literal.char true c :: rest.map (Text.EscapeStyle.literal.char false),
      ?_, .cons (writes_char true c) others⟩
    rw [List.flatten_cons, ← List.flatMap_def]
    rfl

/-- A literal is read as the text that was written. -/
theorem read_literal (s : String) (rest : List Char) :
    quoting.read? ((literal s).toList ++ rest) = some (s, rest) := by
  obtain ⟨pieces, isLiteral, writes⟩ := exists_pieces s
  have h := Quoting.read?_flatten (writes.imp fun _ _ one => one.read) (by decide) rest
  rw [String.ofList_toList] at h
  rw [isLiteral, List.cons_append, List.append_assoc, List.singleton_append]
  exact h

/-- A literal stays on its line. -/
theorem unbroken_literal (s : String) : Text.Unbroken (literal s).toList := by
  obtain ⟨pieces, isLiteral, writes⟩ := exists_pieces s
  rw [isLiteral]
  exact Quoting.unbroken_quoted writes (by decide)

end Rust

end Telemetry.Artifact
