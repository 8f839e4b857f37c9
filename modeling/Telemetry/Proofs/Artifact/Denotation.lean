import Telemetry.Proofs.Artifact.Literal

/-!
# Literals denote their texts

A text is put between quotes by escaping it.  What a reader of the language gets back is that text,
wherever the literal stands and whatever stands behind it, so that every literal of a file is read
in its place:

* `Quoting.texts?` reads all literals of some characters, with any code between them;
* `Quoting.Denotes` collects what a way of escaping has to satisfy;
* `Quoting.denotes_of_pieces`: it is enough that texts are written character by character;
* `Rust.escapedBy` leaves open which characters are written as code points, beyond those that have
  an escape of their own, and `literals_denote` holds for every such choice.
-/

namespace Telemetry.Artifact

namespace Quoting

variable (q : Quoting)

/-- Some characters between two quotes. -/
def enclose (body : List Char) : List Char :=
  q.quote :: (body ++ [q.quote])

theorem enclose_append (body rest : List Char) :
    q.enclose body ++ rest = q.quote :: (body ++ q.quote :: rest) := by
  rw [enclose, List.cons_append, List.append_assoc, List.singleton_append]

/-- The texts of the literals among some characters, each found at the next quote behind the literal
before it. -/
def texts? : (fuel : Nat) → List Char → Option (List String)
  | 0, _ => none
  | fuel + 1, cs =>
    match cs.dropWhile (· != q.quote) with
    | [] => some []
    | literal => do
      let (text, rest) ← q.read? literal
      let texts ← texts? fuel rest
      some (text :: texts)

/-- Code in which literals stand: each text with the code in front of its literal, and the code
behind the last. -/
def code (escape : String → List Char) (parts : List (List Char × String)) (last : List Char) :
    List Char :=
  parts.flatMap (fun (front, text) => front ++ q.enclose (escape text)) ++ last

/-- Whether escaped texts between quotes are literals that denote those texts. -/
structure Denotes (escape : String → List Char) : Prop where
  /-- Reading a literal gives its text and ends at its closing quote, whatever stands behind it. -/
  read (text : String) (rest : List Char) :
    q.read? (q.enclose (escape text) ++ rest) = some (text, rest)
  injective : Function.Injective escape
  /-- Literals with code between them are read one by one: none reaches into the next. -/
  apart (parts : List (List Char × String)) (last : List Char) (fuel : Nat)
    (fronts : ∀ part ∈ parts, q.quote ∉ part.1) (behind : q.quote ∉ last)
    (enough : parts.length < fuel) :
    q.texts? fuel (q.code escape parts last) = some (parts.map Prod.snd)
  /-- A literal holds neither a line feed nor a carriage return. -/
  oneLine (text : String) : '\n' ∉ escape text ∧ '\r' ∉ escape text

variable {q} {escape : String → List Char}

/-- Code without a quote is passed over. -/
theorem dropWhile_front {front rest : List Char} (h : q.quote ∉ front)
    (e : Text.Ends (· != q.quote) rest) : (front ++ rest).dropWhile (· != q.quote) = rest := by
  refine Text.dropWhile_run (fun c there => ?_) e
  rw [bne_iff_ne]
  rintro rfl
  exact h there

/-- Texts that literals give back are told apart by them. -/
theorem injective_of_read
    (h : ∀ text rest, q.read? (q.enclose (escape text) ++ rest) = some (text, rest)) :
    Function.Injective escape := by
  intro a b same
  have readA := h a []
  have readB := h b []
  rw [same, readB] at readA
  rw [Option.some.injEq, Prod.mk.injEq] at readA
  exact readA.1.symm

/-- Literals that are read whatever stands behind them are read one by one. -/
theorem texts?_code
    (h : ∀ text rest, q.read? (q.enclose (escape text) ++ rest) = some (text, rest))
    {parts : List (List Char × String)} {last : List Char} {fuel : Nat}
    (fronts : ∀ part ∈ parts, q.quote ∉ part.1) (behind : q.quote ∉ last)
    (enough : parts.length < fuel) :
    q.texts? fuel (q.code escape parts last) = some (parts.map Prod.snd) := by
  induction parts generalizing fuel with
  | nil =>
    obtain ⟨fuel, rfl⟩ := Nat.exists_eq_succ_of_ne_zero (Nat.ne_of_gt enough)
    have passed := dropWhile_front behind (Text.ends_nil _)
    rw [List.append_nil] at passed
    show q.texts? (fuel + 1) last = _
    rw [texts?, passed]
    rfl
  | cons part parts ih =>
    obtain ⟨front, text⟩ := part
    obtain ⟨fuel, rfl⟩ := Nat.exists_eq_succ_of_ne_zero (Nat.ne_of_gt (Nat.zero_lt_of_lt enough))
    rw [List.forall_mem_cons] at fronts
    rw [List.length_cons, Nat.succ_lt_succ_iff] at enough
    have shape : q.code escape ((front, text) :: parts) last
        = front ++ q.quote :: (escape text ++ q.quote :: q.code escape parts last) := by
      rw [← enclose_append, code, List.flatMap_cons, List.append_assoc, List.append_assoc]
      rfl
    have quoteEnds := Text.ends_cons (p := (· != q.quote)) (bne_self_eq_false q.quote)
      (escape text ++ q.quote :: q.code escape parts last)
    have first := h text (q.code escape parts last)
    rw [enclose_append] at first
    rw [shape, texts?, dropWhile_front fronts.1 quoteEnds]
    simp only [first, Option.bind_eq_bind, Option.bind_some, ih fronts.2 enough, List.map_cons]

/-- Texts that are written character by character are denoted. -/
theorem denotes_of_pieces (noEscape : q.quote ≠ '\\')
    (h : ∀ text, ∃ pieces, escape text = List.flatten pieces ∧
      List.Forall₂ q.Reads pieces text.toList ∧
      ∀ written ∈ pieces, '\n' ∉ written ∧ '\r' ∉ written) :
    q.Denotes escape := by
  have read : ∀ text rest, q.read? (q.enclose (escape text) ++ rest) = some (text, rest) := by
    intro text rest
    obtain ⟨pieces, isEscaped, reads, -⟩ := h text
    rw [enclose_append, isEscaped, read?_flatten reads noEscape, String.ofList_toList]
  refine ⟨read, injective_of_read read, fun _ _ _ => texts?_code read, fun text => ?_⟩
  obtain ⟨pieces, isEscaped, -, oneLine⟩ := h text
  rw [isEscaped, List.mem_flatten, List.mem_flatten]
  constructor
  · rintro ⟨written, isPiece, there⟩
    exact (oneLine written isPiece).1 there
  · rintro ⟨written, isPiece, there⟩
    exact (oneLine written isPiece).2 there

end Quoting

/-! ### TypeScript -/

namespace TypeScript

/-- The text between the quotes of a literal. -/
def escaped (text : String) : List Char :=
  text.toList.flatMap literalChar

theorem literal_eq_enclose (text : String) :
    (literal text).toList = quoting.enclose (escaped text) := by
  rw [literal, String.toList_ofList]
  rfl

theorem denotes_escaped : quoting.Denotes escaped := by
  refine Quoting.denotes_of_pieces (by decide) fun text =>
    ⟨text.toList.map literalChar, List.flatMap_def .., ?_, fun written isPiece => ?_⟩
  · exact (Quoting.forall₂_map writes_literalChar text.toList).imp fun _ _ one => one.read
  · obtain ⟨c, -, rfl⟩ := List.mem_map.1 isPiece
    exact (writes_literalChar c).plain.ends_notMem

end TypeScript

/-! ### Rust -/

namespace Rust

/-- The text between the quotes of a literal, where `coded` says which characters at which places
are written as code points among those that have no letter. -/
def escapedBy (coded : Nat → Char → Bool) (text : String) : List Char :=
  (text.toList.mapIdx fun place c => spelled (coded place c) c).flatten

/-- The code points of literals: what has no visible form, and a combining character in front. -/
def codedByDefault (place : Nat) (c : Char) : Bool :=
  (place == 0 && Text.isExtending c) || !Text.isPrintable c

theorem literal_eq_enclose (text : String) :
    (literal text).toList = quoting.enclose (escapedBy codedByDefault text) := by
  rw [literal, Text.EscapeStyle.quoted, String.toList_ofList, escapedBy]
  cases text.toList with
  | nil => rfl
  | cons c rest =>
    rw [List.mapIdx_cons, List.flatten_cons]
    have others : rest.mapIdx (fun place c => spelled (codedByDefault (place + 1) c) c)
        = rest.map (Text.EscapeStyle.literal.char false) := by
      refine List.ext_getElem (by rw [List.length_mapIdx, List.length_map]) fun place _ _ => ?_
      rw [List.getElem_mapIdx, List.getElem_map]
      rfl
    rw [others, ← List.flatMap_def]
    rfl

/-- Each character is read, wherever code points are written. -/
theorem reads_mapIdx (coded : Nat → Char → Bool) (cs : List Char) :
    List.Forall₂ quoting.Reads (cs.mapIdx fun place c => spelled (coded place c) c) cs := by
  induction cs generalizing coded with
  | nil => exact .nil
  | cons c cs ih =>
    rw [List.mapIdx_cons]
    exact .cons (reads_spelled _ c) (ih fun place => coded (place + 1))

theorem ends_notMem_spelled (coded : Bool) (c : Char) :
    '\n' ∉ spelled coded c ∧ '\r' ∉ spelled coded c := by
  obtain ⟨e, isLetter, -, plain, -⟩ | ⟨-, isCode⟩ | ⟨-, isSelf, -, -, noFeed, noReturn⟩ :=
    spelled_cases coded c
  · have letter : Text.Unbroken ['\\', e] := by
      rw [Text.unbroken_cons, Text.unbroken_cons]
      exact ⟨by decide, plain, Text.unbroken_nil⟩
    rw [isLetter]
    exact letter.ends_notMem
  · rw [isCode]
    exact (writes_bracedCode c).plain.ends_notMem
  · rw [isSelf, List.mem_singleton, List.mem_singleton]
    exact ⟨noFeed.symm, noReturn.symm⟩

theorem denotes_escapedBy (coded : String → Nat → Char → Bool) :
    quoting.Denotes fun text => escapedBy (coded text) text := by
  refine Quoting.denotes_of_pieces (by decide) fun text =>
    ⟨_, rfl, reads_mapIdx (coded text) text.toList, fun written isPiece => ?_⟩
  obtain ⟨place, inside, rfl⟩ := List.mem_mapIdx.1 isPiece
  exact ends_notMem_spelled _ _

end Rust

/-- In both languages literals denote the texts that they were made from, and in Rust they do so
whichever characters are written as code points. -/
theorem literals_denote :
    ((∀ text, (TypeScript.literal text).toList
        = TypeScript.quoting.enclose (TypeScript.escaped text)) ∧
      TypeScript.quoting.Denotes TypeScript.escaped) ∧
    (∀ text, (Rust.literal text).toList
        = Rust.quoting.enclose (Rust.escapedBy Rust.codedByDefault text)) ∧
    ∀ coded : String → Nat → Char → Bool,
      Rust.quoting.Denotes fun text => Rust.escapedBy (coded text) text :=
  ⟨⟨TypeScript.literal_eq_enclose, TypeScript.denotes_escaped⟩, Rust.literal_eq_enclose,
    Rust.denotes_escapedBy⟩

-- A backslash in front of a closing quote and a quote within a literal.
example : TypeScript.quoting.texts? 3 "['a\\\\', '\\'\\n']".toList = some ["a\\", "'\n"] := by
  decide +kernel

end Telemetry.Artifact
