import Telemetry.Proofs.Json.Grammar

/-!
# Literals are read as the grammar has them

* `read?_eq_some_iff`: a run of characters is taken apart into the parts of a number literal exactly
  if it is one;
* `ofLiteral?_eq_some_iff`: and the number that is made of the parts is the one that they denote.
-/

namespace Telemetry.Json

open Text (Ends ends_nil ends_cons span_run)
open Grammar

namespace NumberLiteral

/-! ### The parts of a number -/

theorem readDigits?_of_digits {ds rest : List Char} (h : Digits ds)
    (e : Ends Char.isDigit rest) : readDigits? (ds ++ rest) = some (ds, rest) := by
  obtain ⟨ne, digits⟩ := h
  rw [readDigits?, span_run digits e]
  cases ds with
  | nil => exact absurd rfl ne
  | cons d ds => rfl

theorem digits_of_readDigits? {cs ds rest : List Char} (h : readDigits? cs = some (ds, rest)) :
    cs = ds ++ rest ∧ Digits ds := by
  rw [readDigits?, List.span_eq_takeWhile_dropWhile] at h
  have split : cs.takeWhile Char.isDigit ++ cs.dropWhile Char.isDigit = cs :=
    List.takeWhile_append_dropWhile
  have digits : ∀ c ∈ cs.takeWhile Char.isDigit, c.isDigit = true := fun c hc =>
    List.mem_takeWhile_imp hc
  cases run : cs.takeWhile Char.isDigit with
  | nil => rw [run] at h; cases h
  | cons d more =>
    rw [run] at h split digits
    cases h
    exact ⟨split.symm, List.cons_ne_nil _ _, digits⟩

theorem readWhole?_of_whole {ds rest : List Char} (h : Whole ds) (e : Ends Char.isDigit rest) :
    readWhole? (ds ++ rest) = some (ds, rest) := by
  obtain ⟨⟨ne, digits⟩, zero⟩ := h
  cases ds with
  | nil => exact absurd rfl ne
  | cons d ds =>
    by_cases hd : d = '0'
    · have : d :: ds = ['0'] := zero (by rw [hd]; rfl)
      rw [this]
      rfl
    · rw [List.cons_append, readWhole?, if_neg hd, if_pos (digits d List.mem_cons_self),
        ← List.cons_append, span_run digits e]

theorem whole_of_readWhole? {cs ds rest : List Char} (h : readWhole? cs = some (ds, rest)) :
    cs = ds ++ rest ∧ Whole ds := by
  cases cs with
  | nil => cases h
  | cons c cs =>
    rw [readWhole?] at h
    by_cases hc : c = '0'
    · rw [if_pos hc] at h
      cases h
      refine ⟨by rw [hc]; rfl, ⟨List.cons_ne_nil _ _, ?_⟩, fun _ => rfl⟩
      intro d hd
      rw [List.mem_singleton.1 hd]
      rfl
    · rw [if_neg hc] at h
      split at h
      · rename_i digit
        have run : readDigits? (c :: cs) = some (ds, rest) := by
          rw [readDigits?, Option.some.inj h]
          cases ds with
          | nil =>
            rw [List.span_eq_takeWhile_dropWhile, List.takeWhile_cons, if_pos digit] at h
            cases h
          | cons d ds => rfl
        obtain ⟨split, digits⟩ := digits_of_readDigits? run
        refine ⟨split, digits, fun zero => ?_⟩
        cases ds with
        | nil => cases zero
        | cons d ds =>
          cases zero
          cases split
          exact absurd rfl hc
      · cases h

theorem readFraction?_of_fraction {fraction rest : List Char} {f : Option (List Char)}
    (h : Fraction fraction f) (e : Ends (fun c => c.isDigit || c == '.') rest) :
    readFraction? (fraction ++ rest) = some (f, rest) := by
  cases h with
  | absent =>
    rw [List.nil_append, readFraction?]
    intro more stands
    rw [stands] at e
    exact absurd e.head (by decide)
  | present digits =>
    have stops : Ends Char.isDigit rest := fun c hc =>
      (Bool.or_eq_false_iff.1 (e c hc)).1
    rw [List.cons_append, readFraction?, readDigits?_of_digits digits stops]
    rfl

theorem fraction_of_readFraction? {cs rest : List Char} {f : Option (List Char)}
    (h : readFraction? cs = some (f, rest)) :
    ∃ fraction, cs = fraction ++ rest ∧ Fraction fraction f := by
  unfold readFraction? at h
  split at h
  · rename_i more
    obtain ⟨⟨ds, left⟩, run, eq⟩ := Option.map_eq_some_iff.1 h
    cases eq
    obtain ⟨split, digits⟩ := digits_of_readDigits? run
    exact ⟨'.' :: ds, by rw [split]; rfl, .present digits⟩
  · cases h
    exact ⟨[], rfl, .absent⟩

theorem readSign_of_exponentSign {sign ds : List Char} {negative : Bool}
    (h : ExponentSign sign negative) (d : Digits ds) : readSign (sign ++ ds) = (negative, ds) := by
  cases h with
  | absent =>
    obtain ⟨ne, digits⟩ := d
    cases ds with
    | nil => exact absurd rfl ne
    | cons c ds =>
      have digit := digits c List.mem_cons_self
      rw [List.nil_append, readSign]
      · intro more stands
        cases stands
        cases digit
      · intro more stands
        cases stands
        cases digit
  | plus => rfl
  | minus => rfl

theorem exponentSign_readSign (cs : List Char) :
    ∃ sign, cs = sign ++ (readSign cs).2 ∧ ExponentSign sign (readSign cs).1 := by
  unfold readSign
  split
  · exact ⟨['-'], rfl, .minus⟩
  · exact ⟨['+'], rfl, .plus⟩
  · exact ⟨[], rfl, .absent⟩

theorem readExponent?_of_exponent {exponent : List Char} {e : Option (Bool × List Char)}
    (h : Exponent exponent e) : readExponent? exponent = some (e, []) := by
  cases h with
  | absent => rfl
  | @present letter sign ds negative isLetter signed digits =>
    have run := readDigits?_of_digits digits (ends_nil _)
    rw [List.append_nil] at run
    rw [readExponent?, if_pos isLetter, readSign_of_exponentSign signed digits]
    simp only [run, Option.map_some]

theorem exponent_of_readExponent? {cs rest : List Char} {e : Option (Bool × List Char)}
    (h : readExponent? cs = some (e, rest)) :
    ∃ exponent, cs = exponent ++ rest ∧ Exponent exponent e := by
  cases cs with
  | nil =>
    cases h
    exact ⟨[], rfl, .absent⟩
  | cons c cs =>
    rw [readExponent?] at h
    split at h
    · rename_i isLetter
      obtain ⟨sign, signSplit, signed⟩ := exponentSign_readSign cs
      cases read : readSign cs with
      | mk negative more =>
        rw [read] at h signSplit signed
        obtain ⟨⟨ds, left⟩, run, eq⟩ := Option.map_eq_some_iff.1 h
        cases eq
        obtain ⟨split, digits⟩ := digits_of_readDigits? run
        refine ⟨c :: (sign ++ ds), ?_, .present isLetter signed digits⟩
        rw [List.cons_append, List.append_assoc, ← split, ← signSplit]
    · cases h
      exact ⟨[], rfl, .absent⟩

/-! ### Whole literals -/

theorem ends_of_exponent {exponent : List Char} {e : Option (Bool × List Char)}
    (h : Exponent exponent e) : Ends (fun c => c.isDigit || c == '.') exponent := by
  cases h with
  | absent => exact ends_nil _
  | present isLetter =>
    refine ends_cons ?_ _
    rcases isLetter with rfl | rfl
    · rfl
    · rfl

theorem ends_of_fraction {fraction rest : List Char} {f : Option (List Char)}
    (h : Fraction fraction f) (e : Ends (fun c => c.isDigit || c == '.') rest) :
    Ends Char.isDigit (fraction ++ rest) := by
  cases h with
  | absent => exact fun c hc => (Bool.or_eq_false_iff.1 (e c hc)).1
  | present digits => exact ends_cons rfl _

/-- Takes a literal apart behind its sign. -/
def readUnsigned? (negative : Bool) (cs : List Char) : Option NumberLiteral := do
  let (whole, rest) ← readWhole? cs
  let (fraction, rest) ← readFraction? rest
  let (exponent, rest) ← readExponent? rest
  if rest.isEmpty then some ⟨negative, whole, fraction, exponent⟩ else none

theorem read?_minus (cs : List Char) : read? ('-' :: cs) = readUnsigned? true cs := rfl

theorem read?_of_unsigned {cs : List Char} (h : cs.head? ≠ some '-') :
    read? cs = readUnsigned? false cs := by
  unfold read? readUnsigned?
  split
  rename_i negative rest stands
  split at stands
  · exact absurd rfl h
  · cases stands
    rfl

theorem readUnsigned?_of_parts {whole fraction exponent : List Char} {negative : Bool}
    {f : Option (List Char)} {e : Option (Bool × List Char)} (hw : Whole whole)
    (hf : Fraction fraction f) (he : Exponent exponent e) :
    readUnsigned? negative (whole ++ (fraction ++ exponent)) = some ⟨negative, whole, f, e⟩ := by
  have stops := ends_of_exponent he
  simp only [readUnsigned?, readWhole?_of_whole hw (ends_of_fraction hf stops),
    readFraction?_of_fraction hf stops, readExponent?_of_exponent he, Option.bind_eq_bind,
    Option.bind_some, List.isEmpty_nil, if_true]

theorem parts_of_readUnsigned? {cs : List Char} {negative : Bool} {l : NumberLiteral}
    (h : readUnsigned? negative cs = some l) :
    ∃ whole fraction exponent f e, cs = whole ++ (fraction ++ exponent) ∧ Whole whole ∧
      Fraction fraction f ∧ Exponent exponent e ∧ l = ⟨negative, whole, f, e⟩ := by
  simp only [readUnsigned?, Option.bind_eq_bind, Option.bind_eq_some_iff] at h
  obtain ⟨⟨whole, rest₁⟩, readWhole, ⟨f, rest₂⟩, readFraction, ⟨e, rest₃⟩, readExponent, h⟩ := h
  obtain ⟨split₁, hw⟩ := whole_of_readWhole? readWhole
  obtain ⟨fraction, split₂, hf⟩ := fraction_of_readFraction? readFraction
  obtain ⟨exponent, split₃, he⟩ := exponent_of_readExponent? readExponent
  cases rest₃ with
  | cons c more => cases h
  | nil =>
    refine ⟨whole, fraction, exponent, f, e, ?_, hw, hf, he, (Option.some.inj h).symm⟩
    have split₂ : rest₁ = fraction ++ rest₂ := split₂
    have split₃ : rest₂ = exponent ++ [] := split₃
    rw [split₁, split₂, split₃, List.append_nil]

/-- A run of characters is taken apart exactly if it is a number literal with those parts. -/
theorem read?_eq_some_iff {cs : List Char} {l : NumberLiteral} :
    read? cs = some l ↔ NumberText cs l := by
  constructor
  · intro h
    by_cases minus : cs.head? = some '-'
    · obtain ⟨rest, rfl⟩ := List.head?_eq_some_iff.1 minus
      rw [read?_minus] at h
      obtain ⟨whole, fraction, exponent, f, e, rfl, hw, hf, he, rfl⟩ := parts_of_readUnsigned? h
      exact .mk .minus hw hf he
    · rw [read?_of_unsigned minus] at h
      obtain ⟨whole, fraction, exponent, f, e, rfl, hw, hf, he, rfl⟩ := parts_of_readUnsigned? h
      exact .mk .absent hw hf he
  · rintro ⟨signed, hw, hf, he⟩
    cases signed with
    | minus => exact (read?_minus _).trans (readUnsigned?_of_parts hw hf he)
    | absent =>
      rw [List.nil_append, read?_of_unsigned, readUnsigned?_of_parts hw hf he]
      obtain ⟨⟨ne, digits⟩, -⟩ := hw
      intro minus
      obtain ⟨d, ds, rfl⟩ := List.exists_cons_of_ne_nil ne
      cases minus
      exact absurd (digits _ List.mem_cons_self) (by decide)

end NumberLiteral

theorem value?_eq_some_iff {l : NumberLiteral} {n : Number} :
    l.value? = some n ↔ Denotes l n := by
  by_cases exact : Exact l
  · have value : l.value? = some (.integer l.wholeValue) := if_pos exact
    rw [value]
    constructor
    · intro h
      cases h
      exact .integer exact
    · intro h
      cases h with
      | integer _ => rfl
      | double inexact _ => exact absurd exact inexact
  · have value : l.value? = l.double?.map .double := if_neg exact
    rw [value, Option.map_eq_some_iff]
    constructor
    · rintro ⟨word, double, rfl⟩
      exact .double exact double
    · intro h
      cases h with
      | integer is => exact absurd is exact
      | double _ double => exact ⟨_, double, rfl⟩

/-- The number of a run of characters is the one that the literal denotes whose characters they
are. -/
theorem ofLiteral?_eq_some_iff {cs : List Char} {n : Number} :
    Number.ofLiteral? cs = some n ↔ ∃ l, NumberText cs l ∧ Denotes l n := by
  rw [Number.ofLiteral?, Option.bind_eq_some_iff]
  constructor
  · rintro ⟨l, read, value⟩
    exact ⟨l, NumberLiteral.read?_eq_some_iff.1 read, value?_eq_some_iff.1 value⟩
  · rintro ⟨l, read, value⟩
    exact ⟨l, NumberLiteral.read?_eq_some_iff.2 read, value?_eq_some_iff.2 value⟩

/-! ### Escapes -/

theorem hexValue?_eq_some_iff {c : Char} {n : Nat} : hexValue? c = some n ↔ HexDigit c n := by
  have zero : '0'.toNat = 48 := rfl
  have a : 'a'.toNat = 97 := rfl
  have A : 'A'.toNat = 65 := rfl
  have digit : c.isDigit = true ↔ 48 ≤ c.toNat ∧ c.toNat ≤ 57 := by
    simp only [Char.isDigit, Bool.and_eq_true, decide_eq_true_eq, ge_iff_le,
      UInt32.le_iff_toNat_le]
    rfl
  have lower : ('a' ≤ c ∧ c ≤ 'f') ↔ 97 ≤ c.toNat ∧ c.toNat ≤ 102 := by
    simp only [Char.le_def, UInt32.le_iff_toNat_le]
    rfl
  have upper : ('A' ≤ c ∧ c ≤ 'F') ↔ 65 ≤ c.toNat ∧ c.toNat ≤ 70 := by
    simp only [Char.le_def, UInt32.le_iff_toNat_le]
    rfl
  rw [hexValue?, HexDigit, zero, a, A]
  simp only [digit, lower, upper]
  split
  · rw [Option.some.injEq]
    omega
  · split
    · rw [Option.some.injEq]
      omega
    · split
      · rw [Option.some.injEq]
        omega
      · constructor
        · intro h
          cases h
        · omega

theorem length_hexRun_le (cs : List Char) : (hexRun cs).length ≤ cs.length := by
  have h₁ := List.length_filterMap_le id (((cs.take 4).map hexValue?).takeWhile Option.isSome)
  have h₂ := (List.takeWhile_sublist (l := (cs.take 4).map hexValue?) Option.isSome).length_le
  rw [List.length_map, List.length_take] at h₂
  rw [hexRun]
  omega

theorem length_hexRun_le_four (cs : List Char) : (hexRun cs).length ≤ 4 := by
  have h := length_hexRun_le (cs.take 4)
  have same : hexRun (cs.take 4) = hexRun cs := by
    rw [hexRun, hexRun, List.take_take, Nat.min_self]
  rw [same, List.length_take] at h
  omega

theorem hexRun_of_codeUnit {digits : List Char} {n : Nat} (h : CodeUnit digits n)
    (rest : List Char) :
    (hexRun (digits ++ rest)).length = 4 ∧ hexNumber (hexRun (digits ++ rest)) = n := by
  cases h with
  | mk ha hb hc hd =>
    simp [hexRun, hexNumber, hexValue?_eq_some_iff.2 ha, hexValue?_eq_some_iff.2 hb,
      hexValue?_eq_some_iff.2 hc, hexValue?_eq_some_iff.2 hd]

theorem length_of_codeUnit {digits : List Char} {n : Nat} (h : CodeUnit digits n) :
    digits.length = 4 := by
  cases h
  rfl

theorem lt_of_codeUnit {digits : List Char} {n : Nat} (h : CodeUnit digits n) : n < 0x10000 := by
  cases h with
  | mk ha hb hc hd =>
    rw [HexDigit] at ha hb hc hd
    omega

theorem codeUnit_of_hexRun {cs : List Char} (h : (hexRun cs).length = 4) :
    CodeUnit (cs.take 4) (hexNumber (hexRun cs)) := by
  have le := length_hexRun_le cs
  match cs with
  | [] | [_] | [_, _] | [_, _, _] =>
    simp only [List.length_cons, List.length_nil] at le
    omega
  | a :: b :: c :: d :: rest =>
    cases ha : hexValue? a with
    | none => simp [hexRun, ha] at h
    | some i =>
      cases hb : hexValue? b with
      | none => simp [hexRun, ha, hb] at h
      | some j =>
        cases hc : hexValue? c with
        | none => simp [hexRun, ha, hb, hc] at h
        | some k =>
          cases hd : hexValue? d with
          | none => simp [hexRun, ha, hb, hc, hd] at h
          | some l =>
            have unit := CodeUnit.mk (hexValue?_eq_some_iff.1 ha) (hexValue?_eq_some_iff.1 hb)
              (hexValue?_eq_some_iff.1 hc) (hexValue?_eq_some_iff.1 hd)
            simpa [hexRun, hexNumber, ha, hb, hc, hd] using unit

namespace Escape

theorem read_of_mem_shortEscapes {e c : Char} (h : (e, c) ∈ shortEscapes) (rest : List Char) :
    read e rest = ⟨.ok c, 0⟩ := by
  simp only [shortEscapes, List.mem_cons, Prod.mk.injEq, List.not_mem_nil, or_false] at h
  rcases h with ⟨rfl, rfl⟩ | ⟨rfl, rfl⟩ | ⟨rfl, rfl⟩ | ⟨rfl, rfl⟩ | ⟨rfl, rfl⟩ | ⟨rfl, rfl⟩ |
    ⟨rfl, rfl⟩ | ⟨rfl, rfl⟩ <;> rfl

theorem isHighSurrogate_iff {unit : Nat} :
    isHighSurrogate unit = true ↔ 0xD800 ≤ unit ∧ unit < 0xDC00 := by
  rw [isHighSurrogate, Bool.and_eq_true, decide_eq_true_iff, decide_eq_true_iff]

theorem isLowSurrogate_iff {unit : Nat} :
    isLowSurrogate unit = true ↔ 0xDC00 ≤ unit ∧ unit < 0xE000 := by
  rw [isLowSurrogate, Bool.and_eq_true, decide_eq_true_iff, decide_eq_true_iff]

/-- No character has a code point between those of the surrogates. -/
theorem not_surrogate (c : Char) :
    isHighSurrogate c.toNat = false ∧ isLowSurrogate c.toNat = false := by
  have valid := c.valid
  simp only [UInt32.isValidChar, Nat.isValidChar] at valid
  have same : c.val.toNat = c.toNat := rfl
  rw [same] at valid
  rw [Bool.eq_false_iff, Bool.eq_false_iff, ne_eq, ne_eq, isHighSurrogate_iff, isLowSurrogate_iff]
  omega

theorem read_of_unit {c : Char} {digits : List Char} (h : CodeUnit digits c.toNat)
    (rest : List Char) : read 'u' (digits ++ rest) = ⟨.ok c, 4⟩ := by
  obtain ⟨four, number⟩ := hexRun_of_codeUnit h rest
  obtain ⟨notHigh, notLow⟩ := not_surrogate c
  have whole : ¬ (hexRun (digits ++ rest)).length < 4 := by omega
  simp only [read, readUnicode, number, whole, notHigh, notLow, Bool.false_eq_true, if_false,
    Char.ofNat_toNat]

theorem read_of_pair {c : Char} {first second : List Char} {high low : Nat}
    (hf : CodeUnit first high) (hs : CodeUnit second low) (paired : Paired high low c)
    (rest : List Char) :
    read 'u' (first ++ '\\' :: 'u' :: (second ++ rest)) = ⟨.ok c, 10⟩ := by
  obtain ⟨isHigh, isLow, joins⟩ := paired
  obtain ⟨four, number⟩ := hexRun_of_codeUnit hf ('\\' :: 'u' :: (second ++ rest))
  obtain ⟨four', number'⟩ := hexRun_of_codeUnit hs rest
  have whole : ¬ (hexRun (first ++ '\\' :: 'u' :: (second ++ rest))).length < 4 := by omega
  have highUnit : isHighSurrogate high = true := isHighSurrogate_iff.2 isHigh
  have lowUnit : isLowSurrogate low = true := isLowSurrogate_iff.2 isLow
  have left : (first ++ '\\' :: 'u' :: (second ++ rest)).drop 4
      = '\\' :: 'u' :: (second ++ rest) := by
    rw [← length_of_codeUnit hf, List.drop_left]
  have char : joined high low = c := by
    rw [joined, ← joins, Char.ofNat_toNat]
  simp only [read, readUnicode, number, whole, highUnit, left, readLow, four', number', lowUnit,
    and_self, char, if_true, if_false]

/-- A code unit that is no half of a pair is the code point of a character. -/
theorem toNat_ofNat_of_unit {n : Nat} (notHigh : isHighSurrogate n = false)
    (notLow : isLowSurrogate n = false) (small : n < 0x10000) : (Char.ofNat n).toNat = n := by
  rw [Bool.eq_false_iff, ne_eq] at notHigh notLow
  rw [isHighSurrogate_iff] at notHigh
  rw [isLowSurrogate_iff] at notLow
  have valid : n.isValidChar := by
    rw [Nat.isValidChar]
    omega
  rw [Char.ofNat, dif_pos valid]
  rfl

theorem paired_joined {high low : Nat} (isHigh : isHighSurrogate high = true)
    (isLow : isLowSurrogate low = true) : Paired high low (joined high low) := by
  rw [isHighSurrogate_iff] at isHigh
  rw [isLowSurrogate_iff] at isLow
  have valid : (0x10000 + (high - 0xD800) * 0x400 + (low - 0xDC00)).isValidChar := by
    rw [Nat.isValidChar]
    omega
  refine ⟨isHigh, isLow, ?_⟩
  rw [joined, Char.ofNat, dif_pos valid]
  rfl

theorem low_of_readLow {high : Nat} {c : Char} {cs : List Char}
    (h : (readLow high cs).denoted = .ok c) :
    ∃ more low, cs = '\\' :: 'u' :: more ∧ (readLow high cs).taken = 10 ∧
      CodeUnit (more.take 4) low ∧ isLowSurrogate low = true ∧ c = joined high low := by
  unfold readLow at h ⊢
  split at h
  · rename_i more
    dsimp only at h ⊢
    split at h
    · rename_i isLow
      rw [if_pos isLow]
      exact ⟨more, _, rfl, rfl, codeUnit_of_hexRun isLow.1, isLow.2, (Except.ok.inj h).symm⟩
    · cases h
  · cases h

theorem stringText_of_readUnicode {c : Char} {rest w s : List Char}
    (h : (readUnicode rest).denoted = .ok c) (body : StringText w s) :
    StringText ('\\' :: 'u' :: (rest.take (readUnicode rest).taken ++ w)) (c :: s) := by
  unfold readUnicode at h ⊢
  dsimp only at h ⊢
  split at h
  · cases h
  · rename_i whole
    have le : (hexRun rest).length ≤ 4 := length_hexRun_le_four rest
    have unit := codeUnit_of_hexRun (show (hexRun rest).length = 4 by omega)
    rw [if_neg whole]
    split at h
    · rename_i isHigh
      rw [if_pos isHigh]
      obtain ⟨more, low, left, taken, lowUnit, isLow, joins⟩ := low_of_readLow h
      have split : rest.take 10 = rest.take 4 ++ '\\' :: 'u' :: more.take 4 := by
        rw [show (10 : Nat) = 4 + 6 from rfl, List.take_add, left]
        rfl
      rw [taken, split, joins, List.append_assoc, List.cons_append, List.cons_append]
      exact .pair unit lowUnit (paired_joined isHigh isLow) body
    · rename_i notHigh
      rw [if_neg notHigh]
      split at h
      · cases h
      · rename_i notLow
        rw [if_neg notLow]
        cases h
        refine .unit ?_ body
        rw [toNat_ofNat_of_unit (Bool.eq_false_iff.2 notHigh) (Bool.eq_false_iff.2 notLow)
          (lt_of_codeUnit unit)]
        exact unit

/-- What is read behind a backslash is an escape of the character read. -/
theorem stringText_of_read {e c : Char} {rest w s : List Char}
    (h : (read e rest).denoted = .ok c) (body : StringText w s) :
    StringText ('\\' :: e :: (rest.take (read e rest).taken ++ w)) (c :: s) := by
  unfold read at h ⊢
  split at h
  case h_9 => exact stringText_of_readUnicode h body
  case h_10 => cases h
  all_goals
    cases h
    refine .short ?_ body
    decide

end Escape

/-! ### Strings -/

namespace StringLiteral

/-- The characters of an escape that has been read are passed over. -/
theorem read_skip (opened : Place) (skip : Nat) (place : Place) (cs : List Char)
    (h : skip ≤ cs.length) :
    read opened skip place cs =
      { read opened 0 (place.past (cs.take skip)) (cs.drop skip) with
        taken := (read opened 0 (place.past (cs.take skip)) (cs.drop skip)).taken + skip } := by
  induction cs generalizing skip place with
  | nil =>
    have zero : skip = 0 := Nat.le_zero.1 h
    rw [zero]
    rfl
  | cons c cs ih =>
    cases skip with
    | zero => rfl
    | succ skip =>
      have tail := ih skip (place.after c) (Nat.le_of_succ_le_succ h)
      rw [read, tail]
      rfl

/-- The end of the text cuts an escape off, and that is a defect. -/
theorem le_length_of_read {opened : Place} {skip : Nat} {place : Place} {cs : List Char}
    (h : (read opened skip place cs).defects = []) : skip ≤ cs.length := by
  induction cs generalizing skip place with
  | nil => rw [read] at h; cases h
  | cons c cs ih =>
    cases skip with
    | zero => exact Nat.zero_le _
    | succ skip =>
      rw [read] at h
      exact Nat.succ_le_succ (ih h)

theorem read_quote (opened place : Place) (rest : List Char) :
    read opened 0 place ('"' :: rest) = ⟨[], [], 1⟩ := by
  rw [read.eq_def]
  rfl

theorem read_raw {c : Char} (noQuote : c ≠ '"') (noBackslash : c ≠ '\\')
    (printable : 0x20 ≤ c.toNat) (opened place : Place) (rest : List Char) :
    read opened 0 place (c :: rest) = (read opened 0 (place.after c) rest).withChar c := by
  have noBreak : ¬ (c = '\n' ∨ c = '\r') := by
    rintro (rfl | rfl) <;> exact absurd printable (by decide)
  have noControl : ¬ c.toNat < 0x20 := Nat.not_lt.2 printable
  rw [read.eq_def]
  dsimp only
  rw [if_neg noQuote, if_neg noBreak, if_neg noBackslash, if_neg noControl]

/-- A control character in a string is a defect. -/
theorem read_control {c : Char} (control : c.toNat < 0x20) (opened place : Place)
    (rest : List Char) : (read opened 0 place (c :: rest)).defects ≠ [] := by
  have noQuote : c ≠ '"' := by
    rintro rfl
    exact absurd control (by decide)
  have noBackslash : c ≠ '\\' := by
    rintro rfl
    exact absurd control (by decide)
  rw [read.eq_def]
  dsimp only
  rw [if_neg noQuote, if_neg noBackslash, if_pos control]
  split
  · exact List.cons_ne_nil _ _
  · exact List.cons_ne_nil _ _

theorem read_escape (opened place : Place) (e : Char) (more : List Char) :
    read opened 0 place ('\\' :: e :: more) =
      match (Escape.read e more).denoted with
      | .ok denoted => (read opened ((Escape.read e more).taken + 1) (place.after '\\')
          (e :: more)).withChar denoted
      | .error cause => (read opened ((Escape.read e more).taken + 1) (place.after '\\')
          (e :: more)).withDefect ⟨place, cause⟩ := by
  rw [read.eq_def]
  rfl

/-- Behind an escape a string goes on with what follows its characters. -/
theorem read_escape_ok {e c : Char} {taken rest : List Char}
    (h : Escape.read e (taken ++ rest) = ⟨.ok c, taken.length⟩) (opened place : Place) :
    read opened 0 place ('\\' :: e :: (taken ++ rest)) =
      { read opened 0 (place.past ('\\' :: e :: taken)) rest with
        content := c :: (read opened 0 (place.past ('\\' :: e :: taken)) rest).content
        taken := (read opened 0 (place.past ('\\' :: e :: taken)) rest).taken
          + (taken.length + 1) + 1 } := by
  have inside : taken.length + 1 ≤ (e :: (taken ++ rest)).length := by
    rw [List.length_cons, List.length_append]
    omega
  have front : (e :: (taken ++ rest)).take (taken.length + 1) = e :: taken := by
    rw [List.take_succ_cons, List.take_left]
  have back : (e :: (taken ++ rest)).drop (taken.length + 1) = rest := by
    rw [List.drop_succ_cons, List.drop_left]
  rw [read_escape, h]
  dsimp only
  rw [read_skip _ _ _ _ inside, front, back]
  rfl

/-- A string of the grammar is read to the quote behind it, whatever follows. -/
theorem read_of_stringText {w s : List Char} (h : StringText w s) (opened place : Place)
    (rest : List Char) : read opened 0 place (w ++ '"' :: rest) = ⟨s, [], w.length + 1⟩ := by
  induction h generalizing place with
  | nil => exact read_quote opened place rest
  | raw noQuote noBackslash printable body ih =>
    rw [List.cons_append, read_raw noQuote noBackslash printable, ih]
    rfl
  | @short e c w s letter body ih =>
    have escape : Escape.read e ([] ++ (w ++ '"' :: rest)) = ⟨.ok c, ([] : List Char).length⟩ :=
      Escape.read_of_mem_shortEscapes letter _
    have run := read_escape_ok escape opened place
    rw [List.nil_append] at run
    rw [List.cons_append, List.cons_append, run, ih]
    rfl
  | @unit c digits w s unit body ih =>
    have escape := Escape.read_of_unit unit (w ++ '"' :: rest)
    rw [← length_of_codeUnit unit] at escape
    rw [List.cons_append, List.cons_append, List.append_assoc, read_escape_ok escape, ih]
    simp only [List.length_cons, List.length_append]
    congr 1
    omega
  | @pair c first second w s high low hf hs paired body ih =>
    have escape := Escape.read_of_pair hf hs paired (w ++ '"' :: rest)
    have ten : 10 = (first ++ '\\' :: 'u' :: second).length := by
      rw [List.length_append, List.length_cons, List.length_cons, length_of_codeUnit hf,
        length_of_codeUnit hs]
    have split : first ++ '\\' :: 'u' :: (second ++ (w ++ '"' :: rest))
        = (first ++ '\\' :: 'u' :: second) ++ (w ++ '"' :: rest) := by
      rw [List.append_assoc]
      rfl
    rw [ten, split] at escape
    have shape : '\\' :: 'u' :: (first ++ '\\' :: 'u' :: (second ++ w)) ++ '"' :: rest
        = '\\' :: 'u' :: ((first ++ '\\' :: 'u' :: second) ++ (w ++ '"' :: rest)) := by
      simp only [List.cons_append, List.append_assoc]
    rw [shape, read_escape_ok escape, ih]
    simp only [List.length_cons, List.length_append]
    congr 1
    omega

/-- What is read without a defect is a string of the grammar and the quote behind it. -/
theorem stringText_of_read {opened place : Place} {cs : List Char}
    (h : (read opened 0 place cs).defects = []) :
    ∃ w rest, cs = w ++ '"' :: rest ∧ StringText w (read opened 0 place cs).content ∧
      (read opened 0 place cs).taken = w.length + 1 := by
  -- An escape passes over several characters at once, so the induction is on the length.
  induction len : cs.length using Nat.strong_induction_on generalizing place cs with
  | _ n ih =>
    subst len
    match cs with
    | [] =>
      rw [read] at h
      cases h
    | c :: rest =>
      by_cases quote : c = '"'
      · subst quote
        rw [read_quote]
        exact ⟨[], rest, rfl, .nil, rfl⟩
      by_cases backslash : c = '\\'
      · subst backslash
        match rest with
        | [] =>
          rw [read] at h
          cases h
        | e :: more =>
          have run := read_escape opened place e more
          cases denoted : (Escape.read e more).denoted with
          | error cause =>
            rw [run, denoted] at h
            cases h
          | ok d =>
            have inside : (Escape.read e more).taken ≤ more.length := by
              rw [run, denoted] at h
              exact Nat.le_of_succ_le_succ (le_length_of_read h)
            have cut : more.take (Escape.read e more).taken ++ more.drop (Escape.read e more).taken
                = more := List.take_append_drop _ _
            have count : (more.take (Escape.read e more).taken).length
                = (Escape.read e more).taken := List.length_take_of_le inside
            have escape : Escape.read e (more.take (Escape.read e more).taken
                ++ more.drop (Escape.read e more).taken)
                = ⟨.ok d, (more.take (Escape.read e more).taken).length⟩ := by
              rw [cut, count, ← denoted]
            have step := read_escape_ok escape opened place
            rw [cut] at step
            rw [step] at h ⊢
            have shorter : (more.drop (Escape.read e more).taken).length
                < ('\\' :: e :: more).length := by
              rw [List.length_drop, List.length_cons, List.length_cons]
              omega
            obtain ⟨w, rest, split, body, taken⟩ := ih _ shorter h rfl
            refine ⟨'\\' :: e :: (more.take (Escape.read e more).taken ++ w), rest, ?_,
              Escape.stringText_of_read denoted body, ?_⟩
            · rw [List.cons_append, List.cons_append, List.append_assoc, ← split, cut]
            · simp only [taken, List.length_cons, List.length_append]
              omega
      by_cases control : c.toNat < 0x20
      · exact absurd h (read_control control opened place rest)
      · have step := read_raw quote backslash (Nat.not_lt.1 control) opened place rest
        rw [step] at h ⊢
        obtain ⟨w, rest', split, body, taken⟩ := ih _ (Nat.lt_succ_self _) h rfl
        refine ⟨c :: w, rest', by rw [split]; rfl,
          .raw quote backslash (Nat.not_lt.1 control) body, ?_⟩
        exact congrArg (· + 1) taken

end StringLiteral

end Telemetry.Json
