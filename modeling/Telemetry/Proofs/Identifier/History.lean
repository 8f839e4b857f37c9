import Telemetry.Proofs.Checked
import Telemetry.Proofs.Identifier.Scope
import Telemetry.Proofs.Text.LetterCase

/-!
# Claims one after the other

A claim is decided by the first claim before it that a scope takes for the same identifier: it is
granted if there is none or if that one has its source, and refused otherwise.

* `after` and `outcomes` are the scope that a claim leaves and what a list of claims comes to;
* `Remembers` relates a scope to the claims made in it, `Remembers.after` and `Remembers.foldl`
  carry it through one claim and through any number;
* `outcomes_exact` decides every claim by those before it, and says which claims might as well not
  have been made.
-/

namespace Telemetry.IdentifierScope

/-- Whether two identifiers are taken for the same by a scope with the given case policy. -/
def SameIdentifier : Bool → String → String → Prop
  | false, x, y => x = y
  | true, x, y => Text.SameLetters x y

theorem key_eq_iff {scope : IdentifierScope} {x y : String} :
    scope.key x = scope.key y ↔ SameIdentifier scope.foldCase x y := by
  cases fold : scope.foldCase with
  | false =>
    rw [key_of_exact fold, key_of_exact fold]
    rfl
  | true =>
    rw [key_of_folding fold, key_of_folding fold]
    exact Text.sameLetters_iff.symm

/-- Whether `first` is the first of some claims whose identifier is taken for `identifier`. -/
def IsFirst (foldCase : Bool) (claims : List Claim) (identifier : String) (first : Claim) : Prop :=
  ∃ front behind, claims = front ++ first :: behind ∧
    SameIdentifier foldCase first.identifier identifier ∧
    ∀ c ∈ front, ¬ SameIdentifier foldCase c.identifier identifier

/-! ### One claim -/

/-- Whether a claim is granted, or the fault that refuses it. -/
def verdict (scope : IdentifierScope) (c : Claim) : Checked Unit :=
  (scope.claim c.identifier c.source).map fun _ => ()

/-- The scope after a claim.  A claim that is refused leaves the scope as it is. -/
def after (scope : IdentifierScope) (c : Claim) : IdentifierScope :=
  match scope.claim c.identifier c.source with
  | .ok larger => larger
  | .error _ => scope

variable {scope : IdentifierScope} {c : Claim}

theorem verdict_of_free (free : scope.holder? c.identifier = none) : scope.verdict c = .ok () := by
  rw [verdict, claim, free]
  rfl

theorem verdict_of_held {holder : Claim} (held : scope.holder? c.identifier = some holder) :
    scope.verdict c = if holder.source = c.source then .ok ()
      else .error (.duplicateIdentifier holder.identifier holder.source c.source) := by
  rw [verdict, claim, held]
  by_cases same : holder.source = c.source
  · simp only [if_pos same]
    rfl
  · simp only [if_neg same]
    rfl

theorem verdict_eq_ok_iff : scope.verdict c = .ok () ↔ scope.holder? c.identifier = none ∨
    ∃ holder, scope.holder? c.identifier = some holder ∧ holder.source = c.source := by
  cases found : scope.holder? c.identifier with
  | none => simp [verdict_of_free found]
  | some holder => simp [verdict_of_held found]

theorem verdict_eq_error_iff {fault : Fault} : scope.verdict c = .error fault ↔
    ∃ holder, scope.holder? c.identifier = some holder ∧ holder.source ≠ c.source ∧
      fault = .duplicateIdentifier holder.identifier holder.source c.source := by
  cases found : scope.holder? c.identifier with
  | none => simp [verdict_of_free found]
  | some holder =>
    by_cases same : holder.source = c.source
    · simp [verdict_of_held found, same]
    · simp [verdict_of_held found, same, @eq_comm _ fault]

/-- A claim for an identifier that is held changes nothing, granted or not. -/
theorem after_of_held {holder : Claim} (held : scope.holder? c.identifier = some holder) :
    scope.after c = scope := by
  rw [after, claim, held]
  by_cases same : holder.source = c.source
  · simp [same]
  · simp [same]

theorem after_of_free (free : scope.holder? c.identifier = none) :
    scope.after c = { scope with claims := c :: scope.claims } := by
  rw [after, claim, free]

theorem foldCase_after (scope : IdentifierScope) (c : Claim) :
    (scope.after c).foldCase = scope.foldCase := by
  cases found : scope.holder? c.identifier with
  | none => rw [after_of_free found]
  | some holder => rw [after_of_held found]

theorem key_after (scope : IdentifierScope) (c : Claim) (x : String) :
    (scope.after c).key x = scope.key x := by
  rw [key, key, foldCase_after]

/-- Who holds an identifier after a claim: who held it before, or else the claim if it is for that
identifier. -/
theorem holder?_after (scope : IdentifierScope) (c : Claim) (x : String) :
    (scope.after c).holder? x =
      (scope.holder? x).or (if scope.key c.identifier = scope.key x then some c else none) := by
  by_cases same : scope.key c.identifier = scope.key x
  · rw [if_pos same, ← holder?_congr same]
    cases found : scope.holder? c.identifier with
    | none =>
      rw [after_of_free found]
      exact List.find?_cons_of_pos (beq_iff_eq.2 same)
    | some holder => rw [after_of_held found, ← holder?_congr same, found, Option.some_or]
  · rw [if_neg same, Option.or_none]
    cases found : scope.holder? c.identifier with
    | none =>
      rw [after_of_free found]
      exact List.find?_cons_of_neg fun eq => same (beq_iff_eq.1 eq)
    | some holder => rw [after_of_held found]

/-! ### Histories -/

/-- Whether a scope with the given case policy has each identifier held by the first of some claims
for it. -/
structure Remembers (foldCase : Bool) (claims : List Claim) (scope : IdentifierScope) : Prop where
  foldCase_eq : scope.foldCase = foldCase
  holder? : ∀ x, scope.holder? x = claims.find? fun c => scope.key c.identifier == scope.key x

namespace Remembers

variable {foldCase : Bool} {claims : List Claim}

theorem fresh (foldCase : Bool) : Remembers foldCase [] { foldCase } :=
  ⟨rfl, fun _ => rfl⟩

/-- A scope remembers one more claim after it. -/
theorem after (h : Remembers foldCase claims scope) (c : Claim) :
    Remembers foldCase (claims ++ [c]) (scope.after c) := by
  refine ⟨(foldCase_after scope c).trans h.foldCase_eq, ?_⟩
  intro x
  simp only [key_after]
  rw [holder?_after, h.holder? x, List.find?_append, List.find?_singleton]
  simp only [beq_iff_eq]

/-- A scope remembers any number of claims after them. -/
theorem foldl (h : Remembers foldCase claims scope) (more : List Claim) :
    Remembers foldCase (claims ++ more) (more.foldl IdentifierScope.after scope) := by
  induction more generalizing claims scope with
  | nil => rwa [List.append_nil]
  | cons c more ih =>
    have further := ih (h.after c)
    rwa [List.append_assoc] at further

theorem holder?_eq_some_iff (h : Remembers foldCase claims scope) {x : String} {first : Claim} :
    scope.holder? x = some first ↔ IsFirst foldCase claims x first := by
  simp only [h.holder? x, List.find?_eq_some_iff_append, beq_iff_eq, Bool.not_eq_true',
    beq_eq_false_iff_ne, ne_eq, key_eq_iff, h.foldCase_eq, IsFirst]
  constructor
  · intro found
    obtain ⟨same, front, behind, split, others⟩ := found
    exact ⟨front, behind, split, same, others⟩
  · intro found
    obtain ⟨front, behind, split, same, others⟩ := found
    exact ⟨same, front, behind, split, others⟩

theorem holder?_eq_none_iff (h : Remembers foldCase claims scope) {x : String} :
    scope.holder? x = none ↔ ∀ e ∈ claims, ¬ SameIdentifier foldCase e.identifier x := by
  simp only [h.holder? x, List.find?_eq_none, beq_iff_eq, key_eq_iff, h.foldCase_eq]

end Remembers

/-! ### Runs -/

/-- What claims come to that are made one after the other, whether they are granted or not. -/
def outcomes : IdentifierScope → List Claim → List (Checked Unit)
  | _, [] => []
  | scope, c :: rest => scope.verdict c :: (scope.after c).outcomes rest

@[simp] theorem length_outcomes (scope : IdentifierScope) (claims : List Claim) :
    (scope.outcomes claims).length = claims.length := by
  induction claims generalizing scope with
  | nil => rfl
  | cons c rest ih => rw [outcomes, List.length_cons, List.length_cons, ih]

theorem outcomes_append (scope : IdentifierScope) (earlier later : List Claim) :
    scope.outcomes (earlier ++ later) =
      scope.outcomes earlier ++ (earlier.foldl after scope).outcomes later := by
  induction earlier generalizing scope with
  | nil => rfl
  | cons c rest ih =>
    rw [List.cons_append, outcomes, outcomes, ih, List.cons_append]
    rfl

/-- What a claim in the middle comes to. -/
theorem getElem?_outcomes (scope : IdentifierScope) (earlier : List Claim) (c : Claim)
    (later : List Claim) :
    (scope.outcomes (earlier ++ c :: later))[earlier.length]? =
      some ((earlier.foldl after scope).verdict c) := by
  rw [outcomes_append, List.getElem?_append_right (by rw [length_outcomes]), length_outcomes,
    Nat.sub_self]
  rfl

/-- A claim for an identifier that is held can be left out. -/
theorem eraseIdx_outcomes {earlier : List Claim} {holder : Claim}
    (held : (earlier.foldl after scope).holder? c.identifier = some holder) (later : List Claim) :
    (scope.outcomes (earlier ++ c :: later)).eraseIdx earlier.length =
      scope.outcomes (earlier ++ later) := by
  rw [outcomes_append, outcomes_append, outcomes, after_of_held held,
    List.eraseIdx_append_of_length_le (by rw [length_outcomes]), length_outcomes, Nat.sub_self,
    List.eraseIdx_cons_zero]

/-- Every claim made in a fresh scope is decided by the first one before it that is for the same
identifier, up to the case of ASCII letters if the scope folds it.  The claim is granted if there is
no such claim or if it has the same source, and refused otherwise, with that claim as it was made.
A claim that is refused, or that has such a claim before it, can be left out: all others come to the
same without it. -/
theorem outcomes_exact (foldCase : Bool) (earlier : List Claim) (c : Claim) (later : List Claim) :
    ((outcomes { foldCase } (earlier ++ c :: later))[earlier.length]? = some (.ok ()) ↔
      (∀ e ∈ earlier, ¬ SameIdentifier foldCase e.identifier c.identifier) ∨
        ∃ first, IsFirst foldCase earlier c.identifier first ∧ first.source = c.source) ∧
    (∀ fault, (outcomes { foldCase } (earlier ++ c :: later))[earlier.length]? =
        some (.error fault) ↔
      ∃ first, IsFirst foldCase earlier c.identifier first ∧ first.source ≠ c.source ∧
        fault = .duplicateIdentifier first.identifier first.source c.source) ∧
    ((∃ fault, (outcomes { foldCase } (earlier ++ c :: later))[earlier.length]? =
          some (.error fault)) ∨
        (∃ e ∈ earlier, SameIdentifier foldCase e.identifier c.identifier) →
      (outcomes { foldCase } (earlier ++ c :: later)).eraseIdx earlier.length =
        outcomes { foldCase } (earlier ++ later)) := by
  have remembers := (Remembers.fresh foldCase).foldl earlier
  rw [List.nil_append] at remembers
  have isVerdict := getElem?_outcomes { foldCase } earlier c later
  refine ⟨?_, ?_, ?_⟩
  · rw [isVerdict, Option.some.injEq, verdict_eq_ok_iff]
    simp only [remembers.holder?_eq_some_iff, remembers.holder?_eq_none_iff]
  · intro fault
    rw [isVerdict, Option.some.injEq, verdict_eq_error_iff]
    simp only [remembers.holder?_eq_some_iff]
  · intro h
    have held : (earlier.foldl after { foldCase }).holder? c.identifier ≠ none := by
      rcases h with ⟨fault, refused⟩ | ⟨e, there, same⟩
      · rw [isVerdict, Option.some.injEq, verdict_eq_error_iff] at refused
        obtain ⟨holder, isHolder, -⟩ := refused
        rw [isHolder]
        exact Option.some_ne_none holder
      · exact fun free => remembers.holder?_eq_none_iff.1 free e there same
    obtain ⟨holder, isHolder⟩ := Option.ne_none_iff_exists'.1 held
    exact eraseIdx_outcomes isHolder later

/-- Claims of which some repeat others up to letter case, and two differ in the case of a letter
that is not ASCII. -/
def foldingClaims : List Claim :=
  [⟨"FooBar", "foo_bar"⟩, ⟨"É", "é"⟩, ⟨"Foobar", "foobar"⟩, ⟨"é", "e"⟩, ⟨"foobar", "foo_bar"⟩]

theorem outcomes_of_foldingClaims :
    (outcomes { foldCase := true } foldingClaims)[2]? =
      some (.error (.duplicateIdentifier "FooBar" "foo_bar" "foobar")) ∧
    (outcomes { foldCase := true } foldingClaims).eraseIdx 2 =
      outcomes { foldCase := true } (foldingClaims.eraseIdx 2) ∧
    (outcomes { foldCase := true } foldingClaims).map (fun outcome => outcome.toOption.isSome) =
      [true, true, false, true, true] := by
  obtain ⟨-, refused, leftOut⟩ := outcomes_exact true [⟨"FooBar", "foo_bar"⟩, ⟨"É", "é"⟩]
    ⟨"Foobar", "foobar"⟩ [⟨"é", "e"⟩, ⟨"foobar", "foo_bar"⟩]
  have mixed : "FooBar".toLower = "foobar" := by decide +kernel
  have capital : "Foobar".toLower = "foobar" := by decide +kernel
  have lower : "foobar".toLower = "foobar" := by decide +kernel
  have upperAccent : "É".toLower = "É" := by decide +kernel
  have accent : "é".toLower = "é" := by decide +kernel
  have same : SameIdentifier true "FooBar" "Foobar" :=
    Text.sameLetters_iff.2 (mixed.trans capital.symm)
  refine ⟨(refused _).2 ⟨_, ⟨[], _, rfl, same, List.forall_mem_nil _⟩, by decide, rfl⟩, ?_, ?_⟩
  · exact leftOut (.inr ⟨_, List.mem_cons_self, same⟩)
  · have key (claims) (x) : key ⟨true, claims⟩ x = x.toLower := key_of_folding rfl x
    have first : holder? { foldCase := true } "FooBar" = none := rfl
    have second : holder? ⟨true, [⟨"FooBar", "foo_bar"⟩]⟩ "É" = none := by
      simp [holder?, key, mixed, upperAccent]
    have third : holder? ⟨true, [⟨"É", "é"⟩, ⟨"FooBar", "foo_bar"⟩]⟩ "Foobar" =
        some ⟨"FooBar", "foo_bar"⟩ := by
      simp [holder?, key, mixed, capital, upperAccent]
    have fourth : holder? ⟨true, [⟨"É", "é"⟩, ⟨"FooBar", "foo_bar"⟩]⟩ "é" = none := by
      simp [holder?, key, mixed, accent, upperAccent]
    have fifth : holder? ⟨true, [⟨"é", "e"⟩, ⟨"É", "é"⟩, ⟨"FooBar", "foo_bar"⟩]⟩ "foobar" =
        some ⟨"FooBar", "foo_bar"⟩ := by
      simp [holder?, key, mixed, lower, accent, upperAccent]
    simp only [foldingClaims, outcomes, verdict_of_free, after_of_free, first, second, fourth,
      verdict_of_held (c := ⟨"Foobar", "foobar"⟩) third,
      after_of_held (c := ⟨"Foobar", "foobar"⟩) third,
      verdict_of_held (c := ⟨"foobar", "foo_bar"⟩) fifth]
    rfl

end Telemetry.IdentifierScope
