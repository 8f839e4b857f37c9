import Telemetry.Json.Progress

/-!
# The walk of the reader through its tokens

Which tokens the reader goes over depends on no value and no defect.  `walkValue`, `walkMembers`,
`walkMember` and `walkItems` are the reader without these.  They count the steps on the way instead:
the calls for values, the turns of the loops over members and items and between two entries, and the
tokens that are passed over; and they note how deep the calls for containers are nested.

`Erases.all` says that they leave what the reader leaves, with every fuel.
-/

namespace Telemetry.Json

/-- What reading a part of a list of tokens takes: the tokens that are left, the number of steps,
and the depth of the innermost call for a container. -/
structure Walk where
  rest : List Token
  steps : Nat
  deepest : Nat
  deriving Repr

/-- The walk with steps that were made before it. -/
def Walk.behind (steps deepest : Nat) (w : Walk) : Walk :=
  ⟨w.rest, steps + w.steps, max deepest w.deepest⟩

/-! ### Counting the turns of the loops -/

/-- How many tokens `skipTo` passes over, one in each turn. -/
def skipToTurns (stops : List Mark) : (nesting : Nat) → List Token → Nat
  | _, [] => 0
  | nesting, t :: rest =>
    if nesting = 0 ∧ stops.any t.isMark then 0
    else if t.opens then skipToTurns stops (nesting + 1) rest + 1
    else if t.closes then skipToTurns stops (nesting - 1) rest + 1
    else skipToTurns stops nesting rest + 1

/-- How many tokens `skipContainer` passes over, one in each turn. -/
def skipContainerTurns : (nesting : Nat) → List Token → Nat
  | _, [] => 0
  | nesting, t :: rest =>
    if t.opens then skipContainerTurns (nesting + 1) rest + 1
    else if t.closes then
      if nesting ≤ 1 then 1 else skipContainerTurns (nesting - 1) rest + 1
    else skipContainerTurns nesting rest + 1

/-- How many turns are made behind an entry, and how many tokens are passed over in them. -/
def afterEntryTurns (container : Container) (tokens : List Token) : Nat :=
  match tokens with
  | [] => 1
  | t :: _ =>
    if t.isMark .comma || t.isMark container.closing || container.startsEntry t then 1
    else 1 + skipToTurns [.comma, container.closing] 0 tokens + 1

mutual

/-- The walk through a value. -/
def walkValue (stop : Place) : (fuel : Nat) → (depth : Nat) → List Token → Option Walk
  | 0, _, _ => none
  | _ + 1, _, [] => some ⟨[], 1, 0⟩
  | fuel + 1, depth, t :: rest =>
    match t.lexeme with
    | .mark .openBrace =>
      if maxDepth ≤ depth then
        some ⟨skipContainer 0 (t :: rest), 1 + skipContainerTurns 0 (t :: rest), depth + 1⟩
      else (walkMembers stop fuel (depth + 1) rest).map (·.behind 1 (depth + 1))
    | .mark .openBracket =>
      if maxDepth ≤ depth then
        some ⟨skipContainer 0 (t :: rest), 1 + skipContainerTurns 0 (t :: rest), depth + 1⟩
      else (walkItems stop fuel (depth + 1) rest).map (·.behind 1 (depth + 1))
    | .mark _ => some ⟨t :: rest, 1, 0⟩
    | _ => some ⟨rest, 1, 0⟩

/-- The walk through the members that are left of an object. -/
def walkMembers (stop : Place) : (fuel : Nat) → (depth : Nat) → List Token → Option Walk
  | 0, _, _ => none
  | _ + 1, _, [] => some ⟨[], 1, 0⟩
  | fuel + 1, depth, t :: rest =>
    if t.isMark .closeBrace then some ⟨rest, 1, 0⟩
    else do
      let entry ← walkMember stop fuel depth (t :: rest)
      let next := afterEntry stop .braces entry.rest
      let steps := 1 + entry.steps + afterEntryTurns .braces entry.rest
      if next.result then
        return (← walkMembers stop fuel depth next.rest).behind steps entry.deepest
      else
        return ⟨next.rest, steps, entry.deepest⟩

/-- The walk through one member. -/
def walkMember (stop : Place) : (fuel : Nat) → (depth : Nat) → List Token → Option Walk
  | 0, _, _ => none
  | _ + 1, _, [] => some ⟨[], 0, 0⟩
  | fuel + 1, depth, t :: rest =>
    if t.isText then
      if nextIs .colon rest then walkValue stop fuel depth (rest.drop 1)
      else if (rest.head?.map Token.startsValue).getD false then walkValue stop fuel depth rest
      else some ⟨rest, 0, 0⟩
    else
      let turns := skipToTurns [.colon, .comma, .closeBrace] 0 (t :: rest)
      let rest := skipTo [.colon, .comma, .closeBrace] 0 (t :: rest)
      if nextIs .colon rest then
        (walkValue stop fuel depth (rest.drop 1)).map (·.behind turns 0)
      else some ⟨rest, turns, 0⟩

/-- The walk through the items that are left of a list. -/
def walkItems (stop : Place) : (fuel : Nat) → (depth : Nat) → List Token → Option Walk
  | 0, _, _ => none
  | _ + 1, _, [] => some ⟨[], 1, 0⟩
  | fuel + 1, depth, t :: rest =>
    if t.isMark .closeBracket then some ⟨rest, 1, 0⟩
    else do
      let entry ← walkValue stop fuel depth (t :: rest)
      let next := afterEntry stop .brackets entry.rest
      let steps := 1 + entry.steps + afterEntryTurns .brackets entry.rest
      if next.result then
        return (← walkItems stop fuel depth next.rest).behind steps entry.deepest
      else
        return ⟨next.rest, steps, entry.deepest⟩

end

/-! ### The walk leaves what the reader leaves -/

/-- Whether the walk leaves what the reader leaves, with `fuel`. -/
structure Erases (stop : Place) (fuel : Nat) : Prop where
  value : ∀ depth tokens, (walkValue stop fuel depth tokens).map Walk.rest =
    (readValue stop fuel depth tokens).map Reading.rest
  members : ∀ depth found tokens, (walkMembers stop fuel depth tokens).map Walk.rest =
    (readMembers stop fuel depth found tokens).map Reading.rest
  member : ∀ depth found tokens, (walkMember stop fuel depth tokens).map Walk.rest =
    (readMember stop fuel depth found tokens).map Reading.rest
  items : ∀ depth tokens, (walkItems stop fuel depth tokens).map Walk.rest =
    (readItems stop fuel depth tokens).map Reading.rest

/-- Steps that agree in what is seen of them are followed by steps that agree. -/
theorem map_bind_eq_of_map_eq {α β γ δ ε ζ : Type} {x : Option α} {y : Option β} {f : α → γ}
    {g : β → γ} {next : α → Option δ} {next' : β → Option ε} {f' : δ → ζ} {g' : ε → ζ}
    (same : x.map f = y.map g)
    (nexts : ∀ a b, f a = g b → (next a).map f' = (next' b).map g') :
    (x >>= next).map f' = (y >>= next').map g' := by
  cases x with
  | none =>
    cases y with
    | none => rfl
    | some b => cases same
  | some a =>
    cases y with
    | none => cases same
    | some b => exact nexts a b (Option.some.inj same)

/-- A step that changes nothing of what is seen can be left out. -/
theorem map_eq_map_bind {α β γ δ : Type} {x : Option α} {y : Option β} {f : α → γ} {g : β → γ}
    {next : β → Option δ} {g' : δ → γ} (same : x.map f = y.map g)
    (nexts : ∀ b, (next b).map g' = some (g b)) : x.map f = (y >>= next).map g' := by
  rw [same]
  cases y with
  | none => rfl
  | some b => exact (nexts b).symm

namespace Erases

variable {stop : Place} {fuel : Nat}

theorem value_succ (ih : Erases stop fuel) (depth : Nat) (tokens : List Token) :
    (walkValue stop (fuel + 1) depth tokens).map Walk.rest =
      (readValue stop (fuel + 1) depth tokens).map Reading.rest := by
  cases tokens with
  | nil => simp only [walkValue, readValue, Option.map_some]
  | cons t rest =>
    obtain ⟨lexeme, place⟩ := t
    cases lexeme with
    | mark m =>
      cases m with
      | openBrace =>
        simp only [walkValue, readValue]
        split
        · rfl
        · rw [Option.map_map, Option.map_map]
          exact ih.members (depth + 1) [] rest
      | openBracket =>
        simp only [walkValue, readValue]
        split
        · rfl
        · rw [Option.map_map, Option.map_map]
          exact ih.items (depth + 1) rest
      | closeBrace | closeBracket | colon | comma =>
        simp only [walkValue, readValue, Option.map_some]
    | text | number | bool | null | broken => simp only [walkValue, readValue, Option.map_some]

theorem members_succ (ih : Erases stop fuel) (depth : Nat) (found : Members) (tokens : List Token) :
    (walkMembers stop (fuel + 1) depth tokens).map Walk.rest =
      (readMembers stop (fuel + 1) depth found tokens).map Reading.rest := by
  cases tokens with
  | nil => simp only [walkMembers, readMembers, Option.map_some]
  | cons t rest =>
    simp only [walkMembers, readMembers]
    split
    · rfl
    · refine map_bind_eq_of_map_eq (ih.member depth found (t :: rest)) fun entry read same => ?_
      rw [same]
      split
      · exact map_bind_eq_of_map_eq (ih.members depth read.result _) fun others left same =>
          congrArg some same
      · rfl

theorem items_succ (ih : Erases stop fuel) (depth : Nat) (tokens : List Token) :
    (walkItems stop (fuel + 1) depth tokens).map Walk.rest =
      (readItems stop (fuel + 1) depth tokens).map Reading.rest := by
  cases tokens with
  | nil => simp only [walkItems, readItems, Option.map_some]
  | cons t rest =>
    simp only [walkItems, readItems]
    split
    · rfl
    · refine map_bind_eq_of_map_eq (ih.value depth (t :: rest)) fun entry read same => ?_
      rw [same]
      split
      · exact map_bind_eq_of_map_eq (ih.items depth _) fun others left same =>
          congrArg some same
      · rfl

theorem member_succ (ih : Erases stop fuel) (depth : Nat) (found : Members) (tokens : List Token) :
    (walkMember stop (fuel + 1) depth tokens).map Walk.rest =
      (readMember stop (fuel + 1) depth found tokens).map Reading.rest := by
  cases tokens with
  | nil => simp only [walkMember, readMember, Option.map_some]
  | cons t rest =>
    obtain ⟨lexeme, place⟩ := t
    cases lexeme with
    | text key =>
      simp only [walkMember, readMember, Token.isText, if_true]
      split
      · refine map_eq_map_bind (ih.value depth _) fun value => ?_
        split <;> rfl
      · split
        · exact map_eq_map_bind (ih.value depth _) fun value => rfl
        · rfl
    | mark | number | bool | null | broken =>
      simp only [walkMember, readMember, Token.isText, Bool.false_eq_true, if_false]
      split
      · rw [Option.map_map]
        exact map_eq_map_bind (ih.value depth _) fun value => rfl
      · rfl

/-- The walk leaves what the reader leaves, with every fuel. -/
theorem all (stop : Place) (fuel : Nat) : Erases stop fuel := by
  induction fuel with
  | zero =>
    refine ⟨fun _ _ => ?_, fun _ _ _ => ?_, fun _ _ _ => ?_, fun _ _ => ?_⟩
    · rw [walkValue, readValue]; rfl
    · rw [walkMembers, readMembers]; rfl
    · rw [walkMember, readMember]; rfl
    · rw [walkItems, readItems]; rfl
  | succ fuel ih => exact ⟨ih.value_succ, ih.members_succ, ih.member_succ, ih.items_succ⟩

end Erases

end Telemetry.Json
