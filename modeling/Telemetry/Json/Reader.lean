import Telemetry.Json.Scan

/-!
# From tokens to a value

The reader never stops at a defect.  It notes what is missing, steps over what it cannot use, and
goes on, so that one reading reports every defect of a text; a text with any defect has no value.

* `readValue`, `readMembers` and `readItems` read a value and the inside of a container.  Their
  first argument bounds the depth of calls; `readDocument` gives them enough for every list of
  tokens, twice the number of tokens and two, since each call but one in a row uses a token up.
* `afterEntry` deals with what stands between two entries of a container.
* `parse` reads a text, and gives either its value or all of its defects in the order of their
  places.

A key that comes again is reported where it stands, behind the defects of its value, and the value
that came first stays.  Containers more than `maxDepth` deep are reported at their opening mark and
passed over whole.
-/

namespace Telemetry.Json

/-- What reading a part of a list of tokens gives: a result, the defects in the order found, and
the tokens that are left. -/
structure Reading (α : Type) where
  result : α
  defects : List Defect
  rest : List Token
  deriving Repr

namespace Reading

/-- The reading with defects that were found before it. -/
def behind {α : Type} (defects : List Defect) (r : Reading α) : Reading α :=
  { r with defects := defects ++ r.defects }

/-- The reading with its result changed. -/
def map {α β : Type} (f : α → β) (r : Reading α) : Reading β :=
  ⟨f r.result, r.defects, r.rest⟩

end Reading

/-- The place of the next token, or of the end of the text. -/
def nextPlace (stop : Place) : List Token → Place
  | [] => stop
  | t :: _ => t.place

/-- Whether the next token is the mark `m`. -/
def nextIs (m : Mark) : List Token → Bool
  | [] => false
  | t :: _ => t.isMark m

/-- Passes over tokens, and over whole containers among them, up to one of the given marks outside
of these. -/
def skipTo (stops : List Mark) : (nesting : Nat) → List Token → List Token
  | _, [] => []
  | nesting, t :: rest =>
    if nesting = 0 ∧ stops.any t.isMark then t :: rest
    else if t.opens then skipTo stops (nesting + 1) rest
    else if t.closes then skipTo stops (nesting - 1) rest
    else skipTo stops nesting rest

/-- Passes over the container that is open `nesting` levels deep, its closing mark included. -/
def skipContainer : (nesting : Nat) → List Token → List Token
  | _, [] => []
  | nesting, t :: rest =>
    if t.opens then skipContainer (nesting + 1) rest
    else if t.closes then
      if nesting ≤ 1 then rest else skipContainer (nesting - 1) rest
    else skipContainer nesting rest

/-- The two kinds of container, as far as the reader tells them apart. -/
inductive Container where
  | braces
  | brackets
  deriving DecidableEq, Repr

namespace Container

/-- The mark that ends the container. -/
def closing : Container → Mark
  | .braces => .closeBrace
  | .brackets => .closeBracket

/-- The defect of a container that the end of the text cuts off. -/
def unclosed : Container → Defect.Cause
  | .braces => .closingBraceExpected
  | .brackets => .closingBracketExpected

/-- Whether an entry of the container can begin with the token. -/
def startsEntry : Container → Token → Bool
  | .braces, t => t.isText
  | .brackets, t => t.startsValue

end Container

/-- Steps over a comma, or over the closing mark with or without a comma before it, and says
whether another entry follows. -/
def stepOver (stop : Place) (container : Container) : List Token → Reading Bool
  | [] => ⟨false, [⟨stop, container.unclosed⟩], []⟩
  | t :: rest =>
    if t.isMark .comma then
      if nextIs container.closing rest then ⟨false, [], rest.drop 1⟩ else ⟨true, [], rest⟩
    else ⟨false, [], rest⟩

/-- Deals with what follows an entry, and says whether another entry follows.  Where neither a
comma nor the closing mark stands, a comma is missing; the next entry may follow at once, and
otherwise the tokens up to the next comma or closing mark are passed over. -/
def afterEntry (stop : Place) (container : Container) (tokens : List Token) : Reading Bool :=
  match tokens with
  | [] => stepOver stop container []
  | t :: _ =>
    if t.isMark .comma || t.isMark container.closing then stepOver stop container tokens
    else
      let missing : Defect := ⟨t.place, .commaExpected⟩
      if container.startsEntry t then ⟨true, [missing], tokens⟩
      else (stepOver stop container (skipTo [.comma, container.closing] 0 tokens)).behind [missing]

mutual

/-- Reads a value inside `depth` open containers. -/
def readValue (stop : Place) : (fuel : Nat) → (depth : Nat) → List Token → Option (Reading Value)
  | 0, _, _ => none
  | _ + 1, _, [] => some ⟨.null, [⟨stop, .valueExpected⟩], []⟩
  | fuel + 1, depth, t :: rest =>
    match t.lexeme with
    | .mark .openBrace =>
      if maxDepth ≤ depth then
        some ⟨.null, [⟨t.place, .tooDeep⟩], skipContainer 0 (t :: rest)⟩
      else (readMembers stop fuel (depth + 1) [] rest).map (·.map .object)
    | .mark .openBracket =>
      if maxDepth ≤ depth then
        some ⟨.null, [⟨t.place, .tooDeep⟩], skipContainer 0 (t :: rest)⟩
      else (readItems stop fuel (depth + 1) rest).map (·.map .list)
    | .mark _ => some ⟨.null, [⟨t.place, .valueExpected⟩], t :: rest⟩
    | .text content => some ⟨.text content, [], rest⟩
    | .number value => some ⟨.number value, [], rest⟩
    | .bool value => some ⟨.bool value, [], rest⟩
    | .null => some ⟨.null, [], rest⟩
    | .broken => some ⟨.null, [], rest⟩

/-- Reads the members that are left of an object, with `found` before them, and its closing
brace. -/
def readMembers (stop : Place) : (fuel : Nat) → (depth : Nat) → (found : Members) → List Token →
    Option (Reading Members)
  | 0, _, _, _ => none
  | _ + 1, _, found, [] => some ⟨found, [⟨stop, .closingBraceExpected⟩], []⟩
  | fuel + 1, depth, found, t :: rest =>
    if t.isMark .closeBrace then some ⟨found, [], rest⟩
    else do
      let entry ← readMember stop fuel depth found (t :: rest)
      let next := afterEntry stop .braces entry.rest
      let defects := entry.defects ++ next.defects
      if next.result then
        return (← readMembers stop fuel depth entry.result next.rest).behind defects
      else
        return ⟨entry.result, defects, next.rest⟩

/-- Reads one member and adds it to `found`.  Without a key the value is read and dropped; without
a colon too, if a value follows. -/
def readMember (stop : Place) : (fuel : Nat) → (depth : Nat) → (found : Members) → List Token →
    Option (Reading Members)
  | 0, _, _, _ => none
  | _ + 1, _, found, [] => some ⟨found, [], []⟩
  | fuel + 1, depth, found, t :: rest =>
    match t.lexeme with
    | .text key =>
      if nextIs .colon rest then do
        let value ← readValue stop fuel depth (rest.drop 1)
        if found.has key then
          return ⟨found, value.defects ++ [⟨t.place, .duplicateKey key⟩], value.rest⟩
        else
          return ⟨found.insert key value.result, value.defects, value.rest⟩
      else
        let missing : Defect := ⟨nextPlace stop rest, .colonExpected⟩
        if (rest.head?.map Token.startsValue).getD false then do
          let value ← readValue stop fuel depth rest
          return ⟨found, missing :: value.defects, value.rest⟩
        else some ⟨found, [missing], rest⟩
    | _ =>
      let missing : Defect := ⟨t.place, .propertyNameExpected⟩
      let rest := skipTo [.colon, .comma, .closeBrace] 0 (t :: rest)
      if nextIs .colon rest then do
        let value ← readValue stop fuel depth (rest.drop 1)
        return ⟨found, missing :: value.defects, value.rest⟩
      else some ⟨found, [missing], rest⟩

/-- Reads the items that are left of a list, and its closing bracket.  An item that is missing is
null. -/
def readItems (stop : Place) : (fuel : Nat) → (depth : Nat) → List Token →
    Option (Reading (List Value))
  | 0, _, _ => none
  | _ + 1, _, [] => some ⟨[], [⟨stop, .closingBracketExpected⟩], []⟩
  | fuel + 1, depth, t :: rest =>
    if t.isMark .closeBracket then some ⟨[], [], rest⟩
    else do
      let entry ← readValue stop fuel depth (t :: rest)
      let next := afterEntry stop .brackets entry.rest
      let defects := entry.defects ++ next.defects
      if next.result then
        let others ← readItems stop fuel depth next.rest
        return ⟨entry.result :: others.result, defects ++ others.defects, others.rest⟩
      else
        return ⟨[entry.result], defects, next.rest⟩

end

/-- Reads a whole list of tokens as one value.  What follows the value is reported, unless the
value itself is missing. -/
def readDocument (stop : Place) (tokens : List Token) : Option (Reading Value) :=
  (readValue stop (2 * tokens.length + 2) 0 tokens).map fun r =>
    if r.rest.isEmpty || r.rest.length == tokens.length then r
    else { r with defects := r.defects ++ [⟨nextPlace stop r.rest, .endExpected⟩] }

/-- The characters of a text behind a byte-order mark, which may stand at its start once. -/
def contentChars (text : String) : List Char :=
  match text.toList with
  | '\ufeff' :: rest => rest
  | cs => cs

/-- The value of a text, or all of its defects. -/
def parse (text : String) : Except (List Defect) Value :=
  let s := scan (contentChars text)
  match readDocument s.stop s.tokens with
  | none => .error s.defects
  | some r =>
    let defects := s.defects ++ r.defects
    if defects.isEmpty then .ok r.result else .error (Defect.inOrder defects)

end Telemetry.Json
