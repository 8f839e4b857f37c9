import Telemetry.Number.Binary64

/-!
# JSON values

A value has one representation: whole numbers in the 64-bit ranges are integers, all other numbers
are double-precision words, and the members of an object stand in ascending order of their keys,
each key once.  The order of keys is that of their code points, which is also the order of their
bytes in UTF-8.

* `Members.insert` keeps that order, and keeps the member that is there already;
* `Members.get?` and `Members.without` look a key up and take it out.
-/

namespace Telemetry.Json

/-- A number: an integer from `-2 ^ 63` to `2 ^ 64 - 1`, or a finite double-precision number. -/
inductive Number where
  | integer (value : Int)
  | double (word : Binary64)
  deriving DecidableEq, Repr

/-- A JSON value. -/
inductive Value where
  | null
  | bool (value : Bool)
  | number (value : Number)
  | text (value : String)
  | list (items : List Value)
  | object (members : List (String × Value))
  deriving Repr, Inhabited

/-- The members of an object. -/
abbrev Members := List (String × Value)

namespace Members

/-- The value of a key. -/
def get? (members : Members) (key : String) : Option Value :=
  List.lookup key members

/-- Whether a key is there. -/
def has (members : Members) (key : String) : Bool :=
  members.any fun member => member.1 == key

/-- Puts a member in its place; a key that is there already keeps its value. -/
def insert (key : String) (value : Value) : Members → Members
  | [] => [(key, value)]
  | member :: rest =>
    if key < member.1 then (key, value) :: member :: rest
    else if key = member.1 then member :: rest
    else member :: insert key value rest

/-- The members without those of the key. -/
def without (members : Members) (key : String) : Members :=
  members.filter fun member => member.1 != key

/-- The keys. -/
def keys (members : Members) : List String :=
  members.map Prod.fst

@[simp] theorem get?_without_self (members : Members) (key : String) :
    get? (members.without key) key = none := by
  simp only [get?, without, List.lookup_eq_none_iff, List.mem_filter, bne_iff_ne]
  rintro member ⟨_, h⟩
  simpa using Ne.symm h

end Members

end Telemetry.Json
