import Mathlib.Data.List.Nodup
import Telemetry.Metadata.Pool
import Telemetry.Proofs.Checked

/-!
# Valid entries and the pool that they make

* `MetadataEntry.Valid` is what an entry has to satisfy, and `MetadataEntry.definition` what it
  says then: `ofEntry_eq_ok_iff`;
* `exists_ofEntries_iff`: a pool is made exactly if all entries are valid and their trimmed names
  are distinct;
* `definitions_of_ofEntries`: the pool then holds what the entries say, in their order;
* `get?_eq_some_iff`: a name is found exactly if it is the name of a definition of the pool.
-/

namespace Telemetry

/-- The words for a kind, in lower case. -/
def kindWords : List String :=
  ["string", "int", "integer", "double", "number", "bool", "boolean"]

theorem MetadataKind.isSome_ofWord?_iff {word : String} :
    (ofWord? word).isSome = true ↔ (Text.trim word).toLower ∈ kindWords := by
  unfold ofWord? kindWords
  split <;> simp_all

namespace MetadataEntry

/-- The name that metrics refer to an entry by. -/
def key (entry : MetadataEntry) : String :=
  Text.trim entry.name

/-- Whether an entry has a name that is not blank, and a kind that is absent or known. -/
structure Valid (entry : MetadataEntry) : Prop where
  name : entry.key ≠ ""
  kind : ∀ word, entry.kind = some word → (Text.trim word).toLower ∈ kindWords

/-- The values that an entry allows, each once, in the order of their first occurrence. -/
def values (entry : MetadataEntry) : List String :=
  (entry.allowedValues.getD []).eraseDups

/-- What a valid entry says. -/
def definition (entry : MetadataEntry) : MetadataDefinition where
  name := entry.key
  kind := entry.kind.bind MetadataKind.ofWord?
  allowedValues := entry.values
  required := entry.required
  description := entry.description.bind Text.trimmed?

/-- A list without its repetitions has distinct items. -/
theorem nodup_eraseDups (values : List String) : values.eraseDups.Nodup := by
  induction isLength : values.length using Nat.strongRecOn generalizing values with
  | _ n ih =>
    cases values with
    | nil => exact List.nodup_nil
    | cons value rest =>
      rw [List.eraseDups_cons, List.nodup_cons, List.mem_eraseDups, List.mem_filter]
      refine ⟨?_, ih _ ?_ _ rfl⟩
      · intro there
        simp at there
      · have shorter := List.length_filter_le (fun other => !other == value) rest
        rw [← isLength, List.length_cons]
        omega

/-- The values that an entry allows are distinct. -/
theorem nodup_values (entry : MetadataEntry) : entry.values.Nodup :=
  nodup_eraseDups _

end MetadataEntry

theorem declaredKind_eq_ok_iff {metadata : String} {word : Option String}
    {kind : Option MetadataKind} :
    declaredKind metadata word = .ok kind ↔
      (∀ w, word = some w → (Text.trim w).toLower ∈ kindWords) ∧
        kind = word.bind MetadataKind.ofWord? := by
  cases word with
  | none =>
    simp only [declaredKind, Except.ok.injEq, reduceCtorEq, false_implies, implies_true, true_and,
      Option.bind_none]
    exact eq_comm
  | some w =>
    simp only [declaredKind, Option.some.injEq, forall_eq', Option.bind_some,
      ← MetadataKind.isSome_ofWord?_iff]
    cases MetadataKind.ofWord? w with
    | none => simp
    | some known =>
      simp only [Except.ok.injEq, Option.isSome_some, true_and]
      exact eq_comm

namespace MetadataDefinition

/-- The steps of checking an entry. -/
theorem ofEntry_eq (entry : MetadataEntry) :
    ofEntry entry = if entry.key = "" then .error (.schema .blankName) else
      (declaredKind entry.key entry.kind).map fun kind => { entry.definition with kind } := by
  unfold ofEntry
  by_cases blank : entry.key = ""
  · have isBlank : (Text.trim entry.name).isEmpty = true := String.isEmpty_iff.2 blank
    simp only [isBlank, if_true, if_pos blank]
    rfl
  · have notBlank : (Text.trim entry.name).isEmpty = false := by
      rw [Bool.eq_false_iff, ne_eq, String.isEmpty_iff]
      exact blank
    simp only [notBlank, Bool.false_eq_true, if_false, if_neg blank]
    rfl

theorem ofEntry_eq_ok_iff {entry : MetadataEntry} {d : MetadataDefinition} :
    ofEntry entry = .ok d ↔ entry.Valid ∧ d = entry.definition := by
  rw [ofEntry_eq]
  by_cases blank : entry.key = ""
  · rw [if_pos blank]
    constructor
    · intro h
      cases h
    · intro h
      exact absurd blank h.1.name
  · rw [if_neg blank]
    constructor
    · intro h
      obtain ⟨kind, known, rfl⟩ := Checked.map_eq_ok_iff.1 h
      obtain ⟨words, rfl⟩ := declaredKind_eq_ok_iff.1 known
      exact ⟨⟨blank, words⟩, rfl⟩
    · intro h
      obtain ⟨valid, rfl⟩ := h
      rw [declaredKind_eq_ok_iff.2 ⟨valid.kind, rfl⟩]
      rfl

end MetadataDefinition

namespace MetadataPool

theorem addEntry_eq_ok_iff {pool larger : MetadataPool} {entry : MetadataEntry} :
    pool.addEntry entry = .ok larger ↔
      entry.Valid ∧ entry.key ∉ pool.definitions.map MetadataDefinition.name ∧
        pool.insert? entry.definition = some larger := by
  unfold addEntry
  rw [Checked.bind_eq_ok_iff]
  constructor
  · intro h
    obtain ⟨d, checked, h⟩ := h
    obtain ⟨valid, rfl⟩ := MetadataDefinition.ofEntry_eq_ok_iff.1 checked
    cases found : pool.insert? entry.definition with
    | none =>
      rw [found] at h
      cases h
    | some grown =>
      rw [found] at h
      cases h
      refine ⟨valid, ?_, rfl⟩
      intro taken
      rw [insert?_eq_none_iff.2 taken] at found
      cases found
  · intro h
    obtain ⟨valid, -, found⟩ := h
    refine ⟨entry.definition, MetadataDefinition.ofEntry_eq_ok_iff.2 ⟨valid, rfl⟩, ?_⟩
    rw [found]
    rfl

theorem exists_addEntry_iff {pool : MetadataPool} {entry : MetadataEntry} :
    (∃ larger, pool.addEntry entry = .ok larger) ↔
      entry.Valid ∧ entry.key ∉ pool.definitions.map MetadataDefinition.name := by
  simp only [addEntry_eq_ok_iff, exists_and_left]
  constructor
  · intro h
    exact ⟨h.1, h.2.1⟩
  · intro h
    obtain ⟨valid, new⟩ := h
    refine ⟨valid, new, ?_⟩
    rw [← Option.isSome_iff_exists, Option.isSome_iff_ne_none, ne_eq, insert?_eq_none_iff]
    exact new

/-- Whether a pool holds what a list of entries says, in the order of the list. -/
def Holds (entries : List MetadataEntry) (pool : MetadataPool) : Prop :=
  pool.definitions = entries.map MetadataEntry.definition

theorem Holds.names {entries : List MetadataEntry} {pool : MetadataPool} (h : Holds entries pool) :
    pool.definitions.map MetadataDefinition.name = entries.map MetadataEntry.key := by
  rw [h, List.map_map]
  rfl

theorem Holds.addEntry {done : List MetadataEntry} {pool larger : MetadataPool}
    {entry : MetadataEntry} (h : Holds done pool) (step : pool.addEntry entry = .ok larger) :
    Holds (done ++ [entry]) larger := by
  obtain ⟨-, -, inserted⟩ := addEntry_eq_ok_iff.1 step
  show larger.definitions = _
  rw [definitions_of_insert? inserted, h, List.map_append]
  rfl

theorem holds_empty : Holds [] empty := rfl

/-- A pool holds what its entries say. -/
theorem holds_of_ofEntries {entries : List MetadataEntry} {pool : MetadataPool}
    (h : ofEntries entries = .ok pool) : Holds entries pool :=
  Checked.keeps_foldlM Holds (fun _ _ _ _ => Holds.addEntry) holds_empty h

/-- A pool is made exactly if all entries are valid and their names are distinct. -/
theorem exists_ofEntries_iff {entries : List MetadataEntry} :
    (∃ pool, ofEntries entries = .ok pool) ↔
      (∀ entry ∈ entries, entry.Valid) ∧ (entries.map MetadataEntry.key).Nodup := by
  have admits : ∀ (done : List MetadataEntry) (pool : MetadataPool) (entry : MetadataEntry),
      Holds done pool → ((∃ larger, pool.addEntry entry = .ok larger) ↔
        entry.Valid ∧ ∀ e ∈ done, e.key ≠ entry.key) := by
    intro done pool entry holds
    rw [exists_addEntry_iff, holds.names]
    simp
  rw [ofEntries, Checked.exists_foldlM_iff Holds (fun _ _ _ _ => Holds.addEntry) admits entries
    holds_empty, List.Nodup, List.pairwise_map]
  simp

/-- A name is found exactly if it is the name of a definition. -/
theorem get?_eq_some_iff {pool : MetadataPool} {name : String} {d : MetadataDefinition} :
    pool.get? name = some d ↔ d ∈ pool.definitions ∧ d.name = name := by
  have sound : ∀ {e}, pool.get? name = some e → e ∈ pool.definitions ∧ e.name = name := by
    intro e h
    have isName := List.find?_some h
    exact ⟨List.mem_of_find?_eq_some h, beq_iff_eq.1 isName⟩
  constructor
  · exact sound
  · intro h
    obtain ⟨there, isName⟩ := h
    cases found : pool.get? name with
    | none => exact absurd (beq_iff_eq.2 isName) (List.find?_eq_none.1 found d there)
    | some e =>
      obtain ⟨inside, same⟩ := sound found
      rw [List.inj_on_of_nodup_map pool.nodup inside there (same.trans isName.symm)]

end MetadataPool

end Telemetry
