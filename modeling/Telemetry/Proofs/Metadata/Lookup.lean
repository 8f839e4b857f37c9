import Telemetry.Proofs.Metadata.Pool

/-!
# The pool as a map of its entries

A pool finds under each name what the entry with that name says, and nothing under any other name.
Entries that make no pool are refused at the first of them that is wrong in itself or repeats the
name of an earlier one.

* `MetadataEntry.Flawed` is how an entry is wrong in itself, and `ofEntry_eq_error_iff` says that
  checking it finds this;
* `MetadataEntry.Refused` is how an entry is refused behind others: `addEntry_eq_error_iff`;
* `MetadataPool.Maps` is what a pool finds;
* `ofEntries_exact`: when a pool is made, what it finds then, and how making it fails otherwise.
-/

namespace Telemetry

namespace MetadataEntry

/-- How an entry is wrong in itself: its name is blank, or else its kind is none of the known
words. -/
inductive Flawed (entry : MetadataEntry) : Fault → Prop
  | name : entry.key = "" → Flawed entry (.schema .blankName)
  | kind {word : String} : entry.key ≠ "" → entry.kind = some word →
      (Text.trim word).toLower ∉ kindWords → Flawed entry (.unsupportedKind entry.key word)

/-- How an entry is refused behind some others: it is wrong in itself, or else has the name of one
of them. -/
inductive Refused (earlier : List MetadataEntry) (entry : MetadataEntry) : Fault → Prop
  | flawed {fault : Fault} : entry.Flawed fault → Refused earlier entry fault
  | repeated {e : MetadataEntry} : entry.Valid → e ∈ earlier → e.key = entry.key →
      Refused earlier entry (.duplicateName entry.key)

end MetadataEntry

theorem declaredKind_eq_error_iff {metadata : String} {kind : Option String} {fault : Fault} :
    declaredKind metadata kind = .error fault ↔
      ∃ word, kind = some word ∧ (Text.trim word).toLower ∉ kindWords ∧
        fault = .unsupportedKind metadata word := by
  cases kind with
  | none => simp [declaredKind]
  | some word =>
    simp only [declaredKind, Option.some.injEq, exists_eq_left', ← MetadataKind.isSome_ofWord?_iff]
    cases MetadataKind.ofWord? word with
    | none => simp [@eq_comm _ fault]
    | some known => simp

/-- Checking an entry finds how it is wrong. -/
theorem MetadataDefinition.ofEntry_eq_error_iff {entry : MetadataEntry} {fault : Fault} :
    ofEntry entry = .error fault ↔ entry.Flawed fault := by
  rw [ofEntry_eq]
  by_cases blank : entry.key = ""
  · rw [if_pos blank]
    constructor
    · intro h
      cases h
      exact .name blank
    · intro h
      cases h with
      | name => rfl
      | kind named => exact absurd blank named
  · rw [if_neg blank]
    refine Checked.map_eq_error_iff.trans (declaredKind_eq_error_iff.trans ?_)
    constructor
    · intro h
      obtain ⟨word, isKind, unknown, rfl⟩ := h
      exact .kind blank isKind unknown
    · intro h
      cases h with
      | name isBlank => exact absurd isBlank blank
      | kind _ isKind unknown => exact ⟨_, isKind, unknown, rfl⟩

namespace MetadataPool

variable {entries : List MetadataEntry} {pool : MetadataPool}

/-- How an entry is refused by a pool that holds others. -/
theorem addEntry_eq_error_iff (holds : pool.Holds entries) {entry : MetadataEntry}
    {fault : Fault} :
    pool.addEntry entry = .error fault ↔ entry.Refused entries fault := by
  have taken : pool.insert? entry.definition = none ↔ ∃ e ∈ entries, e.key = entry.key := by
    rw [insert?_eq_none_iff, holds.names, List.mem_map]
    rfl
  rw [addEntry, Checked.bind_eq_error_iff, MetadataDefinition.ofEntry_eq_error_iff]
  constructor
  · intro h
    rcases h with flawed | ⟨d, checked, h⟩
    · exact .flawed flawed
    · obtain ⟨valid, rfl⟩ := MetadataDefinition.ofEntry_eq_ok_iff.1 checked
      cases inserted : pool.insert? entry.definition with
      | some larger =>
        rw [inserted] at h
        cases h
      | none =>
        rw [inserted] at h
        cases h
        obtain ⟨e, there, same⟩ := taken.1 inserted
        exact .repeated valid there same
  · intro h
    cases h with
    | flawed flawed => exact .inl flawed
    | repeated valid there same =>
      have checked := MetadataDefinition.ofEntry_eq_ok_iff.2 ⟨valid, rfl⟩
      refine .inr ⟨entry.definition, checked, ?_⟩
      rw [taken.2 ⟨_, there, same⟩]
      rfl

/-- Whether a pool finds under each name what the entry with that name says, and nothing under other
names. -/
structure Maps (entries : List MetadataEntry) (pool : MetadataPool) : Prop where
  found : ∀ name d, pool.get? name = some d ↔
    ∃ entry ∈ entries, entry.key = name ∧ d = entry.definition
  absent : ∀ name, pool.get? name = none ↔ ∀ entry ∈ entries, entry.key ≠ name

theorem Holds.maps (h : pool.Holds entries) : pool.Maps entries := by
  have found : ∀ name d, pool.get? name = some d ↔
      ∃ entry ∈ entries, entry.key = name ∧ d = entry.definition := by
    intro name d
    rw [get?_eq_some_iff, h, List.mem_map]
    constructor
    · intro there
      obtain ⟨⟨entry, there, rfl⟩, rfl⟩ := there
      exact ⟨entry, there, rfl, rfl⟩
    · intro there
      obtain ⟨entry, there, rfl, rfl⟩ := there
      exact ⟨⟨entry, there, rfl⟩, rfl⟩
  refine ⟨found, ?_⟩
  intro name
  rw [Option.eq_none_iff_forall_ne_some]
  constructor
  · intro none entry there same
    exact none entry.definition ((found _ _).2 ⟨entry, there, same, rfl⟩)
  · intro none d isFound
    obtain ⟨entry, there, same, -⟩ := (found _ _).1 isFound
    exact none entry there same

/-- Making a pool fails at the first entry that is refused, whatever follows it. -/
theorem ofEntries_eq_error_iff {fault : Fault} :
    ofEntries entries = .error fault ↔ ∃ front entry behind,
      entries = front ++ entry :: behind ∧ (∀ e ∈ front, e.Valid) ∧
        (front.map MetadataEntry.key).Nodup ∧ entry.Refused front fault := by
  rw [ofEntries, Checked.foldlM_eq_error_iff]
  constructor
  · intro h
    obtain ⟨front, entry, behind, pool, split, made, fails⟩ := h
    obtain ⟨valid, nodup⟩ := exists_ofEntries_iff.1 ⟨pool, made⟩
    exact ⟨front, entry, behind, split, valid, nodup,
      (addEntry_eq_error_iff (holds_of_ofEntries made)).1 fails⟩
  · intro h
    obtain ⟨front, entry, behind, split, valid, nodup, refused⟩ := h
    obtain ⟨pool, made⟩ := exists_ofEntries_iff.2 ⟨valid, nodup⟩
    exact ⟨front, entry, behind, pool, split, made,
      (addEntry_eq_error_iff (holds_of_ofEntries made)).2 refused⟩

/-- A pool is made exactly if all entries are valid and their trimmed names are distinct, and it is
then the map from these names to what the entries say.  Otherwise the first entry is refused that is
wrong in itself or has the name of an earlier one, whatever follows it. -/
theorem ofEntries_exact (entries : List MetadataEntry) :
    ((∃ pool, ofEntries entries = .ok pool) ↔
      (∀ entry ∈ entries, entry.Valid) ∧ (entries.map MetadataEntry.key).Nodup) ∧
    (∀ pool, ofEntries entries = .ok pool → pool.Maps entries) ∧
    ∀ fault, ofEntries entries = .error fault ↔ ∃ front entry behind,
      entries = front ++ entry :: behind ∧ (∀ e ∈ front, e.Valid) ∧
        (front.map MetadataEntry.key).Nodup ∧ entry.Refused front fault :=
  ⟨exists_ofEntries_iff, fun _ made => (holds_of_ofEntries made).maps,
    fun _ => ofEntries_eq_error_iff⟩

/-- Entries with blanks around their names and kinds. -/
def paddedEntries : List MetadataEntry :=
  [{ name := " result\n", allowedValues := some ["ok", "failed", "ok"] },
    { name := "runtime", kind := some " INT " }]

/-- Entries of which the second has the name of the first and an unknown kind too, and the third has
no name. -/
def flawedEntries : List MetadataEntry :=
  [{ name := "runtime" }, { name := " runtime ", kind := some "Float" }, { name := "" }]

theorem ofEntries_exact_of_paddedEntries :
    (∃ pool, ofEntries paddedEntries = .ok pool ∧ pool.Maps paddedEntries ∧
      pool.get? "result" = some ⟨"result", none, ["ok", "failed"], false, none⟩ ∧
      pool.get? " result\n" = none) ∧
    ofEntries flawedEntries = .error (.unsupportedKind "runtime" "Float") := by
  have succeeds : (ofEntries paddedEntries).toOption.isSome = true := by decide +kernel
  obtain ⟨pool, made⟩ := Checked.isSome_toOption_iff.1 succeeds
  have maps := (ofEntries_exact paddedEntries).2.1 pool made
  refine ⟨⟨pool, made, maps, ?_, ?_⟩, ?_⟩
  · exact (maps.found _ _).2 ⟨_, List.mem_cons_self, by decide +kernel, by decide +kernel⟩
  · exact (maps.absent _).2 (by decide +kernel)
  · have key : MetadataEntry.key { name := " runtime ", kind := some "Float" } = "runtime" := by
      decide +kernel
    refine ((ofEntries_exact flawedEntries).2.2 _).2
      ⟨[{ name := "runtime" }], { name := " runtime ", kind := some "Float" }, [{ name := "" }],
        rfl, ?_, by decide +kernel, ?_⟩
    · intro e there
      rw [List.mem_singleton.1 there]
      exact ⟨by decide +kernel, fun word isKind => by cases isKind⟩
    · rw [← key]
      exact .flawed (.kind (by decide +kernel) rfl (by decide +kernel))

end MetadataPool

end Telemetry
