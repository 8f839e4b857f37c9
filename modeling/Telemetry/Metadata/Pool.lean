import Telemetry.Metadata.Definition

/-!
# The pool

The pool holds the metadata definitions that metrics may refer to by name.  Names are compared as
they are after trimming, and no two definitions of a pool share one.

* `MetadataPool.ofEntries` checks the entries one after the other and stops at the first that is
  invalid or repeats a name;
* `MetadataPool.get?` finds the definition of a name.
-/

namespace Telemetry

/-- Definitions with distinct names, in the order given. -/
structure MetadataPool where
  definitions : List MetadataDefinition
  nodup : (definitions.map MetadataDefinition.name).Nodup

namespace MetadataPool

/-- The pool that holds nothing. -/
def empty : MetadataPool := ⟨[], .nil⟩

/-- The definition of a name. -/
def get? (pool : MetadataPool) (name : String) : Option MetadataDefinition :=
  pool.definitions.find? fun d => d.name == name

/-- The pool with one more definition, unless its name is taken. -/
def insert? (pool : MetadataPool) (d : MetadataDefinition) : Option MetadataPool :=
  if fresh : d.name ∈ pool.definitions.map MetadataDefinition.name then none
  else some {
    definitions := pool.definitions ++ [d]
    nodup := by
      rw [List.map_append, List.nodup_append]
      refine ⟨pool.nodup, by simp, ?_⟩
      intro a ha b hb hab
      simp only [List.map_cons, List.map_nil, List.mem_singleton] at hb
      exact fresh (hb ▸ hab ▸ ha) }

/-- Checks an entry and adds it. -/
def addEntry (pool : MetadataPool) (entry : MetadataEntry) : Checked MetadataPool := do
  let d ← MetadataDefinition.ofEntry entry
  match pool.insert? d with
  | some larger => return larger
  | none => throw (.duplicateName d.name)

/-- The pool of a list of entries. -/
def ofEntries (entries : List MetadataEntry) : Checked MetadataPool :=
  entries.foldlM addEntry empty

@[simp] theorem get?_empty (name : String) : empty.get? name = none := rfl

theorem definitions_of_insert? {pool larger : MetadataPool} {d : MetadataDefinition}
    (h : pool.insert? d = some larger) : larger.definitions = pool.definitions ++ [d] := by
  unfold insert? at h
  split at h
  · simp at h
  · cases h
    rfl

theorem insert?_eq_none_iff {pool : MetadataPool} {d : MetadataDefinition} :
    pool.insert? d = none ↔ d.name ∈ pool.definitions.map MetadataDefinition.name := by
  unfold insert?
  split <;> simp_all

end MetadataPool

end Telemetry
