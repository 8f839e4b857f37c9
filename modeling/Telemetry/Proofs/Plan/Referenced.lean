import Mathlib.Logic.Relation
import Telemetry.Proofs.Plan.Acceptance

/-!
# The part of the pool that counts

A pool is a finite map, and a document looks up only the entries that its metrics refer to.

* `MetricEntry.Means.of_entries`: a metric means the same beside any pool that has the entries it
  refers to;
* `Document.plan_of_entries`: so a document keeps its plan with any valid pool that has these;
* `Document.Repooled` lists the changes of a pool that leave them alone, and `generate_of_repooled`
  says that the artifact stays the same through any number of them.
-/

namespace Telemetry

/-! ### Other pools -/

/-- Whether some metric of a document refers to an entry. -/
def Document.Refers (document : Document) (entry : MetadataEntry) : Prop :=
  ∃ m ∈ document.metrics, .reference ("$" ++ entry.key) ∈ m.metadata

instance (document : Document) (entry : MetadataEntry) : Decidable (document.Refers entry) :=
  inferInstanceAs (Decidable (∃ m ∈ document.metrics, _ ∈ m.metadata))

section Entries

variable {document other : Document}

/-- An element says the same in a document that has the entry it refers to. -/
theorem Document.Says.of_entries {element : MetadataElement} {d : MetadataDefinition}
    (h : document.Says element d)
    (kept : ∀ e ∈ document.metadata, element = .reference ("$" ++ e.key) → e ∈ other.metadata) :
    other.Says element d := by
  obtain ⟨entry, stands, valid, rfl⟩ := h
  cases stands with
  | inline => exact ⟨entry, .inline, valid, rfl⟩
  | reference inPool => exact ⟨entry, .reference (kept entry inPool rfl), valid, rfl⟩

/-- A metric means the same in a document that has the entries it refers to. -/
theorem MetricEntry.Means.of_entries {entry : MetricEntry} {m : Metric MetadataDefinition}
    (h : entry.Means document m)
    (kept : ∀ e ∈ document.metadata, .reference ("$" ++ e.key) ∈ entry.metadata →
      e ∈ other.metadata) : entry.Means other m := by
  refine ⟨h.snakeCase, h.name, h.unit, h.description, ?_⟩
  have inside := (List.forall₂_and_left (p := (· ∈ entry.metadata)) _ _).2 ⟨fun _ => id, h.metadata⟩
  refine inside.imp fun element d said => ?_
  obtain ⟨isElement, said⟩ := said
  exact said.of_entries fun e inPool isToken => kept e inPool (isToken ▸ isElement)

/-- The plan of a document is its plan with any valid pool that has the entries it refers to. -/
theorem Document.plan_of_entries {settings : Settings} {plan : Plan}
    (h : document.plan settings = .ok plan) (metrics : other.metrics = document.metrics)
    (pool : other.PoolValid)
    (kept : ∀ e ∈ document.metadata, document.Refers e → e ∈ other.metadata) :
    other.plan settings = .ok plan := by
  obtain ⟨sigils, ascending, -, resolved, means, planned⟩ := plan_eq_ok_iff.1 h
  have inside := (List.forall₂_and_left (p := (· ∈ document.metrics)) _ _).2 ⟨fun _ => id, means⟩
  have meansToo : List.Forall₂ (MetricEntry.Means other) document.metrics resolved := by
    refine inside.imp fun entry m meant => ?_
    obtain ⟨isMetric, meant⟩ := meant
    exact meant.of_entries fun e inPool refers => kept e inPool ⟨entry, isMetric, refers⟩
  rw [plan_eq_ok_iff, Sigils, metrics]
  exact ⟨sigils, ascending, pool, resolved, meansToo, planned⟩

end Entries

/-! ### Changes of the pool -/

/-- A change of the pool of a document that no metric takes notice of. -/
inductive Document.Repooled (document : Document) : Document → Prop
  /-- The entries change places. -/
  | permuted {entries : List MetadataEntry} : document.metadata.Perm entries →
      Repooled document { document with metadata := entries }
  /-- Valid entries are put in at any place, under names that are new and distinct. -/
  | enlarged {added entries : List MetadataEntry} :
      entries.Perm (document.metadata ++ added) → (∀ e ∈ added, e.Valid) →
      (added.map MetadataEntry.key).Nodup →
      (∀ e ∈ added, ∀ f ∈ document.metadata, e.key ≠ f.key) →
      Repooled document { document with metadata := entries }
  /-- Entries that no metric refers to are taken out. -/
  | reduced {removed entries : List MetadataEntry} :
      document.metadata.Perm (entries ++ removed) → (∀ e ∈ removed, ¬ document.Refers e) →
      Repooled document { document with metadata := entries }

namespace Document

variable {document other : Document}

/-- A pool is valid in whatever order its entries stand. -/
theorem PoolValid.of_perm (h : document.PoolValid) (perm : document.metadata.Perm other.metadata) :
    other.PoolValid where
  valid e there := h.valid e (perm.mem_iff.2 there)
  nodup := (perm.map MetadataEntry.key).nodup_iff.1 h.nodup

/-- The pool stays valid through a change. -/
theorem Repooled.poolValid (h : document.Repooled other) (pool : document.PoolValid) :
    other.PoolValid := by
  cases h with
  | permuted perm => exact pool.of_perm perm
  | @enlarged added entries perm valid nodup new =>
    have together : PoolValid { document with metadata := document.metadata ++ added } := by
      refine ⟨?_, ?_⟩
      · intro e there
        exact (List.mem_append.1 there).elim (pool.valid e) (valid e)
      · rw [List.map_append, List.nodup_append]
        refine ⟨pool.nodup, nodup, ?_⟩
        intro x hx y hy same
        obtain ⟨f, hf, rfl⟩ := List.mem_map.1 hx
        obtain ⟨e, he, rfl⟩ := List.mem_map.1 hy
        exact new e he f hf same.symm
    exact together.of_perm perm.symm
  | @reduced removed entries perm unused =>
    have together : PoolValid { document with metadata := entries ++ removed } := pool.of_perm perm
    refine ⟨fun e there => together.valid e (List.mem_append_left _ there), ?_⟩
    have nodup := together.nodup
    rw [List.map_append, List.nodup_append] at nodup
    exact nodup.1

/-- The entries that a metric refers to stay through a change. -/
theorem Repooled.mem_of_refers (h : document.Repooled other) {e : MetadataEntry}
    (there : e ∈ document.metadata) (refers : document.Refers e) : e ∈ other.metadata := by
  cases h with
  | permuted perm => exact perm.mem_iff.1 there
  | enlarged perm => exact perm.mem_iff.2 (List.mem_append_left _ there)
  | reduced perm unused =>
    rcases List.mem_append.1 (perm.mem_iff.1 there) with kept | removed
    · exact kept
    · exact absurd refers (unused e removed)

/-- The plan stays the same through a change. -/
theorem plan_of_repooled {settings : Settings} {plan : Plan} (h : document.Repooled other)
    (planned : document.plan settings = .ok plan) : other.plan settings = .ok plan := by
  have metrics : other.metrics = document.metrics := by
    cases h <;> rfl
  obtain ⟨-, -, pool, -⟩ := plan_eq_ok_iff.1 planned
  exact plan_of_entries planned metrics (h.poolValid pool) fun _ => h.mem_of_refers

/-- A document whose pool changes in nothing that its metrics refer to has the artifact that it
had. -/
theorem generate_of_repooled {settings : Settings} {text : String}
    (h : Relation.ReflTransGen Repooled document other)
    (generated : document.generate settings = .ok text) : other.generate settings = .ok text := by
  rw [generate_eq, Checked.bind_eq_ok_iff] at generated ⊢
  obtain ⟨plan, planned, rendered⟩ := generated
  refine ⟨plan, ?_, rendered⟩
  induction h with
  | refl => exact planned
  | tail _ step ih => exact plan_of_repooled step ih

/-- A pool entry with blanks around its name. -/
def regionEntry : MetadataEntry := { name := " region ", allowedValues := some ["eu", "us"] }

def zoneEntry : MetadataEntry := { name := "zone" }

def colourEntry : MetadataEntry := { name := "colour", kind := some "Int" }

/-- A document that refers to one of the two entries of its pool. -/
def regionDocument : Document where
  metadata := [regionEntry, zoneEntry]
  metrics := [{ name := "cache_hit", unit := "count", metadata := [.reference "$region"] }]

/-- The document with another entry in place of the one that it does not refer to. -/
def repooledDocument : Document :=
  { regionDocument with metadata := [colourEntry, regionEntry] }

theorem generate_of_repooledDocument :
    Relation.ReflTransGen Repooled regionDocument repooledDocument ∧
      ∃ text, regionDocument.generate {} = .ok text ∧ repooledDocument.generate {} = .ok text := by
  have swapped : regionDocument.Repooled
      { regionDocument with metadata := [zoneEntry, regionEntry] } :=
    .permuted (by decide)
  have valid : colourEntry.Valid := by
    refine ⟨by decide +kernel, ?_⟩
    intro word isKind
    cases isKind
    decide +kernel
  have larger : Repooled { regionDocument with metadata := [zoneEntry, regionEntry] }
      { regionDocument with metadata := [colourEntry, zoneEntry, regionEntry] } :=
    @Repooled.enlarged _ [colourEntry] _ (by decide) (List.forall_mem_singleton.2 valid)
      (List.nodup_singleton _) (by decide +kernel)
  have smaller : Repooled
      { regionDocument with metadata := [colourEntry, zoneEntry, regionEntry] }
      repooledDocument :=
    @Repooled.reduced _ [zoneEntry] _ (by decide) (by decide +kernel)
  have chain : Relation.ReflTransGen Repooled regionDocument repooledDocument :=
    ((Relation.ReflTransGen.single swapped).tail larger).tail smaller
  have generates : (regionDocument.generate {}).toOption.isSome = true := by decide +kernel
  obtain ⟨text, generated⟩ := Checked.isSome_toOption_iff.1 generates
  exact ⟨chain, text, generated, generate_of_repooled chain generated⟩

end Document

end Telemetry
