import Flowgraph.Catalog
import Mathlib.Data.List.Basic

/-! The prepared catalog against the catalog itself. Each entry that is added takes the references that no
    earlier entry of its kind and toolkit has, so the slot of a reference is the place of the first entry
    that it names, and what the index finds is what a scan from front to back would find first. -/

namespace Flowgraph

/-! ### Slots -/

/-- A new slot counts only where there was none. -/
theorem SlotTable.slot?_enter (t : SlotTable) (toolkit : String) (slot : Nat) (ref : String)
    (toolkit' ref' : String) :
    (t.enter toolkit slot ref).slot? toolkit' ref'
      = (t.slot? toolkit' ref').or
        (if toolkit = toolkit' ∧ ref = ref' ∧ ref' ≠ "" then some slot else none) := by
  rw [enter]
  by_cases empty : ref = ""
  · have none_named : ¬(toolkit = toolkit' ∧ ref = ref' ∧ ref' ≠ "") := by
      rintro ⟨-, rfl, ne⟩
      exact ne empty
    rw [if_pos empty, if_neg none_named, Option.or_none]
  rw [if_neg empty, slot?, slot?, Std.TreeMap.getElem?_alter]
  by_cases here : toolkit = toolkit'
  · subst here
    have old (ref' : String) : (t[toolkit]?.getD ∅)[ref']? = t[toolkit]?.bind (·[ref']?) := by
      cases t[toolkit]? <;> simp
    have there : ref ∈ t[toolkit]?.getD ∅ ↔ (t[toolkit]?.bind (·[ref]?)).isSome := by
      rw [Std.TreeMap.mem_iff_isSome_getElem?, old]
    rw [if_pos (Std.LawfulEqCmp.compare_eq_iff_eq.mpr rfl), Option.bind_some,
      Std.TreeMap.getElem?_insertIfNew, old]
    by_cases same : ref = ref'
    · subst same
      cases known : t[toolkit]?.bind (·[ref]?) <;> simp [there, known, empty]
    · simp [same]
  · simp [here]

/-- An entry is entered under each of its references. -/
theorem CatalogIndex.slot?_enter (t : SlotTable) (toolkit : String) (e : CatalogEntry) (slot : Nat)
    (toolkit' ref : String) :
    (CatalogIndex.enter t toolkit e slot).slot? toolkit' ref
      = (t.slot? toolkit' ref).or
        (if toolkit = toolkit' ∧ e.answersTo ref ∧ ref ≠ "" then some slot else none) := by
  simp only [enter, List.foldl_cons, List.foldl_nil, SlotTable.slot?_enter, Option.or_assoc]
  congr 1
  by_cases here : toolkit = toolkit' <;> by_cases id : e.id = ref <;>
    by_cases slug : e.slug = ref <;> by_cases empty : ref = "" <;>
    simp [CatalogEntry.answersTo, here, id, slug, empty]

/-! ### The row of entries -/

/-- All entries with their kinds and places, in the order in which they are added: toolkit by toolkit, the
    triggers of each before its actions. -/
def Catalog.row (c : Catalog) : List (EntryKind × CatalogHit) :=
  c.providers.flatMap fun (provider, p) =>
    p.toolkits.flatMap fun (slug, t) =>
      t.triggers.map (fun e => (.trigger, ⟨provider, slug, t.icon, e⟩))
        ++ t.actions.map fun e => (.action, ⟨provider, slug, t.icon, e⟩)

/-- The entries of a kind are those of the row. -/
theorem Catalog.placed_eq (c : Catalog) (kind : EntryKind) :
    c.placed kind = (c.row.filter (·.1 = kind)).map Prod.snd := by
  have ofToolkit (provider slug : String) (t : Toolkit) :
      (t.entries kind).map (fun e => (⟨provider, slug, t.icon, e⟩ : CatalogHit))
        = ((t.triggers.map (fun e => (EntryKind.trigger, CatalogHit.mk provider slug t.icon e))
          ++ t.actions.map fun e => (EntryKind.action, CatalogHit.mk provider slug t.icon e)).filter
            (·.1 = kind)).map Prod.snd := by
    cases kind <;> simp [Toolkit.entries, List.filter_map, Function.comp_def]
  simp only [placed, row, List.filter_flatMap, List.map_flatMap, ofToolkit]

namespace CatalogIndex

/-- Whether an entry of the row is of the kind and the reference names it in the toolkit. -/
def names (kind : EntryKind) (toolkit ref : String) (x : EntryKind × CatalogHit) : Bool :=
  x.1 = kind ∧ x.2.toolkitSlug = toolkit ∧ x.2.entry.answersTo ref ∧ ref ≠ ""

/-- A scan of the catalog is one of the row. -/
theorem scan_eq (c : Catalog) (kind : EntryKind) (toolkit ref : String) :
    c.scan kind toolkit ref = (c.row.find? (names kind toolkit ref)).map Prod.snd := by
  rw [Catalog.scan, Catalog.placed_eq]
  by_cases empty : ref = ""
  · have unnamed : names kind toolkit ref = fun _ => false := funext fun _ => by simp [names, empty]
    rw [if_pos empty, unnamed, List.find?_eq_none.mpr (by simp), Option.map_none]
  · rw [if_neg empty, List.find?_map, List.find?_filter]
    congr 2
    funext x
    by_cases own : x.1 = kind <;> by_cases here : x.2.toolkitSlug = toolkit <;>
      simp [names, empty, own, here]

/-! ### The index of a row -/

variable {ix : CatalogIndex} {row : List (EntryKind × CatalogHit)}

/-- The index holds the entries of a row in their order, and for each reference the place of the first
    one that it names. -/
structure Indexes (ix : CatalogIndex) (row : List (EntryKind × CatalogHit)) : Prop where
  hits : ix.hits.toList = row.map Prod.snd
  slots : ∀ kind toolkit ref,
    (ix.table kind).slot? toolkit ref = row.findIdx? (names kind toolkit ref)

theorem indexes_empty : Indexes empty [] where
  hits := rfl
  slots kind toolkit ref := by cases kind <;> simp [empty, table, SlotTable.slot?]

theorem hits_add (kind : EntryKind) (ix : CatalogIndex) (h : CatalogHit) :
    (add kind ix h).hits = ix.hits.push h := by
  cases kind <;> rfl

/-- An entry is entered into the table of its kind and no other. -/
theorem table_add (kind other : EntryKind) (ix : CatalogIndex) (h : CatalogHit) :
    (add other ix h).table kind
      = if other = kind then enter (ix.table kind) h.toolkitSlug h.entry ix.hits.size
        else ix.table kind := by
  cases kind <;> cases other <;> rfl

/-- One more entry takes the references that no entry before it has. -/
theorem Indexes.add (indexes : Indexes ix row) (kind : EntryKind) (h : CatalogHit) :
    Indexes (add kind ix h) (row ++ [(kind, h)]) where
  hits := by rw [hits_add, Array.toList_push, indexes.hits, List.map_append, List.map_singleton]
  slots kind' toolkit ref := by
    have size : ix.hits.size = row.length := by
      rw [Array.size_eq_length_toList, indexes.hits, List.length_map]
    rw [List.findIdx?_append, List.findIdx?_singleton, ← indexes.slots, table_add]
    by_cases own : kind = kind'
    · rw [if_pos own, slot?_enter, size]
      congr 1
      by_cases named : h.toolkitSlug = toolkit ∧ h.entry.answersTo ref ∧ ref ≠ ""
      · simp [names, own, named]
      · rw [if_neg named, if_neg (by simpa [names, own] using named), Option.map_none]
    · simp [names, own]

/-- What each step adds is in the index after all steps, in their order. -/
theorem Indexes.foldl {f : CatalogIndex → α → CatalogIndex}
    {g : α → List (EntryKind × CatalogHit)}
    (step : ∀ {ix row}, Indexes ix row → ∀ a, Indexes (f ix a) (row ++ g a)) (xs : List α)
    (indexes : Indexes ix row) : Indexes (xs.foldl f ix) (row ++ xs.flatMap g) := by
  induction xs generalizing ix row with
  | nil => simpa using indexes
  | cons x xs ih =>
    rw [List.foldl_cons, List.flatMap_cons, ← List.append_assoc]
    exact ih (step indexes x)

theorem Indexes.addToolkit (indexes : Indexes ix row) (provider slug : String) (t : Toolkit) :
    Indexes (addToolkit provider slug ix t)
      (row ++ (t.triggers.map (fun e => (.trigger, ⟨provider, slug, t.icon, e⟩))
        ++ t.actions.map fun e => (.action, ⟨provider, slug, t.icon, e⟩))) := by
  have entries (kind : EntryKind) (es : List CatalogEntry) {ix : CatalogIndex}
      {row : List (EntryKind × CatalogHit)} (indexes : Indexes ix row) :
      Indexes ((es.map fun e => CatalogHit.mk provider slug t.icon e).foldl (CatalogIndex.add kind) ix)
        (row ++ es.map fun e => (kind, ⟨provider, slug, t.icon, e⟩)) := by
    rw [List.foldl_map, List.map_eq_flatMap]
    exact indexes.foldl (fun indexes e => indexes.add kind ⟨provider, slug, t.icon, e⟩) es
  rw [← List.append_assoc]
  exact entries .action t.actions (entries .trigger t.triggers indexes)

/-- The prepared catalog is the index of the catalog's row. -/
theorem indexes_build (c : Catalog) : Indexes (build c) c.row := by
  have all := indexes_empty.foldl (f := fun ix p =>
      p.2.toolkits.foldl (fun ix t => CatalogIndex.addToolkit p.1 t.1 ix t.2) ix)
    (fun indexes p => indexes.foldl (fun indexes t => indexes.addToolkit p.1 t.1 t.2) p.2.toolkits)
    c.providers
  exact all

/-! ### Finding -/

theorem Indexes.find?_eq (indexes : Indexes ix row) (kind : EntryKind) (toolkit ref : String) :
    ix.find? kind toolkit ref = (row.find? (names kind toolkit ref)).map Prod.snd := by
  rw [find?, indexes.slots, List.find?_eq_bind_findIdx?_getElem?, Option.map_bind]
  congr 1
  funext slot
  rw [← Array.getElem?_toList, indexes.hits, List.getElem?_map]
  rfl

/-- The index finds what a scan of the catalog finds. -/
theorem find?_build (c : Catalog) (kind : EntryKind) (toolkit ref : String) :
    (build c).find? kind toolkit ref = c.scan kind toolkit ref := by
  rw [(indexes_build c).find?_eq, scan_eq]

/-- A slot is the place of an entry of the kind that was asked for. -/
theorem Indexes.of_slot? (indexes : Indexes ix row) {kind : EntryKind} {toolkit ref : String}
    {slot : Nat} (found : (ix.table kind).slot? toolkit ref = some slot) :
    ∃ hit, row[slot]? = some (kind, hit) ∧ ix.hits[slot]? = some hit := by
  rw [indexes.slots, List.findIdx?_eq_some_iff_getElem] at found
  obtain ⟨inside, named, -⟩ := found
  have own : row[slot].1 = kind := by
    simp only [names, decide_eq_true_eq] at named
    exact named.1
  have there : row[slot]? = some (kind, row[slot].2) := by
    rw [List.getElem?_eq_getElem inside, ← own]
  exact ⟨row[slot].2, there, by rw [← Array.getElem?_toList, indexes.hits, List.getElem?_map, there]; rfl⟩

/-- The prepared catalog answers as a scan from front to back. The slot it holds for a reference is the place
    of the first entry that the reference names, which is a place among the hits and of no entry of the
    other kind, so the two tables have no slot in common. -/
theorem build_agrees_with_scan (c : Catalog) (kind : EntryKind) (toolkit ref : String) :
    (build c).find? kind toolkit ref = c.scan kind toolkit ref ∧
    ((build c).table kind).slot? toolkit ref = c.row.findIdx? (names kind toolkit ref) ∧
    ∀ slot, ((build c).table kind).slot? toolkit ref = some slot →
      slot < (build c).hits.size ∧
      (∃ hit, c.row[slot]? = some (kind, hit) ∧ (build c).hits[slot]? = some hit) ∧
      ∀ other toolkit' ref', other ≠ kind →
        ((build c).table other).slot? toolkit' ref' ≠ some slot := by
  refine ⟨find?_build c kind toolkit ref, (indexes_build c).slots kind toolkit ref, ?_⟩
  intro slot found
  obtain ⟨hit, placed, there⟩ := (indexes_build c).of_slot? found
  refine ⟨(Array.getElem?_eq_some_iff.mp there).1, ⟨hit, placed, there⟩, ?_⟩
  intro other toolkit' ref' ne found'
  obtain ⟨hit', placed', -⟩ := (indexes_build c).of_slot? found'
  rw [placed] at placed'
  exact ne (Prod.mk.inj (Option.some.inj placed')).1.symm

/-- Two providers with a toolkit of one name. The slug of the first trigger is the id of the second and of an
    action, and the third has the id of the first for its slug. -/
def crossedCatalog : Catalog :=
  let entry (id slug : String) : CatalogEntry := ⟨id, slug, none, none, [], .none, []⟩
  ⟨[("acme", ⟨[("mail", ⟨some "envelope", [entry "m1" "new"], [entry "new" ""]⟩)]⟩),
    ("globex", ⟨[("mail", ⟨none, [entry "new" "m2", entry "" "m1"], []⟩)]⟩)]⟩

theorem build_agrees_with_scan_crossed :
    ((build crossedCatalog).table .trigger).slot? "mail" "new" = some 0 ∧
    ((build crossedCatalog).table .action).slot? "mail" "new" = some 1 ∧
    (build crossedCatalog).find? .trigger "mail" "new"
      = crossedCatalog.scan .trigger "mail" "new" ∧
    (crossedCatalog.scan .trigger "mail" "new").map (fun h => (h.provider, h.toolkitIcon, h.entry.id))
      = some ("acme", some "envelope", "m1") ∧
    crossedCatalog.scan .trigger "mail" "" = none ∧
    ((build crossedCatalog).table .action).slot? "mail" "m2" ≠ some 0 := by
  have slot : ((build crossedCatalog).table .trigger).slot? "mail" "new" = some 0 := by
    decide +kernel
  obtain ⟨same, -, apart⟩ := build_agrees_with_scan crossedCatalog .trigger "mail" "new"
  exact ⟨slot, by decide +kernel, same, by decide +kernel, by decide +kernel,
    (apart 0 slot).2.2 .action "mail" "m2" (by decide)⟩

end CatalogIndex

end Flowgraph
