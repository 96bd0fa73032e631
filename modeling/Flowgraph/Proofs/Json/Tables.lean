import Flowgraph.Json.Codec
import Mathlib.Data.List.Induction

/-! Tables as maps. A table that was read has every key once, so that an entry is found under its key; and what
    is set under one key is found there and nowhere else. -/

namespace Flowgraph.Json.Table

theorem entry?_cons (e : String × α) (t : Table α) (key : String) :
    Table.entry? (e :: t) key = if key = e.1 then some e.2 else Table.entry? t key := by
  rw [Table.entry?, List.lookup_cons]
  by_cases h : key = e.1
  · simp [h]
  · rw [if_neg h, beq_false_of_ne h]; rfl

theorem entry?_eq_none {t : Table α} {key : String} (h : key ∉ t.map Prod.fst) :
    Table.entry? t key = none := by
  induction t with
  | nil => rfl
  | cons e t ih =>
    rw [List.map_cons, List.mem_cons, not_or] at h
    rw [entry?_cons, if_neg h.1, ih h.2]

theorem entry?_of_mem {t : Table α} (distinct : (t.map Prod.fst).Nodup) {key : String} {a : α}
    (h : (key, a) ∈ t) : Table.entry? t key = some a := by
  induction t with
  | nil => cases h
  | cons e t ih =>
    obtain ⟨new, distinct⟩ := List.nodup_cons.mp distinct
    rw [entry?_cons]
    rcases List.mem_cons.mp h with rfl | later
    · exact if_pos rfl
    · have other : key ≠ e.1 := fun same => new (same ▸ List.mem_map_of_mem later)
      rw [if_neg other, ih distinct later]

/-- The entries of one kind, in a table without repetitions. -/
theorem entry?_filter {t : Table α} (distinct : (t.map Prod.fst).Nodup) (p : α → Bool) (key : String) :
    Table.entry? (t.filter fun e => p e.2) key = (Table.entry? t key).filter p := by
  induction t with
  | nil => rfl
  | cons e t ih =>
    obtain ⟨new, distinct⟩ := List.nodup_cons.mp distinct
    rw [List.filter_cons, entry?_cons]
    by_cases same : key = e.1
    · subst same
      have later : Table.entry? (t.filter fun e => p e.2) e.1 = none := by
        rw [ih distinct, entry?_eq_none new, Option.filter_none]
      by_cases chosen : p e.2
      · simp [chosen, entry?_cons, Option.filter_some]
      · simp [chosen, later, Option.filter_some]
    · rw [if_neg same, ← ih distinct]
      by_cases chosen : p e.2
      · simp [chosen, entry?_cons, same]
      · simp [chosen]

/-- To set the datum of one key changes that of no other. -/
theorem entry?_set (key : String) (a : α) (t : Table α) (k : String) :
    Table.entry? (set key a t) k = if k = key then some a else Table.entry? t k := by
  induction t with
  | nil => exact entry?_cons (key, a) [] k
  | cons e t ih =>
    rw [set]
    by_cases same : key = e.1
    · rw [if_pos same, entry?_cons, entry?_cons]
      by_cases here : k = key
      · rw [if_pos here, if_pos here]
      · rw [if_neg here, if_neg here, if_neg (same ▸ here)]
    · rw [if_neg same, entry?_cons, entry?_cons, ih]
      by_cases here : k = e.1
      · have other : ¬k = key := fun at_key => same (at_key.symm.trans here)
        rw [if_pos here, if_neg other, if_pos here]
      · rw [if_neg here, if_neg here]

theorem mem_map_fst_set {key : String} {a : α} {t : Table α} {k : String} :
    k ∈ (set key a t).map Prod.fst ↔ k = key ∨ k ∈ t.map Prod.fst := by
  induction t with
  | nil => simp [set]
  | cons e t ih =>
    rw [set]
    split
    · rename_i same
      simp [same]
    · simp only [List.map_cons, List.mem_cons, ih]
      exact or_left_comm

theorem nodup_set {t : Table α} (distinct : (t.map Prod.fst).Nodup) (key : String) (a : α) :
    ((set key a t).map Prod.fst).Nodup := by
  induction t with
  | nil => simp [set]
  | cons e t ih =>
    obtain ⟨new, distinct'⟩ := List.nodup_cons.mp distinct
    rw [set]
    split
    · rename_i same
      rw [List.map_cons, same]
      exact distinct
    · rename_i other
      rw [List.map_cons, List.nodup_cons, mem_map_fst_set]
      exact ⟨not_or.mpr ⟨Ne.symm other, new⟩, ih distinct'⟩

/-- A table that was read has every name once. -/
theorem nodup_ofList (entries : List (String × α)) : ((ofList entries).map Prod.fst).Nodup := by
  induction entries using List.reverseRecOn with
  | nil => exact List.nodup_nil
  | append_singleton entries e ih =>
    rw [ofList, List.foldl_append]
    exact nodup_set ih e.1 e.2

end Flowgraph.Json.Table
