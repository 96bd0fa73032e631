import Flowgraph.Json.Value
import Mathlib.Data.List.Induction
import Mathlib.Data.String.Basic

/-! Objects in key order. Such an object is determined by the values under its keys; building one from a
    list of members keeps the last of each key; and to put a value into canonical form a second time
    changes nothing. -/

namespace Flowgraph.Json

namespace Object

/-- The value of the last member of a key. -/
def last? (ms : Object) (key : String) : Option Value := member? ms.reverse key

theorem member?_cons (m : String × Value) (o : Object) (key : String) :
    member? (m :: o) key = if key = m.1 then some m.2 else member? o key := by
  rw [member?, List.lookup_cons]
  by_cases h : key = m.1
  · simp [h]
  · rw [if_neg h, beq_false_of_ne h]; rfl

theorem member?_append (o o' : Object) (key : String) :
    member? (o ++ o') key = (member? o key).or (member? o' key) := List.lookup_append ..

theorem last?_append (ms ms' : Object) (key : String) :
    last? (ms ++ ms') key = (last? ms' key).or (last? ms key) := by
  rw [last?, List.reverse_append, member?_append]; rfl

theorem last?_singleton (m : String × Value) (key : String) :
    last? [m] key = if key = m.1 then some m.2 else none := member?_cons m [] key

theorem last?_cons (m : String × Value) (ms : Object) (key : String) :
    last? (m :: ms) key = (last? ms key).or (if key = m.1 then some m.2 else none) := by
  rw [← List.singleton_append, last?_append, last?_singleton]

/-- A key that no member has leads to nothing. -/
theorem member?_eq_none {o : Object} {key : String} (h : ∀ m ∈ o, m.1 ≠ key) :
    member? o key = none := by
  induction o with
  | nil => rfl
  | cons m o ih =>
    rw [member?_cons, if_neg fun e => h m (List.mem_cons_self ..) e.symm]
    exact ih fun n hn => h n (List.mem_cons_of_mem _ hn)

theorem last?_eq_none {ms : Object} {key : String} (h : ∀ m ∈ ms, m.1 ≠ key) :
    last? ms key = none :=
  member?_eq_none fun m hm => h m (List.mem_reverse.mp hm)

theorem exists_mem_of_member? {o : Object} {key : String} {v : Value}
    (h : member? o key = some v) : (key, v) ∈ o := by
  obtain ⟨before, after, rfl, -⟩ := List.lookup_eq_some_iff.mp h
  exact List.mem_append_right _ (List.mem_cons_self ..)

theorem member?_filter (p : String → Bool) (o : Object) (key : String) :
    member? (o.filter fun m => p m.1) key = if p key then member? o key else none := by
  induction o with
  | nil => exact (ite_self none).symm
  | cons m o ih =>
    rw [List.filter_cons, member?_cons]
    by_cases kept : p m.1
    · rw [if_pos kept, member?_cons, ih]
      by_cases same : key = m.1 <;> simp [same, kept]
    · rw [if_neg kept, ih]
      by_cases same : key = m.1 <;> simp [same, kept]

/-! ### Putting a member at its place -/

theorem member?_put (key : String) (v : Value) (o : Object) (k : String) :
    member? (put key v o) k = if k = key then some v else member? o k := by
  induction o with
  | nil => exact member?_cons (key, v) [] k
  | cons m o ih =>
    obtain ⟨key', w⟩ := m
    rw [put]
    by_cases same : key = key'
    · subst same
      rw [if_pos rfl, member?_cons, member?_cons]
      by_cases h : k = key <;> simp [h]
    · rw [if_neg same]
      by_cases less : key < key'
      · rw [if_pos less, member?_cons]
      · rw [if_neg less, member?_cons, member?_cons, ih]
        by_cases h : k = key'
        · have other : ¬k = key := fun e => same (e.symm.trans h)
          rw [if_pos h, if_neg other, if_pos h]
        · rw [if_neg h, if_neg h]

/-- Of two members put under one key the later stays. -/
theorem put_put (key : String) (v w : Value) (o : Object) : put key w (put key v o) = put key w o := by
  induction o with
  | nil => simp only [put, if_pos]
  | cons m o ih =>
    obtain ⟨key', u⟩ := m
    rw [put, put]
    by_cases same : key = key'
    · rw [if_pos same, if_pos same, put, if_pos rfl]
    · rw [if_neg same, if_neg same]
      by_cases less : key < key'
      · rw [if_pos less, if_pos less, put, if_pos rfl]
      · rw [if_neg less, if_neg less, put, if_neg same, if_neg less, ih]

theorem mem_put {key : String} {v : Value} {o : Object} {m : String × Value}
    (h : m ∈ put key v o) : m = (key, v) ∨ m ∈ o := by
  induction o with
  | nil => exact .inl (List.mem_singleton.mp h)
  | cons m' o ih =>
    obtain ⟨key', w⟩ := m'
    rw [put] at h
    split at h
    · rcases List.mem_cons.mp h with h | h
      · exact .inl h
      · exact .inr (List.mem_cons_of_mem _ h)
    · split at h
      · exact List.mem_cons.mp h
      · rcases List.mem_cons.mp h with rfl | h
        · exact .inr (List.mem_cons_self ..)
        · exact (ih h).imp id (List.mem_cons_of_mem _)

theorem sorted_cons {m : String × Value} {o : Object} :
    Sorted (m :: o) ↔ (∀ n ∈ o, m.1 < n.1) ∧ Sorted o := by
  rw [Sorted, List.map_cons, List.pairwise_cons, List.forall_mem_map]; rfl

theorem Sorted.put {o : Object} (h : o.Sorted) (key : String) (v : Value) :
    (put key v o).Sorted := by
  induction o with
  | nil => exact List.pairwise_singleton ..
  | cons m o ih =>
    obtain ⟨key', w⟩ := m
    obtain ⟨first, rest⟩ := sorted_cons.mp h
    rw [Object.put]
    by_cases same : key = key'
    · subst same
      rw [if_pos rfl]
      exact sorted_cons.mpr ⟨first, rest⟩
    · rw [if_neg same]
      by_cases less : key < key'
      · rw [if_pos less]
        refine sorted_cons.mpr ⟨?_, h⟩
        intro n hn
        rcases List.mem_cons.mp hn with rfl | hn
        · exact less
        · exact less.trans (first n hn)
      · rw [if_neg less]
        refine sorted_cons.mpr ⟨?_, ih rest⟩
        intro n hn
        rcases mem_put hn with rfl | hn
        · exact lt_of_le_of_ne (not_lt.mp less) fun e => same e.symm
        · exact first n hn

/-! ### Objects from lists -/

theorem Sorted.filter {o : Object} (h : o.Sorted) (p : String × Value → Bool) :
    Sorted (o.filter p) := List.Pairwise.sublist (List.filter_sublist.map Prod.fst) h

theorem Sorted.mapKeyed {o : Object} (h : o.Sorted) (f : String → Value → Value) :
    Sorted (o.map fun m => (m.1, f m.1 m.2)) := by
  rw [Sorted, List.map_map]
  exact h

theorem ofList_concat (ms : Object) (m : String × Value) :
    ofList (ms ++ [m]) = put m.1 m.2 (ofList ms) := by
  rw [ofList, List.foldl_append]; rfl

/-- The last member of a key is the one that stays. -/
theorem member?_ofList (ms : Object) (key : String) : member? (ofList ms) key = last? ms key := by
  induction ms using List.reverseRecOn with
  | nil => rfl
  | append_singleton ms m ih =>
    rw [ofList_concat, member?_put, ih, last?_append, last?_singleton]
    split <;> rfl

theorem mem_ofList {ms : Object} {m : String × Value} (h : m ∈ ofList ms) : m ∈ ms := by
  induction ms using List.reverseRecOn with
  | nil => cases h
  | append_singleton ms m' ih =>
    rw [ofList_concat] at h
    rcases mem_put h with rfl | h
    · exact List.mem_append_right _ (List.mem_singleton_self _)
    · exact List.mem_append_left _ (ih h)

theorem sorted_ofList (ms : Object) : (ofList ms).Sorted := by
  induction ms using List.reverseRecOn with
  | nil => exact List.Pairwise.nil
  | append_singleton ms m ih => rw [ofList_concat]; exact ih.put _ _

/-- Keys in order do not repeat, so the last member of a key is the first. -/
theorem Sorted.last? {o : Object} (h : o.Sorted) (key : String) : o.last? key = o.member? key := by
  induction o with
  | nil => rfl
  | cons m o ih =>
    obtain ⟨first, rest⟩ := sorted_cons.mp h
    rw [last?_cons, ih rest, member?_cons]
    by_cases same : key = m.1
    · have later : member? o key = none :=
        member?_eq_none fun n hn => same ▸ (first n hn).ne'
      rw [later, if_pos same]; rfl
    · rw [if_neg same, if_neg same, Option.or_none]

/-- An object in key order is determined by what is under its keys. -/
theorem Sorted.ext {o o' : Object} (h : o.Sorted) (h' : o'.Sorted)
    (same : ∀ key, o.member? key = o'.member? key) : o = o' := by
  induction o generalizing o' with
  | nil =>
    cases o' with
    | nil => rfl
    | cons m' o' =>
      have more := same m'.1
      rw [member?_cons, if_pos rfl] at more
      cases more
  | cons m o ih =>
    cases o' with
    | nil =>
      have more := same m.1
      rw [member?_cons, if_pos rfl] at more
      cases more
    | cons m' o' =>
      obtain ⟨first, rest⟩ := sorted_cons.mp h
      obtain ⟨first', rest'⟩ := sorted_cons.mp h'
      -- The two first keys are both the least, so neither object starts before the other.
      have least {x y : String × Value} {xs ys : Object} (hx : ∀ n ∈ xs, x.1 < n.1)
          (hy : ∀ n ∈ ys, y.1 < n.1)
          (eq : ∀ key, member? (x :: xs) key = member? (y :: ys) key) : x.1 ≤ y.1 := by
        have there : member? (x :: xs) y.1 = some y.2 := by rw [eq, member?_cons, if_pos rfl]
        rcases List.mem_cons.mp (exists_mem_of_member? there) with h | h
        · exact (congrArg Prod.fst h).ge
        · exact (hx _ h).le
      have keys : m.1 = m'.1 := le_antisymm (least first first' same)
        (least first' first fun key => (same key).symm)
      have values : m.2 = m'.2 := by simpa [member?_cons, keys] using same m.1
      have tails : o = o' := by
        refine ih rest rest' fun key => ?_
        by_cases here : key = m.1
        · rw [member?_eq_none fun n hn => here ▸ (first n hn).ne',
            member?_eq_none fun n hn => (here.trans keys) ▸ (first' n hn).ne']
        · have rest_same := same key
          rwa [member?_cons, member?_cons, if_neg here, if_neg (keys ▸ here)] at rest_same
      rw [Prod.ext keys values, tails]

/-- All members of a key are the one that it leads to. -/
theorem Sorted.eq_of_mem {o : Object} (h : o.Sorted) {key : String} {v : Value}
    (there : o.member? key = some v) {m : String × Value} (hm : m ∈ o) (same : m.1 = key) :
    m.2 = v := by
  obtain ⟨before, after, rfl⟩ := List.append_of_mem hm
  have later : Object.last? after key = none := by
    refine last?_eq_none fun n hn => ?_
    have rest := (sorted_cons.mp (List.Pairwise.sublist ((List.sublist_append_right before _).map _) h)).1
    exact same ▸ (rest n hn).ne'
  rw [← h.last?, last?_append, last?_cons, later, if_pos same.symm] at there
  exact Option.some.inj there

theorem Sorted.ofList {o : Object} (h : o.Sorted) : ofList o = o :=
  (sorted_ofList o).ext h fun key => by rw [member?_ofList, h.last?]

/-! ### Canonical values -/

/-- The object in key order, with canonical values. -/
def canonical (o : Object) : Object := Object.ofList (Value.canonicalMembers o)

end Object

namespace Value

theorem canonicalItems_eq_map (vs : List Value) : canonicalItems vs = vs.map canonical := by
  induction vs with
  | nil => rfl
  | cons v vs ih => rw [canonicalItems, ih, List.map_cons]

theorem canonicalMembers_eq_map (ms : Object) :
    canonicalMembers ms = ms.map fun m => (m.1, m.2.canonical) := by
  induction ms with
  | nil => rfl
  | cons m ms ih => obtain ⟨k, v⟩ := m; rw [canonicalMembers, ih, List.map_cons]

end Value

namespace Object

/-- What is found after a change of the values that may depend on their keys. -/
theorem member?_mapKeyed (f : String → Value → Value) (o : Object) (key : String) :
    member? (o.map fun m => (m.1, f m.1 m.2)) key = (member? o key).map (f key) := by
  induction o with
  | nil => rfl
  | cons m o ih =>
    rw [List.map_cons, member?_cons, member?_cons, ih]
    by_cases same : key = m.1
    · subst same
      simp
    · simp [same]

theorem member?_map (f : Value → Value) (o : Object) (key : String) :
    member? (o.map fun m => (m.1, f m.2)) key = (member? o key).map f :=
  member?_mapKeyed (fun _ => f) o key

theorem member?_canonical (o : Object) (key : String) :
    o.canonical.member? key = (o.last? key).map Value.canonical := by
  rw [canonical, member?_ofList, Value.canonicalMembers_eq_map, last?, ← List.map_reverse,
    member?_map]
  rfl

theorem sorted_canonical (o : Object) : o.canonical.Sorted := sorted_ofList _

theorem sorted_of_canonical {o : Object} (h : (Value.obj o).canonical = .obj o) : o.Sorted := by
  rw [← Value.obj.inj h]
  exact sorted_canonical o

theorem map_put (f : Value → Value) (key : String) (v : Value) (o : Object) :
    (put key v o).map (fun m => (m.1, f m.2)) = put key (f v) (o.map fun m => (m.1, f m.2)) := by
  induction o with
  | nil => rfl
  | cons m o ih =>
    obtain ⟨key', w⟩ := m
    rw [List.map_cons, put, put]
    split
    · rfl
    · split
      · rfl
      · rw [List.map_cons, ih]

theorem map_ofList (f : Value → Value) (ms : Object) :
    (ofList ms).map (fun m => (m.1, f m.2)) = ofList (ms.map fun m => (m.1, f m.2)) := by
  induction ms using List.reverseRecOn with
  | nil => rfl
  | append_singleton ms m ih =>
    rw [ofList_concat, map_put, ih, List.map_append, List.map_singleton, ofList_concat]

end Object

namespace Value

mutual

/-- A value in canonical form stays as it is. -/
theorem canonical_canonical : ∀ v : Value, v.canonical.canonical = v.canonical
  | .null | .bool _ | .num _ | .str _ => rfl
  | .arr items => by
      rw [canonical, canonical, canonicalItems_canonicalItems items]
  | .obj members => by
      rw [canonical, canonical, canonicalMembers_eq_map (Object.ofList _), Object.map_ofList,
        ← canonicalMembers_eq_map, canonicalMembers_canonicalMembers members,
        (Object.sorted_ofList _).ofList]

theorem canonicalItems_canonicalItems : ∀ vs : List Value,
    canonicalItems (canonicalItems vs) = canonicalItems vs
  | [] => rfl
  | v :: vs => by
      rw [canonicalItems, canonicalItems, canonical_canonical v, canonicalItems_canonicalItems vs]

theorem canonicalMembers_canonicalMembers : ∀ ms : Object,
    canonicalMembers (canonicalMembers ms) = canonicalMembers ms
  | [] => rfl
  | (k, v) :: ms => by
      rw [canonicalMembers, canonicalMembers, canonical_canonical v,
        canonicalMembers_canonicalMembers ms]

end

end Value

theorem Object.canonical_canonical (o : Object) : o.canonical.canonical = o.canonical :=
  Value.obj.inj (Value.canonical_canonical (.obj o))

/-- A canonical object has its keys in order and canonical values under them. -/
theorem Object.canonical_iff {o : Object} :
    (Value.obj o).canonical = .obj o ↔ o.Sorted ∧ ∀ m ∈ o, m.2.canonical = m.2 := by
  constructor
  · refine fun h => ⟨sorted_of_canonical h, fun m hm => ?_⟩
    rw [← Value.obj.inj h] at hm
    have listed := mem_ofList hm
    rw [Value.canonicalMembers_eq_map] at listed
    obtain ⟨n, -, rfl⟩ := List.mem_map.mp listed
    exact Value.canonical_canonical n.2
  · rintro ⟨sorted, each⟩
    have same : Value.canonicalMembers o = o := by
      rw [Value.canonicalMembers_eq_map]
      conv_rhs => rw [← List.map_id o]
      exact List.map_congr_left fun m hm => Prod.ext rfl (each m hm)
    rw [Value.canonical, same, sorted.ofList]

/-! ### Members of values -/

namespace Value

theorem member?_updateMember (key : String) (f : Value → Value) (v : Value) (k : String) :
    (v.updateMember key f).member? k = if k = key then (v.member? k).map f else v.member? k := by
  cases v with
  | obj ms =>
    rw [updateMember, member?, member?]
    induction ms with
    | nil => simp [Object.member?]
    | cons m ms ih =>
      rw [List.map_cons, Object.member?_cons, Object.member?_cons, ih]
      by_cases here : m.1 = key <;> by_cases found : k = m.1 <;> by_cases same : k = key <;>
        simp_all
  | null | bool _ | num _ | str _ | arr _ => simp [updateMember, member?]

theorem member?_withoutMember (key : String) (v : Value) (k : String) :
    (v.withoutMember key).member? k = if k = key then none else v.member? k := by
  cases v with
  | obj ms =>
    rw [withoutMember, member?, member?, Object.without]
    induction ms with
    | nil => simp [Object.member?]
    | cons m ms ih =>
      rw [List.filter_cons, Object.member?_cons]
      by_cases here : m.1 = key
      · rw [if_neg (by simp [here]), ih]
        by_cases same : k = key
        · rw [if_pos same, if_pos same]
        · rw [if_neg same, if_neg same, if_neg (here ▸ same)]
      · rw [if_pos (by simpa using here), Object.member?_cons, ih]
        by_cases found : k = m.1
        · rw [if_pos found, if_pos found, if_neg (found ▸ here)]
        · rw [if_neg found, if_neg found]
  | null | bool _ | num _ | str _ | arr _ => simp [withoutMember, member?]

/-- What is under a key of a canonical value is canonical. -/
theorem canonical_of_member? {v w : Value} {key : String} (h : v.canonical = v)
    (there : v.member? key = some w) : w.canonical = w := by
  cases v with
  | obj ms =>
    have same : Object.canonical ms = ms := obj.inj h
    rw [member?, ← same, Object.member?_canonical] at there
    obtain ⟨u, -, rfl⟩ := Option.map_eq_some_iff.mp there
    exact canonical_canonical u
  | null | bool _ | num _ | str _ | arr _ => simp [member?] at there

/-- The items of a canonical list are canonical. -/
theorem canonical_of_mem {items : List Value} {w : Value} (h : (arr items).canonical = arr items)
    (there : w ∈ items) : w.canonical = w := by
  have same : items.map canonical = items := by
    rw [← canonicalItems_eq_map]
    exact arr.inj h
  rw [← same] at there
  obtain ⟨u, -, rfl⟩ := List.mem_map.mp there
  exact canonical_canonical u

/-- To put under a key what is there already changes nothing. -/
theorem updateMember_of_member? {v w : Value} {key : String} (h : v.canonical = v)
    (there : v.member? key = some w) : v.updateMember key (fun _ => w) = v := by
  cases v with
  | obj ms =>
    have sorted : Object.Sorted ms := Object.sorted_of_canonical h
    have kept : ms.map (fun m => if m.1 = key then (m.1, w) else m) = ms.map id := by
      apply List.map_congr_left
      intro m hm
      split
      · rename_i here
        exact Prod.ext rfl (sorted.eq_of_mem there hm here).symm
      · rfl
    rw [updateMember, kept, List.map_id]
  | null | bool _ | num _ | str _ | arr _ => rfl

end Value

end Flowgraph.Json
