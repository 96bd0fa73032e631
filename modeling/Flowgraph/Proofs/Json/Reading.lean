import Flowgraph.Json.Codec
import Mathlib.Data.List.Forall2

/-! When reading a value succeeds, and with what. A value has no faults, so a record that is read from an
    object gives just what its fields give, each read from the one value under its names. -/

namespace Flowgraph.Json

/-- The values under any of the names, in order. -/
def Object.under (o : Object) (names : List String) : List Value :=
  (o.filter fun m => m.1 ∈ names).map (·.2)

/-- A name that is there is the first of its kind. -/
theorem Object.member?_eq_head? (o : Object) (name : String) :
    o.member? name = (o.under [name]).head? := by
  induction o with
  | nil => rfl
  | cons m o ih =>
    obtain ⟨k, v⟩ := m
    rw [member?, List.lookup_cons, under, List.filter_cons]
    by_cases h : name = k
    · simp [h]
    · have h' : ¬k = name := fun e => h e.symm
      rw [beq_false_of_ne h]
      simpa [h', under, member?] using ih

theorem Object.member?_of_under {o : Object} {name : String} {v : Value}
    (one : o.under [name] = [v]) : o.member? name = some v := by
  rw [member?_eq_head?, one]
  rfl

/-! ### Trees of values -/

mutual

/-- Passing over a value meets no fault. -/
theorem passingFault?_toTree : ∀ v : Value, v.toTree.passingFault? = none
  | .null | .bool _ | .num _ | .str _ => rfl
  | .arr items => by
      rw [Value.toTree, Tree.passingFault?, passingItems?_toTrees items]; rfl
  | .obj members => by
      rw [Value.toTree, Tree.passingFault?, passingMembers?_toTrees members]; rfl

theorem passingItems?_toTrees : ∀ vs : List Value, passingItems? (itemsToTrees vs) = none
  | [] => rfl
  | v :: vs => by
      rw [itemsToTrees, passingItems?, passingFault?_toTree v, passingItems?_toTrees vs]; rfl

theorem passingMembers?_toTrees : ∀ ms : List (String × Value),
    passingMembers? (membersToTrees ms) = none
  | [] => rfl
  | (_, v) :: ms => by
      rw [membersToTrees, passingMembers?, passingFault?_toTree v, passingMembers?_toTrees ms]
      rfl

end

theorem itemsToTrees_eq_map : ∀ vs : List Value, itemsToTrees vs = vs.map Value.toTree
  | [] => rfl
  | v :: vs => by rw [itemsToTrees, itemsToTrees_eq_map vs, List.map_cons]

theorem Value.isNull_eq_false {v : Value} : v.isNull = false ↔ v ≠ .null := by
  cases v <;> simp [Value.isNull]

/-! ### Fields -/

namespace Record

/-- The occurrences of a field are the values under its names. -/
theorem map_snd_occurrences (names : List String) : ∀ (i : Nat) (ms : Object),
    (occurrences names i (membersToTrees ms)).map (·.2) = (ms.under names).map Value.toTree
  | _, [] => rfl
  | i, (k, v) :: ms => by
      have ih := map_snd_occurrences names (i + 1) ms
      rw [membersToTrees, occurrences, Object.under, List.filter_cons]
      by_cases h : k ∈ names
      · simpa [h, Object.under] using ih
      · simpa [h, Object.under] using ih

/-- A field of an object is read from the one value under its names, or absent. -/
theorem readField_eq_ok {name : String} {aliases : List String} {d : Decoder α}
    {absent : Option α} {scope : Scope} {ms : Object} {i : Nat} {a : α}
    (hs : scope.shape = .named (membersToTrees ms)) :
    readField name aliases d absent scope i = .ok a ↔
      (ms.under (name :: aliases) = [] ∧ absent = some a) ∨
      ∃ v, ms.under (name :: aliases) = [v] ∧ d scope.place v.toTree = .ok a := by
  have values := map_snd_occurrences (name :: aliases) 0 ms
  simp only [readField, hs]
  cases ho : occurrences (name :: aliases) 0 (membersToTrees ms) with
  | nil =>
    rw [ho] at values
    have none_there : ms.under (name :: aliases) = [] := by simpa using values.symm
    cases absent <;> simp [none_there]
  | cons head more =>
    obtain ⟨k, t⟩ := head
    rw [ho] at values
    obtain ⟨v, vs, hvs⟩ := List.exists_cons_of_ne_nil
      (show ms.under (name :: aliases) ≠ [] by intro h; simp [h] at values)
    rw [hvs] at values ⊢
    simp only [List.map_cons, List.cons.injEq] at values
    obtain ⟨rfl, rest⟩ := values
    cases more with
    | nil =>
      have none_else : vs = [] := by simpa using rest.symm
      cases hd : d scope.place v.toTree <;> simp [none_else, hd]
    | cons second more =>
      have some_else : vs ≠ [] := by intro h; simp [h] at rest
      cases hd : d scope.place v.toTree <;> simp [some_else, hd]

theorem read_field_eq_ok {name : String} {get : σ → α} {c : Codec α} {scope : Scope} {ms : Object}
    {i : Nat} {a : α} (hs : scope.shape = .named (membersToTrees ms)) :
    (field name get c).read scope i = .ok a ↔
      ∃ v, ms.under [name] = [v] ∧ c.decode scope.place v.toTree = .ok a := by
  change readField name [] c.decode none scope i = .ok a ↔ _
  rw [readField_eq_ok hs]
  simp

theorem read_maybe_eq_ok {name : String} {get : σ → Option α} {c : Codec α} {scope : Scope}
    {ms : Object} {i : Nat} {x : Option α} (hs : scope.shape = .named (membersToTrees ms)) :
    (maybe name get c).read scope i = .ok x ↔
      (ms.under [name] = [] ∧ none = x) ∨
      ∃ v, ms.under [name] = [v] ∧ Decoder.optional c.decode scope.place v.toTree = .ok x := by
  change readField name [] (.optional c.decode) (some none) scope i = .ok x ↔ _
  rw [readField_eq_ok hs, Option.some_inj]

/-- Whatever a part of a record reads in a scope has a property. -/
def Gives (r : Record σ α) (scope : Scope) (Q : α → Prop) : Prop :=
  ∀ i a, r.read scope i = .ok a → Q a

namespace Gives

theorem any {r : Record σ α} {scope : Scope} : r.Gives scope fun _ => True := fun _ _ _ => trivial

theorem map {f : α → β} {r : Record σ α} {scope : Scope} {Q : β → Prop}
    (h : r.Gives scope fun a => Q (f a)) : (f <$> r).Gives scope Q := by
  intro i b hb
  change (r.read scope i).map f = .ok b at hb
  cases hr : r.read scope i with
  | error e => rw [hr] at hb; cases hb
  | ok a => rw [hr] at hb; cases hb; exact h i a hr

/-- What a record gives follows from what its parts give. -/
theorem seq {r : Record σ (α → β)} {s : Record σ α} {scope : Scope} {Q : β → Prop}
    {S : α → Prop} (hr : r.Gives scope fun f => ∀ a, S a → Q (f a)) (hs : s.Gives scope S) :
    (r <*> s).Gives scope Q := by
  intro i b hb
  change (bothOrFirst (r.read scope i) (s.read scope (i + r.names.length))).map _ = .ok b at hb
  cases hf : r.read scope i with
  | error e => cases ha : s.read scope (i + r.names.length) <;> rw [hf, ha] at hb <;> cases hb
  | ok f =>
    cases ha : s.read scope (i + r.names.length) with
    | error e => rw [hf, ha] at hb; cases hb
    | ok a => rw [hf, ha] at hb; cases hb; exact hr i f hf a (hs _ a ha)

end Gives

theorem strayFaults_toTrees (opened : Bool) (known : List String) : ∀ (i : Nat) (ms : Object),
    strayFaults opened known none i (membersToTrees ms) = .ok ()
  | _, [] => rfl
  | i, (k, v) :: ms => by
      rw [membersToTrees, strayFaults, passingFault?_toTree, ite_self]
      exact strayFaults_toTrees opened known (i + 1) ms

end Record

/-! ### Records and lists -/

/-- The place inside a list or object that does not come from a text. -/
def Place.inner (p : Place) : Place := { p with depth := p.depth + 1 }

theorem Place.enter_of_ne_text {p : Place} (hp : p.origin ≠ .text) : p.enter = .ok p.inner := by
  rw [enter, if_neg fun h => hp h.1]; rfl

/-- What the fields of a record are read from in an object. -/
def Record.scopeIn (title : String) (r : Record σ α) (p : Place) (ms : Object) : Scope :=
  ⟨title, r.names.flatten, r.names.length, p.inner, .named (membersToTrees ms)⟩

theorem Record.decode_obj_eq_ok {title : String} {r : Record σ α} {p : Place} {ms : Object}
    {a : α} (hp : p.origin ≠ .text) :
    r.decode title p (Value.obj ms).toTree = .ok a ↔ r.read (r.scopeIn title p ms) 0 = .ok a := by
  have nothing_stray := strayFaults_toTrees r.opened r.names.flatten 0 ms
  rw [Value.toTree, decode, Place.enter_of_ne_text hp]
  simp only [bind, Except.bind, nothing_stray]
  rw [← scopeIn]
  cases r.read (r.scopeIn title p ms) 0 <;>
    simp [bothOrFirst, pure, Except.pure, throw, throwThe, MonadExceptOf.throw]

/-- What a record gives in an object, it gives when it is read from it. -/
theorem Record.decode_obj_gives {title : String} {r : Record σ α} {p : Place} {ms : Object}
    {a : α} {Q : α → Prop} (hp : p.origin ≠ .text)
    (h : r.decode title p (Value.obj ms).toTree = .ok a)
    (gives : r.Gives (r.scopeIn title p ms) Q) : Q a :=
  gives 0 a ((decode_obj_eq_ok hp).mp h)

/-- A record that takes up further members is read from nothing but an object. -/
theorem Record.obj_of_decode_eq_ok {title : String} {r : Record σ α} {p : Place} {v : Value}
    {a : α} (ho : r.opened = true) (h : r.decode title p v.toTree = .ok a) :
    ∃ ms, v = .obj ms := by
  cases v with
  | obj ms => exact ⟨ms, rfl⟩
  | arr items => simp [Value.toTree, decode, ho] at h
  | null | bool _ | num _ | str _ => simp [Value.toTree, decode] at h

theorem bind_eq_ok {x : Except ε α} {f : α → Except ε β} {b : β} :
    (x >>= f) = .ok b ↔ ∃ a, x = .ok a ∧ f a = .ok b := by
  cases x <;> simp [bind, Except.bind]

theorem map_eq_ok {x : Except ε α} {f : α → β} {b : β} :
    x.map f = .ok b ↔ ∃ a, x = .ok a ∧ f a = b := by
  cases x <;> simp [Except.map]

/-- Reading one after the other succeeds if reading each does. -/
theorem mapM_eq_ok {f : α → Except ε β} {xs : List α} {ys : List β} :
    xs.mapM f = .ok ys ↔ List.Forall₂ (fun x y => f x = .ok y) xs ys := by
  induction xs generalizing ys with
  | nil =>
    rw [List.mapM_nil, List.forall₂_nil_left_iff]
    exact ⟨fun h => by cases h; rfl, fun h => by rw [h]; rfl⟩
  | cons x xs ih =>
    rw [List.mapM_cons, bind_eq_ok]
    simp only [bind_eq_ok, ih]
    constructor
    · rintro ⟨y, hy, zs, hzs, h⟩
      cases h
      exact .cons hy hzs
    · rintro (_ | ⟨hy, hzs⟩)
      exact ⟨_, hy, _, hzs, rfl⟩

/-- A list is read item by item. -/
theorem Decoder.list_eq_ok {d : Decoder α} {p : Place} {v : Value} {xs : List α}
    (hp : p.origin ≠ .text) :
    Decoder.list d p v.toTree = .ok xs ↔
      ∃ vs, v = .arr vs ∧ List.Forall₂ (fun u x => d p.inner u.toTree = .ok x) vs xs := by
  cases v with
  | arr vs =>
    rw [Value.toTree, Decoder.list, Place.enter_of_ne_text hp, itemsToTrees_eq_map]
    change ((vs.map Value.toTree).mapM (d p.inner) >>= fun xs => Except.ok xs) = .ok xs ↔ _
    rw [bind_eq_ok]
    simp [mapM_eq_ok]
  | obj _ | null | bool _ | num _ | str _ => simp [Value.toTree, Decoder.list]

theorem Decoder.optional_eq_ok {d : Decoder α} {p : Place} {v : Value} {x : Option α} :
    Decoder.optional d p v.toTree = .ok x ↔
      (v = .null ∧ x = none) ∨ (v ≠ .null ∧ ∃ a, d p v.toTree = .ok a ∧ some a = x) := by
  cases v with
  | null => simp [Value.toTree, Decoder.optional, eq_comm]
  | arr _ | obj _ | bool _ | num _ | str _ => simp [Value.toTree, Decoder.optional, map_eq_ok]

end Flowgraph.Json
