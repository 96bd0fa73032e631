import Flowgraph.Proofs.Json.Carrying

/-! Objects reworked member by member, and what is read from them afterwards. A record whose fields are left
    alone is read as before. -/

namespace Flowgraph.Json

namespace Object

/-- Each value is replaced by another one or left out, as its key says. -/
def rework (g : String → Value → Option Value) (o : Object) : Object :=
  o.filterMap fun m => (g m.1 m.2).map fun v => (m.1, v)

/-- Works on the value of one key. -/
def atKey (key : String) (f : Value → Option Value) (k : String) (v : Value) : Option Value :=
  if k = key then f v else some v

/-- Only values under the given keys are worked on. -/
def OnlyAt (g : String → Value → Option Value) (keys : List String) : Prop :=
  ∀ k, k ∉ keys → ∀ v, g k v = some v

theorem onlyAt_atKey (key : String) (f : Value → Option Value) : OnlyAt (atKey key f) [key] := by
  intro k out v
  exact if_neg (by simpa using out)

theorem rework_cons (g : String → Value → Option Value) (m : String × Value) (o : Object) :
    rework g (m :: o) = ((g m.1 m.2).map fun v => (m.1, v)).toList ++ rework g o := by
  rw [rework, List.filterMap_cons]
  cases g m.1 m.2 <;> rfl

theorem rework_rework (f g : String → Value → Option Value) (o : Object) :
    (o.rework f).rework g = o.rework fun k v => (f k v).bind (g k) := by
  rw [rework, rework, rework, List.filterMap_filterMap]
  congr 1
  funext m
  cases f m.1 m.2 <;> rfl

theorem mem_rework {g : String → Value → Option Value} {o : Object} {n : String × Value} :
    n ∈ o.rework g ↔ ∃ v, (n.1, v) ∈ o ∧ g n.1 v = some n.2 := by
  rw [rework, List.mem_filterMap]
  constructor
  · rintro ⟨m, hm, made⟩
    obtain ⟨v, same, rfl⟩ := Option.map_eq_some_iff.mp made
    exact ⟨m.2, hm, same⟩
  · rintro ⟨v, hv, same⟩
    exact ⟨(n.1, v), hv, by rw [same]; rfl⟩

theorem Sorted.rework {o : Object} (h : o.Sorted) (g : String → Value → Option Value) :
    (o.rework g).Sorted := by
  induction o with
  | nil => exact h
  | cons m o ih =>
    obtain ⟨first, rest⟩ := sorted_cons.mp h
    rw [rework_cons]
    cases g m.1 m.2 with
    | none => exact ih rest
    | some v =>
      refine sorted_cons.mpr ⟨fun n hn => ?_, ih rest⟩
      obtain ⟨u, hu, -⟩ := mem_rework.mp hn
      exact first (n.1, u) hu

/-- What is under a name is what the rework makes of it. -/
theorem under_rework (g : String → Value → Option Value) (o : Object) (name : String) :
    (o.rework g).under [name] = (o.under [name]).filterMap (g name) := by
  induction o with
  | nil => rfl
  | cons m o ih =>
    have split_first (n : String × Value) (o : Object) :
        under (n :: o) [name] = if n.1 = name then n.2 :: under o [name] else under o [name] := by
      by_cases here : n.1 = name <;> simp [under, here]
    rw [rework_cons, split_first]
    by_cases here : m.1 = name
    · subst here
      rw [if_pos rfl, List.filterMap_cons]
      cases g m.1 m.2 with
      | none => exact ih
      | some v => simpa [split_first] using ih
    · rw [if_neg here]
      cases g m.1 m.2 with
      | none => exact ih
      | some v => simpa [split_first, here] using ih

theorem Sorted.member?_rework {o : Object} (h : o.Sorted) (g : String → Value → Option Value)
    (key : String) : (o.rework g).member? key = (o.member? key).bind (g key) := by
  rw [member?_eq_head?, under_rework, h.under]
  cases o.member? key with
  | none => rfl
  | some v => cases made : g key v <;> simp [made]

theorem filter_rework {g : String → Value → Option Value} {keys : List String} (only : OnlyAt g keys)
    {known : List String} (sub : ∀ k ∈ keys, k ∈ known) (o : Object) :
    (o.rework g).filter (fun m => m.1 ∉ known) = o.filter fun m => m.1 ∉ known := by
  induction o with
  | nil => rfl
  | cons m o ih =>
    rw [rework_cons, List.filter_append, ih, List.filter_cons]
    by_cases h : m.1 ∈ known
    · cases g m.1 m.2 <;> simp [h]
    · rw [only m.1 (fun hk => h (sub _ hk)) m.2]
      simp [h]

theorem without_rework (g : String → Value → Option Value) (key : String) (o : Object) :
    without key (o.rework g) = (without key o).rework g := by
  induction o with
  | nil => rfl
  | cons m o ih =>
    simp only [without, rework_cons, List.filter_append, List.filter_cons] at ih ⊢
    rw [ih]
    by_cases h : m.1 = key
    · cases g m.1 m.2 <;> simp [h]
    · cases made : g m.1 m.2 <;> simp [h, rework_cons, made]

/-- Canonical values that are made from canonical values leave the object canonical. -/
theorem canonical_rework {g : String → Value → Option Value} {o : Object}
    (h : (Value.obj o).canonical = .obj o)
    (keeps : ∀ k v w, v.canonical = v → g k v = some w → w.canonical = w) :
    (Value.obj (o.rework g)).canonical = .obj (o.rework g) := by
  obtain ⟨sorted, each⟩ := canonical_iff.mp h
  refine canonical_iff.mpr ⟨sorted.rework g, fun n hn => ?_⟩
  obtain ⟨v, hv, made⟩ := mem_rework.mp hn
  exact keeps n.1 v n.2 (each _ hv) made

/-! ### Objects that are alike but for some keys -/

/-- The objects have the same members apart from those under the given keys. -/
def AgreeOutside (keys : List String) (o o' : Object) : Prop :=
  o.filter (fun m => m.1 ∉ keys) = o'.filter fun m => m.1 ∉ keys

theorem OnlyAt.agreeOutside {g : String → Value → Option Value} {keys : List String}
    (only : OnlyAt g keys) (o : Object) : AgreeOutside keys o (o.rework g) :=
  (filter_rework only (fun _ mem => mem) o).symm

namespace AgreeOutside

variable {keys : List String} {o o' : Object}

theorem filter_eq (h : AgreeOutside keys o o') {known : List String} (sub : ∀ k ∈ keys, k ∈ known) :
    o'.filter (fun m => m.1 ∉ known) = o.filter fun m => m.1 ∉ known := by
  have twice (q : Object) : (q.filter fun m => m.1 ∉ keys).filter (fun m => m.1 ∉ known)
      = q.filter fun m => m.1 ∉ known := by
    rw [List.filter_filter]
    refine List.filter_congr fun m _ => ?_
    by_cases mem : m.1 ∈ known
    · simp [mem]
    · simpa [mem] using fun here => mem (sub m.1 here)
  rw [← twice o, ← twice o', h]

theorem mono (h : AgreeOutside keys o o') {more : List String} (sub : ∀ k ∈ keys, k ∈ more) :
    AgreeOutside more o o' := (h.filter_eq sub).symm

theorem under_eq (h : AgreeOutside keys o o') {name : String} (out : name ∉ keys) :
    o'.under [name] = o.under [name] := by
  have twice (q : Object) : under (q.filter fun m => m.1 ∉ keys) [name] = q.under [name] := by
    simp only [under, List.filter_filter]
    congr 1
    refine List.filter_congr fun m _ => ?_
    by_cases here : m.1 = name <;> simp [here, out]
  rw [← twice o, ← twice o', h]

theorem symm (h : AgreeOutside keys o o') : AgreeOutside keys o' o := Eq.symm h

theorem trans {o'' : Object} (h : AgreeOutside keys o o') (h' : AgreeOutside keys o' o'') :
    AgreeOutside keys o o'' := Eq.trans h h'

theorem member?_eq (h : AgreeOutside keys o o') {name : String} (out : name ∉ keys) :
    o'.member? name = o.member? name := by
  rw [member?_eq_head?, member?_eq_head?, h.under_eq out]

theorem mapValues (h : AgreeOutside keys o o') (f : Value → Value) :
    AgreeOutside keys (o.mapValues f) (o'.mapValues f) := by
  have commutes (q : Object) : (q.mapValues f).filter (fun m => m.1 ∉ keys)
      = Object.mapValues f (q.filter fun m => m.1 ∉ keys) := by
    rw [Object.mapValues, Object.mapValues, List.filter_map]
    rfl
  rw [AgreeOutside, commutes, commutes, h]

theorem rework (h : AgreeOutside keys o o') (g : String → Value → Option Value) :
    AgreeOutside keys (o.rework g) (o'.rework g) := by
  have commutes (q : Object) : (q.rework g).filter (fun m => m.1 ∉ keys)
      = Object.rework g (q.filter fun m => m.1 ∉ keys) := by
    induction q with
    | nil => rfl
    | cons m q ih =>
      rw [rework_cons, List.filter_append, ih, List.filter_cons]
      by_cases mem : m.1 ∈ keys
      · cases g m.1 m.2 <;> simp [mem]
      · cases made : g m.1 m.2 <;> simp [mem, rework_cons, made]
  rw [AgreeOutside, commutes, commutes, h]

theorem without (h : AgreeOutside keys o o') (key : String) :
    AgreeOutside keys (o.without key) (o'.without key) := by
  have commutes (q : Object) : (q.without key).filter (fun m => m.1 ∉ keys)
      = Object.without key (q.filter fun m => m.1 ∉ keys) := by
    simp only [Object.without, List.filter_filter, Bool.and_comm]
  rw [AgreeOutside, commutes, commutes, h]

end AgreeOutside

theorem agreeOutside_without (key : String) (o : Object) : AgreeOutside [key] o (without key o) := by
  rw [AgreeOutside, without, List.filter_filter]
  refine List.filter_congr fun m _ => ?_
  by_cases here : m.1 = key <;> simp [here]

theorem canonical_without {o : Object} (h : (Value.obj o).canonical = .obj o) (key : String) :
    (Value.obj (without key o)).canonical = .obj (without key o) := by
  obtain ⟨sorted, each⟩ := canonical_iff.mp h
  refine canonical_iff.mpr ⟨?_, fun m hm => each m (List.mem_of_mem_filter hm)⟩
  exact sorted.filter _

theorem without_of_none {o : Object} {key : String} (absent : o.member? key = none) :
    without key o = o := by
  refine List.filter_eq_self.mpr fun m hm => ?_
  have other := List.lookup_eq_none_iff.mp absent m hm
  simpa [bne_comm] using other

/-! ### Single keys -/

theorem rework_eq_self {g : String → Value → Option Value} {o : Object}
    (h : ∀ m ∈ o, g m.1 m.2 = some m.2) : o.rework g = o := by
  induction o with
  | nil => rfl
  | cons m o ih =>
    rw [rework_cons, h m List.mem_cons_self, ih fun n hn => h n (List.mem_cons_of_mem _ hn)]
    rfl

theorem rework_atKey_of_none {o : Object} {key : String} (absent : o.member? key = none)
    (f : Value → Option Value) : o.rework (atKey key f) = o := by
  refine rework_eq_self fun m hm => if_neg fun here => ?_
  have other := List.lookup_eq_none_iff.mp absent m hm
  simp [here] at other

section
variable {o : Object} (sorted : o.Sorted) {key : String} {v : Value}
  (there : o.member? key = some v) {f : Value → Option Value}
include sorted there

theorem updateMember_eq_rework {w : Value} (made : f v = some w) :
    (Value.obj o).updateMember key (fun _ => w) = .obj (o.rework (atKey key f)) := by
  rw [Value.updateMember, rework, ← List.filterMap_eq_map]
  congr 1
  apply List.filterMap_congr
  intro m hm
  by_cases here : m.1 = key
  · simp [atKey, here, sorted.eq_of_mem there hm here, made]
  · simp [atKey, here]

theorem rework_atKey_of_some (stays : f v = some v) : o.rework (atKey key f) = o := by
  refine rework_eq_self fun m hm => ?_
  by_cases here : m.1 = key
  · rw [atKey, if_pos here, sorted.eq_of_mem there hm here, stays]
  · rw [atKey, if_neg here]

theorem withoutMember_eq_rework (dropped : f v = none) :
    (Value.obj o).withoutMember key = .obj (o.rework (atKey key f)) := by
  rw [Value.withoutMember, without, rework, ← List.filterMap_eq_filter]
  congr 1
  apply List.filterMap_congr
  intro m hm
  by_cases here : m.1 = key
  · simp [atKey, here, sorted.eq_of_mem there hm here, dropped]
  · simp [atKey, here]

end

end Object

theorem Value.updateMember_obj (key : String) (f : Value → Value) (o : Object) :
    (Value.obj o).updateMember key f = .obj (o.rework (Object.atKey key fun v => some (f v))) := by
  rw [updateMember, Object.rework, ← List.filterMap_eq_map]
  congr 2
  funext m
  by_cases here : m.1 = key <;> simp [Object.atKey, here]

/-- An object with one member made another is an object that is alike but for this key. -/
theorem Value.exists_updateMember_obj (key : String) (f : Value → Value) (o : Object) :
    ∃ o' : Object, (Value.obj o).updateMember key f = .obj o' ∧ o.AgreeOutside [key] o' ∧
      o'.under [key] = (o.under [key]).map f := by
  refine ⟨_, updateMember_obj key f o, (Object.onlyAt_atKey key _).agreeOutside o, ?_⟩
  rw [Object.under_rework, ← List.filterMap_eq_map]
  refine List.filterMap_congr fun v _ => ?_
  exact if_pos rfl

/-- The members of an object reworked; other values have none. -/
def Value.rework (g : String → Value → Option Value) : Value → Value
  | .obj o => .obj (Object.rework g o)
  | v => v

/-- The items of a list, each made another; other values have none. -/
def Value.mapItems (f : Value → Value) : Value → Value
  | .arr items => .arr (items.map f)
  | v => v

/-! ### Reading -/

/-- The scope with an object that its fields are read from. -/
def Scope.on (s : Scope) (o : Object) : Scope := { s with shape := .named (membersToTrees o) }

theorem Scope.shape_on (s : Scope) (o : Object) : (s.on o).shape = .named (membersToTrees o) := rfl

namespace Record

variable {s : Scope} {o o' : Object} {keys : List String}

/-- What an optional field is read as that has the given values under its name. -/
def ReadsMaybe (c : Codec α) (p : Place) (vs : List Value) (x : Option α) : Prop :=
  (vs = [] ∧ none = x) ∨ ∃ v, vs = [v] ∧ Decoder.optional c.decode p v.toTree = .ok x

/-- Where each value is reworked to one that reads as something else, or is left out, so is the field. -/
theorem ReadsMaybe.filterMap {c : Codec α} {p : Place} {vs : List Value} {x : Option α}
    (h : ReadsMaybe c p vs x) {g : Value → Option Value} {f : α → Option α}
    (null : g .null = some .null)
    (each : ∀ v a, vs = [v] → x = some a → c.decode p v.toTree = .ok a →
      Option.Rel (fun w b => w ≠ .null ∧ c.decode p w.toTree = .ok b) (g v) (f a)) :
    ReadsMaybe c p (vs.filterMap g) (x.bind f) := by
  rcases h with ⟨rfl, rfl⟩ | ⟨v, rfl, read⟩
  · exact .inl ⟨rfl, rfl⟩
  · rcases Decoder.optional_eq_ok.mp read with ⟨rfl, rfl⟩ | ⟨solid, a, decoded, rfl⟩
    · rw [List.filterMap_cons, null]
      exact .inr ⟨.null, rfl, rfl⟩
    · rw [List.filterMap_cons, Option.bind_some]
      have related := each v a rfl rfl decoded
      revert related
      generalize g v = w, f a = b
      rintro (⟨there, again⟩ | _)
      · exact .inr ⟨_, rfl, Decoder.optional_eq_ok.mpr (.inr ⟨there, _, again, rfl⟩)⟩
      · exact .inl ⟨rfl, rfl⟩

/-- An optional field that is `null` is read as one that is not there. -/
theorem readsMaybe_null {c : Codec α} {p : Place} {x : Option α} :
    ReadsMaybe c p [.null] x ↔ ReadsMaybe c p [] x := by
  constructor
  · rintro (⟨other, -⟩ | ⟨v, same, read⟩)
    · cases other
    · cases same
      rcases Decoder.optional_eq_ok.mp read with ⟨-, rfl⟩ | ⟨other, -⟩
      · exact .inl ⟨rfl, rfl⟩
      · exact absurd rfl other
  · rintro (⟨-, rfl⟩ | ⟨v, other, -⟩)
    · exact .inr ⟨.null, rfl, Decoder.optional_eq_ok.mpr (.inl ⟨rfl, rfl⟩)⟩
    · cases other

theorem readsMaybe_without {c : Codec α} {p : Place} {x : Option α} {key : String}
    (sorted : o.Sorted) (null : o.member? key = some .null) (name : String) :
    ReadsMaybe c p ((o.without key).under [name]) x ↔ ReadsMaybe c p (o.under [name]) x := by
  by_cases here : name = key
  · subst here
    have gone : (o.without name).under [name] = [] := by
      simp [Object.without, Object.under, List.filter_filter]
    rw [gone, sorted.under, null]
    exact readsMaybe_null.symm
  · rw [(Object.agreeOutside_without key o).under_eq (by simpa using here)]

/-- What a field with a default is read as that has the given values under its name. -/
def ReadsDefaulted (c : Codec α) (p : Place) (vs : List Value) (absent x : α) : Prop :=
  (vs = [] ∧ absent = x) ∨ ∃ v, vs = [v] ∧ c.decode p v.toTree = .ok x

theorem ReadsDefaulted.filterMap {c : Codec α} {p : Place} {vs : List Value} {absent x y : α}
    (h : ReadsDefaulted c p vs absent x) {g : Value → Option Value} (default : absent = x → absent = y)
    (each : ∀ v, vs = [v] → c.decode p v.toTree = .ok x →
      ∃ w, g v = some w ∧ c.decode p w.toTree = .ok y) :
    ReadsDefaulted c p (vs.filterMap g) absent y := by
  rcases h with ⟨rfl, same⟩ | ⟨v, rfl, read⟩
  · exact .inl ⟨rfl, default same⟩
  · obtain ⟨w, made, again⟩ := each v rfl read
    rw [List.filterMap_cons, made]
    exact .inr ⟨w, rfl, again⟩

theorem read_defaulted_eq_ok {name : String} {get : σ → α} {c : Codec α} {absent : α} {i : Nat}
    {x : α} : (defaulted name get c absent).read (s.on o) i = .ok x ↔
      ReadsDefaulted c s.place (o.under [name]) absent x := by
  change readField name [] c.decode (some absent) (s.on o) i = .ok x ↔ _
  rw [readField_eq_ok (s.shape_on o), Option.some_inj]
  rfl

theorem defaulted_gives_reads {name : String} {get : σ → α} {c : Codec α} {absent : α} :
    (defaulted name get c absent).Gives (s.on o) fun x =>
      ReadsDefaulted c s.place (o.under [name]) absent x :=
  fun _ _ read => read_defaulted_eq_ok.mp read

theorem unlessEmpty_gives_reads {name : String} {get : σ → List α} {c : Codec α} :
    (unlessEmpty name get c).Gives (s.on o) fun xs =>
      ReadsDefaulted (.list c) s.place (o.under [name]) [] xs :=
  fun _ _ read => read_defaulted_eq_ok.mp (show (defaulted name get (.list c) []).read _ _ = _ from read)

theorem maybe_gives_reads {name : String} {get : σ → Option α} {c : Codec α} :
    (maybe name get c).Gives (s.on o) fun x => ReadsMaybe c s.place (o.under [name]) x :=
  fun _ _ read => (read_maybe_eq_ok (s.shape_on o)).mp read

namespace Carries

/-- A field outside of what differs is read as before. -/
theorem kept {r : Record σ α} {name : String} {d : Decoder α} {absent : Option α}
    (alike : o.AgreeOutside keys o') (reads : r.read = readField name [] d absent)
    (out : name ∉ keys) : r.Carries (s.on o) (s.on o') fun a b => b = a := by
  intro i a read
  rw [reads] at read ⊢
  refine ⟨a, (readField_eq_ok (s.shape_on _)).mpr ?_, rfl⟩
  rw [alike.under_eq out]
  exact (readField_eq_ok (s.shape_on o)).mp read

theorem kept_field {name : String} {get : σ → α} {c : Codec α} (alike : o.AgreeOutside keys o')
    (out : name ∉ keys) :
    (Record.field name get c).Carries (s.on o) (s.on o') fun a b => b = a :=
  kept alike (show _ = readField name [] c.decode none from rfl) out

theorem kept_defaulted {name : String} {get : σ → α} {c : Codec α} {absent : α}
    (alike : o.AgreeOutside keys o') (out : name ∉ keys) :
    (Record.defaulted name get c absent).Carries (s.on o) (s.on o') fun a b => b = a :=
  kept alike (show _ = readField name [] c.decode (some absent) from rfl) out

theorem kept_maybe {name : String} {get : σ → Option α} {c : Codec α}
    (alike : o.AgreeOutside keys o') (out : name ∉ keys) :
    (Record.maybe name get c).Carries (s.on o) (s.on o') fun a b => b = a :=
  kept alike (show _ = readField name [] (.optional c.decode) (some none) from rfl) out

theorem kept_unlessEmpty {name : String} {get : σ → List α} {c : Codec α}
    (alike : o.AgreeOutside keys o') (out : name ∉ keys) :
    (Record.unlessEmpty name get c).Carries (s.on o) (s.on o') fun a b => b = a :=
  kept alike (show _ = readField name [] (.list c.decode) (some []) from rfl) out

theorem kept_rest {get : σ → Object} (alike : o.AgreeOutside keys o')
    (hp : s.place.origin ≠ .text) (sub : ∀ k ∈ keys, k ∈ s.known) :
    (Record.rest get).Carries (s.on o) (s.on o') fun a b => b = a := by
  intro i a read
  refine ⟨a, ?_, rfl⟩
  simp only [Record.rest, gathered, Scope.on, Rereads.strayValues_toTrees hp] at read ⊢
  rwa [alike.filter_eq sub]

/-- What no field knows is always read, as something or other. -/
theorem taken_rest {get : σ → Object} (hp : s.place.origin ≠ .text) :
    (Record.rest get).Carries (s.on o) (s.on o') fun _ _ => True := by
  intro i a _
  simp only [Record.rest, gathered, Scope.on, Rereads.strayValues_toTrees hp]
  exact ⟨_, rfl, trivial⟩

/-- A field that differs is read as what it reads there. -/
theorem given {name : String} {get : σ → Option α} {c : Codec α} {y : Option α}
    (h : ReadsMaybe c s.place (o'.under [name]) y) :
    (Record.maybe name get c).Carries (s.on o) (s.on o') fun _ b => b = y :=
  fun _ _ _ => ⟨y, (read_maybe_eq_ok (s.shape_on _)).mpr h, rfl⟩

theorem given_defaulted {name : String} {get : σ → α} {c : Codec α} {absent y : α}
    (h : ReadsDefaulted c s.place (o'.under [name]) absent y) :
    (Record.defaulted name get c absent).Carries (s.on o) (s.on o') fun _ b => b = y :=
  fun _ _ _ => ⟨y, read_defaulted_eq_ok.mpr h, rfl⟩

theorem given_unlessEmpty {name : String} {get : σ → List α} {c : Codec α} {ys : List α}
    (h : ReadsDefaulted (.list c) s.place (o'.under [name]) [] ys) :
    (Record.unlessEmpty name get c).Carries (s.on o) (s.on o') fun _ b => b = ys :=
  show (Record.defaulted name get (.list c) []).Carries _ _ _ from given_defaulted h

theorem given_field {name : String} {get : σ → α} {c : Codec α} {v : Value} {y : α}
    (one : o'.under [name] = [v]) (decoded : c.decode s.place v.toTree = .ok y) :
    (Record.field name get c).Carries (s.on o) (s.on o') fun _ b => b = y := by
  intro i a _
  refine ⟨y, ?_, rfl⟩
  change readField name [] c.decode none (s.on o') i = .ok y
  exact (readField_eq_ok (s.shape_on _)).mpr (.inr ⟨v, one, decoded⟩)

end Carries

theorem ne_null_of_decode {title : String} {r : Record σ α} {p : Place} {v : Value} {a : α}
    (read : r.decode title p v.toTree = .ok a) : v ≠ .null := by
  rintro rfl
  cases read

/-- What a record gives wherever its fields are in the object, it gives when it is read from it. -/
theorem decode_gives {title : String} {r : Record σ α} {p : Place} {a : α} {Q : α → Prop}
    (hp : p.origin ≠ .text) (read : r.decode title p (Value.obj o).toTree = .ok a)
    (gives : ∀ s : Scope, s.place = p.inner → r.Gives (s.on o) Q) : Q a :=
  decode_obj_gives hp read (gives (r.scopeIn title p o) rfl)

/-- A record that is carried over to another object is read from it, as something related. -/
theorem exists_decode_of_carries {title : String} {r : Record σ α} {p : Place} {a : α}
    {R : α → α → Prop} (hp : p.origin ≠ .text)
    (read : r.decode title p (Value.obj o).toTree = .ok a)
    (carries : ∀ s : Scope, s.place = p.inner → s.known = r.names.flatten →
      r.Carries (s.on o) (s.on o') R) :
    ∃ b, r.decode title p (Value.obj o').toTree = .ok b ∧ R a b := by
  obtain ⟨b, again, related⟩ :=
    carries (r.scopeIn title p o) rfl rfl 0 a ((decode_obj_eq_ok hp).mp read)
  exact ⟨b, (decode_obj_eq_ok hp).mpr again, related⟩

theorem decode_carried {title : String} {r : Record σ α} {p : Place} {a b : α}
    (hp : p.origin ≠ .text) (read : r.decode title p (Value.obj o).toTree = .ok a)
    (carries : ∀ s : Scope, s.place = p.inner → s.known = r.names.flatten →
      r.Carries (s.on o) (s.on o') fun x y => x = a → y = b) :
    r.decode title p (Value.obj o').toTree = .ok b := by
  obtain ⟨y, again, same⟩ := exists_decode_of_carries hp read carries
  obtain rfl := same rfl
  exact again

end Record

end Flowgraph.Json
