import Flowgraph.Proofs.Json.Objects
import Flowgraph.Proofs.Json.Reading

/-! Reading back what was written. For each codec it is said when that succeeds and what it gives: a double
    has to be finite, and values come back in canonical form. A record needs field names that do not
    repeat, and among the members it takes along none with the name of a field. -/

namespace Flowgraph.Json

/-! ### Values -/

mutual

/-- How deep lists and objects are nested in a value. -/
def Value.nesting : Value → Nat
  | .null | .bool _ | .num _ | .str _ => 0
  | .arr items => nestingOfItems items + 1
  | .obj members => nestingOfMembers members + 1

def nestingOfItems : List Value → Nat
  | [] => 0
  | v :: vs => max v.nesting (nestingOfItems vs)

def nestingOfMembers : List (String × Value) → Nat
  | [] => 0
  | (_, v) :: ms => max v.nesting (nestingOfMembers ms)

end

/-- So many lists and objects can be nested at the place; only a text is limited. -/
def Place.HasRoom (p : Place) (levels : Nat) : Prop := p.origin = .text → p.depth + levels ≤ 127

theorem Place.HasRoom.mono {p : Place} {n m : Nat} (room : p.HasRoom n) (le : m ≤ n) : p.HasRoom m :=
  fun text => Nat.le_trans (Nat.add_le_add_left le p.depth) (room text)

theorem Place.HasRoom.enter {p : Place} {n : Nat} (room : p.HasRoom (n + 1)) :
    p.enter = .ok p.inner ∧ p.inner.HasRoom n := by
  have fits : ¬(p.origin = .text ∧ 127 ≤ p.depth) := by
    rintro ⟨text, full⟩
    have := room text
    omega
  refine ⟨by rw [Place.enter, if_neg fits]; rfl, fun text => ?_⟩
  have := room text
  simp only [inner]
  omega

mutual

/-- The value of a tree that was made from a value is its canonical form, where there is room for it. -/
theorem value_toTree_of_hasRoom : ∀ (v : Value) (p : Place), p.HasRoom v.nesting →
    v.toTree.value p = .ok v.canonical
  | .null, _, _ | .bool _, _, _ | .num _, _, _ | .str _, _, _ => rfl
  | .arr items, p, room => by
      obtain ⟨enter, inside⟩ := room.enter
      rw [Value.toTree, Tree.value, enter]
      change (itemValues p.inner (itemsToTrees items) >>= fun vs => Except.ok (Value.arr vs)) = _
      rw [itemValues_toTrees items p.inner inside]
      rfl
  | .obj members, p, room => by
      obtain ⟨enter, inside⟩ := room.enter
      rw [Value.toTree, Tree.value, enter]
      change (memberValues p.inner (membersToTrees members) >>= fun ms =>
        Except.ok (Value.obj (Object.ofList ms))) = _
      rw [memberValues_toTrees members p.inner inside]
      rfl

theorem itemValues_toTrees : ∀ (vs : List Value) (p : Place), p.HasRoom (nestingOfItems vs) →
    itemValues p (itemsToTrees vs) = .ok (Value.canonicalItems vs)
  | [], _, _ => rfl
  | v :: vs, p, room => by
      rw [itemsToTrees, itemValues, value_toTree_of_hasRoom v p (room.mono (Nat.le_max_left ..)),
        itemValues_toTrees vs p (room.mono (Nat.le_max_right ..))]
      rfl

theorem memberValues_toTrees : ∀ (ms : Object) (p : Place), p.HasRoom (nestingOfMembers ms) →
    memberValues p (membersToTrees ms) = .ok (Value.canonicalMembers ms)
  | [], _, _ => rfl
  | (k, v) :: ms, p, room => by
      rw [membersToTrees, memberValues, value_toTree_of_hasRoom v p (room.mono (Nat.le_max_left ..)),
        memberValues_toTrees ms p (room.mono (Nat.le_max_right ..))]
      rfl

end

theorem value_toTree (v : Value) (p : Place) (hp : p.origin ≠ .text) : v.toTree.value p = .ok v.canonical :=
  value_toTree_of_hasRoom v p fun text => absurd text hp

theorem Value.canonical_eq_null {v : Value} : v.canonical = .null ↔ v = .null := by
  cases v <;> simp [Value.canonical]

/-! ### Plain data -/

/-- Reading what is written of `a` succeeds just if `fine` holds, and gives `b`. -/
def Codec.Rereads (c : Codec α) (a : α) (fine : Bool) (b : α) : Prop :=
  ∀ p x, p.origin ≠ .text →
    (c.decode p (c.encode a).canonical.toTree = .ok x ↔ fine = true ∧ b = x)

namespace Codec

theorem rereads_string (s : String) : string.Rereads s true s := by
  intro p x _
  change Except.ok s = .ok x ↔ _
  simp

theorem rereads_value (v : Value) : value.Rereads v true v.canonical := by
  intro p x hp
  change v.canonical.toTree.value p = .ok x ↔ _
  rw [value_toTree _ p hp, Value.canonical_canonical]
  simp

/-- What is set aside is canonical when it is looked at. -/
theorem setAside_eq {f : Value → Except DecodeError α} {p : Place} (hp : p.origin ≠ .text)
    (v : Value) : Decoder.setAside f p v.canonical.toTree = f v.canonical := by
  rw [Decoder.setAside, value_toTree _ p hp, Value.canonical_canonical]
  rfl

theorem rereads_uint64 (n : UInt64) : uint64.Rereads n true n := by
  intro p x _
  have small : n.toNat ≤ uint64Max := Nat.le_of_lt_succ n.toNat_lt
  change (Decoder.natural "u64" uint64Max p (.num (.ok (.int n.toNat)))).map UInt64.ofNat = .ok x
    ↔ _
  simp [Decoder.natural, small, Except.map]

theorem rereads_uint32 (n : UInt32) : uint32.Rereads n true n := by
  intro p x _
  have small : n.toNat ≤ uint32Max := Nat.le_of_lt_succ n.toNat_lt
  change (Decoder.natural "u32" uint32Max p (.num (.ok (.int n.toNat)))).map UInt32.ofNat = .ok x
    ↔ _
  simp [Decoder.natural, small, Except.map]

/-- An infinite double is written as `null`, which is no number. -/
theorem rereads_double (x : Double) : double.Rereads x x.isFinite x := by
  intro p y _
  change Decoder.double p (Value.float x).canonical.toTree = .ok y ↔ _
  cases h : x.isFinite <;> simp [Value.float, h, Value.canonical, Value.toTree, Decoder.double]

/-- A name that is known for one thing alone. -/
theorem rereads_variant {known : List (String × α)} {name : α → String} {a : α}
    (named : known.lookup (name a) = some a) : (variant known none name).Rereads a true a := by
  intro p x _
  change Decoder.variantName known none (name a) = .ok x ↔ _
  simp [Decoder.variantName, named]

/-- A number is written as one, so it is never taken for a text. -/
theorem lenientNumber_int {number? : Number → Option α}
    {parse : List Char → Except Numeral.Flaw α} {p : Place} (hp : p.origin ≠ .text) {n : Int}
    {a : α} (h : number? (.int n) = some a) :
    lenientNumber number? parse p (Value.int n).canonical.toTree = .ok a := by
  rw [lenientNumber, setAside_eq hp]
  simp [Value.canonical, Value.int, h]

theorem rereads_lenientUInt32 (n : UInt32) : lenientUInt32.Rereads n true n := by
  intro p x hp
  have small : n.toNat ≤ uint32Max := Nat.le_of_lt_succ n.toNat_lt
  have back : (naturalNumber? uint32Max (.int n.toNat)).map UInt32.ofNat = some n := by
    simp [naturalNumber?, small]
  have read : lenientUInt32.decode p (lenientUInt32.encode n).canonical.toTree = .ok n := by
    simp only [lenientUInt32]
    apply lenientNumber_int hp
    exact back
  rw [read]
  simp

theorem rereads_lenientUInt64 (n : UInt64) : lenientUInt64.Rereads n true n := by
  intro p x hp
  have small : n.toNat ≤ uint64Max := Nat.le_of_lt_succ n.toNat_lt
  have back : (naturalNumber? uint64Max (.int n.toNat)).map UInt64.ofNat = some n := by
    simp [naturalNumber?, small]
  have read : lenientUInt64.decode p (lenientUInt64.encode n).canonical.toTree = .ok n := by
    simp only [lenientUInt64]
    apply lenientNumber_int hp
    exact back
  rw [read]
  simp

theorem rereads_lenientDouble (x : Double) : lenientDouble.Rereads x x.isFinite x := by
  intro p y hp
  change lenientNumber _ _ p (Value.float x).canonical.toTree = .ok y ↔ _
  rw [lenientNumber, setAside_eq hp]
  cases h : x.isFinite <;> simp [Value.float, h, Value.canonical]

theorem members_toTree (ms : Object) {p : Place} (hp : p.origin ≠ .text) :
    Decoder.members Decoder.value p (Value.obj ms).toTree = .ok (Value.canonicalMembers ms) := by
  have each : (membersToTrees ms).mapM (fun x => do
      let k ← keyText x.1
      let v ← Decoder.value p.inner x.2
      pure (k, v)) = .ok (Value.canonicalMembers ms) := by
    induction ms with
    | nil => rfl
    | cons m ms ih =>
      obtain ⟨k, v⟩ := m
      rw [membersToTrees, List.mapM_cons, ih, Decoder.value, value_toTree v p.inner hp]
      rfl
  rw [Value.toTree, Decoder.members, Place.enter_of_ne_text hp]
  change ((membersToTrees ms).mapM (fun x => do
    let k ← keyText x.1
    let v ← Decoder.value p.inner x.2
    pure (k, v)) >>= fun xs => Except.ok xs) = _
  rw [each]
  rfl

theorem rereads_object (o : Object) : object.Rereads o true o.canonical := by
  intro p x hp
  have read : object.decode p (object.encode o).canonical.toTree = .ok o.canonical.canonical := by
    change (Decoder.members Decoder.value p (Value.obj o.canonical).toTree).map Object.ofList = _
    rw [members_toTree _ hp]
    rfl
  rw [read, Object.canonical_canonical]
  simp

/-- A list comes back if each of its items does. -/
theorem rereads_list {c : Codec α} {xs : List α} {fine : α → Bool} {back : α → α}
    (h : ∀ a ∈ xs, c.Rereads a (fine a) (back a)) :
    (list c).Rereads xs (xs.all fine) (xs.map back) := by
  intro p ys hp
  have items : ∀ ys, List.Forall₂ (fun u y => c.decode p.inner u.toTree = .ok y)
      (xs.map fun a => (c.encode a).canonical) ys ↔ xs.all fine = true ∧ xs.map back = ys := by
    induction xs with
    | nil => intro ys; simp [eq_comm]
    | cons a xs ih =>
      intro ys
      have here := fun y => h a (List.mem_cons_self ..) p.inner y hp
      have others := ih fun b hb => h b (List.mem_cons_of_mem _ hb)
      rw [List.map_cons, List.forall₂_cons_left_iff]
      simp only [here, others, List.all_cons, Bool.and_eq_true, List.map_cons]
      constructor
      · rintro ⟨y, zs, ⟨fine_here, rfl⟩, ⟨fine_there, rfl⟩, rfl⟩
        exact ⟨⟨fine_here, fine_there⟩, rfl⟩
      · rintro ⟨⟨fine_here, fine_there⟩, rfl⟩
        exact ⟨_, _, ⟨fine_here, rfl⟩, ⟨fine_there, rfl⟩, rfl⟩
  have encoded : ((list c).encode xs).canonical = .arr (xs.map fun a => (c.encode a).canonical) := by
    simp [list, Value.canonical, Value.canonicalItems_eq_map, Function.comp_def]
  rw [encoded, list, Decoder.list_eq_ok hp]
  simp [items]

theorem all_true (xs : List α) : (xs.all fun _ => true) = true :=
  List.all_eq_true.mpr fun _ _ => rfl

/-- A list of data that always come back as they were. -/
theorem rereads_list_same {c : Codec α} (h : ∀ a, c.Rereads a true a) (xs : List α) :
    (list c).Rereads xs true xs := by
  have all := rereads_list fun a (_ : a ∈ xs) => h a
  rwa [List.map_id', all_true] at all

end Codec

/-! ### Records -/

theorem Object.Sorted.under {o : Object} (h : o.Sorted) (name : String) :
    o.under [name] = (o.member? name).toList := by
  induction o with
  | nil => rfl
  | cons m o ih =>
    obtain ⟨first, rest⟩ := sorted_cons.mp h
    rw [member?_cons, Object.under, List.filter_cons]
    by_cases same : name = m.1
    · have later : Object.under o [name] = [] := by
        rw [ih rest, member?_eq_none fun n hn => same ▸ (first n hn).ne']; rfl
      rw [if_pos same, if_pos (by simp [same]), List.map_cons]
      exact congrArg (m.2 :: ·) later
    · rw [if_neg same, if_neg (by simpa using fun e => same e.symm)]
      exact ih rest

/-- No member has one of the names. -/
def Object.FreeOf (o : Object) (names : List String) : Prop := ∀ m ∈ o, m.1 ∉ names

/-- A scope that shows the members of an object in key order. -/
structure Scope.Shows (scope : Scope) (o : Object) : Prop where
  shape : scope.shape = .named (membersToTrees o)
  place : scope.place.origin ≠ .text
  sorted : o.Sorted

namespace Record

/-- The keys that belong to a part of a record: those of its fields, and any that no field of the record
    knows if it takes up further members. -/
def Owns (r : Record σ α) (known : List String) (key : String) : Prop :=
  key ∈ r.names.flatten ∨ (r.opened = true ∧ key ∉ known)

/-- Reading what a part of a record writes of `s` succeeds just if `fine` holds, and gives `a`. -/
structure Rereads (r : Record σ α) (known : List String) (s : σ) (fine : Bool) (a : α) : Prop where
  writes : ∀ m ∈ r.write s, r.Owns known m.1
  reads : ∀ {scope : Scope} {o : Object} {i : Nat} {x : α}, scope.Shows o → scope.known = known →
    r.names.flatten.Nodup → (∀ key ∈ r.names.flatten, key ∈ known) →
    (∀ key, r.Owns known key → o.member? key = (Object.last? (r.write s) key).map Value.canonical) →
    (r.read scope i = .ok x ↔ fine = true ∧ a = x)

namespace Rereads

variable {known : List String} {s : σ}

theorem map {r : Record σ α} {f : α → β} {fine : Bool} {a : α} (h : r.Rereads known s fine a) :
    (f <$> r).Rereads known s fine (f a) where
  writes := h.writes
  reads shows knows nodup sub agree := by
    change (r.read _ _).map f = .ok _ ↔ _
    rw [map_eq_ok]
    simp only [h.reads shows knows nodup sub agree]
    simp

theorem bothOrFirst_eq_ok {a : Except Mishap α} {b : Except Mishap β} {x : α × β} :
    bothOrFirst a b = .ok x ↔ a = .ok x.1 ∧ b = .ok x.2 := by
  cases a <;> cases b <;> simp [bothOrFirst, Prod.ext_iff]

/-- Two parts of a record do not get in each other's way, where at most one of them takes up members of
    other keys. -/
theorem seq_either {r : Record σ (α → β)} {q : Record σ α} {fine fine' : Bool} {f : α → β} {a : α}
    (hr : r.Rereads known s fine f) (closed : r.opened = false ∨ q.opened = false)
    (hq : q.Rereads known s fine' a) :
    (r <*> q).Rereads known s (fine && fine') (f a) where
  writes m hm := by
    have names : (r <*> q).names.flatten = r.names.flatten ++ q.names.flatten :=
      List.flatten_append ..
    have opened : (r <*> q).opened = (r.opened || q.opened) := rfl
    rw [Owns, names, opened, List.mem_append, Bool.or_eq_true]
    rcases List.mem_append.mp hm with hm | hm
    · exact (hr.writes m hm).imp .inl fun h => ⟨.inl h.1, h.2⟩
    · exact (hq.writes m hm).imp .inr fun h => ⟨.inr h.1, h.2⟩
  reads {scope o i x} shows knows nodup sub agree := by
    have names : (r <*> q).names.flatten = r.names.flatten ++ q.names.flatten :=
      List.flatten_append ..
    have opened : (r <*> q).opened = (r.opened || q.opened) := rfl
    have writes : (r <*> q).write s = r.write s ++ q.write s := rfl
    rw [names] at nodup sub
    obtain ⟨nodup_r, nodup_q, apart⟩ := List.nodup_append.mp nodup
    have disjoint : ∀ key, r.Owns known key → q.Owns known key → False := by
      rintro key (named | ⟨opened, out⟩) (named' | ⟨opened', out'⟩)
      · exact apart key named key named' rfl
      · exact out' (sub key (List.mem_append_left _ named))
      · exact out (sub key (List.mem_append_right _ named'))
      · rcases closed with h | h
        · simp [h] at opened
        · simp [h] at opened'
    -- A key of the one part is written by that part alone.
    have agree_r : ∀ key, r.Owns known key →
        o.member? key = (Object.last? (r.write s) key).map Value.canonical := by
      intro key owned
      have other : Object.last? (q.write s) key = none :=
        Object.last?_eq_none fun m hm same => disjoint key owned (same ▸ hq.writes m hm)
      have whole : (r <*> q).Owns known key := by
        rw [Owns, names, opened, List.mem_append, Bool.or_eq_true]
        exact owned.imp .inl fun h => ⟨.inl h.1, h.2⟩
      rw [agree key whole, writes, Object.last?_append, other]
      rfl
    have agree_q : ∀ key, q.Owns known key →
        o.member? key = (Object.last? (q.write s) key).map Value.canonical := by
      intro key owned
      have other : Object.last? (r.write s) key = none :=
        Object.last?_eq_none fun m hm same => disjoint key (same ▸ hr.writes m hm) owned
      have whole : (r <*> q).Owns known key := by
        rw [Owns, names, opened, List.mem_append, Bool.or_eq_true]
        exact owned.imp .inr fun h => ⟨.inr h.1, h.2⟩
      rw [agree key whole, writes, Object.last?_append, other, Option.or_none]
    change (bothOrFirst (r.read scope i) (q.read scope (i + r.names.length))).map _ = .ok x ↔ _
    rw [map_eq_ok]
    simp only [bothOrFirst_eq_ok, Bool.and_eq_true,
      hr.reads shows knows nodup_r (fun k h => sub k (List.mem_append_left _ h)) agree_r,
      hq.reads shows knows nodup_q (fun k h => sub k (List.mem_append_right _ h)) agree_q]
    constructor
    · rintro ⟨⟨f', a'⟩, ⟨⟨fine_r, rfl⟩, fine_q, rfl⟩, rfl⟩
      exact ⟨⟨fine_r, fine_q⟩, rfl⟩
    · rintro ⟨⟨fine_r, fine_q⟩, rfl⟩
      exact ⟨(f, a), ⟨⟨fine_r, rfl⟩, fine_q, rfl⟩, rfl⟩

theorem seq {r : Record σ (α → β)} {q : Record σ α} {fine fine' : Bool} {f : α → β} {a : α}
    (hr : r.Rereads known s fine f) (closed : r.opened = false) (hq : q.Rereads known s fine' a) :
    (r <*> q).Rereads known s (fine && fine') (f a) :=
  seq_either hr (.inl closed) hq

/-- What a scope shows under the only name of a field. -/
theorem under_eq {r : Record σ α} (name : String) {o : Object} {scope : Scope}
    (names : r.names = [[name]]) (shows : scope.Shows o)
    (agree : ∀ key, r.Owns known key →
      o.member? key = (Object.last? (r.write s) key).map Value.canonical) :
    o.under [name] = ((Object.last? (r.write s) name).map Value.canonical).toList := by
  rw [shows.sorted.under, agree name (.inl (by simp [names]))]

theorem aliased {name : String} {get : σ → α} {c : Codec α} {absent : α} {fine : Bool} {a : α}
    (h : c.Rereads (get s) fine a) :
    (Record.aliased name [] get c absent).Rereads known s fine a where
  writes m hm := .inl (by
    rw [List.mem_singleton.mp hm]
    exact List.mem_singleton_self _)
  reads {scope o i x} shows _ _ _ agree := by
    have under : o.under [name] = [(c.encode (get s)).canonical] := by
      rw [under_eq name rfl shows agree]
      simp [Record.aliased, Object.last?_singleton]
    change readField name [] c.decode (some absent) scope i = .ok x ↔ _
    rw [readField_eq_ok shows.shape, under, ← h scope.place x shows.place]
    simp

theorem defaulted {name : String} {get : σ → α} {c : Codec α} {absent : α} {fine : Bool} {a : α}
    (h : c.Rereads (get s) fine a) : (Record.defaulted name get c absent).Rereads known s fine a :=
  aliased h

theorem field {name : String} {get : σ → α} {c : Codec α} {fine : Bool} {a : α}
    (h : c.Rereads (get s) fine a) : (Record.field name get c).Rereads known s fine a where
  writes m hm := .inl (by
    rw [List.mem_singleton.mp hm]
    exact List.mem_singleton_self _)
  reads {scope o i x} shows _ _ _ agree := by
    have under : o.under [name] = [(c.encode (get s)).canonical] := by
      rw [under_eq name rfl shows agree]
      simp [Record.field, Object.last?_singleton]
    rw [read_field_eq_ok shows.shape, under, ← h scope.place x shows.place]
    simp

theorem writes_maybe {name : String} {get : σ → Option α} {c : Codec α} :
    ∀ m ∈ (Record.maybe name get c).write s, (Record.maybe name get c).Owns known m.1 := by
  intro m hm
  rw [Record.maybe] at hm
  cases h : get s with
  | none => simp [h] at hm
  | some a =>
    simp only [h, List.mem_singleton] at hm
    rw [hm]
    exact .inl (List.mem_singleton_self _)

theorem last?_maybe (name : String) (get : σ → Option α) (c : Codec α) :
    Object.last? ((Record.maybe name get c).write s) name = (get s).map c.encode := by
  cases h : get s <;> simp [Record.maybe, h, Object.last?, Object.member?]

/-- A datum that is never written as `null` is there again if it was there. -/
theorem maybe {name : String} {get : σ → Option α} {c : Codec α} {fine : α → Bool}
    {back : α → α} (solid : ∀ a, c.encode a ≠ .null)
    (h : ∀ a, get s = some a → c.Rereads a (fine a) (back a)) :
    (Record.maybe name get c).Rereads known s ((get s).all fine) ((get s).map back) where
  writes := writes_maybe
  reads {scope o i x} shows _ _ _ agree := by
    have under := under_eq name rfl shows agree
    rw [last?_maybe] at under
    rw [read_maybe_eq_ok shows.shape, under]
    cases there : get s with
    | none => simp
    | some a =>
      have read := fun y => h a there scope.place y shows.place
      have written : (c.encode a).canonical ≠ .null := fun e =>
        solid a (Value.canonical_eq_null.mp e)
      simp [Decoder.optional_eq_ok, written, read, and_assoc]

/-- The same for a datum that always comes back as it was. -/
theorem maybe_same {name : String} {get : σ → Option α} {c : Codec α}
    (solid : ∀ a, c.encode a ≠ .null) (h : ∀ a, c.Rereads a true a) :
    (Record.maybe name get c).Rereads known s true (get s) := by
  have all : (Record.maybe name get c).Rereads known s _ _ :=
    maybe solid fun a (_ : get s = some a) => h a
  cases there : get s <;> simpa [there] using all

/-- A value that may be `null` is not there again if it was. -/
theorem maybe_value {name : String} {get : σ → Option Value} :
    (Record.maybe name get .value).Rereads known s true
      (((get s).filter fun v => !v.isNull).map Value.canonical) where
  writes := writes_maybe
  reads {scope o i x} shows _ _ _ agree := by
    have under := under_eq name rfl shows agree
    rw [last?_maybe] at under
    rw [read_maybe_eq_ok shows.shape, under]
    cases there : get s with
    | none => simp
    | some v =>
      have read := fun y => Codec.rereads_value v scope.place y shows.place
      by_cases null : v = .null
      · simp [null, Value.isNull, Codec.value, Value.canonical, Decoder.optional, Value.toTree,
          Option.filter_some]
      · have solid : v.isNull = false := Value.isNull_eq_false.mpr null
        have written : (Codec.value.encode v).canonical ≠ .null := fun e =>
          null (Value.canonical_eq_null.mp e)
        simp [Decoder.optional_eq_ok, written, read, solid, Option.filter_some]

theorem unlessEmpty {name : String} {get : σ → List α} {c : Codec α} {fine : α → Bool}
    {back : α → α} (h : ∀ a ∈ get s, c.Rereads a (fine a) (back a)) :
    (Record.unlessEmpty name get c).Rereads known s ((get s).all fine) ((get s).map back) where
  writes m hm := by
    change m ∈ (if (get s).isEmpty then [] else [(name, (Codec.list c).encode (get s))]) at hm
    split at hm
    · cases hm
    · rw [List.mem_singleton.mp hm]
      exact .inl (List.mem_singleton_self _)
  reads {scope o i x} shows _ _ _ agree := by
    have under := under_eq name rfl shows agree
    change readField name [] (Codec.list c).decode (some []) scope i = .ok x ↔ _
    rw [readField_eq_ok shows.shape, under]
    by_cases empty : get s = []
    · simp [Record.unlessEmpty, empty, Object.last?, Object.member?]
    · have read := Codec.rereads_list h scope.place x shows.place
      have written : (Record.unlessEmpty name get c).write s
          = [(name, (Codec.list c).encode (get s))] := by
        simp [Record.unlessEmpty, empty]
      rw [written, Object.last?_singleton, ← read]
      simp

/-- The members of an object that no field knows. -/
theorem strayValues_toTrees {p : Place} (hp : p.origin ≠ .text) (known : List String) :
    ∀ (i : Nat) (o : Object), strayValues p known i (membersToTrees o)
      = .ok (Value.canonicalMembers (o.filter fun m => m.1 ∉ known))
  | _, [] => rfl
  | i, (k, v) :: o => by
      have ih := strayValues_toTrees hp known (i + 1) o
      rw [membersToTrees, strayValues, List.filter_cons]
      by_cases h : k ∈ known
      · simpa [h] using ih
      · rw [if_neg h, value_toTree v p hp, ih, if_pos (by simpa using h)]
        rfl

theorem member?_unknown (known : List String) (o : Object) (key : String) :
    Object.member? (o.filter fun m => m.1 ∉ known) key
      = if key ∈ known then none else o.member? key := by
  rw [Object.member?_filter (fun k => k ∉ known)]
  by_cases h : key ∈ known <;> simp [h]

/-- Members that no field knows come together again in key order, and what they are read as is read. -/
theorem gathered {get : σ → α} {write : α → Object} {read : Object → Except DecodeError α}
    {fine : Bool} {a : α} (free : (write (get s)).FreeOf known)
    (h : ∀ x, read (write (get s)).canonical = .ok x ↔ fine = true ∧ a = x) :
    (Record.gathered get write read).Rereads known s fine a where
  writes m hm := .inr ⟨rfl, free m hm⟩
  reads {scope o i x} shows knows _ _ agree := by
    have back : Object.ofList (Value.canonicalMembers (o.filter fun m => m.1 ∉ known))
        = (write (get s)).canonical := by
      refine (Object.sorted_ofList _).ext (Object.sorted_canonical _) fun key => ?_
      have sorted : Object.Sorted (o.filter fun m => m.1 ∉ known) := shows.sorted.filter _
      change Object.member? (Object.canonical _) key = _
      rw [Object.member?_canonical, sorted.last?, member?_unknown, Object.member?_canonical]
      by_cases h : key ∈ known
      · have nothing : Object.last? (write (get s)) key = none :=
          Object.last?_eq_none fun m hm same => free m hm (same ▸ h)
        simp [h, nothing]
      · have shown : o.member? key = (Object.last? (write (get s)) key).map Value.canonical :=
          agree key (.inr ⟨rfl, h⟩)
        simp [h, shown, Function.comp_def, Value.canonical_canonical]
    have found : (Record.gathered get write read).read scope i
        = (read (write (get s)).canonical).mapError .afterwards := by
      simp only [Record.gathered, shows.shape, knows, strayValues_toTrees shows.place]
      change (read (Object.ofList (Value.canonicalMembers _))).mapError _ = _
      rw [back]
    rw [found, ← h x]
    cases read (write (get s)).canonical <;> simp [Except.mapError]

theorem rest {get : σ → Object} (free : (get s).FreeOf known) :
    (Record.rest get).Rereads known s true (get s).canonical :=
  gathered free fun x => by simp

end Rereads

end Record

/-- The codec of a record whose field names do not repeat. -/
theorem Record.rereads_codec {name : String} {r : Record α α} {a b b' : α} {fine fine' : Bool}
    (nodup : r.names.flatten.Nodup) (h : r.Rereads r.names.flatten a fine b)
    (same : fine = fine') (back : b = b') : (Record.codec name r).Rereads a fine' b' := by
  subst same back
  intro p x hp
  change r.decode _ p (Value.obj (Object.canonical (r.write a))).toTree = .ok x ↔ _
  rw [Record.decode_obj_eq_ok hp]
  exact h.reads ⟨rfl, hp, Object.sorted_canonical _⟩ rfl nodup (fun _ => id)
    fun key _ => Object.member?_canonical _ key

/-- The codec of a record as before, where a tag that is no field is no key of what is written. -/
theorem Record.rereads_untagged {name : String} {r : Record α α} {a b b' : α} {fine fine' : Bool}
    (tag : String) (nodup : r.names.flatten.Nodup) (h : r.Rereads r.names.flatten a fine b)
    (same : fine = fine') (back : b = b') (closed : r.opened = false)
    (free : tag ∉ r.names.flatten) :
    (Record.codec name r).Rereads a fine' b' ∧
      ∃ ms, (Record.codec name r).encode a = .obj ms ∧ ∀ m ∈ ms, m.1 ≠ tag := by
  refine ⟨Record.rereads_codec nodup h same back, r.write a, rfl, fun m hm tagged => ?_⟩
  rcases h.writes m hm with h | ⟨opened, -⟩
  · exact free (tagged ▸ h)
  · simp [closed] at opened

/-- Taking a tag off again leaves the other members. -/
theorem Object.without_canonical {ms : Object} {tag : String} (h : ∀ m ∈ ms, m.1 ≠ tag)
    (v : Value) : Object.without tag (Object.canonical ((tag, v) :: ms)) = ms.canonical := by
  have sorted : Object.Sorted (Object.without tag (Object.canonical ((tag, v) :: ms))) :=
    (Object.sorted_canonical _).filter _
  refine sorted.ext (Object.sorted_canonical _) fun key => ?_
  have filtered : Object.member? (Object.without tag (Object.canonical ((tag, v) :: ms))) key
      = if key ∈ [tag] then none else Object.member? (Object.canonical ((tag, v) :: ms)) key := by
    rw [← Record.Rereads.member?_unknown, Object.without]
    congr 2
    funext m
    by_cases h : m.1 = tag <;> simp [h]
  rw [filtered, member?_canonical, member?_canonical, last?_cons]
  by_cases same : key = tag
  · subst same
    simp [last?_eq_none h]
  · simp [same]

end Flowgraph.Json
