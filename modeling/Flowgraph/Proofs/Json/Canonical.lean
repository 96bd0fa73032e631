import Flowgraph.Proofs.Json.Rereading

/-! What comes out of reading. Every value that is read is in canonical form, wherever it was read from: a
    text, a value or what was set aside, and whether a record was given by names or as a list. -/

namespace Flowgraph.Json

/-! ### Values -/

mutual

/-- The value of a tree is canonical. -/
theorem canonical_of_value : ∀ (t : Tree) {p : Place} {v : Value}, t.value p = .ok v →
    v.canonical = v
  | .null, _, _, h | .bool _, _, _, h => by cases h; rfl
  | .num n, _, _, h => by
      obtain ⟨m, -, rfl⟩ := map_eq_ok.mp h
      rfl
  | .str s, _, _, h => by
      obtain ⟨m, -, rfl⟩ := map_eq_ok.mp h
      rfl
  | .misspelt _, _, _, h | .broken _, _, _, h => by cases h
  | .arr items ending, _, _, h => by
      obtain ⟨inner, -, h⟩ := bind_eq_ok.mp h
      obtain ⟨vs, read, h⟩ := bind_eq_ok.mp h
      obtain ⟨-, -, h⟩ := bind_eq_ok.mp h
      cases h
      rw [Value.canonical, canonical_of_itemValues items read]
  | .obj members ending, _, _, h => by
      obtain ⟨inner, -, h⟩ := bind_eq_ok.mp h
      obtain ⟨ms, read, h⟩ := bind_eq_ok.mp h
      obtain ⟨-, -, h⟩ := bind_eq_ok.mp h
      cases h
      -- What is built from canonical members is the canonical form of the object they are listed in.
      have built : Value.obj (Object.ofList ms) = (Value.obj ms).canonical := by
        rw [Value.canonical, canonical_of_memberValues members read]
      rw [built, Value.canonical_canonical]

theorem canonical_of_itemValues : ∀ (ts : List Tree) {p : Place} {vs : List Value},
    itemValues p ts = .ok vs → Value.canonicalItems vs = vs
  | [], _, _, h => by cases h; rfl
  | t :: ts, _, _, h => by
      obtain ⟨v, here, h⟩ := bind_eq_ok.mp h
      obtain ⟨vs, there, h⟩ := bind_eq_ok.mp h
      cases h
      rw [Value.canonicalItems, canonical_of_value t here, canonical_of_itemValues ts there]

theorem canonical_of_memberValues : ∀ (ms : List (Except Fault String × Tree)) {p : Place}
    {vs : Object}, memberValues p ms = .ok vs → Value.canonicalMembers vs = vs
  | [], _, _, h => by cases h; rfl
  | (k, t) :: ms, _, _, h => by
      obtain ⟨key, -, h⟩ := bind_eq_ok.mp h
      obtain ⟨v, here, h⟩ := bind_eq_ok.mp h
      obtain ⟨vs, there, h⟩ := bind_eq_ok.mp h
      cases h
      rw [Value.canonicalMembers, canonical_of_value t here, canonical_of_memberValues ms there]

end

/-- Only a tree that is `null` has the value `null`. -/
theorem eq_null_of_value {t : Tree} {p : Place} (h : t.value p = .ok .null) : t = .null := by
  cases t with
  | null => rfl
  | num n =>
    obtain ⟨m, -, other⟩ := map_eq_ok.mp h
    cases other
  | str s =>
    obtain ⟨m, -, other⟩ := map_eq_ok.mp h
    cases other
  | arr items ending | obj members ending =>
    obtain ⟨_, -, h⟩ := bind_eq_ok.mp h
    obtain ⟨_, -, h⟩ := bind_eq_ok.mp h
    obtain ⟨_, -, h⟩ := bind_eq_ok.mp h
    cases h
  | bool _ | misspelt _ | broken _ => cases h

/-- An object built from canonical values is canonical. -/
theorem Object.canonical_ofList {ms : Object} (h : Value.canonicalMembers ms = ms) :
    Object.canonical (Object.ofList ms) = Object.ofList ms := by
  have built : Object.ofList ms = Object.canonical ms := by rw [Object.canonical, h]
  rw [built, Object.canonical_canonical]

/-! ### Decoders -/

theorem mapError_eq_ok {x : Except ε α} {f : ε → δ} {a : α} :
    x.mapError f = .ok a ↔ x = .ok a := by
  cases x <;> simp [Except.mapError]

/-- What holds of each item as it is read holds of all items of the list. -/
theorem forall_mem_of_mapM {f : α → Except ε β} {xs : List α} {ys : List β} {Q : β → Prop}
    (read : xs.mapM f = .ok ys) (h : ∀ x y, f x = .ok y → Q y) : ∀ y ∈ ys, Q y := by
  have items := mapM_eq_ok.mp read
  clear read
  induction items with
  | nil => simp
  | cons here _ ih => exact List.forall_mem_cons.mpr ⟨h _ _ here, ih⟩

/-- A list stays as it is if each of its items does. -/
theorem map_eq_self {f : α → α} {xs : List α} (h : ∀ x ∈ xs, f x = x) : xs.map f = xs := by
  rw [List.map_congr_left h, List.map_id']

theorem forall_eq_self_of_map {f : α → α} {xs : List α} (h : xs.map f = xs) : ∀ x ∈ xs, f x = x :=
  List.map_inj_left.mp (h.trans (List.map_id' xs).symm)

namespace Decoder

/-- Whatever a decoder reads has a property. -/
def Yields (d : Decoder α) (Q : α → Prop) : Prop := ∀ p t a, d p t = .ok a → Q a

theorem of_optional_eq_some {d : Decoder α} {p : Place} {t : Tree} {a : α}
    (h : Decoder.optional d p t = .ok (some a)) : t ≠ .null ∧ d p t = .ok a := by
  unfold optional at h
  split at h
  · cases h
  · rename_i solid
    obtain ⟨b, read, same⟩ := map_eq_ok.mp h
    cases same
    exact ⟨solid, read⟩

namespace Yields

theorem value : Decoder.value.Yields fun v => v.canonical = v :=
  fun _ t _ h => canonical_of_value t h

theorem object : Decoder.object.Yields fun o => Object.canonical o = o := by
  intro p t o h
  obtain ⟨ms, read, rfl⟩ := map_eq_ok.mp h
  cases t with
  | obj members ending =>
    obtain ⟨inner, -, read⟩ := bind_eq_ok.mp read
    obtain ⟨xs, each, read⟩ := bind_eq_ok.mp read
    obtain ⟨-, -, read⟩ := bind_eq_ok.mp read
    cases read
    have values : ∀ m ∈ ms, m.2.canonical = m.2 := by
      refine forall_mem_of_mapM each fun x m here => ?_
      obtain ⟨k, -, here⟩ := bind_eq_ok.mp here
      obtain ⟨v, read, here⟩ := bind_eq_ok.mp here
      cases here
      exact canonical_of_value _ read
    refine Object.canonical_ofList ?_
    rw [Value.canonicalMembers_eq_map]
    exact map_eq_self fun m hm => Prod.ext rfl (values m hm)
  | null | bool _ | num _ | str _ | misspelt _ | broken _ | arr _ _ => cases read

theorem optional {d : Decoder α} {Q : α → Prop} (h : d.Yields Q) :
    (Decoder.optional d).Yields fun x => ∀ a, x = some a → Q a := by
  rintro p t x read a rfl
  exact h p t a (of_optional_eq_some read).2

/-- What is there under an optional field is not `null`. -/
theorem optional_value :
    (Decoder.optional Decoder.value).Yields fun x => ∀ v, x = some v → v.canonical = v ∧ v ≠ .null := by
  rintro p t x read v rfl
  obtain ⟨solid, read⟩ := of_optional_eq_some read
  refine ⟨value p t v read, ?_⟩
  rintro rfl
  exact solid (eq_null_of_value read)

theorem list {d : Decoder α} {Q : α → Prop} (h : d.Yields Q) :
    (Decoder.list d).Yields fun xs => ∀ a ∈ xs, Q a := by
  intro p t xs read
  cases t with
  | arr ts ending =>
    obtain ⟨inner, -, read⟩ := bind_eq_ok.mp read
    obtain ⟨ys, each, read⟩ := bind_eq_ok.mp read
    obtain ⟨-, -, read⟩ := bind_eq_ok.mp read
    cases read
    exact forall_mem_of_mapM each fun u y => h inner u y
  | null | bool _ | num _ | str _ | misspelt _ | broken _ | obj _ _ => cases read

end Yields

end Decoder

/-! ### Records -/

namespace Record

/-- A field is what stands for an absent one, or something that was read. -/
theorem readField_yields {name : String} {aliases : List String} {d : Decoder α}
    {absent : Option α} {Q : α → Prop} (h : d.Yields Q) (default : ∀ a, absent = some a → Q a)
    {scope : Scope} {i : Nat} {a : α} (read : readField name aliases d absent scope i = .ok a) :
    Q a := by
  unfold readField at read
  split at read
  · split at read
    · split at read
      · cases read
        exact default _ rfl
      · cases read
    · split at read
      · cases read
      · rename_i decoded
        split at read
        · cases read
          exact h _ _ _ decoded
        · cases read
  · split at read
    · exact h _ _ _ (mapError_eq_ok.mp read)
    · split at read
      · cases read
      · cases read
        exact default _ rfl
      · cases read

namespace Gives

variable {name : String} {scope : Scope}

theorem field {get : σ → α} {c : Codec α} {Q : α → Prop} (h : c.decode.Yields Q) :
    (Record.field name get c).Gives scope Q := by
  intro i a read
  change readField name [] c.decode none scope i = .ok a at read
  exact readField_yields h (by simp) read

theorem defaulted {get : σ → α} {c : Codec α} {absent : α} {Q : α → Prop}
    (h : c.decode.Yields Q) (default : Q absent) :
    (Record.defaulted name get c absent).Gives scope Q := by
  intro i a read
  change readField name [] c.decode (some absent) scope i = .ok a at read
  exact readField_yields h (by simpa using default) read

theorem maybe {get : σ → Option α} {c : Codec α} {Q : α → Prop} (h : c.decode.Yields Q) :
    (Record.maybe name get c).Gives scope fun x => ∀ a, x = some a → Q a := by
  intro i x read
  change readField name [] (.optional c.decode) (some none) scope i = .ok x at read
  exact readField_yields h.optional (by simp) read

theorem maybe_value {get : σ → Option Value} :
    (Record.maybe name get .value).Gives scope fun x =>
      ∀ v, x = some v → v.canonical = v ∧ v ≠ .null := by
  intro i x read
  change readField name [] (.optional .value) (some none) scope i = .ok x at read
  exact readField_yields Decoder.Yields.optional_value (by simp) read

theorem unlessEmpty {get : σ → List α} {c : Codec α} {Q : α → Prop} (h : c.decode.Yields Q) :
    (Record.unlessEmpty name get c).Gives scope fun xs => ∀ a ∈ xs, Q a := by
  intro i xs read
  change readField name [] (.list c.decode) (some []) scope i = .ok xs at read
  exact readField_yields h.list (by simp) read

theorem strayValues_canonical {p : Place} {known : List String} :
    ∀ (i : Nat) (ms : List (Except Fault String × Tree)) {o : Object},
      strayValues p known i ms = .ok o → Value.canonicalMembers o = o
  | _, [], _, h => by cases h; rfl
  | i, (.error _, _) :: ms, _, h => strayValues_canonical (i + 1) ms h
  | i, (.ok k, t) :: ms, _, h => by
      rw [strayValues] at h
      split at h
      · exact strayValues_canonical (i + 1) ms h
      · obtain ⟨v, here, h⟩ := bind_eq_ok.mp h
        obtain ⟨rest, there, h⟩ := bind_eq_ok.mp h
        cases h
        rw [Value.canonicalMembers, canonical_of_value t (mapError_eq_ok.mp here),
          strayValues_canonical (i + 1) ms there]

theorem rest {get : σ → Object} :
    (Record.rest get).Gives scope fun o => Object.canonical o = o := by
  intro i o h
  simp only [Record.rest, gathered] at h
  split at h
  · obtain ⟨ms, stray, h⟩ := bind_eq_ok.mp h
    cases h
    exact Object.canonical_ofList (strayValues_canonical _ _ stray)
  · cases h
    rfl

end Gives

/-- What a record gives wherever its fields are, it yields. -/
theorem decode_yields {title : String} {r : Record σ α} {Q : α → Prop}
    (h : ∀ scope, r.Gives scope Q) : (r.decode title).Yields Q := by
  intro p t a read
  cases t with
  | obj members ending =>
    obtain ⟨inner, -, read⟩ := bind_eq_ok.mp read
    dsimp only at read
    split at read
    · rename_i both
      cases read
      exact h _ 0 _ (Rereads.bothOrFirst_eq_ok.mp both).2
    · cases read
  | arr items ending =>
    rw [decode] at read
    split at read
    · cases read
    · obtain ⟨inner, -, read⟩ := bind_eq_ok.mp read
      obtain ⟨b, fields, read⟩ := bind_eq_ok.mp read
      split at read
      · cases read
      · cases read
        exact h _ 0 _ (mapError_eq_ok.mp fields)
  | null | bool _ | num _ | str _ | misspelt _ | broken _ => cases read

end Record

end Flowgraph.Json
