import Flowgraph.Proofs.Json.Carrying
import Flowgraph.Proofs.Numeral
import Flowgraph.Proofs.Placeholder

/-! Reading after answers have been filled in. What a datum is read from may hold placeholders; with the
    answers filled in it is read as the same datum with the answers in its texts. Numbers stay as they are,
    also those that are given as text, since a numeral has no placeholder in it. -/

namespace Flowgraph.Json

open Placeholder (render apply)

variable {answers : Object}

/-! ### Trees -/

mutual

/-- The tree with the answers filled into its texts. -/
def Tree.fill (answers : Object) : Tree → Tree
  | .str s => .str (s.map (render · answers))
  | .arr items ending => .arr (fillItems answers items) ending
  | .obj members ending => .obj (fillMembers answers members) ending
  | .null => .null
  | .bool b => .bool b
  | .num n => .num n
  | .misspelt b => .misspelt b
  | .broken b => .broken b

def fillItems (answers : Object) : List Tree → List Tree
  | [] => []
  | t :: ts => t.fill answers :: fillItems answers ts

def fillMembers (answers : Object) :
    List (Except Fault String × Tree) → List (Except Fault String × Tree)
  | [] => []
  | (k, t) :: ms => (k, t.fill answers) :: fillMembers answers ms

end

theorem fillItems_eq_map (ts : List Tree) : fillItems answers ts = ts.map (Tree.fill answers) := by
  induction ts with
  | nil => rfl
  | cons t ts ih => rw [fillItems, ih, List.map_cons]

theorem fillMembers_eq_map (ms : List (Except Fault String × Tree)) :
    fillMembers answers ms = ms.map fun m => (m.1, m.2.fill answers) := by
  induction ms with
  | nil => rfl
  | cons m ms ih =>
    obtain ⟨k, t⟩ := m
    rw [fillMembers, ih, List.map_cons]

mutual

/-- The tree of a value with answers is the tree of the value with the answers filled in. -/
theorem toTree_apply (answers : Object) : ∀ v : Value,
    (apply answers v).toTree = v.toTree.fill answers
  | .null | .bool _ | .num _ => rfl
  | .str s => by rw [Placeholder.apply_str, Value.toTree, Value.toTree, Tree.fill]; rfl
  | .arr items => by
      rw [apply, Value.toTree, Value.toTree, Tree.fill, itemsToTrees_applyItems]
  | .obj members => by
      rw [apply, Value.toTree, Value.toTree, Tree.fill, membersToTrees_applyMembers]

theorem itemsToTrees_applyItems (answers : Object) : ∀ vs : List Value,
    itemsToTrees (Placeholder.applyItems answers vs) = fillItems answers (itemsToTrees vs)
  | [] => rfl
  | v :: vs => by
      rw [Placeholder.applyItems, itemsToTrees, itemsToTrees, fillItems, toTree_apply,
        itemsToTrees_applyItems]

theorem membersToTrees_applyMembers (answers : Object) : ∀ ms : List (String × Value),
    membersToTrees (Placeholder.applyMembers answers ms) = fillMembers answers (membersToTrees ms)
  | [] => rfl
  | (k, v) :: ms => by
      rw [Placeholder.applyMembers, membersToTrees, membersToTrees, fillMembers, toTree_apply,
        membersToTrees_applyMembers]

end

mutual

theorem passingFault?_fill : ∀ t : Tree, (t.fill answers).passingFault? = t.passingFault?
  | .null | .bool _ | .num _ | .str _ | .misspelt _ | .broken _ => rfl
  | .arr items ending => by
      rw [Tree.fill, Tree.passingFault?, Tree.passingFault?, passingItems?_fill]
  | .obj members ending => by
      rw [Tree.fill, Tree.passingFault?, Tree.passingFault?, passingMembers?_fill]

theorem passingItems?_fill : ∀ ts : List Tree,
    passingItems? (fillItems answers ts) = passingItems? ts
  | [] => rfl
  | t :: ts => by
      rw [fillItems, passingItems?, passingItems?, passingFault?_fill, passingItems?_fill]

theorem passingMembers?_fill : ∀ ms : List (Except Fault String × Tree),
    passingMembers? (fillMembers answers ms) = passingMembers? ms
  | [] => rfl
  | (_, t) :: ms => by
      rw [fillMembers, passingMembers?, passingMembers?, passingFault?_fill, passingMembers?_fill]

end

mutual

/-- The value of a tree with the answers filled in. -/
theorem value_fill : ∀ (t : Tree) {p : Place} {v : Value}, t.value p = .ok v →
    (t.fill answers).value p = .ok (apply answers v)
  | .null, _, _, h | .bool _, _, _, h => by cases h; rfl
  | .num n, _, _, h => by
      obtain ⟨m, read, rfl⟩ := map_eq_ok.mp h
      exact h
  | .str s, _, _, h => by
      obtain ⟨text, read, rfl⟩ := map_eq_ok.mp h
      rw [mapError_eq_ok.mp read, Placeholder.apply_str]
      rfl
  | .misspelt _, _, _, h | .broken _, _, _, h => by cases h
  | .arr items ending, _, _, h => by
      obtain ⟨inner, entered, h⟩ := bind_eq_ok.mp h
      obtain ⟨vs, read, h⟩ := bind_eq_ok.mp h
      obtain ⟨_, ended, h⟩ := bind_eq_ok.mp h
      cases h
      rw [Tree.fill, Tree.value, entered]
      refine bind_eq_ok.mpr ⟨_, rfl, bind_eq_ok.mpr ⟨_, itemValues_fill items read, ?_⟩⟩
      rw [ended]
      rfl
  | .obj members ending, _, _, h => by
      obtain ⟨inner, entered, h⟩ := bind_eq_ok.mp h
      obtain ⟨ms, read, h⟩ := bind_eq_ok.mp h
      obtain ⟨_, ended, h⟩ := bind_eq_ok.mp h
      cases h
      rw [Tree.fill, Tree.value, entered]
      refine bind_eq_ok.mpr ⟨_, rfl, bind_eq_ok.mpr ⟨_, memberValues_fill members read, ?_⟩⟩
      rw [ended, Placeholder.apply_obj]
      exact congrArg (fun o => Except.ok (Value.obj o)) (Object.map_ofList (apply answers) ms).symm

theorem itemValues_fill : ∀ (ts : List Tree) {p : Place} {vs : List Value},
    itemValues p ts = .ok vs →
    itemValues p (fillItems answers ts) = .ok (Placeholder.applyItems answers vs)
  | [], _, _, h => by cases h; rfl
  | t :: ts, _, _, h => by
      obtain ⟨v, here, h⟩ := bind_eq_ok.mp h
      obtain ⟨vs, there, h⟩ := bind_eq_ok.mp h
      cases h
      rw [fillItems, itemValues, value_fill t here, itemValues_fill ts there]
      rfl

theorem memberValues_fill : ∀ (ms : List (Except Fault String × Tree)) {p : Place}
    {vs : Object}, memberValues p ms = .ok vs →
    memberValues p (fillMembers answers ms) = .ok (vs.mapValues (apply answers))
  | [], _, _, h => by cases h; rfl
  | (k, t) :: ms, _, _, h => by
      obtain ⟨key, text, h⟩ := bind_eq_ok.mp h
      obtain ⟨v, here, h⟩ := bind_eq_ok.mp h
      obtain ⟨vs, there, h⟩ := bind_eq_ok.mp h
      cases h
      rw [fillMembers, memberValues, text, value_fill t here, memberValues_fill ms there]
      rfl

end

/-! ### Decoders -/

namespace Decoder

/-- What a decoder reads, it reads with the answers filled in as the datum with the answers. -/
def Fills (d : Decoder α) (answers : Object) (f : α → α) : Prop :=
  ∀ p t a, d p t = .ok a → d p (t.fill answers) = .ok (f a)

namespace Fills

theorem string : Decoder.string.Fills answers (render · answers) := by
  intro p t s h
  cases t with
  | str text =>
    cases text with
    | error f => cases h
    | ok text => cases h; rfl
  | null | bool _ | num _ | arr _ _ | obj _ _ | misspelt _ | broken _ => cases h

theorem value : Decoder.value.Fills answers (apply answers) := fun _ t _ h => value_fill t h

theorem natural (kind : String) (max : Nat) : (Decoder.natural kind max).Fills answers id := by
  intro p t n h
  cases t with
  | num n => exact h
  | str text => cases text <;> cases h
  | null | bool _ | arr _ _ | obj _ _ | misspelt _ | broken _ => cases h

theorem setAside {read : Value → Except DecodeError α} {f : α → α}
    (h : ∀ v a, read v = .ok a → read (apply answers v) = .ok (f a)) :
    (Decoder.setAside read).Fills answers f := by
  intro p t a there
  obtain ⟨v, here, decoded⟩ := bind_eq_ok.mp there
  exact bind_eq_ok.mpr ⟨_, value_fill t here, h v a decoded⟩

theorem optional {d : Decoder α} {f : α → α} (h : d.Fills answers f) :
    (Decoder.optional d).Fills answers (Option.map f) := by
  intro p t x read
  cases t with
  | null => cases read; rfl
  | bool _ | num _ | str _ | arr _ _ | obj _ _ | misspelt _ | broken _ =>
    obtain ⟨a, decoded, rfl⟩ := map_eq_ok.mp read
    exact map_eq_ok.mpr ⟨f a, h _ _ _ decoded, rfl⟩

theorem list {d : Decoder α} {f : α → α} (h : d.Fills answers f) :
    (Decoder.list d).Fills answers (List.map f) := by
  intro p t xs read
  cases t with
  | arr ts ending =>
    obtain ⟨inner, entered, read⟩ := bind_eq_ok.mp read
    obtain ⟨ys, each, read⟩ := bind_eq_ok.mp read
    obtain ⟨_, ended, read⟩ := bind_eq_ok.mp read
    cases read
    have items : Decoder.items d inner (fillItems answers ts) = .ok (xs.map f) := by
      rw [fillItems_eq_map]
      refine mapM_eq_ok.mpr (List.forall₂_map_left_iff.mpr (List.forall₂_map_right_iff.mpr ?_))
      exact (mapM_eq_ok.mp each).imp fun u y decoded => h inner u y decoded
    rw [Tree.fill, Decoder.list, entered]
    refine bind_eq_ok.mpr ⟨_, rfl, bind_eq_ok.mpr ⟨_, items, ?_⟩⟩
    rw [ended]
    rfl
  | str text => cases text <;> cases read
  | null | bool _ | num _ | obj _ _ | misspelt _ | broken _ => cases read

theorem object : Decoder.object.Fills answers (Object.mapValues (apply answers)) := by
  intro p t o read
  obtain ⟨ms, members, rfl⟩ := map_eq_ok.mp read
  cases t with
  | obj trees ending =>
    obtain ⟨inner, entered, members⟩ := bind_eq_ok.mp members
    obtain ⟨xs, each, members⟩ := bind_eq_ok.mp members
    obtain ⟨_, ended, members⟩ := bind_eq_ok.mp members
    cases members
    refine map_eq_ok.mpr ⟨Object.mapValues (apply answers) ms, ?_, (Object.map_ofList _ ms).symm⟩
    rw [Tree.fill, Decoder.members, entered]
    refine bind_eq_ok.mpr ⟨_, rfl, bind_eq_ok.mpr ⟨_, mapM_eq_ok.mpr ?_, by rw [ended]; rfl⟩⟩
    rw [fillMembers_eq_map]
    refine List.forall₂_map_left_iff.mpr (List.forall₂_map_right_iff.mpr ?_)
    refine (mapM_eq_ok.mp each).imp fun m x read => ?_
    obtain ⟨k, key, read⟩ := bind_eq_ok.mp read
    obtain ⟨v, here, read⟩ := bind_eq_ok.mp read
    cases read
    exact bind_eq_ok.mpr ⟨_, key, bind_eq_ok.mpr ⟨_, value_fill _ here, rfl⟩⟩
  | str text => cases text <;> cases members
  | null | bool _ | num _ | arr _ _ | misspelt _ | broken _ => cases members

/-- A number that is given as text has no placeholder in it. -/
theorem lenientNumber {number? : Number → Option α} {parse : List Char → Except Numeral.Flaw α}
    (plain : ∀ cs a, parse cs = .ok a → '{' ∉ cs) :
    (Codec.lenientNumber number? parse).Fills answers id := by
  refine setAside fun v a read => ?_
  cases v with
  | num n => exact read
  | str s =>
    have parsed := mapError_eq_ok.mp read
    have unchanged : render s answers = s := by
      refine Placeholder.render_of_plain (fun brace => ?_) answers
      exact plain _ a parsed (Text.mem_trimChars brace (by decide))
    rw [Placeholder.apply_str, unchanged]
    exact read
  | null | bool _ | arr _ | obj _ => cases read

theorem lenientUInt32 : Codec.lenientUInt32.decode.Fills answers id := by
  simp only [Codec.lenientUInt32]
  refine lenientNumber fun cs a h => ?_
  obtain ⟨n, read, -⟩ := map_eq_ok.mp h
  exact Numeral.brace_not_mem_of_natural read

theorem lenientUInt64 : Codec.lenientUInt64.decode.Fills answers id := by
  simp only [Codec.lenientUInt64]
  refine lenientNumber fun cs a h => ?_
  obtain ⟨n, read, -⟩ := map_eq_ok.mp h
  exact Numeral.brace_not_mem_of_natural read

theorem lenientDouble : Codec.lenientDouble.decode.Fills answers id :=
  lenientNumber fun _ _ h => Numeral.brace_not_mem_of_double h

theorem uint64 : Codec.uint64.decode.Fills answers id := by
  intro p t a h
  obtain ⟨n, read, rfl⟩ := map_eq_ok.mp h
  exact map_eq_ok.mpr ⟨n, natural _ _ p t n read, rfl⟩

end Fills

end Decoder

/-! ### Records -/

/-- The scope with the answers filled in. -/
def Scope.fill (answers : Object) (s : Scope) : Scope :=
  { s with shape := match s.shape with
    | .named members => .named (fillMembers answers members)
    | .listed items ending => .listed (fillItems answers items) ending }

namespace Record

theorem occurrences_fill (names : List String) (i : Nat) (ms : List (Except Fault String × Tree)) :
    occurrences names i (fillMembers answers ms)
      = (occurrences names i ms).map fun x => (x.1, x.2.fill answers) := by
  induction ms generalizing i with
  | nil => rfl
  | cons m ms ih =>
    obtain ⟨k, t⟩ := m
    cases k with
    | error f => exact ih (i + 1)
    | ok k =>
      rw [fillMembers, occurrences, occurrences, ih (i + 1)]
      split <;> rfl

/-- A field is filled in as what is read under it is, and what stands for an absent one stays. -/
theorem readField_fill {name : String} {aliases : List String} {d : Decoder α} {absent : Option α}
    {f : α → α} (h : d.Fills answers f) (default : ∀ a, absent = some a → f a = a) {scope : Scope}
    {i : Nat} {a : α} (read : readField name aliases d absent scope i = .ok a) :
    readField name aliases d absent (scope.fill answers) i = .ok (f a) := by
  obtain ⟨title, known, size, place, shape⟩ := scope
  cases shape with
  | named members =>
    simp only [readField, Scope.fill, occurrences_fill] at read ⊢
    cases found : occurrences (name :: aliases) 0 members with
    | nil =>
      rw [found] at read
      cases absent with
      | none => cases read
      | some b =>
        cases read
        rw [List.map_nil, default a rfl]
    | cons first more =>
      rw [found] at read
      cases decoded : d place first.2 with
      | error e => simp [decoded] at read
      | ok b =>
        cases more with
        | nil =>
          simp only [decoded] at read
          cases read
          simp [h _ _ _ decoded]
        | cons second more => simp [decoded] at read
  | listed items ending =>
    simp only [readField, Scope.fill, fillItems_eq_map, List.getElem?_map] at read ⊢
    cases found : items[i]? with
    | some t =>
      rw [found] at read
      exact mapError_eq_ok.mpr (h _ _ _ (mapError_eq_ok.mp read))
    | none =>
      rw [found] at read
      cases ending with
      | some b => cases read
      | none =>
        cases absent with
        | none => cases read
        | some b =>
          cases read
          rw [Option.map_none, default a rfl]

namespace Carries

variable {name : String} {scope : Scope} {f : α → α}

theorem field {get : σ → α} {c : Codec α} (h : c.decode.Fills answers f) :
    (Record.field name get c).Carries scope (scope.fill answers) fun a b => b = f a := by
  intro i a read
  change readField name [] c.decode none scope i = .ok a at read
  exact ⟨_, readField_fill h (by simp) read, rfl⟩

theorem defaulted {get : σ → α} {c : Codec α} {absent : α} (h : c.decode.Fills answers f)
    (default : f absent = absent) :
    (Record.defaulted name get c absent).Carries scope (scope.fill answers) fun a b => b = f a := by
  intro i a read
  change readField name [] c.decode (some absent) scope i = .ok a at read
  exact ⟨_, readField_fill h (by simpa using default) read, rfl⟩

theorem maybe {get : σ → Option α} {c : Codec α} (h : c.decode.Fills answers f) :
    (Record.maybe name get c).Carries scope (scope.fill answers) fun a b => b = a.map f := by
  intro i a read
  change readField name [] (.optional c.decode) (some none) scope i = .ok a at read
  exact ⟨_, readField_fill h.optional (by simp) read, rfl⟩

theorem unlessEmpty {get : σ → List α} {c : Codec α} (h : c.decode.Fills answers f) :
    (Record.unlessEmpty name get c).Carries scope (scope.fill answers) fun a b => b = a.map f := by
  intro i a read
  change readField name [] (.list c.decode) (some []) scope i = .ok a at read
  exact ⟨_, readField_fill h.list (by simp) read, rfl⟩

theorem strayValues_fill {p : Place} {known : List String} :
    ∀ (i : Nat) (ms : List (Except Fault String × Tree)) {o : Object},
      strayValues p known i ms = .ok o →
      strayValues p known i (fillMembers answers ms) = .ok (o.mapValues (apply answers))
  | _, [], _, h => by cases h; rfl
  | i, (.error _, _) :: ms, _, h => strayValues_fill (i + 1) ms h
  | i, (.ok k, t) :: ms, _, h => by
      rw [strayValues] at h
      rw [fillMembers, strayValues]
      split at h
      · rename_i known
        rw [if_pos known]
        exact strayValues_fill (i + 1) ms h
      · rename_i unknown
        obtain ⟨v, here, h⟩ := bind_eq_ok.mp h
        obtain ⟨rest, there, h⟩ := bind_eq_ok.mp h
        cases h
        rw [if_neg unknown, value_fill t (mapError_eq_ok.mp here), strayValues_fill (i + 1) ms there]
        rfl

theorem rest {get : σ → Object} :
    (Record.rest get).Carries scope (scope.fill answers)
      fun a b => b = a.mapValues (apply answers) := by
  obtain ⟨title, known, size, place, shape⟩ := scope
  intro i o read
  refine ⟨_, ?_, rfl⟩
  cases shape with
  | named members =>
    obtain ⟨ms, stray, read⟩ := bind_eq_ok.mp read
    cases read
    refine bind_eq_ok.mpr ⟨_, strayValues_fill 0 members stray, ?_⟩
    exact congrArg Except.ok (Object.map_ofList (apply answers) ms).symm
  | listed items ending => cases read; rfl

end Carries

theorem strayFaults_fill (opened : Bool) (known : List String) (ending : Option Break) (i : Nat)
    (ms : List (Except Fault String × Tree)) :
    strayFaults opened known ending i (fillMembers answers ms)
      = strayFaults opened known ending i ms := by
  induction ms generalizing i with
  | nil => rfl
  | cons m ms ih =>
    obtain ⟨k, t⟩ := m
    cases k with
    | error f => rfl
    | ok k => rw [fillMembers, strayFaults, strayFaults, passingFault?_fill, ih]

theorem overlong?_map (origin : Origin) (size : Nat) (items : List Tree) (ending : Option Break)
    (f : Tree → Tree) :
    overlong? origin size (items.map f) ending = overlong? origin size items ending := by
  unfold overlong?
  rw [List.length_map]

/-- A record is filled in as its parts are. -/
theorem decode_fills {title : String} {r : Record σ α} {f : α → α}
    (h : ∀ scope, r.Carries scope (scope.fill answers) fun a b => b = f a) :
    (r.decode title).Fills answers f := by
  intro p t a read
  cases t with
  | obj members ending =>
    obtain ⟨inner, entered, read⟩ := bind_eq_ok.mp read
    dsimp only at read
    split at read
    · rename_i both
      cases read
      obtain ⟨faultless, fields⟩ := Rereads.bothOrFirst_eq_ok.mp both
      obtain ⟨b, again, rfl⟩ := h _ 0 _ fields
      rw [Tree.fill, decode, entered]
      refine bind_eq_ok.mpr ⟨inner, rfl, ?_⟩
      simp only [Scope.fill] at again
      simp only [strayFaults_fill, faultless, again]
      rfl
    · cases read
  | arr items ending =>
    rw [decode] at read
    split at read
    · cases read
    · rename_i closed
      obtain ⟨inner, entered, read⟩ := bind_eq_ok.mp read
      obtain ⟨b, fields, read⟩ := bind_eq_ok.mp read
      obtain ⟨b', again, rfl⟩ := h _ 0 _ (mapError_eq_ok.mp fields)
      split at read
      · cases read
      · rename_i fitting
        cases read
        rw [Tree.fill, decode, if_neg closed, entered]
        refine bind_eq_ok.mpr ⟨inner, rfl, bind_eq_ok.mpr ⟨_, mapError_eq_ok.mpr again, ?_⟩⟩
        rw [fillItems_eq_map, overlong?_map, fitting]
        rfl
  | str text => cases text <;> cases read
  | null | bool _ | num _ | misspelt _ | broken _ => cases read

end Record

end Flowgraph.Json
