import Flowgraph.Executable.PolicyNumbers
import Flowgraph.Proofs.Json.Objects
import Flowgraph.Proofs.Numeral
import Flowgraph.Proofs.Traced

/-! Straightened numbers. Afterwards every policy and loop number of a document is absent, `null` or a number
    of its kind, and a policy that is an object is one with such numbers; a document that is so already is
    left as it is. Nothing of this is an error. -/

namespace Flowgraph.PolicyNumbers

open Json

/-! ### Whole numbers -/

theorem int64?_range {cs : List Char} {n : Int} (h : Numeral.int64? cs = some n) :
    int64Min ≤ n ∧ n ≤ int64Max := by
  have least : int64Min = -(int64Min.natAbs : Int) := rfl
  have greatest : int64Max = (int64Max.natAbs : Int) := rfl
  unfold Numeral.int64? at h
  split at h
  all_goals
    obtain ⟨x, lifted, rfl⟩ := Option.map_eq_some_iff.mp h
    obtain ⟨m, read, same⟩ := Option.bind_eq_some_iff.mp lifted
    cases same
    have small := Numeral.digits_le (eq_ok_of_toOption read)
    constructor <;> omega

theorem wholePart?_range {x : Double} {n : Int} (h : Coercion.wholePart? x = some n) :
    int64Min ≤ n ∧ n ≤ int64Max := by
  rw [Coercion.wholePart?] at h
  obtain ⟨range, same⟩ := Option.ite_none_right_eq_some.mp h
  cases same
  simp only [Bool.and_eq_true, decide_eq_true_eq] at range
  exact ⟨Int.le_min.mpr ⟨range.1.2, by decide⟩, Int.min_le_right ..⟩

/-- Coercion to a whole number never leaves the 64 bits. -/
theorem toInteger?_range {v : Value} {n : Int} (h : Coercion.toInteger? v = some n) :
    int64Min ≤ n ∧ n ≤ int64Max := by
  unfold Coercion.toInteger? at h
  split at h
  · split at h
    · rename_i range
      cases h
      exact range
    · exact wholePart?_range h
  · exact wholePart?_range h
  · exact int64?_range h
  · cases h
    split <;> decide
  all_goals cases h

/-! ### Numbers of a kind -/

namespace NumericKind

/-- A number as coercion to the kind leaves it. -/
def Holds : NumericKind → Value → Prop
  | .uint32, v => ∃ n : Int, v = .num (.int n) ∧ 0 ≤ n ∧ n ≤ uint32Max
  | .uint64, v => ∃ n : Int, v = .num (.int n) ∧ 0 ≤ n ∧ n ≤ int64Max
  | .double, v => ∃ x : Double, v = .num (.float x) ∧ x.isFinite = true

theorem coerceNatural_eq_ok {max : Nat} {expected : String} {v w : Value}
    (h : coerceNatural max expected v = .ok w) :
    ∃ n : Int, w = .num (.int n) ∧ 0 ≤ n ∧ n ≤ max ∧ n ≤ int64Max := by
  rw [coerceNatural, Coercion.coerce] at h
  cases whole : Coercion.toInteger? v with
  | none => simp [whole] at h
  | some n =>
    simp only [whole] at h
    split at h
    · rename_i range
      cases h
      exact ⟨n, rfl, range.1, range.2, (toInteger?_range whole).2⟩
    · cases h

theorem holds_of_coerce {kind : NumericKind} {v w : Value} (h : kind.coerce v = .ok w) :
    kind.Holds w := by
  cases kind with
  | uint32 =>
    obtain ⟨n, rfl, low, high, -⟩ := coerceNatural_eq_ok h
    exact ⟨n, rfl, low, high⟩
  | uint64 =>
    obtain ⟨n, rfl, low, -, high⟩ := coerceNatural_eq_ok h
    exact ⟨n, rfl, low, high⟩
  | double =>
    rw [coerce, Coercion.coerce] at h
    cases number : Coercion.toDouble? v with
    | none => simp [number] at h
    | some x =>
      simp only [number] at h
      cases h
      exact ⟨x, rfl, (Option.filter_eq_some_iff.mp number).2⟩

theorem coerceNatural_self {max : Nat} {expected : String} {n : Int} (low : 0 ≤ n)
    (small : n ≤ int64Max) (high : n ≤ max) :
    coerceNatural max expected (.num (.int n)) = .ok (.num (.int n)) := by
  have whole : int64Min ≤ n := Int.le_trans (by decide) low
  simp [coerceNatural, Coercion.coerce, Coercion.toInteger?, whole, small, low, high]

theorem coerce_of_holds {kind : NumericKind} {v : Value} (h : kind.Holds v) :
    kind.coerce v = .ok v := by
  cases kind with
  | uint32 =>
    obtain ⟨n, rfl, low, high⟩ := h
    exact coerceNatural_self low (Int.le_trans high (by decide)) high
  | uint64 =>
    obtain ⟨n, rfl, low, high⟩ := h
    exact coerceNatural_self low high (Int.le_trans high (by decide))
  | double =>
    obtain ⟨x, rfl, finite⟩ := h
    simp [coerce, Coercion.coerce, Coercion.toDouble?, Coercion.numberToDouble, Option.filter,
      finite]

/-- Absent, `null` or a number of the kind. -/
def Fits (kind : NumericKind) (o : Option Value) : Prop :=
  ∀ v, o = some v → v ≠ .null → kind.Holds v

end NumericKind

/-- Every field is absent, `null` or a number of its kind. -/
def Settles (fields : List NumericField) (v : Value) : Prop :=
  ∀ f ∈ fields, f.2.Fits (v.member? f.1)

/-- Absent, `null` or an object with numbers in its fields. -/
def ObjectFits (fields : List NumericField) (o : Option Value) : Prop :=
  ∀ v, o = some v → v ≠ .null → (∃ ms, v = .obj ms) ∧ Settles fields v

/-- A set of policies with nothing left to straighten. -/
structure SettlesSet (fields : List NumericField) (v : Value) : Prop where
  plain : Settles fields v
  retry : ObjectFits retryFields (v.member? "retry")
  rateLimit : ObjectFits rateLimitFields (v.member? "rate_limit")

/-- A document with nothing left to straighten. -/
structure Settled (v : Value) : Prop where
  actions : ∀ items, v.member? "actions" = some (.arr items) →
    ∀ item ∈ items, SettlesSet actionFields item
  policies : ∀ p, v.member? "policies" = some p → SettlesSet policiesFields p
  loops : ∀ f items, v.member? "flow_control" = some f → f.member? "loops" = some (.arr items) →
    ∀ l ∈ items, Settles loopFields l

/-! ### Straightening settles -/

/-- A step that mends what is under one key and leaves the others alone. -/
structure Mends (name : String) (P : Option Value → Prop) (v w : Value) : Prop where
  mended : P (w.member? name)
  others : ∀ k, k ≠ name → w.member? k = v.member? k

theorem Mends.refl {name : String} {P : Option Value → Prop} {v : Value} (h : P (v.member? name)) :
    Mends name P v v :=
  ⟨h, fun _ _ => rfl⟩

theorem mends_updateMember {name : String} {P : Option Value → Prop} {v w : Value}
    (h : P (some w)) (there : (v.member? name).isSome = true) :
    Mends name P v (v.updateMember name fun _ => w) := by
  obtain ⟨u, found⟩ := Option.isSome_iff_exists.mp there
  refine ⟨?_, fun k other => ?_⟩
  · rwa [Value.member?_updateMember, if_pos rfl, found]
  · rw [Value.member?_updateMember, if_neg other]

theorem mends_withoutMember {name : String} {P : Option Value → Prop} (v : Value) (h : P none) :
    Mends name P v (v.withoutMember name) := by
  refine ⟨?_, fun k other => ?_⟩
  · rwa [Value.member?_withoutMember, if_pos rfl]
  · rw [Value.member?_withoutMember, if_neg other]

theorem fits_none (kind : NumericKind) : kind.Fits none := by simp [NumericKind.Fits]

theorem objectFits_none (fields : List NumericField) : ObjectFits fields none := by
  simp [ObjectFits]

/-- One field is mended, or it is reported and left as it is. -/
theorem coerceField_cases (path hint : String) (v : Value) (field : NumericField) :
    ((coerceField path hint v field).value.2 = true ∧
      Mends field.1 field.2.Fits v (coerceField path hint v field).value.1) ∨
    (coerceField path hint v field).value = (v, false) := by
  unfold coerceField
  cases there : v.member? field.1 with
  | none => exact .inl ⟨rfl, .refl (there ▸ fits_none _)⟩
  | some u =>
    cases null : u.isNull with
    | true =>
      simp only [null, if_true, Traced.value_pure]
      refine .inl ⟨trivial, .refl ?_⟩
      rintro _ same solid
      cases there.symm.trans same
      cases u with
      | null => exact absurd rfl solid
      | bool _ | num _ | str _ | arr _ | obj _ => cases null
    | false =>
      cases coerced : field.2.coerce u with
      | error e => exact .inr (by simp [coerced, null])
      | ok w =>
        refine .inl ⟨by simp [coerced, null], ?_⟩
        simp only [null, coerced, Bool.false_eq_true, if_false, Traced.value_pure]
        refine mends_updateMember ?_ (by simp [there])
        rintro _ same -
        cases same
        exact NumericKind.holds_of_coerce coerced

theorem coerceOrDrop_mends (path hint : String) (v : Value) (field : NumericField) :
    Mends field.1 field.2.Fits v (coerceOrDrop path hint v field).value := by
  rw [coerceOrDrop, Traced.value_bind]
  rcases coerceField_cases path hint v field with ⟨fine, mends⟩ | kept
  · simpa [fine] using mends
  · simpa [kept] using mends_withoutMember v (fits_none field.2)

/-- Where field after field is mended, all are in the end and the other members are as they were. -/
theorem settles_cons {field : NumericField} {fields : List NumericField} {u v w : Value}
    (head : Mends field.1 field.2.Fits u v) (fresh : field.1 ∉ fields.map Prod.fst)
    (tail : Settles fields w) (frame : ∀ k, k ∉ fields.map Prod.fst → w.member? k = v.member? k) :
    Settles (field :: fields) w ∧
      ∀ k, k ∉ (field :: fields).map Prod.fst → w.member? k = u.member? k := by
  refine ⟨?_, fun k outside => ?_⟩
  · rintro f (_ | ⟨_, later⟩)
    · exact frame field.1 fresh ▸ head.mended
    · exact tail f later
  · rw [List.map_cons, List.mem_cons, not_or] at outside
    rw [frame k outside.2, head.others k outside.1]

theorem settles_foldlM_coerceOrDrop (path hint : String) {fields : List NumericField}
    (distinct : (fields.map Prod.fst).Nodup) (v : Value) :
    Settles fields (fields.foldlM (coerceOrDrop path hint) v).value ∧
      ∀ k, k ∉ fields.map Prod.fst →
        (fields.foldlM (coerceOrDrop path hint) v).value.member? k = v.member? k := by
  induction fields generalizing v with
  | nil => exact ⟨by simp [Settles], by simp⟩
  | cons field fields ih =>
    rw [List.map_cons, List.nodup_cons] at distinct
    rw [List.foldlM_cons, Traced.value_bind]
    have ⟨tail, frame⟩ := ih distinct.2 (coerceOrDrop path hint v field).value
    exact settles_cons (coerceOrDrop_mends path hint v field) distinct.1 tail frame

/-- One step of `coerceFields`. -/
def coerceNext (path : String) (state : Value × Bool) (field : NumericField) :
    Traced (Value × Bool) := do
  let (v, fine) ← coerceField path nextSourceHint state.1 field
  pure (v, state.2 && fine)

theorem coerceFields_eq (path : String) (v : Value) (fields : List NumericField) :
    coerceFields path v fields = fields.foldlM (coerceNext path) (v, true) := rfl

theorem settles_foldlM_coerceNext (path : String) {fields : List NumericField}
    (distinct : (fields.map Prod.fst).Nodup) (state : Value × Bool)
    (fine : (fields.foldlM (coerceNext path) state).value.2 = true) :
    state.2 = true ∧ Settles fields (fields.foldlM (coerceNext path) state).value.1 ∧
      ∀ k, k ∉ fields.map Prod.fst →
        (fields.foldlM (coerceNext path) state).value.1.member? k = state.1.member? k := by
  induction fields generalizing state with
  | nil => exact ⟨fine, by simp [Settles], by simp⟩
  | cons field fields ih =>
    rw [List.map_cons, List.nodup_cons] at distinct
    rw [List.foldlM_cons, Traced.value_bind] at fine ⊢
    have ⟨good, tail, frame⟩ := ih distinct.2 _ fine
    rcases coerceField_cases path nextSourceHint state.1 field with ⟨-, mends⟩ | kept
    · refine ⟨?_, settles_cons ?_ distinct.1 tail frame⟩
      · simp only [coerceNext, Traced.value_bind, Traced.value_pure, Bool.and_eq_true] at good
        exact good.1
      · simpa [coerceNext] using mends
    · simp [coerceNext, kept] at good

/-- An object stays one. -/
theorem coerceFields_obj (path : String) (fields : List NumericField) (state : Value × Bool)
    (h : ∃ ms, state.1 = .obj ms) :
    ∃ ms, (fields.foldlM (coerceNext path) state).value.1 = .obj ms := by
  induction fields generalizing state with
  | nil => exact h
  | cons field fields ih =>
    rw [List.foldlM_cons, Traced.value_bind]
    refine ih _ ?_
    obtain ⟨ms, same⟩ := h
    simp only [coerceNext, Traced.value_bind, Traced.value_pure, coerceField, same]
    split
    · exact ⟨ms, rfl⟩
    · split
      · exact ⟨ms, rfl⟩
      · split
        · exact ⟨_, rfl⟩
        · exact ⟨ms, rfl⟩

theorem coerceObject_mends (path : String) (v : Value) (name : String)
    (fields : List NumericField) (distinct : (fields.map Prod.fst).Nodup) :
    Mends name (ObjectFits fields) v (coerceObject path v name fields).value := by
  unfold coerceObject
  cases there : v.member? name with
  | none => exact .refl (there ▸ objectFits_none fields)
  | some u =>
    cases u with
    | null => exact .refl (by simp [ObjectFits, there])
    | obj ms =>
      simp only [Traced.value_bind, Traced.value_pure, coerceFields_eq]
      split
      · rename_i fine
        refine mends_updateMember ?_ (by simp [there])
        rintro _ same -
        cases same
        exact ⟨coerceFields_obj _ fields _ ⟨ms, rfl⟩,
          (settles_foldlM_coerceNext _ distinct _ fine).2.1⟩
      · exact mends_withoutMember v (objectFits_none fields)
    | bool _ | num _ | str _ | arr _ => exact mends_withoutMember v (objectFits_none fields)

/-- Plain numbers of a set of policies have names of their own. -/
structure PlainNames (fields : List NumericField) : Prop where
  distinct : (fields.map Prod.fst).Nodup
  retry : "retry" ∉ fields.map Prod.fst
  rateLimit : "rate_limit" ∉ fields.map Prod.fst

theorem plainNames_actionFields : PlainNames actionFields := by
  constructor <;> decide

theorem plainNames_policiesFields : PlainNames policiesFields := by
  constructor <;> decide

theorem settlesSet_coercePolicySet (path : String) {fields : List NumericField}
    (names : PlainNames fields) (v : Value) :
    SettlesSet fields (coercePolicySet path fields v).value := by
  simp only [coercePolicySet, Traced.value_bind]
  obtain ⟨plain, -⟩ := settles_foldlM_coerceOrDrop path nextSourceHint names.distinct v
  generalize (fields.foldlM (coerceOrDrop path nextSourceHint) v).value = numbered at plain ⊢
  have retried := coerceObject_mends path numbered "retry" retryFields (by decide)
  generalize (coerceObject path numbered "retry" retryFields).value = retrying at retried ⊢
  have limited := coerceObject_mends path retrying "rate_limit" rateLimitFields
    (by decide)
  refine ⟨fun f hf => ?_, ?_, limited.mended⟩
  · have name := List.mem_map_of_mem (f := Prod.fst) hf
    rw [limited.others f.1 (fun same => names.rateLimit (same ▸ name)),
      retried.others f.1 (fun same => names.retry (same ▸ name))]
    exact plain f hf
  · rw [limited.others "retry" (by decide)]
    exact retried.mended

theorem member?_onMember (key : String) (f : Value → Traced Value) (v : Value) (k : String) :
    (onMember key f v).value.member? k =
      if k = key then (v.member? k).map fun w => (f w).value else v.member? k := by
  unfold onMember
  cases there : v.member? key with
  | none =>
    by_cases same : k = key
    · simp [same, there]
    · simp [same]
  | some w =>
    by_cases same : k = key
    · simp [Value.member?_updateMember, same, there]
    · simp [Value.member?_updateMember, same]

theorem value_onItems {list : String} {f : String → Value → Traced Value} {v : Value}
    {items : List Value} (h : (onItems list f v).value = .arr items) :
    ∀ item ∈ items, ∃ path u, (f path u).value = item := by
  cases v with
  | arr us =>
    simp only [onItems, Traced.value_bind, Traced.value_pure, Value.arr.injEq,
      Traced.value_mapM] at h
    rintro item there
    rw [← h] at there
    obtain ⟨x, -, same⟩ := List.mem_map.mp there
    exact ⟨_, _, same⟩
  | null | bool _ | num _ | str _ | obj _ => simp [onItems] at h

/-- Nothing is left to straighten afterwards. -/
theorem settled_coerce (v : Value) : Settled (coerce v).value := by
  simp only [coerce, Traced.value_bind]
  refine ⟨fun items there item mem => ?_, fun p there => ?_, fun f items there loops l mem => ?_⟩
  · rw [member?_onMember, if_neg (by decide), member?_onMember, if_neg (by decide),
      member?_onMember, if_pos rfl] at there
    obtain ⟨u, -, same⟩ := Option.map_eq_some_iff.mp there
    obtain ⟨path, x, rfl⟩ := value_onItems same item mem
    exact settlesSet_coercePolicySet path plainNames_actionFields x
  · rw [member?_onMember, if_neg (by decide), member?_onMember, if_pos rfl] at there
    obtain ⟨u, -, rfl⟩ := Option.map_eq_some_iff.mp there
    exact settlesSet_coercePolicySet _ plainNames_policiesFields u
  · rw [member?_onMember, if_pos rfl] at there
    obtain ⟨u, -, rfl⟩ := Option.map_eq_some_iff.mp there
    rw [member?_onMember, if_pos rfl] at loops
    obtain ⟨u, -, same⟩ := Option.map_eq_some_iff.mp loops
    obtain ⟨path, x, rfl⟩ := value_onItems same l mem
    exact (settles_foldlM_coerceOrDrop path loopDefaultHint (by decide) x).1

/-! ### What is settled stays -/

theorem coerceField_of_fits (path hint : String) {v : Value} {field : NumericField}
    (canonical : v.canonical = v) (fits : field.2.Fits (v.member? field.1)) :
    coerceField path hint v field = pure (v, true) := by
  unfold coerceField
  cases there : v.member? field.1 with
  | none => rfl
  | some u =>
    dsimp only
    split
    · rfl
    · rename_i solid
      have holds : field.2.Holds u := fits u there fun null => by simp [null, Value.isNull] at solid
      rw [NumericKind.coerce_of_holds holds]
      simp only [Value.updateMember_of_member? canonical there]

theorem coerceOrDrop_of_fits (path hint : String) {v : Value} {field : NumericField}
    (canonical : v.canonical = v) (fits : field.2.Fits (v.member? field.1)) :
    coerceOrDrop path hint v field = pure v := by
  rw [coerceOrDrop, coerceField_of_fits path hint canonical fits, pure_bind]
  rfl

theorem coerceFields_of_settles (path : String) {v : Value} {fields : List NumericField}
    (canonical : v.canonical = v) (settles : Settles fields v) :
    coerceFields path v fields = pure (v, true) := by
  rw [coerceFields_eq]
  refine Traced.foldlM_eq_pure fun f hf => ?_
  rw [coerceNext, coerceField_of_fits path _ canonical (settles f hf), pure_bind]
  rfl

theorem coerceObject_of_fits (path : String) {v : Value} {name : String}
    {fields : List NumericField} (canonical : v.canonical = v)
    (fits : ObjectFits fields (v.member? name)) : coerceObject path v name fields = pure v := by
  unfold coerceObject
  cases there : v.member? name with
  | none => rfl
  | some u =>
    cases u with
    | null => rfl
    | obj ms =>
      have settles := (fits _ there (by simp)).2
      have kept := coerceFields_of_settles (path ++ "." ++ name)
        (Value.canonical_of_member? canonical there) settles
      simp only [kept, pure_bind, if_true, Value.updateMember_of_member? canonical there]
    | bool _ | num _ | str _ | arr _ =>
      obtain ⟨⟨ms, same⟩, -⟩ := fits _ there (by simp)
      cases same

theorem coercePolicySet_of_settles (path : String) {v : Value} {fields : List NumericField}
    (canonical : v.canonical = v) (settles : SettlesSet fields v) :
    coercePolicySet path fields v = pure v := by
  rw [coercePolicySet, Traced.foldlM_eq_pure fun f hf =>
      coerceOrDrop_of_fits path nextSourceHint canonical (settles.plain f hf),
    pure_bind, coerceObject_of_fits path canonical settles.retry, pure_bind,
    coerceObject_of_fits path canonical settles.rateLimit]

theorem onMember_eq_pure {key : String} {f : Value → Traced Value} {v : Value}
    (canonical : v.canonical = v) (h : ∀ w, v.member? key = some w → f w = pure w) :
    onMember key f v = pure v := by
  unfold onMember
  cases there : v.member? key with
  | none => rfl
  | some w =>
    simp only [h w there, pure_bind, Value.updateMember_of_member? canonical there]

theorem onItems_eq_pure {list : String} {f : String → Value → Traced Value} {v : Value}
    (h : ∀ items, v = .arr items → ∀ item ∈ items, ∀ path, f path item = pure item) :
    onItems list f v = pure v := by
  cases v with
  | arr items =>
    rw [onItems, Traced.mapM_eq_pure (g := Prod.fst) fun x hx =>
      h items rfl x.1 (List.fst_mem_of_mem_zipIdx hx) _, List.zipIdx_map_fst, pure_bind]
  | null | bool _ | num _ | str _ | obj _ => rfl

/-- A document with nothing to straighten is left as it is, without a report. -/
theorem coerce_of_settled {v : Value} (canonical : v.canonical = v) (settled : Settled v) :
    coerce v = pure v := by
  have actions : onMember "actions" (onItems "actions" (coercePolicySet · actionFields)) v =
      pure v := by
    refine onMember_eq_pure canonical fun w there => onItems_eq_pure ?_
    rintro items rfl item mem path
    exact coercePolicySet_of_settles path
      (Value.canonical_of_mem (Value.canonical_of_member? canonical there) mem)
      (settled.actions items there item mem)
  have policies : onMember "policies" (coercePolicySet "policies" policiesFields) v = pure v :=
    onMember_eq_pure canonical fun w there => coercePolicySet_of_settles _
      (Value.canonical_of_member? canonical there) (settled.policies w there)
  have loops : onMember "flow_control"
      (onMember "loops" (onItems "flow_control.loops" coerceLoop)) v = pure v := by
    refine onMember_eq_pure canonical fun f there => ?_
    have flow := Value.canonical_of_member? canonical there
    refine onMember_eq_pure flow fun w blocks => onItems_eq_pure ?_
    rintro items rfl l mem path
    exact Traced.foldlM_eq_pure fun field hf => coerceOrDrop_of_fits path loopDefaultHint
      (Value.canonical_of_mem (Value.canonical_of_member? flow blocks) mem)
      (settled.loops f items there blocks l mem field hf)
  rw [coerce, actions, pure_bind, policies, pure_bind, loops]

/-! ### Nothing is an error -/

@[simp] theorem errors_refuse (path hint : String) (e : CoercionError) :
    (refuse path hint e).log.errors = [] := rfl

@[simp] theorem errors_coerceField (path hint : String) (v : Value) (field : NumericField) :
    (coerceField path hint v field).log.errors = [] := by
  unfold coerceField
  split
  · rfl
  · split
    · rfl
    · split <;> simp

@[simp] theorem errors_coerceFields (path : String) (v : Value) (fields : List NumericField) :
    (coerceFields path v fields).log.errors = [] :=
  Traced.errors_foldlM_eq_nil (fun _ _ => by simp) ..

@[simp] theorem errors_foldlM_coerceOrDrop (path hint : String) (v : Value)
    (fields : List NumericField) : (fields.foldlM (coerceOrDrop path hint) v).log.errors = [] :=
  Traced.errors_foldlM_eq_nil (fun _ _ => by simp [coerceOrDrop]) ..

@[simp] theorem errors_coerceObject (path : String) (v : Value) (name : String)
    (fields : List NumericField) : (coerceObject path v name fields).log.errors = [] := by
  unfold coerceObject
  split <;> simp

@[simp] theorem errors_coercePolicySet (path : String) (fields : List NumericField) (v : Value) :
    (coercePolicySet path fields v).log.errors = [] := by
  simp [coercePolicySet]

theorem errors_onMember (key : String) {f : Value → Traced Value}
    (h : ∀ w, (f w).log.errors = []) (v : Value) : (onMember key f v).log.errors = [] := by
  unfold onMember
  split <;> simp [h]

theorem errors_onItems (list : String) {f : String → Value → Traced Value}
    (h : ∀ path w, (f path w).log.errors = []) (v : Value) :
    (onItems list f v).log.errors = [] := by
  unfold onItems
  split <;> simp [h]

@[simp] theorem errors_coerce (v : Value) : (coerce v).log.errors = [] := by
  have actions := errors_onMember "actions" <| errors_onItems "actions" fun path u =>
    errors_coercePolicySet path actionFields u
  have policies := errors_onMember "policies" <| errors_coercePolicySet "policies" policiesFields
  have loops := errors_onMember "flow_control" <| errors_onMember "loops" <|
    errors_onItems "flow_control.loops" fun path u =>
      errors_foldlM_coerceOrDrop path loopDefaultHint u loopFields
  simp only [coerce, Traced.log_bind, Diagnostics.errors_append, actions, policies, List.nil_append]
  exact loops _

end Flowgraph.PolicyNumbers
