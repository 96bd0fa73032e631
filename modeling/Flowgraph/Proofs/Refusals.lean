import Flowgraph.Proofs.Parts

/-! Refused numbers. What a document says of policies and loops is listed here value by value, and the warnings
    of straightening are those of the values in the list that are no numbers of their kind, in order. Nothing
    else is touched, and to straighten again changes and reports nothing. -/

namespace Flowgraph

open Json Context PolicyNumbers

namespace PolicyNumbers

/-! ### The numbers of a document -/

/-- A value that is to have some form: where it stands, what applies without it, and the form it takes. -/
structure Listed where
  path : String
  hint : String
  taken : Except CoercionError Value

/-- The warning for a value that has no such form. -/
def Listed.refusal? (l : Listed) : Option Diagnostic :=
  match l.taken with
  | .ok _ => none
  | .error e => some ⟨.paramCoercionFailed, l.path, e.message, some l.hint⟩

/-- The values under the number fields of an object. -/
def numbers (path hint : String) (fields : List NumericField) (v : Value) : List Listed :=
  fields.flatMap fun f =>
    ((present (v.member? f.1)).map fun w => ⟨path ++ "." ++ f.1, hint, f.2.coerce w⟩).toList

/-- The values of a policy: those under its number fields, or the policy itself if it is no object. -/
def policyNumbers (path name : String) (fields : List NumericField) (v : Value) : List Listed :=
  match v.member? name with
  | none | some .null => []
  | some (.obj o) => numbers (path ++ "." ++ name) nextSourceHint fields (.obj o)
  | some w => [⟨path ++ "." ++ name, nextSourceHint, .error ⟨"object", w⟩⟩]

/-- The values of a set of policies. -/
def setNumbers (path : String) (fields : List NumericField) (v : Value) : List Listed :=
  numbers path nextSourceHint fields v ++ policyNumbers path "retry" retryFields v
    ++ policyNumbers path "rate_limit" rateLimitFields v

/-- The loop blocks of a document. -/
def loopsOf (doc : Value) : List Value := (doc.member? "flow_control").elim [] (·.itemsAt "loops")

/-- The values of all policies and loops of a document. -/
def listed (doc : Value) : List Listed :=
  (doc.itemsAt "actions").zipIdx.flatMap (fun x => setNumbers (indexed "actions" x.2) actionFields x.1)
    ++ (doc.member? "policies").elim [] (setNumbers "policies" policiesFields)
    ++ (loopsOf doc).zipIdx.flatMap fun x =>
      numbers (indexed "flow_control.loops" x.2) loopDefaultHint loopFields x.1

/-- The warnings for the values that have not their form. -/
def refusals (ls : List Listed) : List Diagnostic := ls.filterMap Listed.refusal?

@[simp] theorem refusals_nil : refusals [] = [] := rfl

@[simp] theorem refusals_append (ls ls' : List Listed) :
    refusals (ls ++ ls') = refusals ls ++ refusals ls' := List.filterMap_append

theorem refusals_flatMap (f : α → List Listed) (xs : List α) :
    refusals (xs.flatMap f) = xs.flatMap fun x => refusals (f x) := by
  induction xs with
  | nil => rfl
  | cons x xs ih => rw [List.flatMap_cons, List.flatMap_cons, refusals_append, ih]

/-! ### The warnings of straightening -/

theorem log_coerceField (path hint : String) (v : Value) (field : NumericField) :
    (coerceField path hint v field).log = .warned (refusals (numbers path hint [field] v)) := by
  rw [coerceField, numbers, List.flatMap_singleton]
  cases v.member? field.1 with
  | none => rfl
  | some u =>
    cases null : u.isNull with
    | true => simp [null, present, Option.filter]
    | false =>
      have there : present (some u) = some u := by simp [present, null]
      simp only [there, null, Bool.false_eq_true, if_false, Option.map_some, Option.toList_some]
      cases taken : field.2.coerce u with
      | ok w => rfl
      | error e =>
        rw [Traced.log_bind]
        exact Diagnostics.append_empty _

/-- A row of steps, each on a field of its own, reports on all fields as they were at first. -/
theorem log_foldlM_fields {path hint : String} {step : σ → NumericField → Traced σ} (view : σ → Value)
    (reports : ∀ s field, (step s field).log = (coerceField path hint (view s) field).log)
    (others : ∀ s field k, k ≠ field.1 → (view (step s field).value).member? k = (view s).member? k)
    {fields : List NumericField} (distinct : (fields.map Prod.fst).Nodup) (s : σ) :
    (fields.foldlM step s).log = .warned (refusals (numbers path hint fields (view s))) := by
  induction fields generalizing s with
  | nil => rfl
  | cons field fields ih =>
    rw [List.map_cons, List.nodup_cons] at distinct
    -- the first step leaves what the later ones look at
    have later : numbers path hint fields (view (step s field).value) = numbers path hint fields (view s) := by
      refine List.flatMap_congr fun f hf => ?_
      rw [others s field f.1 fun same => distinct.1 (same ▸ List.mem_map_of_mem hf)]
    have first : numbers path hint (field :: fields) (view s)
        = numbers path hint [field] (view s) ++ numbers path hint fields (view s) :=
      by simp [numbers]
    rw [List.foldlM_cons, Traced.log_bind, reports, log_coerceField, ih distinct.2, later, first,
      refusals_append, Diagnostics.warned_append]

theorem member?_coerceField (path hint : String) (v : Value) (field : NumericField) {k : String}
    (other : k ≠ field.1) : (coerceField path hint v field).value.1.member? k = v.member? k := by
  rcases coerceField_cases path hint v field with ⟨-, mends⟩ | kept
  · exact mends.others k other
  · rw [kept]

theorem log_foldlM_coerceOrDrop (path hint : String) {fields : List NumericField}
    (distinct : (fields.map Prod.fst).Nodup) (v : Value) :
    (fields.foldlM (coerceOrDrop path hint) v).log = .warned (refusals (numbers path hint fields v)) :=
  log_foldlM_fields id (fun v field => by simp [coerceOrDrop])
    (fun v field => (coerceOrDrop_mends path hint v field).others) distinct v

theorem log_coerceFields (path : String) {fields : List NumericField}
    (distinct : (fields.map Prod.fst).Nodup) (v : Value) :
    (coerceFields path v fields).log = .warned (refusals (numbers path nextSourceHint fields v)) := by
  rw [coerceFields_eq]
  refine log_foldlM_fields Prod.fst (fun s field => ?_) (fun s field k other => ?_) distinct _
  · simp [coerceNext]
  · simp [coerceNext, member?_coerceField _ _ _ _ other]

theorem log_coerceObject (path : String) (v : Value) (name : String) {fields : List NumericField}
    (distinct : (fields.map Prod.fst).Nodup) :
    (coerceObject path v name fields).log = .warned (refusals (policyNumbers path name fields v)) := by
  rw [coerceObject, policyNumbers]
  cases v.member? name with
  | none => rfl
  | some u =>
    cases u with
    | null => rfl
    | obj o => simp [log_coerceFields _ distinct]
    | bool _ | num _ | str _ | arr _ => rfl

theorem log_coercePolicySet (path : String) {fields : List NumericField} (names : PlainNames fields)
    (v : Value) :
    (coercePolicySet path fields v).log = .warned (refusals (setNumbers path fields v)) := by
  obtain ⟨-, plain⟩ := settles_foldlM_coerceOrDrop path nextSourceHint names.distinct v
  have numbered := log_foldlM_coerceOrDrop path nextSourceHint names.distinct v
  simp only [coercePolicySet, Traced.log_bind]
  generalize fields.foldlM (coerceOrDrop path nextSourceHint) v = first at plain numbered
  have retried := (coerceObject_mends path first.value "retry" retryFields (by decide)).others
  rw [numbered, log_coerceObject _ _ _ (by decide), log_coerceObject _ _ _ (by decide), policyNumbers,
    plain "retry" names.retry, policyNumbers, retried "rate_limit" (by decide),
    plain "rate_limit" names.rateLimit]
  simp [setNumbers, policyNumbers, List.append_assoc]

theorem log_onMember (key : String) {f : Value → Traced Value} {g : Value → List Listed}
    (h : ∀ w, (f w).log = .warned (refusals (g w))) (v : Value) :
    (onMember key f v).log = .warned (refusals ((v.member? key).elim [] g)) := by
  rw [onMember]
  cases v.member? key with
  | none => rfl
  | some w => simp [h]

theorem log_onItems (list : String) {f : String → Value → Traced Value}
    {g : String → Value → List Listed} (h : ∀ path w, (f path w).log = .warned (refusals (g path w)))
    (v : Value) :
    (onItems list f v).log
      = .warned (refusals (v.items.zipIdx.flatMap fun x => g (indexed list x.2) x.1)) := by
  cases v with
  | arr items =>
    rw [onItems, Traced.log_bind, Traced.log_mapM_of_warned fun x _ => h (indexed list x.2) x.1,
      refusals_flatMap]
    exact Diagnostics.append_empty _
  | null | bool _ | num _ | str _ | obj _ => rfl

/-- The values of the items of a list, wherever the list comes from. -/
theorem elim_items (v : Value) (key : String) (g : Value × Nat → List Listed) :
    (v.member? key).elim [] (fun w => w.items.zipIdx.flatMap g) = (v.itemsAt key).zipIdx.flatMap g := by
  rw [Value.itemsAt_eq]
  cases v.member? key <;> rfl

/-- The report of straightening is a warning for each value in the list that has not its form. -/
theorem log_coerce (v : Value) : (coerce v).log = .warned (refusals (listed v)) := by
  have actions := log_onMember "actions" (log_onItems "actions" fun path =>
    log_coercePolicySet path plainNames_actionFields) v
  have policies := log_onMember "policies" (log_coercePolicySet "policies" plainNames_policiesFields)
  have loops := log_onMember "flow_control" (log_onMember "loops" (log_onItems "flow_control.loops"
    (f := coerceLoop) fun path => log_foldlM_coerceOrDrop path loopDefaultHint (by decide)))
  rw [elim_items] at actions
  simp only [elim_items] at loops
  rw [coerce, Traced.log_bind, Traced.log_bind, actions, policies, loops]
  -- each part is straightened with the others out of its way
  rw [member?_onMember, if_neg (by decide), member?_onMember, if_neg (by decide), member?_onMember,
    if_neg (by decide), Diagnostics.warned_append, Diagnostics.warned_append, ← refusals_append,
    ← refusals_append, listed, loopsOf, List.append_assoc]
  cases v.member? "flow_control" <;> rfl

end PolicyNumbers

/-- A template is prepared with a hint for each placeholder that is left and a warning for each refused number. -/
theorem Materializer.log_prepare (template : Value) (answers : Object) :
    (prepare template answers).log
      = { Diagnostics.empty with hints := placeholderHints (Placeholder.apply answers template) }
        ++ .warned (refusals (listed (Placeholder.apply answers template))) := by
  rw [prepare, Traced.log_bind, List.forM_eq_forM, Traced.log_forM_hint, log_coerce]

/-! ### The rest of the document -/

namespace Json.Value

/-- The value without the members under the given keys; other values have none to lose. -/
def outside (keys : List String) : Value → Value
  | .obj o => .obj (o.filter fun m => m.1 ∉ keys)
  | v => v

theorem outside_rework {g : String → Value → Option Value} {keys : List String}
    (only : Object.OnlyAt g keys) (v : Value) : (v.rework g).outside keys = v.outside keys := by
  cases v with
  | obj o => exact congrArg Value.obj (only.agreeOutside o).symm
  | null | bool _ | num _ | str _ | arr _ => rfl

theorem mapItems_mapItems (f g : Value → Value) (v : Value) :
    (v.mapItems f).mapItems g = v.mapItems fun u => g (f u) := by
  cases v with
  | arr items => exact congrArg Value.arr List.map_map
  | null | bool _ | num _ | str _ | obj _ => rfl

theorem member?_rework {g : String → Value → Option Value} {v : Value} (canonical : v.canonical = v)
    (key : String) : (v.rework g).member? key = (v.member? key).bind (g key) := by
  cases v with
  | obj o => exact (Object.sorted_of_canonical canonical).member?_rework g key
  | null | bool _ | num _ | str _ | arr _ => rfl

end Json.Value

namespace PolicyNumbers

/-- Works on the three parts of a document that hold numbers. -/
def onParts (actions policies flow : Value → Value) (doc : Value) : Value :=
  ((doc.updateMember "actions" actions).updateMember "policies" policies).updateMember "flow_control" flow

theorem onParts_onParts (a p f a' p' f' : Value → Value) (doc : Value) :
    onParts a' p' f' (onParts a p f doc)
      = onParts (fun u => a' (a u)) (fun u => p' (p u)) (fun u => f' (f u)) doc := by
  simp only [onParts]
  rw [← Value.updateMember_comm (by decide : "actions" ≠ "flow_control"),
    ← Value.updateMember_comm (by decide : "actions" ≠ "policies"),
    ← Value.updateMember_comm (by decide : "policies" ≠ "flow_control"),
    Value.updateMember_updateMember, Value.updateMember_updateMember, Value.updateMember_updateMember]

/-- The document without its policies and loop numbers. -/
def outline (doc : Value) : Value :=
  onParts (·.mapItems (·.outside (Holder.action 0).keys)) (·.outside Holder.policies.keys)
    (·.updateMember "loops" (·.mapItems (·.outside (Holder.loop 0).keys))) doc

theorem outline_straightened (doc : Value) : outline (straightened doc) = outline doc := by
  have actions (u : Value) : (straightActions u).mapItems (·.outside (Holder.action 0).keys)
      = u.mapItems (·.outside (Holder.action 0).keys) := by
    simp only [straightActions, Value.mapItems_mapItems]
    exact congrArg (Value.mapItems · u) (funext (Value.outside_rework onlyAt_settleSet))
  have policies (u : Value) : (straightPolicies u).outside Holder.policies.keys
      = u.outside Holder.policies.keys := Value.outside_rework onlyAt_settleSet u
  have loops (u : Value) :
      (straightLoops u).updateMember "loops" (·.mapItems (·.outside (Holder.loop 0).keys))
        = u.updateMember "loops" (·.mapItems (·.outside (Holder.loop 0).keys)) := by
    simp only [straightLoops, Value.updateMember_updateMember, Value.mapItems_mapItems]
    exact congrArg (fun g => Value.updateMember "loops" (Value.mapItems g) u)
      (funext (Value.outside_rework (onlyAt_settleFields loopFields)))
  have straight : straightened doc = onParts straightActions straightPolicies straightLoops doc := rfl
  rw [straight, outline, onParts_onParts]
  simp only [actions, policies, loops]
  rfl

end PolicyNumbers

/-! ### What straightening does -/

namespace Holder

/-- What stands under a key. -/
def get? (doc : Value) (key : String) (h : Holder) : Option Value := (h.find? doc).bind (·.member? key)

theorem get?_straightened {doc : Value} (canonical : doc.canonical = doc) (h : Holder) (key : String) :
    h.get? (straightened doc) key = (h.get? doc key).bind (h.settle key) := by
  rw [get?, get?, find?_straightened]
  cases found : h.find? doc with
  | none => rfl
  | some u => exact Value.member?_rework (canonical_of_find? canonical found) key

end Holder

namespace PolicyNumbers

/-- The policies that are objects, with their number fields. -/
def objectPolicies : List (String × List NumericField) :=
  [("retry", retryFields), ("rate_limit", rateLimitFields)]

/-- A policy that stays is an object as before, with the members that are no numbers as they were. -/
theorem agreeOutside_of_settleObject {fields : List NumericField} {v : Value} {o' : Object}
    (made : settleObject fields v = some (.obj o')) :
    ∃ o : Object, v = .obj o ∧ o.AgreeOutside (fields.map Prod.fst) o' := by
  cases v with
  | obj o =>
    obtain ⟨-, same⟩ := Option.ite_none_right_eq_some.mp made
    cases same
    exact ⟨o, rfl, (onlyAt_settleFields fields).agreeOutside o⟩
  | null | bool _ | num _ | str _ | arr _ => cases made

theorem settle_objectPolicies {h : Holder} {name : String} {fields : List NumericField}
    (policy : (name, fields) ∈ objectPolicies) (mem : name ∈ h.keys) :
    h.settle name = settleObject fields := by
  simp only [objectPolicies, List.mem_cons, Prod.mk.injEq, List.not_mem_nil, or_false] at policy
  cases h with
  | action _ | policies => rcases policy with ⟨rfl, rfl⟩ | ⟨rfl, rfl⟩ <;> rfl
  | loop _ =>
    have nowhere : ∀ key ∈ ["retry", "rate_limit"], key ∉ loopFields.map Prod.fst := by decide
    exact absurd mem (nowhere name (by rcases policy with ⟨rfl, -⟩ | ⟨rfl, -⟩ <;> simp))

/-- What straightening is to do to a document and to report about it. -/
structure Straightens (doc : Value) (r : Traced Value) : Prop where
  /-- Every number is absent, `null` or of its kind, and every policy is absent, `null` or an object. -/
  settled : Settled r.value
  /-- Nothing but policies and loop numbers has changed. -/
  elsewhere : outline r.value = outline doc
  /-- Of a policy that stays, nothing but numbers has changed. -/
  within : ∀ (h : Holder) (name : String) (fields : List NumericField) (o' : Object),
    (name, fields) ∈ objectPolicies → name ∈ h.keys → h.get? r.value name = some (.obj o') →
    ∃ o : Object, h.get? doc name = some (.obj o) ∧ o.AgreeOutside (fields.map Prod.fst) o'
  /-- A number is made of its kind where it can be, and is left out otherwise. -/
  kept : ∀ (h : Holder) (key : String), key ∈ h.keys →
    h.get? r.value key = (h.get? doc key).bind (h.settle key)
  /-- There is one warning for each value that has not its form, and no other report. -/
  reported : r.log = .warned (refusals (listed doc))
  /-- To straighten again changes nothing and reports nothing. -/
  again : coerce r.value = pure r.value

/-- Any document is straightened so. -/
theorem straightens_coerce (doc : Value) (canonical : doc.canonical = doc) :
    Straightens doc (coerce doc) := by
  have made := value_coerce_eq canonical
  have settled := settled_coerce doc
  have each (h : Holder) (key : String) :
      h.get? (coerce doc).value key = (h.get? doc key).bind (h.settle key) := by
    rw [made, h.get?_straightened canonical]
  refine ⟨settled, ?_, fun h name fields o' policy mem stays => ?_, fun h key _ => each h key,
    log_coerce doc, ?_⟩
  · rw [made, outline_straightened]
  · rw [each, settle_objectPolicies policy mem] at stays
    obtain ⟨v, there, kept⟩ := Option.bind_eq_some_iff.mp stays
    obtain ⟨o, rfl, alike⟩ := agreeOutside_of_settleObject kept
    exact ⟨o, there, alike⟩
  · refine coerce_of_settled ?_ settled
    rw [made]
    exact canonical_straightened canonical

/-- A document with a retry policy of which two numbers are none, a rate limit that is no object, an action
    and a loop that are none, and numbers written as texts. -/
def tangled : Value :=
  .obj [("actions", .arr [
      .obj [("local_id", .str "a"), ("rate_limit", .str "fast"),
        ("retry", .obj [("initial_delay_ms", .int (-1)), ("max_attempts", .str "many"), ("note", .null)]),
        ("timeout_ms", .str " 7 ")],
      .str "none"]),
    ("flow_control", .obj [("loops", .arr [.null, .obj [("max_iterations", .str "3.5")]])]),
    ("policies", .obj [("max_parallelism", .null),
      ("retry", .obj [("max_attempts", .bool true), ("note", .str "kept")])])]

/-- Every bad number is reported, also the second one of a policy that is left out for the first. -/
theorem straightens_coerce_tangled :
    Straightens tangled (coerce tangled) ∧
      (coerce tangled).log.warnings.map (·.path)
        = ["actions[0].retry.max_attempts", "actions[0].retry.initial_delay_ms", "actions[0].rate_limit",
          "flow_control.loops[1].max_iterations"] ∧
      (coerce tangled).value
        = .obj [("actions", .arr [.obj [("local_id", .str "a"), ("timeout_ms", .int 7)], .str "none"]),
          ("flow_control", .obj [("loops", .arr [.null, .obj []])]),
          ("policies", .obj [("max_parallelism", .null),
            ("retry", .obj [("max_attempts", .int 1), ("note", .str "kept")])])] :=
  ⟨straightens_coerce tangled (by decide +kernel), by decide +kernel, by decide +kernel⟩

end PolicyNumbers

end Flowgraph
