import Flowgraph.Proofs.Hints
import Flowgraph.Proofs.Parameters
import Flowgraph.Proofs.Secrets

/-! Credentials among parameters. Whatever stands among the parameters of a trigger or action once the answers
    are filled in stands in the same place when the document is scanned. So a long text there under a key that
    sounds like a credential is pointed out, unless it is a token, or passes for one because it opens and ends
    like a token, or is inside of a parameter named `exec`. -/

namespace Flowgraph

open Json Json.Record

/-! ### Texts that pass for a token -/

namespace SecretScanner

open Placeholder

theorem openings_eq_zero_iff (cs : List Char) : openings cs = 0 ↔ ¬['{', '{'] <:+: cs := by
  fun_induction openings cs with
  | case1 => simp
  | case2 rest ih => simp [pair_infix_cons]
  | case3 c rest apart ih =>
    cases rest with
    | nil => simp [openings, List.infix_cons_iff]
    | cons d rest =>
      rw [pair_infix_cons, or_iff_right, ih]
      rintro ⟨rfl, rfl⟩
      exact apart rest rfl rfl

/-- But for the blanks around it, a text is two opening braces, a key with a property, and two closing braces. -/
def IsTokenWith (P : List Char → Prop) (text : String) : Prop :=
  ∃ key, Text.trimChars text.toList = (Piece.token key).chars ∧ P key

/-- What is between the first two and the last two characters. -/
def enclosed (cs : List Char) : List Char := (cs.drop 2).dropLast.dropLast

theorem enclosed_chars (key : List Char) : enclosed (Piece.token key).chars = key := by
  change (key ++ ['}', '}']).dropLast.dropLast = key
  rw [List.append_cons, List.dropLast_concat, List.dropLast_concat]

theorem isTokenWith_iff {P : List Char → Prop} {text : String} : IsTokenWith P text ↔
    Text.trimChars text.toList = (Piece.token (enclosed (Text.trimChars text.toList))).chars ∧
      P (enclosed (Text.trimChars text.toList)) := by
  constructor
  · rintro ⟨key, same, holds⟩
    rw [same, enclosed_chars]
    exact ⟨rfl, holds⟩
  · intro h
    exact ⟨_, h⟩

instance (P : List Char → Prop) [DecidablePred P] (text : String) : Decidable (IsTokenWith P text) :=
  decidable_of_iff _ isTokenWith_iff.symm

/-- A single token. -/
abbrev IsToken : String → Prop :=
  IsTokenWith fun key => ¬['{', '{'] <:+: key ∧ ¬['}', '}'] <:+: key

/-- A text that opens with a token and closes a second time at its end. -/
abbrev Overruns : String → Prop :=
  IsTokenWith fun key => ¬['{', '{'] <:+: key ∧ ['}', '}'] <:+: key

theorem isToken_or_overruns {text : String} :
    IsToken text ∨ Overruns text ↔ IsTokenWith (fun key => ¬['{', '{'] <:+: key) text := by
  constructor
  · rintro (⟨key, same, single, -⟩ | ⟨key, same, single, -⟩)
    · exact ⟨key, same, single⟩
    · exact ⟨key, same, single⟩
  · rintro ⟨key, same, single⟩
    by_cases closes : ['}', '}'] <:+: key
    · exact .inr ⟨key, same, single, closes⟩
    · exact .inl ⟨key, same, single, closes⟩

theorem openings_chars_eq_one_iff (key : List Char) :
    openings (Piece.token key).chars = 1 ↔ ¬['{', '{'] <:+: key := by
  change openings (key ++ ['}', '}']) + 1 = 1 ↔ _
  rw [Nat.add_eq_right, openings_eq_zero_iff, pair_infix_append_of_ne (by decide), or_iff_left (by decide)]

/-- What passes for a token is one, or it closes twice. -/
theorem isBarePlaceholder_iff {text : String} :
    isBarePlaceholder text = true ↔ IsToken text ∨ Overruns text := by
  rw [isToken_or_overruns, isBarePlaceholder]
  simp only [Bool.and_eq_true, List.isPrefixOf_iff_prefix, List.isSuffixOf_iff_suffix, beq_iff_eq]
  constructor
  · rintro ⟨⟨⟨rest, opens⟩, closes⟩, single⟩
    rw [← opens] at closes
    -- the closing braces are none of the opening ones
    have apart : ['}', '}'] <:+ rest := by simpa [List.suffix_cons_iff] using closes
    obtain ⟨key, rfl⟩ := apart
    have same : Text.trimChars text.toList = (Piece.token key).chars := opens.symm
    exact ⟨key, same, (openings_chars_eq_one_iff key).mp (same ▸ single)⟩
  · rintro ⟨key, same, single⟩
    rw [same]
    exact ⟨⟨⟨key ++ ['}', '}'], rfl⟩, ⟨'{' :: '{' :: key, rfl⟩⟩,
      (openings_chars_eq_one_iff key).mpr single⟩

end SecretScanner

/-! ### Members that are read and written again -/

/-- An object that is written as what stands under a name, if there is something. -/
def Keeps (ms : Object) (name : String) (o : Object) : Prop :=
  ∀ u, Object.member? ms name = some u → Codec.object.toValue o = u

/-- An object that has the same under all names but the known ones. -/
def KeepsOthers (ms : Object) (known : List String) (o : Object) : Prop :=
  ∀ key, Object.last? o key = if key ∈ known then none else Object.member? ms key

section
variable {scope : Scope} {ms : Object} (hs : scope.shape = .named (membersToTrees ms))
  (hp : scope.place.origin ≠ .text) (canonical : (Value.obj ms).canonical = .obj ms)
include hs hp canonical

/-- A field of parameters keeps what stands under its name. -/
theorem object_gives_keeps {name : String} {get : σ → Object} {absent : Object} :
    (defaulted name get .object absent).Gives scope (Keeps ms name) := by
  intro i o h u there
  have settled : u.canonical = u := Value.canonical_of_member? canonical there
  change readField name [] Decoder.object (some absent) scope i = .ok o at h
  rw [Object.member?_eq_head?] at there
  rcases (readField_eq_ok hs).mp h with ⟨nothing, -⟩ | ⟨v, one, read⟩
  · rw [nothing] at there
    cases there
  · rw [one] at there
    cases there
    cases u with
    | obj q =>
      change (Decoder.members Decoder.value scope.place (Value.obj q).toTree).map Object.ofList = .ok o
        at read
      rw [Codec.members_toTree _ hp] at read
      cases read
      have same : Object.canonical q = q := Value.obj.inj settled
      change Value.obj (Object.canonical (Object.canonical q)) = _
      rw [same, same]
    | null | bool _ | num _ | str _ | arr _ => cases read

/-- The members that no field knows keep what stands under theirs. -/
theorem rest_gives_keeps {get : σ → Object} :
    (rest get).Gives scope (KeepsOthers ms scope.known) := by
  intro i o h key
  simp only [rest, gathered, hs, Rereads.strayValues_toTrees hp] at h
  cases h
  change Object.last? (Object.canonical _) key = _
  have stray : Object.Sorted (ms.filter fun m => m.1 ∉ scope.known) :=
    (Object.sorted_of_canonical canonical).filter _
  rw [(Object.sorted_canonical _).last?, Object.member?_canonical, stray.last?, Rereads.member?_unknown]
  cases there : Object.member? ms key with
  | none => split <;> rfl
  | some u =>
    have settled : u.canonical = u := Value.canonical_of_member? canonical there
    split
    · rfl
    · exact congrArg some settled

end

theorem Json.Record.write_rest (get : σ → Object) (s : σ) : (rest get).write s = get s := rfl

open Materializer (paramFields)

namespace EntryKind

theorem exists_list_eq {list : String} (listed : list ∈ entityLists) : ∃ k : EntryKind, k.list = list := by
  simp only [entityLists, List.mem_cons, List.not_mem_nil, or_false] at listed
  rcases listed with rfl | rfl
  · exact ⟨.trigger, rfl⟩
  · exact ⟨.action, rfl⟩

/-- The objects of parameters, by the names of their fields. -/
def params : (k : EntryKind) → k.Part → List (String × Object)
  | .trigger => fun t => [("configuration", t.configuration)]
  | .action => fun a => [("required_inputs", a.requiredInputs), ("optional_inputs", a.optionalInputs)]

/-- What is written in a field of parameters, unless something under the same name is carried along. -/
theorem member?_toValue (k : EntryKind) (x : k.Part) (exec : Option k.Exec) {field : String}
    (param : field ∈ paramFields) :
    (k.codec.toValue (k.equip x exec)).member? field
      = ((Object.last? (k.extra x) field).or (((k.params x).lookup field).map Codec.object.encode)).map
          Value.canonical := by
  simp only [paramFields, List.mem_cons, List.not_mem_nil, or_false] at param
  rcases param with rfl | rfl | rfl <;> cases k
  all_goals
    simp [equip, extra, params, Trigger.codec, Action.codec, Object.last?_append, write_rest, List.lookup_cons]

/-- A field of parameters that is known is one of the kind. -/
theorem exists_params_of_named (k : EntryKind) (x : k.Part) {field : String} (param : field ∈ paramFields)
    (named : field ∈ k.fieldNames) : ∃ o, (field, o) ∈ k.params x ∧ (k.params x).lookup field = some o := by
  simp only [paramFields, List.mem_cons, List.not_mem_nil, or_false] at param
  rcases param with rfl | rfl | rfl <;> cases k
  all_goals simp [params, fieldNames, Trigger.fieldNames, Action.fieldNames, List.lookup_cons] at named ⊢

section
variable (k : EntryKind) {p : Place} (hp : p.origin ≠ .text) {x : k.Part}
include hp

theorem keeps_of_decode {ms : Object} (canonical : (Value.obj ms).canonical = .obj ms)
    (read : k.codec.decode p (Value.obj ms).toTree = .ok x) :
    (∀ f ∈ k.params x, Keeps ms f.1 f.2) ∧ KeepsOthers ms k.fieldNames (k.extra x) := by
  cases k
  all_goals
    refine Record.decode_obj_gives (Q := fun x => (∀ f ∈ params _ x, Keeps ms f.1 f.2) ∧
      KeepsOthers ms _ (extra _ x)) hp read (.seq ?_ (rest_gives_keeps rfl hp canonical))
    repeat first
      | refine Gives.seq ?_ (object_gives_keeps rfl hp canonical)
      | refine Gives.seq ?_ .any
    refine .map fun _ _ _ => ?_
    beta_reduce
    intros
    exact ⟨by simp [params, *], by assumption⟩

/-- A trigger or action is written with the parameters it was read from. -/
theorem member?_params {item : Value} (canonical : item.canonical = item)
    (read : k.codec.decode p item.toTree = .ok x) {field : String} (param : field ∈ paramFields) {u : Value}
    (there : item.member? field = some u) (exec : Option k.Exec) :
    (k.codec.toValue (k.equip x exec)).member? field = some u := by
  have same := Value.canonical_of_member? canonical there
  obtain ⟨ms, rfl⟩ := k.obj_of_decode read
  obtain ⟨own, others⟩ := k.keeps_of_decode hp canonical read
  rw [k.member?_toValue x exec param, others field]
  by_cases named : field ∈ k.fieldNames
  · obtain ⟨o, mem, found⟩ := k.exists_params_of_named x param named
    rw [if_pos named, found]
    exact congrArg some (own _ mem u there)
  · have kept : Object.member? ms field = some u := there
    rw [if_neg named, kept, Option.some_or, Option.map_some, same]

end

end EntryKind

/-! ### Parameters on their way through the stages -/

namespace Materializer

/-- The parameters in a field of an item of a list. -/
def params? (doc : Value) (list : String) (i : Nat) (field : String) : Option Value :=
  (doc.itemsAt list)[i]?.bind (·.member? field)

theorem at?_place_eq (doc : Value) (x : ParamText) :
    doc.at? x.place = (params? doc x.list x.entity x.field).bind (·.at? x.trail) := by
  ext w
  simp only [at?_place, params?, Option.bind_eq_some_iff]
  constructor
  · rintro ⟨item, params, number, there, leads⟩
    exact ⟨params, ⟨item, number, there⟩, leads⟩
  · rintro ⟨params, ⟨item, number, there⟩, leads⟩
    exact ⟨item, params, number, there, leads⟩

/-- Straightening leaves the parameters of triggers and actions as they are. -/
theorem params?_straightened {doc : Value} (canonical : doc.canonical = doc) {list field : String}
    (listed : list ∈ entityLists) (param : field ∈ paramFields) (i : Nat) :
    params? (PolicyNumbers.straightened doc) list i field = params? doc list i field := by
  have plain : field ∉ (Holder.action i).keys := by
    have apart : ∀ field ∈ paramFields, field ∉ (Holder.action 0).keys := by decide
    exact apart field param
  simp only [entityLists, List.mem_cons, List.not_mem_nil, or_false] at listed
  rcases listed with rfl | rfl
  · simp [params?, Value.itemsAt_eq, PolicyNumbers.straightened, Value.member?_updateMember]
  · change (Holder.action i).get? _ field = (Holder.action i).get? doc field
    have stays : (Holder.action i).settle field = some := funext (onlyAt_settleSet field plain)
    rw [Holder.get?_straightened canonical, stays, Option.bind_fun_some]

/-- Resolving leaves everything in its place and gives it at most another exec block. -/
theorem exists_equip_of_resolve (k : EntryKind) (c : Context) {w : Workflow} {i : Nat} {x : k.Part}
    (there : (k.parts w)[i]? = some x) :
    ∃ exec, (k.parts (c.resolve w).value)[i]? = some (k.equip x exec) := by
  cases k with
  | trigger =>
    have there : w.triggers[i]? = some x := there
    have resolved := c.getElem?_triggers_resolve w i
    rw [there, Option.map_some, c.value_resolveTrigger] at resolved
    exact ⟨_, resolved⟩
  | action =>
    have there : w.actions[i]? = some x := there
    have resolved := c.getElem?_actions_resolve w i
    rw [there, Option.map_some, c.value_resolveAction] at resolved
    exact ⟨_, resolved⟩

/-- What a workflow has of a kind is written in the list of the kind. -/
theorem itemsAt_toValue (k : EntryKind) {w : Workflow} (tidy : w.Tidy) :
    w.toValue.itemsAt k.list = (k.parts w).map k.codec.toValue := by
  rw [Value.itemsAt_eq]
  cases k with
  | trigger => rw [EntryKind.list, Workflow.member?_triggers tidy]; rfl
  | action => rw [EntryKind.list, Workflow.member?_actions tidy]; rfl

/-- The parameters of the triggers and actions of a document are there again when it has been read, resolved and
    written. -/
theorem params?_resolve {doc : Value} {w : Workflow} (canonical : doc.canonical = doc)
    (read : Workflow.ofValue doc = .ok w) (c : Context) (k : EntryKind) {field : String}
    (param : field ∈ paramFields) {i : Nat} {u : Value} (there : params? doc k.list i field = some u) :
    params? (c.resolve w).value.toValue k.list i field = some u := by
  obtain ⟨item, number, inside⟩ := Option.bind_eq_some_iff.mp there
  have stands := canonical_of_itemsAt canonical (List.mem_of_getElem? number)
  have tidy := (Workflow.tidy_of_ofValue read).resolve c
  obtain ⟨ms, rfl, parts⟩ := Workflow.readFrom_of_ofValue read
  obtain ⟨items, member, each⟩ := parts.part k
  rw [Value.itemsAt_eq, Value.member?, member] at number
  obtain ⟨x, same, decoded⟩ := exists_of_forall₂ each number
  obtain ⟨exec, resolved⟩ := exists_equip_of_resolve k c same
  rw [params?, itemsAt_toValue k tidy, List.getElem?_map, resolved, Option.map_some, Option.bind_some]
  exact k.member?_params (by decide) stands decoded param inside exec

section
variable {x : ParamText} (listed : x.list ∈ entityLists) (param : x.field ∈ paramFields)
include listed param

/-- Neither the lists nor the fields of parameters are named `exec`. -/
theorem exec_mem_place : .member "exec" ∈ x.place ↔ .member "exec" ∈ x.trail := by
  have list : "exec" ≠ x.list := fun same => by
    rw [← same] at listed
    exact absurd listed (by decide)
  have field : "exec" ≠ x.field := fun same => by
    rw [← same] at param
    exact absurd param (by decide)
  simp [ParamText.place, list, field]

/-- What stands among the parameters of the filled in template is scanned where it stands. -/
theorem at?_place_resolve {template v : Value} {c : Context} {w : Workflow}
    (canonical : template.canonical = template)
    (read : Workflow.ofValue (prepare template c.answers).value = .ok w)
    (there : (Placeholder.apply c.answers template).at? x.place = some v) :
    (c.resolve w).value.toValue.at? x.place = some v := by
  have filled := Placeholder.canonical_filled canonical c.answers
  rw [at?_place_eq] at there ⊢
  obtain ⟨u, params, leads⟩ := Option.bind_eq_some_iff.mp there
  rw [← params?_straightened filled listed param, ← value_prepare canonical] at params
  obtain ⟨k, same⟩ := EntryKind.exists_list_eq listed
  rw [← same] at params ⊢
  rw [params?_resolve (canonical_prepare canonical c.answers) read c k param params]
  exact leads

end

/-! ### What is pointed out -/

/-- The possible secrets that a compilation reports are the findings in the resolved document. -/
theorem filter_warnings_compile (m : Materializer) {template : Value} {c : Context} {w : Workflow}
    (valid : (validate template).value = true)
    (read : Workflow.ofValue (prepare template c.answers).value = .ok w) :
    (m.compile template c).diagnostics.warnings.filter (·.code = .potentialSecret)
      = m.scanner.findings "" (c.resolve w).value.toValue := by
  have numbers : (PolicyNumbers.refusals (PolicyNumbers.listed (Placeholder.apply c.answers template))).filter
      (·.code = .potentialSecret) = [] := by
    refine List.filter_eq_nil_iff.mpr fun d mem => ?_
    obtain ⟨l, -, e, -, rfl⟩ := PolicyNumbers.mem_refusals.mp mem
    simp
  have params : (c.resolve w).log.warnings.filter (·.code = .potentialSecret) = [] := by
    refine List.filter_eq_nil_iff.mpr fun d mem => ?_
    rw [Context.code_of_mem_warnings_resolve d mem]
    decide
  rw [warnings_compile m valid read, List.filter_append, List.filter_append, numbers, params]
  refine List.filter_eq_self.mpr fun d mem => ?_
  simpa using SecretScanner.code_of_mem_findings _ _ d mem

open SecretScanner (IsToken Overruns warningAt)

/-- A long text under a key that sounds like a credential, anywhere among the parameters of a trigger or action once
    the answers are filled in, is pointed out just if it is not inside of a member named `exec`, is no token and
    does not pass for one. -/
theorem compile_points_out_params_iff (m : Materializer) (c : Context) {template : Value} {w : Workflow}
    (canonical : template.canonical = template) (valid : (validate template).value = true)
    (read : Workflow.ofValue (prepare template c.answers).value = .ok w) :
    ∃ found : List (Trail × String),
      found.Pairwise (fun f g => Trail.Before (f.1 ++ [.member f.2]) (g.1 ++ [.member g.2])) ∧
      (m.compile template c).diagnostics.warnings.filter (·.code = .potentialSecret)
        = found.map (warningAt "") ∧
      ∀ x : ParamText, x.list ∈ entityLists → x.field ∈ paramFields →
        (Placeholder.apply c.answers template).at? x.place = some (.str x.text) →
        ∀ parent key, x.place = parent ++ [.member key] → m.scanner.isSensitiveKey key = true →
        m.scanner.minLength < x.text.length →
        ((parent, key) ∈ found ↔
          .member "exec" ∉ x.trail ∧ ¬IsToken x.text ∧ ¬Overruns x.text) := by
  have stands : (c.resolve w).value.toValue.canonical = (c.resolve w).value.toValue :=
    Value.canonical_canonical _
  refine ⟨(c.resolve w).value.toValue.inside.filterMap m.scanner.pointed?,
    SecretScanner.pairwise_filterMap_pointed _ stands, ?_, ?_⟩
  · rw [filter_warnings_compile m valid read, SecretScanner.findings_eq]
  · intro x listed param there parent key last sensitive long
    have bare : SecretScanner.isBarePlaceholder x.text = false ↔ ¬IsToken x.text ∧ ¬Overruns x.text := by
      rw [← not_or, ← SecretScanner.isBarePlaceholder_iff, Bool.not_eq_true]
    rw [SecretScanner.mem_filterMap_pointed stands, ← last,
      at?_place_resolve listed param canonical read there, exec_mem_place listed param, ← bare]
    constructor
    · rintro ⟨v, same, scanned, -, secret⟩
      cases same
      obtain ⟨text, same, -, plain⟩ := SecretScanner.isSecret_iff.mp secret
      cases same
      exact ⟨scanned, plain⟩
    · rintro ⟨scanned, plain⟩
      exact ⟨_, rfl, scanned, sensitive, SecretScanner.isSecret_iff.mpr ⟨x.text, rfl, long, plain⟩⟩

/-- A template with a trigger that has this configuration. -/
def configuredBy (configuration : Object) : Value :=
  .obj [("actions", .arr []),
    ("triggers", .arr [.obj [("configuration", .obj configuration), ("local_id", .str "t")]]),
    ("version", .int 1), ("workflow_id", .str "w")]

/-- A key that an answer brings in, one inside of `exec`, a token, and a text that passes for one. -/
def exposing : Value :=
  configuredBy [("Api_Key", .str "\x7b\x7bkey\x7d\x7d"), ("exec", .obj [("token", .str "sk_live_12345")]),
    ("hook_token", .str " \x7b\x7bhook_name\x7d\x7d "),
    ("token", .str "\x7b\x7bname\x7d\x7d sk_live_12345\x7d\x7d")]

/-- The trail to the configuration of the first trigger. -/
def toConfiguration : Trail := [.member "triggers", .item 0, .member "configuration"]

/-- Of the four only the first is pointed out. -/
theorem compile_points_out_params_iff_exposing :
    exposing.canonical = exposing ∧ (validate exposing).value = true ∧
      ∃ found : List (Trail × String),
        (compile ⟨.none, .standard⟩ exposing
          ⟨.build ⟨[]⟩, none, [], [("key", .str "sk_live_12345")], .none⟩).diagnostics.warnings.filter
            (·.code = .potentialSecret) = found.map (warningAt "") ∧
        (toConfiguration, "Api_Key") ∈ found ∧
        (toConfiguration ++ [.member "exec"], "token") ∉ found ∧
        (toConfiguration, "hook_token") ∉ found ∧
        (toConfiguration, "token") ∉ found := by
  have canonical : exposing.canonical = exposing := by decide +kernel
  have valid : (validate exposing).value = true := by decide +kernel
  have there : (Workflow.ofValue
      (prepare exposing [("key", .str "sk_live_12345")]).value).toOption.isSome = true := by decide +kernel
  obtain ⟨w, read⟩ := Option.isSome_iff_exists.mp there
  obtain ⟨found, -, warnings, each⟩ := compile_points_out_params_iff ⟨.none, .standard⟩
    ⟨.build ⟨[]⟩, none, [], [("key", .str "sk_live_12345")], .none⟩ canonical valid (eq_ok_of_toOption read)
  have apiKey := each ⟨"triggers", 0, "configuration", [.member "Api_Key"], "sk_live_12345"⟩
    (by decide) (by decide) (by decide +kernel) toConfiguration "Api_Key" rfl (by decide +kernel)
    (by decide +kernel)
  have hidden := each ⟨"triggers", 0, "configuration", [.member "exec", .member "token"], "sk_live_12345"⟩
    (by decide) (by decide) (by decide +kernel) (toConfiguration ++ [.member "exec"]) "token" rfl
    (by decide +kernel) (by decide +kernel)
  have token := each ⟨"triggers", 0, "configuration", [.member "hook_token"],
      " \x7b\x7bhook_name\x7d\x7d "⟩
    (by decide) (by decide) (by decide +kernel) toConfiguration "hook_token" rfl (by decide +kernel)
    (by decide +kernel)
  have overruns := each ⟨"triggers", 0, "configuration", [.member "token"],
      "\x7b\x7bname\x7d\x7d sk_live_12345\x7d\x7d"⟩
    (by decide) (by decide) (by decide +kernel) toConfiguration "token" rfl (by decide +kernel)
    (by decide +kernel)
  refine ⟨canonical, valid, found, warnings, apiKey.mpr (by decide +kernel), fun mem => ?_, fun mem => ?_,
    fun mem => ?_⟩
  · exact absurd (hidden.mp mem) (by decide +kernel)
  · exact absurd (token.mp mem) (by decide +kernel)
  · exact absurd (overruns.mp mem) (by decide +kernel)

/-- Two templates are read, each with a long text under a key that sounds like a credential which is no token,
    and no warning is given. -/
theorem compile_passes_over_secrets :
    SecretScanner.standard.isSensitiveKey "token" = true ∧
      (∀ text ∈ ["sk_live_12345", "\x7b\x7bname\x7d\x7d sk_live_12345\x7d\x7d"],
        SecretScanner.standard.minLength < text.length ∧ ¬IsToken text) ∧
      ∀ configuration ∈ [[("exec", Value.obj [("token", .str "sk_live_12345")])],
          [("token", .str "\x7b\x7bname\x7d\x7d sk_live_12345\x7d\x7d")]],
        (validate (configuredBy configuration)).value = true ∧
        (Workflow.ofValue (prepare (configuredBy configuration) []).value).toOption.isSome = true ∧
        (compile ⟨.none, .standard⟩ (configuredBy configuration)
          ⟨.build ⟨[]⟩, none, [], [], .none⟩).diagnostics.warnings = [] := by
  refine ⟨by decide +kernel, by decide +kernel, by decide +kernel⟩

end Materializer

end Flowgraph
