import FlowEngine.Json.Ordered
import FlowEngine.Lib.KeyedLog
import FlowEngine.Versioning.Heads

namespace flow_engine.versioning

/-- `char::to_uppercase`, of which the model knows the ASCII part. -/
structure Uppercase where
  of_char : Char → List Char
  ascii : ∀ c, c.toNat < 128 → of_char c = [c.toUpper]

/-- The JSON texts behind a config hash, and SHA-256. -/
structure ConfigSerde extends Hashing (List Value) where
  to_string : Value → String

section Sanitize

variable (upper : Uppercase)

def to_uppercase (key : String) : List Char := key.toList.flatMap upper.of_char

def is_secret_key (key : String) : Bool :=
  decide ("SECRET".toList <:+: to_uppercase upper key) || decide ("KEY".toList <:+: to_uppercase upper key)
    || decide ("PASSWORD".toList <:+: to_uppercase upper key)

def secret_placeholder : Value := .string "[SECRET_PLACEHOLDER]"

mutual

/-- The path is carried along and never read. -/
def sanitize_value : Value → String → Value
  | .object map, key_path => .object (sanitize_fields map key_path [])
  | .array arr, key_path => .array (sanitize_items arr key_path)
  | other, _ => other

/-- The loop over the entries of an object. -/
def sanitize_fields : List (String × Value) → String → List (String × Value) → List (String × Value)
  | [], _, out => out
  | (k, v) :: rest, key_path, out =>
    let path := if key_path.isEmpty then k else key_path ++ "." ++ k
    sanitize_fields rest key_path
      (Map.insert out k (if is_secret_key upper k then secret_placeholder else sanitize_value v path))

def sanitize_items : List Value → String → List Value
  | [], _ => []
  | v :: rest, key_path => sanitize_value v key_path :: sanitize_items rest key_path

end

/-- Replace values whose key contains "SECRET", "KEY", or "PASSWORD" (case-insensitive). -/
def sanitize_secrets (value : Value) : Value := sanitize_value upper value ""

/-- The sanitized configs in the order in which they are hashed. -/
def sorted_configs (serde : ConfigSerde) (graph : GraphDef) : List Value :=
  keyed.sort_by_key serde.to_string (graph.nodes.map fun n => sanitize_secrets upper n.config)

/-- Compute a config hash for a graph's resolved node configurations. -/
def compute_config_hash (serde : ConfigSerde) (graph : GraphDef) : String :=
  hex (serde.sha256 (serde.to_vec (sorted_configs upper serde graph)))

/-- The key contains one of the three words in any case. -/
def Secret (key : String) : Prop := ∃ word ∈ ["SECRET", "KEY", "PASSWORD"], word.toList <:+: to_uppercase upper key

instance (key : String) : Decidable (Secret upper key) := inferInstanceAs (Decidable (∃ word ∈ _, _))

mutual

/-- A value with the placeholder under every secret key, at any depth. -/
def replaced : Value → Value
  | .object fields => .object (replaced_fields fields)
  | .array items => .array (replaced_items items)
  | other => other

def replaced_fields : List (String × Value) → List (String × Value)
  | [] => []
  | (key, value) :: rest =>
    (key, if Secret upper key then secret_placeholder else replaced value) :: replaced_fields rest

def replaced_items : List Value → List Value
  | [] => []
  | item :: rest => replaced item :: replaced_items rest

end

mutual

/-- Values that are equal up to what is stored under secret keys, at any depth. -/
def SameButSecrets : Value → Value → Prop
  | .object fields, .object fields' => SameFields fields fields'
  | .array items, .array items' => SameItems items items'
  | value, value' => value = value'

def SameFields : List (String × Value) → List (String × Value) → Prop
  | [], [] => True
  | (key, value) :: rest, (key', value') :: rest' =>
    key = key' ∧ (Secret upper key ∨ SameButSecrets value value') ∧ SameFields rest rest'
  | _, _ => False

def SameItems : List Value → List Value → Prop
  | [], [] => True
  | item :: rest, item' :: rest' => SameButSecrets item item' ∧ SameItems rest rest'
  | _, _ => False

end

end Sanitize

variable {upper : Uppercase} {serde : ConfigSerde}

theorem is_secret_key_iff {key : String} : is_secret_key upper key = true ↔ Secret upper key := by
  delta is_secret_key Secret
  rw [Bool.or_eq_true, Bool.or_eq_true, decide_eq_true_eq, decide_eq_true_eq, decide_eq_true_eq, or_assoc]
  simp only [List.mem_cons, List.not_mem_nil, or_false, exists_eq_or_imp, exists_eq_left]

/-- Of an ASCII key the case of its letters does not matter. -/
theorem secret_iff_of_ascii {key : String} (h : ∀ c ∈ key.toList, c.toNat < 128) :
    Secret upper key ↔ ∃ word ∈ ["SECRET", "KEY", "PASSWORD"], word.toList <:+: key.toList.map Char.toUpper := by
  have hupper : to_uppercase upper key = key.toList.map Char.toUpper := by
    rw [to_uppercase, List.flatMap_congr fun c hc => upper.ascii c (h c hc), ← List.map_eq_flatMap]
  rw [Secret, hupper]

mutual

theorem sanitize_value_eq (value : Value) (h : value.Ordered) (key_path : String) :
    sanitize_value upper value key_path = replaced upper value := by
  cases value with
  | object fields =>
    rw [sanitize_value, replaced, sanitize_fields_eq fields h.1 h.2 key_path [] (fun _ hmem => nomatch hmem)]
    rfl
  | array items => rw [sanitize_value, replaced, sanitize_items_eq items h key_path]
  | null => rfl
  | bool b => rfl
  | number n => rfl
  | string s => rfl

/-- The loop appends, since the keys ascend. -/
theorem sanitize_fields_eq (fields : List (String × Value)) (hkeys : Map.Ascending fields) (h : Value.OrderedFields fields)
    (key_path : String) (out : List (String × Value)) (hout : ∀ done ∈ out, ∀ field ∈ fields, done.1 < field.1) :
    sanitize_fields upper fields key_path out = out ++ replaced_fields upper fields := by
  cases fields with
  | nil => exact (List.append_nil out).symm
  | cons field rest =>
    obtain ⟨k, v⟩ := field
    obtain ⟨hfirst, hrest⟩ := List.pairwise_cons.mp hkeys
    rw [sanitize_fields, Map.insert_of_lt (fun done hdone => hout done hdone _ List.mem_cons_self)]
    have hnext : ∀ done ∈ out ++ [(k, if is_secret_key upper k then secret_placeholder
        else sanitize_value upper v (if key_path.isEmpty then k else key_path ++ "." ++ k))],
        ∀ field ∈ rest, done.1 < field.1 := by
      intro done hdone field hfield
      cases List.mem_append.mp hdone with
      | inl hold => exact hout done hold field (List.mem_cons_of_mem _ hfield)
      | inr hnew =>
        rw [List.mem_singleton.mp hnew]
        exact hfirst field hfield
    rw [sanitize_fields_eq rest hrest h.2 key_path _ hnext, sanitize_value_eq v h.1, replaced_fields, List.append_assoc]
    simp only [is_secret_key_iff, List.singleton_append]

theorem sanitize_items_eq (items : List Value) (h : Value.OrderedItems items) (key_path : String) :
    sanitize_items upper items key_path = replaced_items upper items := by
  cases items with
  | nil => rfl
  | cons v rest => rw [sanitize_items, replaced_items, sanitize_value_eq v h.1, sanitize_items_eq rest h.2]

end

mutual

theorem replaced_of_same (value value' : Value) (h : SameButSecrets upper value value') :
    replaced upper value = replaced upper value' := by
  cases value with
  | object fields =>
    cases value' with
    | object fields' => rw [replaced, replaced, replaced_fields_of_same fields fields' h]
    | _ => cases h
  | array items =>
    cases value' with
    | array items' => rw [replaced, replaced, replaced_items_of_same items items' h]
    | _ => cases h
  | null =>
    cases value' with
    | null => cases h; rfl
    | _ => cases h
  | bool b =>
    cases value' with
    | bool _ => cases h; rfl
    | _ => cases h
  | number n =>
    cases value' with
    | number _ => cases h; rfl
    | _ => cases h
  | string s =>
    cases value' with
    | string _ => cases h; rfl
    | _ => cases h

theorem replaced_fields_of_same (fields fields' : List (String × Value)) (h : SameFields upper fields fields') :
    replaced_fields upper fields = replaced_fields upper fields' := by
  cases fields with
  | nil =>
    cases fields' with
    | nil => rfl
    | cons field' rest' => cases h
  | cons field rest =>
    cases fields' with
    | nil => cases h
    | cons field' rest' =>
      obtain ⟨key, value⟩ := field
      obtain ⟨_, value'⟩ := field'
      obtain ⟨rfl, hvalue, hrest⟩ := h
      rw [replaced_fields, replaced_fields, replaced_fields_of_same rest rest' hrest]
      by_cases hsecret : Secret upper key
      · rw [if_pos hsecret, if_pos hsecret]
      · rw [replaced_of_same value value' (hvalue.resolve_left hsecret)]

theorem replaced_items_of_same (items items' : List Value) (h : SameItems upper items items') :
    replaced_items upper items = replaced_items upper items' := by
  cases items with
  | nil =>
    cases items' with
    | nil => rfl
    | cons item' rest' => cases h
  | cons item rest =>
    cases items' with
    | nil => cases h
    | cons item' rest' =>
      rw [replaced_items, replaced_items, replaced_of_same item item' h.1, replaced_items_of_same rest rest' h.2]

end

/-- The configs of a graph, in node order. -/
def node_configs (graph : GraphDef) : List Value := graph.nodes.map NodeInstance.config

/-- What is hashed are the replaced configs, sorted by their texts. -/
theorem sorted_configs_eq {graph : GraphDef} (h : ∀ config ∈ node_configs graph, config.Ordered) :
    sorted_configs upper serde graph = keyed.sort_by_key serde.to_string ((node_configs graph).map (replaced upper)) := by
  rw [sorted_configs, node_configs, List.map_map]
  refine congrArg _ (List.map_congr_left fun n hn => ?_)
  exact sanitize_value_eq n.config (h _ (List.mem_map_of_mem hn)) ""

theorem perm_sorted_configs {graph : GraphDef} (h : ∀ config ∈ node_configs graph, config.Ordered) :
    (sorted_configs upper serde graph).Perm ((node_configs graph).map (replaced upper)) := by
  rw [sorted_configs_eq h]
  exact keyed.perm_sort_by_key

theorem map_replaced_of_same {configs configs' : List Value} (h : List.Forall₂ (SameButSecrets upper) configs configs') :
    configs.map (replaced upper) = configs'.map (replaced upper) := by
  induction h with
  | nil => rfl
  | cons hfirst _ ih => rw [List.map_cons, List.map_cons, replaced_of_same _ _ hfirst, ih]

variable {g g' : GraphDef}

/-- A config hash depends on exactly the multiset of the configs with their
secrets replaced: permuting the nodes and changing secrets does not change it,
and graphs with the same hash have the same replaced configs. A secret stands under a key
that contains one of the three words, in whatever case its letters are. -/
theorem config_hash_exact (hg : ∀ config ∈ node_configs g, config.Ordered)
    (hg' : ∀ config ∈ node_configs g', config.Ordered)
    (hstring : Set.InjOn serde.to_string { config | config ∈ sorted_configs upper serde g })
    (hhash : serde.toHashing.Injective {sorted_configs upper serde g, sorted_configs upper serde g'}) :
    (∀ configs : List Value, configs.Perm (node_configs g) →
      List.Forall₂ (SameButSecrets upper) configs (node_configs g') →
      compute_config_hash upper serde g = compute_config_hash upper serde g') ∧
    (compute_config_hash upper serde g = compute_config_hash upper serde g' →
      ((node_configs g).map (replaced upper)).Perm ((node_configs g').map (replaced upper))) ∧
    ∀ key : String, (∀ c ∈ key.toList, c.toNat < 128) → (Secret upper key ↔
      ∃ word ∈ ["SECRET", "KEY", "PASSWORD"], word.toList <:+: key.toList.map Char.toUpper) := by
  refine ⟨?_, ?_, fun key hascii => secret_iff_of_ascii hascii⟩
  · intro configs hperm hsame
    have hreplaced : ((node_configs g).map (replaced upper)).Perm ((node_configs g').map (replaced upper)) := by
      rw [← map_replaced_of_same hsame]
      exact (hperm.map (replaced upper)).symm
    have hsorted : sorted_configs upper serde g = sorted_configs upper serde g' := by
      rw [sorted_configs_eq hg, sorted_configs_eq hg']
      refine keyed.sort_by_key_congr hreplaced fun a ha b hb => hstring ?_ ?_
      · exact (perm_sorted_configs hg).mem_iff.mpr ha
      · exact (perm_sorted_configs hg).mem_iff.mpr hb
    rw [compute_config_hash, compute_config_hash, hsorted]
  · intro hequal
    have hsorted : sorted_configs upper serde g = sorted_configs upper serde g' :=
      hhash.compute_version_id (Or.inl rfl) (Or.inr rfl) hequal
    have hperm : (sorted_configs upper serde g).Perm _ := perm_sorted_configs hg
    rw [hsorted] at hperm
    exact hperm.symm.trans (perm_sorted_configs hg')

/-- Uppercase of ASCII text. -/
def ascii_uppercase : Uppercase := ⟨fun c => if c.toNat < 128 then [c.toUpper] else [c], fun _ h => if_pos h⟩

def model_config (api_key model : String) : Value := .object [("api_key", .string api_key), ("model", .string model)]

def sample_config_serde : ConfigSerde where
  to_string
    | .object [(_, .string api_key), (_, .string model)] =>
      "\x7b\"api_key\":\"" ++ api_key ++ "\",\"model\":\"" ++ model ++ "\"\x7d"
    | _ => ""
  to_vec
    | [.object [(_, .string api_key), (_, .string model)], .object [(_, .string api_key'), (_, .string model')]] =>
      "[\x7b\"api_key\":\"" ++ api_key ++ "\",\"model\":\"" ++ model ++ "\"\x7d,\x7b\"api_key\":\"" ++ api_key'
        ++ "\",\"model\":\"" ++ model' ++ "\"\x7d]"
    | _ => ""
  sha256 data :=
    if data = "[\x7b\"api_key\":\"[SECRET_PLACEHOLDER]\",\"model\":\"claude-sonnet\"\x7d,"
      ++ "\x7b\"api_key\":\"[SECRET_PLACEHOLDER]\",\"model\":\"gpt-4o\"\x7d]" then
      [254, 63, 39, 28, 195, 68, 213, 1, 215, 119, 73, 68, 219, 22, 142, 99, 5, 183, 173, 151, 119, 182, 74, 10, 56, 31, 25,
      60, 37, 196, 172, 17]
    else List.replicate 32 0
  sha256_length data := by split <;> rfl

def model_graph (configs : List Value) : GraphDef :=
  ⟨"flow-1", configs.map fun config => ⟨"n1", "llm_call", config⟩, []⟩

def old_graph : GraphDef := model_graph [model_config "sk-old-value" "gpt-4o", model_config "sk-old-value" "claude-sonnet"]

def new_graph : GraphDef := model_graph [model_config "sk-new-value" "claude-sonnet", model_config "sk-old-value" "gpt-4o"]

def sample_sorted : List Value :=
  [model_config "[SECRET_PLACEHOLDER]" "claude-sonnet", model_config "[SECRET_PLACEHOLDER]" "gpt-4o"]

theorem model_config_ordered (api_key model : String) : (model_config api_key model).Ordered := by
  refine ⟨?_, trivial, trivial, trivial⟩
  have hkeys : "api_key" < "model" := by decide
  exact List.pairwise_pair.mpr hkeys

/-- A new key and another node order give the same hash. -/
theorem config_hash_exact_sample : compute_config_hash ascii_uppercase sample_config_serde old_graph
    = compute_config_hash ascii_uppercase sample_config_serde new_graph := by
  have hold : ∀ config ∈ node_configs old_graph, config.Ordered := by
    intro config hconfig
    rcases List.mem_pair.mp hconfig with rfl | rfl <;> exact model_config_ordered _ _
  have hnew : ∀ config ∈ node_configs new_graph, config.Ordered := by
    intro config hconfig
    rcases List.mem_pair.mp hconfig with rfl | rfl <;> exact model_config_ordered _ _
  have hold_sorted : sorted_configs ascii_uppercase sample_config_serde old_graph = sample_sorted := rfl
  have hnew_sorted : sorted_configs ascii_uppercase sample_config_serde new_graph = sample_sorted := rfl
  have hstring : Set.InjOn sample_config_serde.to_string { config | config ∈ sample_sorted } := by
    rintro a ha b hb htext
    rcases List.mem_pair.mp ha with rfl | rfl <;> rcases List.mem_pair.mp hb with rfl | rfl
    · rfl
    · exact absurd htext (by decide)
    · exact absurd htext (by decide)
    · rfl
  have hhash : sample_config_serde.toHashing.Injective {sample_sorted, sample_sorted} := by
    rw [Set.pair_eq_singleton]
    exact ⟨Set.injOn_singleton _ _, by rw [Set.image_singleton]; exact Set.injOn_singleton _ _⟩
  rw [← hold_sorted] at hstring
  have hexact := config_hash_exact hold hnew hstring (by rw [hold_sorted, hnew_sorted]; exact hhash)
  refine hexact.1 [model_config "sk-old-value" "claude-sonnet", model_config "sk-old-value" "gpt-4o"]
    (List.Perm.swap _ _ _) (.cons ?_ (.cons ?_ .nil))
  · exact ⟨rfl, .inl (by decide), rfl, .inr rfl, trivial⟩
  · exact ⟨rfl, .inl (by decide), rfl, .inr rfl, trivial⟩

end flow_engine.versioning
