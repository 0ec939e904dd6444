import FlowEngine.Pipeline.Survival

namespace flow_engine.write_pipeline

open settling

/-- A string of four bytes or more, which masking does not replace as a whole. -/
def LongText : Value → Prop
  | .string s => 4 ≤ s.utf8ByteSize
  | _ => False

/-- The replacement of a short string is long. -/
theorem redact_masked_replacement (field : String) :
    DefaultRedactor.redact field .masked (.string "[MASKED]") = some (.string "****KED]") := rfl

theorem settles_masked_iff {field : String} {value : Value} :
    Settles (DefaultRedactor.redact field .masked) value ↔ Cut value ∨ LongText value := by
  have hreplaced : ∀ {value : Value}, DefaultRedactor.redact field .masked value = some (.string "[MASKED]") →
      ¬ Settles (DefaultRedactor.redact field .masked) value := by
    intro value h hsettles
    exact absurd (Value.string.inj (Option.some.inj ((hsettles h).symm.trans (redact_masked_replacement field)))) (by decide)
  cases value with
  | string s =>
    by_cases hlong : 4 ≤ s.utf8ByteSize
    · refine ⟨fun _ => .inr hlong, fun _ => ?_⟩
      intro out hout
      obtain ⟨_, last, _, hsize, rfl⟩ := (redact_masked_long hlong).mp hout
      have hstars : 4 ≤ ("****" ++ last).utf8ByteSize := by
        rw [String.utf8ByteSize_append]
        omega
      exact (redact_masked_long hstars).mpr ⟨"****", last, rfl, hsize, rfl⟩
    · have hshort := redact_masked_short (Nat.lt_of_not_le hlong) field
      refine ⟨fun hsettles => (hreplaced hshort hsettles).elim, ?_⟩
      rintro (hcut | htext)
      · exact (hlong hcut.1).elim
      · exact (hlong htext).elim
  | _ =>
    refine ⟨fun hsettles => (hreplaced rfl hsettles).elim, ?_⟩
    rintro (hcut | htext)
    · exact hcut.elim
    · exact htext.elim

/-- Redaction settles everywhere but where it replaces by `[MASKED]`. -/
theorem settles_redact_iff {field : String} {sensitivity : Sensitivity} {value : Value} :
    Settles (DefaultRedactor.redact field sensitivity) value ↔ (sensitivity = .masked → Cut value ∨ LongText value) := by
  cases sensitivity with
  | masked => simpa only [forall_const] using settles_masked_iff
  | _ => simp [Settles, DefaultRedactor.redact]

/-- A masked string stops the redaction, or all that is masked is long. -/
def Settled (masked : List Value) : Prop := (∃ value ∈ masked, Cut value) ∨ ∀ value ∈ masked, LongText value

theorem settled_of_or {masked : List Value} (h : ∀ value ∈ masked, Cut value ∨ LongText value) : Settled masked := by
  by_cases hcut : ∃ value ∈ masked, Cut value
  · exact .inl hcut
  · exact .inr fun value hmem => (h value hmem).resolve_left fun hin => hcut ⟨value, hmem, hin⟩

namespace Masks

variable {masked : String → Bool} {g : String × Value → Option Value} {map : List (String × Value)}

/-- Rebuilding with masked fields settles if what is masked does. -/
theorem settles_rebuild (h : Masks masked g) (hsettled : Settled (masked_at masked (.object map))) :
    Settles (Map.rebuild g) map := by
  cases hsettled with
  | inl hcut => exact settles_of_eq_none (h.rebuild_eq_none_iff.mpr hcut)
  | inr hlong =>
    refine Map.settles_rebuild fun field hmem => ?_
    cases hmasked : masked field.1 with
    | true =>
      have hfield : Settles (DefaultRedactor.redact field.1 .masked) field.2 :=
        settles_masked_iff.mpr (.inr (hlong _ (mem_masked_at.mpr ⟨field, hmem, hmasked, rfl⟩)))
      simpa only [funext fun value => h.masks (field.1, value) hmasked] using hfield
    | false => exact h.settles field hmasked

/-- With fields in key order it does so only then. -/
theorem settled_of_settles (h : Masks masked g) (hascending : Map.Ascending map) (hsettles : Settles (Map.rebuild g) map) :
    Settled (masked_at masked (.object map)) := by
  cases (Map.settles_rebuild_iff hascending).mp hsettles with
  | inl hfails => exact .inl (h.rebuild_eq_none_iff.mp (Map.rebuild_eq_none_iff.mpr hfails))
  | inr hfields =>
    refine settled_of_or fun value hvalue => ?_
    obtain ⟨field, hmem, hmasked, rfl⟩ := mem_masked_at.mp hvalue
    have hfield := hfields field hmem
    simp only [funext fun value => h.masks (field.1, value) hmasked] at hfield
    exact settles_masked_iff.mp hfield

end Masks

theorem settles_ports {value : Value} {ports : List PortDef} (h : Settled (masked_ports ports value)) :
    Settles (fun value => redact_ports default_redactor value ports) value := by
  cases value with
  | object map =>
    refine (settles_wrap_iff (fun _ _ => Value.object.inj) (redact_ports_object ports) map).mpr ?_
    exact (masks_port ports).settles_rebuild h
  | _ => exact settles_of_eq_self rfl

theorem settled_of_settles_ports {value : Value} {ports : List PortDef} (hordered : value.Ordered)
    (h : Settles (fun value => redact_ports default_redactor value ports) value) : Settled (masked_ports ports value) := by
  cases value with
  | object map =>
    have hmap := (settles_wrap_iff (fun _ _ => Value.object.inj) (redact_ports_object ports) map).mp h
    exact (masks_port ports).settled_of_settles hordered.1 hmap
  | _ => exact .inr fun _ hmem => by cases hmem

theorem settles_message {message : Value} {sensitivity : Sensitivity}
    (h : sensitivity = .masked → Settled (masked_content message)) :
    Settles (fun message => DefaultRedactor.redact_message message sensitivity) message := by
  cases message with
  | object map =>
    refine (settles_wrap_iff (fun _ _ => Value.object.inj) (redact_message_object · sensitivity) map).mpr ?_
    by_cases hmasked : sensitivity = .masked
    · subst hmasked
      exact masks_content.settles_rebuild (h rfl)
    · refine Map.settles_rebuild fun field hmem => ?_
      by_cases hcontent : field.1 = "content"
      · simpa only [redact_content, hcontent, if_true] using settles_unmasked hmasked
      · exact settles_of_eq_self (if_neg hcontent)
  | _ => exact settles_of_eq_self rfl

theorem settled_of_settles_message {message : Value} (hordered : message.Ordered)
    (h : Settles (fun message => DefaultRedactor.redact_message message .masked) message) :
    Settled (masked_content message) := by
  cases message with
  | object map =>
    have hmap := (settles_wrap_iff (fun _ _ => Value.object.inj) (redact_message_object · .masked) map).mp h
    exact masks_content.settled_of_settles hordered.1 hmap
  | _ => exact .inr fun _ hmem => by cases hmem

theorem Settled.append {first second : List Value} (hfirst : Settled first) (hsecond : Settled second) :
    Settled (first ++ second) := by
  rcases hfirst with ⟨value, hmem, hcut⟩ | hfirst
  · exact .inl ⟨value, List.mem_append_left _ hmem, hcut⟩
  · rcases hsecond with ⟨value, hmem, hcut⟩ | hsecond
    · exact .inl ⟨value, List.mem_append_right _ hmem, hcut⟩
    · exact .inr fun value hmem => (List.mem_append.mp hmem).elim (hfirst value) (hsecond value)

theorem settled_flatMap {masked : Value → List Value} {items : List Value} (h : ∀ item ∈ items, Settled (masked item)) :
    Settled (items.flatMap masked) := by
  induction items with
  | nil => exact .inr fun _ hmem => by cases hmem
  | cons first rest ih =>
    rw [List.flatMap_cons]
    exact (h first List.mem_cons_self).append (ih fun item hmem => h item (List.mem_cons_of_mem _ hmem))

/-- Messages that are no array are redacted as one value. -/
theorem settles_other_iff {messages : Value} {sensitivity : Sensitivity} (hnone : sensitivity ≠ .none)
    (hother : ∀ items, messages ≠ .array items) :
    Settles (fun messages => DefaultRedactor.redact_llm_messages messages sensitivity) messages ↔
      Settles (DefaultRedactor.redact "llm_messages" sensitivity) messages := by
  refine settles_congr (redact_llm_messages_other hnone hother) ?_
  intro out hout
  obtain ⟨text, rfl⟩ := redact_string hnone hout
  exact redact_llm_messages_other hnone (by simp)

theorem settled_singleton {value : Value} : Settled [value] ↔ Cut value ∨ LongText value := by
  simp [Settled]

theorem settles_messages {messages : Value} {sensitivity : Sensitivity}
    (h : sensitivity = .masked → Settled (masked_messages messages)) :
    Settles (fun messages => DefaultRedactor.redact_llm_messages messages sensitivity) messages := by
  by_cases hnone : sensitivity = .none
  · exact settles_of_eq_self (if_pos hnone)
  · cases messages with
    | array items =>
      refine (settles_wrap_iff (fun _ _ => Value.array.inj) (redact_llm_messages_array hnone) items).mpr ?_
      rw [settles_mapM_iff]
      by_cases hmasked : sensitivity = .masked
      · rcases h hmasked with ⟨value, hvalue, hcut⟩ | hlong
        · obtain ⟨item, hitem, hin⟩ := List.mem_flatMap.mp hvalue
          exact .inl ⟨item, hitem, redact_message_eq_none_iff.mpr ⟨hmasked, value, hin, hcut⟩⟩
        · refine .inr fun item hitem => settles_message fun _ => .inr ?_
          exact fun value hin => hlong value (List.mem_flatMap.mpr ⟨item, hitem, hin⟩)
      · exact .inr fun item _ => settles_message fun h => (hmasked h).elim
    | _ =>
      refine (settles_other_iff hnone (by simp)).mpr (settles_redact_iff.mpr fun hmasked => ?_)
      exact settled_singleton.mp (h hmasked)

theorem settled_of_settles_messages {messages : Value} (hordered : messages.Ordered)
    (h : Settles (fun messages => DefaultRedactor.redact_llm_messages messages .masked) messages) :
    Settled (masked_messages messages) := by
  cases messages with
  | array items =>
    have hitems := (settles_wrap_iff (fun _ _ => Value.array.inj) (redact_llm_messages_array (by simp)) items).mp h
    cases settles_mapM_iff.mp hitems with
    | inl hfails =>
      obtain ⟨item, hitem, hnone⟩ := hfails
      obtain ⟨_, value, hin, hcut⟩ := redact_message_eq_none_iff.mp hnone
      exact .inl ⟨value, List.mem_flatMap.mpr ⟨item, hitem, hin⟩, hcut⟩
    | inr hsettles =>
      exact settled_flatMap fun item hitem => settled_of_settles_message (hordered.mem hitem) (hsettles item hitem)
  | _ => exact settled_singleton.mpr (settles_masked_iff.mp ((settles_other_iff (by simp) (by simp)).mp h))

section Event

variable {node_meta : String → Option NodeMeta} {seq attempt : Nat} {run_id node_id : String} {fan_out_index : Option Nat}

theorem settles_node_started_iff {m : NodeMeta} (hmeta : node_meta node_id = some m) (inputs : Value) :
    Settles (redact_event default_redactor node_meta) (.NodeStarted seq run_id node_id inputs fan_out_index attempt) ↔
      Settles (fun inputs => redact_ports default_redactor inputs m.inputs) inputs := by
  have hwrap : Function.Injective fun inputs => WriteEvent.NodeStarted seq run_id node_id inputs fan_out_index attempt := by
    intro first second hsame
    cases hsame
    rfl
  refine settles_wrap_iff hwrap ?_ inputs
  intro inputs
  simp only [redact_event, hmeta]

theorem settles_node_completed_iff {m : NodeMeta} (hmeta : node_meta node_id = some m) (outputs : Value) :
    Settles (redact_event default_redactor node_meta) (.NodeCompleted seq run_id node_id outputs fan_out_index) ↔
      Settles (fun outputs => redact_ports default_redactor outputs m.outputs) outputs := by
  have hwrap : Function.Injective fun outputs => WriteEvent.NodeCompleted seq run_id node_id outputs fan_out_index := by
    intro first second hsame
    cases hsame
    rfl
  refine settles_wrap_iff hwrap ?_ outputs
  intro outputs
  simp only [redact_event, hmeta]

theorem settles_llm_invocation_iff {sensitivity : Sensitivity}
    (hsensitivity : ((node_meta node_id).map fun m => sensitivity_of m.inputs "messages").getD .none = sensitivity)
    (request : LlmRequest) (response : LlmResponse) :
    Settles (redact_event default_redactor node_meta) (.LlmInvocation seq run_id node_id request response) ↔
      (DefaultRedactor.redact_llm_messages request.messages sensitivity = none ∨
          DefaultRedactor.redact_llm_messages response.content sensitivity = none) ∨
        (Settles (fun messages => DefaultRedactor.redact_llm_messages messages sensitivity) request.messages ∧
          Settles (fun content => DefaultRedactor.redact_llm_messages content sensitivity) response.content) := by
  have hpair : Function.Injective2 fun messages content =>
      WriteEvent.LlmInvocation seq run_id node_id { request with messages } { response with content } := by
    intro messages messages' content content' hsame
    cases hsame
    exact ⟨rfl, rfl⟩
  refine settles_pair_iff (g := fun messages => DefaultRedactor.redact_llm_messages messages sensitivity)
    (k := fun content => DefaultRedactor.redact_llm_messages content sensitivity) hpair ?_ request.messages response.content
  intro messages content
  simp only [redact_event, hsensitivity]
  rfl

theorem settles_custom (seq : Nat) (run_id : String) (node_id : Option String) (name : String) (data : Value) :
    Settles (redact_event default_redactor node_meta) (.Custom seq run_id node_id name data) := by
  cases node_id with
  | none => exact settles_of_eq_self rfl
  | some node_id =>
    cases hmeta : node_meta node_id with
    | none => exact settles_of_eq_self (by simp only [redact_event, hmeta])
    | some m =>
      cases hsensitive : m.outputs.any fun port => port.sensitivity != .none with
      | false => exact settles_of_eq_self (by simp [redact_event, hmeta, hsensitive])
      | true =>
        intro redacted hredacted
        simp only [redact_event, hmeta, hsensitive, if_true] at hredacted
        cases hredacted
        simp only [redact_event, hmeta, hsensitive, if_true]
        rfl

/-- The values that redaction reads in an event list the fields of their objects in key order. -/
def OrderedEvent : WriteEvent → Prop
  | .NodeStarted _ _ _ inputs _ _ => inputs.Ordered
  | .NodeCompleted _ _ _ outputs _ => outputs.Ordered
  | .LlmInvocation _ _ _ request response => request.messages.Ordered ∧ response.content.Ordered
  | _ => True

theorem settles_event {event : WriteEvent} (h : Settled (masked_values node_meta event)) :
    Settles (redact_event default_redactor node_meta) event := by
  cases event with
  | NodeStarted seq run_id node_id inputs fan_out_index attempt =>
    cases hmeta : node_meta node_id with
    | none => exact settles_of_eq_self (by simp only [redact_event, hmeta])
    | some m =>
      rw [settles_node_started_iff hmeta]
      simp only [masked_values, hmeta, Option.map_some, Option.getD_some] at h
      exact settles_ports h
  | NodeCompleted seq run_id node_id outputs fan_out_index =>
    cases hmeta : node_meta node_id with
    | none => exact settles_of_eq_self (by simp only [redact_event, hmeta])
    | some m =>
      rw [settles_node_completed_iff hmeta]
      simp only [masked_values, hmeta, Option.map_some, Option.getD_some] at h
      exact settles_ports h
  | LlmInvocation seq run_id node_id request response =>
    rw [settles_llm_invocation_iff rfl]
    rw [masked_values] at h
    split at h
    · rename_i hmasked
      rw [hmasked]
      rcases h with ⟨value, hvalue, hcut⟩ | hlong
      · refine .inl ?_
        cases List.mem_append.mp hvalue with
        | inl hin => exact .inl (redact_llm_messages_eq_none_iff.mpr ⟨rfl, value, hin, hcut⟩)
        | inr hin => exact .inr (redact_llm_messages_eq_none_iff.mpr ⟨rfl, value, hin, hcut⟩)
      · refine .inr ⟨settles_messages fun _ => .inr ?_, settles_messages fun _ => .inr ?_⟩
        · exact fun value hin => hlong value (List.mem_append_left _ hin)
        · exact fun value hin => hlong value (List.mem_append_right _ hin)
    · rename_i hmasked
      exact .inr ⟨settles_messages fun h => (hmasked h).elim, settles_messages fun h => (hmasked h).elim⟩
  | Custom seq run_id node_id name data => exact settles_custom seq run_id node_id name data
  | _ => exact settles_of_eq_self rfl

theorem settled_of_settles_event {event : WriteEvent} (hordered : OrderedEvent event)
    (h : Settles (redact_event default_redactor node_meta) event) : Settled (masked_values node_meta event) := by
  cases event with
  | NodeStarted seq run_id node_id inputs fan_out_index attempt =>
    cases hmeta : node_meta node_id with
    | none => exact .inr (by simp [masked_values, hmeta])
    | some m =>
      simp only [masked_values, hmeta, Option.map_some, Option.getD_some]
      exact settled_of_settles_ports hordered ((settles_node_started_iff hmeta inputs).mp h)
  | NodeCompleted seq run_id node_id outputs fan_out_index =>
    cases hmeta : node_meta node_id with
    | none => exact .inr (by simp [masked_values, hmeta])
    | some m =>
      simp only [masked_values, hmeta, Option.map_some, Option.getD_some]
      exact settled_of_settles_ports hordered ((settles_node_completed_iff hmeta outputs).mp h)
  | LlmInvocation seq run_id node_id request response =>
    rw [masked_values]
    split
    · rename_i hmasked
      rcases (settles_llm_invocation_iff hmasked request response).mp h with (hnone | hnone) | ⟨hmessages, hcontent⟩
      · obtain ⟨_, value, hin, hcut⟩ := redact_llm_messages_eq_none_iff.mp hnone
        exact .inl ⟨value, List.mem_append_left _ hin, hcut⟩
      · obtain ⟨_, value, hin, hcut⟩ := redact_llm_messages_eq_none_iff.mp hnone
        exact .inl ⟨value, List.mem_append_right _ hin, hcut⟩
      · exact (settled_of_settles_messages hordered.1 hmessages).append (settled_of_settles_messages hordered.2 hcontent)
    · exact .inr fun _ hmem => by cases hmem
  | _ => exact .inr fun _ hmem => by cases hmem

end Event

variable {p : WritePipeline} {s : PipelineState}

/-- However often a settled event is redacted, the first time decides. -/
theorem redact_times_settled {redactor : Redactor} {node_meta : String → Option NodeMeta} {event redacted : WriteEvent}
    (hsettles : Settles (redact_event redactor node_meta) event) {n : Nat}
    (h : redact_times redactor node_meta (n + 1) event = some redacted) :
    redact_event redactor node_meta event = some redacted := by
  induction n generalizing redacted with
  | zero => exact h
  | succ n ih =>
    obtain ⟨before, hbefore, hlast⟩ := Option.bind_eq_some_iff.mp h
    have hfirst := ih hbefore
    rw [hsettles hfirst] at hlast
    exact hfirst.trans hlast

/-- Where the accepted events settle, the store holds what a first flush would have stored. -/
theorem run_stores_first (hdefault : p.redactor = default_redactor) {actions : List PipelineAction}
    (hrun : PipelineRun p actions s) (hsettled : ∀ source ∈ s.accepted, Settled (masked_values p.node_meta source.event)) :
    ∀ entry ∈ s.stored, redact_event p.redactor p.node_meta entry.source.event = some entry.event := by
  intro entry hmem
  obtain ⟨n, hleast, hn⟩ := (run_sound hrun).conserved.stored entry hmem
  obtain ⟨n, rfl⟩ : ∃ k, n = k + 1 := ⟨n - 1, by omega⟩
  have hsource := hsettled entry.source ((run_holds_accepted hrun).stored entry hmem)
  refine redact_times_settled ?_ hn
  rw [hdefault]
  exact settles_event hsource

/-- Redacting an event again changes nothing exactly if every value masked in it is a string of
four bytes or more, or if it cannot be redacted at all. In a run whose accepted events are all
such, what is stored of an event does not depend on the flushes that failed. -/
theorem redaction_idempotent_iff (p : WritePipeline) (hdefault : p.redactor = default_redactor) :
    (∀ event, OrderedEvent event →
      ((∀ redacted, redact_event p.redactor p.node_meta event = some redacted →
          redact_event p.redactor p.node_meta redacted = some redacted) ↔
        Settled (masked_values p.node_meta event))) ∧
    ∀ actions s, PipelineRun p actions s → (∀ source ∈ s.accepted, Settled (masked_values p.node_meta source.event)) →
      ∀ entry ∈ s.stored, redact_event p.redactor p.node_meta entry.source.event = some entry.event := by
  constructor
  · rw [hdefault]
    intro event hordered
    constructor
    · exact fun h => settled_of_settles_event hordered fun redacted hredacted => h redacted hredacted
    · exact fun hsettled redacted hredacted => settles_event hsettled hredacted
  · exact fun actions s hrun hsettled => run_stores_first hdefault hrun hsettled

/-- The same pipeline over a store that fails in its first two calls. -/
def refused_pipeline : WritePipeline := { key_pipeline with fails := fun n => n < 2 }

/-- Both failures hit the first flush, and the next one is that of the interval. -/
def refused_run (key : String) : List PipelineAction :=
  key_run key 14 ++ [.proceed true, .proceed false, .proceed false]

theorem redaction_idempotent_sample :
    (∀ redacted, redact_event default_redactor key_node_meta (key_event "secret") = some redacted →
      redact_event default_redactor key_node_meta redacted = some redacted) ∧
    ∃ s, PipelineRun refused_pipeline (refused_run "secret") s ∧ s.stored.length = 1 ∧
      ∀ entry ∈ s.stored, redact_event default_redactor key_node_meta entry.source.event = some entry.event := by
  have hlong : LongText (.string "secret") := (by decide : 4 ≤ "secret".utf8ByteSize)
  constructor
  · have hordered : OrderedEvent (key_event "secret") := ⟨List.pairwise_singleton _ _, trivial, trivial⟩
    refine ((redaction_idempotent_iff refused_pipeline rfl).1 _ hordered).mpr (.inr fun value hvalue => ?_)
    rw [List.mem_singleton.mp hvalue]
    exact hlong
  · have hran : ((refused_run "secret").foldlM (pipeline_step refused_pipeline) (spawn refused_pipeline)).map
        (fun s => (masked_texts refused_pipeline s, s.stored.length)) = some ([[some "secret"]], 1) := by decide +kernel
    obtain ⟨s, hfold, houtcome⟩ := Option.map_eq_some_iff.mp hran
    obtain ⟨htexts, hstored⟩ := Prod.mk.inj houtcome
    have hrun : PipelineRun refused_pipeline (refused_run "secret") s := transition.run_of_foldlM hfold
    refine ⟨s, hrun, hstored, (redaction_idempotent_iff refused_pipeline rfl).2 _ s hrun ?_⟩
    intro source hsource
    refine .inr fun value hvalue => ?_
    rw [eq_masked_text htexts hsource hvalue]
    exact hlong

/-- What is masked of the stored events, and what a first flush would have left there. -/
def stored_texts (p : WritePipeline) (s : PipelineState) : List (List (Option String) × Option (List (Option String))) :=
  s.stored.map fun entry => ((masked_values p.node_meta entry.event).map Value.as_str,
    (redact_event p.redactor p.node_meta entry.source.event).map fun event =>
      (masked_values p.node_meta event).map Value.as_str)

/-- The replacement of a short key is masked itself when the event is redacted again, so that
two failures of the store change what is stored. -/
theorem refused_flush_changes_the_event :
    DefaultRedactor.redact "key" .masked (.string "ab") = some (.string "[MASKED]") ∧
    DefaultRedactor.redact "key" .masked (.string "[MASKED]") = some (.string "****KED]") ∧
    ∃ s entry, PipelineRun refused_pipeline (refused_run "ab") s ∧ entry ∈ s.stored ∧
      redact_event default_redactor key_node_meta entry.source.event ≠ some entry.event := by
  refine ⟨rfl, rfl, ?_⟩
  have hran : ((refused_run "ab").foldlM (pipeline_step refused_pipeline) (spawn refused_pipeline)).map
      (stored_texts refused_pipeline) = some [([some "****KED]"], some [some "[MASKED]"])] := by decide +kernel
  obtain ⟨s, hfold, houtcome⟩ := Option.map_eq_some_iff.mp hran
  obtain ⟨entry, hstored, htexts⟩ := List.map_eq_singleton_iff.mp houtcome
  obtain ⟨hlast, hfirst⟩ := Prod.mk.inj htexts
  refine ⟨s, entry, transition.run_of_foldlM hfold, by simp [hstored], ?_⟩
  intro hsame
  obtain ⟨event, hevent, hfirst⟩ := Option.map_eq_some_iff.mp hfirst
  obtain rfl := Option.some.inj (hevent.symm.trans hsame)
  rw [hlast] at hfirst
  exact absurd hfirst (by decide)

end flow_engine.write_pipeline
