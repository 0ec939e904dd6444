import FlowEngine.Pipeline.Redact
import Mathlib.Algebra.Order.BigOperators.Group.List
import Mathlib.Data.Finset.Sort
import Mathlib.Data.String.Basic

namespace flow_engine.executor

/-- The record an `LlmInvocation` event was written for. -/
def llm_invocation : WriteEvent → Option LlmInvocationRecord
  | .LlmInvocation _ _ node_id request response => some ⟨node_id, request, response⟩
  | _ => none

/-- The LLM invocations of a log, in its order. -/
def logged_invocations (events : List WriteEvent) : List LlmInvocationRecord := events.filterMap llm_invocation

/-- The variables of the loop over the records. -/
structure SummaryLoop where
  total_input_tokens : Nat
  total_output_tokens : Nat
  models : Finset String
  tools : Finset String

/-- A number added to a `u64` sum where it is known. -/
def add_tokens (total : Nat) : Option Nat → Nat
  | some tokens => (total + tokens) % 2 ^ 64
  | none => total

def add_record (totals : SummaryLoop) (record : LlmInvocationRecord) : SummaryLoop where
  total_input_tokens := add_tokens totals.total_input_tokens record.response.input_tokens
  total_output_tokens := add_tokens totals.total_output_tokens record.response.output_tokens
  models := insert record.request.model totals.models
  tools :=
    match record.response.tool_calls with
    | some tool_calls => tool_calls.foldl (fun tools tc => insert tc.tool_name tools) totals.tools
    | none => totals.tools

def compute_llm_summary (records : List LlmInvocationRecord) : LlmRunSummary :=
  let totals := records.foldl add_record ⟨0, 0, ∅, ∅⟩
  { total_llm_calls := records.length % 2 ^ 32
    total_input_tokens := totals.total_input_tokens
    total_output_tokens := totals.total_output_tokens
    models_used := totals.models.sort
    tools_invoked := totals.tools.sort }

/-- The summary a run is finished with. -/
def run_summary (llm_records : List LlmInvocationRecord) : Option LlmRunSummary :=
  if llm_records.isEmpty then none else some (compute_llm_summary llm_records)

/-- What is in a record for the summary. -/
structure CallFacts where
  model : String
  input_tokens : Nat
  output_tokens : Nat
  tool_names : List String

def call_facts (record : LlmInvocationRecord) : CallFacts where
  model := record.request.model
  input_tokens := record.response.input_tokens.getD 0
  output_tokens := record.response.output_tokens.getD 0
  tool_names := (record.response.tool_calls.getD []).map LlmToolCall.tool_name

/-- The counts of the records fit into the types of the code. -/
structure Fits (records : List LlmInvocationRecord) : Prop where
  count : records.length < 2 ^ 32
  tokens : ∀ record ∈ records, (call_facts record).input_tokens < 2 ^ 32 ∧ (call_facts record).output_tokens < 2 ^ 32

/-- The summary has the count and the sums of the records, and the sorted lists of their
models and tools without duplicates. -/
structure Summarises (summary : LlmRunSummary) (records : List LlmInvocationRecord) : Prop where
  calls : summary.total_llm_calls = records.length
  input_tokens : summary.total_input_tokens = (records.map fun record => (call_facts record).input_tokens).sum
  output_tokens : summary.total_output_tokens = (records.map fun record => (call_facts record).output_tokens).sum
  models_sorted : summary.models_used.SortedLT
  models : ∀ model, model ∈ summary.models_used ↔ ∃ record ∈ records, (call_facts record).model = model
  tools_sorted : summary.tools_invoked.SortedLT
  tools : ∀ name, name ∈ summary.tools_invoked ↔ ∃ record ∈ records, name ∈ (call_facts record).tool_names

/-- There is a summary exactly if the log has LLM invocations, and then it is theirs. -/
structure SummaryAgrees (log : List WriteEvent) (summary : Option LlmRunSummary) : Prop where
  none_iff : summary = none ↔ logged_invocations log = []
  totals : ∀ totals, summary = some totals → Summarises totals (logged_invocations log)

section Totals

variable {records : List LlmInvocationRecord} {totals : SummaryLoop}

theorem add_tokens_eq {total : Nat} {tokens : Option Nat} (h : total + tokens.getD 0 < 2 ^ 64) :
    add_tokens total tokens = total + tokens.getD 0 := by
  cases tokens with
  | none => rfl
  | some tokens => exact Nat.mod_eq_of_lt h

/-- A `u64` sum over the records is exact where the whole sum fits. -/
theorem foldl_add_tokens (field : LlmInvocationRecord → Option Nat) (sum : SummaryLoop → Nat)
    (hsum : ∀ totals record, sum (add_record totals record) = add_tokens (sum totals) (field record))
    (h : sum totals + (records.map fun record => (field record).getD 0).sum < 2 ^ 64) :
    sum (records.foldl add_record totals) = sum totals + (records.map fun record => (field record).getD 0).sum := by
  induction records generalizing totals with
  | nil => rfl
  | cons record rest ih =>
    rw [List.map_cons, List.sum_cons, ← Nat.add_assoc] at h
    have hstep : sum (add_record totals record) = sum totals + (field record).getD 0 := by
      rw [hsum]
      exact add_tokens_eq (by omega)
    rw [List.foldl_cons, ih (by rw [hstep]; exact h), hstep, List.map_cons, List.sum_cons, Nat.add_assoc]

theorem foldl_add_record_models (model : String) : model ∈ (records.foldl add_record totals).models ↔
    model ∈ totals.models ∨ ∃ record ∈ records, (call_facts record).model = model := by
  induction records generalizing totals with
  | nil => simp
  | cons record rest ih =>
    rw [List.foldl_cons, ih]
    simp only [add_record, Finset.mem_insert, List.mem_cons, exists_eq_or_imp, call_facts]
    tauto

theorem mem_insert_tool_names (calls : List LlmToolCall) (tools : Finset String) (name : String) :
    name ∈ calls.foldl (fun tools tc => insert tc.tool_name tools) tools ↔
      name ∈ tools ∨ name ∈ calls.map LlmToolCall.tool_name := by
  induction calls generalizing tools with
  | nil => simp
  | cons call rest ih =>
    rw [List.foldl_cons, ih, Finset.mem_insert, List.map_cons, List.mem_cons]
    tauto

theorem add_record_tools (record : LlmInvocationRecord) (name : String) :
    name ∈ (add_record totals record).tools ↔ name ∈ totals.tools ∨ name ∈ (call_facts record).tool_names := by
  unfold add_record call_facts
  cases record.response.tool_calls with
  | none => simp
  | some calls => exact mem_insert_tool_names calls totals.tools name

theorem foldl_add_record_tools (name : String) : name ∈ (records.foldl add_record totals).tools ↔
    name ∈ totals.tools ∨ ∃ record ∈ records, name ∈ (call_facts record).tool_names := by
  induction records generalizing totals with
  | nil => simp
  | cons record rest ih =>
    rw [List.foldl_cons, ih, add_record_tools]
    simp only [List.mem_cons, exists_eq_or_imp]
    tauto

/-- Fewer than 2^32 numbers of 32 bits have a sum of 64 bits. -/
theorem sum_lt_of_fits {field : LlmInvocationRecord → Nat} (hcount : records.length < 2 ^ 32)
    (hfield : ∀ record ∈ records, field record < 2 ^ 32) : (records.map field).sum < 2 ^ 64 := by
  have hle : (records.map field).sum ≤ (records.map field).length * (2 ^ 32 - 1) := by
    refine List.sum_le_card_nsmul _ _ ?_
    intro number hnumber
    obtain ⟨record, hrecord, rfl⟩ := List.mem_map.mp hnumber
    exact Nat.le_sub_one_of_lt (hfield record hrecord)
  rw [List.length_map] at hle
  have hbound := Nat.mul_le_mul_right (2 ^ 32 - 1) (Nat.le_sub_one_of_lt hcount)
  omega

/-- The code's summary is that of the records. -/
theorem compute_llm_summary_summarises (h : Fits records) : Summarises (compute_llm_summary records) records := by
  have hinput := sum_lt_of_fits h.count fun record hrecord => (h.tokens record hrecord).1
  have houtput := sum_lt_of_fits h.count fun record hrecord => (h.tokens record hrecord).2
  constructor
  · exact Nat.mod_eq_of_lt h.count
  · have hsum := @foldl_add_tokens records ⟨0, 0, ∅, ∅⟩ (fun record => record.response.input_tokens)
      SummaryLoop.total_input_tokens (fun _ _ => rfl) (by rw [Nat.zero_add]; exact hinput)
    exact hsum.trans (Nat.zero_add _)
  · have hsum := @foldl_add_tokens records ⟨0, 0, ∅, ∅⟩ (fun record => record.response.output_tokens)
      SummaryLoop.total_output_tokens (fun _ _ => rfl) (by rw [Nat.zero_add]; exact houtput)
    exact hsum.trans (Nat.zero_add _)
  · exact Finset.sortedLT_sort _
  · intro model
    have hmem := @foldl_add_record_models records ⟨0, 0, ∅, ∅⟩ model
    simpa [compute_llm_summary] using hmem
  · exact Finset.sortedLT_sort _
  · intro name
    have hmem := @foldl_add_record_tools records ⟨0, 0, ∅, ∅⟩ name
    simpa [compute_llm_summary] using hmem

end Totals

section Persisted

variable {records stored : List LlmInvocationRecord}

/-- What is summarised does not depend on the order of the records, nor on their messages. -/
theorem Summarises.of_perm {summary : LlmRunSummary} (h : Summarises summary records)
    (hperm : (stored.map call_facts).Perm (records.map call_facts)) : Summarises summary stored := by
  have hfacts : ∀ facts, (∃ record ∈ stored, call_facts record = facts) ↔ ∃ record ∈ records, call_facts record = facts := by
    intro facts
    simpa only [List.mem_map] using hperm.mem_iff
  have hsum : ∀ field : CallFacts → Nat, (stored.map fun record => field (call_facts record)).sum =
      (records.map fun record => field (call_facts record)).sum := by
    intro field
    simpa only [List.map_map, Function.comp_def] using (hperm.map field).sum_eq
  have hexists : ∀ p : CallFacts → Prop, (∃ record ∈ stored, p (call_facts record)) ↔ ∃ record ∈ records, p (call_facts record) := by
    intro p
    constructor
    · rintro ⟨record, hrecord, hp⟩
      obtain ⟨other, hother, heq⟩ := (hfacts _).mp ⟨record, hrecord, rfl⟩
      exact ⟨other, hother, heq ▸ hp⟩
    · rintro ⟨record, hrecord, hp⟩
      obtain ⟨other, hother, heq⟩ := (hfacts _).mpr ⟨record, hrecord, rfl⟩
      exact ⟨other, hother, heq ▸ hp⟩
  constructor
  · rw [h.calls]
    simpa only [List.length_map] using hperm.length_eq.symm
  · exact h.input_tokens.trans (hsum CallFacts.input_tokens).symm
  · exact h.output_tokens.trans (hsum CallFacts.output_tokens).symm
  · exact h.models_sorted
  · exact fun model => (h.models model).trans (hexists fun facts => facts.model = model).symm
  · exact h.tools_sorted
  · exact fun name => (h.tools name).trans (hexists fun facts => name ∈ facts.tool_names).symm

theorem Fits.of_perm (h : Fits stored) (hperm : (stored.map call_facts).Perm (records.map call_facts)) : Fits records := by
  constructor
  · have hlength := hperm.length_eq
    simp only [List.length_map] at hlength
    rw [← hlength]
    exact h.count
  · intro record hrecord
    obtain ⟨other, hother, heq⟩ := List.mem_map.mp (hperm.mem_iff.mpr (List.mem_map_of_mem hrecord))
    rw [← heq]
    exact h.tokens other hother

variable {redactor : write_pipeline.Redactor} {node_meta : String → Option NodeMeta}

/-- Redaction keeps what is in an LLM invocation for the summary. -/
theorem llm_invocation_redact {event redacted : WriteEvent}
    (h : write_pipeline.redact_event redactor node_meta event = some redacted) :
    (llm_invocation redacted).map call_facts = (llm_invocation event).map call_facts := by
  cases write_pipeline.redact_event_cases h <;> rfl

end Persisted

end flow_engine.executor
