import FlowEngine.Types
import Mathlib.Data.List.Induction
import Mathlib.Data.List.Sort
import Std.Data.TreeMap.Lemmas

namespace flow_engine.llm_call

/-- A single chunk from a streaming LLM response. -/
inductive LlmChunk where
  | TextDelta (delta : String)
  | ToolCallDelta (index : UInt32) (id name : Option String) (arguments_delta : String)
  | Usage (input_tokens output_tokens : Option UInt32)
  | Done (finish_reason : String)

/-- Cost breakdown for a single LLM invocation; the amounts are bit patterns. -/
structure LlmCost where
  input_cost_usd : UInt64
  output_cost_usd : UInt64
  total_cost_usd : UInt64
  pricing_source : String

/-- A response with the fields that the executor does not read. -/
structure FullLlmResponse extends LlmResponse where
  total_tokens : Option UInt32
  latency_ms : UInt64
  provider_request_id : Option String
  cost : Option LlmCost

/-- The variables of the loop over the chunks. A part holds the id, the name
and the arguments of a tool call. -/
structure Streamed where
  content : String
  tool_call_parts : Std.TreeMap UInt32 (String × String × String)
  finish_reason : String
  input_tokens : Option UInt32
  output_tokens : Option UInt32

namespace Streamed

def start : Streamed := ⟨"", ∅, "stop", none, none⟩

def step (s : Streamed) : LlmChunk → Streamed
  | .TextDelta delta => { s with content := s.content ++ delta }
  | .ToolCallDelta index id name arguments_delta =>
    let entry := s.tool_call_parts.getD index ("", "", "")
    { s with
      tool_call_parts :=
        s.tool_call_parts.insert index (id.getD entry.1, name.getD entry.2.1, entry.2.2 ++ arguments_delta) }
  | .Usage it ot => { s with input_tokens := it.or s.input_tokens, output_tokens := ot.or s.output_tokens }
  | .Done fr => { s with finish_reason := fr }

end Streamed

variable {ε : Type}

/-- The loop: the chunks that are emitted, and the variables at the end of the
stream or the error that ends it. -/
def read_stream (s : Streamed) : List (Except ε LlmChunk) → List LlmChunk × Except ε Streamed
  | [] => ([], .ok s)
  | .error e :: _ => ([], .error e)
  | .ok chunk :: rest =>
    let (emitted, result) := read_stream (s.step chunk) rest
    (chunk :: emitted, result)

section Response

variable (from_str : String → Option Value)

/-- Arguments that do not parse count as an empty object. -/
def tool_call (part : String × String × String) : LlmToolCall :=
  ⟨part.1, part.2.1, (from_str part.2.2).getD (.object [])⟩

/-- The response that is put together from the variables of the loop. The sum
of the tokens wraps, as it does in a release build. -/
def Streamed.response (s : Streamed) (model : String) (latency_ms : UInt64) : FullLlmResponse where
  content := .string s.content
  tool_calls :=
    if s.tool_call_parts.isEmpty then none
    else some (s.tool_call_parts.toList.map fun entry => tool_call from_str entry.2)
  model_used := model
  input_tokens := s.input_tokens.map UInt32.toNat
  output_tokens := s.output_tokens.map UInt32.toNat
  finish_reason := s.finish_reason
  total_tokens :=
    match s.input_tokens, s.output_tokens with
    | some i, some o => some (i + o)
    | _, _ => none
  latency_ms := latency_ms
  provider_request_id := none
  cost := none

/-- The streaming path of `LlmCallNode::run`, with what it emits. -/
def run_streaming (model : String) (latency_ms : UInt64) (stream : List (Except ε LlmChunk)) :
    List LlmChunk × Except ε FullLlmResponse :=
  let (emitted, result) := read_stream .start stream
  (emitted, result.map fun s => s.response from_str model latency_ms)

end Response

namespace LlmChunk

def text : LlmChunk → Option String
  | .TextDelta delta => some delta
  | _ => none

/-- What a chunk brings for the tool call at an index. -/
def delta_for (i : UInt32) : LlmChunk → Option (Option String × Option String × String)
  | .ToolCallDelta index id name arguments_delta => if index = i then some (id, name, arguments_delta) else none
  | _ => none

def input : LlmChunk → Option UInt32
  | .Usage it _ => it
  | _ => none

def output : LlmChunk → Option UInt32
  | .Usage _ ot => ot
  | _ => none

def reason : LlmChunk → Option String
  | .Done fr => some fr
  | _ => none

end LlmChunk

section Specification

variable (chunks : List LlmChunk) (i : UInt32)

/-- The text of all text deltas. -/
def text : String := String.join (chunks.filterMap LlmChunk.text)

def deltas : List (Option String × Option String × String) := chunks.filterMap (LlmChunk.delta_for i)

/-- The last id that was given for the tool call. -/
def last_id : Option String := ((deltas chunks i).filterMap fun delta => delta.1).getLast?

def last_name : Option String := ((deltas chunks i).filterMap fun delta => delta.2.1).getLast?

/-- The text of all argument deltas of the tool call. -/
def arguments : String := String.join ((deltas chunks i).map fun delta => delta.2.2)

def last_input : Option UInt32 := (chunks.filterMap LlmChunk.input).getLast?

def last_output : Option UInt32 := (chunks.filterMap LlmChunk.output).getLast?

def last_reason : Option String := (chunks.filterMap LlmChunk.reason).getLast?

/-- Some chunk is about the tool call. -/
def Mentioned : Prop := deltas chunks i ≠ []

end Specification

/-- Two chunk sequences carry the same response in different chunks. -/
structure SameContents (c d : List LlmChunk) : Prop where
  text : text c = text d
  arguments : ∀ i, arguments c i = arguments d i
  id : ∀ i, last_id c i = last_id d i
  name : ∀ i, last_name c i = last_name d i
  input : last_input c = last_input d
  output : last_output c = last_output d
  reason : last_reason c = last_reason d

/-- The part of a tool call that the chunks bring, if they mention it. -/
def part_of (chunks : List LlmChunk) (i : UInt32) : String × String × String :=
  ((last_id chunks i).getD "", (last_name chunks i).getD "", arguments chunks i)

/-- What the loop has found in the chunks so far. -/
structure Collected (chunks : List LlmChunk) (s : Streamed) : Prop where
  content : s.content = text chunks
  part : ∀ i, s.tool_call_parts[i]? = if deltas chunks i = [] then none else some (part_of chunks i)
  reason : s.finish_reason = (last_reason chunks).getD "stop"
  input : s.input_tokens = last_input chunks
  output : s.output_tokens = last_output chunks

theorem join_snoc (texts : List String) (t : String) : String.join (texts ++ [t]) = String.join texts ++ t := by
  rw [String.join, List.foldl_append]
  rfl

theorem getLast?_filterMap_snoc {α β : Type} (f : α → Option β) (list : List α) (a : α) :
    ((list ++ [a]).filterMap f).getLast? = (f a).or (list.filterMap f).getLast? := by
  rw [List.filterMap_append, List.getLast?_append]
  cases h : f a <;> simp [h]

theorem deltas_snoc (chunks : List LlmChunk) (chunk : LlmChunk) (i : UInt32) :
    deltas (chunks ++ [chunk]) i = deltas chunks i ++ (chunk.delta_for i).toList := by
  rw [deltas, List.filterMap_append]
  cases h : chunk.delta_for i <;> simp [deltas, h]

theorem text_snoc (chunks : List LlmChunk) (chunk : LlmChunk) :
    text (chunks ++ [chunk]) = text chunks ++ chunk.text.getD "" := by
  rw [text, List.filterMap_append]
  cases h : chunk.text with
  | none => simp [text, h]
  | some delta => simp [text, h]

/-- A chunk that is not about a tool call leaves its part as it was. -/
theorem part_snoc_other {chunks : List LlmChunk} {chunk : LlmChunk} {i : UInt32} (h : chunk.delta_for i = none) :
    deltas (chunks ++ [chunk]) i = deltas chunks i ∧ part_of (chunks ++ [chunk]) i = part_of chunks i := by
  have hdeltas : deltas (chunks ++ [chunk]) i = deltas chunks i := by
    rw [deltas_snoc, h]
    exact List.append_nil _
  refine ⟨hdeltas, ?_⟩
  simp only [part_of, last_id, last_name, arguments, hdeltas]

/-- A delta renews the id and the name if it has them, and extends the arguments. -/
theorem part_snoc_self (chunks : List LlmChunk) (i : UInt32) (id name : Option String) (arguments_delta : String) :
    part_of (chunks ++ [.ToolCallDelta i id name arguments_delta]) i =
      (id.getD (part_of chunks i).1, name.getD (part_of chunks i).2.1, (part_of chunks i).2.2 ++ arguments_delta) := by
  have hdeltas : deltas (chunks ++ [.ToolCallDelta i id name arguments_delta]) i
      = deltas chunks i ++ [(id, name, arguments_delta)] := by
    rw [deltas_snoc, LlmChunk.delta_for, if_pos rfl]
    rfl
  simp only [part_of, last_id, last_name, arguments, hdeltas, getLast?_filterMap_snoc, List.map_append, List.map_cons,
    List.map_nil, join_snoc]
  cases id <;> cases name <;> rfl

theorem part_of_nil {chunks : List LlmChunk} {i : UInt32} (h : deltas chunks i = []) : part_of chunks i = ("", "", "") := by
  simp [part_of, last_id, last_name, arguments, h, String.join]

section Step

variable (s : Streamed) (chunk : LlmChunk)

theorem Streamed.step_content : (s.step chunk).content = s.content ++ chunk.text.getD "" := by
  cases chunk with
  | TextDelta delta => rfl
  | _ => exact String.append_empty.symm

theorem Streamed.step_finish_reason : (s.step chunk).finish_reason = chunk.reason.getD s.finish_reason := by
  cases chunk <;> rfl

theorem Streamed.step_input_tokens : (s.step chunk).input_tokens = chunk.input.or s.input_tokens := by
  cases chunk <;> rfl

theorem Streamed.step_output_tokens : (s.step chunk).output_tokens = chunk.output.or s.output_tokens := by
  cases chunk <;> rfl

end Step

/-- Only the part at the index of a tool call delta changes. -/
theorem Collected.step_part {chunks : List LlmChunk} {s : Streamed} (h : Collected chunks s) (chunk : LlmChunk)
    (i : UInt32) : (s.step chunk).tool_call_parts[i]? =
      if deltas (chunks ++ [chunk]) i = [] then none else some (part_of (chunks ++ [chunk]) i) := by
  cases hdelta : chunk.delta_for i with
  | none =>
    obtain ⟨hdeltas, hpart⟩ := @part_snoc_other chunks _ _ hdelta
    rw [hdeltas, hpart, ← h.part]
    cases chunk with
    | ToolCallDelta index id name arguments_delta =>
      have hindex : index ≠ i := by
        rintro rfl
        simp [LlmChunk.delta_for] at hdelta
      rw [Streamed.step, Std.TreeMap.getElem?_insert, if_neg fun heq => hindex (Std.LawfulEqCmp.eq_of_compare heq)]
    | _ => rfl
  | some delta =>
    cases chunk with
    | ToolCallDelta index id name arguments_delta =>
      have hindex : index = i := by
        by_contra hne
        simp [LlmChunk.delta_for, hne] at hdelta
      subst hindex
      have hentry : s.tool_call_parts.getD index ("", "", "") = part_of chunks index := by
        rw [Std.TreeMap.getD_eq_getD_getElem?, h.part]
        split
        · exact (part_of_nil ‹_›).symm
        · rfl
      have hsome : deltas (chunks ++ [.ToolCallDelta index id name arguments_delta]) index ≠ [] := by
        rw [deltas_snoc, hdelta]
        exact List.append_ne_nil_of_right_ne_nil _ (List.cons_ne_nil _ _)
      rw [if_neg hsome, part_snoc_self, Streamed.step, Std.TreeMap.getElem?_insert_self, hentry]
    | _ => cases hdelta

theorem Collected.snoc {chunks : List LlmChunk} {s : Streamed} (h : Collected chunks s) (chunk : LlmChunk) :
    Collected (chunks ++ [chunk]) (s.step chunk) := by
  refine ⟨?_, h.step_part chunk, ?_, ?_, ?_⟩
  · rw [s.step_content, text_snoc, h.content]
  · rw [s.step_finish_reason, last_reason, getLast?_filterMap_snoc, h.reason]
    cases chunk.reason <;> rfl
  · rw [s.step_input_tokens, last_input, getLast?_filterMap_snoc, h.input]
    rfl
  · rw [s.step_output_tokens, last_output, getLast?_filterMap_snoc, h.output]
    rfl

theorem collected_start : Collected [] Streamed.start := by
  refine ⟨rfl, fun i => ?_, rfl, rfl, rfl⟩
  exact Std.TreeMap.getElem?_emptyc

theorem collected (chunks : List LlmChunk) : Collected chunks (chunks.foldl Streamed.step .start) := by
  induction chunks using List.reverseRecOn with
  | nil => exact collected_start
  | append_singleton chunks chunk ih =>
    rw [List.foldl_append]
    exact ih.snoc chunk

/-- A stream without errors is read to its end, and every chunk is emitted. -/
theorem read_stream_ok (s : Streamed) (chunks : List LlmChunk) :
    read_stream s (chunks.map Except.ok : List (Except ε LlmChunk)) = (chunks, .ok (chunks.foldl Streamed.step s)) := by
  induction chunks generalizing s with
  | nil => rfl
  | cons chunk rest ih =>
    rw [List.map_cons, read_stream, ih]
    rfl

/-- The parts are those of the tool calls that are mentioned, in the order of their indices. -/
theorem Collected.parts {chunks : List LlmChunk} {s : Streamed} (h : Collected chunks s) :
    ∃ indices : List UInt32, indices.Pairwise (· < ·) ∧ (∀ i, i ∈ indices ↔ Mentioned chunks i) ∧
      s.tool_call_parts.toList = indices.map fun i => (i, part_of chunks i) := by
  refine ⟨s.tool_call_parts.toList.map Prod.fst, ?_, fun i => ?_, ?_⟩
  · rw [List.pairwise_map]
    exact Std.TreeMap.ordered_keys_toList.imp Std.compare_eq_lt.mp
  · have hpart := h.part i
    by_cases hdeltas : deltas chunks i = []
    · rw [if_pos hdeltas] at hpart
      refine iff_of_false ?_ (not_not_intro hdeltas)
      rintro hmem
      obtain ⟨⟨_, part⟩, hentry, rfl⟩ := List.mem_map.mp hmem
      rw [Std.TreeMap.mem_toList_iff_getElem?_eq_some.mp hentry] at hpart
      cases hpart
    · rw [if_neg hdeltas] at hpart
      exact iff_of_true (List.mem_map_of_mem (Std.TreeMap.mem_toList_iff_getElem?_eq_some.mpr hpart)) hdeltas
  · rw [List.map_map]
    refine (List.map_id _).symm.trans (List.map_congr_left fun entry hentry => ?_)
    have hpart := h.part entry.1
    rw [Std.TreeMap.mem_toList_iff_getElem?_eq_some.mp hentry] at hpart
    split at hpart
    · cases hpart
    · exact Prod.ext rfl (Option.some.inj hpart)

/-- The list of the tool calls, which is left out where there is none. -/
def listed (calls : List LlmToolCall) : Option (List LlmToolCall) := if calls.isEmpty then none else some calls

theorem Streamed.response_tool_calls (s : Streamed) (from_str : String → Option Value) (model : String)
    (latency_ms : UInt64) : (s.response from_str model latency_ms).tool_calls
      = listed (s.tool_call_parts.toList.map fun entry => tool_call from_str entry.2) := by
  rw [listed, List.isEmpty_map, Std.TreeMap.isEmpty_toList]
  rfl

theorem SameContents.part_of_eq {c d : List LlmChunk} (h : SameContents c d) : part_of c = part_of d := by
  funext i
  rw [part_of, part_of, h.id, h.name, h.arguments]

/-- What is put together depends on the contents only. -/
theorem response_eq_of_same {c d : List LlmChunk} {s s' : Streamed} (hs : Collected c s) (hs' : Collected d s')
    (h : SameContents c d) (hmentioned : ∀ i, Mentioned c i ↔ Mentioned d i) (from_str : String → Option Value)
    (model : String) (latency latency' : UInt64) :
    s'.response from_str model latency' = { s.response from_str model latency with latency_ms := latency' } := by
  obtain ⟨indices, hascending, hindices, hparts⟩ := hs.parts
  obtain ⟨indices', hascending', hindices', hparts'⟩ := hs'.parts
  have hasymm : Std.Asymm fun a b : UInt32 => a < b := ⟨fun a b hab hba => UInt32.lt_asymm hab hba⟩
  have hsame : indices = indices' := hascending.eq_of_mem_iff hascending' fun i =>
    (hindices i).trans ((hmentioned i).trans (hindices' i).symm)
  have hlist : s'.tool_call_parts.toList = s.tool_call_parts.toList := by
    rw [hparts, hparts', hsame, h.part_of_eq]
  have hempty : s'.tool_call_parts.isEmpty = s.tool_call_parts.isEmpty := by
    rw [← Std.TreeMap.isEmpty_toList, hlist, Std.TreeMap.isEmpty_toList]
  have hcontent : s'.content = s.content := by rw [hs.content, hs'.content, h.text]
  have hreason : s'.finish_reason = s.finish_reason := by rw [hs.reason, hs'.reason, h.reason]
  have hinput : s'.input_tokens = s.input_tokens := by rw [hs.input, hs'.input, h.input]
  have houtput : s'.output_tokens = s.output_tokens := by rw [hs.output, hs'.output, h.output]
  simp only [Streamed.response, hlist, hempty, hcontent, hreason, hinput, houtput]

/-- Streams with the same contents that mention the same tool calls give the
same response up to latency, with the tool calls in the order of their indices;
where the arguments of every call are a serialized value, these are the whole
calls. -/
theorem streaming_independent_of_chunking (from_str : String → Option Value) (model : String) {c d : List LlmChunk}
    (h : SameContents c d) (hmentioned : ∀ i, Mentioned c i ↔ Mentioned d i) (latency latency' : UInt64) :
    ∃ r, run_streaming from_str model latency (c.map Except.ok : List (Except ε LlmChunk)) = (c, .ok r) ∧
      run_streaming from_str model latency' (d.map Except.ok : List (Except ε LlmChunk))
        = (d, .ok { r with latency_ms := latency' }) ∧
      ∃ indices : List UInt32, indices.Pairwise (· < ·) ∧ (∀ i, i ∈ indices ↔ Mentioned c i) ∧
        r.tool_calls = listed (indices.map fun i => tool_call from_str (part_of c i)) ∧
        ∀ (to_string : Value → String) (whole : UInt32 → LlmToolCall),
          (∀ i ∈ indices, (last_id c i).getD "" = (whole i).id ∧ (last_name c i).getD "" = (whole i).tool_name ∧
            arguments c i = to_string (whole i).arguments ∧
            from_str (to_string (whole i).arguments) = some (whole i).arguments) →
          r.tool_calls = listed (indices.map whole) := by
  obtain ⟨indices, hascending, hindices, hparts⟩ := (collected c).parts
  have hcalls : ((c.foldl Streamed.step .start).response from_str model latency).tool_calls
      = listed (indices.map fun i => tool_call from_str (part_of c i)) := by
    rw [Streamed.response_tool_calls, hparts, List.map_map]
    rfl
  refine ⟨(c.foldl Streamed.step .start).response from_str model latency, ?_, ?_, indices, hascending, hindices, hcalls,
    ?_⟩
  · rw [run_streaming, read_stream_ok]
    rfl
  · rw [run_streaming, read_stream_ok]
    exact congrArg (fun r => (d, Except.ok r))
      (response_eq_of_same (collected c) (collected d) h hmentioned from_str model latency latency')
  · intro to_string whole hwhole
    rw [hcalls]
    refine congrArg listed (List.map_congr_left fun i hi => ?_)
    obtain ⟨hid, hname, harguments, hparses⟩ := hwhole i hi
    rw [tool_call, part_of, hid, hname, harguments, hparses]
    rfl

/-- `{"x":1}` -/
def sample_arguments : Value := .object [("x", .number (.pos_int 1))]

def sample_from_str (args : String) : Option Value :=
  if args = "\x7b\"x\":1\x7d" then some sample_arguments else none

/-- Text, arguments and usage in small chunks. -/
def fine_chunks : List LlmChunk :=
  [.TextDelta "Hel", .ToolCallDelta 0 (some "call_1") (some "search") "\x7b\"x\"", .Usage (some 3) none, .TextDelta "lo",
    .ToolCallDelta 0 none none ":1\x7d", .Usage none (some 5), .Done "tool_calls"]

/-- The same in larger chunks. -/
def coarse_chunks : List LlmChunk :=
  [.ToolCallDelta 0 none (some "search") "", .Usage (some 3) (some 5), .TextDelta "Hello",
    .ToolCallDelta 0 (some "call_1") none "\x7b\"x\":1\x7d", .Done "tool_calls"]

theorem deltas_fine_chunks (i : UInt32) : deltas fine_chunks i =
    if 0 = i then [(some "call_1", some "search", "\x7b\"x\""), (none, none, ":1\x7d")] else [] := by
  by_cases h : 0 = i
  · subst h
    rfl
  · simp [fine_chunks, deltas, LlmChunk.delta_for, h]

theorem deltas_coarse_chunks (i : UInt32) : deltas coarse_chunks i =
    if 0 = i then [(none, some "search", ""), (some "call_1", none, "\x7b\"x\":1\x7d")] else [] := by
  by_cases h : 0 = i
  · subst h
    rfl
  · simp [coarse_chunks, deltas, LlmChunk.delta_for, h]

theorem streaming_sample : ∃ r,
    run_streaming sample_from_str "gpt-4o" 12 (fine_chunks.map Except.ok : List (Except String LlmChunk))
      = (fine_chunks, .ok r) ∧
    run_streaming sample_from_str "gpt-4o" 7 (coarse_chunks.map Except.ok : List (Except String LlmChunk))
      = (coarse_chunks, .ok { r with latency_ms := 7 }) ∧
    r.tool_calls = some [⟨"call_1", "search", sample_arguments⟩] := by
  have hsame : SameContents fine_chunks coarse_chunks := by
    refine ⟨rfl, fun i => ?_, fun i => ?_, fun i => ?_, rfl, rfl, rfl⟩
    · rw [arguments, arguments, deltas_fine_chunks, deltas_coarse_chunks]
      split <;> rfl
    · rw [last_id, last_id, deltas_fine_chunks, deltas_coarse_chunks]
      split <;> rfl
    · rw [last_name, last_name, deltas_fine_chunks, deltas_coarse_chunks]
      split <;> rfl
  have hmentioned (i : UInt32) : Mentioned fine_chunks i ↔ Mentioned coarse_chunks i := by
    rw [Mentioned, Mentioned, deltas_fine_chunks, deltas_coarse_chunks]
    split <;> simp
  obtain ⟨r, hfine, hcoarse, _⟩ :=
    streaming_independent_of_chunking (ε := String) sample_from_str "gpt-4o" hsame hmentioned 12 7
  refine ⟨r, hfine, hcoarse, ?_⟩
  cases hfine
  rfl

/-- A delta without an id, a name or arguments says nothing, and makes a tool call. -/
theorem empty_delta_makes_a_call : SameContents [.ToolCallDelta 0 none none ""] [] ∧
    ((run_streaming sample_from_str "gpt-4o" 12 [(.ok (.ToolCallDelta 0 none none "") : Except String LlmChunk)]).2.map
      fun r => r.tool_calls) = .ok (some [⟨"", "", .object []⟩]) ∧
    ((run_streaming sample_from_str "gpt-4o" 12 ([] : List (Except String LlmChunk))).2.map fun r => r.tool_calls)
      = .ok none := by
  refine ⟨⟨rfl, fun i => ?_, fun i => ?_, fun i => ?_, rfl, rfl, rfl⟩, rfl, rfl⟩
  all_goals
    by_cases h : 0 = i
    · subst h
      rfl
    · simp [arguments, last_id, last_name, deltas, LlmChunk.delta_for, h]

end flow_engine.llm_call
