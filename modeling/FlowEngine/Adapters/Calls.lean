import FlowEngine.Adapters.Session
import FlowEngine.Executor.Runs

namespace flow_engine.adapters

open parking expression

variable {Call : Type*}

/-- The payload of the callback at a mark. -/
def payload (calls : Call → FrameworkCall) : Mark Call → Value
  | .start call => (calls call).start
  | .finish call => (calls call).finish

/-- The session after the callbacks of calls. -/
def feed (ops : F64Ops) (adapter : FrameworkAdapter) (calls : Call → FrameworkCall) (marks : List (Mark Call)) :
    AdapterSession := (marks.map (payload calls)).foldl (on_event ops adapter) .start

/-- The requests of the LLM calls and the inputs of the tool calls that start are those that
are recorded. -/
def CallsKept (ops : F64Ops) (adapter : FrameworkAdapter) (calls : Call → FrameworkCall) (marks : List (Mark Call)) :
    Prop :=
  let observed := (feed ops adapter calls marks).observed
  let started := fun kind => (starts (fun call => (calls call).kind = kind) marks).map calls
  (llm_requests observed : Multiset ObservedRequest) =
      (started .llm).map (fun call => parse_llm_request ops (adapter.llm_payload call)) ∧
    (tool_inputs observed : Multiset Value) = (started .tool).map fun call => (adapter.tool_payload call).2

/-- A call that looks the same with an empty object in the place of its payload. -/
def Blank (ops : F64Ops) (adapter : FrameworkAdapter) (call : FrameworkCall) : Prop :=
  match call.kind with
  | .llm => parse_llm_request ops (adapter.llm_payload call) = parse_llm_request ops (.object [])
  | .tool => (adapter.tool_payload call).2 = .object []

section Slots

variable (adapter : FrameworkAdapter) (calls : Call → FrameworkCall)

/-- The mark parks and takes the request of an LLM call. -/
def llm_mark : Mark Call → Option (Op String Value) :=
  call_op (fun call => adapter.call_id (calls call)) (fun call => adapter.llm_payload (calls call))
    fun call => (calls call).kind = .llm

def tool_mark : Mark Call → Option (Op String (String × Value)) :=
  call_op (fun call => adapter.call_id (calls call)) (fun call => adapter.tool_payload (calls call))
    fun call => (calls call).kind = .tool

/-- After the start of the call, the next callback of its kind under its identifier is the
start of another call. -/
def OvertakenCall (marks : List (Mark Call)) (call : Call) : Prop :=
  Overtaken (fun call => adapter.call_id (calls call)) (fun other => (calls other).kind = (calls call).kind) marks call

end Slots

section Feed

variable {ops : F64Ops} {adapter : FrameworkAdapter} {calls : Call → FrameworkCall} {marks : List (Mark Call)}

/-- The events of a callback are what its mark does to the pending starts. -/
theorem filterMap_translate (hcalls : ∀ call, (calls call).Of adapter) (mark : Mark Call) :
    (adapter.translate (payload calls mark)).filterMap llm_op = (llm_mark adapter calls mark).toList ∧
      (adapter.translate (payload calls mark)).filterMap tool_op = (tool_mark adapter calls mark).toList := by
  cases mark with
  | start call =>
    have htranslate := (hcalls call).translate
    cases hkind : (calls call).kind with
    | llm =>
      rw [hkind] at htranslate
      simp [payload, htranslate.1, llm_mark, tool_mark, call_op, hkind, llm_op, tool_op]
    | tool =>
      rw [hkind] at htranslate
      simp [payload, htranslate.1, llm_mark, tool_mark, call_op, hkind, llm_op, tool_op]
  | finish call =>
    have htranslate := (hcalls call).translate
    cases hkind : (calls call).kind with
    | llm =>
      rw [hkind] at htranslate
      obtain ⟨_, _, _, hfinish⟩ := htranslate
      simp [payload, hfinish, llm_mark, tool_mark, call_op, hkind, llm_op, tool_op]
    | tool =>
      rw [hkind] at htranslate
      obtain ⟨_, _, _, _, hfinish⟩ := htranslate
      simp [payload, hfinish, llm_mark, tool_mark, call_op, hkind, llm_op, tool_op]

theorem feed_eq : feed ops adapter calls marks =
    (marks.flatMap fun mark => adapter.translate (payload calls mark)).foldl (handle_event ops) .start := by
  rw [feed, List.foldl_map, List.foldl_flatMap]
  rfl

/-- One kind of pending starts: what the ends see of them is what was parked exactly if every
call that is overtaken looks like a missing one. -/
theorem seen_feed_iff {Item Seen : Type*} {op : AdapterEvent → Option (Op String Item)}
    {lot : AdapterSession → Lot String Item} {seen : AdapterSession → List Seen} {key : Call → String}
    {item : Call → Item} {parks : Call → Bool} {f : Item → Seen} {default : Seen}
    (hkeeps : Keeps (handle_event ops) op lot seen fun found => (found.map f).getD default)
    (hempty : lot .start = ∅) (hnothing : seen .start = [])
    (hmarks : ∀ mark, (adapter.translate (payload calls mark)).filterMap op = (call_op key item parks mark).toList)
    (h : Interleaved marks) :
    (seen (feed ops adapter calls marks) : Multiset Seen) = (starts parks marks).map (fun call => f (item call)) ↔
      ∀ call, Overtaken key parks marks call → f (item call) = default := by
  have hops : (marks.flatMap fun mark => adapter.translate (payload calls mark)).filterMap op =
      marks.filterMap (call_op key item parks) := by
    rw [List.filterMap_flatMap, List.filterMap_eq_flatMap_toList]
    exact congrArg (List.flatMap · marks) (funext hmarks)
  have hbalanced := h.balanced key item parks
  have hseen := hbalanced.seen_eq_iff f default
  rw [filterMap_parked_call_op, List.map_map] at hseen
  rw [feed_eq, hkeeps.seen_run, hempty, hnothing, List.nil_append, hops]
  refine hseen.trans ?_
  constructor
  · exact fun hall call hovertaken => hall _ (mem_displaced_call_op.mpr ⟨call, hovertaken, rfl⟩)
  · intro hall x hx
    obtain ⟨call, hovertaken, rfl⟩ := mem_displaced_call_op.mp hx
    exact hall call hovertaken

theorem overtakenCall_iff {call : Call} {kind : CallKind} (hkind : (calls call).kind = kind) :
    OvertakenCall adapter calls marks call ↔
      Overtaken (fun call => adapter.call_id (calls call)) (fun call => (calls call).kind = kind) marks call := by
  subst hkind
  rfl

/-- The calls of the two kinds overtake one another apart. -/
theorem forall_overtaken_iff : (∀ call, OvertakenCall adapter calls marks call → Blank ops adapter (calls call)) ↔
    (∀ call, Overtaken (fun call => adapter.call_id (calls call)) (fun call => (calls call).kind = .llm) marks call →
        parse_llm_request ops (adapter.llm_payload (calls call)) = parse_llm_request ops (.object [])) ∧
      ∀ call, Overtaken (fun call => adapter.call_id (calls call)) (fun call => (calls call).kind = .tool) marks call →
        (adapter.tool_payload (calls call)).2 = .object [] := by
  constructor
  · intro hall
    constructor
    · intro call hovertaken
      have hkind : (calls call).kind = .llm := of_decide_eq_true hovertaken.parks_call
      have hblank := hall call ((overtakenCall_iff hkind).mpr hovertaken)
      rwa [Blank, hkind] at hblank
    · intro call hovertaken
      have hkind : (calls call).kind = .tool := of_decide_eq_true hovertaken.parks_call
      have hblank := hall call ((overtakenCall_iff hkind).mpr hovertaken)
      rwa [Blank, hkind] at hblank
  · rintro ⟨hllm, htool⟩ call hovertaken
    cases hkind : (calls call).kind with
    | llm =>
      rw [Blank, hkind]
      exact hllm call ((overtakenCall_iff hkind).mp hovertaken)
    | tool =>
      rw [Blank, hkind]
      exact htool call ((overtakenCall_iff hkind).mp hovertaken)

/-- For each kind, what is recorded is what was started exactly if no start is lost. -/
theorem kept_iff_of_kinds (hcalls : ∀ call, (calls call).Of adapter) (h : Interleaved marks) :
    CallsKept ops adapter calls marks ↔
      (∀ call, Overtaken (fun call => adapter.call_id (calls call)) (fun call => (calls call).kind = .llm) marks call →
          parse_llm_request ops (adapter.llm_payload (calls call)) = parse_llm_request ops (.object [])) ∧
        ∀ call, Overtaken (fun call => adapter.call_id (calls call)) (fun call => (calls call).kind = .tool) marks call →
          (adapter.tool_payload (calls call)).2 = .object [] := by
  have hllm := seen_feed_iff (handle_event_keeps_llm ops) rfl rfl (fun mark => (filterMap_translate hcalls mark).1) h
  have htool := seen_feed_iff (handle_event_keeps_tool ops) rfl rfl (fun mark => (filterMap_translate hcalls mark).2) h
  rw [← hllm, ← htool]
  simp [CallsKept, Function.comp_def]

/-- Calls with identifiers of their own, such as the runs of LangChain, are all kept. -/
theorem kept_of_distinct (hcalls : ∀ call, (calls call).Of adapter) (h : Interleaved marks)
    (hdistinct : ∀ call other, (calls call).kind = (calls other).kind →
      adapter.call_id (calls call) = adapter.call_id (calls other) → call = other) :
    CallsKept ops adapter calls marks := by
  have hnone : ∀ kind call,
      ¬Overtaken (fun call => adapter.call_id (calls call)) (fun call => (calls call).kind = kind) marks call := by
    intro kind call
    refine h.not_overtaken ?_ call
    intro call other hkind hkind' hid
    exact hdistinct call other ((of_decide_eq_true hkind).trans (of_decide_eq_true hkind').symm) hid
  rw [kept_iff_of_kinds hcalls h]
  exact ⟨fun call hovertaken => absurd hovertaken (hnone .llm call),
    fun call hovertaken => absurd hovertaken (hnone .tool call)⟩

/-- No call is lost exactly if every call that another one of its kind and identifier
overtakes looks the same with an empty object for its payload. -/
theorem calls_kept_iff (hcalls : ∀ call, (calls call).Of adapter) (h : Interleaved marks) :
    CallsKept ops adapter calls marks ↔
      ∀ call, OvertakenCall adapter calls marks call → Blank ops adapter (calls call) :=
  (kept_iff_of_kinds hcalls h).trans forall_overtaken_iff.symm

end Feed

section Samples

/-- An LLM call in a node of LangGraph. -/
def sample_call (model : String) : FrameworkCall where
  kind := .llm
  start := .object [("callback", .string "on_llm_start"), ("node", .string "agent"),
    ("request", .object [("model", .string model)])]
  finish := .object [("callback", .string "on_llm_end"), ("node", .string "agent")]

theorem sample_call_of (model : String) : (sample_call model).Of .LangGraph := by
  refine ⟨"on_llm_start", "on_llm_end", ["node"], rfl, rfl, rfl, ?_⟩
  intro field hmem
  cases List.mem_singleton.mp hmem
  rfl

def sample_calls : Bool → FrameworkCall
  | true => sample_call "small"
  | false => sample_call "large"

/-- Two calls of one node that overlap. -/
def overlapping : List (Mark Bool) := [.start true, .start false, .finish false, .finish true]

def in_turn : List (Mark Bool) := [.start true, .finish true, .start false, .finish false]

theorem sample_calls_of (call : Bool) : (sample_calls call).Of .LangGraph := by
  cases call with
  | true => exact sample_call_of "small"
  | false => exact sample_call_of "large"

/-- The calls of one node are kept where each ends before the next one starts. -/
theorem calls_kept_sample : CallsKept executor.no_f64 .LangGraph sample_calls in_turn := by
  have hinterleaved : Interleaved in_turn := Interleaved.of_idxOf (by decide) (by decide) (by decide)
  rw [calls_kept_iff sample_calls_of hinterleaved]
  rintro call ⟨before, between, later, rest, hsplit, _, _, hbetween⟩
  -- the first mark after the start of the call is its end
  obtain ⟨mark, hmark, hcall⟩ : ∃ mark, between.head? = some mark ∧ mark.call = call := by
    cases between with
    | nil => simp [in_turn, List.cons_eq_append_iff] at hsplit
    | cons mark between =>
      refine ⟨mark, rfl, ?_⟩
      simp [in_turn, List.cons_eq_append_iff] at hsplit
      obtain ⟨rfl, rfl, rfl, _⟩ := hsplit
      rfl
  exact absurd (by rw [hcall]) (hbetween mark (List.mem_of_head? hmark) (by rw [hcall]; exact decide_eq_true rfl))

/-- The request of the call that is overtaken is recorded as an empty object. -/
theorem overlapping_call_lost : Interleaved overlapping ∧ (∀ call, (sample_calls call).Of .LangGraph) ∧
    ¬CallsKept executor.no_f64 .LangGraph sample_calls overlapping := by
  refine ⟨Interleaved.of_idxOf (by decide) (by decide) (by decide), sample_calls_of, ?_⟩
  intro hkept
  have hmodels := congrArg (Multiset.map fun request : ObservedRequest => request.model) hkept.1
  revert hmodels
  decide

end Samples

end flow_engine.adapters
