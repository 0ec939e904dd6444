import FlowEngine.Lib.Utf8
import FlowEngine.Stores.File

namespace flow_engine.providers

structure StreamChunk where
  content : String
  is_final : Bool
  prompt_tokens : Option Nat
  completion_tokens : Option Nat
  deriving DecidableEq

inductive ProviderError where
  | RequestFailed (message : String)
  | InvalidResponse (message : String)
  | ApiError (message : String)
  | StreamError (message : String)
  deriving DecidableEq

/-- What a stream yields. -/
abbrev Item := Except ProviderError StreamChunk

inductive Poll (α : Type) where
  | Ready (value : α)
  | Pending

/-- The tokens that have been seen by now. -/
structure Totals where
  total_prompt_tokens : Option Nat
  total_completion_tokens : Option Nat
  deriving DecidableEq

/-- The totals with the counts that a response has. -/
def Totals.updated (totals : Totals) (prompt_tokens completion_tokens : Option Nat) : Totals :=
  ⟨prompt_tokens.or totals.total_prompt_tokens, completion_tokens.or totals.total_completion_tokens⟩

structure OpenAIUsage where
  prompt_tokens : Nat
  completion_tokens : Nat

structure OpenAIDelta where
  content : Option String

structure OpenAIStreamChoice where
  delta : OpenAIDelta
  finish_reason : Option String

structure OpenAIStreamResponse where
  choices : List OpenAIStreamChoice
  usage : Option OpenAIUsage

structure AnthropicUsage where
  input_tokens : Nat
  output_tokens : Nat

structure AnthropicStreamMessage where
  usage : AnthropicUsage

structure AnthropicDelta where
  text : Option String

inductive AnthropicStreamEvent where
  | MessageStart (message : AnthropicStreamMessage)
  | ContentBlockStart
  | ContentBlockDelta (delta : AnthropicDelta)
  | ContentBlockStop
  | MessageDelta (usage : AnthropicUsage)
  | MessageStop
  | Ping

structure GeminiPart where
  text : String

structure GeminiContent where
  parts : List GeminiPart

structure GeminiCandidate where
  content : GeminiContent
  finish_reason : Option String

structure GeminiUsageMetadata where
  prompt_token_count : Option Nat
  candidates_token_count : Option Nat

structure GeminiStreamResponse where
  candidates : List GeminiCandidate
  usage_metadata : Option GeminiUsageMetadata

structure OllamaChatMessage where
  content : String

structure OllamaChatStreamResponse where
  message : Option OllamaChatMessage
  done : Bool
  prompt_eval_count : Option Nat
  eval_count : Option Nat

/-- `serde_json::from_str` for the type of each adapter, with the text of its error. -/
structure FromStr where
  open_ai : String → Except String OpenAIStreamResponse
  anthropic : String → Except String AnthropicStreamEvent
  gemini : String → Except String GeminiStreamResponse
  ollama : String → Except String OllamaChatStreamResponse

/-- What reading a line leaves of the totals, and what the adapter returns for it, if it does. -/
abbrev LineReader := Totals → List Char → Totals × Option Item

/-- `strip_prefix("data: ")`. -/
def data_of (line : List Char) : Option (List Char) :=
  if "data: ".toList.isPrefixOf line then some (line.drop 6) else none

/-- The last chunk of an answer, with the totals. -/
def final_chunk (totals : Totals) : StreamChunk := ⟨"", true, totals.total_prompt_tokens, totals.total_completion_tokens⟩

/-- The loop body of the OpenAI-compatible and of the Gemini adapter, which differ in the type
of the response. -/
def read_sse {Response : Type} (from_str : String → Except String Response) (prompt_tokens completion_tokens : Response → Option Nat)
    (content : Response → String) (is_final : Response → Bool) : LineReader := fun totals line =>
  match data_of line with
  | none => (totals, none)
  | some data =>
    if data = "[DONE]".toList then (totals, some (.ok (final_chunk totals)))
    else
      match from_str (String.ofList data) with
      | .ok response =>
        (totals.updated (prompt_tokens response) (completion_tokens response),
          some (.ok ⟨content response, is_final response, none, none⟩))
      | .error e => (totals, some (.error (.InvalidResponse ("Failed to parse SSE data: " ++ e))))

def openai_compatible.read_line (serde : FromStr) : LineReader :=
  read_sse serde.open_ai (fun response => response.usage.map (·.prompt_tokens))
    (fun response => response.usage.map (·.completion_tokens))
    (fun response => (response.choices.head?.bind (·.delta.content)).getD "")
    (fun response => (response.choices.head?.bind (·.finish_reason)).isSome)

def gemini.read_line (serde : FromStr) : LineReader :=
  read_sse serde.gemini (fun response => response.usage_metadata.bind (·.prompt_token_count))
    (fun response => response.usage_metadata.bind (·.candidates_token_count))
    (fun response => ((response.candidates.head?.bind (·.content.parts.head?)).map (·.text)).getD "")
    (fun response => (response.candidates.head?.bind (·.finish_reason)).isSome)

/-- The loop goes on behind the events that only count tokens or say nothing. -/
def anthropic.read_line (serde : FromStr) : LineReader := fun totals line =>
  match data_of line with
  | none => (totals, none)
  | some data =>
    match serde.anthropic (String.ofList data) with
    | .ok (.MessageStart message) => (totals.updated (some message.usage.input_tokens) none, none)
    | .ok (.ContentBlockDelta delta) => (totals, some (.ok ⟨delta.text.getD "", false, none, none⟩))
    | .ok (.MessageDelta usage) => (totals.updated none (some usage.output_tokens), none)
    | .ok .MessageStop => (totals, some (.ok (final_chunk totals)))
    | .ok .ContentBlockStart | .ok .ContentBlockStop | .ok .Ping => (totals, none)
    | .error e => (totals, some (.error (.InvalidResponse ("Failed to parse SSE data: " ++ e))))

/-- Each line that is not empty is a response. The last one has the totals. -/
def ollama.read_line (serde : FromStr) : LineReader := fun totals line =>
  if line = [] then (totals, none)
  else
    match serde.ollama (String.ofList line) with
    | .ok response =>
      let totals := totals.updated response.prompt_eval_count response.eval_count
      let content := (response.message.map (·.content)).getD ""
      (totals, some (.ok (if response.done then { final_chunk totals with content } else ⟨content, false, none, none⟩)))
    | .error e => (totals, some (.error (.InvalidResponse ("Failed to parse JSON: " ++ e))))

inductive Provider where
  | OpenAICompatible
  | Anthropic
  | Gemini
  | Ollama

def Provider.read_line (serde : FromStr) : Provider → LineReader
  | .OpenAICompatible => openai_compatible.read_line serde
  | .Anthropic => anthropic.read_line serde
  | .Gemini => gemini.read_line serde
  | .Ollama => ollama.read_line serde

def trim (line : List Char) : List Char :=
  ((line.dropWhile file_store.is_whitespace).reverse.dropWhile file_store.is_whitespace).reverse

/-- A line is read without the white space around it. -/
def trimmed (read_line : LineReader) : LineReader := fun totals line => read_line totals (trim line)

structure StreamAdapter where
  buffer : List Char
  totals : Totals

def Totals.new : Totals := ⟨none, none⟩

def StreamAdapter.new : StreamAdapter := ⟨[], .new⟩

/-- The loop over the complete lines of the buffer, which ends at the first item. Each round
takes characters off the buffer, so that its length bounds the rounds. -/
def process_lines (read_line : LineReader) : Nat → StreamAdapter → StreamAdapter × Option Item
  | 0, adapter => (adapter, none)
  | rounds + 1, adapter =>
    match text.split_line adapter.buffer with
    | none => (adapter, none)
    | some (line, rest) =>
      match trimmed read_line adapter.totals line with
      | (totals, some item) => (⟨rest, totals⟩, some item)
      | (totals, none) => process_lines read_line rounds ⟨rest, totals⟩

/-- The response body that an adapter reads, with the text of an error that ends it. -/
abbrev Body := Poll (Option (Except String (List UInt8)))

/-- The buffer is only looked at when more has come, and it is lost when the body has ended. -/
def poll_next (read_line : LineReader) (adapter : StreamAdapter) : Body → StreamAdapter × Poll (Option Item)
  | .Ready (some (.ok bytes)) =>
    let buffer := adapter.buffer ++ utf8.from_utf8_lossy bytes
    match process_lines read_line buffer.length { adapter with buffer } with
    | (adapter, some item) => (adapter, .Ready (some item))
    | (adapter, none) => (adapter, .Pending)
  | .Ready (some (.error e)) => (adapter, .Ready (some (.error (.StreamError e))))
  | .Ready none => (adapter, .Ready none)
  | .Pending => (adapter, .Pending)

/-- What polling yields until the stream ends, with what polling the body gives each time. -/
def collect (read_line : LineReader) : StreamAdapter → List Body → List Item
  | _, [] => []
  | adapter, body :: bodies =>
    match poll_next read_line adapter body with
    | (adapter, .Ready (some item)) => item :: collect read_line adapter bodies
    | (_, .Ready none) => []
    | (adapter, .Pending) => collect read_line adapter bodies

end flow_engine.providers
