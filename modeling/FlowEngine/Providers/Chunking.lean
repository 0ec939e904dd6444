import FlowEngine.Lib.Polling
import FlowEngine.Providers.Stream
import Mathlib.Data.List.ReduceOption

namespace flow_engine.providers

/-- A body that arrives in chunks, some of which are waited for, and then ends. -/
def body_of (answers : List (Option (List UInt8))) : List Body :=
  answers.map (fun answer => match answer with
    | some bytes => .Ready (some (.ok bytes))
    | none => .Pending) ++ [.Ready none]

/-- The lines that each chunk completes, where each chunk is decoded alone. -/
def arrivals : List Char → List (List UInt8) → List (List (List Char))
  | _, [] => []
  | last, bytes :: chunks =>
    (text.cut (last ++ utf8.from_utf8_lossy bytes)).1 ::
      arrivals (text.cut (last ++ utf8.from_utf8_lossy bytes)).2 chunks

variable (read_line : LineReader)

/-- The loop is the search for the first item among the complete lines of the buffer. -/
theorem process_lines_spec {rounds : Nat} {adapter : StreamAdapter} (hrounds : adapter.buffer.length ≤ rounds) :
    polling.next (trimmed read_line) adapter.totals (text.cut adapter.buffer).1 =
        ((process_lines read_line rounds adapter).1.totals, (text.cut (process_lines read_line rounds adapter).1.buffer).1,
          (process_lines read_line rounds adapter).2) ∧
      (text.cut (process_lines read_line rounds adapter).1.buffer).2 = (text.cut adapter.buffer).2 := by
  induction rounds generalizing adapter with
  | zero =>
    have hempty : adapter.buffer = [] := List.eq_nil_of_length_eq_zero (by omega)
    rw [process_lines, hempty]
    exact ⟨rfl, rfl⟩
  | succ rounds ih =>
    rw [process_lines]
    split
    · rename_i hsplit
      rw [text.cut_of_split_none hsplit]
      exact ⟨rfl, rfl⟩
    · rename_i line rest hsplit
      have hlength := text.split_line_length hsplit
      rw [text.cut_of_split hsplit, polling.next]
      split
      · rename_i totals item hread
        rw [hread]
        exact ⟨rfl, rfl⟩
      · rename_i totals hread
        rw [hread]
        exact @ih ⟨rest, totals⟩ (by change rest.length ≤ rounds; omega)

/-- What a stream yields is what polling takes off the lines that the chunks complete. -/
theorem collect_eq_polled (adapter : StreamAdapter) (answers : List (Option (List UInt8))) :
    collect read_line adapter (body_of answers) = polling.polled (trimmed read_line) adapter.totals
      (text.cut adapter.buffer).1 (arrivals (text.cut adapter.buffer).2 answers.reduceOption) := by
  induction answers generalizing adapter with
  | nil => rfl
  | cons answer answers ih =>
    cases answer with
    | none =>
      rw [List.reduceOption_cons_of_none]
      exact ih adapter
    | some bytes =>
      obtain ⟨hnext, hlast⟩ := @process_lines_spec read_line (adapter.buffer ++ utf8.from_utf8_lossy bytes).length
        { adapter with buffer := adapter.buffer ++ utf8.from_utf8_lossy bytes } le_rfl
      rw [text.cut_append] at hnext hlast
      rw [List.reduceOption_cons_of_some, arrivals, polling.polled, hnext, ← hlast]
      -- what the loop leaves is polled on
      rw [body_of, List.map_cons, List.cons_append, ← body_of, collect, poll_next]
      rcases process_lines read_line _ _ with ⟨adapter, item⟩
      cases item with
      | none => exact ih adapter
      | some item => exact congrArg (item :: ·) (ih adapter)

/-- The last line of a text, which is not complete, has no complete line in it. -/
theorem cut_last (written : List Char) : (text.cut (text.cut written).2).1 = [] := by
  have hcut := congrArg Prod.fst (text.cut_append written [])
  rw [List.append_nil, List.append_nil] at hcut
  exact List.append_right_eq_self.mp hcut.symm

/-- Chunks of whole characters complete the lines of the text together. -/
theorem arrivals_flatten {last : List Char} (hlast : (text.cut last).1 = []) (pieces : List (List Char)) :
    (arrivals last (pieces.map utf8.encode)).flatten = (text.cut (last ++ pieces.flatten)).1 := by
  induction pieces generalizing last with
  | nil => rw [List.flatten_nil, List.append_nil, hlast]; rfl
  | cons piece pieces ih =>
    rw [List.map_cons, arrivals, utf8.from_utf8_lossy_encode, List.flatten_cons, ih (cut_last _), List.flatten_cons,
      ← List.append_assoc, text.cut_append (last ++ piece)]

/-- The items of an adapter that is polled until it ends. -/
def streamed (provider : Provider) (serde : FromStr) (answers : List (Option (List UInt8))) : List Item :=
  collect (provider.read_line serde) .new (body_of answers)

/-- The items of lines that are parsed one by one. -/
def parse_lines (provider : Provider) (serde : FromStr) (lines : List (List Char)) : List Item :=
  polling.items (trimmed (provider.read_line serde)) .new lines

/-- The number of items of the lines that each chunk completes. -/
def items_completed (provider : Provider) (serde : FromStr) (chunks : List (List UInt8)) : List Nat :=
  polling.completed (trimmed (provider.read_line serde)) .new (arrivals [] chunks)

variable (provider : Provider) (serde : FromStr)

/-- The parsed items are yielded exactly if they come first among those of the lines that are
decoded chunk by chunk, and as many others are there as the last chunks complete in excess. -/
theorem streamed_eq_iff (answers : List (Option (List UInt8))) (expected : List Item) :
    streamed provider serde answers = expected ↔
      expected <+: parse_lines provider serde (arrivals [] answers.reduceOption).flatten ∧
        (parse_lines provider serde (arrivals [] answers.reduceOption).flatten).length =
          expected.length + polling.excess (items_completed provider serde answers.reduceOption) := by
  rw [streamed, collect_eq_polled]
  exact polling.polled_eq_iff (trimmed (provider.read_line serde)) .new _ expected

/-- Chunks that end between characters complete the lines of the body. -/
theorem arrivals_of_characters {lines pieces : List (List Char)} {chunks : List (List UInt8)}
    (hlines : ∀ line ∈ lines, '\n' ∉ line)
    (hbody : chunks.flatten = utf8.encode (lines.flatMap fun line => line ++ ['\n']))
    (hpieces : chunks = pieces.map utf8.encode) : (arrivals [] chunks).flatten = lines := by
  have htext : pieces.flatten = lines.flatMap fun line => line ++ ['\n'] := by
    rw [hpieces, ← utf8.encode_flatten] at hbody
    rw [← utf8.from_utf8_lossy_encode pieces.flatten, hbody, utf8.from_utf8_lossy_encode]
  rw [hpieces, arrivals_flatten rfl, List.nil_append, htext, text.cut_lines hlines]

/-- A body of complete lines is streamed as its lines are parsed, exactly if decoding it chunk
by chunk changes none of these items and each run of last chunks completes as many items as it
can return. Where all chunks end between characters, only the latter matters. -/
theorem streamed_as_parsed_iff (lines : List (List Char)) (answers : List (Option (List UInt8)))
    (hlines : ∀ line ∈ lines, '\n' ∉ line)
    (hbody : answers.reduceOption.flatten = utf8.encode (lines.flatMap fun line => line ++ ['\n'])) :
    (streamed provider serde answers = parse_lines provider serde lines ↔
      parse_lines provider serde lines <+: parse_lines provider serde (arrivals [] answers.reduceOption).flatten ∧
        (parse_lines provider serde (arrivals [] answers.reduceOption).flatten).length =
          (parse_lines provider serde lines).length +
            polling.excess (items_completed provider serde answers.reduceOption)) ∧
      ∀ pieces : List (List Char), answers.reduceOption = pieces.map utf8.encode →
        (streamed provider serde answers = parse_lines provider serde lines ↔
          ∀ last, last <:+ items_completed provider serde answers.reduceOption → last.sum ≤ last.length) := by
  refine ⟨streamed_eq_iff provider serde answers _, fun pieces hpieces => ?_⟩
  have hexcess := polling.excess_le_iff (items_completed provider serde answers.reduceOption) 0
  rw [streamed_eq_iff, arrivals_of_characters hlines hbody hpieces]
  constructor
  · rintro ⟨-, hlength⟩
    exact hexcess.mp (by omega)
  · intro hlast
    have hzero := hexcess.mpr hlast
    exact ⟨List.prefix_rfl, by omega⟩

/-- The line of a response with one choice. -/
def hello_response (content : String) : String :=
  "\x7b\"choices\":[\x7b\"delta\":\x7b\"content\":\"" ++ content ++ "\"\x7d\x7d]\x7d"

/-- `serde_json` on such responses, and on text that is not JSON. -/
def hello_serde : FromStr where
  open_ai data :=
    match ["é", "\uFFFD\uFFFD"].find? fun content => hello_response content = data with
    | some content => .ok ⟨[⟨⟨some content⟩, none⟩], none⟩
    | none => .error "expected value at line 1 column 1"
  anthropic _ := .error "expected value at line 1 column 1"
  gemini _ := .error "expected value at line 1 column 1"
  ollama _ := .error "expected value at line 1 column 1"

def hello_lines : List (List Char) := ["data: ".toList ++ (hello_response "é").toList, [], "data: [DONE]".toList, []]

def hello_body : List UInt8 := utf8.encode (hello_lines.flatMap fun line => line ++ ['\n'])

/-- Two chunks that complete one item each. -/
theorem streamed_as_parsed_sample :
    streamed .OpenAICompatible hello_serde [some (hello_body.take 47), none, some (hello_body.drop 47)] =
      parse_lines .OpenAICompatible hello_serde hello_lines := by
  have hchunks := streamed_as_parsed_iff .OpenAICompatible hello_serde hello_lines
    [some (hello_body.take 47), none, some (hello_body.drop 47)] (by decide +kernel) (by decide +kernel)
  refine (hchunks.2 [hello_lines[0] ++ ['\n'], hello_lines.tail.flatMap fun line => line ++ ['\n']] ?_).mpr ?_
  · decide +kernel
  · exact (polling.excess_le_iff _ 0).mp (by decide +kernel)

/-- In one chunk, the second item is lost. With a chunk that ends inside the letter, the first
item is changed. -/
theorem chunks_matter :
    parse_lines .OpenAICompatible hello_serde hello_lines =
        [.ok ⟨"é", false, none, none⟩, .ok ⟨"", true, none, none⟩] ∧
      streamed .OpenAICompatible hello_serde [some hello_body] = [.ok ⟨"é", false, none, none⟩] ∧
      streamed .OpenAICompatible hello_serde
          [some (hello_body.take 40), some ((hello_body.drop 40).take 7), some (hello_body.drop 47)] =
        [.ok ⟨"\uFFFD\uFFFD", false, none, none⟩, .ok ⟨"", true, none, none⟩] := by
  decide +kernel

end flow_engine.providers
