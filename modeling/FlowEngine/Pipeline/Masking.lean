import FlowEngine.Json.Ordered
import FlowEngine.Lib.Fallible
import FlowEngine.Pipeline.Redact

namespace flow_engine.write_pipeline

open settling

/-- The bytes of some characters. -/
def byte_size (chars : List Char) : Nat := (chars.map Char.utf8Size).sum

theorem byte_size_append (first second : List Char) : byte_size (first ++ second) = byte_size first + byte_size second := by
  simp [byte_size]

theorem utf8ByteSize_ofList (chars : List Char) : (String.ofList chars).utf8ByteSize = byte_size chars := by
  induction chars with
  | nil => rfl
  | cons c rest ih =>
    have hsplit : String.ofList (c :: rest) = String.singleton c ++ String.ofList rest := by
      rw [String.singleton_eq_ofList, ← String.ofList_append]
      rfl
    rw [hsplit, String.utf8ByteSize_append, String.utf8ByteSize_singleton, ih]
    rfl

theorem utf8ByteSize_eq (s : String) : s.utf8ByteSize = byte_size s.toList := by
  rw [← utf8ByteSize_ofList, String.ofList_toList]

theorem length_le_byte_size (chars : List Char) : chars.length ≤ byte_size chars := by
  induction chars with
  | nil => exact Nat.zero_le _
  | cons c rest ih =>
    have hpos := c.utf8Size_pos
    simp only [byte_size, List.map_cons, List.sum_cons, List.length_cons] at ih ⊢
    omega

theorem length_le_utf8ByteSize (s : String) : s.length ≤ s.utf8ByteSize := by
  rw [utf8ByteSize_eq, ← String.length_toList]
  exact length_le_byte_size s.toList

/-- Slicing succeeds exactly where the offset falls between two characters. -/
theorem chars_from_eq_some_iff {offset : Nat} {chars last : List Char} :
    chars_from offset chars = some last ↔ ∃ front, chars = front ++ last ∧ byte_size front = offset := by
  induction chars generalizing offset with
  | nil =>
    cases offset with
    | zero => simp [chars_from, byte_size, eq_comm]
    | succ offset => simp [chars_from, byte_size]
  | cons c rest ih =>
    have hpos := c.utf8Size_pos
    cases offset with
    | zero =>
      rw [chars_from]
      constructor
      · intro h
        exact ⟨[], (Option.some.inj h), rfl⟩
      · rintro ⟨front, hsplit, hsize⟩
        have hfront : front = [] := List.length_eq_zero_iff.mp (Nat.le_zero.mp (hsize ▸ length_le_byte_size front))
        rw [hsplit, hfront, List.nil_append]
    | succ offset =>
      rw [chars_from]
      constructor
      · intro h
        split at h
        · rename_i hfits
          obtain ⟨front, rfl, hsize⟩ := ih.mp h
          refine ⟨c :: front, rfl, ?_⟩
          simp only [byte_size, List.map_cons, List.sum_cons] at hsize ⊢
          omega
        · cases h
      · rintro ⟨front, hsplit, hsize⟩
        cases front with
        | nil => simp [byte_size] at hsize
        | cons first front =>
          obtain ⟨rfl, rfl⟩ := List.cons.inj hsplit
          simp only [byte_size, List.map_cons, List.sum_cons] at hsize
          rw [if_pos (by omega)]
          exact ih.mpr ⟨front, rfl, by simp only [byte_size]; omega⟩

/-- The last four bytes of a string do not begin with a character. -/
def CutInside (s : String) : Prop := 4 ≤ s.utf8ByteSize ∧ ∀ front last : String, s = front ++ last → last.utf8ByteSize ≠ 4

theorem redact_masked_short {s : String} (h : s.utf8ByteSize < 4) (field : String) :
    DefaultRedactor.redact field .masked (.string s) = some (.string "[MASKED]") := by
  rw [DefaultRedactor.redact]
  exact if_neg (by omega)

/-- A longer string is sliced four bytes before its end. -/
theorem redact_masked_long {s : String} (h : 4 ≤ s.utf8ByteSize) {field : String} {out : Value} :
    DefaultRedactor.redact field .masked (.string s) = some out ↔
      ∃ front last, s = front ++ last ∧ last.utf8ByteSize = 4 ∧ out = .string ("****" ++ last) := by
  have hsliced : DefaultRedactor.redact field .masked (.string s) =
      (chars_from (s.utf8ByteSize - 4) s.toList).map fun last => .string ("****" ++ String.ofList last) := if_pos h
  rw [hsliced, Option.map_eq_some_iff]
  constructor
  · rintro ⟨last, hlast, rfl⟩
    obtain ⟨front, hsplit, hsize⟩ := chars_from_eq_some_iff.mp hlast
    have hs : s = String.ofList front ++ String.ofList last := by
      rw [← String.ofList_append, ← hsplit, String.ofList_toList]
    refine ⟨String.ofList front, String.ofList last, hs, ?_, rfl⟩
    have htotal := congrArg byte_size hsplit
    rw [byte_size_append, ← utf8ByteSize_eq] at htotal
    rw [utf8ByteSize_ofList]
    omega
  · rintro ⟨front, last, rfl, hsize, rfl⟩
    refine ⟨last.toList, chars_from_eq_some_iff.mpr ⟨front.toList, String.toList_append, ?_⟩, ?_⟩
    · rw [← utf8ByteSize_eq, String.utf8ByteSize_append]
      omega
    · rw [String.ofList_toList]

theorem redact_masked_eq_none_iff {s field : String} :
    DefaultRedactor.redact field .masked (.string s) = none ↔ CutInside s := by
  by_cases hlong : 4 ≤ s.utf8ByteSize
  · rw [CutInside, Option.eq_none_iff_forall_ne_some]
    constructor
    · intro h
      exact ⟨hlong, fun front last hsplit hsize =>
        h _ ((redact_masked_long hlong).mpr ⟨front, last, hsplit, hsize, rfl⟩)⟩
    · rintro ⟨_, hcut⟩ out hout
      obtain ⟨front, last, hsplit, hsize, _⟩ := (redact_masked_long hlong).mp hout
      exact hcut front last hsplit hsize
  · rw [redact_masked_short (Nat.lt_of_not_le hlong)]
    exact ⟨fun h => (Option.some_ne_none _ h).elim, fun h => (hlong h.1).elim⟩

/-- What is redacted becomes a string. -/
theorem redact_string {field : String} {sensitivity : Sensitivity} (h : sensitivity ≠ .none) {value out : Value}
    (hout : DefaultRedactor.redact field sensitivity value = some out) : ∃ text, out = .string text := by
  cases sensitivity with
  | none => exact (h rfl).elim
  | masked =>
    cases value with
    | string s =>
      by_cases hlong : 4 ≤ s.utf8ByteSize
      · obtain ⟨_, _, _, _, rfl⟩ := (redact_masked_long hlong).mp hout
        exact ⟨_, rfl⟩
      · rw [redact_masked_short (Nat.lt_of_not_le hlong)] at hout
        exact ⟨_, (Option.some.inj hout).symm⟩
    | _ => exact ⟨_, (Option.some.inj hout).symm⟩
  | _ => exact ⟨_, (Option.some.inj hout).symm⟩

/-- A string in which slicing panics. -/
def Cut : Value → Prop
  | .string s => CutInside s
  | _ => False

/-- Redaction panics where it slices a string inside a character, and nowhere else. -/
theorem redact_eq_none_iff {field : String} {sensitivity : Sensitivity} {value : Value} :
    DefaultRedactor.redact field sensitivity value = none ↔ sensitivity = .masked ∧ Cut value := by
  cases sensitivity with
  | masked =>
    cases value with
    | string s => exact redact_masked_eq_none_iff.trans ⟨fun h => ⟨rfl, h⟩, fun h => h.2⟩
    | _ => simp [DefaultRedactor.redact, Cut]
  | _ => simp [DefaultRedactor.redact]

/-- What is shown of a string: four characters at most of one that has more, and never the
whole of another. -/
def Hides : Value → Value → Prop
  | .string s, out =>
    if 4 < s.length then ∃ front last, s = front ++ last ∧ last.length ≤ 4 ∧ out = .string ("****" ++ last)
    else out = .string "[MASKED]" ∨ ∃ front last, s = front ++ last ∧ front ≠ "" ∧ out = .string ("****" ++ last)
  | _, _ => True

/-- A string that masking hides: one of fewer than four bytes, or of more whose last four
begin with a character. -/
def Maskable : Value → Prop
  | .string s => s.utf8ByteSize < 4 ∨ (4 < s.utf8ByteSize ∧ ¬ CutInside s)
  | _ => True

theorem stars_ne_masked (last : String) : "****" ++ last ≠ "[MASKED]" := by
  intro h
  have hchars := congrArg String.toList h
  rw [String.toList_append] at hchars
  cases hchars

theorem hides_long {s front last : String} (hsplit : s = front ++ last) (hsize : last.utf8ByteSize = 4) :
    Hides (.string s) (.string ("****" ++ last)) ↔ front ≠ "" := by
  have hlast : last.length ≤ 4 := hsize ▸ length_le_utf8ByteSize last
  rw [Hides]
  split
  · rename_i hlength
    have hfront : front ≠ "" := by
      rintro rfl
      rw [hsplit, String.empty_append] at hlength
      omega
    exact ⟨fun _ => hfront, fun _ => ⟨front, last, hsplit, hlast, rfl⟩⟩
  · constructor
    · rintro (h | ⟨front', last', hsplit', hfront', h⟩)
      · exact (stars_ne_masked last (Value.string.inj h)).elim
      · obtain rfl := (String.append_right_inj _).mp (Value.string.inj h)
        rwa [(String.append_left_inj _).mp (hsplit.symm.trans hsplit')]
    · exact fun hfront => .inr ⟨front, last, hsplit, hfront, rfl⟩

theorem redact_masked_hides_iff {field : String} {value : Value} :
    (∃ out, DefaultRedactor.redact field .masked value = some out ∧ Hides value out) ↔ Maskable value := by
  cases value with
  | string s =>
    rw [Maskable]
    by_cases hlong : 4 ≤ s.utf8ByteSize
    · simp only [redact_masked_long hlong]
      constructor
      · rintro ⟨_, ⟨front, last, hsplit, hsize, rfl⟩, hhides⟩
        have hfront := (hides_long hsplit hsize).mp hhides
        have htotal := congrArg String.utf8ByteSize hsplit
        have hpos : front.utf8ByteSize ≠ 0 := fun hzero => hfront (String.utf8ByteSize_eq_zero_iff.mp hzero)
        rw [String.utf8ByteSize_append] at htotal
        exact .inr ⟨by omega, fun hcut => hcut.2 front last hsplit hsize⟩
      · rintro (hshort | ⟨hlonger, hcut⟩)
        · omega
        · have hexists : ∃ front last : String, s = front ++ last ∧ last.utf8ByteSize = 4 := by
            by_contra hnone
            exact hcut ⟨hlong, fun front last hsplit hsize => hnone ⟨front, last, hsplit, hsize⟩⟩
          obtain ⟨front, last, hsplit, hsize⟩ := hexists
          refine ⟨_, ⟨front, last, hsplit, hsize, rfl⟩, (hides_long hsplit hsize).mpr ?_⟩
          rintro rfl
          rw [hsplit, String.empty_append] at hlonger
          omega
    · have hlength := length_le_utf8ByteSize s
      rw [redact_masked_short (Nat.lt_of_not_le hlong)]
      refine ⟨fun _ => .inl (by omega), fun _ => ⟨_, rfl, ?_⟩⟩
      rw [Hides, if_neg (by omega)]
      exact .inl rfl
  | _ => simp [DefaultRedactor.redact, Hides, Maskable]

/-- A value is redacted, and hidden where it is masked, exactly if masking hides it. -/
theorem redact_hides_iff {field : String} {sensitivity : Sensitivity} {value : Value} :
    (∃ out, DefaultRedactor.redact field sensitivity value = some out ∧ (sensitivity = .masked → Hides value out)) ↔
      (sensitivity = .masked → Maskable value) := by
  cases sensitivity with
  | masked => simpa only [forall_const] using redact_masked_hides_iff
  | _ => simp [DefaultRedactor.redact]

theorem Maskable.not_cut {value : Value} (h : Maskable value) : ¬ Cut value := by
  intro hcut
  obtain ⟨_, hredact, _⟩ := (@redact_masked_hides_iff "" value).mpr h
  rw [redact_eq_none_iff.mpr ⟨rfl, hcut⟩] at hredact
  cases hredact

/-- What masking leaves can be sliced again. -/
theorem redact_masked_not_cut {field : String} {value out : Value}
    (h : DefaultRedactor.redact field .masked value = some out) : ¬ Cut out := by
  have hshort : ¬ CutInside "[MASKED]" := fun hcut => hcut.2 "[MAS" "KED]" rfl rfl
  cases value with
  | string s =>
    by_cases hlong : 4 ≤ s.utf8ByteSize
    · obtain ⟨_, last, _, hsize, rfl⟩ := (redact_masked_long hlong).mp h
      exact fun hcut => hcut.2 "****" last rfl hsize
    · rw [redact_masked_short (Nat.lt_of_not_le hlong)] at h
      cases h
      exact hshort
  | _ =>
    cases h
    exact hshort

/-- Where nothing is masked redaction changes nothing twice. -/
theorem settles_unmasked {field : String} {sensitivity : Sensitivity} (h : sensitivity ≠ .masked) {value : Value} :
    Settles (DefaultRedactor.redact field sensitivity) value := by
  cases sensitivity with
  | masked => exact (h rfl).elim
  | none => exact settles_of_eq_self rfl
  | _ =>
    intro out hout
    cases hout
    rfl

/-- The values at the masked fields of an object. -/
def masked_at (masked : String → Bool) : Value → List Value
  | .object map => map.filterMap fun field => if masked field.1 then some field.2 else none
  | _ => []

def masked_ports (ports : List PortDef) : Value → List Value := masked_at fun key => sensitivity_of ports key = .masked

/-- The `content` of a message. -/
def masked_content : Value → List Value := masked_at fun key => key = "content"

/-- What masking changes of messages. -/
def masked_messages : Value → List Value
  | .array items => items.flatMap masked_content
  | other => [other]

/-- What redaction masks of an event. -/
def masked_values (node_meta : String → Option NodeMeta) : WriteEvent → List Value
  | .NodeStarted _ _ node_id inputs _ _ => ((node_meta node_id).map fun m => masked_ports m.inputs inputs).getD []
  | .NodeCompleted _ _ node_id outputs _ => ((node_meta node_id).map fun m => masked_ports m.outputs outputs).getD []
  | .LlmInvocation _ _ node_id request response =>
    if ((node_meta node_id).map fun m => sensitivity_of m.inputs "messages").getD .none = .masked then
      masked_messages request.messages ++ masked_messages response.content
    else []
  | _ => []

theorem mem_masked_at {masked : String → Bool} {map : List (String × Value)} {value : Value} :
    value ∈ masked_at masked (.object map) ↔ ∃ field ∈ map, masked field.1 = true ∧ field.2 = value := by
  simp only [masked_at, List.mem_filterMap]
  refine exists_congr fun field => and_congr_right fun _ => ?_
  cases masked field.1 <;> simp

/-- An object is rebuilt with some fields masked. The others do not fail, and settle. -/
structure Masks (masked : String → Bool) (g : String × Value → Option Value) : Prop where
  masks : ∀ field : String × Value, masked field.1 = true → g field = DefaultRedactor.redact field.1 .masked field.2
  others : ∀ field : String × Value, masked field.1 = false → g field ≠ none
  settles : ∀ field : String × Value, masked field.1 = false → Settles (fun value => g (field.1, value)) field.2

namespace Masks

variable {masked : String → Bool} {g : String × Value → Option Value}

theorem rebuild_eq_none_iff (h : Masks masked g) {map : List (String × Value)} :
    Map.rebuild g map = none ↔ ∃ value ∈ masked_at masked (.object map), Cut value := by
  simp only [Map.rebuild_eq_none_iff, mem_masked_at]
  constructor
  · rintro ⟨field, hmem, hnone⟩
    cases hmasked : masked field.1 with
    | true =>
      rw [h.masks field hmasked] at hnone
      exact ⟨field.2, ⟨field, hmem, hmasked, rfl⟩, (redact_eq_none_iff.mp hnone).2⟩
    | false => exact (h.others field hmasked hnone).elim
  · rintro ⟨_, ⟨field, hmem, hmasked, rfl⟩, hcut⟩
    refine ⟨field, hmem, ?_⟩
    rw [h.masks field hmasked]
    exact redact_eq_none_iff.mpr ⟨rfl, hcut⟩

/-- The masked fields of the new object hold what masking leaves. -/
theorem rebuild_not_cut (h : Masks masked g) {map done : List (String × Value)} (hdone : Map.rebuild g map = some done) :
    ∀ value ∈ masked_at masked (.object done), ¬ Cut value := by
  intro value hvalue
  obtain ⟨field, hfield, hmasked, rfl⟩ := mem_masked_at.mp hvalue
  obtain ⟨source, _, hkey, hredact⟩ := Map.mem_rebuild hdone hfield
  rw [h.masks source (hkey ▸ hmasked)] at hredact
  exact redact_masked_not_cut hredact

/-- Where the fields come in key order they are masked in place. -/
theorem rebuild_masked (h : Masks masked g) {map done : List (String × Value)} (hascending : Map.Ascending map)
    (hdone : Map.rebuild g map = some done) :
    List.Forall₂ (fun value redacted => ∃ field, DefaultRedactor.redact field .masked value = some redacted)
      (masked_at masked (.object map)) (masked_at masked (.object done)) := by
  rw [Map.rebuild_of_ascending hascending] at hdone
  refine List.rel_filterMap ?_ (fallible.mapM_eq_some_iff.mp hdone)
  intro field field' hfield
  obtain ⟨value, hvalue, rfl⟩ := Option.map_eq_some_iff.mp hfield
  cases hmasked : masked field.1 with
  | true =>
    rw [h.masks field hmasked] at hvalue
    simp only [hmasked, if_true]
    exact .some ⟨_, hvalue⟩
  | false =>
    simp only [hmasked]
    exact .none

end Masks

/-- What redaction makes of a port. -/
def redact_port (ports : List PortDef) (field : String × Value) : Option Value :=
  DefaultRedactor.redact field.1 (sensitivity_of ports field.1) field.2

theorem redact_ports_object (ports : List PortDef) (map : List (String × Value)) :
    redact_ports default_redactor (.object map) ports = (Map.rebuild (redact_port ports) map).map .object := rfl

theorem masks_port (ports : List PortDef) :
    Masks (fun key => sensitivity_of ports key = .masked) (redact_port ports) := by
  constructor
  · intro field hmasked
    rw [redact_port, of_decide_eq_true hmasked]
  · intro field hother hnone
    exact of_decide_eq_false hother (redact_eq_none_iff.mp hnone).1
  · intro field hother
    exact settles_unmasked (of_decide_eq_false hother)

theorem redact_ports_eq_none_iff {value : Value} {ports : List PortDef} :
    redact_ports default_redactor value ports = none ↔ ∃ masked ∈ masked_ports ports value, Cut masked := by
  cases value with
  | object map =>
    rw [redact_ports_object, Option.map_eq_none_iff]
    exact (masks_port ports).rebuild_eq_none_iff
  | _ => simp [redact_ports, masked_ports, masked_at]

theorem redact_ports_not_cut {value out : Value} {ports : List PortDef}
    (h : redact_ports default_redactor value ports = some out) : ∀ masked ∈ masked_ports ports out, ¬ Cut masked := by
  cases value with
  | object map =>
    obtain ⟨done, hdone, rfl⟩ := Option.map_eq_some_iff.mp h
    exact (masks_port ports).rebuild_not_cut hdone
  | _ =>
    cases h
    simp [masked_ports, masked_at]

/-- What redaction makes of a field of a message. -/
def redact_content (sensitivity : Sensitivity) (field : String × Value) : Option Value :=
  if field.1 = "content" then DefaultRedactor.redact "content" sensitivity field.2 else some field.2

theorem redact_message_object (map : List (String × Value)) (sensitivity : Sensitivity) :
    DefaultRedactor.redact_message (.object map) sensitivity =
      (Map.rebuild (redact_content sensitivity) map).map .object := by
  have hstep : ∀ (out : List (String × Value)) (field : String × Value),
      (if field.1 = "content" then (DefaultRedactor.redact "content" sensitivity field.2).map (Map.insert out field.1)
        else some (Map.insert out field.1 field.2)) = (redact_content sensitivity field).map (Map.insert out field.1) := by
    intro out field
    rw [redact_content]
    split <;> rfl
  simp only [DefaultRedactor.redact_message, Map.rebuild, hstep]

theorem masks_content : Masks (fun key => key = "content") (redact_content .masked) := by
  constructor
  · intro field hcontent
    exact if_pos (of_decide_eq_true hcontent)
  · intro field hother
    rw [redact_content, if_neg (of_decide_eq_false hother)]
    exact Option.some_ne_none _
  · intro field hother
    refine settles_of_eq_self ?_
    exact if_neg (of_decide_eq_false hother)

/-- Only masking a message can fail. -/
theorem redact_message_unmasked {sensitivity : Sensitivity} (h : sensitivity ≠ .masked) (message : Value) :
    DefaultRedactor.redact_message message sensitivity ≠ none := by
  cases message with
  | object map =>
    rw [redact_message_object, ne_eq, Option.map_eq_none_iff, Map.rebuild_eq_none_iff]
    rintro ⟨field, _, hnone⟩
    rw [redact_content] at hnone
    split at hnone
    · exact h (redact_eq_none_iff.mp hnone).1
    · cases hnone
  | _ => exact Option.some_ne_none _

theorem redact_message_eq_none_iff {message : Value} {sensitivity : Sensitivity} :
    DefaultRedactor.redact_message message sensitivity = none ↔
      sensitivity = .masked ∧ ∃ masked ∈ masked_content message, Cut masked := by
  by_cases hmasked : sensitivity = .masked
  · subst hmasked
    cases message with
    | object map =>
      rw [redact_message_object, Option.map_eq_none_iff]
      exact masks_content.rebuild_eq_none_iff.trans ⟨fun h => ⟨rfl, h⟩, fun h => h.2⟩
    | _ => simp [DefaultRedactor.redact_message, masked_content, masked_at]
  · exact ⟨fun h => (redact_message_unmasked hmasked message h).elim, fun h => (hmasked h.1).elim⟩

theorem redact_message_not_cut {message out : Value} (h : DefaultRedactor.redact_message message .masked = some out) :
    ∀ masked ∈ masked_content out, ¬ Cut masked := by
  cases message with
  | object map =>
    rw [redact_message_object] at h
    obtain ⟨done, hdone, rfl⟩ := Option.map_eq_some_iff.mp h
    exact masks_content.rebuild_not_cut hdone
  | _ =>
    cases h
    simp [masked_content, masked_at]

theorem redact_llm_messages_array {sensitivity : Sensitivity} (h : sensitivity ≠ .none) (items : List Value) :
    DefaultRedactor.redact_llm_messages (.array items) sensitivity =
      (items.mapM fun message => DefaultRedactor.redact_message message sensitivity).map .array := if_neg h

theorem redact_llm_messages_other {sensitivity : Sensitivity} (h : sensitivity ≠ .none) {messages : Value}
    (hother : ∀ items, messages ≠ .array items) :
    DefaultRedactor.redact_llm_messages messages sensitivity =
      DefaultRedactor.redact "llm_messages" sensitivity messages := by
  cases messages with
  | array items => exact (hother items rfl).elim
  | _ => exact if_neg h

theorem redact_llm_messages_eq_none_iff {messages : Value} {sensitivity : Sensitivity} :
    DefaultRedactor.redact_llm_messages messages sensitivity = none ↔
      sensitivity = .masked ∧ ∃ masked ∈ masked_messages messages, Cut masked := by
  by_cases hnone : sensitivity = .none
  · simp [hnone, DefaultRedactor.redact_llm_messages]
  · cases messages with
    | array items =>
      simp only [redact_llm_messages_array hnone, Option.map_eq_none_iff, fallible.mapM_eq_none_iff,
        redact_message_eq_none_iff, masked_messages, List.mem_flatMap]
      constructor
      · rintro ⟨message, hmem, hmasked, value, hvalue, hcut⟩
        exact ⟨hmasked, value, ⟨message, hmem, hvalue⟩, hcut⟩
      · rintro ⟨hmasked, value, ⟨message, hmem, hvalue⟩, hcut⟩
        exact ⟨message, hmem, hmasked, value, hvalue, hcut⟩
    | _ => simp [DefaultRedactor.redact_llm_messages, hnone, redact_eq_none_iff, masked_messages]

/-- An event cannot be redacted exactly if a string in it is masked that slicing panics in. -/
theorem redact_event_eq_none_iff {node_meta : String → Option NodeMeta} {event : WriteEvent} :
    redact_event default_redactor node_meta event = none ↔ ∃ masked ∈ masked_values node_meta event, Cut masked := by
  cases event with
  | NodeStarted seq run_id node_id inputs fan_out_index attempt =>
    cases hmeta : node_meta node_id with
    | none => simp [redact_event, masked_values, hmeta]
    | some m => simp [redact_event, masked_values, hmeta, redact_ports_eq_none_iff]
  | NodeCompleted seq run_id node_id outputs fan_out_index =>
    cases hmeta : node_meta node_id with
    | none => simp [redact_event, masked_values, hmeta]
    | some m => simp [redact_event, masked_values, hmeta, redact_ports_eq_none_iff]
  | LlmInvocation seq run_id node_id request response =>
    simp only [redact_event, masked_values]
    generalize ((node_meta node_id).map fun m => sensitivity_of m.inputs "messages").getD .none = sensitivity
    have hpanics : ∀ messages, default_redactor.redact_llm_messages messages sensitivity = none ↔
        sensitivity = .masked ∧ ∃ masked ∈ masked_messages messages, Cut masked :=
      fun messages => redact_llm_messages_eq_none_iff
    have hboth : ∀ {α β γ : Type} (a : Option α) (b : Option β) (f : α → β → γ),
        (a.bind fun x => b.map (f x)) = none ↔ a = none ∨ b = none := by
      intro α β γ a b f
      cases a <;> simp
    rw [hboth, hpanics, hpanics]
    by_cases hmasked : sensitivity = .masked
    · simp [hmasked, or_and_right, exists_or]
    · simp [hmasked]
  | Custom seq run_id node_id name data =>
    cases node_id with
    | none => simp [redact_event, masked_values]
    | some node_id =>
      have hnever : default_redactor.redact name .pii data ≠ none := nofun
      simp only [redact_event, masked_values]
      split
      · split
        · simp [hnever]
        · simp
      · simp
  | _ => simp [redact_event, masked_values]

theorem masked_content_redacted {message out : Value} (hordered : message.Ordered)
    (h : DefaultRedactor.redact_message message .masked = some out) :
    List.Forall₂ (fun value redacted => ∃ field, DefaultRedactor.redact field .masked value = some redacted)
      (masked_content message) (masked_content out) := by
  cases message with
  | object map =>
    rw [redact_message_object] at h
    obtain ⟨done, hdone, rfl⟩ := Option.map_eq_some_iff.mp h
    exact masks_content.rebuild_masked hordered.1 hdone
  | _ =>
    cases h
    exact .nil

/-- Masking messages masks the values it changes, in order. -/
theorem masked_messages_redacted {messages out : Value} (hordered : messages.Ordered)
    (h : DefaultRedactor.redact_llm_messages messages .masked = some out) :
    List.Forall₂ (fun value redacted => ∃ field, DefaultRedactor.redact field .masked value = some redacted)
      (masked_messages messages) (masked_messages out) := by
  cases messages with
  | array items =>
    rw [redact_llm_messages_array (by simp)] at h
    obtain ⟨outs, houts, rfl⟩ := Option.map_eq_some_iff.mp h
    have hitems := (List.forall₂_and_left _ _).mpr ⟨fun _ => hordered.mem, fallible.mapM_eq_some_iff.mp houts⟩
    exact List.rel_flatMap hitems fun _ _ hitem => masked_content_redacted hitem.1 hitem.2
  | _ =>
    rw [redact_llm_messages_other (by simp) (by simp)] at h
    obtain ⟨text, rfl⟩ := redact_string (by simp) h
    exact .cons ⟨_, h⟩ .nil

/-- Messages are redacted, and hidden where they are masked, exactly if masking hides all that it changes. -/
theorem redact_llm_messages_hides_iff {messages : Value} (hordered : messages.Ordered) {sensitivity : Sensitivity} :
    (∃ out, DefaultRedactor.redact_llm_messages messages sensitivity = some out ∧
        (sensitivity = .masked → List.Forall₂ Hides (masked_messages messages) (masked_messages out))) ↔
      (sensitivity = .masked → ∀ value ∈ masked_messages messages, Maskable value) := by
  by_cases hmasked : sensitivity = .masked
  · subst hmasked
    simp only [forall_const]
    constructor
    · rintro ⟨out, hout, hhides⟩
      have hboth : List.Forall₂ (fun value _ => Maskable value ∧ True) (masked_messages messages) (masked_messages out) := by
        refine (masked_messages_redacted hordered hout).mp ?_ hhides
        rintro value redacted ⟨field, hredact⟩ hhide
        exact ⟨redact_masked_hides_iff.mp ⟨redacted, hredact, hhide⟩, trivial⟩
      exact ((List.forall₂_and_left _ _).mp hboth).1
    · intro hmaskable
      have hreturns : DefaultRedactor.redact_llm_messages messages .masked ≠ none := by
        intro hnone
        obtain ⟨_, value, hmem, hcut⟩ := redact_llm_messages_eq_none_iff.mp hnone
        exact (hmaskable value hmem).not_cut hcut
      obtain ⟨out, hout⟩ := Option.ne_none_iff_exists'.mp hreturns
      refine ⟨out, hout, ?_⟩
      have hboth := (List.forall₂_and_left _ _).mpr ⟨hmaskable, masked_messages_redacted hordered hout⟩
      refine hboth.imp ?_
      rintro value redacted ⟨hvalue, field, hsome⟩
      obtain ⟨_, hredact, hhides⟩ := (@redact_masked_hides_iff field value).mpr hvalue
      rw [hsome] at hredact
      exact Option.some.inj hredact ▸ hhides
  · have hreturns : DefaultRedactor.redact_llm_messages messages sensitivity ≠ none :=
      fun hnone => hmasked (redact_llm_messages_eq_none_iff.mp hnone).1
    obtain ⟨out, hout⟩ := Option.ne_none_iff_exists'.mp hreturns
    exact ⟨fun _ h => (hmasked h).elim, fun _ => ⟨out, hout, fun h => (hmasked h).elim⟩⟩

theorem redact_llm_messages_not_cut {messages out : Value}
    (h : DefaultRedactor.redact_llm_messages messages .masked = some out) :
    ∀ masked ∈ masked_messages out, ¬ Cut masked := by
  cases messages with
  | array items =>
    rw [redact_llm_messages_array (by simp)] at h
    obtain ⟨outs, houts, rfl⟩ := Option.map_eq_some_iff.mp h
    intro masked hmem
    obtain ⟨message, hmessage, hcontent⟩ := List.mem_flatMap.mp hmem
    obtain ⟨item, _, hitem⟩ := fallible.mem_forall₂ (fallible.mapM_eq_some_iff.mp houts) hmessage
    exact redact_message_not_cut hitem masked hcontent
  | _ =>
    rw [redact_llm_messages_other (by simp) (by simp)] at h
    obtain ⟨text, rfl⟩ := redact_string (by simp) h
    intro masked hmem
    rw [List.mem_singleton.mp hmem]
    exact redact_masked_not_cut h

/-- An event that has been redacted can be redacted again. -/
theorem redact_event_again {node_meta : String → Option NodeMeta} {event redacted : WriteEvent}
    (h : redact_event default_redactor node_meta event = some redacted) :
    redact_event default_redactor node_meta redacted ≠ none := by
  cases redact_event_cases h with
  | node_started hmeta hports | node_completed hmeta hports =>
    rw [ne_eq, redact_event_eq_none_iff]
    rintro ⟨masked, hmem, hcut⟩
    simp only [masked_values, hmeta, Option.map_some, Option.getD_some] at hmem
    exact redact_ports_not_cut hports masked hmem hcut
  | llm_invocation =>
    rw [ne_eq, redact_event_eq_none_iff]
    rintro ⟨masked, hmem, hcut⟩
    simp only [redact_event] at h
    obtain ⟨messages, hmessages, hboth⟩ := Option.bind_eq_some_iff.mp h
    obtain ⟨content, hcontent, hsame⟩ := Option.map_eq_some_iff.mp hboth
    cases hsame
    rw [masked_values] at hmem
    split at hmem
    · rename_i hmasked
      rw [hmasked] at hmessages hcontent
      cases List.mem_append.mp hmem with
      | inl hin => exact redact_llm_messages_not_cut hmessages masked hin hcut
      | inr hin => exact redact_llm_messages_not_cut hcontent masked hin hcut
    · cases hmem
  | custom =>
    rw [ne_eq, redact_event_eq_none_iff]
    rintro ⟨masked, hmem, _⟩
    cases hmem
  | unchanged =>
    rw [h]
    exact Option.some_ne_none _

end flow_engine.write_pipeline
