import Mathlib.Algebra.BigOperators.Group.List.Basic
import Mathlib.Algebra.Ring.Nat
import Mathlib.Data.List.Induction

namespace flow_engine.gemini

/-- What the conversion reads of a message. -/
structure Message where
  role : String
  content : String

structure GeminiPart where
  text : String
  deriving DecidableEq

structure GeminiContent where
  role : String
  parts : List GeminiPart
  deriving DecidableEq

/-- The variables of the loop over the messages. -/
structure Conversion where
  contents : List GeminiContent
  system_message : Option String

/-- System messages are kept for the next user message. -/
def convert_message (s : Conversion) (msg : Message) : Conversion :=
  if msg.role = "system" then
    match s.system_message with
    | none => { s with system_message := some msg.content }
    | some sys => { s with system_message := some (sys ++ "\n" ++ msg.content) }
  else if msg.role = "user" then
    match s.system_message with
    | some sys => ⟨s.contents ++ [⟨"user", [⟨sys ++ "\n\n" ++ msg.content⟩]⟩], none⟩
    | none => ⟨s.contents ++ [⟨"user", [⟨msg.content⟩]⟩], none⟩
  else if msg.role = "assistant" then { s with contents := s.contents ++ [⟨"model", [⟨msg.content⟩]⟩] }
  else { s with contents := s.contents ++ [⟨"user", [⟨msg.content⟩]⟩] }

/-- Convert messages to Gemini's contents format. -/
def messages_to_contents (messages : List Message) : List GeminiContent :=
  (messages.foldl convert_message ⟨[], none⟩).contents

/-- The messages that are not system messages. -/
def spoken (messages : List Message) : List Message := messages.filter fun m => m.role ≠ "system"

def system_texts (messages : List Message) : List String :=
  (messages.filter fun m => m.role = "system").map Message.content

/-- System texts on lines of their own, if there are any. -/
def joined : List String → Option String
  | [] => none
  | first :: rest => some (rest.foldl (fun sys text => sys ++ "\n" ++ text) first)

/-- What stands before a message that some system texts are prepended to. -/
def framed (texts : List String) : String := ((joined texts).map fun sys => sys ++ "\n\n").getD ""

/-- The content for a message with a group of system texts before its own. -/
def placed (msg : Message) (texts : List String) : GeminiContent :=
  ⟨if msg.role = "assistant" then "model" else "user", [⟨framed texts ++ msg.content⟩]⟩

/-- Every message that is not a system message has one content, in order and
with its role, and every system text stands before one of them, in order. -/
def LosesNothing (messages : List Message) : Prop :=
  ∃ groups : List (List String), groups.length = (spoken messages).length ∧ groups.flatten = system_texts messages ∧
    messages_to_contents messages = List.zipWith placed (spoken messages) groups

/-- Every system message has a user message after it. -/
def AllFollowed (messages : List Message) : Prop :=
  ∀ before m after, messages = before ++ m :: after → m.role = "system" → ∃ u ∈ after, u.role = "user"

section Joined

theorem joined_snoc (texts : List String) (text : String) : joined (texts ++ [text]) =
    match joined texts with
    | none => some text
    | some sys => some (sys ++ "\n" ++ text) := by
  cases texts with
  | nil => rfl
  | cons first rest => simp [joined, List.foldl_append]

/-- The characters of some texts, with a line end for each. -/
def weight (texts : List String) : Nat := (texts.map fun text => text.length + 1).sum

theorem weight_cons (text : String) (texts : List String) : weight (text :: texts) = text.length + 1 + weight texts := by
  rw [weight, List.map_cons, List.sum_cons]
  rfl

theorem length_framed (texts : List String) : (framed texts).length = if texts = [] then 0 else weight texts + 1 := by
  cases texts with
  | nil => rfl
  | cons first rest =>
    have hfold (sys : String) : (rest.foldl (fun sys text => sys ++ "\n" ++ text) sys).length = sys.length + weight rest := by
      induction rest generalizing sys with
      | nil => rfl
      | cons text rest ih =>
        have hnewline : "\n".length = 1 := rfl
        rw [List.foldl_cons, ih, weight_cons, String.length_append, String.length_append]
        omega
    have hnewlines : "\n\n".length = 2 := rfl
    rw [framed, joined, Option.map_some, Option.getD_some, String.length_append, hfold, if_neg (List.cons_ne_nil _ _),
      weight_cons]
    omega

/-- Texts that are framed in the same way have the same weight. -/
theorem weight_eq_of_framed {texts texts' : List String} (h : framed texts = framed texts') : weight texts = weight texts' := by
  have hlength := congrArg String.length h
  rw [length_framed, length_framed] at hlength
  by_cases htexts : texts = [] <;> by_cases htexts' : texts' = []
  · rw [htexts, htexts']
  all_goals
    simp only [htexts, htexts', if_true, if_false] at hlength
    omega

theorem weight_append (texts texts' : List String) : weight (texts ++ texts') = weight texts + weight texts' := by
  simp [weight]

/-- Groups that are placed before the same messages with the same result have the same weight. -/
theorem weight_flatten_eq {messages : List Message} : ∀ {groups groups' : List (List String)},
    groups.length = messages.length → groups'.length = messages.length →
    List.zipWith placed messages groups = List.zipWith placed messages groups' →
    weight groups.flatten = weight groups'.flatten := by
  induction messages with
  | nil =>
    intro groups groups' hlength hlength' _
    rw [List.length_eq_zero_iff.mp hlength, List.length_eq_zero_iff.mp hlength']
  | cons m rest ih =>
    intro groups groups' hlength hlength' h
    cases groups with
    | nil => cases hlength
    | cons texts groups =>
      cases groups' with
      | nil => cases hlength'
      | cons texts' groups' =>
        rw [List.zipWith_cons_cons, List.zipWith_cons_cons, List.cons.injEq] at h
        obtain ⟨hplaced, hrest⟩ := h
        have hframed : framed texts = framed texts' := by
          simp only [placed, GeminiContent.mk.injEq, List.cons.injEq, GeminiPart.mk.injEq] at hplaced
          exact String.append_left_inj _ |>.mp hplaced.2.1
        rw [List.flatten_cons, List.flatten_cons, weight_append, weight_append, weight_eq_of_framed hframed,
          ih (Nat.succ.inj hlength) (Nat.succ.inj hlength') hrest]

end Joined

section Followed

variable {messages : List Message} {m : Message}

theorem snoc_eq_append_cons {before after : List Message} {x : Message} (h : messages ++ [m] = before ++ x :: after) :
    (after = [] ∧ messages = before ∧ m = x) ∨ ∃ rest, after = rest ++ [m] ∧ messages = before ++ x :: rest := by
  rcases List.eq_nil_or_concat after with rfl | ⟨rest, last, rfl⟩
  · obtain ⟨hmessages, hlast⟩ := List.append_inj' h rfl
    exact .inl ⟨rfl, hmessages, List.singleton_inj.mp hlast⟩
  · rw [List.concat_eq_append] at h ⊢
    rw [← List.cons_append, ← List.append_assoc] at h
    obtain ⟨hmessages, hlast⟩ := List.append_inj' h rfl
    exact .inr ⟨rest, by rw [List.singleton_inj.mp hlast], hmessages⟩

theorem followed_snoc_user (h : m.role = "user") : AllFollowed (messages ++ [m]) := by
  intro before x after heq hsystem
  rcases snoc_eq_append_cons heq with ⟨_, _, rfl⟩ | ⟨rest, rfl, _⟩
  · rw [h] at hsystem
    exact absurd hsystem (by decide)
  · exact ⟨m, List.mem_append_right _ List.mem_cons_self, h⟩

theorem not_followed_snoc_system (h : m.role = "system") : ¬AllFollowed (messages ++ [m]) := by
  intro hfollowed
  obtain ⟨u, hmem, _⟩ := hfollowed messages m [] rfl h
  cases hmem

theorem followed_snoc_other (huser : m.role ≠ "user") (hsystem : m.role ≠ "system") :
    AllFollowed (messages ++ [m]) ↔ AllFollowed messages := by
  constructor
  · rintro h before x after rfl hx
    obtain ⟨u, hmem, hu⟩ := h before x (after ++ [m]) (by simp) hx
    cases List.mem_append.mp hmem with
    | inl hafter => exact ⟨u, hafter, hu⟩
    | inr hlast => exact absurd (List.mem_singleton.mp hlast ▸ hu) huser
  · intro h before x after heq hx
    rcases snoc_eq_append_cons heq with ⟨_, _, rfl⟩ | ⟨rest, rfl, hmessages⟩
    · exact absurd hx hsystem
    · obtain ⟨u, hmem, hu⟩ := h before x rest hmessages hx
      exact ⟨u, List.mem_append_left _ hmem, hu⟩

end Followed

/-- What the loop has done with the messages so far: the system texts are
placed in groups, but for those that are still pending. -/
structure Carried (messages : List Message) (s : Conversion) (groups : List (List String)) (pending : List String) :
    Prop where
  length : groups.length = (spoken messages).length
  contents : s.contents = List.zipWith placed (spoken messages) groups
  texts : groups.flatten ++ pending = system_texts messages
  message : s.system_message = joined pending
  followed : pending = [] ↔ AllFollowed messages

section Loop

variable {messages : List Message} {s : Conversion} {groups : List (List String)} {pending : List String} {m : Message}

theorem Carried.system (h : Carried messages s groups pending) (hm : m.role = "system") :
    Carried (messages ++ [m]) (convert_message s m) groups (pending ++ [m.content]) := by
  have hspoken : spoken (messages ++ [m]) = spoken messages := by
    simp [spoken, hm]
  refine ⟨?_, ?_, ?_, ?_, ?_⟩
  · rw [hspoken]
    exact h.length
  · rw [hspoken, ← h.contents, convert_message, if_pos hm]
    cases s.system_message <;> rfl
  · rw [← List.append_assoc, h.texts]
    simp [system_texts, hm]
  · rw [joined_snoc, ← h.message, convert_message, if_pos hm]
    cases s.system_message <;> rfl
  · refine iff_of_false ?_ (not_followed_snoc_system hm)
    simp

/-- A message that is spoken is placed with a group of texts before it. -/
theorem Carried.speak (h : Carried messages s groups pending) {s' : Conversion} {texts left : List String}
    (hm : m.role ≠ "system") (hcontents : s'.contents = s.contents ++ [placed m texts]) (htexts : texts ++ left = pending)
    (hmessage : s'.system_message = joined left) (hfollowed : left = [] ↔ AllFollowed (messages ++ [m])) :
    Carried (messages ++ [m]) s' (groups ++ [texts]) left := by
  have hspoken : spoken (messages ++ [m]) = spoken messages ++ [m] := by
    simp [spoken, hm]
  refine ⟨?_, ?_, ?_, hmessage, hfollowed⟩
  · rw [hspoken, List.length_append, List.length_append, h.length]
    rfl
  · rw [hspoken, hcontents, h.contents, List.zipWith_append h.length.symm]
    rfl
  · have hsystem : system_texts (messages ++ [m]) = system_texts messages := by
      simp [system_texts, hm]
    rw [hsystem, ← h.texts, ← htexts]
    simp

theorem convert_user (h : m.role = "user") (hmessage : s.system_message = joined pending) :
    convert_message s m = ⟨s.contents ++ [placed m pending], none⟩ := by
  have hsystem : m.role ≠ "system" := by
    rw [h]
    decide
  have hassistant : m.role ≠ "assistant" := by
    rw [h]
    decide
  rw [convert_message, if_neg hsystem, if_pos h, placed, framed, if_neg hassistant, ← hmessage]
  cases s.system_message with
  | none => rw [Option.map_none, Option.getD_none, String.empty_append]
  | some sys => rfl

theorem convert_other (hsystem : m.role ≠ "system") (huser : m.role ≠ "user") :
    convert_message s m = { s with contents := s.contents ++ [placed m []] } := by
  have hframed : framed [] ++ m.content = m.content := String.empty_append
  rw [convert_message, if_neg hsystem, if_neg huser, placed, hframed]
  split <;> rfl

theorem exists_carried (messages : List Message) :
    ∃ groups pending, Carried messages (messages.foldl convert_message ⟨[], none⟩) groups pending := by
  induction messages using List.reverseRecOn with
  | nil => exact ⟨[], [], rfl, rfl, rfl, rfl, iff_of_true rfl (by rintro (_ | _) _ _ h <;> cases h)⟩
  | append_singleton messages m ih =>
    obtain ⟨groups, pending, h⟩ := ih
    rw [List.foldl_append]
    by_cases hsystem : m.role = "system"
    · exact ⟨groups, pending ++ [m.content], h.system hsystem⟩
    by_cases huser : m.role = "user"
    · have hstep := convert_user huser h.message
      exact ⟨groups ++ [pending], [], h.speak hsystem (congrArg Conversion.contents hstep) (List.append_nil _)
        (congrArg Conversion.system_message hstep) (iff_of_true rfl (followed_snoc_user huser))⟩
    · have hstep := convert_other (s := messages.foldl convert_message ⟨[], none⟩) hsystem huser
      exact ⟨groups ++ [[]], pending, h.speak hsystem (congrArg Conversion.contents hstep) rfl
        ((congrArg Conversion.system_message hstep).trans h.message)
        (h.followed.trans (followed_snoc_other huser hsystem).symm)⟩

end Loop

/-- The conversion loses nothing exactly if every system message has a user message after it. -/
theorem loses_nothing_iff (messages : List Message) : LosesNothing messages ↔ AllFollowed messages := by
  obtain ⟨groups, pending, h⟩ := exists_carried messages
  constructor
  · rintro ⟨groups', hlength, htexts, hcontents⟩
    have hweight := weight_flatten_eq hlength h.length (hcontents.symm.trans h.contents)
    rw [htexts, ← h.texts, weight_append] at hweight
    refine h.followed.mp ?_
    cases pending with
    | nil => rfl
    | cons text rest =>
      rw [weight_cons] at hweight
      omega
  · intro hfollowed
    refine ⟨groups, h.length, ?_, h.contents⟩
    rw [← h.texts, h.followed.mpr hfollowed, List.append_nil]

/-- A system message behind the last user message is left out. -/
theorem trailing_system_message_lost : ¬LosesNothing [⟨"user", "hello"⟩, ⟨"system", "Be brief"⟩] ∧
    messages_to_contents [⟨"user", "hello"⟩, ⟨"system", "Be brief"⟩] = [⟨"user", [⟨"hello"⟩]⟩] := by
  refine ⟨?_, by decide⟩
  rintro ⟨groups, hlength, htexts, hcontents⟩
  obtain ⟨texts, rfl⟩ := List.length_eq_one_iff.mp hlength
  rw [List.flatten_singleton] at htexts
  subst htexts
  exact absurd hcontents (by decide)

end flow_engine.gemini
