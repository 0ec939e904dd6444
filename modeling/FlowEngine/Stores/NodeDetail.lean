import FlowEngine.Executor.Tasks.Alternation
import FlowEngine.Stores.NodeStatus

namespace flow_engine.executor

open matching reconstruct

/-- A stored event with its writer. -/
structure Signed where
  writer : Writer
  stamped : StampedEvent

namespace Signed

def event (e : Signed) : WriteEvent := e.stamped.event

def task_id (e : Signed) : Option TaskId := e.writer.task_id

/-- The event as it was written, before it got its number. -/
def unnumbered (e : Signed) : Writer × WriteEvent := (e.writer, e.event.set_seq 0)

end Signed

/-- The starts and ends of attempts that a store holds. -/
def stored_attempts (signed : List Signed) : List Signed := signed.filter fun e => attempt_event e.event

/-- The store holds the starts and ends of all attempts, in the order of the log. -/
def Signs (x : Live) (signed : List Signed) : Prop :=
  (stored_attempts signed).map Signed.unnumbered = attempt_log x.log

/-- An attempt with what its writer wrote next. -/
def ended (detail : NodeAttemptDetail) : Option Signed → NodeAttemptDetail
  | none => detail
  | some next =>
    match next.event with
    | .NodeCompleted _ _ _ outputs _ => detail.completed outputs next.stamped.duration_ms
    | .NodeFailed _ _ _ error _ _ => detail.failed error
    | _ => detail

/-- The attempt of a start at the node, with what the writer of the start wrote next. -/
def own_attempt (node_id : String) (c : Signed × Option Signed) : Option NodeAttemptDetail :=
  match c.1.event with
  | .NodeStarted _ _ nid inputs fan_out_index attempt =>
    if nid = node_id then some (ended (.begun attempt fan_out_index inputs) c.2) else none
  | _ => none

/-- The attempts of a node, one for each start in the order of the log. -/
def own_attempts (node_id : String) (log : List Signed) : List NodeAttemptDetail :=
  (with_next Signed.task_id log).filterMap (own_attempt node_id)

/-- The detail of a node in which every attempt has the outcome that its writer wrote. -/
def own_detail (signed : List Signed) (node_id : String) : Option NodeRunDetail :=
  let attempts := own_attempts node_id (stored_attempts signed)
  if attempts.isEmpty then none else some ⟨node_id, attempts⟩

/-- The detail reconstructed from the stored log attributes every outcome to the attempt that
wrote it. -/
def AttemptsAttributed (x : Live) : Prop :=
  ∀ signed, Signs x signed → ∀ node_id,
    extract_node_detail (signed.map Signed.stamped) node_id = own_detail signed node_id

/-- The task of a start after which it has written nothing. -/
def open_attempt : (Writer × WriteEvent) × Option (Writer × WriteEvent) → Option Task
  | ((.task task, .NodeStarted ..), none) => some task
  | _ => none

/-- The tasks with an attempt under way, in the order of the starts. -/
def open_attempts (log : List (Writer × WriteEvent)) : List Task :=
  (with_next (fun entry => entry.1.task_id) log).filterMap open_attempt

/-- Of the attempts under way at the node of the task, and with the index where one is given,
the last to have started is the task's. -/
def LastOpen (log : List (Writer × WriteEvent)) (task : Task) (index : Option (Option Nat)) : Prop :=
  ((open_attempts log).filter fun other =>
    other.node_id = task.node_id && index.all fun index => other.fan_out_index = index).getLast?.map Task.id =
      some task.id

/-- Whether an event ends an attempt, and what it says of the fan-out index. -/
def ending_index : WriteEvent → Option (Option (Option Nat))
  | .NodeCompleted _ _ _ _ fan_out_index => some (some fan_out_index)
  | .NodeFailed .. => some none
  | _ => none

/-- Where the event ends an attempt, it is the last one under way that the event may be about. -/
def InTurn (log : List (Writer × WriteEvent)) (task : Task) (event : WriteEvent) : Prop :=
  ∀ index ∈ ending_index event, LastOpen log task index

/-- What a move has a task write. -/
def next_write (ctx : RunContext) (behave : Task → Behaviour) (x : Live) : Move → Option (Task × WriteEvent)
  | .write id => do
    let task ← x.loop.running.find? fun task => task.id = id
    let event ← (script ctx behave task).1[x.written id]?
    some (task, event)
  | _ => none

/-- Where the move ends an attempt, it does so in turn. -/
def EndsInTurn (ctx : RunContext) (behave : Task → Behaviour) (x : Live) (move : Move) : Prop :=
  ∀ write ∈ next_write ctx behave x move, InTurn (attempt_log x.log) write.1 write.2

section Recorded

variable {node_id : String} {e : Signed}

/-- The attempts that are reconstructed from a log. -/
def recorded_attempts (node_id : String) (signed : List Signed) : List NodeAttemptDetail :=
  (signed.map Signed.stamped).foldl (apply_attempt_event node_id) []

theorem recorded_snoc (signed : List Signed) (e : Signed) : recorded_attempts node_id (signed ++ [e]) =
    apply_attempt_event node_id (recorded_attempts node_id signed) e.stamped := by
  simp [recorded_attempts]

/-- Where only the starts and ends of attempts count, a fold over the stored ones is one over the log. -/
theorem foldl_stored_attempts {apply : List NodeAttemptDetail → StampedEvent → List NodeAttemptDetail}
    (hother : ∀ attempts (e : Signed), attempt_event e.event = false → apply attempts e.stamped = attempts)
    (signed : List Signed) (attempts : List NodeAttemptDetail) :
    ((stored_attempts signed).map Signed.stamped).foldl apply attempts = (signed.map Signed.stamped).foldl apply attempts := by
  induction signed generalizing attempts with
  | nil => rfl
  | cons e signed ih =>
    rw [stored_attempts, List.filter_cons]
    cases hattempt : attempt_event e.event with
    | true => exact ih _
    | false =>
      rw [List.map_cons, List.foldl_cons, hother attempts e hattempt]
      exact ih attempts

/-- The starts and ends of attempts alone make up what is reconstructed. -/
theorem recorded_stored (signed : List Signed) :
    recorded_attempts node_id (stored_attempts signed) = recorded_attempts node_id signed := by
  refine foldl_stored_attempts (fun attempts e hother => ?_) signed []
  unfold apply_attempt_event
  unfold Signed.event at hother
  cases hevent : e.stamped.event with
  | NodeStarted | NodeCompleted | NodeFailed =>
    rw [hevent] at hother
    cases hother
  | _ => rfl

theorem extract_eq_iff (signed : List Signed) (node_id : String) :
    extract_node_detail (signed.map Signed.stamped) node_id = own_detail signed node_id ↔
      recorded_attempts node_id signed = own_attempts node_id (stored_attempts signed) := by
  unfold extract_node_detail own_detail
  dsimp only
  rw [← recorded_attempts]
  generalize recorded_attempts node_id signed = recorded
  generalize own_attempts node_id (stored_attempts signed) = own
  cases recorded <;> cases own <;> simp

end Recorded

section Turns

variable {log before after : List Signed} {e d : Signed} {task : Task} {node_id : String}

theorem continues_set_seq {first second : WriteEvent} (m n : Nat) :
    Continues (first.set_seq m) (second.set_seq n) ↔ Continues first second := by
  cases first <;> cases second <;> rfl

/-- What a task writes next after an event continues its attempts. -/
theorem Alternating.next_continues (h : Alternating (log.map Signed.unnumbered)) {first second : Signed}
    (hnext : (first, some second) ∈ with_next Signed.task_id log) : Continues first.event second.event := by
  refine related_next (R := fun first second => Continues first.event second.event) (fun id => ?_) hnext
  cases id with
  | none =>
    rw [List.filter_eq_nil_iff.mpr]
    · exact List.isChain_nil
    · intro entry hentry
      obtain ⟨task, hwriter, _⟩ := h.by_task _ (List.mem_map_of_mem hentry)
      have hid : entry.task_id = some task.id := congrArg Writer.task_id hwriter
      simp [hid]
  | some id =>
    have hchain := (h.alternate id).chain
    rw [List.filter_map, List.map_map, List.isChain_map] at hchain
    exact hchain.imp fun first second => (continues_set_seq 0 0).mp

/-- An event that ends an attempt comes after the start of the attempt. -/
theorem Alternating.exists_start (h : Alternating ((log ++ [e]).map Signed.unnumbered))
    (hend : is_start e.event = false) :
    ∃ before d after, log = before ++ d :: after ∧ d.task_id = e.task_id ∧ (∀ b ∈ after, b.task_id ≠ d.task_id) ∧
      Continues d.event e.event := by
  have hwrote : ∃ a ∈ log, a.task_id = e.task_id := by
    by_contra hnone
    push Not at hnone
    obtain ⟨task, hwriter, _⟩ := h.by_task e.unnumbered (List.mem_map_of_mem (by simp))
    have hid : e.task_id = some task.id := congrArg Writer.task_id hwriter
    have hnothing : (log.map Signed.unnumbered).filter (fun entry => entry.1.task_id = some task.id) = [] := by
      rw [List.filter_map, List.map_eq_nil_iff, List.filter_eq_nil_iff]
      exact fun a ha => by simpa using hid ▸ hnone a ha
    have hfirst := (h.alternate task.id).first (e.event.set_seq 0)
    rw [List.map_append, List.filter_append, hnothing] at hfirst
    have hstart : StartsAttempt 1 (e.event.set_seq 0) :=
      hfirst (by simp [Signed.unnumbered, show e.writer.task_id = some task.id from hid])
    revert hstart hend
    cases e.event <;> simp [StartsAttempt, WriteEvent.set_seq, is_start]
  obtain ⟨a, ha, hid⟩ := hwrote
  obtain ⟨before, d, after, rfl, hd, hafter⟩ := exists_last Signed.task_id ha
  obtain ⟨earlier, _, hnext⟩ := with_next_snoc_of_last (e := e) before (fun b hb => hd ▸ hafter b hb) (hid.symm.trans hd.symm)
  refine ⟨before, d, after, rfl, hd.trans hid, fun b hb => hd ▸ hafter b hb, h.next_continues ?_⟩
  rw [hnext]
  exact List.mem_append_right _ List.mem_cons_self

/-- An event of an attempt names the node and the index of the task that wrote it. -/
theorem Alternating.written_by (h : Alternating (log.map Signed.unnumbered)) (hd : d ∈ log) :
    ∃ task, d.writer = .task task ∧ event_node d.event = some task.node_id ∧
      ∀ index ∈ event_index d.event, index = task.fan_out_index := by
  obtain ⟨task, hwriter, hnode, hindex⟩ := h.by_task _ (List.mem_map_of_mem hd)
  have hsame : event_node (d.event.set_seq 0) = event_node d.event ∧ event_index (d.event.set_seq 0) = event_index d.event := by
    cases d.event <;> exact ⟨rfl, rfl⟩
  exact ⟨task, hwriter, hsame.1 ▸ hnode, hsame.2 ▸ hindex⟩

/-- What a task writes of its attempts. -/
theorem Alternating.event_cases (h : Alternating (log.map Signed.unnumbered)) (hd : d ∈ log) (hwriter : d.writer = .task task) :
    (∃ seq run_id inputs attempt, d.event = .NodeStarted seq run_id task.node_id inputs task.fan_out_index attempt) ∨
      (∃ seq run_id outputs, d.event = .NodeCompleted seq run_id task.node_id outputs task.fan_out_index) ∨
      ∃ seq run_id error will_retry attempt, d.event = .NodeFailed seq run_id task.node_id error will_retry attempt := by
  obtain ⟨author, hauthor, hnode, hindex⟩ := h.written_by hd
  cases hwriter.symm.trans hauthor
  have hattempt : attempt_event (d.event.set_seq 0) = true := h.attempts d.unnumbered (List.mem_map_of_mem hd)
  cases hevent : d.event with
  | NodeStarted seq run_id nid inputs fan_out_index attempt =>
    rw [hevent] at hnode hindex
    cases hnode
    cases hindex fan_out_index rfl
    exact .inl ⟨_, _, _, _, rfl⟩
  | NodeCompleted seq run_id nid outputs fan_out_index =>
    rw [hevent] at hnode hindex
    cases hnode
    cases hindex fan_out_index rfl
    exact .inr (.inl ⟨_, _, _, rfl⟩)
  | NodeFailed seq run_id nid error will_retry attempt =>
    rw [hevent] at hnode
    cases hnode
    exact .inr (.inr ⟨_, _, _, _, _, rfl⟩)
  | _ =>
    rw [hevent] at hattempt
    cases hattempt

theorem own_attempt_eq_some {next : Option Signed} {detail : NodeAttemptDetail} :
    own_attempt node_id (d, next) = some detail ↔ ∃ seq run_id inputs fan_out_index attempt,
      d.event = .NodeStarted seq run_id node_id inputs fan_out_index attempt ∧
        ended (.begun attempt fan_out_index inputs) next = detail := by
  unfold own_attempt
  dsimp only
  constructor
  · intro h
    split at h
    · rename_i hstart
      split at h
      · rename_i hnode
        subst hnode
        exact ⟨_, _, _, _, _, hstart, Option.some.inj h⟩
      · cases h
    · cases h
  · rintro ⟨_, _, _, _, _, hstart, rfl⟩
    rw [hstart]
    exact if_pos rfl

theorem ended_key (detail : NodeAttemptDetail) (next : Option Signed) : (ended detail next).key = detail.key := by
  cases next with
  | none => rfl
  | some next =>
    unfold ended
    dsimp only
    cases next.event <;> rfl

/-- An attempt is unfinished as long as its task has not written again. -/
theorem Alternating.unfinished_iff (h : Alternating (log.map Signed.unnumbered)) {next : Option Signed}
    (hnext : (d, next) ∈ with_next Signed.task_id log) {detail : NodeAttemptDetail}
    (hown : own_attempt node_id (d, next) = some detail) : detail.unfinished = true ↔ next = none := by
  obtain ⟨_, _, _, _, _, hstart, rfl⟩ := own_attempt_eq_some.mp hown
  cases next with
  | none => exact iff_of_true rfl rfl
  | some next =>
    have hcontinues := h.next_continues hnext
    rw [hstart] at hcontinues
    unfold ended
    dsimp only
    cases hevent : next.event with
    | NodeCompleted | NodeFailed => simp [NodeAttemptDetail.unfinished, NodeAttemptDetail.completed, NodeAttemptDetail.failed]
    | _ =>
      rw [hevent] at hcontinues
      exact hcontinues.elim

/-- The start of an attempt ends none. -/
theorem own_attempts_start (h : Alternating ((log ++ [e]).map Signed.unnumbered)) (hstart : is_start e.event = true) :
    own_attempts node_id (log ++ [e]) = own_attempts node_id log ++ (own_attempt node_id (e, none)).toList := by
  unfold own_attempts
  rw [with_next_snoc, List.filterMap_append, List.filterMap_map]
  congr 1
  · refine List.filterMap_congr fun c hc => ?_
    obtain ⟨first, next⟩ := c
    cases next with
    | some next => rfl
    | none =>
      dsimp only [Function.comp]
      split
      · rename_i hwriter
        have hnext : (first, some e) ∈ with_next Signed.task_id (log ++ [e]) := by
          rw [with_next_snoc]
          refine List.mem_append_left _ (List.mem_map.mpr ⟨_, hc, ?_⟩)
          simp [hwriter]
        have hcontinues := h.next_continues hnext
        -- The task starts an attempt after a failure.
        unfold own_attempt
        dsimp only
        revert hcontinues hstart
        cases first.event <;> cases e.event <;> simp [Continues, is_start]
      · rfl

/-- The end of an attempt goes to the start that its task has written last. -/
theorem own_attempts_end (before : List Signed) (hafter : ∀ b ∈ after, b.task_id ≠ d.task_id)
    (hwriter : e.task_id = d.task_id) (hend : is_start e.event = false) (node_id : String) :
    ∃ earlier, own_attempts node_id (before ++ d :: after) =
        earlier ++ (own_attempt node_id (d, none)).toList ++ own_attempts node_id after ∧
      own_attempts node_id (before ++ d :: after ++ [e]) =
        earlier ++ (own_attempt node_id (d, some e)).toList ++ own_attempts node_id after := by
  obtain ⟨earlier, hlog, hnext⟩ := with_next_snoc_of_last before hafter hwriter
  have hnothing : own_attempt node_id (e, none) = none := by
    unfold own_attempt
    revert hend
    cases e.event <;> simp [is_start]
  refine ⟨earlier.filterMap (own_attempt node_id), ?_, ?_⟩
  · rw [own_attempts, hlog, List.filterMap_append, List.filterMap_cons]
    cases own_attempt node_id (d, none) <;> simp [own_attempts]
  · rw [own_attempts, hnext, List.filterMap_append, List.filterMap_cons, List.filterMap_append, List.filterMap_cons, hnothing]
    cases own_attempt node_id (d, some e) <;> simp [own_attempts]

theorem open_attempts_unnumbered (log : List Signed) : open_attempts (log.map Signed.unnumbered) =
    (with_next Signed.task_id log).filterMap fun c => open_attempt (c.1.unnumbered, c.2.map Signed.unnumbered) := by
  unfold open_attempts
  rw [with_next_map, List.filterMap_map]
  rfl

theorem open_attempt_eq_some {next : Option Signed} :
    open_attempt (d.unnumbered, next.map Signed.unnumbered) = some task ↔
      next = none ∧ d.writer = .task task ∧ is_start d.event = true := by
  unfold Signed.unnumbered
  cases next with
  | some next => cases d.event <;> simp [open_attempt]
  | none => cases d.writer <;> cases d.event <;> simp [open_attempt, is_start, WriteEvent.set_seq]

/-- A task with an attempt under way has written nothing since its start. -/
theorem mem_open_attempts : task ∈ open_attempts (log.map Signed.unnumbered) ↔
    ∃ start, (start, none) ∈ with_next Signed.task_id log ∧ start.writer = .task task ∧ is_start start.event = true := by
  rw [open_attempts_unnumbered, List.mem_filterMap]
  constructor
  · rintro ⟨⟨start, next⟩, hmem, hopen⟩
    obtain ⟨rfl, hwriter, hstart⟩ := open_attempt_eq_some.mp hopen
    exact ⟨start, hmem, hwriter, hstart⟩
  · rintro ⟨start, hmem, hwriter, hstart⟩
    exact ⟨(start, none), hmem, open_attempt_eq_some.mpr ⟨rfl, hwriter, hstart⟩⟩

/-- The attempt under way of a task, and the ones started after it. -/
theorem open_attempts_last (before : List Signed) (hafter : ∀ b ∈ after, b.task_id ≠ d.task_id)
    (hstart : is_start d.event = true) (hwriter : d.writer = .task task) :
    ∃ earlier, open_attempts ((before ++ d :: after).map Signed.unnumbered) =
      earlier ++ task :: open_attempts (after.map Signed.unnumbered) := by
  obtain ⟨earlier, hlog, _⟩ := with_next_snoc_of_last (e := d) before hafter rfl
  have hopen := open_attempt_eq_some.mpr ⟨rfl, hwriter, hstart⟩
  rw [open_attempts_unnumbered, open_attempts_unnumbered, hlog, List.filterMap_append]
  simp only [List.filterMap_cons, hopen]
  exact ⟨_, rfl⟩

/-- A task's attempt is the last one of a kind under way where none of the kind started after it. -/
theorem last_open_iff {earlier later : List Task} {kind : Task → Bool} (hkind : kind task = true)
    (hlater : ∀ other ∈ later, other.id ≠ task.id) :
    (((earlier ++ task :: later).filter kind).getLast?.map Task.id = some task.id) ↔ ∀ other ∈ later, kind other = false := by
  rw [List.filter_append, List.filter_cons_of_pos hkind]
  rcases List.eq_nil_or_concat (later.filter kind) with hnone | ⟨others, last, hsome⟩
  · rw [hnone, List.getLast?_append_of_ne_nil _ (List.cons_ne_nil _ _)]
    refine iff_of_true rfl fun other hother => ?_
    simpa using List.filter_eq_nil_iff.mp hnone other hother
  · rw [List.concat_eq_append] at hsome
    have hin : last ∈ later.filter kind := by
      rw [hsome]
      exact List.mem_concat_self
    obtain ⟨hmem, hlast⟩ := List.mem_filter.mp hin
    rw [hsome, ← List.cons_append, ← List.append_assoc, List.getLast?_concat]
    refine iff_of_false (fun heq => hlater last hmem (Option.some.inj heq)) fun hno => ?_
    rw [hno last hmem] at hlast
    cases hlast

/-- An unfinished attempt of a kind is one that a task of the kind has under way. -/
theorem Alternating.open_kind_iff (h : Alternating (log.map Signed.unnumbered))
    (hpart : ∀ c ∈ with_next Signed.task_id after, c ∈ with_next Signed.task_id log) (index : Option (Option Nat)) :
    (∀ detail ∈ own_attempts node_id after,
        ((index.all fun index => detail.fan_out_index = index) && detail.unfinished) = false) ↔
      ∀ other ∈ open_attempts (after.map Signed.unnumbered),
        (decide (other.node_id = node_id) && index.all fun index => other.fan_out_index = index) = false := by
  constructor
  · intro hnone other hother
    obtain ⟨start, hmem, hwriter, hstart⟩ := mem_open_attempts.mp hother
    obtain ⟨task, hwriter', hnode, hindex⟩ := h.written_by (mem_of_mem_with_next (hpart _ hmem))
    cases hwriter.symm.trans hwriter'
    by_contra hkind
    rw [Bool.not_eq_false, Bool.and_eq_true, decide_eq_true_eq] at hkind
    obtain ⟨rfl, hall⟩ := hkind
    cases hevent : start.event with
    | NodeStarted seq run_id nid inputs fan_out_index attempt =>
      rw [hevent] at hnode hindex
      cases hnode
      cases hindex fan_out_index rfl
      have hdetail := hnone _ (List.mem_filterMap.mpr ⟨_, hmem, own_attempt_eq_some.mpr ⟨_, _, _, _, _, hevent, rfl⟩⟩)
      rw [Bool.and_eq_false_iff] at hdetail
      obtain hmismatch | hfinished := hdetail
      · exact absurd (hall.symm.trans hmismatch) (by decide)
      · cases hfinished
    | _ =>
      rw [hevent] at hstart
      cases hstart
  · intro hnone detail hdetail
    obtain ⟨⟨start, next⟩, hmem, hown⟩ := List.mem_filterMap.mp hdetail
    by_contra hkind
    rw [Bool.not_eq_false, Bool.and_eq_true] at hkind
    obtain ⟨hall, hunfinished⟩ := hkind
    have hnext := (h.unfinished_iff (hpart _ hmem) hown).mp hunfinished
    subst hnext
    obtain ⟨_, _, _, fan_out_index, _, hevent, rfl⟩ := own_attempt_eq_some.mp hown
    obtain ⟨task, hwriter, hnode, hindex⟩ := h.written_by (mem_of_mem_with_next (hpart _ hmem))
    rw [hevent] at hnode hindex
    cases hnode
    have hother := hnone task (mem_open_attempts.mpr ⟨start, hmem, hwriter, by rw [hevent]; rfl⟩)
    have hsame : fan_out_index = task.fan_out_index := hindex fan_out_index rfl
    rw [decide_eq_true rfl, Bool.true_and, ← hsame] at hother
    exact absurd (hall.symm.trans hother) (by decide)

theorem index_all_of_forall {index : Option (Option Nat)} {fan_out_index : Option Nat} (h : ∀ i ∈ index, i = fan_out_index) :
    (index.all fun index => decide (fan_out_index = index)) = true := by
  cases index with
  | none => rfl
  | some i => exact decide_eq_true (h i rfl).symm

/-- An event of the task that ends an attempt, and the attempt among those of the task's node. -/
structure EndOf (log : List Signed) (e : Signed) (task : Task) (attempt : Nat) (inputs : Value)
    (earlier later : List NodeAttemptDetail) : Prop where
  before : own_attempts task.node_id log = earlier ++ .begun attempt task.fan_out_index inputs :: later
  after : own_attempts task.node_id (log ++ [e]) =
    earlier ++ ended (.begun attempt task.fan_out_index inputs) (some e) :: later
  others : ∀ node_id, task.node_id ≠ node_id → own_attempts node_id (log ++ [e]) = own_attempts node_id log
  failed : ∀ {seq run_id nid error will_retry failed}, e.event = .NodeFailed seq run_id nid error will_retry failed →
    failed = attempt
  last_iff : ∀ index : Option (Option Nat), (∀ i ∈ index, i = task.fan_out_index) →
    (LastOpen (log.map Signed.unnumbered) task index ↔ ∀ detail ∈ later,
      ((index.all fun index => detail.fan_out_index = index) && detail.unfinished) = false)

theorem Alternating.end_of (h : Alternating ((log ++ [e]).map Signed.unnumbered)) (hwriter : e.writer = .task task)
    (hend : is_start e.event = false) : ∃ attempt inputs earlier later, EndOf log e task attempt inputs earlier later := by
  obtain ⟨before, d, after, rfl, hid, hafter, hcontinues⟩ := h.exists_start hend
  have hauthor : d.writer = .task task := by
    have hd : d.unnumbered ∈ (before ++ d :: after ++ [e]).map Signed.unnumbered := List.mem_map_of_mem (by simp)
    have he : e.unnumbered ∈ (before ++ d :: after ++ [e]).map Signed.unnumbered := List.mem_map_of_mem (by simp)
    exact (h.same_task _ hd _ he hid).trans hwriter
  obtain ⟨seq, run_id, inputs, attempt, hstart⟩ : ∃ seq run_id inputs attempt,
      d.event = .NodeStarted seq run_id task.node_id inputs task.fan_out_index attempt := by
    obtain hstarted | ⟨_, _, _, hcompleted⟩ | ⟨_, _, _, _, _, hfailed⟩ := h.event_cases (d := d) (by simp) hauthor
    · exact hstarted
    · rw [hcompleted] at hcontinues
      exact hcontinues.elim
    · rw [hfailed] at hcontinues
      revert hcontinues hend
      cases e.event <;> simp [Continues, is_start]
  have hparts := own_attempts_end before hafter hid.symm hend
  have hown : ∀ next, own_attempt task.node_id (d, next) = some (ended (.begun attempt task.fan_out_index inputs) next) :=
    fun next => own_attempt_eq_some.mpr ⟨_, _, _, _, _, hstart, rfl⟩
  obtain ⟨earlier, hbegun, hended⟩ := hparts task.node_id
  rw [hown, Option.toList_some, List.append_assoc earlier] at hbegun hended
  refine ⟨attempt, inputs, earlier, own_attempts task.node_id after, hbegun, hended, ?_, ?_, ?_⟩
  · intro node_id hne
    obtain ⟨earlier, hbegun, hended⟩ := hparts node_id
    have hother : ∀ next, own_attempt node_id (d, next) = none := by
      intro next
      unfold own_attempt
      dsimp only
      rw [hstart]
      exact if_neg hne
    rw [hbegun, hended, hother, hother]
  · intro _ _ _ _ _ failed hevent
    rw [hstart, hevent] at hcontinues
    exact hcontinues
  · intro index hindex
    obtain ⟨started, hopen⟩ := open_attempts_last before hafter (by rw [hstart]; rfl) hauthor
    rw [LastOpen, hopen, last_open_iff]
    · refine (h.open_kind_iff (fun c hc => ?_) index).symm
      obtain ⟨_, _, hnext⟩ := with_next_snoc_of_last before hafter hid.symm
      rw [hnext]
      exact List.mem_append_right _ (List.mem_cons_of_mem _ (List.mem_append_left _ hc))
    · rw [decide_eq_true rfl, Bool.true_and]
      exact index_all_of_forall hindex
    · intro other hother heq
      obtain ⟨start, hmem, hby, _⟩ := mem_open_attempts.mp hother
      refine hafter start (mem_of_mem_with_next hmem) ?_
      rw [Signed.task_id, Signed.task_id, hby, hauthor]
      exact congrArg some heq

/-- What an event that ends an attempt changes in the attempts of a node: the last unfinished one,
with the index where the event names one. -/
structure Changes (e : Signed) (node_id : String) (index : Option (Option Nat))
    (change : NodeAttemptDetail → NodeAttemptDetail) : Prop where
  no_start : is_start e.event = false
  applied : ∀ other attempts, apply_attempt_event other attempts e.stamped = if node_id = other then
    update_last (fun detail => (index.all fun index => detail.fan_out_index = index) && detail.unfinished) change attempts
    else attempts
  ended : ∀ detail, ended detail (some e) = change detail
  finishes : ∀ detail, (change detail).unfinished = false

theorem changes_completed {seq : Nat} {run_id : String} {outputs : Value} {fan_out_index : Option Nat}
    (hevent : e.event = .NodeCompleted seq run_id node_id outputs fan_out_index) :
    Changes e node_id (some fan_out_index) fun detail => detail.completed outputs e.stamped.duration_ms := by
  refine ⟨by rw [hevent]; rfl, fun other attempts => ?_, fun detail => ?_, fun _ => rfl⟩
  · unfold apply_attempt_event
    rw [show e.stamped.event = _ from hevent]
    rfl
  · unfold ended
    dsimp only
    rw [hevent]

theorem changes_failed {seq : Nat} {run_id error : String} {will_retry : Bool} {attempt : Nat}
    (hevent : e.event = .NodeFailed seq run_id node_id error will_retry attempt) :
    Changes e node_id none fun detail => detail.failed error := by
  refine ⟨by rw [hevent]; rfl, fun other attempts => ?_, fun detail => ?_, fun detail => Bool.and_false _⟩
  · unfold apply_attempt_event
    rw [show e.stamped.event = _ from hevent]
    rfl
  · unfold ended
    dsimp only
    rw [hevent]

/-- The end of an attempt is attributed to the right one exactly if it is the last under way that
the event may be about. -/
theorem EndOf.attributed_iff {index : Option (Option Nat)} {change : NodeAttemptDetail → NodeAttemptDetail} {attempt : Nat}
    {inputs : Value} {earlier later : List NodeAttemptDetail} (h : EndOf log e task attempt inputs earlier later)
    (hchanges : Changes e task.node_id index change) (hindex : ∀ i ∈ index, i = task.fan_out_index)
    (hsame : ∀ node_id, recorded_attempts node_id log = own_attempts node_id log) :
    (∀ node_id, recorded_attempts node_id (log ++ [e]) = own_attempts node_id (log ++ [e])) ↔
      LastOpen (log.map Signed.unnumbered) task index := by
  have hnode : recorded_attempts task.node_id (log ++ [e]) = own_attempts task.node_id (log ++ [e]) ↔
      ∀ detail ∈ later, ((index.all fun index => detail.fan_out_index = index) && detail.unfinished) = false := by
    rw [recorded_snoc, hsame, hchanges.applied, if_pos rfl, h.before, h.after, hchanges.ended]
    refine update_last_eq_iff ?_ fun heq => ?_
    · exact (Bool.and_true _).trans (index_all_of_forall hindex)
    · have hfinishes := hchanges.finishes (.begun attempt task.fan_out_index inputs)
      rw [heq] at hfinishes
      cases hfinishes
  rw [h.last_iff index hindex, ← hnode]
  refine ⟨fun hall => hall _, fun hown node_id => ?_⟩
  by_cases heq : task.node_id = node_id
  · exact heq ▸ hown
  · rw [recorded_snoc, hsame, hchanges.applied, if_neg heq, h.others node_id heq]

/-- An event keeps the attempts attributed exactly if it ends an attempt in turn. -/
theorem attributed_snoc_iff (h : Alternating ((log ++ [e]).map Signed.unnumbered)) (hwriter : e.writer = .task task)
    (hsame : ∀ node_id, recorded_attempts node_id log = own_attempts node_id log) :
    (∀ node_id, recorded_attempts node_id (log ++ [e]) = own_attempts node_id (log ++ [e])) ↔
      InTurn (log.map Signed.unnumbered) task e.event := by
  obtain ⟨_, _, inputs, attempt, hevent⟩ | ⟨_, _, _, hevent⟩ | ⟨_, _, _, _, _, hevent⟩ :=
    h.event_cases (d := e) (by simp) hwriter
  · rw [hevent]
    refine iff_of_true (fun node_id => ?_) fun _ hindex => (nomatch hindex)
    rw [recorded_snoc, hsame, own_attempts_start h (by rw [hevent]; rfl)]
    have happly : ∀ attempts, apply_attempt_event node_id attempts e.stamped =
        if task.node_id = node_id then attempts ++ [.begun attempt task.fan_out_index inputs] else attempts := by
      intro attempts
      unfold apply_attempt_event
      rw [show e.stamped.event = _ from hevent]
    rw [happly, own_attempt, hevent]
    dsimp only
    split
    · rfl
    · exact (List.append_nil _).symm
  · have hchanges := changes_completed hevent
    obtain ⟨attempt, inputs, earlier, later, hend⟩ := h.end_of hwriter hchanges.no_start
    rw [hend.attributed_iff hchanges (fun i hi => (Option.mem_some.mp hi).symm) hsame, hevent]
    simp [InTurn, ending_index]
  · have hchanges := changes_failed hevent
    obtain ⟨attempt, inputs, earlier, later, hend⟩ := h.end_of hwriter hchanges.no_start
    rw [hend.attributed_iff hchanges (fun i hi => nomatch hi) hsame, hevent]
    simp [InTurn, ending_index]

end Turns

end flow_engine.executor
