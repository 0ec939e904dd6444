import FlowEngine.Stores.Attribution
import FlowEngine.Stores.InMemory

namespace flow_engine.executor

open matching reconstruct

/-- The two details have the same attempts, in some order. -/
def SameAttempts : Option NodeRunDetail → Option NodeRunDetail → Prop
  | none, none => True
  | some filed, some extracted => filed.node_id = extracted.node_id ∧ filed.attempts.Perm extracted.attempts
  | _, _ => False

/-- A store in memory that holds the log finds the attempts that are extracted from the log. -/
def DetailsAgree (x : Live) : Prop :=
  ∀ signed, Signs x signed → ∀ (s : in_memory.InMemoryRunStore) run_id node_id,
    in_memory.stored_events s run_id = signed.map Signed.stamped →
    SameAttempts (in_memory.get_node_detail s run_id node_id) (extract_node_detail (signed.map Signed.stamped) node_id)

/-- The number and the fan-out index of an attempt that starts at a node. -/
def start_key (node_id : String) : WriteEvent → Option (Nat × Option Nat)
  | .NodeStarted _ _ nid _ fan_out_index attempt => if nid = node_id then some (attempt, fan_out_index) else none
  | _ => none

def started_keys (node_id : String) (log : List (Writer × WriteEvent)) : List (Nat × Option Nat) :=
  log.filterMap fun entry => start_key node_id entry.2

/-- What the event names is a single attempt: no other one has started under its number and
index, none but the attempt completed has its index, and the attempt failed is the last one under
way and belongs to a plain task. -/
def Distinguished (log : List (Writer × WriteEvent)) (task : Task) : WriteEvent → Prop
  | .NodeStarted _ _ _ _ fan_out_index attempt => (attempt, fan_out_index) ∉ started_keys task.node_id log
  | .NodeCompleted _ _ _ _ fan_out_index =>
    (started_keys task.node_id log).countP (fun key => key.2 = fan_out_index) = 1
  | .NodeFailed .. => task.fan_out_index = none ∧ LastOpen log task none
  | _ => True

/-- Where the move writes of an attempt, it names a single one. -/
def WritesDistinguished (ctx : RunContext) (behave : Task → Behaviour) (x : Live) (move : Move) : Prop :=
  ∀ write ∈ next_write ctx behave x move, Distinguished (attempt_log x.log) write.1 write.2

section Filed

variable {node_id : String} {log : List Signed} {e : Signed} {task : Task}

/-- The attempts that a store in memory files from a log. -/
def filed_attempts (node_id : String) (signed : List Signed) : List NodeAttemptDetail :=
  (signed.map Signed.stamped).foldl (in_memory.apply_attempt_event node_id) []

theorem filed_snoc (signed : List Signed) (e : Signed) : filed_attempts node_id (signed ++ [e]) =
    in_memory.apply_attempt_event node_id (filed_attempts node_id signed) e.stamped := by
  simp [filed_attempts]

theorem filed_stored (signed : List Signed) :
    filed_attempts node_id (stored_attempts signed) = filed_attempts node_id signed := by
  refine foldl_stored_attempts (fun attempts e hother => ?_) signed []
  unfold in_memory.apply_attempt_event
  unfold Signed.event at hother
  cases hevent : e.stamped.event with
  | NodeStarted | NodeCompleted | NodeFailed =>
    rw [hevent] at hother
    cases hother
  | _ => rfl

theorem same_attempts_iff {s : in_memory.InMemoryRunStore} {run_id : String} {signed : List Signed}
    (hstored : in_memory.stored_events s run_id = signed.map Signed.stamped) (node_id : String) :
    SameAttempts (in_memory.get_node_detail s run_id node_id) (extract_node_detail (signed.map Signed.stamped) node_id) ↔
      (filed_attempts node_id signed).Perm (recorded_attempts node_id signed) := by
  have hfiled : in_memory.get_node_detail s run_id node_id = if (filed_attempts node_id signed).isEmpty then none
      else some ⟨node_id, keyed.sort_by_key in_memory.attempt_order (filed_attempts node_id signed)⟩ := by
    unfold in_memory.get_node_detail filed_attempts
    rw [← hstored, in_memory.stored_events]
    cases s.events[run_id]? <;> rfl
  rw [hfiled]
  unfold extract_node_detail
  dsimp only
  rw [← recorded_attempts]
  have hsort : (keyed.sort_by_key in_memory.attempt_order (filed_attempts node_id signed)).Perm (filed_attempts node_id signed) :=
    List.perm_insertionSort _ _
  generalize recorded_attempts node_id signed = recorded
  generalize filed_attempts node_id signed = filed at hsort ⊢
  cases filed with
  | nil => cases recorded <;> simp [SameAttempts]
  | cons first filed =>
    cases recorded with
    | nil => simp [SameAttempts]
    | cons other recorded =>
      refine ⟨fun h => hsort.symm.trans h.2, fun h => ⟨rfl, hsort.trans h⟩⟩

/-- No two attempts are filed under the same key. -/
theorem filed_keys_nodup (log : List Signed) : ((filed_attempts node_id log).map NodeAttemptDetail.key).Nodup := by
  induction log using List.reverseRecOn with
  | nil => exact List.nodup_nil
  | append_singleton log e ih =>
    rw [filed_snoc]
    generalize filed_attempts node_id log = attempts at ih ⊢
    have hkept : ∀ (p : NodeAttemptDetail → Prop) [DecidablePred p] (change : NodeAttemptDetail → NodeAttemptDetail),
        (∀ detail, (change detail).key = detail.key) →
          ((attempts.map fun detail => if p detail then change detail else detail).map NodeAttemptDetail.key).Nodup := by
      intro p _ change hkey
      have hsame : (NodeAttemptDetail.key ∘ fun detail => if p detail then change detail else detail) =
          NodeAttemptDetail.key := by
        funext detail
        by_cases hp : p detail <;> simp [hp, hkey]
      rwa [List.map_map, hsame]
    unfold in_memory.apply_attempt_event
    split
    · split
      · split
        · exact ih
        · rename_i hfresh
          rw [List.map_append, List.nodup_append]
          refine ⟨ih, List.nodup_singleton _, ?_⟩
          intro key hkey other hother heq
          obtain ⟨detail, hdetail, rfl⟩ := List.mem_map.mp hkey
          rw [List.map_singleton, List.mem_singleton] at hother
          exact hfresh (List.any_eq_true.mpr ⟨detail, hdetail, decide_eq_true (heq.trans hother)⟩)
      · exact ih
    · split
      · exact hkept _ _ fun _ => rfl
      · exact ih
    · split
      · exact hkept _ _ fun _ => rfl
      · exact ih
    · exact ih

theorem own_attempt_key (node_id : String) (c : Signed × Option Signed) :
    (own_attempt node_id c).map NodeAttemptDetail.key = start_key node_id c.1.unnumbered.2 := by
  unfold own_attempt Signed.unnumbered
  cases c.1.event with
  | NodeStarted seq run_id nid inputs fan_out_index attempt =>
    unfold start_key WriteEvent.set_seq
    dsimp only
    split
    · rw [Option.map_some, ended_key]
      rfl
    · rfl
  | _ => rfl

/-- The attempts of a node are those started, in the order of the starts. -/
theorem own_keys (log : List Signed) :
    (own_attempts node_id log).map NodeAttemptDetail.key = started_keys node_id (log.map Signed.unnumbered) := by
  rw [own_attempts, List.map_filterMap, started_keys, List.filterMap_map]
  conv_rhs => rw [← with_next_map_fst Signed.task_id log, List.filterMap_map]
  exact List.filterMap_congr fun c _ => own_attempt_key node_id c

theorem filed_started {seq : Nat} {run_id nid : String} {inputs : Value} {fan_out_index : Option Nat} {attempt : Nat}
    (hevent : e.event = .NodeStarted seq run_id nid inputs fan_out_index attempt) (log : List Signed) (node_id : String) :
    filed_attempts node_id (log ++ [e]) = if nid = node_id then
      if (filed_attempts node_id log).any fun detail => detail.key = (attempt, fan_out_index) then filed_attempts node_id log
      else filed_attempts node_id log ++ [.begun attempt fan_out_index inputs]
    else filed_attempts node_id log := by
  rw [filed_snoc, in_memory.apply_attempt_event, show e.stamped.event = _ from hevent]

theorem filed_completed {seq : Nat} {run_id nid : String} {outputs : Value} {fan_out_index : Option Nat}
    (hevent : e.event = .NodeCompleted seq run_id nid outputs fan_out_index) (log : List Signed) (node_id : String) :
    filed_attempts node_id (log ++ [e]) = if nid = node_id then (filed_attempts node_id log).map fun detail =>
        if detail.fan_out_index = fan_out_index then detail.completed outputs e.stamped.duration_ms else detail
      else filed_attempts node_id log := by
  rw [filed_snoc, in_memory.apply_attempt_event, show e.stamped.event = _ from hevent]

theorem filed_failed {seq : Nat} {run_id nid error : String} {will_retry : Bool} {attempt : Nat}
    (hevent : e.event = .NodeFailed seq run_id nid error will_retry attempt) (log : List Signed) (node_id : String) :
    filed_attempts node_id (log ++ [e]) = if nid = node_id then (filed_attempts node_id log).map fun detail =>
        if detail.key = (attempt, none) then detail.failed error else detail
      else filed_attempts node_id log := by
  rw [filed_snoc, in_memory.apply_attempt_event, show e.stamped.event = _ from hevent]

/-- An attempt is the only one with its index where its index was started once. -/
theorem EndOf.sole_iff {attempt : Nat} {inputs : Value} {earlier later : List NodeAttemptDetail}
    (h : EndOf log e task attempt inputs earlier later) :
    (started_keys task.node_id (log.map Signed.unnumbered)).countP (fun key => key.2 = task.fan_out_index) = 1 ↔
      (∀ detail ∈ earlier, detail.fan_out_index ≠ task.fan_out_index) ∧
        ∀ detail ∈ later, detail.fan_out_index ≠ task.fan_out_index := by
  have hkind : (fun key : Nat × Option Nat => decide (key.2 = task.fan_out_index)) ∘ NodeAttemptDetail.key =
      fun detail => decide (detail.fan_out_index = task.fan_out_index) := rfl
  rw [← own_keys, List.countP_map, hkind, h.before, List.countP_append, List.countP_cons_of_pos (by exact decide_eq_true rfl)]
  constructor
  · intro hone
    have hearlier : earlier.countP (fun detail => detail.fan_out_index = task.fan_out_index) = 0 := by omega
    have hlater : later.countP (fun detail => detail.fan_out_index = task.fan_out_index) = 0 := by omega
    rw [List.countP_eq_zero] at hearlier hlater
    exact ⟨fun detail hdetail => by simpa using hearlier detail hdetail, fun detail hdetail => by simpa using hlater detail hdetail⟩
  · rintro ⟨hearlier, hlater⟩
    rw [List.countP_eq_zero.mpr fun detail hdetail => by simpa using hearlier detail hdetail,
      List.countP_eq_zero.mpr fun detail hdetail => by simpa using hlater detail hdetail]

/-- Every reconstruction from the log has the attempts as their writers ended them. -/
def Reconstructed (log : List Signed) : Prop :=
  ∀ node_id, recorded_attempts node_id log = own_attempts node_id log ∧ filed_attempts node_id log = own_attempts node_id log

theorem Reconstructed.keys_nodup (h : Reconstructed log) (node_id : String) :
    ((own_attempts node_id log).map NodeAttemptDetail.key).Nodup :=
  (h node_id).2 ▸ filed_keys_nodup log

theorem EndOf.other_keys {attempt : Nat} {inputs : Value} {earlier later : List NodeAttemptDetail}
    (h : EndOf log e task attempt inputs earlier later) (hown : Reconstructed log) :
    (∀ detail ∈ earlier, detail.key ≠ (attempt, task.fan_out_index)) ∧
      ∀ detail ∈ later, detail.key ≠ (attempt, task.fan_out_index) := by
  have hnodup := hown.keys_nodup task.node_id
  rw [h.before, List.map_append, List.map_cons, List.nodup_append] at hnodup
  obtain ⟨_, hlater, hdisjoint⟩ := hnodup
  constructor
  · exact fun detail hdetail => hdisjoint _ (List.mem_map_of_mem hdetail) _ List.mem_cons_self
  · intro detail hdetail heq
    exact (List.nodup_cons.mp hlater).1 (List.mem_map.mpr ⟨detail, hdetail, heq⟩)

/-- A start under a fresh key is filed. -/
theorem Reconstructed.filed_fresh (h : Reconstructed log) (halternating : Alternating ((log ++ [e]).map Signed.unnumbered))
    {seq : Nat} {run_id : String} {inputs : Value} {fan_out_index : Option Nat} {attempt : Nat}
    (hevent : e.event = .NodeStarted seq run_id task.node_id inputs fan_out_index attempt)
    (hfresh : (attempt, fan_out_index) ∉ started_keys task.node_id (log.map Signed.unnumbered)) (node_id : String) :
    filed_attempts node_id (log ++ [e]) = own_attempts node_id (log ++ [e]) := by
  rw [filed_started hevent, own_attempts_start halternating (by rw [hevent]; rfl), (h node_id).2, own_attempt, hevent]
  dsimp only
  split
  · rename_i heq
    subst heq
    rw [if_neg]
    · rfl
    · intro hany
      obtain ⟨detail, hdetail, hkey⟩ := List.any_eq_true.mp hany
      refine hfresh ?_
      rw [← own_keys]
      exact List.mem_map.mpr ⟨detail, hdetail, of_decide_eq_true hkey⟩
  · exact (List.append_nil _).symm

/-- The end of an attempt is filed where it goes to this attempt alone. -/
theorem EndOf.filed_sole {p : NodeAttemptDetail → Prop} [DecidablePred p] {index : Option (Option Nat)}
    {change : NodeAttemptDetail → NodeAttemptDetail} {attempt : Nat} {inputs : Value} {earlier later : List NodeAttemptDetail}
    (h : EndOf log e task attempt inputs earlier later) (hown : Reconstructed log)
    (hchanges : Changes e task.node_id index change)
    (hfiled : ∀ node_id, filed_attempts node_id (log ++ [e]) = if task.node_id = node_id then
        (filed_attempts node_id log).map fun detail => if p detail then change detail else detail
      else filed_attempts node_id log)
    (hself : p (.begun attempt task.fan_out_index inputs)) (hearlier : ∀ detail ∈ earlier, ¬ p detail)
    (hlater : ∀ detail ∈ later, ¬ p detail) (node_id : String) :
    filed_attempts node_id (log ++ [e]) = own_attempts node_id (log ++ [e]) := by
  rw [hfiled, (hown node_id).2]
  split
  · rename_i heq
    subst heq
    rw [h.before, h.after, hchanges.ended]
    exact map_of_sole hself hearlier hlater
  · rename_i hne
    exact (h.others node_id hne).symm

/-- A start under a fresh key, the end of the only attempt with its index, and the failure of the
last attempt of a plain task are reconstructed. -/
theorem Reconstructed.snoc (h : Reconstructed log) (halternating : Alternating ((log ++ [e]).map Signed.unnumbered))
    (hwriter : e.writer = .task task) (hdistinguished : Distinguished (log.map Signed.unnumbered) task e.event) :
    Reconstructed (log ++ [e]) := by
  have hrecorded := (attributed_snoc_iff halternating hwriter fun node_id => (h node_id).1).mpr
  obtain ⟨_, _, inputs, attempt, hevent⟩ | ⟨_, _, _, hevent⟩ | ⟨_, _, _, _, failed, hevent⟩ :=
    halternating.event_cases (d := e) (by simp) hwriter
  · rw [hevent] at hdistinguished hrecorded
    exact fun node_id => ⟨hrecorded (fun _ hending => (nomatch hending)) node_id,
      h.filed_fresh halternating hevent hdistinguished node_id⟩
  · rw [hevent] at hdistinguished hrecorded
    have hchanges := changes_completed hevent
    obtain ⟨attempt, inputs, earlier, later, hend⟩ := halternating.end_of hwriter hchanges.no_start
    obtain ⟨hearlier, hlater⟩ := hend.sole_iff.mp hdistinguished
    refine fun node_id => ⟨hrecorded ?_ node_id, ?_⟩
    · intro index hending
      cases hending
      refine (hend.last_iff _ fun i hi => (Option.mem_some.mp hi).symm).mpr fun detail hdetail => ?_
      rw [Option.all_some, decide_eq_false (hlater detail hdetail), Bool.false_and]
    · exact hend.filed_sole h hchanges (filed_completed hevent log) rfl hearlier hlater node_id
  · rw [hevent] at hdistinguished hrecorded
    obtain ⟨hplain, hlast⟩ := hdistinguished
    have hchanges := changes_failed hevent
    obtain ⟨started, inputs, earlier, later, hend⟩ := halternating.end_of hwriter hchanges.no_start
    obtain ⟨hearlier, hlater⟩ := hend.other_keys h
    cases hend.failed hevent
    rw [hplain] at hearlier hlater
    refine fun node_id => ⟨hrecorded ?_ node_id, ?_⟩
    · intro index hending
      cases hending
      exact hlast
    · exact hend.filed_sole h hchanges (filed_failed hevent log) (congrArg (failed, ·) hplain) hearlier hlater node_id

/-- The first event of a task is the start of its first attempt. -/
theorem Alternating.first_start (h : Alternating (log.map Signed.unnumbered)) (he : e ∈ log) (hwriter : e.writer = .task task) :
    ∃ start ∈ log, start.writer = .task task ∧ start_key task.node_id start.unnumbered.2 = some (1, task.fan_out_index) := by
  have hin : e.unnumbered ∈ (log.map Signed.unnumbered).filter fun entry => entry.1.task_id = some task.id := by
    refine List.mem_filter.mpr ⟨List.mem_map_of_mem he, ?_⟩
    rw [Signed.unnumbered, hwriter]
    exact decide_eq_true rfl
  cases hlist : (log.map Signed.unnumbered).filter fun entry => entry.1.task_id = some task.id with
  | nil =>
    rw [hlist] at hin
    cases hin
  | cons first rest =>
    have hstarts := (h.alternate task.id).first first.2 (by rw [hlist]; rfl)
    obtain ⟨hmem, hid⟩ := List.mem_filter.mp (hlist ▸ List.mem_cons_self : first ∈ _)
    obtain ⟨start, hstart, rfl⟩ := List.mem_map.mp hmem
    have hauthor : start.writer = .task task := by
      have hsame := h.same_task _ hmem _ (List.mem_map_of_mem he)
      rw [of_decide_eq_true hid, Signed.unnumbered, Signed.unnumbered, hwriter] at hsame
      exact hsame rfl
    refine ⟨start, hstart, hauthor, ?_⟩
    obtain ⟨author, hauthor', hnode, hindex⟩ := h.by_task _ hmem
    cases hauthor.symm.trans hauthor'
    generalize start.unnumbered.2 = event at hstarts hnode hindex ⊢
    cases event with
    | NodeStarted seq run_id nid inputs fan_out_index attempt =>
      cases hstarts
      cases hnode
      cases hindex fan_out_index rfl
      exact if_pos rfl
    | _ => exact hstarts.elim

/-- Where no key was started twice a start is determined by its key. -/
theorem start_unique (hkeys : (started_keys node_id (log.map Signed.unnumbered)).Nodup) {start other : Signed}
    (hstart : start ∈ log) (hother : other ∈ log) {key : Nat × Option Nat}
    (hkey : start_key node_id start.unnumbered.2 = some key) (hkey' : start_key node_id other.unnumbered.2 = some key) :
    start = other := by
  rw [started_keys, List.filterMap_map, List.Nodup, List.pairwise_filterMap] at hkeys
  rcases related_of_pairwise hkeys hstart hother with heq | hne | hne
  · exact heq
  · exact absurd rfl (hne key hkey key hkey')
  · exact absurd rfl (hne key hkey' key hkey)

/-- While a task has an attempt under way and no two attempts have one key, no other attempt with
its index has completed. -/
theorem Alternating.not_completed (h : Alternating ((log ++ [e]).map Signed.unnumbered)) (hwriter : e.writer = .task task)
    (hend : is_start e.event = false) (hkeys : (started_keys task.node_id (log.map Signed.unnumbered)).Nodup)
    {detail : NodeAttemptDetail} (hdetail : detail ∈ own_attempts task.node_id log)
    (hindex : detail.fan_out_index = task.fan_out_index) : detail.outputs = none := by
  obtain ⟨⟨start, next⟩, hmem, hown⟩ := List.mem_filterMap.mp hdetail
  obtain ⟨_, _, inputs, fan_out_index, attempt, hstart, rfl⟩ := own_attempt_eq_some.mp hown
  have hlogged := mem_of_mem_with_next hmem
  replace hindex : fan_out_index = task.fan_out_index := (congrArg Prod.snd (ended_key _ _)).symm.trans hindex
  cases next with
  | none => rfl
  | some completion =>
    unfold ended
    dsimp only
    cases hevent : completion.event with
    | NodeCompleted =>
      -- The attempt is one of the same task, which would write again after its completion.
      obtain ⟨author, hauthor, hnode, hnamed⟩ := h.written_by (List.mem_append_left [e] hlogged)
      rw [hstart] at hnode hnamed
      have hnode_id : task.node_id = author.node_id := Option.some.inj hnode
      have hauthor_index : author.fan_out_index = task.fan_out_index := (hnamed fan_out_index rfl).symm.trans hindex
      have hlog : ∀ start ∈ log ++ [e], ∀ key, start_key task.node_id start.unnumbered.2 = some key → start ∈ log := by
        intro start hstart key hkey
        refine (List.mem_append.mp hstart).resolve_right fun hlast => ?_
        rw [List.mem_singleton.mp hlast, Signed.unnumbered] at hkey
        revert hend hkey
        cases e.event <;> simp [is_start, start_key, WriteEvent.set_seq]
      obtain ⟨own, hown, hown_writer, hown_key⟩ := h.first_start (List.mem_append_right log (List.mem_singleton_self e)) hwriter
      obtain ⟨other, hother, hother_writer, hother_key⟩ := h.first_start (List.mem_append_left [e] hlogged) hauthor
      rw [← hnode_id, hauthor_index] at hother_key
      have hsame := start_unique hkeys (hlog _ hown _ hown_key) (hlog _ hother _ hother_key) hown_key hother_key
      rw [hsame, hother_writer] at hown_writer
      cases hown_writer
      obtain ⟨hcompletion, hid⟩ := writer_of_next hmem
      have hlast : e.task_id = completion.task_id := by
        rw [hid, Signed.task_id, Signed.task_id, hwriter, hauthor]
      obtain ⟨next, hnext⟩ := exists_next_of_snoc hcompletion hlast
      have hcontinues := h.next_continues hnext
      rw [hevent] at hcontinues
      cases hcontinues
    | _ => rfl

/-- What a change makes of an attempt, where it leads to a list with an attempt of the same key. -/
theorem changed_eq {attempts changed : List NodeAttemptDetail} {change : NodeAttemptDetail → NodeAttemptDetail}
    (hkeys : (attempts.map NodeAttemptDetail.key).Nodup) (hkey : ∀ detail, (change detail).key = detail.key)
    (hperm : (attempts.map change).Perm changed) {detail other : NodeAttemptDetail} (hdetail : detail ∈ attempts)
    (hother : other ∈ changed) (hsame : other.key = detail.key) : change detail = other := by
  obtain ⟨source, hsource, rfl⟩ := List.mem_map.mp (hperm.mem_iff.mpr hother)
  rw [List.inj_on_of_nodup_map hkeys hdetail hsource (hsame.symm.trans (hkey source))]

/-- A start that is filed as an attempt of its own has a fresh key. -/
theorem Reconstructed.fresh_of_filed (h : Reconstructed log)
    (halternating : Alternating ((log ++ [e]).map Signed.unnumbered)) {seq : Nat} {run_id : String} {inputs : Value}
    {fan_out_index : Option Nat} {attempt : Nat}
    (hevent : e.event = .NodeStarted seq run_id node_id inputs fan_out_index attempt)
    (hfiled : (filed_attempts node_id (log ++ [e])).Perm (own_attempts node_id (log ++ [e]))) :
    (attempt, fan_out_index) ∉ started_keys node_id (log.map Signed.unnumbered) := by
  intro hused
  rw [← own_keys] at hused
  obtain ⟨detail, hdetail, hkey⟩ := List.mem_map.mp hused
  have hany : (own_attempts node_id log).any (fun detail => detail.key = (attempt, fan_out_index)) = true :=
    List.any_eq_true.mpr ⟨detail, hdetail, decide_eq_true hkey⟩
  rw [filed_started hevent, if_pos rfl, (h node_id).2, if_pos hany,
    own_attempts_start halternating (by rw [hevent]; rfl), own_attempt, hevent] at hfiled
  simpa using hfiled.length_eq

theorem EndOf.mem_before {attempt : Nat} {inputs : Value} {earlier later : List NodeAttemptDetail}
    (h : EndOf log e task attempt inputs earlier later) :
    .begun attempt task.fan_out_index inputs ∈ own_attempts task.node_id log := by
  rw [h.before]
  exact List.mem_append_right _ List.mem_cons_self

theorem EndOf.mem_after {attempt : Nat} {inputs : Value} {earlier later : List NodeAttemptDetail}
    (h : EndOf log e task attempt inputs earlier later) :
    ended (.begun attempt task.fan_out_index inputs) (some e) ∈ own_attempts task.node_id (log ++ [e]) := by
  rw [h.after]
  exact List.mem_append_right _ List.mem_cons_self

theorem EndOf.mem_others {attempt : Nat} {inputs : Value} {earlier later : List NodeAttemptDetail}
    (h : EndOf log e task attempt inputs earlier later) {detail : NodeAttemptDetail} (hdetail : detail ∈ earlier ∨ detail ∈ later) :
    detail ∈ own_attempts task.node_id log ∧ detail ∈ own_attempts task.node_id (log ++ [e]) := by
  rw [h.before, h.after]
  cases hdetail with
  | inl hearlier => exact ⟨List.mem_append_left _ hearlier, List.mem_append_left _ hearlier⟩
  | inr hlater =>
    exact ⟨List.mem_append_right _ (List.mem_cons_of_mem _ hlater), List.mem_append_right _ (List.mem_cons_of_mem _ hlater)⟩

/-- Where the reconstructions agree on the attempts as their writers ended them, what the event
names is a single attempt. -/
theorem Reconstructed.distinguished (h : Reconstructed log) (halternating : Alternating ((log ++ [e]).map Signed.unnumbered))
    (hwriter : e.writer = .task task)
    (hrecorded : ∀ node_id, recorded_attempts node_id (log ++ [e]) = own_attempts node_id (log ++ [e]))
    (hfiled : ∀ node_id, (filed_attempts node_id (log ++ [e])).Perm (own_attempts node_id (log ++ [e]))) :
    Distinguished (log.map Signed.unnumbered) task e.event := by
  have hturn := (attributed_snoc_iff halternating hwriter fun node_id => (h node_id).1).mp hrecorded
  have hkeys := h.keys_nodup task.node_id
  have hagree := hfiled task.node_id
  obtain ⟨_, _, _, _, hevent⟩ | ⟨_, _, _, hevent⟩ | ⟨_, _, error, _, _, hevent⟩ :=
    halternating.event_cases (d := e) (by simp) hwriter
  · rw [hevent]
    exact h.fresh_of_filed halternating hevent hagree
  · rw [hevent]
    have hchanges := changes_completed hevent
    obtain ⟨attempt, inputs, earlier, later, hend⟩ := halternating.end_of hwriter hchanges.no_start
    rw [filed_completed hevent, if_pos rfl, (h task.node_id).2] at hagree
    -- Another attempt with the index would have been given the outputs as well.
    have hnone : ∀ detail, detail ∈ earlier ∨ detail ∈ later → detail.fan_out_index ≠ task.fan_out_index := by
      intro detail hdetail heq
      obtain ⟨hbefore, hafter⟩ := hend.mem_others hdetail
      have hchanged := changed_eq hkeys (fun other => by split <;> rfl) hagree hbefore hafter rfl
      have houtputs := halternating.not_completed hwriter hchanges.no_start (own_keys log ▸ hkeys) hbefore heq
      rw [if_pos heq] at hchanged
      rw [← hchanged] at houtputs
      cases houtputs
    exact hend.sole_iff.mpr ⟨fun detail hdetail => hnone detail (.inl hdetail), fun detail hdetail => hnone detail (.inr hdetail)⟩
  · rw [hevent] at hturn ⊢
    refine ⟨?_, hturn none rfl⟩
    have hchanges := changes_failed hevent
    obtain ⟨started, inputs, earlier, later, hend⟩ := halternating.end_of hwriter hchanges.no_start
    rw [filed_failed hevent, if_pos rfl, (h task.node_id).2] at hagree
    have hafter := hend.mem_after
    rw [hchanges.ended] at hafter
    have hchanged := changed_eq hkeys (fun other => by split <;> rfl) hagree hend.mem_before hafter rfl
    split at hchanged
    · rename_i hkey
      exact congrArg Prod.snd hkey
    · cases congrArg NodeAttemptDetail.error hchanged

end Filed

section Runs

variable {ctx : RunContext} {behave : Task → Behaviour} {x y : Live}

theorem details_agree_iff_perm (h : Alternating (attempt_log x.log)) : DetailsAgree x ↔
    ∀ log, log.map Signed.unnumbered = attempt_log x.log → ∀ node_id,
      (filed_attempts node_id log).Perm (recorded_attempts node_id log) := by
  constructor
  · intro hagree log hlog node_id
    have hsigns : Signs x log := by
      unfold Signs
      rw [stored_attempts_of_unnumbered h hlog, hlog]
    have hstored : in_memory.stored_events ⟨∅, (∅ : Std.TreeMap String (List StampedEvent)).insert "" (log.map Signed.stamped)⟩ "" =
        log.map Signed.stamped := by simp [in_memory.stored_events]
    exact (same_attempts_iff hstored node_id).mp (hagree log hsigns _ _ node_id hstored)
  · intro hperm signed hsigns s run_id node_id hstored
    rw [same_attempts_iff hstored, ← filed_stored, ← recorded_stored]
    exact hperm _ hsigns node_id

/-- Every log that the store may hold is reconstructed. -/
def LogsReconstructed (x : Live) : Prop := ∀ log, log.map Signed.unnumbered = attempt_log x.log → Reconstructed log

theorem LogsReconstructed.agree (h : LogsReconstructed x) (halternating : Alternating (attempt_log x.log)) :
    DetailsAgree x ∧ AttemptsAttributed x := by
  rw [details_agree_iff_perm halternating, attributed_iff_recorded halternating]
  constructor
  · intro log hlog node_id
    rw [(h log hlog node_id).1, (h log hlog node_id).2]
  · exact fun log hlog node_id => (h log hlog node_id).1

theorem distinguished_set_seq {log : List (Writer × WriteEvent)} {task : Task} {event : WriteEvent} (n : Nat) :
    Distinguished log task (event.set_seq n) ↔ Distinguished log task event := by
  cases event <;> rfl

/-- A move keeps the logs reconstructed where what it writes is distinguished. -/
theorem LogsReconstructed.step (h : LogsReconstructed x) (htranscribed : Transcribed ctx behave x)
    (hafter : Alternating (attempt_log y.log)) {move : Move} (hstep : live_step ctx behave x move = some y)
    (hgood : WritesDistinguished ctx behave x move) : LogsReconstructed y := by
  unfold LogsReconstructed
  obtain ⟨⟨task, event⟩, hwrite, rfl⟩ | ⟨_, hsame⟩ := move_writes htranscribed hstep
  · have hdistinguished := hgood _ hwrite
    rw [attempt_log_write] at hafter ⊢
    cases hattempt : attempt_event event with
    | false =>
      rw [if_neg Bool.false_ne_true, List.append_nil]
      exact h
    | true =>
      rw [hattempt, if_pos rfl] at hafter
      rw [if_pos rfl]
      intro log hlog
      obtain ⟨first, e, rfl, hfirst, hwriter, hevent⟩ := unnumbered_snoc hlog
      refine (h first hfirst).snoc (hlog ▸ hafter) hwriter ?_
      rw [hfirst, ← distinguished_set_seq 0, hevent]
      exact hdistinguished
  · rw [hsame]
    exact h

/-- Where both details are right after a move, what it wrote was distinguished. -/
theorem LogsReconstructed.distinguished (h : LogsReconstructed x) (htranscribed : Transcribed ctx behave x)
    (hafter : Alternating (attempt_log y.log)) {move : Move} (hstep : live_step ctx behave x move = some y)
    (hagree : DetailsAgree y) (hattributed : AttemptsAttributed y) : WritesDistinguished ctx behave x move := by
  rw [details_agree_iff_perm hafter] at hagree
  rw [attributed_iff_recorded hafter] at hattributed
  intro write hwrite
  obtain ⟨⟨task, event⟩, hwrite', rfl⟩ | ⟨hnone, _⟩ := move_writes htranscribed hstep
  · cases hwrite.symm.trans hwrite'
    dsimp only at hafter hagree hattributed ⊢
    rw [attempt_log_write] at hafter hagree hattributed
    cases hattempt : attempt_event event with
    | false =>
      revert hattempt
      cases event <;> simp [attempt_event, Distinguished]
    | true =>
      rw [hattempt, if_pos rfl] at hafter hagree hattributed
      have hlog := unnumbered_of_entry hafter.unnumbered
      have hperm := hagree _ hlog
      have hrecorded := hattributed _ hlog
      obtain ⟨first, e, hsplit, hfirst, hwriter, hevent⟩ := unnumbered_snoc hlog
      rw [hsplit] at hlog hperm hrecorded
      have hdistinguished := (h first hfirst).distinguished (hlog ▸ hafter) hwriter hrecorded
        fun node_id => hrecorded node_id ▸ hperm node_id
      rwa [hfirst, ← distinguished_set_seq 0, hevent] at hdistinguished
  · rw [hnone] at hwrite
    cases hwrite

variable (haccepted : Accepted ctx) {first_seq : Nat} {moves : List Move}
include haccepted

theorem run_logs_reconstructed
    (hgood : transition.Run (live_step ctx behave) (WritesDistinguished ctx behave) (initial_live ctx first_seq) moves x) :
    LogsReconstructed x := by
  refine hgood.invariant (P := fun _ x => LogsReconstructed x) ?_ ?_
  · intro log hlog node_id
    rw [List.map_eq_nil_iff.mp hlog]
    exact ⟨rfl, rfl⟩
  · intro moves x move y hreached h hdistinguished hstep
    have hrun : LiveRun ctx behave first_seq moves x := hreached.mono fun _ _ _ => trivial
    exact h.step (run_transcribed haccepted hrun)
      (run_transcribed haccepted (LiveRun.move hrun hstep)).alternating hstep hdistinguished

/-- The two details are right in every state of an execution exactly if what it writes is
distinguished. -/
theorem details_right_iff (hrun : LiveRun ctx behave first_seq moves x) :
    transition.Throughout (live_step ctx behave) (fun _ _ => True) (initial_live ctx first_seq)
        (fun x => DetailsAgree x ∧ AttemptsAttributed x) moves ↔
      transition.Run (live_step ctx behave) (WritesDistinguished ctx behave) (initial_live ctx first_seq) moves x := by
  have hstart : LogsReconstructed (initial_live ctx first_seq) :=
    @run_logs_reconstructed ctx behave _ haccepted _ _ .nil
  refine (hrun.throughout_iff_good _ (WritesDistinguished ctx behave)
    (hstart.agree (@run_transcribed ctx behave _ haccepted _ _ .nil).alternating) ?_).trans ?_
  · intro moves x move y hgood _ _ hstep
    have hreached : LiveRun ctx behave first_seq moves x := hgood.mono fun _ _ _ => trivial
    have htranscribed := run_transcribed haccepted hreached
    have hafter := (run_transcribed haccepted (LiveRun.move hreached hstep)).alternating
    have hlogs := run_logs_reconstructed haccepted (hgood.mono fun _ _ hallowed => hallowed.2)
    constructor
    · exact fun hright => hlogs.distinguished htranscribed hafter hstep hright.1 hright.2
    · exact fun hdistinguished => (hlogs.step htranscribed hafter hstep hdistinguished).agree hafter
  · exact ⟨fun h => h.mono fun _ _ hallowed => hallowed.2, fun h => h.mono fun _ _ hgood => ⟨trivial, hgood⟩⟩

/-- The two details agree in every state of an execution that writes distinguished events only; and
where they agree throughout and are right, it writes no others. -/
theorem details_agree (hrun : LiveRun ctx behave first_seq moves x) :
    (transition.Run (live_step ctx behave) (WritesDistinguished ctx behave) (initial_live ctx first_seq) moves x →
        transition.Throughout (live_step ctx behave) (fun _ _ => True) (initial_live ctx first_seq) DetailsAgree moves) ∧
      (transition.Throughout (live_step ctx behave) (fun _ _ => True) (initial_live ctx first_seq) DetailsAgree moves →
        transition.Throughout (live_step ctx behave) (fun _ _ => True) (initial_live ctx first_seq) AttemptsAttributed moves →
        transition.Run (live_step ctx behave) (WritesDistinguished ctx behave) (initial_live ctx first_seq) moves x) := by
  have hiff := details_right_iff haccepted hrun
  constructor
  · exact fun hgood taken state hfirst hreached => (hiff.mpr hgood taken state hfirst hreached).1
  · intro hagree hattributed
    exact hiff.mp fun taken state hfirst hreached =>
      ⟨hagree taken state hfirst hreached, hattributed taken state hfirst hreached⟩

end Runs

instance (log : List (Writer × WriteEvent)) (task : Task) : (event : WriteEvent) → Decidable (Distinguished log task event)
  | .NodeStarted .. => inferInstanceAs (Decidable (_ ∉ _))
  | .NodeCompleted .. => inferInstanceAs (Decidable (_ = _))
  | .NodeFailed .. => inferInstanceAs (Decidable (_ ∧ _))
  | .RunStarted .. | .RunCompleted .. | .EdgeEvaluated .. | .Checkpoint .. | .LlmInvocation .. | .LlmStreamChunk ..
  | .ToolInvocation .. | .StepRecorded .. | .Custom .. | .TopologyHint .. => inferInstanceAs (Decidable True)

instance (ctx : RunContext) (behave : Task → Behaviour) (x : Live) (move : Move) :
    Decidable (WritesDistinguished ctx behave x move) :=
  inferInstanceAs (Decidable (∀ write ∈ next_write ctx behave x move, Distinguished (attempt_log x.log) write.1 write.2))

/-- The instances put out nothing. -/
def completing_behaviour (task : Task) : Behaviour where
  timeout_ms := 0
  retry := ⟨1, none⟩
  attempts _ := ⟨[], .ok (if task.node_id = "A" then .array [.null, .null] else .null)⟩

theorem details_agree_sample : ∃ x, LiveRun partial_failure_sample completing_behaviour 1 instances_out_of_turn x ∧
    outlined (some ⟨"S", filed_attempts "S" (signed_log x)⟩) = [(some 0, true, none), (some 1, true, none)] ∧
    transition.Throughout (live_step partial_failure_sample completing_behaviour) (fun _ _ => True)
      (initial_live partial_failure_sample 1) DetailsAgree instances_out_of_turn := by
  have hfold : (instances_out_of_turn.foldlM (fun x move =>
      if WritesDistinguished partial_failure_sample completing_behaviour x move then
        live_step partial_failure_sample completing_behaviour x move
      else none) (initial_live partial_failure_sample 1)).map (fun x =>
        outlined (some ⟨"S", filed_attempts "S" (signed_log x)⟩)) = some [(some 0, true, none), (some 1, true, none)] := by
    decide +kernel
  obtain ⟨x, hmoves, hread⟩ := Option.map_eq_some_iff.mp hfold
  have hgood := transition.run_of_foldlM_checked hmoves
  have hrun : LiveRun partial_failure_sample completing_behaviour 1 instances_out_of_turn x :=
    hgood.mono fun _ _ _ => trivial
  refine ⟨x, hrun, hread, ?_⟩
  exact (details_agree (sample_accepted 50 (by decide +kernel)) hrun).1 hgood

/-- The error of an instance that fails is missing in the store in memory. -/
theorem failed_instance_without_error : Accepted partial_failure_sample ∧ (∀ task, (partial_failure_behaviour task).NoPanic) ∧
    ∃ x, LiveRun partial_failure_sample partial_failure_behaviour 1 instances_in_turn x ∧
      outlined (extract_node_detail ((signed_log x).map Signed.stamped) "S") =
        [(some 0, false, some "fatal: broken"), (some 1, true, none)] ∧
      outlined (some ⟨"S", filed_attempts "S" (signed_log x)⟩) = [(some 0, false, none), (some 1, true, none)] ∧
      ¬ DetailsAgree x := by
  have hfold : (instances_in_turn.foldlM (live_step partial_failure_sample partial_failure_behaviour)
      (initial_live partial_failure_sample 1)).map (fun x =>
        [outlined (extract_node_detail ((signed_log x).map Signed.stamped) "S"),
          outlined (some ⟨"S", filed_attempts "S" (signed_log x)⟩)]) =
        some [[(some 0, false, some "fatal: broken"), (some 1, true, none)],
          [(some 0, false, none), (some 1, true, none)]] := by
    decide +kernel
  obtain ⟨x, hmoves, hread⟩ := Option.map_eq_some_iff.mp hfold
  obtain ⟨hextracted, hrest⟩ := List.cons.inj hread
  have hfiled := (List.cons.inj hrest).1
  have haccepted : Accepted partial_failure_sample := sample_accepted 50 (by decide +kernel)
  have hrun : LiveRun partial_failure_sample partial_failure_behaviour 1 instances_in_turn x :=
    transition.run_of_foldlM hmoves
  have halternating := (run_transcribed haccepted hrun).alternating
  refine ⟨haccepted, partial_failure_no_panic, x, hrun, hextracted, hfiled, fun hagree => ?_⟩
  rw [details_agree_iff_perm halternating] at hagree
  have hperm := hagree (signed_log x) (unnumbered_of_entry halternating.unnumbered) "S"
  have hrecorded : outlined (extract_node_detail ((signed_log x).map Signed.stamped) "S") =
      outlined (some ⟨"S", recorded_attempts "S" (signed_log x)⟩) := by
    unfold extract_node_detail
    dsimp only
    rw [← recorded_attempts]
    cases recorded_attempts "S" (signed_log x) <;> rfl
  have houtlines := hperm.map fun attempt => (attempt.fan_out_index, attempt.outputs.isSome, attempt.error)
  rw [hrecorded] at hextracted
  rw [show List.map _ (filed_attempts "S" _) = _ from hfiled, show List.map _ (recorded_attempts "S" _) = _ from hextracted]
    at houtlines
  exact absurd houtlines (by decide)

end flow_engine.executor
