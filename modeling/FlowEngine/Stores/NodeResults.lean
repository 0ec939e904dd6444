import FlowEngine.Stores.Reconstruct
import FlowEngine.Executor.Tasks.Scripts

namespace flow_engine.reconstruct

open executor (event_node is_start ending)

/-- The status and the error reported for a node. -/
def reported (results : List NodeRunResult) (node_id : String) : Option (String × Option String) :=
  (results.find? fun entry => entry.node_id = node_id).map fun entry => (entry.status, entry.error)

/-- How the tasks of a node ended, oldest first. -/
def endings (events : List WriteEvent) (node_id : String) : List (Option String) :=
  events.filterMap fun event => if event_node event = some node_id then ending event else none

/-- The status after a node's last terminal event. -/
def status_after : Option (Option String) → String
  | none => "running"
  | some none => "completed"
  | some (some _) => "failed"

/-- The node's first terminal event comes after a start of the node. -/
def StartedFirst (events : List WriteEvent) (node_id : String) : Prop :=
  ∀ before event after, events = before ++ event :: after → event_node event = some node_id →
    (ending event).isSome = true → ∃ start ∈ before, event_node start = some node_id ∧ is_start start = true

section Results

variable {results : List NodeRunResult} {node_id : String} {f : NodeRunResult → NodeRunResult}

theorem reported_update (hid : ∀ entry, (f entry).node_id = entry.node_id) (n : String) :
    reported (update_node results node_id f) n = if node_id = n then
      (results.find? fun entry => entry.node_id = n).map fun entry => ((f entry).status, (f entry).error)
    else reported results n := by
  have hsame : (fun entry : NodeRunResult => decide (entry.node_id = n)) ∘
      (fun entry => if entry.node_id = node_id then f entry else entry) = fun entry => decide (entry.node_id = n) := by
    funext entry
    by_cases hentry : entry.node_id = node_id <;> simp [hentry, hid]
  unfold reported update_node
  rw [List.find?_map, hsame, Option.map_map]
  cases hfind : results.find? fun entry => entry.node_id = n with
  | none => split <;> rfl
  | some entry =>
    have hentry : entry.node_id = n := by simpa using List.find?_some hfind
    by_cases hn : node_id = n
    · simp [hentry, hn]
    · simp [hentry, hn, Ne.symm hn]

theorem reported_or_insert (n : String) : reported (or_insert_node results node_id) n =
    if node_id = n then some ((reported results n).getD ("running", none)) else reported results n := by
  unfold or_insert_node
  by_cases hany : results.any fun entry => entry.node_id = node_id
  · rw [if_pos hany]
    by_cases hn : node_id = n
    · subst hn
      obtain ⟨entry, hmem, hentry⟩ := List.any_eq_true.mp hany
      obtain ⟨found, hfound⟩ := Option.isSome_iff_exists.mp
        (List.find?_isSome.mpr ⟨entry, hmem, hentry⟩ : (results.find? fun entry => entry.node_id = node_id).isSome)
      simp [reported, hfound]
    · rw [if_neg hn]
  · rw [if_neg hany]
    have hnone : results.find? (fun entry => entry.node_id = node_id) = none := by
      rw [List.find?_eq_none]
      intro entry hmem hentry
      exact hany (List.any_eq_true.mpr ⟨entry, hmem, hentry⟩)
    by_cases hn : node_id = n
    · subst hn
      simp [reported, List.find?_append, hnone]
    · simp [reported, List.find?_append, hn]

end Results

section Keys

variable (results : List NodeRunResult) (node_id : String)

theorem update_node_ids {f : NodeRunResult → NodeRunResult} (hid : ∀ entry, (f entry).node_id = entry.node_id) :
    (update_node results node_id f).map NodeRunResult.node_id = results.map NodeRunResult.node_id := by
  unfold update_node
  rw [List.map_map]
  apply List.map_congr_left
  intro entry _
  by_cases hentry : entry.node_id = node_id <;> simp [hentry, hid]

theorem or_insert_node_nodup (h : (results.map NodeRunResult.node_id).Nodup) :
    ((or_insert_node results node_id).map NodeRunResult.node_id).Nodup := by
  unfold or_insert_node
  split
  · exact h
  · rename_i hany
    rw [List.map_append, List.nodup_append]
    refine ⟨h, List.nodup_singleton _, ?_⟩
    intro n hn other hother heq
    obtain ⟨entry, hmem, hentry⟩ := List.mem_map.mp hn
    rw [List.mem_singleton.mp hother] at heq
    exact hany (List.any_eq_true.mpr ⟨entry, hmem, by simp [hentry, heq]⟩)

end Keys

/-- A node has one entry in the results. -/
theorem extract_node_results_nodup (events : List StampedEvent) :
    ((extract_node_results events).map NodeRunResult.node_id).Nodup := by
  induction events using List.reverseRecOn with
  | nil => exact List.nodup_nil
  | append_singleton events event ih =>
    rw [extract_node_results, List.foldl_append, List.foldl_cons, List.foldl_nil, ← extract_node_results]
    generalize extract_node_results events = results at ih ⊢
    unfold apply_node_event
    split
    · rw [update_node_ids]
      · exact or_insert_node_nodup _ _ ih
      · exact fun _ => rfl
    · rw [update_node_ids]
      · exact ih
      · exact fun _ => rfl
    · rw [update_node_ids]
      · exact ih
      · intro entry
        split <;> rfl
    · exact ih

/-- What an event changes in the report of a node. -/
def report_event (node_id : String) (report : Option (String × Option String)) (event : WriteEvent) :
    Option (String × Option String) :=
  if event_node event = some node_id then
    if is_start event then some (report.getD ("running", none))
    else match ending event with
      | none => report
      | some none => report.map fun r => ("completed", r.2)
      | some (some error) => report.map fun _ => ("failed", some error)
  else report

theorem reported_apply (results : List NodeRunResult) (event : StampedEvent) (n : String) :
    reported (apply_node_event results event) n = report_event n (reported results n) event.event := by
  unfold apply_node_event report_event
  cases event.event with
  | NodeStarted seq run_id node_id inputs fan_out_index attempt =>
    change _ = if some node_id = some n then _ else _
    refine (reported_update ?_ n).trans ?_
    · exact fun _ => rfl
    have hinsert := @reported_or_insert results node_id n
    by_cases hn : node_id = n
    · rw [if_pos hn] at hinsert ⊢
      rw [if_pos (congrArg some hn)]
      exact hinsert
    · rw [if_neg hn] at hinsert ⊢
      rw [if_neg fun heq => hn (Option.some.inj heq)]
      exact hinsert
  | NodeCompleted seq run_id node_id outputs fan_out_index =>
    change _ = if some node_id = some n then _ else _
    refine (reported_update ?_ n).trans ?_
    · exact fun _ => rfl
    by_cases hn : node_id = n
    · rw [if_pos hn, if_pos (congrArg some hn), reported]
      cases results.find? fun entry => entry.node_id = n <;> rfl
    · rw [if_neg hn, if_neg fun heq => hn (Option.some.inj heq)]
  | NodeFailed seq run_id node_id error will_retry attempt =>
    change _ = if some node_id = some n then _ else _
    refine (reported_update ?_ n).trans ?_
    · intro entry
      cases will_retry <;> rfl
    by_cases hn : node_id = n
    · rw [if_pos hn, if_pos (congrArg some hn), reported]
      cases will_retry <;> cases results.find? fun entry => entry.node_id = n <;> rfl
    · rw [if_neg hn, if_neg fun heq => hn (Option.some.inj heq)]
  | _ => simp [event_node, is_start, ending]

/-- The start or the end of an attempt. -/
def attempt_event : WriteEvent → Bool
  | .NodeStarted .. | .NodeCompleted .. | .NodeFailed .. => true
  | _ => false

theorem report_event_other {n : String} {event : WriteEvent} (h : attempt_event event = false)
    (report : Option (String × Option String)) : report_event n report event = report := by
  cases event <;> simp_all [attempt_event, report_event, is_start, ending]

/-- The report of a node comes from the starts and ends of attempts alone. -/
theorem reported_eq_foldl (events : List StampedEvent) (n : String) :
    reported (extract_node_results events) n =
      ((events.map StampedEvent.event).filter attempt_event).foldl (report_event n) none := by
  suffices h : ∀ results, reported (events.foldl apply_node_event results) n =
      ((events.map StampedEvent.event).filter attempt_event).foldl (report_event n) (reported results n) from h []
  induction events with
  | nil => exact fun _ => rfl
  | cons event rest ih =>
    intro results
    rw [List.foldl_cons, ih, reported_apply, List.map_cons]
    cases hattempt : attempt_event event.event with
    | true => rw [List.filter_cons_of_pos hattempt, List.foldl_cons]
    | false => rw [List.filter_cons_of_neg (by simp [hattempt]), report_event_other hattempt]

theorem foldl_report_filter (events : List WriteEvent) (n : String) (report : Option (String × Option String)) :
    (events.filter attempt_event).foldl (report_event n) report = events.foldl (report_event n) report := by
  induction events generalizing report with
  | nil => rfl
  | cons event rest ih =>
    cases hattempt : attempt_event event with
    | true => rw [List.filter_cons_of_pos hattempt, List.foldl_cons, List.foldl_cons, ih]
    | false =>
      rw [List.filter_cons_of_neg (by simp [hattempt]), List.foldl_cons, report_event_other hattempt, ih]

section Report

variable {events : List WriteEvent} {event : WriteEvent} {n : String}

theorem StartedFirst.init (h : StartedFirst (events ++ [event]) n) : StartedFirst events n := by
  intro before middle after hsplit
  exact h before middle (after ++ [event]) (by rw [hsplit]; simp)

/-- A node that has not been started has not ended. -/
theorem StartedFirst.endings_eq_nil (h : StartedFirst events n)
    (hnone : ∀ start ∈ events, event_node start = some n → is_start start = false) : endings events n = [] := by
  unfold endings
  rw [List.filterMap_eq_nil_iff]
  intro event hevent
  by_cases hnode : event_node event = some n
  · rw [if_pos hnode]
    cases hending : ending event with
    | none => rfl
    | some how =>
      obtain ⟨before, after, hsplit⟩ := List.append_of_mem hevent
      obtain ⟨start, hmem, hstart_node, hstart⟩ := h before event after hsplit hnode (by rw [hending]; rfl)
      rw [hnone start (hsplit ▸ List.mem_append_left _ hmem) hstart_node] at hstart
      cases hstart
  · rw [if_neg hnode]

theorem endings_snoc (events : List WriteEvent) (event : WriteEvent) (n : String) :
    endings (events ++ [event]) n =
      endings events n ++ (if event_node event = some n then ending event else none).toList := by
  unfold endings
  rw [List.filterMap_append]
  congr 1

end Report

theorem ending_of_is_start {event : WriteEvent} (h : is_start event = true) : ending event = none := by
  cases event with
  | NodeStarted => rfl
  | _ => cases h

/-- The report of a started node tells its last terminal event and its last error. -/
theorem report_of_started {events : List WriteEvent} {n : String} (hstarted : StartedFirst events n) :
    events.foldl (report_event n) none =
      if ∃ start ∈ events, event_node start = some n ∧ is_start start = true then
        some (status_after (endings events n).getLast?, ((endings events n).filterMap id).getLast?)
      else none := by
  induction events using List.reverseRecOn with
  | nil => simp
  | append_singleton events event ih =>
    rw [List.foldl_append, ih hstarted.init, endings_snoc, List.foldl_cons, List.foldl_nil]
    by_cases hnode : event_node event = some n
    · by_cases hstart : is_start event = true
      · have hsome : ∃ start ∈ events ++ [event], event_node start = some n ∧ is_start start = true :=
          ⟨event, List.mem_append_right _ (List.mem_singleton_self _), hnode, hstart⟩
        rw [if_pos hsome, report_event, if_pos hnode, if_pos hstart, if_pos hnode, ending_of_is_start hstart]
        split
        · simp
        · rename_i hnone
          have hfirst : ∀ start ∈ events, event_node start = some n → is_start start = false := by
            intro start hmem hstart_node
            by_contra hfalse
            exact hnone ⟨start, hmem, hstart_node, by simpa using hfalse⟩
          rw [hstarted.init.endings_eq_nil hfirst]
          rfl
      · have hsame : (∃ start ∈ events ++ [event], event_node start = some n ∧ is_start start = true) ↔
            ∃ start ∈ events, event_node start = some n ∧ is_start start = true := by
          simp [hstart]
        rw [report_event, if_pos hnode, if_neg hstart, if_pos hnode]
        cases hending : ending event with
        | none => simp only [hsame, Option.toList_none, List.append_nil]
        | some how =>
          obtain ⟨start, hmem, hearlier⟩ := hstarted events event [] rfl hnode (by rw [hending]; rfl)
          have hsome : ∃ start ∈ events, event_node start = some n ∧ is_start start = true := ⟨start, hmem, hearlier⟩
          rw [if_pos hsome, if_pos (hsame.mpr hsome)]
          cases how <;> simp [status_after]
    · have hsame : (∃ start ∈ events ++ [event], event_node start = some n ∧ is_start start = true) ↔
          ∃ start ∈ events, event_node start = some n ∧ is_start start = true := by
        simp [hnode]
      rw [report_event, if_neg hnode, if_neg hnode]
      simp only [hsame, Option.toList_none, List.append_nil]

end flow_engine.reconstruct
