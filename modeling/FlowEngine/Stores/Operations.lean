import FlowEngine.Lib.Faults
import FlowEngine.Stores.File
import FlowEngine.Stores.SeaOrm

open program (Program Semantics perform serve serve_bind serve_perform serve_pure serve_mapM)

namespace flow_engine

namespace file_store.calls

/-- What is on disk: the files of the runs, and the temporary files next to them. -/
structure Files extends FileRunStore where
  temp : Std.TreeMap String String

/-- The operations of the file system and of `serde_json` that `write_batch` calls. -/
inductive FileOp where
  | create_dir_all (run_id : String)
  | read_to_string (run_id : String)
  | from_str (line : String)
  | create (run_id : String)
  | to_string (event : StampedEvent)
  | writeln (run_id line : String)
  | sync_all (run_id : String)
  | rename (run_id : String)

abbrev FileAnswer : FileOp → Type
  | .read_to_string _ => Option String
  | .from_str _ => StampedEvent
  | .to_string _ => String
  | _ => Unit

/-- What an operation does where nothing goes wrong. Only the last one changes a file that is read. -/
def apply (serde : Serde) : Semantics Files FileOp FileAnswer
  | s, .create_dir_all run_id => .ok ((), { s with runs := s.runs.insertIfNew run_id none })
  | s, .read_to_string run_id => .ok (s.runs[run_id]?.join, s)
  | s, .from_str line =>
    match serde.from_str line with
    | .ok event => .ok (event, s)
    | .error e => .error ("failed to deserialize event: " ++ e)
  | s, .create run_id => .ok ((), { s with temp := s.temp.insert run_id "" })
  | s, .to_string event =>
    match serde.to_string event with
    | .ok line => .ok (line, s)
    | .error e => .error ("failed to serialize event: " ++ e)
  | s, .writeln run_id line => .ok ((), { s with temp := s.temp.insert run_id (s.temp.getD run_id "" ++ line ++ "\n") })
  | s, .sync_all _ => .ok ((), s)
  | s, .rename run_id =>
    match s.temp[run_id]? with
    | some content => .ok ((), ⟨⟨s.runs.insert run_id (some content)⟩, s.temp.erase run_id⟩)
    | none => .error "failed to rename temp file: no such file"

abbrev call (op : FileOp) : Program FileOp FileAnswer (FileAnswer op) := perform op

/-- `FileRunStore::read_events`. A file that does not exist is not read. -/
def read_events (run_id : String) : Program FileOp FileAnswer (List StampedEvent) := do
  match ← call (.read_to_string run_id) with
  | none => return []
  | some content =>
    let events ← ((text.lines content).filter fun line => !line.toList.all is_whitespace).mapM fun line => call (.from_str line)
    return keyed.sort_by_key StampedEvent.seq events

def write_event (run_id : String) (event : StampedEvent) : Program FileOp FileAnswer Unit := do
  let line ← call (.to_string event)
  call (.writeln run_id line)

/-- Write existing and new events to the temporary file. -/
def write_temp (run_id : String) (existing deduped : List StampedEvent) : Program FileOp FileAnswer Unit := do
  call (.create run_id)
  existing.forM (write_event run_id)
  deduped.forM (write_event run_id)
  call (.sync_all run_id)

/-- One pass of the loop over the runs of a batch. -/
def write_run (group : String × List StampedEvent) : Program FileOp FileAnswer Unit := do
  let (run_id, new_events) := group
  call (.create_dir_all run_id)
  let existing ← read_events run_id
  let deduped := keyed.fresh StampedEvent.seq existing new_events
  if deduped.isEmpty then return
  write_temp run_id existing deduped
  call (.rename run_id)

/-- `FileRunStore::write_batch`, on the groups of a batch in some order. -/
def write_batch (groups : List (String × List StampedEvent)) : Program FileOp FileAnswer Unit := groups.forM write_run

section Serve

variable {serde : Serde} {s : Files}

theorem serve_read_events (run_id : String) :
    serve (apply serde) (read_events run_id) s = (file_store.read_events serde s.toFileRunStore run_id).map fun log => (log, s) := by
  have hparse : ∀ lines : List String, serve (apply serde) (lines.mapM fun line => call (.from_str line)) s =
      (lines.mapM fun line => (serde.from_str line).mapError ("failed to deserialize event: " ++ ·)).map
        fun events => (events, s) := by
    intro lines
    refine serve_mapM fun line _ => ?_
    rw [serve_perform, apply]
    cases serde.from_str line with
    | error e => rfl
    | ok event => rfl
  have hmessage : ∀ lines : List String,
      (lines.mapM fun line => (serde.from_str line).mapError ("failed to deserialize event: " ++ ·)) =
        (lines.mapM serde.from_str).mapError ("failed to deserialize event: " ++ ·) := by
    intro lines
    induction lines with
    | nil => rfl
    | cons line rest ih =>
      rw [List.mapM_cons, List.mapM_cons, ih]
      cases serde.from_str line with
      | error e => rfl
      | ok event =>
        cases rest.mapM serde.from_str with
        | error e => rfl
        | ok events => rfl
  rw [read_events, serve_bind, serve_perform]
  simp only [apply, file_store.read_events]
  cases s.runs[run_id]? with
  | none => rfl
  | some file =>
    cases file with
    | none => rfl
    | some content =>
      change serve (apply serde) (_ >>= fun events => pure (keyed.sort_by_key StampedEvent.seq events)) s = _
      rw [serve_bind, hparse, hmessage]
      cases hparsed : ((text.lines content).filter fun line => !line.toList.all is_whitespace).mapM serde.from_str with
      | error e =>
        simp only [hparsed]
        rfl
      | ok events =>
        simp only [hparsed]
        rfl

theorem of_lines_cons (line : String) (rest : List String) :
    text.of_lines (line :: rest) = line ++ "\n" ++ text.of_lines rest := by
  apply String.toList_inj.mp
  simp [text.of_lines]

/-- The lines of some events come to the end of a temporary file, unless one cannot be written. -/
theorem serve_write_events {run_id content : String} {events : List StampedEvent} (htemp : s.temp[run_id]? = some content) :
    match events.mapM serde.to_string with
    | .ok lines => ∃ last, serve (apply serde) (events.forM (write_event run_id)) s = .ok ((), last) ∧
        last.toFileRunStore = s.toFileRunStore ∧ last.temp[run_id]? = some (content ++ text.of_lines lines)
    | .error e => serve (apply serde) (events.forM (write_event run_id)) s = .error ("failed to serialize event: " ++ e) := by
  induction events generalizing s content with
  | nil => exact ⟨s, rfl, rfl, by simpa [text.of_lines] using htemp⟩
  | cons event rest ih =>
    have hloop : serve (apply serde) ((event :: rest).forM (write_event run_id)) s =
        serve (apply serde) (write_event run_id event) s >>= fun ended =>
          serve (apply serde) (rest.forM (write_event run_id)) ended.2 := serve_bind _ _ s
    rw [List.mapM_cons, hloop, write_event, serve_bind, serve_perform]
    simp only [apply]
    cases hline : serde.to_string event with
    | error e => rfl
    | ok line =>
      have hnext := @ih ⟨s.toFileRunStore, s.temp.insert run_id (s.temp.getD run_id "" ++ line ++ "\n")⟩
        (content ++ line ++ "\n") (by simp [Std.TreeMap.getD_eq_getD_getElem?, htemp])
      cases hlines : rest.mapM serde.to_string with
      | error e =>
        rw [hlines] at hnext
        exact hnext
      | ok lines =>
        rw [hlines] at hnext
        obtain ⟨last, hlast, hruns, hcontent⟩ := hnext
        refine ⟨last, hlast, hruns, ?_⟩
        rw [hcontent, of_lines_cons, String.append_assoc, String.append_assoc, String.append_assoc]

theorem write_temp_eq (run_id : String) (existing deduped : List StampedEvent) :
    write_temp run_id existing deduped = call (.create run_id) >>= fun _ =>
      (existing ++ deduped).forM (write_event run_id) >>= fun _ => call (.sync_all run_id) := by
  have hloops : (existing ++ deduped).forM (write_event run_id) =
      existing.forM (write_event run_id) >>= fun _ => deduped.forM (write_event run_id) := List.forM_append
  simp only [write_temp, hloops, bind_assoc]

/-- The temporary file has the lines of all events in the end, unless one cannot be written. -/
theorem serve_write_temp (run_id : String) (existing deduped : List StampedEvent) :
    match (existing ++ deduped).mapM serde.to_string with
    | .ok lines => ∃ last, serve (apply serde) (write_temp run_id existing deduped) s = .ok ((), last) ∧
        last.toFileRunStore = s.toFileRunStore ∧ last.temp[run_id]? = some (text.of_lines lines)
    | .error e => serve (apply serde) (write_temp run_id existing deduped) s = .error ("failed to serialize event: " ++ e) := by
  have hcreated : (s.temp.insert run_id "")[run_id]? = some "" := by simp
  have hloop := @serve_write_events serde ⟨s.toFileRunStore, s.temp.insert run_id ""⟩ run_id "" (existing ++ deduped) hcreated
  have hserve : serve (apply serde) (write_temp run_id existing deduped) s =
      serve (apply serde) ((existing ++ deduped).forM (write_event run_id)) ⟨s.toFileRunStore, s.temp.insert run_id ""⟩ >>=
        fun ended => .ok ((), ended.2) := by
    rw [write_temp_eq, serve_bind]
    exact serve_bind _ _ _
  rw [hserve]
  cases hlines : (existing ++ deduped).mapM serde.to_string with
  | error e =>
    rw [hlines] at hloop
    simp only at hloop ⊢
    rw [hloop]
    rfl
  | ok lines =>
    rw [hlines] at hloop
    obtain ⟨last, hlast, hruns, hcontent⟩ := hloop
    refine ⟨last, ?_, hruns, ?_⟩
    · rw [hlast]
      rfl
    · rw [hcontent, String.empty_append]

/-- Where every operation is served, the loop over the runs does what the store is said to do. -/
theorem serve_write_run (group : String × List StampedEvent) :
    (serve (apply serde) (write_run group) s).map (fun ended => ended.2.toFileRunStore) =
      file_store.write_run serde s.toFileRunStore group := by
  obtain ⟨run_id, new_events⟩ := group
  rw [write_run, serve_bind]
  change ((serve (apply serde) (read_events run_id >>= _) _).map _ : Except String FileRunStore) = _
  rw [serve_bind, serve_read_events, file_store.write_run]
  cases hread : file_store.read_events serde ⟨s.runs.insertIfNew run_id none⟩ run_id with
  | error e => rfl
  | ok existing =>
    by_cases hempty : (keyed.fresh StampedEvent.seq existing new_events).isEmpty = true
    · simp only [Except.map, bind, Except.bind, hempty, if_true]
      rfl
    · have htemp := @serve_write_temp serde ⟨⟨s.runs.insertIfNew run_id none⟩, s.temp⟩ run_id existing
        (keyed.fresh StampedEvent.seq existing new_events)
      simp only [Except.map, bind, Except.bind, hempty]
      change (serve (apply serde) (write_temp run_id existing _ >>= fun _ => call (.rename run_id)) _).map
        (fun ended => ended.2.toFileRunStore) = _
      rw [serve_bind]
      cases hlines : (existing ++ keyed.fresh StampedEvent.seq existing new_events).mapM serde.to_string with
      | error e =>
        rw [hlines] at htemp
        simp only at htemp
        rw [htemp]
        rfl
      | ok lines =>
        rw [hlines] at htemp
        obtain ⟨last, hlast, hruns, hcontent⟩ := htemp
        rw [hlast]
        simp only [bind, Except.bind, serve_perform, apply, hcontent, hruns]
        rfl

theorem serve_write_batch (groups : List (String × List StampedEvent)) :
    (serve (apply serde) (write_batch groups) s).map (fun ended => ended.2.toFileRunStore) =
      groups.foldlM (file_store.write_run serde) s.toFileRunStore := by
  induction groups generalizing s with
  | nil => rfl
  | cons group rest ih =>
    change (serve (apply serde) (write_run group >>= fun _ => write_batch rest) s).map _ = _
    rw [serve_bind, List.foldlM_cons, ← serve_write_run]
    cases serve (apply serde) (write_run group) s with
    | error e => rfl
    | ok ended => exact ih

end Serve

end file_store.calls

namespace seaorm.calls

/-- The operations of the database and of `serde_json` that `write_batch` calls. -/
inductive RowOp where
  | to_value (event : StampedEvent)
  | insert (row : RunEvent)

abbrev RowAnswer : RowOp → Type
  | .to_value _ => Value
  | .insert _ => Unit

/-- Whether an insert of the row does nothing. -/
def conflicts (s : SeaOrmRunStore) (row : RunEvent) : Bool :=
  s.run_event.any fun old => old.run_id = row.run_id && old.seq = row.seq

/-- What an operation does where nothing goes wrong. There is no transaction around them. -/
def apply (serde : Serde) : Semantics SeaOrmRunStore RowOp RowAnswer
  | s, .to_value event =>
    match serde.to_value event with
    | .ok payload => .ok (payload, s)
    | .error e => .error e
  | s, .insert row => if conflicts s row then .ok ((), s) else .ok ((), ⟨s.run_event ++ [row]⟩)

abbrev call (op : RowOp) : Program RowOp RowAnswer (RowAnswer op) := perform op

/-- One pass of the loop over the events of a batch. -/
def write_event (event : StampedEvent) : Program RowOp RowAnswer Unit := do
  let payload ← call (.to_value event)
  call (.insert ⟨event.run_id, as_i64 event.seq, event_type event.event, payload⟩)

/-- `SeaOrmRunStore::write_batch`. -/
def write_batch (events : List StampedEvent) : Program RowOp RowAnswer Unit := events.forM write_event

theorem serve_write_event (serde : Serde) (s : SeaOrmRunStore) (event : StampedEvent) :
    (serve (apply serde) (write_event event) s).map (fun ended => ended.2) = seaorm.insert serde s event := by
  rw [write_event, serve_bind, serve_perform, seaorm.insert]
  generalize as_i64 event.seq = seq
  simp only [apply]
  cases serde.to_value event with
  | error e => rfl
  | ok payload =>
    simp only [bind, Except.bind, serve_perform, apply, conflicts]
    split
    · rename_i hany
      simp only [hany, if_true]
      rfl
    · rename_i hany
      simp only [hany]
      rfl

/-- Where every operation is served, the loop over the events does what the store is said to do. -/
theorem serve_write_batch (serde : Serde) (s : SeaOrmRunStore) (events : List StampedEvent) :
    (serve (apply serde) (write_batch events) s).map (fun ended => ended.2) = seaorm.write_batch serde s events := by
  induction events generalizing s with
  | nil => rfl
  | cons event rest ih =>
    change (serve (apply serde) (write_event event >>= fun _ => write_batch rest) s).map _ = _
    rw [serve_bind, seaorm.write_batch, List.foldlM_cons, ← serve_write_event]
    cases serve (apply serde) (write_event event) s with
    | error e => rfl
    | ok ended => exact ih ended.2

end seaorm.calls

end flow_engine
