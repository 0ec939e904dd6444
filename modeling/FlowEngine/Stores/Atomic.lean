import FlowEngine.Lib.Fallible
import FlowEngine.Stores.Agreement
import FlowEngine.Stores.Operations

open program (Program Ends Calls applied calls_perform calls_mapM calls_forM exists_ends_of_map)

namespace flow_engine

/-- `serde_json` writes an event into one line that is not blank. -/
def Serde.WritesLines (serde : Serde) : Prop :=
  ∀ event line, serde.to_string event = .ok line → text.OneLine line ∧ line.toList.all file_store.is_whitespace = false

/-- `serde_json` reads the values it makes of some events. -/
def Serde.ReadsValues (serde : Serde) (events : List StampedEvent) : Prop :=
  ∀ event ∈ events, ∀ payload, serde.to_value event = .ok payload → ∃ read, serde.from_value payload = .ok read

namespace file_store.calls

variable {serde : Serde} {s last : Files} {effects : List FileOp}

/-- Every operation but the one that replaces the file of a run. -/
def Quiet (op : FileOp) : Prop := ∀ run_id, op ≠ .rename run_id

theorem calls_read_events (run_id : String) : Calls Quiet (read_events run_id) := by
  refine (calls_perform fun _ hop => by cases hop).bind fun content => ?_
  cases content with
  | none => trivial
  | some content =>
    have hlines : ∀ lines : List String, Calls Quiet (lines.mapM fun line => call (.from_str line)) :=
      fun lines => calls_mapM fun _ _ => calls_perform fun _ hop => by cases hop
    exact (hlines _).bind fun _ => trivial

theorem calls_write_temp (run_id : String) (existing deduped : List StampedEvent) :
    Calls Quiet (write_temp run_id existing deduped) := by
  have hevent : ∀ event, Calls Quiet (write_event run_id event) :=
    fun event => (calls_perform fun _ hop => by cases hop).bind fun _ => calls_perform fun _ hop => by cases hop
  rw [write_temp_eq]
  refine (calls_perform fun _ hop => by cases hop).bind fun _ => ?_
  exact (calls_forM fun event _ => hevent event).bind fun _ => calls_perform fun _ hop => by cases hop

/-- The content of the file of a run. -/
def file (s : FileRunStore) (run_id : String) : Option String := s.runs[run_id]?.join

/-- What is read from a file. -/
def content_events (serde : Serde) : Option String → Except String (List StampedEvent)
  | some content =>
    match ((text.lines content).filter fun line => !line.toList.all is_whitespace).mapM serde.from_str with
    | .ok events => .ok (keyed.sort_by_key StampedEvent.seq events)
    | .error e => .error ("failed to deserialize event: " ++ e)
  | none => .ok []

/-- Reading a run depends on its file alone. -/
theorem read_events_congr {first second : FileRunStore} {run_id : String} (h : file first run_id = file second run_id) :
    file_store.read_events serde first run_id = file_store.read_events serde second run_id := by
  have hread : ∀ s : FileRunStore, file_store.read_events serde s run_id = content_events serde (file s run_id) := by
    intro s
    unfold file_store.read_events file content_events
    cases s.runs[run_id]? with
    | none => rfl
    | some content =>
      cases content with
      | none => rfl
      | some content => rfl
  rw [hread first, hread second, h]

theorem file_create_dir (s : FileRunStore) (run_id other : String) :
    file ⟨s.runs.insertIfNew run_id none⟩ other = file s other :=
  create_dir_join s run_id other

/-- Such an operation changes no file of a run. -/
theorem Quiet.file_applied {op : FileOp} (h : Quiet op) (s : Files) (run_id : String) :
    file (applied (apply serde) s op).toFileRunStore run_id = file s.toFileRunStore run_id := by
  cases op with
  | create_dir_all created => exact file_create_dir _ created run_id
  | from_str line =>
    simp only [applied, apply]
    cases serde.from_str line with
    | error e => rfl
    | ok event => rfl
  | to_string event =>
    simp only [applied, apply]
    cases serde.to_string event with
    | error e => rfl
    | ok line => rfl
  | rename renamed => exact absurd rfl (h renamed)
  | _ => rfl

/-- Where no file was replaced all files are as they were. -/
theorem file_last {α : Type} {p : Program FileOp FileAnswer α} {result : Except String α}
    (h : Ends (apply serde) p s effects result last) (hquiet : ∀ op ∈ effects, Quiet op) (run_id : String) :
    file last.toFileRunStore run_id = file s.toFileRunStore run_id := by
  rw [h.last_eq]
  clear h
  induction effects generalizing s with
  | nil => rfl
  | cons op rest ih =>
    rw [List.foldl_cons, ih fun other hmem => hquiet other (List.mem_cons_of_mem _ hmem)]
    exact (hquiet op List.mem_cons_self).file_applied s run_id

/-- The file of a run has been replaced by one with more events. -/
structure Replaced (serde : Serde) (s : Files) (effects : List FileOp) (last : Files) (run_id : String) : Prop where
  renamed : FileOp.rename run_id ∈ effects
  longer : ∃ existing lines, file_store.read_events serde s.toFileRunStore run_id = .ok existing ∧
    existing.length < lines.length ∧ (∀ line ∈ lines, ∃ event, serde.to_string event = .ok line) ∧
    file last.toFileRunStore run_id = some (text.of_lines lines)

/-- Renaming comes last: the file has all events then. -/
theorem replace_ended {run_id : String} {existing deduped : List StampedEvent} {result : Except String Unit}
    (h : Ends (apply serde) (write_temp run_id existing deduped >>= fun _ => call (.rename run_id)) s effects result last) :
    (∀ op ∈ effects, Quiet op) ∨ ∃ lines, (existing ++ deduped).mapM serde.to_string = .ok lines ∧
      FileOp.rename run_id ∈ effects ∧ last.toFileRunStore = ⟨s.runs.insert run_id (some (text.of_lines lines))⟩ := by
  obtain ⟨_, _, hended⟩ | ⟨_, mid, first, second, htemp, hrename, rfl⟩ := h.of_bind
  · exact .inl (hended.effects_called (calls_write_temp _ _ _))
  have hfirst := htemp.effects_called (calls_write_temp run_id existing deduped)
  have hserved := @serve_write_temp serde s run_id existing deduped
  rw [htemp.served_of_ok] at hserved
  cases hlines : (existing ++ deduped).mapM serde.to_string with
  | error e =>
    rw [hlines] at hserved
    cases hserved
  | ok lines =>
    rw [hlines] at hserved
    obtain ⟨_, heq, hruns, hcontent⟩ := hserved
    cases heq
    have hrenamed : apply serde mid (.rename run_id) =
        .ok ((), ⟨⟨mid.runs.insert run_id (some (text.of_lines lines))⟩, mid.temp.erase run_id⟩) := by
      simp only [apply, hcontent]
    have hlast : ∀ after : Files, (⟨⟨mid.runs.insert run_id (some (text.of_lines lines))⟩, mid.temp.erase run_id⟩ : Files) = after →
        after.toFileRunStore = ⟨s.runs.insert run_id (some (text.of_lines lines))⟩ := by
      rintro _ rfl
      rw [hruns]
    cases hrename with
    | served happly hrest =>
      rw [hrenamed] at happly
      cases happly
      cases hrest
      exact .inr ⟨lines, rfl, by simp, hlast _ rfl⟩
    | refused happly =>
      rw [hrenamed] at happly
      cases happly
    | failed => exact .inl (by simpa using hfirst)
    | failed_late =>
      refine .inr ⟨lines, rfl, by simp, hlast _ ?_⟩
      simp only [applied, hrenamed]

/-- What the pass for a run leaves: no file has been replaced, or the file of the run. -/
theorem write_run_ended {group : String × List StampedEvent} {result : Except String Unit}
    (h : Ends (apply serde) (write_run group) s effects result last) :
    (∀ run_id ≠ group.1, file last.toFileRunStore run_id = file s.toFileRunStore run_id) ∧
      ((∀ op ∈ effects, Quiet op) ∨ Replaced serde s effects last group.1) := by
  obtain ⟨run_id, new_events⟩ := group
  have hquiet : (∀ op ∈ effects, Quiet op) → _ := fun hquiet => And.intro
    (fun other (_ : other ≠ run_id) => file_last h hquiet other) (Or.inl (b := Replaced serde s effects last run_id) hquiet)
  rw [write_run] at h
  obtain ⟨_, _, hended⟩ | ⟨_, mid, first, second, hdir, hrest, rfl⟩ := h.of_bind
  · exact hquiet (hended.effects_called (calls_perform fun _ hop => by cases hop))
  have hfirst := hdir.effects_called (P := Quiet) (calls_perform fun _ hop => by cases hop)
  have hmid := hdir.served_of_ok
  rw [program.serve_perform] at hmid
  cases hmid
  obtain ⟨_, _, hended⟩ | ⟨existing, read, third, fourth, hread, hrest, rfl⟩ := hrest.of_bind
  · have hsecond := hended.effects_called (calls_read_events run_id)
    exact hquiet fun op hmem => (List.mem_append.mp hmem).elim (hfirst op) (hsecond op)
  have hthird := hread.effects_called (calls_read_events run_id)
  have hlog := hread.served_of_ok
  rw [serve_read_events] at hlog
  cases hevents : file_store.read_events serde ⟨s.runs.insertIfNew run_id none⟩ run_id with
  | error e =>
    rw [hevents] at hlog
    cases hlog
  | ok log =>
    rw [hevents] at hlog
    cases hlog
    have hexisting := (read_events_congr (file_create_dir s.toFileRunStore run_id run_id)).symm.trans hevents
    have hbefore : ∀ op ∈ first ++ third, Quiet op :=
      fun op hmem => (List.mem_append.mp hmem).elim (hfirst op) (hthird op)
    by_cases hempty : (keyed.fresh StampedEvent.seq existing new_events).isEmpty = true
    · simp only [hempty, if_true] at hrest
      cases hrest
      exact hquiet (by simpa using hbefore)
    simp only [hempty] at hrest
    obtain hfourth | ⟨lines, hlines, hrenamed, hlast⟩ := replace_ended hrest
    · refine hquiet fun op hmem => ?_
      rw [← List.append_assoc] at hmem
      exact (List.mem_append.mp hmem).elim (hbefore op) (hfourth op)
    · have hget : ∀ other, file last.toFileRunStore other =
          if other = run_id then some (text.of_lines lines) else file s.toFileRunStore other := by
        intro other
        rw [hlast, ← file_create_dir s.toFileRunStore run_id other]
        by_cases hother : other = run_id
        · simp [file, hother]
        · simp [file, Std.TreeMap.getElem?_insert, hother, Ne.symm hother]
      have hwritten := fallible.mapM_eq_ok_iff.mp hlines
      refine ⟨fun other hother => by rw [hget, if_neg hother], .inr ⟨?_, existing, lines, hexisting, ?_, ?_, ?_⟩⟩
      · exact List.mem_append_right _ (List.mem_append_right _ hrenamed)
      · have hlength := hwritten.length_eq
        have hsome : 0 < (keyed.fresh StampedEvent.seq existing new_events).length := by
          simpa [List.length_pos_iff] using hempty
        rw [List.length_append] at hlength
        omega
      · intro line hline
        obtain ⟨event, _, hevent⟩ := fallible.mem_forall₂ hwritten hline
        exact ⟨event, hevent⟩
      · rw [hget, if_pos rfl]

/-- What the loop over the runs leaves: all files as they were, or one of them replaced. -/
theorem write_batch_ended {groups : List (String × List StampedEvent)} {result : Except String Unit}
    (hnodup : (groups.map Prod.fst).Nodup) (h : Ends (apply serde) (write_batch groups) s effects result last) :
    (∀ run_id ∉ groups.map Prod.fst, file last.toFileRunStore run_id = file s.toFileRunStore run_id) ∧
      ((∀ op ∈ effects, Quiet op) ∨ ∃ run_id, Replaced serde s effects last run_id) := by
  induction groups generalizing s effects with
  | nil =>
    cases h
    exact ⟨fun _ _ => rfl, .inl fun op hmem => by cases hmem⟩
  | cons group rest ih =>
    obtain ⟨hfresh, hrest⟩ := List.nodup_cons.mp hnodup
    change Ends (apply serde) (write_run group >>= fun _ => write_batch rest) s effects result last at h
    obtain ⟨_, rfl, hended⟩ | ⟨_, mid, first, second, hfirst, hsecond, rfl⟩ := h.of_bind
    · obtain ⟨hothers, hown⟩ := write_run_ended hended
      refine ⟨fun run_id hnot => hothers run_id fun heq => hnot (heq ▸ List.mem_cons_self), hown.imp_right fun h => ⟨_, h⟩⟩
    · obtain ⟨hothers, hown⟩ := write_run_ended hfirst
      obtain ⟨hkept, hlater⟩ := ih hrest hsecond
      constructor
      · intro run_id hnot
        rw [List.map_cons, List.mem_cons, not_or] at hnot
        rw [hkept run_id hnot.2, hothers run_id hnot.1]
      · cases hown with
        | inr hreplaced =>
          -- The later passes are for other runs.
          obtain ⟨existing, lines, hread, hlonger, hwritten, hfile⟩ := hreplaced.longer
          refine .inr ⟨group.1, List.mem_append_left _ hreplaced.renamed, existing, lines, hread, hlonger, hwritten, ?_⟩
          rw [hkept group.1 hfresh, hfile]
        | inl hquiet =>
          have hsame := file_last hfirst hquiet
          cases hlater with
          | inl hlater => exact .inl fun op hmem => (List.mem_append.mp hmem).elim (hquiet op) (hlater op)
          | inr hreplaced =>
            obtain ⟨run_id, hrenamed, existing, lines, hread, hlonger, hwritten, hfile⟩ := hreplaced
            rw [read_events_congr (hsame run_id)] at hread
            exact .inr ⟨run_id, List.mem_append_right _ hrenamed, existing, lines, hread, hlonger, hwritten, hfile⟩

/-- A file with more events is not read as the old one was. -/
theorem Replaced.read_ne (hserde : serde.WritesLines) {run_id : String} (h : Replaced serde s effects last run_id) :
    file_store.read_events serde last.toFileRunStore run_id ≠ file_store.read_events serde s.toFileRunStore run_id := by
  obtain ⟨existing, lines, hread, hlonger, hwritten, hfile⟩ := h.longer
  have hline : ∀ line ∈ lines, text.OneLine line ∧ line.toList.all is_whitespace = false := by
    intro line hmem
    obtain ⟨event, hevent⟩ := hwritten line hmem
    exact hserde event line hevent
  have hlines : text.lines (text.of_lines lines) = lines := text.lines_of_lines fun line hmem => (hline line hmem).1
  have hkept : lines.filter (fun line => !line.toList.all is_whitespace) = lines :=
    List.filter_eq_self.mpr fun line hmem => by simp only [(hline line hmem).2, Bool.not_false]
  have hcontent : last.runs[run_id]? = some (some (text.of_lines lines)) := by
    cases hget : last.runs[run_id]? with
    | none =>
      rw [file, hget] at hfile
      cases hfile
    | some content =>
      rw [file, hget] at hfile
      exact congrArg some hfile
  rw [hread]
  simp only [file_store.read_events, hcontent, hlines, hkept]
  cases hparsed : lines.mapM serde.from_str with
  | error e =>
    intro heq
    cases heq
  | ok events =>
    intro heq
    have hsorted : keyed.sort_by_key StampedEvent.seq events = existing := Except.ok.inj heq
    have hlength := (fallible.mapM_eq_ok_iff.mp hparsed).length_eq
    rw [← hsorted, keyed.sort_by_key, List.length_insertionSort] at hlonger
    omega

end file_store.calls

namespace seaorm.calls

variable {serde : Serde} {s last : SeaOrmRunStore} {effects : List RowOp}

/-- The row is a new one of a run that can be read. -/
structure Commits (serde : Serde) (s : SeaOrmRunStore) (row : RunEvent) : Prop where
  no_conflict : conflicts s row = false
  readable : ∃ log, read_events serde s row.run_id = .ok log

theorem inserted_of_event {event : StampedEvent} {result : Except String Unit}
    (h : Ends (apply serde) (write_event event) s effects result last) {row : RunEvent} (hmem : .insert row ∈ effects) :
    serde.to_value event = .ok row.payload := by
  have hconverts : Calls (fun op => op ≠ .insert row) (call (.to_value event)) := calls_perform fun hop => by cases hop
  obtain ⟨_, _, hended⟩ | ⟨payload, mid, first, second, hfirst, hsecond, rfl⟩ := h.of_bind
  · exact absurd rfl (hended.effects_called hconverts _ hmem)
  · have hvalue := hfirst.served_of_ok
    rw [program.serve_perform] at hvalue
    simp only [apply] at hvalue
    cases hpayload : serde.to_value event with
    | error e =>
      rw [hpayload] at hvalue
      cases hvalue
    | ok value =>
      rw [hpayload] at hvalue
      cases hvalue
      cases List.mem_append.mp hmem with
      | inl hin => exact absurd rfl (hfirst.effects_called hconverts _ hin)
      | inr hin =>
        have hrow := hsecond.effects_called (calls_perform (P := fun op => op = _) rfl) _ hin
        cases hrow
        rfl

/-- The rows that were inserted have the payloads of events. -/
theorem inserted_payload {events : List StampedEvent} {result : Except String Unit}
    (h : Ends (apply serde) (write_batch events) s effects result last) {row : RunEvent} (hmem : .insert row ∈ effects) :
    ∃ event ∈ events, serde.to_value event = .ok row.payload := by
  induction events generalizing s effects with
  | nil =>
    cases h
    cases hmem
  | cons event rest ih =>
    change Ends (apply serde) (write_event event >>= fun _ => write_batch rest) s effects result last at h
    obtain ⟨_, rfl, hended⟩ | ⟨_, mid, first, second, hfirst, hsecond, rfl⟩ := h.of_bind
    · exact ⟨event, List.mem_cons_self, inserted_of_event hended hmem⟩
    · cases List.mem_append.mp hmem with
      | inl hin => exact ⟨event, List.mem_cons_self, inserted_of_event hfirst hin⟩
      | inr hin =>
        obtain ⟨other, hother, hpayload⟩ := ih hsecond hin
        exact ⟨other, List.mem_cons_of_mem _ hother, hpayload⟩

/-- Inserting a row that can be read: its run gets one more event, unless it has a row that cannot. -/
theorem read_insert_self {row : RunEvent} (hpayload : ∃ read, serde.from_value row.payload = .ok read) :
    match read_events serde s row.run_id with
    | .ok log => ∃ more, read_events serde ⟨s.run_event ++ [row]⟩ row.run_id = .ok more ∧ more.length = log.length + 1
    | .error e => read_events serde ⟨s.run_event ++ [row]⟩ row.run_id = .error e := by
  obtain ⟨read, hread⟩ := hpayload
  obtain ⟨before, after, hwith, hwithout⟩ :=
    @keyed.sort_by_key_snoc _ _ _ RunEvent.seq (s.run_event.filter fun old => old.run_id = row.run_id) row
  have hrows : rows_of ⟨s.run_event ++ [row]⟩ row.run_id = before ++ row :: after := by
    rw [rows_of, List.filter_append, ← hwith]
    simp
  have hmore := fallible.mapM_insert (f := fun row : RunEvent => serde.from_value row.payload) hread before after
  rw [read_events, read_events, hrows, rows_of, hwithout]
  generalize (before ++ after).mapM (fun row : RunEvent => serde.from_value row.payload) = parsed at hmore ⊢
  cases parsed with
  | error e => exact hmore
  | ok log => exact hmore

theorem read_insert_other {row : RunEvent} {run_id : String} (hrun : row.run_id ≠ run_id) :
    read_events serde ⟨s.run_event ++ [row]⟩ run_id = read_events serde s run_id := by
  have hrows : rows_of ⟨s.run_event ++ [row]⟩ run_id = rows_of s run_id := by
    rw [rows_of, rows_of, List.filter_append]
    simp [hrun]
  rw [read_events, read_events, hrows]

/-- A log that can be read gets no shorter, and one that cannot fails as before. -/
def LogGrows (before after : Except String (List StampedEvent)) : Prop :=
  match before with
  | .ok log => ∃ more, after = .ok more ∧ log.length ≤ more.length
  | .error e => after = .error e

theorem LogGrows.refl (log : Except String (List StampedEvent)) : LogGrows log log := by
  cases log with
  | error e => rfl
  | ok log => exact ⟨log, rfl, le_refl _⟩

theorem LogGrows.trans {first second third : Except String (List StampedEvent)} (h : LogGrows first second)
    (h' : LogGrows second third) : LogGrows first third := by
  cases first with
  | error e =>
    cases h
    exact h'
  | ok log =>
    obtain ⟨more, rfl, hle⟩ := h
    obtain ⟨most, rfl, hle'⟩ := h'
    exact ⟨most, rfl, hle.trans hle'⟩

theorem applied_insert (s : SeaOrmRunStore) (row : RunEvent) :
    applied (apply serde) s (.insert row) = if conflicts s row then s else ⟨s.run_event ++ [row]⟩ := by
  simp only [applied, apply]
  by_cases hconflict : conflicts s row = true
  · simp only [hconflict, if_true]
  · simp only [hconflict]
    rfl

theorem applied_to_value (s : SeaOrmRunStore) (event : StampedEvent) : applied (apply serde) s (.to_value event) = s := by
  simp only [applied, apply]
  cases serde.to_value event with
  | error e => rfl
  | ok payload => rfl

theorem conflicts_append {row other : RunEvent} (h : conflicts s row = true) :
    conflicts ⟨s.run_event ++ [other]⟩ row = true := by
  rw [conflicts, List.any_append]
  exact Bool.or_eq_true_iff.mpr (.inl h)

/-- The rows of some operations can be read. -/
def ReadableRows (serde : Serde) (effects : List RowOp) : Prop :=
  ∀ row, .insert row ∈ effects → ∃ read, serde.from_value row.payload = .ok read

theorem read_applied {op : RowOp} (hreadable : ReadableRows serde [op]) (run_id : String) :
    LogGrows (read_events serde s run_id) (read_events serde (applied (apply serde) s op) run_id) := by
  cases op with
  | to_value event =>
    rw [applied_to_value]
    exact .refl _
  | insert row =>
    rw [applied_insert]
    split
    · exact .refl _
    · by_cases hrun : row.run_id = run_id
      · subst hrun
        have hinsert := read_insert_self (s := s) (hreadable row List.mem_cons_self)
        cases hread : read_events serde s row.run_id with
        | error e =>
          rw [hread] at hinsert
          exact hinsert
        | ok log =>
          rw [hread] at hinsert
          obtain ⟨more, hmore, hlength⟩ := hinsert
          exact ⟨more, hmore, by omega⟩
      · rw [read_insert_other hrun]
        exact .refl _

theorem read_effects (hreadable : ReadableRows serde effects) (run_id : String) :
    LogGrows (read_events serde s run_id) (read_events serde (effects.foldl (applied (apply serde)) s) run_id) := by
  induction effects generalizing s with
  | nil => exact .refl _
  | cons op rest ih =>
    have hfirst : ReadableRows serde [op] := fun row hmem => hreadable row (List.mem_singleton.mp hmem ▸ List.mem_cons_self)
    exact (read_applied hfirst run_id).trans (ih fun row hmem => hreadable row (List.mem_cons_of_mem _ hmem))

/-- Where no row is a new one of a run that can be read, all is read as before. -/
theorem read_of_no_commits (hreadable : ReadableRows serde effects) (hnone : ∀ row, .insert row ∈ effects → ¬ Commits serde s row)
    (run_id : String) : read_events serde (effects.foldl (applied (apply serde)) s) run_id = read_events serde s run_id := by
  induction effects generalizing s with
  | nil => rfl
  | cons op rest ih =>
    have hrest : ReadableRows serde rest := fun row hmem => hreadable row (List.mem_cons_of_mem _ hmem)
    rw [List.foldl_cons]
    cases op with
    | to_value event =>
      rw [applied_to_value]
      exact ih hrest fun row hmem => hnone row (List.mem_cons_of_mem _ hmem)
    | insert row =>
      rw [applied_insert]
      by_cases hconflict : conflicts s row = true
      · rw [if_pos hconflict]
        exact ih hrest fun other hmem => hnone other (List.mem_cons_of_mem _ hmem)
      · -- The row is new, so its run cannot be read.
        have hsame : ∀ other, read_events serde ⟨s.run_event ++ [row]⟩ other = read_events serde s other := by
          intro other
          by_cases hrun : row.run_id = other
          · subst hrun
            have hinsert := read_insert_self (s := s) (hreadable row List.mem_cons_self)
            cases hread : read_events serde s row.run_id with
            | error e =>
              rw [hread] at hinsert
              exact hinsert
            | ok log => exact absurd ⟨by simpa using hconflict, log, hread⟩ (hnone row List.mem_cons_self)
          · exact read_insert_other hrun
        rw [if_neg hconflict, ih hrest, hsame]
        intro other hmem hcommits
        refine hnone other (List.mem_cons_of_mem _ hmem) ⟨?_, ?_⟩
        · cases hother : conflicts s other with
          | false => rfl
          | true => exact absurd (conflicts_append hother) (by rw [hcommits.no_conflict]; decide)
        · rw [← hsame]
          exact hcommits.readable

/-- A new row of a run that can be read makes its log longer. -/
theorem read_of_commits (hreadable : ReadableRows serde effects) {row : RunEvent} (hmem : .insert row ∈ effects)
    (hcommits : Commits serde s row) : ∃ log more, read_events serde s row.run_id = .ok log ∧
      read_events serde (effects.foldl (applied (apply serde)) s) row.run_id = .ok more ∧ log.length < more.length := by
  induction effects generalizing s with
  | nil => cases hmem
  | cons op rest ih =>
    have hrest : ReadableRows serde rest := fun row hmem => hreadable row (List.mem_cons_of_mem _ hmem)
    have hfirst : ReadableRows serde [op] := fun row hmem => hreadable row (List.mem_singleton.mp hmem ▸ List.mem_cons_self)
    obtain ⟨log, hlog⟩ := hcommits.readable
    by_cases hconflict : conflicts (applied (apply serde) s op) row = true
    · -- This operation is the insert of the row, or of another one with its number.
      cases op with
      | to_value event =>
        rw [applied_to_value, hcommits.no_conflict] at hconflict
        cases hconflict
      | insert other =>
        rw [applied_insert] at hconflict
        have hinserted : ¬ conflicts s other = true := by
          intro hskipped
          rw [if_pos hskipped, hcommits.no_conflict] at hconflict
          cases hconflict
        rw [if_neg hinserted, conflicts, List.any_append, Bool.or_eq_true_iff] at hconflict
        have hsame : other.run_id = row.run_id := by
          have hlast := hconflict.resolve_left (by rw [← conflicts, hcommits.no_conflict]; decide)
          simp only [List.any_cons, List.any_nil, Bool.or_false, Bool.and_eq_true, decide_eq_true_eq] at hlast
          exact hlast.1
        have hinsert := read_insert_self (s := s) (hreadable other List.mem_cons_self)
        rw [hsame, hlog] at hinsert
        obtain ⟨between, hbetween, hlength⟩ := hinsert
        have hgrows := read_effects (s := ⟨s.run_event ++ [other]⟩) hrest row.run_id
        rw [hbetween] at hgrows
        obtain ⟨more, hmore, hle⟩ := hgrows
        refine ⟨log, more, hlog, ?_, by omega⟩
        rw [List.foldl_cons, applied_insert, if_neg hinserted]
        exact hmore
    · have hgrows := read_applied (s := s) hfirst row.run_id
      rw [hlog] at hgrows
      obtain ⟨between, hbetween, hle⟩ := hgrows
      have hin : .insert row ∈ rest := by
        refine (List.mem_cons.mp hmem).resolve_left fun heq => hconflict ?_
        rw [← heq, applied_insert, hcommits.no_conflict]
        simp [conflicts]
      obtain ⟨_, more, hsame, hmore, hlt⟩ := ih hrest hin ⟨by simpa using hconflict, between, hbetween⟩
      rw [hbetween] at hsame
      cases hsame
      exact ⟨log, more, hlog, hmore, by omega⟩

/-- The first insert of a batch fails. -/
theorem insert_fails {event : StampedEvent} {rest : List StampedEvent} {payload : Value} {e : String}
    (hpayload : serde.to_value event = .ok payload) :
    Ends (apply serde) (write_batch (event :: rest)) s [.to_value event] (.error e) s := by
  change Ends (apply serde) (write_event event >>= fun _ => write_batch rest) s [.to_value event] (.error e) s
  have hconverted : apply serde s (.to_value event) = .ok (payload, s) := by simp only [apply, hpayload]
  exact .served hconverted (.failed _ _ _ _)

/-- What the loop over the events leaves: every run reads as before, unless a row has been
inserted that is a new one of a run that can be read. -/
theorem write_batch_ended {events : List StampedEvent} (hserde : serde.ReadsValues events) {result : Except String Unit}
    (h : Ends (apply serde) (write_batch events) s effects result last) :
    (∀ run_id, read_events serde last run_id = read_events serde s run_id) ↔
      ∀ row, .insert row ∈ effects → ¬ Commits serde s row := by
  have hreadable : ReadableRows serde effects := by
    intro row hmem
    obtain ⟨event, hevent, hpayload⟩ := inserted_payload h hmem
    exact hserde event hevent _ hpayload
  rw [h.last_eq]
  constructor
  · intro hsame row hmem hcommits
    obtain ⟨log, more, hlog, hmore, hlt⟩ := read_of_commits hreadable hmem hcommits
    rw [hsame, hlog] at hmore
    cases hmore
    omega
  · exact fun hnone => read_of_no_commits hreadable hnone

end seaorm.calls

theorem nodup_group_runs {events : List StampedEvent} {groups : List (String × List StampedEvent)}
    (hgroups : groups.Perm (group_by_run events)) : (groups.map Prod.fst).Nodup := by
  refine (hgroups.map Prod.fst).nodup_iff.mpr ?_
  rw [group_by_run, List.map_map]
  exact (List.map_id _).symm ▸ List.nodup_dedup _

/-- A call of `write_batch` in which something fails, at any point, leaves every run as it was
exactly if the file of no run had been replaced by then, and no row inserted that is a new one
of a run that can be read. -/
theorem failed_batch_unchanged_iff {serde : Serde} {events : List StampedEvent} (hlines : serde.WritesLines)
    (hvalues : serde.ReadsValues events) :
    (∀ {groups s effects e last}, groups.Perm (group_by_run events) →
      Ends (file_store.calls.apply serde) (file_store.calls.write_batch groups) s effects (.error e) last →
      ((∀ run_id, (file_store.run_store serde).events last.toFileRunStore run_id =
          (file_store.run_store serde).events s.toFileRunStore run_id) ↔
        ∀ run_id, .rename run_id ∉ effects)) ∧
    ∀ {s effects e last}, Ends (seaorm.calls.apply serde) (seaorm.calls.write_batch events) s effects (.error e) last →
      ((∀ run_id, (seaorm.run_store serde).events last run_id = (seaorm.run_store serde).events s run_id) ↔
        ∀ row, .insert row ∈ effects → ¬ seaorm.calls.Commits serde s row) := by
  refine ⟨fun hgroups hends => ?_, fun hends => seaorm.calls.write_batch_ended hvalues hends⟩
  obtain ⟨_, hquiet | ⟨run_id, hreplaced⟩⟩ := file_store.calls.write_batch_ended (nodup_group_runs hgroups) hends
  · have hsame := file_store.calls.file_last hends hquiet
    refine iff_of_true (fun run_id => file_store.calls.read_events_congr (hsame run_id)) fun run_id hmem => ?_
    exact hquiet _ hmem run_id rfl
  · refine iff_of_false (fun hsame => hreplaced.read_ne hlines (hsame run_id)) fun hnone => ?_
    exact hnone run_id hreplaced.renamed

theorem sample_writes_lines : sample_serde.WritesLines := by
  have hline : ∀ {event line}, sample_serde.RoundTrips event → sample_serde.to_string event = .ok line →
      text.OneLine line ∧ line.toList.all file_store.is_whitespace = false := by
    rintro event line ⟨⟨_, hto, _, hone, hblank⟩, _⟩ hsame
    rw [hto] at hsame
    cases hsame
    exact ⟨hone, hblank⟩
  intro event line hto
  simp only [sample_serde] at hto
  split at hto
  · exact hline sample_started_round_trips hto
  · exact hline sample_completed_round_trips hto
  · exact hline sample_interrupted_round_trips hto
  · cases hto

/-- A batch of two runs. -/
def two_runs : List StampedEvent := [sample_started, interrupted_event "other" 0]

theorem two_runs_groups : group_by_run two_runs = [("run", [sample_started]), ("other", [interrupted_event "other" 0])] := by
  rfl

theorem two_runs_read : sample_serde.ReadsValues two_runs := by
  intro event hmem payload hpayload
  simp only [two_runs, List.mem_cons, List.not_mem_nil, or_false] at hmem
  obtain rfl | rfl := hmem
  · cases hpayload
    exact ⟨sample_started, rfl⟩
  · cases hpayload
    exact ⟨interrupted_event "run" 0, rfl⟩

/-- Nothing is stored of a batch where the file of the first run cannot be read, or the first row not be inserted. -/
theorem failed_batch_unchanged_iff_sample : ∃ (files : file_store.calls.Files) (effects : List file_store.calls.FileOp),
    Ends (file_store.calls.apply sample_serde) (file_store.calls.write_batch (group_by_run two_runs)) ⟨file_store.new, ∅⟩
      effects (.error "failed to read events file: denied") files ∧
    (∀ run_id, (file_store.run_store sample_serde).events files.toFileRunStore run_id =
      (file_store.run_store sample_serde).events file_store.new run_id) ∧
    ∃ (rows : seaorm.SeaOrmRunStore) (effects : List seaorm.calls.RowOp),
      Ends (seaorm.calls.apply sample_serde) (seaorm.calls.write_batch two_runs) seaorm.new effects
        (.error "database is locked") rows ∧
      ∀ run_id, (seaorm.run_store sample_serde).events rows run_id = (seaorm.run_store sample_serde).events seaorm.new run_id := by
  obtain ⟨hfiles, hrows⟩ := failed_batch_unchanged_iff sample_writes_lines two_runs_read
  have hdenied : Ends (file_store.calls.apply sample_serde) (file_store.calls.write_batch (group_by_run two_runs))
      ⟨file_store.new, ∅⟩ [.create_dir_all "run"] (.error "failed to read events file: denied")
      ⟨⟨file_store.new.runs.insertIfNew "run" none⟩, ∅⟩ := by
    rw [two_runs_groups]
    exact .served rfl (.failed (file_store.calls.FileOp.read_to_string "run") _ _ _)
  have hlocked : Ends (seaorm.calls.apply sample_serde) (seaorm.calls.write_batch two_runs) seaorm.new
      [.to_value sample_started] (.error "database is locked") seaorm.new :=
    seaorm.calls.insert_fails rfl
  refine ⟨_, _, hdenied, (hfiles (.refl _) hdenied).mpr ?_, _, _, hlocked, (hrows hlocked).mpr ?_⟩
  · simp
  · simp

/-- The second run of a batch cannot be written: the events of the first are stored. -/
theorem half_a_batch_stored : (∃ effects last,
      Ends (file_store.calls.apply sample_serde) (file_store.calls.write_batch (group_by_run two_runs)) ⟨file_store.new, ∅⟩
        effects (.error "failed to create run directory: no space") last ∧
      (file_store.run_store sample_serde).events file_store.new "run" = .ok [] ∧
      (file_store.run_store sample_serde).events last.toFileRunStore "run" = .ok [sample_started]) ∧
    ∃ effects last,
      Ends (seaorm.calls.apply sample_serde) (seaorm.calls.write_batch two_runs) seaorm.new effects
        (.error "database is locked") last ∧
      (seaorm.run_store sample_serde).events seaorm.new "run" = .ok [] ∧
      (seaorm.run_store sample_serde).events last "run" = .ok [sample_started] := by
  have hone : ∀ event, event ∈ [sample_started] ↔
      event ∈ of_run (keyed.merged StampedEvent.key ∅ [sample_started]) "run" := by
    intro event
    constructor
    · intro hmem
      rw [List.mem_singleton] at hmem
      subst hmem
      exact ⟨.inr ⟨List.mem_singleton_self _, fun other hother => hother.elim⟩, rfl⟩
    · rintro ⟨hold | ⟨hnew, _⟩, _⟩
      · exact hold.elim
      · exact hnew
  constructor
  · have htrips : ∀ event ∈ [sample_started], sample_serde.RoundTrips event := by simpa using sample_started_round_trips
    obtain ⟨next, hnext, hholds⟩ := @file_store.Holds.write_run _ _ _ (file_store.holds_new sample_serde) ("run", [sample_started])
      (by simp; rfl) (by simp) htrips
    have hserved := @file_store.calls.serve_write_run sample_serde ⟨file_store.new, ∅⟩ ("run", [sample_started])
    rw [hnext] at hserved
    obtain ⟨_, last, effects, hfirst, rfl⟩ := exists_ends_of_map hserved
    obtain ⟨log, hread, hlists⟩ := hholds.read "run"
    refine ⟨effects ++ [], last, ?_, rfl, ?_⟩
    · rw [two_runs_groups]
      exact hfirst.bind (.failed (file_store.calls.FileOp.create_dir_all "other") _ _ _)
    · rw [← hlists.unique ⟨List.pairwise_singleton _ _, hone⟩]
      exact hread
  · obtain ⟨next, hnext, hholds⟩ := (seaorm.holds_new sample_serde).insert sample_started_round_trips
    have hserved := seaorm.calls.serve_write_event sample_serde seaorm.new sample_started
    rw [hnext] at hserved
    obtain ⟨_, last, effects, hfirst, rfl⟩ := exists_ends_of_map hserved
    obtain ⟨log, hread, hlists⟩ := hholds.read "run"
    refine ⟨_, last, hfirst.bind (seaorm.calls.insert_fails rfl), rfl, ?_⟩
    rw [← hlists.unique ⟨List.pairwise_singleton _ _, hone⟩]
    exact hread

end flow_engine
