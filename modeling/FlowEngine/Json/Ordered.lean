import FlowEngine.Json
import FlowEngine.Lib.Settling
import Mathlib.Data.String.Basic

namespace flow_engine

open settling

namespace Map

/-- The keys of a map ascend. -/
def Ascending (fields : List (String × Value)) : Prop := fields.Pairwise fun a b => a.1 < b.1

theorem insert_of_lt {fields : List (String × Value)} {key : String} (h : ∀ field ∈ fields, field.1 < key) (value : Value) :
    Map.insert fields key value = fields ++ [(key, value)] := by
  induction fields with
  | nil => rfl
  | cons field rest ih =>
    have hlt := h field List.mem_cons_self
    rw [Map.insert, if_neg (lt_asymm hlt), if_neg (ne_of_gt hlt), ih fun other hother => h other (List.mem_cons_of_mem _ hother)]
    rfl

theorem mem_of_mem_insert {fields : List (String × Value)} {key : String} {value : Value} {field : String × Value}
    (h : field ∈ Map.insert fields key value) : field = (key, value) ∨ field ∈ fields := by
  induction fields with
  | nil => exact .inl (List.mem_singleton.mp h)
  | cons first rest ih =>
    rw [Map.insert] at h
    split at h
    · exact List.mem_cons.mp h
    · split at h
      · exact (List.mem_cons.mp h).imp_right (List.mem_cons_of_mem _)
      · cases List.mem_cons.mp h with
        | inl hfirst => exact .inr (hfirst ▸ List.mem_cons_self)
        | inr hrest => exact (ih hrest).imp_right (List.mem_cons_of_mem _)

theorem ascending_insert {fields : List (String × Value)} (h : Ascending fields) (key : String) (value : Value) :
    Ascending (Map.insert fields key value) := by
  induction fields with
  | nil => exact List.pairwise_singleton _ _
  | cons first rest ih =>
    obtain ⟨hfirst, hrest⟩ := List.pairwise_cons.mp h
    rw [Map.insert]
    split
    · rename_i hbefore
      refine List.pairwise_cons.mpr ⟨?_, h⟩
      intro field hmem
      cases List.mem_cons.mp hmem with
      | inl heq => exact heq ▸ hbefore
      | inr hin => exact hbefore.trans (hfirst field hin)
    · rename_i hbefore
      split
      · rename_i hsame
        exact List.pairwise_cons.mpr ⟨fun field hmem => hsame ▸ hfirst field hmem, hrest⟩
      · rename_i hother
        refine List.pairwise_cons.mpr ⟨?_, ih hrest⟩
        intro field hmem
        cases mem_of_mem_insert hmem with
        | inl hnew => exact hnew ▸ lt_of_le_of_ne (not_lt.mp hbefore) (Ne.symm hother)
        | inr hin => exact hfirst field hin

/-- The fields of an object put into a new one, with values that may fail. -/
def rebuild (g : String × Value → Option Value) (fields : List (String × Value)) : Option (List (String × Value)) :=
  fields.foldlM (fun out field => (g field).map (Map.insert out field.1)) []

section Rebuild

variable {g : String × Value → Option Value} {fields : List (String × Value)}

theorem foldlM_insert_eq_none_iff (out : List (String × Value)) :
    fields.foldlM (fun out field => (g field).map (Map.insert out field.1)) out = none ↔ ∃ field ∈ fields, g field = none := by
  induction fields generalizing out with
  | nil => simp
  | cons first rest ih =>
    rw [List.foldlM_cons, List.exists_mem_cons_iff]
    cases hfirst : g first with
    | none => simp
    | some value => simpa using ih (Map.insert out first.1 value)

theorem rebuild_eq_none_iff : rebuild g fields = none ↔ ∃ field ∈ fields, g field = none := foldlM_insert_eq_none_iff []

theorem mem_foldlM_insert {out done : List (String × Value)} {field : String × Value}
    (h : fields.foldlM (fun out field => (g field).map (Map.insert out field.1)) out = some done) (hfield : field ∈ done) :
    field ∈ out ∨ ∃ source ∈ fields, source.1 = field.1 ∧ g source = some field.2 := by
  induction fields generalizing out with
  | nil =>
    cases h
    exact .inl hfield
  | cons first rest ih =>
    rw [List.foldlM_cons] at h
    obtain ⟨next, hfirst, hrest⟩ := Option.bind_eq_some_iff.mp h
    obtain ⟨value, hvalue, rfl⟩ := Option.map_eq_some_iff.mp hfirst
    cases ih hrest with
    | inl hnext =>
      cases mem_of_mem_insert hnext with
      | inl hnew =>
        rw [hnew]
        exact .inr ⟨first, List.mem_cons_self, rfl, hvalue⟩
      | inr hold => exact .inl hold
    | inr hsource =>
      obtain ⟨source, hmem, hsource⟩ := hsource
      exact .inr ⟨source, List.mem_cons_of_mem _ hmem, hsource⟩

theorem mem_rebuild {done : List (String × Value)} {field : String × Value} (h : rebuild g fields = some done)
    (hfield : field ∈ done) : ∃ source ∈ fields, source.1 = field.1 ∧ g source = some field.2 :=
  (mem_foldlM_insert h hfield).resolve_left List.not_mem_nil

theorem ascending_rebuild {done : List (String × Value)} (h : rebuild g fields = some done) : Ascending done := by
  have hfold : ∀ out : List (String × Value), Ascending out →
      fields.foldlM (fun out field => (g field).map (Map.insert out field.1)) out = some done → Ascending done := by
    clear h
    induction fields with
    | nil =>
      intro out hout hdone
      exact Option.some.inj hdone ▸ hout
    | cons first rest ih =>
      intro out hout hdone
      rw [List.foldlM_cons] at hdone
      obtain ⟨next, hfirst, hrest⟩ := Option.bind_eq_some_iff.mp hdone
      obtain ⟨value, _, rfl⟩ := Option.map_eq_some_iff.mp hfirst
      exact ih _ (ascending_insert hout first.1 value) hrest
  exact hfold [] List.Pairwise.nil h

/-- Fields in key order are put into the new object one behind the other. -/
theorem rebuild_of_ascending (h : Ascending fields) :
    rebuild g fields = fields.mapM fun field => (g field).map (Prod.mk field.1) := by
  have hfold : ∀ out : List (String × Value), (∀ done ∈ out, ∀ field ∈ fields, done.1 < field.1) →
      fields.foldlM (fun out field => (g field).map (Map.insert out field.1)) out =
        (fields.mapM fun field => (g field).map (Prod.mk field.1)).map (out ++ ·) := by
    induction fields with
    | nil => exact fun out _ => congrArg some (List.append_nil out).symm
    | cons first rest ih =>
      intro out hout
      obtain ⟨hfirst, hrest⟩ := List.pairwise_cons.mp h
      rw [List.foldlM_cons, List.mapM_cons]
      cases hvalue : g first with
      | none => rfl
      | some value =>
        have hnext : ∀ done ∈ out ++ [(first.1, value)], ∀ field ∈ rest, done.1 < field.1 := by
          intro done hdone field hfield
          cases List.mem_append.mp hdone with
          | inl hold => exact hout done hold field (List.mem_cons_of_mem _ hfield)
          | inr hnew =>
            rw [List.mem_singleton.mp hnew]
            exact hfirst field hfield
        have hinsert := insert_of_lt (fun done hdone => hout done hdone first List.mem_cons_self) value
        simp only [Option.map_some, Option.bind_eq_bind, Option.bind_some, hinsert, ih hrest _ hnext]
        cases rest.mapM fun field => (g field).map (Prod.mk field.1) with
        | none => rfl
        | some values => simp
  rw [rebuild, hfold [] fun done hdone => nomatch hdone]
  exact Option.map_id'

/-- An object is rebuilt as it is if each of its fields is left as it is. -/
theorem rebuild_of_kept (hascending : Ascending fields) (hkept : ∀ field ∈ fields, g field = some field.2) :
    rebuild g fields = some fields := by
  rw [rebuild_of_ascending hascending, fallible.mapM_eq_some_iff, List.forall₂_same]
  intro field hmem
  rw [hkept field hmem]
  rfl

/-- Rebuilding an object settles with its fields. -/
theorem settles_rebuild (h : ∀ field ∈ fields, Settles (fun value => g (field.1, value)) field.2) :
    Settles (rebuild g) fields := by
  intro done hdone
  refine rebuild_of_kept (ascending_rebuild hdone) ?_
  intro field hfield
  obtain ⟨source, hmem, hkey, hvalue⟩ := mem_rebuild hdone hfield
  have hkept := h source hmem hvalue
  rwa [hkey] at hkept

/-- If it lists its fields in key order, with them only, or if one of them fails. -/
theorem settles_rebuild_iff (hascending : Ascending fields) :
    Settles (rebuild g) fields ↔
      (∃ field ∈ fields, g field = none) ∨ ∀ field ∈ fields, Settles (fun value => g (field.1, value)) field.2 := by
  constructor
  · intro hsettles
    cases hdone : rebuild g fields with
    | none => exact .inl (rebuild_eq_none_iff.mp hdone)
    | some done =>
      have hagain := hsettles hdone
      rw [rebuild_of_ascending (ascending_rebuild hdone), fallible.mapM_eq_some_iff, List.forall₂_same] at hagain
      rw [rebuild_of_ascending hascending, fallible.mapM_eq_some_iff] at hdone
      refine .inr fun field hmem => ?_
      obtain ⟨out, hout, hfield⟩ := fallible.mem_forall₂ hdone.flip hmem
      obtain ⟨value, hvalue, rfl⟩ := Option.map_eq_some_iff.mp hfield
      obtain ⟨value', hvalue', hsame⟩ := Option.map_eq_some_iff.mp (hagain _ hout)
      obtain rfl := (Prod.mk.inj hsame).2
      exact (settles_iff hvalue).mpr hvalue'
  · rintro (hfails | hfields)
    · exact settles_of_eq_none (rebuild_eq_none_iff.mpr hfails)
    · exact settles_rebuild hfields

end Rebuild

end Map

namespace Value

mutual

/-- Every object in a value lists its fields in ascending key order. -/
def Ordered : Value → Prop
  | .array items => OrderedItems items
  | .object fields => Map.Ascending fields ∧ OrderedFields fields
  | _ => True

def OrderedItems : List Value → Prop
  | [] => True
  | item :: rest => Ordered item ∧ OrderedItems rest

def OrderedFields : List (String × Value) → Prop
  | [] => True
  | (_, value) :: rest => Ordered value ∧ OrderedFields rest

end

theorem OrderedItems.mem {items : List Value} (h : OrderedItems items) {item : Value} (hmem : item ∈ items) :
    item.Ordered := by
  induction items with
  | nil => cases hmem
  | cons first rest ih =>
    cases List.mem_cons.mp hmem with
    | inl heq => exact heq ▸ h.1
    | inr hrest => exact ih h.2 hrest

end Value

end flow_engine
