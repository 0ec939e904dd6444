import FlowEngine.Expression
import FlowEngine.Lib.Collect
import Mathlib.Data.List.Infix

namespace flow_engine.queries

open expression

/-- Unicode lowercase, as characters, and the text of a JSON value. -/
structure TextOps where
  to_lowercase : String → List Char
  to_string : Value → String

/-- `str::contains` with a string, on the characters. -/
def contains (s part : List Char) : Bool := decide (part <:+: s)

def eq_ignore_ascii_case (s t : String) : Bool := s.toList.map Char.toLower = t.toList.map Char.toLower

def as_f64 (f64 : F64Ops) : Value → Option UInt64
  | .number n => some (EvalValue.number_as_f64 f64 n)
  | _ => none

/-- The object with the results under a name and their number. -/
def results_object (name : String) (results : List Value) : Value :=
  .object [("count", .number (.pos_int (UInt64.ofNat results.length))), (name, .array results)]

section Csv

variable (text : TextOps) (f64 : F64Ops)

/-- What is read from an open CSV file: its headers, and its records up to the
columns that they have. An error is the text of a `csv::Error`. -/
structure CsvReader where
  headers : Except String (List String)
  records : List (Except String (List String))

/-- The arguments of a query. -/
structure QueryArgs where
  column : String
  operator : String
  value : Value
  limit : Nat

/-- The arguments as they are read at the start of `query`. An error is the
message of a fatal node error. -/
def query_args (args : Value) : Except String QueryArgs := do
  let column ← ((args.get_str "column").elim (.error "query requires 'column' argument") .ok : Except String String)
  let operator := (args.get_str "operator").getD "eq"
  let value ← ((args.get "value").elim (.error "query requires 'value' argument") .ok : Except String Value)
  .ok ⟨column, operator, value, ((args.get "limit").bind Value.as_u64).getD 20⟩

/-- A value is compared as its text. -/
def value_str : Value → String
  | .string s => s
  | other => text.to_string other

/-- How a field compares with the value; fields that are no numbers are not ordered. -/
def compare_field (operator field value : String) : Except String Bool :=
  if operator = "eq" then .ok (field = value)
  else if operator = "contains" then .ok (contains (text.to_lowercase field) (text.to_lowercase value))
  else if operator ∈ ["gt", "lt", "gte", "lte"] then
    match f64.parse field, f64.parse value with
    | some a, some b =>
      .ok (if operator = "gt" then f64.lt b a else if operator = "lt" then f64.lt a b
        else if operator = "gte" then f64.le b a else f64.le a b)
    | _, _ => .ok false
  else .error ("unknown operator: " ++ operator)

/-- A record by the headers of its fields; where two headers are equal the later field stays. -/
def row_object (headers record : List String) : Value :=
  .object ((headers.zip record).foldl (fun row field => Map.insert row field.1 (.string field.2)) [])

/-- One pass of the loop over the records. -/
def visit_record (headers : List String) (col_idx : Nat) (q : QueryArgs) :
    Except String (List String) → Except String (Option Value)
  | .error e => .error ("failed to read CSV record: " ++ e)
  | .ok record =>
    (compare_field text f64 q.operator (record.getD col_idx "") (value_str text q.value)).map fun matched =>
      if matched then some (row_object headers record) else none

/-- The result of `query`, before it is turned into text. -/
def query_result (rdr : Except String CsvReader) (args : Value) : Except String Value := do
  let q ← query_args args
  let rdr ← rdr.mapError ("failed to open CSV: " ++ ·)
  let headers ← rdr.headers.mapError ("failed to read CSV headers: " ++ ·)
  match headers.findIdx? (· = q.column) with
  | none => .error ("column '" ++ q.column ++ "' not found in CSV")
  | some col_idx =>
    let rows ← collecting.collect (visit_record text f64 headers col_idx q) q.limit rdr.records []
    .ok (results_object "matches" rows)

def query (rdr : Except String CsvReader) (args : Value) : Except String String :=
  (query_result text f64 rdr args).map text.to_string

end Csv

section Json

variable (text : TextOps) (f64 : F64Ops)

/-- The filters of a search. -/
structure SearchArgs where
  query : Option String
  category : Option String
  max_price : Option UInt64
  min_price : Option UInt64
  limit : Nat

def search_args (args : Value) : SearchArgs where
  query := args.get_str "query"
  category := args.get_str "category"
  max_price := (args.get "max_price").bind (as_f64 f64)
  min_price := (args.get "min_price").bind (as_f64 f64)
  limit := ((args.get "limit").bind Value.as_u64).getD 10

/-- Whether a product passes the filters; a filter that is not given passes
all, and so do the price filters where a product has no price. -/
def passes (a : SearchArgs) (product : Value) : Bool :=
  let name := (product.get_str "name").getD ""
  let desc := (product.get_str "description").getD ""
  let price := (product.get "price").bind (as_f64 f64)
  if a.query.any fun q =>
      !contains (text.to_lowercase name) (text.to_lowercase q)
        && !contains (text.to_lowercase desc) (text.to_lowercase q) then
    false
  else if a.category.any fun cat => !eq_ignore_ascii_case ((product.get_str "category").getD "") cat then false
  else if a.max_price.any fun max => price.any fun p => f64.lt max p then false
  else if a.min_price.any fun min => price.any fun p => f64.lt p min then false
  else true

/-- The result of `search_products`, before it is turned into text. -/
def search_result (products : List Value) (args : Value) : Except String Value := do
  let a := search_args f64 args
  let results ← collecting.collect (fun product => .ok (if passes text f64 a product then some product else none)) a.limit
    products []
  .ok (results_object "products" results)

def search_products (products : List Value) (args : Value) : Except String String :=
  (search_result text f64 products args).map text.to_string

end Json

def operators : List String := ["eq", "contains", "gt", "lt", "gte", "lte"]

section Exact

variable {text : TextOps} {f64 : F64Ops}

/-- Whether a row is wanted, which does not depend on the limit. -/
def row_matches (text : TextOps) (f64 : F64Ops) (q : QueryArgs) (col_idx : Nat) (row : List String) : Bool :=
  match compare_field text f64 q.operator (row.getD col_idx "") (value_str text q.value) with
  | .ok matched => matched
  | .error _ => false

theorem compare_field_ok {operator : String} (h : operator ∈ operators) (field value : String) :
    ∃ matched, compare_field text f64 operator field value = .ok matched := by
  rw [compare_field]
  split
  · exact ⟨_, rfl⟩
  · split
    · exact ⟨_, rfl⟩
    · rename_i heq hcontains
      have hordered : operator ∈ ["gt", "lt", "gte", "lte"] := by
        simpa [operators, heq, hcontains] using h
      rw [if_pos hordered]
      split <;> exact ⟨_, rfl⟩

theorem visit_record_ok {headers : List String} {col_idx : Nat} {q : QueryArgs} (h : q.operator ∈ operators)
    (row : List String) : visit_record text f64 headers col_idx q (.ok row) =
      .ok (if row_matches text f64 q col_idx row then some (row_object headers row) else none) := by
  obtain ⟨matched, hmatched⟩ := @compare_field_ok text f64 _ h (row.getD col_idx "") (value_str text q.value)
  rw [visit_record, row_matches, hmatched]
  rfl

theorem results_object_inj {name : String} {results results' : List Value} :
    results_object name results = results_object name results' ↔ results = results' := by
  constructor
  · intro h
    simp only [results_object, Value.object.injEq, List.cons.injEq, Prod.mk.injEq, Value.array.injEq] at h
    exact h.2.1.2
  · rintro rfl
    rfl

/-- The wanted rows of a table as they are returned, in file order. -/
def matching_rows (text : TextOps) (f64 : F64Ops) (headers : List String) (rows : List (List String)) (q : QueryArgs)
    (col_idx : Nat) : List Value :=
  (rows.filter (row_matches text f64 q col_idx)).map (row_object headers)

/-- A query of a table returns one row at least, if one matches. -/
theorem query_result_eq {headers : List String} {rows : List (List String)} {args : Value} {q : QueryArgs} {col_idx : Nat}
    (hq : query_args args = .ok q) (hcolumn : headers.findIdx? (· = q.column) = some col_idx)
    (hop : q.operator ∈ operators) :
    query_result text f64 (.ok ⟨.ok headers, rows.map Except.ok⟩) args =
      .ok (results_object "matches" ((matching_rows text f64 headers rows q col_idx).take (max 1 q.limit))) := by
  have hvisit : ∀ item ∈ rows.map (Except.ok : List String → Except String (List String)),
      visit_record text f64 headers col_idx q item = .ok (item.toOption.bind fun row =>
        if row_matches text f64 q col_idx row then some (row_object headers row) else none) := by
    intro item hitem
    obtain ⟨row, _, rfl⟩ := List.mem_map.mp hitem
    exact visit_record_ok hop row
  have hrows : (rows.map (Except.ok : List String → Except String (List String))).filterMap (fun item =>
      item.toOption.bind fun row => if row_matches text f64 q col_idx row then some (row_object headers row) else none)
      = matching_rows text f64 headers rows q col_idx := by
    rw [List.filterMap_map, matching_rows, ← List.filterMap_eq_map, ← List.filterMap_eq_filter, List.filterMap_filterMap]
    refine List.filterMap_congr fun row _ => ?_
    cases h : row_matches text f64 q col_idx row <;> simp [h, Except.toOption, Option.guard]
  have hcollect := @collecting.collect_nil_eq_ok _ _ _ _ q.limit _ _ hvisit
  rw [hrows] at hcollect
  simp only [query_result, hq, Except.mapError, hcolumn, bind, Except.bind, hcollect]

theorem search_result_eq (products : List Value) (args : Value) :
    search_result text f64 products args = .ok (results_object "products"
      ((products.filter (passes text f64 (search_args f64 args))).take (max 1 (search_args f64 args).limit))) := by
  have hcollect := @collecting.collect_nil_eq_ok String _ _ _ (search_args f64 args).limit
    (fun product => if passes text f64 (search_args f64 args) product then some product else none) products fun _ _ => rfl
  have hproducts : (products.filterMap fun product =>
      if passes text f64 (search_args f64 args) product then some product else none)
      = products.filter (passes text f64 (search_args f64 args)) := by
    rw [← List.filterMap_eq_filter]
    refine List.filterMap_congr fun product _ => ?_
    cases h : passes text f64 (search_args f64 args) product <;> simp [h, Option.guard]
  rw [hproducts] at hcollect
  simp only [search_result, bind, Except.bind, hcollect]

end Exact

/-- A result has the text of a value exactly if it is the value, where their texts differ when they do. -/
theorem text_iff {text : TextOps} {result : Except String Value} {value expected : Value} (hresult : result = .ok value)
    (hinj : Set.InjOn text.to_string {value, expected}) :
    result.map text.to_string = .ok (text.to_string expected) ↔ result = .ok expected := by
  subst hresult
  constructor
  · intro htext
    exact congrArg Except.ok (hinj (.inl rfl) (.inr rfl) (Except.ok.inj htext))
  · intro hvalue
    rw [hvalue]
    rfl

/-- A query of a table, with a known column and operator, and a search of
products return exactly the first matches up to the limit, and their number,
unless the limit is zero and something matches. -/
theorem queries_exact_iff (text : TextOps) (f64 : F64Ops) :
    (∀ {headers : List String} {rows : List (List String)} {args : Value} {q : QueryArgs} {col_idx : Nat},
      query_args args = .ok q → headers.findIdx? (· = q.column) = some col_idx → q.operator ∈ operators →
      (query_result text f64 (.ok ⟨.ok headers, rows.map Except.ok⟩) args =
          .ok (results_object "matches" ((matching_rows text f64 headers rows q col_idx).take q.limit)) ↔
        q.limit ≠ 0 ∨ ∀ row ∈ rows, row_matches text f64 q col_idx row = false) ∧
      (Set.InjOn text.to_string {
          results_object "matches" ((matching_rows text f64 headers rows q col_idx).take (max 1 q.limit)),
          results_object "matches" ((matching_rows text f64 headers rows q col_idx).take q.limit)} →
        (query text f64 (.ok ⟨.ok headers, rows.map Except.ok⟩) args =
            .ok (text.to_string
              (results_object "matches" ((matching_rows text f64 headers rows q col_idx).take q.limit))) ↔
          q.limit ≠ 0 ∨ ∀ row ∈ rows, row_matches text f64 q col_idx row = false))) ∧
    ∀ (products : List Value) (args : Value),
      (search_result text f64 products args = .ok (results_object "products"
          ((products.filter (passes text f64 (search_args f64 args))).take (search_args f64 args).limit)) ↔
        (search_args f64 args).limit ≠ 0 ∨
          ∀ product ∈ products, passes text f64 (search_args f64 args) product = false) ∧
      (Set.InjOn text.to_string {
          results_object "products"
            ((products.filter (passes text f64 (search_args f64 args))).take (max 1 (search_args f64 args).limit)),
          results_object "products"
            ((products.filter (passes text f64 (search_args f64 args))).take (search_args f64 args).limit)} →
        (search_products text f64 products args = .ok (text.to_string (results_object "products"
            ((products.filter (passes text f64 (search_args f64 args))).take (search_args f64 args).limit))) ↔
          (search_args f64 args).limit ≠ 0 ∨
            ∀ product ∈ products, passes text f64 (search_args f64 args) product = false)) := by
  constructor
  · intro headers rows args q col_idx hq hcolumn hop
    have hnone : matching_rows text f64 headers rows q col_idx = [] ↔
        ∀ row ∈ rows, row_matches text f64 q col_idx row = false := by
      simp [matching_rows, List.filter_eq_nil_iff]
    have hresult := @query_result_eq text f64 headers rows args q col_idx hq hcolumn hop
    have hexact : query_result text f64 (.ok ⟨.ok headers, rows.map Except.ok⟩) args =
          .ok (results_object "matches" ((matching_rows text f64 headers rows q col_idx).take q.limit)) ↔
        q.limit ≠ 0 ∨ ∀ row ∈ rows, row_matches text f64 q col_idx row = false := by
      rw [hresult, Except.ok.injEq, results_object_inj, collecting.take_max_one_eq_iff, hnone]
    exact ⟨hexact, fun hinj => (text_iff hresult hinj).trans hexact⟩
  · intro products args
    have hresult := @search_result_eq text f64 products args
    have hexact : search_result text f64 products args = .ok (results_object "products"
          ((products.filter (passes text f64 (search_args f64 args))).take (search_args f64 args).limit)) ↔
        (search_args f64 args).limit ≠ 0 ∨
          ∀ product ∈ products, passes text f64 (search_args f64 args) product = false := by
      rw [hresult, Except.ok.injEq, results_object_inj, collecting.take_max_one_eq_iff]
      simp [List.filter_eq_nil_iff]
    exact ⟨hexact, fun hinj => (text_iff hresult hinj).trans hexact⟩

/-- Lowercase of ASCII text, and the JSON text of a boolean. -/
def ascii_text : TextOps where
  to_lowercase s := s.toList.map Char.toLower
  to_string
    | .bool b => if b then "true" else "false"
    | _ => ""

def sku_args (limit : UInt64) : Value :=
  .object [("column", .string "sku"), ("limit", .number (.pos_int limit)), ("value", .string "A")]

def sku_rows : List (List String) := [["B", "5"], ["A", "7"], ["A", "9"]]

def product (category : String) : Value := .object [("category", .string category)]

def category_args (limit : UInt64) : Value := .object [("category", .string "a"), ("limit", .number (.pos_int limit))]

def products : List Value := [product "B", product "A", product "a"]

/-- With a limit of one the first of two matches is returned. -/
theorem queries_exact_sample :
    (∀ f64, query_result ascii_text f64 (.ok ⟨.ok ["sku", "stock"], sku_rows.map Except.ok⟩) (sku_args 1) =
      .ok (results_object "matches" [.object [("sku", .string "A"), ("stock", .string "7")]])) ∧
    ∀ f64, search_result ascii_text f64 products (category_args 1) = .ok (results_object "products" [product "A"]) := by
  constructor
  · intro f64
    have hcolumn : ["sku", "stock"].findIdx? (· = "sku") = some 0 := rfl
    have hexact : query_result ascii_text f64 (.ok ⟨.ok ["sku", "stock"], sku_rows.map Except.ok⟩) (sku_args 1) = .ok _ ↔
        _ := ((queries_exact_iff ascii_text f64).1 rfl hcolumn (by decide)).1
    exact hexact.mpr (.inl Nat.one_ne_zero)
  · intro f64
    exact ((queries_exact_iff ascii_text f64).2 products (category_args 1)).1.mpr (.inl Nat.one_ne_zero)

/-- With a limit of zero the first match is returned as well. -/
theorem limit_zero_returns_a_match :
    (∀ f64, query_result ascii_text f64 (.ok ⟨.ok ["sku", "stock"], sku_rows.map Except.ok⟩) (sku_args 0) =
      .ok (results_object "matches" [.object [("sku", .string "A"), ("stock", .string "7")]])) ∧
    ∀ f64, search_result ascii_text f64 products (category_args 0) = .ok (results_object "products" [product "A"]) :=
  ⟨fun _ => rfl, fun _ => rfl⟩

end flow_engine.queries
