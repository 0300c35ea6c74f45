import FlintDB.Tutorial.Script

/-! # The tutorial

`tutorial.py` as a program of calls: each of its eight functions with every call it
makes to the binding, in order, and `main` running them one after another. What the engine
answers (the rows a cursor finds, what `column_at` returns, the pairs the sort compares)
is a parameter. Every program the tutorial makes is safe, so whatever the engine answers,
no handle is destroyed twice or owned twice, and every call along the run, method calls
included, hands the engine only pointers it can use: the rows a table, a cursor or the
sort lent it are used only while their lender still lends them. The same holds however
the tutorial stops, when a call raises and the `with` blocks close their objects.
-/

namespace FlintDB.Tutorial

open Script

/-- `VARIANT_INT32`. -/
def VARIANT_INT32 : Int := 2

/-- `VARIANT_INT64`. -/
def VARIANT_INT64 : Int := 8

/-- `VARIANT_DOUBLE`. -/
def VARIANT_DOUBLE : Int := 9

/-- `VARIANT_STRING`. -/
def VARIANT_STRING : Int := 11

/-- `SPEC_NOT_NULL`. -/
def SPEC_NOT_NULL : Int := 1

/-- `PRIMARY_NAME.decode()`, of `PRIMARY_NAME = b"primary"`. -/
def PRIMARY_NAME : String := "primary"

/-- `mt.add_column(name, variant_type, size=size, spec=SPEC_NOT_NULL, default=default,
comment=comment)`: every column of the tutorial is `NOT NULL`, with precision 0. -/
def notNullColumn (mt : Nat) (name : String) (variantType size : Int) (default comment : String) :
    Method :=
  .addColumn mt (.ofString name) variantType size 0 SPEC_NOT_NULL (.ofString default)
    (.ofString comment)

/-! ## The loops -/

/-- `for v in vs: with Row(mt) as r: ...`: for each value a `Row` over the `Meta` `mt`,
the method calls that fill and use it, then its close. -/
def withRows {α : Type} (mt : Nat) (fill : Nat → α → List Method) : List α → Script → Script
  | [], k => k
  | v :: vs, k => .bind (.rowNew mt .ok) fun r => .methods (fill r v) <|
    .seq (.close r) (withRows mt fill vs k)

/-- `for rowid in c: ... tbl.read(rowid) ...` over the `CursorI64` `c` and the `Table`
`tbl`: a `next` and a read for each row found, with the body's method calls on the `Row`
read, then the `next` that returns a negative rowid. -/
def readEach (c tbl : Nat) (body : Nat → List Method) : List Nat → Script → Script
  | [], k => .seq (.next c .ok 0) k
  | row :: rows, k => .seq (.next c .ok 0) <| .bind (.read tbl .ok row) fun r =>
    .methods (body r) (readEach c tbl body rows k)

/-- `for row in c: ...` over the `CursorRow` `c`: a `next` for each row, with the body's
method calls on it, then the `next` that returns NULL. -/
def eachRow (c : Nat) (body : Nat → List Method) : List Nat → Script → Script
  | [], k => .seq (.next c .done 0) k
  | row :: rows, k => .bind (.next c .ok row) fun r => .methods (body r) (eachRow c body rows k)

/-- The comparisons of `fs.sort(compare_by_value)`: for each pair of engine rows the sort
hands `_cmpr`, `compare_by_value(_ctx, a, b)` reads `a.get_i32(0)`, then `b.get_i32(0)`. -/
def compareEach (fs : Nat) : List (Nat × Nat) → Script → Script
  | [], k => k
  | (a, b) :: ps, k => .call (.cmpr fs a b) fun rows =>
    .methods (rows.map fun r => .getI32 r 0) (compareEach fs ps k)

/-- `for i in range(count): with fs.read(i) as r: print_row(r)`. -/
def readSorted (fs : Nat) : Nat → Script → Script
  | 0, k => k
  | n + 1, k => .bind (.read fs .ok 0) fun r => .methods [.printRow r] <|
    .seq (.close r) (readSorted fs n k)

/-- `for r in agg.compute(): print_row(r); r.close()`. -/
def printClose : List Nat → Script → Script
  | [], k => k
  | r :: rows, k => .method (.printRow r) <| .seq (.close r) (printClose rows k)

/-- `for sql in insert_sqls: with sql_exec(sql) as res: total_affected += res.affected`,
from the `n`-th statement on, whose result has a row cursor when `cursor n`. -/
def execEach (cursor : Nat → Bool) : Nat → List String → Script → Script
  | _, [], k => k
  | n, sql :: sqls, k => .bind (.sqlExec (.ofString sql) .ok (cursor n)) fun res =>
    .methods [.affected res] <| .seq (.close res) (execEach cursor (n + 1) sqls k)

/-- `for row_ptr in res.iter_rows(): print_row(row_ptr)`, then the rest of the program:
`iter_rows` hands back a `CursorRow`, or `[]` when the result has no row cursor. -/
def printEach (employees : List Nat) (k : Script) : List Nat → Script
  | [cur] => eachRow cur (fun row => [.printRow row]) employees k
  | _ => k

/-! ## The tutorials

Each takes the rest of the program, `k`, which runs when it returns 0. -/

/-- `tutorial_table_create()`. -/
def tableCreate (k : Script) : Script :=
  let tablename := "./temp/tutorial_customer.flintdb"
  .method (.tableDrop (.ofString tablename)) <|
  .bind (.metaNew (.ofString tablename) .ok) fun mt =>
  .methods [notNullColumn mt "id" VARIANT_INT64 0 "0" "PRIMARY KEY",
    notNullColumn mt "name" VARIANT_STRING 50 "" "Customer name",
    notNullColumn mt "age" VARIANT_INT32 0 "0" "Customer age",
    .addIndex mt (.ofString PRIMARY_NAME) none [.ofString "id"],
    .addIndex mt (.ofString "ix_age") none [.ofString "age"], .toSqlString mt] <|
  .bind (.tableNew (.ofString tablename) (some mt) .ok) fun tbl =>
  withRows mt (fun row (i : Nat) => [.setI64 row 0 (i + 1),
    .setString row 1 (.ofString ("Customer " ++ toString (i + 1))), .setI32 row 2 (30 + i),
    .validate row, .apply tbl row false]) (List.range 3) <|
  .seq (.close tbl) <| .seq (.close mt) k

/-- `tutorial_table_find()`, the cursor finding `found`. -/
def tableFind (found : List Nat) (k : Script) : Script :=
  .bind (.tableNew (.ofString "./temp/tutorial_customer.flintdb") none .ok) fun tbl =>
  .bind (.find tbl (.ofString "WHERE age >= 31") .ok) fun cursor =>
  readEach cursor tbl (fun row => [.printRow row]) found <|
  .seq (.close cursor) <| .seq (.close tbl) k

/-- `if rowid > -1: old_row = tbl.read(rowid); print_row(old_row)`, with the engine's row
when the cursor found one. -/
def readFirst (tbl : Nat) : Option Nat → Script → Script
  | some row, k => .bind (.read tbl .ok row) fun r => .methods [.printRow r] k
  | none, k => k

/-- `tutorial_table_update_delete()`: the first cursor finding `updated`, the second
`deleted`, the third `remaining`. -/
def tableUpdateDelete (updated : Option Nat) (deleted : Option Int) (remaining : List Nat)
    (k : Script) : Script :=
  .bind (.tableNew (.ofString "./temp/tutorial_customer.flintdb") none .ok) fun tbl =>
  .bind (.find tbl (.ofString "WHERE age = 30") .ok) fun cursor =>
  .seq (.next cursor .ok 0) <| readFirst tbl updated <| .seq (.close cursor) <|
  .bind (.find tbl (.ofString "WHERE id = 3") .ok) fun cursor =>
  .seq (.next cursor .ok 0) <| .methods (deleted.toList.map (.deleteAt tbl)) <|
  .seq (.close cursor) <|
  .bind (.find tbl (.ofString "") .ok) fun cursor =>
  readEach cursor tbl (fun row => [.printRow row]) remaining <|
  .seq (.close cursor) <| .seq (.close tbl) k

/-- `tutorial_tsv_create()`, `mt.column_at(name)` returning `column name`. -/
def tsvCreate (column : String → Int) (k : Script) : Script :=
  let filepath := "./temp/tutorial_products.tsv"
  .method (.genericFileDrop (.ofString filepath)) <|
  .bind (.metaNew (.ofString filepath) .ok) fun mt =>
  .methods [notNullColumn mt "product_id" VARIANT_INT32 0 "" "",
    notNullColumn mt "product_name" VARIANT_STRING 100 "" "",
    notNullColumn mt "price" VARIANT_DOUBLE 0 "" ""] <|
  .bind (.genericFileNew (.ofString filepath) (some mt) .ok) fun gf =>
  withRows mt (fun row (i : Nat) => [.columnAt mt (.ofString "product_id"),
    .setI32 row (column "product_id") (101 + i), .columnAt mt (.ofString "product_name"),
    .setString row (column "product_name")
      (.ofString ("Product-" ++ String.singleton (Char.ofNat ('A'.toNat + i)))),
    .columnAt mt (.ofString "price"), .setF64 row (column "price"), .write gf row])
    (List.range 3) <|
  .seq (.close gf) <| .seq (.close mt) k

/-- `tutorial_tsv_find()`, the cursor yielding `products`. -/
def tsvFind (products : List Nat) (k : Script) : Script :=
  .bind (.genericFileNew (.ofString "./temp/tutorial_products.tsv") none .ok) fun gf =>
  .bind (.find gf (.ofString "WHERE product_id >= 102") .ok) fun cursor =>
  eachRow cursor (fun row => [.printRow row]) products <|
  .seq (.close cursor) <| .seq (.close gf) k

/-- `tutorial_filesort()`, the sort comparing the pairs `compared` and `fs.rows()`
returning `count`. -/
def filesort (compared : List (Nat × Nat)) (count : Nat) (k : Script) : Script :=
  let filepath := "./temp/tutorial_sort.dat"
  .bind (.metaNew (.ofString filepath) .ok) fun mt =>
  .methods [notNullColumn mt "value" VARIANT_INT32 0 "0" "Sort value",
    notNullColumn mt "label" VARIANT_STRING 20 "" "Label"] <|
  .bind (.fileSortNew (.ofString filepath) mt .ok) fun fs =>
  withRows mt (fun r (v : Int) => [.setI32 r 0 v, .setString r 1 (.ofString ("Item-" ++ toString v)),
    .add fs r]) [5, 2, 8, 1, 9, 3] <|
  .method (.sort fs) <| compareEach fs compared <| .method (.rows fs) <|
  readSorted fs count <|
  .seq (.close fs) <| .seq (.close mt) k

/-- The `sales` of `tutorial_aggregate`: product, category and quantity; the price is a
float, which `set_f64` takes. -/
def sales : List (String × String × Int) :=
  [("Apple", "Fruit", 10), ("Banana", "Fruit", 15), ("Carrot", "Vegetable", 8),
    ("Tomato", "Vegetable", 12), ("Orange", "Fruit", 7)]

/-- `tutorial_aggregate()`, the cursor finding `found` and `compute` answering `groups`:
the row array, none when it returns `n <= 0` or NULL, each entry `true` when its row is
not NULL. -/
def aggregate (found : List Nat) (groups : Option (List Bool)) (k : Script) : Script :=
  let tablename := "./temp/tutorial_sales.flintdb"
  .method (.tableDrop (.ofString tablename)) <|
  .bind (.metaNew (.ofString tablename) .ok) fun mt =>
  .methods [notNullColumn mt "product" VARIANT_STRING 20 "" "Product name",
    notNullColumn mt "category" VARIANT_STRING 20 "" "Category",
    notNullColumn mt "quantity" VARIANT_INT32 0 "0" "Quantity sold",
    notNullColumn mt "price" VARIANT_DOUBLE 0 "0.0" "Unit price",
    .addIndex mt (.ofString PRIMARY_NAME) none [.ofString "product"]] <|
  .bind (.tableNew (.ofString tablename) (some mt) .ok) fun tbl =>
  withRows mt (fun r v => [.setString r 0 (.ofString v.1), .setString r 1 (.ofString v.2.1),
    .setI32 r 2 v.2.2, .setF64 r 3, .apply tbl r false]) sales <|
  .bind (.groupbyNew (.ofString "category") (.ofString "category") .ok) fun groupby =>
  .bind (.funcCount (.ofString "*") (.ofString "count") .ok) fun count =>
  .bind (.funcSum (.ofString "quantity") (.ofString "total_quantity") .ok) fun sum =>
  .bind (.funcAvg (.ofString "price") (.ofString "avg_price") .ok) fun avg =>
  .bind (.build (.ofString "sales_by_category") [groupby] [count, sum, avg] .ok) fun agg =>
  .bind (.find tbl (.ofString "") .ok) fun c =>
  readEach c tbl (fun row => [.aggRow agg row]) found <| .seq (.close c) <|
  .call (.compute agg ⟨none, groups⟩) fun rows => printClose rows <|
  .seq (.close agg) <| .seq (.close tbl) <| .seq (.close mt) k

/-- The `insert_sqls` of `tutorial_flintdb_sql_exec`. -/
def insertSqls : List String :=
  ["INSERT INTO ./temp/tutorial_employees.flintdb VALUES (1, \x27Alice\x27, \x27Engineering\x27, 75000.0)",
    "INSERT INTO ./temp/tutorial_employees.flintdb VALUES (2, \x27Bob\x27, \x27Sales\x27, 65000.0)",
    "INSERT INTO ./temp/tutorial_employees.flintdb VALUES (3, \x27Charlie\x27, \x27Engineering\x27, 80000.0)"]

/-- `tutorial_flintdb_sql_exec()`, the result of its `n`-th statement having a row cursor
when `cursor n`, and the `SELECT`'s cursor yielding `employees`. -/
def flintdbSqlExec (cursor : Nat → Bool) (employees : List Nat) (k : Script) : Script :=
  let tablename := "./temp/tutorial_employees.flintdb"
  .method (.tableDrop (.ofString tablename)) <|
  .bind (.metaNew (.ofString tablename) .ok) fun mt =>
  .methods [notNullColumn mt "id" VARIANT_INT64 0 "0" "Employee ID",
    notNullColumn mt "name" VARIANT_STRING 50 "" "Employee name",
    notNullColumn mt "department" VARIANT_STRING 30 "" "Department",
    notNullColumn mt "salary" VARIANT_DOUBLE 0 "0.0" "Salary",
    .addIndex mt (.ofString PRIMARY_NAME) none [.ofString "id"]] <|
  .bind (.tableNew (.ofString tablename) (some mt) .ok) fun tbl =>
  .seq (.close tbl) <| .seq (.close mt) <|
  execEach cursor 0 insertSqls <|
  .bind (.sqlExec (.ofString
    "SELECT * FROM ./temp/tutorial_employees.flintdb WHERE department = \x27Engineering\x27")
    .ok (cursor insertSqls.length)) fun res =>
  .methods [.columnNames res] <| .call (.iterRows res) (printEach employees (.seq (.close res) k))

/-- What the engine answers during `main`. -/
structure Answers where
  /-- `tutorial_table_find`: the row read for each rowid found. -/
  found : List Nat
  /-- `tutorial_table_update_delete`: the row read for the first rowid of age 30, if any. -/
  updated : Option Nat
  /-- `tutorial_table_update_delete`: the first rowid of id 3, if any. -/
  deleted : Option Int
  /-- `tutorial_table_update_delete`: the row read for each rowid left. -/
  remaining : List Nat
  /-- `tutorial_tsv_find`: the rows its cursor yields. -/
  products : List Nat
  /-- `tutorial_tsv_create`: what `mt.column_at(name)` returns. -/
  column : String → Int
  /-- `tutorial_filesort`: the pairs of rows `sort` hands the comparator. -/
  compared : List (Nat × Nat)
  /-- `tutorial_filesort`: what `fs.rows()` returns. -/
  count : Nat
  /-- `tutorial_aggregate`: the row read for each rowid found. -/
  salesFound : List Nat
  /-- `tutorial_aggregate`: the row array of `compute`. -/
  groups : Option (List Bool)
  /-- `tutorial_flintdb_sql_exec`: whether the result of its `n`-th statement has a row
  cursor. -/
  cursor : Nat → Bool
  /-- `tutorial_flintdb_sql_exec`: the rows the `SELECT`'s cursor yields. -/
  employees : List Nat

/-- `main()` when each tutorial returns 0. -/
def main (a : Answers) : Script :=
  tableCreate <| tableFind a.found <| tableUpdateDelete a.updated a.deleted a.remaining <|
    tsvCreate a.column <| tsvFind a.products <| filesort a.compared a.count <|
    aggregate a.salesFound a.groups <| flintdbSqlExec a.cursor a.employees .stop

/-- The calls `main()` makes, in order. -/
def mainCalls (a : Answers) : List Call := (main a).calls World.init

/-! ## The loops are safe -/

section Loops

variable {k : Script}

theorem withRows_safe {α : Type} {mt : Nat} {fill : Nat → α → List Method}
    (hfill : ∀ r v, ∀ m ∈ fill r v, ∀ j ∈ m.rowArgs, j = r) (hk : k.Safe) :
    ∀ vs, (withRows mt fill vs k).Safe
  | [] => hk
  | v :: vs => .bind_methods rfl (fun r => hfill r v) fun _ => .seq rfl (withRows_safe hfill hk vs)

theorem readEach_safe {c tbl : Nat} {body : Nat → List Method}
    (hbody : ∀ r, ∀ m ∈ body r, ∀ j ∈ m.rowArgs, j = r) (hk : k.Safe) :
    ∀ rows, (readEach c tbl body rows k).Safe
  | [] => .seq rfl hk
  | _ :: rows => .seq rfl (.bind_methods rfl hbody fun _ => readEach_safe hbody hk rows)

theorem eachRow_safe {c : Nat} {body : Nat → List Method}
    (hbody : ∀ r, ∀ m ∈ body r, ∀ j ∈ m.rowArgs, j = r) (hk : k.Safe) :
    ∀ rows, (eachRow c body rows k).Safe
  | [] => .seq rfl hk
  | _ :: rows => .bind_methods rfl hbody fun _ => eachRow_safe hbody hk rows

theorem compareEach_safe {fs : Nat} (hk : k.Safe) : ∀ ps, (compareEach fs ps k).Safe
  | [] => hk
  | _ :: ps => .call_methods rfl (fun l m hm j hj => by
      obtain ⟨r, hr, rfl⟩ := List.mem_map.mp hm
      rwa [List.mem_singleton.mp hj]) fun _ => compareEach_safe hk ps

theorem readSorted_safe {fs : Nat} (hk : k.Safe) : ∀ n, (readSorted fs n k).Safe
  | 0 => hk
  | n + 1 => .bind_methods rfl (fun _ _ hm _ hj => by
      rw [List.mem_singleton.mp hm] at hj
      exact List.mem_singleton.mp hj) fun _ => .seq rfl (readSorted_safe hk n)

theorem execEach_safe {cursor : Nat → Bool} (hk : k.Safe) :
    ∀ n sqls, (execEach cursor n sqls k).Safe
  | _, [] => hk
  | n, _ :: sqls => .bind rfl fun _ =>
    .methods (by simp [Method.rowArgs]) (.seq rfl (execEach_safe hk (n + 1) sqls))

theorem printEach_safe {employees : List Nat} (hk : k.Safe) : ∀ l, (printEach employees k l).Safe
  | [_] => eachRow_safe (by simp [Method.rowArgs]) hk employees
  | [] | _ :: _ :: _ => hk

/-- Closing an object leaves every other `Row` as borrowed as it was, and a closed `Row`
wraps nothing. -/
theorem borrowed_close {t : World} {i j : Nat} (h : ∀ w ∈ t.objs[j]?, w.borrowed = none) :
    ∀ w ∈ (step t (.close i)).objs[j]?, w.borrowed = none := fun w hw => by
  rw [step_close] at hw
  by_cases hij : i = j
  · subst hij
    rw [getElem?_close] at hw
    obtain ⟨w₀, -, rfl⟩ := Option.map_eq_some'.mp hw
    exact w₀.borrowed_closed
  · rcases close_objs i t with e | ⟨w₀, e⟩ <;> rw [e] at hw
    · exact h w hw
    · rw [List.getElem?_set_ne hij] at hw
      exact h w hw

/-- The `Row`s `compute` hands back own their rows. -/
theorem compute_created_owned {s : World} {agg : Nat} {c : Computed} {j : Nat}
    (hj : j ∈ created s (.compute agg c)) :
    ∀ w ∈ (step s (.compute agg c)).objs[j]?, w.borrowed = none := by
  have hl := (mem_created.mp hj).1
  obtain ⟨ws, e, hws⟩ : ∃ ws, (step s (.compute agg c)).objs = s.objs ++ ws ∧
      ∀ w ∈ ws, w.borrowed = none := by
    simp only [FlintDB.step]
    split
    · exact Aggregate.compute_objs c s
    · exact ⟨[], by simp, nofun⟩
  intro w hw
  rw [e, List.getElem?_append_right hl] at hw
  exact hws w (List.getElem?_mem hw)

theorem printClose_good {k : Script} (hk : k.Safe) : ∀ {rows : List Nat} {t : World}, Sound t →
    (∀ j ∈ rows, ∀ w ∈ t.objs[j]?, w.borrowed = none) → (printClose rows k).Good t
  | [], t, ht, _ => hk t ht
  | r :: rows, t, ht, hr => good_method.mpr ⟨(fun j hj w hw x hx => by
      obtain rfl := List.mem_singleton.mp hj
      rw [hr j (List.mem_cons_self _ _) w hw] at hx
      cases hx),
    good_call.mpr ⟨trivial, printClose_good hk (ht.step trivial) fun j hj =>
      borrowed_close (hr j (List.mem_cons_of_mem _ hj))⟩⟩

/-- `for r in agg.compute(): print_row(r); r.close()`: the rows `compute` hands back are
owned, so each is usable until its own close. -/
theorem compute_printClose_safe {agg : Nat} {c : Computed} (hk : k.Safe) :
    (Script.call (.compute agg c) fun rows => printClose rows k).Safe := fun _ hs =>
  good_call.mpr ⟨trivial, printClose_good hk (hs.step trivial) fun _ hj => compute_created_owned hj⟩

end Loops

/-! ## The tutorials are safe -/

section Tutorials

variable {k : Script}

theorem tableCreate_safe (hk : k.Safe) : (tableCreate k).Safe := by
  refine .method ?_ <| .bind ?_ fun _ => .methods ?_ <| .bind ?_ fun _ =>
    withRows_safe ?_ (.seq ?_ <| .seq ?_ hk) _
  all_goals first | rfl | simp [notNullColumn, Method.rowArgs]

theorem tableFind_safe (found : List Nat) (hk : k.Safe) : (tableFind found k).Safe := by
  refine .bind ?_ fun _ => .bind ?_ fun _ => readEach_safe ?_ (.seq ?_ <| .seq ?_ hk) _
  all_goals first | rfl | simp [Method.rowArgs]

theorem readFirst_safe {tbl : Nat} (hk : k.Safe) : ∀ row, (readFirst tbl row k).Safe
  | some _ => .bind_methods rfl (by simp [Method.rowArgs]) fun _ => hk
  | none => hk

theorem tableUpdateDelete_safe (updated : Option Nat) (deleted : Option Int)
    (remaining : List Nat) (hk : k.Safe) : (tableUpdateDelete updated deleted remaining k).Safe := by
  refine .bind ?_ fun _ => .bind ?_ fun _ => .seq ?_ <| readFirst_safe (.seq ?_ <|
    .bind ?_ fun _ => .seq ?_ <| .methods ?_ <| .seq ?_ <|
    .bind ?_ fun _ => readEach_safe ?_ (.seq ?_ <| .seq ?_ hk) _) _
  all_goals first | rfl | simp [Method.rowArgs]

theorem tsvCreate_safe (column : String → Int) (hk : k.Safe) : (tsvCreate column k).Safe := by
  refine .method ?_ <| .bind ?_ fun _ => .methods ?_ <| .bind ?_ fun _ =>
    withRows_safe ?_ (.seq ?_ <| .seq ?_ hk) _
  all_goals first | rfl | simp [notNullColumn, Method.rowArgs]

theorem tsvFind_safe (products : List Nat) (hk : k.Safe) : (tsvFind products k).Safe := by
  refine .bind ?_ fun _ => .bind ?_ fun _ => eachRow_safe ?_ (.seq ?_ <| .seq ?_ hk) _
  all_goals first | rfl | simp [Method.rowArgs]

theorem filesort_safe (compared : List (Nat × Nat)) (count : Nat) (hk : k.Safe) :
    (filesort compared count k).Safe := by
  refine .bind ?_ fun _ => .methods ?_ <| .bind ?_ fun _ => withRows_safe ?_ (.method ?_ <|
    compareEach_safe (.method ?_ <| readSorted_safe (.seq ?_ <| .seq ?_ hk) _) _) _
  all_goals first | rfl | simp [notNullColumn, Method.rowArgs]

theorem aggregate_safe (found : List Nat) (groups : Option (List Bool)) (hk : k.Safe) :
    (aggregate found groups k).Safe := by
  refine .method ?_ <| .bind ?_ fun _ => .methods ?_ <| .bind ?_ fun _ => withRows_safe ?_
    (.build_new ?_ ?_ ?_ ?_ fun _ _ _ _ _ => .bind ?_ fun _ => readEach_safe ?_ (.seq ?_ <|
      compute_printClose_safe <| .seq ?_ <| .seq ?_ <| .seq ?_ hk) _) _
  all_goals first | rfl | simp [notNullColumn, Method.rowArgs]

theorem flintdbSqlExec_safe (cursor : Nat → Bool) (employees : List Nat) (hk : k.Safe) :
    (flintdbSqlExec cursor employees k).Safe := by
  refine .method ?_ <| .bind ?_ fun _ => .methods ?_ <| .bind ?_ fun _ => .seq ?_ <| .seq ?_ <|
    execEach_safe (.sqlExec_iterRows ?_ fun _ => printEach_safe (.seq ?_ hk)) _ _
  all_goals first | rfl | simp [notNullColumn, Method.rowArgs]

theorem main_safe (a : Answers) : (main a).Safe :=
  tableCreate_safe <| tableFind_safe _ <| tableUpdateDelete_safe _ _ _ <| tsvCreate_safe _ <|
    tsvFind_safe _ <| filesort_safe _ _ <| aggregate_safe _ _ <| flintdbSqlExec_safe _ _ .stop

end Tutorials

/-! ## Safety and liveness along `main` -/

/-- Whatever the engine answers, the tutorial passes no handle to a destructor twice,
leaves none with two owners or with an owner after it was destroyed, and each call it
makes, method calls included, hands the engine only pointers it can use at that point:
handles not destroyed, and engine rows whose lender has not taken them back. -/
theorem main_safe_live (a : Answers) :
    (run World.init (Call.ops (mainCalls a))).freed.Nodup ∧
      (holders (run World.init (Call.ops (mainCalls a)))).Nodup ∧
      (∀ h ∈ (run World.init (Call.ops (mainCalls a))).freed,
        h ∉ holders (run World.init (Call.ops (mainCalls a)))) ∧
      ∀ pre c post, mainCalls a = pre ++ c :: post → ∀ ps,
        c.call (run World.init (Call.ops pre)) = some ps →
          Usable (run World.init (Call.ops pre)) ps :=
  have hg := main_safe a World.init Sound.init
  have v := (Sound.init.run hg.properRun).valid
  ⟨v.freed_nodup, v.held_nodup, v.disjoint, hg.usable Sound.init⟩

end FlintDB.Tutorial
