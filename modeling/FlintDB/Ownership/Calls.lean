import FlintDB.Ownership.Binding
import FlintDB.Marshal.KeyArray

/-! # The pointers each call hands the engine

Apart from destructors, the binding passes native pointers to the engine in three ways:
as the receiver of a method called through the object's function table
(`self._t.find(self._t, ...)`), which raises `AttributeError` on `ffi.NULL` before any
call; as `meta._m` or `row._ptr()`, which are passed as they are, NULL included; and in
the arrays `aggregate_new` takes. Each call is given here by whether its native call
happens and with which pointers: the Python arguments it converts first can stop it.
-/

namespace FlintDB

/-! ## cffi's integer conversions -/

/-- cffi converting a Python `int` to a C integer type whose values are `lo..hi`. -/
def toCInteger (lo hi v : Int) : Except PyError Int :=
  if lo ≤ v ∧ v ≤ hi then .ok v else .error .overflow

/-- To `u16`, the type of every row accessor's column index. -/
def toU16Index (v : Int) : Except PyError Int := toCInteger 0 (2 ^ 16 - 1) v

/-- To `i16`, the type of `precision` in `flintdb_meta_columns_add`. -/
def toI16 (v : Int) : Except PyError Int := toCInteger (-2 ^ 15) (2 ^ 15 - 1) v

/-- To `i64`. -/
def toI64 (v : Int) : Except PyError Int := toCInteger (-2 ^ 63) (2 ^ 63 - 1) v

/-- To an `enum` all of whose values are non-negative, which cffi gives the base type
`unsigned int`. -/
def toEnum (v : Int) : Except PyError Int := toCInteger 0 (2 ^ 32 - 1) v

/-! ## Receivers and arguments -/

/-- The classes whose methods call through the native object's function table. -/
inductive Cls where
  | row | cursorI64 | cursorRow | table | genericFile | fileSort | aggregate | sqlResult
  deriving DecidableEq, Repr

/-- `self._r`, `self._c`, `self._t`, ...: the pointer field of an object of class `c`. -/
def Wrapper.field : Cls → Wrapper → Option Ptr
  | .row, .row p _ | .cursorI64, .cursorI64 p | .cursorRow, .cursorRow p | .table, .table p
  | .genericFile, .genericFile p | .fileSort, .fileSort p | .aggregate, .aggregate p
  | .sqlResult, .sqlResult p => some p
  | _, _ => none

/-- The receiver of `obj.method(...)` for a method of class `c` called through the native
function table: none when `obj` is of another class or its pointer is `ffi.NULL`, where
the lookup raises `AttributeError`. -/
def receiver (s : World) (c : Cls) (i : Nat) : Option Handle :=
  ((s.objs[i]?).bind (Wrapper.field c)).join

/-- `row._ptr()`, or `r._ptr() if isinstance(r, Row) else r` on a wrapper: a `Row`'s
`_r`, NULL after `close`; another object has no `_ptr` (or is no pointer to cffi). -/
def rowArg (s : World) (j : Nat) : Option Ptr :=
  (s.objs[j]?).bind (Wrapper.field .row)

/-! ## Calls that change no ownership -/

/-- A method call that passes pointers to the engine and changes no ownership, with the
arguments it converts. -/
inductive Method where
  /-- `meta.add_column(name, variant_type, size, precision, spec, default, comment)`. -/
  | addColumn (i : Nat) (name : StrOrBytes) (variantType size precision spec : Int)
      (default comment : StrOrBytes)
  /-- `meta.add_index(name, algorithm, keys)`. -/
  | addIndex (i : Nat) (name : StrOrBytes) (algorithm : Option StrOrBytes)
      (keys : List StrOrBytes)
  /-- `meta.to_sql_string()`. -/
  | toSqlString (i : Nat)
  /-- `meta.column_at(name)`. -/
  | columnAt (i : Nat) (name : StrOrBytes)
  /-- `row.set_string(idx, value)`. -/
  | setString (i : Nat) (idx : Int) (value : StrOrBytes)
  /-- `row.set_i32(idx, value)`. -/
  | setI32 (i : Nat) (idx value : Int)
  /-- `row.set_i64(idx, value)`. -/
  | setI64 (i : Nat) (idx value : Int)
  /-- `row.set_f64(idx, value)`, whose `float(value)` is taken to succeed. -/
  | setF64 (i : Nat) (idx : Int)
  /-- `row.get_i32(idx)`. -/
  | getI32 (i : Nat) (idx : Int)
  /-- `row.validate()`. -/
  | validate (i : Nat)
  /-- `table.apply(row, check_dup)`. -/
  | apply (i row : Nat) (checkDup : Bool)
  /-- `table.delete_at(rowid)`. -/
  | deleteAt (i : Nat) (rowid : Int)
  /-- `Table.drop(filepath)`. -/
  | tableDrop (filepath : StrOrBytes)
  /-- `gf.write(row)`. -/
  | write (i row : Nat)
  /-- `GenericFile.drop(filepath)`. -/
  | genericFileDrop (filepath : StrOrBytes)
  /-- `fs.add(row)`. -/
  | add (i row : Nat)
  /-- `fs.rows()`. -/
  | rows (i : Nat)
  /-- `fs.sort(compare)`. -/
  | sort (i : Nat)
  /-- `agg.row(r)`. -/
  | aggRow (i row : Nat)
  /-- `res.affected`. -/
  | affected (i : Nat)
  /-- `res.column_names`. -/
  | columnNames (i : Nat)
  /-- `print_row(r)`. -/
  | printRow (row : Nat)
  deriving Repr

/-- The pointers a method reads from wrappers for its native call, in order: its
receiver and its `Row` argument; none when reading one raises. -/
def Method.ptrs (s : World) : Method → Option (List Ptr)
  | .addColumn i .. | .addIndex i .. | .toSqlString i | .columnAt i _ =>
    (metaPtr s i).toOption.map fun m => [m]
  | .setString i .. | .setI32 i .. | .setI64 i .. | .setF64 i _ | .getI32 i _ | .validate i =>
    (receiver s .row i).map fun r => [some r]
  | .apply i row _ => do
    let t ← receiver s .table i
    let p ← rowArg s row
    pure [some t, p]
  | .deleteAt i _ => (receiver s .table i).map fun t => [some t]
  | .tableDrop _ | .genericFileDrop _ => some []
  | .write i row => do
    let g ← receiver s .genericFile i
    let p ← rowArg s row
    pure [some g, p]
  | .add i row => do
    let fs ← receiver s .fileSort i
    let p ← rowArg s row
    pure [some fs, p]
  | .rows i | .sort i => (receiver s .fileSort i).map fun fs => [some fs]
  | .aggRow i row => do
    let p ← rowArg s row
    let a ← receiver s .aggregate i
    pure [some a, p]
  | .affected i | .columnNames i => (receiver s .sqlResult i).map fun res => [some res]
  | .printRow row => (rowArg s row).map fun p => [p]

/-- The objects whose `Row` pointer a method reads: the receiver of a `Row` method, and
the row passed to `apply`, `write`, `add`, `Aggregate.row` and `print_row`. -/
def Method.rowArgs : Method → List Nat
  | .setString i .. | .setI32 i .. | .setI64 i .. | .setF64 i _ | .getI32 i _ | .validate i => [i]
  | .apply _ row _ | .write _ row | .add _ row | .aggRow _ row | .printRow row => [row]
  | _ => []

/-- Whether a method's other arguments go through `_to_cstr` and cffi's conversions. -/
def Method.converts : Method → Bool
  | .addColumn _ name variantType size precision spec default comment =>
    (toCstr name).isOk && (toCstr default).isOk && (toCstr comment).isOk &&
      (toEnum variantType).isOk && (toCInt size).isOk && (toI16 precision).isOk &&
      (toEnum spec).isOk
  | .addIndex _ name algorithm keys => (Meta.addIndexCall () name algorithm keys).isOk
  | .columnAt _ name => (toCstr name).isOk
  | .setString _ idx value => (toCstr value).isOk && (toU16Index idx).isOk
  | .setI32 _ idx value => (toU16Index idx).isOk && (toCInt value).isOk
  | .setI64 _ idx value => (toU16Index idx).isOk && (toI64 value).isOk
  | .setF64 _ idx | .getI32 _ idx => (toU16Index idx).isOk
  | .deleteAt _ rowid => (toI64 rowid).isOk
  | .tableDrop filepath | .genericFileDrop filepath => (toCstr filepath).isOk
  | _ => true

/-- The pointers the native call of a method receives, or none when Python raises before
the call; which exception it raises is not kept. -/
def Method.call (s : World) (m : Method) : Option (List Ptr) :=
  if m.converts then m.ptrs s else none

/-! ## Calls that change ownership -/

/-- The pointers `Aggregate.build` stores in its two arrays for `aggregate_new`: the
`_gb` and `_f` of the listed objects, none when the loops raise; the arrays themselves
are fresh. -/
def Aggregate.passed (s : World) (gbs fns : List Nat) : Option (List Ptr) := do
  let gps ← (transfer GroupBy.take s.objs gbs).2.toOption
  let fps ← (transfer AggFunc.take (transfer GroupBy.take s.objs gbs).1 fns).2.toOption
  pure (gps ++ fps)

/-- The pointers each call of a run reads from wrappers for its native call, none when
reading one raises or there is no such call: `close` calls only destructors, and during
`sort` the engine calls the comparator, which wraps its rows without a native call. -/
def Op.ptrs (s : World) : Op → Option (List Ptr)
  | .metaNew .. | .sqlExec .. | .groupbyNew .. | .funcCount .. | .funcSum .. | .funcAvg .. =>
    some []
  | .rowNew meta _ | .fileSortNew _ meta _ => (metaPtr s meta).toOption.map fun m => [m]
  | .tableNew _ meta _ | .genericFileNew _ meta _ =>
    (metaPtrOrNull s meta).toOption.map fun m => [m]
  | .build _ gbs fns _ => Aggregate.passed s gbs fns
  | .find i _ _ =>
    match s.objs[i]? with
    | some (.table (some t)) | some (.genericFile (some t)) => some [some t]
    | _ => none
  | .read i _ _ =>
    match s.objs[i]? with
    | some (.table (some t)) | some (.fileSort (some t)) => some [some t]
    | _ => none
  | .next i _ _ =>
    match s.objs[i]? with
    | some (.cursorRow (some c)) | some (.cursorI64 (some c)) => some [some c]
    | _ => none
  | .compute i _ => (receiver s .aggregate i).map fun a => [some a]
  | .iterRows i => (receiver s .sqlResult i).map fun res => [some res]
  | .cmpr .. | .close _ => none

/-- Whether a call's other arguments go through `_to_cstr` and cffi's conversions:
`Aggregate.build` converts `agg_id` and the two counts after its loops. -/
def Op.converts : Op → Bool
  | .metaNew str _ | .sqlExec str _ _ | .tableNew str _ _ | .genericFileNew str _ _
  | .fileSortNew str _ _ | .find _ str _ => (toCstr str).isOk
  | .groupbyNew a b _ | .funcCount a b _ | .funcSum a b _ | .funcAvg a b _ =>
    ([a, b].mapM toCstr).isOk
  | .build aggId gbs fns _ =>
    (toCstr aggId).isOk && (toU16 gbs.length).isOk && (toU16 fns.length).isOk
  | _ => true

/-- The pointers the native call of each call of a run receives, destructors aside, or
none when there is no such call. -/
def Op.call (s : World) (op : Op) : Option (List Ptr) :=
  if op.converts then op.ptrs s else none

/-! ## What the calls return

Once its native call has happened, a method hands Python the engine's value after
`_raise_if_err(err)`, through `int(...)` or `bool(...)`; `Table.apply` also raises on a
negative rowid. `FileSort.rows`, `Meta.column_at` and `SqlResult.affected` pass no error
pointer and return the engine's value as it is; `Table.drop` and `GenericFile.drop` pass
`ffi.NULL`, so what the engine reports there never reaches Python. -/

/-- `_raise_if_err(err)`, then `int(v)` of the engine's value `v`. -/
def checkedInt (err : Option String) (v : Int) : Except PyError Int := do
  raiseIfErr err
  pure v

/-- `Table.delete_at(rowid)`: the count the engine returns. -/
def Table.deleteAt (err : Option String) (r : Int) : Except PyError Int := checkedInt err r

/-- `GenericFile.write(row)`: the count the engine returns. -/
def GenericFile.write (err : Option String) (n : Int) : Except PyError Int := checkedInt err n

/-- `FileSort.add(row)`: the count the engine returns. -/
def FileSort.add (err : Option String) (n : Int) : Except PyError Int := checkedInt err n

/-- `FileSort.sort(compare)`: the count the engine returns. -/
def FileSort.sort (err : Option String) (n : Int) : Except PyError Int := checkedInt err n

/-- `Table.apply(row, check_dup)`: the rowid, which must not be negative. -/
def Table.apply (err : Option String) (rowid : Int) : Except PyError Int := do
  raiseIfErr err
  if rowid < 0 then throw (.flintDB "apply returned < 0")
  pure rowid

/-- `Row.validate()`: `bool(ok)`. -/
def Row.validate (err : Option String) (ok : Int) : Except PyError Bool := do
  raiseIfErr err
  pure (ok != 0)

theorem checkedInt_eq_ok_iff {err : Option String} {v r : Int} :
    checkedInt err v = .ok r ↔ err = none ∧ v = r := by
  cases err <;> simp [checkedInt, raiseIfErr, pure, Except.pure, bind, Except.bind]

/-- `Table.apply` hands back only a rowid the engine returned without an error, and
never a negative one. -/
theorem Table.apply_eq_ok_iff {err : Option String} {rowid r : Int} :
    Table.apply err rowid = .ok r ↔ err = none ∧ 0 ≤ rowid ∧ rowid = r := by
  cases err with
  | some msg => simp [Table.apply, raiseIfErr, bind, Except.bind]
  | none =>
    by_cases h : rowid < 0
    · simp [Table.apply, raiseIfErr, h, bind, Except.bind, throw, throwThe, MonadExceptOf.throw]
    · simp [Table.apply, raiseIfErr, h, bind, Except.bind, pure, Except.pure]
      omega

end FlintDB
