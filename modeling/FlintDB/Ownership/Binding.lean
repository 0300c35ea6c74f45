import FlintDB.Ownership.World

/-! # The binding's calls

The constructors, the reads and `Aggregate.build` and `compute` as transformers of
the world, each with what the Python call returns or raises. The engine's answers
(the error it sets, a NULL result, which rows) are inputs, so the runs of the model
are the binding's runs against every engine. The loop of `compute` is also given in
closed form.
-/

namespace FlintDB

/-- What a native call reports: the message it left in the error pointer, and
whether the pointer it returned is NULL. -/
structure Native where
  err : Option String
  null : Bool
  deriving DecidableEq, Repr

/-- The shape the constructors and the pointer-returning calls share: the native call
(`ptr` gives the pointer and what the engine records), `_raise_if_err(err)`, the NULL
check with the call's own message, then the wrapper. -/
def construct (ptr : World → Handle × World) (mk : Handle → Wrapper) (nullMsg : String)
    (r : Native) (s : World) : World × Except PyError Nat :=
  if r.null then (s, .error (.flintDB (r.err.getD nullMsg)))
  else
    match ptr s, r.err with
    | (_, s'), some msg => (s', .error (.flintDB msg))
    | (h, s'), none => (s'.push (mk h), .ok s'.objs.length)

/-- A call whose argument evaluation raises before the call. -/
def withArg {α β : Type} (a : Except PyError α) (k : α → World → World × Except PyError β)
    (s : World) : World × Except PyError β :=
  match a with
  | .ok x => k x s
  | .error e => (s, .error e)

/-- `meta._m`; an object of another class has no `_m`. -/
def metaPtr (s : World) (i : Nat) : Except PyError Ptr :=
  match s.objs[i]? with
  | some (.meta m) => .ok m
  | _ => .error .attribute

/-- `ffi.NULL if meta is None else meta._m`. -/
def metaPtrOrNull (s : World) : Option Nat → Except PyError Ptr
  | none => .ok none
  | some i => metaPtr s i

/-! ## Constructors -/

/-- `Meta(filepath)`. -/
def Meta.new (filepath : StrOrBytes) (r : Native) (s : World) : World × Except PyError Nat :=
  withArg (toCstr filepath)
    (fun _ => construct World.alloc (fun h => .meta (some h)) "meta_new_ptr returned NULL" r) s

/-- `Row(meta)`. -/
def Row.new (meta : Nat) (r : Native) (s : World) : World × Except PyError Nat :=
  withArg (metaPtr s meta)
    (fun _ => construct World.alloc (fun h => .row (some h) true) "row_new returned NULL" r) s

/-- `Table(filepath, mode, meta)`: `meta._m`, then `_to_cstr(filepath)`. -/
def Table.new (filepath : StrOrBytes) (meta : Option Nat) (r : Native) (s : World) :
    World × Except PyError Nat :=
  withArg (do let _ ← metaPtrOrNull s meta; toCstr filepath)
    (fun _ => construct World.alloc (fun h => .table (some h)) "table_open returned NULL" r) s

/-- `GenericFile(filepath, mode, meta)`: `meta._m`, then `_to_cstr(filepath)`. -/
def GenericFile.new (filepath : StrOrBytes) (meta : Option Nat) (r : Native) (s : World) :
    World × Except PyError Nat :=
  withArg (do let _ ← metaPtrOrNull s meta; toCstr filepath)
    (fun _ => construct World.alloc (fun h => .genericFile (some h))
      "genericfile_open returned NULL" r) s

/-- `FileSort(filepath, meta)`: `_to_cstr(filepath)`, then `meta._m`. -/
def FileSort.new (filepath : StrOrBytes) (meta : Nat) (r : Native) (s : World) :
    World × Except PyError Nat :=
  withArg (do let _ ← toCstr filepath; metaPtr s meta)
    (fun _ => construct World.alloc (fun h => .fileSort (some h))
      "filesort_new returned NULL" r) s

/-- `groupby_new(alias, column, variant_type)`. -/
def groupbyNew (aliasName column : StrOrBytes) (r : Native) (s : World) :
    World × Except PyError Nat :=
  withArg ([aliasName, column].mapM toCstr)
    (fun _ => construct World.alloc (fun h => .groupBy (some h) true)
      "groupby_new returned NULL" r) s

/-- `func_count(name, alias, variant_type)`. -/
def funcCount (name aliasName : StrOrBytes) (r : Native) (s : World) :
    World × Except PyError Nat :=
  withArg ([name, aliasName].mapM toCstr)
    (fun _ => construct World.alloc (fun h => .aggFunc (some h) true)
      "func_count returned NULL" r) s

/-- `func_sum(name, alias, variant_type)`. -/
def funcSum (name aliasName : StrOrBytes) (r : Native) (s : World) :
    World × Except PyError Nat :=
  withArg ([name, aliasName].mapM toCstr)
    (fun _ => construct World.alloc (fun h => .aggFunc (some h) true)
      "func_sum returned NULL" r) s

/-- `func_avg(name, alias, variant_type)`. -/
def funcAvg (name aliasName : StrOrBytes) (r : Native) (s : World) :
    World × Except PyError Nat :=
  withArg ([name, aliasName].mapM toCstr)
    (fun _ => construct World.alloc (fun h => .aggFunc (some h) true)
      "func_avg returned NULL" r) s

/-- The engine creating an SQL result, with a row cursor when it has rows. -/
def newResult (cursor : Bool) (s : World) : Handle × World :=
  let (res, s) := s.alloc
  let (c, s) := if cursor then (some s.alloc.1, s.alloc.2) else (none, s)
  (res, { s with results := s.results ++ [(res, c)] })

/-- `sql_exec(sql)`. -/
def sqlExec (sql : StrOrBytes) (r : Native) (cursor : Bool) (s : World) :
    World × Except PyError Nat :=
  withArg (toCstr sql)
    (fun _ => construct (newResult cursor) (fun h => .sqlResult (some h))
      "sql_exec returned NULL" r) s

/-! ## Calls on a wrapper -/

/-- `Table.find(where)`. -/
def Table.find (whereClause : StrOrBytes) (r : Native) (s : World) :
    World × Except PyError Nat :=
  withArg (toCstr whereClause)
    (fun _ => construct World.alloc (fun h => .cursorI64 (some h)) "find returned NULL" r) s

/-- `GenericFile.find(where)`. -/
def GenericFile.find (whereClause : StrOrBytes) (r : Native) (s : World) :
    World × Except PyError Nat :=
  withArg (toCstr whereClause)
    (fun _ => construct World.alloc (fun h => .cursorRow (some h))
      "genericfile.find returned NULL" r) s

/-- `Table.read(rowid)` on the table whose handle is `t`: the engine's row, which the
table lends until it is closed, wrapped as borrowed. -/
def Table.read (t : Handle) (r : Native) (row : Nat) (s : World) : World × Except PyError Nat :=
  construct (fun s => (.view row, s.lend row t)) (fun h => .row (some h) false)
    "read returned NULL" r s

/-- `FileSort.read(i)`: a row of its own, wrapped as owned. -/
def FileSort.read (r : Native) (s : World) : World × Except PyError Nat :=
  construct World.alloc (fun h => .row (some h) true) "filesort.read returned NULL" r s

/-- `CursorRow.next()` on the cursor whose handle is `c`: the cursor advances, which takes
back the row it lent before; then the engine's row, which the cursor lends until it
advances again, wrapped as borrowed, or `None` at the end. -/
def CursorRow.next (c : Handle) (r : Native) (row : Nat) (s : World) :
    World × Except PyError (Option Nat) :=
  let s := s.takeBack c
  match r.err with
  | some msg => (s, .error (.flintDB msg))
  | none =>
    if r.null then (s, .ok none)
    else ((s.lend row c).push (.row (some (.view row)) false), .ok (some s.objs.length))

/-- The engine calling `_cmpr(_ctx, a, b)` during `FileSort.sort` on the sort whose handle
is `fs`: the rows of the comparison before are taken back, the sort lends `a` and `b`,
and both are wrapped as borrowed before the comparator runs. -/
def FileSort.cmprRows (fs : Handle) (a b : Nat) (s : World) : World :=
  ((((s.takeBack fs).lend a fs).lend b fs).push (.row (some (.view a)) false)).push
    (.row (some (.view b)) false)

/-- `SqlResult.iter_rows()`: a new `CursorRow` over `self._res.row_cursor`, or `[]`
when it is NULL. -/
def SqlResult.iterRows (res : Handle) (s : World) : World × Except PyError (Option Nat) :=
  match s.results.lookup res with
  | some (some c) => (s.push (.cursorRow (some c)), .ok (some s.objs.length))
  | _ => (s, .ok none)

/-! ## Aggregates -/

/-- One of the loops of `Aggregate.build`: `arr[i] = obj._gb` (or `obj._f`) and
`obj._owned = False` for each listed object, `take` reading the pointer and clearing
the flag; an object of another class raises at its turn, the ones before it cleared. -/
def transfer (take : Wrapper → Option (Ptr × Wrapper)) :
    List Wrapper → List Nat → List Wrapper × Except PyError (List Ptr)
  | objs, [] => (objs, .ok [])
  | objs, i :: is =>
    match objs[i]?.bind take with
    | some (p, w) => ((transfer take (objs.set i w) is).1,
        (p :: ·) <$> (transfer take (objs.set i w) is).2)
    | none => (objs, .error .attribute)

/-- `gb._gb`, with `gb._owned = False`. -/
def GroupBy.take : Wrapper → Option (Ptr × Wrapper)
  | .groupBy gb _ => some (gb, .groupBy gb false)
  | _ => none

/-- `f._f`, with `f._owned = False`. -/
def AggFunc.take : Wrapper → Option (Ptr × Wrapper)
  | .aggFunc f _ => some (f, .aggFunc f false)
  | _ => none

/-- `libc.malloc` of a pointer array for `n` entries, or `ffi.NULL` when `n` is 0. -/
def mallocArray (n : Nat) (s : World) : Ptr × World :=
  if n = 0 then (none, s) else (some s.alloc.1, s.alloc.2)

/-- The engine's `aggregate_new`: a fresh aggregate owning what it received. -/
def newAggregate (received : List Handle) (s : World) : Handle × World :=
  (s.alloc.1, { s.alloc.2 with aggs := s.aggs ++ [(s.alloc.1, received)] })

/-- The part of `Aggregate.build` after the arrays `arrs` are allocated: the two loops,
then `_to_cstr(agg_id)` and cffi's `u16` conversions of the two counts, then
`aggregate_new`, which takes ownership of the arrays and of the handles in them. -/
def Aggregate.fill (arrs : List Handle) (aggId : StrOrBytes) (gbs fns : List Nat) (r : Native)
    (s : World) : World × Except PyError Nat :=
  match transfer GroupBy.take s.objs gbs with
  | (objs, .error e) => ({ s with objs := objs }, .error e)
  | (objs, .ok gps) =>
    match transfer AggFunc.take objs fns with
    | (objs', .error e) => ({ s with objs := objs' }, .error e)
    | (objs', .ok fps) =>
      withArg (do let _ ← toCstr aggId; let _ ← toU16 gbs.length; toU16 fns.length)
        (fun _ => construct (newAggregate (arrs ++ (gps ++ fps).reduceOption))
          (fun h => .aggregate (some h)) "aggregate_new returned NULL" r)
        { s with objs := objs' }

/-- `Aggregate.build(agg_id, groupbys, funcs)`: `gb_mem` and `fn_mem`, then the loops and
`aggregate_new`. -/
def Aggregate.build (aggId : StrOrBytes) (gbs fns : List Nat) (r : Native) (s : World) :
    World × Except PyError Nat :=
  let (gbArr, s) := mallocArray gbs.length s
  let (fnArr, s) := mallocArray fns.length s
  Aggregate.fill (gbArr.toList ++ fnArr.toList) aggId gbs fns r s

/-- What the native `compute` reports: its error, and the row array when it returned
`n > 0` and a non-NULL array, each entry `true` when its row is not NULL. -/
structure Computed where
  err : Option String
  rows : Option (List Bool)
  deriving DecidableEq, Repr

/-- The loop of `compute`: each non-NULL row of the array wrapped as owned. -/
def wrapRows : List Bool → World → World × List Nat
  | [], s => (s, [])
  | false :: m, s => wrapRows m s
  | true :: m, s =>
    ((wrapRows m (s.alloc.2.push (.row (some s.alloc.1) true))).1,
      s.objs.length :: (wrapRows m (s.alloc.2.push (.row (some s.alloc.1) true))).2)

/-- `Aggregate.compute()`: the rows wrapped as owned, then `libc.free(rows)`. -/
def Aggregate.compute (c : Computed) (s : World) : World × Except PyError (List Nat) :=
  match c.err, c.rows with
  | some msg, _ => (s, .error (.flintDB msg))
  | none, none => (s, .ok [])
  | none, some mask =>
    ((wrapRows mask s.alloc.2).1.destroy [s.alloc.1], .ok (wrapRows mask s.alloc.2).2)

/-- The loop of `compute` appends one owned `Row` per non-NULL entry, each around a
handle of its own, and returns exactly their indices. -/
theorem wrapRows_eq : ∀ (mask : List Bool) (s : World),
    wrapRows mask s = ({ s with
        objs := s.objs ++ (List.range (mask.count true)).map
          fun j => .row (some (.obj (s.next + j))) true,
        next := s.next + mask.count true },
      List.range' s.objs.length (mask.count true))
  | [], s => by simp [wrapRows]
  | false :: m, s => by simp [wrapRows, wrapRows_eq m s]
  | true :: m, s => by
    rw [wrapRows, wrapRows_eq m]
    simp [List.range_succ_eq_map, List.range'_succ, Nat.add_assoc, Nat.add_comm 1]

/-- What `compute` does when the engine returns rows: after the row array, one owned
`Row` per non-NULL entry, in order, each around a handle of its own; the list returned
is exactly their indices; and the array, not its rows, is passed to `free`. -/
theorem Aggregate.compute_eq (mask : List Bool) (s : World) :
    Aggregate.compute ⟨none, some mask⟩ s = ({ s with
        objs := s.objs ++ (List.range (mask.count true)).map
          fun j => .row (some (.obj (s.next + 1 + j))) true,
        next := s.next + 1 + mask.count true,
        freed := s.freed ++ [.obj s.next] },
      .ok (List.range' s.objs.length (mask.count true))) := by
  simp [Aggregate.compute, wrapRows_eq, World.destroy]

/-! ## Runs -/

/-- A call of a run, with its arguments and the engine's answer to it. -/
inductive Op where
  | metaNew (filepath : StrOrBytes) (r : Native)
  | rowNew (meta : Nat) (r : Native)
  | tableNew (filepath : StrOrBytes) (meta : Option Nat) (r : Native)
  | genericFileNew (filepath : StrOrBytes) (meta : Option Nat) (r : Native)
  | fileSortNew (filepath : StrOrBytes) (meta : Nat) (r : Native)
  | groupbyNew (aliasName column : StrOrBytes) (r : Native)
  | funcCount (name aliasName : StrOrBytes) (r : Native)
  | funcSum (name aliasName : StrOrBytes) (r : Native)
  | funcAvg (name aliasName : StrOrBytes) (r : Native)
  | build (aggId : StrOrBytes) (gbs fns : List Nat) (r : Native)
  | sqlExec (sql : StrOrBytes) (r : Native) (cursor : Bool)
  /-- `obj.find(where)`. -/
  | find (i : Nat) (whereClause : StrOrBytes) (r : Native)
  /-- `obj.read(...)`; `row` is the engine's row a table hands back. -/
  | read (i : Nat) (r : Native) (row : Nat)
  /-- `obj.next()`. -/
  | next (i : Nat) (r : Native) (row : Nat)
  | compute (i : Nat) (c : Computed)
  /-- The engine calling the comparator of `obj.sort(compare)` on rows `a` and `b`. -/
  | cmpr (i : Nat) (a b : Nat)
  | iterRows (i : Nat)
  | close (i : Nat)
  deriving DecidableEq, Repr

/-- The world after one call. A method looked up on `ffi.NULL` or on an object of a
class without it raises `AttributeError` and changes nothing; `CursorI64.next`
returns an `int` and changes nothing. -/
def step (s : World) : Op → World
  | .metaNew filepath r => (Meta.new filepath r s).1
  | .rowNew meta r => (Row.new meta r s).1
  | .tableNew filepath meta r => (Table.new filepath meta r s).1
  | .genericFileNew filepath meta r => (GenericFile.new filepath meta r s).1
  | .fileSortNew filepath meta r => (FileSort.new filepath meta r s).1
  | .groupbyNew aliasName column r => (groupbyNew aliasName column r s).1
  | .funcCount name aliasName r => (funcCount name aliasName r s).1
  | .funcSum name aliasName r => (funcSum name aliasName r s).1
  | .funcAvg name aliasName r => (funcAvg name aliasName r s).1
  | .build aggId gbs fns r => (Aggregate.build aggId gbs fns r s).1
  | .sqlExec sql r cursor => (sqlExec sql r cursor s).1
  | .find i whereClause r =>
    match s.objs[i]? with
    | some (.table (some _)) => (Table.find whereClause r s).1
    | some (.genericFile (some _)) => (GenericFile.find whereClause r s).1
    | _ => s
  | .read i r row =>
    match s.objs[i]? with
    | some (.table (some t)) => (Table.read t r row s).1
    | some (.fileSort (some _)) => (FileSort.read r s).1
    | _ => s
  | .next i r row =>
    match s.objs[i]? with
    | some (.cursorRow (some c)) => (CursorRow.next c r row s).1
    | _ => s
  | .compute i c =>
    match s.objs[i]? with
    | some (.aggregate (some _)) => (Aggregate.compute c s).1
    | _ => s
  | .cmpr i a b =>
    match s.objs[i]? with
    | some (.fileSort (some fs)) => FileSort.cmprRows fs a b s
    | _ => s
  | .iterRows i =>
    match s.objs[i]? with
    | some (.sqlResult (some res)) => (SqlResult.iterRows res s).1
    | _ => s
  | .close i => close i s

/-- The world after a run of calls. -/
def run (s : World) (ops : List Op) : World := ops.foldl step s

end FlintDB
