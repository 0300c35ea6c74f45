import FlintDB.Marshal.Text

/-! # Wrappers and native handles

Each wrapper object of the binding holds a native pointer; `Row`, `GroupBy` and
`AggFunc` also hold an `_owned` flag. A native constructor hands back a fresh
handle; a row read from a table, a cursor or the sort's spool stays the engine's,
which lends it: a table until it is closed, a row cursor until it advances, the sort
until its next comparison. The world logs every handle passed to a destructor and, for
the engine side, the handles each aggregate received, the row cursor of each SQL
result, and the rows lent with the object that lent each.
-/

namespace FlintDB

/-- A native pointer the binding can see. -/
inductive Handle where
  /-- An object or buffer allocated for the binding, numbered in allocation order. -/
  | obj (n : Nat)
  /-- A row owned by the engine: a table's, a cursor's or the sort spool's. -/
  | view (n : Nat)
  deriving DecidableEq, Repr

/-- A pointer field; `none` is `ffi.NULL`. -/
abbrev Ptr := Option Handle

/-- The wrapper classes, each with the fields its methods read. -/
inductive Wrapper where
  | meta (m : Ptr)
  | row (r : Ptr) (owned : Bool)
  | cursorI64 (c : Ptr)
  | cursorRow (c : Ptr)
  | table (t : Ptr)
  | genericFile (g : Ptr)
  | fileSort (fs : Ptr)
  | groupBy (gb : Ptr) (owned : Bool)
  | aggFunc (f : Ptr) (owned : Bool)
  | aggregate (agg : Ptr)
  | sqlResult (res : Ptr)
  deriving DecidableEq, Repr

namespace Wrapper

/-- The handle closing this wrapper passes to a destructor, if any. -/
def holds : Wrapper → Option Handle
  | .row r owned | .groupBy r owned | .aggFunc r owned => if owned then r else none
  | .meta p | .cursorI64 p | .cursorRow p | .table p | .genericFile p | .fileSort p
  | .aggregate p | .sqlResult p => p

/-- The pointer of a wrapper that is not a borrowed row. -/
def ownPtr : Wrapper → Option Handle
  | .row r owned => if owned then r else none
  | .groupBy p _ | .aggFunc p _ | .meta p | .cursorI64 p | .cursorRow p | .table p
  | .genericFile p | .fileSort p | .aggregate p | .sqlResult p => p

end Wrapper

/-- The binding's objects and the engine's ownership state. -/
structure World where
  /-- The wrapper objects, indexed by creation order. -/
  objs : List Wrapper
  /-- Each aggregate `aggregate_new` returned, with the handles it received. -/
  aggs : List (Handle × List Handle)
  /-- Each SQL result with its `row_cursor`. -/
  results : List (Handle × Ptr)
  /-- The engine rows lent and not taken back, each with the handle of the object that
  lent it: a table's reads, a row cursor's current row, the rows the sort hands its
  comparator. -/
  lent : List (Nat × Handle)
  /-- Every handle passed to a destructor, in order. -/
  freed : List Handle
  /-- The next allocation number. -/
  next : Nat
  deriving DecidableEq, Repr

namespace World

/-- The world before any call. -/
def init : World := ⟨[], [], [], [], [], 0⟩

/-- A native allocation: a handle never handed out before. -/
def alloc (s : World) : Handle × World := (.obj s.next, { s with next := s.next + 1 })

/-- A new wrapper object. -/
def push (s : World) (w : Wrapper) : World := { s with objs := s.objs ++ [w] }

/-- An assignment to the fields of wrapper `i`. -/
def setObj (s : World) (i : Nat) (w : Wrapper) : World := { s with objs := s.objs.set i w }

/-- Destructor calls, in order. -/
def destroy (s : World) (hs : List Handle) : World := { s with freed := s.freed ++ hs }

/-- The engine lends its row `n` from the object whose handle is `l`. -/
def lend (s : World) (n : Nat) (l : Handle) : World := { s with lent := s.lent ++ [(n, l)] }

/-- The engine takes back every row the object whose handle is `l` lent. -/
def takeBack (s : World) (l : Handle) : World := { s with lent := s.lent.filter (·.2 != l) }

@[simp] theorem alloc_fst (s : World) : s.alloc.1 = .obj s.next := rfl
@[simp] theorem alloc_objs (s : World) : s.alloc.2.objs = s.objs := rfl
@[simp] theorem alloc_aggs (s : World) : s.alloc.2.aggs = s.aggs := rfl
@[simp] theorem alloc_results (s : World) : s.alloc.2.results = s.results := rfl
@[simp] theorem alloc_lent (s : World) : s.alloc.2.lent = s.lent := rfl
@[simp] theorem alloc_freed (s : World) : s.alloc.2.freed = s.freed := rfl
@[simp] theorem alloc_next (s : World) : s.alloc.2.next = s.next + 1 := rfl
@[simp] theorem push_objs (s : World) (w : Wrapper) : (s.push w).objs = s.objs ++ [w] := rfl
@[simp] theorem push_aggs (s : World) (w : Wrapper) : (s.push w).aggs = s.aggs := rfl
@[simp] theorem push_results (s : World) (w : Wrapper) : (s.push w).results = s.results := rfl
@[simp] theorem push_lent (s : World) (w : Wrapper) : (s.push w).lent = s.lent := rfl
@[simp] theorem push_freed (s : World) (w : Wrapper) : (s.push w).freed = s.freed := rfl
@[simp] theorem push_next (s : World) (w : Wrapper) : (s.push w).next = s.next := rfl
@[simp] theorem setObj_objs (s : World) (i : Nat) (w : Wrapper) :
    (s.setObj i w).objs = s.objs.set i w := rfl
@[simp] theorem setObj_aggs (s : World) (i : Nat) (w : Wrapper) :
    (s.setObj i w).aggs = s.aggs := rfl
@[simp] theorem setObj_results (s : World) (i : Nat) (w : Wrapper) :
    (s.setObj i w).results = s.results := rfl
@[simp] theorem setObj_lent (s : World) (i : Nat) (w : Wrapper) :
    (s.setObj i w).lent = s.lent := rfl
@[simp] theorem setObj_freed (s : World) (i : Nat) (w : Wrapper) :
    (s.setObj i w).freed = s.freed := rfl
@[simp] theorem setObj_next (s : World) (i : Nat) (w : Wrapper) :
    (s.setObj i w).next = s.next := rfl
@[simp] theorem destroy_objs (s : World) (hs : List Handle) : (s.destroy hs).objs = s.objs := rfl
@[simp] theorem destroy_aggs (s : World) (hs : List Handle) : (s.destroy hs).aggs = s.aggs := rfl
@[simp] theorem destroy_results (s : World) (hs : List Handle) :
    (s.destroy hs).results = s.results := rfl
@[simp] theorem destroy_freed (s : World) (hs : List Handle) :
    (s.destroy hs).freed = s.freed ++ hs := rfl
@[simp] theorem destroy_lent (s : World) (hs : List Handle) : (s.destroy hs).lent = s.lent := rfl
@[simp] theorem destroy_next (s : World) (hs : List Handle) : (s.destroy hs).next = s.next := rfl
@[simp] theorem lend_objs (s : World) (n : Nat) (l : Handle) : (s.lend n l).objs = s.objs := rfl
@[simp] theorem lend_aggs (s : World) (n : Nat) (l : Handle) : (s.lend n l).aggs = s.aggs := rfl
@[simp] theorem lend_results (s : World) (n : Nat) (l : Handle) :
    (s.lend n l).results = s.results := rfl
@[simp] theorem lend_lent (s : World) (n : Nat) (l : Handle) :
    (s.lend n l).lent = s.lent ++ [(n, l)] := rfl
@[simp] theorem lend_freed (s : World) (n : Nat) (l : Handle) : (s.lend n l).freed = s.freed := rfl
@[simp] theorem lend_next (s : World) (n : Nat) (l : Handle) : (s.lend n l).next = s.next := rfl
@[simp] theorem takeBack_objs (s : World) (l : Handle) : (s.takeBack l).objs = s.objs := rfl
@[simp] theorem takeBack_aggs (s : World) (l : Handle) : (s.takeBack l).aggs = s.aggs := rfl
@[simp] theorem takeBack_results (s : World) (l : Handle) :
    (s.takeBack l).results = s.results := rfl
@[simp] theorem takeBack_lent (s : World) (l : Handle) :
    (s.takeBack l).lent = s.lent.filter (·.2 != l) := rfl
@[simp] theorem takeBack_freed (s : World) (l : Handle) : (s.takeBack l).freed = s.freed := rfl
@[simp] theorem takeBack_next (s : World) (l : Handle) : (s.takeBack l).next = s.next := rfl

end World

/-! ## Closing wrappers -/

/-- The `close` most classes share: when the pointer is not NULL, pass it to the
class's destructor and set it to NULL. -/
def closePtr (mk : Ptr → Wrapper) (i : Nat) (p : Ptr) (s : World) : World :=
  match p with
  | some h => (s.setObj i (mk none)).destroy [h]
  | none => s

/-- `GroupBy.close` and `AggFunc.close`: only an owning wrapper destroys, and only an
owning wrapper's pointer is set to NULL. -/
def closeOwned (mk : Ptr → Bool → Wrapper) (i : Nat) (p : Ptr) (owned : Bool) (s : World) :
    World :=
  if owned then closePtr (mk · owned) i p s else s

/-- `Meta.close`: `flintdb_meta_free_ptr(self._m)`. -/
def Meta.close (i : Nat) (m : Ptr) (s : World) : World := closePtr .meta i m s

/-- `CursorI64.close`: `self._c.close(self._c)`. -/
def CursorI64.close (i : Nat) (c : Ptr) (s : World) : World := closePtr .cursorI64 i c s

/-- `CursorRow.close`: `self._c.close(self._c)`. -/
def CursorRow.close (i : Nat) (c : Ptr) (s : World) : World := closePtr .cursorRow i c s

/-- `Table.close`: `self._t.close(self._t)`. -/
def Table.close (i : Nat) (t : Ptr) (s : World) : World := closePtr .table i t s

/-- `GenericFile.close`: `self._g.close(self._g)`. -/
def GenericFile.close (i : Nat) (g : Ptr) (s : World) : World := closePtr .genericFile i g s

/-- `FileSort.close`: `self._fs.close(self._fs)`. -/
def FileSort.close (i : Nat) (fs : Ptr) (s : World) : World := closePtr .fileSort i fs s

/-- `SqlResult.close`: `self._res.close(self._res)`. -/
def SqlResult.close (i : Nat) (res : Ptr) (s : World) : World := closePtr .sqlResult i res s

/-- `GroupBy.close`: `self._gb.free(self._gb)` when owned. -/
def GroupBy.close (i : Nat) (gb : Ptr) (owned : Bool) (s : World) : World :=
  closeOwned .groupBy i gb owned s

/-- `AggFunc.close`: `self._f.free(self._f)` when owned. -/
def AggFunc.close (i : Nat) (f : Ptr) (owned : Bool) (s : World) : World :=
  closeOwned .aggFunc i f owned s

/-- `Row.close`: the row is freed when owned, and its pointer set to NULL either way. -/
def Row.close (i : Nat) (r : Ptr) (owned : Bool) (s : World) : World :=
  let s := s.setObj i (.row none owned)
  match r, owned with
  | some h, true => s.destroy [h]
  | _, _ => s

/-- The engine's side of `agg.free(agg)`: the aggregate is destroyed and releases
every handle `aggregate_new` received for it. -/
def releaseAgg (a : Handle) (s : World) : World :=
  match s.aggs.lookup a with
  | some rs => { s with aggs := s.aggs.eraseP (a == ·.1), freed := s.freed ++ a :: rs }
  | none => s.destroy [a]

/-- `Aggregate.close`: `self._agg.free(self._agg)` and the pointer set to NULL. -/
def Aggregate.close (i : Nat) (agg : Ptr) (s : World) : World :=
  match agg with
  | some a => releaseAgg a (s.setObj i (.aggregate none))
  | none => s

/-- `obj.close()` (and `obj.__exit__`), dispatched on the object's class. -/
def close (i : Nat) (s : World) : World :=
  match s.objs[i]? with
  | some (.meta m) => Meta.close i m s
  | some (.row r owned) => Row.close i r owned s
  | some (.cursorI64 c) => CursorI64.close i c s
  | some (.cursorRow c) => CursorRow.close i c s
  | some (.table t) => Table.close i t s
  | some (.genericFile g) => GenericFile.close i g s
  | some (.fileSort fs) => FileSort.close i fs s
  | some (.groupBy gb owned) => GroupBy.close i gb owned s
  | some (.aggFunc f owned) => AggFunc.close i f owned s
  | some (.aggregate agg) => Aggregate.close i agg s
  | some (.sqlResult res) => SqlResult.close i res s
  | none => s

/-! ## Closing twice -/

/-- The wrapper as its `close` leaves it. -/
def Wrapper.closed : Wrapper → Wrapper
  | .meta _ => .meta none
  | .row _ owned => .row none owned
  | .cursorI64 _ => .cursorI64 none
  | .cursorRow _ => .cursorRow none
  | .table _ => .table none
  | .genericFile _ => .genericFile none
  | .fileSort _ => .fileSort none
  | .groupBy gb owned => if owned then .groupBy none owned else .groupBy gb owned
  | .aggFunc f owned => if owned then .aggFunc none owned else .aggFunc f owned
  | .aggregate _ => .aggregate none
  | .sqlResult _ => .sqlResult none

theorem Wrapper.closed_closed (w : Wrapper) : w.closed.closed = w.closed := by
  cases w with
  | groupBy gb owned | aggFunc gb owned => cases owned <;> rfl
  | _ => rfl

variable {i : Nat} {s : World}

theorem World.setObj_self {w : Wrapper} (hi : s.objs[i]? = some w) : s.setObj i w = s := by
  obtain ⟨hlt, rfl⟩ := List.getElem?_eq_some_iff.mp hi
  cases s
  simp only [World.setObj, World.mk.injEq, and_true]
  exact List.ext_getElem (by simp) fun j _ _ => by
    rw [List.getElem_set]; split <;> simp_all

theorem closePtr_objs (mk : Ptr → Wrapper) (i : Nat) (p : Ptr) (s : World) :
    (closePtr mk i p s).objs = s.objs ∨ (closePtr mk i p s).objs = s.objs.set i (mk none) := by
  cases p
  · exact .inl rfl
  · exact .inr rfl

theorem releaseAgg_objs (a : Handle) (s : World) : (releaseAgg a s).objs = s.objs := by
  unfold releaseAgg; split <;> rfl

/-- `close` changes no wrapper but its own. -/
theorem close_objs (i : Nat) (s : World) :
    (close i s).objs = s.objs ∨ ∃ w, (close i s).objs = s.objs.set i w := by
  unfold close
  split
  any_goals exact (closePtr_objs _ _ _ s).imp_right fun h => ⟨_, h⟩
  next r owned _ => cases r <;> cases owned <;> exact .inr ⟨_, rfl⟩
  next gb owned _ =>
    cases owned
    · exact .inl rfl
    · exact (closePtr_objs (.groupBy · true) i gb s).imp_right fun h => ⟨_, h⟩
  next f owned _ =>
    cases owned
    · exact .inl rfl
    · exact (closePtr_objs (.aggFunc · true) i f s).imp_right fun h => ⟨_, h⟩
  next agg _ =>
    cases agg
    · exact .inl rfl
    · exact .inr ⟨_, releaseAgg_objs _ _⟩
  next => exact .inl rfl

theorem closePtr_getElem? (mk : Ptr → Wrapper) {p : Ptr} (hi : s.objs[i]? = some (mk p)) :
    (closePtr mk i p s).objs[i]? = some (mk none) := by
  cases p
  · exact hi
  · exact List.getElem?_set_self (List.getElem?_eq_some_iff.mp hi).1

/-- After `close`, the wrapper is as `close` leaves it. -/
theorem getElem?_close (i : Nat) (s : World) :
    (close i s).objs[i]? = (s.objs[i]?).map Wrapper.closed := by
  have hlt := fun {w : Wrapper} (hi : s.objs[i]? = some w) => (List.getElem?_eq_some_iff.mp hi).1
  unfold close
  split
  next m hi => rw [hi]; exact closePtr_getElem? .meta hi
  next r owned hi =>
    rw [hi]
    cases r <;> cases owned <;> exact List.getElem?_set_self (hlt hi)
  next c hi => rw [hi]; exact closePtr_getElem? .cursorI64 hi
  next c hi => rw [hi]; exact closePtr_getElem? .cursorRow hi
  next t hi => rw [hi]; exact closePtr_getElem? .table hi
  next g hi => rw [hi]; exact closePtr_getElem? .genericFile hi
  next fs hi => rw [hi]; exact closePtr_getElem? .fileSort hi
  next gb owned hi =>
    rw [hi]
    cases owned
    · exact hi
    · exact closePtr_getElem? (.groupBy · true) hi
  next f owned hi =>
    rw [hi]
    cases owned
    · exact hi
    · exact closePtr_getElem? (.aggFunc · true) hi
  next agg hi =>
    rw [hi]
    cases agg
    · exact hi
    · exact (congrArg (·[i]?) (releaseAgg_objs _ _)).trans (List.getElem?_set_self (hlt hi))
  next res hi => rw [hi]; exact closePtr_getElem? .sqlResult hi
  next h => rw [h]; rfl

/-- `close` on a wrapper as `close` leaves it does nothing. -/
theorem close_of_closed {w : Wrapper} (hi : s.objs[i]? = some w) (hw : w.closed = w) :
    close i s = s := by
  unfold close
  rw [hi]
  cases w with
  | row r owned => cases hw; cases owned <;> exact World.setObj_self hi
  | groupBy gb owned | aggFunc gb owned => cases owned <;> cases hw <;> rfl
  | _ => cases hw; rfl

/-- Closing a wrapper twice is closing it once, and `close` touches no other wrapper. -/
theorem close_idempotent (i : Nat) (s : World) :
    close i (close i s) = close i s ∧ ∀ j, j ≠ i → (close i s).objs[j]? = s.objs[j]? := by
  refine ⟨?_, fun j hj => ?_⟩
  · cases h : s.objs[i]? with
    | none =>
      have hs : close i s = s := by unfold close; rw [h]
      rw [hs, hs]
    | some w => exact close_of_closed (by rw [getElem?_close, h]; rfl) (Wrapper.closed_closed w)
  · rcases close_objs i s with h | ⟨w, h⟩ <;> rw [h]
    exact List.getElem?_set_ne (Ne.symm hj)

end FlintDB
