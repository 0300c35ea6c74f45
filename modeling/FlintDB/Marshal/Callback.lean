import FlintDB.Marshal.Text

/-! # The comparator `FileSort.sort` hands to the engine

`FileSort.sort` wraps the Python comparator in a cffi callback of C type
`int (*)(const void *, const struct flintdb_row *, const struct flintdb_row *)`.
cffi converts the Python result to a C `int`; when the comparator or that
conversion raises, the callback returns its error value, 0 by default.
The tutorial's `compare_by_value` returns the difference of two `i32` columns
as an unbounded Python `int`.
-/

namespace FlintDB

variable {ρ : Type}

/-- `Row.get_i32(idx)`: `idx` goes through cffi's `u16` conversion, and the native
`i32_get` returns a C `i32` and may set the error pointer. -/
def Row.getI32 (i32Get : ρ → UInt16 → BitVec 32 × Option String) (r : ρ) (idx : Nat) :
    Except PyError Int := do
  let i ← toU16 idx
  let (v, e) := i32Get r i
  raiseIfErr e
  pure v.toInt

/-- The tutorial's `compare_by_value(_ctx, a, b)`: `int(a.get_i32(0) - b.get_i32(0))`. -/
def compareByValue (i32Get : ρ → UInt16 → BitVec 32 × Option String) (a b : ρ) :
    Except PyError Int := do
  let x ← Row.getI32 i32Get a 0
  let y ← Row.getI32 i32Get b 0
  pure (x - y)

/-- A cffi callback returning C `int`, declared without `error=`: the Python result
converted to `int`, or 0 when the Python code or the conversion raised. -/
def callbackInt (r : Except PyError Int) : BitVec 32 :=
  match r >>= toCInt with
  | .ok v => v
  | .error _ => 0

/-- `FileSort.sort`'s `_cmpr(_ctx, a, b)`: `int(compare(ctx, ra, rb))` returned through
the callback. -/
def FileSort.cmpr (compare : ρ → ρ → Except PyError Int) (a b : ρ) : BitVec 32 :=
  callbackInt (compare a b)

theorem getI32_eq {i32Get : ρ → UInt16 → BitVec 32 × Option String} {r : ρ} {x : BitVec 32}
    (h : i32Get r 0 = (x, none)) : Row.getI32 i32Get r 0 = .ok x.toInt := by
  simp only [Row.getI32, toU16, if_pos (show 0 < 2 ^ 16 by decide)]
  exact (congrArg (fun p => do raiseIfErr p.2; pure p.1.toInt) h :)

theorem callbackInt_ok_toInt (d : Int) :
    (callbackInt (.ok d)).toInt = if INT_MIN ≤ d ∧ d ≤ INT_MAX then d else 0 := by
  simp only [callbackInt, bind, Except.bind, toCInt]
  split_ifs with h
  · exact toInt_ofInt_of_range h
  · rfl

/-- Over rows whose column 0 holds `i32` values `x` and `y`, the sort receives
`x - y` when it fits a C `int`, and 0 otherwise. -/
theorem cmpr_compareByValue_toInt {i32Get : ρ → UInt16 → BitVec 32 × Option String}
    {a b : ρ} {x y : BitVec 32} (ha : i32Get a 0 = (x, none)) (hb : i32Get b 0 = (y, none)) :
    (FileSort.cmpr (compareByValue i32Get) a b).toInt =
      if INT_MIN ≤ x.toInt - y.toInt ∧ x.toInt - y.toInt ≤ INT_MAX then x.toInt - y.toInt
      else 0 := by
  rw [FileSort.cmpr, compareByValue, getI32_eq ha, getI32_eq hb]
  exact callbackInt_ok_toInt _

/-- The tutorial's values 5 and 2 reach the sort as 3. -/
theorem cmpr_compareByValue_five_two :
    (FileSort.cmpr (compareByValue fun (r : Bool) (_ : UInt16) =>
        ((if r then 5 else 2 : BitVec 32), (none : Option String))) true false).toInt = 3 := by
  rw [@cmpr_compareByValue_toInt Bool (fun r _ => (if r then 5 else 2, none)) true false 5 2
    rfl rfl]
  decide

/-- Over rows whose column 0 holds `i32` values whose difference fits a C `int`, as
the differences of the values `tutorial_filesort` sorts do, the sort receives a value with
the sign of the difference. -/
theorem cmpr_compareByValue_sign {i32Get : ρ → UInt16 → BitVec 32 × Option String}
    {a b : ρ} {x y : BitVec 32} (ha : i32Get a 0 = (x, none)) (hb : i32Get b 0 = (y, none))
    (hfit : INT_MIN ≤ x.toInt - y.toInt ∧ x.toInt - y.toInt ≤ INT_MAX) :
    (FileSort.cmpr (compareByValue i32Get) a b).toInt.sign = (x.toInt - y.toInt).sign := by
  rw [FileSort.cmpr, compareByValue, getI32_eq ha, getI32_eq hb]
  exact congrArg Int.sign ((callbackInt_ok_toInt _).trans (if_pos hfit))

/-- The tutorial's values 1 and 8 reach the sort as a negative value. -/
theorem cmpr_compareByValue_one_eight :
    (INT_MIN ≤ (1 : BitVec 32).toInt - (8 : BitVec 32).toInt ∧
        (1 : BitVec 32).toInt - (8 : BitVec 32).toInt ≤ INT_MAX) ∧
      (FileSort.cmpr (compareByValue fun (r : Bool) (_ : UInt16) =>
        ((if r then 1 else 8 : BitVec 32), (none : Option String))) true false).toInt.sign =
        ((1 : BitVec 32).toInt - (8 : BitVec 32).toInt).sign :=
  have hfit : INT_MIN ≤ (1 : BitVec 32).toInt - (8 : BitVec 32).toInt ∧
      (1 : BitVec 32).toInt - (8 : BitVec 32).toInt ≤ INT_MAX := by decide
  ⟨hfit, @cmpr_compareByValue_sign Bool (fun r _ => (if r then 1 else 8, none)) true false 1 8
    rfl rfl hfit⟩

/-- Rows holding `2147483647` and `-1`: their difference `2^31` does not fit a C `int`,
so the callback returns 0 and the sort sees two unequal rows as equal. -/
theorem cmpr_compareByValue_overflow_zero :
    (FileSort.cmpr (compareByValue fun (r : Bool) (_ : UInt16) =>
        ((if r then 0x7FFFFFFF else 0xFFFFFFFF : BitVec 32), (none : Option String)))
        true false).toInt = 0 ∧
      (0x7FFFFFFF : BitVec 32).toInt - (0xFFFFFFFF : BitVec 32).toInt = 2 ^ 31 := by
  decide

end FlintDB
