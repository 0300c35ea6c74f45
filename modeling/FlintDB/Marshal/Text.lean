import Mathlib.Data.List.Basic
import Mathlib.Tactic.Ring

/-! # Python values at the C boundary

The binding passes Python strings to C as UTF-8 bytes (`_to_cstr`) and Python
integers to C integer parameters through cffi, which raises `OverflowError` for a
value outside the parameter's C type. C reads a `char` buffer up to its first NUL.
-/

namespace FlintDB

/-- The Python exceptions raised on the binding's code paths. -/
inductive PyError where
  /-- `FlintDBError(msg)`, from `_raise_if_err` or a NULL check. -/
  | flintDB (msg : String)
  /-- `OverflowError`, from cffi converting an integer that does not fit its C type. -/
  | overflow
  /-- `UnicodeEncodeError`, from `str.encode()` on a lone surrogate. -/
  | unicodeEncode
  /-- `AttributeError`, from a method looked up on `ffi.NULL` or on the wrong wrapper. -/
  | attribute
  deriving DecidableEq, Repr

theorem bind_eq_ok {α β : Type} {x : Except PyError α} {f : α → Except PyError β} {b : β} :
    x >>= f = .ok b ↔ ∃ a, x = .ok a ∧ f a = .ok b := by
  cases x <;> simp [bind, Except.bind]

/-- `_raise_if_err(err)`: raise the message the native call left in `err`, if any. -/
def raiseIfErr : Option String → Except PyError Unit
  | some msg => .error (.flintDB msg)
  | none => .ok ()

/-- A code point of a Python `str`: any value below `0x110000`, lone surrogates included. -/
abbrev CodePoint := Fin 0x110000

/-- `str.encode()` on one code point: UTF-8 with strict errors, so a surrogate raises. -/
def encodeChar (c : CodePoint) : Except PyError (List UInt8) :=
  let n := c.val
  if n < 0x80 then .ok [n.toUInt8]
  else if n < 0x800 then .ok [(0xC0 + n / 0x40).toUInt8, (0x80 + n % 0x40).toUInt8]
  else if n < 0x10000 then
    if 0xD800 ≤ n ∧ n < 0xE000 then .error .unicodeEncode
    else .ok [(0xE0 + n / 0x1000).toUInt8, (0x80 + n / 0x40 % 0x40).toUInt8,
      (0x80 + n % 0x40).toUInt8]
  else .ok [(0xF0 + n / 0x40000).toUInt8, (0x80 + n / 0x1000 % 0x40).toUInt8,
    (0x80 + n / 0x40 % 0x40).toUInt8, (0x80 + n % 0x40).toUInt8]

/-- `str.encode()`: the code points' encodings in order, or the first error. -/
def encodeUtf8 : List CodePoint → Except PyError (List UInt8)
  | [] => .ok []
  | c :: cs => do
    let b ← encodeChar c
    let bs ← encodeUtf8 cs
    pure (b ++ bs)

/-- The `Union[str, bytes]` argument of `_to_cstr`. -/
inductive StrOrBytes where
  | str (s : List CodePoint)
  | bytes (b : List UInt8)
  deriving DecidableEq, Repr

/-- A Python `str` literal, as its code points. -/
def StrOrBytes.ofString (s : String) : StrOrBytes :=
  .str (s.toList.map fun c => (Fin.ofNat c.toNat : CodePoint))

/-- `_to_cstr(s)`: `s.encode()` for a `str`, `s` itself for `bytes`. -/
def toCstr : StrOrBytes → Except PyError (List UInt8)
  | .str s => encodeUtf8 s
  | .bytes b => .ok b

/-- What C reads from a `char` buffer as a string: the bytes before the first NUL. -/
def cString (buf : List UInt8) : List UInt8 := buf.takeWhile (· != 0)

/-- `INT_MIN` of a 32-bit C `int`. -/
def INT_MIN : Int := -2 ^ 31

/-- `INT_MAX` of a 32-bit C `int`. -/
def INT_MAX : Int := 2 ^ 31 - 1

/-- cffi converting a Python `int` to a C `int`. -/
def toCInt (v : Int) : Except PyError (BitVec 32) :=
  if INT_MIN ≤ v ∧ v ≤ INT_MAX then .ok (BitVec.ofInt 32 v) else .error .overflow

/-- cffi converting a Python `int` to a C `u16` (`unsigned short`). -/
def toU16 (v : Nat) : Except PyError UInt16 :=
  if v < 2 ^ 16 then .ok v.toUInt16 else .error .overflow

/-- A value in range survives the conversion to a C `int`. -/
theorem toInt_ofInt_of_range {v : Int} (h : INT_MIN ≤ v ∧ v ≤ INT_MAX) :
    (BitVec.ofInt 32 v).toInt = v := by
  unfold INT_MIN INT_MAX at h
  rw [BitVec.toInt_ofInt, Int.bmod_def]
  split <;> omega

theorem toU16_ok_iff {v : Nat} {w : UInt16} :
    toU16 v = .ok w ↔ v < 2 ^ 16 ∧ w = v.toUInt16 := by
  unfold toU16
  split <;> simp_all [eq_comm]

theorem toU16_toNat {v : Nat} {w : UInt16} (h : toU16 v = .ok w) : w.toNat = v := by
  obtain ⟨hv, rfl⟩ := toU16_ok_iff.mp h
  simp only [Nat.toUInt16, UInt16.toNat, UInt16.ofNat, Fin.ofNat]
  exact Nat.mod_eq_of_lt hv

/-- `ffi.NULL if s is None else _to_cstr(s)`. -/
def toCstrOrNull : Option StrOrBytes → Except PyError (Option (List UInt8))
  | none => .ok none
  | some s => some <$> toCstr s

theorem toCstrOrNull_isOk_iff (s : Option StrOrBytes) :
    (∃ b, toCstrOrNull s = .ok b) ↔ ∀ a ∈ s, ∃ ab, toCstr a = .ok ab := by
  cases s with
  | none => simp [toCstrOrNull]
  | some a => cases h : toCstr a <;> simp [toCstrOrNull, h, Functor.map, Except.map]

theorem mapM_toCstr_ok {keys : List StrOrBytes} {kbs : List (List UInt8)}
    (h : keys.mapM toCstr = .ok kbs) :
    ∃ hl : kbs.length = keys.length, ∀ i (hi : i < keys.length),
      toCstr keys[i] = .ok (kbs.get ⟨i, hl ▸ hi⟩) := by
  induction keys generalizing kbs with
  | nil => cases h; exact ⟨rfl, fun i hi => absurd hi (Nat.not_lt_zero _)⟩
  | cons k ks ih =>
    obtain ⟨kb, hk, h⟩ := bind_eq_ok.mp (List.mapM_cons toCstr ▸ h)
    obtain ⟨kbs', hks, h⟩ := bind_eq_ok.mp h
    cases h
    obtain ⟨hl, hget⟩ := ih hks
    refine ⟨by simp [hl], fun i hi => ?_⟩
    cases i with
    | zero => exact hk
    | succ i => exact hget i (by simpa using hi)

theorem mapM_toCstr_isOk_iff (keys : List StrOrBytes) :
    (∃ kbs, keys.mapM toCstr = .ok kbs) ↔ ∀ k ∈ keys, ∃ kb, toCstr k = .ok kb := by
  induction keys with
  | nil => simp only [List.not_mem_nil, false_implies, implies_true, iff_true]; exact ⟨[], rfl⟩
  | cons k ks ih =>
    rw [List.mapM_cons]
    cases hk : toCstr k with
    | error e => simp [hk, bind, Except.bind]
    | ok kb =>
      cases hks : ks.mapM toCstr with
      | error e => simp_all [bind, Except.bind]
      | ok kbs => simp_all [bind, Except.bind, pure, Except.pure]

/-- C reads a NUL-free prefix back exactly when a NUL follows it. -/
theorem cString_append_zero {kb : List UInt8} (h : 0 ∉ kb) (rest : List UInt8) :
    cString (kb ++ 0 :: rest) = kb := by
  unfold cString
  rw [List.takeWhile_append_of_pos (fun a ha => by simpa using ne_of_mem_of_not_mem ha h)]
  simp

end FlintDB
