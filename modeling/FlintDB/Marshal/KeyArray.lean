import FlintDB.Marshal.Text

/-! # The key array of `Meta.add_index`

`add_index` allocates a zero-filled `char[key_count][MAX_COLUMN_NAME_LIMIT]`
buffer, moves the first `min(len, MAX_COLUMN_NAME_LIMIT - 1)` bytes of each encoded
key into its row, and hands the buffer with `key_count` to
`flintdb_meta_indexes_add`. The buffer is flat, row after row, as C lays it out.
-/

namespace FlintDB

/-- `MAX_COLUMN_NAME_LIMIT`, the row width of the key array. -/
def MAX_COLUMN_NAME_LIMIT : Nat := 40

/-- `ffi.new("char[k][40]")`: `k` rows of zero bytes. -/
def newKeyArray (k : Nat) : List UInt8 := List.replicate (k * MAX_COLUMN_NAME_LIMIT) 0

/-- Bytes stored one after another from an offset of the buffer. -/
def writeBytes : List UInt8 → Nat → List UInt8 → List UInt8
  | buf, _, [] => buf
  | buf, off, b :: bs => writeBytes (buf.set off b) (off + 1) bs

/-- `ffi.memmove(dest, src, n)` with `dest` at an offset of the buffer. -/
def memmove (buf : List UInt8) (off : Nat) (src : List UInt8) (n : Nat) : List UInt8 :=
  writeBytes buf off (src.take n)

/-- Row `i` of a `char[k][40]` buffer. -/
def keyRow (buf : List UInt8) (i : Nat) : List UInt8 :=
  (buf.drop (i * MAX_COLUMN_NAME_LIMIT)).take MAX_COLUMN_NAME_LIMIT

/-- The loop of `add_index`: key `i` is encoded and its first
`n = min(len(kb), MAX_COLUMN_NAME_LIMIT - 1)` bytes are moved into row `i`. -/
def fillKeys (buf : List UInt8) (i : Nat) : List StrOrBytes → Except PyError (List UInt8)
  | [] => .ok buf
  | k :: ks => do
    let kb ← toCstr k
    let n := min kb.length (MAX_COLUMN_NAME_LIMIT - 1)
    fillKeys (memmove buf (i * MAX_COLUMN_NAME_LIMIT) kb n) (i + 1) ks

/-- The arguments of `flintdb_meta_indexes_add(m, name, algorithm, keys, key_count, e)`. -/
structure IndexesAdd (μ : Type) where
  m : μ
  name : List UInt8
  /-- `none` is `ffi.NULL`, passed when `algorithm is None`. -/
  algorithm : Option (List UInt8)
  keys : List UInt8
  keyCount : UInt16

variable {μ : Type}

/-- `Meta.add_index` up to its native call: the arguments it passes, or what it raises
first. The `u16` conversion of `key_count` is cffi's, made at the call. -/
def Meta.addIndexCall (m : μ) (name : StrOrBytes) (algorithm : Option StrOrBytes)
    (keys : List StrOrBytes) : Except PyError (IndexesAdd μ) := do
  let keyCount := keys.length
  let keysArr ← fillKeys (newKeyArray keyCount) 0 keys
  let algoB ← toCstrOrNull algorithm
  let nameB ← toCstr name
  let keyCountC ← toU16 keyCount
  pure ⟨m, nameB, algoB, keysArr, keyCountC⟩

/-- `Meta.add_index`: the native call, whose errors come from the engine, then
`_raise_if_err`. -/
def Meta.addIndex (indexesAdd : IndexesAdd μ → Option String) (m : μ) (name : StrOrBytes)
    (algorithm : Option StrOrBytes) (keys : List StrOrBytes) : Except PyError Unit := do
  let call ← Meta.addIndexCall m name algorithm keys
  raiseIfErr (indexesAdd call)

/-! ## Buffer writes -/

theorem writeBytes_append_left (pre : List UInt8) :
    ∀ (rest : List UInt8) (off : Nat) (bs : List UInt8),
      writeBytes (pre ++ rest) (pre.length + off) bs = pre ++ writeBytes rest off bs
  | _, _, [] => rfl
  | rest, off, b :: bs => by
    simp only [writeBytes, List.set_append_right _ _ (Nat.le_add_right _ _),
      Nat.add_sub_cancel_left, Nat.add_assoc]
    exact writeBytes_append_left pre _ _ bs

theorem writeBytes_zeros : ∀ (bs : List UInt8) (N : Nat), bs.length ≤ N →
    writeBytes (List.replicate N 0) 0 bs = bs ++ List.replicate (N - bs.length) 0
  | [], _, _ => by simp [writeBytes]
  | b :: bs, N + 1, h => by
    have ih := writeBytes_append_left [b] (List.replicate N 0) 0 bs
    simp only [List.singleton_append, List.length_singleton] at ih
    simp only [writeBytes, List.replicate_succ, List.set_cons_zero, Nat.zero_add, ih,
      writeBytes_zeros bs N (by simpa using h), List.length_cons, Nat.add_sub_add_right,
      List.cons_append]

/-- The row `memmove` leaves in a zero row: the moved bytes, then zeros to the width. -/
def keyRowOf (kb : List UInt8) : List UInt8 :=
  let n := min kb.length (MAX_COLUMN_NAME_LIMIT - 1)
  kb.take n ++ List.replicate (MAX_COLUMN_NAME_LIMIT - n) 0

@[simp] theorem length_keyRowOf (kb : List UInt8) :
    (keyRowOf kb).length = MAX_COLUMN_NAME_LIMIT := by
  simp only [keyRowOf, List.length_append, List.length_take, List.length_replicate,
    MAX_COLUMN_NAME_LIMIT]
  omega

/-- Moving a key into the first zero row after `pre` writes exactly `keyRowOf`. -/
theorem memmove_zero_row (pre kb : List UInt8) (m : Nat) :
    memmove (pre ++ List.replicate ((m + 1) * MAX_COLUMN_NAME_LIMIT) 0) pre.length kb
        (min kb.length (MAX_COLUMN_NAME_LIMIT - 1)) =
      pre ++ keyRowOf kb ++ List.replicate (m * MAX_COLUMN_NAME_LIMIT) 0 := by
  have hlen : (kb.take (min kb.length (MAX_COLUMN_NAME_LIMIT - 1))).length ≤
      (m + 1) * MAX_COLUMN_NAME_LIMIT := by
    simp only [List.length_take, MAX_COLUMN_NAME_LIMIT]; omega
  have hsplit : (m + 1) * MAX_COLUMN_NAME_LIMIT - min kb.length (MAX_COLUMN_NAME_LIMIT - 1) =
      (MAX_COLUMN_NAME_LIMIT - min kb.length (MAX_COLUMN_NAME_LIMIT - 1)) +
        m * MAX_COLUMN_NAME_LIMIT := by
    simp only [MAX_COLUMN_NAME_LIMIT]; omega
  have hw : writeBytes (pre ++ List.replicate ((m + 1) * MAX_COLUMN_NAME_LIMIT) 0) pre.length
      (kb.take (min kb.length (MAX_COLUMN_NAME_LIMIT - 1))) = pre ++ writeBytes
        (List.replicate ((m + 1) * MAX_COLUMN_NAME_LIMIT) 0) 0
        (kb.take (min kb.length (MAX_COLUMN_NAME_LIMIT - 1))) :=
    writeBytes_append_left pre _ 0 _
  rw [memmove, hw, writeBytes_zeros _ _ hlen, List.length_take, Nat.min_eq_left
    (Nat.min_le_left _ _), hsplit, List.replicate_add, keyRowOf]
  simp only [List.append_assoc]

/-! ## The loop as a concatenation of rows -/

/-- The key loop over zero rows writes each encoded key's row in turn. -/
theorem fillKeys_zero_rows (ks : List StrOrBytes) :
    ∀ (pre : List UInt8) (i : Nat), pre.length = i * MAX_COLUMN_NAME_LIMIT →
      fillKeys (pre ++ List.replicate (ks.length * MAX_COLUMN_NAME_LIMIT) 0) i ks =
        (fun kbs => pre ++ (kbs.map keyRowOf).flatten) <$> ks.mapM toCstr := by
  induction ks with
  | nil =>
    intro pre i _
    simp only [fillKeys, List.length_nil, Nat.zero_mul, List.replicate_zero, List.append_nil,
      List.mapM_nil]
    simp [Functor.map, Except.map, pure, Except.pure]
  | cons k ks ih =>
    intro pre i hpre
    simp only [fillKeys, List.mapM_cons, List.length_cons]
    cases hk : toCstr k with
    | error e => rfl
    | ok kb =>
      have hrow := memmove_zero_row pre kb ks.length
      rw [hpre] at hrow
      have hnext := ih (pre ++ keyRowOf kb) (i + 1)
        (by simp [hpre, Nat.succ_mul])
      simp only [bind, Except.bind, hrow, hnext]
      cases ks.mapM toCstr <;> simp [Functor.map, Except.map, pure, Except.pure]

/-- `add_index` passes the rows of its encoded keys, concatenated. -/
theorem addIndexCall_eq (m : μ) (name : StrOrBytes) (algorithm : Option StrOrBytes)
    (keys : List StrOrBytes) :
    Meta.addIndexCall m name algorithm keys = (do
      let kbs ← keys.mapM toCstr
      let algoB ← toCstrOrNull algorithm
      let nameB ← toCstr name
      let keyCountC ← toU16 keys.length
      pure ⟨m, nameB, algoB, (kbs.map keyRowOf).flatten, keyCountC⟩) := by
  have h := fillKeys_zero_rows keys [] 0 rfl
  rw [List.nil_append] at h
  simp only [Meta.addIndexCall, newKeyArray, h]
  cases keys.mapM toCstr <;> rfl

/-! ## The rows C reads -/

theorem keyRow_flatten : ∀ (rows : List (List UInt8)),
    (∀ r ∈ rows, r.length = MAX_COLUMN_NAME_LIMIT) →
      ∀ i (hi : i < rows.length), keyRow rows.flatten i = rows[i]
  | [], _, i, hi => absurd hi (Nat.not_lt_zero _)
  | r :: rs, hw, 0, _ => by
    simp [keyRow, List.take_left' (hw r (List.mem_cons_self r rs))]
  | r :: rs, hw, i + 1, hi => by
    have hr := hw r (List.mem_cons_self r rs)
    have ih := keyRow_flatten rs (fun r' h => hw r' (List.mem_cons_of_mem r h)) i
      (by simpa using hi)
    simp only [keyRow, List.flatten_cons, Nat.succ_mul, Nat.add_comm (i * _),
      ← List.drop_drop, List.drop_left' hr] at ih ⊢
    simpa using ih

theorem zero_mem_keyRowOf (kb : List UInt8) : 0 ∈ keyRowOf kb := by
  refine List.mem_append_right _ (List.mem_replicate.mpr ⟨?_, rfl⟩)
  simp only [MAX_COLUMN_NAME_LIMIT]; omega

/-- C reads a NUL-free key back cut to its first `MAX_COLUMN_NAME_LIMIT - 1` bytes. -/
theorem cString_keyRowOf {kb : List UInt8} (h : 0 ∉ kb) :
    cString (keyRowOf kb) = kb.take (MAX_COLUMN_NAME_LIMIT - 1) := by
  have hsplit : MAX_COLUMN_NAME_LIMIT - min kb.length (MAX_COLUMN_NAME_LIMIT - 1) =
      (MAX_COLUMN_NAME_LIMIT - 1 - min kb.length (MAX_COLUMN_NAME_LIMIT - 1)) + 1 := by
    simp only [MAX_COLUMN_NAME_LIMIT]; omega
  have hfree : 0 ∉ kb.take (min kb.length (MAX_COLUMN_NAME_LIMIT - 1)) :=
    fun hm => h (List.mem_of_mem_take hm)
  rw [keyRowOf, hsplit, List.replicate_succ, cString_append_zero hfree]
  rcases le_total kb.length (MAX_COLUMN_NAME_LIMIT - 1) with hl | hl
  · rw [Nat.min_eq_left hl, List.take_of_length_le hl, List.take_length]
  · rw [Nat.min_eq_right hl]

/-! ## What `add_index` passes -/

section AddIndex

variable (m : μ) (name : StrOrBytes) (algorithm : Option StrOrBytes) (keys : List StrOrBytes)

/-- `add_index` reaches its native call exactly when every string encodes and
`key_count` fits the `u16` parameter. -/
theorem addIndexCall_ok_iff :
    (∃ call, Meta.addIndexCall m name algorithm keys = .ok call) ↔
      keys.length < 2 ^ 16 ∧ (∀ k ∈ keys, ∃ kb, toCstr k = .ok kb) ∧
        (∀ a ∈ algorithm, ∃ ab, toCstr a = .ok ab) ∧ ∃ nb, toCstr name = .ok nb := by
  rw [addIndexCall_eq, ← mapM_toCstr_isOk_iff, ← toCstrOrNull_isOk_iff]
  constructor
  · rintro ⟨call, h⟩
    obtain ⟨kbs, hk, h⟩ := bind_eq_ok.mp h
    obtain ⟨ab, ha, h⟩ := bind_eq_ok.mp h
    obtain ⟨nb, hn, h⟩ := bind_eq_ok.mp h
    obtain ⟨kc, hc, -⟩ := bind_eq_ok.mp h
    exact ⟨(toU16_ok_iff.mp hc).1, ⟨kbs, hk⟩, ⟨ab, ha⟩, ⟨nb, hn⟩⟩
  · rintro ⟨hc, ⟨kbs, hk⟩, ⟨ab, ha⟩, ⟨nb, hn⟩⟩
    exact ⟨_, by simp only [hk, ha, hn, toU16, hc, if_true, bind, Except.bind]; rfl⟩

variable {m name algorithm keys}

theorem addIndexCall_eq_overflow (hk : ∀ k ∈ keys, ∃ kb, toCstr k = .ok kb)
    (ha : ∀ a ∈ algorithm, ∃ ab, toCstr a = .ok ab) (hn : ∃ nb, toCstr name = .ok nb)
    (hc : 2 ^ 16 ≤ keys.length) :
    Meta.addIndexCall m name algorithm keys = .error .overflow := by
  obtain ⟨kbs, hkbs⟩ := (mapM_toCstr_isOk_iff keys).mpr hk
  obtain ⟨ab, hab⟩ := (toCstrOrNull_isOk_iff algorithm).mpr ha
  obtain ⟨nb, hnb⟩ := hn
  rw [addIndexCall_eq]
  simp only [hkbs, hab, hnb, toU16, if_neg (Nat.not_lt.mpr hc), bind, Except.bind]

theorem addIndexCall_ok {call : IndexesAdd μ}
    (h : Meta.addIndexCall m name algorithm keys = .ok call) :
    ∃ kbs, keys.mapM toCstr = .ok kbs ∧ call.keys = (kbs.map keyRowOf).flatten ∧
      call.keyCount.toNat = keys.length := by
  rw [addIndexCall_eq] at h
  obtain ⟨kbs, hk, h⟩ := bind_eq_ok.mp h
  obtain ⟨_, _, h⟩ := bind_eq_ok.mp h
  obtain ⟨_, _, h⟩ := bind_eq_ok.mp h
  obtain ⟨kc, hc, h⟩ := bind_eq_ok.mp h
  cases h
  exact ⟨kbs, hk, rfl, toU16_toNat hc⟩

/-- Row `i` of the array passed is the row of key `i`'s encoding. -/
theorem addIndexCall_keyRow {call : IndexesAdd μ}
    (h : Meta.addIndexCall m name algorithm keys = .ok call) {i : Nat} (hi : i < keys.length) :
    ∃ kb, toCstr keys[i] = .ok kb ∧ keyRow call.keys i = keyRowOf kb := by
  obtain ⟨kbs, hk, hkeys, -⟩ := addIndexCall_ok h
  obtain ⟨hl, hget⟩ := mapM_toCstr_ok hk
  refine ⟨_, hget i hi, ?_⟩
  rw [hkeys, keyRow_flatten _ (by simp) i (by simpa [hl] using hi), List.getElem_map]
  rfl

theorem length_flatten_keyRowOf (kbs : List (List UInt8)) :
    (kbs.map keyRowOf).flatten.length = kbs.length * MAX_COLUMN_NAME_LIMIT := by
  induction kbs with
  | nil => rfl
  | cons kb kbs ih => simp [ih, Nat.succ_mul, Nat.add_comm]

/-- `add_index` calls `flintdb_meta_indexes_add` exactly when its strings encode and
`key_count` fits `u16`; the call then carries `key_count = len(keys)` and a
`char[key_count][40]` array whose every row holds a NUL, and a NUL-free key of at most
39 bytes is read back from its row exactly. -/
theorem addIndex_passes_key_array (m : μ) (name : StrOrBytes)
    (algorithm : Option StrOrBytes) (keys : List StrOrBytes) :
    ((∃ call, Meta.addIndexCall m name algorithm keys = .ok call) ↔
      keys.length < 2 ^ 16 ∧ (∀ k ∈ keys, ∃ kb, toCstr k = .ok kb) ∧
        (∀ a ∈ algorithm, ∃ ab, toCstr a = .ok ab) ∧ ∃ nb, toCstr name = .ok nb) ∧
    ∀ call, Meta.addIndexCall m name algorithm keys = .ok call →
      call.keyCount.toNat = keys.length ∧
      call.keys.length = keys.length * MAX_COLUMN_NAME_LIMIT ∧
      ∀ i (hi : i < keys.length), 0 ∈ keyRow call.keys i ∧
        ∀ kb, toCstr keys[i] = .ok kb → 0 ∉ kb → kb.length ≤ MAX_COLUMN_NAME_LIMIT - 1 →
          cString (keyRow call.keys i) = kb := by
  refine ⟨addIndexCall_ok_iff m name algorithm keys, fun call h => ?_⟩
  obtain ⟨kbs, hk, hkeys, hcount⟩ := addIndexCall_ok h
  refine ⟨hcount, ?_, fun i hi => ?_⟩
  · rw [hkeys, length_flatten_keyRowOf, (mapM_toCstr_ok hk).1]
  · obtain ⟨kb, hkb, hrow⟩ := addIndexCall_keyRow h hi
    refine ⟨hrow ▸ zero_mem_keyRowOf kb, fun kb' hkb' h0 hlen => ?_⟩
    obtain rfl : kb = kb' := Except.ok.inj (hkb.symm.trans hkb')
    rw [hrow, cString_keyRowOf h0, List.take_of_length_le hlen]

/-- With 65536 keys the `u16` conversion of `key_count` raises before the call. -/
theorem addIndex_overflows_at_65536_keys :
    Meta.addIndexCall (1 : Nat) (.str [105, 120]) none
      (List.replicate 65536 (.str [105, 100])) = .error .overflow :=
  addIndexCall_eq_overflow
    (fun k hk => by rw [List.eq_of_mem_replicate hk]; exact ⟨[105, 100], rfl⟩)
    (fun _ ha => absurd ha (Option.not_mem_none _)) ⟨[105, 120], rfl⟩
    (Nat.le_of_eq (List.length_replicate _ _).symm)

/-- A NUL-free key reaches the engine cut to its first `MAX_COLUMN_NAME_LIMIT - 1` bytes. -/
theorem addIndex_key_truncated {call : IndexesAdd μ}
    (h : Meta.addIndexCall m name algorithm keys = .ok call) {i : Nat} (hi : i < keys.length)
    {kb : List UInt8} (hk : toCstr keys[i] = .ok kb) (h0 : 0 ∉ kb) :
    cString (keyRow call.keys i) = kb.take (MAX_COLUMN_NAME_LIMIT - 1) := by
  obtain ⟨kb', hkb', hrow⟩ := addIndexCall_keyRow h hi
  obtain rfl : kb' = kb := Except.ok.inj (hkb'.symm.trans hk)
  rw [hrow, cString_keyRowOf h0]

/-- A 40-byte column name, allowed by the schema, arrives as its first 39 bytes. -/
theorem addIndex_forty_byte_key_truncated :
    Meta.addIndexCall (1 : Nat) (.bytes [105, 120]) none [.bytes (List.replicate 40 97)] =
        .ok ⟨1, [105, 120], none, keyRowOf (List.replicate 40 97), 1⟩ ∧
      cString (keyRow (keyRowOf (List.replicate 40 97)) 0) = List.replicate 39 97 :=
  ⟨rfl, by
    simpa [MAX_COLUMN_NAME_LIMIT] using
      @addIndex_key_truncated Nat 1 (.bytes [105, 120]) none [.bytes (List.replicate 40 97)]
        ⟨1, [105, 120], none, keyRowOf (List.replicate 40 97), 1⟩ rfl 0 (by decide)
        (List.replicate 40 97) rfl (by simp)⟩

end AddIndex

end FlintDB
