import Mathlib.Tactic.IntervalCases
import FlintDB.Marshal.Text

/-! # Text read back from the engine

The binding turns every C string it reads into a `str` with
`ffi.string(p).decode("utf-8", "replace")`: `_raise_if_err`'s message, `to_sql_string`'s
buffer and each of `column_names`. `decodeUtf8` is CPython's decoder with that handler,
one character per step as `utf8_decode` reads it. Decoding inverts `str.encode()`, never
gives a surrogate, so that its result can always be encoded again, and replaces a
character cut by the end of the data with one `U+FFFD`.
-/

namespace FlintDB

/-- `U+FFFD`, what `errors="replace"` puts in place of each ill-formed part. -/
def replacementChar : CodePoint := Fin.ofNat 0xFFFD

/-- `IS_CONTINUATION_BYTE`: `\x80-\xBF`. -/
def isCont (b : UInt8) : Bool := 0x80 ≤ b.toNat && b.toNat ≤ 0xBF

/-- The second byte CPython takes after a three-byte lead `ch`: a continuation byte,
`\xA0-\xBF` after `\xE0` (no overlong form) and `\x80-\x9F` after `\xED` (no
surrogate). -/
def secondOf3 (ch : Nat) (b₁ : UInt8) : Bool :=
  isCont b₁ && !(ch == 0xE0 && b₁.toNat < 0xA0) && !(ch == 0xED && 0xA0 ≤ b₁.toNat)

/-- The second byte after a four-byte lead `ch`: `\x90-\xBF` after `\xF0` (no overlong
form) and `\x80-\x8F` after `\xF4` (nothing above `U+10FFFF`). -/
def secondOf4 (ch : Nat) (b₁ : UInt8) : Bool :=
  isCont b₁ && !(ch == 0xF0 && b₁.toNat < 0x90) && !(ch == 0xF4 && 0x90 ≤ b₁.toNat)

/-- CPython's `(ch << 6) + ch2 - ((0xC0 << 6) + 0x80)`: the code point of a two-byte
sequence. -/
def cp2 (ch c₁ : Nat) : CodePoint := Fin.ofNat (ch * 0x40 + c₁ - (0xC0 * 0x40 + 0x80))

/-- `(ch << 12) + (ch2 << 6) + ch3 - ((0xE0 << 12) + (0x80 << 6) + 0x80)`. -/
def cp3 (ch c₁ c₂ : Nat) : CodePoint :=
  Fin.ofNat (ch * 0x1000 + c₁ * 0x40 + c₂ - (0xE0 * 0x1000 + 0x80 * 0x40 + 0x80))

/-- `(ch << 18) + (ch2 << 12) + (ch3 << 6) + ch4 - ((0xF0 << 18) + (0x80 << 12) +
(0x80 << 6) + 0x80)`. -/
def cp4 (ch c₁ c₂ c₃ : Nat) : CodePoint :=
  Fin.ofNat (ch * 0x40000 + c₁ * 0x1000 + c₂ * 0x40 + c₃ -
    (0xF0 * 0x40000 + 0x80 * 0x1000 + 0x80 * 0x40 + 0x80))

/-- The bytes after a two-byte lead `ch` (`\xC2-\xDF`): one continuation byte. -/
def readTwo (ch : Nat) (rest : List UInt8) : CodePoint × List UInt8 :=
  match rest with
  | b₁ :: r₁ => if isCont b₁ then (cp2 ch b₁.toNat, r₁) else (replacementChar, rest)
  | [] => (replacementChar, [])

/-- The bytes after a three-byte lead (`\xE0-\xEF`): `secondOf3`, then one continuation
byte. -/
def readThree (ch : Nat) (rest : List UInt8) : CodePoint × List UInt8 :=
  match rest with
  | b₁ :: r₁ =>
    if secondOf3 ch b₁ then
      match r₁ with
      | b₂ :: r₂ => if isCont b₂ then (cp3 ch b₁.toNat b₂.toNat, r₂) else (replacementChar, r₁)
      | [] => (replacementChar, [])
    else (replacementChar, rest)
  | [] => (replacementChar, [])

/-- The bytes after a four-byte lead (`\xF0-\xF4`): `secondOf4`, then two continuation
bytes. -/
def readFour (ch : Nat) (rest : List UInt8) : CodePoint × List UInt8 :=
  match rest with
  | b₁ :: r₁ =>
    if secondOf4 ch b₁ then
      match r₁ with
      | b₂ :: r₂ =>
        if isCont b₂ then
          match r₂ with
          | b₃ :: r₃ =>
            if isCont b₃ then (cp4 ch b₁.toNat b₂.toNat b₃.toNat, r₃) else (replacementChar, r₂)
          | [] => (replacementChar, [])
        else (replacementChar, r₁)
      | [] => (replacementChar, [])
    else (replacementChar, rest)
  | [] => (replacementChar, [])

/-- One step of CPython's `utf8_decode` with the `replace` handler, at the lead byte `b`:
the code point, or `U+FFFD`, and the bytes after it. An invalid start byte is replaced
alone; a sequence broken by a byte is replaced as far as it was valid and decoding goes
on at that byte; a sequence cut by the end of the data is replaced whole. -/
def readChar (b : UInt8) (rest : List UInt8) : CodePoint × List UInt8 :=
  let ch := b.toNat
  if ch < 0x80 then (Fin.ofNat ch, rest)
  else if ch < 0xC2 then (replacementChar, rest)
  else if ch < 0xE0 then readTwo ch rest
  else if ch < 0xF0 then readThree ch rest
  else if ch < 0xF5 then readFour ch rest
  else (replacementChar, rest)

/-- The decoding loop, one `readChar` step per round; `fuel` bounds the rounds. -/
def decodeLoop : Nat → List UInt8 → List CodePoint
  | 0, _ | _, [] => []
  | n + 1, b :: rest => (readChar b rest).1 :: decodeLoop n (readChar b rest).2

/-- `bytes.decode("utf-8", "replace")`. Every step reads at least one byte, so one round
per byte is enough (`decodeUtf8_cons`). -/
def decodeUtf8 (bs : List UInt8) : List CodePoint := decodeLoop bs.length bs

/-- A Unicode scalar value: a code point that is not a surrogate, the ones `str.encode()`
takes. -/
def CodePoint.Scalar (c : CodePoint) : Prop := ¬(0xD800 ≤ c.val ∧ c.val < 0xE000)

instance : DecidablePred CodePoint.Scalar := fun c =>
  inferInstanceAs (Decidable ¬(0xD800 ≤ c.val ∧ c.val < 0xE000))

/-! ## The loop -/

theorem readTwo_suffix (ch : Nat) (rest : List UInt8) : (readTwo ch rest).2 <:+ rest := by
  unfold readTwo; repeat' split
  all_goals simp [List.suffix_cons_iff]

theorem readThree_suffix (ch : Nat) (rest : List UInt8) : (readThree ch rest).2 <:+ rest := by
  unfold readThree; repeat' split
  all_goals simp [List.suffix_cons_iff]

theorem readFour_suffix (ch : Nat) (rest : List UInt8) : (readFour ch rest).2 <:+ rest := by
  unfold readFour; repeat' split
  all_goals simp [List.suffix_cons_iff]

/-- A step reads a part of its input and leaves the rest. -/
theorem readChar_suffix (b : UInt8) (rest : List UInt8) : (readChar b rest).2 <:+ rest := by
  dsimp only [readChar]
  split_ifs
  · exact List.suffix_refl _
  · exact List.suffix_refl _
  · exact readTwo_suffix _ _
  · exact readThree_suffix _ _
  · exact readFour_suffix _ _
  · exact List.suffix_refl _

theorem decodeLoop_fuel : ∀ {n m : Nat} {bs : List UInt8}, bs.length ≤ n → bs.length ≤ m →
    decodeLoop n bs = decodeLoop m bs
  | n, m, [], _, _ => by cases n <;> cases m <;> rfl
  | 0, _, _ :: _, hn, _ | _, 0, _ :: _, _, hn => absurd hn (by simp)
  | n + 1, m + 1, b :: rest, hn, hm => by
    have hr := (readChar_suffix b rest).length_le
    simp only [List.length_cons, Nat.add_le_add_iff_right] at hn hm
    simp only [decodeLoop, decodeLoop_fuel (Nat.le_trans hr hn) (Nat.le_trans hr hm)]

@[simp] theorem decodeUtf8_nil : decodeUtf8 [] = [] := rfl

/-- The decoder's one equation: a step, then the rest. -/
theorem decodeUtf8_cons (b : UInt8) (rest : List UInt8) :
    decodeUtf8 (b :: rest) = (readChar b rest).1 :: decodeUtf8 (readChar b rest).2 := by
  have hr := (readChar_suffix b rest).length_le
  simp only [decodeUtf8, List.length_cons, decodeLoop, decodeLoop_fuel hr (Nat.le_refl _)]

/-- Every code point the decoder gives is one step's, read at a lead byte of the input. -/
theorem exists_readChar_of_mem_decodeUtf8 {c : CodePoint} : ∀ {bs : List UInt8},
    c ∈ decodeUtf8 bs → ∃ b rest, b :: rest <:+ bs ∧ (readChar b rest).1 = c
  | [], h => nomatch h
  | b :: rest, h => by
    rw [decodeUtf8_cons] at h
    rcases List.mem_cons.mp h with rfl | h
    · exact ⟨b, rest, List.suffix_refl _, rfl⟩
    · obtain ⟨b', r', hs, hc⟩ := exists_readChar_of_mem_decodeUtf8 h
      exact ⟨b', r', hs.trans ((readChar_suffix b rest).trans (List.suffix_cons b rest)), hc⟩
termination_by bs => bs.length
decreasing_by exact Nat.lt_succ_of_le (readChar_suffix b rest).length_le

/-! ## One step -/

@[simp] theorem val_ofNat (k : Nat) : (Fin.ofNat k : CodePoint).val = k % 0x110000 := rfl

theorem toNat_toUInt8 {k : Nat} (h : k < 256) : k.toUInt8.toNat = k := Nat.mod_eq_of_lt h

@[simp] theorem isCont_iff {b : UInt8} : isCont b = true ↔ 0x80 ≤ b.toNat ∧ b.toNat ≤ 0xBF := by
  simp [isCont]

@[simp] theorem secondOf3_iff {ch : Nat} {b : UInt8} :
    secondOf3 ch b = true ↔ (0x80 ≤ b.toNat ∧ b.toNat ≤ 0xBF) ∧
      (ch = 0xE0 → 0xA0 ≤ b.toNat) ∧ (ch = 0xED → b.toNat < 0xA0) := by
  simp only [secondOf3, Bool.and_eq_true, isCont_iff, Bool.not_eq_true', Bool.and_eq_false_iff,
    beq_eq_false_iff_ne, decide_eq_false_iff_not, Nat.not_lt, Nat.not_le]
  omega

@[simp] theorem secondOf4_iff {ch : Nat} {b : UInt8} :
    secondOf4 ch b = true ↔ (0x80 ≤ b.toNat ∧ b.toNat ≤ 0xBF) ∧
      (ch = 0xF0 → 0x90 ≤ b.toNat) ∧ (ch = 0xF4 → b.toNat < 0x90) := by
  simp only [secondOf4, Bool.and_eq_true, isCont_iff, Bool.not_eq_true', Bool.and_eq_false_iff,
    beq_eq_false_iff_ne, decide_eq_false_iff_not, Nat.not_lt, Nat.not_le]
  omega

theorem wide_ofNat {v : Nat} (h₁ : 0x80 ≤ v) (h₂ : v < 0x110000)
    (h₃ : ¬(0xD800 ≤ v ∧ v < 0xE000)) :
    0x80 ≤ (Fin.ofNat v : CodePoint).val ∧ CodePoint.Scalar (Fin.ofNat v) := by
  simp only [CodePoint.Scalar, val_ofNat, Nat.mod_eq_of_lt h₂]
  exact ⟨h₁, h₃⟩

theorem readTwo_wide {ch : Nat} (h : 0xC2 ≤ ch ∧ ch < 0xE0) (rest : List UInt8) :
    0x80 ≤ (readTwo ch rest).1.val ∧ (readTwo ch rest).1.Scalar := by
  unfold readTwo; repeat' split
  all_goals apply wide_ofNat <;> (try simp only [isCont_iff] at *) <;> omega

/-- `secondOf3` keeps `\xED` below the surrogates. -/
theorem readThree_wide {ch : Nat} (h : 0xE0 ≤ ch ∧ ch < 0xF0) (rest : List UInt8) :
    0x80 ≤ (readThree ch rest).1.val ∧ (readThree ch rest).1.Scalar := by
  unfold readThree; repeat' split
  all_goals apply wide_ofNat <;> (try simp only [isCont_iff, secondOf3_iff] at *) <;> omega

/-- `secondOf4` keeps `\xF4` at or below `U+10FFFF`. -/
theorem readFour_wide {ch : Nat} (h : 0xF0 ≤ ch ∧ ch < 0xF5) (rest : List UInt8) :
    0x80 ≤ (readFour ch rest).1.val ∧ (readFour ch rest).1.Scalar := by
  unfold readFour; repeat' split
  all_goals apply wide_ofNat <;> (try simp only [isCont_iff, secondOf4_iff] at *) <;> omega

/-- What one step can give: an ASCII lead byte itself, or a scalar value outside ASCII,
`U+FFFD` among them. -/
theorem readChar_cases (b : UInt8) (rest : List UInt8) :
    (b.toNat < 0x80 ∧ (readChar b rest).1 = Fin.ofNat b.toNat) ∨
      (0x80 ≤ (readChar b rest).1.val ∧ (readChar b rest).1.Scalar) := by
  have hr : 0x80 ≤ replacementChar.val ∧ replacementChar.Scalar :=
    wide_ofNat (by omega) (by omega) (by omega)
  have hb : b.toNat < 256 := b.val.isLt
  dsimp only [readChar]
  split_ifs with h₁ h₂ h₃ h₄ h₅
  · exact .inl ⟨h₁, rfl⟩
  · exact .inr hr
  · exact .inr (readTwo_wide ⟨by omega, h₃⟩ rest)
  · exact .inr (readThree_wide ⟨by omega, h₄⟩ rest)
  · exact .inr (readFour_wide ⟨by omega, h₅⟩ rest)
  · exact .inr hr

theorem readChar_scalar (b : UInt8) (rest : List UInt8) : (readChar b rest).1.Scalar := by
  rcases readChar_cases b rest with ⟨hb, he⟩ | ⟨-, hs⟩
  · rw [he, CodePoint.Scalar, val_ofNat]; omega
  · exact hs

/-- A step gives `U+0000` only at a NUL byte. -/
theorem readChar_val_ne_zero {b : UInt8} (hb : b ≠ 0) (rest : List UInt8) :
    (readChar b rest).1.val ≠ 0 := by
  have hb' : b.toNat ≠ 0 := fun h => hb (UInt8.eq_of_val_eq (Fin.ext h))
  rcases readChar_cases b rest with ⟨hlt, he⟩ | ⟨hw, -⟩
  · rw [he, val_ofNat]; omega
  · omega

theorem readChar_of_ascii {b : UInt8} (h : b.toNat < 0x80) (rest : List UInt8) :
    readChar b rest = (Fin.ofNat b.toNat, rest) := by
  dsimp only [readChar]; rw [if_pos h]

theorem readChar_of_two {b : UInt8} (h : 0xC2 ≤ b.toNat ∧ b.toNat < 0xE0) (rest : List UInt8) :
    readChar b rest = readTwo b.toNat rest := by
  dsimp only [readChar]; rw [if_neg (by omega), if_neg (by omega), if_pos h.2]

theorem readChar_of_three {b : UInt8} (h : 0xE0 ≤ b.toNat ∧ b.toNat < 0xF0) (rest : List UInt8) :
    readChar b rest = readThree b.toNat rest := by
  dsimp only [readChar]; rw [if_neg (by omega), if_neg (by omega), if_neg (by omega), if_pos h.2]

theorem readChar_of_four {b : UInt8} (h : 0xF0 ≤ b.toNat ∧ b.toNat < 0xF5) (rest : List UInt8) :
    readChar b rest = readFour b.toNat rest := by
  dsimp only [readChar]
  rw [if_neg (by omega), if_neg (by omega), if_neg (by omega), if_neg (by omega), if_pos h.2]

/-- `readChar` reads back one character `str.encode()` wrote, whatever follows it. -/
theorem readChar_encodeChar {c : CodePoint} {e : List UInt8} (h : encodeChar c = .ok e)
    (rest : List UInt8) : ∃ b t, e = b :: t ∧ readChar b (t ++ rest) = (c, rest) := by
  obtain ⟨n, hn⟩ := c
  simp only [encodeChar] at h
  split_ifs at h <;> cases h <;> refine ⟨_, _, rfl, ?_⟩ <;>
    simp only [List.cons_append, List.nil_append]
  · rw [readChar_of_ascii (by rw [toNat_toUInt8 (by omega)]; omega)]
    simp (disch := omega) only [toNat_toUInt8, Prod.mk.injEq, and_true]
    ext; simp only [val_ofNat]; omega
  · rw [readChar_of_two (by rw [toNat_toUInt8 (by omega)]; omega)]
    simp (disch := omega) only [readTwo, toNat_toUInt8, isCont_iff, if_pos, Prod.mk.injEq,
      and_true]
    ext; simp only [cp2, val_ofNat]; omega
  · rw [readChar_of_three (by rw [toNat_toUInt8 (by omega)]; omega)]
    simp (disch := omega) only [readThree, toNat_toUInt8, isCont_iff, secondOf3_iff, if_pos,
      Prod.mk.injEq, and_true]
    ext; simp only [cp3, val_ofNat]; omega
  · rw [readChar_of_four (by rw [toNat_toUInt8 (by omega)]; omega)]
    simp (disch := omega) only [readFour, toNat_toUInt8, isCont_iff, secondOf4_iff, if_pos,
      Prod.mk.injEq, and_true]
    ext; simp only [cp4, val_ofNat]; omega

/-- A character cut short by the end of the data is one `U+FFFD`. -/
theorem readChar_prefix_encodeChar {c : CodePoint} {b : UInt8} {t p : List UInt8}
    (hc : encodeChar c = .ok (b :: t)) (hp : p <+: t) (hlt : p.length < t.length) :
    readChar b p = (replacementChar, []) := by
  obtain ⟨n, hn⟩ := c
  obtain ⟨k, rfl⟩ : ∃ k, p = t.take k := ⟨_, List.prefix_iff_eq_take.mp hp⟩
  have hk : k < t.length := by rw [List.length_take] at hlt; omega
  simp only [encodeChar] at hc
  split_ifs at hc <;> cases hc <;> simp only [List.length_cons, List.length_nil] at hk
  · omega
  · rw [readChar_of_two (by rw [toNat_toUInt8 (by omega)]; omega)]
    interval_cases k; rfl
  · rw [readChar_of_three (by rw [toNat_toUInt8 (by omega)]; omega)]
    interval_cases k <;>
      simp (disch := omega) only [List.take, readThree, toNat_toUInt8, secondOf3_iff, if_pos]
  · rw [readChar_of_four (by rw [toNat_toUInt8 (by omega)]; omega)]
    interval_cases k <;> simp (disch := omega) only [List.take, readFour, toNat_toUInt8,
      isCont_iff, secondOf4_iff, if_pos]

/-! ## Decoding against `str.encode()` -/

/-- Decoding what `str.encode()` wrote gives the string back, and then goes on. -/
theorem decodeUtf8_encodeUtf8 : ∀ {cs : List CodePoint} {e : List UInt8},
    encodeUtf8 cs = .ok e → ∀ rest, decodeUtf8 (e ++ rest) = cs ++ decodeUtf8 rest
  | [], _, h, rest => by cases h; rfl
  | c :: cs, e, h, rest => by
    obtain ⟨ec, hc, h⟩ := bind_eq_ok.mp h
    obtain ⟨es, hs, h⟩ := bind_eq_ok.mp h
    cases h
    obtain ⟨b, t, rfl, hr⟩ := readChar_encodeChar hc (es ++ rest)
    rw [List.append_assoc, List.cons_append, decodeUtf8_cons, hr, decodeUtf8_encodeUtf8 hs,
      List.cons_append]

theorem decodeUtf8_of_encodeUtf8 {cs : List CodePoint} {e : List UInt8}
    (h : encodeUtf8 cs = .ok e) : decodeUtf8 e = cs := by
  simpa using decodeUtf8_encodeUtf8 h []

theorem encodeChar_ok_of_scalar {c : CodePoint} (h : c.Scalar) : ∃ e, encodeChar c = .ok e := by
  simp only [encodeChar]
  split_ifs with h₁ h₂ h₃ h₄
  all_goals first | exact ⟨_, rfl⟩ | exact absurd h₄ h

/-- `str.encode()` raises on nothing but a surrogate. -/
theorem encodeUtf8_ok_of_scalar : ∀ {cs : List CodePoint}, (∀ c ∈ cs, c.Scalar) →
    ∃ e, encodeUtf8 cs = .ok e
  | [], _ => ⟨[], rfl⟩
  | c :: cs, h => by
    obtain ⟨ec, hc⟩ := encodeChar_ok_of_scalar (h c (List.mem_cons_self _ _))
    obtain ⟨es, hs⟩ := encodeUtf8_ok_of_scalar fun c hc => h c (List.mem_cons_of_mem _ hc)
    exact ⟨ec ++ es, by simp [encodeUtf8, hc, hs, bind, Except.bind, pure, Except.pure]⟩

/-- `str.encode()` writes a NUL byte only for the code point `U+0000`. -/
theorem zero_not_mem_encodeChar {c : CodePoint} {e : List UInt8} (h : encodeChar c = .ok e)
    (h0 : c.val ≠ 0) : 0 ∉ e := by
  obtain ⟨n, hn⟩ := c
  change n ≠ 0 at h0
  have key : ∀ x ∈ e, x.toNat ≠ 0 := by
    simp only [encodeChar] at h
    split_ifs at h <;> cases h <;> simp (disch := omega) [toNat_toUInt8]
    all_goals omega
  exact fun he => key 0 he rfl

theorem zero_not_mem_encodeUtf8 : ∀ {cs : List CodePoint} {e : List UInt8},
    encodeUtf8 cs = .ok e → (∀ c ∈ cs, c.val ≠ 0) → 0 ∉ e
  | [], _, h, _ => by cases h; exact List.not_mem_nil 0
  | c :: cs, e, h, h0 => by
    obtain ⟨ec, hc, h⟩ := bind_eq_ok.mp h
    obtain ⟨es, hs, h⟩ := bind_eq_ok.mp h
    cases h
    exact List.not_mem_append (zero_not_mem_encodeChar hc (h0 c (List.mem_cons_self _ _)))
      (zero_not_mem_encodeUtf8 hs fun c hc => h0 c (List.mem_cons_of_mem _ hc))

/-- Every code point `decode("utf-8", "replace")` gives is a scalar value. -/
theorem scalar_of_mem_decodeUtf8 {c : CodePoint} {bs : List UInt8} (h : c ∈ decodeUtf8 bs) :
    c.Scalar := by
  obtain ⟨b, rest, -, rfl⟩ := exists_readChar_of_mem_decodeUtf8 h
  exact readChar_scalar b rest

theorem val_ne_zero_of_mem_decodeUtf8 {c : CodePoint} {bs : List UInt8} (h0 : 0 ∉ bs)
    (h : c ∈ decodeUtf8 bs) : c.val ≠ 0 := by
  obtain ⟨b, rest, hs, rfl⟩ := exists_readChar_of_mem_decodeUtf8 h
  exact readChar_val_ne_zero (fun hb => h0 (hs.subset (hb ▸ List.mem_cons_self b rest))) rest

/-- Text cut inside its last character, as a full buffer or a truncated field may hold it,
decodes to the text before that character and one `U+FFFD`. -/
theorem decodeUtf8_cut {cs : List CodePoint} {c : CodePoint} {e ec p : List UInt8}
    (he : encodeUtf8 cs = .ok e) (hc : encodeChar c = .ok ec) (hp : p <+: ec) (hne : p ≠ [])
    (hlt : p.length < ec.length) : decodeUtf8 (e ++ p) = cs ++ [replacementChar] := by
  obtain ⟨b, t, rfl⟩ := List.exists_cons_of_ne_nil (fun h => by simp [h] at hlt : ec ≠ [])
  obtain ⟨b', p, rfl⟩ := List.exists_cons_of_ne_nil hne
  obtain ⟨rfl, hp'⟩ := List.cons_prefix_cons.mp hp
  rw [decodeUtf8_encodeUtf8 he, decodeUtf8_cons,
    readChar_prefix_encodeChar hc hp' (by simpa using hlt), decodeUtf8_nil]

/-- `"A€"` cut after the first two of the euro sign's three bytes. -/
theorem decodeUtf8_cut_euro :
    decodeUtf8 ([0x41] ++ [0xE2, 0x82]) = [Fin.ofNat 0x41] ++ [replacementChar] :=
  decodeUtf8_cut (c := Fin.ofNat 0x20AC) rfl rfl ⟨[0xAC], rfl⟩ (by decide) (by decide)

/-! ## Text read from the engine -/

/-- `ffi.string(p).decode("utf-8", "replace")`: the bytes before the first NUL (or all of a
`char[]` without one), decoded. `_raise_if_err` reads its message this way. -/
def readText (buf : List UInt8) : List CodePoint := decodeUtf8 (cString buf)

/-- `Meta.to_sql_string` once `flintdb_meta_to_sql_string` has returned `rc` and left `err`
and the 8192-byte buffer `buf`. -/
def Meta.toSqlString (err : Option String) (rc : Int) (buf : List UInt8) :
    Except PyError (List CodePoint) := do
  raiseIfErr err
  if rc < 0 then throw (.flintDB "flintdb_meta_to_sql_string failed")
  pure (readText buf)

/-- `SqlResult.column_names`, from the `column_count` entries of `column_names`: each one
that is not NULL read as text. -/
def SqlResult.columnNames (names : List (Option (List UInt8))) : List (List CodePoint) :=
  names.filterMap fun p => p.map readText

/-- Names sent through `_to_cstr` and stored by the engine NUL-terminated come back from
`column_names` as they were, provided none holds `U+0000`. -/
theorem columnNames_toCstr : ∀ {names : List (List CodePoint)} {bufs : List (List UInt8)},
    names.mapM (fun cs => toCstr (.str cs)) = .ok bufs → (∀ cs ∈ names, ∀ c ∈ cs, c.val ≠ 0) →
    SqlResult.columnNames (bufs.map fun b => some (b ++ [0])) = names
  | [], _, h, _ => by cases h; rfl
  | cs :: names, bufs, h, h0 => by
    rw [List.mapM_cons] at h
    obtain ⟨b, hb, h⟩ := bind_eq_ok.mp h
    obtain ⟨bs, hbs, h⟩ := bind_eq_ok.mp h
    cases h
    have hz := zero_not_mem_encodeUtf8 hb (h0 cs (List.mem_cons_self _ _))
    simp only [SqlResult.columnNames, List.map_cons, List.filterMap_cons, Option.map_some',
      readText, cString_append_zero hz, decodeUtf8_of_encodeUtf8 hb]
    exact congrArg _ (columnNames_toCstr hbs fun cs hc => h0 cs (List.mem_cons_of_mem _ hc))

/-- Two columns, `id` and `é`, as the engine would hold them. -/
theorem columnNames_id_eacute :
    SqlResult.columnNames ([[0x69, 0x64], [0xC3, 0xA9]].map fun b => some (b ++ [0])) =
      [[Fin.ofNat 0x69, Fin.ofNat 0x64], [Fin.ofNat 0xE9]] :=
  columnNames_toCstr rfl (by simp)

/-- Every text the binding reads from the engine can be encoded again: `_to_cstr` (and a
UTF-8 `print`) never raises `UnicodeEncodeError` on it, and the bytes it gives, stored
NUL-terminated, read back as the same text. -/
theorem readText_reencode (buf : List UInt8) :
    ∃ e, toCstr (.str (readText buf)) = .ok e ∧ readText (e ++ [0]) = readText buf := by
  have hs : ∀ c ∈ readText buf, c.Scalar := fun c hc => scalar_of_mem_decodeUtf8 hc
  have hn : (0 : UInt8) ∉ cString buf := fun h => by
    simpa using List.mem_takeWhile_imp h
  obtain ⟨e, he⟩ := encodeUtf8_ok_of_scalar hs
  have hz := zero_not_mem_encodeUtf8 he fun c hc => val_ne_zero_of_mem_decodeUtf8 hn hc
  exact ⟨e, he, by rw [readText, cString_append_zero hz, decodeUtf8_of_encodeUtf8 he]⟩

end FlintDB
