import FlintDB.Ownership.Liveness
import FlintDB.Marshal.Utf8

/-! # Programs of calls

A program against the binding, as the model runs it. A call of a run hands the rest of
the program the objects it created, as Python binds what a call returns to a variable; a
constructor that raises, and so created nothing, ends the program. A method call changes
no ownership.

A program is safe when, from every sound world, each call of a run it makes keeps the
discipline and each method call finds the borrowed `Row`s it reads still lent. Every call
a safe program makes then hands the engine only pointers it can use, and its calls of a
run keep the discipline. Safety follows the program's text: a call the discipline does not
restrict is safe, and so are methods on the rows that call just handed back. The two
restricted calls are safe over objects just created: `Aggregate.build` over the `GroupBy`
and `AggFunc`s made right before it, and `iter_rows` on the result `sql_exec` just
returned.
-/

namespace FlintDB

/-- The engine's answer to a call that succeeds: no error, and a pointer that is not
NULL. -/
def Native.ok : Native := ⟨none, false⟩

/-- The engine's answer to `next` past the last row of a row cursor: NULL, no error. -/
def Native.done : Native := ⟨none, true⟩

variable {s : World}

/-! ## Strings the program writes -/

section Strings

/-- `_to_cstr` accepts every string the program writes: a `Char` is a Unicode scalar
value, so `str.encode()` never meets a lone surrogate. -/
theorem toCstr_ofString (str : String) : ∃ e, toCstr (.ofString str) = .ok e :=
  encodeUtf8_ok_of_scalar fun c hc => by
    obtain ⟨ch, -, rfl⟩ := List.mem_map.mp hc
    have hv := ch.valid
    simp only [UInt32.isValidChar, Nat.isValidChar] at hv
    simp only [CodePoint.Scalar, val_ofNat, Char.toNat]
    omega

theorem isOk_iff_exists {α : Type} {a : Except PyError α} :
    a.isOk = true ↔ ∃ x, a = .ok x := by
  cases a <;> simp [Except.isOk, Except.toBool]

@[simp] theorem toCstr_ofString_isOk (str : String) : (toCstr (.ofString str)).isOk = true :=
  isOk_iff_exists.mpr (toCstr_ofString str)

theorem withArg_const {α β : Type} {a : Except PyError α} (h : a.isOk = true)
    (k : World → World × Except PyError β) (s : World) : withArg a (fun _ => k) s = k s := by
  obtain ⟨x, rfl⟩ := isOk_iff_exists.mp h
  rfl

end Strings

/-! ## The discipline over runs put together -/

section Discipline

/-- Whether the discipline restricts a call: it restricts only `Aggregate.build` and
`iter_rows`. -/
def Op.restricted : Op → Bool
  | .build .. | .iterRows _ => true
  | _ => false

variable {op : Op}

theorem Op.proper_of_unrestricted (h : op.restricted = false) (s : World) : Proper s op := by
  cases op <;> trivial

theorem Op.ne_build (h : op.restricted = false) : ∀ aggId gbs fns r, op ≠ .build aggId gbs fns r := by
  rintro _ _ _ _ rfl
  cases h

end Discipline

/-! ## Objects that still own their handles -/

section Owned

/-- No object at index `b` or later has passed its handle on: every `GroupBy` and
`AggFunc` there still has `_owned` set. -/
def OwnedFrom (b : Nat) (s : World) : Prop :=
  ∀ j, b ≤ j → ∀ w ∈ s.objs[j]?, w.transferable

variable {b : Nat}

theorem ownedFrom_length (s : World) : OwnedFrom s.objs.length s := fun j hj w hw => by
  rw [List.getElem?_eq_none hj] at hw
  cases hw

theorem OwnedFrom.append {s' : World} {ws : List Wrapper} (h : OwnedFrom b s)
    (e : s'.objs = s.objs ++ ws) (hws : ∀ w ∈ ws, w.transferable) : OwnedFrom b s' :=
  fun j hj w hw => by
    rw [e] at hw
    rcases Nat.lt_or_ge j s.objs.length with hl | hl
    · rw [List.getElem?_append_left hl] at hw
      exact h j hj w hw
    · rw [List.getElem?_append_right hl] at hw
      exact hws w (List.getElem?_mem hw)

theorem OwnedFrom.push (h : OwnedFrom b s) {w : Wrapper} (hw : w.transferable) :
    OwnedFrom b (s.push w) :=
  h.append rfl fun _ hx => List.mem_singleton.mp hx ▸ hw

theorem OwnedFrom.construct (h : OwnedFrom b s) {ptr : World → Handle × World}
    {mk : Handle → Wrapper} {msg : String} {r : Native} (hp : (ptr s).2.objs = s.objs)
    (hmk : (mk (ptr s).1).transferable) : OwnedFrom b (construct ptr mk msg r s).1 := by
  have h' : OwnedFrom b (ptr s).2 := h.append (by rw [hp, List.append_nil]) (List.forall_mem_nil _)
  rcases construct_cases ptr mk msg r s with e | e | e <;> rw [e]
  · exact h
  · exact h'
  · exact h'.push hmk

theorem OwnedFrom.withArg {α β : Type} {a : Except PyError α}
    {k : α → World → World × Except PyError β} (h : OwnedFrom b s)
    (hk : ∀ x, OwnedFrom b (k x s).1) : OwnedFrom b (withArg a k s).1 := by
  cases a with
  | ok x => exact hk x
  | error e => exact h

theorem Wrapper.transferable_closed (w : Wrapper) : w.closed.transferable = w.transferable := by
  cases w with
  | groupBy _ owned | aggFunc _ owned => cases owned <;> rfl
  | _ => rfl

theorem OwnedFrom.close (h : OwnedFrom b s) (i : Nat) : OwnedFrom b (close i s) :=
  fun j hj w hw => by
    by_cases hji : i = j
    · subst hji
      rw [getElem?_close] at hw
      obtain ⟨w₀, hw₀, rfl⟩ := Option.map_eq_some'.mp hw
      rw [Wrapper.transferable_closed]
      exact h i hj w₀ hw₀
    · rcases close_objs i s with e | ⟨w₀, e⟩ <;> rw [e] at hw
      · exact h j hj w hw
      · rw [List.getElem?_set_ne hji] at hw
        exact h j hj w hw

theorem OwnedFrom.compute (h : OwnedFrom b s) (c : Computed) :
    OwnedFrom b (Aggregate.compute c s).1 := by
  rcases c with ⟨_ | _, _ | mask⟩
  · exact h
  · rw [Aggregate.compute_eq]
    exact h.append rfl fun w hw => by
      obtain ⟨j, -, rfl⟩ := List.mem_map.mp hw
      rfl
  · exact h
  · exact h

/-- Every call but `Aggregate.build` keeps `_owned` set where it was: the objects it adds
own their handles, and `close` leaves the flag as it found it. -/
theorem OwnedFrom.step (h : OwnedFrom b s) {op : Op}
    (hop : ∀ aggId gbs fns r, op ≠ .build aggId gbs fns r) : OwnedFrom b (step s op) := by
  have halloc : ∀ {α : Type} {a : Except PyError α} {mk : Handle → Wrapper} {msg : String}
      {r : Native}, (mk (.obj s.next)).transferable →
      OwnedFrom b (FlintDB.withArg a (fun _ => FlintDB.construct World.alloc mk msg r) s).1 :=
    fun hmk => h.withArg fun _ => h.construct rfl hmk
  cases op with
  | metaNew | groupbyNew | funcCount | funcSum | funcAvg | rowNew | fileSortNew | tableNew
  | genericFileNew => exact halloc rfl
  | build aggId gbs fns r => exact absurd rfl (hop aggId gbs fns r)
  | sqlExec sql r cursor =>
    exact h.withArg fun _ => h.construct (by unfold newResult; cases cursor <;> rfl) rfl
  | find i _ r =>
    simp only [FlintDB.step]
    split
    · exact halloc rfl
    · exact halloc rfl
    · exact h
  | read i r row =>
    simp only [FlintDB.step]
    split
    · exact h.construct rfl rfl
    · exact h.construct rfl rfl
    · exact h
  | next i r row =>
    simp only [FlintDB.step]
    split
    · rcases CursorRow.next_cases _ r row s with e | e <;> rw [e]
      · exact h
      · exact h.push rfl
    · exact h
  | compute i c =>
    simp only [FlintDB.step]
    split
    · exact h.compute c
    · exact h
  | cmpr i a c =>
    simp only [FlintDB.step]
    split
    · refine (h.push ?_).push ?_ <;> rfl
    · exact h
  | iterRows i =>
    simp only [FlintDB.step]
    split
    · unfold SqlResult.iterRows
      split
      · refine h.push ?_
        rfl
      · exact h
    · exact h
  | close i => exact h.close i

end Owned

/-! ## A result and its cursor -/

section Result

theorem step_sqlExec_ok (q : String) (c : Bool) (s : World) :
    step s (.sqlExec (.ofString q) .ok c) =
      (newResult c s).2.push (.sqlResult (some (newResult c s).1)) := by
  simp only [step, sqlExec, withArg_const (toCstr_ofString_isOk q)]
  rfl

theorem Fresh.lookup_results_new (hf : Fresh s) {n : Nat} (hn : s.next ≤ n) :
    s.results.lookup (.obj n) = none := by
  refine List.lookup_eq_none_iff.mpr fun p hp => bne_iff_ne.mpr fun he => ?_
  obtain ⟨m, hm, hpm⟩ := hf p.1 (List.mem_append_left _ (List.mem_append_right _
    (List.mem_flatten.mpr ⟨_, List.mem_map.mpr ⟨p, hp, rfl⟩, List.mem_cons_self _ _⟩)))
  rw [← he, Handle.obj.injEq] at hpm
  omega

/-- `iter_rows()` on the result `sql_exec` has just returned keeps the discipline: the
result's cursor is new, so no object owns it and no destructor has seen it. -/
theorem iterRows_after_sqlExec (hf : Fresh s) (q : String) (c : Bool) :
    Proper (step s (.sqlExec (.ofString q) .ok c)) (.iterRows s.objs.length) := by
  have hnew : ∀ n, s.next < n → Handle.obj n ∉ mentioned s := fun n hn h => by
    obtain ⟨m, hm, he⟩ := hf _ h
    cases he
    omega
  intro x hx
  rw [step_sqlExec_ok] at hx ⊢
  cases c
  · simp [iterCursor, newResult, List.lookup_append, hf.lookup_results_new] at hx
  · simp [iterCursor, newResult, List.lookup_append, hf.lookup_results_new] at hx
    subst hx
    have hm := hnew (s.next + 1) (Nat.lt_succ_self _)
    refine ⟨fun hh => ?_,
      fun hh => hm (freed_subset_mentioned s _ (by simpa [newResult] using hh))⟩
    rcases List.mem_append.mp ((holders_push _ _).subset hh) with hh | hh
    · simp [newResult, Wrapper.holds] at hh
    · rw [holders_newResult] at hh
      exact hm (holders_subset_mentioned s _ hh)

end Result

/-! ## Programs -/

/-- A call a program makes: a call of a run, or a method call. -/
inductive Call where
  | op (op : Op)
  | method (m : Method)
  deriving Repr

/-- The pointers a call hands the engine; none when it raises before its native call. -/
def Call.call (s : World) : Call → Option (List Ptr)
  | .op o => Op.call s o
  | .method m => Method.call s m

/-- The calls of a run among a program's calls, in order. -/
def Call.ops (cs : List Call) : List Op :=
  cs.filterMap fun
    | .op o => some o
    | .method _ => none

@[simp] theorem Call.ops_cons_op (o : Op) (cs : List Call) : Call.ops (.op o :: cs) = o :: Call.ops cs :=
  rfl

@[simp] theorem Call.ops_cons_method (m : Method) (cs : List Call) :
    Call.ops (.method m :: cs) = Call.ops cs :=
  rfl

/-- A program against the binding. -/
inductive Script where
  /-- The program returns. -/
  | stop
  /-- A call of a run; the rest of the program is given the objects it created. -/
  | call (op : Op) (k : List Nat → Script)
  /-- A method call. -/
  | method (m : Method) (k : Script)

namespace Script

/-- The calls a program makes from `s`, in order. -/
def calls : Script → World → List Call
  | stop, _ => []
  | call op k, s => .op op :: (k (created s op)).calls (step s op)
  | method m k, s => .method m :: k.calls s

/-- From `s`, each call of a run the program makes keeps the discipline, and each method
call finds every borrowed `Row` it reads still lent. -/
def Good : Script → World → Prop
  | stop, _ => True
  | call op k, s => Proper s op ∧ (k (created s op)).Good (step s op)
  | method m k, s => (∀ j ∈ m.rowArgs, RowUsable s j) ∧ k.Good s

@[simp] theorem calls_call (op : Op) (k : List Nat → Script) (s : World) :
    (call op k).calls s = .op op :: (k (created s op)).calls (step s op) :=
  rfl

@[simp] theorem calls_method (m : Method) (k : Script) (s : World) :
    (method m k).calls s = .method m :: k.calls s :=
  rfl

theorem good_call {op : Op} {k : List Nat → Script} {s : World} :
    (call op k).Good s ↔ Proper s op ∧ (k (created s op)).Good (step s op) :=
  Iff.rfl

theorem good_method {m : Method} {k : Script} {s : World} :
    (method m k).Good s ↔ (∀ j ∈ m.rowArgs, RowUsable s j) ∧ k.Good s :=
  Iff.rfl

/-- A program is safe when it is good from every sound world. -/
def Safe (p : Script) : Prop := ∀ s, Sound s → p.Good s

/-- A call whose result the program drops. -/
def seq (op : Op) (k : Script) : Script := call op fun _ => k

/-- The rest of a program given the one object a constructor created: a constructor that
raised created none, and the program stops. -/
def one (k : Nat → Script) : List Nat → Script
  | [j] => k j
  | _ => stop

/-- `x = op(...)`: a constructor whose object the rest of the program names. -/
def bind (op : Op) (k : Nat → Script) : Script := call op (one k)

/-- Method calls one after another. -/
def methods (ms : List Method) (k : Script) : Script := ms.foldr method k

/-! ### What a good program does -/

variable {p k : Script}

theorem good_methods {ms : List Method} :
    (methods ms k).Good s ↔ (∀ m ∈ ms, ∀ j ∈ m.rowArgs, RowUsable s j) ∧ k.Good s := by
  induction ms with
  | nil => simp [methods]
  | cons m ms ih => exact (and_congr_right' ih).trans (by rw [List.forall_mem_cons, and_assoc])

theorem length_of_created {op : Op} {j : Nat} (h : created s op = [j]) :
    s.objs.length ≤ j ∧ j < (step s op).objs.length :=
  mem_created.mp (by rw [h]; exact List.mem_singleton_self j)

theorem good_one {k : Nat → Script} {l : List Nat} (hk : ∀ j, l = [j] → (k j).Good s) :
    (one k l).Good s := by
  rcases l with _ | ⟨j, _ | _⟩
  · trivial
  · exact hk j rfl
  · trivial

/-- The calls of a run a good program makes keep the discipline. -/
theorem Good.properRun (h : p.Good s) : ProperRun s (Call.ops (p.calls s)) := by
  induction p generalizing s with
  | stop => trivial
  | call op k ih =>
    rw [calls_call, Call.ops_cons_op]
    exact ⟨h.1, ih _ h.2⟩
  | method m k ih =>
    rw [calls_method, Call.ops_cons_method]
    exact ih h.2

/-- From a sound world, every call a good program makes hands the engine only pointers
it can use at that point of the program. -/
theorem Good.usable (hs : Sound s) (h : p.Good s) : ∀ pre c post, p.calls s = pre ++ c :: post →
    ∀ ps, c.call (run s (Call.ops pre)) = some ps → Usable (run s (Call.ops pre)) ps := by
  induction p generalizing s with
  | stop => rintro (_ | _) _ _ ⟨⟩
  | call op k ih =>
    rw [calls_call]
    rintro (_ | ⟨c', pre⟩) c post he ps hc
    · obtain ⟨rfl, -⟩ := List.cons.inj he
      exact Op.call_usable hs h.1 hc
    · obtain ⟨rfl, he'⟩ := List.cons.inj he
      exact ih _ (hs.step h.1) h.2 pre c post he' ps hc
  | method m k ih =>
    rw [calls_method]
    rintro (_ | ⟨c', pre⟩) c post he ps hc
    · obtain ⟨rfl, -⟩ := List.cons.inj he
      exact Method.call_usable hs h.1 hc
    · obtain ⟨rfl, he'⟩ := List.cons.inj he
      exact ih hs h.2 pre c post he' ps hc

/-! ### Safe programs, from their parts -/

variable {op : Op}

theorem Safe.stop : Script.stop.Safe := fun _ _ => trivial

theorem Safe.call {k : List Nat → Script} (hop : op.restricted = false)
    (hk : ∀ l, (k l).Safe) : (Script.call op k).Safe := fun s hs =>
  have hp := Op.proper_of_unrestricted hop s
  good_call.mpr ⟨hp, hk _ _ (hs.step hp)⟩

theorem Safe.seq (hop : op.restricted = false) (hk : k.Safe) : (Script.seq op k).Safe :=
  .call hop fun _ => hk

theorem Safe.bind {k : Nat → Script} (hop : op.restricted = false) (hk : ∀ j, (k j).Safe) :
    (Script.bind op k).Safe :=
  .call hop fun _ _ hs => good_one fun j _ => hk j _ hs

theorem Safe.method {m : Method} (hm : m.rowArgs = []) (hk : k.Safe) :
    (Script.method m k).Safe := fun s hs =>
  good_method.mpr ⟨fun j hj => (List.not_mem_nil j (hm ▸ hj)).elim, hk s hs⟩

theorem Safe.methods {ms : List Method} (hms : ∀ m ∈ ms, m.rowArgs = []) (hk : k.Safe) :
    (Script.methods ms k).Safe := fun s hs =>
  good_methods.mpr ⟨fun m hm j hj => (List.not_mem_nil j (hms m hm ▸ hj)).elim, hk s hs⟩

/-- A call, then method calls that read only the rows it handed back. -/
theorem Safe.call_methods {ms : List Nat → List Method} {k : List Nat → Script}
    (hop : op.restricted = false) (hms : ∀ l, ∀ m ∈ ms l, ∀ j ∈ m.rowArgs, j ∈ l)
    (hk : ∀ l, (k l).Safe) : (Script.call op fun l => Script.methods (ms l) (k l)).Safe := fun s hs =>
  have hp := Op.proper_of_unrestricted hop s
  good_call.mpr ⟨hp, good_methods.mpr
    ⟨fun m hm j hj => hs.rowUsable_created (hms _ m hm j hj), hk _ _ (hs.step hp)⟩⟩

/-- A constructor, then method calls that read only the object it created. -/
theorem Safe.bind_methods {ms : Nat → List Method} {k : Nat → Script}
    (hop : op.restricted = false) (hms : ∀ i, ∀ m ∈ ms i, ∀ j ∈ m.rowArgs, j = i)
    (hk : ∀ i, (k i).Safe) : (Script.bind op fun i => Script.methods (ms i) (k i)).Safe := fun s hs =>
  have hp := Op.proper_of_unrestricted hop s
  good_call.mpr ⟨hp, good_one fun i hi => good_methods.mpr
    ⟨fun m hm j hj => hs.rowUsable_created
      (by rw [hi, hms i m hm j hj]; exact List.mem_singleton_self i), hk i _ (hs.step hp)⟩⟩

/-- `Aggregate.build` over a `GroupBy` and three `AggFunc`s that the four calls right
before it created: distinct objects, each of which still owns its handle. -/
theorem Safe.build_new {g f₁ f₂ f₃ : Op} {aggId : StrOrBytes} {r : Native}
    {k : Nat → Nat → Nat → Nat → Nat → Script} (hg : g.restricted = false)
    (h₁ : f₁.restricted = false) (h₂ : f₂.restricted = false) (h₃ : f₃.restricted = false)
    (hk : ∀ gb a b c agg, (k gb a b c agg).Safe) :
    (Script.bind g fun gb => Script.bind f₁ fun a => Script.bind f₂ fun b =>
      Script.bind f₃ fun c => Script.bind (.build aggId [gb] [a, b, c] r) (k gb a b c)).Safe := by
  intro s hs
  have p₀ := Op.proper_of_unrestricted hg s
  have p₁ := Op.proper_of_unrestricted h₁ (step s g)
  have p₂ := Op.proper_of_unrestricted h₂ (step (step s g) f₁)
  have p₃ := Op.proper_of_unrestricted h₃ (step (step (step s g) f₁) f₂)
  have hown : OwnedFrom s.objs.length (step (step (step (step s g) f₁) f₂) f₃) :=
    ((((ownedFrom_length s).step (Op.ne_build hg)).step (Op.ne_build h₁)).step
      (Op.ne_build h₂)).step (Op.ne_build h₃)
  refine good_call.mpr ⟨p₀, good_one fun gb e₀ => good_call.mpr ⟨p₁, good_one fun a e₁ =>
    good_call.mpr ⟨p₂, good_one fun b e₂ => good_call.mpr ⟨p₃, good_one fun c e₃ => ?_⟩⟩⟩⟩
  have l₀ := length_of_created e₀
  have l₁ := length_of_created e₁
  have l₂ := length_of_created e₂
  have l₃ := length_of_created e₃
  have hp : Proper (step (step (step (step s g) f₁) f₂) f₃) (.build aggId [gb] [a, b, c] r) :=
    ⟨by simp; omega, fun i hi => hown i (by simp at hi; omega)⟩
  exact good_call.mpr ⟨hp, good_one fun agg _ =>
    hk gb a b c agg _ (((((hs.step p₀).step p₁).step p₂).step p₃).step hp)⟩

/-- `iter_rows()` on the result `sql_exec` has just handed back, after method calls that
read no `Row`. -/
theorem Safe.sqlExec_iterRows {q : String} {c : Bool} {ms : Nat → List Method}
    {k : Nat → List Nat → Script} (hms : ∀ i, ∀ m ∈ ms i, m.rowArgs = [])
    (hk : ∀ i l, (k i l).Safe) :
    (Script.bind (.sqlExec (.ofString q) .ok c) fun i =>
      Script.methods (ms i) (Script.call (.iterRows i) (k i))).Safe := by
  intro s hs
  refine good_call.mpr ⟨trivial, good_one fun i hi => good_methods.mpr
    ⟨fun m hm j hj => (List.not_mem_nil j (hms i m hm ▸ hj)).elim, ?_⟩⟩
  obtain rfl : i = s.objs.length := by
    have hc := length_of_created hi
    rw [step_sqlExec_ok, World.push_objs, List.length_append, newResult_objs] at hc
    simp only [List.length_singleton] at hc
    omega
  have hp := iterRows_after_sqlExec hs.fresh q c
  have hs₁ : Sound (step s (.sqlExec (.ofString q) .ok c)) := hs.step trivial
  exact good_call.mpr ⟨hp, hk _ _ _ (hs₁.step hp)⟩

end Script

end FlintDB
