import FlintDB.Ownership.Binding
import FlintDB.Ownership.Holders

/-! # Each call as ledger moves

Every call has a shape: the handles it takes owners for, those it destroys, those
that lose their owners. Closing a wrapper destroys exactly what the wrapper held; a
constructor takes an owner for the one handle it allocates. `Aggregate.build` and
`SqlResult.iter_rows` take owners for handles that already exist, so their shape
depends on how the caller uses them.
-/

namespace FlintDB

variable {s : World}

/-! ## Closing -/

@[simp] theorem World.destroy_nil (s : World) : s.destroy [] = s := by
  cases s; simp [World.destroy]

theorem Row.close_eq (i : Nat) (r : Ptr) (owned : Bool) (s : World) :
    Row.close i r owned s =
      (s.setObj i (.row none owned)).destroy (Wrapper.row r owned).holds.toList := by
  cases r <;> cases owned <;> simp [Row.close, Wrapper.holds]

theorem closePtr_eq (mk : Ptr → Wrapper) (i : Nat) (p : Ptr) (s : World) :
    closePtr mk i p s = match p with
      | some _ => (s.setObj i (mk none)).destroy p.toList
      | none => s := by
  cases p <;> rfl

theorem closePtr_grows_shape (mk : Ptr → Wrapper) {i : Nat} {w : Wrapper}
    (hi : s.objs[i]? = some w) (hmk : (mk none).ownPtr = none) :
    Grows s (closePtr mk i w.holds s) ∧ Shape s (closePtr mk i w.holds s) := by
  have hmk' : (mk none).holds = none := by
    cases h : (mk none).holds
    · rfl
    · exact absurd (Wrapper.ownPtr_of_holds h) (by simp [hmk])
  rw [closePtr_eq]
  split
  · next h hw =>
    refine ⟨((Grows.refl s).setObj (by simp [hmk])).destroy fun x hx => .inl ?_,
      Shape.setObj_destroy hi hmk'⟩
    simp only [hw, Option.toList_some, List.mem_singleton] at hx
    exact mem_mentioned_of_objs s hi (Wrapper.ownPtr_of_holds (hx ▸ hw))
  · exact ⟨Grows.refl s, Shape.refl s⟩

theorem lookup_mem {β : Type} : ∀ {l : List (Handle × β)} {a : Handle} {b : β},
    l.lookup a = some b → (a, b) ∈ l
  | [], _, _, h => by simp at h
  | (k, v) :: l, a, b, h => by
    by_cases hk : a = k
    · subst hk
      simp only [List.lookup_cons, beq_self_eq_true, Option.some.injEq] at h
      exact h ▸ List.mem_cons_self _ _
    · simp only [List.lookup_cons, beq_false_of_ne hk] at h
      exact List.mem_cons_of_mem _ (lookup_mem h)

theorem Aggregate.close_shape {i : Nat} {p : Ptr} (hi : s.objs[i]? = some (.aggregate p)) :
    Shape s (Aggregate.close i p s) := by
  cases p with
  | none => exact Shape.refl s
  | some a =>
    have hset := List.perm_iff_count.mp (holders_setObj s hi (.aggregate none))
    simp only [Aggregate.close, releaseAgg]
    split
    · next rs hl =>
      have he := List.perm_iff_count.mp (flatten_snd_eraseP hl)
      refine Shape.of_count [] (a :: rs) [] List.nodup_nil nofun (fun x => ?_) rfl
      have h₁ := hset x
      have h₂ := he x
      simp only [holders, World.setObj_objs, World.setObj_aggs, List.count_append,
        List.count_cons, List.count_nil, Wrapper.holds, Option.toList_some, Option.toList_none]
        at h₁ h₂ ⊢
      omega
    · exact Shape.of_count [] [a] [] List.nodup_nil nofun (fun x => by
        have := hset x
        simp only [holders_destroy, List.count_append, List.count_nil, Wrapper.holds,
          Option.toList_some, Option.toList_none] at this ⊢
        omega) rfl

theorem Aggregate.close_grows {i : Nat} {p : Ptr} (hi : s.objs[i]? = some (.aggregate p)) :
    Grows s (Aggregate.close i p s) := by
  cases p with
  | none => exact Grows.refl s
  | some a =>
    have ha : a ∈ mentioned s := mem_mentioned_of_objs s hi rfl
    have g : Grows s (s.setObj i (.aggregate none)) :=
      (Grows.refl s).setObj (by simp [Wrapper.ownPtr])
    simp only [Aggregate.close, releaseAgg]
    split
    · next rs hl =>
      refine (g.eraseAgg _).destroy fun x hx => ?_
      rcases List.mem_cons.mp hx with rfl | hx
      · exact .inl ha
      · exact .inl (mem_mentioned_of_aggs s (lookup_mem hl) hx)
    · exact g.destroy fun x hx => by rw [List.mem_singleton.mp hx]; exact .inl ha

/-- Closing a wrapper destroys what it held and nothing else, or for an aggregate, the
aggregate with everything it received. -/
theorem close_grows_shape (i : Nat) (s : World) : Grows s (close i s) ∧ Shape s (close i s) := by
  unfold close
  split
  next m hi => exact closePtr_grows_shape .meta hi rfl
  next r owned hi =>
    rw [Row.close_eq]
    refine ⟨((Grows.refl s).setObj (by simp [Wrapper.ownPtr])).destroy fun x hx => .inl ?_,
      Shape.setObj_destroy hi (by cases owned <;> rfl)⟩
    exact mem_mentioned_of_objs s hi (Wrapper.ownPtr_of_holds (by simpa using hx))
  next c hi => exact closePtr_grows_shape .cursorI64 hi rfl
  next c hi => exact closePtr_grows_shape .cursorRow hi rfl
  next t hi => exact closePtr_grows_shape .table hi rfl
  next g hi => exact closePtr_grows_shape .genericFile hi rfl
  next fs hi => exact closePtr_grows_shape .fileSort hi rfl
  next gb owned hi =>
    cases owned
    · exact ⟨Grows.refl s, Shape.refl s⟩
    · exact closePtr_grows_shape (.groupBy · true) hi rfl
  next f owned hi =>
    cases owned
    · exact ⟨Grows.refl s, Shape.refl s⟩
    · exact closePtr_grows_shape (.aggFunc · true) hi rfl
  next agg hi => exact ⟨Aggregate.close_grows hi, Aggregate.close_shape hi⟩
  next res hi => exact closePtr_grows_shape .sqlResult hi rfl
  next => exact ⟨Grows.refl s, Shape.refl s⟩

/-! ## Constructors and reads -/

section Construct

variable {ptr : World → Handle × World} {mk : Handle → Wrapper} {nullMsg : String} {r : Native}

/-- A constructor leaves the world as it was, as the native call left it, or with the
new wrapper added. -/
theorem construct_cases (ptr : World → Handle × World) (mk : Handle → Wrapper)
    (nullMsg : String) (r : Native) (s : World) :
    (construct ptr mk nullMsg r s).1 = s ∨ (construct ptr mk nullMsg r s).1 = (ptr s).2 ∨
      (construct ptr mk nullMsg r s).1 = (ptr s).2.push (mk (ptr s).1) := by
  unfold construct
  split
  · exact .inl rfl
  · cases r.err <;> simp

theorem construct_grows {s₀ : World} (g : Grows s₀ s) (hp : Grows s₀ (ptr s).2)
    (hmk : ∀ x, (mk (ptr s).1).ownPtr = some x → Accounted s₀ (ptr s).2 x) :
    Grows s₀ (construct ptr mk nullMsg r s).1 := by
  rcases construct_cases ptr mk nullMsg r s with h | h | h <;> rw [h]
  · exact g
  · exact hp
  · exact hp.push hmk

theorem construct_shape (hh : holders (ptr s).2 = holders s) (hfr : (ptr s).2.freed = s.freed)
    (hmk : ∀ x, (mk (ptr s).1).holds = some x → NewIn s ((ptr s).2.push (mk (ptr s).1)) x) :
    Shape s (construct ptr mk nullMsg r s).1 := by
  rcases construct_cases ptr mk nullMsg r s with h | h | h <;> rw [h]
  · exact Shape.refl s
  · exact Shape.of_perm (hh ▸ List.Perm.refl _) hfr
  · exact Shape.push (hh ▸ List.Perm.refl _) hfr fun x hx => .inl (hmk x hx)

theorem newIn_alloc (s : World) {s₁ : World} (hn : s.next + 1 ≤ s₁.next) :
    NewIn s s₁ (.obj s.next) :=
  ⟨s.next, Nat.le_refl _, hn, rfl⟩

/-- A constructor of an owning wrapper around a fresh allocation. -/
theorem alloc_construct_shape (hmk : ∀ h, (mk h).holds = some h) :
    Shape s (construct World.alloc mk nullMsg r s).1 :=
  construct_shape rfl rfl fun x hx => by
    cases (hmk _).symm.trans hx
    exact newIn_alloc s (Nat.le_refl _)

theorem alloc_construct_grows (hmk : ∀ h, (mk h).holds = some h) :
    Grows s (construct World.alloc mk nullMsg r s).1 :=
  construct_grows (Grows.refl s) (Grows.refl s).alloc fun x hx => by
    cases (Wrapper.ownPtr_of_holds (hmk _)).symm.trans hx
    exact .inr (.inr (newIn_alloc s (Nat.le_refl _)))

/-- A borrowed row added to the world takes no owner. -/
theorem view_construct_shape (t : Handle) (row : Nat) :
    Shape s (construct (fun s => (.view row, s.lend row t)) (fun h => .row (some h) false)
      nullMsg r s).1 :=
  construct_shape rfl rfl nofun

theorem view_construct_grows (t : Handle) (row : Nat) :
    Grows s (construct (fun s => (.view row, s.lend row t)) (fun h => .row (some h) false)
      nullMsg r s).1 :=
  construct_grows (Grows.refl s) ((Grows.refl s).lend row t) nofun

end Construct

theorem withArg_cases {α β : Type} (a : Except PyError α)
    (k : α → World → World × Except PyError β) (s : World) :
    (withArg a k s).1 = s ∨ ∃ x, (withArg a k s).1 = (k x s).1 := by
  cases a
  · exact .inl rfl
  · exact .inr ⟨_, rfl⟩

section WithArg

variable {α β : Type} {a : Except PyError α} {k : α → World → World × Except PyError β}

theorem withArg_grows {s₀ : World} (g : Grows s₀ s) (hk : ∀ x, Grows s₀ (k x s).1) :
    Grows s₀ (withArg a k s).1 := by
  rcases withArg_cases a k s with h | ⟨x, h⟩ <;> rw [h]
  · exact g
  · exact hk x

theorem withArg_shape {s₀ : World} (g : Shape s₀ s) (hk : ∀ x, Shape s₀ (k x s).1) :
    Shape s₀ (withArg a k s).1 := by
  rcases withArg_cases a k s with h | ⟨x, h⟩ <;> rw [h]
  · exact g
  · exact hk x

end WithArg

theorem newResult_fst (cursor : Bool) (s : World) : (newResult cursor s).1 = .obj s.next := by
  cases cursor <;> rfl

theorem newResult_objs (cursor : Bool) (s : World) : (newResult cursor s).2.objs = s.objs := by
  cases cursor <;> rfl

theorem holders_newResult (cursor : Bool) (s : World) :
    holders (newResult cursor s).2 = holders s := by
  cases cursor <;> rfl

theorem newResult_grows (cursor : Bool) (s : World) : Grows s (newResult cursor s).2 := by
  cases cursor
  · exact (Grows.refl s).alloc.addResult (.inr (.inr (newIn_alloc s (Nat.le_refl _))))
      nofun
  · refine (Grows.refl s).alloc.alloc.addResult (.inr (.inr (newIn_alloc s (Nat.le_succ _))))
      fun x h => .inr (.inr ⟨s.next + 1, Nat.le_succ _, Nat.lt_succ_self _, ?_⟩)
    cases h; rfl

theorem sqlExec_shape (sql : StrOrBytes) (r : Native) (cursor : Bool) (s : World) :
    Shape s (sqlExec sql r cursor s).1 :=
  withArg_shape (Shape.refl s) fun _ =>
    construct_shape (holders_newResult cursor s) (by cases cursor <;> rfl) fun x hx => by
      simp only [newResult_fst, Wrapper.holds, Option.some.injEq] at hx
      subst hx
      exact newIn_alloc s (by cases cursor <;> simp [newResult])

theorem sqlExec_grows (sql : StrOrBytes) (r : Native) (cursor : Bool) (s : World) :
    Grows s (sqlExec sql r cursor s).1 :=
  withArg_grows (Grows.refl s) fun _ =>
    construct_grows (Grows.refl s) (newResult_grows cursor s) fun x hx => by
      simp only [newResult_fst, Wrapper.ownPtr, Option.some.injEq] at hx
      subst hx
      exact .inr (.inr (newIn_alloc s (by cases cursor <;> simp [newResult])))

theorem CursorRow.next_cases (c : Handle) (r : Native) (row : Nat) (s : World) :
    (CursorRow.next c r row s).1 = s.takeBack c ∨
      (CursorRow.next c r row s).1 =
        ((s.takeBack c).lend row c).push (.row (some (.view row)) false) := by
  unfold CursorRow.next
  split
  · exact .inl rfl
  · split
    · exact .inl rfl
    · exact .inr rfl

/-- The engine's rows wrapped as borrowed take no owner. -/
theorem FileSort.cmprRows_shape (fs : Handle) (a b : Nat) (s : World) :
    Shape s (FileSort.cmprRows fs a b s) :=
  Shape.push (holders_push_of_holds_none _ rfl) rfl nofun

theorem FileSort.cmprRows_grows (fs : Handle) (a b : Nat) (s : World) :
    Grows s (FileSort.cmprRows fs a b s) :=
  have g : Grows s ((((s.takeBack fs).lend a fs).lend b fs).push (.row (some (.view a)) false)) :=
    ((((Grows.refl s).takeBack fs).lend a fs).lend b fs).push nofun
  g.push nofun

theorem CursorRow.next_shape (c : Handle) (r : Native) (row : Nat) (s : World) :
    Shape s (CursorRow.next c r row s).1 := by
  rcases CursorRow.next_cases c r row s with h | h <;> rw [h]
  · exact (Shape.refl s).takeBack c
  · exact Shape.push (List.Perm.refl _) rfl nofun

theorem CursorRow.next_grows (c : Handle) (r : Native) (row : Nat) (s : World) :
    Grows s (CursorRow.next c r row s).1 := by
  rcases CursorRow.next_cases c r row s with h | h <;> rw [h]
  · exact (Grows.refl s).takeBack c
  · exact (((Grows.refl s).takeBack c).lend row c).push nofun

theorem SqlResult.iterRows_grows (res : Handle) (s : World) :
    Grows s (SqlResult.iterRows res s).1 := by
  unfold SqlResult.iterRows
  split
  · next c hc =>
    exact (Grows.refl s).push fun x hx => by
      cases hx
      exact .inl (mem_mentioned_of_results s (lookup_mem hc))
  · exact Grows.refl s

/-- A second wrapper over the result's cursor takes an owner for it, so `iter_rows`
keeps the ledger only while no one holds the cursor and no destructor has seen it. -/
theorem SqlResult.iterRows_shape (res : Handle) (s : World)
    (hc : ∀ c, s.results.lookup res = some (some c) → c ∉ holders s ∧ c ∉ s.freed) :
    Shape s (SqlResult.iterRows res s).1 := by
  unfold SqlResult.iterRows
  split
  · next c hl =>
    exact Shape.push (List.Perm.refl _) rfl fun x hx => by cases hx; exact .inr (hc c hl)
  · exact Shape.refl s

/-! ## `compute` -/

/-- A handle allocated at `s`, put before handles allocated later: all distinct, all
allocated since `s`. -/
theorem newIn_cons {s₁ s₂ : World} {new : List Handle} (hs : s.next + 1 = s₁.next)
    (hle : s₁.next ≤ s₂.next) (hn : new.Nodup) (hnew : ∀ x ∈ new, NewIn s₁ s₂ x) :
    (Handle.obj s.next :: new).Nodup ∧ ∀ x ∈ Handle.obj s.next :: new, NewIn s s₂ x := by
  refine ⟨List.nodup_cons.mpr ⟨fun h => ?_, hn⟩, fun x hx => ?_⟩
  · obtain ⟨n, hn, -, he⟩ := hnew _ h
    cases he
    omega
  · rcases List.mem_cons.mp hx with rfl | hx
    · exact newIn_alloc s (hs ▸ hle)
    · obtain ⟨n, h₀, h₁, rfl⟩ := hnew x hx
      exact ⟨n, by omega, h₁, rfl⟩

theorem wrapRows_grows : ∀ (mask : List Bool) (s : World), Grows s (wrapRows mask s).1
  | [], s => Grows.refl s
  | false :: m, s => wrapRows_grows m s
  | true :: m, s =>
    (((Grows.refl s).alloc.push fun x hx => by
      cases hx; exact .inr (.inr (newIn_alloc s (Nat.le_refl _)))).trans (wrapRows_grows m _))

/-- The loop of `compute` takes one owner for each row it wraps, each a fresh handle. -/
theorem wrapRows_holders : ∀ (mask : List Bool) (s : World), ∃ new : List Handle, new.Nodup ∧
    (∀ x ∈ new, NewIn s (wrapRows mask s).1 x) ∧
    (holders (wrapRows mask s).1).Perm (new ++ holders s) ∧ (wrapRows mask s).1.freed = s.freed
  | [], s => ⟨[], List.nodup_nil, nofun, List.Perm.refl _, rfl⟩
  | false :: m, s => wrapRows_holders m s
  | true :: m, s => by
    obtain ⟨new, hn, hnew, hp, hfr⟩ :=
      wrapRows_holders m (s.alloc.2.push (.row (some (.obj s.next)) true))
    have hc := newIn_cons rfl (wrapRows_grows m _).1 hn hnew
    exact ⟨_, hc.1, hc.2, hp.trans ((holders_push s.alloc.2 _).append_left new |>.trans
      List.perm_middle), hfr⟩

theorem Aggregate.compute_grows (c : Computed) (s : World) : Grows s (Aggregate.compute c s).1 := by
  unfold Aggregate.compute
  split
  · exact Grows.refl s
  · exact Grows.refl s
  · next _ _ mask _ _ =>
    have g := (Grows.refl s).alloc.trans (wrapRows_grows mask s.alloc.2)
    exact g.destroy fun x hx => by
      cases List.mem_singleton.mp hx
      exact .inr (.inr (newIn_alloc s (wrapRows_grows mask s.alloc.2).1))

/-- `compute` takes owners for the rows it wraps, and takes and destroys the row array. -/
theorem Aggregate.compute_shape (c : Computed) (s : World) : Shape s (Aggregate.compute c s).1 := by
  unfold Aggregate.compute
  split
  · exact Shape.refl s
  · exact Shape.refl s
  · next _ _ mask _ _ =>
    obtain ⟨new, hn, hnew, hp, hfr⟩ := wrapRows_holders mask s.alloc.2
    have hc := newIn_cons rfl (wrapRows_grows mask s.alloc.2).1 hn hnew
    refine Shape.of_count (.obj s.next :: new) [.obj s.next] [] hc.1 (fun x hx => .inl
      (hc.2 x hx)) (fun x => ?_) (by simp [hfr])
    have := List.perm_iff_count.mp hp x
    simp only [holders_destroy, holders_alloc, List.count_append, List.count_cons,
      List.count_nil] at this ⊢
    omega

end FlintDB
