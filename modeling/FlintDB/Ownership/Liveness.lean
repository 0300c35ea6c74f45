import FlintDB.Ownership.Safety
import FlintDB.Ownership.Calls

/-! # Which pointers reach the engine

Every pointer a call hands the engine is NULL, the handle its wrapper owns, the engine
row a borrowed `Row` wraps, or a handle `Aggregate.build` takes from a `GroupBy` or an
`AggFunc`. In a sound world no owned handle has been destroyed, so over every run that
follows the discipline each call of the run hands the engine only pointers it can still
use, and a method call can hand it a stale one only through a borrowed `Row`. Each
object a call hands back can be used right then; but the binding does not track when
the engine takes a row back, so a `Row` from `Table.read` kept past `close()`, or one
from `CursorRow.next` kept past the next `next()`, still reaches the engine. Nor does
it stop `Aggregate.build` or `iter_rows` from taking a handle another wrapper destroys.
-/

namespace FlintDB

/-- An engine row. -/
def Handle.isView : Handle → Bool
  | .view _ => true
  | .obj _ => false

/-- A borrowed `Row` wraps an engine row, or NULL. -/
def Wrapper.borrowsView : Wrapper → Bool
  | .row (some h) false => h.isView
  | _ => true

/-- Every borrowed `Row` of the world wraps an engine row. -/
def BorrowedViews (s : World) : Prop := ∀ w ∈ s.objs, w.borrowsView

/-- The pointer of a borrowed `Row`. -/
def Wrapper.borrowed : Wrapper → Option Handle
  | .row (some h) false => some h
  | _ => none

theorem Wrapper.borrowed_closed (w : Wrapper) : w.closed.borrowed = none := by
  cases w with
  | groupBy _ owned | aggFunc _ owned => cases owned <;> rfl
  | _ => rfl

/-- A handle a wrapper of the world owns. -/
def Held (s : World) (h : Handle) : Prop := h ∈ s.objs.filterMap Wrapper.holds

/-- A pointer read from a wrapper of the world: a handle a wrapper owns, or the pointer
of a borrowed `Row` at one of the indices `js`. -/
def Wrapped (s : World) (js : List Nat) (h : Handle) : Prop :=
  Held s h ∨ ∃ j ∈ js, ∃ w ∈ s.objs[j]?, h ∈ w.borrowed

/-- Every handle among the pointers is read from a wrapper. -/
def AllWrapped (s : World) (js : List Nat) (ps : List Ptr) : Prop :=
  ∀ h ∈ ps.reduceOption, Wrapped s js h

/-- No handle among the pointers has been passed to a destructor. -/
def Live (s : World) (ps : List Ptr) : Prop := ∀ h ∈ ps.reduceOption, h ∉ s.freed

/-- A pointer the engine can still use: a handle allocated for the binding that no
destructor has seen, or an engine row that an object no destructor has seen still
lends. -/
def Handle.Usable (s : World) : Handle → Prop
  | .obj n => Handle.obj n ∉ s.freed
  | .view n => ∃ p ∈ s.lent, p.1 = n ∧ p.2 ∉ s.freed

instance (s : World) : DecidablePred (Handle.Usable s) := fun h =>
  match h with
  | .obj n => inferInstanceAs (Decidable (Handle.obj n ∉ s.freed))
  | .view n => inferInstanceAs (Decidable (∃ p ∈ s.lent, p.1 = n ∧ p.2 ∉ s.freed))

/-- Every handle among the pointers is usable. -/
def Usable (s : World) (ps : List Ptr) : Prop := ∀ h ∈ ps.reduceOption, h.Usable s

instance (s : World) (ps : List Ptr) : Decidable (Usable s ps) :=
  inferInstanceAs (Decidable (∀ h ∈ ps.reduceOption, h.Usable s))

/-- The object at `j`, if it is a borrowed `Row`, wraps a usable row. -/
def RowUsable (s : World) (j : Nat) : Prop := ∀ w ∈ s.objs[j]?, ∀ h ∈ w.borrowed, h.Usable s

variable {s : World}

@[simp] theorem Handle.usable_push (w : Wrapper) (h : Handle) :
    h.Usable (s.push w) ↔ h.Usable s := by
  cases h <;> rfl

theorem Handle.usable_of_lent {n : Nat} {l : Handle} (hn : (n, l) ∈ s.lent) (hl : l ∉ s.freed) :
    (Handle.view n).Usable s := by
  unfold Handle.Usable
  exact ⟨(n, l), hn, rfl, hl⟩

/-! ## Borrowed rows wrap engine rows -/

section Borrowed

theorem BorrowedViews.of_subset {s' : World} (h : BorrowedViews s)
    (hs : ∀ w ∈ s'.objs, w ∈ s.objs ∨ w.borrowsView) : BorrowedViews s' :=
  fun w hw => (hs w hw).elim (h w) id

theorem BorrowedViews.push (h : BorrowedViews s) {w : Wrapper} (hw : w.borrowsView) :
    BorrowedViews (s.push w) :=
  h.of_subset fun x hx => by
    rcases List.mem_append.mp hx with hx | hx
    · exact .inl hx
    · exact .inr (List.mem_singleton.mp hx ▸ hw)

theorem BorrowedViews.construct (h : BorrowedViews s) {ptr : World → Handle × World}
    {mk : Handle → Wrapper} {msg : String} {r : Native} (hp : (ptr s).2.objs = s.objs)
    (hmk : (mk (ptr s).1).borrowsView) : BorrowedViews (construct ptr mk msg r s).1 := by
  have h' : BorrowedViews (ptr s).2 := fun w hw => h w (hp ▸ hw)
  rcases construct_cases ptr mk msg r s with e | e | e <;> rw [e]
  · exact h
  · exact h'
  · exact h'.push hmk

theorem BorrowedViews.withArg {α β : Type} {a : Except PyError α}
    {k : α → World → World × Except PyError β} (h : BorrowedViews s)
    (hk : ∀ x, BorrowedViews (k x s).1) : BorrowedViews (withArg a k s).1 := by
  cases a with
  | ok x => exact hk x
  | error e => exact h

theorem borrowsView_transfer (take : Wrapper → Option (Ptr × Wrapper))
    (ht : ∀ {w p w'}, take w = some (p, w') → w'.borrowsView) :
    ∀ (objs : List Wrapper) (is : List Nat), (∀ w ∈ objs, w.borrowsView) →
      ∀ w ∈ (transfer take objs is).1, w.borrowsView
  | objs, [], h => h
  | objs, i :: is, h => by
    unfold transfer
    split
    · next p w' hb =>
      obtain ⟨w₀, -, htk⟩ := Option.bind_eq_some.mp hb
      exact borrowsView_transfer take ht (objs.set i w') is fun x hx =>
        (List.mem_or_eq_of_mem_set hx).elim (h x) fun e => e ▸ ht htk
    · exact h

theorem GroupBy.take_borrowsView {w : Wrapper} {p : Ptr} {w' : Wrapper}
    (h : GroupBy.take w = some (p, w')) : w'.borrowsView := by
  cases w <;> cases h; rfl

theorem AggFunc.take_borrowsView {w : Wrapper} {p : Ptr} {w' : Wrapper}
    (h : AggFunc.take w = some (p, w')) : w'.borrowsView := by
  cases w <;> cases h; rfl

theorem BorrowedViews.fill (h : BorrowedViews s) (arrs : List Handle) (aggId : StrOrBytes)
    (gbs fns : List Nat) (r : Native) :
    BorrowedViews (Aggregate.fill arrs aggId gbs fns r s).1 := by
  have h₁ := borrowsView_transfer GroupBy.take GroupBy.take_borrowsView s.objs gbs h
  unfold Aggregate.fill
  split
  · next objs e he =>
    have e₁ : (transfer GroupBy.take s.objs gbs).1 = objs := congrArg Prod.fst he
    exact e₁ ▸ h₁
  · next objs gps he =>
    have e₁ : (transfer GroupBy.take s.objs gbs).1 = objs := congrArg Prod.fst he
    have h₂ := borrowsView_transfer AggFunc.take AggFunc.take_borrowsView objs fns (e₁ ▸ h₁)
    split
    · next objs' e he' =>
      have e₂ : (transfer AggFunc.take objs fns).1 = objs' := congrArg Prod.fst he'
      exact e₂ ▸ h₂
    · next objs' fps he' =>
      have e₂ : (transfer AggFunc.take objs fns).1 = objs' := congrArg Prod.fst he'
      have h' : BorrowedViews { s with objs := objs' } := e₂ ▸ h₂
      exact h'.withArg fun _ => h'.construct rfl rfl

theorem Wrapper.borrowsView_closed (w : Wrapper) : w.closed.borrowsView := by
  cases w with
  | groupBy _ owned | aggFunc _ owned => cases owned <;> rfl
  | _ => rfl

theorem BorrowedViews.close (h : BorrowedViews s) (i : Nat) : BorrowedViews (close i s) := by
  refine h.of_subset fun w hw => ?_
  rcases close_objs i s with e | ⟨w₀, e⟩
  · exact .inl (e ▸ hw)
  · rw [e] at hw
    by_cases hlt : i < s.objs.length
    · rcases List.mem_or_eq_of_mem_set hw with hw | rfl
      · exact .inl hw
      · have hi := getElem?_close i s
        rw [e, List.getElem?_set_self hlt, List.getElem?_eq_getElem hlt, Option.map_some',
          Option.some.injEq] at hi
        exact .inr (hi ▸ Wrapper.borrowsView_closed _)
    · rw [List.set_eq_of_length_le (Nat.le_of_not_lt hlt)] at hw
      exact .inl hw

theorem BorrowedViews.compute (h : BorrowedViews s) (c : Computed) :
    BorrowedViews (Aggregate.compute c s).1 := by
  rcases c with ⟨_ | _, _ | mask⟩
  · exact h
  · rw [Aggregate.compute_eq]
    refine h.of_subset fun w hw => ?_
    rcases List.mem_append.mp hw with hw | hw
    · exact .inl hw
    · obtain ⟨j, -, rfl⟩ := List.mem_map.mp hw
      exact .inr rfl
  · exact h
  · exact h

/-- Every call keeps borrowed rows wrapping engine rows. -/
theorem BorrowedViews.step (h : BorrowedViews s) (op : Op) : BorrowedViews (step s op) := by
  have halloc : ∀ {α : Type} {a : Except PyError α} {mk : Handle → Wrapper} {msg : String}
      {r : Native}, (mk (.obj s.next)).borrowsView →
      BorrowedViews (FlintDB.withArg a (fun _ => FlintDB.construct World.alloc mk msg r) s).1 :=
    fun hmk => h.withArg fun _ => h.construct rfl hmk
  cases op with
  | metaNew | groupbyNew | funcCount | funcSum | funcAvg | rowNew | fileSortNew | tableNew
  | genericFileNew => exact halloc rfl
  | build aggId gbs fns r =>
    rw [FlintDB.step, Aggregate.build_eq]
    exact BorrowedViews.fill (fun w hw => h w (by rwa [mallocArrays_eq] at hw)) _ _ _ _ _
  | sqlExec sql r cursor =>
    exact h.withArg fun _ => h.construct (by unfold newResult; cases cursor <;> rfl) rfl
  | find i _ r =>
    simp only [FlintDB.step]
    split
    · exact halloc rfl
    · exact halloc rfl
    · exact h
  | read i r row =>
    simp only [FlintDB.step]
    split
    · exact h.construct rfl rfl
    · exact h.construct rfl rfl
    · exact h
  | next i r row =>
    simp only [FlintDB.step]
    split
    · unfold CursorRow.next
      split
      · exact h
      · split
        · exact h
        · exact h.push rfl
    · exact h
  | compute i c =>
    simp only [FlintDB.step]
    split
    · exact h.compute c
    · exact h
  | cmpr i a b =>
    simp only [FlintDB.step]
    split
    · refine (h.push ?_).push ?_ <;> rfl
    · exact h
  | iterRows i =>
    simp only [FlintDB.step]
    split
    · unfold SqlResult.iterRows
      split
      · refine h.push ?_
        rfl
      · exact h
    · exact h
  | close i => exact h.close i

theorem BorrowedViews.run (h : BorrowedViews s) (ops : List Op) :
    BorrowedViews (FlintDB.run s ops) := by
  induction ops generalizing s with
  | nil => exact h
  | cons op ops ih => exact ih (h.step op)

end Borrowed

/-! ## The pointers a call reads -/

section Pointers

theorem toOption_eq_some {ε α : Type} {x : Except ε α} {a : α} :
    x.toOption = some a ↔ x = .ok a := by
  cases x <;> simp [Except.toOption]

theorem AllWrapped.nil {js : List Nat} : AllWrapped s js [] := nofun

theorem AllWrapped.cons {js : List Nat} {p : Ptr} {ps : List Ptr}
    (hp : ∀ x, p = some x → Wrapped s js x) (hps : AllWrapped s js ps) :
    AllWrapped s js (p :: ps) := fun x hx => by
  rw [reduceOption_cons, List.mem_append, Option.mem_toList] at hx
  exact hx.elim (hp x) (hps x)

theorem held_of_holds {i : Nat} {w : Wrapper} {x : Handle} (hi : s.objs[i]? = some w)
    (hw : w.holds = some x) : Held s x :=
  List.mem_filterMap.mpr ⟨w, List.getElem?_mem hi, hw⟩

theorem Wrapper.borrowed_eq_some {w : Wrapper} {x : Handle} :
    w.borrowed = some x ↔ w = .row (some x) false := by
  cases w with
  | row r owned => cases r <;> cases owned <;> simp [Wrapper.borrowed]
  | _ => simp [Wrapper.borrowed]

theorem Wrapper.holds_of_field {c : Cls} {w : Wrapper} {x : Handle}
    (h : w.field c = some (some x)) : w.holds = some x ∨ c = .row ∧ w.borrowed = some x := by
  cases c <;> cases w <;> cases h
  case row.row owned => cases owned <;> simp [Wrapper.holds, Wrapper.borrowed]
  all_goals exact .inl rfl

/-- The pointer field of a wrapper of the world: owned by it, or, for a `Row`, the
pointer of a borrowed row. -/
theorem wrapped_of_field {js : List Nat} {c : Cls} {i : Nat} {w : Wrapper} {x : Handle}
    (hi : s.objs[i]? = some w) (hw : w.field c = some (some x)) (hc : c = .row → i ∈ js) :
    Wrapped s js x := by
  rcases Wrapper.holds_of_field hw with hw | ⟨rfl, hb⟩
  · exact .inl (held_of_holds hi hw)
  · exact .inr ⟨i, hc rfl, w, hi, hb⟩

theorem wrapped_of_receiver {js : List Nat} {c : Cls} {i : Nat} {x : Handle}
    (h : receiver s c i = some x) (hc : c = .row → i ∈ js) : Wrapped s js x := by
  obtain ⟨w, hi, hw⟩ := Option.bind_eq_some.mp (Option.join_eq_some.mp h)
  exact wrapped_of_field hi hw hc

theorem wrapped_of_rowArg {js : List Nat} {j : Nat} {p : Ptr} (h : rowArg s j = some p)
    (hj : j ∈ js) : ∀ x, p = some x → Wrapped s js x := by
  rintro x rfl
  obtain ⟨w, hi, hw⟩ := Option.bind_eq_some.mp h
  exact wrapped_of_field hi hw fun _ => hj

theorem held_of_metaPtr {i : Nat} {m : Ptr} (h : metaPtr s i = .ok m) :
    ∀ x, m = some x → Held s x := by
  rintro x rfl
  unfold metaPtr at h
  split at h
  · next m hi =>
    cases h
    exact held_of_holds hi rfl
  · cases h

theorem held_of_metaPtrOrNull {meta : Option Nat} {m : Ptr} (h : metaPtrOrNull s meta = .ok m) :
    ∀ x, m = some x → Held s x := by
  cases meta with
  | none =>
    cases h
    nofun
  | some i => exact held_of_metaPtr h

/-- Every pointer a method reads is owned by a wrapper of the world, or the pointer of a
borrowed `Row` among the objects it reads as rows. -/
theorem Method.ptrs_wrapped {m : Method} {ps : List Ptr} (h : m.ptrs s = some ps) :
    AllWrapped s m.rowArgs ps := by
  cases m with
  | addColumn | addIndex | toSqlString | columnAt =>
    obtain ⟨m, hm, rfl⟩ := Option.map_eq_some'.mp h
    exact .cons (fun x hx => .inl (held_of_metaPtr (toOption_eq_some.mp hm) x hx)) .nil
  | setString | setI32 | setI64 | setF64 | getI32 | validate =>
    obtain ⟨r, hr, rfl⟩ := Option.map_eq_some'.mp h
    exact .cons (fun x hx => wrapped_of_receiver (Option.some.inj hx ▸ hr)
      fun _ => List.mem_singleton_self _) .nil
  | deleteAt | rows | sort | affected | columnNames =>
    obtain ⟨r, hr, rfl⟩ := Option.map_eq_some'.mp h
    exact .cons (fun x hx => wrapped_of_receiver (Option.some.inj hx ▸ hr) (by nofun)) .nil
  | apply | write | add =>
    obtain ⟨t, ht, h⟩ := Option.bind_eq_some.mp h
    obtain ⟨p, hp, h⟩ := Option.bind_eq_some.mp h
    cases h
    exact .cons (fun x hx => wrapped_of_receiver (Option.some.inj hx ▸ ht) (by nofun))
      (.cons (wrapped_of_rowArg hp (List.mem_singleton_self _)) .nil)
  | aggRow =>
    obtain ⟨p, hp, h⟩ := Option.bind_eq_some.mp h
    obtain ⟨a, ha, h⟩ := Option.bind_eq_some.mp h
    cases h
    exact .cons (fun x hx => wrapped_of_receiver (Option.some.inj hx ▸ ha) (by nofun))
      (.cons (wrapped_of_rowArg hp (List.mem_singleton_self _)) .nil)
  | tableDrop | genericFileDrop =>
    cases h
    exact .nil
  | printRow =>
    obtain ⟨p, hp, rfl⟩ := Option.map_eq_some'.mp h
    exact .cons (wrapped_of_rowArg hp (List.mem_singleton_self _)) .nil

/-- Over distinct `GroupBy` and `AggFunc` wrappers that still own their handles, every
pointer `Aggregate.build` passes is owned by one of them. -/
theorem Aggregate.passed_held {gbs fns : List Nat} {ps : List Ptr} (hgf : (gbs ++ fns).Nodup)
    (hd : ∀ i ∈ gbs ++ fns, ∀ w ∈ s.objs[i]?, w.transferable)
    (h : Aggregate.passed s gbs fns = some ps) : ∀ x ∈ ps.reduceOption, Held s x := by
  have hdis := List.nodup_append.mp hgf
  obtain ⟨gps, hg, h⟩ := Option.bind_eq_some.mp h
  obtain ⟨fps, hf, h⟩ := Option.bind_eq_some.mp h
  cases h
  obtain ⟨t₁, hp₁, hok₁⟩ := transfer_holders GroupBy.take_spec s.objs gbs hdis.1
    fun i hi => hd i (List.mem_append_left _ hi)
  have hd₂ : ∀ j ∈ fns, ∀ w ∈ (transfer GroupBy.take s.objs gbs).1[j]?, w.transferable :=
    fun j hj w hw => hd j (List.mem_append_right _ hj) w
      (transfer_getElem?_of_not_mem s.objs gbs (fun h => hdis.2.2 h hj) ▸ hw)
  obtain ⟨t₂, hp₂, hok₂⟩ := transfer_holders AggFunc.take_spec _ fns hdis.2.1 hd₂
  intro x hx
  rw [reduceOption_append, hok₁ gps (toOption_eq_some.mp hg), hok₂ fps (toOption_eq_some.mp hf),
    List.mem_append] at hx
  refine hp₁.subset (List.mem_append.mpr ?_)
  rcases hx with hx | hx
  · exact .inr hx
  · exact .inl (hp₂.subset (List.mem_append_right _ hx))

/-- Every pointer a call of a run that follows the discipline reads is owned by a wrapper
of the world. -/
theorem Op.ptrs_held {op : Op} {ps : List Ptr} (hp : Proper s op) (h : op.ptrs s = some ps) :
    AllWrapped s [] ps := by
  cases op with
  | metaNew | sqlExec | groupbyNew | funcCount | funcSum | funcAvg =>
    cases h
    exact .nil
  | rowNew meta _ | fileSortNew _ meta _ =>
    obtain ⟨m, hm, rfl⟩ := Option.map_eq_some'.mp h
    exact .cons (fun x hx => .inl (held_of_metaPtr (toOption_eq_some.mp hm) x hx)) .nil
  | tableNew _ meta _ | genericFileNew _ meta _ =>
    obtain ⟨m, hm, rfl⟩ := Option.map_eq_some'.mp h
    exact .cons (fun x hx => .inl (held_of_metaPtrOrNull (toOption_eq_some.mp hm) x hx)) .nil
  | build _ gbs fns _ => exact fun x hx => .inl (Aggregate.passed_held hp.1 hp.2 h x hx)
  | find i _ _ | read i _ _ | next i _ _ =>
    simp only [Op.ptrs] at h
    split at h <;> cases h
    all_goals
      rename_i hi
      exact .cons (fun x hx => by cases hx; exact .inl (held_of_holds hi rfl)) .nil
  | compute i _ | iterRows i =>
    obtain ⟨a, ha, rfl⟩ := Option.map_eq_some'.mp h
    exact .cons (fun x hx => wrapped_of_receiver (Option.some.inj hx ▸ ha) (by nofun)) .nil
  | cmpr | close => cases h

end Pointers

/-! ## Which pointers are usable -/

/-- In a sound world a handle a wrapper owns has not been destroyed. -/
theorem Sound.not_freed_of_held (hs : Sound s) {x : Handle} (hh : Held s x) : x ∉ s.freed :=
  fun hf => hs.valid.disjoint x hf (List.mem_append_left _ hh)

theorem Sound.usable_of_held (hs : Sound s) {x : Handle} (hh : Held s x) : x.Usable s := by
  obtain ⟨n, -, rfl⟩ := hs.fresh x (holders_subset_mentioned s x (List.mem_append_left _ hh))
  exact hs.not_freed_of_held hh

theorem Usable.of_wrapped (hs : Sound s) {js : List Nat} (hr : ∀ j ∈ js, RowUsable s j)
    {ps : List Ptr} (h : AllWrapped s js ps) : Usable s ps := fun x hx => by
  rcases h x hx with hh | ⟨j, hj, w, hw, hb⟩
  · exact hs.usable_of_held hh
  · exact hr j hj w hw x hb

/-- In a sound world, a call that follows the discipline hands the engine only usable
pointers. -/
theorem Op.call_usable (hs : Sound s) {op : Op} {ps : List Ptr} (hp : Proper s op)
    (h : Op.call s op = some ps) : Usable s ps := by
  unfold Op.call at h
  split at h
  · exact .of_wrapped hs (by nofun) (Op.ptrs_held hp h)
  · cases h

/-- In a sound world, a method call hands the engine only usable pointers when every
borrowed `Row` it reads wraps a usable row. -/
theorem Method.call_usable (hs : Sound s) {m : Method} {ps : List Ptr}
    (hr : ∀ j ∈ m.rowArgs, RowUsable s j) (h : Method.call s m = some ps) : Usable s ps := by
  unfold Method.call at h
  split at h
  · exact .of_wrapped hs hr (Method.ptrs_wrapped h)
  · cases h

/-- In a sound world, a pointer a method call hands the engine that it cannot use is the
engine row of a borrowed `Row` the method reads. -/
theorem Method.call_usable_or_borrowed (hs : Sound s) (hb : BorrowedViews s) {m : Method}
    {ps : List Ptr} (h : Method.call s m = some ps) : ∀ x ∈ ps.reduceOption, x.Usable s ∨
      x.isView ∧ ∃ j ∈ m.rowArgs, s.objs[j]? = some (.row (some x) false) := by
  unfold Method.call at h
  split at h
  · intro x hx
    rcases Method.ptrs_wrapped h x hx with hh | ⟨j, hj, w, hw, hbw⟩
    · exact .inl (hs.usable_of_held hh)
    · rw [Wrapper.borrowed_eq_some.mp hbw] at hw
      exact .inr ⟨hb _ (List.getElem?_mem hw), j, hj, hw⟩
  · cases h

/-- Over every run that follows the discipline, the next call, if it follows the
discipline too, hands the engine only pointers it can still use, and a method call can
hand it one it cannot only as the engine row of a borrowed `Row` the method reads. -/
theorem proper_run_calls_live (ops : List Op) (hp : ProperRun World.init ops) :
    (∀ op ps, Proper (run World.init ops) op → Op.call (run World.init ops) op = some ps →
      Usable (run World.init ops) ps) ∧
    ∀ m ps, Method.call (run World.init ops) m = some ps → ∀ h ∈ ps.reduceOption,
      h.Usable (run World.init ops) ∨
        h.isView ∧ ∃ j ∈ m.rowArgs, (run World.init ops).objs[j]? = some (.row (some h) false) :=
  have hs := Sound.init.run hp
  ⟨fun _ _ hpo h => Op.call_usable hs hpo h, fun _ _ h =>
    Method.call_usable_or_borrowed hs ((show BorrowedViews World.init from nofun).run ops) h⟩

theorem tutorialAggregate_calls_live :
    (∀ op ps, Proper (run World.init tutorialAggregate) op →
      Op.call (run World.init tutorialAggregate) op = some ps →
        Usable (run World.init tutorialAggregate) ps) ∧
    ∀ m ps, Method.call (run World.init tutorialAggregate) m = some ps →
      ∀ h ∈ ps.reduceOption, h.Usable (run World.init tutorialAggregate) ∨ h.isView ∧
        ∃ j ∈ m.rowArgs, (run World.init tutorialAggregate).objs[j]? = some (.row (some h) false) :=
  proper_run_calls_live tutorialAggregate tutorialAggregate_proper

/-! ## A handle passed after it was destroyed -/

theorem getElem?_push_length (s : World) (w : Wrapper) : (s.push w).objs[s.objs.length]? = some w := by
  simp

theorem step_close (s : World) (i : Nat) : step s (.close i) = close i s := rfl

theorem close_aggregate {i : Nat} {a : Handle} (hi : s.objs[i]? = some (.aggregate (some a))) :
    close i s = releaseAgg a (s.setObj i (.aggregate none)) := by
  unfold close; rw [hi]; rfl

theorem close_cursorRow {i : Nat} {c : Handle} (hi : s.objs[i]? = some (.cursorRow (some c))) :
    close i s = (s.setObj i (.cursorRow none)).destroy [c] := by
  unfold close; rw [hi]; rfl

theorem Fresh.lookup_aggs_new (hf : Fresh s) {n : Nat} (hn : s.next ≤ n) :
    s.aggs.lookup (.obj n) = none := by
  refine List.lookup_eq_none_iff.mpr fun p hp => bne_iff_ne.mpr fun he => ?_
  have hm : p.1 ∈ mentioned s := List.mem_append_left _ (List.mem_append_left _
    (List.mem_append_right _ (List.mem_flatten.mpr ⟨_, List.mem_map.mpr ⟨p, hp, rfl⟩,
      List.mem_cons_self _ _⟩)))
  obtain ⟨m, hm, hpm⟩ := hf _ hm
  rw [← he, Handle.obj.injEq] at hpm
  omega

/-- `Aggregate.build` reads `gb._gb` whatever `gb._owned` says: once the aggregate a
`GroupBy` was built into is closed, which destroys the `GroupBy`'s handle, building the
same `GroupBy` again hands `aggregate_new` the destroyed handle. -/
theorem closed_aggregate_groupBy_passed {i : Nat} {h : Handle} {aggId : StrOrBytes}
    {b : List UInt8} (hf : Fresh s) (hi : s.objs[i]? = some (.groupBy (some h) true))
    (henc : toCstr aggId = .ok b) :
    Op.call (run s [.build aggId [i] [] ⟨none, false⟩, .close s.objs.length])
        (.build aggId [i] [] ⟨none, false⟩) = some [some h] ∧
      ¬ Live (run s [.build aggId [i] [] ⟨none, false⟩, .close s.objs.length]) [some h] := by
  have hlt : i < s.objs.length := (List.getElem?_eq_some_iff.mp hi).1
  have hb : step s (.build aggId [i] [] ⟨none, false⟩) =
      World.push { s with next := s.next + 2, objs := s.objs.set i (.groupBy (some h) false), aggs :=
        s.aggs ++ [(.obj (s.next + 1), [.obj s.next, h])] }
        (.aggregate (some (.obj (s.next + 1)))) := by
    simp [step, Aggregate.build, mallocArray, Aggregate.fill, transfer, hi, GroupBy.take, henc,
      withArg, toU16, construct, newAggregate, bind, Except.bind, List.reduceOption]
  have hl : (step s (.build aggId [i] [] ⟨none, false⟩)).aggs.lookup (.obj (s.next + 1)) =
      some [.obj s.next, h] := by
    rw [hb]; simp [List.lookup_append, hf.lookup_aggs_new (Nat.le_succ s.next)]
  have hr : run s [.build aggId [i] [] ⟨none, false⟩, .close s.objs.length] =
      releaseAgg (.obj (s.next + 1)) ((step s (.build aggId [i] [] ⟨none, false⟩)).setObj
        s.objs.length (.aggregate none)) := by
    rw [run, List.foldl_cons, List.foldl_cons, List.foldl_nil, step_close]
    exact close_aggregate (by rw [hb]; simp)
  have hobj : (run s [.build aggId [i] [] ⟨none, false⟩, .close s.objs.length]).objs[i]? =
      some (.groupBy (some h) false) := by
    rw [hr, releaseAgg_objs, World.setObj_objs, List.getElem?_set_ne (Nat.ne_of_lt hlt).symm, hb]
    simp [List.getElem?_append_left, hlt]
  refine ⟨?_, fun hlive => hlive h (List.mem_singleton_self h) ?_⟩
  · simp [Op.call, Op.converts, henc, toU16, Op.ptrs, Aggregate.passed, transfer, hobj,
      GroupBy.take, Except.isOk, Except.toBool, Except.toOption]
  · rw [hr, releaseAgg, World.setObj_aggs, hl]
    simp

/-- A `GroupBy` built into an aggregate, the aggregate closed, and the `GroupBy` built
again. -/
theorem groupBy_rebuilt_after_close_passed :
    Op.call (run (run World.init [.groupbyNew (.bytes []) (.bytes []) ⟨none, false⟩])
        [.build (.bytes []) [0] [] ⟨none, false⟩, .close 1])
        (.build (.bytes []) [0] [] ⟨none, false⟩) = some [some (.obj 0)] ∧
      ¬ Live (run (run World.init [.groupbyNew (.bytes []) (.bytes []) ⟨none, false⟩])
        [.build (.bytes []) [0] [] ⟨none, false⟩, .close 1]) [some (.obj 0)] :=
  closed_aggregate_groupBy_passed ((run_grows World.init _).fresh init_fresh) rfl rfl

/-- `iter_rows` wraps the result's cursor again on each call: once one `CursorRow` over it
is closed, which destroys the cursor, the other one's `next` hands the engine the
destroyed cursor. -/
theorem closed_cursor_passed_again {i : Nat} {res c : Handle} {r : Native} {row : Nat}
    (hi : s.objs[i]? = some (.sqlResult (some res))) (hc : s.results.lookup res = some (some c)) :
    Op.call (run s [.iterRows i, .iterRows i, .close s.objs.length])
        (.next (s.objs.length + 1) r row) = some [some c] ∧
      ¬ Live (run s [.iterRows i, .iterRows i, .close s.objs.length]) [some c] := by
  have hlt : i < s.objs.length := (List.getElem?_eq_some_iff.mp hi).1
  have h₂ : step (step s (.iterRows i)) (.iterRows i) =
      (s.push (.cursorRow (some c))).push (.cursorRow (some c)) := by
    simp [step, List.getElem?_append_left hlt, hi, SqlResult.iterRows, hc]
  have hr : run s [.iterRows i, .iterRows i, .close s.objs.length] =
      (((s.push (.cursorRow (some c))).push (.cursorRow (some c))).setObj s.objs.length
        (.cursorRow none)).destroy [c] := by
    rw [run, List.foldl_cons, List.foldl_cons, List.foldl_cons, List.foldl_nil, h₂, step_close,
      close_cursorRow]
    rw [World.push_objs, List.getElem?_append_left (by simp), getElem?_push_length]
  have hw : (run s [.iterRows i, .iterRows i, .close s.objs.length]).objs[s.objs.length + 1]? =
      some (.cursorRow (some c)) := by
    rw [hr, World.destroy_objs, World.setObj_objs, List.getElem?_set_ne (by omega),
      show s.objs.length + 1 = (s.push (.cursorRow (some c))).objs.length by simp,
      getElem?_push_length]
  refine ⟨by simp only [Op.call, Op.converts, Op.ptrs, hw]; rfl, fun hlive => ?_⟩
  exact hlive c (List.mem_singleton_self c) (by rw [hr]; simp)

/-- A result with a row cursor, iterated twice, the first `CursorRow` closed. -/
theorem cursor_iterated_twice_passed_after_close :
    Op.call (run (run World.init [.sqlExec (.bytes []) ⟨none, false⟩ true])
        [.iterRows 0, .iterRows 0, .close 1]) (.next 2 ⟨none, false⟩ 0) = some [some (.obj 1)] ∧
      ¬ Live (run (run World.init [.sqlExec (.bytes []) ⟨none, false⟩ true])
        [.iterRows 0, .iterRows 0, .close 1]) [some (.obj 1)] :=
  closed_cursor_passed_again rfl rfl

/-! ## What a call hands back -/

section Created

/-- The objects a call of a run hands back to Python: the ones it creates. -/
def created (s : World) (op : Op) : List Nat :=
  List.range' s.objs.length ((step s op).objs.length - s.objs.length)

/-- Every object from index `b` on that is a borrowed `Row` wraps a usable row. -/
def RowsUsableFrom (b : Nat) (s : World) : Prop := ∀ j, b ≤ j → RowUsable s j

theorem RowsUsableFrom.of_append {b : Nat} {pre ws : List Wrapper} (e : s.objs = pre ++ ws)
    (hpre : pre.length = b) (hws : ∀ w ∈ ws, ∀ h ∈ w.borrowed, h.Usable s) :
    RowsUsableFrom b s := fun j hj w hw => by
  rw [e, List.getElem?_append_right (hpre ▸ hj)] at hw
  exact hws w (List.getElem?_mem hw)

theorem rowsUsable_of_length {s' : World} (h : s'.objs.length ≤ s.objs.length) :
    RowsUsableFrom s.objs.length s' := fun j hj w hw => by
  rw [List.getElem?_eq_none (by omega)] at hw
  cases hw

theorem rowsUsable_construct {ptr : World → Handle × World} {mk : Handle → Wrapper}
    {msg : String} {r : Native} (hp : (ptr s).2.objs = s.objs)
    (hmk : ∀ h ∈ (mk (ptr s).1).borrowed, h.Usable (ptr s).2) :
    RowsUsableFrom s.objs.length (construct ptr mk msg r s).1 := by
  rcases construct_cases ptr mk msg r s with e | e | e <;> rw [e]
  · exact rowsUsable_of_length (Nat.le_refl _)
  · exact rowsUsable_of_length (by rw [hp])
  · refine .of_append (by rw [World.push_objs, hp]) rfl fun w hw h hh => ?_
    rw [List.mem_singleton.mp hw] at hh
    exact (Handle.usable_push _ h).mpr (hmk h hh)

theorem rowsUsable_withArg {α β : Type} {a : Except PyError α}
    {k : α → World → World × Except PyError β} (hk : ∀ x, RowsUsableFrom s.objs.length (k x s).1) :
    RowsUsableFrom s.objs.length (withArg a k s).1 := by
  cases a with
  | ok x => exact hk x
  | error e => exact rowsUsable_of_length (Nat.le_refl _)

theorem transfer_length (take : Wrapper → Option (Ptr × Wrapper)) :
    ∀ (objs : List Wrapper) (is : List Nat), (transfer take objs is).1.length = objs.length
  | objs, [] => rfl
  | objs, i :: is => by
    unfold transfer
    split
    · rw [transfer_length]
      exact List.length_set ..
    · rfl

/-- `Aggregate.build` changes the objects there were only in place, and adds at most the
aggregate. -/
theorem Aggregate.build_objs (aggId : StrOrBytes) (gbs fns : List Nat) (r : Native) :
    ∃ pre ws, (Aggregate.build aggId gbs fns r s).1.objs = pre ++ ws ∧
      pre.length = s.objs.length ∧ ∀ w ∈ ws, w.borrowed = none := by
  have he := mallocArrays_eq gbs.length fns.length s
  rw [Aggregate.build_eq]
  generalize (mallocArray fns.length (mallocArray gbs.length s).2).2 = s₂ at he ⊢
  have ho : s₂.objs = s.objs := by rw [he]
  rw [← ho]
  generalize (mallocArray gbs.length s).1.toList ++ _ = arrs
  have hl₁ := transfer_length GroupBy.take s₂.objs gbs
  have hl₂ := transfer_length AggFunc.take (transfer GroupBy.take s₂.objs gbs).1 fns
  unfold Aggregate.fill
  split
  · next objs e he' =>
    exact ⟨objs, [], by simp, by rw [← hl₁, he'], nofun⟩
  · next objs gps he' =>
    rw [he'] at hl₂
    split
    · next objs' e he'' =>
      exact ⟨objs', [], by simp, by rw [← hl₁, he', ← hl₂, he''], nofun⟩
    · next objs' fps he'' =>
      have hl : objs'.length = s₂.objs.length := by rw [← hl₁, he', ← hl₂, he'']
      rcases withArg_cases (do let _ ← toCstr aggId; let _ ← toU16 gbs.length; toU16 fns.length)
        (fun _ => construct (newAggregate (arrs ++ (gps ++ fps).reduceOption))
          (fun h => .aggregate (some h)) "aggregate_new returned NULL" r)
        { s₂ with objs := objs' } with e | ⟨_, e⟩ <;> rw [e]
      · exact ⟨objs', [], by simp, hl, nofun⟩
      · rcases construct_cases (newAggregate (arrs ++ (gps ++ fps).reduceOption))
          (fun h => .aggregate (some h)) "aggregate_new returned NULL" r
          { s₂ with objs := objs' } with e | e | e <;> rw [e]
        · exact ⟨objs', [], by simp, hl, nofun⟩
        · exact ⟨objs', [], by simp [newAggregate], hl, nofun⟩
        · exact ⟨objs', _, rfl, hl, fun w hw => by rw [List.mem_singleton.mp hw]; rfl⟩

/-- `compute` appends only `Row`s that own their rows. -/
theorem Aggregate.compute_objs (c : Computed) (s : World) :
    ∃ ws, (Aggregate.compute c s).1.objs = s.objs ++ ws ∧ ∀ w ∈ ws, w.borrowed = none := by
  rcases c with ⟨_ | _, _ | mask⟩
  · exact ⟨[], by simp [Aggregate.compute], nofun⟩
  · rw [Aggregate.compute_eq]
    exact ⟨_, rfl, fun w hw => by obtain ⟨_, -, rfl⟩ := List.mem_map.mp hw; rfl⟩
  all_goals exact ⟨[], by simp [Aggregate.compute], nofun⟩

theorem Aggregate.compute_rowsUsable (c : Computed) (s : World) :
    RowsUsableFrom s.objs.length (Aggregate.compute c s).1 :=
  let ⟨_, e, hws⟩ := Aggregate.compute_objs c s
  .of_append e rfl fun w hw _ hx => nomatch (hws w hw).symm.trans hx

/-- In a sound world, every object a call creates can be used right then: a borrowed
`Row` it creates wraps a row that an object a wrapper owns has just lent. -/
theorem Sound.rowsUsable_step (hs : Sound s) (op : Op) :
    RowsUsableFrom s.objs.length (FlintDB.step s op) := by
  have halloc : ∀ {α : Type} {a : Except PyError α} {mk : Handle → Wrapper} {msg : String}
      {r : Native}, (mk (.obj s.next)).borrowed = none →
      RowsUsableFrom s.objs.length (withArg a (fun _ => construct World.alloc mk msg r) s).1 :=
    fun hmk => rowsUsable_withArg fun _ => rowsUsable_construct rfl fun x hx =>
      nomatch hmk.symm.trans hx
  have hlent : ∀ {i : Nat} {w : Wrapper} {l : Handle} {s' : World} {n : Nat},
      s.objs[i]? = some w → w.holds = some l → (n, l) ∈ s'.lent → s'.freed = s.freed →
      (Handle.view n).Usable s' := fun hi hw hn hf =>
    Handle.usable_of_lent hn (hf ▸ hs.not_freed_of_held (held_of_holds hi hw))
  cases op with
  | metaNew | groupbyNew | funcCount | funcSum | funcAvg | rowNew | fileSortNew | tableNew
  | genericFileNew => exact halloc rfl
  | build aggId gbs fns r =>
    obtain ⟨pre, ws, e, hpre, hws⟩ := Aggregate.build_objs (s := s) aggId gbs fns r
    exact .of_append e hpre fun w hw x hx => nomatch (hws w hw).symm.trans hx
  | sqlExec sql r cursor =>
    exact rowsUsable_withArg fun _ =>
      rowsUsable_construct (newResult_objs cursor s) fun x hx => nomatch hx
  | find i _ r =>
    simp only [FlintDB.step]
    split
    · exact halloc rfl
    · exact halloc rfl
    · exact rowsUsable_of_length (Nat.le_refl _)
  | read i r row =>
    simp only [FlintDB.step]
    split
    · next t hi =>
      exact rowsUsable_construct rfl fun x hx => by
        cases hx
        exact hlent hi rfl (by simp) rfl
    · exact rowsUsable_construct rfl fun x hx => nomatch hx
    · exact rowsUsable_of_length (Nat.le_refl _)
  | next i r row =>
    simp only [FlintDB.step]
    split
    · next c hi =>
      rcases CursorRow.next_cases c r row s with e | e <;> rw [e]
      · exact rowsUsable_of_length (Nat.le_refl _)
      · refine .of_append rfl rfl fun w hw x hx => ?_
        rw [List.mem_singleton.mp hw] at hx
        cases hx
        exact hlent hi rfl (by simp) rfl
    · exact rowsUsable_of_length (Nat.le_refl _)
  | compute i c =>
    simp only [FlintDB.step]
    split
    · exact Aggregate.compute_rowsUsable c s
    · exact rowsUsable_of_length (Nat.le_refl _)
  | cmpr i a b =>
    simp only [FlintDB.step]
    split
    · next fs hi =>
      have e : (FileSort.cmprRows fs a b s).objs =
          s.objs ++ [.row (some (.view a)) false, .row (some (.view b)) false] := by
        simp [FileSort.cmprRows]
      refine .of_append e rfl fun w hw x hx => ?_
      rcases List.mem_pair.mp hw with rfl | rfl <;> cases hx
      · exact hlent hi rfl (by simp [FileSort.cmprRows]) rfl
      · exact hlent hi rfl (by simp [FileSort.cmprRows]) rfl
    · exact rowsUsable_of_length (Nat.le_refl _)
  | iterRows i =>
    simp only [FlintDB.step]
    split
    · unfold SqlResult.iterRows
      split
      · exact .of_append rfl rfl fun w hw x hx => by
          rw [List.mem_singleton.mp hw] at hx
          cases hx
      · exact rowsUsable_of_length (Nat.le_refl _)
    · exact rowsUsable_of_length (Nat.le_refl _)
  | close i =>
    refine rowsUsable_of_length ?_
    rcases close_objs i s with e | ⟨w, e⟩ <;> simp [FlintDB.step, e]

theorem mem_created {op : Op} {j : Nat} :
    j ∈ created s op ↔ s.objs.length ≤ j ∧ j < (step s op).objs.length := by
  simp only [created, List.mem_range'_1]
  omega

/-- In a sound world, an object a call hands back can be used right then. -/
theorem Sound.rowUsable_created (hs : Sound s) {op : Op} {j : Nat} (hj : j ∈ created s op) :
    RowUsable (FlintDB.step s op) j :=
  hs.rowsUsable_step op j (mem_created.mp hj).1

end Created

/-! ## Rows used after their lender took them back -/

theorem usable_view_iff {row : Nat} :
    Usable s [some (.view row)] ↔ ∃ p ∈ s.lent, p.1 = row ∧ p.2 ∉ s.freed := by
  simp [Usable, List.reduceOption, Handle.Usable]

theorem close_table {i : Nat} {t : Handle} (hi : s.objs[i]? = some (.table (some t))) :
    close i s = (s.setObj i (.table none)).destroy [t] := by
  unfold close; rw [hi]; rfl

theorem printRow_call {j : Nat} {h : Handle} (hj : s.objs[j]? = some (.row (some h) false)) :
    Method.call s (.printRow j) = some [some h] := by
  simp only [Method.call, Method.converts, Method.ptrs, rowArg, hj]
  rfl

/-- A `Row` that `Table.read` returns does not keep its table open: the row can be used
until `tbl.close()`, and `print_row(row)` after it hands the engine the row of a table
that was destroyed. -/
theorem read_row_passed_after_close {i : Nat} {t : Handle} {row : Nat} (hs : Sound s)
    (hi : s.objs[i]? = some (.table (some t))) (hrow : ∀ p ∈ s.lent, p.1 ≠ row) :
    Usable (run s [.read i ⟨none, false⟩ row]) [some (.view row)] ∧
      Method.call (run s [.read i ⟨none, false⟩ row, .close i]) (.printRow s.objs.length) =
        some [some (.view row)] ∧
      ¬ Usable (run s [.read i ⟨none, false⟩ row, .close i]) [some (.view row)] := by
  have hlt : i < s.objs.length := (List.getElem?_eq_some_iff.mp hi).1
  have h₁ : run s [.read i ⟨none, false⟩ row] =
      (s.lend row t).push (.row (some (.view row)) false) := by
    simp [run, step, hi, Table.read, construct]
  have h₂ : run s [.read i ⟨none, false⟩ row, .close i] =
      (((s.lend row t).push (.row (some (.view row)) false)).setObj i (.table none)).destroy [t] := by
    rw [show run s [.read i ⟨none, false⟩ row, .close i] =
      step (run s [.read i ⟨none, false⟩ row]) (.close i) from rfl, h₁, step_close, close_table]
    rw [World.push_objs, World.lend_objs, List.getElem?_append_left hlt, hi]
  refine ⟨usable_view_iff.mpr ⟨(row, t), by simp [h₁], rfl,
      by simpa [h₁] using hs.not_freed_of_held (held_of_holds hi rfl)⟩,
    printRow_call (by simp [h₂, List.getElem?_set_ne (Nat.ne_of_lt hlt)]), fun hl => ?_⟩
  obtain ⟨p, hp, hp₁, hp₂⟩ := usable_view_iff.mp hl
  rw [h₂] at hp hp₂
  simp only [World.destroy_lent, World.setObj_lent, World.push_lent, World.lend_lent,
    List.mem_append, List.mem_singleton] at hp
  rcases hp with hp | rfl
  · exact hrow p hp hp₁
  · exact hp₂ (by simp)

/-- A table opened, one of its rows read, and the table closed. -/
theorem table_row_passed_after_close :
    Usable (run (run World.init [.tableNew (.bytes []) none ⟨none, false⟩])
        [.read 0 ⟨none, false⟩ 7]) [some (.view 7)] ∧
      Method.call (run (run World.init [.tableNew (.bytes []) none ⟨none, false⟩])
        [.read 0 ⟨none, false⟩ 7, .close 0]) (.printRow 1) = some [some (.view 7)] ∧
      ¬ Usable (run (run World.init [.tableNew (.bytes []) none ⟨none, false⟩])
        [.read 0 ⟨none, false⟩ 7, .close 0]) [some (.view 7)] :=
  read_row_passed_after_close (Sound.init.run ⟨trivial, trivial⟩) rfl (by decide)

/-- A `Row` that `CursorRow.next` returns can be used only until the cursor's next
`next()`: kept past it, as `list(cursor)` keeps every row, `print_row(row)` hands the
engine a row the cursor has taken back. -/
theorem cursor_row_passed_after_next {i : Nat} {c : Handle} {row : Nat} (hs : Sound s)
    (hi : s.objs[i]? = some (.cursorRow (some c))) (hrow : ∀ p ∈ s.lent, p.1 = row → p.2 = c) :
    Usable (run s [.next i ⟨none, false⟩ row]) [some (.view row)] ∧
      Method.call (run s [.next i ⟨none, false⟩ row, .next i ⟨none, true⟩ 0])
        (.printRow s.objs.length) = some [some (.view row)] ∧
      ¬ Usable (run s [.next i ⟨none, false⟩ row, .next i ⟨none, true⟩ 0]) [some (.view row)] := by
  have hlt : i < s.objs.length := (List.getElem?_eq_some_iff.mp hi).1
  have h₁ : run s [.next i ⟨none, false⟩ row] =
      ((s.takeBack c).lend row c).push (.row (some (.view row)) false) := by
    simp [run, step, hi, CursorRow.next]
  have h₂ : run s [.next i ⟨none, false⟩ row, .next i ⟨none, true⟩ 0] =
      (((s.takeBack c).lend row c).push (.row (some (.view row)) false)).takeBack c := by
    rw [show run s [.next i ⟨none, false⟩ row, .next i ⟨none, true⟩ 0] =
      step (run s [.next i ⟨none, false⟩ row]) (.next i ⟨none, true⟩ 0) from rfl, h₁]
    simp [step, List.getElem?_append_left hlt, hi, CursorRow.next]
  refine ⟨usable_view_iff.mpr ⟨(row, c), by simp [h₁], rfl,
      by simpa [h₁] using hs.not_freed_of_held (held_of_holds hi rfl)⟩,
    printRow_call (by simp [h₂]), fun hl => ?_⟩
  obtain ⟨p, hp, hp₁, -⟩ := usable_view_iff.mp hl
  rw [h₂] at hp
  simp only [World.takeBack_lent, World.push_lent, World.lend_lent, List.mem_filter,
    List.mem_append, List.mem_singleton, bne_iff_ne, ne_eq] at hp
  rcases hp with ⟨⟨hp, hpc⟩ | rfl, hc⟩
  · exact hpc (hrow p hp hp₁)
  · exact hc rfl

/-- A TSV file's cursor, one row taken, and the cursor run to its end. -/
theorem cursor_row_passed_after_end :
    Usable (run (run World.init [.genericFileNew (.bytes []) none ⟨none, false⟩,
        .find 0 (.bytes []) ⟨none, false⟩]) [.next 1 ⟨none, false⟩ 7]) [some (.view 7)] ∧
      Method.call (run (run World.init [.genericFileNew (.bytes []) none ⟨none, false⟩,
        .find 0 (.bytes []) ⟨none, false⟩]) [.next 1 ⟨none, false⟩ 7, .next 1 ⟨none, true⟩ 0])
        (.printRow 2) = some [some (.view 7)] ∧
      ¬ Usable (run (run World.init [.genericFileNew (.bytes []) none ⟨none, false⟩,
        .find 0 (.bytes []) ⟨none, false⟩]) [.next 1 ⟨none, false⟩ 7, .next 1 ⟨none, true⟩ 0])
        [some (.view 7)] :=
  cursor_row_passed_after_next (Sound.init.run ⟨trivial, trivial, trivial⟩) rfl (by decide)

end FlintDB
