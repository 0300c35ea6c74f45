import FlintDB.Ownership.Build

/-! # Ownership over whole runs

Every call keeps the world fresh: all it mentions outside borrowed rows it allocated.
So no run ever passes a borrowed row to a destructor, and a handle a call allocates but
leaves unmentioned is never destroyed. Under the calling discipline `Proper`, every call
is a run of ledger moves, so a valid ledger stays valid: no handle is destroyed twice,
none has two owners, and none is held after it was destroyed. Outside the discipline,
`Aggregate.build` and `iter_rows` add owners without a check.
-/

namespace FlintDB

/-- The cursor `iter_rows` on object `i` would wrap, if any. -/
def iterCursor (s : World) (i : Nat) : Option Handle :=
  match s.objs[i]? with
  | some (.sqlResult (some res)) => (s.results.lookup res).join
  | _ => none

/-- The calling discipline under which a call keeps the ledger: `Aggregate.build` over
distinct wrappers none of which passed its handle on before, and `iter_rows` while no
one holds the result's cursor and no destructor has seen it. -/
def Proper (s : World) : Op → Prop
  | .build _ gbs fns _ =>
    (gbs ++ fns).Nodup ∧ ∀ i ∈ gbs ++ fns, ∀ w ∈ s.objs[i]?, w.transferable
  | .iterRows i => ∀ c ∈ iterCursor s i, c ∉ holders s ∧ c ∉ s.freed
  | _ => True

/-- A run whose every call follows the discipline. -/
def ProperRun : World → List Op → Prop
  | _, [] => True
  | s, op :: ops => Proper s op ∧ ProperRun (step s op) ops

variable {s : World}

/-! ## One call -/

/-- Every call mentions afterwards only what it mentioned before or allocated, and
every call that follows the discipline has a shape. -/
theorem step_grows_shape (s : World) (op : Op) :
    Grows s (step s op) ∧ (Proper s op → Shape s (step s op)) := by
  have hg := Grows.refl s
  have hs := Shape.refl s
  have halloc : ∀ {α : Type} {a : Except PyError α} {mk : Handle → Wrapper} {msg : String}
      {r : Native}, (∀ h, (mk h).holds = some h) →
      Grows s (withArg a (fun _ => construct World.alloc mk msg r) s).1 ∧
        (Proper s op → Shape s (withArg a (fun _ => construct World.alloc mk msg r) s).1) :=
    fun hmk => ⟨withArg_grows hg fun _ => alloc_construct_grows hmk,
      fun _ => withArg_shape hs fun _ => alloc_construct_shape hmk⟩
  cases op with
  | metaNew _ r | groupbyNew _ _ r | funcCount _ _ r | funcSum _ _ r | funcAvg _ _ r
  | rowNew _ r | fileSortNew _ _ r | tableNew _ _ r | genericFileNew _ _ r =>
    exact halloc fun _ => rfl
  | build aggId gbs fns r =>
    exact ⟨Aggregate.build_grows aggId gbs fns r s,
      fun hp => Aggregate.build_shape aggId r hp.1 hp.2⟩
  | sqlExec sql r cursor =>
    exact ⟨sqlExec_grows sql r cursor s, fun _ => sqlExec_shape sql r cursor s⟩
  | find i _ r =>
    simp only [step]
    split
    · exact halloc fun _ => rfl
    · exact halloc fun _ => rfl
    · exact ⟨hg, fun _ => hs⟩
  | read i r row =>
    simp only [step]
    split
    · exact ⟨view_construct_grows _ row, fun _ => view_construct_shape _ row⟩
    · exact ⟨alloc_construct_grows fun _ => rfl, fun _ => alloc_construct_shape fun _ => rfl⟩
    · exact ⟨hg, fun _ => hs⟩
  | next i r row =>
    simp only [step]
    split
    · exact ⟨CursorRow.next_grows _ r row s, fun _ => CursorRow.next_shape _ r row s⟩
    · exact ⟨hg, fun _ => hs⟩
  | compute i c =>
    simp only [step]
    split
    · exact ⟨Aggregate.compute_grows c s, fun _ => Aggregate.compute_shape c s⟩
    · exact ⟨hg, fun _ => hs⟩
  | cmpr i a b =>
    simp only [step]
    split
    · exact ⟨FileSort.cmprRows_grows _ a b s, fun _ => FileSort.cmprRows_shape _ a b s⟩
    · exact ⟨hg, fun _ => hs⟩
  | iterRows i =>
    simp only [step]
    split
    · next res hi =>
      refine ⟨SqlResult.iterRows_grows _ s, fun hp => ?_⟩
      refine SqlResult.iterRows_shape res s fun c hc => hp c ?_
      simp [iterCursor, hi, hc]
    · exact ⟨hg, fun _ => hs⟩
  | close i => exact ⟨(close_grows_shape i s).1, fun _ => (close_grows_shape i s).2⟩

theorem step_grows (s : World) (op : Op) : Grows s (step s op) :=
  (step_grows_shape s op).1

theorem step_shape {op : Op} (hp : Proper s op) : Shape s (step s op) :=
  (step_grows_shape s op).2 hp

/-! ## Runs -/

theorem init_fresh : Fresh World.init := nofun

theorem run_grows : ∀ (s : World) (ops : List Op), Grows s (run s ops)
  | s, [] => Grows.refl s
  | s, op :: ops => (step_grows s op).trans (run_grows (step s op) ops)

/-- A run of calls that follows the discipline is a run of ledger moves. -/
theorem run_moves {ops : List Op} (hf : Fresh s) (hp : ProperRun s ops) :
    Relation.ReflTransGen Ledger.Move s.ledger (run s ops).ledger := by
  induction ops generalizing s with
  | nil => exact .refl
  | cons op ops ih =>
    exact ((step_shape hp.1).moves hf).trans (ih ((step_grows s op).fresh hf) hp.2)

theorem init_valid : World.init.ledger.Valid :=
  ⟨List.nodup_nil, List.nodup_nil, nofun⟩

/-- The invariant of the binding's worlds: every handle mentioned was allocated for the
binding, and the ledger is valid. -/
structure Sound (s : World) : Prop where
  fresh : Fresh s
  valid : s.ledger.Valid

theorem Sound.init : Sound World.init := ⟨init_fresh, init_valid⟩

theorem Sound.step {op : Op} (h : Sound s) (hp : Proper s op) : Sound (step s op) :=
  ⟨(step_grows s op).fresh h.fresh, Ledger.valid_of_moves ((step_shape hp).moves h.fresh) h.valid⟩

theorem Sound.run {ops : List Op} (h : Sound s) (hp : ProperRun s ops) : Sound (run s ops) := by
  induction ops generalizing s with
  | nil => exact h
  | cons op ops ih => exact ih (h.step hp.1) hp.2

/-! ## Handles lost on an error path -/

/-- A handle allocated before a world that the world does not mention is mentioned by
no world a run reaches from it, so no destructor ever sees it. -/
theorem run_not_mentioned {n : Nat} (hn : n < s.next) (hm : Handle.obj n ∉ mentioned s)
    (ops : List Op) : Handle.obj n ∉ mentioned (run s ops) := fun h =>
  ((run_grows s ops).2 _ h).elim hm fun ⟨_, hle, _, he⟩ => by cases he; omega

/-- A constructor whose native call returns a handle and also sets the error raises in
`_raise_if_err` before any wrapper takes the handle: the call only allocated it, and no
run that follows passes it to a destructor. -/
theorem construct_error_leaks {mk : Handle → Wrapper} {nullMsg msg : String} {r : Native}
    (hf : Fresh s) (hnull : r.null = false) (herr : r.err = some msg) (ops : List Op) :
    construct World.alloc mk nullMsg r s = (s.alloc.2, .error (.flintDB msg)) ∧
      Handle.obj s.next ∉ (run (construct World.alloc mk nullMsg r s).1 ops).freed := by
  have he : construct World.alloc mk nullMsg r s = (s.alloc.2, .error (.flintDB msg)) := by
    simp [construct, hnull, herr]
  have hm : Handle.obj s.next ∉ mentioned s.alloc.2 :=
    not_mentioned_of_newIn hf (newIn_alloc s (Nat.le_refl s.alloc.2.next))
  rw [he]
  exact ⟨rfl, fun h => run_not_mentioned (Nat.lt_succ_self _) hm ops
    (freed_subset_mentioned _ _ h)⟩

/-- `Meta(filepath)` against an engine that returns a schema and an error. -/
theorem meta_new_error_leaks :
    construct World.alloc (fun h => .meta (some h)) "meta_new_ptr returned NULL"
        ⟨some "e", false⟩ World.init = (World.init.alloc.2, .error (.flintDB "e")) ∧
      Handle.obj World.init.next ∉ (run (construct World.alloc (fun h => .meta (some h))
        "meta_new_ptr returned NULL" ⟨some "e", false⟩ World.init).1 [.close 0]).freed :=
  construct_error_leaks init_fresh rfl rfl [.close 0]

/-- Two entries of a list that `f` maps to one value are one entry when `f` maps no two
entries to one value. -/
theorem eq_of_filterMap_nodup {α β : Type} {f : α → Option β} {x : β} :
    ∀ {l : List α} {i j : Nat} {a b : α}, (l.filterMap f).Nodup → l[i]? = some a →
      l[j]? = some b → f a = some x → f b = some x → i = j
  | [], _, _, _, _, _, hi, _, _, _ => by simp at hi
  | _ :: _, 0, 0, _, _, _, _, _, _, _ => rfl
  | c :: l, 0, j + 1, a, b, hn, hi, hj, ha, hb => by
    obtain rfl : c = a := by simpa using hi
    rw [List.filterMap_cons_some ha] at hn
    exact absurd (List.mem_filterMap.mpr ⟨b, List.getElem?_mem (by simpa using hj), hb⟩)
      (List.nodup_cons.mp hn).1
  | c :: l, i + 1, 0, a, b, hn, hi, hj, ha, hb => by
    obtain rfl : c = b := by simpa using hj
    rw [List.filterMap_cons_some hb] at hn
    exact absurd (List.mem_filterMap.mpr ⟨a, List.getElem?_mem (by simpa using hi), ha⟩)
      (List.nodup_cons.mp hn).1
  | c :: l, i + 1, j + 1, a, b, hn, hi, hj, ha, hb =>
    congrArg (· + 1) (eq_of_filterMap_nodup (hn.sublist ((List.sublist_cons_self c l).filterMap f))
      (by simpa using hi) (by simpa using hj) ha hb)

/-- When `Aggregate.build` raises after both loops ran, because `agg_id` cannot be
encoded or `aggregate_new` returned NULL, the listed `GroupBy` and `AggFunc` wrappers
that still owned their handles have given them up and no one received them: no wrapper
or aggregate owns them, and no destructor saw them. -/
theorem build_raise_drops_handles {aggId : StrOrBytes} {gbs fns : List Nat} {r : Native}
    (hs : Sound s) (hgf : (gbs ++ fns).Nodup)
    (hgb : ∀ i ∈ gbs, ∃ gb, s.objs[i]? = some (.groupBy gb true))
    (hfn : ∀ i ∈ fns, ∃ f, s.objs[i]? = some (.aggFunc f true))
    (hfail : (∃ e, toCstr aggId = .error e) ∨ r.null = true) :
    (∃ e, (Aggregate.build aggId gbs fns r s).2 = .error e) ∧
      (Aggregate.build aggId gbs fns r s).1.aggs = s.aggs ∧
      (Aggregate.build aggId gbs fns r s).1.freed = s.freed ∧
      ∀ i ∈ gbs ++ fns, (∀ w ∈ (Aggregate.build aggId gbs fns r s).1.objs[i]?, w.holds = none) ∧
        ∀ w ∈ s.objs[i]?, ∀ h ∈ w.holds, h ∉ holders (Aggregate.build aggId gbs fns r s).1 ∧
          h ∉ (Aggregate.build aggId gbs fns r s).1.freed := by
  obtain ⟨hr, ha, hf, hcl, hkeep⟩ := Aggregate.build_raise hgf
    (fun i hi => (hgb i hi).imp fun _ h => ⟨true, h⟩)
    (fun i hi => (hfn i hi).imp fun _ h => ⟨true, h⟩) hfail
  have hn := List.nodup_append.mp (show (holders s).Nodup from hs.valid.held_nodup)
  refine ⟨hr, ha, hf, fun i hi => ⟨hcl i hi, fun w hw h hh => ?_⟩⟩
  have hheld : h ∈ s.objs.filterMap Wrapper.holds :=
    List.mem_filterMap.mpr ⟨w, List.getElem?_mem hw, hh⟩
  refine ⟨fun hm => ?_, fun hfr => hs.valid.disjoint h (by rwa [hf] at hfr)
    (List.mem_append_left _ hheld)⟩
  rw [holders, ha] at hm
  rcases List.mem_append.mp hm with hm | hm
  · obtain ⟨w', hw', hh'⟩ := List.mem_filterMap.mp hm
    obtain ⟨j, hj⟩ := List.mem_iff_getElem?.mp hw'
    by_cases hjl : j ∈ gbs ++ fns
    · rw [hcl j hjl w' hj] at hh'
      cases hh'
    · rw [hkeep j hjl] at hj
      exact hjl (eq_of_filterMap_nodup hn.1 hw hj hh hh' ▸ hi)
  · exact hn.2.2 hheld hm

/-- A `GroupBy` passed to a build whose `agg_id` holds a lone surrogate: the build raises,
and the handle the `GroupBy` owned is left with no owner. -/
theorem build_unencodable_id_drops_handle :
    let s := run World.init [.groupbyNew (.bytes []) (.bytes []) ⟨none, false⟩]
    let b := Aggregate.build (.str [0xD800]) [0] [] ⟨none, false⟩ s
    (∃ e, b.2 = .error e) ∧ b.1.aggs = s.aggs ∧ b.1.freed = s.freed ∧
      ∀ i ∈ [0] ++ [], (∀ w ∈ b.1.objs[i]?, w.holds = none) ∧
        ∀ w ∈ s.objs[i]?, ∀ h ∈ w.holds, h ∉ holders b.1 ∧ h ∉ b.1.freed :=
  build_raise_drops_handles (Sound.init.run ⟨trivial, trivial⟩) (by decide)
    (fun i hi => ⟨_, by cases List.mem_singleton.mp hi; rfl⟩) nofun (.inl ⟨_, rfl⟩)

/-! ## The binding's runs from the start -/

/-- Over every run, no row wrapped as borrowed is ever passed to a destructor: every
handle the binding destroys was allocated for it. -/
theorem view_never_freed (ops : List Op) (n : Nat) :
    Handle.view n ∉ (run World.init ops).freed := fun h => by
  obtain ⟨m, -, he⟩ :=
    (run_grows World.init ops).fresh init_fresh _ (freed_subset_mentioned _ _ h)
  cases he

/-- Over every run that follows the discipline, no handle is passed to its destructor
twice, none has two owners, and none has an owner after it was destroyed. -/
theorem proper_run_safe (ops : List Op) (hp : ProperRun World.init ops) :
    (run World.init ops).freed.Nodup ∧ (holders (run World.init ops)).Nodup ∧
      ∀ h ∈ (run World.init ops).freed, h ∉ holders (run World.init ops) :=
  have v := (Sound.init.run hp).valid
  ⟨v.freed_nodup, v.held_nodup, v.disjoint⟩

/-! ## Owners the binding adds without a check -/

/-- `Aggregate.build` never reads `_owned`: over a `GroupBy` whose flag is already
cleared, because its handle went to an aggregate, a build the engine accepts gives the
handle one more owner. -/
theorem build_adds_owner {i : Nat} {h : Handle} {aggId : StrOrBytes} {b : List UInt8}
    (hf : Fresh s) (hi : s.objs[i]? = some (.groupBy (some h) false))
    (henc : toCstr aggId = .ok b) :
    (holders (Aggregate.build aggId [i] [] ⟨none, false⟩ s).1).count h =
      (holders s).count h + 1 := by
  obtain ⟨n, hn, rfl⟩ := hf _ (mem_mentioned_of_objs s hi rfl)
  have hs := congrArg World.objs (World.setObj_self hi)
  simp only [World.setObj_objs] at hs
  have hb : (Aggregate.build aggId [i] [] ⟨none, false⟩ s).1 =
      World.push { s with next := s.next + 2, aggs := s.aggs ++ [(.obj (s.next + 1),
        [.obj s.next, .obj n])] } (.aggregate (some (.obj (s.next + 1)))) := by
    simp [Aggregate.build, mallocArray, Aggregate.fill, transfer, hi, GroupBy.take, henc,
      withArg, toU16, construct, newAggregate, bind, Except.bind, List.reduceOption, hs]
  simp [hb, holders, List.count_cons, Wrapper.holds]
  split_ifs <;> omega

/-- A `GroupBy` built into one aggregate and then into a second. -/
theorem build_groupBy_twice_adds_owner :
    (holders (Aggregate.build (.bytes []) [0] [] ⟨none, false⟩
        (run World.init [.groupbyNew (.bytes []) (.bytes []) ⟨none, false⟩,
          .build (.bytes []) [0] [] ⟨none, false⟩])).1).count (.obj 0) =
      (holders (run World.init [.groupbyNew (.bytes []) (.bytes []) ⟨none, false⟩,
          .build (.bytes []) [0] [] ⟨none, false⟩])).count (.obj 0) + 1 :=
  build_adds_owner ((run_grows World.init _).fresh init_fresh) rfl rfl

/-- Every `iter_rows` call on a result with a row cursor wraps the cursor in a new
owning `CursorRow`, whether or not one already owns it. -/
theorem iterRows_adds_owner {i : Nat} {res c : Handle}
    (hi : s.objs[i]? = some (.sqlResult (some res))) (hc : s.results.lookup res = some (some c)) :
    (holders (step s (.iterRows i))).count c = (holders s).count c + 1 := by
  simp only [step, hi, SqlResult.iterRows, hc]
  simp [List.perm_iff_count.mp (holders_push s (.cursorRow (some c))) c, Wrapper.holds]

/-- A second `iter_rows` on a result. -/
theorem iterRows_twice_adds_owner :
    (holders (step (run World.init [.sqlExec (.bytes []) ⟨none, false⟩ true, .iterRows 0])
        (.iterRows 0))).count (.obj 1) =
      (holders (run World.init [.sqlExec (.bytes []) ⟨none, false⟩ true, .iterRows 0])).count
        (.obj 1) + 1 :=
  iterRows_adds_owner rfl rfl

/-- A reduced run of `tutorial_aggregate`, the engine answering each call without error:
the schema and table, one sales row inserted instead of five, a `GroupBy` and three
`AggFunc`s built into an aggregate, one row read through a cursor, two result rows
computed, and the `with` blocks closed. The method calls, which change no ownership, are
left out; `Tutorial.aggregate` is the whole function. -/
def tutorialAggregate : List Op :=
  let ok : Native := ⟨none, false⟩
  let table := StrOrBytes.ofString "./temp/tutorial_sales.flintdb"
  [.metaNew table ok, .tableNew table (some 0) ok, .rowNew 0 ok, .close 2,
    .groupbyNew (.ofString "category") (.ofString "category") ok,
    .funcCount (.ofString "*") (.ofString "count") ok,
    .funcSum (.ofString "quantity") (.ofString "total_quantity") ok,
    .funcAvg (.ofString "price") (.ofString "avg_price") ok,
    .build (.ofString "sales_by_category") [3] [4, 5, 6] ok, .find 1 (.ofString "") ok,
    .read 1 ok 0, .close 8, .compute 7 ⟨none, some [true, true]⟩, .close 10, .close 11,
    .close 7, .close 1, .close 0]

theorem tutorialAggregate_proper : ProperRun World.init tutorialAggregate := by
  simp only [tutorialAggregate, ProperRun, Proper]
  decide

theorem tutorialAggregate_moves :
    Relation.ReflTransGen Ledger.Move World.init.ledger (run World.init tutorialAggregate).ledger :=
  run_moves init_fresh tutorialAggregate_proper

theorem tutorialAggregate_safe :
    (run World.init tutorialAggregate).freed.Nodup ∧
      (holders (run World.init tutorialAggregate)).Nodup ∧
      ∀ h ∈ (run World.init tutorialAggregate).freed,
        h ∉ holders (run World.init tutorialAggregate) :=
  proper_run_safe tutorialAggregate tutorialAggregate_proper

/-- A `GroupBy` passed to two `Aggregate.build` calls has two owners, and closing both
aggregates destroys its handle twice; listed twice in one build, it is destroyed twice
by one aggregate; two `iter_rows` calls on one result give two cursors over one handle,
and closing both destroys it twice. -/
theorem build_twice_double_free :
    (holders (run World.init [.groupbyNew (.bytes []) (.bytes []) ⟨none, false⟩,
        .build (.bytes []) [0] [] ⟨none, false⟩,
        .build (.bytes []) [0] [] ⟨none, false⟩])).count (.obj 0) = 2 ∧
      (run World.init [.groupbyNew (.bytes []) (.bytes []) ⟨none, false⟩,
        .build (.bytes []) [0] [] ⟨none, false⟩, .build (.bytes []) [0] [] ⟨none, false⟩,
        .close 1, .close 2]).freed.count (.obj 0) = 2 ∧
      (run World.init [.groupbyNew (.bytes []) (.bytes []) ⟨none, false⟩,
        .build (.bytes []) [0, 0] [] ⟨none, false⟩, .close 1]).freed.count (.obj 0) = 2 ∧
      (run World.init [.sqlExec (.bytes []) ⟨none, false⟩ true, .iterRows 0, .iterRows 0,
        .close 1, .close 2]).freed.count (.obj 1) = 2 := by
  decide

end FlintDB
