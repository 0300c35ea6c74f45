import FlintDB.Ownership.Refinement
import Mathlib.Data.List.Nodup

/-! # `Aggregate.build` as ledger moves

`Aggregate.build` hands the handles of the listed `GroupBy` and `AggFunc` wrappers to
`aggregate_new` and clears each wrapper's `_owned` flag without reading it first. Over
distinct wrappers that still own their handles, ownership passes from the wrappers to
the new aggregate; a wrapper listed twice, or one whose handle went to an earlier
aggregate, gives its handle a second owner.
-/

namespace FlintDB

/-- A wrapper `Aggregate.build` may take a handle from: a `GroupBy` or `AggFunc` whose
`_owned` flag is still set, or an object of another class, at which the loop raises. -/
def Wrapper.transferable : Wrapper → Bool
  | .groupBy _ owned | .aggFunc _ owned => owned
  | _ => true

/-- What `GroupBy.take` and `AggFunc.take` do to a wrapper they accept. -/
structure TakeSpec (take : Wrapper → Option (Ptr × Wrapper)) : Prop where
  /-- The wrapper no longer owns a handle. -/
  cleared : ∀ {w p w'}, take w = some (p, w') → w'.holds = none
  /-- It keeps its pointer, which is the one taken. -/
  ownPtr_eq : ∀ {w p w'}, take w = some (p, w') → w'.ownPtr = p ∧ w.ownPtr = p
  /-- A transferable wrapper owned the pointer taken. -/
  holds_eq : ∀ {w p w'}, take w = some (p, w') → w.transferable → w.holds = p

theorem GroupBy.take_spec : TakeSpec GroupBy.take where
  cleared {w _ _} h := by cases w <;> cases h; rfl
  ownPtr_eq {w _ _} h := by cases w <;> cases h; exact ⟨rfl, rfl⟩
  holds_eq {w _ _} h hw := by cases w <;> cases h; simp_all [Wrapper.holds, Wrapper.transferable]

theorem AggFunc.take_spec : TakeSpec AggFunc.take where
  cleared {w _ _} h := by cases w <;> cases h; rfl
  ownPtr_eq {w _ _} h := by cases w <;> cases h; exact ⟨rfl, rfl⟩
  holds_eq {w _ _} h hw := by cases w <;> cases h; simp_all [Wrapper.holds, Wrapper.transferable]

theorem map_eq_ok {α β : Type} {f : α → β} {x : Except PyError α} {b : β} :
    f <$> x = .ok b ↔ ∃ a, x = .ok a ∧ f a = b := by
  cases x <;> simp [Functor.map, Except.map]

theorem reduceOption_cons {α : Type} (p : Option α) (l : List (Option α)) :
    (p :: l).reduceOption = p.toList ++ l.reduceOption := by
  cases p <;> simp [List.reduceOption]

theorem filterMap_set_perm_of_eq {α β : Type} [DecidableEq β] (f : α → Option β) {l : List α}
    {i : Nat} {a b : α} (hi : l[i]? = some a) (hf : f b = f a) :
    ((l.set i b).filterMap f).Perm (l.filterMap f) := by
  have hp := filterMap_set_perm f hi b
  rw [hf] at hp
  exact (List.perm_append_right_iff _).mp (hp.trans List.perm_append_comm)

/-! ## The loops -/

section Transfer

variable {take : Wrapper → Option (Ptr × Wrapper)} (ht : TakeSpec take)
include ht

/-- The loops move no pointer: the wrappers' pointers stay where they were. -/
theorem transfer_ownPtr_perm : ∀ (objs : List Wrapper) (is : List Nat),
    ((transfer take objs is).1.filterMap Wrapper.ownPtr).Perm (objs.filterMap Wrapper.ownPtr)
  | objs, [] => List.Perm.refl _
  | objs, i :: is => by
    unfold transfer
    split
    · next p w hb =>
      obtain ⟨w₀, hw₀, htk⟩ := Option.bind_eq_some.mp hb
      have hw := ht.ownPtr_eq htk
      exact (transfer_ownPtr_perm (objs.set i w) is).trans
        (filterMap_set_perm_of_eq _ hw₀ (hw.1.trans hw.2.symm))
    · exact List.Perm.refl _

/-- Every handle the loops pass on is a wrapper's pointer. -/
theorem transfer_taken_mem : ∀ (objs : List Wrapper) (is : List Nat) (ps : List Ptr),
    (transfer take objs is).2 = .ok ps → ∀ x ∈ ps.reduceOption, x ∈ objs.filterMap Wrapper.ownPtr
  | objs, [], ps, h => by cases h; simp [List.reduceOption]
  | objs, i :: is, ps, h => by
    unfold transfer at h
    split at h
    · next p w hb =>
      obtain ⟨w₀, hw₀, htk⟩ := Option.bind_eq_some.mp hb
      obtain ⟨ps', hps, rfl⟩ := map_eq_ok.mp h
      intro x hx
      rw [reduceOption_cons] at hx
      rcases List.mem_append.mp hx with hx | hx
      · exact List.mem_filterMap.mpr ⟨w₀, List.getElem?_mem hw₀,
          (ht.ownPtr_eq htk).2.trans (by simpa using hx)⟩
      · exact (filterMap_set_perm_of_eq _ hw₀ ((ht.ownPtr_eq htk).1.trans
          (ht.ownPtr_eq htk).2.symm)).subset (transfer_taken_mem (objs.set i w) is ps' hps x hx)
    · cases h

omit ht in
theorem transfer_getElem?_of_not_mem : ∀ (objs : List Wrapper) (is : List Nat) {j : Nat},
    j ∉ is → (transfer take objs is).1[j]? = objs[j]?
  | objs, [], _, _ => rfl
  | objs, i :: is, j, hj => by
    have hji := List.ne_of_not_mem_cons hj
    unfold transfer
    split
    · next p w _ =>
      rw [transfer_getElem?_of_not_mem (objs.set i w) is (List.not_mem_of_not_mem_cons hj),
        List.getElem?_set_ne (Ne.symm hji)]
    · rfl

/-- Over distinct transferable wrappers, the loops take the owned handles `taken` from
the wrappers, and `aggregate_new` gets exactly those when no loop raised. -/
theorem transfer_holders : ∀ (objs : List Wrapper) (is : List Nat), is.Nodup →
    (∀ i ∈ is, ∀ w ∈ objs[i]?, w.transferable) → ∃ taken : List Handle,
      ((transfer take objs is).1.filterMap Wrapper.holds ++ taken).Perm
        (objs.filterMap Wrapper.holds) ∧
      ∀ ps, (transfer take objs is).2 = .ok ps → ps.reduceOption = taken
  | objs, [], _, _ => ⟨[], by simp [transfer], fun ps h => by cases h; rfl⟩
  | objs, i :: is, hn, hd => by
    unfold transfer
    split
    · next p w hb =>
      obtain ⟨w₀, hw₀, htk⟩ := Option.bind_eq_some.mp hb
      have hi := (List.nodup_cons.mp hn).1
      have hd' : ∀ j ∈ is, ∀ w' ∈ (objs.set i w)[j]?, w'.transferable := fun j hj w' hw' => by
        rw [List.getElem?_set_ne (fun h => hi (by rw [h]; exact hj))] at hw'
        exact hd j (List.mem_cons_of_mem _ hj) w' hw'
      obtain ⟨taken, hp, hok⟩ := transfer_holders (objs.set i w) is (List.nodup_cons.mp hn).2 hd'
      have hheld := ht.holds_eq htk (hd i (List.mem_cons_self _ _) w₀ hw₀)
      have hset := filterMap_set_perm Wrapper.holds hw₀ w
      rw [ht.cleared htk, hheld] at hset
      refine ⟨p.toList ++ taken, List.perm_iff_count.mpr fun x => ?_, fun ps h => ?_⟩
      · have h₁ := List.perm_iff_count.mp hp x
        have h₂ := List.perm_iff_count.mp hset x
        simp only [List.count_append, Option.toList_none, List.count_nil] at h₁ h₂ ⊢
        omega
      · obtain ⟨ps', hps, rfl⟩ := map_eq_ok.mp h
        rw [reduceOption_cons, hok ps' hps]
    · exact ⟨[], by simp, fun ps h => by cases h⟩

/-- Over distinct wrappers the loop accepts, the loop finishes, and each listed wrapper
no longer owns a handle. -/
theorem transfer_cleared : ∀ (objs : List Wrapper) (is : List Nat), is.Nodup →
    (∀ i ∈ is, ∃ w, objs[i]? = some w ∧ (take w).isSome) →
      (∃ ps, (transfer take objs is).2 = .ok ps) ∧
        ∀ i ∈ is, ∀ w ∈ (transfer take objs is).1[i]?, w.holds = none
  | objs, [], _, _ => ⟨⟨[], rfl⟩, nofun⟩
  | objs, i :: is, hn, hd => by
    obtain ⟨w₀, hw₀, htk⟩ := hd i (List.mem_cons_self _ _)
    obtain ⟨⟨p, w⟩, htk⟩ := Option.isSome_iff_exists.mp htk
    have hi := (List.nodup_cons.mp hn).1
    have hd' : ∀ j ∈ is, ∃ w', (objs.set i w)[j]? = some w' ∧ (take w').isSome := fun j hj => by
      rw [List.getElem?_set_ne (fun h => hi (by rw [h]; exact hj))]
      exact hd j (List.mem_cons_of_mem _ hj)
    obtain ⟨⟨ps, hps⟩, hcl⟩ := transfer_cleared (objs.set i w) is (List.nodup_cons.mp hn).2 hd'
    have hb : objs[i]?.bind take = some (p, w) := by rw [hw₀]; exact htk
    unfold transfer
    rw [hb]
    refine ⟨⟨p :: ps, by simp only [hps]; rfl⟩, fun j hj w' hw' => ?_⟩
    rcases List.mem_cons.mp hj with rfl | hj
    · rw [transfer_getElem?_of_not_mem _ _ hi,
        List.getElem?_set_self (List.getElem?_eq_some_iff.mp hw₀).1] at hw'
      cases hw'
      exact ht.cleared htk
    · exact hcl j hj w' hw'

end Transfer

/-! ## `aggregate_new` and the arrays -/

section Fill

variable {arrs : List Handle} {aggId : StrOrBytes} {gbs fns : List Nat} {r : Native}
  {s₀ s : World}

theorem reduceOption_append {α : Type} (l l' : List (Option α)) :
    (l ++ l').reduceOption = l.reduceOption ++ l'.reduceOption :=
  List.filterMap_append _ _ _

theorem holders_newAggregate (rs : List Handle) (s : World) :
    holders (newAggregate rs s).2 = holders s ++ rs :=
  holders_addAgg s.alloc.2 _ rs

theorem Aggregate.fill_grows (g : Grows s₀ s) (harr : ∀ x ∈ arrs, NewIn s₀ s x) :
    Grows s₀ (Aggregate.fill arrs aggId gbs fns r s).1 := by
  have p₁ := transfer_ownPtr_perm GroupBy.take_spec s.objs gbs
  have m₁ := transfer_taken_mem GroupBy.take_spec s.objs gbs
  unfold Aggregate.fill
  split
  · next objs e h => rw [h] at p₁; exact g.withObjs p₁
  · next objs gps h₁ =>
    rw [h₁] at p₁ m₁
    have p₂ := transfer_ownPtr_perm AggFunc.take_spec objs fns
    have m₂ := transfer_taken_mem AggFunc.take_spec objs fns
    split
    · next objs' e h₂ => rw [h₂] at p₂; exact g.withObjs (p₂.trans p₁)
    · next objs' fps h₂ =>
      rw [h₂] at p₂ m₂
      have g₁ : Grows s₀ { s with objs := objs' } := g.withObjs (p₂.trans p₁)
      have ha : NewIn s₀ { s with objs := objs' }.alloc.2 (.obj s.next) :=
        ⟨s.next, g.1, Nat.lt_succ_self _, rfl⟩
      refine withArg_grows g₁ fun _ => construct_grows g₁
        (g₁.alloc.addAgg (.inr (.inr ha)) fun x hx => ?_)
        fun x hx => by cases hx; exact .inr (.inr ha)
      rcases List.mem_append.mp hx with hx | hx
      · exact .inr (.inr ((harr x hx).mono (Nat.le_succ _)))
      · refine g.accounted (Nat.le_succ _) (mem_mentioned_of_ownPtrs s ?_)
        rcases List.mem_append.mp ((reduceOption_append gps fps) ▸ hx) with hx | hx
        · exact m₁ gps rfl x hx
        · exact p₁.subset (m₂ fps rfl x hx)

/-- The wrappers' fields replaced after the loops: the handles `lost` lose their
owners. -/
theorem Shape.withObjs (hh : holders s = holders s₀) (hfr : s.freed = s₀.freed)
    {objs : List Wrapper} (lost : List Handle)
    (hc : ∀ x, (s.objs.filterMap Wrapper.holds).count x =
      (objs.filterMap Wrapper.holds).count x + lost.count x) :
    Shape s₀ { s with objs := objs } :=
  Shape.of_count [] [] lost List.nodup_nil nofun (fun x => by
    have := hc x
    rw [← hh]
    simp only [holders, List.count_append, List.count_nil]
    omega) (by simpa using hfr)

/-- `aggregate_new` after the loops, over the arrays and the handles `rec` they took
from the wrappers: owners for the arrays and, through the new wrapper, for the
aggregate; the handles `rec` pass to the aggregate. -/
theorem newAggregate_construct_shape {s₁ : World} {rec : List Handle} {msg : String}
    (h₀ : Shape s₀ s₁) (hle : s₀.next ≤ s₁.next) (hn : arrs.Nodup)
    (harr : ∀ x ∈ arrs, NewIn s₀ s₁ x) (hfr : s₁.freed = s₀.freed)
    (hc : ∀ x, (holders s₀).count x = (holders s₁).count x + rec.count x) :
    Shape s₀
      (construct (newAggregate (arrs ++ rec)) (fun h => .aggregate (some h)) msg r s₁).1 := by
  have hagg : ∀ x, (holders (newAggregate (arrs ++ rec) s₁).2).count x =
      (holders s₀).count x + arrs.count x := fun x => by
    simp only [holders_newAggregate, List.count_append, hc x]
    omega
  have hfr' : (newAggregate (arrs ++ rec) s₁).2.freed = s₀.freed ++ [] := by
    simpa [newAggregate] using hfr
  rcases construct_cases (newAggregate (arrs ++ rec)) (fun h => .aggregate (some h)) msg r s₁
    with h | h | h <;> rw [h]
  · exact h₀
  · exact Shape.of_count arrs [] [] hn (fun x hx => .inl ((harr x hx).mono (Nat.le_succ _)))
      (fun x => by simp [hagg]) hfr'
  · refine Shape.of_count (.obj s₁.next :: arrs) [] [] (List.nodup_cons.mpr ⟨fun h => ?_, hn⟩)
      (fun x hx => .inl ?_) (fun x => ?_) hfr'
    · obtain ⟨n, -, hn, he⟩ := harr _ h
      cases he
      exact Nat.lt_irrefl _ hn
    · rcases List.mem_cons.mp hx with rfl | hx
      · exact ⟨s₁.next, hle, Nat.lt_succ_self _, rfl⟩
      · exact (harr x hx).mono (Nat.le_succ _)
    · have hp := List.perm_iff_count.mp (holders_push (newAggregate (arrs ++ rec) s₁).2
        (.aggregate (some (.obj s₁.next)))) x
      rw [show (newAggregate (arrs ++ rec) s₁).1 = .obj s₁.next from rfl, hp]
      simp only [List.count_append, List.count_cons, List.count_nil, hagg, Wrapper.holds,
        Option.toList_some]
      omega

/-- Over distinct wrappers that still own their handles, `aggregate_new` takes owners
for the arrays and the new aggregate's wrapper for the aggregate, the handles pass from
the wrappers to the aggregate, and a loop that raises leaves the handles before it
with no owner. -/
theorem Aggregate.fill_shape (hh : holders s = holders s₀) (hfr : s.freed = s₀.freed)
    (hle : s₀.next ≤ s.next) (hn : arrs.Nodup) (harr : ∀ x ∈ arrs, NewIn s₀ s x)
    (hgf : (gbs ++ fns).Nodup) (hd : ∀ i ∈ gbs ++ fns, ∀ w ∈ s.objs[i]?, w.transferable) :
    Shape s₀ (Aggregate.fill arrs aggId gbs fns r s).1 := by
  have hdis := List.nodup_append.mp hgf
  obtain ⟨t₁, hp₁, hok₁⟩ := transfer_holders GroupBy.take_spec s.objs gbs hdis.1
    fun i hi => hd i (List.mem_append_left _ hi)
  unfold Aggregate.fill
  split
  · next objs e h =>
    simp only [h] at hp₁
    exact Shape.withObjs hh hfr t₁ fun x => by
      simpa using (List.perm_iff_count.mp hp₁ x).symm
  · next objs gps h₁ =>
    simp only [h₁] at hp₁ hok₁
    have hd₂ : ∀ j ∈ fns, ∀ w ∈ objs[j]?, w.transferable := fun j hj w hw => by
      have hj' : (transfer GroupBy.take s.objs gbs).1[j]? = s.objs[j]? :=
        transfer_getElem?_of_not_mem s.objs gbs (fun h => hdis.2.2 h hj)
      simp only [h₁] at hj'
      exact hd j (List.mem_append_right _ hj) w (hj' ▸ hw)
    obtain ⟨t₂, hp₂, hok₂⟩ := transfer_holders AggFunc.take_spec objs fns hdis.2.1 hd₂
    have hc : ∀ x, (s.objs.filterMap Wrapper.holds).count x =
        ((transfer AggFunc.take objs fns).1.filterMap Wrapper.holds).count x +
          (t₁ ++ t₂).count x := fun x => by
      have e₁ := List.perm_iff_count.mp hp₁ x
      have e₂ := List.perm_iff_count.mp hp₂ x
      simp only [List.count_append] at e₁ e₂ ⊢
      omega
    split
    · next objs' e h₂ => simp only [h₂] at hc; exact Shape.withObjs hh hfr _ hc
    · next objs' fps h₂ =>
      simp only [h₂] at hc hok₂
      rw [show (gps ++ fps).reduceOption = t₁ ++ t₂ by
        rw [reduceOption_append, hok₁ gps rfl, hok₂ fps rfl]]
      have h₀ := Shape.withObjs hh hfr _ hc
      refine withArg_shape h₀ fun _ => newAggregate_construct_shape h₀ hle hn harr hfr fun x => ?_
      have := hc x
      rw [← hh]
      simp only [holders, List.count_append] at this ⊢
      omega

variable (arrs) in
/-- When the call after the loops raises, because `agg_id` cannot be encoded or
`aggregate_new` returned NULL, the loops have cleared every listed wrapper's flag, and
nothing else changed. -/
theorem Aggregate.fill_raise (hgf : (gbs ++ fns).Nodup)
    (hgb : ∀ i ∈ gbs, ∃ gb owned, s.objs[i]? = some (.groupBy gb owned))
    (hfn : ∀ i ∈ fns, ∃ f owned, s.objs[i]? = some (.aggFunc f owned))
    (hfail : (∃ e, toCstr aggId = .error e) ∨ r.null = true) :
    (∃ e, (Aggregate.fill arrs aggId gbs fns r s).2 = .error e) ∧
      (Aggregate.fill arrs aggId gbs fns r s).1.aggs = s.aggs ∧
      (Aggregate.fill arrs aggId gbs fns r s).1.freed = s.freed ∧
      (∀ i ∈ gbs ++ fns, ∀ w ∈ (Aggregate.fill arrs aggId gbs fns r s).1.objs[i]?,
        w.holds = none) ∧
      ∀ j ∉ gbs ++ fns, (Aggregate.fill arrs aggId gbs fns r s).1.objs[j]? = s.objs[j]? := by
  have hdis := List.nodup_append.mp hgf
  obtain ⟨⟨gps, h₁⟩, hcl₁⟩ := transfer_cleared GroupBy.take_spec s.objs gbs hdis.1 fun i hi => by
    obtain ⟨gb, owned, h⟩ := hgb i hi
    exact ⟨_, h, rfl⟩
  have hkeep : ∀ j ∈ fns, (transfer GroupBy.take s.objs gbs).1[j]? = s.objs[j]? :=
    fun j hj => transfer_getElem?_of_not_mem _ _ fun h => hdis.2.2 h hj
  obtain ⟨⟨fps, h₂⟩, hcl₂⟩ := transfer_cleared AggFunc.take_spec
    (transfer GroupBy.take s.objs gbs).1 fns hdis.2.1 fun i hi => by
      obtain ⟨f, owned, h⟩ := hfn i hi
      exact ⟨_, (hkeep i hi).trans h, rfl⟩
  have hraise : ∀ t : World, ∃ e, withArg
      (do let _ ← toCstr aggId; let _ ← toU16 gbs.length; toU16 fns.length)
      (fun _ => construct (newAggregate (arrs ++ (gps ++ fps).reduceOption))
        (fun h => .aggregate (some h)) "aggregate_new returned NULL" r) t = (t, .error e) := by
    intro t
    rcases hfail with ⟨e, he⟩ | hnull
    · exact ⟨e, by simp only [withArg, he]; rfl⟩
    · unfold withArg
      split
      · exact ⟨_, by simp only [construct, hnull, if_true]; rfl⟩
      · exact ⟨_, rfl⟩
  have e₁ : transfer GroupBy.take s.objs gbs = (_, .ok gps) := Prod.ext rfl h₁
  have e₂ : transfer AggFunc.take (transfer GroupBy.take s.objs gbs).1 fns = (_, .ok fps) :=
    Prod.ext rfl h₂
  unfold Aggregate.fill
  rw [e₁]
  dsimp only
  rw [e₂]
  dsimp only
  obtain ⟨e, hr⟩ := hraise { s with objs := _ }
  rw [hr]
  refine ⟨⟨e, rfl⟩, rfl, rfl, fun i hi w hw => ?_, fun j hj => ?_⟩
  · rcases List.mem_append.mp hi with hi | hi
    · rw [transfer_getElem?_of_not_mem _ _ fun h => hdis.2.2 hi h] at hw
      exact hcl₁ i hi w hw
    · exact hcl₂ i hi w hw
  · exact (transfer_getElem?_of_not_mem _ _ fun h => hj (List.mem_append_right _ h)).trans
      (transfer_getElem?_of_not_mem _ _ fun h => hj (List.mem_append_left _ h))

end Fill

/-- The two `libc.malloc` calls leave the world as it was, beside two fresh arrays. -/
theorem mallocArrays_new (n m : Nat) (s : World) :
    ((mallocArray n s).1.toList ++ (mallocArray m (mallocArray n s).2).1.toList).Nodup ∧
    ∀ x ∈ (mallocArray n s).1.toList ++ (mallocArray m (mallocArray n s).2).1.toList,
      NewIn s (mallocArray m (mallocArray n s).2).2 x := by
  unfold mallocArray
  split_ifs <;> simp [NewIn]
  omega

theorem mallocArrays_eq (n m : Nat) (s : World) :
    (mallocArray m (mallocArray n s).2).2 =
      { s with next := (mallocArray m (mallocArray n s).2).2.next } := by
  unfold mallocArray
  split_ifs <;> rfl

theorem mallocArrays_grows (n m : Nat) (s : World) :
    Grows s (mallocArray m (mallocArray n s).2).2 := by
  unfold mallocArray
  split_ifs
  · exact Grows.refl s
  · exact (Grows.refl s).alloc
  · exact (Grows.refl s).alloc
  · exact (Grows.refl s).alloc.alloc

theorem Aggregate.build_eq (aggId : StrOrBytes) (gbs fns : List Nat) (r : Native) (s : World) :
    Aggregate.build aggId gbs fns r s = Aggregate.fill
      ((mallocArray gbs.length s).1.toList ++
        (mallocArray fns.length (mallocArray gbs.length s).2).1.toList)
      aggId gbs fns r (mallocArray fns.length (mallocArray gbs.length s).2).2 :=
  rfl

theorem Aggregate.build_grows (aggId : StrOrBytes) (gbs fns : List Nat) (r : Native) (s : World) :
    Grows s (Aggregate.build aggId gbs fns r s).1 := by
  rw [Aggregate.build_eq]
  exact Aggregate.fill_grows (mallocArrays_grows _ _ s) (mallocArrays_new _ _ s).2

/-- `Aggregate.build` over distinct wrappers that still own their handles. -/
theorem Aggregate.build_shape (aggId : StrOrBytes) {gbs fns : List Nat} (r : Native) {s : World}
    (hgf : (gbs ++ fns).Nodup) (hd : ∀ i ∈ gbs ++ fns, ∀ w ∈ s.objs[i]?, w.transferable) :
    Shape s (Aggregate.build aggId gbs fns r s).1 := by
  have he := mallocArrays_eq gbs.length fns.length s
  have hn := mallocArrays_new gbs.length fns.length s
  rw [Aggregate.build_eq]
  refine Aggregate.fill_shape (by rw [he]; rfl) (by rw [he]) (mallocArrays_grows _ _ s).1 hn.1
    hn.2 hgf fun i hi w hw => hd i hi w (by rw [he] at hw; exact hw)

/-- When `Aggregate.build` raises after both loops ran, because `agg_id` cannot be
encoded or `aggregate_new` returned NULL, every listed wrapper has lost its handle, no
aggregate was registered, nothing was destroyed, and every other object is as it was. -/
theorem Aggregate.build_raise {aggId : StrOrBytes} {gbs fns : List Nat} {r : Native}
    {s : World} (hgf : (gbs ++ fns).Nodup)
    (hgb : ∀ i ∈ gbs, ∃ gb owned, s.objs[i]? = some (.groupBy gb owned))
    (hfn : ∀ i ∈ fns, ∃ f owned, s.objs[i]? = some (.aggFunc f owned))
    (hfail : (∃ e, toCstr aggId = .error e) ∨ r.null = true) :
    (∃ e, (Aggregate.build aggId gbs fns r s).2 = .error e) ∧
      (Aggregate.build aggId gbs fns r s).1.aggs = s.aggs ∧
      (Aggregate.build aggId gbs fns r s).1.freed = s.freed ∧
      (∀ i ∈ gbs ++ fns, ∀ w ∈ (Aggregate.build aggId gbs fns r s).1.objs[i]?, w.holds = none) ∧
      ∀ j ∉ gbs ++ fns, (Aggregate.build aggId gbs fns r s).1.objs[j]? = s.objs[j]? := by
  have he := mallocArrays_eq gbs.length fns.length s
  rw [Aggregate.build_eq]
  generalize (mallocArray fns.length (mallocArray gbs.length s).2).2 = s₂ at he ⊢
  generalize (mallocArray gbs.length s).1.toList ++ _ = arrs
  have ho : s₂.objs = s.objs := by rw [he]
  rw [← ho] at hgb hfn ⊢
  obtain ⟨hr, ha, hf, hcl, hkeep⟩ := Aggregate.fill_raise arrs hgf hgb hfn hfail
  exact ⟨hr, ha.trans (by rw [he]), hf.trans (by rw [he]), hcl, hkeep⟩

end FlintDB
