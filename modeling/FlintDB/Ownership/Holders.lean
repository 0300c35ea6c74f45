import FlintDB.Ownership.Ledger

/-! # The ledger of a world

A world's ledger holds, once per owner, the handle of every wrapper whose `close`
would destroy it and every handle an aggregate received. Beside it, the handles the
world mentions outside borrowed rows were all allocated before `next`; every call
keeps that, since it only adds handles it allocates.
-/

namespace FlintDB

/-- The owned handles: each wrapper's that its `close` destroys, then each
aggregate's received handles. -/
def holders (s : World) : List Handle :=
  s.objs.filterMap Wrapper.holds ++ (s.aggs.map Prod.snd).flatten

/-- The ledger a world keeps. -/
def World.ledger (s : World) : Ledger := ⟨holders s, s.freed⟩

/-- The handles of a world outside borrowed rows: the wrappers', the aggregates' with
what they received, the SQL results' with their cursors, and the destroyed ones. -/
def mentioned (s : World) : List Handle :=
  s.objs.filterMap Wrapper.ownPtr ++ (s.aggs.map fun a => a.1 :: a.2).flatten ++
    (s.results.map fun r => r.1 :: r.2.toList).flatten ++ s.freed

/-- Every handle a world mentions was allocated for the binding before `next`. -/
def Fresh (s : World) : Prop := ∀ h ∈ mentioned s, ∃ n < s.next, h = .obj n

/-- A handle allocated between two worlds. -/
def NewIn (s s' : World) (h : Handle) : Prop := ∃ n, s.next ≤ n ∧ n < s'.next ∧ h = .obj n

/-- A call mentions afterwards only what it mentioned before or allocated. -/
def Grows (s s' : World) : Prop :=
  s.next ≤ s'.next ∧ ∀ h ∈ mentioned s', h ∈ mentioned s ∨ NewIn s s' h

theorem Wrapper.ownPtr_of_holds {w : Wrapper} {h : Handle} (hw : w.holds = some h) :
    w.ownPtr = some h := by
  cases w <;> simp_all [Wrapper.holds, Wrapper.ownPtr]

theorem holders_subset_mentioned (s : World) : ∀ h ∈ holders s, h ∈ mentioned s := by
  intro h hh
  simp only [holders, mentioned, List.mem_append, List.mem_filterMap, List.mem_flatten,
    List.mem_map] at hh ⊢
  rcases hh with ⟨w, hw, hh⟩ | ⟨l, ⟨a, ha, rfl⟩, hl⟩
  · exact .inl (.inl (.inl ⟨w, hw, Wrapper.ownPtr_of_holds hh⟩))
  · exact .inl (.inl (.inr ⟨_, ⟨a, ha, rfl⟩, List.mem_cons_of_mem _ hl⟩))

theorem freed_subset_mentioned (s : World) : ∀ h ∈ s.freed, h ∈ mentioned s :=
  fun _ h => List.mem_append_right _ h

/-! ## Freshness -/

theorem NewIn.mono {s s₁ s₂ : World} {h : Handle} (hn : NewIn s s₁ h) (h₁ : s₁.next ≤ s₂.next) :
    NewIn s s₂ h :=
  let ⟨n, h₀, hn, he⟩ := hn; ⟨n, h₀, Nat.lt_of_lt_of_le hn h₁, he⟩

theorem Grows.refl (s : World) : Grows s s := ⟨Nat.le_refl _, fun _ h => .inl h⟩

/-- The engine lending a row or taking rows back mentions nothing new. -/
theorem Grows.lend {s s₁ : World} (g : Grows s s₁) (n : Nat) (l : Handle) :
    Grows s (s₁.lend n l) := g

theorem Grows.takeBack {s s₁ : World} (g : Grows s s₁) (l : Handle) : Grows s (s₁.takeBack l) := g

theorem Grows.trans {s s₁ s₂ : World} (g₁ : Grows s s₁) (g₂ : Grows s₁ s₂) : Grows s s₂ := by
  refine ⟨Nat.le_trans g₁.1 g₂.1, fun h hm => ?_⟩
  rcases g₂.2 h hm with hm | ⟨n, hn₁, hn₂, rfl⟩
  · rcases g₁.2 h hm with hm | hn
    · exact .inl hm
    · exact .inr (hn.mono g₂.1)
  · exact .inr ⟨n, Nat.le_trans g₁.1 hn₁, hn₂, rfl⟩

theorem Grows.fresh {s s' : World} (g : Grows s s') (hf : Fresh s) : Fresh s' := by
  intro h hm
  rcases g.2 h hm with hm | ⟨n, _, hn, rfl⟩
  · obtain ⟨n, hn, rfl⟩ := hf h hm
    exact ⟨n, Nat.lt_of_lt_of_le hn g.1, rfl⟩
  · exact ⟨n, hn, rfl⟩

/-- A handle mentioned by the first or by a later world, or allocated in between. -/
def Accounted (s s₁ : World) (h : Handle) : Prop :=
  h ∈ mentioned s ∨ h ∈ mentioned s₁ ∨ NewIn s s₁ h

theorem Grows.accounted {s s₁ s₂ : World} (g : Grows s s₁) (hn : s₁.next ≤ s₂.next) {h : Handle}
    (hh : h ∈ mentioned s₁) : Accounted s s₂ h :=
  (g.2 h hh).elim .inl fun hn' => .inr (.inr (hn'.mono hn))

theorem Grows.of_accounted {s s₁ s₂ : World} (g : Grows s s₁) (hn : s₁.next ≤ s₂.next)
    (hm : ∀ h ∈ mentioned s₂, Accounted s s₁ h) : Grows s s₂ := by
  refine ⟨Nat.le_trans g.1 hn, fun h hh => ?_⟩
  rcases hm h hh with hh | hh | hh
  · exact .inl hh
  · rcases g.2 h hh with hh | hh
    · exact .inl hh
    · exact .inr (hh.mono hn)
  · exact .inr (hh.mono hn)

/-! ## The ledger under each update of a world -/

section Updates

variable (s : World)

@[simp] theorem holders_alloc : holders s.alloc.2 = holders s := rfl
@[simp] theorem mentioned_alloc : mentioned s.alloc.2 = mentioned s := rfl
@[simp] theorem holders_destroy (hs : List Handle) : holders (s.destroy hs) = holders s := rfl

theorem holders_push (w : Wrapper) :
    (holders (s.push w)).Perm (w.holds.toList ++ holders s) := by
  have hw : [w].filterMap Wrapper.holds = w.holds.toList := by
    cases h : w.holds <;> simp [h]
  simp only [holders, World.push_objs, World.push_aggs, List.filterMap_append, hw]
  rw [← List.append_assoc]
  exact List.perm_append_comm.append_right _

theorem holders_push_of_holds_none {w : Wrapper} (hw : w.holds = none) :
    (holders (s.push w)).Perm (holders s) := by
  simpa [hw] using holders_push s w

theorem filterMap_cons_toList {α β : Type} (f : α → Option β) (a : α) (l : List α) :
    (a :: l).filterMap f = (f a).toList ++ l.filterMap f := by
  cases h : f a <;> simp [h]

theorem filterMap_set_perm {α β : Type} [DecidableEq β] (f : α → Option β) {l : List α}
    {i : Nat} {a : α} (hi : l[i]? = some a) (b : α) :
    ((l.set i b).filterMap f ++ (f a).toList).Perm ((f b).toList ++ l.filterMap f) := by
  obtain ⟨hlt, rfl⟩ := List.getElem?_eq_some_iff.mp hi
  conv => rhs; rw [← List.take_append_drop i l, List.drop_eq_getElem_cons hlt]
  rw [List.set_eq_take_append_cons_drop, if_pos hlt]
  simp only [List.filterMap_append, filterMap_cons_toList, List.perm_iff_count,
    List.count_append]
  omega

theorem holders_setObj {i : Nat} {w : Wrapper} (hi : s.objs[i]? = some w) (w' : Wrapper) :
    (holders (s.setObj i w') ++ w.holds.toList).Perm (w'.holds.toList ++ holders s) := by
  have hp := (filterMap_set_perm Wrapper.holds hi w').append_right (s.aggs.map Prod.snd).flatten
  simp only [holders, World.setObj_objs, World.setObj_aggs, List.append_assoc] at hp ⊢
  exact (List.Perm.append_left _ List.perm_append_comm).trans hp

theorem holders_addAgg (a : Handle) (rs : List Handle) :
    holders { s with aggs := s.aggs ++ [(a, rs)] } = holders s ++ rs := by
  simp [holders]

theorem flatten_snd_eraseP : ∀ {aggs : List (Handle × List Handle)} {a : Handle}
    {rs : List Handle}, aggs.lookup a = some rs →
      ((aggs.map Prod.snd).flatten).Perm
        (((aggs.eraseP (a == ·.1)).map Prod.snd).flatten ++ rs)
  | [], _, _, h => by simp at h
  | (k, v) :: aggs, a, rs, h => by
    by_cases hk : a = k
    · subst hk
      simp only [List.lookup_cons, beq_self_eq_true, Option.some.injEq] at h
      subst h
      simp only [List.eraseP_cons, beq_self_eq_true, cond_true, List.map_cons,
        List.flatten_cons]
      exact List.perm_append_comm
    · have hne : (a == k) = false := beq_false_of_ne hk
      simp only [List.lookup_cons, hne] at h
      simp only [List.eraseP_cons, hne, cond_false, List.map_cons, List.flatten_cons,
        List.append_assoc]
      exact (flatten_snd_eraseP h).append_left v

theorem mem_mentioned_push {w : Wrapper} {h : Handle} :
    h ∈ mentioned (s.push w) ↔ h ∈ mentioned s ∨ w.ownPtr = some h := by
  simp only [mentioned, World.push_objs, World.push_aggs, World.push_results, World.push_freed,
    List.filterMap_append, filterMap_cons_toList, List.filterMap_nil, List.append_nil,
    List.mem_append, Option.mem_toList, Option.mem_def]
  tauto

theorem mem_mentioned_setObj {i : Nat} {w : Wrapper} {h : Handle}
    (hm : h ∈ mentioned (s.setObj i w)) : h ∈ mentioned s ∨ w.ownPtr = some h := by
  simp only [mentioned, World.setObj_objs, World.setObj_aggs, World.setObj_results,
    World.setObj_freed, List.mem_append, List.mem_filterMap] at hm ⊢
  rcases hm with ((⟨x, hx, hxh⟩ | hm) | hm) | hm
  · rcases List.mem_or_eq_of_mem_set hx with hx | rfl
    · exact .inl (.inl (.inl (.inl ⟨x, hx, hxh⟩)))
    · exact .inr hxh
  · exact .inl (.inl (.inl (.inr hm)))
  · exact .inl (.inl (.inr hm))
  · exact .inl (.inr hm)

theorem mem_mentioned_destroy {hs : List Handle} {h : Handle} :
    h ∈ mentioned (s.destroy hs) ↔ h ∈ mentioned s ∨ h ∈ hs := by
  simp only [mentioned, World.destroy_objs, World.destroy_aggs, World.destroy_results,
    World.destroy_freed, List.mem_append, or_assoc]

theorem mem_mentioned_eraseAgg {q : Handle × List Handle → Bool} {h : Handle}
    (hm : h ∈ mentioned { s with aggs := s.aggs.eraseP q }) : h ∈ mentioned s := by
  simp only [mentioned, List.mem_append, List.mem_flatten, List.mem_map] at hm ⊢
  rcases hm with ((hm | ⟨l, ⟨e, he, rfl⟩, hl⟩) | hm) | hm
  · exact .inl (.inl (.inl hm))
  · exact .inl (.inl (.inr ⟨_, ⟨e, List.mem_of_mem_eraseP he, rfl⟩, hl⟩))
  · exact .inl (.inr hm)
  · exact .inr hm

theorem mem_mentioned_addAgg {a h : Handle} {rs : List Handle} :
    h ∈ mentioned { s with aggs := s.aggs ++ [(a, rs)] } ↔ h ∈ mentioned s ∨ h = a ∨ h ∈ rs := by
  simp only [mentioned, List.map_append, List.flatten_append, List.map_cons, List.map_nil,
    List.flatten_cons, List.flatten_nil, List.append_nil, List.mem_append, List.mem_cons]
  tauto

theorem mem_mentioned_addResult {r h : Handle} {c : Ptr} :
    h ∈ mentioned { s with results := s.results ++ [(r, c)] } ↔
      h ∈ mentioned s ∨ h = r ∨ c = some h := by
  simp only [mentioned, List.map_append, List.flatten_append, List.map_cons, List.map_nil,
    List.flatten_cons, List.flatten_nil, List.append_nil, List.mem_append, List.mem_cons,
    Option.mem_toList, Option.mem_def]
  tauto

theorem mem_mentioned_of_aggs {a h : Handle} {rs : List Handle} (ha : (a, rs) ∈ s.aggs)
    (hh : h ∈ rs) : h ∈ mentioned s :=
  List.mem_append_left _ (List.mem_append_left _ (List.mem_append_right _
    (List.mem_flatten.mpr ⟨_, List.mem_map.mpr ⟨_, ha, rfl⟩, List.mem_cons_of_mem _ hh⟩)))

theorem mem_mentioned_of_results {r h : Handle} (hr : (r, some h) ∈ s.results) :
    h ∈ mentioned s :=
  List.mem_append_left _ (List.mem_append_right _
    (List.mem_flatten.mpr ⟨_, List.mem_map.mpr ⟨_, hr, rfl⟩, List.mem_cons_of_mem _ (by simp)⟩))

theorem mem_mentioned_of_ownPtrs {h : Handle} (hh : h ∈ s.objs.filterMap Wrapper.ownPtr) :
    h ∈ mentioned s :=
  List.mem_append_left _ (List.mem_append_left _ (List.mem_append_left _ hh))

theorem mem_mentioned_of_objs {i : Nat} {w : Wrapper} {h : Handle} (hi : s.objs[i]? = some w)
    (hw : w.ownPtr = some h) : h ∈ mentioned s :=
  mem_mentioned_of_ownPtrs s (List.mem_filterMap.mpr ⟨w, List.getElem?_mem hi, hw⟩)

theorem mentioned_withObjs_perm {objs : List Wrapper}
    (hp : (objs.filterMap Wrapper.ownPtr).Perm (s.objs.filterMap Wrapper.ownPtr)) :
    (mentioned { s with objs := objs }).Perm (mentioned s) :=
  ((hp.append_right _).append_right _).append_right _

end Updates

/-! ## Growth under each update -/

section Growth

variable {s s₁ : World}

theorem Grows.alloc (g : Grows s s₁) : Grows s s₁.alloc.2 :=
  g.of_accounted (Nat.le_succ _) fun _ h => .inr (.inl h)

theorem Grows.push {w : Wrapper} (g : Grows s s₁)
    (hw : ∀ x, w.ownPtr = some x → Accounted s s₁ x) : Grows s (s₁.push w) :=
  g.of_accounted (Nat.le_refl _) fun x hx =>
    (mem_mentioned_push s₁).mp hx |>.elim (.inr ∘ .inl) (hw x)

theorem Grows.setObj {i : Nat} {w : Wrapper} (g : Grows s s₁)
    (hw : ∀ x, w.ownPtr = some x → Accounted s s₁ x) : Grows s (s₁.setObj i w) :=
  g.of_accounted (Nat.le_refl _) fun x hx =>
    (mem_mentioned_setObj s₁ hx).elim (.inr ∘ .inl) (hw x)

theorem Grows.destroy {hs : List Handle} (g : Grows s s₁) (hh : ∀ x ∈ hs, Accounted s s₁ x) :
    Grows s (s₁.destroy hs) :=
  g.of_accounted (Nat.le_refl _) fun x hx =>
    ((mem_mentioned_destroy s₁).mp hx).elim (.inr ∘ .inl) (hh x)

theorem Grows.withObjs (g : Grows s s₁) {objs : List Wrapper}
    (hp : (objs.filterMap Wrapper.ownPtr).Perm (s₁.objs.filterMap Wrapper.ownPtr)) :
    Grows s { s₁ with objs := objs } :=
  g.of_accounted (Nat.le_refl _) fun _ hx => .inr (.inl ((mentioned_withObjs_perm s₁ hp).subset hx))

theorem Grows.eraseAgg (g : Grows s s₁) (q : Handle × List Handle → Bool) :
    Grows s { s₁ with aggs := s₁.aggs.eraseP q } :=
  g.of_accounted (Nat.le_refl _) fun _ hx => .inr (.inl (mem_mentioned_eraseAgg s₁ hx))

theorem Grows.addAgg (g : Grows s s₁) {a : Handle} {rs : List Handle}
    (ha : Accounted s s₁ a) (hrs : ∀ x ∈ rs, Accounted s s₁ x) :
    Grows s { s₁ with aggs := s₁.aggs ++ [(a, rs)] } :=
  g.of_accounted (Nat.le_refl _) fun x hx => by
    rcases (mem_mentioned_addAgg s₁).mp hx with hx | rfl | hx
    · exact .inr (.inl hx)
    · exact ha
    · exact hrs x hx

theorem Grows.addResult (g : Grows s s₁) {r : Handle} {c : Ptr} (hr : Accounted s s₁ r)
    (hc : ∀ x, c = some x → Accounted s s₁ x) :
    Grows s { s₁ with results := s₁.results ++ [(r, c)] } :=
  g.of_accounted (Nat.le_refl _) fun x hx => by
    rcases (mem_mentioned_addResult s₁).mp hx with hx | rfl | hx
    · exact .inr (.inl hx)
    · exact hr
    · exact hc x hx

end Growth

/-! ## The shape of a call -/

/-- How a call changes the ledger: owners are taken for `acq`, handles the call
allocated or that were neither held nor destroyed; `rel` is destroyed; `lost` loses
its owners without being destroyed; the rest passes between owners. -/
def Shape (s s' : World) : Prop :=
  ∃ acq rel lost : List Handle, acq.Nodup ∧
    (∀ h ∈ acq, NewIn s s' h ∨ (h ∉ holders s ∧ h ∉ s.freed)) ∧
    (holders s ++ acq).Perm (holders s' ++ rel ++ lost) ∧ s'.freed = s.freed ++ rel

variable {s s' : World}

theorem not_mentioned_of_newIn (hf : Fresh s) {h : Handle} (hn : NewIn s s' h) :
    h ∉ mentioned s := by
  rintro hm
  obtain ⟨n, hn, rfl⟩ := hf h hm
  obtain ⟨m, hm, -, he⟩ := hn
  cases he
  omega

/-- A call of a given shape is a run of ledger moves. -/
theorem Shape.moves (hf : Fresh s) (hs : Shape s s') :
    Relation.ReflTransGen Ledger.Move s.ledger s'.ledger := by
  obtain ⟨acq, rel, lost, hn, hacq, hp, hfr⟩ := hs
  show Relation.ReflTransGen Ledger.Move ⟨holders s, s.freed⟩ ⟨holders s', s'.freed⟩
  rw [hfr]
  refine Ledger.moves_of_bulk hn (fun h hh => ?_) hp
  rcases hacq h hh with hnew | hfree
  · have hm := not_mentioned_of_newIn hf hnew
    exact ⟨fun h' => hm (holders_subset_mentioned s h h'),
      fun h' => hm (freed_subset_mentioned s h h')⟩
  · exact hfree

theorem Shape.of_perm (hp : (holders s).Perm (holders s')) (hfr : s'.freed = s.freed) :
    Shape s s' :=
  ⟨[], [], [], List.nodup_nil, fun _ h => absurd h (List.not_mem_nil _),
    by simpa using hp, by simpa using hfr⟩

/-- A shape checked handle by handle: each handle's owners before, plus those taken,
are its owners after, plus its destructor calls and its lost owners. -/
theorem Shape.of_count (acq rel lost : List Handle) (hn : acq.Nodup)
    (hacq : ∀ h ∈ acq, NewIn s s' h ∨ (h ∉ holders s ∧ h ∉ s.freed))
    (hc : ∀ x, (holders s).count x + acq.count x =
      (holders s').count x + rel.count x + lost.count x)
    (hfr : s'.freed = s.freed ++ rel) : Shape s s' :=
  ⟨acq, rel, lost, hn, hacq, List.perm_iff_count.mpr fun x => by
    have := hc x
    simp only [List.count_append]
    omega, hfr⟩

theorem Shape.refl (s : World) : Shape s s := .of_perm (List.Perm.refl _) rfl

/-- The engine lending a row or taking rows back moves no ownership. -/
theorem Shape.lend {s s₁ : World} (h : Shape s s₁) (n : Nat) (l : Handle) :
    Shape s (s₁.lend n l) := h

theorem Shape.takeBack {s s₁ : World} (h : Shape s s₁) (l : Handle) : Shape s (s₁.takeBack l) := h

/-- A wrapper added to a world that owns what `s` owns: it takes an owner for what it
holds, a handle allocated since `s` or one no one holds and no destructor has seen. -/
theorem Shape.push {s₁ : World} {w : Wrapper} (hh : (holders s₁).Perm (holders s))
    (hfr : s₁.freed = s.freed)
    (hw : ∀ x, w.holds = some x → NewIn s (s₁.push w) x ∨ (x ∉ holders s ∧ x ∉ s.freed)) :
    Shape s (s₁.push w) := by
  refine ⟨w.holds.toList, [], [], ?_, fun x hx => hw x (by simpa using hx), ?_, by simpa⟩
  · cases w.holds <;> simp
  · simpa using List.perm_append_comm.trans
      (((holders_push s₁ w).trans (hh.append_left _))).symm

/-- A wrapper's fields set so that it destroys nothing, after passing what it held to
its destructor. -/
theorem Shape.setObj_destroy {i : Nat} {w w' : Wrapper} (hi : s.objs[i]? = some w)
    (hw' : w'.holds = none) : Shape s ((s.setObj i w').destroy w.holds.toList) := by
  refine ⟨[], w.holds.toList, [], List.nodup_nil, fun _ h => absurd h (List.not_mem_nil _),
    ?_, rfl⟩
  simpa [hw'] using (holders_setObj s hi w').symm

end FlintDB
