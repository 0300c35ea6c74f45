import FlintDB.Ownership.World
import Mathlib.Data.List.Perm.Basic
import Mathlib.Logic.Relation

/-! # The ownership ledger

What the binding's bookkeeping is for, stated apart from the binding: every handle
has at most one owner, a destructor runs only on a handle that has an owner, which
it then loses, and a destroyed handle is never taken again. The ledger keeps the
held handles with multiplicity, so a handle with two owners shows as a duplicate.
-/

namespace FlintDB

/-- The handles currently owned, once per owner, and the handles destroyed. -/
structure Ledger where
  held : List Handle
  freed : List Handle

namespace Ledger

/-- One bookkeeping move. -/
inductive Move : Ledger → Ledger → Prop where
  /-- A handle that no one holds and no destructor has seen gets an owner. -/
  | acquire {held freed held' : List Handle} {h : Handle} : h ∉ held → h ∉ freed →
      held'.Perm (h :: held) → Move ⟨held, freed⟩ ⟨held', freed⟩
  /-- A held handle goes to its destructor and loses its owner. -/
  | release {held freed held' : List Handle} {h : Handle} : held.Perm (h :: held') →
      Move ⟨held, freed⟩ ⟨held', freed ++ [h]⟩
  /-- A held handle loses its owner and is never destroyed. -/
  | abandon {held freed held' : List Handle} {h : Handle} : held.Perm (h :: held') →
      Move ⟨held, freed⟩ ⟨held', freed⟩
  /-- Ownership passes from one owner to another. -/
  | pass {held freed held' : List Handle} : held.Perm held' → Move ⟨held, freed⟩ ⟨held', freed⟩

/-- No handle held twice, none destroyed twice, none both held and destroyed. -/
structure Valid (l : Ledger) : Prop where
  held_nodup : l.held.Nodup
  freed_nodup : l.freed.Nodup
  disjoint : ∀ h ∈ l.freed, h ∉ l.held

theorem Move.valid {l l' : Ledger} (m : Move l l') (hv : Valid l) : Valid l' := by
  cases m with
  | acquire hh hf hp =>
    refine ⟨hp.nodup_iff.mpr (List.nodup_cons.mpr ⟨hh, hv.held_nodup⟩), hv.freed_nodup,
      fun x hx hx' => ?_⟩
    rcases List.mem_cons.mp (hp.mem_iff.mp hx') with rfl | hx'
    · exact hf hx
    · exact hv.disjoint x hx hx'
  | release hp =>
    have hn := hp.nodup_iff.mp hv.held_nodup
    have hh := fun hf => hv.disjoint _ hf (hp.mem_iff.mpr (List.mem_cons_self _ _))
    refine ⟨hn.of_cons, (List.perm_append_singleton _ _).nodup_iff.mpr
      (List.nodup_cons.mpr ⟨hh, hv.freed_nodup⟩), fun x hx hx' => ?_⟩
    · rcases List.mem_append.mp hx with hx | hx
      · exact hv.disjoint x hx (hp.mem_iff.mpr (List.mem_cons_of_mem _ hx'))
      · rw [List.mem_singleton.mp hx] at hx'
        exact (List.nodup_cons.mp hn).1 hx'
  | abandon hp =>
    exact ⟨(hp.nodup_iff.mp hv.held_nodup).of_cons, hv.freed_nodup,
      fun x hx hx' => hv.disjoint x hx (hp.mem_iff.mpr (List.mem_cons_of_mem _ hx'))⟩
  | pass hp =>
    exact ⟨hp.nodup_iff.mp hv.held_nodup, hv.freed_nodup,
      fun x hx hx' => hv.disjoint x hx (hp.mem_iff.mpr hx')⟩

/-- Every ledger reachable by moves from a valid one is valid. -/
theorem valid_of_moves {l l' : Ledger} (h : Relation.ReflTransGen Move l l') (hv : Valid l) :
    Valid l' := by
  induction h with
  | refl => exact hv
  | tail _ m ih => exact m.valid ih

section Bulk

variable {held freed held' : List Handle}

theorem moves_of_perm (hp : held.Perm held') :
    Relation.ReflTransGen Move ⟨held, freed⟩ ⟨held', freed⟩ :=
  .single (.pass hp)

/-- Owners for several handles that no one holds and no destructor has seen. -/
theorem acquire_all : ∀ (hs : List Handle), hs.Nodup → (∀ h ∈ hs, h ∉ held ∧ h ∉ freed) →
    Relation.ReflTransGen Move ⟨held, freed⟩ ⟨hs ++ held, freed⟩
  | [], _, _ => .refl
  | h :: hs, hn, hfresh => by
    have hh := hfresh h (List.mem_cons_self h hs)
    have ih := acquire_all hs hn.of_cons (fun x hx => hfresh x (List.mem_cons_of_mem h hx))
    refine ih.tail (.acquire ?_ hh.2 (List.Perm.refl _))
    rw [List.mem_append, not_or]
    exact ⟨(List.nodup_cons.mp hn).1, hh.1⟩

/-- Several held handles destroyed in order. -/
theorem release_all : ∀ (hs : List Handle) {held freed : List Handle},
    Relation.ReflTransGen Move ⟨hs ++ held, freed⟩ ⟨held, freed ++ hs⟩
  | [], _, _ => by rw [List.append_nil]; exact .refl
  | _ :: hs, _, _ => by
    rw [List.append_cons]
    exact (Relation.ReflTransGen.single (.release (List.Perm.refl _))).trans (release_all hs)

/-- Several held handles dropped without being destroyed. -/
theorem abandon_all : ∀ (hs : List Handle) {held freed : List Handle},
    Relation.ReflTransGen Move ⟨hs ++ held, freed⟩ ⟨held, freed⟩
  | [], _, _ => .refl
  | _ :: hs, _, _ => (Relation.ReflTransGen.single (.abandon (List.Perm.refl _))).trans
      (abandon_all hs)

/-- One call's bookkeeping as moves: owners taken for `acq`, `rel` destroyed, `lost`
dropped, the rest passed between owners. -/
theorem moves_of_bulk {acq rel lost : List Handle} (hn : acq.Nodup)
    (hfresh : ∀ h ∈ acq, h ∉ held ∧ h ∉ freed) (hp : (held ++ acq).Perm (held' ++ rel ++ lost)) :
    Relation.ReflTransGen Move ⟨held, freed⟩ ⟨held', freed ++ rel⟩ := by
  have hp' : (acq ++ held).Perm (rel ++ (lost ++ held')) :=
    List.perm_append_comm.trans (hp.trans (by
      rw [List.append_assoc, ← List.append_assoc rel]; exact List.perm_append_comm))
  exact ((acquire_all acq hn hfresh).trans (moves_of_perm hp')).trans
    ((release_all rel).trans (abandon_all lost))

end Bulk

end Ledger

end FlintDB
