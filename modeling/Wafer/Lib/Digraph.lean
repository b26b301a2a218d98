import Mathlib.Data.List.Nodup
import Mathlib.Data.Set.Finite.Basic
import Mathlib.Logic.Relation
import Mathlib.Order.WellFounded

/-!
# Finite acyclic relations

A relation with finitely many related elements and no cycle is well-founded in
both directions, so every element lies on a path from one without predecessor
to one without successor. An order in which every edge goes forward exists
exactly for these relations; `topoSort` computes one.

## Main definitions

- `Acyclic`, `Forward`
- `topoSort` — take a vertex without predecessor among those left, as long as there is one
-/

namespace Wafer.Lib

open Relation

variable {α : Type*}

def Acyclic (r : α → α → Prop) : Prop := ∀ x, ¬ TransGen r x x

namespace Acyclic

variable {r : α → α → Prop}

theorem swap (h : Acyclic r) : Acyclic (Function.swap r) :=
  fun x hx => h x (transGen_swap.mp hx)

/-- A relation whose edges raise a rank has no cycle. -/
theorem of_rank {f : α → ℕ} (h : ∀ a b, r a b → f a < f b) : Acyclic r := by
  have hlt : ∀ {a b}, TransGen r a b → f a < f b := by
    intro a b hab
    induction hab with
    | single hr => exact h _ _ hr
    | tail _ hr ih => exact ih.trans (h _ _ hr)
  exact fun x hx => lt_irrefl _ (hlt hx)

theorem wellFounded (h : Acyclic r) {s : Set α} (hs : s.Finite)
    (hr : ∀ a b, r a b → a ∈ s ∧ b ∈ s) : WellFounded r := by
  have : Finite s := hs
  let q : s → s → Prop := fun a b => r a b
  have hq : ∀ x, ¬ TransGen q x x := fun x hx =>
    h x (TransGen.lift Subtype.val (fun _ _ hab => hab) _ _ hx)
  have : IsTrans s (TransGen q) := inferInstance
  have : Std.Irrefl (TransGen q) := ⟨hq⟩
  have hwf : WellFounded q :=
    Subrelation.wf (fun hab => TransGen.single hab)
      (Finite.wellFounded_of_trans_of_irrefl (TransGen q))
  have hacc : ∀ x : s, Acc r x := fun x =>
    hwf.induction (C := fun x : s => Acc r x) x fun x ih =>
      ⟨_, fun y hy => ih ⟨y, (hr _ _ hy).1⟩ hy⟩
  -- outside `s` nothing has a predecessor
  exact ⟨fun x => ⟨_, fun y hy => hacc ⟨y, (hr _ _ hy).1⟩⟩⟩

/-- Every element is reached from one without predecessor. -/
theorem exists_root (h : Acyclic r) {s : Set α} (hs : s.Finite)
    (hr : ∀ a b, r a b → a ∈ s ∧ b ∈ s) (x : α) :
    ∃ y, ReflTransGen r y x ∧ ∀ z, ¬ r z y := by
  induction x using (h.wellFounded hs hr).induction with
  | _ x ih =>
    by_cases hx : ∃ z, r z x
    · obtain ⟨z, hz⟩ := hx
      obtain ⟨y, hy, hroot⟩ := ih z hz
      exact ⟨y, hy.tail hz, hroot⟩
    · exact ⟨x, .refl, not_exists.mp hx⟩

/-- Every element reaches one without successor. -/
theorem exists_leaf (h : Acyclic r) {s : Set α} (hs : s.Finite)
    (hr : ∀ a b, r a b → a ∈ s ∧ b ∈ s) (x : α) :
    ∃ y, ReflTransGen r x y ∧ ∀ z, ¬ r y z := by
  obtain ⟨y, hy, hleaf⟩ := h.swap.exists_root hs (fun a b hab => (hr b a hab).symm) x
  exact ⟨y, reflTransGen_swap.mp hy, hleaf⟩

/-- Where a starved node that is live has a live predecessor, and a blocked one that is not starved
has a live successor that is not starved either, some live node is neither starved nor blocked. -/
theorem exists_ready (h : Acyclic r) {s : Set α} (hs : s.Finite)
    (hr : ∀ a b, r a b → a ∈ s ∧ b ∈ s) (live starved blocked : α → Prop)
    (hstarved : ∀ x, live x → starved x → ∃ y, r y x ∧ live y)
    (hblocked : ∀ x, live x → ¬ starved x → blocked x → ∃ y, r x y ∧ live y ∧ ¬ starved y)
    {x : α} (hx : live x) : ∃ y, live y ∧ ¬ starved y ∧ ¬ blocked y := by
  obtain ⟨y, hy, hfed⟩ : ∃ y, live y ∧ ¬ starved y := by
    induction x using (h.wellFounded hs hr).induction with
    | _ x ih =>
      by_cases hst : starved x
      · obtain ⟨y, hyx, hy⟩ := hstarved x hx hst
        exact ih y hyx hy
      · exact ⟨x, hx, hst⟩
  have hwf := h.swap.wellFounded hs fun a b hab => (hr b a hab).symm
  induction y using hwf.induction with
  | _ y ih =>
    by_cases hb : blocked y
    · obtain ⟨z, hyz, hz, hzfed⟩ := hblocked y hy hfed hb
      exact ih z hyz hz hzfed
    · exact ⟨y, hy, hfed, hb⟩

/-- Where what is wanted at a point only depends on the values at its successors, some function has
it everywhere. -/
theorem exists_solution {β : Type*} [Nonempty β] (h : Acyclic r) {s : Set α} (hs : s.Finite)
    (hr : ∀ a b, r a b → a ∈ s ∧ b ∈ s) {f : α → (α → β) → β}
    (hf : ∀ x g g', (∀ y, r x y → g y = g' y) → f x g = f x g') :
    ∃ g : α → β, ∀ x, g x = f x g := by
  classical
  have hwf := h.swap.wellFounded hs fun a b hab => (hr b a hab).symm
  let next (x : α) (g : ∀ y, r x y → β) : β :=
    f x fun y => if hxy : r x y then g y hxy else Classical.arbitrary β
  refine ⟨hwf.fix next, fun x => ?_⟩
  rw [hwf.fix_eq]
  exact hf _ _ _ fun y hxy => dif_pos hxy

end Acyclic

/-! ## Topological orders -/

/-- The edges go forward in the order. -/
def Forward [DecidableEq α] (r : α → α → Prop) (order : List α) : Prop :=
  ∀ a b, r a b → order.idxOf a < order.idxOf b

/-- The position of an image is that of its only preimage. -/
theorem idxOf_map {β : Type*} [DecidableEq α] [DecidableEq β] {f : α → β} {x : α} {l : List α}
    (h : ∀ y ∈ l, f y = f x → y = x) : (l.map f).idxOf (f x) = l.idxOf x := by
  induction l with
  | nil => rfl
  | cons y l ih =>
    have hl := ih fun z hz => h z (List.mem_cons_of_mem _ hz)
    by_cases hy : y = x
    · subst hy
      simp
    · have hne : f y ≠ f x := fun he => hy (h y List.mem_cons_self he)
      simp [hy, hne, hl]

theorem Forward.acyclic [DecidableEq α] {r : α → α → Prop} {order : List α}
    (h : Forward r order) : Acyclic r :=
  .of_rank h

/-- Take a vertex that no vertex left has an edge to, until none is left; `none` if there is no such
vertex. -/
def topoSort [DecidableEq α] (edge : α → α → Bool) : ℕ → List α → Option (List α)
  | 0, vertices => if vertices = [] then some [] else none
  | fuel + 1, vertices =>
    match vertices.find? fun b => vertices.all fun a => !edge a b with
    | some b => (topoSort edge fuel (vertices.erase b)).map (b :: ·)
    | none => if vertices = [] then some [] else none

section TopoSort

variable [DecidableEq α] {edge : α → α → Bool} {vertices order : List α} {fuel : ℕ}

theorem topoSort_some (h : topoSort edge fuel vertices = some order) :
    order.Perm vertices ∧ order.Pairwise (fun a b => edge b a = false) ∧
      ∀ a ∈ order, edge a a = false := by
  induction fuel generalizing vertices order with
  | zero =>
    simp only [topoSort] at h
    split at h
    · next hv =>
      obtain rfl := Option.some.inj h
      subst hv
      exact ⟨.refl _, .nil, nofun⟩
    · cases h
  | succ fuel ih =>
    simp only [topoSort] at h
    split at h
    · next b hb =>
      obtain ⟨rest, hrest, rfl⟩ := Option.map_eq_some_iff.mp h
      obtain ⟨hp, hw, hself⟩ := ih hrest
      have hmem : b ∈ vertices := List.mem_of_find?_eq_some hb
      have hfree : ∀ a ∈ vertices, edge a b = false := by
        simpa using List.find?_some hb
      refine ⟨(hp.cons b).trans (List.perm_cons_erase hmem).symm, ?_, ?_⟩
      · refine .cons (fun a ha => hfree a ?_) hw
        exact List.mem_of_mem_erase (hp.mem_iff.mp ha)
      · intro a ha
        rcases List.mem_cons.mp ha with rfl | ha
        · exact hfree a hmem
        · exact hself a ha
    · split at h
      · next hv =>
        obtain rfl := Option.some.inj h
        subst hv
        exact ⟨.refl _, .nil, nofun⟩
      · cases h

/-- The edges between the vertices go forward in the order found. -/
theorem topoSort_forward (h : topoSort edge fuel vertices = some order)
    {a b : α} (ha : a ∈ vertices) (hb : b ∈ vertices) (he : edge a b = true) :
    order.idxOf a < order.idxOf b := by
  obtain ⟨hp, hw, hself⟩ := topoSort_some h
  have ha' := hp.mem_iff.mpr ha
  have hb' := hp.mem_iff.mpr hb
  by_contra hle
  rcases Nat.lt_or_eq_of_le (Nat.le_of_not_lt hle) with hlt | heq
  · have hpw := List.pairwise_iff_getElem.mp hw (order.idxOf b) (order.idxOf a)
      (List.idxOf_lt_length_of_mem hb') (List.idxOf_lt_length_of_mem ha') hlt
    rw [List.getElem_idxOf, List.getElem_idxOf, he] at hpw
    cases hpw
  · obtain rfl := (List.idxOf_inj hb').mp heq
    rw [hself b hb'] at he
    cases he

/-- Without an order there is a cycle. -/
theorem topoSort_none (h : topoSort edge fuel vertices = none) (hf : vertices.length ≤ fuel) :
    ¬ Acyclic fun a b => a ∈ vertices ∧ b ∈ vertices ∧ edge a b = true := by
  induction fuel generalizing vertices with
  | zero =>
    obtain rfl := List.length_eq_zero_iff.mp (Nat.le_zero.mp hf)
    cases h
  | succ fuel ih =>
    intro hac
    simp only [topoSort] at h
    split at h
    · next b hb =>
      have hmem : b ∈ vertices := List.mem_of_find?_eq_some hb
      refine ih (Option.map_eq_none_iff.mp h) ?_ fun x hx => hac x ?_
      · rw [List.length_erase_of_mem hmem]
        omega
      · exact TransGen.mono (fun a b hab =>
          ⟨List.mem_of_mem_erase hab.1, List.mem_of_mem_erase hab.2.1, hab.2.2⟩) _ _ hx
    · next hnone =>
      split at h
      · cases h
      · next hv =>
        obtain ⟨x, hx⟩ := List.exists_mem_of_ne_nil vertices hv
        obtain ⟨y, hy, hroot⟩ := hac.exists_root vertices.finite_toSet
          (fun a b hab => ⟨hab.1, hab.2.1⟩) x
        have hym : y ∈ vertices := by
          rcases hy.cases_head with rfl | ⟨z, hz, -⟩
          · exact hx
          · exact hz.1
        have hnot := List.find?_eq_none.mp hnone y hym
        simp only [List.all_eq_true, Bool.not_eq_true', not_forall] at hnot
        obtain ⟨a, ha, he⟩ := hnot
        exact hroot a ⟨ha, hym, by simpa using he⟩

end TopoSort

end Wafer.Lib
