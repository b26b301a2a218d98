import Mathlib.Algebra.GroupWithZero.Nat
import Mathlib.Logic.Relation

/-!
# Executions of a partial step function

A system is given by a partial step function on states and events. This file
runs such a function over a list of events and provides the induction rules
used for invariants: a property kept by every step holds after every run, and
a property kept by the steps that meet a side condition holds after every run
all of whose steps meet it.

## Main definitions

- `exec` — the state after a list of events, if each was enabled
- `Reaches` — some list of events leads from one state to another
- `StepsMeet` — every step of a run meets a condition on its state and event
- `leftBehind` — what the steps of a run leave behind
- `Justified` — every entry of a history has a property over the entries before it
-/

namespace Wafer.Lib

variable {σ ε : Type*}

/-- Fire the events in order; `none` as soon as one is not enabled. -/
def exec (step : σ → ε → Option σ) : σ → List ε → Option σ
  | s, [] => some s
  | s, e :: es => (step s e).bind fun t => exec step t es

/-- Some run leads from `s` to `t`. -/
def Reaches (step : σ → ε → Option σ) (s t : σ) : Prop := ∃ es, exec step s es = some t

/-- Every step of the run from `s` over the events meets `C` in the state it starts from. -/
def StepsMeet (step : σ → ε → Option σ) (C : σ → ε → Prop) : σ → List ε → Prop
  | _, [] => True
  | s, e :: es => C s e ∧ ∀ t, step s e = some t → StepsMeet step C t es

variable {step : σ → ε → Option σ} {s t : σ} {e : ε} {es : List ε}

@[simp] theorem exec_nil : exec step s [] = some s := rfl

theorem exec_cons : exec step s (e :: es) = (step s e).bind fun t => exec step t es := rfl

theorem exec_cons_eq_some (h : exec step s (e :: es) = some t) :
    ∃ u, step s e = some u ∧ exec step u es = some t :=
  Option.bind_eq_some_iff.mp h

theorem exec_append (es fs : List ε) :
    exec step s (es ++ fs) = (exec step s es).bind fun t => exec step t fs := by
  induction es generalizing s with
  | nil => rfl
  | cons e es ih =>
    simp only [List.cons_append, exec_cons, Option.bind_assoc]
    exact congrArg _ (funext fun t => ih)

theorem Reaches.refl : Reaches step s s := ⟨[], rfl⟩

theorem Reaches.tail {u : σ} (h : Reaches step s t) (hs : step t e = some u) :
    Reaches step s u := by
  obtain ⟨es, he⟩ := h
  exact ⟨es ++ [e], by rw [exec_append, he]; simp [exec_cons, hs]⟩

theorem Reaches.trans {u : σ} (h : Reaches step s t) (hu : Reaches step t u) : Reaches step s u := by
  obtain ⟨es, he⟩ := h
  obtain ⟨fs, hf⟩ := hu
  exact ⟨es ++ fs, by rw [exec_append, he]; exact hf⟩

/-- A property kept by every step holds after every run. -/
theorem exec_invariant {P : σ → Prop}
    (hstep : ∀ s e t, P s → step s e = some t → P t)
    (h : exec step s es = some t) (hs : P s) : P t := by
  induction es generalizing s with
  | nil => exact Option.some.inj h ▸ hs
  | cons e es ih =>
    obtain ⟨u, hu, ht⟩ := exec_cons_eq_some h
    exact ih ht (hstep s e u hs hu)

/-- A property kept by the steps meeting `C` holds after every run whose steps meet `C`. -/
theorem exec_invariant_where {P : σ → Prop} {C : σ → ε → Prop}
    (hstep : ∀ s e t, P s → C s e → step s e = some t → P t)
    (h : exec step s es = some t) (hc : StepsMeet step C s es) (hs : P s) : P t := by
  induction es generalizing s with
  | nil => exact Option.some.inj h ▸ hs
  | cons e es ih =>
    obtain ⟨u, hu, ht⟩ := exec_cons_eq_some h
    exact ih ht (hc.2 u hu) (hstep s e u hs hc.1 hu)

theorem StepsMeet.of_forall {C : σ → ε → Prop} (h : ∀ s, ∀ e ∈ es, C s e) :
    StepsMeet step C s es := by
  induction es generalizing s with
  | nil => trivial
  | cons e es ih =>
    exact ⟨h s e (.head es), fun t _ => ih fun s e he => h s e (.tail _ he)⟩

theorem StepsMeet.append {C : σ → ε → Prop} {fs : List ε} (h : StepsMeet step C s es)
    (hf : ∀ t, exec step s es = some t → StepsMeet step C t fs) : StepsMeet step C s (es ++ fs) := by
  induction es generalizing s with
  | nil => exact hf s rfl
  | cons e es ih =>
    refine ⟨h.1, fun t ht => ih (h.2 t ht) fun u hu => hf u ?_⟩
    rw [exec_cons, ht]
    exact hu

/-- If every step into a good state starts in a good state and meets `C`, a run into a good state
meets `C` all along. -/
theorem StepsMeet.of_final {I G : σ → Prop} {C : σ → ε → Prop}
    (hinv : ∀ s e t, I s → step s e = some t → I t)
    (hback : ∀ s e t, I s → step s e = some t → G t → G s ∧ C s e)
    (h : exec step s es = some t) (hs : I s) (ht : G t) : G s ∧ StepsMeet step C s es := by
  induction es generalizing s with
  | nil => exact ⟨Option.some.inj h ▸ ht, trivial⟩
  | cons e es ih =>
    obtain ⟨u, hu, hut⟩ := exec_cons_eq_some h
    obtain ⟨hg, hm⟩ := ih hut (hinv s e u hs hu)
    obtain ⟨hgs, hc⟩ := hback s e u hs hu hg
    refine ⟨hgs, hc, ?_⟩
    intro v hv
    rwa [← Option.some.inj (hu.symm.trans hv)]

/-- Either all steps of a run meet `C`, or the run has a step that does not. -/
theorem StepsMeet.or_violated (C : σ → ε → Prop) (h : exec step s es = some t) :
    StepsMeet step C s es ∨ ∃ done e later u v, es = done ++ e :: later ∧
      exec step s done = some u ∧ step u e = some v ∧ ¬ C u e ∧ exec step v later = some t := by
  induction es generalizing s with
  | nil => exact .inl trivial
  | cons e es ih =>
    obtain ⟨w, hw, hwt⟩ := exec_cons_eq_some h
    by_cases hc : C s e
    · rcases ih hwt with hmeet | ⟨done, e', later, u, v, rfl, hdone, huv, hn, hlater⟩
      · left
        refine ⟨hc, fun x hx => ?_⟩
        rwa [← Option.some.inj (hw.symm.trans hx)]
      · right
        refine ⟨e :: done, e', later, u, v, rfl, ?_, huv, hn, hlater⟩
        rw [exec_cons, hw]
        exact hdone
    · exact .inr ⟨[], e, es, s, w, rfl, rfl, hw, hc, hwt⟩

/-- Where the steps meeting `C` keep `I`, and under `I` a step leads to `G` exactly when it meets `C`,
the steps of a run all meet `C` exactly when `G` holds all along. -/
theorem StepsMeet.iff_always {I G : σ → Prop} {C : σ → ε → Prop}
    (hinv : ∀ s e t, I s → C s e → step s e = some t → I t)
    (hiff : ∀ s e t, I s → step s e = some t → (G t ↔ C s e))
    (h : exec step s es = some t) (hs : I s) (hg : G s) :
    StepsMeet step C s es ↔
      ∀ done later u, es = done ++ later → exec step s done = some u → G u := by
  induction es generalizing s with
  | nil =>
    refine ⟨fun _ done later u he hu => ?_, fun _ => trivial⟩
    obtain ⟨rfl, -⟩ := List.append_eq_nil_iff.mp he.symm
    rwa [← Option.some.inj hu]
  | cons e es ih =>
    obtain ⟨v, hv, hvt⟩ := exec_cons_eq_some h
    have hiffv := hiff s e v hs hv
    constructor
    · rintro ⟨hc, hrest⟩ done later u he hu
      cases done with
      | nil => rwa [← Option.some.inj hu]
      | cons d done =>
        obtain ⟨rfl, hes⟩ := List.cons.inj he
        rw [exec_cons, hv] at hu
        exact (ih hvt (hinv s e v hs hc hv) (hiffv.mpr hc)).mp (hrest v hv) done later u hes hu
    · intro hall
      have hgv : G v := hall [e] es v rfl (by rw [exec_cons, hv]; rfl)
      have hc : C s e := hiffv.mp hgv
      refine ⟨hc, fun w hw => ?_⟩
      obtain rfl := Option.some.inj (hv.symm.trans hw)
      refine (ih hvt (hinv s e v hs hc hv) hgv).mpr fun done later u he hu => ?_
      exact hall (e :: done) later u (by rw [he, List.cons_append]) (by rw [exec_cons, hv]; exact hu)

theorem Reaches.invariant {P : σ → Prop}
    (hstep : ∀ s e t, P s → step s e = some t → P t)
    (h : Reaches step s t) (hs : P s) : P t :=
  exec_invariant hstep h.choose_spec hs

/-- Induction over a run with the events fired so far. -/
theorem exec_induction {P : List ε → σ → Prop} (h0 : P [] s)
    (hstep : ∀ done u e v, P done u → step u e = some v → P (done ++ [e]) v)
    (h : exec step s es = some t) : P es t := by
  suffices hd : ∀ done s, P done s → exec step s es = some t → P (done ++ es) t from
    hd [] s h0 h
  clear h
  intro done s hs h
  induction es generalizing done s with
  | nil => rwa [List.append_nil, ← Option.some.inj h]
  | cons e es ih =>
    obtain ⟨u, hu, ht⟩ := exec_cons_eq_some h
    rw [List.append_cons]
    exact ih (done ++ [e]) u (hstep done s e u hs hu) ht

/-- A transition-indexed relation that is reflexive and absorbs single steps holds along runs. -/
theorem exec_relation {R : σ → σ → Prop} (hrefl : ∀ s, R s s)
    (htrans : ∀ s t u, R s t → R t u → R s u)
    (hstep : ∀ s e t, step s e = some t → R s t)
    (h : exec step s es = some t) : R s t := by
  induction es generalizing s with
  | nil => exact Option.some.inj h ▸ hrefl s
  | cons e es ih =>
    obtain ⟨u, hu, ht⟩ := exec_cons_eq_some h
    exact htrans s u t (hstep s e u hu) (ih ht)

/-- A run into `P` has a first step into it. -/
theorem exec_first {P : σ → Prop} (h : exec step s es = some t) (hs : ¬ P s) (ht : P t) :
    ∃ done e later u v, es = done ++ e :: later ∧ exec step s done = some u ∧
      step u e = some v ∧ ¬ P u ∧ P v ∧ exec step v later = some t := by
  induction es generalizing s with
  | nil => exact absurd (Option.some.inj h ▸ ht) hs
  | cons e es ih =>
    obtain ⟨w, hw, hwt⟩ := exec_cons_eq_some h
    by_cases hp : P w
    · exact ⟨[], e, es, s, w, rfl, rfl, hw, hs, hp, hwt⟩
    · obtain ⟨done, e', later, u, v, rfl, hdone, huv, hu, hv, hlater⟩ := ih hwt hp
      refine ⟨e :: done, e', later, u, v, rfl, ?_, huv, hu, hv, hlater⟩
      rw [exec_cons, hw]
      exact hdone

/-- A list that each step extends by what its event adds collects what the events add. -/
theorem exec_collects {α : Type*} {f : σ → List α} {g : ε → List α}
    (hstep : ∀ s e t, step s e = some t → f t = f s ++ g e) (h : exec step s es = some t) :
    f t = f s ++ es.flatMap g := by
  induction es generalizing s with
  | nil => rw [Option.some.inj h, List.flatMap_nil, List.append_nil]
  | cons e es ih =>
    obtain ⟨u, hu, ht⟩ := exec_cons_eq_some h
    rw [ih ht, hstep s e u hu, List.flatMap_cons, List.append_assoc]

/-- What the steps of a run leave behind, oldest first; `obs` reads it off a step. -/
def leftBehind {α : Type*} (step : σ → ε → Option σ) (obs : σ → ε → List α) : σ → List ε → List α
  | _, [] => []
  | s, e :: es => obs s e ++ ((step s e).elim [] fun t => leftBehind step obs t es)

/-- Induction over a run with what it has left behind so far. -/
theorem exec_leftBehind {α : Type*} {obs : σ → ε → List α} {P : List α → σ → Prop} (h0 : P [] s)
    (hstep : ∀ log u e v, P log u → step u e = some v → P (log ++ obs u e) v)
    (h : exec step s es = some t) : P (leftBehind step obs s es) t := by
  suffices hd : ∀ log s, P log s → exec step s es = some t → P (log ++ leftBehind step obs s es) t by
    simpa only [List.nil_append] using hd [] s h0 h
  clear h h0
  intro log s hs h
  induction es generalizing log s with
  | nil => rwa [leftBehind, List.append_nil, ← Option.some.inj h]
  | cons e es ih =>
    obtain ⟨u, hu, ht⟩ := exec_cons_eq_some h
    simp only [leftBehind, hu, Option.elim_some, ← List.append_assoc]
    exact ih _ u (hstep log s e u hs hu) ht

section measure

variable {P Q : σ → Prop} {own : ε → Bool} {μ : σ → Nat}

/-- Where every step of its own uses up some of the measure and the others add at most their gain, a
run has no more steps of its own than what was there and what was added. -/
theorem exec_countP_le_sum (gain : ε → Nat) (hinv : ∀ s e t, P s → step s e = some t → P t)
    (hpay : ∀ s e t, P s → step s e = some t → (if own e = true then 1 else 0) + μ t ≤ μ s + gain e)
    (h : exec step s es = some t) (hs : P s) :
    es.countP own + μ t ≤ μ s + (es.map gain).sum := by
  induction es generalizing s with
  | nil =>
    obtain rfl := Option.some.inj h
    simp
  | cons e es ih =>
    obtain ⟨u, hu, ht⟩ := exec_cons_eq_some h
    have hle := ih ht (hinv s e u hs hu)
    have hstep := hpay s e u hs hu
    rw [List.countP_cons, List.map_cons, List.sum_cons]
    omega

theorem sum_map_ite (p : ε → Bool) (c : Nat) (es : List ε) :
    (es.map fun e => if p e = true then c else 0).sum = c * es.countP p := by
  induction es with
  | nil => rfl
  | cons e es ih =>
    rw [List.map_cons, List.sum_cons, ih, List.countP_cons, Nat.mul_add, Nat.add_comm]
    split <;> simp

/-- A run has no more steps of its own than the measure they use up. -/
theorem exec_countP_le (hinv : ∀ s e t, P s → step s e = some t → P t)
    (hown : ∀ s e t, P s → step s e = some t → own e = true → μ t < μ s)
    (hrest : ∀ s e t, P s → step s e = some t → own e = false → μ t ≤ μ s)
    (h : exec step s es = some t) (hs : P s) : es.countP own + μ t ≤ μ s := by
  suffices hpay : ∀ s e t, P s → step s e = some t → (if own e = true then 1 else 0) + μ t ≤ μ s by
    have hle := exec_countP_le_sum (fun _ => 0) hinv hpay h hs
    rwa [List.map_const', List.sum_replicate_nat, Nat.mul_zero, Nat.add_zero] at hle
  intro s e t hp ht
  cases ho : own e with
  | true =>
    have hlt := hown s e t hp ht ho
    simp only [if_true]
    omega
  | false =>
    have hle := hrest s e t hp ht ho
    simp only [Bool.false_eq_true, if_false]
    omega

/-- Where the measure can always be made smaller short of `Q`, some run leads to `Q`. -/
theorem exec_reaches {C : ε → Prop}
    (hgo : ∀ s, P s → ¬ Q s → ∃ es t, exec step s es = some t ∧ (∀ e ∈ es, C e) ∧ P t ∧ μ t < μ s)
    (hs : P s) : ∃ es t, exec step s es = some t ∧ (∀ e ∈ es, C e) ∧ Q t := by
  induction hn : μ s using Nat.strongRecOn generalizing s with
  | ind n ih =>
    by_cases hq : Q s
    · exact ⟨[], s, rfl, List.forall_mem_nil _, hq⟩
    · obtain ⟨es, t, h, hc, ht, hlt⟩ := hgo s hs hq
      obtain ⟨fs, u, h', hc', hu⟩ := ih (μ t) (hn ▸ hlt) ht rfl
      refine ⟨es ++ fs, u, ?_, List.forall_mem_append.mpr ⟨hc, hc'⟩, hu⟩
      rw [exec_append, h]
      exact h'

end measure

/-- Every entry of a newest-first history has `P` over the entries before it. -/
def Justified {α : Type*} (P : α → List α → Prop) : List α → Prop
  | [] => True
  | a :: before => P a before ∧ Justified P before

theorem Justified.of_append {α : Type*} {P : α → List α → Prop} {later before : List α} {a : α}
    (h : Justified P (later ++ a :: before)) : P a before := by
  induction later with
  | nil => exact h.1
  | cons _ later ih => exact ih h.2

end Wafer.Lib
