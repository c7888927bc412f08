import DottedLisp.Proofs.Simulation.Evaluator

/-!
# The moments of a run

An evaluation gives an outcome and keeps to itself how it came to it. What happens on the way is
nevertheless determined, because evaluation is a step over an evaluator for what is nested: an
evaluation **comes to a moment** if its outcome depends on what the nested evaluation that begins at
that moment gives (`Moment.ComesTo`). Nothing is recorded for this and no evaluator is written a
second time; the evaluator that runs is asked what it would do if one nested evaluation went
otherwise.

Main statement: a discipline holds not only at the end of an evaluation but at every moment that it
comes to (`Discipline.admits_of_comesTo`). If it did not hold there, a change of what is given there
would go unnoticed, since the laws of a discipline do not speak of it.
-/

namespace DottedLisp

/-- What a function of functions gives at `f` depends on the value of `f` at `x`. -/
def DependsAt {ι β γ : Type} (run : (ι → β) → γ) (f : ι → β) (x : ι) : Prop :=
  ∃ f' : ι → β, (∀ y, y ≠ x → f' y = f y) ∧ run f' ≠ run f

/-- The beginning of an evaluation. -/
structure Moment where
  /-- What is evaluated. -/
  form : Form
  /-- Where it is evaluated. -/
  context : Context
  /-- What it is evaluated for. -/
  position : Position
  /-- The world at that moment. -/
  world : World
  deriving DecidableEq

namespace Moment

/-- What the evaluation that begins at a moment ends in. -/
def outcome (e : Evaluator) (m : Moment) : EStateM.Result Failure World Value :=
  e m.form m.context m.position m.world

/-- The world that the evaluation that begins at a moment leaves, whether it succeeds or fails. -/
def after (e : Evaluator) (m : Moment) : World :=
  match m.outcome e with
  | .ok _ u | .error _ u => u

/-- The evaluator that ends in given outcomes. -/
def evaluator (outcomes : Moment → EStateM.Result Failure World Value) : Evaluator :=
  fun form c position w ↦ outcomes ⟨form, c, position, w⟩

/-- A run that evaluates nested forms by `e` comes to a moment. -/
def ComesTo {γ : Type} (run : Evaluator → γ) (e : Evaluator) (m : Moment) : Prop :=
  DependsAt (fun outcomes ↦ run (evaluator outcomes)) (outcome e) m

/-- A step from one moment comes to another. -/
def LeadsTo (setting : Setting) (e : Evaluator) (m m' : Moment) : Prop :=
  ComesTo (fun e ↦ outcome (Evaluation.step setting e) m) e m'

variable {γ δ : Type} {e : Evaluator} {m : Moment}

/-- A run that is the same for all evaluators comes to no moment. -/
theorem not_comesTo_of_eq {run : Evaluator → γ} {a : γ} (h : ∀ e, run e = a) :
    ¬ ComesTo run e m := by
  rintro ⟨outcomes, -, hne⟩
  exact hne ((h _).trans (h _).symm)

/-- If only the outcome of a part matters for a run, the run comes to what the part comes to. -/
theorem ComesTo.of_part {run : Evaluator → γ} {part : Evaluator → δ} (h : ComesTo run e m)
    (hpart : ∀ {e e'}, part e = part e' → run e = run e') : ComesTo part e m := by
  obtain ⟨outcomes, hagree, hne⟩ := h
  exact ⟨outcomes, hagree, fun heq ↦ hne (hpart heq)⟩

/-- It is enough that a failure at the moment would be noticed. -/
theorem comesTo_of_failure {run : Evaluator → γ} (f : Failure)
    (h : run (evaluator fun m' ↦ if m' = m then .error f m.world else m'.outcome e) ≠ run e) :
    ComesTo run e m :=
  ⟨_, fun _ hne ↦ if_neg hne, h⟩

section Sequencing

variable {α β : Type} {w : World}

/-- What is done first without an evaluator gives an answer, and the rest comes to the moment. -/
theorem ComesTo.of_bind {first : Evaluation α} {rest : Evaluator → α → Evaluation β}
    (h : ComesTo (fun e ↦ (first >>= rest e) w) e m) :
    ∃ a u, first w = .ok a u ∧ ComesTo (fun e ↦ rest e a u) e m := by
  rcases hfirst : first w with ⟨a, u⟩ | ⟨f, u⟩
  · refine ⟨a, u, rfl, ?_⟩
    have hrest : ∀ e, (first >>= rest e) w = rest e a u := fun e ↦ Evaluation.bind_of_ok hfirst
    simpa only [hrest] using h
  · exact absurd h (not_comesTo_of_eq fun e ↦ Evaluation.bind_of_error hfirst)

/-- What is done last without an evaluator comes to nothing. -/
theorem ComesTo.of_bind_left {first : Evaluator → Evaluation α} {rest : α → Evaluation β}
    (h : ComesTo (fun e ↦ (first e >>= rest) w) e m) : ComesTo (fun e ↦ first e w) e m :=
  h.of_part Evaluation.bind_of_eq

end Sequencing

end Moment

namespace Discipline

open Evaluation Moment

variable {setting : Setting} {D : Discipline setting} {α : Type} {w : World}

/-- What goes along with itself gives the same outcome. -/
theorem eq_of_follows {k k' : Evaluation α} {t : α → α} {P : World → α → Prop}
    (ht : ∀ a, t a = a) (h : D.self.Follows w w k k' t P) : k' w = k w := by
  unfold Simulation.Follows at h
  split at h
  · rename_i a u hk
    obtain ⟨-, -, -, u', hk', hu, -⟩ := h
    rw [hk, hk', ht, hu]
  · rename_i f u hk
    obtain ⟨-, -, -, hfalse | ⟨u', hk', hu⟩⟩ := h
    · exact hfalse.elim
    · rw [hk, hk', show u' = u from hu]

/-- What a discipline says about the outcome of the evaluation that begins at a moment. -/
theorem ends_outcome (D : Discipline setting) (depth : Nat) {m : Moment} (hw : D.world m.world)
    (hc : D.context m.world m.context) (hform : D.form m.context m.position m.form) :
    D.Ends m.world (D.result m.position) (m.outcome (evaluate setting depth)) :=
  ends_of_follows (D.evaluates depth ⟨rfl, hw⟩ hc hform)

/-- What it says about the world that is left, answered or not. -/
theorem ends_after (D : Discipline setting) (depth : Nat) {m : Moment} (hw : D.world m.world)
    (hc : D.context m.world m.context) (hform : D.form m.context m.position m.form) :
    D.failed (m.after (evaluate setting depth)) ∧
      D.later m.world (m.after (evaluate setting depth)) := by
  have hends := D.ends_outcome depth hw hc hform
  unfold Moment.after
  rcases hm : m.outcome (evaluate setting depth) with ⟨v, u⟩ | ⟨f, u⟩
  · rw [hm] at hends
    exact ⟨D.failed_of_world hends.1, hends.2.1⟩
  · rw [hm] at hends
    exact ⟨hends.1, hends.2.1⟩

/-- **A discipline holds at every moment of a run** that notices its nested evaluations only where
the discipline holds. -/
theorem admits_of_comesTo {γ : Type} {run : Evaluator → γ} {e : Evaluator}
    (he : D.self.Evaluates e e)
    (hrun : ∀ e', D.self.Evaluates e e' → run e' = run e) {m : Moment} (h : ComesTo run e m) :
    D.world m.world ∧ D.context m.world m.context ∧ D.form m.context m.position m.form := by
  obtain ⟨outcomes, hagree, hne⟩ := h
  refine Classical.byContradiction fun hnot ↦ hne ?_
  refine hrun (evaluator outcomes) ?_
  intro form c position w w' hrelated hc hform
  obtain ⟨rfl, hw⟩ : w' = w ∧ D.world w := hrelated
  have hother : (⟨form, c, position, w'⟩ : Moment) ≠ m := by
    rintro rfl
    exact hnot ⟨hw, hc, hform⟩
  exact (he ⟨rfl, hw⟩ hc hform).congr rfl (congrFun rfl _ |>.trans (hagree _ hother))

/-- A step from a moment at which the discipline holds leads to such moments only. -/
theorem admits_of_leadsTo {depth : Nat} {m m' : Moment} (hw : D.world m.world)
    (hc : D.context m.world m.context) (hform : D.form m.context m.position m.form)
    (h : m.LeadsTo setting (evaluate setting depth) m') :
    D.world m'.world ∧ D.context m'.world m'.context ∧
      D.form m'.context m'.position m'.form := by
  refine admits_of_comesTo (D.evaluates depth) (fun e' he ↦ ?_) h
  have hcalls : D.self.Calls (evaluate setting depth) e' := by
    intro operator f arguments w w' hrelated hf harguments
    exact Simulation.follows_apply_function he hrelated f.stamp rfl hf harguments
  exact eq_of_follows Value.translate_id (Simulation.evaluates_step he hcalls ⟨rfl, hw⟩ hc hform)

/-- Running forms at the top level of a namespace comes to such moments only. -/
theorem admits_of_runForms {depth : Nat} {id : NamespaceId} {forms : List Form} {m : Moment}
    (hw : D.world w) (hc : D.context w (.top id))
    (hforms : ∀ form ∈ forms, D.form (.top id) .value form)
    (h : ComesTo (fun e ↦ runForms e id forms w) (evaluate setting depth) m) :
    D.world m.world ∧ D.context m.world m.context ∧ D.form m.context m.position m.form := by
  refine admits_of_comesTo (D.evaluates depth) (fun e' he ↦ ?_) h
  exact eq_of_follows (fun _ ↦ rfl) (Simulation.follows_runForms he ⟨rfl, hw⟩ hc hforms)

end Discipline

end DottedLisp
