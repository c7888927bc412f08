import DottedLisp.Proofs.CheckDepth
import DottedLisp.Proofs.Session

/-!
# Limits only cut

How deep evaluations and the placement check nest is limited. A limit can stop an evaluation; it
should not be able to **change** one. What stands against this is everything that handles failures
on the way: a failed load takes the registry and the loaded modules back, and a run that went on
after a failure would go on in another world if the failure had not happened.

`Evaluation.Cuts` compares an evaluation with one that may go further: from the same world they end
in the same outcome, with the same answer or failure and in the same world, unless the first is
stopped by a limit that the second one spares. It is kept by sequencing. For nested evaluation it is
a simulation in which both runs are in the same world all the time (`Allowance.along`), and one pass
over the evaluator has been made for all simulations.

Main statement: `Interpreter.limits_only_cut`, for every form in every context and for every
request.
-/

namespace DottedLisp

namespace Limits

/-- The second limits allow as much as the first, or more. -/
structure Within (limits limits' : Limits) : Prop where
  depth_le : limits.depth ≤ limits'.depth
  checkDepth_le : limits.checkDepth ≤ limits'.checkDepth
  steps_le : limits.steps ≤ limits'.steps

theorem Within.refl (limits : Limits) : limits.Within limits :=
  ⟨Nat.le_refl _, Nat.le_refl _, Nat.le_refl _⟩

/-- The failures that the second limits may spare: exceeded depth, and an exceeded number of steps
if it is not the same number. -/
def Spares (limits limits' : Limits) (f : Failure) : Prop :=
  f = .depthExceeded ∨ f = .stepsExceeded ∧ limits'.steps ≠ limits.steps

end Limits

namespace Evaluation

variable {α β : Type} {limits limits' : Limits}

/-- From every world the second evaluation has the same outcome as the first, unless the first one
ends in a failure that the second limits may spare. -/
def Cuts (limits limits' : Limits) (m m' : Evaluation α) : Prop :=
  ∀ w, (∃ f u, m w = .error f u ∧ limits.Spares limits' f) ∨ m' w = m w

theorem Cuts.refl (m : Evaluation α) : Cuts limits limits' m m := fun _ ↦ Or.inr rfl

/-- **What is cut in its parts is cut as a whole**: no later part is run after a failure. -/
theorem Cuts.bind {m m' : Evaluation α} {k k' : α → Evaluation β} (hm : Cuts limits limits' m m')
    (hk : ∀ a, Cuts limits limits' (k a) (k' a)) :
    Cuts limits limits' (m >>= k) (m' >>= k') := by
  intro w
  rcases hm w with ⟨f, u, hw, hf⟩ | hw
  · exact Or.inl ⟨f, u, bind_of_error hw, hf⟩
  · rcases hfirst : m w with ⟨a, u⟩ | ⟨f, u⟩
    · rw [bind_of_ok hfirst, bind_of_ok (hw.trans hfirst)]
      exact hk a u
    · rw [bind_of_error hfirst, bind_of_error (hw.trans hfirst)]
      exact Or.inr rfl

/-- Checking a form is cut by the limit of the check and not changed otherwise. -/
theorem cuts_check (hle : limits.checkDepth ≤ limits'.checkDepth) (form : Form) :
    Cuts limits limits' (ofExcept (Placement.check limits.checkDepth form))
      (ofExcept (Placement.check limits'.checkDepth form)) := by
  intro w
  rcases (Placement.settles_check _ hle).1 form with hcut | hsame
  · refine Or.inl ⟨.depthExceeded, w, ?_, Or.inl rfl⟩
    rw [Placement.check, hcut]
    rfl
  · refine Or.inr ?_
    rw [Placement.check, hsame, Placement.check]

/-- So is checking all forms of a text. -/
theorem cuts_readModule (hle : limits.checkDepth ≤ limits'.checkDepth) (text : String) :
    Cuts limits limits' (ofExcept (readModule limits text))
      (ofExcept (readModule limits' text)) := by
  intro w
  rcases hread : readModule limits text with f | forms
  · rcases readModule_error_of_le hle hread with rfl | hread'
    · exact Or.inl ⟨.depthExceeded, w, rfl, Or.inl rfl⟩
    · exact Or.inr (by rw [hread'])
  · exact Or.inr (by rw [readModule_ok_of_le hle hread])

end Evaluation

/-! ### Nested evaluation -/

/-- Two runs in the same world, one of which may be given more. -/
def Allowance.along {setting setting' : Setting} (A : Allowance setting setting') :
    Simulation setting setting' :=
  { ({} : Discipline setting).self with toAllowance := A }

namespace Evaluation

variable {limits limits' : Limits} {find : String → Except Failure (Option String)}

/-- What the larger limits allow. -/
def raising (find : String → Except Failure (Option String)) (h : limits.Within limits') :
    Allowance ⟨limits, find⟩ ⟨limits', find⟩ where
  excused := limits.Spares limits'
  findModule_eq _ := rfl
  steps_le := h.steps_le
  steps_eq := by
    by_cases hsteps : limits'.steps = limits.steps
    · exact Or.inr hsteps
    · exact Or.inl (Or.inr ⟨rfl, hsteps⟩)
  read_ok := readModule_ok_of_le h.checkDepth_le
  read_error hread := (readModule_error_of_le h.checkDepth_le hread).imp_left Or.inl

/-- An evaluation with more depth and wider limits is the same, unless a limit was met. By the
simulation of evaluations; what can be looked up is the same on both sides. -/
theorem cuts_evaluate_of_le (h : limits.Within limits') {depth depth' : Nat}
    (hle : depth ≤ depth') (form : Form) (c : Context) (position : Position) :
    Cuts limits limits' (evaluate ⟨limits, find⟩ depth form c position)
      (evaluate ⟨limits', find⟩ depth' form c position) := by
  intro w
  -- Both sides start in the same world and go on alike, so the translation of values is none.
  have hevaluates : (raising find h).along.Evaluates (evaluate ⟨limits, find⟩ depth)
      (evaluate ⟨limits', find⟩ depth') :=
    Simulation.evaluates_deeper (Or.inl rfl) (fun f ↦ ⟨f.stamp, rfl⟩) depth hle
  have hfollows := @hevaluates form c position w w ⟨rfl, trivial⟩ trivial trivial
  unfold Simulation.Follows at hfollows
  rcases hm : evaluate ⟨limits, find⟩ depth form c position w with ⟨v, u⟩ | ⟨f, u⟩
  · rw [hm] at hfollows
    obtain ⟨-, -, -, u', hm', hu, -⟩ := hfollows
    refine Or.inr (hm'.trans ?_)
    rw [hu]
    exact congrArg (EStateM.Result.ok · u) (Value.translate_id v)
  · rw [hm] at hfollows
    obtain ⟨-, -, -, hf | ⟨u', hm', hu⟩⟩ := hfollows
    · exact Or.inl ⟨f, u, rfl, hf⟩
    · exact Or.inr (hm'.trans (by rw [show u' = u from hu]))

theorem cuts_evaluate (h : limits.Within limits') (form : Form) (c : Context)
    (position : Position) :
    Cuts limits limits' (evaluate ⟨limits, find⟩ limits.depth form c position)
      (evaluate ⟨limits', find⟩ limits'.depth form c position) :=
  cuts_evaluate_of_le h h.depth_le form c position

/-- Operands that are evaluated one after the other are cut where one of them is. -/
theorem cuts_values {e e' : Evaluator} {c : Context}
    (he : ∀ form, Cuts limits limits' (e form c .value) (e' form c .value))
    (forms : List Form) : Cuts limits limits' (values e c forms) (values e' c forms) := by
  induction forms with
  | nil => exact Cuts.refl _
  | cons form rest ih => exact (he form).bind fun _ ↦ ih.bind fun _ ↦ Cuts.refl _

/-! ### Loading -/

/-- The forms of a module are cut where one of them is. By induction on the forms. -/
theorem cuts_runForms {e e' : Evaluator} (id : NamespaceId)
    (he : ∀ form, Cuts limits limits' (e form (.top id) .value) (e' form (.top id) .value))
    (forms : List Form) :
    Cuts limits limits' (runForms e id forms) (runForms e' id forms) := by
  induction forms with
  | nil => exact Cuts.refl _
  | cons form rest ih =>
    exact ((he form).bind fun _ ↦ Cuts.refl (pure ())).bind fun _ ↦ ih

/-- **A load is cut too**: what is taken back after a failure depends on the world before the load
and on the world that the failure left. -/
theorem cuts_loadForms {e e' : Evaluator}
    (he : ∀ form id, Cuts limits limits' (e form (.top id) .value) (e' form (.top id) .value))
    (n : String) (forms : List Form) :
    Cuts limits limits' (loadForms e n forms) (loadForms e' n forms) := by
  intro w
  rw [loadForms_apply, loadForms_apply]
  rcases cuts_runForms (w.createNamespace n).1 (fun form ↦ he form _) forms
    ((w.createNamespace n).2.markLoaded n) with ⟨f, u, hrun, hf⟩ | hrun
  · refine Or.inl ⟨f, u.rollback w.paths w.loaded n, ?_, hf⟩
    rw [hrun]
  · rw [hrun]
    exact Or.inr rfl

end Evaluation

/-! ### Requests -/

namespace Interpreter

open Evaluation

variable {limits limits' : Limits} {find : String → Except Failure (Option String)}

theorem cuts_evalForm (h : limits.Within limits') (id : NamespaceId) (form : Form) :
    Cuts limits limits' (evalForm ⟨limits, find⟩ id form) (evalForm ⟨limits', find⟩ id form) :=
  (cuts_check h.checkDepth_le form).bind fun _ ↦ cuts_evaluate h form (.top id) .value

/-- Forms that are evaluated for the last value are cut where one of them is. -/
theorem cuts_evalForms (h : limits.Within limits') (id : NamespaceId) (forms : List Form) :
    ∀ value, Cuts limits limits' (evalForms ⟨limits, find⟩ id value forms)
      (evalForms ⟨limits', find⟩ id value forms) := by
  induction forms with
  | nil => exact fun _ ↦ Cuts.refl _
  | cons form rest ih => exact fun _ ↦ (cuts_evalForm h id form).bind ih

theorem cuts_loadText (h : limits.Within limits') (n text : String) :
    Cuts limits limits' (loadText ⟨limits, find⟩ n text) (loadText ⟨limits', find⟩ n text) :=
  (cuts_readModule h.checkDepth_le text).bind
    (cuts_loadForms (fun form id ↦ cuts_evaluate h form (.top id) .value) n)

/-- A module that is loaded already is found under any limits; otherwise its text is loaded. -/
theorem cuts_loadModule (h : limits.Within limits') (n : String) :
    Cuts limits limits' (loadModule ⟨limits, find⟩ n) (loadModule ⟨limits', find⟩ n) := by
  intro w
  unfold loadModule
  rcases hloaded : w.isLoaded n with - | -
  · -- both look for the same file
    rcases hfind : find n with f | - | text
    · rw [loadModule_of_error hloaded hfind, loadModule_of_error hloaded hfind]
      exact Or.inr rfl
    · rw [loadModule_of_none hloaded hfind, loadModule_of_none hloaded hfind]
      exact Or.inr rfl
    · rw [loadModule_of_some hloaded hfind, loadModule_of_some hloaded hfind]
      exact cuts_loadText h n text w
  · rw [loadModule_of_loaded hloaded, loadModule_of_loaded hloaded]
    exact Or.inr rfl

/-- **Limits only cut requests.** Each request is one of the operations above. -/
theorem cuts_perform (h : limits.Within limits') (i : Interpreter) (request : Request) :
    Cuts limits limits' (i.perform ⟨limits, find⟩ request)
      (i.perform ⟨limits', find⟩ request) := by
  cases request with
  | evalText text =>
    refine Cuts.bind ?_ fun _ ↦ Cuts.refl _
    exact (Cuts.refl _).bind fun form ↦ cuts_evalForm h i.home form
  | evalAll text =>
    refine Cuts.bind ?_ fun _ ↦ Cuts.refl _
    exact (cuts_evalForms h i.home _ .nothing).bind fun _ ↦ Cuts.refl _
  | loadText n text => exact (cuts_loadText h n text).bind fun _ ↦ Cuts.refl _
  | loadModule n => exact (cuts_loadModule h n).bind fun _ ↦ Cuts.refl _

/-- **Limits only cut.** If limits are raised, then every form in every context and position, the
first form of a text in every namespace, and every request of every interpreter have the same
outcome as before, from every world: the same answer or failure, and the same world behind it. The
one exception is an outcome that says itself that it exceeded a limit that was raised. -/
theorem limits_only_cut (h : limits.Within limits') :
    (∀ form c position, Cuts limits limits' (evaluator ⟨limits, find⟩ form c position)
      (evaluator ⟨limits', find⟩ form c position)) ∧
    (∀ path text, Cuts limits limits' (evalTextIn ⟨limits, find⟩ path text)
      (evalTextIn ⟨limits', find⟩ path text)) ∧
    ∀ i request, Cuts limits limits' (perform i ⟨limits, find⟩ request)
      (perform i ⟨limits', find⟩ request) := by
  refine ⟨cuts_evaluate h, fun path text ↦ ?_, cuts_perform h⟩
  exact (Cuts.refl _).bind fun form ↦ (Cuts.refl _).bind fun id ↦ cuts_evalForm h id form

/-- A block that nests one deeper than the first limits allow, and no deeper than the second. -/
theorem limits_only_cut_block :
    let form : Form := .list [.symbol "do", .list [.symbol "let", .symbol "x", .list []], .number 1]
    let run (depth : Nat) := evaluator ⟨⟨depth, 8, 8⟩, fun _ ↦ .ok none⟩ form (.top ⟨0⟩) .value
    failure? (run 2 (.empty 0)) = some .depthExceeded ∧
      failure? (run 3 (.empty 0)) = some (.fault (.meaningless (.list []))) ∧
      run 9 (.empty 0) = run 3 (.empty 0) := by
  have hwithin : Limits.Within ⟨3, 8, 8⟩ ⟨9, 8, 8⟩ := ⟨by decide, by decide, by decide⟩
  intro form run
  have hthree : failure? (run 3 (.empty 0)) = some (.fault (.meaningless (.list []))) := by
    decide +kernel
  refine ⟨by decide +kernel, hthree, ?_⟩
  rcases (limits_only_cut hwithin).1 form (.top ⟨0⟩) .value (.empty 0) with
    ⟨f, u, hcut, hf⟩ | hsame
  · -- the failure is none that the larger limits spare
    rw [show run 3 (.empty 0) = .error f u from hcut] at hthree
    obtain rfl := Option.some.inj hthree
    rcases hf with hf | ⟨hf, -⟩
    · cases hf
    · cases hf
  · exact hsame

end Interpreter

end DottedLisp
