import DottedLisp.Proofs.LinkedWorlds
import DottedLisp.Proofs.LoopIterations
import DottedLisp.Proofs.ModuleLoads

/-!
# Binding parameters

A call and a step of a loop pair names with values, bind them one by one in a new scope and stop at
the first that cannot be bound. Pairing drops what is left over on either side. Here it is shown
that in the runs of an interpreter neither can happen: the names are **distinct plain identifiers**,
and there are as many values.

The first is settled when a function is made, or a loop entered; the names of a function are then
carried along wherever it is bound, which is the discipline `listing`. The second is settled anew
each time, by the test that stands in front of the call, or in front of each step.

To say "whenever parameters are bound" without recording a run, `Evaluation.stepWith` leaves open
how scopes are opened for parameters, and is a step if they are opened as ever
(`stepWith_openScope`). A step **binds** at an opening if it would end otherwise were that opening
to end otherwise (`Moment.Binds`). This is so of every call and of every step of a loop that passes
the test, the first one as well as those that were asked for again (`Moment.Activates.binds`).

Main statement: `Interpreter.parameters_bound_exactly`.
-/

namespace DottedLisp

/-! ### Parameter lists -/

/-- Names that can be bound in a new scope, all of them. -/
structure AreParameters (names : List String) : Prop where
  /-- None comes twice. -/
  distinct : names.Nodup
  /-- None is a full name. -/
  plain : ∀ n ∈ names, Name.isFull n = false

namespace Evaluation

/-- Items are taken one by one, each plain and none seen before. By the recursion of the check. -/
theorem areParameters_of_parametersFrom {seen names : List String} {items : List Form}
    (hseen : AreParameters seen.reverse) (h : parametersFrom seen items = .ok names) :
    AreParameters names := by
  fun_induction parametersFrom seen items with
  | case1 =>
    cases h
    exact hseen
  | case2 | case3 | case5 => cases h
  | case4 seen name rest hplain hnew ih =>
    have hfresh : name ∉ seen := by simpa using hnew
    refine ih ⟨?_, fun n hn ↦ ?_⟩ h
    · rw [List.reverse_cons, List.nodup_append]
      refine ⟨hseen.distinct, by simp, fun n hn m hm ↦ ?_⟩
      rw [List.mem_singleton.1 hm]
      exact ne_of_mem_of_not_mem (List.mem_reverse.1 hn) hfresh
    · rcases List.mem_cons.1 (List.mem_reverse.1 hn) with rfl | hold
      · exact eq_false_of_ne_true hplain
      · exact hseen.plain n (List.mem_reverse.2 hold)

/-- **What passes as a parameter list** can be bound. -/
theorem areParameters_of_parameters {form : Form} {names : List String}
    (h : parameters form = .ok names) : AreParameters names := by
  unfold parameters at h
  split at h
  · have hnone : AreParameters ([] : List String).reverse := ⟨List.nodup_nil, by simp⟩
    exact areParameters_of_parametersFrom hnone h
  · cases h

end Evaluation

/-! ### Opening a scope -/

namespace World

variable {w : World} {c outer : Context} {b : Bindings}

/-- The world with one more scope, which binds the given names. -/
def pushScope (w : World) (outer : Context) (b : Bindings) : World :=
  { w with scopes := w.scopes.push ⟨outer, b⟩ }

/-- The new scope binds what it was given. -/
theorem scopeAt_pushScope : (w.pushScope outer b).scopeAt ⟨w.scopes.size⟩ = b := by
  simp [pushScope, scopeAt]

/-- A change in the scope that was made last. -/
theorem modify_pushScope (f : Bindings → Bindings) :
    (w.pushScope outer b).modifyBindings (.scope ⟨w.scopes.size⟩ c) f =
      w.pushScope outer (f b) := by
  have hscopes : (w.scopes.push ⟨outer, b⟩).modify w.scopes.size
      (fun s ↦ { s with bindings := f s.bindings }) = w.scopes.push ⟨outer, f b⟩ := by
    refine Array.ext_getElem? fun i ↦ ?_
    rw [Array.getElem?_modify, Array.getElem?_push, Array.getElem?_push]
    split
    · rename_i hi
      rw [if_pos hi.symm, if_pos hi.symm]
      rfl
    · rename_i hi
      rw [if_neg (Ne.symm hi), if_neg (Ne.symm hi)]
  simp only [pushScope, modifyBindings, hscopes]

end World

namespace Bindings

/-- Distinct names are bound to the values they are paired with. -/
theorem get?_zip {names : List String} {values : List Value} (hdistinct : names.Nodup) {j : Nat}
    {n : String} (hj : names[j]? = some n) :
    (⟨names.zip values⟩ : Bindings).get? n = values[j]? := by
  induction names generalizing values j with
  | nil => cases hj
  | cons first names ih =>
    obtain ⟨hfirst, hdistinct⟩ := List.nodup_cons.1 hdistinct
    cases values with
    | nil => rfl
    | cons v values =>
      cases j with
      | zero =>
        cases hj
        simp [get?]
      | succ j =>
        have hn : n ∈ names := List.mem_of_getElem? hj
        have hne : (n == first) = false := by
          rw [beq_eq_false_iff_ne]
          rintro rfl
          exact hfirst hn
        have hrest : (⟨names.zip values⟩ : Bindings).get? n = values[j]? := ih hdistinct hj
        simpa [get?, List.lookup_cons, hne] using hrest

/-- With as many values as names, no name is left over. -/
theorem names_zip {names : List String} {values : List Value}
    (hlength : values.length = names.length) : (⟨names.zip values⟩ : Bindings).names = names :=
  List.map_fst_zip (Nat.le_of_eq hlength.symm)

end Bindings

namespace Evaluation

variable {w : World} {outer : Context} {names : List String} {arguments : List Value}

/-- Names that are not bound yet are bound behind those that are. By induction on the names. -/
theorem defineAll_pushScope (hnames : AreParameters names) {b : Bindings}
    (hfree : ∀ n ∈ names, b.get? n = none) :
    defineAll (.scope ⟨w.scopes.size⟩ outer) ((names.map Form.symbol).zip arguments)
        (w.pushScope outer b) =
      .ok () (w.pushScope outer ⟨b.entries ++ names.zip arguments⟩) := by
  induction names generalizing arguments b with
  | nil =>
    rw [List.zip_nil_left, List.append_nil]
    rfl
  | cons n names ih =>
    cases arguments with
    | nil =>
      rw [List.zip_nil_right, List.zip_nil_right, List.append_nil]
      rfl
    | cons v arguments =>
      have hplain : ¬ Name.isFull n = true :=
        ne_true_of_eq_false (hnames.plain n List.mem_cons_self)
      obtain ⟨hnew, hdistinct⟩ := List.nodup_cons.1 hnames.distinct
      have hunbound : ((w.pushScope outer b).bindingsOf (.scope ⟨w.scopes.size⟩ outer)).binds n =
          false := by
        rw [World.bindingsOf, World.scopeAt_pushScope, Bindings.binds,
          hfree n List.mem_cons_self, Option.isSome_none]
      -- The first name goes behind what is bound, so the rest stay free: they are distinct from it.
      have hfirst := Simulation.define_of_free (v := v) hplain hunbound
      rw [World.modify_pushScope] at hfirst
      have hrest : AreParameters names :=
        ⟨hdistinct, fun m hm ↦ hnames.plain m (List.mem_cons_of_mem n hm)⟩
      have hstill : ∀ m ∈ names, (b.insert n v).get? m = none := by
        intro m hm
        rw [Bindings.get?_insert_of_ne (ne_of_mem_of_not_mem hm hnew)]
        exact hfree m (List.mem_cons_of_mem n hm)
      show (discard (define (.scope ⟨w.scopes.size⟩ outer) (.symbol n) v) >>= fun _ ↦
        defineAll (.scope ⟨w.scopes.size⟩ outer) ((names.map Form.symbol).zip arguments))
          (w.pushScope outer b) = _
      have hdiscard : discard (define (.scope ⟨w.scopes.size⟩ outer) (.symbol n) v)
          (w.pushScope outer b) = .ok () (w.pushScope outer (b.insert n v)) := bind_of_ok hfirst
      rw [bind_of_ok hdiscard, ih hrest hstill, Bindings.insert, List.append_assoc,
        List.zip_cons_cons, List.singleton_append]

/-- **Opening a scope for parameters succeeds**, and all it changes is that there is one more
scope. -/
theorem openScope_of_areParameters (hnames : AreParameters names) :
    openScope outer names arguments w =
      .ok (.scope ⟨w.scopes.size⟩ outer) (w.pushScope outer ⟨names.zip arguments⟩) := by
  have hall : defineAll (.scope ⟨w.scopes.size⟩ outer) ((names.map Form.symbol).zip arguments)
      (w.pushScope outer .empty) = .ok () (w.pushScope outer ⟨names.zip arguments⟩) :=
    defineAll_pushScope hnames fun n _ ↦ Bindings.get?_empty n
  show (defineAll (.scope ⟨w.scopes.size⟩ outer) ((names.map Form.symbol).zip arguments) >>= fun _ ↦
    pure (Context.scope ⟨w.scopes.size⟩ outer)) (w.pushScope outer .empty) = _
  rw [bind_of_ok hall]
  rfl

end Evaluation

/-! ### The functions that are bound -/

/-- The names of every function in the value can be bound. -/
def Value.Listed (v : Value) : Prop :=
  v.Every fun f ↦ AreParameters f.parameters

namespace Discipline

/-- **Functions keep the parameter lists** that they were made with. -/
def listing (setting : Setting) : Discipline setting where
  world := World.All Value.Listed
  value _ v := v.Listed
  value_later _ hv := hv
  value_nothing _ := Value.every_nothing
  value_number _ x := Value.every_number x
  value_lookup hworld _ hlookup := World.All.lookup hworld hlookup
  value_function _ _ _ _ hnames :=
    Value.every_function.2 (Evaluation.areParameters_of_parameters hnames)
  value_signal hv hx := Value.every_signal.1 hv _ hx
  world_scope hworld _ := World.All.scope hworld
  world_stamp hworld := World.All.stamp hworld
  world_namespace path hworld := World.All.createNamespace hworld path
  world_insert hworld _ _ hv _ := World.All.insert hworld hv
  world_replace hworld _ hv _ := World.All.replace hworld hv
  world_mark hworld _ := World.All.mark hworld
  failed_rollback _ hworld _ _ := hworld.rollback _ _

/-- Loading makes no functions but by evaluating forms. -/
theorem closed_listing (setting : Setting) : (listing setting).Closed where
  form_checked _ _ := trivial
  world_mark _ hworld := World.All.mark hworld
  later_mark _ _ := trivial
  failed_rollback _ _ hworld _ := World.All.rollback hworld _ _
  later_rollback _ _ _ _ := trivial

end Discipline

/-! ### Openings -/

/-- A scope that is to be opened for parameters. -/
structure Opening where
  /-- The context that it is opened in. -/
  outer : Context
  /-- The parameters. -/
  names : List String
  /-- What they are to be bound to. -/
  arguments : List Value
  /-- The world at that moment. -/
  world : World
  deriving DecidableEq

namespace Opening

/-- What opening the scope ends in. -/
def outcome (b : Opening) : EStateM.Result Failure World Context :=
  Evaluation.openScope b.outer b.names b.arguments b.world

/-- The parameters can be bound, and there is an argument for each. -/
structure Fits (b : Opening) : Prop where
  /-- They can be bound. -/
  names : AreParameters b.names
  /-- There are as many arguments. -/
  length_eq : b.arguments.length = b.names.length

/-- Openings end as they do, but one of them fails. -/
def failing (b : Opening) (f : Failure) (other : Opening) : EStateM.Result Failure World Context :=
  if other = b then .error f b.world else other.outcome

end Opening

/-- A way of opening scopes for parameters. -/
abbrev Opener := Context → List String → List Value → Evaluation Context

namespace Evaluation

/-- The opener that ends in given outcomes. -/
def opener (outcomes : Opening → EStateM.Result Failure World Context) : Opener :=
  fun outer names arguments w ↦ outcomes ⟨outer, names, arguments, w⟩

/-- The same loop, with a body that is evaluated in a scope that is opened in a given way. -/
def Loop.opening (l : Loop) (o : Opener) (e : Evaluator) (c : Context) (names : List String)
    (body : Form) : Loop :=
  { l with body := fun values ↦ do e body (← o c names values) .tail }

/-- Calls, with a given way of opening scopes for parameters. -/
def applyWith (o : Opener) (setting : Setting) (e : Evaluator) (operator : Form) :
    Value → List Value → Evaluation Value
  | .function f, arguments =>
    if f.kind = .recursive then
      ((Loop.ofFunction e f).opening o e f.context f.parameters f.body).run setting.limits.steps
        arguments
    else do
      expectCount f.name arguments.length f.parameters.length
      e f.body (← o f.context f.parameters arguments) .value
  | function, arguments => apply setting e operator function arguments

/-- Loop forms, with a given way of opening scopes for parameters. -/
def loopWith (o : Opener) (setting : Setting) (e : Evaluator) (c : Context) :
    List Form → Evaluation Value
  | [parameterList, .list initials, body] => do
    let initials ← values e c initials
    let names ← ofFault (parameters parameterList)
    ((Loop.ofForm e c names body).opening o e c names body).run setting.limits.steps initials
  | operands => loop setting e c operands

/-- A step, with a given way of opening scopes for parameters. -/
def stepWith (o : Opener) (setting : Setting) (e : Evaluator) : Evaluator := fun form c position =>
  match form with
  | .list (head :: operands) =>
    match head.special? with
    | some .loop => do
      expectValue .loop position (← loopWith o setting e c operands)
    | some _ => step setting e form c position
    | none => do
      let function ← e head c .value
      let arguments ← values e c operands
      applyWith o setting e head function arguments
  | _ => step setting e form c position

variable {setting : Setting} {o : Opener} {e : Evaluator} {c : Context} {position : Position}
  {head : Form} {operands : List Form}

/-- A loop form opens scopes for its steps. -/
theorem stepWith_loop (hhead : head.special? = some .loop) :
    stepWith o setting e (.list (head :: operands)) c position =
      (loopWith o setting e c operands >>= expectValue .loop position) := by
  simp only [stepWith, hhead]

/-- A call opens scopes for the function that it is a call of. -/
theorem stepWith_call (hhead : head.special? = none) :
    stepWith o setting e (.list (head :: operands)) c position =
      (e head c .value >>= fun function ↦ values e c operands >>= fun arguments ↦
        applyWith o setting e head function arguments) := by
  simp only [stepWith, hhead]

/-- In any other form no scope is opened for parameters. -/
theorem stepWith_special {keyword : SpecialForm} (hhead : head.special? = some keyword)
    (hkeyword : keyword ≠ .loop) :
    stepWith o setting e (.list (head :: operands)) c position =
      step setting e (.list (head :: operands)) c position := by
  simp only [stepWith, hhead]

theorem applyWith_openScope (operator : Form) (function : Value) :
    applyWith openScope setting e operator function = apply setting e operator function := by
  cases function <;> rfl

theorem loopWith_openScope (operands : List Form) :
    loopWith openScope setting e c operands = loop setting e c operands := by
  unfold loopWith
  split <;> rfl

/-- **A step opens scopes as ever.** -/
theorem stepWith_openScope : stepWith openScope setting e = step setting e := by
  funext form c position
  match form with
  | .number _ | .symbol _ | .list [] => rfl
  | .list (head :: operands) =>
    rcases hhead : head.special? with - | keyword
    · rw [stepWith_call hhead, Simulation.step_call hhead]
      simp only [applyWith_openScope]
    · by_cases hkeyword : keyword = .loop
      · subst hkeyword
        rw [stepWith_loop hhead, Simulation.step_special hhead, loopWith_openScope]
        rfl
      · exact stepWith_special hhead hkeyword

/-! ### Steps open what fits -/

section Agreement

variable {outcomes : Opening → EStateM.Result Failure World Context}
  {names : List String} {body : Form} {l : Loop}

/-- An iteration comes to one opening, if it passes its test. -/
theorem Loop.iteration_opening
    (hbody : l.body = fun values ↦ openScope c names values >>= fun scope ↦ e body scope .tail)
    {values : List Value} {w : World}
    (h : ∀ u, l.check values w = .ok () u →
      outcomes ⟨c, names, values, u⟩ = Opening.outcome ⟨c, names, values, u⟩) :
    (l.opening (opener outcomes) e c names body).iteration values w = l.iteration values w := by
  show (l.check values >>= fun _ ↦ opener outcomes c names values >>= fun scope ↦
    e body scope .tail) w = (l.check values >>= fun _ ↦ l.body values) w
  rcases hcheck : l.check values w with ⟨⟨⟩, u⟩ | ⟨f, u⟩
  · rw [bind_of_ok hcheck, bind_of_ok hcheck, hbody]
    exact bind_of_eq (h u hcheck)
  · rw [bind_of_error hcheck, bind_of_error hcheck]

/-- If the openings that pass the test end as ever, so does the loop. -/
theorem Loop.run_opening
    (hbody : l.body = fun values ↦ openScope c names values >>= fun scope ↦ e body scope .tail)
    (h : ∀ values w u, l.check values w = .ok () u →
      outcomes ⟨c, names, values, u⟩ = Opening.outcome ⟨c, names, values, u⟩) (steps : Nat) :
    (l.opening (opener outcomes) e c names body).run steps = l.run steps := by
  induction steps with
  | zero => rfl
  | succ steps ih =>
    have hconclude : (l.opening (opener outcomes) e c names body).conclude steps =
        l.conclude steps := by
      funext v
      unfold Loop.conclude
      rw [ih]
      rfl
    funext values w
    rw [Loop.run_eq_iteration, Loop.run_eq_iteration, hconclude]
    exact bind_of_eq (Loop.iteration_opening hbody fun u hu ↦ h values w u hu)

/-- Who passes the count has as many arguments as were expected. -/
theorem length_of_expectCount {n : String} {actual expected : Nat} {w u : World}
    (h : expectCount n actual expected w = .ok () u) : actual = expected := by
  unfold expectCount at h
  split at h
  · assumption
  · cases h

/-- Who passes the test of a loop form has as many values as names. -/
theorem length_of_ofForm_check {values : List Value} {w u : World}
    (h : (Loop.ofForm e c names body).check values w = .ok () u) :
    values.length = names.length := by
  simp only [Loop.ofForm] at h
  split at h
  · assumption
  · cases h

variable (houtcomes : ∀ b : Opening, b.Fits → outcomes b = b.outcome)
include houtcomes

/-- A call of a listed function opens only what fits: the count is tested before. -/
theorem applyWith_eq {function : Value} (hf : function.Listed) (operator : Form) :
    applyWith (opener outcomes) setting e operator function =
      apply setting e operator function := by
  funext arguments w
  cases function with
  | function f =>
    have hnames : AreParameters f.parameters := Value.every_function.1 hf
    simp only [applyWith, apply]
    split
    · rw [Loop.run_opening (l := Loop.ofFunction e f) rfl fun values w u hu ↦
        houtcomes _ ⟨hnames, length_of_expectCount hu⟩]
    · rcases hcount : expectCount f.name arguments.length f.parameters.length w with
        ⟨⟨⟩, u⟩ | ⟨failure, u⟩
      · rw [bind_of_ok hcount, bind_of_ok hcount]
        exact bind_of_eq (houtcomes ⟨_, _, _, u⟩ ⟨hnames, length_of_expectCount hcount⟩)
      · rw [bind_of_error hcount, bind_of_error hcount]
  | _ => rfl

/-- So does a loop form: its names are tested when it is entered, the count at each step. -/
theorem loopWith_eq (operands : List Form) :
    loopWith (opener outcomes) setting e c operands = loop setting e c operands := by
  unfold loopWith loop
  split
  · dsimp only
    congr 1
    funext initials
    rename_i parameterList _ body
    rcases hnames : parameters parameterList with fault | names
    · rfl
    · have hopenings : ∀ values w u, (Loop.ofForm e c names body).check values w = .ok () u →
          outcomes ⟨c, names, values, u⟩ = Opening.outcome ⟨c, names, values, u⟩ :=
        fun values w u hu ↦
          houtcomes _ ⟨areParameters_of_parameters hnames, length_of_ofForm_check hu⟩
      exact congrFun (Loop.run_opening rfl hopenings setting.limits.steps) initials
  · rfl

/-- If nested evaluations give functions with parameter lists in order, then **how openings end that
do not fit is no matter** for a step. -/
theorem stepWith_eq {form : Form} {w : World}
    (hvalues : ∀ head v u, e head c .value w = .ok v u → v.Listed) :
    stepWith (opener outcomes) setting e form c position w = step setting e form c position w := by
  match form with
  | .number _ | .symbol _ | .list [] => rfl
  | .list (head :: operands) =>
    rcases hhead : head.special? with - | keyword
    · rw [stepWith_call hhead, Simulation.step_call hhead]
      rcases hfunction : e head c .value w with ⟨v, u⟩ | ⟨f, u⟩
      · rw [bind_of_ok hfunction, bind_of_ok hfunction,
          applyWith_eq houtcomes (hvalues head v u hfunction)]
      · rw [bind_of_error hfunction, bind_of_error hfunction]
    · by_cases hkeyword : keyword = .loop
      · subst hkeyword
        rw [stepWith_loop hhead, Simulation.step_special hhead, loopWith_eq houtcomes]
        rfl
      · rw [stepWith_special hhead hkeyword]

end Agreement

end Evaluation

/-! ### What a step binds -/

namespace Moment

open Evaluation

variable {setting : Setting} {e : Evaluator} {m : Moment} {b : Opening}

/-- A step from the moment comes to an opening. -/
def Binds (setting : Setting) (e : Evaluator) (m : Moment) (b : Opening) : Prop :=
  DependsAt (fun outcomes ↦ m.outcome (stepWith (opener outcomes) setting e)) Opening.outcome b

/-- Where the functions that are bound have parameter lists in order, **everything that is bound
fits**. If it did not, another end of the opening would go unnoticed. -/
theorem fits_of_binds {depth : Nat} (hw : m.world.All Value.Listed)
    (h : m.Binds setting (evaluate setting depth) b) : b.Fits := by
  obtain ⟨outcomes, hagree, hne⟩ := h
  refine Classical.byContradiction fun hfits ↦ hne ?_
  have hvalues : ∀ head v u, evaluate setting depth head m.context .value m.world = .ok v u →
      v.Listed := by
    intro head v u hv
    have hends := (Discipline.listing setting).ends_outcome depth
      (m := ⟨head, m.context, .value, _⟩) hw trivial trivial
    rw [outcome, hv] at hends
    exact hends.2.2
  -- The two outcomes differ at an opening that does not fit, and a step comes to none of these.
  have hother : ∀ other : Opening, other.Fits → outcomes other = other.outcome := by
    intro other hother
    refine hagree other ?_
    rintro rfl
    exact hfits hother
  exact (stepWith_eq hother hvalues).trans (stepWith_eq (fun _ _ ↦ rfl) hvalues).symm

/-- It is enough that every failure of the opening is that of the step. -/
theorem binds_of_failing
    (h : ∀ f, m.outcome (stepWith (opener (b.failing f)) setting e) = .error f b.world) :
    m.Binds setting e b := by
  obtain ⟨f, hf⟩ : ∃ f, failure? (m.outcome (stepWith (opener Opening.outcome) setting e)) ≠
      some f := by
    -- Of two failures one is not how the step ends as things are.
    by_cases hdepth : failure? (m.outcome (stepWith (opener Opening.outcome) setting e)) =
        some .depthExceeded
    · exact ⟨.stepsExceeded, by rw [hdepth]; decide⟩
    · exact ⟨.depthExceeded, hdepth⟩
  refine ⟨b.failing f, fun other hother ↦ if_neg hother, fun heq ↦ hf ?_⟩
  dsimp only at heq
  rw [← heq, h f]
  rfl

section Iterations

variable {l : Loop} {names : List String} {body : Form} {values last arguments : List Value}
  {w x u : World} {n steps : Nat} {f : Failure}

/-- A loop that comes to an iteration opens a scope for it. By induction on the iterations before
it, one of which may open the very same. -/
theorem run_failing {c : Context}
    (hbody : l.body = fun values ↦ openScope c names values >>= fun scope ↦ e body scope .tail)
    (hcheck : ∀ values w, l.check values w = .ok () w ∨ ∃ f, l.check values w = .error f w)
    (hpasses : l.Passes n w values x last) (hlast : l.check last x = .ok () x) (hn : n < steps) :
    (l.opening (opener (Opening.failing ⟨c, names, last, x⟩ f)) e c names body).run steps values w =
      .error f x := by
  have hfails : ∀ {values w}, l.check values w = .ok () w →
      (⟨c, names, values, w⟩ : Opening) = ⟨c, names, last, x⟩ →
      (l.opening (opener (Opening.failing ⟨c, names, last, x⟩ f)) e c names body).iteration values
        w = .error f x := by
    intro values w hvalues heq
    show (l.check values >>= fun _ ↦
      opener (Opening.failing ⟨c, names, last, x⟩ f) c names values >>= fun scope ↦
        e body scope .tail) w = _
    rw [bind_of_ok hvalues]
    exact bind_of_error (if_pos heq)
  obtain ⟨steps, rfl⟩ := Nat.exists_eq_add_one_of_ne_zero (Nat.ne_zero_of_lt hn)
  induction hpasses generalizing steps with
  | refl w values => exact Loop.run_of_verdict (by rw [hfails hlast rfl]; rfl)
  | @again n w y x values next last hagain hrest ih =>
    have hvalues : l.check values w = .ok () w := by
      rcases hcheck values w with hok | ⟨f, herror⟩
      · exact hok
      · cases (bind_of_error herror).symm.trans hagain
    -- If this iteration opens the very same, the loop fails here already, and in the same world.
    by_cases heq : (⟨c, names, values, w⟩ : Opening) = ⟨c, names, last, x⟩
    · exact Loop.run_of_verdict (by rw [hfails hvalues heq]; rfl)
    · rw [Loop.run_of_again ((Loop.iteration_opening hbody fun u hu ↦ ?_).trans hagain)]
      · obtain ⟨steps, rfl⟩ : ∃ k, steps = k + 1 := ⟨steps - 1, by omega⟩
        exact ih hlast hfails steps (by omega)
      · cases hvalues.symm.trans hu
        exact if_neg heq

/-- The test of a loop leaves the world alone. -/
theorem check_ofForm {c : Context} (values : List Value) (w : World) :
    (Loop.ofForm e c names body).check values w = .ok () w ∨
      ∃ f, (Loop.ofForm e c names body).check values w = .error f w := by
  simp only [Loop.ofForm]
  split
  · exact Or.inl rfl
  · exact Or.inr ⟨_, rfl⟩

theorem check_ofFunction {g : Function} (values : List Value) (w : World) :
    (Loop.ofFunction e g).check values w = .ok () w ∨
      ∃ f, (Loop.ofFunction e g).check values w = .error f w := by
  simp only [Loop.ofFunction, expectCount]
  split
  · exact Or.inl rfl
  · exact Or.inr ⟨_, rfl⟩

end Iterations

/-- The calls and the steps of loops that a step comes to, **with as many values as parameters**. -/
inductive Activates (setting : Setting) (e : Evaluator) (m : Moment) : Opening → Prop
  /-- A call of an ordinary function. -/
  | call {head : Form} {operands : List Form} {g : Function} {arguments : List Value} {v u : World}
    (hform : m.form = .list (head :: operands)) (hhead : head.special? = none)
    (hfunction : e head m.context .value m.world = .ok (.function g) v)
    (harguments : values e m.context operands v = .ok arguments u) (hkind : g.kind ≠ .recursive)
    (hlength : arguments.length = g.parameters.length) :
    Activates setting e m ⟨g.context, g.parameters, arguments, u⟩
  /-- A step of a recursive function, the first one or one that was asked for again. -/
  | again {head : Form} {operands : List Form} {g : Function} {arguments last : List Value}
    {v u x : World} {n : Nat} (hform : m.form = .list (head :: operands))
    (hhead : head.special? = none)
    (hfunction : e head m.context .value m.world = .ok (.function g) v)
    (harguments : values e m.context operands v = .ok arguments u) (hkind : g.kind = .recursive)
    (hpasses : (Loop.ofFunction e g).Passes n u arguments x last)
    (hn : n < setting.limits.steps) (hlength : last.length = g.parameters.length) :
    Activates setting e m ⟨g.context, g.parameters, last, x⟩
  /-- A step of a `loop` form, the first one or one that was asked for again. -/
  | loop {head parameterList body : Form} {initials : List Form} {names : List String}
    {arguments last : List Value} {u x : World} {n : Nat}
    (hform : m.form = .list [head, parameterList, .list initials, body])
    (hhead : head.special? = some .loop) (hnames : parameters parameterList = .ok names)
    (hinitials : values e m.context initials m.world = .ok arguments u)
    (hpasses : (Loop.ofForm e m.context names body).Passes n u arguments x last)
    (hn : n < setting.limits.steps) (hlength : last.length = names.length) :
    Activates setting e m ⟨m.context, names, last, x⟩

/-- **Every call and every step of a loop binds**, if there are as many values as parameters. -/
theorem Activates.binds (h : m.Activates setting e b) : m.Binds setting e b := by
  refine binds_of_failing fun f ↦ ?_
  cases h with
  | call hform hhead hfunction harguments hkind hlength =>
    rw [outcome, hform, stepWith_call hhead, bind_of_ok hfunction, bind_of_ok harguments, applyWith,
      if_neg hkind, expectCount, if_pos hlength]
    exact (bind_of_ok (a := ()) rfl).trans (bind_of_error (if_pos rfl))
  | again hform hhead hfunction harguments hkind hpasses hn hlength =>
    rw [outcome, hform, stepWith_call hhead, bind_of_ok hfunction, bind_of_ok harguments, applyWith,
      if_pos hkind]
    exact run_failing rfl check_ofFunction hpasses
      (by simp only [Loop.ofFunction, expectCount, hlength]; rfl) hn
  | loop hform hhead hnames hinitials hpasses hn hlength =>
    rw [outcome, hform, stepWith_loop hhead]
    refine bind_of_error ?_
    rw [loopWith, bind_of_ok hinitials, hnames]
    exact run_failing rfl check_ofForm hpasses (by simp only [Loop.ofForm, hlength]; rfl) hn

end Moment

/-! ### Whole runs -/

namespace Interpreter

open Evaluation

variable {i : Interpreter} {setting : Setting} {w : World} {request : Request}
  {loads : List String} {depth : Nat} {m : Moment} {D : Discipline setting}

/-- The worlds that an interpreter gets into bind functions with parameter lists in order. -/
theorem listed_of_reachable (h : i.Reachable w) : w.All Value.Listed := by
  obtain ⟨host, roots, name, stamps, -, hleads⟩ := h
  refine hleads.keeps (fun limits host request u hu ↦ ?_)
    (all_create (fun _ _ ↦ Value.every_native _ _) host roots name stamps)
  exact ((Discipline.closed_listing (i.within limits host)).after i request hu trivial).1

/-- A discipline that requests keep holds where the forms of a module are evaluated. -/
theorem admits_of_loadText (hD : D.Closed) (hw : D.world w) {n text : String}
    (h : m.ComesTo (fun e ↦ Evaluation.loadText setting e n text w) (evaluator setting)) :
    D.world m.world ∧ D.context m.world m.context ∧ D.form m.context m.position m.form := by
  unfold Evaluation.loadText at h
  rcases hread : readModule setting.limits text with f | forms
  · rw [hread] at h
    exact absurd h (Moment.not_comesTo_of_eq fun _ ↦ rfl)
  · rw [hread] at h
    have hload : m.ComesTo (fun e ↦ loadForms e n forms w) (evaluator setting) := h
    have hrun : m.ComesTo
        (fun e ↦ runForms e (w.createNamespace n).1 forms ((w.createNamespace n).2.markLoaded n))
        (evaluator setting) :=
      hload.of_part fun heq ↦ by rw [loadForms_apply, loadForms_apply, heq]
    have hloads := hD.loadsFrom n hw
    exact D.admits_of_runForms hloads.world_mark
      (D.context_later hloads.later_mark (D.context_namespace n hw))
      (fun form hform ↦ hD.form_checked _ (check_of_readModule hread form hform)) hrun

/-- A discipline that requests keep holds where the first form of a request is evaluated, the first
of a module included. -/
theorem Begins.admits (h : i.Begins setting w request loads m) (hD : D.Closed) (hw : D.world w)
    (hhome : D.context w (.top i.home)) :
    D.world m.world ∧ D.context m.world m.context ∧ D.form m.context m.position m.form := by
  cases h with
  | evalText _ hcheck => exact ⟨hw, hhome, hD.form_checked _ hcheck⟩
  | @evalAll _ before _ _ _ _ _ hbefore hcheck =>
    have hkeeps := hD.evalForms before .nothing hw hhome
    rw [hbefore] at hkeeps
    exact ⟨hkeeps.1, D.context_later hkeeps.2 hhome, hD.form_checked _ hcheck⟩
  | loadText h => exact admits_of_loadText hD hw h
  | loadModule h =>
    obtain ⟨text, htext⟩ := Moment.comesTo_loadText_of_loadModule h
    exact admits_of_loadText hD hw htext

/-- **A discipline that requests keep holds at every moment of a request.** By induction on the way
to the moment. -/
theorem During.admits (h : i.During setting w request loads depth m) (hD : D.Closed)
    (hw : D.world w) (hhome : D.context w (.top i.home)) :
    D.world m.world ∧ D.context m.world m.context ∧ D.form m.context m.position m.form := by
  induction h with
  | begins h => exact h.admits hD hw hhome
  | inside _ hleads ih =>
    obtain ⟨hworld, hcontext, hform⟩ := ih
    exact D.admits_of_leadsTo hworld hcontext hform hleads

/-- **Binding parameters never fails and never drops an argument.** Whenever a call or a step of a
loop binds parameters, at any moment of any request, there are as many arguments as parameters, and
these are distinct plain identifiers. Opening the scope succeeds, and all it changes is that there
is one more scope, which binds exactly the parameters, each to the argument in its place. -/
theorem parameters_bound_exactly {limits : Limits} {host : Host} {b : Opening} (hw : i.Reachable w)
    (hm : i.During (i.within limits host) w request loads (depth + 1) m)
    (hb : m.Binds (i.within limits host) (evaluate (i.within limits host) depth) b) :
    b.arguments.length = b.names.length ∧ b.names.Nodup ∧
      (∀ n ∈ b.names, Name.isFull n = false) ∧
      ∃ scope u, openScope b.outer b.names b.arguments b.world = .ok scope u ∧
        scope = .scope ⟨b.world.scopes.size⟩ b.outer ∧
        u = b.world.pushScope b.outer (u.bindingsOf scope) ∧
        (u.bindingsOf scope).names = b.names ∧
        ∀ (j : Nat) n, b.names[j]? = some n → (u.bindingsOf scope).get? n = b.arguments[j]? := by
  have hlisted := (hm.admits (Discipline.closed_listing _) (listed_of_reachable hw) trivial).1
  obtain ⟨hnames, hlength⟩ := Moment.fits_of_binds hlisted hb
  have hbound : (b.world.pushScope b.outer ⟨b.names.zip b.arguments⟩).bindingsOf
      (.scope ⟨b.world.scopes.size⟩ b.outer) = ⟨b.names.zip b.arguments⟩ :=
    World.scopeAt_pushScope
  refine ⟨hlength, hnames.distinct, hnames.plain, _, _, openScope_of_areParameters hnames, rfl, ?_⟩
  rw [hbound]
  exact ⟨rfl, Bindings.names_zip hlength, fun j n hj ↦ Bindings.get?_zip hnames.distinct hj⟩

/-- A recursive function that an earlier request defined:
`(defnr f (x y) (if (native.i64.eq x 0) (break y) (recur 0 x)))`. What `(f 1 2)` binds when it asks
for its second step. -/
theorem parameters_bound_exactly_again :
    ∃ (i : Interpreter) (w : World) (m : Moment) (b : Opening), i.Reachable w ∧
      i.During (i.within ⟨20, 20, 20⟩ Host.empty) w (.evalText "(f 1 2)") [] 20 m ∧
      m.Binds (i.within ⟨20, 20, 20⟩ Host.empty)
        (evaluate (i.within ⟨20, 20, 20⟩ Host.empty) 19) b ∧
      b.names = ["x", "y"] ∧ b.arguments = [.number 0, .number 1] ∧
      ∃ scope u, openScope b.outer b.names b.arguments b.world = .ok scope u ∧
        (u.bindingsOf scope).names = ["x", "y"] ∧
        (u.bindingsOf scope).get? "y" = some (.number 1) := by
  generalize hi : (create Host.empty none none 0).1 = i
  generalize hsetting : i.within ⟨20, 20, 20⟩ Host.empty = setting
  generalize hw : i.after setting
    (.evalText "(defnr f (x y) (if (native.i64.eq x 0) (break y) (recur 0 x)))")
    (create Host.empty none none 0).2 = w
  generalize hg : (⟨.recursive, "f", ["x", "y"],
    .list [.symbol "if", .list [.symbol "native.i64.eq", .symbol "x", .number 0],
      .list [.symbol "break", .symbol "y"], .list [.symbol "recur", .number 0, .symbol "x"]],
    .top ⟨5⟩, 105⟩ : Function) = g
  have hreachable : i.Reachable w := by
    refine ⟨Host.empty, none, none, 0, hi.symm, ?_⟩
    rw [← hw, ← hsetting]
    exact .step _ _ _ (.refl _)
  have hbegins : i.During setting w (.evalText "(f 1 2)") [] setting.limits.depth
      ⟨.list [.symbol "f", .number 1, .number 2], .top i.home, .value, w⟩ := by
    have hread : readText "(f 1 2)" = .ok (.list [.symbol "f", .number 1, .number 2]) := by
      have hform : (readText "(f 1 2)").toOption =
          some (.list [.symbol "f", .number 1, .number 2]) := by
        decide +kernel
      rcases hresult : readText "(f 1 2)" with f | form
      · rw [hresult] at hform
        cases hform
      · rw [hresult] at hform
        exact congrArg Except.ok (Option.some.inj hform)
    have hcheck : Placement.check 20 (.list [.symbol "f", .number 1, .number 2]) = .ok () := by rfl
    exact .begins (.evalText hread (by rw [← hsetting]; exact hcheck))
  have hfunction : evaluate setting 19 (.symbol "f") (.top i.home) .value w =
      .ok (.function g) w := by
    have hlookup : w.lookup? (.top i.home) "f" = some (.function g) := by
      subst hg hw hsetting hi
      decide +kernel
    show Evaluation.get (.top i.home) "f" w = _
    rw [Evaluation.get, hlookup]
  -- The first step asks for a second one, which gets the first value as its second.
  have hagain : answer? ((Loop.ofFunction (evaluate setting 19) g).iteration
      [.number 1, .number 2] w) = some (.signal .again [.number 0, .number 1]) := by
    subst hg hw hsetting hi
    decide +kernel
  obtain ⟨x, hx⟩ := ok_of_answer _ hagain
  have hbinds : Moment.Binds setting (evaluate setting 19)
      ⟨.list [.symbol "f", .number 1, .number 2], .top i.home, .value, w⟩
      ⟨g.context, g.parameters, [.number 0, .number 1], x⟩ :=
    (Moment.Activates.again rfl rfl hfunction rfl (by rw [← hg]) (.again hx (.refl x _))
      (by rw [← hsetting]; exact (by decide : 0 + 1 < 20)) (by rw [← hg]; rfl)).binds
  subst hsetting
  obtain ⟨-, -, -, scope, u, hopen, -, -, hnames, hget⟩ :=
    parameters_bound_exactly hreachable hbegins hbinds
  refine ⟨i, w, _, _, hreachable, hbegins, hbinds, by rw [← hg], rfl, scope, u, hopen, ?_, ?_⟩
  · rw [hnames, ← hg]
  · exact hget 1 "y" (by rw [← hg]; rfl)

end Interpreter

end DottedLisp
