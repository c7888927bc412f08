import DottedLisp.Proofs.Session

/-!
# Loop signals are confined

A loop signal is handed from the end of a control path to the loop that takes it, as an ordinary
result. Nothing keeps it from being bound or passed on but the way in which each form hands its
position to its parts, and the guard where a value is needed. Here it is shown that this is enough
**without the placement check**: from a world that binds no signal, every evaluation of every form
leaves one that binds none, whatever its outcome, and a signal that comes out of a tail position
carries values only.

The discipline `confining` restricts neither forms nor failures, so the guards may fire.
-/

namespace DottedLisp

/-- No loop signal is bound anywhere. -/
def World.SignalFree (w : World) : Prop :=
  w.All fun v ↦ v.isSignal = false

theorem World.SignalFree.rollback {w : World} (h : w.SignalFree) {paths loaded : List String}
    {n : String} : (w.rollback paths loaded n).SignalFree :=
  World.All.rollback h paths loaded

/-- What may come out of a tail position: any value, and a signal that carries no signal. -/
def Value.CarriesNoSignal (v : Value) : Prop :=
  ∀ s values, v = .signal s values → ∀ x ∈ values, x.isSignal = false

namespace Evaluation

/-- An answer has the property, and **whatever the outcome** no loop signal is bound. -/
def Confined {α : Type} (P : α → Prop) : EStateM.Result Failure World α → Prop
  | .ok a u => P a ∧ u.SignalFree
  | .error _ u => u.SignalFree

end Evaluation

namespace Discipline

open Evaluation

/-- **No signal is bound or passed on.** -/
def confining (setting : Setting) : Discipline setting where
  world := World.SignalFree
  value _ v := v.isSignal = false
  value_later _ hv := hv
  value_nothing _ := rfl
  value_number _ _ := rfl
  value_lookup hworld _ hlookup := World.All.lookup hworld hlookup
  value_function _ _ _ _ _ := rfl
  value_signal hsignal _ := by cases hsignal
  world_scope hworld _ := World.All.scope hworld
  world_stamp hworld := World.All.stamp hworld
  world_namespace path hworld := World.All.createNamespace hworld path
  world_insert hworld _ _ hv _ := World.All.insert hworld hv
  world_replace hworld _ hv _ := World.All.replace hworld hv
  world_mark hworld _ := World.All.mark hworld
  failed_rollback _ hworld _ _ := hworld.rollback

variable {setting : Setting} {α : Type} {w : World}

/-- What an evaluation ends in, in the words of the statements below. -/
theorem confined_of_ends {P : World → α → Prop} {Q : α → Prop}
    {outcome : EStateM.Result Failure World α} (h : (confining setting).Ends w P outcome)
    (hPQ : ∀ a u, P u a → Q a) : Confined Q outcome := by
  cases outcome with
  | ok a u =>
    obtain ⟨hworld, -, ha⟩ := h
    exact ⟨hPQ a u ha, hworld⟩
  | error f u => exact h.1

/-- A result in tail position carries no signal. -/
theorem carriesNoSignal_of_result {v : Value} (h : (confining setting).result .tail w v) :
    v.CarriesNoSignal := by
  rintro s values rfl x hx
  rcases h with ⟨s', values', heq, hvalues⟩ | ⟨-, hv⟩
  · obtain ⟨-, rfl⟩ := Value.signal.inj heq
    exact hvalues x hx
  · cases hv

end Discipline

namespace Evaluation

open Discipline

variable {setting : Setting} {w : World}

/-- Every evaluation from a world without signals, for a value or in tail position. -/
theorem confined_evaluate (hw : w.SignalFree) (depth : Nat) (form : Form) (c : Context)
    (position : Position) :
    (confining setting).Ends w ((confining setting).result position)
      (evaluate setting depth form c position w) :=
  ends_of_follows ((confining setting).evaluates depth ⟨rfl, hw⟩ trivial trivial)

/-- The operands of a call have values that are no signals. -/
theorem confined_values (hw : w.SignalFree) (depth : Nat) (forms : List Form) (c : Context) :
    Confined (fun values ↦ ∀ v ∈ values, v.isSignal = false)
      (values (evaluate setting depth) c forms w) := by
  have hends : (confining setting).Ends w (fun _ values ↦ ∀ v ∈ values, v.isSignal = false)
      (values (evaluate setting depth) c forms w) :=
    ends_of_follows (Simulation.follows_values ((confining setting).evaluates depth) ⟨rfl, hw⟩
      trivial fun _ _ ↦ trivial)
  exact confined_of_ends hends fun _ _ hvalues ↦ hvalues

variable {arguments : List Value}

/-- A call gives no signal; a signal in the place of the function is refused. -/
theorem confined_apply (hw : w.SignalFree) (depth : Nat) (operator : Form) (function : Value)
    (harguments : ∀ a ∈ arguments, a.isSignal = false) :
    Confined (fun v ↦ v.isSignal = false)
      (apply setting (evaluate setting depth) operator function arguments w) := by
  rcases hfunction : function.isSignal with - | -
  · have hcalls : (confining setting).self.Calls (evaluate setting depth)
        (evaluate setting depth) :=
      fun hrelated hf hvalues ↦ Simulation.follows_apply_function
        ((confining setting).evaluates depth) hrelated _ rfl hf hvalues
    have hends : (confining setting).Ends w (fun _ v ↦ v.isSignal = false)
        (apply setting (evaluate setting depth) operator function arguments w) :=
      ends_of_follows (Simulation.follows_apply hcalls ⟨rfl, hw⟩ hfunction harguments)
    exact confined_of_ends hends fun _ _ hv ↦ hv
  · cases function with
    | signal s values => exact hw
    | _ => cases hfunction

/-- The loop of a recursive function gives no signal. -/
theorem confined_run_function (hw : w.SignalFree) (depth : Nat) (f : Function) (steps : Nat)
    (harguments : ∀ a ∈ arguments, a.isSignal = false) :
    Confined (fun v ↦ v.isSignal = false)
      ((Loop.ofFunction (evaluate setting depth) f).run steps arguments w) := by
  have hends : (confining setting).Ends w (fun _ v ↦ v.isSignal = false)
      ((Loop.ofFunction (evaluate setting depth) f).run steps arguments w) :=
    ends_of_follows (Simulation.follows_run_function ((confining setting).evaluates depth)
      ⟨rfl, hw⟩ f.stamp trivial (fun _ _ ↦ trivial) (Nat.le_refl steps) (Or.inr rfl) harguments)
  exact confined_of_ends hends fun _ _ hv ↦ hv

/-- The loop of a `loop` form gives no signal. -/
theorem confined_run_form (hw : w.SignalFree) (depth : Nat) (c : Context) (names : List String)
    (body : Form) (steps : Nat) (harguments : ∀ a ∈ arguments, a.isSignal = false) :
    Confined (fun v ↦ v.isSignal = false)
      ((Loop.ofForm (evaluate setting depth) c names body).run steps arguments w) := by
  have hends : (confining setting).Ends w (fun _ v ↦ v.isSignal = false)
      ((Loop.ofForm (evaluate setting depth) c names body).run steps arguments w) :=
    ends_of_follows (Simulation.follows_run_form ((confining setting).evaluates depth) ⟨rfl, hw⟩
      trivial (fun _ _ ↦ trivial) (Nat.le_refl steps) (Or.inr rfl) harguments)
  exact confined_of_ends hends fun _ _ hv ↦ hv

/-- **Loop signals are confined**, for every form, checked or not. From a world that binds no
signal, evaluation for a value never gives one; a signal that evaluation in tail position gives
carries none; and whatever the outcome, no namespace and no scope, old or made on the way, binds
one. The operands of a call have values that are no signals, and given such arguments neither a
call nor either kind of loop gives a signal. -/
theorem signals_confined (setting : Setting) (depth : Nat) {w : World} (hw : w.SignalFree) :
    (∀ form c, Confined (fun v ↦ v.isSignal = false) (evaluate setting depth form c .value w)) ∧
      (∀ form c, Confined Value.CarriesNoSignal (evaluate setting depth form c .tail w)) ∧
      (∀ forms c, Confined (fun values ↦ ∀ v ∈ values, v.isSignal = false)
        (values (evaluate setting depth) c forms w)) ∧
      ∀ arguments : List Value, (∀ a ∈ arguments, a.isSignal = false) →
        (∀ operator function, Confined (fun v ↦ v.isSignal = false)
          (apply setting (evaluate setting depth) operator function arguments w)) ∧
        (∀ f steps, Confined (fun v ↦ v.isSignal = false)
          ((Loop.ofFunction (evaluate setting depth) f).run steps arguments w)) ∧
        ∀ c names body steps, Confined (fun v ↦ v.isSignal = false)
          ((Loop.ofForm (evaluate setting depth) c names body).run steps arguments w) := by
  refine ⟨fun form c ↦ ?_, fun form c ↦ ?_, fun forms c ↦ confined_values hw depth forms c,
    fun arguments harguments ↦ ⟨fun operator function ↦ ?_, fun f steps ↦ ?_,
      fun c names body steps ↦ ?_⟩⟩
  · exact confined_of_ends (confined_evaluate hw depth form c .value) fun _ _ hv ↦ hv
  · exact confined_of_ends (confined_evaluate hw depth form c .tail) fun _ _ hv ↦
      carriesNoSignal_of_result hv
  · exact confined_apply hw depth operator function harguments
  · exact confined_run_function hw depth f steps harguments
  · exact confined_run_form hw depth c names body steps harguments

/-- An unchecked block that would bind a signal is refused by the guard, and the scope that it
opened binds nothing. -/
theorem signals_confined_let :
    (Interpreter.create Host.empty none none 0).2.SignalFree ∧ ∃ f u,
      evaluate ⟨⟨9, 9, 9⟩, fun _ ↦ .ok none⟩ 9
        (.list [.symbol "do",
          .list [.symbol "let", .symbol "y", .list [.symbol "break", .number 1]]])
        (.top ⟨5⟩) .value (Interpreter.create Host.empty none none 0).2 = .error f u ∧
      f = .fault (.strayed "break") ∧ u.SignalFree := by
  have hw : (Interpreter.create Host.empty none none 0).2.SignalFree :=
    Interpreter.all_create (fun _ _ ↦ rfl) ..
  obtain ⟨hvalue, -⟩ := signals_confined ⟨⟨9, 9, 9⟩, fun _ ↦ .ok none⟩ 9 hw
  have hconfined := hvalue
    (.list [.symbol "do",
      .list [.symbol "let", .symbol "y", .list [.symbol "break", .number 1]]]) (.top ⟨5⟩)
  obtain ⟨u, hu⟩ := error_of_failure (f := .fault (.strayed "break"))
    (evaluate ⟨⟨9, 9, 9⟩, fun _ ↦ .ok none⟩ 9
      (.list [.symbol "do",
        .list [.symbol "let", .symbol "y", .list [.symbol "break", .number 1]]])
      (.top ⟨5⟩) .value (Interpreter.create Host.empty none none 0).2) (by decide +kernel)
  rw [hu] at hconfined
  exact ⟨hw, _, u, hu, rfl, hconfined⟩

end Evaluation

end DottedLisp
