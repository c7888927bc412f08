import DottedLisp.Evaluation.Step
import DottedLisp.Proofs.Parts
import DottedLisp.Proofs.Translation

/-!
# Disciplines and simulations

The two ways of proving something about **every** evaluation, each reduced to what the primitive
changes of the world do.

A `Discipline` is what evaluations keep: which worlds, values, contexts and forms they meet, how
worlds change on the way, and which failures can come out. Its laws are about single changes and
look-ups. A `Simulation` is a discipline together with a second run that goes along with the first:
worlds are related, function objects are translated, and the laws say that related worlds answer
alike and stay related.

One pass over the evaluator then serves all of them. It is made for simulations, in
`Simulation/Evaluator`; a discipline is the simulation of a run by itself (`Discipline.self`).

Four decisions keep the laws small.

* Contexts are translated by **one function for the whole run**, the identity unless said otherwise.
  Corresponding runs make their namespaces and scopes in the same order, so identities agree or
  differ by an offset that was there from the start.
* A run that ends in an **excused** failure is followed by anything. Nothing is claimed about the
  second run then, while the discipline's claims about the first run remain. Exceeding a limit is
  excused unless said otherwise; if nothing is excused, the two runs end alike in every case.
* `Discipline.later` relates a world to every world that follows it in one evaluation, and values
  and contexts stay admitted along it. What holds at the moment a value is made therefore still
  holds when it is used.
* A failure ends the run, and all that is done after it is to take loads back. What it leaves may be
  less than what evaluation keeps; `Discipline.failed` says what.
-/

namespace DottedLisp

/-- Whether a failure is about the places of `break` and `recur`. -/
def Failure.isPlacing : Failure → Bool
  | .fault (.placement _) | .fault (.strayed _) | .fault (.unended _) => true
  | _ => false

/-- Whether a failure says that a limit was exceeded. -/
def Failure.isLimit : Failure → Bool
  | .depthExceeded | .stepsExceeded => true
  | _ => false

namespace Evaluation

variable {α β : Type} {m : Evaluation α} {k : α → Evaluation β} {w u : World}

theorem bind_of_ok {a : α} (h : m w = .ok a u) : (m >>= k) w = k a u := by
  show EStateM.bind m k w = k a u
  unfold EStateM.bind
  rw [h]

theorem bind_of_error {f : Failure} (h : m w = .error f u) : (m >>= k) w = .error f u := by
  show EStateM.bind m k w = .error f u
  unfold EStateM.bind
  rw [h]

/-- Only the outcome of the first part matters for the rest. -/
theorem bind_of_eq {m' : Evaluation α} {w' : World} (h : m w = m' w') :
    (m >>= k) w = (m' >>= k) w' := by
  show EStateM.bind m k w = EStateM.bind m' k w'
  unfold EStateM.bind
  rw [h]

/-- The answer of an outcome, if it is one. -/
def answer? : EStateM.Result Failure World α → Option α
  | .ok a _ => some a
  | .error _ _ => none

/-- The failure of an outcome, if it is one. -/
def failure? : EStateM.Result Failure World α → Option Failure
  | .ok _ _ => none
  | .error f _ => some f

theorem ok_of_answer (outcome : EStateM.Result Failure World α) {a : α}
    (h : answer? outcome = some a) : ∃ u, outcome = .ok a u := by
  cases outcome with
  | ok b u =>
    cases h
    exact ⟨u, rfl⟩
  | error f u => cases h

theorem error_of_failure (outcome : EStateM.Result Failure World α) {f : Failure}
    (h : failure? outcome = some f) : ∃ u, outcome = .error f u := by
  cases outcome with
  | ok a u => cases h
  | error g u =>
    cases h
    exact ⟨u, rfl⟩

end Evaluation

/-- What evaluations keep. Everything is admitted unless said otherwise. -/
structure Discipline (setting : Setting) where
  /-- The worlds that evaluation meets. -/
  world : World → Prop := fun _ ↦ True
  /-- The worlds that a failure leaves. -/
  failed : World → Prop := world
  /-- How the world changes in the course of an evaluation. -/
  later : World → World → Prop := fun _ _ ↦ True
  /-- The values that are bound and passed. -/
  value : World → Value → Prop := fun _ _ ↦ True
  /-- The contexts in which forms are evaluated. -/
  context : World → Context → Prop := fun _ _ ↦ True
  /-- The contexts inside which scopes are opened. -/
  outer : World → Context → Prop := fun _ _ ↦ True
  /-- The forms that are evaluated in a context for a purpose. -/
  form : Context → Position → Form → Prop := fun _ _ _ ↦ True
  /-- The names that are bound in the innermost level of a context. -/
  name : Context → String → Prop := fun _ _ ↦ True
  /-- The failures that evaluation ends in. -/
  failure : Failure → Prop := fun _ ↦ True
  later_refl (w : World) : later w w := by intros; trivial
  later_trans {w₁ w₂ w₃ : World} : later w₁ w₂ → later w₂ w₃ → later w₁ w₃ := by intros; trivial
  value_later {w w' : World} {v : Value} : later w w' → value w v → value w' v := by
    intros; trivial
  context_later {w w' : World} {c : Context} : later w w' → context w c → context w' c := by
    intros; trivial
  outer_later {w w' : World} {c : Context} : later w w' → outer w c → outer w' c := by
    intros; trivial
  outer_of_context {w : World} {c : Context} : context w c → outer w c := by intros; trivial
  failed_of_world {w : World} : world w → failed w := by intros; trivial
  -- look-ups and values that are made
  value_nothing (w : World) : value w .nothing := by intros; trivial
  value_number (w : World) (x : Float) : value w (.number x) := by intros; trivial
  value_lookup {w : World} {c : Context} {n : String} {v : Value} :
    world w → context w c → w.lookup? c n = some v → value w v := by intros; trivial
  value_function {w : World} {c : Context} {position : Position} {e body parameterList : Form}
      {kind : FunctionKind} {n : String} {parameters : List String} :
    world w → context w c → form c position e →
      e.Part position (.body kind) kind.bodyPosition body →
      Evaluation.parameters parameterList = .ok parameters →
      value w.addStamp.2 (.function ⟨kind, n, parameters, body, c, w.stamps⟩) := by
    intros; trivial
  value_signal {w : World} {s : Signal} {values : List Value} {x : Value} :
    value w (.signal s values) → x ∈ values → value w x := by intros; trivial
  outer_function {w : World} {f : Function} :
    world w → value w (.function f) → outer w f.context := by intros; trivial
  context_registered {w : World} {path : String} {id : NamespaceId} :
    world w → w.registered? path = some id → context w (.top id) := by intros; trivial
  -- forms and names
  form_here {c : Context} {position purpose : Position} {e part : Form} :
    form c position e → e.Part position .here purpose part → form c purpose part := by
    intros; trivial
  form_inside {w : World} {c : Context} {position purpose : Position} {e part : Form} :
    world w → form c position e → e.Part position .inside purpose part →
      form (w.addScope c).1 purpose part := by intros; trivial
  form_top {c : Context} {id : NamespaceId} {position purpose : Position} {e part : Form} :
    form c position e → e.Part position .top purpose part → form (.top id) purpose part := by
    intros; trivial
  form_body {w : World} {f : Function} :
    world w → value w (.function f) →
      form (w.addScope f.context).1 f.kind.bodyPosition f.body := by intros; trivial
  form_module {n text : String} {forms : List Form} {e : Form} (id : NamespaceId) :
    setting.findModule n = .ok (some text) →
      Evaluation.readModule setting.limits text = .ok forms → e ∈ forms →
      form (.top id) .value e := by intros; trivial
  name_top {id : NamespaceId} {n : String} : name (.top id) n := by intros; trivial
  name_scope {w : World} {c : Context} {n : String} : world w → name (w.addScope c).1 n := by
    intros; trivial
  name_let {c : Context} {position : Position} {head value : Form} {n : String} :
    form c position (.list [head, .symbol n, value]) → head.special? = some .localVariable →
      name c n := by intros; trivial
  -- changes
  world_scope {w : World} {c : Context} : world w → outer w c → world (w.addScope c).2 := by
    intros; trivial
  later_scope {w : World} {c : Context} : world w → outer w c → later w (w.addScope c).2 := by
    intros; trivial
  context_scope {w : World} {c : Context} :
    world w → outer w c → context (w.addScope c).2 (w.addScope c).1 := by intros; trivial
  world_stamp {w : World} : world w → world w.addStamp.2 := by intros; trivial
  later_stamp {w : World} : world w → later w w.addStamp.2 := by intros; trivial
  world_namespace {w : World} (path : String) : world w → world (w.createNamespace path).2 := by
    intros; trivial
  later_namespace {w : World} (path : String) :
    world w → later w (w.createNamespace path).2 := by intros; trivial
  context_namespace {w : World} (path : String) :
    world w → context (w.createNamespace path).2 (.top (w.createNamespace path).1) := by
    intros; trivial
  world_insert {w : World} {c : Context} {n : String} {v : Value} :
    world w → context w c → name c n → value w v → (w.bindingsOf c).binds n = false →
      world (w.modifyBindings c fun b ↦ b.insert n v) := by intros; trivial
  later_insert {w : World} {c : Context} {n : String} {v : Value} :
    world w → context w c → name c n → value w v → (w.bindingsOf c).binds n = false →
      later w (w.modifyBindings c fun b ↦ b.insert n v) := by intros; trivial
  world_replace {w : World} {c scope : Context} {n : String} {v : Value} :
    world w → context w c → value w v → w.findScope? c n = some scope →
      world (w.modifyBindings scope fun b ↦ b.replace n v) := by intros; trivial
  later_replace {w : World} {c scope : Context} {n : String} {v : Value} :
    world w → context w c → value w v → w.findScope? c n = some scope →
      later w (w.modifyBindings scope fun b ↦ b.replace n v) := by intros; trivial
  world_mark {w : World} {n : String} :
    world w → w.isRegistered n = true ∧ w.isLoaded n = false → world (w.markLoaded n) := by
    intros; trivial
  later_mark {w : World} {n : String} :
    world w → w.isLoaded n = false → later w (w.markLoaded n) := by intros; trivial
  failed_rollback {w₁ w₂ : World} {n : String} :
    world w₁ → failed w₂ → later w₁ w₂ → w₁.isLoaded n = false →
      failed (w₂.rollback w₁.paths w₁.loaded n) := by intros; trivial
  later_rollback {w₁ w₂ : World} {n : String} :
    world w₁ → failed w₂ → later w₁ w₂ → w₁.isLoaded n = false →
      later w₁ (w₂.rollback w₁.paths w₁.loaded n) := by intros; trivial
  -- failures
  failure_of_not_placing {f : Failure} : f.isPlacing = false → failure f := by intros; trivial
  failure_find {n : String} {f : Failure} :
    setting.findModule n = .error f → failure f := by intros; trivial
  failure_read {n text : String} {f : Failure} :
    setting.findModule n = .ok (some text) →
      Evaluation.readModule setting.limits text = .error f → failure f := by intros; trivial
  failure_of_signal {w : World} {s : Signal} {values : List Value} :
    value w (.signal s values) → ∀ f, failure f := by intros; trivial
  failure_of_leave {c : Context} {head : Form} {operands : List Form} :
    form c .value (.list (head :: operands)) → head.special? = some .leave →
      ∀ f, failure f := by intros; trivial
  failure_of_again {c : Context} {head : Form} {operands : List Form} :
    form c .value (.list (head :: operands)) → head.special? = some .again →
      ∀ f, failure f := by intros; trivial
  failure_of_not_endsPath {c : Context} {e : Form} :
    form c .tail e → ¬ e.EndsPath → ∀ f, failure f := by intros; trivial

namespace Discipline

variable {setting : Setting} (D : Discipline setting)

/-- What evaluating in a position gives: a value; in tail position a signal with values, or also a
value if the discipline does not restrict failures. -/
def result : Position → World → Value → Prop
  | .value, w, v => D.value w v
  | .tail, w, v =>
    (∃ s values, v = .signal s values ∧ ∀ x ∈ values, D.value w x) ∨
      (∀ f, D.failure f) ∧ D.value w v

end Discipline

/-- What a second run is given from outside in place of what the first one is given, and how far the
two may part. -/
structure Allowance (setting setting' : Setting) where
  /-- The failures of the first run after which nothing is said of the second. -/
  excused : Failure → Prop := fun f ↦ f.isLimit = true
  findModule_eq (n : String) : setting'.findModule n = setting.findModule n
  steps_le : setting.limits.steps ≤ setting'.limits.steps
  steps_eq : excused .stepsExceeded ∨ setting'.limits.steps = setting.limits.steps := by
    exact Or.inl rfl
  read_ok {text : String} {forms : List Form} :
    Evaluation.readModule setting.limits text = .ok forms →
      Evaluation.readModule setting'.limits text = .ok forms
  read_error {text : String} {f : Failure} :
    Evaluation.readModule setting.limits text = .error f →
      excused f ∨ Evaluation.readModule setting'.limits text = .error f

/-- Both runs are given the same, and nothing is excused. -/
def Allowance.same (setting : Setting) : Allowance setting setting where
  excused _ := False
  findModule_eq _ := rfl
  steps_le := Nat.le_refl _
  steps_eq := Or.inr rfl
  read_ok h := h
  read_error h := Or.inr h

/-! What is renamed by no renaming. -/

theorem Function.stamp_id (f g : Function) : (id f).stamp = (id g).stamp ↔ f.stamp = g.stamp :=
  Iff.rfl

theorem Context.top_id (n : NamespaceId) : id (Context.top n) = .top (id n) := rfl

theorem Context.isTop_id (c : Context) : (id c).isTop = c.isTop := rfl

/-- A second run that goes along with the runs of a discipline. -/
structure Simulation (setting setting' : Setting) extends
    Discipline setting, Allowance setting setting' where
  /-- The worlds that the two runs are in at corresponding moments. -/
  related : World → World → Prop
  /-- The worlds that the two runs are in after corresponding failures. -/
  parted : World → World → Prop := related
  /-- The function object that the second run has in place of one of the first. -/
  function : Function → Function := id
  /-- The namespace that the second run has in place of one of the first. -/
  space : NamespaceId → NamespaceId := id
  /-- The context that the second run has in place of one of the first. -/
  move : Context → Context := id
  world_of_related {w w' : World} : related w w' → world w
  parted_of_related {w w' : World} : related w w' → parted w w' := by intros; trivial
  stamp_function (f g : Function) :
    (function f).stamp = (function g).stamp ↔ f.stamp = g.stamp := by exact Function.stamp_id
  move_top (id : NamespaceId) : move (.top id) = .top (space id) := by exact Context.top_id
  isTop_move (c : Context) : (move c).isTop = c.isTop := by exact Context.isTop_id
  -- related worlds answer alike
  path_eq {w w' : World} (c : Context) :
    related w w' → (w'.namespaceAt (move c).home).path = (w.namespaceAt c.home).path
  registered_eq {w w' : World} (path : String) :
    related w w' → w'.registered? path = (w.registered? path).map space
  loaded_eq {w w' : World} (path : String) :
    related w w' → w'.isLoaded (Name.moduleOf path) = w.isLoaded (Name.moduleOf path) ∨
      setting.findModule (Name.moduleOf path) = .ok none
  lookup_eq {w w' : World} {c : Context} {position : Position} {n : String} :
    related w w' → context w c → form c position (.symbol n) →
      w'.lookup? (move c) n = (w.lookup? c n).map (.translate function)
  lookup_top_eq {w w' : World} {id : NamespaceId} {n : String} :
    related w w' → context w (.top id) →
      w'.lookup? (.top (space id)) n = (w.lookup? (.top id) n).map (.translate function)
  binds_eq {w w' : World} {c : Context} {n : String} :
    related w w' → context w c → name c n →
      (w'.bindingsOf (move c)).binds n = (w.bindingsOf c).binds n
  findScope_eq {w w' : World} {c : Context} {position : Position} {head e : Form} {n : String} :
    related w w' → context w c → form c position (.list [head, .symbol n, e]) →
      head.special? = some .assignment → w'.findScope? (move c) n = (w.findScope? c n).map move
  -- related worlds stay related
  scope_eq {w w' : World} {c : Context} :
    related w w' → (w'.addScope (move c)).1 = move (w.addScope c).1
  related_scope {w w' : World} {c : Context} :
    related w w' → outer w c → related (w.addScope c).2 (w'.addScope (move c)).2
  function_eq {w w' : World} {kind : FunctionKind} {n : String} {parameters : List String}
      {body : Form} {c : Context} :
    related w w' →
      function ⟨kind, n, parameters, body, c, w.stamps⟩ =
        ⟨kind, n, parameters, body, move c, w'.stamps⟩
  related_stamp {w w' : World} : related w w' → related w.addStamp.2 w'.addStamp.2
  namespace_eq {w w' : World} (path : String) :
    related w w' → (w'.createNamespace path).1 = space (w.createNamespace path).1
  related_namespace {w w' : World} (path : String) :
    related w w' → related (w.createNamespace path).2 (w'.createNamespace path).2
  related_insert {w w' : World} {c : Context} {n : String} {v : Value} :
    related w w' → context w c → name c n → value w v → (w.bindingsOf c).binds n = false →
      related (w.modifyBindings c fun b ↦ b.insert n v)
        (w'.modifyBindings (move c) fun b ↦ b.insert n (v.translate function))
  related_replace {w w' : World} {c scope : Context} {n : String} {v : Value} :
    related w w' → context w c → value w v → w.findScope? c n = some scope →
      related (w.modifyBindings scope fun b ↦ b.replace n v)
        (w'.modifyBindings (move scope) fun b ↦ b.replace n (v.translate function))
  related_mark {w w' : World} {n : String} :
    related w w' → w.isRegistered n = true ∧ w.isLoaded n = false →
      related (w.markLoaded n) (w'.markLoaded n)
  parted_rollback {w₁ w₁' w₂ w₂' : World} {n : String} :
    related w₁ w₁' → parted w₂ w₂' → later w₁ w₂ → w₁.isLoaded n = false →
      parted (w₂.rollback w₁.paths w₁.loaded n) (w₂'.rollback w₁'.paths w₁'.loaded n)

namespace Simulation

variable {setting setting' : Setting} (S : Simulation setting setting')

/-- The value that the second run has in place of one of the first. -/
abbrev translate : Value → Value := Value.translate S.function

/-- **The second run follows the first.** From `w`, the evaluation `m` keeps the discipline and
gives an answer that is admitted by `P`, or an admitted failure; from `w'`, the evaluation `m'`
ends in the same way, with the answer translated by `t`, unless the failure of `m` is excused. -/
def Follows {α : Type} (w w' : World) (m m' : Evaluation α) (t : α → α) (P : World → α → Prop) :
    Prop :=
  match m w with
  | .ok a u => S.world u ∧ S.later w u ∧ P u a ∧ ∃ u', m' w' = .ok (t a) u' ∧ S.related u u'
  | .error f u =>
    S.failed u ∧ S.later w u ∧ S.failure f ∧
      (S.excused f ∨ ∃ u', m' w' = .error f u' ∧ S.parted u u')

variable {S} {α β : Type} {w w' : World}

theorem failed_of_related (h : S.related w w') : S.failed w :=
  S.failed_of_world (S.world_of_related h)

/-! ### Rules -/

theorem Follows.of_ok {m m' : Evaluation α} {t : α → α} {P : World → α → Prop} {a : α}
    {u u' : World} (hm : m w = .ok a u) (hm' : m' w' = .ok (t a) u') (hlater : S.later w u)
    (hrelated : S.related u u') (ha : P u a) : S.Follows w w' m m' t P := by
  rw [Follows, hm]
  exact ⟨S.world_of_related hrelated, hlater, ha, u', hm', hrelated⟩

theorem Follows.of_error {m m' : Evaluation α} {t : α → α} {P : World → α → Prop} {f : Failure}
    {u u' : World} (hm : m w = .error f u) (hm' : m' w' = .error f u') (hlater : S.later w u)
    (hrelated : S.related u u') (hf : S.failure f) : S.Follows w w' m m' t P := by
  rw [Follows, hm]
  exact ⟨failed_of_related hrelated, hlater, hf, Or.inr ⟨u', hm', S.parted_of_related hrelated⟩⟩

/-- Both runs are refused where they stand, for a reason that is not about placement. -/
theorem Follows.of_fault {m m' : Evaluation α} {t : α → α} {P : World → α → Prop} {fault : Fault}
    (hm : m w = .error (.fault fault) w) (hm' : m' w' = .error (.fault fault) w')
    (h : S.related w w') (hf : (Failure.fault fault).isPlacing = false) :
    S.Follows w w' m m' t P :=
  Follows.of_error hm hm' (S.later_refl w) h (S.failure_of_not_placing hf)

/-- An excused failure of the first run. Nothing has to be known of the second one. -/
theorem Follows.of_excused {m m' : Evaluation α} {t : α → α} {P : World → α → Prop} {f : Failure}
    (hm : m w = .error f w) (hf : S.failure f) (hexcused : S.excused f) (h : S.related w w') :
    S.Follows w w' m m' t P := by
  rw [Follows, hm]
  exact ⟨failed_of_related h, S.later_refl w, hf, Or.inl hexcused⟩

theorem follows_pure (h : S.related w w') {t : α → α} {P : World → α → Prop} {a : α}
    (ha : P w a) : S.Follows w w' (pure a) (pure (t a)) t P :=
  Follows.of_ok rfl rfl (S.later_refl w) h ha

/-- Both runs fail on the spot, in the same way. -/
theorem follows_throw (h : S.related w w') {t : α → α} {P : World → α → Prop} {f : Failure}
    (hf : S.failure f) : S.Follows w w' (throw f) (throw f) t P :=
  Follows.of_error rfl rfl (S.later_refl w) h hf

/-- A failure that is not about placement is always admitted. -/
theorem follows_fail (h : S.related w w') {t : α → α} {P : World → α → Prop} {fault : Fault}
    (hf : (Failure.fault fault).isPlacing = false) :
    S.Follows w w' (Evaluation.fail fault) (Evaluation.fail fault) t P :=
  follows_throw h (S.failure_of_not_placing hf)

/-- What the answer is known to be may be weakened. -/
theorem Follows.mono {m m' : Evaluation α} {t : α → α} {P Q : World → α → Prop}
    (hm : S.Follows w w' m m' t P) (hPQ : ∀ a u, S.world u → P u a → Q u a) :
    S.Follows w w' m m' t Q := by
  unfold Follows at *
  split at hm
  · obtain ⟨hworld, hlater, ha, hrest⟩ := hm
    exact ⟨hworld, hlater, hPQ _ _ hworld ha, hrest⟩
  · exact hm

/-- Only what the evaluations do in the given worlds matters. -/
theorem Follows.congr {m m' k k' : Evaluation α} {t : α → α} {P : World → α → Prop}
    (hm : S.Follows w w' m m' t P) (hk : k w = m w) (hk' : k' w' = m' w') :
    S.Follows w w' k k' t P := by
  unfold Follows at *
  rw [hk, hk']
  exact hm

/-- **Sequencing.** What follows the first evaluation is run in a later pair of related worlds. -/
theorem Follows.bind {m m' : Evaluation α} {k k' : α → Evaluation β} {t : α → α} {s : β → β}
    {P : World → α → Prop} {Q : World → β → Prop} (hm : S.Follows w w' m m' t P)
    (hk : ∀ a u u', S.later w u → S.related u u' → P u a →
      S.Follows u u' (k a) (k' (t a)) s Q) :
    S.Follows w w' (m >>= k) (m' >>= k') s Q := by
  unfold Follows at hm
  split at hm
  · -- an answer: the rest starts from it in both runs
    rename_i a u hmw
    obtain ⟨-, hlater, ha, u', hmw', hrelated⟩ := hm
    have hnext := hk a u u' hlater hrelated ha
    unfold Follows at hnext ⊢
    rw [Evaluation.bind_of_ok hmw, Evaluation.bind_of_ok hmw']
    split at hnext
    · obtain ⟨hworld, hlater', hrest⟩ := hnext
      exact ⟨hworld, S.later_trans hlater hlater', hrest⟩
    · obtain ⟨hfailed, hlater', hrest⟩ := hnext
      exact ⟨hfailed, S.later_trans hlater hlater', hrest⟩
  · -- a failure: neither run comes to the rest
    rename_i f u hmw
    obtain ⟨hfailed, hlater, hf, hrest⟩ := hm
    unfold Follows
    rw [Evaluation.bind_of_error hmw]
    refine ⟨hfailed, hlater, hf, hrest.imp_right ?_⟩
    rintro ⟨u', hmw', hparted⟩
    exact ⟨u', Evaluation.bind_of_error hmw', hparted⟩

/-- Dropping the answer. -/
theorem Follows.discard {m m' : Evaluation α} {t : α → α} {P : World → α → Prop}
    (hm : S.Follows w w' m m' t P) :
    S.Follows w w' (discard m) (discard m') id fun _ _ ↦ True := by
  have h : S.Follows w w' (m >>= fun _ ↦ pure ()) (m' >>= fun _ ↦ pure ()) id fun _ _ ↦ True :=
    hm.bind fun _ _ _ _ hrelated _ ↦ follows_pure (t := id) (a := ()) hrelated trivial
  exact h

end Simulation

end DottedLisp
