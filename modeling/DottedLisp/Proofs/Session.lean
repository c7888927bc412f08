import DottedLisp.Interpreter
import DottedLisp.Proofs.BoundValues
import DottedLisp.Proofs.Simulation.Evaluator

/-!
# Sessions

Whole runs of an interpreter. A **request** is one of the four operations that take texts or
modules; a world **leads** to another one if some sequence of requests takes it there, whether they
succeed or fail. Files may change between requests, and each request may be given limits of its own,
so nothing proved here depends on how deep an evaluation may go.

A discipline that admits what the placement check lets through is kept by requests
(`Discipline.Checks.perform`), if it can say what loading a text does; one that always can is
`Discipline.Closed`. The check itself is the only source of failures that the discipline
does not see, and `Interpreter.Refuses` says what such a failure means: **nothing of the refused
form was evaluated**.
-/

namespace DottedLisp

/-! ### Requests -/

/-- What an interpreter is asked to do. -/
inductive Request where
  /-- Evaluate the first form of a text. -/
  | evalText (text : String)
  /-- Evaluate every form of a text. -/
  | evalAll (text : String)
  /-- Load a module from a text. -/
  | loadText (name text : String)
  /-- Load a module from its file, once. -/
  | loadModule (name : String)
  deriving Repr, DecidableEq

/-- What a request is answered with. -/
inductive Answer where
  /-- The value of the last form. -/
  | value (value : Value)
  /-- The namespace of the module. -/
  | home (id : NamespaceId)
  deriving DecidableEq

namespace Interpreter

/-- What evaluations are given by the host, if they may go as far as the given limits. -/
def within (i : Interpreter) (limits : Limits) (host : Host) : Setting :=
  ⟨limits, host.moduleText i.roots⟩

/-- The limits that interpreters use are among those that are spoken of here. -/
example (i : Interpreter) (host : Host) : i.setting host = i.within .standard host := rfl

/-- Carry out a request. -/
def perform (i : Interpreter) (setting : Setting) : Request → Evaluation Answer
  | .evalText text => return .value (← i.evalText setting text)
  | .evalAll text => return .value (← i.evalAll setting text)
  | .loadText name text => return .home (← loadText setting name text)
  | .loadModule name => return .home (← loadModule setting name)

/-- The world that a request leaves, answered or not. -/
def after (i : Interpreter) (setting : Setting) (request : Request) (w : World) : World :=
  match i.perform setting request w with
  | .ok _ u | .error _ u => u

/-- Some sequence of requests takes one world to the other. -/
inductive Leads (i : Interpreter) : World → World → Prop
  | refl (w : World) : Leads i w w
  | step {w u : World} (limits : Limits) (host : Host) (request : Request) :
    Leads i w u → Leads i w (i.after (i.within limits host) request u)

/-- The worlds that a fresh interpreter can get into. -/
def Reachable (i : Interpreter) (w : World) : Prop :=
  ∃ host roots name stamps, i = (create host roots name stamps).1 ∧
    i.Leads (create host roots name stamps).2 w

/-- **What every request keeps, every run keeps.** -/
theorem Leads.keeps {i : Interpreter} {keep : World → Prop}
    (hkeep : ∀ limits host request u, keep u → keep (i.after (i.within limits host) request u))
    {w w' : World} (h : i.Leads w w') (hw : keep w) : keep w' := by
  induction h with
  | refl => exact hw
  | step limits host request _ ih => exact hkeep limits host request _ ih

/-- **Finding a module fails for one of two reasons**: no file name can be made, or the host does
not look a file up or give its text. Whatever is wrong with the text shows later. -/
theorem error_of_find {i : Interpreter} {limits : Limits} {host : Host} {n : String} {f : Failure}
    (h : (i.within limits host).findModule n = .error f) :
    f = .moduleUnnamed ∨ ∃ error, f = .host error := by
  have htext : host.moduleText i.roots n = .error f := h
  rw [Host.moduleText] at htext
  split at htext
  · rename_i found _
    rcases hread : host.read found with error | text
    · rw [hread] at htext
      exact Or.inr ⟨error, (Except.error.inj htext).symm⟩
    · rw [hread] at htext
      cases htext
  · cases htext
  · rename_i hresolve
    cases htext
    rw [Host.resolve] at hresolve
    split at hresolve
    · rename_i file _
      rcases hlocate : host.locate? file (i.roots.getD host.roots) with error | found
      · rw [hlocate] at hresolve
        exact Or.inr ⟨error, (Except.error.inj hresolve).symm⟩
      · rw [hlocate] at hresolve
        cases hresolve
    · cases hresolve
      exact Or.inl rfl

/-! ### Fresh interpreters -/

/-- **What making namespaces and binding natives keeps, a fresh interpreter has.** -/
theorem keeps_create {keep : World → Prop} {stamps : Nat} (hempty : keep (.empty stamps))
    (hnamespace : ∀ w path, keep w → keep (w.createNamespace path).2)
    (hnative : ∀ w id entry, keep w → keep (addNative id w entry)) (host : Host)
    (roots : Option (List String)) (name : Option String) :
    keep (create host roots name stamps).2 := by
  have hnatives : keep (nativeWorld stamps) := by
    unfold nativeWorld
    refine List.foldlRecOn _ _ hempty fun u hu group _ ↦ ?_
    show keep (group.natives.foldl (addNative (u.createNamespace group.path).1)
      (u.createNamespace group.path).2)
    exact List.foldlRecOn _ _ (hnamespace u group.path hu) fun x hx entry _ ↦ hnative x _ entry hx
  unfold create
  generalize nativeWorld stamps = natives at hnatives
  exact hnamespace _ _ hnatives

/-- The home namespace of a fresh interpreter is registered. -/
theorem registered_create (host : Host) (roots : Option (List String)) (name : Option String)
    (stamps : Nat) : ∃ path, (create host roots name stamps).2.registered? path =
      some (create host roots name stamps).1.home := by
  unfold create
  generalize nativeWorld stamps = w
  exact ⟨_, w.registered_createNamespace _⟩

/-- **A fresh interpreter binds natives only.** -/
theorem all_create {p : Value → Prop} (hp : ∀ native stamp, p (.native native stamp))
    (host : Host) (roots : Option (List String)) (name : Option String) (stamps : Nat) :
    (create host roots name stamps).2.All p := by
  refine keeps_create (World.all_empty p stamps) (fun w path hw ↦ hw.createNamespace path)
    (fun w id entry hw ↦ ?_) host roots name
  unfold addNative
  exact hw.stamp.insert (hp _ _)

end Interpreter

/-! ### What reading can fail with -/

namespace TokenStream

/-- The fault that the stream held from the start, or one of a form that is not there or not
complete. -/
def Explains (s : TokenStream) (fault : Fault) : Prop :=
  s.fault = some fault ∨ fault ∈ [.unexpectedClose, .unmatchedOpen, .emptyInput]

/-- What reading does to the fault of a stream: it leaves it there, or meets it. -/
def Admits {α : Type} (s : TokenStream) : EStateM.Result Fault TokenStream α → Prop
  | .ok _ s' => s'.fault = s.fault
  | .error fault _ => s.Explains fault

/-- One action after the other. If the first one meets the fault, nothing comes after it. -/
theorem admits_bind {α β : Type} {m : Action α} {k : α → Action β} (hm : ∀ s, Admits s (m s))
    (hk : ∀ a s, Admits s (k a s)) (s : TokenStream) : s.Admits ((m >>= k) s) := by
  show s.Admits (EStateM.bind m k s)
  have hfirst := hm s
  unfold EStateM.bind
  rcases hms : m s with ⟨a, s'⟩ | ⟨fault, s'⟩
  · rw [hms] at hfirst
    have hsecond := hk a s'
    show s.Admits (k a s')
    unfold Admits Explains at *
    rwa [show s'.fault = s.fault from hfirst] at hsecond
  · rw [hms] at hfirst
    exact hfirst

theorem admits_ite {α : Type} {p : Prop} [Decidable p] {m k : Action α} {s : TokenStream}
    (hm : s.Admits (m s)) (hk : s.Admits (k s)) : s.Admits ((if p then m else k) s) := by
  split
  · exact hm
  · exact hk

/-- Pulling a token meets the fault only when no token is left … -/
theorem admits_pull (s : TokenStream) : s.Admits (pull s) := by
  obtain ⟨lookahead, tokens, fault⟩ := s
  rcases tokens with - | ⟨token, tokens⟩
  · cases fault with
    | none => rfl
    | some fault => exact Or.inl rfl
  · rfl

/-- … and so does looking at one, or taking one, or more. -/
theorem admits_peek (s : TokenStream) : s.Admits (peek s) := by
  have hpull := admits_pull s
  unfold peek
  split
  · rfl
  · rcases hs : pull s with ⟨token, s'⟩ | ⟨fault, s'⟩
    · rw [hs] at hpull
      exact hpull
    · rw [hs] at hpull
      exact hpull

theorem admits_advance (s : TokenStream) : s.Admits (advance s) := by
  unfold advance
  split
  · rfl
  · exact admits_pull s

/-- Reading a form ends in the fault of the stream, or in that of a form that is not there or not
complete. -/
theorem admits_readForm (s : TokenStream) : s.Admits (readForm s) := by
  refine admits_bind admits_peek (fun token s ↦ ?_) s
  rcases token with - | token
  · rfl
  · refine admits_bind admits_advance (fun _ s ↦ ?_) s
    refine admits_ite (Or.inr (by simp)) (admits_ite ?_ rfl)
    -- the rest of a list is read at once
    rcases readList [] [] s.tokens with - | ⟨form, rest⟩
    · rcases hfault : s.fault with - | fault
      · exact Or.inr (by simp)
      · exact Or.inl hfault
    · rfl

theorem admits_rest (s : TokenStream) : s.Admits (rest s) := by
  unfold rest
  rcases hfault : s.fault with - | fault
  · exact hfault.symm
  · exact Or.inl hfault

theorem admits_readFirst (s : TokenStream) : s.Admits (readFirst s) := by
  refine admits_bind admits_readForm (fun form s ↦ ?_) s
  cases form with
  | none => exact Or.inr (by simp)
  | some form =>
    refine admits_bind admits_rest (fun tokens s ↦ ?_) s
    rfl

/-- Reading forms again and again meets nothing else either. The induction is on the bound. -/
theorem explains_of_readUpTo {bound : Nat} {s s' : TokenStream} {forms : List Form}
    {fault : Fault} (h : readUpTo bound s = (forms, some fault, s')) : s.Explains fault := by
  induction bound generalizing s forms with
  | zero => cases h
  | succ bound ih =>
    have hread := admits_readForm s
    unfold readUpTo at h
    split at h
    · rename_i hs
      rw [hs] at hread
      cases h
      exact hread
    · cases h
    · rename_i form s₁ hs
      rw [hs] at hread
      simp only [Prod.mk.injEq] at h
      have hnext : readUpTo bound s₁ = ((readUpTo bound s₁).1, some fault, s') := by
        rw [← h.2.1, ← h.2.2]
      have hrest := ih hnext
      rwa [Explains, hread] at hrest

/-- Faults of the reader are not about placement. -/
theorem isPlacing_of_explains {text : String} {fault : Fault}
    (h : (ofText text).Explains fault) : (Failure.fault fault).isPlacing = false := by
  rcases h with hfault | hmem
  · obtain ⟨lexical, -, rfl⟩ := Option.map_eq_some_iff.1 hfault
    rfl
  · revert fault
    decide

end TokenStream

/-- Nor are they where one form is asked for. -/
theorem isPlacing_of_readText {text : String} {fault : Fault}
    (h : readText text = .error fault) : (Failure.fault fault).isPlacing = false := by
  have hread := TokenStream.admits_readFirst (.ofText text)
  unfold readText TokenStream.first at h
  rcases hfirst : TokenStream.readFirst (.ofText text) with ⟨answer, s⟩ | ⟨fault', s⟩
  · rw [hfirst] at h
    cases h
  · rw [hfirst] at h hread
    cases h
    exact TokenStream.isPlacing_of_explains hread

/-! ### What the check lets through -/

namespace Placement

variable {test : Form → Except Failure Unit} {forms : List Form}

/-- Forms that pass together pass one by one. -/
theorem ok_of_forM (h : forms.forM test = .ok ()) : ∀ form ∈ forms, test form = .ok () := by
  induction forms with
  | nil => simp
  | cons first rest ih =>
    have hbind : (test first >>= fun _ ↦ rest.forM test) = .ok () := h
    rcases hfirst : test first with f | ⟨⟩
    · rw [hfirst] at hbind
      cases hbind
    · rw [hfirst] at hbind
      intro form hform
      rcases List.mem_cons.1 hform with rfl | hrest
      · exact hfirst
      · exact ih hbind form hrest

/-- If forms fail together, one of them fails. -/
theorem error_of_forM {f : Failure} (h : forms.forM test = .error f) :
    ∃ form ∈ forms, test form = .error f := by
  induction forms with
  | nil => cases h
  | cons first rest ih =>
    have hbind : (test first >>= fun _ ↦ rest.forM test) = .error f := h
    rcases hfirst : test first with f' | ⟨⟩
    · rw [hfirst] at hbind
      cases hbind
      exact ⟨first, List.mem_cons_self .., hfirst⟩
    · rw [hfirst] at hbind
      obtain ⟨form, hmem, hform⟩ := ih hbind
      exact ⟨form, List.mem_cons_of_mem _ hmem, hform⟩

end Placement

namespace Evaluation

variable {limits : Limits} {text : String}

/-- The placement check refuses a form of a module's text, which can be read to its end; the module
is not read. -/
def Refused (limits : Limits) (text : String) (f : Failure) : Prop :=
  readModule limits text = .error f ∧
    ∃ forms rest, (TokenStream.ofText text).readAll = (forms, none, rest) ∧
      ∃ form ∈ forms, Placement.check limits.checkDepth form = .error f

/-- Of a module that is refused, nothing is evaluated. -/
theorem Refused.loadText_eq {setting : Setting} {f : Failure}
    (h : Refused setting.limits text f) (e : Evaluator) (n : String) (w : World) :
    loadText setting e n text w = .error f w := by
  unfold loadText
  rw [h.1]
  rfl

/-- **Modules are checked form by form** before any of them is evaluated. -/
theorem check_of_readModule {forms : List Form} (h : readModule limits text = .ok forms) :
    ∀ form ∈ forms, Placement.check limits.checkDepth form = .ok () := by
  unfold readModule at h
  split at h
  · cases h
  · rename_i forms' _ _
    rcases hcheck : forms'.forM (Placement.check limits.checkDepth) with f | ⟨⟩
    · rw [hcheck] at h
      cases h
    · rw [hcheck] at h
      cases h
      exact Placement.ok_of_forM hcheck

/-- Reading a module fails in the reader or in the check. -/
theorem refused_of_readModule {f : Failure} (h : readModule limits text = .error f) :
    f.isPlacing = false ∨ Refused limits text f := by
  have hmodule := h
  unfold readModule at h
  split at h
  · rename_i hread
    cases h
    exact Or.inl (TokenStream.isPlacing_of_explains (TokenStream.explains_of_readUpTo hread))
  · rename_i forms rest hread
    rcases hcheck : forms.forM (Placement.check limits.checkDepth) with f' | ⟨⟩
    · rw [hcheck] at h
      cases h
      exact Or.inr ⟨hmodule, forms, rest, hread, Placement.error_of_forM hcheck⟩
    · rw [hcheck] at h
      cases h

end Evaluation

namespace Interpreter

/-- The placement check refuses a form of a request's **own** text, with `u` the world at that
moment: as it was before the request, or for a text whose forms are evaluated one after the other as
the forms before the refused one left it. -/
def Refuses (i : Interpreter) (setting : Setting) (f : Failure) (w u : World) : Request → Prop
  | .evalText text =>
    ∃ form, readText text = .ok form ∧
      Placement.check setting.limits.checkDepth form = .error f ∧ u = w
  | .evalAll text =>
    ∃ before form rest value, (TokenStream.ofText text).readAll.1 = before ++ form :: rest ∧
      Placement.check setting.limits.checkDepth form = .error f ∧
      evalForms setting i.home .nothing before w = .ok value u
  | .loadText _ text => Evaluation.Refused setting.limits text f ∧ u = w
  | .loadModule name =>
    ∃ text, setting.findModule name = .ok (some text) ∧
      Evaluation.Refused setting.limits text f ∧ u = w

section EvalAll

variable {i : Interpreter} {setting : Setting} {text : String} {forms : List Form}
  {rest : TokenStream} {v : Value} {w u : World}

/-- A text without a fault comes to what its forms come to. -/
theorem evalAll_of_ok (hread : (TokenStream.ofText text).readAll = (forms, none, rest))
    (h : evalForms setting i.home .nothing forms w = .ok v u) :
    i.evalAll setting text w = .ok v u := by
  unfold evalAll
  rw [hread]
  exact Evaluation.bind_of_ok h

/-- A fault in the text is met after the forms before it. -/
theorem evalAll_of_fault {fault : Fault}
    (hread : (TokenStream.ofText text).readAll = (forms, some fault, rest))
    (h : evalForms setting i.home .nothing forms w = .ok v u) :
    i.evalAll setting text w = .error (.fault fault) u := by
  unfold evalAll
  rw [hread]
  exact Evaluation.bind_of_ok h

/-- If a form fails, the text behind it does not matter. -/
theorem evalAll_of_error {fault : Option Fault} {f : Failure}
    (hread : (TokenStream.ofText text).readAll = (forms, fault, rest))
    (h : evalForms setting i.home .nothing forms w = .error f u) :
    i.evalAll setting text w = .error f u := by
  unfold evalAll
  rw [hread]
  exact Evaluation.bind_of_error h

end EvalAll

end Interpreter

/-! ### Disciplines over requests -/

namespace Discipline

open Evaluation Interpreter

variable {setting : Setting}

/-- What is checked is admitted at the top level of every namespace. -/
structure Checks (D : Discipline setting) : Prop where
  form_checked {form : Form} (id : NamespaceId) :
    Placement.check setting.limits.checkDepth form = .ok () → D.form (.top id) .value form

/-- What a discipline has to say more, to be kept by requests. A load that is **asked for** is made
even if the module counts as loaded, so the laws on loading hold without that condition. -/
structure Closed (D : Discipline setting) : Prop extends D.Checks where
  world_mark {w : World} {n : String} :
    w.isRegistered n = true → D.world w → D.world (w.markLoaded n)
  later_mark {w : World} (n : String) : D.world w → D.later w (w.markLoaded n)
  failed_rollback {w₁ w₂ : World} (n : String) :
    D.world w₁ → D.failed w₂ → D.later w₁ w₂ → D.failed (w₂.rollback w₁.paths w₁.loaded n)
  later_rollback {w₁ w₂ : World} (n : String) :
    D.world w₁ → D.failed w₂ → D.later w₁ w₂ → D.later w₁ (w₂.rollback w₁.paths w₁.loaded n)

/-- What a discipline says about one load: how it begins, and what its failure leaves. -/
structure LoadsFrom (D : Discipline setting) (w : World) (n : String) : Prop where
  world_mark : D.world ((w.createNamespace n).2.markLoaded n)
  later_mark : D.later (w.createNamespace n).2 ((w.createNamespace n).2.markLoaded n)
  failed_rollback {u : World} :
    D.failed u → D.later w u → D.failed (u.rollback w.paths w.loaded n)
  later_rollback {u : World} :
    D.failed u → D.later w u → D.later w (u.rollback w.paths w.loaded n)

/-- The discipline is kept, and a failure is admitted or a refusal. -/
def Keeps {α : Type} (D : Discipline setting) (w : World) (refused : Failure → World → Prop) :
    EStateM.Result Failure World α → Prop
  | .ok _ u => D.world u ∧ D.later w u
  | .error f u => D.failed u ∧ D.later w u ∧ (D.failure f ∨ refused f u)

variable {D : Discipline setting} {w : World} {refused : Failure → World → Prop}

/-- Every discipline speaks of loads of modules that are not loaded. -/
theorem loadsFrom_of_not_loaded {n : String} (hw : D.world w) (hn : w.isLoaded n = false) :
    D.LoadsFrom w n := by
  have hnamespace := D.world_namespace n hw
  have hn' : (w.createNamespace n).2.isLoaded n = false := by
    rw [World.isLoaded_createNamespace, hn]
  exact ⟨D.world_mark hnamespace ⟨w.isRegistered_createNamespace n, hn'⟩,
    D.later_mark hnamespace hn', fun hu hlater ↦ D.failed_rollback hw hu hlater hn,
    fun hu hlater ↦ D.later_rollback hw hu hlater hn⟩

/-- A closed discipline speaks of loads of all modules, loaded or not. -/
theorem Closed.loadsFrom (hD : D.Closed) (n : String) (hw : D.world w) : D.LoadsFrom w n := by
  have hnamespace := D.world_namespace n hw
  exact ⟨hD.world_mark (w.isRegistered_createNamespace n) hnamespace, hD.later_mark n hnamespace,
    hD.failed_rollback n hw, hD.later_rollback n hw⟩

theorem Keeps.of_ends {α : Type} {P : World → α → Prop} {outcome : EStateM.Result Failure World α}
    (h : D.Ends w P outcome) : D.Keeps w refused outcome := by
  cases outcome with
  | ok a u => exact ⟨h.1, h.2.1⟩
  | error f u => exact ⟨h.1, h.2.1, Or.inl h.2.2⟩

/-- A failure that is not about placement is admitted. -/
theorem Keeps.of_error {α : Type} {m : Evaluation α} {f : Failure} (hw : D.world w)
    (hm : m w = .error f w) (hf : D.failure f ∨ refused f w) : D.Keeps w refused (m w) := by
  rw [hm]
  exact ⟨D.failed_of_world hw, D.later_refl w, hf⟩

theorem Keeps.mono {α : Type} {refused' : Failure → World → Prop}
    {outcome : EStateM.Result Failure World α} (h : D.Keeps w refused outcome)
    (himp : ∀ {f u}, refused f u → refused' f u) : D.Keeps w refused' outcome := by
  cases outcome with
  | ok a u => exact h
  | error f u => exact ⟨h.1, h.2.1, h.2.2.imp_right himp⟩

theorem Keeps.map {α β : Type} {m : Evaluation α} (g : α → β) (h : D.Keeps w refused (m w)) :
    D.Keeps w refused ((m >>= fun a ↦ pure (g a)) w) := by
  rcases hm : m w with ⟨a, u⟩ | ⟨f, u⟩
  · rw [bind_of_ok hm]
    rw [hm] at h
    exact h
  · rw [bind_of_error hm]
    rw [hm] at h
    exact h

/-- Evaluating a form that was checked. -/
theorem Checks.evaluator (hD : D.Checks) {form : Form} {id : NamespaceId} (hw : D.world w)
    (hc : D.context w (.top id))
    (hcheck : Placement.check setting.limits.checkDepth form = .ok ()) :
    D.Ends w D.value (Interpreter.evaluator setting form (.top id) .value w) := by
  have hform := hD.form_checked id hcheck
  exact ends_of_follows (D.evaluates setting.limits.depth ⟨rfl, hw⟩ hc hform)

/-- **One form**, with its check: it is refused, and the world as it was, or evaluated. -/
theorem Checks.evalForm (hD : D.Checks) (form : Form) {id : NamespaceId} (hw : D.world w)
    (hc : D.context w (.top id)) :
    D.Keeps w (fun f u ↦ Placement.check setting.limits.checkDepth form = .error f ∧ u = w)
      (evalForm setting id form w) := by
  unfold Interpreter.evalForm
  rcases hcheck : Placement.check setting.limits.checkDepth form with f | ⟨⟩
  · exact Keeps.of_error hw rfl (Or.inr ⟨rfl, rfl⟩)
  · exact Keeps.of_ends (hD.evaluator hw hc hcheck)

/-- Forms evaluated one after the other: by induction, with what was evaluated before a refusal. -/
theorem Checks.evalForms (hD : D.Checks) {id : NamespaceId} (forms : List Form) :
    ∀ {w : World} (value : Value), D.world w → D.context w (.top id) →
      D.Keeps w (fun f u ↦ ∃ before form rest last, forms = before ++ form :: rest ∧
          Placement.check setting.limits.checkDepth form = .error f ∧
          evalForms setting id value before w = .ok last u)
        (evalForms setting id value forms w) := by
  induction forms with
  | nil =>
    intro w value hw _
    exact ⟨hw, D.later_refl w⟩
  | cons form rest ih =>
    intro w value hw hc
    have hfirst := hD.evalForm form hw hc
    unfold Interpreter.evalForms
    rcases hm : Interpreter.evalForm setting id form w with ⟨v, u⟩ | ⟨f, u⟩
    · rw [hm] at hfirst
      obtain ⟨hu, hlater⟩ := hfirst
      rw [bind_of_ok hm]
      have hrest := ih v hu (D.context_later hlater hc)
      rcases hr : Interpreter.evalForms setting id v rest u with ⟨v', x⟩ | ⟨f, x⟩
      · rw [hr] at hrest
        exact ⟨hrest.1, D.later_trans hlater hrest.2⟩
      · rw [hr] at hrest
        obtain ⟨hx, hlater', hf⟩ := hrest
        refine ⟨hx, D.later_trans hlater hlater', hf.imp_right ?_⟩
        -- the refusal is among the rest, so this form was evaluated before it
        rintro ⟨before, refusedForm, after, last, rfl, hcheck, hbefore⟩
        refine ⟨form :: before, refusedForm, after, last, rfl, hcheck, ?_⟩
        show (Interpreter.evalForm setting id form >>= fun v ↦
          Interpreter.evalForms setting id v before) w = .ok last x
        rw [bind_of_ok hm, hbefore]
    · rw [hm] at hfirst
      obtain ⟨hu, hlater, hf⟩ := hfirst
      rw [bind_of_error hm]
      refine ⟨hu, hlater, hf.imp_right ?_⟩
      rintro ⟨hcheck, rfl⟩
      exact ⟨[], form, rest, value, rfl, hcheck, rfl⟩

/-- Running the forms of a module that were checked. -/
theorem Checks.runForms (hD : D.Checks) {forms : List Form} {id : NamespaceId} (hw : D.world w)
    (hc : D.context w (.top id))
    (hforms : ∀ form ∈ forms, Placement.check setting.limits.checkDepth form = .ok ()) :
    D.Ends w (fun u _ ↦ D.context u (.top id))
      (runForms (Interpreter.evaluator setting) id forms w) :=
  ends_of_follows (Simulation.follows_runForms (D.evaluates setting.limits.depth) ⟨rfl, hw⟩ hc
    fun form hform ↦ hD.form_checked id (hforms form hform))

/-- The load of checked forms. If one of them fails, the load is taken back. -/
theorem Checks.loadForms (hD : D.Checks) {n : String} {forms : List Form} (hw : D.world w)
    (hload : D.LoadsFrom w n)
    (hforms : ∀ form ∈ forms, Placement.check setting.limits.checkDepth form = .ok ()) :
    D.Keeps w refused (loadForms (Interpreter.evaluator setting) n forms w) := by
  have hstart := D.later_trans (D.later_namespace n hw) hload.later_mark
  have hrun := hD.runForms hload.world_mark
    (D.context_later hload.later_mark (D.context_namespace n hw)) hforms
  rw [loadForms_apply]
  rcases hm : Evaluation.runForms (Interpreter.evaluator setting) (w.createNamespace n).1 forms
      ((w.createNamespace n).2.markLoaded n) with ⟨⟨⟩, u⟩ | ⟨f, u⟩
  · rw [hm] at hrun
    exact ⟨hrun.1, D.later_trans hstart hrun.2.1⟩
  · rw [hm] at hrun
    obtain ⟨hu, hlater, hf⟩ := hrun
    have hlater' := D.later_trans hstart hlater
    exact ⟨hload.failed_rollback hu hlater', hload.later_rollback hu hlater', Or.inl hf⟩

/-- Loading a text: nothing is evaluated, and nothing made, before all of it is read and checked. -/
theorem Checks.loadText (hD : D.Checks) (n text : String) (hw : D.world w)
    (hload : D.LoadsFrom w n) :
    D.Keeps w (fun f u ↦ Refused setting.limits text f ∧ u = w)
      (Interpreter.loadText setting n text w) := by
  unfold Interpreter.loadText Evaluation.loadText
  rcases hread : readModule setting.limits text with f | forms
  · refine Keeps.of_error hw rfl ?_
    exact (refused_of_readModule hread).imp D.failure_of_not_placing fun h ↦ ⟨h, rfl⟩
  · exact hD.loadForms hw hload (check_of_readModule hread)

/-- Loading a module: the namespace that it has, or the text that is found for it. -/
theorem Checks.loadModule (hD : D.Checks) (n : String) (hw : D.world w) :
    D.Keeps w
      (fun f u ↦ ∃ text, setting.findModule n = .ok (some text) ∧
        Refused setting.limits text f ∧ u = w)
      (Interpreter.loadModule setting n w) := by
  unfold Interpreter.loadModule
  rcases hloaded : w.isLoaded n with - | -
  · -- not loaded: the file decides
    rcases hfind : setting.findModule n with f | - | text
    · exact Keeps.of_error hw (loadModule_of_error hloaded hfind) (Or.inl (D.failure_find hfind))
    · exact Keeps.of_error hw (loadModule_of_none hloaded hfind)
        (Or.inl (D.failure_of_not_placing rfl))
    · rw [loadModule_of_some hloaded hfind]
      exact (hD.loadText n text hw (loadsFrom_of_not_loaded hw hloaded)).mono
        fun h ↦ ⟨text, rfl, h⟩
  · -- loaded: the namespace is looked up, and nothing changes
    rw [loadModule_of_loaded hloaded]
    unfold getNamespace
    split
    · exact ⟨hw, D.later_refl w⟩
    · exact ⟨D.failed_of_world hw, D.later_refl w, Or.inl (D.failure_of_not_placing rfl)⟩

/-- **Requests keep a discipline** that can say what loading a text does, where that is asked for;
and what fails without being admitted by it was refused by the check before it was evaluated. -/
theorem Checks.perform (hD : D.Checks) (i : Interpreter) (request : Request) (hw : D.world w)
    (hhome : D.context w (.top i.home))
    (hload : ∀ n text, request = .loadText n text → D.LoadsFrom w n) :
    D.Keeps w (fun f u ↦ i.Refuses setting f w u request) (i.perform setting request w) := by
  cases request with
  | evalText text =>
    refine Keeps.map Answer.value ?_
    unfold Interpreter.evalText
    rcases hread : readText text with fault | form
    · exact Keeps.of_error hw rfl
        (Or.inl (D.failure_of_not_placing (isPlacing_of_readText hread)))
    · show D.Keeps w _ (Interpreter.evalForm setting i.home form w)
      exact (hD.evalForm form hw hhome).mono fun h ↦ ⟨form, hread, h⟩
  | evalAll text =>
    refine Keeps.map Answer.value ?_
    rcases hread : (TokenStream.ofText text).readAll with ⟨forms, fault, rest⟩
    have hforms : D.Keeps w (fun f u ↦ i.Refuses setting f w u (.evalAll text))
        (Interpreter.evalForms setting i.home .nothing forms w) := by
      refine (hD.evalForms forms .nothing hw hhome).mono ?_
      rintro f u ⟨before, form, after, value, heq, hrefused⟩
      exact ⟨before, form, after, value, (congrArg Prod.fst hread).trans heq, hrefused⟩
    -- The reader's fault is met only after all forms before it went well.
    rcases hm : Interpreter.evalForms setting i.home .nothing forms w with ⟨v, u⟩ | ⟨f, u⟩
    · rw [hm] at hforms
      rcases fault with - | fault
      · rw [Interpreter.evalAll_of_ok hread hm]
        exact hforms
      · rw [Interpreter.evalAll_of_fault hread hm]
        have hexplains := TokenStream.explains_of_readUpTo hread
        exact ⟨D.failed_of_world hforms.1, hforms.2,
          Or.inl (D.failure_of_not_placing (TokenStream.isPlacing_of_explains hexplains))⟩
    · rw [hm] at hforms
      rw [Interpreter.evalAll_of_error hread hm]
      exact hforms
  | loadText n text => exact Keeps.map Answer.home (hD.loadText n text hw (hload n text rfl))
  | loadModule n => exact Keeps.map Answer.home (hD.loadModule n hw)

/-- The world after a request, answered or not. -/
theorem Checks.after (hD : D.Checks) (i : Interpreter) (request : Request) (hw : D.world w)
    (hhome : D.context w (.top i.home))
    (hload : ∀ n text, request = .loadText n text → D.LoadsFrom w n) :
    D.failed (i.after setting request w) ∧ D.later w (i.after setting request w) := by
  have hkeeps := hD.perform i request hw hhome hload
  unfold Interpreter.after
  rcases hm : i.perform setting request w with ⟨a, u⟩ | ⟨f, u⟩
  · rw [hm] at hkeeps
    exact ⟨D.failed_of_world hkeeps.1, hkeeps.2⟩
  · rw [hm] at hkeeps
    exact ⟨hkeeps.1, hkeeps.2.1⟩

/-! A closed discipline is kept by whatever is asked for. -/

theorem Closed.loadText (hD : D.Closed) (n text : String) (hw : D.world w) :
    D.Keeps w (fun f u ↦ Refused setting.limits text f ∧ u = w)
      (Interpreter.loadText setting n text w) :=
  hD.toChecks.loadText n text hw (hD.loadsFrom n hw)

/-- **Every request keeps a closed discipline**, whatever it loads. -/
theorem Closed.perform (hD : D.Closed) (i : Interpreter) (request : Request) (hw : D.world w)
    (hhome : D.context w (.top i.home)) :
    D.Keeps w (fun f u ↦ i.Refuses setting f w u request) (i.perform setting request w) :=
  hD.toChecks.perform i request hw hhome fun n _ _ ↦ hD.loadsFrom n hw

theorem Closed.after (hD : D.Closed) (i : Interpreter) (request : Request) (hw : D.world w)
    (hhome : D.context w (.top i.home)) :
    D.failed (i.after setting request w) ∧ D.later w (i.after setting request w) :=
  hD.toChecks.after i request hw hhome fun n _ _ ↦ hD.loadsFrom n hw

end Discipline

end DottedLisp
