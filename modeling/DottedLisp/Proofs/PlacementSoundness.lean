import DottedLisp.Proofs.Session

/-!
# Soundness of the placement check

The check and the evaluator say separately what a tail position is. Here they are shown to agree: a
form that the check lets through (`Form.Placed`) has only parts that it would let through, each in
the position in which the evaluator evaluates it.

Bodies of functions run long after they were checked, so the invariant is about everything bound
anywhere: **the body of every function is placed**, in value or tail position by the kind of the
function, and no loop signal is bound (`Value.Sound`). It follows that the two guards of the
evaluator never fire, whatever an interpreter is asked to do.

The check's depth and the owner it reports are forgotten by `Form.Placed`; only whether a form
passes matters here.
-/

namespace DottedLisp

/-! ### Placed forms -/

namespace Form

/-- The check lets a form through in a position, at some depth and for some owner. -/
def Placed : Position → Form → Prop
  | .value, form => ∃ depth, Placement.checkValue depth form = .ok ()
  | .tail, form => ∃ depth owner, Placement.checkTail depth owner form = .ok ()

end Form

namespace Placement

open Form

variable {head : Form} {operands : List Form} {keyword : SpecialForm}

/-- Two checks pass if each does. -/
theorem ok_of_bind {first second : Except Failure Unit} (h : (first >>= fun _ ↦ second) = .ok ()) :
    first = .ok () ∧ second = .ok () := by
  rcases first with f | ⟨⟩
  · cases h
  · exact ⟨rfl, h⟩

/-- **A form in tail position ends its control path**, or hands the position on. -/
theorem endsPath_of_placed {form : Form} (h : form.Placed .tail) : form.EndsPath := by
  obtain ⟨depth, owner, h⟩ := h
  obtain - | depth := depth
  · cases h
  match form with
  | .number _ => cases h
  | .symbol _ => cases h
  | .list [] => cases h
  | .list (head :: operands) =>
    rcases hhead : head.special? with - | keyword
    · simp only [checkTail, hhead] at h
      cases h
    · cases keyword with
      | leave => exact .leave hhead
      | again => exact .again hhead
      | conditional => exact .conditional hhead
      | block =>
        rcases operands with - | ⟨first, rest⟩
        · simp only [checkTail, hhead] at h
          cases h
        · exact .block hhead
      | _ =>
        simp only [checkTail, hhead] at h
        cases h

/-- In value position neither `break` nor `recur` is let through. -/
theorem not_placed_of_signal (hhead : head.special? = some .leave ∨ head.special? = some .again) :
    ¬ (Form.list (head :: operands)).Placed .value := by
  rintro ⟨depth, h⟩
  obtain - | depth := depth
  · cases h
  rcases hhead with hhead | hhead
  · simp only [checkValue, hhead] at h
    cases h
  · simp only [checkValue, hhead] at h
    cases h

/-- The check goes into the parts of a form in value position. -/
theorem placed_of_part_value {form part : Form} {place : Place} {purpose : Position}
    (h : form.Placed .value) (hpart : form.Part .value place purpose part) :
    part.Placed purpose := by
  obtain ⟨depth, h⟩ := h
  obtain - | depth := depth
  · cases h
  cases hpart with
  | leave hhead _ =>
    simp only [checkValue, hhead] at h
    cases h
  | again hhead _ =>
    simp only [checkValue, hhead] at h
    cases h
  | loopBody hhead =>
    rename_i initials
    cases initials with
    | list initials =>
      simp only [checkValue, hhead] at h
      exact ⟨depth, _, (ok_of_bind h).2⟩
    | number _ | symbol _ =>
      simp only [checkValue, hhead] at h
      exact ⟨depth, _, h⟩
  | initial hhead hmem =>
    simp only [checkValue, hhead] at h
    exact ⟨depth, ok_of_forM (ok_of_bind h).1 part hmem⟩
  | function hhead | closure hhead =>
    simp only [checkValue, hhead] at h
    exact ⟨depth, h⟩
  | recursiveFunction hhead =>
    simp only [checkValue, hhead] at h
    exact ⟨depth, _, h⟩
  -- the other forms are checked item by item
  | constant hhead | localVariable hhead | assignment hhead | condition hhead | yes hhead
  | no hhead | operator hhead =>
    simp only [checkValue, hhead] at h
    exact ⟨depth, ok_of_forM h _ (by simp)⟩
  | enterNamespace hhead hmem =>
    simp only [checkValue, hhead] at h
    exact ⟨depth, ok_of_forM h _ (by simp [hmem])⟩
  | blockInit hhead hmem =>
    simp only [checkValue, hhead] at h
    exact ⟨depth, ok_of_forM h _ (by simp [List.dropLast_subset _ hmem])⟩
  | blockLast hhead hlast =>
    simp only [checkValue, hhead] at h
    exact ⟨depth, ok_of_forM h _ (by simp [List.mem_of_getLast? hlast])⟩
  | operand hhead hmem =>
    simp only [checkValue, hhead] at h
    exact ⟨depth, ok_of_forM h _ (by simp [hmem])⟩

/-- The check goes into the parts of a form in tail position. -/
theorem placed_of_part_tail {form part : Form} {place : Place} {purpose : Position}
    (h : form.Placed .tail) (hpart : form.Part .tail place purpose part) :
    part.Placed purpose := by
  have hends := endsPath_of_placed h
  obtain ⟨depth, owner, h⟩ := h
  obtain - | depth := depth
  · cases h
  cases hpart with
  | leave hhead hmem | again hhead hmem =>
    simp only [checkTail, hhead] at h
    exact ⟨depth, ok_of_forM h part hmem⟩
  | condition hhead =>
    simp only [checkTail, hhead] at h
    exact ⟨depth, (ok_of_bind h).1⟩
  | yes hhead =>
    simp only [checkTail, hhead] at h
    exact ⟨depth, owner, (ok_of_bind (ok_of_bind h).2).1⟩
  | no hhead =>
    simp only [checkTail, hhead] at h
    exact ⟨depth, owner, (ok_of_bind (ok_of_bind h).2).2⟩
  | blockInit hhead hmem =>
    rename_i forms
    obtain - | ⟨first, rest⟩ := forms
    · cases hmem
    simp only [checkTail, hhead] at h
    exact ⟨depth, ok_of_forM (ok_of_bind h).1 part hmem⟩
  | blockLast hhead hlast =>
    rename_i forms
    obtain - | ⟨first, rest⟩ := forms
    · cases hlast
    simp only [checkTail, hhead] at h
    rw [List.getLast?_eq_some_getLast (List.cons_ne_nil first rest)] at hlast
    cases hlast
    exact ⟨depth, owner, (ok_of_bind h).2⟩
  -- the other forms end no control path
  | constant hhead | localVariable hhead | assignment hhead | enterNamespace hhead
  | initial hhead | loopBody hhead | function hhead | recursiveFunction hhead | closure hhead
  | operator hhead | operand hhead =>
    have hspecial := hends.special
    rw [hhead] at hspecial
    simp at hspecial

/-- **Parts of placed forms are placed**, in the positions they are evaluated in. -/
theorem placed_of_part {position : Position} {form part : Form} {place : Place}
    {purpose : Position} (h : form.Placed position)
    (hpart : form.Part position place purpose part) : part.Placed purpose := by
  cases position with
  | value => exact placed_of_part_value h hpart
  | tail => exact placed_of_part_tail h hpart

/-! ### What the check fails with -/

/-- A check that fails does so in one of its parts. -/
theorem error_of_bind {first second : Except Failure Unit} {f : Failure}
    (h : (first >>= fun _ ↦ second) = .error f) : first = .error f ∨ second = .error f := by
  rcases first with f' | ⟨⟩
  · exact Or.inl h
  · exact Or.inr h

/-- How the check can fail. -/
def Fails (f : Failure) : Prop :=
  f = .depthExceeded ∨ ∃ violation, f = .fault (.placement violation)

/-- A refusal is one of the failures that the check has. -/
theorem fails_of_refuse {violation : Violation} {f : Failure} (h : refuse violation = .error f) :
    Fails f := by
  cases h
  exact Or.inr ⟨violation, rfl⟩

/-- By induction on the depth, for both positions at once. -/
theorem fails_of_error (depth : Nat) :
    (∀ form f, checkValue depth form = .error f → Fails f) ∧
      ∀ owner form f, checkTail depth owner form = .error f → Fails f := by
  induction depth with
  | zero =>
    refine ⟨?_, ?_⟩
    · intro form f h
      cases h
      exact Or.inl rfl
    · intro owner form f h
      cases h
      exact Or.inl rfl
  | succ depth ih =>
    obtain ⟨hvalue, htail⟩ := ih
    have hforms : ∀ (forms : List Form) (f : Failure),
        forms.forM (checkValue depth) = .error f → Fails f := by
      intro forms f h
      obtain ⟨form, -, hform⟩ := error_of_forM h
      exact hvalue form f hform
    refine ⟨?_, ?_⟩
    · intro form f h
      match form with
      | .number _ | .symbol _ | .list [] => cases h
      | .list (head :: operands) =>
        -- the branches in the order in which the check has them
        rw [checkValue.eq_def] at h
        dsimp only at h
        split at h
        · exact fails_of_refuse h
        · exact fails_of_refuse h
        · rcases error_of_bind h with h | h
          · exact hforms _ f h
          · exact htail _ _ f h
        · exact htail _ _ f h
        · exact htail _ _ f h
        · exact hvalue _ f h
        · exact hvalue _ f h
        · exact hforms _ f h
    · intro owner form f h
      match form with
      | .number _ | .symbol _ | .list [] => exact fails_of_refuse h
      | .list (head :: operands) =>
        rw [checkTail.eq_def] at h
        dsimp only at h
        split at h
        · exact hforms _ f h
        · exact hforms _ f h
        · rcases error_of_bind h with h | h
          · exact hvalue _ f h
          · rcases error_of_bind h with h | h
            · exact htail _ _ f h
            · exact htail _ _ f h
        · exact hvalue _ f h
        · cases h
        · rcases error_of_bind h with h | h
          · exact hforms _ f h
          · exact htail _ _ f h
        · exact fails_of_refuse h

end Placement

/-! ### Sound values -/

/-- What may be bound: no loop signal, and no function whose body is not placed. -/
def Value.Sound : Value → Prop
  | .signal .. => False
  | .function f => f.body.Placed f.kind.bodyPosition
  | _ => True

namespace Discipline

open Evaluation

/-- **The check is sound for one evaluation.** Placed forms bind sound values in worlds of sound
values, and a failure about placement comes from the text of a module that the host holds. -/
def placing (setting : Setting)
    (hfind : ∀ n f, setting.findModule n = .error f → f.isPlacing = false) :
    Discipline setting where
  world := World.All Value.Sound
  value _ := Value.Sound
  form _ position form := form.Placed position
  failure f :=
    f.isPlacing = false ∨
      ∃ n text, setting.findModule n = .ok (some text) ∧ Refused setting.limits text f
  value_lookup hworld _ hlookup := hworld.lookup hlookup
  value_later _ hv := hv
  value_function _ _ hform hpart _ := Placement.placed_of_part hform hpart
  value_signal hv _ := hv.elim
  form_here hform hpart := Placement.placed_of_part hform hpart
  form_inside _ hform hpart := Placement.placed_of_part hform hpart
  form_top hform hpart := Placement.placed_of_part hform hpart
  form_body _ hf := hf
  form_module _ _ hread hmem := ⟨setting.limits.checkDepth, check_of_readModule hread _ hmem⟩
  world_scope hworld _ := hworld.scope
  world_stamp hworld := hworld.stamp
  world_namespace path hworld := hworld.createNamespace path
  world_insert hworld _ _ hv _ := hworld.insert hv
  world_replace hworld _ hv _ := hworld.replace hv
  world_mark hworld _ := hworld.mark
  failed_rollback _ hworld _ _ := hworld.rollback _ _
  failure_of_not_placing hf := Or.inl hf
  failure_find hf := Or.inl (hfind _ _ hf)
  failure_read hfound hread :=
    (refused_of_readModule hread).imp_right fun hrefused ↦ ⟨_, _, hfound, hrefused⟩
  failure_of_signal hv := hv.elim
  failure_of_leave hform hhead := (Placement.not_placed_of_signal (Or.inl hhead) hform).elim
  failure_of_again hform hhead := (Placement.not_placed_of_signal (Or.inr hhead) hform).elim
  failure_of_not_endsPath hform hends := absurd (Placement.endsPath_of_placed hform) hends

/-- A request checks its forms first; what passes is placed. -/
theorem closed_placing {setting : Setting}
    (hfind : ∀ n f, setting.findModule n = .error f → f.isPlacing = false) :
    (placing setting hfind).Closed where
  form_checked _ hcheck := ⟨_, hcheck⟩
  world_mark _ hworld := World.All.mark hworld
  later_mark _ _ := trivial
  failed_rollback _ _ hworld _ := World.All.rollback hworld _ _
  later_rollback _ _ _ _ := trivial

end Discipline

/-! ### The guards never fire -/

namespace Interpreter

open Evaluation

/-- Neither the want of a file name nor an error of the host is about placement. -/
theorem isPlacing_of_find (i : Interpreter) (limits : Limits) (host : Host) (n : String)
    (f : Failure) (h : (i.within limits host).findModule n = .error f) : f.isPlacing = false := by
  rcases error_of_find h with rfl | ⟨error, rfl⟩
  · rfl
  · rfl

/-- Whatever an interpreter was asked to do, only sound values are bound. -/
theorem sound_of_reachable {i : Interpreter} {w : World} (h : i.Reachable w) :
    w.All Value.Sound := by
  obtain ⟨host, roots, name, stamps, -, hleads⟩ := h
  refine hleads.keeps (fun limits host request u hu ↦ ?_)
    (all_create (fun _ _ ↦ trivial) host roots name stamps)
  exact ((Discipline.closed_placing (i.isPlacing_of_find limits host)).after i request hu trivial).1

/-- The check refuses a form of a module that the host holds. Evaluation comes to the check only
where a `use` form loads such a module; the load then leaves the world alone, whatever evaluating
the forms would do. -/
def RefusesNeeded (setting : Setting) (f : Failure) : Prop :=
  ∃ n text, setting.findModule n = .ok (some text) ∧ Refused setting.limits text f ∧
    ∀ e w, Evaluation.loadText setting e n text w = .error f w

/-- What refuses the forms of a text is a failure of the check. -/
theorem fails_of_refused {limits : Limits} {text : String} {f : Failure}
    (h : Refused limits text f) : Placement.Fails f := by
  obtain ⟨-, forms, rest, -, form, -, hcheck⟩ := h
  exact (Placement.fails_of_error _).1 form f hcheck

/-- A refusal is a failure of the check. -/
theorem fails_of_refuses {i : Interpreter} {setting : Setting} {f : Failure} {w u : World}
    {request : Request} (h : i.Refuses setting f w u request) : Placement.Fails f := by
  cases request with
  | evalText text =>
    obtain ⟨form, -, hcheck, -⟩ := h
    exact (Placement.fails_of_error _).1 form f hcheck
  | evalAll text =>
    obtain ⟨before, form, rest, value, -, hcheck, -⟩ := h
    exact (Placement.fails_of_error _).1 form f hcheck
  | loadText name text => exact fails_of_refused h.1
  | loadModule name =>
    obtain ⟨text, -, hrefused, -⟩ := h
    exact fails_of_refused hrefused

/-- Where the check fails, and not for its depth, it reports a violation. -/
theorem violation_of_fails {f : Failure} (h : Placement.Fails f) (hf : f.isPlacing = true) :
    ∃ violation, f = .fault (.placement violation) := by
  rcases h with rfl | hviolation
  · cases hf
  · exact hviolation

/-- The two codes are those of failures about placement. -/
theorem isPlacing_of_code {fault : Fault}
    (h : fault.code = "INVALID_BREAK_RECUR_PLACE" ∨ fault.code = "REQUIRE_BREAK_OR_RECUR") :
    (Failure.fault fault).isPlacing = true := by
  cases fault with
  | placement _ | strayed _ | unended _ => rfl
  | _ => exact absurd h (by simp [Fault.code])

/-- A failure about placement is a violation that the check found before evaluation. -/
theorem refuses_of_isPlacing {i : Interpreter} {w w' : World} {f : Failure} (h : i.Reachable w)
    {limits : Limits} {host : Host} {request : Request}
    (hf : i.perform (i.within limits host) request w = .error f w')
    (hplacing : f.isPlacing = true) :
    (∃ violation, f = .fault (.placement violation)) ∧
      (i.Refuses (i.within limits host) f w w' request ∨
        RefusesNeeded (i.within limits host) f) := by
  have hkeeps := (Discipline.closed_placing (i.isPlacing_of_find limits host)).perform i request
    (sound_of_reachable h) trivial
  rw [hf] at hkeeps
  obtain ⟨-, -, (hnot | ⟨n, text, hfound, hrefused⟩) | hrefuses⟩ := hkeeps
  · rw [hplacing] at hnot
    cases hnot
  · refine ⟨violation_of_fails (fails_of_refused hrefused) hplacing, Or.inr ?_⟩
    exact ⟨n, text, hfound, hrefused, fun e w ↦ hrefused.loadText_eq e n w⟩
  · exact ⟨violation_of_fails (fails_of_refuses hrefuses) hplacing, Or.inl hrefuses⟩

/-- **The placement check is sound.** Take any world that a fresh interpreter can get into, and any
request there, with any limits and any files. If the request fails, none of the two guards of the
evaluator fired. And if it fails with one of the two codes for misplaced loop exits, then the check
itself refused a form before it was evaluated: one of the request's own text, or one of a module
that a `use` form loads. -/
theorem guards_never_fire {i : Interpreter} {w w' : World} {f : Failure} (h : i.Reachable w)
    (limits : Limits) (host : Host) (request : Request)
    (hf : i.perform (i.within limits host) request w = .error f w') :
    (∀ keyword, f ≠ .fault (.strayed keyword)) ∧ (∀ owner, f ≠ .fault (.unended owner)) ∧
      ∀ fault, f = .fault fault →
        fault.code = "INVALID_BREAK_RECUR_PLACE" ∨ fault.code = "REQUIRE_BREAK_OR_RECUR" →
        (∃ violation, fault = .placement violation) ∧
          (i.Refuses (i.within limits host) f w w' request ∨
            RefusesNeeded (i.within limits host) f) := by
  refine ⟨?_, ?_, ?_⟩
  · rintro keyword rfl
    obtain ⟨⟨violation, hviolation⟩, -⟩ := refuses_of_isPlacing h hf rfl
    cases hviolation
  · rintro owner rfl
    obtain ⟨⟨violation, hviolation⟩, -⟩ := refuses_of_isPlacing h hf rfl
    cases hviolation
  · rintro fault rfl hcode
    obtain ⟨⟨violation, hviolation⟩, hrefuses⟩ :=
      refuses_of_isPlacing h hf (isPlacing_of_code hcode)
    cases hviolation
    exact ⟨⟨violation, rfl⟩, hrefuses⟩

/-- A module whose only function misplaces `recur` is refused when it is needed. -/
theorem guards_never_fire_needed :
    ∃ host i w w', i = (create host none none 0).1 ∧ w = (create host none none 0).2 ∧
      i.Reachable w ∧
      i.perform (i.within ⟨20, 20, 20⟩ host) (.evalText "(use n.x)") w =
        .error (.fault (.placement (.misplaced "recur"))) w' ∧
      (i.Refuses (i.within ⟨20, 20, 20⟩ host) (.fault (.placement (.misplaced "recur"))) w w'
          (.evalText "(use n.x)") ∨
        RefusesNeeded (i.within ⟨20, 20, 20⟩ host)
          (.fault (.placement (.misplaced "recur")))) := by
  have hreachable :
      (create (Host.empty.write ["n.nsl"] "(defn x () (recur))") none none 0).1.Reachable
        (create (Host.empty.write ["n.nsl"] "(defn x () (recur))") none none 0).2 :=
    ⟨_, none, none, 0, rfl, Leads.refl _⟩
  obtain ⟨w', hw'⟩ := Evaluation.error_of_failure (f := .fault (.placement (.misplaced "recur")))
    ((create (Host.empty.write ["n.nsl"] "(defn x () (recur))") none none 0).1.perform
      ((create (Host.empty.write ["n.nsl"] "(defn x () (recur))") none none 0).1.within
        ⟨20, 20, 20⟩ (Host.empty.write ["n.nsl"] "(defn x () (recur))"))
      (.evalText "(use n.x)")
      (create (Host.empty.write ["n.nsl"] "(defn x () (recur))") none none 0).2)
    (by decide +kernel)
  obtain ⟨-, -, hcode⟩ := guards_never_fire hreachable _ _ _ hw'
  exact ⟨_, _, _, w', rfl, rfl, hreachable, hw', (hcode _ rfl (Or.inl rfl)).2⟩

end Interpreter

end DottedLisp
