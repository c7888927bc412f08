import DottedLisp.Proofs.Simulation.Evaluator
import DottedLisp.Proofs.WorldViews

/-!
# Scopes in which a name stays free

A form that binds a name by no `let` in it leaves the name free in the scopes that it is evaluated
in, **whatever else is called on the way**. Functions that are called bind names of their own, but
in scopes of their own: only the forms evaluated directly in a scope can bind in it.

So the discipline here admits a form by its context. In one of the given scopes the form must not
bind the name; anywhere else every form is admitted.
-/

namespace DottedLisp

namespace Form

/-- Whether items make a `let` form that binds the name. -/
def isLetOf (name : String) : List Form → Bool
  | [head, target, _] => head.special? = some .localVariable && target = .symbol name
  | _ => false

mutual

/-- Whether some `let` in a form binds the name. -/
def lets (name : String) : Form → Bool
  | .list items => isLetOf name items || anyLets name items
  | _ => false

/-- Whether some `let` in several forms binds the name. -/
def anyLets (name : String) : List Form → Bool
  | [] => false
  | item :: rest => lets name item || anyLets name rest

end

variable {name : String} {items : List Form}

/-- Where no `let` in a list binds the name, none in its items does. -/
theorem lets_of_mem (h : (Form.list items).lets name = false) :
    ∀ item ∈ items, item.lets name = false := by
  have hany : anyLets name items = false := by
    rw [lets, Bool.or_eq_false_iff] at h
    exact h.2
  clear h
  induction items with
  | nil => simp
  | cons first rest ih =>
    rw [anyLets, Bool.or_eq_false_iff] at hany
    intro item hitem
    rcases List.mem_cons.1 hitem with rfl | hrest
    · exact hany.1
    · exact ih hany.2 item hrest

/-- Such a `let` itself binds another name. -/
theorem ne_of_lets {head value : Form} {n : String}
    (h : (Form.list [head, .symbol n, value]).lets name = false)
    (hhead : head.special? = some .localVariable) : n ≠ name := by
  rintro rfl
  rw [lets, isLetOf, hhead] at h
  simp at h

/-- Parts of a form that does not bind the name do not bind it. -/
theorem lets_of_part {position purpose : Position} {place : Place} {form part : Form}
    (h : form.lets name = false) (hpart : form.Part position place purpose part) :
    part.lets name = false :=
  hpart.of_items (P := fun form ↦ form.lets name = false) lets_of_mem h

end Form

namespace Bindings

variable {b : Bindings} {n name : String} {v : Value}

/-- An identifier is bound if it is one of the names. -/
theorem binds_eq_contains (b : Bindings) (name : String) :
    b.binds name = b.names.contains name := by
  obtain ⟨entries⟩ := b
  simp only [binds, get?, names]
  induction entries with
  | nil => rfl
  | cons entry rest ih =>
    rw [List.lookup_cons, List.map_cons, List.contains_cons]
    cases name == entry.1 with
    | true => rfl
    | false => rw [Bool.false_or, ← ih]

theorem binds_insert_of_ne (h : name ≠ n) : (b.insert n v).binds name = b.binds name := by
  rw [binds, get?_insert_of_ne h, binds]

theorem binds_replace : (b.replace n v).binds name = b.binds name := by
  rw [binds_eq_contains, names_replace, binds_eq_contains]

end Bindings

namespace World

/-- The name is free in each of the given scopes, which exist. -/
def Free (name : String) (scopes : List ScopeId) (w : World) : Prop :=
  ∀ id ∈ scopes, id.index < w.scopes.size ∧ (w.scopeAt id).binds name = false

namespace Free

variable {name n : String} {scopes : List ScopeId} {w u : World} {c : Context} {v : Value}

/-- A change that keeps the scopes there are. -/
theorem of_eq (h : w.Free name scopes) (hsize : w.scopes.size ≤ u.scopes.size)
    (heq : ∀ id, u.scopeAt id = w.scopeAt id) : u.Free name scopes := by
  intro id hid
  obtain ⟨hlt, hfree⟩ := h id hid
  exact ⟨Nat.lt_of_lt_of_le hlt hsize, by rw [heq, hfree]⟩

theorem addScope (h : w.Free name scopes) : (w.addScope c).2.Free name scopes :=
  h.of_eq (by simp) (w.scopeAt_addScope c)

/-- The scope that is made next is none of those there are. -/
theorem fresh (h : w.Free name scopes) : (⟨w.scopes.size⟩ : ScopeId) ∉ scopes := by
  intro hmem
  have hlt := (h _ hmem).1
  exact Nat.lt_irrefl _ hlt

/-- Making a scope adds one in which the name is free. -/
theorem cons_fresh (h : w.Free name scopes) :
    (w.addScope c).2.Free name (⟨w.scopes.size⟩ :: scopes) := by
  intro id hid
  rcases List.mem_cons.1 hid with rfl | hold
  · refine ⟨by simp, ?_⟩
    rw [scopeAt_addScope]
    simp [scopeAt, Bindings.binds]
  · exact h.addScope id hold

/-- A change of bindings that does not concern the name. -/
theorem modify {f : Bindings → Bindings} (h : w.Free name scopes)
    (hf : ∀ id outer, c = .scope id outer → id ∈ scopes →
      ∀ b : Bindings, (f b).binds name = b.binds name) :
    (w.modifyBindings c f).Free name scopes := by
  cases c with
  | top id => exact h.of_eq (by simp) fun _ ↦ rfl
  | scope id outer =>
    intro other hother
    obtain ⟨hlt, hfree⟩ := h other hother
    refine ⟨by simpa using hlt, ?_⟩
    rw [scopeAt_modify_scope]
    split
    · rename_i heq
      obtain ⟨rfl, -⟩ := heq
      rw [hf other outer rfl hother, hfree]
    · exact hfree

theorem insert (h : w.Free name scopes)
    (hn : ∀ id outer, c = .scope id outer → id ∈ scopes → n ≠ name) :
    (w.modifyBindings c fun b ↦ b.insert n v).Free name scopes :=
  h.modify fun id outer hc hid _ ↦ Bindings.binds_insert_of_ne (hn id outer hc hid).symm

theorem replace (h : w.Free name scopes) :
    (w.modifyBindings c fun b ↦ b.replace n v).Free name scopes :=
  h.modify fun _ _ _ _ _ ↦ Bindings.binds_replace

end Free

/-- Where the scopes of a chain leave a name free, its namespace is asked. -/
theorem lookup_of_free {name : String} {w : World} {c : Context} (h : w.Free name c.scopes) :
    w.lookup? c name = (w.namespaceAt c.home).bindings.get? name := by
  induction c with
  | top id => rfl
  | scope id outer ih =>
    have hfree := (h id (List.mem_cons_self ..)).2
    have hnone : (w.scopeAt id).get? name = none := by
      simpa [Bindings.binds] using hfree
    rw [lookup?, hnone]
    exact ih fun other hother ↦ h other (List.mem_cons_of_mem _ hother)

end World

namespace Discipline

/-- **The name stays free in the given scopes.** -/
def keepingFree (setting : Setting) (name : String) (scopes : List ScopeId) :
    Discipline setting where
  world := World.Free name scopes
  form c _ form := ∀ id outer, c = .scope id outer → id ∈ scopes → form.lets name = false
  name c n := ∀ id outer, c = .scope id outer → id ∈ scopes → n ≠ name
  form_here hform hpart id outer hc hid := Form.lets_of_part (hform id outer hc hid) hpart
  -- a scope that is opened is new, so it is none of the given ones
  form_inside hworld _ _ id outer hc hid := by
    cases hc
    exact absurd hid hworld.fresh
  form_top _ _ id outer hc _ := by cases hc
  form_body hworld _ id outer hc hid := by
    cases hc
    exact absurd hid hworld.fresh
  form_module _ _ _ _ id outer hc _ := by cases hc
  name_top id outer hc _ := by cases hc
  name_scope hworld id outer hc hid := by
    cases hc
    exact absurd hid hworld.fresh
  name_let hform hhead id outer hc hid := Form.ne_of_lets (hform id outer hc hid) hhead
  world_scope hworld _ := hworld.addScope
  world_stamp hworld := hworld.of_eq (Nat.le_refl _) fun _ ↦ rfl
  world_namespace path hworld :=
    hworld.of_eq (by simp) fun id ↦ World.scopeAt_createNamespace _ path id
  world_insert hworld _ hn _ _ := hworld.insert hn
  world_replace hworld _ _ _ := hworld.replace
  world_mark hworld _ := hworld.of_eq (by simp) fun id ↦ World.scopeAt_markLoaded _ _ id
  failed_rollback _ hworld _ _ := hworld.of_eq (Nat.le_refl _) fun _ ↦ rfl

end Discipline

namespace Evaluation

/-- A scope whose parameters do not include the name leaves it free, as the scopes around it do. -/
theorem free_of_openScope (setting : Setting) {name : String} {outer c : Context}
    {parameters : List String} {arguments : List Value} {w u : World}
    (h : openScope outer parameters arguments w = .ok c u) (hfree : w.Free name outer.scopes)
    (hname : name ∉ parameters) : u.Free name c.scopes := by
  have hnames : ∀ n ∈ parameters,
      (Discipline.keepingFree setting name (w.addScope outer).1.scopes).self.name
        (w.addScope outer).1 n := by
    rintro n hn id _ - - rfl
    exact hname hn
  have hall : (Discipline.keepingFree setting name (w.addScope outer).1.scopes).Ends
      (w.addScope outer).2 (fun _ _ ↦ True)
      (defineAll (w.addScope outer).1 ((parameters.map Form.symbol).zip arguments)
        (w.addScope outer).2) :=
    Discipline.ends_of_follows (Simulation.follows_defineAll hnames ⟨rfl, hfree.cons_fresh⟩ trivial
      fun _ _ ↦ trivial)
  -- the context that `openScope` answers with is the one it made, as all parameters were bound
  have hopen : (defineAll (w.addScope outer).1 ((parameters.map Form.symbol).zip arguments) >>=
      fun _ ↦ pure (w.addScope outer).1) (w.addScope outer).2 = .ok c u := h
  rcases hdefine : defineAll (w.addScope outer).1 ((parameters.map Form.symbol).zip arguments)
      (w.addScope outer).2 with ⟨⟨⟩, x⟩ | ⟨f, x⟩
  · rw [bind_of_ok hdefine] at hopen
    rw [hdefine] at hall
    cases hopen
    exact hall.1
  · rw [bind_of_error hdefine] at hopen
    cases hopen

/-- Evaluating a form that does not bind the name leaves it free. -/
theorem free_of_evaluate {setting : Setting} {depth : Nat} {name : String} {form : Form}
    {c : Context} {v : Value} {w u : World}
    (h : evaluate setting depth form c .value w = .ok v u) (hfree : w.Free name c.scopes)
    (hlets : form.lets name = false) : u.Free name c.scopes := by
  have hends : (Discipline.keepingFree setting name c.scopes).Ends w (fun _ _ ↦ True)
      (evaluate setting depth form c .value w) :=
    Discipline.ends_of_follows ((Discipline.keepingFree setting name c.scopes).evaluates depth
      ⟨rfl, hfree⟩ trivial fun _ _ _ _ ↦ hlets)
  rw [h] at hends
  exact hends.1

/-- So does evaluating several of them. -/
theorem free_of_each {setting : Setting} {depth : Nat} {name : String} {forms : List Form}
    {c : Context} {w u : World}
    (h : (forms.forM fun form ↦ discard (evaluate setting depth form c .value)) w = .ok () u)
    (hfree : w.Free name c.scopes) (hlets : ∀ form ∈ forms, form.lets name = false) :
    u.Free name c.scopes := by
  have hends : (Discipline.keepingFree setting name c.scopes).Ends w (fun _ _ ↦ True)
      ((forms.forM fun form ↦ discard (evaluate setting depth form c .value)) w) :=
    Discipline.ends_of_follows (Simulation.follows_each
      ((Discipline.keepingFree setting name c.scopes).evaluates depth) ⟨rfl, hfree⟩ trivial
      fun form hform _ _ _ _ ↦ hlets form hform)
  rw [h] at hends
  exact hends.1

end Evaluation

end DottedLisp
