import DottedLisp.Proofs.LinkedWorlds
import DottedLisp.Proofs.TailCalls.Frame

/-!
# Lexical scoping

A local variable is seen by the forms that mention it where it is bound, and by **nothing that is
called from there**. So a `let` at the front of a block whose other forms do not mention the
variable changes nothing but the scope of the block, in which it is bound.

The two runs, without the `let` and with it, are compared by a simulation in which worlds differ by
one binding in one scope (`World.bindFirst`). What makes it go through is an invariant on functions:
one that captured the scope has a body that does not mention the variable. It holds of the functions
that were there before, since none of them captured a scope that did not exist, and of those that
are made on the way, since their bodies are parts of the forms of the block. Any other function may
mention the variable as it likes; its chain does not pass through the scope.
-/

namespace DottedLisp

/-! ### Forms that mention a name -/

namespace Form

mutual

/-- Whether the symbol occurs anywhere in a form. -/
def mentions (name : String) : Form → Bool
  | .symbol n => n = name
  | .list items => anyMentions name items
  | .number _ => false

/-- Whether the symbol occurs anywhere in several forms. -/
def anyMentions (name : String) : List Form → Bool
  | [] => false
  | item :: rest => mentions name item || anyMentions name rest

end

variable {name n : String} {items : List Form}

/-- A list does not mention a name if none of its items does. -/
theorem mentions_of_mem (h : (Form.list items).mentions name = false) :
    ∀ item ∈ items, item.mentions name = false := by
  rw [mentions] at h
  induction items with
  | nil => simp
  | cons first rest ih =>
    rw [anyMentions, Bool.or_eq_false_iff] at h
    intro item hitem
    rcases List.mem_cons.1 hitem with rfl | hrest
    · exact h.1
    · exact ih h.2 item hrest

/-- A symbol that does not mention a name is another one. -/
theorem ne_of_mentions (h : (Form.symbol n).mentions name = false) : n ≠ name := by
  rw [mentions] at h
  exact of_decide_eq_false h

/-- The target of a `let` or an assignment that does not mention the name is another one. -/
theorem ne_of_mentions_target {head value : Form}
    (h : (Form.list [head, .symbol n, value]).mentions name = false) : n ≠ name :=
  ne_of_mentions (mentions_of_mem h (.symbol n) (by simp))

/-- Parts of a form that does not mention the name do not mention it. -/
theorem mentions_of_part {position purpose : Position} {place : Place} {form part : Form}
    (h : form.mentions name = false) (hpart : form.Part position place purpose part) :
    part.mentions name = false :=
  hpart.of_items (P := fun form ↦ form.mentions name = false) mentions_of_mem h

end Form

/-! ### Worlds with one more binding -/

namespace Bindings

variable {b : Bindings} {n name : String} {v x : Value}

/-- Bind an identifier in front of those that are bound. -/
def cons (b : Bindings) (name : String) (v : Value) : Bindings :=
  ⟨(name, v) :: b.entries⟩

/-- Other names are found behind the binding in front. -/
theorem get?_cons_of_ne (h : n ≠ name) : (b.cons name v).get? n = b.get? n := by
  have hne : (n == name) = false := by simpa using h
  rw [get?, cons, List.lookup_cons, hne, get?]

/-- What is bound later goes behind it. -/
theorem insert_cons : (b.cons name v).insert n x = (b.insert n x).cons name v := rfl

/-- Replacing another value does not touch it. -/
theorem replace_cons (h : n ≠ name) :
    (b.cons name v).replace n x = (b.replace n x).cons name v := by
  simp only [replace, cons, List.map_cons, if_neg h.symm]

end Bindings

namespace World

/-- One scope binds one more identifier, in front of those that it binds. -/
def bindFirst (id : ScopeId) (name : String) (v : Value) (w : World) : World :=
  let change := fun s : Scope ↦ { s with bindings := s.bindings.cons name v }
  { w with scopes := w.scopes.modify id.index change }

variable {id : ScopeId} {name n : String} {v : Value} {w : World} {c : Context}

/-- One scope has a binding in front; the others are as they were. -/
theorem scopeAt_bindFirst (other : ScopeId) :
    (w.bindFirst id name v).scopeAt other =
      if other = id ∧ id.index < w.scopes.size then (w.scopeAt id).cons name v
      else w.scopeAt other :=
  w.scopeAt_modify_scope (·.cons name v) id (.top ⟨0⟩) other

/-- Other identifiers, and all identifiers of other scopes, have the value they had. -/
theorem get?_bindFirst {other : ScopeId} (h : other = id → n ≠ name) :
    ((w.bindFirst id name v).scopeAt other).get? n = (w.scopeAt other).get? n := by
  rw [scopeAt_bindFirst]
  split
  · rename_i heq
    rw [Bindings.get?_cons_of_ne (h heq.1), heq.1]
  · rfl

/-- The scope binds the same names, but for the one in front. -/
theorem binds_bindFirst (h : ∀ outer, c = .scope id outer → n ≠ name) :
    ((w.bindFirst id name v).bindingsOf c).binds n = (w.bindingsOf c).binds n := by
  cases c with
  | top space => rfl
  | scope other outer =>
    have hne : other = id → n ≠ name := by
      rintro rfl
      exact h outer rfl
    simp only [bindingsOf, Bindings.binds, get?_bindFirst hne]

/-- **Looking up another name finds the same**, and so does looking up this one from where the scope
is not seen. -/
theorem lookup_bindFirst (h : id ∈ c.scopes → n ≠ name) :
    (w.bindFirst id name v).lookup? c n = w.lookup? c n := by
  induction c with
  | top space => rfl
  | scope other outer ih =>
    have hother : other = id → n ≠ name := by
      rintro rfl
      exact h (List.mem_cons_self ..)
    have houter := ih fun hmem ↦ h (List.mem_cons_of_mem _ hmem)
    rw [lookup?, get?_bindFirst hother, houter, lookup?]

/-- So it is with the scope that binds a name. -/
theorem findScope_bindFirst (h : id ∈ c.scopes → n ≠ name) :
    (w.bindFirst id name v).findScope? c n = w.findScope? c n := by
  induction c with
  | top space => rfl
  | scope other outer ih =>
    have hother : other = id → n ≠ name := by
      rintro rfl
      exact h (List.mem_cons_self ..)
    have houter := ih fun hmem ↦ h (List.mem_cons_of_mem _ hmem)
    rw [findScope?, Bindings.binds, get?_bindFirst hother, houter, findScope?, Bindings.binds]

/-! ### Changes -/

/-- A scope that is made later is another one. -/
theorem addScope_bindFirst (hid : id.index < w.scopes.size) :
    (w.bindFirst id name v).addScope c =
      ((w.addScope c).1, (w.addScope c).2.bindFirst id name v) := by
  have hpush : ∀ change : Scope → Scope, (w.scopes.modify id.index change).push ⟨c, .empty⟩ =
      (w.scopes.push ⟨c, .empty⟩).modify id.index change := by
    refine fun change ↦ Array.ext_getElem? fun i ↦ ?_
    rw [Array.getElem?_push, Array.getElem?_modify, Array.getElem?_modify, Array.getElem?_push,
      Array.size_modify]
    split
    · rw [if_neg (by omega)]
    · rfl
  simp only [addScope, bindFirst, Array.size_modify, hpush]

/-- Creating a namespace does not look at scopes. -/
theorem createNamespace_bindFirst (path : String) :
    (w.bindFirst id name v).createNamespace path =
      ((w.createNamespace path).1, (w.createNamespace path).2.bindFirst id name v) := by
  rcases hpath : w.registered? path with - | space
  · have hpath' : (w.bindFirst id name v).registered? path = none := hpath
    rw [createNamespace_of_unregistered w hpath, createNamespace_of_unregistered _ hpath']
    rfl
  · have hpath' : (w.bindFirst id name v).registered? path = some space := hpath
    rw [createNamespace_of_registered w hpath, createNamespace_of_registered _ hpath']

theorem markLoaded_bindFirst (n : String) :
    (w.bindFirst id name v).markLoaded n = (w.markLoaded n).bindFirst id name v := by
  unfold markLoaded
  show (if w.isLoaded n then w.bindFirst id name v else _) = _
  split
  · rfl
  · rfl

/-- A change of bindings that does not concern the new one. -/
theorem modify_bindFirst {f : Bindings → Bindings}
    (hf : ∀ outer, c = .scope id outer → ∀ b : Bindings, f (b.cons name v) = (f b).cons name v) :
    (w.bindFirst id name v).modifyBindings c f =
      (w.modifyBindings c f).bindFirst id name v := by
  cases c with
  | top space => rfl
  | scope other outer =>
    have hscopes :
        (w.scopes.modify id.index fun s ↦ { s with bindings := s.bindings.cons name v }).modify
            other.index (fun s ↦ { s with bindings := f s.bindings }) =
          (w.scopes.modify other.index fun s ↦ { s with bindings := f s.bindings }).modify
            id.index fun s ↦ { s with bindings := s.bindings.cons name v } := by
      refine Array.ext_getElem? fun i ↦ ?_
      rw [Array.getElem?_modify, Array.getElem?_modify, Array.getElem?_modify,
        Array.getElem?_modify]
      by_cases hid : id.index = i
      · by_cases hother : other.index = i
        · -- both changes are at the scope, in one order or the other
          have heq : other = id := by
            obtain ⟨j⟩ := other
            obtain ⟨k⟩ := id
            simp only at hid hother
            rw [hid, hother]
          rw [heq] at hf
          simp only [hid, hother, if_true, Option.map_map]
          congr 1
          exact funext fun s ↦ congrArg (Scope.mk s.outer) (hf outer rfl s.bindings)
        · simp only [hid, hother, if_true, if_false]
      · simp only [hid, if_false]
    simp only [modifyBindings, bindFirst, hscopes]

end World

/-! ### The simulation -/

/-- The worlds of the run without the variable: no function that captured the scope mentions it. -/
structure World.Unseen (block : ScopeId) (name : String) (w : World) : Prop where
  /-- The scope is there and does not bind the variable. -/
  free : w.Free name [block]
  /-- Functions that see the scope do not mention the variable. -/
  values : w.All (·.Every fun f ↦ block ∈ f.context.scopes → f.body.mentions name = false)

namespace World.Unseen

variable {block : ScopeId} {name n : String} {w : World} {c : Context} {x : Value}

theorem lt (h : w.Unseen block name) : block.index < w.scopes.size :=
  (h.free block (List.mem_singleton_self block)).1

/-- A scope that is made is another one. -/
theorem mem_of_mem_addScope (h : w.Unseen block name)
    (hblock : block ∈ (w.addScope c).1.scopes) : block ∈ c.scopes := by
  rcases List.mem_cons.1 hblock with heq | hmem
  · exact absurd (heq ▸ List.mem_singleton_self block) h.free.fresh
  · exact hmem

/-- What is assigned to in the scope is not the variable, which it does not bind. -/
theorem ne_of_findScope (h : w.Unseen block name) {outer : Context}
    (hscope : w.findScope? c n = some (.scope block outer)) : n ≠ name := by
  rintro rfl
  obtain ⟨other, outer', heq, hbinds, -⟩ := World.eq_scope_of_findScope hscope
  cases heq
  rw [(h.free block (List.mem_singleton_self block)).2] at hbinds
  cases hbinds

/-- A new scope binds no function. -/
theorem addScope (h : w.Unseen block name) : (w.addScope c).2.Unseen block name :=
  ⟨h.free.addScope, h.values.scope⟩

theorem stamp (h : w.Unseen block name) : w.addStamp.2.Unseen block name :=
  ⟨h.free.of_eq (Nat.le_refl _) fun _ ↦ rfl, h.values.stamp⟩

/-- A created namespace binds no function, and no scope is made with it. -/
theorem createNamespace (h : w.Unseen block name) (path : String) :
    (w.createNamespace path).2.Unseen block name :=
  ⟨h.free.of_eq (by simp) (w.scopeAt_createNamespace path), h.values.createNamespace path⟩

/-- A function may be bound if it does not see the scope, or does not mention the name; and the name
itself is not bound in the scope again. -/
theorem insert (h : w.Unseen block name) (hn : ∀ outer, c = .scope block outer → n ≠ name)
    (hx : x.Every fun f ↦ block ∈ f.context.scopes → f.body.mentions name = false) :
    (w.modifyBindings c fun b ↦ b.insert n x).Unseen block name := by
  refine ⟨h.free.insert fun id outer hc hid ↦ ?_, h.values.insert hx⟩
  obtain rfl := List.mem_singleton.1 hid
  exact hn outer hc

/-- A value may be replaced by such a function. -/
theorem replace (h : w.Unseen block name)
    (hx : x.Every fun f ↦ block ∈ f.context.scopes → f.body.mentions name = false) :
    (w.modifyBindings c fun b ↦ b.replace n x).Unseen block name :=
  ⟨h.free.replace, h.values.replace hx⟩

theorem mark (h : w.Unseen block name) : (w.markLoaded n).Unseen block name :=
  ⟨h.free.of_eq (by simp) (w.scopeAt_markLoaded n), h.values.mark⟩

/-- A rollback leaves scopes alone, and what they bind. -/
theorem rollback (h : w.Unseen block name) {paths loaded : List String} :
    (w.rollback paths loaded n).Unseen block name :=
  ⟨h.free.of_eq (Nat.le_refl _) fun _ ↦ rfl, h.values.rollback paths loaded⟩

end World.Unseen

/-- **The runs without and with the variable.** Nothing is excused: they exceed limits together. -/
def unseeing (setting : Setting) (block : ScopeId) (name : String) (v : Value) :
    Simulation setting setting where
  world := World.Unseen block name
  value _ x := x.Every fun f ↦ block ∈ f.context.scopes → f.body.mentions name = false
  form c _ form := block ∈ c.scopes → form.mentions name = false
  name c n := ∀ outer, c = .scope block outer → n ≠ name
  value_later _ hx := hx
  value_nothing _ := Value.every_nothing
  value_number _ x := Value.every_number x
  value_lookup hworld _ hlookup := World.All.lookup hworld.values hlookup
  value_function _ _ hform hpart _ :=
    Value.every_function.2 fun hblock ↦ Form.mentions_of_part (hform hblock) hpart
  value_signal hx hmem := Value.every_signal.1 hx _ hmem
  form_here hform hpart hblock := Form.mentions_of_part (hform hblock) hpart
  form_inside hworld hform hpart hblock :=
    Form.mentions_of_part (hform (hworld.mem_of_mem_addScope hblock)) hpart
  form_top _ _ hblock := by cases hblock
  form_body hworld hf hblock := Value.every_function.1 hf (hworld.mem_of_mem_addScope hblock)
  form_module _ _ _ _ hblock := by cases hblock
  name_top _ heq := by cases heq
  name_scope hworld _ heq := by
    cases heq
    exact absurd (List.mem_singleton_self _) hworld.free.fresh
  name_let hform _ _ heq := Form.ne_of_mentions_target (hform (heq ▸ List.mem_cons_self ..))
  world_scope hworld _ := hworld.addScope
  world_stamp hworld := hworld.stamp
  world_namespace path hworld := hworld.createNamespace path
  world_insert hworld _ hn hx _ := hworld.insert hn hx
  world_replace hworld _ hx _ := hworld.replace hx
  world_mark hworld _ := hworld.mark
  failed_rollback _ hworld _ _ := hworld.rollback
  toAllowance := .same setting
  related u u' := u.Unseen block name ∧ u' = u.bindFirst block name v
  world_of_related h := h.1
  path_eq _ h := by
    rw [h.2]
    rfl
  registered_eq _ h := by
    rw [h.2, Option.map_id_fun]
    rfl
  loaded_eq _ h := by
    rw [h.2]
    exact Or.inl rfl
  lookup_eq h _ hform := by
    rw [h.2, id, World.lookup_bindFirst fun hblock ↦ Form.ne_of_mentions (hform hblock),
      Value.translate_id_eq, Option.map_id_fun, id]
  lookup_top_eq h _ := by
    rw [h.2, Value.translate_id_eq, Option.map_id_fun]
    rfl
  binds_eq h _ hn := by rw [h.2, id, World.binds_bindFirst hn]
  findScope_eq h _ hform _ := by
    rw [h.2, id, World.findScope_bindFirst fun hblock ↦ Form.ne_of_mentions_target (hform hblock),
      Option.map_id_fun, id]
  scope_eq h := by rw [h.2, id, World.addScope_bindFirst h.1.lt, id]
  related_scope h _ := ⟨h.1.addScope, by rw [h.2, id, World.addScope_bindFirst h.1.lt]⟩
  function_eq h := by
    rw [h.2]
    rfl
  related_stamp h := ⟨h.1.stamp, by rw [h.2]; rfl⟩
  namespace_eq path h := by rw [h.2, World.createNamespace_bindFirst, id]
  related_namespace path h :=
    ⟨h.1.createNamespace path, by rw [h.2, World.createNamespace_bindFirst]⟩
  related_insert h _ hn hx _ := by
    refine ⟨h.1.insert hn hx, ?_⟩
    rw [h.2, id, Value.translate_id]
    exact World.modify_bindFirst fun _ _ _ ↦ Bindings.insert_cons
  related_replace h _ hx hscope := by
    refine ⟨h.1.replace hx, ?_⟩
    rw [h.2, id, Value.translate_id]
    refine World.modify_bindFirst fun outer heq _ ↦ Bindings.replace_cons ?_
    rw [heq] at hscope
    exact h.1.ne_of_findScope hscope
  related_mark h _ := ⟨h.1.mark, by rw [h.2, World.markLoaded_bindFirst]⟩
  parted_rollback h₁ h₂ _ _ := ⟨h₂.1.rollback, by rw [h₁.2, h₂.2]; rfl⟩

/-! ### Blocks -/

namespace World

variable {w : World} {c : Context} {name : String} {v : Value}

/-- A scope that was just made binds nothing, so binding there is binding in front. -/
theorem insert_addScope :
    ((w.addScope c).2.modifyBindings (w.addScope c).1 fun b ↦ b.insert name v) =
      (w.addScope c).2.bindFirst ⟨w.scopes.size⟩ name v := by
  have hscopes :
      (w.scopes.push ⟨c, .empty⟩).modify w.scopes.size
          (fun s ↦ { s with bindings := s.bindings.insert name v }) =
        (w.scopes.push ⟨c, .empty⟩).modify w.scopes.size
          fun s ↦ { s with bindings := s.bindings.cons name v } := by
    refine Array.ext_getElem? fun i ↦ ?_
    rw [Array.getElem?_modify, Array.getElem?_modify]
    split
    · rename_i hi
      rw [← hi, Array.getElem?_push_size]
      rfl
    · rfl
  simp only [modifyBindings, addScope, bindFirst, hscopes]

/-- In a linked world no function captured the scope that is made next. -/
theorem Linked.unseen_addScope (h : w.Linked) :
    (w.addScope c).2.Unseen ⟨w.scopes.size⟩ name := by
  have hnone : w.Free name [] := by
    intro id hid
    cases hid
  refine ⟨hnone.cons_fresh, h.values.scope.mono fun v hv ↦ hv.mono fun f hf hmem ↦ ?_⟩
  have hlt := hf.scopes_lt _ hmem
  exact absurd hlt (Nat.lt_irrefl _)

end World

namespace Evaluation

/-- An outcome in another world. -/
def inWorld {α : Type} (g : World → World) :
    EStateM.Result Failure World α → EStateM.Result Failure World α
  | .ok a u => .ok a (g u)
  | .error f u => .error f (g u)

variable {setting : Setting} {depth : Nat} {forms : List Form} {c : Context}
  {position : Position} {x : String} {n : Float} {w : World}

/-- A block is its forms in a sequence, in a scope that is made for them. -/
theorem evaluate_block :
    evaluate setting (depth + 1) (.list (.symbol "do" :: forms)) c position w =
      (sequence (evaluate setting depth) (w.addScope c).1 position forms >>=
        expectValue .block position) (w.addScope c).2 := by
  have hhead : (Form.symbol "do").special? = some .block := rfl
  rw [evaluate_succ, Simulation.step_special hhead]
  rfl

/-- A `let` of a number in a scope that was just made. -/
theorem evaluate_let (hx : Name.isFull x = false) :
    evaluate setting (depth + 2) (.list [.symbol "let", .symbol x, .number n]) (w.addScope c).1
        .value (w.addScope c).2 =
      .ok (.number n) ((w.addScope c).2.bindFirst ⟨w.scopes.size⟩ x (.number n)) := by
  have hhead : (Form.symbol "let").special? = some .localVariable := rfl
  have hfull : ¬ Name.isFull x = true := by simp [hx]
  -- The scope of the block is fresh when the `let` comes to be evaluated.
  have hfree : ((w.addScope c).2.bindingsOf (w.addScope c).1).binds x = false := by
    show ((w.addScope c).2.scopeAt ⟨w.scopes.size⟩).binds x = false
    rw [World.scopeAt_addScope]
    simp [World.scopeAt, Bindings.binds]
  have hdefine := Simulation.define_of_free (v := .number n) hfull hfree
  rw [World.insert_addScope] at hdefine
  have hlet : localVariable (evaluate setting (depth + 1)) (w.addScope c).1
      [.symbol x, .number n] (w.addScope c).2 =
        .ok (.number n) ((w.addScope c).2.bindFirst ⟨w.scopes.size⟩ x (.number n)) := by
    rw [localVariable_of_scope rfl]
    exact (bind_of_ok rfl).trans hdefine
  rw [evaluate_succ, Simulation.step_special hhead]
  exact bind_of_ok hlet

/-- What goes along with a run is its outcome, with the variable bound in the worlds. -/
theorem eq_inWorld_of_follows {block : ScopeId} {v : Value} {m m' : Evaluation Value}
    {P : World → Value → Prop} {u u' : World}
    (h : (unseeing setting block x v).Follows u u' m m'
      (unseeing setting block x v).translate P) :
    m' u' = inWorld (World.bindFirst block x v) (m u) := by
  unfold Simulation.Follows at h
  rcases hm : m u with ⟨a, y⟩ | ⟨f, y⟩
  · rw [hm] at h
    obtain ⟨-, -, -, y', hm', -, rfl⟩ := h
    rw [hm', Simulation.translate, show (unseeing setting block x v).function = id from rfl,
      Value.translate_id]
    rfl
  · rw [hm] at h
    obtain ⟨-, -, -, hexcused | ⟨y', hm', -, rfl⟩⟩ := h
    · exact hexcused.elim
    · rw [hm']
      rfl

/-- Forms that do not mention a variable run alike with and without it. -/
theorem sequence_bindFirst (hw : w.Linked) (hforms : ∀ form ∈ forms, form.mentions x = false)
    (hne : forms ≠ []) (v : Value) :
    (sequence (evaluate setting depth) (w.addScope c).1 position forms >>=
        expectValue .block position)
      ((w.addScope c).2.bindFirst ⟨w.scopes.size⟩ x v) =
      inWorld (World.bindFirst ⟨w.scopes.size⟩ x v)
        ((sequence (evaluate setting depth) (w.addScope c).1 position forms >>=
          expectValue .block position) (w.addScope c).2) := by
  -- Nothing that was there before has captured the scope, so the invariant holds to begin with.
  have he : (unseeing setting ⟨w.scopes.size⟩ x v).Evaluates (evaluate setting depth)
      (evaluate setting depth) :=
    Simulation.evaluates_of_shape (fun f ↦ ⟨f.stamp, rfl⟩) depth
  have hrelated : (unseeing setting ⟨w.scopes.size⟩ x v).related (w.addScope c).2
      ((w.addScope c).2.bindFirst ⟨w.scopes.size⟩ x v) :=
    ⟨hw.unseen_addScope, rfl⟩
  have hsequence : (unseeing setting ⟨w.scopes.size⟩ x v).Follows (w.addScope c).2
      ((w.addScope c).2.bindFirst ⟨w.scopes.size⟩ x v)
      (sequence (evaluate setting depth) (w.addScope c).1 position forms)
      (sequence (evaluate setting depth) (w.addScope c).1 position forms)
      (unseeing setting ⟨w.scopes.size⟩ x v).translate
      ((unseeing setting ⟨w.scopes.size⟩ x v).result position) :=
    Simulation.follows_sequence he hrelated trivial
      (fun form hform _ ↦ hforms form (List.dropLast_subset _ hform))
      (fun form hform _ ↦ hforms form (List.mem_of_getLast? hform)) fun hnil ↦ absurd hnil hne
  exact eq_inWorld_of_follows (hsequence.bind fun _ _ _ _ hu hresult ↦
    Simulation.follows_expectValue hu (Or.inl hresult))

/-- **Lexical scoping.** A `let` of a number at the front of a block whose other forms do not
mention the variable has no effect but on the scope of the block, which binds it in addition. The
block ends in the same value or the same failure as without it, limits included, whatever functions
are called from it and whatever these mention; only where no depth is left for the `let` itself does
the block end in that. The world is one in which what functions capture exists, as it does in every
world that is reached. -/
theorem block_let_unseen (setting : Setting) (depth : Nat) (x : String)
    (hx : Name.isFull x = false) (n : Float) (forms : List Form) (hne : forms ≠ [])
    (hforms : ∀ form ∈ forms, form.mentions x = false) (c : Context) (position : Position)
    (w : World) (hw : w.Linked) :
    evaluate setting depth
        (.list (.symbol "do" :: .list [.symbol "let", .symbol x, .number n] :: forms)) c position
        w =
      inWorld (World.bindFirst ⟨w.scopes.size⟩ x (.number n))
        (evaluate setting depth (.list (.symbol "do" :: forms)) c position w) ∨
    depth < 3 ∧ failure? (evaluate setting depth
        (.list (.symbol "do" :: .list [.symbol "let", .symbol x, .number n] :: forms)) c position
        w) = some .depthExceeded := by
  -- The `let` is two evaluations deep inside the block; with less depth it is not come to.
  obtain ⟨first, rest, rfl⟩ := List.exists_cons_of_ne_nil hne
  match depth with
  | 0 => exact Or.inr ⟨by omega, rfl⟩
  | 1 =>
    refine Or.inr ⟨by omega, ?_⟩
    rw [evaluate_block]
    rfl
  | 2 =>
    refine Or.inr ⟨by omega, ?_⟩
    rw [evaluate_block]
    rfl
  | depth + 3 =>
    refine Or.inl ?_
    rw [evaluate_block, evaluate_block, ← sequence_bindFirst hw hforms hne]
    have hlet : (discard (evaluate setting (depth + 2)
        (.list [.symbol "let", .symbol x, .number n]) (w.addScope c).1 .value) >>= fun _ ↦
          sequence (evaluate setting (depth + 2)) (w.addScope c).1 position (first :: rest))
        (w.addScope c).2 =
          sequence (evaluate setting (depth + 2)) (w.addScope c).1 position (first :: rest)
            ((w.addScope c).2.bindFirst ⟨w.scopes.size⟩ x (.number n)) :=
      bind_of_ok (bind_of_ok (evaluate_let hx))
    exact bind_of_eq hlet

/-- A function that mentions the variable, called from a block that binds it: the variable is not
bound where the function looks for it, with the `let` as without it. -/
theorem block_let_unseen_called :
    ∃ (i : Interpreter) (w : World), i.Reachable w ∧ w.Linked ∧
      failure? (evaluate ⟨⟨9, 9, 9⟩, fun _ ↦ .ok none⟩ 9
        (.list [.symbol "do", .list [.symbol "f"]]) (.top i.home) .value w) =
          some (.fault (.unbound "x")) ∧
      evaluate ⟨⟨9, 9, 9⟩, fun _ ↦ .ok none⟩ 9
          (.list [.symbol "do", .list [.symbol "let", .symbol "x", .number 5],
            .list [.symbol "f"]]) (.top i.home) .value w =
        inWorld (World.bindFirst ⟨w.scopes.size⟩ "x" (.number 5))
          (evaluate ⟨⟨9, 9, 9⟩, fun _ ↦ .ok none⟩ 9
            (.list [.symbol "do", .list [.symbol "f"]]) (.top i.home) .value w) := by
  have hreachable : (Interpreter.create Host.empty none none 0).1.Reachable
      ((Interpreter.create Host.empty none none 0).1.after
        ((Interpreter.create Host.empty none none 0).1.within ⟨9, 9, 9⟩ Host.empty)
        (.evalText "(defn f () x)") (Interpreter.create Host.empty none none 0).2) :=
    ⟨Host.empty, none, none, 0, rfl, .step _ _ _ (.refl _)⟩
  have hlinked := (Interpreter.linked_of_reachable hreachable).1
  refine ⟨_, _, hreachable, hlinked, by decide +kernel, ?_⟩
  rcases block_let_unseen ⟨⟨9, 9, 9⟩, fun _ ↦ .ok none⟩ 9 "x" (by decide) 5
    [.list [.symbol "f"]] (by simp) (by decide)
    (.top (Interpreter.create Host.empty none none 0).1.home) .value _ hlinked with heq | ⟨hlt, -⟩
  · exact heq
  · omega

end Evaluation

end DottedLisp
