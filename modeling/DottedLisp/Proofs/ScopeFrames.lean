import DottedLisp.Proofs.LinkedWorlds
import DottedLisp.Proofs.Moments

/-!
# What evaluation leaves of scopes

Blocks, calls and steps of loops make scopes, and closures come back to scopes that were made long
ago. Nevertheless an evaluation binds **new** names only in the context it is asked to evaluate in,
in scopes that it makes itself, and at the top level of namespaces; in every other scope it can at
most give names that are bound another value. This is the discipline `freezing`.

The second subject is where scopes stand. A scope keeps the context that it was made in, and a
context carries the contexts around it. The two say the same in a **tied** world (`World.Tied`):
every context that a function captured leads through the scopes as the scopes themselves say. This
is the discipline `tying`.

Both are spoken of by **level**: a namespace or a scope, without what stands around it.

Main statement: `Evaluation.bindings_never_leak`.
-/

namespace DottedLisp

/-! ### Levels -/

/-- One level of a context. -/
inductive Level where
  /-- The top level of a namespace. -/
  | space (id : NamespaceId)
  /-- A scope. -/
  | scope (id : ScopeId)
  deriving Repr, DecidableEq

namespace Context

/-- The innermost level. -/
def level : Context → Level
  | .top id => .space id
  | .scope id _ => .scope id

/-- All levels, the innermost first. -/
def levels : Context → List Level
  | .top id => [.space id]
  | .scope id outer => .scope id :: outer.levels

theorem level_mem (c : Context) : c.level ∈ c.levels := by
  cases c <;> exact List.mem_cons_self ..

end Context

/-- The namespace or the scope exists. -/
def Level.ExistsIn (w : World) : Level → Prop
  | .space id => id.index < w.namespaces.size
  | .scope id => id.index < w.scopes.size

namespace World

/-- What a level binds. -/
def bindingsAt (w : World) : Level → Bindings
  | .space id => (w.namespaceAt id).bindings
  | .scope id => w.scopeAt id

variable (w : World) (c : Context) (l : Level)

/-- What a context binds is what its innermost level binds; the levels around it do not matter. -/
theorem bindingsOf_eq : w.bindingsOf c = w.bindingsAt c.level := by
  cases c <;> rfl

/-- Changing bindings changes one level, if it exists. -/
theorem bindingsAt_modify (f : Bindings → Bindings) :
    (w.modifyBindings c f).bindingsAt l = w.bindingsAt l ∨
      l = c.level ∧ (w.modifyBindings c f).bindingsAt l = f (w.bindingsAt l) := by
  cases c with
  | top id =>
    cases l with
    | scope other => exact Or.inl rfl
    | space other =>
      simp only [bindingsAt, namespaceAt_modify_top]
      split
      · rename_i h
        exact Or.inr ⟨by rw [h.1]; rfl, by rw [h.1]⟩
      · exact Or.inl rfl
  | scope id outer =>
    cases l with
    | space other => exact Or.inl rfl
    | scope other =>
      simp only [bindingsAt, scopeAt_modify_scope]
      split
      · rename_i h
        exact Or.inr ⟨by rw [h.1]; rfl, by rw [h.1]⟩
      · exact Or.inl rfl

@[simp] theorem bindingsAt_addScope : (w.addScope c).2.bindingsAt l = w.bindingsAt l := by
  cases l with
  | space id => rfl
  | scope id => exact w.scopeAt_addScope c id

@[simp] theorem bindingsAt_createNamespace (path : String) :
    (w.createNamespace path).2.bindingsAt l = w.bindingsAt l := by
  cases l with
  | space id => exact w.bindings_createNamespace path id
  | scope id => exact w.scopeAt_createNamespace path id

@[simp] theorem bindingsAt_markLoaded (n : String) :
    (w.markLoaded n).bindingsAt l = w.bindingsAt l := by
  cases l with
  | space id => rw [bindingsAt, namespaceAt_markLoaded, bindingsAt]
  | scope id => exact w.scopeAt_markLoaded n id

@[simp] theorem bindingsAt_addStamp : w.addStamp.2.bindingsAt l = w.bindingsAt l := by
  cases l <;> rfl

@[simp] theorem bindingsAt_rollback (paths loaded : List String) (n : String) :
    (w.rollback paths loaded n).bindingsAt l = w.bindingsAt l := by
  cases l <;> rfl

end World

/-! ### Where scopes stand -/

namespace World

/-- The context that a scope was made in. -/
def outer? (w : World) (id : ScopeId) : Option Context :=
  w.scopes[id.index]?.map Scope.outer

variable {w w' w₁ w₂ w₃ : World} {c : Context} {id : ScopeId}

theorem lt_of_outer (h : w.outer? id = some c) : id.index < w.scopes.size := by
  obtain ⟨scope, hscope, -⟩ := Option.map_eq_some_iff.1 h
  exact (Array.getElem?_eq_some_iff.1 hscope).1

/-- A scope that exists was made in a context. -/
theorem exists_outer (h : id.index < w.scopes.size) : ∃ c, w.outer? id = some c :=
  ⟨_, by rw [outer?, Array.getElem?_eq_getElem h, Option.map_some]⟩

/-- A new scope stands in the context that it is made for, and the others where they stood. -/
theorem outer_addScope :
    (w.addScope c).2.outer? id = if id.index = w.scopes.size then some c else w.outer? id := by
  simp only [addScope, outer?, Array.getElem?_push]
  split <;> rfl

/-- Where scopes stand is read off the scopes alone. -/
theorem outer_of_scopes (h : w'.scopes = w.scopes) : w'.outer? id = w.outer? id := by
  rw [outer?, h, outer?]

/-- Binding and assigning does not move a scope. -/
@[simp] theorem outer_modify (f : Bindings → Bindings) :
    (w.modifyBindings c f).outer? id = w.outer? id := by
  cases c with
  | top _ => rfl
  | scope other _ =>
    simp only [modifyBindings, outer?, Array.getElem?_modify]
    split
    · rw [Option.map_map]
      rfl
    · rfl

/-- Namespaces and scopes are made and none is given up, and scopes stay where they are. -/
structure KeepsLinks (w w' : World) : Prop extends w.Grows w' where
  /-- Every scope that there was stands where it stood. -/
  outer_eq (id : ScopeId) : id.index < w.scopes.size → w'.outer? id = w.outer? id

namespace KeepsLinks

/-- A change that makes no scope. -/
theorem of_eq (hgrows : w.Grows w') (h : ∀ id, w'.outer? id = w.outer? id) : w.KeepsLinks w' :=
  ⟨hgrows, fun id _ ↦ h id⟩

theorem refl (w : World) : w.KeepsLinks w := of_eq (Grows.refl w) fun _ ↦ rfl

theorem trans (h : w₁.KeepsLinks w₂) (h' : w₂.KeepsLinks w₃) : w₁.KeepsLinks w₃ :=
  ⟨h.toGrows.trans h'.toGrows, fun id hid ↦
    (h'.outer_eq id (Nat.lt_of_lt_of_le hid h.scopes_le)).trans (h.outer_eq id hid)⟩

theorem addScope (w : World) (c : Context) : w.KeepsLinks (w.addScope c).2 :=
  ⟨Grows.addScope w c, fun id hid ↦ by rw [outer_addScope, if_neg (Nat.ne_of_lt hid)]⟩

/-- Bindings may change; the context of a scope does not. -/
theorem modify (w : World) (c : Context) (f : Bindings → Bindings) :
    w.KeepsLinks (w.modifyBindings c f) :=
  of_eq (Grows.modify w c f) fun _ ↦ outer_modify f

theorem stamp (w : World) : w.KeepsLinks w.addStamp.2 :=
  of_eq (Grows.of_eq rfl rfl) fun _ ↦ rfl

theorem createNamespace (w : World) (path : String) : w.KeepsLinks (w.createNamespace path).2 :=
  of_eq (Grows.createNamespace w path) fun _ ↦ outer_of_scopes (w.scopes_createNamespace path)

theorem mark (w : World) (n : String) : w.KeepsLinks (w.markLoaded n) :=
  of_eq (Grows.mark w n) fun _ ↦ outer_of_scopes (w.scopes_markLoaded n)

/-- Taking a load back gives no scope up, so nothing moves. -/
theorem rollback (h : w₁.KeepsLinks w₂) (paths loaded : List String) (n : String) :
    w₁.KeepsLinks (w₂.rollback paths loaded n) :=
  ⟨⟨h.namespaces_le, h.scopes_le⟩, h.outer_eq⟩

theorem outer (h : w.KeepsLinks w') (hid : w.outer? id = some c) : w'.outer? id = some c :=
  (h.outer_eq id (lt_of_outer hid)).trans hid

end KeepsLinks

end World

/-! ### The names that are bound -/

namespace World

/-- No name is given up anywhere, and on some levels none is added either. -/
structure KeepsNames (frozen : Level → Prop) (w w' : World) : Prop extends w.KeepsLinks w' where
  /-- Names stay bound, in their order. -/
  isPrefix (l : Level) : (w.bindingsAt l).names <+: (w'.bindingsAt l).names
  /-- No others are bound. -/
  names_eq (l : Level) : frozen l → (w'.bindingsAt l).names = (w.bindingsAt l).names

namespace KeepsNames

variable {frozen : Level → Prop} {w w' w₁ w₂ w₃ : World} {c : Context} {n : String} {v : Value}

/-- A change after which the same names are bound. -/
theorem of_eq (hlinks : w.KeepsLinks w')
    (h : ∀ l, (w'.bindingsAt l).names = (w.bindingsAt l).names) : w.KeepsNames frozen w' :=
  ⟨hlinks, fun l ↦ h l ▸ List.prefix_rfl, fun l _ ↦ h l⟩

theorem refl (w : World) : w.KeepsNames frozen w := of_eq (.refl w) fun _ ↦ rfl

/-- Names that stay bound, and none added to frozen levels, twice in a row. -/
theorem trans (h : w₁.KeepsNames frozen w₂) (h' : w₂.KeepsNames frozen w₃) :
    w₁.KeepsNames frozen w₃ where
  toKeepsLinks := h.toKeepsLinks.trans h'.toKeepsLinks
  isPrefix l := (h.isPrefix l).trans (h'.isPrefix l)
  names_eq l hl := (h'.names_eq l hl).trans (h.names_eq l hl)

/-- **A new name** may be bound on a level that is not frozen. -/
theorem insert (hc : ¬ frozen c.level) :
    w.KeepsNames frozen (w.modifyBindings c fun b ↦ b.insert n v) where
  toKeepsLinks := .modify ..
  isPrefix l := by
    rcases w.bindingsAt_modify c l fun b ↦ b.insert n v with h | ⟨-, h⟩
    · exact h ▸ List.prefix_rfl
    · rw [h, Bindings.names_insert]
      exact List.prefix_append ..
  names_eq l hl := by
    rcases w.bindingsAt_modify c l fun b ↦ b.insert n v with h | ⟨rfl, -⟩
    · rw [h]
    · exact absurd hl hc

/-- **Assignments** are allowed everywhere: they bind no new name. -/
theorem replace : w.KeepsNames frozen (w.modifyBindings c fun b ↦ b.replace n v) := by
  refine of_eq (.modify ..) fun l ↦ ?_
  rcases w.bindingsAt_modify c l fun b ↦ b.replace n v with h | ⟨-, h⟩
  · rw [h]
  · rw [h, Bindings.names_replace]

end KeepsNames

/-- The scopes of a world, other than one level. -/
def Others (w : World) (own : Level) (l : Level) : Prop :=
  ∃ id, l = .scope id ∧ id.index < w.scopes.size ∧ own ≠ l

/-- A scope that is made later is none of them. -/
theorem not_others_addScope {w₀ w : World} {own : Level} (h : w₀.scopes.size ≤ w.scopes.size)
    (c : Context) : ¬ w₀.Others own (w.addScope c).1.level := by
  rintro ⟨id, hid, hlt, -⟩
  cases hid
  exact absurd hlt (Nat.not_lt_of_le h)

/-- The top level of a namespace is not a scope. -/
theorem not_others_top (w : World) (own : Level) (id : NamespaceId) :
    ¬ w.Others own (Context.top id).level := by
  rintro ⟨_, hid, -⟩
  cases hid

end World

namespace Discipline

/-- **New names are bound in no other scope that there was.** Forms are evaluated in none of them
directly. -/
def freezing (setting : Setting) (w₀ : World) (own : Level) : Discipline setting where
  world w := w₀.scopes.size ≤ w.scopes.size
  later := World.KeepsNames (w₀.Others own)
  context _ c := ¬ w₀.Others own c.level
  later_refl := World.KeepsNames.refl
  later_trans := World.KeepsNames.trans
  context_later _ hc := hc
  failed_of_world hworld := hworld
  context_registered _ _ := World.not_others_top w₀ own _
  world_scope hworld _ := Nat.le_trans hworld (World.Grows.addScope ..).scopes_le
  later_scope _ _ := .of_eq (.addScope ..) fun l ↦ by simp
  context_scope hworld _ := World.not_others_addScope hworld _
  world_stamp hworld := hworld
  later_stamp _ := .of_eq (.stamp _) fun l ↦ by simp
  world_namespace path hworld :=
    Nat.le_trans hworld (World.Grows.createNamespace _ path).scopes_le
  later_namespace path _ := .of_eq (.createNamespace _ path) fun l ↦ by simp
  context_namespace _ _ := World.not_others_top w₀ own _
  world_insert hworld _ _ _ _ := Nat.le_trans hworld (World.Grows.modify ..).scopes_le
  later_insert _ hc _ _ _ := .insert hc
  world_replace hworld _ _ _ := Nat.le_trans hworld (World.Grows.modify ..).scopes_le
  later_replace _ _ _ _ := .replace
  world_mark hworld _ := Nat.le_trans hworld (World.Grows.mark ..).scopes_le
  later_mark _ _ := .of_eq (.mark ..) fun l ↦ by simp
  failed_rollback _ hworld _ _ := hworld
  later_rollback _ _ hlater _ :=
    ⟨hlater.rollback _ _ _, fun l ↦ by simpa using hlater.isPrefix l,
      fun l hl ↦ by simpa using hlater.names_eq l hl⟩

end Discipline

/-! ### Contexts that agree with the scopes -/

/-- The context leads through scopes as they say themselves, and ends in a namespace that exists. -/
def Context.TiedIn (w : World) : Context → Prop
  | .top id => id.index < w.namespaces.size
  | .scope id outer => w.outer? id = some outer ∧ outer.TiedIn w

namespace Context.TiedIn

variable {w w' : World} {c : Context}

theorem mono (h : c.TiedIn w) (hkeeps : w.KeepsLinks w') : c.TiedIn w' := by
  induction c with
  | top id => exact Nat.lt_of_lt_of_le h hkeeps.namespaces_le
  | scope id outer ih => exact ⟨hkeeps.outer h.1, ih h.2⟩

/-- A tied context leads through scopes that exist … -/
theorem lt (h : c.TiedIn w) : ∀ id ∈ c.scopes, id.index < w.scopes.size := by
  induction c with
  | top id => simp [Context.scopes]
  | scope id outer ih =>
    intro other hother
    rcases List.mem_cons.1 hother with rfl | hother
    · exact World.lt_of_outer h.1
    · exact ih h.2 other hother

/-- … and ends in a namespace that exists. -/
theorem existsIn (h : c.TiedIn w) : c.ExistsIn w where
  home_lt := by
    induction c with
    | top id => exact h
    | scope id outer ih => exact ih h.2
  scopes_lt := h.lt

end Context.TiedIn

namespace World

/-- **All contexts agree with the scopes**, and scopes stand in what was there before them. -/
structure Tied (w : World) : Prop where
  /-- What is referred to exists. -/
  linked : w.Linked
  /-- The contexts that functions captured agree with the scopes. -/
  values : w.All (·.Every fun f ↦ f.context.TiedIn w)
  /-- So do the contexts that scopes were made in. -/
  outers (id : ScopeId) (c : Context) : w.outer? id = some c → c.TiedIn w
  /-- All scopes of such a context are older. -/
  older (id : ScopeId) (c : Context) : w.outer? id = some c → ∀ k ∈ c.scopes, k.index < id.index

namespace Tied

variable {w w' : World} {c : Context} {n : String} {v : Value}

theorem empty (stamps : Nat) : (World.empty stamps).Tied := by
  refine ⟨⟨all_empty _ stamps, fun entry hentry ↦ ?_⟩, all_empty _ stamps, fun id c hid ↦ ?_,
    fun id c hid ↦ ?_⟩
  · cases hentry
  · cases hid
  · cases hid

/-- A change that makes no scope. -/
theorem of_keeps (h : w.Tied) (hkeeps : w.KeepsLinks w') (hlinked : w'.Linked)
    (hvalues : w'.All (·.Every fun f ↦ f.context.TiedIn w))
    (houter : ∀ id, w'.outer? id = w.outer? id) : w'.Tied where
  linked := hlinked
  values := hvalues.mono fun _ hv ↦ hv.mono fun _ hf ↦ hf.mono hkeeps
  outers id c hid := (h.outers id c ((houter id).symm.trans hid)).mono hkeeps
  older id c hid := h.older id c ((houter id).symm.trans hid)

/-- A new scope stands in the context that it is made in, which is there. -/
theorem addScope (h : w.Tied) (hc : c.TiedIn w) : (w.addScope c).2.Tied where
  linked := h.linked.addScope
  values := h.values.scope.mono fun _ hv ↦ hv.mono fun _ hf ↦ hf.mono (.addScope w c)
  outers id d hid := by
    rw [outer_addScope] at hid
    split at hid
    · cases hid
      exact hc.mono (.addScope w c)
    · exact (h.outers id d hid).mono (.addScope w c)
  older id d hid k hk := by
    rw [outer_addScope] at hid
    split at hid
    -- The new scope has the largest identity, and all that it stands in existed.
    · rename_i hnew
      cases hid
      rw [hnew]
      exact hc.lt k hk
    · exact h.older id d hid k hk

/-- The context with the new scope in front agrees with it. -/
theorem tiedIn_addScope (hc : c.TiedIn w) : (w.addScope c).1.TiedIn (w.addScope c).2 := by
  refine ⟨?_, hc.mono (.addScope w c)⟩
  rw [outer_addScope, if_pos rfl]

theorem stamp (h : w.Tied) : w.addStamp.2.Tied :=
  h.of_keeps (.stamp w) h.linked.stamp h.values.stamp fun _ ↦ rfl

theorem createNamespace (h : w.Tied) (path : String) : (w.createNamespace path).2.Tied :=
  h.of_keeps (.createNamespace w path) (h.linked.createNamespace path)
    (h.values.createNamespace path) fun _ ↦ outer_of_scopes (w.scopes_createNamespace path)

theorem insert (h : w.Tied) (hv : v.Every fun f ↦ f.context.TiedIn w) :
    (w.modifyBindings c fun b ↦ b.insert n v).Tied :=
  h.of_keeps (.modify ..) (h.linked.insert (hv.mono fun _ hf ↦ hf.existsIn)) (h.values.insert hv)
    fun _ ↦ outer_modify _

theorem replace (h : w.Tied) (hv : v.Every fun f ↦ f.context.TiedIn w) :
    (w.modifyBindings c fun b ↦ b.replace n v).Tied :=
  h.of_keeps (.modify ..) (h.linked.replace (hv.mono fun _ hf ↦ hf.existsIn)) (h.values.replace hv)
    fun _ ↦ outer_modify _

theorem mark (h : w.Tied) : (w.markLoaded n).Tied :=
  h.of_keeps (.mark w n) h.linked.mark h.values.mark
    fun _ ↦ outer_of_scopes (w.scopes_markLoaded n)

/-- Functions that a failed load made stay tied: their scopes are still there. -/
theorem rollback (h : w.Tied) (paths loaded : List String) : (w.rollback paths loaded n).Tied :=
  h.of_keeps ((KeepsLinks.refl w).rollback paths loaded n) h.linked.rollback
    (h.values.rollback paths loaded) fun _ ↦ rfl

end Tied

end World

namespace Discipline

/-- **Evaluations keep worlds tied**, and move no scope. -/
def tying (setting : Setting) : Discipline setting where
  world := World.Tied
  later := World.KeepsLinks
  value w v := v.Every fun f ↦ f.context.TiedIn w
  context w c := c.TiedIn w
  outer w c := c.TiedIn w
  later_refl := World.KeepsLinks.refl
  later_trans := World.KeepsLinks.trans
  value_later hkeeps hv := hv.mono fun _ hf ↦ hf.mono hkeeps
  context_later hkeeps hc := hc.mono hkeeps
  outer_later hkeeps hc := hc.mono hkeeps
  outer_of_context hc := hc
  value_nothing _ := Value.every_nothing
  value_number _ x := Value.every_number x
  value_lookup hworld _ hlookup := World.All.lookup hworld.values hlookup
  value_function {w} := fun _ hc _ _ _ ↦ Value.every_function.2 (hc.mono (.stamp w))
  value_signal hv hx := Value.every_signal.1 hv _ hx
  outer_function _ hv := Value.every_function.1 hv
  context_registered hworld hpath := hworld.linked.registered_lt hpath
  world_scope hworld hc := hworld.addScope hc
  later_scope _ _ := World.KeepsLinks.addScope ..
  context_scope _ hc := World.Tied.tiedIn_addScope hc
  world_stamp hworld := hworld.stamp
  later_stamp _ := World.KeepsLinks.stamp _
  world_namespace path hworld := hworld.createNamespace path
  later_namespace path _ := World.KeepsLinks.createNamespace _ path
  context_namespace path hworld := hworld.linked.lt_createNamespace path
  world_insert hworld _ _ hv _ := hworld.insert hv
  later_insert _ _ _ _ _ := World.KeepsLinks.modify ..
  world_replace hworld _ hv _ := hworld.replace hv
  later_replace _ _ _ _ := World.KeepsLinks.modify ..
  world_mark hworld _ := hworld.mark
  later_mark _ _ := World.KeepsLinks.mark ..
  failed_rollback _ hworld _ _ := hworld.rollback _ _
  later_rollback _ _ hlater _ := hlater.rollback _ _ _

/-- Loads that are asked for keep to the discipline too: neither marking a module nor taking a load
back touches a scope. -/
theorem closed_tying (setting : Setting) : (tying setting).Closed where
  form_checked _ _ := trivial
  world_mark _ hworld := World.Tied.mark hworld
  later_mark n _ := World.KeepsLinks.mark _ n
  failed_rollback _ _ hworld _ := World.Tied.rollback hworld _ _
  later_rollback _ _ _ hlater := World.KeepsLinks.rollback hlater _ _ _

end Discipline

/-! ### Following the scopes outwards -/

/-- Going from a scope to the context it was made in, again and again, ends in a namespace. -/
inductive World.EndsIn (w : World) : ScopeId → NamespaceId → Prop
  | top {id : ScopeId} {home : NamespaceId} : w.outer? id = some (.top home) → EndsIn w id home
  | scope {id next : ScopeId} {outer : Context} {home : NamespaceId} :
    w.outer? id = some (.scope next outer) → EndsIn w next home → EndsIn w id home

/-- A scope in a context that agrees with the scopes leads where the context leads. -/
theorem Context.TiedIn.endsIn {w : World} {c : Context} {id : ScopeId} (h : c.TiedIn w)
    (hid : w.outer? id = some c) : w.EndsIn id c.home := by
  induction c generalizing id with
  | top home => exact .top hid
  | scope next outer ih => exact .scope hid (ih h.2 h.1)

/-- **Every scope leads outwards to a namespace** that exists. -/
theorem World.Tied.endsIn {w : World} (h : w.Tied) {id : ScopeId} (hid : id.index < w.scopes.size) :
    ∃ home, w.EndsIn id home ∧ home.index < w.namespaces.size := by
  obtain ⟨c, hc⟩ := w.exists_outer hid
  have htied := h.outers id c hc
  exact ⟨c.home, htied.endsIn hc, htied.existsIn.home_lt⟩

namespace Interpreter

variable {i : Interpreter} {w : World}

/-- A fresh interpreter has made no scope; the native functions are no closures. -/
theorem tied_create (host : Host) (roots : Option (List String)) (name : Option String)
    (stamps : Nat) : (create host roots name stamps).2.Tied := by
  refine keeps_create (.empty stamps) (fun w path hw ↦ hw.createNamespace path)
    (fun w id entry hw ↦ ?_) host roots name
  unfold addNative
  exact hw.stamp.insert (Value.every_native _ _)

/-- **Reachable worlds are tied.** -/
theorem tied_of_reachable (h : i.Reachable w) : w.Tied := by
  obtain ⟨host, roots, name, stamps, hi, hleads⟩ := h
  have hkeep : ∀ limits host request u, (u.Tied ∧ (Context.top i.home).TiedIn u) →
      (i.after (i.within limits host) request u).Tied ∧
        (Context.top i.home).TiedIn (i.after (i.within limits host) request u) := by
    rintro limits host request u ⟨hu, hhome⟩
    have hafter := (Discipline.closed_tying (i.within limits host)).after i request hu hhome
    exact ⟨hafter.1, hhome.mono hafter.2⟩
  have htied := tied_create host roots name stamps
  obtain ⟨path, hpath⟩ := registered_create host roots name stamps
  rw [← hi] at hpath
  exact (hleads.keeps hkeep ⟨htied, htied.linked.registered_lt hpath⟩).1

end Interpreter

/-! ### Every evaluation -/

namespace Evaluation

/-- Names and links, in every world. -/
theorem keepsNames_after (setting : Setting) (depth : Nat) (m : Moment) :
    m.world.KeepsNames (m.world.Others m.context.level) (m.after (evaluate setting depth)) := by
  have hcontext : ¬ m.world.Others m.context.level m.context.level := by
    rintro ⟨_, -, -, hne⟩
    exact hne rfl
  exact ((Discipline.freezing setting m.world m.context.level).ends_after depth
    (Nat.le_refl _) hcontext trivial).2

/-- The contexts in a value agree with the scopes, if those agreed that it was made from. -/
theorem tied_outcome {setting : Setting} {depth : Nat} {m : Moment} {v : Value} {u : World}
    (hw : m.world.Tied) (hc : m.context.TiedIn m.world)
    (h : m.outcome (evaluate setting depth) = .ok v u) : v.Every fun f ↦ f.context.TiedIn u := by
  have hends := (Discipline.tying setting).ends_outcome depth hw hc trivial
  rw [h] at hends
  exact Discipline.value_of_result (fun _ _ ↦ Value.every_signal.2) hends.2.2

/-- **No binding leaks.** Let a form be evaluated in a context, whether it succeeds or fails.

* Every other scope that there was binds the same names.
* The context still binds all names that it bound.
* Every scope that there was stands where it stood.
* If all contexts agree with the scopes, they still do, those in the value included. Every scope
  that was made then stands in a namespace that exists, or in a scope that was made before it.

In the worlds that interpreters get into, going outwards from any scope ends in a namespace. -/
theorem bindings_never_leak :
    (∀ setting depth form c position w,
      let m : Moment := ⟨form, c, position, w⟩
      let u := m.after (evaluate setting depth)
      (∀ id, id.index < w.scopes.size → c.level ≠ .scope id →
        (u.scopeAt id).names = (w.scopeAt id).names) ∧
      (w.bindingsOf c).names <+: (u.bindingsOf c).names ∧
      (∀ id, id.index < w.scopes.size → u.outer? id = w.outer? id) ∧
      (w.Tied → c.TiedIn w →
        u.Tied ∧
        (∀ id, w.scopes.size ≤ id.index → id.index < u.scopes.size →
          ∃ outer, u.outer? id = some outer ∧ outer.home.index < u.namespaces.size ∧
            ∀ k ∈ outer.scopes, k.index < id.index) ∧
        ∀ v, m.outcome (evaluate setting depth) = .ok v u →
          v.Every fun f ↦ f.context.TiedIn u)) ∧
    ∀ i w, Interpreter.Reachable i w →
      ∀ id, id.index < w.scopes.size →
        ∃ home, w.EndsIn id home ∧ home.index < w.namespaces.size := by
  refine ⟨fun setting depth form c position w ↦ ?_, fun i w hw id hid ↦
    (Interpreter.tied_of_reachable hw).endsIn hid⟩
  intro m u
  -- The frozen levels are the scopes that there were, without that of the context.
  have hnames : w.KeepsNames (w.Others c.level) u := keepsNames_after setting depth m
  refine ⟨fun id hid hne ↦ hnames.names_eq (.scope id) ⟨id, rfl, hid, hne⟩, ?_, hnames.outer_eq,
    fun hw hc ↦ ?_⟩
  · rw [World.bindingsOf_eq, World.bindingsOf_eq]
    exact hnames.isPrefix c.level
  · have htied : u.Tied :=
      ((Discipline.tying setting).ends_after depth (m := m) hw hc trivial).1
    refine ⟨htied, fun id _ hid ↦ ?_, fun v hv ↦ tied_outcome hw hc hv⟩
    obtain ⟨outer, houter⟩ := World.exists_outer hid
    exact ⟨outer, houter, (htied.outers id outer houter).existsIn.home_lt,
      htied.older id outer houter⟩

/-- A block in a scope of its own, which binds a name that the context does not get. -/
theorem bindings_never_leak_block :
    let c : Context := .scope ⟨0⟩ (.top ⟨0⟩)
    let w := (((World.empty 0).createNamespace "m").2.addScope (.top ⟨0⟩)).2
    let form : Form := .list [.symbol "do", .list [.symbol "let", .symbol "x", .number 1]]
    let m : Moment := ⟨form, c, .value, w⟩
    let u := m.after (evaluate ⟨⟨9, 9, 9⟩, fun _ ↦ .ok none⟩ 9)
    w.Tied ∧ c.TiedIn w ∧ u.Tied ∧ (u.scopeAt ⟨1⟩).names = ["x"] ∧
      ∃ outer, u.outer? ⟨1⟩ = some outer ∧ ∀ k ∈ outer.scopes, k.index < 1 := by
  intro c w form m u
  have hspace : (Context.top ⟨0⟩).TiedIn ((World.empty 0).createNamespace "m").2 := by
    show 0 < ((World.empty 0).createNamespace "m").2.namespaces.size
    decide
  have hw : w.Tied := ((World.Tied.empty 0).createNamespace "m").addScope hspace
  have hc : c.TiedIn w := World.Tied.tiedIn_addScope hspace
  obtain ⟨-, -, -, htied⟩ :=
    bindings_never_leak.1 ⟨⟨9, 9, 9⟩, fun _ ↦ .ok none⟩ 9 form c .value w
  obtain ⟨hu, hmade, -⟩ := htied hw hc
  obtain ⟨outer, houter, -, holder⟩ := hmade ⟨1⟩ (by decide +kernel) (by decide +kernel)
  exact ⟨hw, hc, hu, by decide +kernel, outer, houter, holder⟩

end Evaluation

end DottedLisp
