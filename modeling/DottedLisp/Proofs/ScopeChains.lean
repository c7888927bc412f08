import DottedLisp.Proofs.ScopeFrames

/-!
# Chains of scopes

Three walks go outwards from a context: one that looks a name up, one that asks whether it is bound,
and one that finds the scope in which it is assigned. This module says that they stop at the same
level, and what a binding or an assignment in one place does to looking up **every** name from
**every** place.

The walks follow the chain that a context carries. The other side of the statements follows the
links of the scopes themselves: `World.Unshadowed` goes from a scope to the level that it was made
in, as long as the name is not bound on the way. The two ways are the same for contexts that agree
with the scopes (`Context.TiedIn`), however far the chains reach and whatever part of them they
share. Such a context is known by its innermost level (`Context.TiedIn.eq_of_level`), so that equal
contexts mean the same scope.

Main statement: `Evaluation.chains_agree`.
-/

namespace DottedLisp

/-! ### Contexts are known by their level -/

namespace Context.TiedIn

variable {w : World} {c d : Context}

/-- The scope in front of a context knows the context around it. -/
theorem outer (h : c.TiedIn w) {id : ScopeId} (hlevel : c.level = .scope id) :
    ∃ outer, c = .scope id outer ∧ w.outer? id = some outer ∧ outer.TiedIn w := by
  match c, h with
  | .scope _ outer, ⟨houter, htied⟩ =>
    obtain rfl := Level.scope.inj hlevel
    exact ⟨outer, rfl, houter, htied⟩

/-- **One scope, one context.** -/
theorem eq_of_level (hc : c.TiedIn w) (hd : d.TiedIn w) (h : c.level = d.level) : c = d := by
  match c, hc with
  | .top id, _ =>
    match d with
    | .top _ => rw [Level.space.inj h]
  | .scope id outer, ⟨houter, _⟩ =>
    obtain ⟨outer', rfl, houter', -⟩ := hd.outer h.symm
    rw [Option.some.inj (houter.symm.trans houter')]

theorem level_existsIn (h : c.TiedIn w) : c.level.ExistsIn w := by
  match c, h with
  | .top _, hlt => exact hlt
  | .scope _ _, ⟨houter, _⟩ => exact World.lt_of_outer houter

end Context.TiedIn

namespace World

/-! ### Going outwards -/

/-- Going outwards from a level, by the links of the scopes, one comes to another level, and no
level **before** it binds the name. The other level itself may bind it. -/
inductive Unshadowed (w : World) (name : String) : Level → Level → Prop
  | refl (l : Level) : Unshadowed w name l l
  | outward {id : ScopeId} {outer : Context} {l : Level} (houter : w.outer? id = some outer)
    (hfree : (w.scopeAt id).binds name = false) (h : Unshadowed w name outer.level l) :
    Unshadowed w name (.scope id) l

/-- A scope is the **nearest** one that binds a name, going outwards from a level. -/
def Nearest (w : World) (name : String) (start : Level) (id : ScopeId) : Prop :=
  w.Unshadowed name start (.scope id) ∧ (w.scopeAt id).binds name = true

variable {w : World} {c r s t outer : Context} {l : Level} {id : ScopeId} {x y : String} {v : Value}

/-- From the top level of a namespace no other level is seen. -/
theorem unshadowed_space_iff {home : NamespaceId} :
    w.Unshadowed x (.space home) l ↔ l = .space home := by
  constructor
  · rintro ⟨⟩
    rfl
  · rintro rfl
    exact .refl _

/-- The way out of a scope. -/
theorem unshadowed_scope_iff (houter : w.outer? id = some outer) :
    w.Unshadowed x (.scope id) l ↔
      l = .scope id ∨ (w.scopeAt id).binds x = false ∧ w.Unshadowed x outer.level l := by
  constructor
  · rintro (- | ⟨houter', hfree, h⟩)
    · exact Or.inl rfl
    · obtain rfl := Option.some.inj (houter.symm.trans houter')
      exact Or.inr ⟨hfree, h⟩
  · rintro (rfl | ⟨hfree, h⟩)
    · exact .refl _
    · exact .outward houter hfree h

/-! ### The three walks -/

/-- Looking a name up tries the innermost level first. -/
theorem lookup_scope (w : World) (id : ScopeId) (outer : Context) (x : String) :
    w.lookup? (.scope id outer) x = ((w.scopeAt id).get? x).or (w.lookup? outer x) := by
  rw [lookup?]
  rcases (w.scopeAt id).get? x with - | a <;> rfl

/-- A scope that does not bind the name is passed by … -/
theorem lookup_scope_of_free (h : (w.scopeAt id).binds x = false) :
    w.lookup? (.scope id outer) x = w.lookup? outer x := by
  have hnone : (w.scopeAt id).get? x = none := by simpa [Bindings.binds] using h
  rw [lookup_scope, hnone, Option.none_or]

/-- … and one that binds it answers. -/
theorem lookup_scope_of_bound (h : (w.scopeAt id).binds x = true) :
    w.lookup? (.scope id outer) x = (w.scopeAt id).get? x := by
  obtain ⟨a, ha⟩ := Option.isSome_iff_exists.1 h
  rw [lookup_scope, ha, Option.some_or]

theorem findScope_of_bound (h : (w.scopeAt id).binds x = true) :
    w.findScope? (.scope id outer) x = some (.scope id outer) := by
  rw [findScope?, if_pos h]

theorem findScope_of_free (h : (w.scopeAt id).binds x = false) :
    w.findScope? (.scope id outer) x = w.findScope? outer x := by
  rw [findScope?, if_neg (by rw [h]; exact Bool.false_ne_true)]

/-- A name is bound where looking it up gives something. -/
theorem isBound_eq (w : World) (c : Context) (x : String) :
    w.isBound c x = (w.lookup? c x).isSome := by
  induction c with
  | top id => rfl
  | scope id outer ih => rw [isBound, ih, lookup_scope, Option.isSome_or, Bindings.binds]

/-- What is found is the nearest scope, as a context that agrees with the scopes. -/
theorem nearest_of_findScope (hc : c.TiedIn w) (h : w.findScope? c x = some t) :
    ∃ id outer, t = .scope id outer ∧ t.TiedIn w ∧ w.Nearest x c.level id := by
  induction c with
  | top home => exact absurd h (Option.some_ne_none _).symm
  | scope id outer ih =>
    rcases hbinds : (w.scopeAt id).binds x with - | -
    · rw [findScope_of_free hbinds] at h
      obtain ⟨id', outer', ht, htied, hway, hbound⟩ := ih hc.2 h
      exact ⟨id', outer', ht, htied, .outward hc.1 hbinds hway, hbound⟩
    · rw [findScope_of_bound hbinds] at h
      obtain rfl := Option.some.inj h
      exact ⟨id, outer, rfl, hc, .refl _, hbinds⟩

/-- **The nearest scope is found.** -/
theorem findScope_of_nearest (hc : c.TiedIn w) (h : w.Nearest x c.level id) :
    ∃ outer, w.findScope? c x = some (.scope id outer) := by
  obtain ⟨hway, hbound⟩ := h
  induction c with
  | top home => exact absurd (unshadowed_space_iff.1 hway) Level.noConfusion
  | scope id' outer ih =>
    rcases (unshadowed_scope_iff hc.1).1 hway with heq | ⟨hfree, hway⟩
    · obtain rfl := Level.scope.inj heq
      exact ⟨outer, findScope_of_bound hbound⟩
    · rw [findScope_of_free hfree]
      exact ih hc.2 hway

/-- Looking up stops where finding stops. -/
theorem lookup_of_findScope (h : w.findScope? c x = some (.scope id outer)) :
    w.lookup? c x = (w.scopeAt id).get? x := by
  induction c with
  | top home => exact absurd h (Option.some_ne_none _).symm
  | scope id' outer' ih =>
    rcases hbinds : (w.scopeAt id').binds x with - | -
    · rw [findScope_of_free hbinds] at h
      rw [lookup_scope_of_free hbinds, ih h]
    · rw [findScope_of_bound hbinds] at h
      obtain ⟨rfl, -⟩ := Context.scope.inj (Option.some.inj h)
      exact lookup_scope_of_bound hbinds

/-- Where no scope is found, the namespace that ends the chain decides. -/
theorem lookup_of_findScope_none (hc : c.TiedIn w) (h : w.findScope? c x = none) :
    w.Unshadowed x c.level (.space c.home) ∧
      w.lookup? c x = (w.namespaceAt c.home).bindings.get? x := by
  induction c with
  | top home => exact ⟨.refl _, rfl⟩
  | scope id outer ih =>
    rcases hbinds : (w.scopeAt id).binds x with - | -
    · rw [findScope_of_free hbinds] at h
      obtain ⟨hway, hlookup⟩ := ih hc.2 h
      exact ⟨.outward hc.1 hbinds hway, by rw [lookup_scope_of_free hbinds, hlookup]; rfl⟩
    · rw [findScope_of_bound hbinds] at h
      exact absurd h (Option.some_ne_none _)

/-! ### Changing one level -/

/-- A change is seen on the level that it is made on only. -/
theorem bindingsAt_modify_of_ne (f : Bindings → Bindings) (h : l ≠ c.level) :
    (w.modifyBindings c f).bindingsAt l = w.bindingsAt l := by
  rcases w.bindingsAt_modify c l f with heq | ⟨hl, -⟩
  · exact heq
  · exact absurd hl h

/-- There it is seen, if the level exists. -/
theorem bindingsAt_modify_self (f : Bindings → Bindings) (h : c.level.ExistsIn w) :
    (w.modifyBindings c f).bindingsAt c.level = f (w.bindingsAt c.level) := by
  match c with
  | .top id =>
    show ((w.modifyBindings (.top id) f).namespaceAt id).bindings = _
    rw [namespaceAt_modify_top, if_pos ⟨rfl, h⟩]
    rfl
  | .scope id outer =>
    show (w.modifyBindings (.scope id outer) f).scopeAt id = _
    rw [scopeAt_modify_scope, if_pos ⟨rfl, h⟩]
    rfl

/-- One world is the other with a **new value for a name on one level**, and differs in no other
binding. The name may have been bound there before. -/
structure Sets (w : World) (l : Level) (x : String) (v : Value) (u : World) : Prop where
  /-- The name has the value. -/
  self : (u.bindingsAt l).get? x = some v
  /-- Other names of the level have their values. -/
  names (y : String) : y ≠ x → (u.bindingsAt l).get? y = (w.bindingsAt l).get? y
  /-- Other levels bind what they did. -/
  levels (k : Level) : k ≠ l → u.bindingsAt k = w.bindingsAt k

/-- Binding a name that is free sets it on the innermost level. -/
theorem sets_insert (hlevel : c.level.ExistsIn w) (hfree : (w.bindingsOf c).binds x = false) :
    w.Sets c.level x v (w.modifyBindings c fun b ↦ b.insert x v) where
  self := by
    rw [bindingsOf_eq] at hfree
    rw [bindingsAt_modify_self _ hlevel]
    exact Bindings.get?_insert_self (by simpa [Bindings.binds] using hfree)
  names y hy := by rw [bindingsAt_modify_self _ hlevel, Bindings.get?_insert_of_ne hy]
  levels k hk := bindingsAt_modify_of_ne _ hk

/-- Giving a bound name another value sets it on the level that binds it. -/
theorem sets_replace (hlevel : c.level.ExistsIn w) (hbound : (w.bindingsOf c).binds x = true) :
    w.Sets c.level x v (w.modifyBindings c fun b ↦ b.replace x v) where
  self := by
    rw [bindingsOf_eq] at hbound
    rw [bindingsAt_modify_self _ hlevel, Bindings.get?_replace_self hbound]
  names y hy := by rw [bindingsAt_modify_self _ hlevel, Bindings.get?_replace_of_ne hy]
  levels k hk := bindingsAt_modify_of_ne _ hk

namespace Sets

variable {u : World}

/-- **The new value is seen** from where the level is reached and nothing nearer binds the name. -/
theorem lookup_self (h : w.Sets l x v u) (hr : r.TiedIn w) (hway : w.Unshadowed x r.level l) :
    u.lookup? r x = some v := by
  induction r with
  | top home =>
    obtain rfl := unshadowed_space_iff.1 hway
    exact h.self
  | scope id outer ih =>
    by_cases hl : Level.scope id = l
    · subst hl
      rw [lookup_scope, show (u.scopeAt id).get? x = some v from h.self, Option.some_or]
    · have hscope : u.scopeAt id = w.scopeAt id := h.levels (.scope id) hl
      obtain ⟨hfree, hway⟩ := ((unshadowed_scope_iff hr.1).1 hway).resolve_left (Ne.symm hl)
      rw [lookup_scope_of_free (by rw [hscope, hfree])]
      exact ih hr.2 hway

/-- **Nothing else changes**: no other name, and no place that does not see the level. -/
theorem lookup_other (h : w.Sets l x v u) (hr : r.TiedIn w)
    (hother : ¬ (y = x ∧ w.Unshadowed x r.level l)) : u.lookup? r y = w.lookup? r y := by
  induction r with
  | top home =>
    show (u.bindingsAt (.space home)).get? y = (w.bindingsAt (.space home)).get? y
    by_cases hl : Level.space home = l
    · subst hl
      exact h.names y fun hy ↦ hother ⟨hy, .refl _⟩
    · rw [h.levels _ hl]
  | scope id outer ih =>
    rw [lookup_scope, lookup_scope]
    by_cases hl : Level.scope id = l
    · subst hl
      -- At the level that is set another name is looked up.
      have hy : y ≠ x := fun hy ↦ hother ⟨hy, .refl _⟩
      have hget : (u.scopeAt id).get? y = (w.scopeAt id).get? y := h.names y hy
      rw [hget, ih hr.2 fun hsees ↦ hy hsees.1]
    · -- Another level answers as before. If it passes the name on, it does not hide the level that
      -- is set, so the way there goes on outwards.
      have hscope : u.scopeAt id = w.scopeAt id := h.levels (.scope id) hl
      rw [hscope]
      rcases hbinds : (w.scopeAt id).get? y with - | a
      · have houter : u.lookup? outer y = w.lookup? outer y := by
          refine ih hr.2 fun ⟨hy, hway⟩ ↦ hother ⟨hy, .outward hr.1 ?_ hway⟩
          rw [← hy, Bindings.binds, hbinds]
          rfl
        rw [houter]
      · rfl

end Sets

end World

/-! ### The operations -/

namespace Evaluation

open World

variable {w : World} {s : Context}

/-- Two walks find the same scope exactly if the one scope is the nearest for both. -/
theorem findScope_eq_iff {r t : Context} {x : String} (hr : r.TiedIn w) (hs : s.TiedIn w)
    (ht : w.findScope? s x = some t) :
    w.findScope? r x = w.findScope? s x ↔ w.Unshadowed x r.level t.level := by
  obtain ⟨id, outer, rfl, htied, -, hbound⟩ := nearest_of_findScope hs ht
  rw [ht]
  constructor
  · intro h
    obtain ⟨id', outer', heq, -, hway, -⟩ := nearest_of_findScope hr h
    obtain ⟨rfl, -⟩ := Context.scope.inj heq
    exact hway
  · intro hway
    obtain ⟨outer', hfound⟩ := findScope_of_nearest hr ⟨hway, hbound⟩
    obtain ⟨id', outer'', heq, htied', -⟩ := nearest_of_findScope hr hfound
    rw [hfound, htied'.eq_of_level htied rfl]

/-- **The operations on chains of scopes agree**, in every world and from every context that agrees
with the scopes. For a name `x`:

* it is bound exactly if looking it up succeeds;
* the scope that is found is the nearest one that binds it, and looking it up gives what that scope
  binds it to; if none is found, looking it up gives what the namespace binds that ends the chain;
* an assignment fails exactly if no scope is found, and then changes nothing; otherwise `x` has the
  new value from wherever the same scope is found, and every other look-up is as before;
* a binding that succeeds is seen from exactly the places from which the level is reached without a
  nearer binding of `x`, and every other look-up is as before. -/
theorem chains_agree (hs : s.TiedIn w) (x : String) (v : Value) :
    (w.isBound s x = true ↔ ∃ a, get s x w = .ok a w) ∧
    (∀ id, (∃ outer, w.findScope? s x = some (.scope id outer)) ↔ w.Nearest x s.level id) ∧
    (∀ id outer, w.findScope? s x = some (.scope id outer) →
      w.lookup? s x = (w.scopeAt id).get? x) ∧
    (w.findScope? s x = none → w.Unshadowed x s.level (.space s.home) ∧
      w.lookup? s x = w.lookup? (.top s.home) x) ∧
    (w.findScope? s x = none → assign s x v w = .error (.fault (.unbound x)) w) ∧
    (w.findScope? s x ≠ none → ∃ u, assign s x v w = .ok v u ∧
      ∀ r y, r.TiedIn w → u.lookup? r y =
        if y = x ∧ w.findScope? r x = w.findScope? s x then some v else w.lookup? r y) ∧
    ∀ a u, define s (.symbol x) v w = .ok a u → a = v ∧
      ∀ r y, r.TiedIn w →
        (y = x ∧ w.Unshadowed x r.level s.level → u.lookup? r y = some v) ∧
        (¬ (y = x ∧ w.Unshadowed x r.level s.level) → u.lookup? r y = w.lookup? r y) := by
  refine ⟨?_, fun id ↦ ⟨?_, findScope_of_nearest hs⟩, fun id outer ↦ lookup_of_findScope,
    lookup_of_findScope_none hs, fun hnone ↦ ?_, fun hsome ↦ ?_, fun a u hdefine ↦ ?_⟩
  · rw [isBound_eq, get]
    rcases w.lookup? s x with - | a
    · simp
    · simp
  · rintro ⟨outer, hfound⟩
    obtain ⟨id', outer', heq, -, hnearest⟩ := nearest_of_findScope hs hfound
    obtain ⟨rfl, -⟩ := Context.scope.inj heq
    exact hnearest
  · simp only [assign, hnone]
  -- Assigning sets the name on the nearest level that binds it; a context sees that exactly if its
  -- own search ends at the same level.
  · obtain ⟨t, ht⟩ := Option.ne_none_iff_exists'.1 hsome
    refine ⟨w.modifyBindings t fun b ↦ b.replace x v, by simp only [assign, ht], fun r y hr ↦ ?_⟩
    obtain ⟨id, outer, rfl, htied, -, hbound⟩ := nearest_of_findScope hs ht
    have hsets := sets_replace (v := v) htied.level_existsIn hbound
    have hsame := findScope_eq_iff hr hs ht
    split
    · rename_i hsees
      rw [hsees.1]
      exact hsets.lookup_self hr (hsame.1 hsees.2)
    · rename_i hother
      exact hsets.lookup_other hr fun hsees ↦ hother ⟨hsees.1, hsame.2 hsees.2⟩
  -- Defining sets it on the innermost level, where it was free.
  · obtain ⟨-, hfree, rfl, rfl⟩ := Simulation.define_eq_ok hdefine
    have hsets := sets_insert (v := a) hs.level_existsIn hfree
    refine ⟨rfl, fun r y hr ↦ ⟨?_, hsets.lookup_other hr⟩⟩
    rintro ⟨rfl, hway⟩
    exact hsets.lookup_self hr hway

/-- Two scopes inside a third. One of them binds the name itself, as do the third and the namespace;
the name is assigned, and then bound, from the one that does not. -/
theorem chains_agree_siblings :
    let shared : Context := .scope ⟨0⟩ (.top ⟨0⟩)
    let s : Context := .scope ⟨1⟩ shared
    let r : Context := .scope ⟨2⟩ shared
    let w : World :=
      ⟨#[⟨"m", ⟨[("x", .number 1)]⟩⟩],
        #[⟨.top ⟨0⟩, ⟨[("x", .number 2)]⟩⟩, ⟨shared, .empty⟩, ⟨shared, ⟨[("x", .number 3)]⟩⟩],
        [], [], 0⟩
    s.TiedIn w ∧
      (∃ u, assign s "x" (.number 4) w = .ok (.number 4) u ∧
        u.lookup? s "x" = some (.number 4) ∧ u.lookup? shared "x" = some (.number 4) ∧
        u.lookup? r "x" = some (.number 3) ∧ u.lookup? (.top ⟨0⟩) "x" = some (.number 1)) ∧
      ∃ u, define s (.symbol "x") (.number 5) w = .ok (.number 5) u ∧
        u.lookup? s "x" = some (.number 5) ∧ u.lookup? shared "x" = some (.number 2) := by
  intro shared s r w
  have hspace : (Context.top ⟨0⟩).TiedIn w := by
    show 0 < 1
    decide
  have hshared : shared.TiedIn w := ⟨rfl, hspace⟩
  have hs : s.TiedIn w := ⟨rfl, hshared⟩
  have hr : r.TiedIn w := ⟨rfl, hshared⟩
  obtain ⟨-, -, -, -, -, hassign, -⟩ := chains_agree hs "x" (.number 4)
  obtain ⟨-, -, -, -, -, -, hdefine⟩ := chains_agree hs "x" (.number 5)
  refine ⟨hs, ?_, ?_⟩
  · obtain ⟨u, hu, hlookup⟩ := hassign (by decide +kernel)
    refine ⟨u, hu, ?_, ?_, ?_, ?_⟩
    · rw [hlookup s "x" hs]
      decide +kernel
    · rw [hlookup shared "x" hshared]
      decide +kernel
    · rw [hlookup r "x" hr]
      decide +kernel
    · rw [hlookup (.top ⟨0⟩) "x" hspace]
      decide +kernel
  · obtain ⟨-, hlookup⟩ := hdefine _ _ rfl
    refine ⟨_, rfl, (hlookup s "x" hs).1 ⟨rfl, .refl _⟩, ?_⟩
    have hunseen : ¬ w.Unshadowed "x" shared.level s.level := by
      intro hway
      rcases (unshadowed_scope_iff hshared.1).1 hway with heq | ⟨hfree, -⟩
      · exact absurd heq (by decide)
      · exact absurd hfree (by decide +kernel)
    rw [(hlookup shared "x" hshared).2 fun hsees ↦ hunseen hsees.2]
    decide +kernel

end Evaluation

end DottedLisp
