import DottedLisp.Proofs.Growth
import DottedLisp.Proofs.LinkedWorlds

/-!
# Registry coherence

Code refers to its namespace in two ways: plain names go to the namespace that ends the chain of its
context, and relative full names go through the registry, to whatever is registered under the path
of that namespace. A namespace is **coherent** if these are one and the same.

Namespaces are made and registered together, so during an evaluation every function is at home in a
coherent namespace. A load that fails takes the paths that it registered out of the registry, and
with them namespaces in which functions may already have been made; such a function can have been
bound in a namespace that stays. So coherence is lost **in this way only**: a function that is bound
anywhere is at home in a coherent namespace exactly if that namespace was not discarded by a request
that failed.

In the discipline `cohering`, what evaluation keeps is therefore stricter than what a failure leaves
(`Discipline.failed`).
-/

namespace DottedLisp

namespace World

/-- The namespace exists, and the registry holds it under its own path. -/
def Coherent (w : World) (id : NamespaceId) : Prop :=
  id.index < w.namespaces.size ∧ w.registered? (w.namespaceAt id).path = some id

/-! ### How the registry grows -/

/-- Everything is still there, and namespaces that are registered newly were made since. -/
structure Registers (w w' : World) : Prop extends w.Extends w' where
  /-- A registered namespace was registered under the path before, or is new. -/
  fresh {path : String} {id : NamespaceId} : w'.registered? path = some id →
    w.registered? path = some id ∨ w.namespaces.size ≤ id.index

namespace Registers

variable {w w' w₁ w₂ w₃ : World} {c scope : Context} {n : String} {v : Value}

/-- A change that leaves the registry alone. -/
theorem of_registry (h : w.Extends w') (hregistry : w'.registry = w.registry) :
    w.Registers w' where
  toExtends := h
  fresh hpath := by
    rw [registered?, hregistry] at hpath
    exact Or.inl hpath

theorem refl (w : World) : w.Registers w := of_registry (Extends.refl w) rfl

theorem trans (h : w₁.Registers w₂) (h' : w₂.Registers w₃) : w₁.Registers w₃ where
  toExtends := h.toExtends.trans h'.toExtends
  fresh hpath := by
    rcases h'.fresh hpath with hpath₂ | hnew
    · exact h.fresh hpath₂
    · exact Or.inr (Nat.le_trans h.size_le hnew)

/-- Creating a namespace registers nothing that there was before. -/
theorem createNamespace (w : World) (path : String) :
    w.Registers (w.createNamespace path).2 where
  toExtends := Extends.createNamespace path
  fresh hpath := by
    rcases w.registered_of_createNamespace hpath with hold | ⟨-, rfl, -⟩
    · exact Or.inl hold
    · exact Or.inr (Nat.le_refl _)

theorem insert : w.Registers (w.modifyBindings c fun b ↦ b.insert n v) :=
  of_registry Extends.insert (registry_modify ..)

/-- Assigning gives a bound name another value; the registry has no part in it. -/
theorem replace (h : w.findScope? c n = some scope) :
    w.Registers (w.modifyBindings scope fun b ↦ b.replace n v) :=
  of_registry (Extends.replace h) (registry_modify ..)

theorem mark : w.Registers (w.markLoaded n) :=
  of_registry (Extends.of_eq (namespaces_markLoaded ..) (registry_markLoaded ..))
    (registry_markLoaded ..)

/-- **Taking a load back** leaves the paths that were registered before it, and these hold the
namespaces that they held. -/
theorem rollback (h : w₁.Registers w₂) (loaded : List String) (n : String) :
    w₁.Registers (w₂.rollback w₁.paths loaded n) :=
  of_registry (h.toExtends.rollback loaded n) (h.toExtends.registry_rollback loaded n)

/-- **Coherence lasts** as long as nothing is taken back. -/
theorem coherent {id : NamespaceId} (h : w.Registers w') (hid : w.Coherent id) :
    w'.Coherent id := by
  obtain ⟨hlt, hregistered⟩ := hid
  refine ⟨Nat.lt_of_lt_of_le hlt h.size_le, ?_⟩
  rw [h.path_eq id hlt]
  exact h.registered hregistered

/-- **A namespace that is not registered under its path never will be.** -/
theorem not_coherent {id : NamespaceId} (h : w.Registers w')
    (hlt : id.index < w.namespaces.size) (hid : ¬ w.Coherent id) : ¬ w'.Coherent id := by
  rintro ⟨-, hregistered⟩
  rw [h.path_eq id hlt] at hregistered
  rcases h.fresh hregistered with hold | hnew
  · exact hid ⟨hlt, hold⟩
  · omega

end Registers

/-- Registered namespaces are coherent: each is under its own path. -/
def Filed (w : World) : Prop :=
  ∀ path id, w.registered? path = some id →
    id.index < w.namespaces.size ∧ (w.namespaceAt id).path = path

namespace Filed

variable {w w' : World} {c : Context} {n path : String} {id : NamespaceId}

theorem coherent (h : w.Filed) (hpath : w.registered? path = some id) : w.Coherent id := by
  obtain ⟨hlt, heq⟩ := h path id hpath
  exact ⟨hlt, by rw [heq, hpath]⟩

/-- A change that registers nothing and keeps the paths of namespaces. -/
theorem of_extends (h : w.Filed) (hextends : w.Extends w')
    (hregistry : ∀ path id, w'.registered? path = some id → w.registered? path = some id) :
    w'.Filed := by
  intro path id hpath
  obtain ⟨hlt, heq⟩ := h path id (hregistry path id hpath)
  exact ⟨Nat.lt_of_lt_of_le hlt hextends.size_le, by rw [hextends.path_eq id hlt, heq]⟩

/-- So a registry stays filed: the new namespace is under its own path. -/
theorem createNamespace (h : w.Filed) (path : String) : (w.createNamespace path).2.Filed := by
  intro other id hother
  have hextends : w.Extends (w.createNamespace path).2 := Extends.createNamespace path
  rcases w.registered_of_createNamespace hother with hold | ⟨rfl, rfl, hnone⟩
  · obtain ⟨hlt, heq⟩ := h other id hold
    exact ⟨Nat.lt_of_lt_of_le hlt hextends.size_le, by rw [hextends.path_eq id hlt, heq]⟩
  · rw [createNamespace_of_unregistered w hnone]
    simp [register, addNamespace, namespaceAt]

end Filed

/-! ### Where functions are at home -/

/-- What evaluation keeps, in a request that began when there were `start` namespaces and that came
after requests which lost some: functions are at home in coherent namespaces, the lost ones
apart. -/
structure Cohering (lost : NamespaceId → Prop) (start : Nat) (w : World) : Prop where
  /-- Registered namespaces are under their own paths. -/
  filed : w.Filed
  /-- Namespaces were only added. -/
  start_le : start ≤ w.namespaces.size
  /-- Functions are at home in coherent namespaces. -/
  values : w.All (·.Every fun f ↦ lost f.context.home ∨ w.Coherent f.context.home)

/-- What a failure leaves: a function may also be at home in a namespace that the request made. -/
structure Stranding (lost : NamespaceId → Prop) (start : Nat) (w : World) : Prop where
  /-- Registered namespaces are under their own paths. -/
  filed : w.Filed
  /-- Functions are at home in coherent namespaces, or in new ones. -/
  values : w.All (·.Every fun f ↦ (lost f.context.home ∨ w.Coherent f.context.home) ∨
    start ≤ f.context.home.index ∧ f.context.home.index < w.namespaces.size)

variable {lost : NamespaceId → Prop} {start : Nat} {w w' w₁ w₂ : World} {c : Context} {n : String}
  {v : Value}

/-- Coherence stays: what is registered is not registered anew. -/
theorem Registers.lost_or_coherent (h : w.Registers w') {id : NamespaceId}
    (hid : lost id ∨ w.Coherent id) : lost id ∨ w'.Coherent id :=
  hid.imp_right h.coherent

namespace Cohering

/-- A change that takes nothing back, after which all that is bound was admitted before. -/
theorem of_registers (h : w.Cohering lost start) (hregisters : w.Registers w') (hfiled : w'.Filed)
    (hvalues : w'.All (·.Every fun f ↦ lost f.context.home ∨ w.Coherent f.context.home)) :
    w'.Cohering lost start where
  filed := hfiled
  start_le := Nat.le_trans h.start_le hregisters.size_le
  values := hvalues.mono fun _ hv ↦ hv.mono fun _ hf ↦ hregisters.lost_or_coherent hf

/-- A change that leaves the registry alone. -/
theorem of_registry (h : w.Cohering lost start) (hextends : w.Extends w')
    (hregistry : w'.registry = w.registry)
    (hvalues : w'.All (·.Every fun f ↦ lost f.context.home ∨ w.Coherent f.context.home)) :
    w'.Cohering lost start := by
  refine h.of_registers (.of_registry hextends hregistry) (h.filed.of_extends hextends ?_) hvalues
  intro path id hpath
  rwa [registered?, hregistry] at hpath

theorem stranding (h : w.Cohering lost start) : w.Stranding lost start where
  filed := h.filed
  values := h.values.mono fun _ hv ↦ hv.mono fun _ hf ↦ Or.inl hf

theorem insert (h : w.Cohering lost start)
    (hv : v.Every fun f ↦ lost f.context.home ∨ w.Coherent f.context.home) :
    (w.modifyBindings c fun b ↦ b.insert n v).Cohering lost start :=
  h.of_registry Extends.insert (registry_modify ..) (h.values.insert hv)

theorem replace {scope : Context} (h : w.Cohering lost start)
    (hv : v.Every fun f ↦ lost f.context.home ∨ w.Coherent f.context.home)
    (hscope : w.findScope? c n = some scope) :
    (w.modifyBindings scope fun b ↦ b.replace n v).Cohering lost start :=
  h.of_registry (Extends.replace hscope) (registry_modify ..) (h.values.replace hv)

theorem mark (h : w.Cohering lost start) : (w.markLoaded n).Cohering lost start :=
  h.of_registry (Extends.of_eq (namespaces_markLoaded ..) (registry_markLoaded ..))
    (registry_markLoaded ..) h.values.mark

/-- **Taking a load back strands only functions of namespaces that the load made.** One that was
registered before the load is so still; any other was made in the course of it. -/
theorem stranding_rollback (h : w₁.Cohering lost start) (hfailed : w₂.Stranding lost start)
    (hlater : w₁.Registers w₂) :
    (w₂.rollback w₁.paths w₁.loaded n).Stranding lost start := by
  have hregistry := hlater.toExtends.registry_rollback w₁.loaded n
  have hold : ∀ path id, (w₂.rollback w₁.paths w₁.loaded n).registered? path = some id →
      w₂.registered? path = some id := by
    intro path id hpath
    rw [registered?, hregistry] at hpath
    exact hlater.registered hpath
  refine ⟨fun path id hpath ↦ hfailed.filed path id (hold path id hpath), ?_⟩
  refine (hfailed.values.rollback w₁.paths w₁.loaded).mono fun _ hv ↦ hv.mono fun f hf ↦ ?_
  rcases hf with (hlost | ⟨hlt, hregistered⟩) | hnew
  · exact Or.inl (Or.inl hlost)
  · rcases hlater.fresh hregistered with hbefore | hmade
    · refine Or.inl (Or.inr ⟨hlt, ?_⟩)
      rw [registered?, hregistry]
      exact hbefore
    · exact Or.inr ⟨Nat.le_trans h.start_le hmade, hlt⟩
  · exact Or.inr hnew

end Cohering

end World

namespace Discipline

open World

/-- **Functions are made in coherent namespaces**, those lost before the request apart. -/
def cohering (setting : Setting) (lost : NamespaceId → Prop) (start : Nat) :
    Discipline setting where
  world := Cohering lost start
  failed := Stranding lost start
  later := Registers
  value w v := v.Every fun f ↦ lost f.context.home ∨ w.Coherent f.context.home
  context w c := lost c.home ∨ w.Coherent c.home
  outer w c := lost c.home ∨ w.Coherent c.home
  later_refl := Registers.refl
  later_trans := Registers.trans
  value_later hlater hv := hv.mono fun _ hf ↦ hlater.lost_or_coherent hf
  context_later hlater hc := hlater.lost_or_coherent hc
  outer_later hlater hc := hlater.lost_or_coherent hc
  outer_of_context hc := hc
  failed_of_world hworld := hworld.stranding
  value_nothing _ := Value.every_nothing
  value_number _ x := Value.every_number x
  value_lookup hworld _ hlookup := All.lookup hworld.values hlookup
  value_function _ hc _ _ _ := Value.every_function.2 hc
  value_signal hv hx := Value.every_signal.1 hv _ hx
  outer_function _ hv := Value.every_function.1 hv
  context_registered hworld hpath := Or.inr (hworld.filed.coherent hpath)
  world_scope hworld _ :=
    hworld.of_registry (Extends.of_eq rfl rfl) rfl hworld.values.scope
  later_scope _ _ := Registers.of_registry (Extends.of_eq rfl rfl) rfl
  context_scope _ hc := hc
  world_stamp hworld := hworld.of_registry (Extends.of_eq rfl rfl) rfl hworld.values.stamp
  later_stamp _ := Registers.of_registry (Extends.of_eq rfl rfl) rfl
  world_namespace path hworld :=
    hworld.of_registers (Registers.createNamespace _ path) (hworld.filed.createNamespace path)
      (hworld.values.createNamespace path)
  later_namespace path _ := Registers.createNamespace _ path
  context_namespace {w} path hworld :=
    Or.inr ((hworld.filed.createNamespace path).coherent (w.registered_createNamespace path))
  world_insert hworld _ _ hv _ := hworld.insert hv
  later_insert _ _ _ _ _ := Registers.insert
  world_replace hworld _ hv hscope := hworld.replace hv hscope
  later_replace _ _ _ hscope := Registers.replace hscope
  world_mark hworld _ := hworld.mark
  later_mark _ _ := Registers.mark
  failed_rollback hworld hfailed hlater _ := hworld.stranding_rollback hfailed hlater
  later_rollback _ _ hlater _ := hlater.rollback _ _

/-- Loads that are asked for keep to the discipline too: marking a module changes no registry, and
a load that is taken back leaves what a failure leaves. -/
theorem closed_cohering (setting : Setting) (lost : NamespaceId → Prop) (start : Nat) :
    (cohering setting lost start).Closed where
  form_checked _ _ := trivial
  world_mark _ hworld := Cohering.mark hworld
  later_mark _ _ := Registers.mark
  failed_rollback _ hworld hfailed hlater := Cohering.stranding_rollback hworld hfailed hlater
  later_rollback _ _ _ hlater := Registers.rollback hlater _ _

end Discipline

/-! ### Whole runs -/

namespace Interpreter

/-- On the way to the world, a request **failed** that had made the namespace, and left it
unregistered. -/
def Discards (i : Interpreter) (w : World) (id : NamespaceId) : Prop :=
  ∃ u limits host request f u', i.Reachable u ∧
    i.perform (i.within limits host) request u = .error f u' ∧ i.Leads u' w ∧
    u.namespaces.size ≤ id.index ∧ id.index < u'.namespaces.size ∧ ¬ u'.Coherent id

/-- What holds between requests. -/
structure Ordered (i : Interpreter) (w : World) : Prop where
  /-- The world is one that the interpreter gets into. -/
  reachable : i.Reachable w
  /-- Functions are at home in coherent namespaces, the discarded ones apart. -/
  cohering : w.Cohering (i.Discards w) 0
  /-- The home namespace is registered. -/
  home : w.Coherent i.home

variable {i : Interpreter} {w w' u : World}

theorem Reachable.after (h : i.Reachable w) (limits : Limits) (host : Host) (request : Request) :
    i.Reachable (i.after (i.within limits host) request w) := by
  obtain ⟨host', roots, name, stamps, hi, hleads⟩ := h
  exact ⟨host', roots, name, stamps, hi, hleads.step limits host request⟩

/-- What is discarded stays so. -/
theorem Discards.after {id : NamespaceId} (h : i.Discards w id) (limits : Limits) (host : Host)
    (request : Request) : i.Discards (i.after (i.within limits host) request w) id := by
  obtain ⟨u, limits', host', request', f, u', hu, hperform, hleads, hrest⟩ := h
  exact ⟨u, limits', host', request', f, u', hu, hperform, hleads.step limits host request, hrest⟩

/-- **One request.** A function that it leaves in a namespace which is not coherent was at home in
a discarded one before, or the request failed and discarded it. -/
theorem Ordered.after (h : i.Ordered w) (limits : Limits) (host : Host) (request : Request) :
    i.Ordered (i.after (i.within limits host) request w) ∧
      w.Registers (i.after (i.within limits host) request w) := by
  have hworld : w.Cohering (i.Discards w) w.namespaces.size :=
    ⟨h.cohering.filed, Nat.le_refl _, h.cohering.values⟩
  have hreachable := h.reachable.after limits host request
  have hdiscards := fun id (hid : i.Discards w id) ↦ hid.after limits host request
  have hkeeps := (Discipline.closed_cohering (i.within limits host) (i.Discards w)
    w.namespaces.size).perform i request hworld (Or.inr h.home)
  unfold Interpreter.after at hreachable hdiscards ⊢
  rcases hperform : i.perform (i.within limits host) request w with ⟨a, u⟩ | ⟨f, u⟩
  -- Answered: what is kept during the request is what holds after it.
  · rw [hperform] at hkeeps hreachable hdiscards
    obtain ⟨hu, hlater⟩ := hkeeps
    refine ⟨⟨hreachable, ⟨hu.filed, Nat.zero_le _, ?_⟩, hlater.coherent h.home⟩, hlater⟩
    exact hu.values.mono fun _ hv ↦ hv.mono fun _ hf ↦ hf.imp_left (hdiscards _)
  -- Failed: a function may be at home in a namespace that the request made. If that one is not
  -- registered now, this is the request that discarded it.
  · rw [hperform] at hkeeps hreachable hdiscards
    obtain ⟨hu, hlater, -⟩ := hkeeps
    refine ⟨⟨hreachable, ⟨hu.filed, Nat.zero_le _, ?_⟩, hlater.coherent h.home⟩, hlater⟩
    refine hu.values.mono fun _ hv ↦ hv.mono fun g hg ↦ ?_
    rcases hg with hold | ⟨hmade, hlt⟩
    · exact hold.imp_left (hdiscards _)
    · by_cases hcoherent : u.Coherent g.context.home
      · exact Or.inr hcoherent
      · exact Or.inl ⟨w, limits, host, request, f, u, h.reachable, hperform, .refl u, hmade, hlt,
          hcoherent⟩

/-- A fresh interpreter has its home namespace only. -/
theorem filed_create (host : Host) (roots : Option (List String)) (name : Option String)
    (stamps : Nat) : (create host roots name stamps).2.Filed := by
  have hempty : (World.empty stamps).Filed := by
    intro path id hpath
    cases hpath
  refine keeps_create hempty (fun w path hw ↦ hw.createNamespace path) (fun w id entry hw ↦ ?_)
    host roots name
  have hstamp : w.addStamp.2.Filed :=
    hw.of_extends (World.Extends.of_eq rfl rfl) fun _ _ hpath ↦ hpath
  unfold addNative
  refine hstamp.of_extends (World.Extends.insert (c := .top id)) fun path id hpath ↦ ?_
  rwa [World.registered?, World.registry_modify] at hpath

/-- **Whole runs.** The induction is on the requests; a request that fails adds the namespaces that
it leaves unregistered to the discarded ones. -/
theorem ordered_of_reachable (h : i.Reachable w) : i.Ordered w := by
  obtain ⟨host, roots, name, stamps, hi, hleads⟩ := h
  have hfiled := filed_create host roots name stamps
  obtain ⟨path, hpath⟩ := registered_create host roots name stamps
  rw [← hi] at hpath
  have hfresh : i.Ordered (create host roots name stamps).2 :=
    ⟨⟨host, roots, name, stamps, hi, .refl _⟩,
      ⟨hfiled, Nat.zero_le _, all_create (fun _ _ ↦ Value.every_native _ _) ..⟩,
      hfiled.coherent hpath⟩
  exact hleads.keeps (fun limits host request u hu ↦ (hu.after limits host request).1) hfresh

theorem registers_of_leads (h : i.Leads w w') (hw : i.Ordered w) : w.Registers w' := by
  have hkeep : ∀ limits host request u, (i.Ordered u ∧ w.Registers u) →
      i.Ordered (i.after (i.within limits host) request u) ∧
        w.Registers (i.after (i.within limits host) request u) := by
    rintro limits host request u ⟨hu, hregisters⟩
    obtain ⟨hnext, hlater⟩ := hu.after limits host request
    exact ⟨hnext, hregisters.trans hlater⟩
  exact (h.keeps hkeep ⟨hw, .refl w⟩).2

/-- A namespace that was discarded is not registered under its path any more. -/
theorem not_coherent_of_discards {id : NamespaceId} (h : i.Discards w id) : ¬ w.Coherent id := by
  obtain ⟨u, limits, host, request, f, u', hu, hperform, hleads, -, hlt, hid⟩ := h
  have hafter := ((ordered_of_reachable hu).after limits host request).1
  unfold Interpreter.after at hafter
  rw [hperform] at hafter
  exact (registers_of_leads hleads hafter).not_coherent hlt hid

/-- **Registry coherence.** Between requests, for every function that is bound anywhere, the
namespace that ends its chain is the one that the registry holds under its path, exactly if no
request that failed had made that namespace and discarded it. -/
theorem registered_iff_not_discarded (h : i.Reachable w) :
    w.All (·.Every fun f ↦
      w.registered? (w.namespaceAt f.context.home).path = some f.context.home ↔
        ¬ i.Discards w f.context.home) := by
  have hordered := ordered_of_reachable h
  refine hordered.cohering.values.mono fun v hv ↦ hv.mono fun f hf ↦ ⟨?_, ?_⟩
  · intro hregistered hdiscards
    exact not_coherent_of_discards hdiscards (hordered.cohering.filed.coherent hregistered)
  · intro hkept
    rcases hf with hdiscards | hcoherent
    · exact absurd hdiscards hkept
    · exact hcoherent.2

/-- A load that fails after it had a function of its own used elsewhere: the function stays bound in
the home namespace, and where it is at home is not registered. -/
theorem registered_fails_after_load :
    ∃ (i : Interpreter) (w : World) (f : Function), i.Reachable w ∧
      w.registered? "user" = some i.home ∧
      (w.namespaceAt i.home).bindings.get? "f" = some (.function f) ∧
      w.registered? (w.namespaceAt f.context.home).path ≠ some f.context.home := by
  refine ⟨(create Host.empty none none 0).1,
    (create Host.empty none none 0).1.after
      ((create Host.empty none none 0).1.within .standard Host.empty)
      (.loadText "m" "(const i 1) (defn f () current.i) (namespace user (use m.f)) (missing)")
      (create Host.empty none none 0).2,
    ⟨.named, "f", [], .symbol "current.i", .top ⟨6⟩, 105⟩,
    ⟨Host.empty, none, none, 0, rfl, .step _ _ _ (.refl _)⟩, ?_, ?_, ?_⟩
  · decide +kernel
  · decide +kernel
  · decide +kernel

/-- A load that is tried again after it failed: the function of the module is at home in the
namespace that the second load made, which is not the one that the first discarded. -/
theorem registered_iff_not_discarded_retried :
    ∃ (i : Interpreter) (w : World) (f : Function), i.Reachable w ∧
      (w.namespaceAt ⟨7⟩).bindings.get? "f" = some (.function f) ∧
      w.registered? (w.namespaceAt f.context.home).path = some f.context.home ∧
      ¬ i.Discards w f.context.home := by
  obtain ⟨i, w, f, hreachable, hget, hregistered⟩ :
      ∃ (i : Interpreter) (w : World) (f : Function), i.Reachable w ∧
        (w.namespaceAt ⟨7⟩).bindings.get? "f" = some (.function f) ∧
        w.registered? (w.namespaceAt f.context.home).path = some f.context.home := by
    refine ⟨(create Host.empty none none 0).1,
      (create Host.empty none none 0).1.after
        ((create Host.empty none none 0).1.within .standard Host.empty)
        (.loadText "m" "(defn f () 1)")
        ((create Host.empty none none 0).1.after
          ((create Host.empty none none 0).1.within .standard Host.empty)
          (.loadText "m" "(defn f () 1) (missing)") (create Host.empty none none 0).2),
      ⟨.named, "f", [], .number 1, .top ⟨7⟩, 106⟩,
      ⟨Host.empty, none, none, 0, rfl, .step _ _ _ (.step _ _ _ (.refl _))⟩, ?_, ?_⟩
    · decide +kernel
    · decide +kernel
  have hf := ((registered_iff_not_discarded hreachable).namespaces ⟨7⟩).of_get? hget
  exact ⟨i, w, f, hreachable, hget, hregistered, (Value.every_function.1 hf).1 hregistered⟩

end Interpreter

end DottedLisp
