import DottedLisp.Proofs.CheckDepth
import DottedLisp.Proofs.Growth
import DottedLisp.Proofs.MappedWorlds
import DottedLisp.Proofs.ProperWorlds
import DottedLisp.Proofs.TailCalls.Frame
import DottedLisp.Proofs.TailCalls.Transformation

/-!
# Exchanging a function for the rewritten one

The world in which a function was defined with its rewritten body differs from the one with the
original only in that function object. Look-ups, changes and loads keep them apart by **nothing
else**, so the exchange of the two objects is a simulation (`exchanging`), in which calls of the
function itself remain to be compared.
-/

namespace DottedLisp

/-! ### The rewritten function -/

namespace Function

/-- The function with the rewritten body. -/
def recurring (f : Function) : Function :=
  { f with kind := .recursive, body := f.body.recurring f.name }

/-- The functions whose calls of themselves can be recognized: defined in a namespace under a plain
name that is no keyword, and that neither the parameters nor a `let` in the body bind anew. -/
structure Rewritable (f : Function) (home : NamespaceId) : Prop where
  /-- It is an ordinary function with a name. -/
  kind_eq : f.kind = .named
  /-- It was defined at the top level of the namespace. -/
  context_eq : f.context = .top home
  /-- Its name is no keyword. -/
  special_eq : (Form.symbol f.name).special? = none
  /-- Its name is no full name. -/
  isFull_eq : Name.isFull f.name = false
  /-- Its name is no parameter. -/
  not_mem : f.name ∉ f.parameters
  /-- Its name is bound by no `let` in the body. -/
  lets_eq : f.body.lets f.name = false

/-- The function objects of the second run: the rewritten function in place of the original. -/
def exchange (f g : Function) : Function :=
  if g = f then f.recurring else g

theorem exchange_self (f : Function) : f.exchange f = f.recurring := if_pos rfl

theorem exchange_of_ne {f g : Function} (h : g ≠ f) : f.exchange g = g := if_neg h

/-- The exchanged function takes over the identity of the original. -/
theorem stamp_exchange (f g : Function) : (f.exchange g).stamp = g.stamp := by
  unfold exchange
  split
  · rename_i h
    rw [h]
    rfl
  · rfl

end Function

/-- The world of the second run. -/
def World.exchange (f : Function) (w : World) : World :=
  w.map (Value.translate f.exchange)

/-! ### The simulation -/

/-- The worlds in which the function can be called under its name. -/
structure World.Holds (f : Function) (home : NamespaceId) (w : World) : Prop where
  /-- What is bound is no signal and was made before. -/
  proper : w.Proper
  /-- The namespace binds the function under its name. -/
  bound : (w.namespaceAt home).bindings.get? f.name = some (.function f)

namespace World.Holds

variable {f : Function} {home : NamespaceId} {w u : World}

/-- No binding is given up, so the function stays bound under its name. -/
theorem of_extends (h : w.Holds f home) (hproper : u.Proper) (hextends : w.Extends u) :
    u.Holds f home :=
  ⟨hproper, hextends.get h.bound⟩

/-- The function was made before. -/
theorem stamp_lt (h : w.Holds f home) : f.stamp < w.stamps :=
  World.All.lookup (c := .top home) h.proper h.bound

/-- A function object that is made now is another one. -/
theorem exchange_new (h : w.Holds f home) (kind : FunctionKind) (n : String)
    (parameters : List String) (body : Form) (c : Context) :
    f.exchange ⟨kind, n, parameters, body, c, w.stamps⟩ =
      ⟨kind, n, parameters, body, c, w.stamps⟩ := by
  refine Function.exchange_of_ne fun heq ↦ ?_
  have hstamp := h.stamp_lt
  rw [← heq] at hstamp
  exact Nat.lt_irrefl _ hstamp

end World.Holds

/-- What the second run may differ in from outside: its limits are not smaller. -/
structure Setting.Wider (setting setting' : Setting) : Prop where
  /-- The files are the same. -/
  findModule_eq : setting'.findModule = setting.findModule
  /-- The check may go as deep. -/
  checkDepth_le : setting.limits.checkDepth ≤ setting'.limits.checkDepth
  /-- Loops may take as many steps. -/
  steps_le : setting.limits.steps ≤ setting'.limits.steps

/-- **The runs with the function and with the rewritten one.** -/
def exchanging (f : Function) (home : NamespaceId) {setting setting' : Setting}
    (hwider : setting.Wider setting') : Simulation setting setting' where
  world := World.Holds f home
  later := World.MakesMore
  value w v := v.Made w.stamps
  later_refl := World.MakesMore.refl
  later_trans := World.MakesMore.trans
  value_later := World.MakesMore.made
  value_lookup hworld _ hlookup := World.All.lookup hworld.proper hlookup
  value_function {w} := fun _ _ _ _ _ ↦ Nat.lt_succ_self w.stamps
  value_signal := World.Proper.made_of_signal
  world_scope hworld _ := hworld.of_extends hworld.proper.scope (World.Extends.of_eq rfl rfl)
  later_scope _ _ := World.MakesMore.of_eq rfl
  world_stamp hworld := hworld.of_extends hworld.proper.stamp (World.Extends.of_eq rfl rfl)
  later_stamp _ := World.MakesMore.addStamp _
  world_namespace path hworld :=
    hworld.of_extends (hworld.proper.createNamespace path) (World.Extends.createNamespace path)
  later_namespace path _ := World.MakesMore.of_eq (World.stamps_createNamespace _ path)
  world_insert hworld _ _ hv _ := hworld.of_extends (hworld.proper.insert hv) World.Extends.insert
  later_insert _ _ _ _ _ := World.MakesMore.of_eq (World.stamps_modify ..)
  world_replace hworld _ hv hscope :=
    hworld.of_extends (hworld.proper.replace hv) (World.Extends.replace hscope)
  later_replace _ _ _ _ := World.MakesMore.of_eq (World.stamps_modify ..)
  world_mark hworld _ := hworld.of_extends hworld.proper.mark
    (World.Extends.of_eq (World.namespaces_markLoaded ..) (World.registry_markLoaded ..))
  later_mark _ _ := World.MakesMore.of_eq (World.stamps_markLoaded ..)
  failed_rollback _ hworld _ _ := ⟨hworld.proper.rollback _ _, hworld.bound⟩
  later_rollback _ _ hlater _ := hlater
  related w w' := w.Holds f home ∧ w' = w.exchange f
  function := f.exchange
  world_of_related h := h.1
  stamp_function g g' := by rw [f.stamp_exchange, f.stamp_exchange]
  findModule_eq n := by rw [hwider.findModule_eq]
  steps_le := hwider.steps_le
  read_ok := Evaluation.readModule_ok_of_le hwider.checkDepth_le
  read_error h := (Evaluation.readModule_error_of_le hwider.checkDepth_le h).imp_left fun hf ↦ by
    rw [hf]
    rfl
  path_eq c h := by rw [h.2, World.exchange, World.namespaceAt_map, id_eq]
  registered_eq _ h := by
    rw [h.2, Option.map_id_fun]
    rfl
  loaded_eq _ h := Or.inl (by rw [h.2]; rfl)
  lookup_eq h _ _ := by rw [h.2, World.exchange, World.lookup_map, id_eq]
  lookup_top_eq h _ := by rw [h.2, World.exchange, World.lookup_map, id_eq]
  binds_eq h _ _ := by
    rw [h.2, World.exchange, World.bindingsOf_map, Bindings.binds_map, id_eq]
  findScope_eq h _ _ _ := by
    rw [h.2, World.exchange, World.findScope_map, Option.map_id_fun]
    rfl
  scope_eq h := by rw [h.2, World.exchange, World.addScope_map, id_eq, id_eq]
  related_scope h _ :=
    ⟨h.1.of_extends h.1.proper.scope (World.Extends.of_eq rfl rfl), by
      rw [h.2, World.exchange, World.addScope_map, World.exchange, id_eq]⟩
  function_eq h := by rw [h.1.exchange_new, h.2]; rfl
  related_stamp h :=
    ⟨h.1.of_extends h.1.proper.stamp (World.Extends.of_eq rfl rfl), by rw [h.2]; rfl⟩
  namespace_eq path h := by rw [h.2, World.exchange, World.createNamespace_map, id_eq]
  related_namespace path h :=
    ⟨h.1.of_extends (h.1.proper.createNamespace path) (World.Extends.createNamespace path), by
      rw [h.2, World.exchange, World.createNamespace_map, World.exchange]⟩
  related_insert h _ _ hv _ :=
    ⟨h.1.of_extends (h.1.proper.insert hv) World.Extends.insert, by
      rw [h.2, World.exchange, World.exchange]
      exact (World.map_modify _ _ _ fun b ↦ b.map_insert _ _ _).symm⟩
  related_replace h _ hv hscope :=
    ⟨h.1.of_extends (h.1.proper.replace hv) (World.Extends.replace hscope), by
      rw [h.2, World.exchange, World.exchange]
      exact (World.map_modify _ _ _ fun b ↦ b.map_replace _ _ _).symm⟩
  related_mark h _ :=
    ⟨h.1.of_extends h.1.proper.mark
      (World.Extends.of_eq (World.namespaces_markLoaded ..) (World.registry_markLoaded ..)), by
      rw [h.2, World.exchange, World.map_markLoaded, World.exchange]⟩
  parted_rollback h₁ h₂ _ _ :=
    ⟨⟨h₂.1.proper.rollback _ _, h₂.1.bound⟩, by rw [h₁.2, h₂.2]; exact World.map_rollback ..⟩

end DottedLisp
