import DottedLisp.Proofs.Session

/-!
# Proper worlds

In the worlds that interpreters get into, two things hold of everything that is bound. It is **no
loop signal**: signals end where their loop takes them. And a function object was made **before**:
its stamp is smaller than the next one to be given. The second part says that a new function object
is different from every old one.
-/

namespace DottedLisp

/-- A value that can be bound when `stamps` function objects were made. -/
def Value.Made (stamps : Nat) : Value → Prop
  | .signal .. => False
  | .function f => f.stamp < stamps
  | _ => True

/-- What was made stays made as more functions are. -/
theorem Value.Made.mono {stamps stamps' : Nat} {v : Value} (h : v.Made stamps)
    (hle : stamps ≤ stamps') : v.Made stamps' := by
  cases v with
  | signal => exact h
  | function f => exact Nat.lt_of_lt_of_le h hle
  | _ => exact trivial

/-- A signal is not bound. -/
theorem Value.Made.isSignal {stamps : Nat} {v : Value} (h : v.Made stamps) :
    v.isSignal = false := by
  cases v with
  | signal => exact h.elim
  | _ => rfl

namespace World

/-- Function objects are made, and none is forgotten. -/
def MakesMore (w w' : World) : Prop :=
  w.stamps ≤ w'.stamps

namespace MakesMore

variable {w w' w₁ w₂ w₃ : World}

theorem of_eq (h : w'.stamps = w.stamps) : w.MakesMore w' := Nat.le_of_eq h.symm

/-- A world makes no fewer functions than itself. -/
theorem refl (w : World) : w.MakesMore w := of_eq rfl

theorem trans (h₁ : w₁.MakesMore w₂) (h₂ : w₂.MakesMore w₃) : w₁.MakesMore w₃ :=
  Nat.le_trans h₁ h₂

/-- Giving out a stamp makes one more function. -/
theorem addStamp (w : World) : w.MakesMore w.addStamp.2 := Nat.le_succ w.stamps

/-- What was made before stays made. -/
theorem made {v : Value} (h : w.MakesMore w') (hv : v.Made w.stamps) : v.Made w'.stamps :=
  hv.mono h

end MakesMore

/-- Everything bound is no signal and was made before. -/
def Proper (w : World) : Prop :=
  w.All (Value.Made w.stamps)

namespace Proper

variable {w : World} {c : Context} {n : String} {v : Value}

/-- A new scope binds nothing. -/
theorem scope (h : w.Proper) : (w.addScope c).2.Proper := All.scope h

/-- What is bound was made before, also where one more function is made. -/
theorem stamp (h : w.Proper) : w.addStamp.2.Proper :=
  (All.mono h fun _ hv ↦ (MakesMore.addStamp w).made hv).stamp

/-- A new namespace binds nothing and makes no function. -/
theorem createNamespace (h : w.Proper) (path : String) : (w.createNamespace path).2.Proper := by
  unfold Proper
  rw [stamps_createNamespace]
  exact All.createNamespace h path

/-- A value may be bound if it was made. -/
theorem insert (h : w.Proper) (hv : v.Made w.stamps) :
    (w.modifyBindings c fun b ↦ b.insert n v).Proper := by
  unfold Proper
  rw [stamps_modify]
  exact All.insert h hv

theorem replace (h : w.Proper) (hv : v.Made w.stamps) :
    (w.modifyBindings c fun b ↦ b.replace n v).Proper := by
  unfold Proper
  rw [stamps_modify]
  exact All.replace h hv

theorem mark (h : w.Proper) : (w.markLoaded n).Proper := by
  unfold Proper
  rw [stamps_markLoaded]
  exact All.mark h

/-- No signal is bound, so nothing is said of the values that it carries. -/
theorem made_of_signal {s : Signal} {values : List Value}
    (h : (Value.signal s values).Made w.stamps) (_ : v ∈ values) : v.Made w.stamps :=
  h.elim

/-- A rollback does not take back functions. -/
theorem rollback (h : w.Proper) (paths loaded : List String) :
    (w.rollback paths loaded n).Proper := All.rollback h paths loaded

end Proper

end World

namespace Discipline

/-- **Evaluations keep proper worlds proper.** -/
def making (setting : Setting) : Discipline setting where
  world := World.Proper
  later := World.MakesMore
  value w v := v.Made w.stamps
  later_refl := World.MakesMore.refl
  later_trans := World.MakesMore.trans
  value_later := World.MakesMore.made
  value_lookup hworld _ hlookup := World.All.lookup hworld hlookup
  value_function {w} := fun _ _ _ _ _ ↦ Nat.lt_succ_self w.stamps
  value_signal := World.Proper.made_of_signal
  world_scope hworld _ := hworld.scope
  later_scope _ _ := World.MakesMore.of_eq rfl
  world_stamp hworld := hworld.stamp
  later_stamp _ := World.MakesMore.addStamp _
  world_namespace path hworld := hworld.createNamespace path
  later_namespace path _ := World.MakesMore.of_eq (World.stamps_createNamespace _ path)
  world_insert hworld _ _ hv _ := hworld.insert hv
  later_insert _ _ _ _ _ := World.MakesMore.of_eq (World.stamps_modify ..)
  world_replace hworld _ hv _ := hworld.replace hv
  later_replace _ _ _ _ := World.MakesMore.of_eq (World.stamps_modify ..)
  world_mark hworld _ := hworld.mark
  later_mark _ _ := World.MakesMore.of_eq (World.stamps_markLoaded ..)
  failed_rollback _ hworld _ _ := hworld.rollback _ _
  later_rollback _ _ hlater _ := hlater

/-- Marking a module and rolling it back make no functions and take none back. -/
theorem closed_making (setting : Setting) : (making setting).Closed where
  form_checked _ _ := trivial
  world_mark _ hworld := World.Proper.mark hworld
  later_mark n _ := World.MakesMore.of_eq (World.stamps_markLoaded _ n)
  failed_rollback _ _ hworld _ := World.Proper.rollback hworld _ _
  later_rollback _ _ _ hlater := hlater

end Discipline

/-- **Reachable worlds are proper.** -/
theorem Interpreter.proper_of_reachable {i : Interpreter} {w : World} (h : i.Reachable w) :
    w.Proper := by
  obtain ⟨host, roots, name, stamps, -, hleads⟩ := h
  refine hleads.keeps (fun limits host request u hu ↦ ?_)
    (all_create (fun _ _ ↦ trivial) host roots name stamps)
  exact ((Discipline.closed_making (i.within limits host)).after i request hu trivial).1

end DottedLisp
