import DottedLisp.Proofs.Simulation.Basic

/-!
# The depth of the check

A limit on the depth of the placement check **cuts, and never changes, its result**: whatever the
check says within a limit, other than that the limit was exceeded, it says within every larger one.
The same then holds of reading a module.
-/

namespace DottedLisp

namespace Placement

/-- The second result is the first one, unless that ran out of depth. -/
def Settles (r r' : Except Failure Unit) : Prop :=
  r = .error .depthExceeded ∨ r' = r

/-- Two checks one after the other settle if each does. -/
theorem Settles.bind {a a' b b' : Except Failure Unit} (ha : Settles a a') (hb : Settles b b') :
    Settles (a >>= fun _ ↦ b) (a' >>= fun _ ↦ b') := by
  rcases ha with rfl | rfl
  · exact Or.inl rfl
  · rcases a' with f | ⟨⟩
    · exact Or.inr rfl
    · exact hb

/-- Checking several forms settles if each check does. By induction on the forms. -/
theorem Settles.forM {test test' : Form → Except Failure Unit}
    (h : ∀ form, Settles (test form) (test' form)) (forms : List Form) :
    Settles (forms.forM test) (forms.forM test') := by
  induction forms with
  | nil => exact Or.inr rfl
  | cons form rest ih => exact (h form).bind ih

/-- **More depth changes nothing**, in both positions at once. -/
theorem settles_check (depth : Nat) :
    ∀ {depth' : Nat}, depth ≤ depth' →
      (∀ form, Settles (checkValue depth form) (checkValue depth' form)) ∧
        ∀ owner form, Settles (checkTail depth owner form) (checkTail depth' owner form) := by
  induction depth with
  | zero => exact fun _ ↦ ⟨fun _ ↦ Or.inl rfl, fun _ _ ↦ Or.inl rfl⟩
  | succ depth ih =>
    intro depth' hle
    obtain ⟨depth', rfl⟩ : ∃ n, depth' = n + 1 := ⟨depth' - 1, by omega⟩
    obtain ⟨hvalue, htail⟩ := ih (Nat.le_of_succ_le_succ hle)
    refine ⟨?_, ?_⟩
    · intro form
      match form with
      | .number _ | .symbol _ | .list [] => exact Or.inr rfl
      | .list (head :: operands) =>
        -- both checks take the same branch, as it depends on the form alone
        rw [checkValue.eq_def (depth + 1), checkValue.eq_def (depth' + 1)]
        dsimp only
        split
        · exact Or.inr rfl
        · exact Or.inr rfl
        · exact (Settles.forM hvalue _).bind (htail _ _)
        · exact htail _ _
        · exact htail _ _
        · exact hvalue _
        · exact hvalue _
        · exact Settles.forM hvalue _
    · intro owner form
      match form with
      | .number _ | .symbol _ | .list [] => exact Or.inr rfl
      | .list (head :: operands) =>
        rw [checkTail.eq_def (depth + 1), checkTail.eq_def (depth' + 1)]
        dsimp only
        split
        · exact Settles.forM hvalue _
        · exact Settles.forM hvalue _
        · exact (hvalue _).bind ((htail _ _).bind (htail _ _))
        · exact hvalue _
        · exact Or.inr rfl
        · exact (Settles.forM hvalue _).bind (htail _ _)
        · exact Or.inr rfl

end Placement

namespace Evaluation

variable {limits limits' : Limits} {text : String}

theorem settles_checks (hle : limits.checkDepth ≤ limits'.checkDepth) (forms : List Form) :
    Placement.Settles (forms.forM (Placement.check limits.checkDepth))
      (forms.forM (Placement.check limits'.checkDepth)) :=
  Placement.Settles.forM (Placement.settles_check _ hle).1 forms

/-- A text that passes goes on passing when the limit is raised. -/
theorem readModule_ok_of_le (hle : limits.checkDepth ≤ limits'.checkDepth) {forms : List Form}
    (h : readModule limits text = .ok forms) : readModule limits' text = .ok forms := by
  unfold readModule at h ⊢
  rcases hread : (TokenStream.ofText text).readAll with ⟨all, - | fault, rest⟩
  · rw [hread] at h
    have hbind : (all.forM (Placement.check limits.checkDepth) >>= fun _ ↦ pure all) = .ok forms :=
      h
    show (all.forM (Placement.check limits'.checkDepth) >>= fun _ ↦ pure all) = .ok forms
    rcases settles_checks hle all with hcut | hsame
    · rw [hcut] at hbind
      cases hbind
    · rw [hsame]
      exact hbind
  · rw [hread] at h
    cases h

/-- A text that is refused for another reason than its depth is refused for the same reason when the
limit is raised. -/
theorem readModule_error_of_le (hle : limits.checkDepth ≤ limits'.checkDepth) {f : Failure}
    (h : readModule limits text = .error f) :
    f = .depthExceeded ∨ readModule limits' text = .error f := by
  -- The text falls into the same forms under both limits; only checking them can differ.
  unfold readModule at h ⊢
  rcases hread : (TokenStream.ofText text).readAll with ⟨all, - | fault, rest⟩
  · rw [hread] at h
    have hbind : (all.forM (Placement.check limits.checkDepth) >>= fun _ ↦ pure all) = .error f := h
    rcases settles_checks hle all with hcut | hsame
    · rw [hcut] at hbind
      cases hbind
      exact Or.inl rfl
    · refine Or.inr ?_
      show (all.forM (Placement.check limits'.checkDepth) >>= fun _ ↦ pure all) = .error f
      rw [hsame]
      exact hbind
  · rw [hread] at h
    exact Or.inr h

end Evaluation

end DottedLisp
