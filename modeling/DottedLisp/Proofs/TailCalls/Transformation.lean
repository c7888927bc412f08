import DottedLisp.Proofs.CheckDepth
import DottedLisp.Proofs.Session

/-!
# Turning tail calls into loop steps

The body of a function that calls itself can be rewritten into the body of a recursive one. The
rewriting goes down through tail positions only: a call of the function itself becomes `recur`, and
every other form `e` is left by `(break e)`. What stands in other positions, such as a call of the
function among the operands of another call, stays as it is.

`Form.rewrites_recurring` says everything that the rewriting can do, and later proofs use it alone.
A form that passes the placement check as a value is rewritten into one that passes it as a loop
body (`Form.checkTail_recurring`).
-/

namespace DottedLisp

namespace Form

/-- Leave the loop with the value of a form. -/
def leaving (form : Form) : Form :=
  .list [.symbol SpecialForm.leave.keyword, form]

mutual

/-- Rewrite a form in tail position of the body of the function with the given name. -/
def recurring (name : String) : Form → Form
  | .list (head :: operands) =>
    match head.special?, operands with
    | some .conditional, [condition, yes, no] =>
      .list [head, condition, recurring name yes, recurring name no]
    | some .block, first :: rest => .list (head :: recurringLast name (first :: rest))
    | _, operands =>
      if head = .symbol name then .list (.symbol SpecialForm.again.keyword :: operands)
      else leaving (.list (head :: operands))
  | form => leaving form

/-- Rewrite the last one of several forms. -/
def recurringLast (name : String) : List Form → List Form
  | [] => []
  | [last] => [recurring name last]
  | form :: next :: rest => form :: recurringLast name (next :: rest)

end

/-- Only the last of several forms is rewritten. -/
theorem recurringLast_append (name : String) (init : List Form) (last : Form) :
    recurringLast name (init ++ [last]) = init ++ [recurring name last] := by
  induction init with
  | nil => rfl
  | cons form rest ih =>
    cases rest with
    | nil => rfl
    | cons next rest =>
      show form :: recurringLast name (next :: rest ++ [last]) = _
      rw [ih]
      rfl

/-- What a form in tail position is rewritten into. -/
inductive Rewrites (name : String) : Form → Form → Prop
  | conditional {head condition yes no : Form} (h : head.special? = some .conditional) :
    Rewrites name (.list [head, condition, yes, no])
      (.list [head, condition, yes.recurring name, no.recurring name])
  | block {head last : Form} {init : List Form} (h : head.special? = some .block) :
    Rewrites name (.list (head :: (init ++ [last])))
      (.list (head :: (init ++ [last.recurring name])))
  | again {operands : List Form} :
    Rewrites name (.list (.symbol name :: operands))
      (.list (.symbol SpecialForm.again.keyword :: operands))
  | leave (form : Form) : Rewrites name form form.leaving

/-- **All that the rewriting can do.** -/
theorem rewrites_recurring (name : String) (form : Form) :
    form.Rewrites name (form.recurring name) := by
  match form with
  | .number _ | .symbol _ | .list [] => exact .leave _
  | .list (head :: operands) =>
    rw [recurring.eq_def]
    dsimp only
    split
    · rename_i hhead
      exact .conditional hhead
    · rename_i first rest hhead
      have hsplit := List.dropLast_concat_getLast (List.cons_ne_nil first rest)
      rw [← hsplit, recurringLast_append]
      exact .block hhead
    · split
      · rename_i hname
        rw [hname]
        exact .again
      · exact .leave _

/-! ### The rewritten body passes the check -/

open Placement

/-- A form that passes is not cut off by the depth, so it passes one level deeper. -/
theorem checkValue_succ {depth : Nat} {form : Form} (h : checkValue depth form = .ok ()) :
    checkValue (depth + 1) form = .ok () := by
  rcases (settles_check depth (Nat.le_succ depth)).1 form with hcut | hsame
  · rw [hcut] at h
    cases h
  · rw [hsame, h]

/-- Forms that pass at some depth pass together one level deeper. -/
theorem forM_checkValue_succ {depth : Nat} {forms : List Form}
    (h : ∀ form ∈ forms, checkValue depth form = .ok ()) :
    forms.forM (checkValue (depth + 1)) = .ok () := by
  induction forms with
  | nil => rfl
  | cons form rest ih =>
    have hform := checkValue_succ (h form (List.mem_cons_self ..))
    show (checkValue (depth + 1) form >>= fun _ ↦ rest.forM (checkValue (depth + 1))) = .ok ()
    rw [hform]
    exact ih fun x hx ↦ h x (List.mem_cons_of_mem _ hx)

/-- **A form that passes as a value is rewritten into one that passes as a loop body**, with one
level more of the check. -/
theorem checkTail_recurring {name : String} (hname : (Form.symbol name).special? = none)
    (owner : String) (depth : Nat) :
    ∀ {form : Form}, checkValue depth form = .ok () →
      checkTail (depth + 1) owner (form.recurring name) = .ok () := by
  induction depth with
  | zero =>
    intro form h
    cases h
  | succ depth ih =>
    intro form h
    have hrewrites := form.rewrites_recurring name
    generalize form.recurring name = target at hrewrites
    cases hrewrites with
    | conditional hhead =>
      rename_i head condition yes no
      simp only [checkValue, hhead] at h
      have hall := ok_of_forM h
      have hcondition := checkValue_succ (hall condition (by simp))
      simp only [checkTail, hhead]
      rw [hcondition, ih (hall yes (by simp)), ih (hall no (by simp))]
      rfl
    | block hhead =>
      rename_i head last init
      simp only [checkValue, hhead] at h
      have hall := ok_of_forM h
      have hinit : init.forM (checkValue (depth + 1)) = .ok () :=
        forM_checkValue_succ fun x hx ↦ hall x (by simp [hx])
      obtain ⟨first, rest, hcons⟩ := List.exists_cons_of_ne_nil
        (List.append_ne_nil_of_right_ne_nil init (List.cons_ne_nil (last.recurring name) []))
      have hdrop : (first :: rest).dropLast = init := by rw [← hcons, List.dropLast_concat]
      have hlast : (first :: rest).getLast (List.cons_ne_nil first rest) = last.recurring name := by
        simp [← hcons]
      rw [hcons]
      simp only [checkTail, hhead]
      rw [hdrop, hlast, hinit, ih (hall last (by simp))]
      rfl
    -- A call of the function itself becomes `recur`, with the operands as they were.
    | again =>
      simp only [checkValue, hname] at h
      have hall := ok_of_forM h
      have hagain : (Form.symbol SpecialForm.again.keyword).special? = some .again := rfl
      simp only [checkTail, hagain]
      exact forM_checkValue_succ fun x hx ↦ hall x (List.mem_cons_of_mem _ hx)
    -- Every other form is wrapped in `break`, which is the level more.
    | leave =>
      have hleave : (Form.symbol SpecialForm.leave.keyword).special? = some .leave := rfl
      rw [leaving]
      simp only [checkTail, hleave]
      show (checkValue (depth + 1) form >>= fun _ ↦ pure ()) = .ok ()
      rw [h]
      rfl

end Form

end DottedLisp
