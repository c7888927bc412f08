import DottedLisp.Native

/-!
# Translated values

Two runs that correspond to each other meet the same values up to their function objects. A
translation of function objects is carried to values, through the values of signals, and natives
**cannot tell** translated arguments from the ones they stand for as long as the translation tells
stamps apart.
-/

namespace DottedLisp

namespace Value

variable (t : Function → Function)

mutual

/-- Translate the function objects in a value. -/
def translate : Value → Value
  | nothing => nothing
  | number x => number x
  | native n stamp => native n stamp
  | function f => function (t f)
  | signal s values => signal s (translateAll values)

/-- Translate several values. -/
def translateAll : List Value → List Value
  | [] => []
  | value :: rest => translate value :: translateAll rest

end

/-- Several values are translated one by one. -/
theorem translateAll_eq_map (values : List Value) :
    translateAll t values = values.map (translate t) := by
  induction values with
  | nil => rfl
  | cons value rest ih => rw [translateAll, ih, List.map_cons]

@[simp] theorem translate_nothing : translate t nothing = nothing := by rw [translate]

@[simp] theorem translate_number (x : Float) : translate t (number x) = number x := by
  rw [translate]

@[simp] theorem translate_native (n : Native) (stamp : Nat) :
    translate t (native n stamp) = native n stamp := by
  rw [translate]

/-- Only the function object itself is exchanged. -/
@[simp] theorem translate_function (f : Function) : translate t (function f) = function (t f) := by
  rw [translate]

/-- The values that a signal carries are translated. -/
@[simp] theorem translate_signal (s : Signal) (values : List Value) :
    translate t (signal s values) = signal s (values.map (translate t)) := by
  rw [translate, translateAll_eq_map]

@[simp] theorem translate_ofBool (b : Bool) : translate t (ofBool b) = ofBool b := by
  rw [ofBool, translate_number]

/-- Translating makes no signals and removes none, and it keeps what is true. -/
@[simp] theorem isSignal_translate (v : Value) : (translate t v).isSignal = v.isSignal := by
  cases v <;> simp [isSignal]

/-- No function is false, so exchanging functions makes nothing true or false. -/
@[simp] theorem isTrue_translate (v : Value) : (translate t v).isTrue = v.isTrue := by
  cases v <;> simp [isTrue]

mutual

/-- Translating by the identity changes nothing. -/
theorem translate_id : (v : Value) → translate id v = v
  | nothing | number _ | native .. | function _ => by simp
  | signal s values => by rw [translate, translateAll_id values]

/-- Translating several values by the identity changes nothing. -/
theorem translateAll_id : (values : List Value) → translateAll id values = values
  | [] => by rw [translateAll]
  | value :: rest => by rw [translateAll, translate_id value, translateAll_id rest]

end

theorem translate_id_eq : translate id = id := funext translate_id

variable {t}

/-- Translated values are the same exactly if the values are. -/
theorem same_translate (ht : ∀ f g, (t f).stamp = (t g).stamp ↔ f.stamp = g.stamp)
    (a b : Value) : (translate t a).same (translate t b) = a.same b := by
  cases a <;> cases b <;> simp [same, ht]

end Value

namespace Operation

variable {t : Function → Function}

/-- What an operation gives does not depend on which function objects its arguments are. -/
def Transparent (t : Function → Function) (run : List Value → Option Value) : Prop :=
  ∀ arguments, run (arguments.map (.translate t)) = (run arguments).map (Value.translate t)

/-- An operation on numbers has no answer for functions, whichever they are. -/
theorem transparent_onNumbers (f : Float → Float → Float) : Transparent t (onNumbers f) := by
  rintro (_ | ⟨a, _ | ⟨b, _ | ⟨c, rest⟩⟩⟩)
  · rfl
  · cases a <;> simp [onNumbers]
  · cases a <;> cases b <;> simp [onNumbers]
  · cases a <;> cases b <;> simp [onNumbers]

theorem transparent_onNumber (f : Float → Float) : Transparent t (onNumber f) := by
  rintro (_ | ⟨a, _ | ⟨b, rest⟩⟩)
  · rfl
  · cases a <;> simp [onNumber]
  · cases a <;> simp [onNumber]

/-- Neither has a comparison of numbers. -/
theorem transparent_comparing (f : Float → Float → Bool) : Transparent t (comparing f) := by
  rintro (_ | ⟨a, _ | ⟨b, _ | ⟨c, rest⟩⟩⟩)
  · rfl
  · cases a <;> simp [comparing]
  · cases a <;> cases b <;> simp [comparing]
  · cases a <;> cases b <;> simp [comparing]

/-- A remainder asks whether the divisor is zero, which no function is. -/
theorem transparent_remainderOf : Transparent t remainderOf := by
  rintro (_ | ⟨a, _ | ⟨b, _ | ⟨c, rest⟩⟩⟩)
  · rfl
  · simp [remainderOf]
  · cases a <;> cases b <;> simp [remainderOf]
  · simp [remainderOf]

/-- A test of any two values is transparent if it does not tell functions apart. -/
theorem transparent_testing {f : Value → Value → Bool}
    (hf : ∀ a b, f (.translate t a) (.translate t b) = f a b) : Transparent t (testing f) := by
  rintro (_ | ⟨a, _ | ⟨b, _ | ⟨c, rest⟩⟩⟩) <;> simp [testing, hf]

/-- **No operation tells translated arguments apart**, if the translation keeps stamps apart. -/
theorem transparent_run (ht : ∀ f g, (t f).stamp = (t g).stamp ↔ f.stamp = g.stamp)
    (operation : Operation) : Transparent t operation.run := by
  cases operation with
  | add | subtract | multiply | divide => exact transparent_onNumbers _
  | bitAnd | bitOr | bitXor | shiftLeft | shiftRight | shiftRightUnsigned =>
    exact transparent_onNumbers _
  | remainder => exact transparent_remainderOf
  | equal => exact transparent_testing fun a b ↦ Value.same_translate ht a b
  | unequal =>
    refine transparent_testing fun a b ↦ ?_
    rw [Value.same_translate ht]
  | less | greater | lessEqual | greaterEqual | logicalAnd | logicalOr =>
    exact transparent_comparing _
  | absolute | negate | ceiling | floor | truncate | nearest | squareRoot =>
    exact transparent_onNumber _
  | itself => rintro (_ | ⟨a, _ | ⟨b, rest⟩⟩) <;> simp [run]
  | logicalNot =>
    rintro (_ | ⟨a, _ | ⟨b, rest⟩⟩)
    · rfl
    · cases a <;> simp [run]
    · simp [run]
  | declared =>
    intro arguments
    rfl

/-! ### What operations give -/

/-- An operation on numbers gives numbers. -/
theorem number_of_onNumbers {f : Float → Float → Float} {arguments : List Value} {v : Value}
    (h : onNumbers f arguments = some v) : ∃ x, v = .number x := by
  unfold onNumbers at h
  split at h
  · exact ⟨_, (Option.some.inj h).symm⟩
  · cases h

/-- An operation on a number gives a number. -/
theorem number_of_onNumber {f : Float → Float} {arguments : List Value} {v : Value}
    (h : onNumber f arguments = some v) : ∃ x, v = .number x := by
  unfold onNumber at h
  split at h
  · exact ⟨_, (Option.some.inj h).symm⟩
  · cases h

/-- Truth is a number. -/
theorem number_of_comparing {f : Float → Float → Bool} {arguments : List Value} {v : Value}
    (h : comparing f arguments = some v) : ∃ x, v = .number x := by
  unfold comparing at h
  split at h
  · exact ⟨_, (Option.some.inj h).symm⟩
  · cases h

theorem number_of_testing {f : Value → Value → Bool} {arguments : List Value} {v : Value}
    (h : testing f arguments = some v) : ∃ x, v = .number x := by
  unfold testing at h
  split at h
  · exact ⟨_, (Option.some.inj h).symm⟩
  · cases h

/-- A remainder is a number in every case, that of a division by zero included. -/
theorem number_of_remainderOf {arguments : List Value} {v : Value}
    (h : remainderOf arguments = some v) : ∃ x, v = .number x := by
  unfold remainderOf at h
  split at h
  · split at h
    · exact ⟨_, (Option.some.inj h).symm⟩
    · split at h
      · exact ⟨_, (Option.some.inj h).symm⟩
      · cases h
    · split at h
      · exact ⟨_, (Option.some.inj h).symm⟩
      · cases h
    · cases h
  · cases h

/-- An operation gives a number, or its one argument back. -/
theorem itself_or_number_of_run {operation : Operation} {arguments : List Value} {v : Value}
    (h : operation.run arguments = some v) :
    operation = .itself ∧ arguments = [v] ∨ ∃ x, v = .number x := by
  cases operation with
  | add | subtract | multiply | divide => exact Or.inr (number_of_onNumbers h)
  | bitAnd | bitOr | bitXor | shiftLeft | shiftRight | shiftRightUnsigned =>
    exact Or.inr (number_of_onNumbers h)
  | remainder => exact Or.inr (number_of_remainderOf h)
  | equal | unequal => exact Or.inr (number_of_testing h)
  | less | greater | lessEqual | greaterEqual | logicalAnd | logicalOr =>
    exact Or.inr (number_of_comparing h)
  | absolute | negate | ceiling | floor | truncate | nearest | squareRoot =>
    exact Or.inr (number_of_onNumber h)
  | itself =>
    simp only [run] at h
    split at h
    · exact Or.inl ⟨rfl, by rw [Option.some.inj h]⟩
    · cases h
  | logicalNot =>
    simp only [run] at h
    split at h
    · exact Or.inr ⟨_, (Option.some.inj h).symm⟩
    · exact Or.inr ⟨_, (Option.some.inj h).symm⟩
    · cases h
  | declared => cases h

/-- **Operations make no functions**: what they give is a number, or one of their operands. -/
theorem mem_or_number_of_run {operation : Operation} {arguments : List Value} {v : Value}
    (h : operation.run arguments = some v) : v ∈ arguments ∨ ∃ x, v = .number x := by
  obtain ⟨-, rfl⟩ | hnumber := itself_or_number_of_run h
  · exact Or.inl List.mem_cons_self
  · exact Or.inr hnumber

end Operation

/-- Calls of natives do not depend on which function objects their arguments are. -/
theorem Native.call_translate {t : Function → Function}
    (ht : ∀ f g, (t f).stamp = (t g).stamp ↔ f.stamp = g.stamp) (n : Native)
    (arguments : List Value) :
    n.call (arguments.map (.translate t)) = (n.call arguments).map (Value.translate t) := by
  unfold Native.call
  by_cases hdeclared : n.operation = .declared
  · simp [hdeclared, Except.map]
  · rw [if_neg hdeclared, if_neg hdeclared, Operation.transparent_run ht]
    cases n.operation.run arguments <;> rfl

end DottedLisp
