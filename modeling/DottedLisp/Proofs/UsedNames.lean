import DottedLisp.Proofs.LexicalScoping
import DottedLisp.Proofs.Reading.Queue
import DottedLisp.Proofs.Reading.Segmentation
import DottedLisp.Proofs.RegistryCoherence
import DottedLisp.Proofs.RelativeNames
import DottedLisp.Proofs.Simulation.Evaluator
import DottedLisp.Proofs.Simulation.Loading

/-!
# Used names

Two rules say what a name is. Whether it is plain, so that it can be defined, is decided by its
**first** character and the dots behind it; where a full name is cut is decided by its **last** dot.
They agree on every symbol that a text can hold and that does not begin with a dot: its full name
leads back to it, directly and through a `use` form in another namespace
(`Evaluation.addressable_by_full_name`).

An identifier with a leading dot is plain by the first rule and is cut by the second. It can be
defined, but its full name means something else (`Evaluation.leading_dot_not_addressable`).

What a `use` form comes to is said once, for a target that is absolute and cut
(`Evaluation.useAs_of_split`).
-/

namespace DottedLisp

/-! ### The symbols of a text -/

section Symbols

variable {name source : String} {tokens : List String} {form : Form}

theorem Form.mem_of_anyMentions {items : List Form} (h : anyMentions name items = true) :
    ∃ item ∈ items, item.mentions name = true := by
  induction items with
  | nil => cases h
  | cons first rest ih =>
    rw [anyMentions, Bool.or_eq_true] at h
    rcases h with hfirst | hrest
    · exact ⟨first, List.mem_cons_self, hfirst⟩
    · obtain ⟨item, hitem, hmentions⟩ := ih hrest
      exact ⟨item, List.mem_cons_of_mem first hitem, hmentions⟩

/-- The symbol of a token is the token itself. -/
theorem Form.eq_of_mentions_ofToken {token : String} (h : (ofToken token).mentions name = true) :
    token = name := by
  unfold ofToken at h
  split at h
  · cases h
  · rw [mentions] at h
    exact of_decide_eq_true h

/-- The symbols of a form are tokens that it was read from. -/
theorem Form.Derives.mem_of_mentions (h : Derives tokens form) (hname : form.mentions name = true) :
    name ∈ tokens := by
  induction h with
  | atom hopen hclose =>
    rw [eq_of_mentions_ofToken hname]
    exact List.mem_singleton_self name
  | @list parts hparts ih =>
    rw [mentions] at hname
    obtain ⟨item, hitem, hmentions⟩ := mem_of_anyMentions hname
    obtain ⟨part, hpart, rfl⟩ := List.mem_map.1 hitem
    have hmem : name ∈ (parts.map Prod.fst).flatten :=
      List.mem_flatten.2 ⟨part.1, List.mem_map_of_mem hpart, ih part hpart hmentions⟩
    exact List.mem_append_left _ (List.mem_cons_of_mem _ hmem)

/-- So are those of several forms. -/
theorem Form.DerivesAll.mem_of_mentions {forms : List Form} (h : DerivesAll tokens forms)
    (hform : form ∈ forms) (hname : form.mentions name = true) : name ∈ tokens := by
  obtain ⟨parts, hparts, rfl, rfl⟩ := h
  obtain ⟨part, hpart, rfl⟩ := List.mem_map.1 hform
  exact List.mem_flatten.2
    ⟨part.1, List.mem_map_of_mem hpart, (hparts part hpart).mem_of_mentions hname⟩

/-- What is read from a stream comes from its unread tokens, also if the reading ends at a fault. -/
theorem TokenStream.mem_of_mentions {s : TokenStream} (hform : form ∈ s.readAll.1)
    (hname : form.mentions name = true) : name ∈ s.unread.tokens := by
  obtain ⟨taken, htokens, htold⟩ := s.readsAll_readAll.conserves
  rw [htokens]
  refine List.mem_append_left _ ?_
  rcases hfault : s.readAll.2.1 with - | fault
  · rw [hfault] at htold
    exact Form.DerivesAll.mem_of_mentions htold hform hname
  · rw [hfault] at htold
    obtain ⟨read, lost, rfl, hread⟩ := htold
    exact List.mem_append_left _ (hread.mem_of_mentions hform hname)

theorem Token.Cut.ne_nil {text rest : List Char} {parts : List (List Char × List Char)}
    (h : Cut text parts rest) : ∀ part ∈ parts, part.2 ≠ [] := by
  induction h with
  | nil => simp
  | cons _ htoken _ ih =>
    intro part hpart
    rcases List.mem_cons.1 hpart with rfl | hrest
    · exact htoken.ne_nil
    · exact ih part hrest

/-- **No token is empty**, in a text with a fault neither. -/
theorem ne_empty_of_mem_lex {token : String} (h : token ∈ (lex source).tokens) : token ≠ "" := by
  -- With a fault or without, the tokens are those of a cut.
  obtain ⟨parts, htokens, hne⟩ : ∃ parts, (lex source).tokens = Token.texts parts ∧
      ∀ part ∈ parts, part.2 ≠ [] := by
    rcases Token.segments_or_firstAtFault source.toList with ⟨parts, last, hsegments⟩ |
      ⟨parts, position, c, hfault⟩
    · exact ⟨parts, by rw [lex_of_segments hsegments], hsegments.cut.ne_nil⟩
    · have hlex := lex_of_firstAtFault hfault
      obtain ⟨rest, offset, hcut, -⟩ := hfault
      exact ⟨parts, by rw [hlex], hcut.ne_nil⟩
  rw [htokens] at h
  obtain ⟨part, hpart, rfl⟩ := List.mem_map.1 h
  intro hempty
  refine hne part hpart ?_
  rw [← String.toList_ofList (l := part.2), hempty]
  rfl

/-- A symbol that **the reader can produce**: it occurs in a form of some text. -/
def Form.IsReadable (name : String) : Prop :=
  ∃ source, ∃ form ∈ (TokenStream.ofText source).readAll.1, form.mentions name = true

theorem Form.IsReadable.ne_empty (h : IsReadable name) : name ≠ "" := by
  obtain ⟨source, form, hform, hname⟩ := h
  exact ne_empty_of_mem_lex (TokenStream.mem_of_mentions hform hname)

end Symbols

/-! ### The form `use` -/

/-- The form that uses a name, perhaps under another one. -/
def Form.use (target : String) (alias? : Option String) : Form :=
  .list (.symbol SpecialForm.use.keyword :: .symbol target :: (alias?.map Form.symbol).toList)

namespace Evaluation

section Use

variable {setting : Setting} {e : Evaluator} {w : World} {id : NamespaceId}
  {target full path identifier : String} {alias? : Option String}

theorem evaluate_use (setting : Setting) (depth : Nat) (target : String) (alias? : Option String)
    (c : Context) (position : Position) :
    evaluate setting (depth + 1) (.use target alias?) c position =
      (useAs setting (evaluate setting depth) c (.symbol target) (alias?.map Form.symbol) >>=
        expectValue .use position) := by
  have hspecial : (Form.symbol SpecialForm.use.keyword).special? = some .use := by decide
  rw [evaluate_succ, Form.use, Simulation.step_special hspecial]
  cases alias? <;> rfl

/-- The last part of `use`: what was looked up is bound. -/
def bindFrom (id : NamespaceId) (path identifier name : String) : Evaluation Value := do
  define (.top id) (.symbol name) (← get (.top (← getNamespace path)) identifier)

section Absolute

variable
  (hname : Name.normalize target (Name.moduleOf (w.namespaceAt id).path)
    (w.namespaceAt id).path = .ok full)
  (hsplit : Name.split? full = some (path, identifier))
include hname hsplit

/-- What `use` comes to, once its target is absolute and cut. -/
theorem useAs_of_split :
    useAs setting e (.top id) (.symbol target) (alias?.map Form.symbol) w =
      (if w.isRegistered path = true then bindFrom id path identifier (alias?.getD identifier)
      else loadNeeded setting e (Name.moduleOf path) >>= fun _ ↦
        bindFrom id path identifier (alias?.getD identifier)) w := by
  have hnormalize : normalize (.top id) target w = .ok full w := by
    simp only [normalize, Context.home, hname]
  have hcut : splitName full w = .ok (path, identifier) w := by
    rw [splitName, hsplit]
    rfl
  show (normalize (.top id) target >>= fun full ↦ splitName full >>= _) w = _
  rw [bind_of_ok hnormalize, bind_of_ok hcut]
  cases alias? with
  | none => rfl
  | some name => rfl

/-- If the namespace is registered, nothing is loaded. -/
theorem useAs_of_registered (h : w.isRegistered path = true) :
    useAs setting e (.top id) (.symbol target) (alias?.map Form.symbol) w =
      bindFrom id path identifier (alias?.getD identifier) w := by
  rw [useAs_of_split hname hsplit, if_pos h]

/-- Otherwise the module of the path is loaded first, if it does not count as loaded. -/
theorem useAs_of_unregistered (h : w.isRegistered path = false) :
    useAs setting e (.top id) (.symbol target) (alias?.map Form.symbol) w =
      (loadNeeded setting e (Name.moduleOf path) >>= fun _ ↦
        bindFrom id path identifier (alias?.getD identifier)) w := by
  rw [useAs_of_split hname hsplit, if_neg (by rw [h]; exact Bool.false_ne_true)]

end Absolute

end Use

end Evaluation

/-! ### Defining and using -/

/-- A plain identifier that does not begin with a dot holds none. -/
theorem Name.not_mem_of_not_isFull {i : String} (hfull : isFull i = false)
    (hdot : i.toList.head? ≠ some '.') : '.' ∉ i.toList := by
  rw [isFull] at hfull
  rcases hi : i.toList with - | ⟨first, rest⟩
  · simp
  · rw [hi] at hfull hdot
    have hfirst : first ≠ '.' := fun heq ↦ hdot (congrArg some heq)
    simpa [hfirst, Ne.symm hfirst] using hfull

namespace Evaluation

open Name

variable {w u : World} {id other : NamespaceId} {i path : String} {v a : Value}

/-- What was just bound at a top level is found there. -/
theorem get_modifyBindings (hlt : id.index < w.namespaces.size)
    (hfree : (w.bindingsOf (.top id)).binds i = false) :
    get (.top id) i (w.modifyBindings (.top id) fun b ↦ b.insert i v) =
      .ok v (w.modifyBindings (.top id) fun b ↦ b.insert i v) := by
  have hnone : (w.namespaceAt id).bindings.get? i = none := by
    simpa [World.bindingsOf, Bindings.binds] using hfree
  have hlookup :
      (w.modifyBindings (.top id) fun b ↦ b.insert i v).lookup? (.top id) i = some v := by
    rw [World.lookup?, World.namespaceAt_modify_top, if_pos ⟨rfl, hlt⟩]
    exact Bindings.get?_insert_self hnone
  rw [get, hlookup]

theorem bindFrom_of_ok {source : NamespaceId} {identifier name : String}
    (hsource : w.registered? path = some source) (hget : get (.top source) identifier w = .ok v w) :
    bindFrom id path identifier name w = define (.top id) (.symbol name) v w := by
  have hspace : getNamespace path w = .ok source w := by
    rw [getNamespace, hsource]
  rw [bindFrom, bind_of_ok hspace]
  exact bind_of_ok hget

theorem expectValue_eq (form : SpecialForm) (position : Position) (v : Value) (w : World) :
    expectValue form position v w =
      if position = .value ∧ v.isSignal then .error (.fault (.strayed form.keyword)) w
      else .ok v w := by
  rw [expectValue]
  split
  · rename_i hstrayed
    rw [if_pos (by simpa using hstrayed)]
    rfl
  · rename_i hvalue
    rw [if_neg (by simpa using hvalue)]
    rfl

/-- Using an identifier under its own name: it is bound to the value that it has elsewhere. -/
theorem evaluate_use_of_get {source : NamespaceId} (setting : Setting) (depth : Nat)
    (position : Position) (hpath : IsAnchored path)
    (hsplit : split? (join path i) = some (path, i)) (hsource : w.registered? path = some source)
    (hget : get (.top source) i w = .ok v w) (hfull : isFull i = false)
    (hfree : (w.bindingsOf (.top other)).binds i = false) :
    evaluate setting (depth + 1) (.use (join path i) none) (.top other) position w =
      expectValue .use position v (w.modifyBindings (.top other) fun b ↦ b.insert i v) := by
  have habsolute := (hpath.of_eq (moduleOf_join path i)).isAbsolute.normalize
    (moduleOf (w.namespaceAt other).path) (w.namespaceAt other).path
  have hknown : w.isRegistered path = true := by
    rw [World.isRegistered, hsource]
    rfl
  have huse : useAs setting (evaluate setting depth) (.top other) (.symbol (join path i))
      ((none : Option String).map Form.symbol) w =
        .ok v (w.modifyBindings (.top other) fun b ↦ b.insert i v) := by
    refine (useAs_of_registered habsolute hsplit hknown).trans ?_
    rw [bindFrom_of_ok hsource hget]
    exact Simulation.define_of_free (by simp [hfull]) hfree
  rw [evaluate_use]
  exact bind_of_ok huse

/-- **A definable identifier is addressable by its full name**, unless it begins with a dot. Its
full name gives its value; and to use it in another namespace where it is free binds it there to
that value. A loop signal is bound like any other value, but is no value of a form. Every world that
an interpreter gets into is `Filed` (`Interpreter.ordered_of_reachable`). -/
theorem addressable_by_full_name (hread : Form.IsReadable i) (hdot : i.toList.head? ≠ some '.')
    (hpath : IsAnchored path) (hw : w.Filed) (hid : w.registered? path = some id)
    (hdefine : define (.top id) (.symbol i) v w = .ok a u) :
    getFull (path ++ "." ++ i) u = .ok v u ∧
      ∀ setting depth position other, other.index < u.namespaces.size →
        (u.bindingsOf (.top other)).binds i = false →
        ∃ u', get (.top other) i u' = .ok v u' ∧
          u' = (u.modifyBindings (.top other) fun b ↦ b.insert i v) ∧
          evaluate setting (depth + 1) (.use (path ++ "." ++ i) none) (.top other) position u =
            if position = .value ∧ v.isSignal then .error (.fault (.strayed "use")) u'
            else .ok v u' := by
  obtain ⟨hfull, hfree, rfl, rfl⟩ := Simulation.define_eq_ok hdefine
  have hsplit := split?_join hpath hread.ne_empty (not_mem_of_not_isFull hfull hdot)
  have hget := get_modifyBindings (v := a) (hw path id hid).1 hfree
  have hregistered : (w.modifyBindings (.top id) fun b ↦ b.insert i a).registered? path =
      some id := by
    rw [World.registered?, World.registry_modify]
    exact hid
  refine ⟨(getFull_of_split hsplit hregistered).trans hget,
    fun setting depth position other hlt hfree' ↦
      ⟨_, get_modifyBindings hlt hfree', rfl, ?_⟩⟩
  refine (evaluate_use_of_get setting depth position hpath hsplit hregistered hget hfull
    hfree').trans ?_
  exact expectValue_eq ..

/-- An arrow bound among the natives, and used from the home namespace of a fresh interpreter. -/
theorem addressable_by_full_name_native :
    let w := (Interpreter.create Host.empty none none 0).2
    ∃ u u', define (.top ⟨0⟩) (.symbol "a→b") (.number 1.0) w = .ok (.number 1.0) u ∧
      getFull "native.i64.a→b" u = .ok (.number 1.0) u ∧
      get (.top ⟨5⟩) "a→b" u' = .ok (.number 1.0) u' ∧
      evaluate (Interpreter.setting ⟨⟨5⟩, none⟩ Host.empty) 1 (.use "native.i64.a→b" none)
        (.top ⟨5⟩) .value u = .ok (.number 1.0) u' := by
  intro w
  have hread : Form.IsReadable "a→b" :=
    ⟨"(f a→b)", .list [.symbol "f", .symbol "a→b"], by decide +kernel, by decide +kernel⟩
  have hdefine : define (.top ⟨0⟩) (.symbol "a→b") (.number 1.0) w =
      .ok (.number 1.0) (w.modifyBindings (.top ⟨0⟩) fun b ↦ b.insert "a→b" (.number 1.0)) :=
    Simulation.define_of_free (by decide) (by decide +kernel)
  have hspace : w.registered? "native.i64" = some ⟨0⟩ := by decide +kernel
  obtain ⟨hfull, huse⟩ := addressable_by_full_name hread (by decide) (by decide)
    (Interpreter.filed_create _ _ _ _) hspace hdefine
  obtain ⟨u', hget, -, hevaluate⟩ := huse (Interpreter.setting ⟨⟨5⟩, none⟩ Host.empty) 0 .value ⟨5⟩
    (by decide +kernel) (by decide +kernel)
  exact ⟨_, u', hdefine, hfull, hget, hevaluate⟩

/-- An identifier that begins with a dot is plain, so it can be defined; but what is cut off at the
last dot of its full name is another path. -/
theorem leading_dot_not_addressable :
    let w := (Interpreter.create Host.empty none none 0).2
    Form.IsReadable ".a" ∧ IsAnchored "user" ∧ w.Filed ∧ w.registered? "user" = some ⟨5⟩ ∧
      ∃ u, define (.top ⟨5⟩) (.symbol ".a") (.number 1.0) w = .ok (.number 1.0) u ∧
        failure? (getFull ("user" ++ "." ++ ".a") u) =
          some (.fault (.unknownNamespace "user.")) := by
  intro w
  have hread : Form.IsReadable ".a" :=
    ⟨".a", .symbol ".a", by decide +kernel, by decide +kernel⟩
  refine ⟨hread, by decide, Interpreter.filed_create _ _ _ _, by decide +kernel, _,
    Simulation.define_of_free (by decide) (by decide +kernel), ?_⟩
  decide +kernel

end Evaluation

end DottedLisp
