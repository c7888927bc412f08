import DottedLisp.Bindings
import DottedLisp.Fault
import DottedLisp.Name

/-!
# The world

Everything that evaluation can change: what namespaces and scopes bind, which namespace is
registered under which path, which modules are loaded, and how many function objects were made.

Namespaces and scopes are never given up, only added to, so an identity stays valid for good. A
namespace that is taken out of the **registry** lives on in the functions that were defined in it. A
scope keeps the context it was made in; a look-up follows the chain that the context at hand
carries.

Operations come in two halves. A *test* reads the world and leaves it alone; a *change* is total.
The operations of an `Evaluation` put a test in front of each change.
-/

namespace DottedLisp

/-- A namespace: constants under a path. -/
structure Namespace where
  /-- The path it was made for. -/
  path : String
  /-- What it binds. -/
  bindings : Bindings
  deriving Inhabited, DecidableEq

/-- A scope: variables inside a context. -/
structure Scope where
  /-- The context it was made in. -/
  outer : Context
  /-- What it binds. -/
  bindings : Bindings
  deriving DecidableEq

/-- The state of an interpreter. -/
structure World where
  /-- Every namespace ever made. -/
  namespaces : Array Namespace
  /-- Every scope ever made. -/
  scopes : Array Scope
  /-- The registered namespaces by path. -/
  registry : List (String × NamespaceId)
  /-- The names of the loaded modules. -/
  loaded : List String
  /-- How many function objects were made. -/
  stamps : Nat
  deriving Inhabited, DecidableEq

namespace World

/-- The world in which nothing was made; function objects are stamped from `stamps` on. -/
def empty (stamps : Nat) : World :=
  ⟨#[], #[], [], [], stamps⟩

/-! ### Namespaces and scopes -/

/-- The namespace with an identity. -/
def namespaceAt (w : World) (id : NamespaceId) : Namespace :=
  w.namespaces.getD id.index default

/-- What a scope binds. -/
def scopeAt (w : World) (id : ScopeId) : Bindings :=
  (w.scopes[id.index]?.map Scope.bindings).getD .empty

/-- What the innermost level of a context binds. -/
def bindingsOf (w : World) : Context → Bindings
  | .top id => (w.namespaceAt id).bindings
  | .scope id _ => w.scopeAt id

/-- Change what the innermost level of a context binds. -/
def modifyBindings (w : World) (c : Context) (f : Bindings → Bindings) : World :=
  match c with
  | .top id =>
    let change := fun n : Namespace => { n with bindings := f n.bindings }
    { w with namespaces := w.namespaces.modify id.index change }
  | .scope id _ =>
    let change := fun s : Scope => { s with bindings := f s.bindings }
    { w with scopes := w.scopes.modify id.index change }

/-- Make a namespace that is not registered. -/
def addNamespace (w : World) (path : String) : NamespaceId × World :=
  (⟨w.namespaces.size⟩, { w with namespaces := w.namespaces.push ⟨path, .empty⟩ })

/-- Make a scope inside a context. -/
def addScope (w : World) (outer : Context) : Context × World :=
  (.scope ⟨w.scopes.size⟩ outer, { w with scopes := w.scopes.push ⟨outer, .empty⟩ })

/-- A fresh stamp for a function object. -/
def addStamp (w : World) : Nat × World :=
  (w.stamps, { w with stamps := w.stamps + 1 })

/-! ### Looking up identifiers -/

/-- The value of a plain identifier: the innermost binding of the chain, its namespace included. -/
def lookup? (w : World) : Context → String → Option Value
  | .top id, name => (w.namespaceAt id).bindings.get? name
  | .scope id outer, name =>
    match (w.scopeAt id).get? name with
    | some value => some value
    | none => w.lookup? outer name

/-- Whether a plain identifier is bound anywhere in the chain. -/
def isBound (w : World) : Context → String → Bool
  | .top id, name => (w.namespaceAt id).bindings.binds name
  | .scope id outer, name => (w.scopeAt id).binds name || w.isBound outer name

/-- The nearest **scope** that binds an identifier, as the context it is the innermost level of. The
namespace that ends the chain is not searched: its bindings are constants. -/
def findScope? (w : World) : Context → String → Option Context
  | .top _, _ => none
  | .scope id outer, name =>
    if (w.scopeAt id).binds name then some (.scope id outer) else w.findScope? outer name

/-! ### The registry -/

/-- The namespace that is registered under a path. -/
def registered? (w : World) (path : String) : Option NamespaceId :=
  w.registry.lookup path

/-- Whether a path is registered. -/
def isRegistered (w : World) (path : String) : Bool :=
  (w.registered? path).isSome

/-- Register a namespace under a path that is free. -/
def register (w : World) (path : String) (id : NamespaceId) : World :=
  { w with registry := w.registry ++ [(path, id)] }

/-- Take a path out of the registry; a path that is not in it is no matter. -/
def unregister (w : World) (path : String) : World :=
  { w with registry := w.registry.filter fun entry => entry.1 ≠ path }

/-- The registered paths. -/
def paths (w : World) : List String :=
  w.registry.map Prod.fst

/-- The namespace under a path, made and registered if there is none. -/
def createNamespace (w : World) (path : String) : NamespaceId × World :=
  match w.registered? path with
  | some id => (id, w)
  | none =>
    let (id, w) := w.addNamespace path
    (id, w.register path id)

/-! ### Loaded modules -/

/-- Whether a module is loaded. -/
def isLoaded (w : World) (name : String) : Bool :=
  w.loaded.contains name

/-- Note that a module is loaded. -/
def markLoaded (w : World) (name : String) : World :=
  if w.isLoaded name then w else { w with loaded := name :: w.loaded }

/-- What a failed load of a module leaves: the paths and the loaded modules that were there
**before**, the module itself left out. -/
def rollback (paths loaded : List String) (name : String) (w : World) : World :=
  { w with
    registry := w.registry.filter fun entry => paths.contains entry.1
    loaded := w.loaded.filter fun other => loaded.contains other && other ≠ name }

/-! ### Texts -/

/-- The text of a namespace. -/
def namespaceText (w : World) (id : NamespaceId) : String :=
  let n := w.namespaceAt id
  "<Namespace " ++ n.path ++ " (" ++ toString n.bindings.size ++ " identifiers)>"

end World

/-- The text of bindings: identifiers with the texts of their values, between braces. -/
def Bindings.text (b : Bindings) : String :=
  let entries := b.entries.map fun (name, value) => name ++ ": " ++ value.text
  "\x7b" ++ ", ".intercalate entries ++ "\x7d"

namespace World

/-- The text of a whole chain, the innermost level first. -/
def chainText (w : World) : Context → String
  | .top id => w.namespaceText id
  | .scope id outer => (w.scopeAt id).text ++ " -> " ++ w.chainText outer

/-- The detailed text of a context. -/
def contextDetail (w : World) : Context → String
  | .top id => w.namespaceText id
  | .scope id outer => "<Scope chain: " ++ w.chainText (.scope id outer) ++ ">"

/-- The short text of a context: of a scope, only what it binds itself. -/
def contextText (w : World) : Context → String
  | .top id => w.namespaceText id
  | .scope id _ => (w.scopeAt id).text ++ " -> ..."

end World

end DottedLisp
