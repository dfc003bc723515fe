/-
# Declared methods and their scopes

What a model says of its declared methods apart from their parameters, calls and variable
uses: whose they are, what they are called, where they are declared, and how scopes open
and close in them. References to types do not touch any of it.
-/

import JavaStructure.Proofs.Model.Closure
import JavaStructure.Proofs.Model.Entries
import Mathlib.Data.List.Basic

namespace JavaStructure

/-- Whether a statement opens or closes a scope. -/
def Statement.isScope : Statement → Bool
  | .openScope _ | .closeScope => true
  | .call _ _ | .variableUse _ _ _ => false

/-- A declared method with the scopes that it opens and closes. -/
structure Declaration where
  /-- The name of the class that it belongs to. -/
  owner : Option String
  name : String
  /-- The node that it is declared at. -/
  node : Nat
  scopes : List Statement
  deriving DecidableEq

/-- The declaration at a node goes on with a statement; others stay as they are. -/
def Declaration.extend (node : Nat) (statement : Statement) (declaration : Declaration) :
    Declaration :=
  if declaration.node = node then
    { declaration with scopes := declaration.scopes ++ [statement] }
  else declaration

namespace Model

variable {model before after : Model} {id : MethodId} {method : Method} {node : Nat}

/-- The declaration of a method, unless it is synthesized. -/
def declaration? (model : Model) (method : Method) : Option Declaration :=
  method.origin.node?.map fun node =>
    { owner := model.nameOf method.owner
      name := method.name
      node
      scopes := method.statements.filter Statement.isScope }

/-- The declared methods of a model, in the order of its methods. -/
def declarations (model : Model) : List Declaration :=
  model.methods.filterMap model.declaration?

theorem node_of_declaration? {declaration : Declaration}
    (declared : model.declaration? method = some declaration) :
    method.origin.node? = some declaration.node := by
  obtain ⟨node, origin, rfl⟩ := Option.map_eq_some_iff.mp declared
  exact origin

theorem declarations_map_node (model : Model) :
    model.declarations.map (·.node) = model.declaredNodes := by
  rw [declarations, declaredNodes, List.map_filterMap]
  congr 1
  funext method
  cases origin : method.origin.node? <;> simp [declaration?, origin]

theorem Grows.nameOf_eq (grows : Grows before after) {type : TypeId}
    (inside : type < before.types.length) : after.nameOf type = before.nameOf type := by
  have named : before.nameOf type = some before.types[type].name :=
    congrArg (Option.map _) (List.getElem?_eq_getElem inside)
  rw [grows.nameOf named, named]

theorem Grows.nodeOf_eq (grows : Grows before after) (inside : id < before.methods.length) :
    after.nodeOf id = before.nodeOf id := by
  have found : (before.methods.map (·.header))[id]? = some before.methods[id].header := by
    rw [List.getElem?_map, List.getElem?_eq_getElem inside]
    rfl
  rw [nodeOf_eq_headers, nodeOf_eq_headers, getElem?_of_isPrefix grows.headers found, found]

/-- New methods come after those that are there. -/
theorem Grows.declarations (grows : Grows before after)
    (owned : ∀ method ∈ before.methods, method.owner < before.types.length)
    {added : List Method} (methods : after.methods = before.methods ++ added) :
    after.declarations = before.declarations ++ added.filterMap after.declaration? := by
  have old : before.methods.filterMap after.declaration? = before.declarations := by
    apply List.filterMap_congr
    intro method inside
    simp only [declaration?, grows.nameOf_eq (owned method inside)]
  rw [Model.declarations, methods, List.filterMap_append, old]

/-- What is only mentioned declares no method. -/
theorem Mentions.declarations (mentions : Mentions before after)
    (owned : ∀ method ∈ before.methods, method.owner < before.types.length) :
    after.declarations = before.declarations := by
  obtain ⟨added, methods, -⟩ := mentions.methods
  have undeclared : added.filterMap (·.origin.node?) = [] := by
    have nodes : after.declaredNodes = before.declaredNodes := mentions.declaredNodes
    rw [Model.declaredNodes, methods, List.filterMap_append] at nodes
    exact List.append_right_eq_self.mp nodes
  rw [mentions.toGrows.declarations owned methods, List.append_right_eq_self,
    List.filterMap_eq_nil_iff]
  intro method inside
  simp [declaration?, List.filterMap_eq_nil_iff.mp undeclared method inside]

/-- A method that is declared at a new node comes last, without scopes. -/
theorem declarations_addMethod (owned : ∀ method ∈ model.methods,
      method.owner < model.types.length) {owner : TypeId} (inside : owner < model.types.length)
    (fresh : node ∉ model.declaredNodes) (name : String) (parameters : List Slot) :
    (model.addMethod owner name parameters (.node node)).2.declarations =
      model.declarations ++ [⟨model.nameOf owner, name, node, []⟩] := by
  have grows := (addMethod_registers model owner name parameters (.node node)).toGrows
  rw [grows.declarations owned (addMethod_of_not_mem fresh owner name parameters).2]
  simp [declaration?, Origin.node?, grows.nameOf_eq inside]

theorem nodeOf_addStatement (model : Model) (id : MethodId) (statement : Statement)
    (other : MethodId) : (model.addStatement id statement).nodeOf other = model.nodeOf other := by
  have headers : (model.addStatement id statement).methods.map (·.header) =
      model.methods.map (·.header) := by
    refine map_modify_of_eq Method.header ?_ model.methods id
    exact fun _ => rfl
  rw [nodeOf_eq_headers, headers, ← nodeOf_eq_headers]

/-- Calls and variable uses are no scopes. -/
theorem declarations_addStatement_of_isScope_eq_false (model : Model) (id : MethodId)
    {statement : Statement} (other : statement.isScope = false) :
    (model.addStatement id statement).declarations = model.declarations := by
  have read (model : Model) : model.declarations =
      (model.methods.map model.declaration?).filterMap fun declaration => declaration := by
    rw [List.filterMap_map]
    rfl
  have same : (model.addStatement id statement).methods.map model.declaration? =
      model.methods.map model.declaration? := by
    refine map_modify_of_eq model.declaration? ?_ model.methods id
    intro method
    simp [declaration?, other]
  rw [read model, ← same, read]
  rfl

/-- A statement of a method that stands for no declaration extends none. -/
theorem declarations_addStatement_of_nodeOf (undeclared : model.nodeOf id = none)
    (statement : Statement) :
    (model.addStatement id statement).declarations = model.declarations := by
  cases found : model.methods[id]? with
  | none =>
      have outside := List.getElem?_eq_none_iff.mp found
      simp only [declarations, addStatement, modifyMethod, List.modify_eq_self outside]
  | some method =>
      have origin : method.origin.node? = none := by
        rwa [nodeOf, found] at undeclared
      obtain ⟨front, back, methods, extended⟩ := addStatement_methods found statement
      have sides (statements : List Statement) :
          model.declaration? { method with statements } = none := by
        simp [declaration?, origin]
      have before := sides method.statements
      have after := sides (method.statements ++ [statement])
      calc (model.addStatement id statement).declarations
        _ = (front ++ { method with statements := method.statements ++ [statement] } ::
            back).filterMap model.declaration? :=
          congrArg (List.filterMap model.declaration?) extended
        _ = front.filterMap model.declaration? ++ back.filterMap model.declaration? := by
          rw [List.filterMap_append, List.filterMap_cons_none after]
        _ = (front ++ method :: back).filterMap model.declaration? := by
          rw [List.filterMap_append, List.filterMap_cons_none before]
        _ = model.declarations := by rw [declarations, methods]

/-- Where declarations are distinct, the opening or the end of a scope extends the one that
its method is declared by. -/
theorem declarations_addStatement (distinct : model.declaredNodes.Nodup)
    (declared : model.nodeOf id = some node) {statement : Statement}
    (scope : statement.isScope = true) :
    (model.addStatement id statement).declarations =
      model.declarations.map (Declaration.extend node statement) := by
  obtain ⟨method, found, origin⟩ := Option.bind_eq_some_iff.mp declared
  obtain ⟨front, back, methods, extended⟩ := addStatement_methods found statement
  obtain ⟨notInFront, notInBack⟩ := not_mem_of_split distinct methods origin
  have kept {others : List Method} (absent : node ∉ others.filterMap (·.origin.node?)) :
      (others.filterMap model.declaration?).map (Declaration.extend node statement) =
        others.filterMap model.declaration? := by
    refine (List.map_congr_left fun declaration inside => ?_).trans (List.map_id' _)
    obtain ⟨other, member, known⟩ := List.mem_filterMap.mp inside
    refine if_neg fun same => absent (List.mem_filterMap.mpr ⟨other, member, ?_⟩)
    exact same ▸ node_of_declaration? known
  have said (statements : List Statement) :
      model.declaration? { method with statements } =
        some ⟨model.nameOf method.owner, method.name, node,
          statements.filter Statement.isScope⟩ := by
    simp [declaration?, origin]
  have before := said method.statements
  have after := said (method.statements ++ [statement])
  calc (model.addStatement id statement).declarations
    _ = (front ++ { method with statements := method.statements ++ [statement] } ::
        back).filterMap model.declaration? :=
      congrArg (List.filterMap model.declaration?) extended
    _ = front.filterMap model.declaration? ++ ⟨model.nameOf method.owner, method.name, node,
        (method.statements ++ [statement]).filter Statement.isScope⟩ ::
          back.filterMap model.declaration? := by
      rw [List.filterMap_append, List.filterMap_cons_some after]
    _ = (front.filterMap model.declaration? ++ ⟨model.nameOf method.owner, method.name, node,
        method.statements.filter Statement.isScope⟩ :: back.filterMap model.declaration?).map
          (Declaration.extend node statement) := by
      rw [List.map_append, List.map_cons, kept notInFront, kept notInBack]
      simp [Declaration.extend, scope]
    _ = model.declarations.map (Declaration.extend node statement) := by
      rw [declarations, methods, List.filterMap_append, List.filterMap_cons_some before]

end Model

end JavaStructure
