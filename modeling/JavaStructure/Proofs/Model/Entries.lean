/-
# The entries of a declared method

What a method says apart from where its scopes end, looked up by the node of its
declaration. This module says what the operations do to these entries. Distinct
declarations are assumed only where a statement is added: it is then added to the
entries of one node.
-/

import JavaStructure.Proofs.Model.Balance
import JavaStructure.Proofs.Model.Growth

namespace JavaStructure

/-- The statements of a method that do not close a scope. -/
def Method.entries (method : Method) : List Statement :=
  method.statements.filter fun statement => !statement.closes

theorem Method.entries_eq_filter_ne (method : Method) :
    method.entries = method.statements.filter (· ≠ .closeScope) := by
  apply List.filter_congr
  intro statement _
  cases statement <;> simp [Statement.closes]

namespace Model

variable {model before after : Model} {id : MethodId}

/-- The entries of the methods declared at a node. -/
def entriesOf (model : Model) (node : Nat) : List Statement :=
  (model.methods.filter fun method => method.origin.node? = some node).flatMap Method.entries

/-- The node that a method is declared at. -/
def nodeOf (model : Model) (id : MethodId) : Option Nat :=
  model.methods[id]?.bind (·.origin.node?)

/-- The name of a type. -/
def nameOf (model : Model) (id : TypeId) : Option String :=
  model.types[id]?.map (·.name)

theorem getElem?_of_isPrefix {α : Type} {front whole : List α} {position : Nat} {element : α}
    (isPrefix : front <+: whole) (found : front[position]? = some element) :
    whole[position]? = some element := by
  obtain ⟨rest, rfl⟩ := isPrefix
  obtain ⟨inside, _⟩ := List.getElem?_eq_some_iff.mp found
  rw [List.getElem?_append_left inside]
  exact found

/-- Types keep their names. -/
theorem Grows.nameOf (grows : Grows before after) {id : TypeId} {name : String}
    (known : before.nameOf id = some name) : after.nameOf id = some name := by
  unfold Model.nameOf at *
  rw [← List.getElem?_map] at *
  exact getElem?_of_isPrefix grows.typeNames known

theorem nodeOf_eq_headers (model : Model) (id : MethodId) :
    model.nodeOf id = (model.methods.map (·.header))[id]?.bind (·.origin.node?) := by
  rw [nodeOf, List.getElem?_map]
  cases model.methods[id]? <;> rfl

/-- Methods keep their declarations. -/
theorem Grows.nodeOf (grows : Grows before after) {node : Nat}
    (known : before.nodeOf id = some node) : after.nodeOf id = some node := by
  rw [nodeOf_eq_headers] at *
  obtain ⟨header, found, declared⟩ := Option.bind_eq_some_iff.mp known
  rw [getElem?_of_isPrefix grows.headers found]
  exact declared

/-- A type is found under its name. -/
theorem nameOf_intern (model : Model) (name : String) :
    (model.intern name).2.nameOf (model.intern name).1 = some name := by
  rw [intern]
  split
  · next id found =>
      obtain ⟨inside, named, _⟩ := List.findIdx?_eq_some_iff_getElem.mp found
      simpa [nameOf, List.getElem?_eq_getElem inside] using named
  · simp [nameOf]

theorem entriesOf_append (front back : List Method) (node : Nat)
    (methods : model.methods = front ++ back) :
    model.entriesOf node =
      (front.filter fun method => method.origin.node? = some node).flatMap Method.entries ++
        (back.filter fun method => method.origin.node? = some node).flatMap Method.entries := by
  rw [entriesOf, methods, List.filter_append, List.flatMap_append]

theorem Registers.entriesOf (registers : Registers before after) (node : Nat) :
    after.entriesOf node = before.entriesOf node := by
  obtain ⟨added, appended, empty⟩ := registers.methods
  have silent : (added.filter fun method => method.origin.node? = some node).flatMap
      Method.entries = [] := by
    rw [List.flatMap_eq_nil_iff]
    intro method member
    simp [Method.entries, empty method (List.mem_filter.mp member).1]
  rw [entriesOf_append _ _ node appended, silent, List.append_nil]
  rfl

/-- Only the declarations and the entries of the methods count. -/
theorem entriesOf_eq_map (model : Model) (node : Nat) :
    model.entriesOf node =
      ((model.methods.map fun method => (method.origin.node?, method.entries)).filter
        fun entry => entry.1 = some node).flatMap (·.2) := by
  rw [entriesOf, List.filter_map, List.flatMap_map]
  rfl

/-- The end of a scope is no entry. -/
theorem entriesOf_addStatement_closeScope (model : Model) (id : MethodId) (node : Nat) :
    (model.addStatement id .closeScope).entriesOf node = model.entriesOf node := by
  have same : (model.addStatement id .closeScope).methods.map
      (fun method => (method.origin.node?, method.entries)) =
        model.methods.map fun method => (method.origin.node?, method.entries) := by
    refine map_modify_of_eq (fun method : Method => (method.origin.node?, method.entries)) ?_
      model.methods id
    intro method
    simp [Method.entries, Statement.closes]
  rw [entriesOf_eq_map, same, ← entriesOf_eq_map]

theorem declaredNodes_addStatement (model : Model) (id : MethodId) (statement : Statement) :
    (model.addStatement id statement).declaredNodes = model.declaredNodes := by
  have same : (model.addStatement id statement).methods.map (fun method => method.origin.node?) =
      model.methods.map fun method => method.origin.node? := by
    refine map_modify_of_eq (fun method : Method => method.origin.node?) ?_ model.methods id
    intro method
    rfl
  have read (model : Model) : model.declaredNodes =
      (model.methods.map fun method => method.origin.node?).filterMap fun node => node := by
    rw [List.filterMap_map]
    rfl
  rw [read, same, ← read]

/-- A statement is added in place, between the methods before and after. -/
theorem addStatement_methods {method : Method} (found : model.methods[id]? = some method)
    (statement : Statement) :
    ∃ front back, model.methods = front ++ method :: back ∧
      (model.addStatement id statement).methods =
        front ++ { method with statements := method.statements ++ [statement] } :: back := by
  obtain ⟨inside, rfl⟩ := List.getElem?_eq_some_iff.mp found
  refine ⟨model.methods.take id, model.methods.drop (id + 1), by simp, ?_⟩
  exact List.modify_eq_take_cons_drop inside

theorem filter_declared_eq_nil {methods : List Method} {node : Nat}
    (absent : node ∉ methods.filterMap (·.origin.node?)) :
    (methods.filter fun method => method.origin.node? = some node) = [] := by
  rw [List.filter_eq_nil_iff]
  intro method member same
  exact absent (List.mem_filterMap.mpr ⟨method, member, by simpa using same⟩)

/-- Among distinct declarations, a node is declared once. -/
theorem not_mem_of_split (distinct : model.declaredNodes.Nodup) {front back : List Method}
    {method : Method} (split : model.methods = front ++ method :: back) {node : Nat}
    (origin : method.origin.node? = some node) :
    node ∉ front.filterMap (·.origin.node?) ∧ node ∉ back.filterMap (·.origin.node?) := by
  rw [declaredNodes, split, List.filterMap_append, List.filterMap_cons, origin,
    List.nodup_append] at distinct
  obtain ⟨_, rest, apart⟩ := distinct
  exact ⟨fun member => apart node member node List.mem_cons_self rfl, (List.nodup_cons.mp rest).1⟩

/-- Where declarations are distinct, a statement is an entry of the one node that
its method is declared at. -/
theorem entriesOf_addStatement (distinct : model.declaredNodes.Nodup) {node : Nat}
    (declared : model.nodeOf id = some node) {statement : Statement}
    (entry : statement.closes = false) (other : Nat) :
    (model.addStatement id statement).entriesOf other =
      model.entriesOf other ++ if node = other then [statement] else [] := by
  obtain ⟨method, found, origin⟩ := Option.bind_eq_some_iff.mp declared
  obtain ⟨front, back, before, after⟩ := addStatement_methods found statement
  -- No later method is declared at the node, so the statement is its last entry.
  have later := filter_declared_eq_nil (not_mem_of_split distinct before origin).2
  rw [entriesOf_append _ _ other before, entriesOf_append _ _ other after]
  by_cases same : node = other
  · subst same
    simp [origin, later, Method.entries, entry]
  · simp [origin, same]

/-- What a method says is what its declaration says, where declarations are
distinct. -/
theorem entriesOf_of_mem (distinct : model.declaredNodes.Nodup) {method : Method} {node : Nat}
    (member : method ∈ model.methods) (origin : method.origin.node? = some node) :
    model.entriesOf node = method.entries := by
  obtain ⟨front, back, split⟩ := List.append_of_mem member
  obtain ⟨earlier, later⟩ := not_mem_of_split distinct split origin
  rw [entriesOf_append _ _ node split]
  simp [origin, filter_declared_eq_nil earlier, filter_declared_eq_nil later]

end Model

end JavaStructure
