/-
# Trees that read the same

A change of trees is faithful if every node shows as before and has its own children, each of
them changed. Closed nodes may have any others, as long as they are no expressions with a type.
Whatever is read off a node and a few nodes below it is then read off the changed node as well:
the environment of a unit, the members of a class, the types of expressions.
-/

import JavaStructure.Proofs.Resolution.Fields
import JavaStructure.Proofs.Resolution.Visit
import Mathlib.Data.Nat.Init

namespace JavaStructure.Resolution

open Syntax (Node Kind Role)
open Names (Environment Qualifier)

/-- The row of a class declaration in the list of declared names. -/
def nameRow? (names : Environment) (node : Node) : Option (String × String) :=
  (className? names node).map fun qualified => (node.name?.getD "", qualified)

/-- The names declared in a tree are those of its classes, latest first. -/
theorem declaredIn_eq (names : Environment) (node : Node) :
    declaredIn names node = (node.preorder.filterMap (nameRow? names)).reverse := by
  have among (nodes : List Node) :
      declaredIn.declaredAmong names nodes = nodes.reverse.flatMap (declaredIn names) := by
    induction nodes with
    | nil => rfl
    | cons node rest ih => simp [declaredIn.declaredAmong, ih]
  refine Node.collected_eq (fun node => ?_) node
  rw [← among]
  obtain ⟨id, kind, role, text, line, children⟩ := node
  cases kind with
  | classDecl name flavor =>
      rw [declaredIn]
      simp only [nameRow?, className?]
      split <;> rfl
  | _ => rfl

/-- A construct is never an expression with a type. -/
def IsUntyped (kind : Kind) : Prop :=
  ∀ (known : Known) (place : Place) (node : Node), node.kind = kind →
    known.expressionType? place node = none

/-- Of the constructs without a kind of their own, only a few have a type. -/
theorem Known.expressionType?_of_other (known : Known) (place : Place) (id : Nat) (rule : String)
    (role : Option Role) (text : String) (line : Nat) (children : List Node) :
    known.expressionType? place ⟨id, .other rule, role, text, line, children⟩ =
      if rule = "string_literal" ∨ rule = "text_block" then some "java.lang.String"
      else if rule = "parenthesized_expression" then known.firstType? place children
      else if rule = "cast_expression" then
        children.head?.map fun type => known.qualifier.qualify type.text
      else none := by
  split
  · next literal => rcases literal with rfl | rfl <;> rfl
  · next noLiteral =>
      obtain ⟨noString, noBlock⟩ := not_or.mp noLiteral
      split
      · next parenthesized => subst parenthesized; rfl
      · next noParentheses =>
          split
          · next cast => subst cast; rfl
          · next noCast =>
              rw [expressionType?]
              all_goals
                intros
                injections
                try contradiction

/-- Nodes show as before, and but for closed nodes, which have no type, they have their own
children, changed one by one. -/
structure IsFaithful (closed : Node → Prop) (change : Node → Node) : Prop where
  kind : ∀ node, (change node).kind = node.kind
  role : ∀ node, (change node).role = node.role
  text : ∀ node, (change node).text = node.text
  children : ∀ node, ¬ closed node → (change node).children = node.children.map change
  untyped : ∀ node, closed node → IsUntyped node.kind

namespace IsFaithful

variable {closed : Node → Prop} {change : Node → Node} {node member : Node}

variable (faithful : IsFaithful closed change)

include faithful

theorem name? (node : Node) : (change node).name? = node.name? := by
  rw [Node.name?, Node.name?, faithful.kind]

theorem childAs (opened : ¬ closed node) (role : Role) :
    (change node).childAs role = (node.childAs role).map change := by
  rw [Node.childAs, faithful.children node opened, List.find?_map, Node.childAs]
  simp only [Function.comp_def, faithful.role]

theorem childText (opened : ¬ closed node) (role : Role) :
    ((change node).childAs role).map (·.text) = (node.childAs role).map (·.text) := by
  rw [faithful.childAs opened, Option.map_map]
  simp only [Function.comp_def, faithful.text]

theorem isCallName (parent child : Node) :
    (change parent).isCallName (change child) = parent.isCallName child := by
  rw [Node.isCallName, Node.isCallName, faithful.kind, faithful.role]

theorem className? (names : Environment) (node : Node) :
    className? names (change node) = Resolution.className? names node := by
  rw [Resolution.className?, Resolution.className?, faithful.kind]

theorem nameRow? (names : Environment) (node : Node) :
    nameRow? names (change node) = Resolution.nameRow? names node := by
  rw [Resolution.nameRow?, Resolution.nameRow?, faithful.className?, faithful.name?]

/-- The package and the imports of a unit are read off its own children. -/
theorem environment (opened : ¬ closed node) :
    Environment.ofUnit (change node) = Environment.ofUnit node := by
  have tested (kind : Kind) : (fun child : Node => decide (child.kind = kind)) ∘ change =
      fun child => decide (child.kind = kind) := by
    funext child
    rw [Function.comp_apply, faithful.kind]
  have package : Names.packageOf (change node) = Names.packageOf node := by
    rw [Names.packageOf, Names.packageOf, faithful.children node opened, List.find?_map, tested]
    cases node.children.find? fun child => child.kind = .packageDecl with
    | none => rfl
    | some declaration => simp [faithful.text]
  calc Environment.ofUnit (change node)
    _ = ((node.children.filter fun child => child.kind = .importDecl).map change).foldl
        (fun names declaration => names.addImport declaration.text)
        { packageName := Names.packageOf node } := by
      rw [Environment.ofUnit, package, faithful.children node opened, List.filter_map, tested]
    _ = (node.children.filter fun child => child.kind = .importDecl).foldl
        (fun names declaration => names.addImport declaration.text)
        { packageName := Names.packageOf node } := by
      rw [List.foldl_map]
      simp only [faithful.text]
    _ = Environment.ofUnit node := rfl

/-- Of a member its name, its type and the type that it returns are read. -/
theorem addMember (q : Qualifier) (info : ClassInfo)
    (declared : ∀ name, member.kind = .variableDecl name →
      ((change member).childAs .type).map (·.text) = (member.childAs .type).map (·.text))
    (returned : ∀ name, member.kind = .methodDecl name →
      ((change member).childAs .returnType).map (·.text) =
        (member.childAs .returnType).map (·.text)) :
    info.addMember q (change member) = info.addMember q member := by
  have superclass (info : ClassInfo) :
      info.addSuperclass q (change member) = info.addSuperclass q member := by
    simp only [ClassInfo.addSuperclass, faithful.role, faithful.text]
  rw [ClassInfo.addMember, ClassInfo.addMember, faithful.kind, faithful.role]
  cases kind : member.kind with
  | variableDecl name =>
      have texts := declared name kind
      dsimp only
      rw [superclass]
      cases before : member.childAs .type <;> cases after : (change member).childAs .type <;>
        simp_all
  | methodDecl name =>
      have texts := congrArg (Option.map q.qualify) (returned name kind)
      simp only [Option.map_map, Function.comp_def] at texts
      simp only [texts]
  | _ => exact superclass info

/-- The row of a class is read off its own children. -/
theorem classRow? (q : Qualifier) (opened : ∀ name, Resolution.className? q.names node = some name →
      ¬ closed node)
    (members : ∀ member ∈ node.children, ∀ info : ClassInfo,
      info.addMember q (change member) = info.addMember q member) :
    classRow? q (change node) = Resolution.classRow? q node := by
  rw [Resolution.classRow?, Resolution.classRow?, faithful.className?]
  cases named : Resolution.className? q.names node with
  | none => rfl
  | some name =>
      rw [Option.map_some, Option.map_some, ClassInfo.ofChildren, ClassInfo.ofChildren,
        faithful.children node (opened name named), List.foldl_map]
      exact congrArg (fun info => some (name, info)) (List.foldl_ext _ _ _ fun info member inside =>
        members member inside info)

theorem methodName (opened : ¬ closed node) (select : String) :
    methodName (change node) select = Resolution.methodName node select := by
  rw [Resolution.methodName, Resolution.methodName, faithful.childAs opened, Option.bind_map]
  simp only [Function.comp_def, faithful.name?]

theorem calledMethod (opened : ¬ closed node) :
    Walk.calledMethod (change node) = Walk.calledMethod node := by
  rw [Walk.calledMethod, Walk.calledMethod, faithful.kind]
  split
  · exact faithful.methodName opened _
  · rfl

section Expressions

variable (known : Known) (place : Place)

theorem receiverType? {nodes : List Node}
    (each : ∀ node ∈ nodes, known.expressionType? place (change node) =
      known.expressionType? place node) :
    known.receiverType? place (nodes.map change) = known.receiverType? place nodes := by
  induction nodes with
  | nil => rfl
  | cons node rest ih =>
      obtain ⟨own, later⟩ := List.forall_mem_cons.mp each
      rw [List.map_cons, Known.receiverType?, Known.receiverType?, faithful.role, own, ih later]

/-- Expressions have the same types. -/
theorem expressionType? (node : Node) :
    known.expressionType? place (change node) = known.expressionType? place node := by
  induction node using Node.inductionOnChildren with
  | step node ih =>
      by_cases closed : closed node
      · have untyped := faithful.untyped node closed
        rw [untyped known place _ (faithful.kind node), untyped known place node rfl]
      · have receiver := faithful.receiverType? known place ih
        have first : known.firstType? place (node.children.map change) =
            known.firstType? place node.children := by
          cases children : node.children with
          | nil => rfl
          | cons child rest => exact ih child (by simp [children])
        have name := faithful.methodName closed
        have type := faithful.childText closed .identifier
        have head : (node.children.map change).head?.map (·.text) =
            node.children.head?.map (·.text) := by
          rw [List.head?_map, Option.map_map]
          simp only [Function.comp_def, faithful.text]
        have kind := faithful.kind node
        have text := faithful.text node
        have children := faithful.children node closed
        generalize change node = changed at name type kind text children ⊢
        obtain ⟨idToo, kindToo, roleToo, textToo, lineToo, childrenToo⟩ := changed
        obtain rfl : kindToo = node.kind := kind
        obtain rfl : textToo = node.text := text
        obtain rfl : childrenToo = node.children.map change := children
        obtain ⟨id, kind, role, text, line, children⟩ := node
        cases kind with
        | identifier name typePosition => cases typePosition <;> simp only [Known.expressionType?]
        | invocation select => simp only [Known.expressionType?, receiver, name]
        | creation =>
            have types := congrArg (Option.map fun text =>
              known.qualifier.qualify (Text.unspaced text)) type
            simp only [Option.map_map, Function.comp_def] at types
            simp only [Known.expressionType?, types]
        | memberSelect => simp only [Known.expressionType?, receiver]
        | other rule =>
            have heads := congrArg (Option.map known.qualifier.qualify) head
            simp only [Option.map_map, Function.comp_def] at heads
            rw [Known.expressionType?_of_other, Known.expressionType?_of_other, first, heads]
        | _ => simp only [Known.expressionType?]

theorem declaredType (opened : ¬ closed node) :
    known.declaredType place (change node) = known.declaredType place node := by
  rw [Known.declaredType, Known.declaredType, faithful.childAs opened, faithful.childAs opened]
  cases node.childAs .type with
  | none => rfl
  | some type =>
      cases node.childAs .initialValue with
      | none => simp [faithful.text]
      | some value => simp [faithful.text, faithful.expressionType?]

theorem callSymbol (opened : ¬ closed node) (select : String) :
    Walk.callSymbol known place (change node) select =
      Walk.callSymbol known place node select := by
  have receiver := faithful.receiverType? known place fun child (_ : child ∈ node.children) =>
    faithful.expressionType? known place child
  have invoked : known.invokedType? place (change node) select =
      known.invokedType? place node select := by
    rw [Known.invokedType?, Known.invokedType?, faithful.children node opened, receiver,
      faithful.methodName opened]
  rw [Walk.callSymbol, Walk.callSymbol, invoked, faithful.methodName opened]

end Expressions

end IsFaithful

end JavaStructure.Resolution
