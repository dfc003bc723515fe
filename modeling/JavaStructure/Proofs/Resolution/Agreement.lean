/-
# Tables that say the same

Names and classes are looked up in lists in which the first row of a key counts, so lists of
different order can say the same. Whatever is asked of two such tables has the same answer:
qualified names, members along chains of superclasses, types of expressions and, at the end,
all that the walk over a unit notes. How a table was filled is not the subject of this module.
-/

import JavaStructure.Proofs.Resolution.Condensed

namespace JavaStructure

open Syntax (Node Kind Role)

namespace Names.Qualifier

/-- Two qualifiers have the same environment and find the same declared classes. -/
structure Agrees (first second : Qualifier) : Prop where
  names : first.names = second.names
  lookup : ∀ name, first.declared.lookup name = second.declared.lookup name

namespace Agrees

variable {first second : Qualifier} (agrees : Agrees first second)

include agrees

theorem knows_eq : first.knows = second.knows := by
  funext name
  rw [knows, knows, agrees.lookup, agrees.names]

theorem qualifyName_eq : first.qualifyName = second.qualifyName := by
  funext name
  rw [qualifyName, qualifyName, agrees.lookup, agrees.names]

theorem qualify_eq : first.qualify = second.qualify := by
  funext text
  rw [qualify, qualify, agrees.qualifyName_eq]

theorem qualifyPiece_eq : first.qualifyPiece = second.qualifyPiece := by
  funext piece
  cases piece with
  | mark c => rfl
  | name text => simp only [qualifyPiece, agrees.qualify_eq]

theorem qualifyText_eq : first.qualifyText = second.qualifyText := by
  funext text
  rw [qualifyText, qualifyText, agrees.qualifyPiece_eq]

theorem addMember_eq : ClassInfo.addMember first = ClassInfo.addMember second := by
  funext info member
  unfold ClassInfo.addMember ClassInfo.addSuperclass
  rw [agrees.qualify_eq, agrees.qualifyText_eq]

/-- They give the declarations of a tree the same members. -/
theorem classesIn_eq : classesIn first = classesIn second := by
  have row : Resolution.classRow? first = Resolution.classRow? second := by
    funext node
    rw [Resolution.classRow?, Resolution.classRow?, ClassInfo.ofChildren, ClassInfo.ofChildren,
      agrees.names, agrees.addMember_eq]
  funext node
  rw [Resolution.classesIn_eq, Resolution.classesIn_eq, row]

end Agrees

end Names.Qualifier

namespace ClassTable

/-- Two tables find the same classes and are equally long. -/
structure Agrees (first second : ClassTable) : Prop where
  lookup : ∀ name, first.lookup name = second.lookup name
  length : first.length = second.length

namespace Agrees

variable {first second : ClassTable} (agrees : Agrees first second)

include agrees

theorem superclass?_eq : first.superclass? = second.superclass? := by
  funext name
  rw [superclass?, superclass?, agrees.lookup]

theorem extendChain_eq (bound : Nat) (chain : List String) (current : String) :
    first.extendChain bound chain current = second.extendChain bound chain current := by
  induction bound generalizing chain current with
  | zero => rfl
  | succ bound ih => simp only [extendChain, agrees.superclass?_eq, ih]

theorem chain_eq : first.chain = second.chain := by
  funext name
  rw [chain, chain, agrees.length, agrees.extendChain_eq]

theorem superclassOf_eq : first.superclassOf = second.superclassOf := by
  funext name
  rw [superclassOf, superclassOf, agrees.superclass?_eq]

theorem inheritedField?_eq : first.inheritedField? = second.inheritedField? := by
  funext owner name
  simp only [inheritedField?, ownField?, agrees.chain_eq, agrees.lookup]

theorem declaresMethod_eq : first.declaresMethod = second.declaresMethod := by
  funext owner name
  rw [declaresMethod, declaresMethod, agrees.lookup]

theorem returnType?_eq : first.returnType? = second.returnType? := by
  funext owner name
  simp only [returnType?, agrees.chain_eq, agrees.lookup]

theorem allFields_eq : first.allFields = second.allFields := by
  funext owner
  simp only [allFields, agrees.chain_eq, agrees.lookup]

end Agrees

end ClassTable

namespace Resolution

namespace Known

/-- The tables of two units say the same. -/
structure Agrees (first second : Known) : Prop where
  qualifier : first.qualifier.Agrees second.qualifier
  classes : first.classes.Agrees second.classes

namespace Agrees

variable {first second : Known}

/-- The receiver of a call has the type that it has as an expression. -/
theorem receiverType?_congr {place : Place} {nodes : List Node}
    (each : ∀ node ∈ nodes, first.expressionType? place node = second.expressionType? place node) :
    first.receiverType? place nodes = second.receiverType? place nodes := by
  induction nodes with
  | nil => rfl
  | cons node rest ih =>
      obtain ⟨own, later⟩ := List.forall_mem_cons.mp each
      rw [receiverType?, receiverType?, own, ih later]

/-- Children are visited one after the other. -/
theorem visitChildren_congr {children : List Node}
    (each : ∀ child ∈ children, ∀ walk, Walk.visit first walk child = Walk.visit second walk child)
    (parent : Node) (walk : Walk) :
    Walk.visitChildren first parent walk children =
      Walk.visitChildren second parent walk children := by
  induction children generalizing walk with
  | nil => rfl
  | cons child rest ih =>
      obtain ⟨own, later⟩ := List.forall_mem_cons.mp each
      have visited : Walk.visitChild first parent walk child =
          Walk.visitChild second parent walk child := by
        rw [Walk.visitChild, Walk.visitChild, own]
      rw [Walk.visitChildren_cons, Walk.visitChildren_cons, visited, ih later]

variable (agrees : Agrees first second)

include agrees

theorem findField?_eq : first.findField? = second.findField? := by
  funext place name
  rw [findField?, findField?, agrees.classes.inheritedField?_eq]

theorem scopeAt_eq : first.scopeAt = second.scopeAt := by
  funext place
  rw [scopeAt, scopeAt, agrees.classes.allFields_eq]

theorem looksLikeType_eq : first.looksLikeType = second.looksLikeType := by
  funext name
  rw [looksLikeType, looksLikeType, agrees.qualifier.knows_eq]

theorem implicitReceiver?_eq : first.implicitReceiver? = second.implicitReceiver? := by
  funext place select name
  simp only [implicitReceiver?, agrees.classes.superclassOf_eq, agrees.classes.chain_eq,
    agrees.classes.declaresMethod_eq, agrees.classes.superclass?_eq]

theorem nameType?_eq : first.nameType? = second.nameType? := by
  funext place name
  simp only [nameType?, agrees.findField?_eq, agrees.looksLikeType_eq, agrees.qualifier.qualify_eq]

theorem memberType?_eq : first.memberType? = second.memberType? := by
  funext owner text
  simp only [memberType?, fieldType?, agrees.classes.inheritedField?_eq]

/-- Expressions have the same types. -/
theorem expressionType?_eq (place : Place) (node : Node) :
    first.expressionType? place node = second.expressionType? place node := by
  induction node using Node.inductionOnChildren with
  | step node ih =>
      have receiver := receiverType?_congr ih
      have inner :
          first.firstType? place node.children = second.firstType? place node.children := by
        cases children : node.children with
        | nil => rfl
        | cons child rest => exact ih child (by simp [children])
      obtain ⟨id, kind, role, text, line, children⟩ := node
      cases kind with
      | identifier name typePosition =>
          cases typePosition <;>
            simp only [expressionType?, agrees.nameType?_eq, agrees.qualifier.qualify_eq]
      | invocation select =>
          simp only [expressionType?, receiver, agrees.implicitReceiver?_eq,
            agrees.classes.returnType?_eq]
      | creation => simp only [expressionType?, agrees.qualifier.qualify_eq]
      | memberSelect => simp only [expressionType?, receiver, agrees.memberType?_eq]
      | superRef => simp only [expressionType?, agrees.classes.superclassOf_eq]
      | other rule =>
          rw [expressionType?_of_other, expressionType?_of_other, inner,
            agrees.qualifier.qualify_eq]
      | _ => simp only [expressionType?]

theorem declaredType_eq : first.declaredType = second.declaredType := by
  funext place node
  have types : first.expressionType? place = second.expressionType? place :=
    funext (agrees.expressionType?_eq place)
  rw [declaredType, declaredType, types, agrees.qualifier.qualifyText_eq]

theorem typeSymbol_eq : first.typeSymbol = second.typeSymbol := by
  funext name
  rw [typeSymbol, typeSymbol, agrees.qualifier.qualify_eq]

theorem nameSymbol?_eq : first.nameSymbol? = second.nameSymbol? := by
  funext place name
  simp only [nameSymbol?, agrees.findField?_eq, agrees.looksLikeType_eq, agrees.typeSymbol_eq]

theorem callSymbol_eq : Walk.callSymbol first = Walk.callSymbol second := by
  funext place node select
  have receiver := receiverType?_congr fun child (_ : child ∈ node.children) =>
    agrees.expressionType?_eq place child
  simp only [Walk.callSymbol, invokedType?, receiver, agrees.implicitReceiver?_eq]

theorem parameterizedSymbol_eq :
    Walk.parameterizedSymbol first = Walk.parameterizedSymbol second := by
  funext text
  rw [Walk.parameterizedSymbol, Walk.parameterizedSymbol, agrees.qualifier.qualify_eq]

theorem resolveName_eq (walk : Walk) (id : Nat) (name : String) (typePosition : Bool) :
    walk.resolveName first id name typePosition = walk.resolveName second id name typePosition := by
  simp only [Walk.resolveName, Walk.noteScope, Walk.refresh, agrees.typeSymbol_eq,
    agrees.nameSymbol?_eq, agrees.scopeAt_eq]

theorem enter_eq (walk : Walk) (node : Node) : walk.enter first node = walk.enter second node := by
  simp only [Walk.enter, agrees.qualifier.names, agrees.parameterizedSymbol_eq,
    agrees.callSymbol_eq]

theorem leave_eq (node : Node) (visited : Walk) :
    Walk.leave first node visited = Walk.leave second node visited := by
  simp only [Walk.leave, Walk.declare, agrees.declaredType_eq]

/-- The walk over a tree notes the same. -/
theorem visit_eq (node : Node) (walk : Walk) :
    Walk.visit first walk node = Walk.visit second walk node := by
  induction node using Node.inductionOnChildren generalizing walk with
  | step node ih =>
      cases isIdentifier : node.kind.isIdentifier with
      | true =>
          obtain ⟨name, typePosition, kind⟩ := Kind.exists_of_isIdentifier isIdentifier
          rw [Walk.visit_of_identifier first walk kind, Walk.visit_of_identifier second walk kind,
            agrees.resolveName_eq]
      | false =>
          rw [Walk.visit_eq first walk isIdentifier, Walk.visit_eq second walk isIdentifier,
            agrees.enter_eq, visitChildren_congr ih, agrees.leave_eq]

end Agrees

end Known

end Resolution

end JavaStructure
