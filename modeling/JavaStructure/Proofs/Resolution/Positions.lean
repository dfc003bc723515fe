/-
# Ids as positions

The lowering of a unit gives every node its position in pre-order for an id. So the tables of
a resolution, which are looked up by id, mix up no two nodes: the answers about a node are
those of its own place in the tree.
-/

import JavaStructure.Proofs.Grammar.Lowering
import JavaStructure.Proofs.Resolution.Notes
import JavaStructure.Resolution

namespace JavaStructure.Resolution

open Syntax (Node Leads Trail)

/-- The answers about a node of a unit are those of its own place: what is noted at the end of
the trail that leads to it, or, for the name of a call, the symbol of the method. -/
inductive AnswersAtPlace (resolver : Resolver) (known : Known) (unit node : Node) : Prop
  | reached {trail : Trail} (leads : Leads unit trail node)
      (symbol : resolver.symbol node = Walk.symbolAt? known trail node)
      (scope : resolver.scope node = Walk.scopeAt? known trail node)
  | callName {trail : Trail} {call : Node} (leads : Leads unit trail call)
      (member : node ∈ call.children) (named : call.isCallName node = true)
      (symbol : resolver.symbol node = some { kind := .method, name := Walk.calledMethod call })
      (scope : resolver.scope node = none)
  | belowCallName {trail : Trail} {call name : Node} (leads : Leads unit trail call)
      (member : name ∈ call.children) (named : call.isCallName name = true)
      (below : node ∈ Node.preorder.preorderAll name.children)
      (symbol : resolver.symbol node = none) (scope : resolver.scope node = none)

/-- In a regular tree with distinct ids no node is given the symbol or the scope of another. -/
theorem ofUnit_answersAtPlace {unit node : Node} (lineCount : Nat) (context : List Node)
    (regular : unit.AllRegular) (distinct : unit.HasDistinctIds) (below : node ∈ unit.preorder) :
    AnswersAtPlace (ofUnit unit lineCount context).toResolver (knownIn unit context) unit node := by
  have start : Trail.IsOpen [] := fun _ inside => nomatch inside
  rcases Leads.root.exists_open_of_mem start below with
    ⟨trail, leads, opened⟩ |
      ⟨trail, outer, leads, opened, ⟨name, member, named, within⟩ | ⟨isIdentifier, within⟩⟩
  · exact .reached leads (Walk.visit_symbol _ distinct leads opened)
      (Walk.visit_scope _ distinct leads opened)
  · rw [Node.preorder_eq] at within
    rcases List.mem_cons.mp within with rfl | deeper
    · obtain ⟨symbol, scope⟩ :=
        Walk.visit_of_callName (knownIn unit context) distinct leads opened member named
      exact .callName leads member named symbol (by simp [toResolver, ofUnit, scope])
    · obtain ⟨symbol, scope⟩ :=
        Walk.visit_below_callName (knownIn unit context) distinct leads opened member named deeper
      exact .belowCallName leads member named deeper symbol (by simp [toResolver, ofUnit, scope])
  · have leaf := (regular outer leads.mem_preorder).leaf isIdentifier
    simp [leaf, Node.preorder.preorderAll] at within

/-- The ids of a lowered unit are the positions of its nodes in pre-order, whatever the parser
gave, and the answers about a node are those of its own place. -/
theorem lowered_ids_arePositions (form : Grammar.ChainForm) (root : Grammar.Node)
    (lineCount : Nat) (context : List Node) :
    let unit := root.lowerUnit form
    let resolver := (ofUnit unit lineCount context).toResolver
    unit.preorder.map (·.id) = List.range unit.size ∧
      unit.HasDistinctIds ∧
      ∀ node ∈ unit.preorder, AnswersAtPlace resolver (knownIn unit context) unit node := by
  intro unit resolver
  have distinct : unit.HasDistinctIds := root.lowerUnit_hasDistinctIds form
  exact ⟨root.lowerUnit_ids form, distinct, fun node below =>
    ofUnit_answersAtPlace lineCount context (root.lowerUnit_regular form) distinct below⟩

/-- The field declaration `Gate front, back;`. -/
def gatesRoot : Grammar.Node :=
  .bare "program" none ""
    [.bare "field_declaration" none "Gate front, back;"
      [.bare "type_identifier" (some "type") "Gate" [],
        .bare "variable_declarator" (some "declarator") "front"
          [.bare "identifier" (some "name") "front" []],
        .bare "variable_declarator" (some "declarator") "back"
          [.bare "identifier" (some "name") "back" []]]]

/-- The type that both variables share is lowered for each of them, under ids of their own. -/
theorem gatesUnit_ids_arePositions :
    let unit := gatesRoot.lowerUnit .flat
    unit.preorder.map (fun node => (node.id, node.text)) =
        [(0, ""), (1, "front"), (2, "Gate"), (3, "back"), (4, "Gate")] ∧
      AnswersAtPlace (ofUnit unit 1 []).toResolver (knownIn unit []) unit
        ⟨4, .identifier "Gate" true, some .type, "Gate", 1, []⟩ := by
  have last : (gatesRoot.lowerUnit .flat).preorder[4]? =
      some ⟨4, .identifier "Gate" true, some .type, "Gate", 1, []⟩ := rfl
  have answers := (lowered_ids_arePositions .flat gatesRoot 1 []).2.2
  exact ⟨rfl, answers _ (List.mem_of_getElem? last)⟩

end JavaStructure.Resolution
