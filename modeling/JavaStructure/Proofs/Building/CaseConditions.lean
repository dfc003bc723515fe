/-
# The condition of a case

The guard of a case collects the labels since the last exit that its switch owns.
A break or a return ends the case at once, or with the next label where it stands
in a branch; either way the next label starts the condition anew. The two are told
apart by the scopes and not by the condition, so that one value carries the proof:
the condition that the next label continues.
-/

import JavaStructure.Proofs.Building.Nesting
import Mathlib.Data.List.DropRight

namespace JavaStructure

open Syntax (Node Kind)

theorem Syntax.Kind.isCase_iff {kind : Kind} :
    kind.isCase = true ↔ ∃ label hasBody arrow, kind = .caseLabel label hasBody arrow := by
  cases kind <;> simp [Kind.isCase]

namespace Syntax.Node

/-- Whether a visit of a node ends the current case of the switch around it: by
the arrow of a label, by a return, or by a break that no loop below the switch
encloses. Switches and bodies below keep their exits to themselves. -/
def endsCase (inLoop : Bool) : Node → Bool
  | ⟨_, kind, _, _, _, children⟩ =>
      match kind with
      | .breakExit => !inLoop
      | .returnExit => true
      | .caseLabel _ _ arrow => arrow || anyEndsCase inLoop children
      | .switch | .lambda | .classDecl _ _ | .methodDecl _ => false
      | .packageDecl | .importDecl | .identifier _ _ => false
      | kind => anyEndsCase (inLoop || kind.isLoop) children
where
  /-- Whether the visits of some nodes end the case. -/
  anyEndsCase (inLoop : Bool) : List Node → Bool
    | [] => false
    | node :: rest => node.endsCase inLoop || anyEndsCase inLoop rest

/-- The label of a case, the default one where there is no text. -/
def caseLabel? (node : Node) : Option String :=
  match node.kind with
  | .caseLabel label _ _ => some (label.getD defaultLabel)
  | _ => none

theorem caseLabel?_of_kind {node : Node} {label : Option String} {hasBody arrow : Bool}
    (kind : node.kind = .caseLabel label hasBody arrow) :
    node.caseLabel? = some (label.getD defaultLabel) := by
  simp [caseLabel?, kind]

theorem caseLabel?_of_isCase_eq_false {node : Node} (notCase : node.kind.isCase = false) :
    node.caseLabel? = none := by
  rw [caseLabel?]
  cases kind : node.kind <;> simp_all [Kind.isCase]

theorem anyEndsCase_eq_any (inLoop : Bool) (nodes : List Node) :
    endsCase.anyEndsCase inLoop nodes = nodes.any (endsCase inLoop) := by
  induction nodes with
  | nil => rfl
  | cons node rest ih => simp [endsCase.anyEndsCase, ih]

theorem endsCase_caseLabel {node : Node} {label : Option String} {hasBody arrow : Bool}
    (kind : node.kind = .caseLabel label hasBody arrow) (inLoop : Bool) :
    node.endsCase inLoop = (arrow || node.children.any (endsCase inLoop)) := by
  obtain ⟨id, _, role, text, line, children⟩ := node
  subst kind
  simp [endsCase, anyEndsCase_eq_any]

theorem endsCase_returnExit {node : Node} (kind : node.kind = .returnExit) (inLoop : Bool) :
    node.endsCase inLoop = true := by
  obtain ⟨id, _, role, text, line, children⟩ := node
  subst kind
  rfl

theorem endsCase_of_isEnclosing {node : Node} (enclosing : node.kind.isEnclosing = true)
    (inLoop : Bool) : node.endsCase inLoop = false := by
  obtain ⟨id, kind, role, text, line, children⟩ := node
  cases kind <;> simp_all [endsCase, Kind.isEnclosing]

/-- All other nodes end the case where their children do. -/
theorem endsCase_eq_any {node : Node} (descended : node.kind.isDescended = true)
    (notCase : node.kind.isCase = false) (notEnclosing : node.kind.isEnclosing = false)
    (notReturn : node.kind ≠ .returnExit) (inLoop : Bool) :
    node.endsCase inLoop = node.children.any (endsCase (inLoop || node.kind.isLoop)) := by
  obtain ⟨id, kind, role, text, line, children⟩ := node
  cases kind <;>
    simp_all [endsCase, anyEndsCase_eq_any, Kind.isDescended, Kind.isCase, Kind.isEnclosing,
      Kind.isLoop]

end Syntax.Node

/-- The labels, among some children of a switch, that started after the last exit. -/
def labelsSinceExit (children : List Node) : List String :=
  (children.rtakeWhile fun child => !child.endsCase false).filterMap Node.caseLabel?

theorem labelsSinceExit_concat (front : List Node) (child : Node) :
    labelsSinceExit (front ++ [child]) =
      if child.endsCase false then []
      else labelsSinceExit front ++ child.caseLabel?.toList := by
  unfold labelsSinceExit
  rw [List.rtakeWhile_concat]
  cases child.endsCase false with
  | true => rfl
  | false => cases label : child.caseLabel? <;> simp [label]

/-- The condition for one of some labels. -/
def guardText (subject : String) (labels : List String) : String :=
  "[" ++ " || ".intercalate (labels.map fun label => subject ++ " == " ++ label) ++ "]"

/-- A condition with one more term. -/
def continuedWith (condition : Option String) (term : String) : String :=
  match condition with
  | none => term
  | some condition => condition ++ " || " ++ term

/-- The terms of some labels, if there are any. -/
def joinedTerms (subject : String) (labels : List String) : Option String :=
  match labels with
  | [] => none
  | labels => some (" || ".intercalate (labels.map fun label => subject ++ " == " ++ label))

theorem joinedTerms_of_ne_nil (subject : String) {labels : List String} (nonempty : labels ≠ []) :
    joinedTerms subject labels =
      some (" || ".intercalate (labels.map fun label => subject ++ " == " ++ label)) := by
  cases labels with
  | nil => contradiction
  | cons label rest => rfl

/-- One more term is one more label. -/
theorem continuedWith_joinedTerms (subject label : String) (labels : List String) :
    some (continuedWith (joinedTerms subject labels) (subject ++ " == " ++ label)) =
      joinedTerms subject (labels ++ [label]) := by
  cases labels with
  | nil => simp [joinedTerms, continuedWith]
  | cons first rest =>
      rw [joinedTerms_of_ne_nil subject (List.cons_ne_nil first rest),
        joinedTerms_of_ne_nil subject (by simp), List.map_append,
        String.intercalate_append_of_ne_nil (by simp) (by simp)]
      simp [continuedWith]

theorem guardText_concat (subject label : String) (labels : List String) :
    guardText subject (labels ++ [label]) =
      "[" ++ continuedWith (joinedTerms subject labels) (subject ++ " == " ++ label) ++ "]" := by
  have nonempty : labels ++ [label] ≠ [] := by simp
  have joined := continuedWith_joinedTerms subject label labels
  rw [joinedTerms_of_ne_nil subject nonempty, Option.some.injEq] at joined
  rw [joined, guardText]

namespace CaseGuard

variable {guard : CaseGuard}

/-- The condition that the next label continues, if it continues one. -/
def continued (guard : CaseGuard) : Option String :=
  match guard.state with
  | .idle => none
  | .inCase _ => if guard.endPending then none else some guard.condition

@[simp]
theorem continued_endCase (guard : CaseGuard) : guard.endCase.2.continued = none := rfl

/-- An end that is put off ends the condition all the same. -/
@[simp]
theorem continued_deferEnd (guard : CaseGuard) : guard.deferEnd.continued = none := by
  unfold deferEnd continued
  cases state : guard.state <;> simp [state]

/-- A label adds its term to the condition that it continues. -/
theorem continued_startCase (guard : CaseGuard) (label : String) (hasBody : Bool) :
    (guard.startCase label hasBody).2.continued =
      some (continuedWith guard.continued (guard.term label)) := by
  obtain ⟨subject, condition, state, loopDepth, bodyDepth, endPending⟩ := guard
  cases endPending <;> cases state <;> rfl

/-- The scope of a label is opened under the whole condition, after at most one
scope is closed. -/
theorem startCase_hasBody (guard : CaseGuard) (label : String) :
    ∃ closes : List ScopeAction, (∀ action ∈ closes, action = .closeScope) ∧
      (guard.startCase label true).1 = closes ++
        [.openScope ("[" ++ continuedWith guard.continued (guard.term label) ++ "]")] := by
  obtain ⟨subject, condition, state, loopDepth, bodyDepth, endPending⟩ := guard
  cases state with
  | idle => cases endPending <;> exact ⟨[], by simp, rfl⟩
  | inCase scopeOpen =>
      cases scopeOpen with
      | false => cases endPending <;> exact ⟨[], by simp, rfl⟩
      | true => cases endPending <;> exact ⟨[.closeScope], by simp, rfl⟩

end CaseGuard

namespace Builder

variable {resolver : Resolver} {node : Node} {builder before middle after inside visited : Builder}
variable {leaving : Builder → Builder} {guard : CaseGuard} {outer : List CaseGuard} {inLoop : Bool}

/-- The condition that the next label of the innermost switch continues. -/
def continued (builder : Builder) : Option String :=
  builder.frame.switches.head?.bind CaseGuard.continued

/-- The walk is no less deep than the innermost switch, and `inLoop` says whether
a loop is open within that switch. -/
def Stands (inLoop : Bool) (builder : Builder) : Prop :=
  ∀ guard ∈ builder.frame.switches.head?,
    guard.bodyDepth ≤ builder.frame.depth ∧ guard.loopDepth ≤ builder.frame.loopDepth ∧
      (inLoop = true ↔ guard.loopDepth < builder.frame.loopDepth)

/-- What the next label continues after a visit, by whether the visit ends the
case: nothing, or what it would have continued before. -/
def Continues (ends : Bool) (before after : Builder) : Prop :=
  after.continued = if ends then none else before.continued

theorem Keeps.stands (keeps : Keeps before after) (stands : before.Stands inLoop) :
    after.Stands inLoop := by
  intro changed innermost
  cases found : before.frame.switches with
  | nil => simp [keeps.switches_nil found] at innermost
  | cons guard outer =>
      obtain ⟨kept, retained, same⟩ := keeps.switches_cons found
      obtain rfl : kept = changed := by simpa [retained] using innermost
      have bodyDepth := congrArg CaseGuard.bodyDepth same
      have loopDepth := congrArg CaseGuard.loopDepth same
      dsimp only [CaseGuard.atStart] at bodyDepth loopDepth
      rw [bodyDepth, loopDepth, keeps.depth, keeps.loopDepth]
      exact stands guard (by simp [found])

theorem Continues.of_switches_eq (switches : after.frame.switches = before.frame.switches) :
    Continues false before after := by
  simp [Continues, continued, switches]

theorem Continues.trans {first second : Bool} (front : Continues first before middle)
    (back : Continues second middle after) : Continues (first || second) before after := by
  unfold Continues at *
  rw [back, front]
  cases first <;> cases second <;> rfl

theorem endCase_continues (builder : Builder) : Continues true builder builder.endCase := by
  unfold Continues endCase continued
  split
  · next none => simp [none]
  · next guard outer innermost =>
      rw [applyAll_switches]
      simp [withGuard, withFrame]

/-- A return ends the case wherever it stands, a break only outside of loops. -/
theorem exitCase_continues (stands : builder.Stands inLoop) (isBreak : Bool) :
    Continues (!(isBreak && inLoop)) builder (builder.exitCase isBreak) := by
  unfold Continues exitCase
  split
  · next none => simp [continued, none]
  · next guard outer innermost =>
      obtain ⟨deep, loops, within⟩ := stands guard (by simp [innermost])
      have owned : (isBreak = true ∧ builder.frame.loopDepth ≠ guard.loopDepth) ↔
          (isBreak && inLoop) = true := by
        have differ : builder.frame.loopDepth ≠ guard.loopDepth ↔
            guard.loopDepth < builder.frame.loopDepth := by omega
        rw [differ, ← within, Bool.and_eq_true]
      simp only [CaseGuard.exitAt, owned]
      cases isBreak && inLoop with
      | true => simp
      | false =>
          by_cases level : builder.frame.depth = guard.bodyDepth
          · simpa [level, Continues] using endCase_continues builder
          · have deeper : guard.bodyDepth < builder.frame.depth := by omega
            simp [level, deeper, continued, withGuard, withFrame]

theorem Stands.of_frame_eq (stands : before.Stands inLoop) (frame : after.frame = before.frame) :
    after.Stands inLoop := by
  rw [Stands]
  rw [frame]
  exact stands

theorem visitLeaf_continues (leaf : node.kind.isDescended = false)
    (stands : builder.Stands inLoop) :
    Continues (node.endsCase inLoop) builder (visitLeaf resolver node builder) := by
  obtain ⟨id, kind, role, text, line, children⟩ := node
  cases kind with
  | breakExit => exact exitCase_continues stands true
  | identifier name typePosition =>
      exact .of_switches_eq (congrArg Frame.switches (notes_frame (useVariable_notes ..)))
  | packageDecl | importDecl => exact .of_switches_eq rfl
  | _ => simp [Kind.isDescended] at leaf

theorem enterScoped_stands (stands : builder.Stands inLoop) (label : String) (isLoop : Bool) :
    (builder.enterScoped label isLoop).Stands (inLoop || isLoop) := by
  intro guard innermost
  simp only [enterScoped, withFrame, openScope_frame] at innermost ⊢
  obtain ⟨deep, loops, within⟩ := stands guard innermost
  cases isLoop with
  | true => simp; omega
  | false => simp [within]; omega

/-- The children of a node that is no switch and has no body of its own stand
within the same switch as the node. -/
theorem opening_stands (opening : Opening resolver node builder inside leaving)
    (stands : builder.Stands inLoop) (notCase : node.kind.isCase = false)
    (notEnclosing : node.kind.isEnclosing = false) :
    inside.Stands (inLoop || node.kind.isLoop) ∧ Continues false builder inside := by
  cases opening with
  | nesting label labelled =>
      refine ⟨enterScoped_stands stands label _, .of_switches_eq ?_⟩
      simp only [enterScoped, withFrame, openScope_frame]
  | creation kind =>
      have frame := notes_frame (construct_notes resolver builder node)
      simp only [kind, Kind.isLoop, Bool.or_false]
      exact ⟨stands.of_frame_eq frame, .of_switches_eq (congrArg Frame.switches frame)⟩
  | @invocation select kind =>
      have frame := notes_frame (invoke_notes resolver builder node select)
      simp only [kind, Kind.isLoop, Bool.or_false]
      exact ⟨stands.of_frame_eq frame, .of_switches_eq (congrArg Frame.switches frame)⟩
  | returnExit kind =>
      simp only [kind, Kind.isLoop, Bool.or_false]
      exact ⟨stands, .of_switches_eq rfl⟩
  | plain kind =>
      have noLoop : node.kind.isLoop = false := by
        cases found : node.kind <;> simp_all [Kind.isPlain, Kind.isLoop]
      simp only [noLoop, Bool.or_false]
      exact ⟨stands, .of_switches_eq rfl⟩
  | caseLabel kind => simp [kind, Kind.isCase] at notCase
  | namedClass _ kind _ | anonymousClass kind | method _ kind _ | ownerlessMethod kind _
  | lambda kind | switch kind => simp [kind, Kind.isEnclosing] at notEnclosing

/-- A switch and a body of its own leave the switches around them alone. -/
theorem opening_switches (opening : Opening resolver node builder inside leaving)
    (enclosing : node.kind.isEnclosing = true) (children : Keeps inside visited) :
    (leaving visited).frame.switches = builder.frame.switches := by
  cases opening with
  | namedClass _ _ _ | anonymousClass _ | method _ _ _ | ownerlessMethod _ _ | lambda _ => rfl
  | switch kind =>
      obtain ⟨guard, innermost, _⟩ := children.switches_cons rfl
      rw [leaveSwitch]
      rw [innermost, applyAll_switches]
      rfl
  | nesting label labelled =>
      unfold scopeLabel at labelled
      split at labelled <;> simp_all [Kind.isEnclosing]
  | plain kind => cases found : node.kind <;> simp_all [Kind.isEnclosing, Kind.isPlain]
  | caseLabel kind | returnExit kind | creation kind | invocation kind =>
      simp [kind, Kind.isEnclosing] at enclosing

/-- A node that is no switch and has no body of its own ends the case where its
children do, and a return does in any case. -/
theorem opening_continues (opening : Opening resolver node builder inside leaving)
    (stands : builder.Stands inLoop) (descended : node.kind.isDescended = true)
    (notCase : node.kind.isCase = false) (notEnclosing : node.kind.isEnclosing = false)
    (kept : Keeps inside visited)
    (children : Continues
      (node.children.any (Node.endsCase (inLoop || node.kind.isLoop))) inside visited) :
    Continues (node.endsCase inLoop) builder (leaving visited) := by
  obtain ⟨entered, start⟩ := opening_stands opening stands notCase notEnclosing
  have reached := start.trans children
  rw [Bool.false_or] at reached
  cases opening with
  | returnExit kind =>
      have ends : node.endsCase inLoop = true := Node.endsCase_returnExit kind inLoop
      have left := reached.trans (exitCase_continues (kept.stands entered) false)
      rw [ends]
      simpa using left
  | nesting label labelled =>
      have notReturn : node.kind ≠ .returnExit := by
        intro kind
        simp [scopeLabel, kind] at labelled
      rw [Node.endsCase_eq_any descended notCase notEnclosing notReturn]
      have switches : (visited.leaveScoped node.kind.isLoop).frame.switches =
          visited.frame.switches := by
        rw [leaveScoped, closeScope_frame]
        rfl
      simpa using reached.trans (.of_switches_eq switches)
  | creation kind | invocation kind =>
      rw [Node.endsCase_eq_any descended notCase notEnclosing (by simp [kind])]
      exact reached
  | plain kind =>
      have notReturn : node.kind ≠ .returnExit := by
        intro found
        simp [found, Kind.isPlain] at kind
      rw [Node.endsCase_eq_any descended notCase notEnclosing notReturn]
      exact reached
  | caseLabel kind => simp [kind, Kind.isCase] at notCase
  | namedClass _ kind _ | anonymousClass kind | method _ kind _ | ownerlessMethod kind _
  | lambda kind | switch kind => simp [kind, Kind.isEnclosing] at notEnclosing

theorem visitChild_continues {child : Node} {ends : Bool}
    (visits : ∀ {builder : Builder}, builder.Stands inLoop →
      Continues ends builder (visit resolver child builder))
    (stands : builder.Stands inLoop) :
    Continues ends builder (visitChild resolver child builder) := by
  unfold visitChild enterRole leaveRole
  split
  · exact visits (stands : builder.enterArgument.Stands inLoop)
  · exact visits stands

/-- Children that are no labels end the case if one of them does. -/
theorem visitAll_continues {children : List Node} (stands : builder.Stands inLoop)
    (each : ∀ child ∈ children, ∀ {builder : Builder}, builder.Stands inLoop →
      Continues (child.endsCase inLoop) builder (visit resolver child builder)) :
    Continues (children.any (Node.endsCase inLoop)) builder
      (visitAll resolver children builder) := by
  induction children generalizing builder with
  | nil => simpa using Continues.of_switches_eq rfl
  | cons child rest ih =>
      rw [visitAll_cons, List.any_cons]
      have first := visitChild_continues (each child List.mem_cons_self) stands
      have kept := visitChild_keeps (visit_keeps resolver child) builder
      exact first.trans (ih (kept.stands stands) fun later member =>
        each later (List.mem_cons_of_mem _ member))

/-- Whether the visit of a node ends the case can be read off the tree. -/
theorem visit_continues (resolver : Resolver) (placed : node.CasesPlaced)
    (notCase : node.kind.isCase = false) (stands : builder.Stands inLoop) :
    Continues (node.endsCase inLoop) builder (visit resolver node builder) := by
  induction node using Node.inductionOnChildren generalizing builder inLoop with
  | step node ih =>
      cases descended : node.kind.isDescended with
      | false =>
          rw [visit_eq_visitLeaf resolver builder descended]
          exact visitLeaf_continues descended stands
      | true =>
          rw [visit_eq_leave resolver builder descended]
          have opening := opening_of_isDescended resolver builder descended
          have kept := visitAll_keeps resolver node.children (enter resolver node builder)
          cases enclosing : node.kind.isEnclosing with
          | true =>
              rw [Node.endsCase_of_isEnclosing enclosing]
              exact .of_switches_eq (opening_switches opening enclosing kept)
          | false =>
              apply opening_continues opening stands descended notCase enclosing kept
              obtain ⟨entered, _⟩ := opening_stands opening stands notCase enclosing
              apply visitAll_continues entered
              intro child member builder stands
              have childNotCase : child.kind.isCase = false := by
                rw [Bool.eq_false_iff]
                intro isCase
                simp [placed.kind_eq_switch member isCase, Kind.isEnclosing] at enclosing
              exact ih child member (placed.of_mem_children member) childNotCase stands

theorem visit_caseLabel {label : Option String} {hasBody arrow : Bool}
    (kind : node.kind = .caseLabel label hasBody arrow) (builder : Builder) :
    visit resolver node builder =
      let visited :=
        visitAll resolver node.children (builder.startCase (label.getD defaultLabel) hasBody)
      if arrow then visited.endCase else visited := by
  rw [visit_eq_leave resolver builder (by simp [kind, Kind.isDescended])]
  simp only [enter, leave, kind]

/-- A label continues the condition with its own term, unless its visit ends the
case. -/
theorem visit_caseLabel_continued {label : Option String} {hasBody arrow : Bool}
    (kind : node.kind = .caseLabel label hasBody arrow) (placed : node.CasesPlaced)
    (innermost : builder.frame.switches = guard :: outer) (stands : builder.Stands false) :
    (visit resolver node builder).continued =
      if node.endsCase false then none
      else some (continuedWith builder.continued (guard.term (label.getD defaultLabel))) := by
  have started : (builder.startCase (label.getD defaultLabel) hasBody).continued =
      some (continuedWith builder.continued (guard.term (label.getD defaultLabel))) := by
    unfold startCase continued
    rw [innermost]
    dsimp only
    rw [applyAll_switches]
    exact guard.continued_startCase _ hasBody
  have kept := startCase_keeps builder (label.getD defaultLabel) hasBody
  have children : Continues (node.children.any (Node.endsCase false))
      (builder.startCase (label.getD defaultLabel) hasBody)
      (visitAll resolver node.children (builder.startCase (label.getD defaultLabel) hasBody)) := by
    apply visitAll_continues (kept.stands stands)
    intro child member builder stands
    refine visit_continues resolver (placed.of_mem_children member) ?_ stands
    rw [Bool.eq_false_iff]
    intro isCase
    have switch := placed.kind_eq_switch member isCase
    simp [kind] at switch
  rw [visit_caseLabel kind, Node.endsCase_caseLabel kind, ← started]
  cases arrow with
  | true => exact endCase_continues _
  | false => exact children

/-- The role of a child is of no concern to the switches. -/
theorem visitChild_continued (resolver : Resolver) (child : Node) (builder : Builder) :
    (visitChild resolver child builder).continued =
      (visit resolver child (enterRole child builder)).continued := by
  unfold visitChild leaveRole
  split <;> rfl

theorem enterRole_continued (child : Node) (builder : Builder) :
    (enterRole child builder).continued = builder.continued := by
  simp only [continued, enterRole_switches]

theorem enterRole_stands (stands : builder.Stands inLoop) (child : Node) :
    (enterRole child builder).Stands inLoop := by
  rw [enterRole]
  split
  · exact stands
  · exact stands

theorem enterSwitch_stands (builder : Builder) (node : Node) :
    (builder.enterSwitch node).Stands false := by
  intro guard innermost
  obtain rfl : _ = guard := by simpa [enterSwitch, withFrame] using innermost
  simp [enterSwitch, withFrame]

/-- The walk of the children of a switch collects the labels since the last exit. -/
theorem visitAll_labelsSinceExit (resolver : Resolver) (placed : node.CasesPlaced)
    (builder : Builder) {front : List Node} (members : ∀ child ∈ front, child ∈ node.children) :
    (visitAll resolver front (builder.enterSwitch node)).continued =
      joinedTerms (textInRole node .condition) (labelsSinceExit front) := by
  induction front using List.reverseRecOn with
  | nil => rfl
  | append_singleton front child ih =>
      have collected := ih fun child member => members child (List.mem_append_left _ member)
      have kept := visitAll_keeps resolver front (builder.enterSwitch node)
      have stands := enterRole_stands (kept.stands (enterSwitch_stands builder node)) child
      have below := placed.of_mem_children (members child (by simp))
      rw [visitAll_append, visitAll_cons, visitAll_nil, visitChild_continued,
        labelsSinceExit_concat]
      cases isCase : child.kind.isCase with
      | true =>
          obtain ⟨label, hasBody, arrow, kind⟩ := Kind.isCase_iff.mp isCase
          obtain ⟨guard, innermost, same⟩ := kept.switches_cons rfl
          rw [← enterRole_switches child] at innermost
          have subject : guard.subject = textInRole node .condition :=
            congrArg CaseGuard.subject same
          rw [visit_caseLabel_continued kind below innermost stands, enterRole_continued, collected,
            CaseGuard.term, subject, continuedWith_joinedTerms, Node.caseLabel?_of_kind kind]
          cases child.endsCase false <;> rfl
      | false =>
          have visited := visit_continues resolver below isCase stands
          rw [visited, enterRole_continued, collected, Node.caseLabel?_of_isCase_eq_false isCase]
          cases child.endsCase false <;> simp [joinedTerms]

theorem enterSwitch_nests (resolver : Resolver) (placed : node.CasesPlaced)
    (kind : node.kind = .switch) (nested : builder.Nested) {front : List Node}
    (members : ∀ child ∈ front, child ∈ node.children) :
    Nests (builder.enterSwitch node) (visitAll resolver front (builder.enterSwitch node)) := by
  have entered : enter resolver node builder = builder.enterSwitch node := by
    simp only [enter, kind]
  rw [← entered]
  refine enter_nests placed nested (by simp [kind, Kind.isCase]) (by simp [kind, Kind.isDescended])
    members fun _ _ placed {_} => ?_
  exact visit_nests resolver placed

/-- Once a label has started, its visit closes at most the scope of its case. -/
theorem visit_caseLabel_nests (resolver : Resolver) {label : Option String} {hasBody arrow : Bool}
    (kind : node.kind = .caseLabel label hasBody arrow) (placed : node.CasesPlaced)
    (nested : builder.Nested) (level : builder.atCase = true) :
    Nests (builder.startCase (label.getD defaultLabel) hasBody) (visit resolver node builder) := by
  have descended : node.kind.isDescended = true := by simp [kind, Kind.isDescended]
  have entered : enter resolver node builder =
      builder.startCase (label.getD defaultLabel) hasBody := by
    simp only [enter, kind]
  have children := children_nests resolver placed nested (fun _ => level) descended
  have started := startCase_keeps builder (label.getD defaultLabel) hasBody
  rw [entered] at children
  rw [visit_caseLabel kind]
  cases arrow with
  | false => exact children
  | true =>
      have atCase := children.toKeeps.atCase.trans (started.atCase.trans level)
      exact children.trans (endCase_nests children.nested atCase)

/-- The scope of a label with a body is the first that its visit opens, and its
condition continues the one collected so far. -/
theorem visit_caseLabel_opens (resolver : Resolver) {label : Option String} {arrow : Bool}
    (kind : node.kind = .caseLabel label true arrow) (placed : node.CasesPlaced)
    (nested : builder.Nested) (level : builder.atCase = true)
    (innermost : builder.frame.switches = guard :: outer) {method : MethodId}
    (current : builder.currentMethod = some method) :
    ∃ closes rest : List Statement, (∀ statement ∈ closes, statement = .closeScope) ∧
      (visit resolver node builder).model.statementsOf method =
        builder.model.statementsOf method ++ closes ++
          .openScope ("[" ++
            continuedWith builder.continued (guard.term (label.getD defaultLabel)) ++ "]") ::
          rest := by
  have started := startCase_appends nested innermost (label.getD defaultLabel) true method
  obtain ⟨closes, only, actions⟩ := guard.startCase_hasBody (label.getD defaultLabel)
  obtain ⟨rest, appended, _⟩ :=
    (visit_caseLabel_nests resolver kind placed nested level).appends method
  have continued : builder.continued = guard.continued := by simp [Builder.continued, innermost]
  refine ⟨closes.map statementOf, rest, ?_, ?_⟩
  · simp only [List.mem_map]
    rintro _ ⟨action, member, rfl⟩
    rw [only action member]
    rfl
  · rw [appended, started, forOpen_of_eq current, actions, continued]
    simp [statementOf]

end Builder

/-- In a tree whose labels stand directly in switches, the scope of a label with a
body is opened under the terms of the labels of its switch that started after the
last exit owned by the switch, its own the last of them. -/
theorem caseLabel_opens_guardText {resolver : Resolver} {root switch child : Node} {path : String}
    {builder : Builder} {method : MethodId} {before after : List Node} {label : Option String}
    {arrow : Bool} (placed : root.CasesInSwitches)
    (reaches : Builder.Reaches resolver root (Builder.initial resolver path) switch builder)
    (current : builder.currentMethod = some method) (kind : switch.kind = .switch)
    (children : switch.children = before ++ child :: after)
    (labelled : child.kind = .caseLabel label true arrow) :
    let reached := Builder.visitAll resolver before (builder.enterSwitch switch)
    ∃ closes rest : List Statement, (∀ statement ∈ closes, statement = .closeScope) ∧
      (Builder.visitChild resolver child reached).model.statementsOf method =
        reached.model.statementsOf method ++ closes ++
          .openScope (guardText (textInRole switch .condition)
            (labelsSinceExit before ++ [label.getD defaultLabel])) :: rest := by
  intro reached
  obtain ⟨below, nested, _⟩ :=
    reaches.nested placed.2 (Builder.initial_nested resolver path) (by simp [placed.1])
  have members : ∀ child ∈ before, child ∈ switch.children := by
    intro child among
    simp [children, among]
  have belowChild : child.CasesPlaced := below.of_mem_children (by simp [children])
  -- The walk comes to the label at the level of its switch, the labels before it collected.
  have kept : Builder.Keeps (builder.enterSwitch switch) reached :=
    Builder.visitAll_keeps resolver before _
  have walked : Builder.Nests (builder.enterSwitch switch) reached :=
    Builder.enterSwitch_nests resolver below kind nested members
  have collected := Builder.visitAll_labelsSinceExit resolver below builder members
  obtain ⟨guard, innermost, same⟩ := kept.switches_cons rfl
  have subject : guard.subject = textInRole switch .condition := congrArg CaseGuard.subject same
  have inRole := Builder.enterRole_nested walked.nested child
  have level : (Builder.enterRole child reached).atCase = true := by
    rw [Builder.enterRole_atCase, kept.atCase]
    exact Builder.enterSwitch_atCase builder switch
  rw [← Builder.enterRole_switches child] at innermost
  have running : (Builder.enterRole child reached).currentMethod = some method := by
    rw [Builder.enterRole_currentMethod, kept.currentMethod]
    exact current
  obtain ⟨closes, rest, only, opened⟩ :=
    Builder.visit_caseLabel_opens resolver labelled belowChild inRole level innermost running
  refine ⟨closes, rest, only, ?_⟩
  rw [Builder.visitChild_model, opened, Builder.enterRole_model, Builder.enterRole_continued,
    collected, CaseGuard.term, subject, guardText_concat]

/-- What is switched on, and labels of which the second contains a break out of a
loop and the third a return in a branch. -/
def meterLabels : List Node :=
  [{ Node.bare 4 (.identifier "level" false) [] with
      role := some .condition
      text := "level" },
    .bare 5 (.caseLabel (some "1") false false) [],
    .bare 6 (.caseLabel (some "2") true false) [.bare 7 .whileLoop [.bare 8 .breakExit []]],
    .bare 9 (.caseLabel (some "3") true false) [.bare 10 .conditional [.bare 11 .returnExit []]],
    .bare 12 (.caseLabel (some "4") false false) []]

/-- A default label, after the other labels. -/
def meterDefault : Node :=
  .bare 13 (.caseLabel none true false) []

/-- A switch over the labels. -/
def meterSwitch : Node :=
  .bare 3 .switch (meterLabels ++ [meterDefault])

/-- A unit with the switch in its only method. -/
def meterUnit : Node :=
  .bare 0 .compilationUnit
    [.bare 1 (.classDecl "Meter" .classType) [.bare 2 (.methodDecl "read") [meterSwitch]]]

theorem meterDefault_opens_guardText :
    ∃ builder, Builder.Reaches .silent meterUnit (Builder.initial .silent "Meter.java")
        meterSwitch builder ∧
      let reached := Builder.visitAll .silent meterLabels (builder.enterSwitch meterSwitch)
      ∃ closes rest : List Statement, (∀ statement ∈ closes, statement = .closeScope) ∧
        (Builder.visitChild .silent meterDefault reached).model.statementsOf 0 =
          reached.model.statementsOf 0 ++ closes ++
            .openScope "[level == 4 || level == [default]]" :: rest := by
  have placed : meterUnit.CasesInSwitches := by
    unfold Node.CasesInSwitches Node.CasesPlaced
    decide
  obtain ⟨builder, reaches, current⟩ : ∃ builder,
      Builder.Reaches .silent meterUnit (Builder.initial .silent "Meter.java") meterSwitch builder ∧
        builder.currentMethod = some 0 :=
    ⟨_, .inside [] _ [] rfl rfl (.inside [] _ [] rfl rfl (.inside [] _ [] rfl rfl .self)), rfl⟩
  have text : guardText (textInRole meterSwitch .condition)
      (labelsSinceExit meterLabels ++ [defaultLabel]) = "[level == 4 || level == [default]]" := by
    decide +kernel
  have children : meterSwitch.children = meterLabels ++ meterDefault :: [] := rfl
  have labelled : meterDefault.kind = .caseLabel none true false := rfl
  obtain ⟨closes, rest, only, opened⟩ :=
    caseLabel_opens_guardText placed reaches current rfl children labelled
  rw [Option.getD_none, text] at opened
  exact ⟨builder, reaches, closes, rest, only, opened⟩

end JavaStructure
