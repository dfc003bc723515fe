/-
# The moments of a walk

A visit is a run of small moves: each counts up or down, replaces one part of the
state, or works on the innermost switch. `moves` lists them in order, so that
a property may speak about every moment of a walk and not only about its end. Two
are proved: no switch of the current body ever stands deeper than the walk is, and
no move ever finds less than it takes away.
-/

import JavaStructure.Proofs.Building.Outline

namespace JavaStructure

open Syntax (Node Role Kind)

namespace Builder

variable {resolver : Resolver} {node : Node} {builder before after visited : Builder}

/-- What a walk counts. -/
inductive Counter where
  | anonymous
  | depth
  | loops
  | arguments

/-- The value of a counter. -/
def count (builder : Builder) : Counter → Nat
  | .anonymous => builder.anonymousDepth
  | .depth => builder.frame.depth
  | .loops => builder.frame.loopDepth
  | .arguments => builder.frame.argumentDepth

/-- Replace the value of a counter. -/
def setCount (builder : Builder) (counter : Counter) (value : Nat) : Builder :=
  match counter with
  | .anonymous => { builder with anonymousDepth := value }
  | .depth => builder.withFrame { builder.frame with depth := value }
  | .loops => builder.withFrame { builder.frame with loopDepth := value }
  | .arguments => builder.withFrame { builder.frame with argumentDepth := value }

/-- One change of the state of a walk. -/
inductive Move where
  | addImport (text : String)
  | declareClass (node : Node) (name : String)
  | declareMethod (node : Node) (owner : TypeId) (name : String)
  | setClass (type : Option TypeId)
  | setMethod (method : Option MethodId)
  | setAnonymousDepth (depth : Nat)
  | setFrame (frame : Frame)
  | raise (counter : Counter)
  | lower (counter : Counter)
  | openScope (label : String)
  | closeScope
  | closeOpenScopes
  | enterSwitch (node : Node)
  | leaveSwitch
  | startCase (label : String) (hasBody : Bool)
  | endCase
  | exitCase (isBreak : Bool)
  | construct (node : Node)
  | invoke (node : Node) (select : String)
  | useVariable (node : Node) (name : String)

/-- Do one move. -/
def perform (resolver : Resolver) (builder : Builder) : Move → Builder
  | .addImport text => builder.withModel (builder.model.addImport text)
  | .declareClass node name => (builder.declareClass resolver node name).2
  | .declareMethod node owner name => (builder.declareMethod resolver node owner name).2
  | .setClass type => { builder with currentClass := type }
  | .setMethod method => { builder with currentMethod := method }
  | .setAnonymousDepth depth => { builder with anonymousDepth := depth }
  | .setFrame frame => builder.withFrame frame
  | .raise counter => builder.setCount counter (builder.count counter + 1)
  | .lower counter => builder.setCount counter (builder.count counter - 1)
  | .openScope label => builder.openScope label
  | .closeScope => builder.closeScope
  | .closeOpenScopes => builder.closeOpenScopes
  | .enterSwitch node => builder.enterSwitch node
  | .leaveSwitch => builder.leaveSwitch
  | .startCase label hasBody => builder.startCase label hasBody
  | .endCase => builder.endCase
  | .exitCase isBreak => builder.exitCase isBreak
  | .construct node => builder.construct resolver node
  | .invoke node select => builder.invoke resolver node select
  | .useVariable node name => builder.useVariable resolver node name

/-- Do some moves in order. -/
def performAll (resolver : Resolver) (moves : List Move) (builder : Builder) : Builder :=
  moves.foldl (perform resolver) builder

/-- The moves before the children of a node are visited. -/
def openingMoves (resolver : Resolver) (node : Node) (builder : Builder) : List Move :=
  match node.kind with
  | .classDecl name _ =>
      match declaredClassName builder.model.moduleInfo.packageName name with
      | some qualified =>
          [.declareClass node qualified,
            .setClass (some (builder.declareClass resolver node qualified).1),
            .setMethod none, .setAnonymousDepth 0, .setFrame {}]
      | none => [.setFrame {}, .raise .anonymous]
  | .methodDecl name =>
      match builder.methodOwner with
      | some owner =>
          [.declareMethod node owner name,
            .setMethod (some (builder.declareMethod resolver node owner name).1), .setFrame {}]
      | none => [.setFrame {}]
  | .conditional => [.openScope ((scopeLabel node).getD ""), .raise .depth]
  | .forLoop | .whileLoop | .doWhileLoop | .enhancedFor =>
      [.openScope ((scopeLabel node).getD ""), .raise .depth, .raise .loops]
  | .switch => [.enterSwitch node]
  | .caseLabel label hasBody _ => [.startCase (label.getD defaultLabel) hasBody]
  | .creation => [.construct node]
  | .invocation select => [.invoke node select]
  | .lambda => [.setFrame {}]
  | _ => []

/-- The moves after the children of a node were visited. They go back to the state
in which the visit began. -/
def closingMoves (node : Node) (builder : Builder) : List Move :=
  match node.kind with
  | .classDecl name _ =>
      match declaredClassName builder.model.moduleInfo.packageName name with
      | some _ =>
          [.setFrame builder.frame, .setAnonymousDepth builder.anonymousDepth,
            .setMethod builder.currentMethod, .setClass builder.currentClass]
      | none => [.lower .anonymous, .closeOpenScopes, .setFrame builder.frame]
  | .methodDecl _ =>
      match builder.methodOwner with
      | some _ =>
          [.closeOpenScopes, .setFrame builder.frame, .setMethod builder.currentMethod]
      | none => [.closeOpenScopes, .setFrame builder.frame]
  | .conditional => [.lower .depth, .closeScope]
  | .forLoop | .whileLoop | .doWhileLoop | .enhancedFor =>
      [.lower .loops, .lower .depth, .closeScope]
  | .switch => [.leaveSwitch]
  | .caseLabel _ _ arrow => if arrow then [.endCase] else []
  | .returnExit => [.exitCase false]
  | .lambda => [.closeOpenScopes, .setFrame builder.frame]
  | _ => []

/-- The moves of a visit that does not go on to the children. -/
def leafMoves (node : Node) : List Move :=
  match node.kind with
  | .importDecl => [.addImport (Text.trimmed node.text)]
  | .breakExit => [.exitCase true]
  | .identifier name _ => [.useVariable node name]
  | _ => []

/-- The moves of the visit of a child, from those of the child by itself. -/
def childMoves (child : Node) (own : List Move) : List Move :=
  if child.role = some .argument then .raise .arguments :: (own ++ [.lower .arguments]) else own

mutual

/-- The moves of the visit of a node. -/
def moves (resolver : Resolver) : Node → Builder → List Move
  | node@⟨_, kind, _, _, _, children⟩ => fun builder =>
      if kind.isDescended then
        openingMoves resolver node builder ++
          (movesAll resolver children (enter resolver node builder) ++ closingMoves node builder)
      else leafMoves node

/-- The moves of the visits of the children of a node. -/
def movesAll (resolver : Resolver) : List Node → Builder → List Move
  | [], _ => []
  | child :: rest, builder =>
      childMoves child (moves resolver child (enterRole child builder)) ++
        movesAll resolver rest (visitChild resolver child builder)

end

theorem moves_of_isDescended (resolver : Resolver) (builder : Builder)
    (descended : node.kind.isDescended = true) :
    moves resolver node builder =
      openingMoves resolver node builder ++
        (movesAll resolver node.children (enter resolver node builder) ++
          closingMoves node builder) := by
  cases node
  simp [moves, descended]

theorem moves_of_leaf (resolver : Resolver) (builder : Builder)
    (leaf : node.kind.isDescended = false) :
    moves resolver node builder = leafMoves node := by
  cases node
  simp [moves, leaf]

theorem performAll_append (resolver : Resolver) (front back : List Move) (builder : Builder) :
    performAll resolver (front ++ back) builder =
      performAll resolver back (performAll resolver front builder) :=
  List.foldl_append ..

theorem performAll_openingMoves (resolver : Resolver) (node : Node) (builder : Builder) :
    performAll resolver (openingMoves resolver node builder) builder =
      enter resolver node builder := by
  unfold openingMoves enter
  cases node.kind with
  | classDecl name _ =>
      dsimp only
      cases declaredClassName builder.model.moduleInfo.packageName name <;> rfl
  | methodDecl name =>
      dsimp only
      cases builder.methodOwner <;> rfl
  | _ => rfl

theorem performAll_closingMoves (resolver : Resolver) (node : Node) (builder visited : Builder) :
    performAll resolver (closingMoves node builder) visited = leave node builder visited := by
  unfold closingMoves leave
  cases node.kind with
  | classDecl name _ =>
      dsimp only
      cases declaredClassName builder.model.moduleInfo.packageName name <;> rfl
  | methodDecl _ =>
      dsimp only
      cases builder.methodOwner <;> rfl
  | caseLabel _ _ arrow => cases arrow <;> rfl
  | _ => rfl

theorem performAll_leafMoves (resolver : Resolver) (node : Node) (builder : Builder) :
    performAll resolver (leafMoves node) builder = visitLeaf resolver node builder := by
  unfold leafMoves visitLeaf
  cases node.kind <;> rfl

theorem performAll_childMoves {child : Node} (own : List Move) (builder : Builder) :
    performAll resolver (childMoves child own) builder =
      leaveRole child (performAll resolver own (enterRole child builder)) := by
  unfold childMoves enterRole leaveRole
  split
  · exact performAll_append resolver own [.lower .arguments] builder.enterArgument
  · rfl

theorem performAll_movesAll {children : List Node}
    (each : ∀ child ∈ children, ∀ builder,
      performAll resolver (moves resolver child builder) builder = visit resolver child builder)
    (builder : Builder) :
    performAll resolver (movesAll resolver children builder) builder =
      visitAll resolver children builder := by
  induction children generalizing builder with
  | nil => simp [movesAll, performAll]
  | cons child rest ih =>
      have later := ih fun child member => each child (List.mem_cons_of_mem _ member)
      calc performAll resolver (movesAll resolver (child :: rest) builder) builder
        _ = performAll resolver
            (movesAll resolver rest (visitChild resolver child builder))
            (visitChild resolver child builder) := by
          rw [movesAll, performAll_append, performAll_childMoves, each child List.mem_cons_self]
          rfl
        _ = visitAll resolver rest (visitChild resolver child builder) := later _
        _ = visitAll resolver (child :: rest) builder := by rw [visitAll_cons]

/-- The moves of a visit are all it does. -/
theorem performAll_moves (resolver : Resolver) (node : Node) (builder : Builder) :
    performAll resolver (moves resolver node builder) builder = visit resolver node builder := by
  induction node using Node.inductionOnChildren generalizing builder with
  | step node ih =>
      cases descended : node.kind.isDescended with
      | true =>
          calc performAll resolver (moves resolver node builder) builder
            _ = performAll resolver (closingMoves node builder)
                (performAll resolver (movesAll resolver node.children (enter resolver node builder))
                  (performAll resolver (openingMoves resolver node builder) builder)) := by
              rw [moves_of_isDescended resolver builder descended, performAll_append,
                performAll_append]
            _ = leave node builder
                (visitAll resolver node.children (enter resolver node builder)) := by
              rw [performAll_openingMoves, performAll_movesAll ih, performAll_closingMoves]
            _ = visit resolver node builder := by rw [visit_eq_leave resolver builder descended]
      | false =>
          rw [moves_of_leaf resolver builder descended, performAll_leafMoves,
            visit_eq_visitLeaf resolver builder descended]

/-- No switch of the current body stands deeper than the walk is. -/
def IsWithin (builder : Builder) : Prop :=
  ∀ guard ∈ builder.frame.switches,
    guard.bodyDepth ≤ builder.frame.depth ∧ guard.loopDepth ≤ builder.frame.loopDepth

/-- A move finds what it takes away, and an exit is not compared with a switch that
stands deeper. -/
def Move.IsSafe (builder : Builder) : Move → Prop
  | .lower counter => 0 < builder.count counter
  | .leaveSwitch => builder.frame.switches ≠ []
  | .exitCase _ =>
      ∀ guard ∈ builder.frame.switches.head?,
        guard.bodyDepth ≤ builder.frame.depth ∧ guard.loopDepth ≤ builder.frame.loopDepth
  | _ => True

/-- Every moment of some moves is as it has to be. -/
def RunsSafely (resolver : Resolver) : List Move → Builder → Prop
  | [], builder => builder.IsWithin
  | move :: rest, builder =>
      builder.IsWithin ∧ move.IsSafe builder ∧
        RunsSafely resolver rest (perform resolver builder move)

/-- What is within stays so where the same switches stand no less deep. -/
theorem IsWithin.of_switches (within : before.IsWithin)
    (switches : after.frame.switches.modifyHead CaseGuard.atStart =
      before.frame.switches.modifyHead CaseGuard.atStart)
    (depth : before.frame.depth ≤ after.frame.depth)
    (loopDepth : before.frame.loopDepth ≤ after.frame.loopDepth) : after.IsWithin := by
  intro guard member
  obtain ⟨known, found, same⟩ :
      ∃ known ∈ before.frame.switches, guard.atStart = known.atStart := by
    cases ahead : after.frame.switches with
    | nil => simp [ahead] at member
    | cons changed rest =>
        cases behind : before.frame.switches with
        | nil => simp [ahead, behind] at switches
        | cons first others =>
            simp only [ahead, behind, List.modifyHead_cons, List.cons.injEq] at switches
            obtain ⟨head, rfl⟩ := switches
            rw [ahead] at member
            cases member with
            | head => exact ⟨first, List.mem_cons_self, head⟩
            | tail _ inRest => exact ⟨guard, List.mem_cons_of_mem _ inRest, rfl⟩
  have bodyDepth : guard.bodyDepth = known.bodyDepth := (congrArg CaseGuard.bodyDepth same :)
  have ownLoopDepth : guard.loopDepth = known.loopDepth := (congrArg CaseGuard.loopDepth same :)
  have bounds := within known found
  omega

theorem IsWithin.of_keeps (within : before.IsWithin) (keeps : Keeps before after) :
    after.IsWithin :=
  within.of_switches keeps.switches (Nat.le_of_eq keeps.depth.symm)
    (Nat.le_of_eq keeps.loopDepth.symm)

theorem isWithin_of_no_switch (none : builder.frame.switches = []) : builder.IsWithin := by
  simp [IsWithin, none]

theorem runsSafely_append {front back : List Move} (first : RunsSafely resolver front builder)
    (second : RunsSafely resolver back (performAll resolver front builder)) :
    RunsSafely resolver (front ++ back) builder := by
  induction front generalizing builder with
  | nil => exact second
  | cons move rest ih => exact ⟨first.1, first.2.1, ih first.2.2 second⟩

theorem RunsSafely.last {moves : List Move} (safe : RunsSafely resolver moves builder) :
    (performAll resolver moves builder).IsWithin := by
  induction moves generalizing builder with
  | nil => exact safe
  | cons move rest ih => exact ih safe.2.2

/-- What runs safely is as it has to be after each of its moves. -/
theorem RunsSafely.at_moment {front back : List Move}
    (safe : RunsSafely resolver (front ++ back) builder) :
    (performAll resolver front builder).IsWithin ∧
      ∀ next ∈ back.head?, next.IsSafe (performAll resolver front builder) := by
  induction front generalizing builder with
  | nil =>
      cases back with
      | nil => exact ⟨safe, by simp⟩
      | cons next rest =>
          refine ⟨safe.1, ?_⟩
          rintro next ⟨⟩
          exact safe.2.1
  | cons move rest ih => exact ih safe.2.2

/-- The moves that open a node run safely. -/
theorem openingMoves_runSafely (within : builder.IsWithin) :
    RunsSafely resolver (openingMoves resolver node builder) builder := by
  have fresh {fresh : Builder} (none : fresh.frame.switches = []) := isWithin_of_no_switch none
  have opened (label : String) := within.of_keeps (openScope_keeps builder label)
  have deeper (label : String) :
      (perform resolver (builder.openScope label) (.raise .depth)).IsWithin :=
    (opened label).of_switches rfl (Nat.le_succ _) (Nat.le_refl _)
  unfold openingMoves
  cases node.kind with
  | classDecl name _ =>
      dsimp only
      cases declaredClassName builder.model.moduleInfo.packageName name with
      | none => exact ⟨within, trivial, fresh rfl, trivial, fresh rfl⟩
      | some qualified =>
          have declared : (builder.declareClass resolver node qualified).2.IsWithin :=
            within.of_keeps (.of_registers (declareClass_mentions ..).registers)
          exact ⟨within, trivial, declared, trivial, declared, trivial, declared, trivial,
            declared, trivial, fresh rfl⟩
  | methodDecl name =>
      dsimp only
      cases builder.methodOwner with
      | none => exact ⟨within, trivial, fresh rfl⟩
      | some owner =>
          have declared : (builder.declareMethod resolver node owner name).2.IsWithin :=
            within.of_keeps (.of_registers (declareMethod_registers ..))
          exact ⟨within, trivial, declared, trivial, declared, trivial, fresh rfl⟩
  | conditional => exact ⟨within, trivial, opened _, trivial, deeper _⟩
  | forLoop | whileLoop | doWhileLoop | enhancedFor =>
      exact ⟨within, trivial, opened _, trivial, deeper _, trivial,
        (deeper _).of_switches rfl (Nat.le_refl _) (Nat.le_succ _)⟩
  | switch =>
      refine ⟨within, trivial, ?_⟩
      intro guard member
      rcases List.mem_cons.mp member with rfl | outer
      · exact ⟨Nat.le_refl _, Nat.le_refl _⟩
      · exact within guard outer
  | caseLabel label hasBody _ => exact ⟨within, trivial, within.of_keeps (startCase_keeps ..)⟩
  | creation => exact ⟨within, trivial, within.of_keeps (notes_keeps (construct_notes ..))⟩
  | invocation select =>
      exact ⟨within, trivial, within.of_keeps (notes_keeps (invoke_notes ..))⟩
  | lambda => exact ⟨within, trivial, fresh rfl⟩
  | _ => exact within

theorem enter_isWithin (within : builder.IsWithin) : (enter resolver node builder).IsWithin := by
  rw [← performAll_openingMoves]
  exact (openingMoves_runSafely within).last

/-- Exits and ends of cases are safe wherever no switch stands too deep. -/
theorem exitCase_runsSafely (within : builder.IsWithin) (isBreak : Bool) :
    RunsSafely resolver [.exitCase isBreak] builder := by
  refine ⟨within, ?_, within.of_keeps (exitCase_keeps builder isBreak)⟩
  intro guard innermost
  exact within guard (List.mem_of_mem_head? innermost)

/-- What a body left open is closed, and the frame around it is as it was. -/
theorem leaveBody_runsSafely (within : builder.IsWithin) (inside : visited.IsWithin) :
    RunsSafely resolver [.closeOpenScopes, .setFrame builder.frame] visited :=
  ⟨inside, trivial, inside.of_keeps (closeScopes_keeps ..), trivial, within⟩

/-- Counting down to the depth at which a node began. -/
theorem rise_runsSafely (within : builder.IsWithin)
    (switches : visited.frame.switches.modifyHead CaseGuard.atStart =
      builder.frame.switches.modifyHead CaseGuard.atStart)
    (depth : visited.frame.depth = builder.frame.depth + 1)
    (loopDepth : visited.frame.loopDepth = builder.frame.loopDepth) :
    RunsSafely resolver [.lower .depth, .closeScope] visited := by
  have inside : visited.IsWithin := within.of_switches switches (by omega) (by omega)
  have lowered : (perform resolver visited (.lower .depth)).IsWithin := by
    refine within.of_switches switches ?_ (Nat.le_of_eq loopDepth.symm)
    simp [perform, setCount, count, withFrame, depth]
  have positive : 0 < visited.frame.depth := by omega
  exact ⟨inside, positive, lowered, trivial, lowered.of_keeps (closeScope_keeps _)⟩

theorem leaveConditional_runsSafely {label : String} (within : builder.IsWithin)
    (children : Keeps (builder.enterScoped label false) visited) :
    RunsSafely resolver [.lower .depth, .closeScope] visited := by
  have opened := openScope_keeps builder label
  apply rise_runsSafely within (children.switches.trans opened.switches)
  · rw [children.depth, ← opened.depth]
    rfl
  · exact children.loopDepth.trans opened.loopDepth

/-- A loop is counted twice, and both counts go back. -/
theorem leaveLoop_runsSafely {label : String} (within : builder.IsWithin)
    (children : Keeps (builder.enterScoped label true) visited) :
    RunsSafely resolver [.lower .loops, .lower .depth, .closeScope] visited := by
  have opened := openScope_keeps builder label
  have switches := children.switches.trans opened.switches
  have depth : visited.frame.depth = builder.frame.depth + 1 := by
    rw [children.depth, ← opened.depth]
    rfl
  have loopDepth : visited.frame.loopDepth = builder.frame.loopDepth + 1 := by
    rw [children.loopDepth, ← opened.loopDepth]
    rfl
  have inside : visited.IsWithin := within.of_switches switches (by omega) (by omega)
  have positive : 0 < visited.frame.loopDepth := by omega
  refine ⟨inside, positive, rise_runsSafely within switches depth ?_⟩
  simp [perform, setCount, count, withFrame, loopDepth]

/-- The innermost switch is the one that was entered. -/
theorem leaveSwitch_runsSafely (within : builder.IsWithin) (inside : visited.IsWithin)
    (children : Keeps (builder.enterSwitch node) visited) :
    RunsSafely resolver [.leaveSwitch] visited := by
  obtain ⟨guard, innermost, -⟩ := children.switches_cons rfl
  refine ⟨inside, ?_, within.of_keeps (leaveSwitch_keeps children)⟩
  simp [Move.IsSafe, innermost]

/-- The moves that close a node run safely, wherever the visits of its children end. -/
theorem closingMoves_runSafely (within : builder.IsWithin)
    (children : Keeps (enter resolver node builder) visited) :
    RunsSafely resolver (closingMoves node builder) visited := by
  have inside : visited.IsWithin := (enter_isWithin within).of_keeps children
  unfold closingMoves
  unfold enter at children
  cases kind : node.kind with
  | classDecl name _ =>
      simp only [kind] at children ⊢
      cases declared : declaredClassName builder.model.moduleInfo.packageName name with
      | none =>
          simp only [declared] at children
          have positive : 0 < visited.anonymousDepth := by
            rw [children.anonymousDepth]
            exact Nat.succ_pos _
          exact ⟨inside, positive, leaveBody_runsSafely within inside⟩
      | some qualified =>
          exact ⟨inside, trivial, within, trivial, within, trivial, within, trivial, within⟩
  | methodDecl name =>
      have left : RunsSafely resolver [.closeOpenScopes, .setFrame builder.frame] visited :=
        leaveBody_runsSafely within inside
      dsimp only
      cases builder.methodOwner with
      | none => exact left
      | some owner => exact runsSafely_append left ⟨within, trivial, within⟩
  | conditional =>
      simp only [kind] at children
      exact leaveConditional_runsSafely within children
  | forLoop | whileLoop | doWhileLoop | enhancedFor =>
      simp only [kind] at children
      exact leaveLoop_runsSafely within children
  | switch =>
      simp only [kind] at children
      exact leaveSwitch_runsSafely within inside children
  | caseLabel _ _ arrow =>
      cases arrow with
      | true => exact ⟨inside, trivial, inside.of_keeps (endCase_keeps visited)⟩
      | false => exact inside
  | returnExit => exact exitCase_runsSafely inside false
  | lambda => exact leaveBody_runsSafely within inside
  | _ => exact inside

theorem leafMoves_runSafely (within : builder.IsWithin) :
    RunsSafely resolver (leafMoves node) builder := by
  unfold leafMoves
  cases node.kind with
  | importDecl => exact ⟨within, trivial, within⟩
  | breakExit => exact exitCase_runsSafely within true
  | identifier name _ =>
      exact ⟨within, trivial, within.of_keeps (notes_keeps (useVariable_notes ..))⟩
  | _ => exact within

/-- Around an argument its counter goes up and down again. -/
theorem childMoves_runSafely {child : Node} (within : builder.IsWithin)
    (own : ∀ builder : Builder, builder.IsWithin →
      RunsSafely resolver (moves resolver child builder) builder) :
    RunsSafely resolver (childMoves child (moves resolver child (enterRole child builder)))
      builder := by
  have kept := visitChild_keeps (visit_keeps resolver child) builder
  unfold visitChild at kept
  unfold childMoves
  unfold enterRole leaveRole at *
  split
  · next argument =>
      simp only [if_pos argument] at kept
      have visited := visit_keeps resolver child builder.enterArgument
      have entered : builder.enterArgument.IsWithin := within
      have positive : 0 < (visit resolver child builder.enterArgument).frame.argumentDepth := by
        rw [visited.argumentDepth]
        exact Nat.succ_pos _
      have left : RunsSafely resolver [.lower .arguments]
          (visit resolver child builder.enterArgument) :=
        ⟨entered.of_keeps visited, positive, within.of_keeps kept⟩
      rw [← performAll_moves] at left
      exact ⟨within, trivial, runsSafely_append (own _ entered) left⟩
  · exact own builder within

theorem movesAll_runSafely {children : List Node}
    (each : ∀ child ∈ children, ∀ builder : Builder, builder.IsWithin →
      RunsSafely resolver (moves resolver child builder) builder)
    (within : builder.IsWithin) :
    RunsSafely resolver (movesAll resolver children builder) builder := by
  induction children generalizing builder with
  | nil => exact within
  | cons child rest ih =>
      rw [movesAll]
      refine runsSafely_append (childMoves_runSafely within (each child List.mem_cons_self)) ?_
      rw [performAll_childMoves, performAll_moves]
      apply ih fun child member => each child (List.mem_cons_of_mem _ member)
      exact within.of_keeps (visitChild_keeps (visit_keeps resolver child) builder)

/-- Every moment of a visit is as it has to be. -/
theorem moves_runSafely (resolver : Resolver) (node : Node) (within : builder.IsWithin) :
    RunsSafely resolver (moves resolver node builder) builder := by
  induction node using Node.inductionOnChildren generalizing builder with
  | step node ih =>
      cases descended : node.kind.isDescended with
      | true =>
          rw [moves_of_isDescended resolver builder descended]
          refine runsSafely_append (openingMoves_runSafely within) ?_
          rw [performAll_openingMoves]
          refine runsSafely_append
            (movesAll_runSafely (fun child member _ => ih child member) (enter_isWithin within)) ?_
          rw [performAll_movesAll fun child _ => performAll_moves resolver child]
          exact closingMoves_runSafely within (visitAll_keeps ..)
      | false =>
          rw [moves_of_leaf resolver builder descended]
          exact leafMoves_runSafely within

/-- What identifies the open switches of a state: what each is about, and the depths
at which it stands. -/
def standing (builder : Builder) : List (String × Nat × Nat) :=
  builder.frame.switches.map fun guard => (guard.subject, guard.loopDepth, guard.bodyDepth)

theorem Keeps.standing (keeps : Keeps before after) : after.standing = before.standing := by
  have anew (switches : List CaseGuard) :
      (switches.modifyHead CaseGuard.atStart).map
          (fun guard => (guard.subject, guard.loopDepth, guard.bodyDepth)) =
        switches.map fun guard => (guard.subject, guard.loopDepth, guard.bodyDepth) := by
    cases switches <;> rfl
  rw [Builder.standing, ← anew, keeps.switches, anew]
  rfl

/-- A visit restores the state of the walk, all but the model, the progress of the
open switches and the count of open scopes. At every moment of the construction of
a model the open switches stand no deeper than the walk, every count that is lowered
is positive, and every exit is compared with a switch that stands no deeper. -/
theorem visit_restores_state (resolver : Resolver) :
    (∀ (node : Node) (builder : Builder),
      let visited := visit resolver node builder
      visited.currentClass = builder.currentClass ∧
        visited.currentMethod = builder.currentMethod ∧
        visited.anonymousDepth = builder.anonymousDepth ∧
        visited.frame.depth = builder.frame.depth ∧
        visited.frame.loopDepth = builder.frame.loopDepth ∧
        visited.frame.argumentDepth = builder.frame.argumentDepth ∧
        visited.standing = builder.standing) ∧
    ∀ (root : Node) (path : String),
      let start := initial resolver path
      (performAll resolver (moves resolver root start) start).model =
          Model.ofUnit resolver root path ∧
        ∀ front back, moves resolver root start = front ++ back →
          (performAll resolver front start).IsWithin ∧
            ∀ next ∈ back.head?, next.IsSafe (performAll resolver front start) := by
  constructor
  · intro node builder
    have keeps := visit_keeps resolver node builder
    exact ⟨keeps.currentClass, keeps.currentMethod, keeps.anonymousDepth, keeps.depth,
      keeps.loopDepth, keeps.argumentDepth, keeps.standing⟩
  · intro root path start
    constructor
    · rw [performAll_moves, ofUnit_eq_visit]
    · intro front back split
      have safe := moves_runSafely resolver root
        (isWithin_of_no_switch (rfl : start.frame.switches = []))
      rw [split] at safe
      exact safe.at_moment

end Builder

end JavaStructure
