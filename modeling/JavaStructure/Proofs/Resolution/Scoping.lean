/-
# Lexical scoping

Local declarations live in the frame of the innermost construct around them that opens one. A
visit leaves nothing behind but declarations in the innermost open frame, and none if the node
opens a frame itself. So the frames at a node hold what the open constructs around it declare
before it, and a name is bound by looking through them from the inside. A declaration is not
among them where its own parts stand, and what a frame holds is not seen outside.
-/

import JavaStructure.Proofs.Resolution.Refilled

namespace JavaStructure.Resolution

open Syntax (Node Kind Step Trail Leads)
open Syntax.Node.preorder (preorderAll)
open Names (Environment)
open Walk (opensFrame walkAt)

variable {known : Known} {node root : Node} {trail : Trail} {site : Site} {name : String}

/-- The scopes that are open at the end of a trail, the innermost first: for each construct
around it that opens a frame, what is declared there so far, the latest first. Outside of any
frame nothing is declared. -/
def openScopes : Trail → List (List Site)
  | [] => []
  | step :: outer =>
      let declared := leftAmong outer step.parent [] step.before
      if opensFrame step.parent.kind then declared :: openScopes outer
      else
        match openScopes outer with
        | [] => []
        | innermost :: others => (declared ++ innermost) :: others

/-- The declaration that a name is bound to at the end of a trail: the latest one of the name in
the innermost open scope that declares it. -/
def boundTo? (trail : Trail) (name : String) : Option Site :=
  (openScopes trail).findSome? fun scope => scope.find? fun site => site.name = name

theorem frames_below (known : Known) (place : Place) (node : Node) :
    (below known place node).frames =
      if opensFrame node.kind then [] :: place.frames else place.frames := by
  rw [below]
  split
  · next kind =>
      rw [kind]
      split <;> rfl
  · split <;> rfl

/-- The frames at the end of a trail are the open scopes. -/
theorem frames_placeAt (known : Known) (trail : Trail) :
    (placeAt known trail).frames = (openScopes trail).map fun scope =>
      scope.map (Site.toLocal known) := by
  induction trail with
  | nil => rfl
  | cons step outer ih =>
      have frames := frames_below known (placeAt known outer) step.parent
      rw [ih] at frames
      rw [placeAt_cons, openScopes]
      cases opens : opensFrame step.parent.kind with
      | true =>
          rw [opens, if_pos rfl] at frames
          simp [Place.declare, frames]
      | false =>
          rw [opens, if_neg Bool.false_ne_true] at frames
          cases scopes : openScopes outer <;>
          · rw [scopes] at frames
            simp [Place.declare, frames]

/-- The locals are those of the open scopes, innermost and latest first. -/
theorem locals_eq_openScopes (known : Known) (trail : Trail) :
    (placeAt known trail).locals = (openScopes trail).flatten.map (Site.toLocal known) := by
  rw [Place.locals, frames_placeAt, List.map_flatten]

theorem findLocal?_eq_boundTo? (known : Known) (trail : Trail) (name : String) :
    (placeAt known trail).findLocal? name = (boundTo? trail name).map (Site.toLocal known) := by
  calc (placeAt known trail).findLocal? name
    _ = (openScopes trail).findSome? fun scope =>
        (scope.map (Site.toLocal known)).find? fun binding => binding.name = name := by
      rw [Place.findLocal?, Place.locals, frames_placeAt, List.find?_flatten, List.findSome?_map]
      rfl
    _ = (openScopes trail).findSome? fun scope =>
        (scope.find? fun site => site.name = name).map (Site.toLocal known) :=
      congrArg (List.findSome? · _) (funext fun scope => List.find?_map ..)
    _ = (boundTo? trail name).map (Site.toLocal known) := by
      rw [boundTo?, List.map_findSome?]
      rfl

/-- What a node leaves is declared at it or below it. -/
theorem suffix_of_mem_left (leaves : site ∈ left trail node) : trail <:+ site.trail := by
  induction node using Node.inductionOnChildren generalizing trail with
  | step node ih =>
      have among (leaves : site ∈ leftAmong trail node [] node.children) :
          trail <:+ site.trail := by
        obtain ⟨front, child, back, children, -, leaves⟩ := exists_of_mem_leftAmong leaves
        exact (List.suffix_cons _ _).trans (ih child (by simp [children]) leaves)
      cases shape node with
      | identifier isIdentifier => simp [left_of_isIdentifier isIdentifier] at leaves
      | frame opens => simp [left_of_opensFrame opens] at leaves
      | plain _ _ _ _ _ left => exact among (left trail ▸ leaves)
      | classDecl kind => exact among (left_of_classDecl kind trail ▸ leaves)
      | «variable» kind =>
          rw [left_of_variable kind] at leaves
          rcases List.mem_append.mp leaves with own | below
          · split at own
            · obtain rfl : site = ⟨trail, node⟩ := List.mem_singleton.mp own
              exact List.suffix_rfl
            · cases own
          · exact among below

/-- A declaration stands in an earlier child of a construct that a trail leads through. -/
def Site.Precedes (site : Site) (trail : Trail) : Prop :=
  ∃ step outer earlier child later, step :: outer <:+ trail ∧
    step.before = earlier ++ child :: later ∧
    (⟨step.parent, earlier⟩ :: outer : Trail) <:+ site.trail

theorem Site.Precedes.further {outer : Trail} (precedes : site.Precedes outer) (step : Step) :
    site.Precedes (step :: outer) := by
  obtain ⟨above, outermost, earlier, child, later, suffix, leads⟩ := precedes
  exact ⟨above, outermost, earlier, child, later, suffix.trans (List.suffix_cons _ _), leads⟩

theorem precedes_of_mem_leftAmong {step : Step} {outer : Trail}
    (declared : site ∈ leftAmong outer step.parent [] step.before) :
    site.Precedes (step :: outer) := by
  obtain ⟨front, child, back, before, -, leaves⟩ := exists_of_mem_leftAmong declared
  exact ⟨step, outer, front, child, back, List.suffix_rfl, before, suffix_of_mem_left leaves⟩

/-- What an open scope declares stands before the end of the trail. -/
theorem precedes_of_mem_openScopes {scope : List Site} (isOpen : scope ∈ openScopes trail)
    (declares : site ∈ scope) : site.Precedes trail := by
  induction trail generalizing scope with
  | nil => cases isOpen
  | cons step outer ih =>
      rw [openScopes] at isOpen
      split at isOpen
      · rcases List.mem_cons.mp isOpen with rfl | further
        · exact precedes_of_mem_leftAmong declares
        · exact (ih further declares).further step
      · split at isOpen
        · cases isOpen
        · next innermost others scopes =>
            rw [scopes] at ih
            rcases List.mem_cons.mp isOpen with rfl | further
            · rcases List.mem_append.mp declares with declared | earlier
              · exact precedes_of_mem_leftAmong declared
              · exact (ih List.mem_cons_self earlier).further step
            · exact (ih (List.mem_cons_of_mem _ further) declares).further step

/-- No declaration stands before its own parts. -/
theorem not_precedes_itself (inner : Trail) (before : List Node) (outer : Trail) (node : Node) :
    ¬ Site.Precedes ⟨outer, node⟩ (inner ++ ⟨node, before⟩ :: outer) := by
  rintro ⟨step, above, earlier, child, later, suffix, split, leads⟩
  -- the step and the way to the declaration are both ends of the way from which it is seen
  have ends : outer <:+ inner ++ ⟨node, before⟩ :: outer :=
    (List.suffix_cons _ _).trans (List.suffix_append _ _)
  have stepEnds : step :: above <:+ outer :=
    List.suffix_of_suffix_length_le suffix ends (by simpa using leads.length_le)
  have same : step :: above = ⟨step.parent, earlier⟩ :: above :=
    (List.suffix_of_suffix_length_le stepEnds leads (by simp)).eq_of_length (by simp)
  have sameStep : step = ⟨step.parent, earlier⟩ := (List.cons.inj same).1
  have length : step.before.length = earlier.length := by rw [sameStep]
  rw [split] at length
  simp at length

/-- The symbol of a name that is bound to a declaration. -/
def Site.symbol (names : Environment) (trail : Trail) (site : Site) : Symbol where
  kind := site.kind
  name := site.name
  qualifiedName := if site.kind = .localVariable then some site.name else none
  enclosingType := (classesAround names trail).head?

/-- A name that is bound has the symbol of its declaration. -/
theorem nameSymbol?_of_bound (bound : boundTo? trail name = some site) :
    known.nameSymbol? (placeAt known trail) name =
      some (site.symbol known.qualifier.names trail) := by
  obtain ⟨scope, -, found⟩ := List.exists_of_findSome?_eq_some bound
  obtain rfl : site.name = name := by simpa using List.find?_some found
  rw [Known.nameSymbol?, findLocal?_eq_boundTo?, bound, Place.currentClass, classes_placeAt]
  rfl

/-- A name that is not bound is no local variable and no parameter. -/
theorem nameSymbol?_of_unbound (unbound : boundTo? trail name = none) {symbol : Symbol}
    (found : known.nameSymbol? (placeAt known trail) name = some symbol) :
    symbol.kind ≠ .localVariable ∧ symbol.kind ≠ .parameter := by
  rw [Known.nameSymbol?, findLocal?_eq_boundTo?, unbound, Option.map_none] at found
  dsimp only at found
  split at found
  · obtain rfl := Option.some.inj found
    simp
  · split at found
    · obtain rfl := Option.some.inj found
      simp [Known.typeSymbol]
    · split at found
      · obtain rfl := Option.some.inj found
        simp
      · cases found

/-- Scoping is lexical.

The visit of a construct that opens a frame leaves the classes and the frames around it as they
were, and that of any other node only adds declarations to the innermost frame. So the local that
a name refers to is the latest declaration of the name in the innermost open scope that declares
it; the symbol of the name is that of the declaration, and its scope shows what the open scopes
declare. No declaration is in a scope that is open where its own parts stand, its initial value
among them; fields are no locals and known from their class. The nodes outside of a frame have
the same symbols and scopes whatever it holds. -/
theorem scoping_is_lexical (unit : Node) (lineCount : Nat) (context : List Node) :
    let known := knownIn unit context
    let resolver := (ofUnit unit lineCount context).toResolver
    (∀ walk node,
      (opensFrame node.kind = true → (Walk.visit known walk node).place = walk.place) ∧
      (opensFrame node.kind = false →
        ∃ declared, (Walk.visit known walk node).place = walk.place.declare declared)) ∧
    (∀ trail name, (walkAt known trail).place.findLocal? name =
      (boundTo? trail name).map (Site.toLocal known)) ∧
    (unit.HasDistinctIds → ∀ trail node name, Leads unit trail node → trail.IsOpen →
      node.kind = .identifier name false →
      (∀ site, boundTo? trail name = some site →
        resolver.symbol node = some (site.symbol known.qualifier.names trail)) ∧
      (boundTo? trail name = none → ∀ symbol, resolver.symbol node = some symbol →
        symbol.kind ≠ .localVariable ∧ symbol.kind ≠ .parameter) ∧
      (resolver.scope node).map (·.locals) =
        some ((openScopes trail).flatten.map fun site => ⟨site.name, site.typeText known⟩)) ∧
    (∀ inner node before outer, ∀ scope ∈ openScopes (inner ++ ⟨node, before⟩ :: outer),
      (⟨outer, node⟩ : Site) ∉ scope) ∧
    ∀ frame others, Refills unit frame others → ∀ node ∈ unit.preorder,
      node ∉ preorderAll frame.children →
      let refilledResolver :=
        (ofUnit (refilled frame.id others unit) lineCount context).toResolver
      refilledResolver.symbol node = resolver.symbol node ∧
        refilledResolver.scope node = resolver.scope node := by
  intro known resolver
  refine ⟨fun walk node => ⟨fun opens => ?_, fun _ => ?_⟩, fun trail name => ?_, ?_, ?_, ?_⟩
  · rw [Walk.visit_place, behind_of_opensFrame opens]
  · rw [Walk.visit_place]
    exact behind_eq_declare known node walk.place
  · rw [Walk.walkAt_place]
    exact findLocal?_eq_boundTo? known trail name
  · intro distinct trail node name leads opened kind
    have symbol : resolver.symbol node = Walk.symbolAt? known trail node :=
      Walk.visit_symbol known distinct leads opened
    have scope : resolver.scope node = Walk.scopeAt? known trail node :=
      Walk.visit_scope known distinct leads opened
    rw [Walk.symbolAt?, kind] at symbol
    rw [Walk.scopeAt?, kind] at scope
    refine ⟨fun site bound => ?_, fun unbound found same => ?_, ?_⟩
    · exact symbol.trans (nameSymbol?_of_bound bound)
    · exact nameSymbol?_of_unbound unbound (symbol.symm.trans same)
    · rw [scope, Option.map_some, Known.scopeAt, locals_eq_openScopes, List.map_map]
      rfl
  · intro inner node before outer scope isOpen declares
    exact not_precedes_itself inner before outer node (precedes_of_mem_openScopes isOpen declares)
  · intro frame others refills node below outside
    exact refills.toResolver_eq lineCount context below outside

/-- The use of a parameter as the initial value of a variable. -/
def timerUse : Node := ⟨9, .identifier "s" false, some .initialValue, "s", 1, []⟩

def threadType : Node := ⟨8, .identifier "Thread" true, some .type, "Thread", 1, []⟩

def threadVariable : Node :=
  ⟨7, .variableDecl "t", none, "Thread t = s", 1, [threadType, timerUse]⟩

/-- The block `{ Thread t = s; }`. -/
def threadBlock : Node := ⟨6, .block, none, "", 1, [threadVariable]⟩

/-- The use of the name of the variable behind the block. -/
def threadUse : Node := ⟨10, .identifier "t" false, none, "t", 1, []⟩

/-- A variable of a type, in a role. -/
def tickVariable (id : Nat) (role : Option Syntax.Role) (name type : String)
    (value : List Node) : Node :=
  ⟨id, .variableDecl name, role, "", 1,
    ⟨id + 1, .identifier type true, some .type, type, 1, []⟩ :: value⟩

/-- A name in a role. -/
def tickUse (id : Nat) (role : Option Syntax.Role) (name : String) : Node :=
  ⟨id, .identifier name false, role, name, 1, []⟩

/-- A block around the use of a name. -/
def tickBody (id : Nat) (name : String) : Node :=
  ⟨id, .block, some .body, "", 1, [tickUse (id + 1) none name]⟩

def loopVariable : Node :=
  tickVariable 11 (some .initialValue) "i" "Tick" [tickUse 13 (some .initialValue) "s"]

/-- The loop `for (Tick i = s; ; ) { i; }`. -/
def tickLoop : Node := ⟨14, .forLoop, none, "", 1, [loopVariable, tickBody 15 "i"]⟩

def eachVariable : Node := tickVariable 17 none "e" "Tick" []

def eachSource : Node := tickUse 19 (some .expression) "s"

/-- The loop `for (Tick e : s) { e; }`. -/
def tickEach : Node := ⟨20, .enhancedFor, none, "", 1, [eachVariable, eachSource, tickBody 21 "e"]⟩

def caseVariable : Node := tickVariable 23 none "k" "Tick" [tickUse 25 (some .initialValue) "s"]

def tickCase : Node :=
  ⟨26, .caseLabel (some "0") true false, none, "0", 1, [caseVariable, tickUse 27 none "k"]⟩

/-- The statement `switch (s) { case 0: Tick k = s; k; }`. -/
def tickSwitch : Node :=
  ⟨28, .switch, none, "", 1, [tickUse 29 (some .condition) "s", tickCase]⟩

def resourceVariable : Node := tickVariable 30 none "r" "Tick" [tickUse 32 (some .initialValue) "s"]

/-- The statement `try (Tick r = s) { r; }`. -/
def resourceTry : Node :=
  ⟨33, .other "try_with_resources_statement", none, "", 1, [resourceVariable, tickBody 34 "r"]⟩

def faultVariable : Node := tickVariable 36 (some .parameter) "f" "Fault" []

/-- The clause `catch (Fault f) { f; }`. -/
def faultCatch : Node :=
  ⟨38, .other "catch_clause", none, "", 1, [faultVariable, tickBody 39 "f"]⟩

def faultTry : Node := ⟨41, .other "try_statement", none, "", 1, [faultCatch]⟩

def lambdaVariable : Node := ⟨42, .variableDecl "x", some .parameter, "x", 1, []⟩

/-- The function `x -> x`. -/
def tickLambda : Node := ⟨43, .lambda, none, "", 1, [lambdaVariable, tickUse 44 (some .body) "x"]⟩

def runBlock : Node :=
  ⟨5, .block, some .body, "", 1, [threadBlock, tickLoop, tickEach, tickSwitch, resourceTry,
    faultTry, tickLambda, threadUse]⟩

def timerParameter : Node :=
  ⟨3, .variableDecl "s", some .parameter, "Timer s", 1,
    [⟨4, .identifier "Timer" true, some .type, "Timer", 1, []⟩]⟩

def runMethod : Node := ⟨2, .methodDecl "run", some .member, "", 1, [timerParameter, runBlock]⟩

def clockClass : Node := ⟨1, .classDecl "Clock" .classType, none, "", 1, [runMethod]⟩

/-- The class `Clock` with the method `void run(Timer s)`, in which every construct that opens a
frame declares a variable, and the name of the first one stands behind them all. -/
def clockUnit : Node := ⟨0, .compilationUnit, none, "", 1, [clockClass]⟩

/-- The way down to a statement of the method, behind the ones before it. -/
def runTrail (before : List Node) : Trail :=
  [⟨runBlock, before⟩, ⟨runMethod, [timerParameter]⟩, ⟨clockClass, []⟩, ⟨clockUnit, []⟩]

theorem leads_runBlock : Leads clockUnit (runTrail []).tail runBlock := by
  have toClass : Leads clockUnit [⟨clockUnit, []⟩] clockClass := .child .root rfl rfl
  have toMethod : Leads clockUnit [⟨clockClass, []⟩, ⟨clockUnit, []⟩] runMethod :=
    toClass.child rfl rfl
  exact toMethod.child rfl rfl

/-- What is known at the use of a name: what kind of symbol it is, and which locals are in scope. -/
def seenAt (resolver : Resolver) (use : Node) : Option SymbolKind × Option (List Element) :=
  ((resolver.symbol use).map (·.kind), (resolver.scope use).map (·.locals))

/-- The variable is not bound to in its own initial value, where the parameter is, and no more
behind its block. Each construct has its own variable in scope beside the parameter, and leaves
everything as it was. The name behind them all has the same symbol if the block is empty. -/
theorem clockUnit_isLexical :
    let resolver := (ofUnit clockUnit 1 []).toResolver
    let emptied := (ofUnit (refilled 6 [] clockUnit) 1 []).toResolver
    (∀ frame ∈ [runMethod, threadBlock, tickLoop, tickEach, tickLambda, tickSwitch, faultCatch,
      resourceTry], ∀ walk, (Walk.visit (knownIn clockUnit []) walk frame).place = walk.place) ∧
    resolver.symbol timerUse =
      some { kind := .parameter, name := "s", enclosingType := some "Clock" } ∧
    seenAt resolver timerUse = (some .parameter, some [⟨"s", "Timer"⟩]) ∧
    seenAt resolver (tickUse 16 none "i") =
      (some .localVariable, some [⟨"i", "Tick"⟩, ⟨"s", "Timer"⟩]) ∧
    seenAt resolver (tickUse 22 none "e") =
      (some .localVariable, some [⟨"e", "Tick"⟩, ⟨"s", "Timer"⟩]) ∧
    seenAt resolver (tickUse 27 none "k") =
      (some .localVariable, some [⟨"k", "Tick"⟩, ⟨"s", "Timer"⟩]) ∧
    seenAt resolver (tickUse 35 none "r") =
      (some .localVariable, some [⟨"r", "Tick"⟩, ⟨"s", "Timer"⟩]) ∧
    seenAt resolver (tickUse 40 none "f") =
      (some .parameter, some [⟨"f", "Fault"⟩, ⟨"s", "Timer"⟩]) ∧
    seenAt resolver (tickUse 44 (some .body) "x") =
      (some .parameter, some [⟨"x", Names.objectType⟩, ⟨"s", "Timer"⟩]) ∧
    ((∀ symbol, resolver.symbol threadUse = some symbol → symbol.kind ≠ .localVariable) ∧
      (resolver.scope threadUse).map (·.locals) = some [⟨"s", "Timer"⟩]) ∧
    emptied.symbol threadUse = resolver.symbol threadUse ∧
      emptied.scope threadUse = resolver.scope threadUse := by
  intro resolver emptied
  have distinct : clockUnit.HasDistinctIds := by decide
  have distinctToo : (refilled 6 [] clockUnit).HasDistinctIds := by decide
  obtain ⟨places, -, names, -, outside⟩ := scoping_is_lexical clockUnit 1 []
  have seen {trail : Trail} {use : Node} {name : String} {site : Site}
      (leads : Leads clockUnit trail use) (opened : trail.IsOpen)
      (kind : use.kind = .identifier name false) (bound : boundTo? trail name = some site) :
      seenAt resolver use = (some site.kind, some ((openScopes trail).flatten.map fun site =>
        ⟨site.name, site.typeText (knownIn clockUnit [])⟩)) := by
    obtain ⟨symbol, -, scope⟩ := names distinct trail use name leads opened kind
    rw [seenAt, symbol site bound, scope]
    rfl
  have toBlock : Leads clockUnit (runTrail []) threadBlock := leads_runBlock.child rfl rfl
  have toVariable : Leads clockUnit (⟨threadBlock, []⟩ :: runTrail []) threadVariable :=
    toBlock.child rfl rfl
  have toTimer : Leads clockUnit
      (⟨threadVariable, [threadType]⟩ :: ⟨threadBlock, []⟩ :: runTrail []) timerUse :=
    toVariable.child rfl rfl
  have toLoop : Leads clockUnit (runTrail [threadBlock]) tickLoop := leads_runBlock.child rfl rfl
  have toEach : Leads clockUnit (runTrail [threadBlock, tickLoop]) tickEach :=
    leads_runBlock.child rfl rfl
  have toSwitch : Leads clockUnit (runTrail [threadBlock, tickLoop, tickEach]) tickSwitch :=
    leads_runBlock.child rfl rfl
  have toResource : Leads clockUnit (runTrail [threadBlock, tickLoop, tickEach, tickSwitch])
      resourceTry := leads_runBlock.child rfl rfl
  have toFault : Leads clockUnit
      (runTrail [threadBlock, tickLoop, tickEach, tickSwitch, resourceTry]) faultTry :=
    leads_runBlock.child rfl rfl
  have toLambda : Leads clockUnit
      (runTrail [threadBlock, tickLoop, tickEach, tickSwitch, resourceTry, faultTry]) tickLambda :=
    leads_runBlock.child rfl rfl
  have toThread : Leads clockUnit (runTrail [threadBlock, tickLoop, tickEach, tickSwitch,
      resourceTry, faultTry, tickLambda]) threadUse := leads_runBlock.child rfl rfl
  have inLoop : Leads clockUnit (⟨tickBody 15 "i", []⟩ :: ⟨tickLoop, [loopVariable]⟩ ::
      runTrail [threadBlock]) (tickUse 16 none "i") := .child (toLoop.child rfl rfl) rfl rfl
  have inEach : Leads clockUnit (⟨tickBody 21 "e", []⟩ :: ⟨tickEach, [eachVariable, eachSource]⟩ ::
      runTrail [threadBlock, tickLoop]) (tickUse 22 none "e") :=
    .child (toEach.child rfl rfl) rfl rfl
  have inSwitch : Leads clockUnit (⟨tickCase, [caseVariable]⟩ ::
      ⟨tickSwitch, [tickUse 29 (some .condition) "s"]⟩ ::
      runTrail [threadBlock, tickLoop, tickEach]) (tickUse 27 none "k") :=
    .child (toSwitch.child rfl rfl) rfl rfl
  have inResource : Leads clockUnit (⟨tickBody 34 "r", []⟩ :: ⟨resourceTry, [resourceVariable]⟩ ::
      runTrail [threadBlock, tickLoop, tickEach, tickSwitch]) (tickUse 35 none "r") :=
    .child (toResource.child rfl rfl) rfl rfl
  have inCatch : Leads clockUnit (⟨tickBody 39 "f", []⟩ :: ⟨faultCatch, [faultVariable]⟩ ::
      ⟨faultTry, []⟩ :: runTrail [threadBlock, tickLoop, tickEach, tickSwitch, resourceTry])
      (tickUse 40 none "f") :=
    .child (.child (toFault.child rfl rfl) rfl rfl) rfl rfl
  have inLambda : Leads clockUnit (⟨tickLambda, [lambdaVariable]⟩ ::
      runTrail [threadBlock, tickLoop, tickEach, tickSwitch, resourceTry, faultTry])
      (tickUse 44 (some .body) "x") := toLambda.child rfl rfl
  have refills : Refills clockUnit threadBlock [] := by
    refine ⟨toBlock.mem_preorder, rfl, ?_, (fun _ inside => nomatch inside),
      (fun _ kind => nomatch kind), distinct, distinctToo⟩
    intro node inside name flavor kind
    simp [threadBlock, threadVariable, threadType, timerUse, preorderAll, Node.preorder] at inside
    rcases inside with rfl | rfl | rfl <;> cases kind
  obtain ⟨timer, -⟩ := names distinct _ timerUse "s" toTimer (by decide) rfl
  obtain ⟨-, thread, threadScope⟩ := names distinct _ threadUse "t" toThread (by decide) rfl
  refine ⟨?_, timer _ rfl, (seen toTimer (by decide) rfl rfl).trans rfl,
    (seen inLoop (by decide) rfl rfl).trans rfl, (seen inEach (by decide) rfl rfl).trans rfl,
    (seen inSwitch (by decide) rfl rfl).trans rfl, (seen inResource (by decide) rfl rfl).trans rfl,
    (seen inCatch (by decide) rfl rfl).trans rfl, (seen inLambda (by decide) rfl rfl).trans rfl,
    ⟨fun symbol found => (thread rfl symbol found).1, threadScope.trans rfl⟩, ?_⟩
  · intro frame inside walk
    refine (places walk frame).1 ?_
    revert frame
    decide +kernel
  · refine outside threadBlock [] refills threadUse toThread.mem_preorder fun inside => ?_
    simp [threadBlock, threadVariable, threadType, timerUse, threadUse, preorderAll,
      Node.preorder] at inside

end JavaStructure.Resolution
