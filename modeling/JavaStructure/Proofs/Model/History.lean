/-
# The history of a model

What operations led to a model can in part be read off it. This module says of any
operations, applied one after the other, which names the types got and keep, which types
are declared, and when a constructor was synthesized. What one operation does is said
first; induction on the operations carries it through.
-/

import JavaStructure.Proofs.Model.Arena
import JavaStructure.Proofs.Model.DefinedNames

namespace JavaStructure

namespace Model

variable {model : Model} {operation : Operation} {operations : List Operation}
variable {id type owner : TypeId} {name : String}

/-- A type is found under a name exactly if it has that name. -/
theorem lookup_eq_some_iff (names : (model.types.map (·.name)).Nodup) :
    model.lookup name = some id ↔ model.nameOf id = some name := by
  have sound {id : TypeId} (found : model.lookup name = some id) :
      model.nameOf id = some name := by
    obtain ⟨inside, named, _⟩ := List.findIdx?_eq_some_iff_getElem.mp found
    simpa [nameOf, List.getElem?_eq_getElem inside] using named
  refine ⟨sound, fun named => ?_⟩
  rw [nameOf, ← List.getElem?_map] at named
  cases found : model.lookup name with
  | none => exact absurd (List.mem_of_getElem? named) (lookup_eq_none_iff.mp found)
  | some first =>
      have namedToo := sound found
      rw [nameOf, ← List.getElem?_map] at namedToo
      have inside := (List.getElem?_eq_some_iff.mp namedToo).1
      rw [(List.getElem?_inj inside names).mp (namedToo.trans named.symm)]

theorem Operation.apply_grows (model : Model) (operation : Operation) :
    model.Grows (operation.apply model) := by
  cases operation with
  | intern name => exact (intern_mentions model name).toGrows
  | define name => exact (define_mentions model name).toGrows
  | addRelation type relation => exact (addRelation_mentions ..).toGrows
  | addMember type slot => exact (addMember_mentions ..).toGrows
  | addMethod owner name parameters origin => exact (addMethod_registers ..).toGrows
  | constructor owner => exact (constructor_mentions model owner).toGrows
  | addStatement method statement => exact addStatement_grows ..
  | addImport declaration => exact (addImport_mentions ..).toGrows
  | lookup name | findMethod owner name => exact .refl model

/-- Types keep their names and methods their headers through all operations. -/
theorem perform_grows (model : Model) (operations : List Operation) :
    model.Grows (model.perform operations) := by
  induction operations generalizing model with
  | nil => exact .refl model
  | cons operation rest ih => exact (operation.apply_grows model).trans (ih _)

/-- One operation declares a name exactly if it defines it. -/
theorem Operation.mem_definedNames_apply (model : Model) (operation : Operation)
    (name : String) :
    name ∈ (operation.apply model).definedNames ↔
      name ∈ model.definedNames ∨ operation = .define name := by
  cases operation with
  | define defined => simpa [apply, eq_comm] using mem_definedNames_define model defined name
  | _ => simp [apply]

/-- After any operations, the names that were defined are declared. -/
theorem mem_definedNames_perform (model : Model) (operations : List Operation)
    (name : String) :
    name ∈ (model.perform operations).definedNames ↔
      name ∈ model.definedNames ∨ Operation.define name ∈ operations := by
  induction operations generalizing model with
  | nil => simp
  | cons operation rest ih =>
      calc name ∈ (model.perform (operation :: rest)).definedNames
        _ ↔ name ∈ (operation.apply model).definedNames ∨ Operation.define name ∈ rest :=
          ih (operation.apply model)
        _ ↔ name ∈ model.definedNames ∨ operation = .define name ∨
            Operation.define name ∈ rest := by
          rw [operation.mem_definedNames_apply, or_assoc]
        _ ↔ name ∈ model.definedNames ∨ Operation.define name ∈ operation :: rest := by
          rw [List.mem_cons, eq_comm]

/-- The header of a constructor that an operation synthesizes. -/
def synthesizedHeader (owner : TypeId) : MethodHeader :=
  { owner, name := Syntax.constructorName, origin := .synthesized, parameters := [] }

/-- How an operation comes to add a method of some header: it is told to, or it looks for
a constructor that the owner does not have. -/
def Operation.Adds (model : Model) (operation : Operation) (header : MethodHeader) : Prop :=
  operation = .addMethod header.owner header.name header.parameters header.origin ∨
    operation = .constructor header.owner ∧
      model.findMethod header.owner Syntax.constructorName = none ∧
      header = synthesizedHeader header.owner

/-- A method is added at the end or is there already. -/
theorem headers_addMethod (model : Model) (owner : TypeId) (name : String)
    (parameters : List Slot) (origin : Origin) :
    (model.addMethod owner name parameters origin).2.methods.map (·.header) =
        model.methods.map (·.header) ∨
      (model.addMethod owner name parameters origin).2.methods.map (·.header) =
        model.methods.map (·.header) ++
          [({ owner, name, origin, parameters } : MethodHeader)] := by
  rw [addMethod]
  split
  · exact .inl rfl
  · right
    simp [Model.modifyType, Method.header]

/-- An operation leaves the methods as they are, or adds one at the end. -/
theorem Operation.headers_apply (model : Model) (operation : Operation) :
    (operation.apply model).methods.map (·.header) = model.methods.map (·.header) ∨
      ∃ header, operation.Adds model header ∧
        (operation.apply model).methods.map (·.header) =
          model.methods.map (·.header) ++ [header] := by
  cases operation with
  | intern name | define name => exact .inl (congrArg _ (methods_intern model name))
  | lookup name | findMethod owner name => exact .inl rfl
  | addRelation type relation | addMember type slot | addImport declaration => exact .inl rfl
  | addMethod owner name parameters origin =>
      exact (headers_addMethod model owner name parameters origin).imp_right
        fun added => ⟨_, .inl rfl, added⟩
  | constructor owner =>
      simp only [apply, Model.constructor]
      split
      · exact .inl rfl
      · next missing =>
          exact (headers_addMethod ..).imp_right fun added =>
            ⟨synthesizedHeader owner, .inr ⟨rfl, missing, rfl⟩, added⟩
  | addStatement method statement =>
      left
      refine map_modify_of_eq Method.header ?_ model.methods method
      exact fun _ => rfl

/-- Each method was there before the operations, or one of them added it at the next
position. -/
theorem exists_adds (model : Model) {operations : List Operation} {id : MethodId}
    {header : MethodHeader}
    (found : ((model.perform operations).methods.map (·.header))[id]? = some header) :
    (model.methods.map (·.header))[id]? = some header ∨
      ∃ earlier operation later, operations = earlier ++ operation :: later ∧
        operation.Adds (model.perform earlier) header ∧
        id = (model.perform earlier).methods.length := by
  induction operations generalizing model with
  | nil => exact .inl found
  | cons operation rest ih =>
      rcases ih (operation.apply model) found with old | ⟨earlier, adding, later, rfl, adds, rfl⟩
      · rcases operation.headers_apply model with same | ⟨added, adds, appended⟩
        · exact .inl (same ▸ old)
        · rw [appended] at old
          rcases Nat.lt_trichotomy id (model.methods.map (·.header)).length with
            inside | rfl | outside
          · rw [List.getElem?_append_left inside] at old
            exact .inl old
          · rw [List.getElem?_concat_length] at old
            obtain rfl := Option.some.inj old
            exact .inr ⟨[], operation, rest, rfl, adds, List.length_map ..⟩
          · rw [List.getElem?_eq_none (by simpa [Nat.succ_le_iff] using outside)] at old
            cases old
      · exact .inr ⟨operation :: earlier, adding, later, rfl, adds, rfl⟩

/-- No operation adds a constructor that no declaration stands for, other than by looking
for one. -/
def SynthesizeOnDemand (operations : List Operation) : Prop :=
  ∀ owner parameters,
    Operation.addMethod owner Syntax.constructorName parameters .synthesized ∉ operations

/-- A synthesized constructor has no parameters, and goes back to a search for a constructor
that its owner did not have. -/
theorem exists_search {operations : List Operation} {moduleInfo : ModuleInfo}
    (onDemand : SynthesizeOnDemand operations) {id : MethodId} {method : Method}
    (found : (perform { moduleInfo } operations).methods[id]? = some method)
    (synthesized : method.IsSynthesized) :
    method.parameters = [] ∧
      ∃ earlier later, operations = earlier ++ .constructor method.owner :: later ∧
        (perform { moduleInfo } earlier).findMethod method.owner Syntax.constructorName = none ∧
        id = (perform { moduleInfo } earlier).methods.length := by
  obtain ⟨named, origin⟩ := synthesized
  have header : ((perform { moduleInfo } operations).methods.map (·.header))[id]? =
      some method.header := by
    rw [List.getElem?_map, found]
    rfl
  rcases exists_adds _ header with old | ⟨earlier, operation, later, rfl, adds, last⟩
  · cases old
  · rcases adds with direct | ⟨rfl, missing, made⟩
    · refine absurd ?_ (onDemand method.owner method.parameters)
      have added : operation = .addMethod method.owner method.name method.parameters
        method.origin := direct
      rw [← named, ← origin, ← added]
      simp
    · exact ⟨congrArg MethodHeader.parameters made, earlier, later, rfl, missing, last⟩

/-- A type whose methods are listed has a method of a name if it is found under it. -/
theorem Orderly.findMethod_eq_none (orderly : model.Orderly)
    (missing : model.findMethod owner name = none) {method : Method}
    (inside : method ∈ model.methods) (owned : method.owner = owner) : method.name ≠ name := by
  obtain ⟨id, found⟩ := List.mem_iff_getElem?.mp inside
  have listed : id ∈ model.methodIds owner := by
    rw [orderly.listed]
    exact mem_idsOwnedBy.mpr ⟨method, found, owned⟩
  have other := List.find?_eq_none.mp missing id listed
  simp only [found, beq_iff_eq] at other
  exact other

theorem perform_append (model : Model) (front back : List Operation) :
    model.perform (front ++ back) = (model.perform front).perform back :=
  List.foldl_append

theorem findOwners_append {front back : List Operation} :
    model.FindOwners (front ++ back) ↔
      model.FindOwners front ∧ (model.perform front).FindOwners back := by
  induction front generalizing model with
  | nil => simp [FindOwners]
  | cons operation rest ih => simp [FindOwners, ih, and_assoc]

/-- What an operation adds belongs to the owner that it finds. -/
theorem Operation.Adds.owner_lt {header : MethodHeader} (adds : operation.Adds model header)
    (findsOwner : operation.FindsOwner model) : header.owner < model.types.length := by
  rcases adds with rfl | ⟨rfl, -, -⟩
  · exact findsOwner
  · exact findsOwner

theorem Operation.apply_owned
    (owned : ∀ header ∈ model.methods.map (·.header), header.owner < model.types.length)
    (findsOwner : operation.FindsOwner model) :
    ∀ header ∈ (operation.apply model).methods.map (·.header),
      header.owner < (operation.apply model).types.length := by
  intro header inside
  refine Nat.lt_of_lt_of_le ?_ (operation.apply_grows model).types_length_le
  rcases operation.headers_apply model with same | ⟨added, adds, appended⟩
  · exact owned header (same ▸ inside)
  · rcases List.mem_append.mp (appended ▸ inside) with old | new
    · exact owned header old
    · obtain rfl := List.mem_singleton.mp new
      exact adds.owner_lt findsOwner

/-- The owners of all methods exist. -/
theorem perform_owned (model : Model)
    (owned : ∀ header ∈ model.methods.map (·.header), header.owner < model.types.length)
    (findOwners : model.FindOwners operations) :
    ∀ header ∈ (model.perform operations).methods.map (·.header),
      header.owner < (model.perform operations).types.length := by
  induction operations generalizing model with
  | nil => exact owned
  | cons operation rest ih => exact ih _ (operation.apply_owned owned findOwners.1) findOwners.2

/-- As long as only the search for a constructor synthesizes one, a type has no two of them,
and it had no constructor at all when the search made one up. -/
theorem perform_synthesized {moduleInfo : ModuleInfo}
    (findOwners : FindOwners { moduleInfo } operations)
    (onDemand : SynthesizeOnDemand operations) {id : MethodId} {method : Method}
    (found : (perform { moduleInfo } operations).methods[id]? = some method)
    (synthesized : method.IsSynthesized) :
    (∀ other methodToo, (perform { moduleInfo } operations).methods[other]? = some methodToo →
      methodToo.IsSynthesized → methodToo.owner = method.owner → other = id) ∧
      ∃ earlier later, operations = earlier ++ .constructor method.owner :: later ∧
        id = (perform { moduleInfo } earlier).methods.length ∧
        ∀ before ∈ (perform { moduleInfo } earlier).methods,
          before.owner = method.owner → before.name ≠ Syntax.constructorName := by
  have orderly := perform_orderly (orderly_empty moduleInfo) findOwners
  refine ⟨fun other methodToo foundToo synthesizedToo sameOwner => ?_, ?_⟩
  · -- Synthesized constructors have no parameters, so only the owner tells them apart.
    have empty := (exists_search onDemand found synthesized).1
    have emptyToo := (exists_search onDemand foundToo synthesizedToo).1
    have sameKey : methodToo.key = method.key := by
      simp [Method.key, empty, emptyToo, sameOwner, synthesized.1, synthesizedToo.1,
        synthesized.2, synthesizedToo.2]
    have inside : other < ((perform { moduleInfo } operations).methods.map Method.key).length := by
      simpa using (List.getElem?_eq_some_iff.mp foundToo).1
    refine (List.getElem?_inj inside orderly.keys).mp ?_
    calc ((perform { moduleInfo } operations).methods.map Method.key)[other]?
      _ = some methodToo.key := by rw [List.getElem?_map, foundToo, Option.map_some]
      _ = some method.key := congrArg some sameKey
      _ = ((perform { moduleInfo } operations).methods.map Method.key)[id]? := by
        rw [List.getElem?_map, found, Option.map_some]
  · obtain ⟨-, earlier, later, split, missing, last⟩ := exists_search onDemand found synthesized
    have before := perform_orderly (orderly_empty moduleInfo)
      (findOwners_append.mp (split ▸ findOwners)).1
    exact ⟨earlier, later, split, last, fun methodToo inside owned =>
      before.findMethod_eq_none missing inside owned⟩

end Model

end JavaStructure
