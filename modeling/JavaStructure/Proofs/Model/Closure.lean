/-
# Models whose references are closed

Types and methods refer to each other by position, and no operation checks a position it
is given. A model is closed if every position in it is the position of something, types
have different names, each type lists exactly its own methods, and what can be seen of a
method belongs to a type that the module declares. One lemma for each operation says under
which conditions it keeps a model closed.
-/

import JavaStructure.Proofs.Model.Growth

namespace JavaStructure

/-- The types that a statement refers to. -/
def Statement.references : Statement → List TypeId
  | .openScope _ | .closeScope => []
  | .call _ target => [target]
  | .variableUse _ owner type => [owner, type]

/-- The types that the entry of a type refers to. -/
def TypeEntry.references (entry : TypeEntry) : List TypeId :=
  entry.members.map (·.type) ++ entry.relations.map (·.target)

/-- The types that a method refers to. -/
def Method.references (method : Method) : List TypeId :=
  method.owner ::
    (method.parameters.map (·.type) ++ method.statements.flatMap Statement.references)

/-- Whether a method is declared, or something is known of what it does. -/
def Method.IsTelling (method : Method) : Prop :=
  method.origin ≠ .synthesized ∨ method.statements ≠ []

namespace Model

/-- Whether a type is one that the module declares. -/
def IsDeclared (model : Model) (type : TypeId) : Prop :=
  ∃ entry, model.types[type]? = some entry ∧ entry.moduleDefined = true

/-- The methods of an owner by position, in the order in which they were registered. -/
def idsOwnedBy (model : Model) (owner : TypeId) : List MethodId :=
  (List.range model.methods.length).filter fun id =>
    (model.methods.map (·.owner))[id]? = some owner

/-- Whether a method exists and belongs to a type that the module declares. -/
def IsPlaced (model : Model) (id : MethodId) : Prop :=
  ∃ method, model.methods[id]? = some method ∧ model.IsDeclared method.owner

/-- Every reference in a model leads somewhere. -/
structure Closed (model : Model) : Prop where
  names : (model.types.map (·.name)).Nodup
  ofTypes : ∀ entry ∈ model.types, ∀ type ∈ entry.references, type < model.types.length
  ofMethods : ∀ method ∈ model.methods, ∀ type ∈ method.references, type < model.types.length
  listed : ∀ owner < model.types.length, model.methodIds owner = model.idsOwnedBy owner
  placed : ∀ method ∈ model.methods, method.IsTelling → model.IsDeclared method.owner

/-- The later model is closed and declares what the earlier one declares. -/
structure Closes (before after : Model) : Prop where
  declared : ∀ type, before.IsDeclared type → after.IsDeclared type
  closed : after.Closed

variable {model before middle after : Model} {id owner type : TypeId}

namespace Closes

theorem refl (closed : model.Closed) : Closes model model :=
  ⟨fun _ declared => declared, closed⟩

theorem trans (first : Closes before middle) (second : Closes middle after) :
    Closes before after :=
  ⟨fun type declared => second.declared type (first.declared type declared), second.closed⟩

end Closes

theorem IsDeclared.lt (declared : model.IsDeclared type) : type < model.types.length := by
  obtain ⟨entry, found, -⟩ := declared
  exact (List.getElem?_eq_some_iff.mp found).1

/-- A method stays where it is, under its owner. -/
theorem Closes.isPlaced (closes : Closes before after) (grows : Grows before after)
    (placed : before.IsPlaced id) : after.IsPlaced id := by
  obtain ⟨method, found, declared⟩ := placed
  have header : (after.methods.map (·.header))[id]? = some method.header := by
    obtain ⟨rest, appended⟩ := grows.headers
    rw [← appended, List.getElem?_append_left, List.getElem?_map, found, Option.map_some]
    simpa using (List.getElem?_eq_some_iff.mp found).1
  rw [List.getElem?_map] at header
  obtain ⟨methodToo, foundToo, same⟩ := Option.map_eq_some_iff.mp header
  have owner : methodToo.owner = method.owner := congrArg MethodHeader.owner same
  exact ⟨methodToo, foundToo, owner ▸ closes.declared _ declared⟩

theorem Grows.types_length_le (grows : Grows before after) :
    before.types.length ≤ after.types.length := by
  simpa using grows.typeNames.length_le

theorem methodIds_eq {entry : TypeEntry} (found : model.types[owner]? = some entry) :
    model.methodIds owner = entry.methods := by
  rw [methodIds, found]

theorem getElem?_modifyType (model : Model) (id : TypeId) (change : TypeEntry → TypeEntry)
    (position : TypeId) :
    (model.modifyType id change).types[position]? =
      model.types[position]?.map (if id = position then change else fun entry => entry) := by
  simp only [Model.modifyType, List.getElem?_modify]
  cases model.types[position]? <;> split <;> simp

theorem length_modifyType (model : Model) (id : TypeId) (change : TypeEntry → TypeEntry) :
    (model.modifyType id change).types.length = model.types.length :=
  List.length_modify ..

theorem mem_modifyType {change : TypeEntry → TypeEntry} {entry : TypeEntry}
    (inside : entry ∈ (model.modifyType id change).types) :
    entry ∈ model.types ∨ ∃ before ∈ model.types, entry = change before := by
  obtain ⟨position, found⟩ := List.mem_iff_getElem?.mp inside
  rw [getElem?_modifyType] at found
  obtain ⟨before, present, rfl⟩ := Option.map_eq_some_iff.mp found
  have member := List.mem_of_getElem? present
  split
  · exact .inr ⟨before, member, rfl⟩
  · exact .inl member

/-- A change that takes no declaration back leaves declared what is. -/
theorem IsDeclared.modifyType {change : TypeEntry → TypeEntry} (declared : model.IsDeclared type)
    (defined : ∀ entry, entry.moduleDefined = true → (change entry).moduleDefined = true) :
    (model.modifyType id change).IsDeclared type := by
  obtain ⟨entry, found, isDefined⟩ := declared
  refine ⟨_, (getElem?_modifyType ..).trans (by rw [found]; rfl), ?_⟩
  split
  · exact defined entry isDefined
  · exact isDefined

/-- A change of an entry that keeps its methods keeps the methods of every type. -/
theorem methodIds_modifyType (model : Model) (id : TypeId) {change : TypeEntry → TypeEntry}
    (methods : ∀ entry, (change entry).methods = entry.methods) (owner : TypeId) :
    (model.modifyType id change).methodIds owner = model.methodIds owner := by
  rw [methodIds, methodIds, getElem?_modifyType]
  cases model.types[owner]? with
  | none => rfl
  | some entry =>
      simp only [Option.map_some]
      split
      · exact methods entry
      · rfl

/-- A new type without methods is not told apart from a missing one. -/
theorem methodIds_append_new (model : Model) {entry : TypeEntry} (empty : entry.methods = [])
    (owner : TypeId) :
    methodIds { model with types := model.types ++ [entry] } owner = model.methodIds owner := by
  rw [methodIds, methodIds]
  rcases Nat.lt_trichotomy owner model.types.length with inside | rfl | outside
  · rw [List.getElem?_append_left inside]
  · simp [empty]
  · rw [List.getElem?_eq_none (Nat.le_of_lt outside), List.getElem?_eq_none]
    rw [List.length_append]
    exact outside

/-- The entry of a type is changed, and says no less of what the module declares. -/
theorem Closed.modifyType (closed : model.Closed) {change : TypeEntry → TypeEntry}
    (name : ∀ entry, (change entry).name = entry.name)
    (methods : ∀ entry, (change entry).methods = entry.methods)
    (defined : ∀ entry, entry.moduleDefined = true → (change entry).moduleDefined = true)
    (references : ∀ entry, ∀ type ∈ (change entry).references,
      type ∈ entry.references ∨ type < model.types.length) :
    Closes model (model.modifyType id change) := by
  refine ⟨fun _ declared => declared.modifyType defined, ?_, fun entry inside type refers => ?_, ?_,
    fun owner below => ?_,
    fun method inside telling => (closed.placed method inside telling).modifyType defined⟩
  · have names := map_modify_of_eq TypeEntry.name name model.types id
    exact names ▸ closed.names
  · rw [length_modifyType]
    rcases mem_modifyType inside with old | ⟨before, old, rfl⟩
    · exact closed.ofTypes entry old type refers
    · exact (references before type refers).elim (closed.ofTypes before old type) fun below => below
  · rw [length_modifyType]
    exact closed.ofMethods
  · rw [length_modifyType] at below
    exact (methodIds_modifyType model id methods owner).trans (closed.listed owner below)

/-- A type that is looked up exists. -/
theorem lookup_lt {name : String} (found : model.lookup name = some type) :
    type < model.types.length :=
  (List.findIdx?_eq_some_iff_getElem.mp found).1

theorem lookup_eq_none_iff {name : String} :
    model.lookup name = none ↔ name ∉ model.types.map (·.name) := by
  simp [lookup]

/-- The positions of an owner's methods. -/
theorem mem_idsOwnedBy :
    id ∈ model.idsOwnedBy owner ↔
      ∃ method, model.methods[id]? = some method ∧ method.owner = owner := by
  rw [Model.idsOwnedBy, List.mem_filter, List.mem_range, decide_eq_true_eq, List.getElem?_map,
    Option.map_eq_some_iff, and_iff_right_iff_imp]
  rintro ⟨method, found, -⟩
  exact (List.getElem?_eq_some_iff.mp found).1

theorem Closed.idsOwnedBy_eq_nil (closed : model.Closed) (outside : model.types.length ≤ owner) :
    model.idsOwnedBy owner = [] := by
  rw [idsOwnedBy, List.filter_eq_nil_iff]
  intro id inside owned
  rw [decide_eq_true_eq, List.getElem?_map] at owned
  obtain ⟨method, found, rfl⟩ := Option.map_eq_some_iff.mp owned
  have below := closed.ofMethods method (List.mem_of_getElem? found) method.owner
    List.mem_cons_self
  exact absurd below (Nat.not_lt_of_le outside)

theorem intern_closes (closed : model.Closed) (name : String) :
    Closes model (model.intern name).2 ∧
      (model.intern name).1 < (model.intern name).2.types.length := by
  rw [intern]
  split
  · next type found => exact ⟨.refl closed, lookup_lt found⟩
  · next absent =>
      have grown (entry : TypeEntry) :
          (model.types ++ [entry]).length = model.types.length + 1 := List.length_append
      have declared (type : TypeId) (isDeclared : model.IsDeclared type) :
          IsDeclared { model with types := model.types ++ [{ name }] } type := by
        obtain ⟨entry, found, isDefined⟩ := isDeclared
        have inside := (List.getElem?_eq_some_iff.mp found).1
        exact ⟨entry, (List.getElem?_append_left inside).trans found, isDefined⟩
      refine ⟨⟨declared, ?_, fun entry inside type refers => ?_,
        fun method inside type refers => ?_, fun owner below => ?_,
        fun method inside telling => declared _ (closed.placed method inside telling)⟩, by simp⟩
      · rw [List.map_append, List.map_singleton, List.nodup_append]
        refine ⟨closed.names, List.pairwise_singleton _ _, ?_⟩
        rintro old known new inside rfl
        rw [List.mem_singleton.mp inside] at known
        exact lookup_eq_none_iff.mp absent known
      · rw [grown]
        rcases List.mem_append.mp inside with old | new
        · exact Nat.lt_succ_of_lt (closed.ofTypes entry old type refers)
        · rw [List.mem_singleton.mp new] at refers
          cases refers
      · rw [grown]
        exact Nat.lt_succ_of_lt (closed.ofMethods method inside type refers)
      · rw [grown] at below
        rcases Nat.lt_succ_iff_lt_or_eq.mp below with old | rfl
        · exact (methodIds_append_new model rfl owner).trans (closed.listed owner old)
        · refine Eq.trans ?_ (closed.idsOwnedBy_eq_nil (Nat.le_refl _)).symm
          rw [methodIds]
          simp

theorem define_closes (closed : model.Closed) (name : String) :
    Closes model (model.define name).2 ∧
      (model.define name).2.IsDeclared (model.define name).1 := by
  obtain ⟨interned, below⟩ := intern_closes closed name
  have marked : Closes (model.intern name).2 ((model.intern name).2.modifyType
      (model.intern name).1 fun entry => { entry with moduleDefined := true }) :=
    interned.closed.modifyType (fun _ => rfl) (fun _ => rfl) (fun _ _ => rfl)
      (fun _ _ refers => .inl refers)
  refine ⟨interned.trans marked, ?_⟩
  obtain ⟨entry, found⟩ : ∃ entry,
      (model.intern name).2.types[(model.intern name).1]? = some entry :=
    ⟨_, List.getElem?_eq_getElem below⟩
  have defined : model.define name = ((model.intern name).1, (model.intern name).2.modifyType
      (model.intern name).1 fun entry => { entry with moduleDefined := true }) := rfl
  rw [defined]
  refine ⟨{ entry with moduleDefined := true }, ?_, rfl⟩
  rw [getElem?_modifyType, found, if_pos rfl]
  rfl

theorem addRelation_closes (closed : model.Closed) {relation : Relation}
    (target : relation.target < model.types.length) :
    Closes model (model.addRelation id relation) := by
  apply closed.modifyType
  · intro entry
    split <;> rfl
  · intro entry
    split <;> rfl
  · intro entry defined
    split <;> exact defined
  · intro entry type refers
    split at refers
    · exact .inl refers
    · simp only [TypeEntry.references, List.map_append, List.mem_append] at refers ⊢
      rcases refers with member | old | new
      · exact .inl (.inl member)
      · exact .inl (.inr old)
      · obtain rfl := List.mem_singleton.mp new
        exact .inr target

theorem addMember_closes (closed : model.Closed) {slot : Slot}
    (typed : slot.type < model.types.length) : Closes model (model.addMember id slot) := by
  apply closed.modifyType
  · intro entry
    split <;> rfl
  · intro entry
    split <;> rfl
  · intro entry defined
    split <;> exact defined
  · intro entry type refers
    split at refers
    · exact .inl refers
    · simp only [TypeEntry.references, List.map_append, List.mem_append] at refers ⊢
      rcases refers with (old | new) | relation
      · exact .inl (.inl old)
      · obtain rfl := List.mem_singleton.mp new
        exact .inr typed
      · exact .inl (.inr relation)

theorem addImport_closes (closed : model.Closed) (declaration : String) :
    Closes model (model.addImport declaration) :=
  ⟨fun _ declared => declared,
    ⟨closed.names, closed.ofTypes, closed.ofMethods, closed.listed, closed.placed⟩⟩

/-- A model with one more method, at the end of the list of its owner. -/
def withMethod (model : Model) (method : Method) : Model :=
  { model with methods := model.methods ++ [method] }.modifyType method.owner fun entry =>
    { entry with methods := entry.methods ++ [model.methods.length] }

/-- The ids of an owner after a method was added. -/
theorem idsOwnedBy_withMethod (model : Model) (method : Method) (owner : TypeId) :
    (model.withMethod method).idsOwnedBy owner =
      model.idsOwnedBy owner ++ if method.owner = owner then [model.methods.length] else [] := by
  have count : (model.methods ++ [method]).length = model.methods.length + 1 :=
    List.length_append
  have old : (List.range model.methods.length).filter
        (fun id => ((model.methods ++ [method]).map (·.owner))[id]? = some owner) =
      model.idsOwnedBy owner := by
    refine List.filter_congr fun id inside => ?_
    have below : id < (model.methods.map (·.owner)).length := by
      simpa using List.mem_range.mp inside
    rw [List.map_append, List.getElem?_append_left below]
  rw [← old, idsOwnedBy]
  dsimp only [withMethod, modifyType]
  rw [count, List.range_succ, List.filter_append]
  congr 1
  by_cases same : method.owner = owner <;> simp [same]

/-- The methods of a type after a method was added to a type that exists. -/
theorem methodIds_withMethod {method : Method} (owned : method.owner < model.types.length)
    (owner : TypeId) :
    (model.withMethod method).methodIds owner =
      model.methodIds owner ++ if method.owner = owner then [model.methods.length] else [] := by
  have found := getElem?_modifyType { model with methods := model.methods ++ [method] }
    method.owner (fun entry => { entry with methods := entry.methods ++ [model.methods.length] })
    owner
  rw [methodIds, methodIds, withMethod, found]
  by_cases same : method.owner = owner
  · subst same
    simp [List.getElem?_eq_getElem owned]
  · cases model.types[owner]? <;> simp [same]

/-- A method is added to a type of the model, to one that the module declares if the method
is declared. -/
theorem withMethod_closes (closed : model.Closed) {method : Method}
    (silent : method.statements = [])
    (referred : ∀ type ∈ method.references, type < model.types.length)
    (placed : method.origin ≠ .synthesized → model.IsDeclared method.owner) :
    Closes model (model.withMethod method) := by
  have length : (model.withMethod method).types.length = model.types.length :=
    length_modifyType ..
  have declared (type : TypeId) (isDeclared : model.IsDeclared type) :
      (model.withMethod method).IsDeclared type :=
    IsDeclared.modifyType isDeclared fun _ isDefined => isDefined
  refine ⟨declared, ?_, fun entry inside type refers => ?_, fun other inside type refers => ?_,
    fun owner below => ?_, fun other inside telling => ?_⟩
  · have names : (model.withMethod method).types.map (·.name) = model.types.map (·.name) := by
      refine map_modify_of_eq TypeEntry.name ?_ model.types method.owner
      exact fun _ => rfl
    exact names ▸ closed.names
  · rw [length]
    rcases mem_modifyType inside with old | ⟨before, old, rfl⟩
    · exact closed.ofTypes entry old type refers
    · exact closed.ofTypes before old type refers
  · rw [length]
    rcases List.mem_append.mp inside with old | new
    · exact closed.ofMethods other old type refers
    · obtain rfl := List.mem_singleton.mp new
      exact referred type refers
  · rw [length] at below
    rw [idsOwnedBy_withMethod, ← closed.listed owner below]
    exact methodIds_withMethod (referred method.owner List.mem_cons_self) owner
  · rcases List.mem_append.mp inside with old | new
    · exact declared _ (closed.placed other old telling)
    · obtain rfl := List.mem_singleton.mp new
      exact declared _ (placed (telling.resolve_right fun some => some silent))

theorem addMethod_closes (closed : model.Closed) {name : String} {parameters : List Slot}
    {origin : Origin} (owned : owner < model.types.length)
    (typed : ∀ slot ∈ parameters, slot.type < model.types.length)
    (placed : origin ≠ .synthesized → model.IsDeclared owner) :
    Closes model (model.addMethod owner name parameters origin).2 := by
  rw [addMethod]
  split
  · exact .refl closed
  · apply withMethod_closes closed rfl _ placed
    intro type refers
    rcases List.mem_cons.mp refers with rfl | parameter
    · exact owned
    · obtain ⟨slot, inside, rfl⟩ := List.mem_map.mp (by simpa using parameter)
      exact typed slot inside

theorem constructor_closes (closed : model.Closed) (owned : owner < model.types.length) :
    Closes model (model.constructor owner).2 := by
  rw [constructor]
  split
  · exact .refl closed
  · exact addMethod_closes closed owned (by simp) (fun other => absurd rfl other)

/-- The method that is registered or found belongs to its owner. -/
theorem addMethod_isPlaced {name : String} {parameters : List Slot} {origin : Origin}
    (closes : Closes model (model.addMethod owner name parameters origin).2)
    (declared : model.IsDeclared owner) :
    (model.addMethod owner name parameters origin).2.IsPlaced
      (model.addMethod owner name parameters origin).1 := by
  have declaredToo := closes.declared owner declared
  revert declaredToo
  rw [addMethod]
  split
  · next id found =>
      intro declaredToo
      obtain ⟨inside, matching, -⟩ := List.findIdx?_eq_some_iff_getElem.mp found
      have owned : model.methods[id].owner = owner := by
        simp only [isMethodFor, Bool.and_eq_true, beq_iff_eq] at matching
        exact matching.1.1.1
      exact ⟨_, List.getElem?_eq_getElem inside, owned ▸ declaredToo⟩
  · exact fun declaredToo => ⟨_, List.getElem?_concat_length, declaredToo⟩

theorem mem_addStatement {statement : Statement} {method : Method}
    (inside : method ∈ (model.addStatement id statement).methods) :
    method ∈ model.methods ∨ ∃ before, model.methods[id]? = some before ∧
      method = { before with statements := before.statements ++ [statement] } := by
  obtain ⟨position, found⟩ := List.mem_iff_getElem?.mp inside
  simp only [addStatement, modifyMethod, List.getElem?_modify] at found
  cases present : model.methods[position]? with
  | none => simp [present] at found
  | some before =>
      rw [present, Option.map_eq_map, Option.map_some] at found
      split at found
      · next same =>
          subst same
          exact .inr ⟨before, present, (Option.some.inj found).symm⟩
      · rw [← Option.some.inj found]
        exact .inl (List.mem_of_getElem? present)

/-- Statements do not change which methods belong to a type. -/
theorem idsOwnedBy_addStatement (model : Model) (id : MethodId) (statement : Statement)
    (owner : TypeId) :
    (model.addStatement id statement).idsOwnedBy owner = model.idsOwnedBy owner := by
  have owners : (model.addStatement id statement).methods.map (·.owner) =
      model.methods.map (·.owner) := by
    refine map_modify_of_eq Method.owner ?_ model.methods id
    exact fun _ => rfl
  have count : (model.addStatement id statement).methods.length = model.methods.length :=
    List.length_modify ..
  rw [idsOwnedBy, idsOwnedBy, owners, count]

/-- A statement is added to a method of a type that the module declares. -/
theorem addStatement_closes (closed : model.Closed) {statement : Statement}
    (referred : ∀ type ∈ statement.references, type < model.types.length)
    (placed : model.IsPlaced id) :
    Closes model (model.addStatement id statement) := by
  refine ⟨fun _ declared => declared, closed.names, closed.ofTypes,
    fun method inside type refers => ?_, fun owner below => ?_, fun method inside telling => ?_⟩
  · rcases mem_addStatement inside with same | ⟨before, present, rfl⟩
    · exact closed.ofMethods method same type refers
    · have within := closed.ofMethods before (List.mem_of_getElem? present) type
      simp only [Method.references, List.flatMap_append, List.flatMap_singleton, List.mem_cons,
        List.mem_append] at refers within
      rcases refers with owns | parameter | old | new
      · exact within (.inl owns)
      · exact within (.inr (.inl parameter))
      · exact within (.inr (.inr old))
      · exact referred type new
  · exact (closed.listed owner below).trans (idsOwnedBy_addStatement model id statement owner).symm
  · rcases mem_addStatement inside with same | ⟨before, present, rfl⟩
    · exact closed.placed method same telling
    · obtain ⟨method, foundToo, declared⟩ := placed
      obtain rfl := Option.some.inj (foundToo.symm.trans present)
      exact declared

end Model

end JavaStructure
