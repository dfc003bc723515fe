/-
# Ways of paths

The names of a path lead through places and to a place, whatever stands there. Where a walk ends at
a file, or at a place where one could be, it is that place; and what a walk finds depends only on
what stands on its way. The parent of a path has the way of the path without its end.
-/

import JavaStructure.Proofs.Files.Directories
import JavaStructure.Proofs.Files.Parents

namespace JavaStructure

namespace Store

open JavaStructure.Path (IsVoid kept)

variable {store : Store} {path : Path} {place stop : Location} {names : List String} {name : String}

/-- The place that names lead to, whatever stands there. -/
def destination (place : Location) : List String → Location
  | [] => place
  | name :: rest =>
      if IsVoid name then destination place rest
      else if name = ".." then destination place.tail rest
      else destination (name :: place) rest

/-- The places that names enter one after the other, the last one included. -/
def stops (place : Location) : List String → List Location
  | [] => []
  | name :: rest =>
      if IsVoid name then stops place rest
      else if name = ".." then stops place.tail rest
      else (name :: place) :: stops (name :: place) rest

theorem destination_append (place : Location) (names more : List String) :
    destination place (names ++ more) = destination (destination place names) more := by
  induction names generalizing place with
  | nil => rfl
  | cons name rest ih =>
      simp only [List.cons_append, destination, ih]
      split
      · rfl
      · split <;> rfl

theorem stops_append (place : Location) (names more : List String) :
    stops place (names ++ more) = stops place names ++ stops (destination place names) more := by
  induction names generalizing place with
  | nil => rfl
  | cons name rest ih =>
      simp only [List.cons_append, destination, stops, ih]
      split
      · rfl
      · split <;> rfl

/-- Names that are passed over may be left out. -/
theorem destination_kept (place : Location) (names : List String) :
    destination place (kept names) = destination place names := by
  induction names generalizing place with
  | nil => rfl
  | cons name rest ih =>
      by_cases void : IsVoid name
      · rw [Path.kept_of_skipped void, destination, if_pos void, ih]
      · simp only [Path.kept_of_named void, destination, ih]

theorem stops_kept (place : Location) (names : List String) :
    stops place (kept names) = stops place names := by
  induction names generalizing place with
  | nil => rfl
  | cons name rest ih =>
      by_cases void : IsVoid name
      · rw [Path.kept_of_skipped void, stops, if_pos void, ih]
      · simp only [Path.kept_of_named void, stops, ih]

theorem destination_of_void (place : Location) (void : ∀ name ∈ names, IsVoid name) :
    destination place names = place := by
  rw [← destination_kept, Path.kept_of_void void]
  rfl

theorem stops_of_void (place : Location) (void : ∀ name ∈ names, IsVoid name) :
    stops place names = [] := by
  rw [← stops_kept, Path.kept_of_void void]
  rfl

/-- The last name of a place is not too long. -/
def Fits (place : Location) : Prop :=
  ∀ name ∈ place.head?, name.utf8ByteSize ≤ nameLimit

/-- All that names enter are directories. -/
def IsOpen (store : Store) (place : Location) (names : List String) : Prop :=
  ∀ stop ∈ stops place names, store.entryAt? stop = some .directory ∧ Fits stop

/-- Nothing that names enter is a file. -/
def IsClear (store : Store) (place : Location) (names : List String) : Prop :=
  ∀ stop ∈ stops place names, store.numberAt? stop = none ∧ Fits stop

theorem numberAt?_of_directory (stands : store.entryAt? place = some .directory) :
    store.numberAt? place = none := by
  rw [Store.numberAt?, stands]

theorem numberAt?_of_absent (absent : store.entryAt? place = none) :
    store.numberAt? place = none := by
  rw [Store.numberAt?, absent]

theorem numberAt?_eq_some_iff {number : Nat} :
    store.numberAt? place = some number ↔ store.entryAt? place = some (.file number) := by
  rw [Store.numberAt?]
  split
  · next held stands => simp [stands]
  · next absent => simpa using absent number

theorem IsOpen.isClear (opened : IsOpen store place names) : IsClear store place names :=
  fun stop inside => ⟨numberAt?_of_directory (opened stop inside).1, (opened stop inside).2⟩

theorem fits_cons (place : Location) : Fits (name :: place) ↔ ¬nameLimit < name.utf8ByteSize := by
  simp [Fits]

/-- A walk through directories goes on from where they lead. -/
theorem walk_append (more : List String) (opened : IsOpen store place names) :
    store.walk place (names ++ more) = store.walk (destination place names) more := by
  induction names generalizing place with
  | nil => rfl
  | cons name rest ih =>
      rw [IsOpen, stops] at opened
      rcases walk_cases name with skipped | outward | ⟨kept, inner, long⟩ | proper
      · have void : IsVoid name := skipped
        rw [if_pos void] at opened
        rw [List.cons_append, walk, if_pos skipped, destination, if_pos void]
        exact ih opened
      · subst outward
        rw [if_neg (by decide), if_pos rfl] at opened
        rw [List.cons_append, walk, if_neg (by decide), if_pos rfl, destination,
          if_neg (by decide), if_pos rfl]
        exact ih opened
      · have void : ¬IsVoid name := kept
        rw [if_neg void, if_neg inner] at opened
        exact absurd long ((fits_cons place).mp (opened _ List.mem_cons_self).2)
      · obtain ⟨kept, inner, -⟩ := id proper
        have void : ¬IsVoid name := kept
        rw [if_neg void, if_neg inner] at opened
        rw [List.cons_append, walk_of_directory proper (opened _ List.mem_cons_self).1, destination,
          if_neg void, if_neg inner]
        exact ih fun stop inside => opened stop (List.mem_cons_of_mem _ inside)

/-- Names that are passed over lead nowhere else. -/
theorem walk_of_void (place : Location) (void : ∀ name ∈ names, IsVoid name) :
    store.walk place names = .directory place := by
  have opened : IsOpen store place names := by
    rw [IsOpen, stops_of_void place void]
    exact fun stop inside => absurd inside List.not_mem_nil
  have onward := walk_append [] opened
  rwa [List.append_nil, walk, destination_of_void place void] at onward

/-- What the end of a walk says about its way. -/
inductive Crosses (store : Store) (place : Location) (names : List String) : Reached → Prop
  /-- All places on the way are directories. -/
  | directory (opened : IsOpen store place names) :
      Crosses store place names (.directory (destination place names))
  /-- The last place is a file. -/
  | file {number : Nat} (last : destination place names ∈ stops place names)
      (stands : store.entryAt? (destination place names) = some (.file number)) :
      Crosses store place names (.file (destination place names) number)
  /-- Only the last place is no directory yet. -/
  | vacant {slash : Bool} (last : destination place names ∈ stops place names)
      (absent : store.entryAt? (destination place names) = none)
      (clear : IsClear store place names) :
      Crosses store place names (.vacant (destination place names) slash)
  | missing : Crosses store place names .missing
  /-- There is a file or too long a name on the way. -/
  | invalid (blocked : ¬IsClear store place names) : Crosses store place names .invalid

section

variable {rest : List String} {next : Location} {reached : Reached}

/-- A name that enters nothing leaves the way to the rest. -/
theorem Crosses.pass (crosses : Crosses store next rest reached)
    (same : destination place (name :: rest) = destination next rest)
    (sameStops : stops place (name :: rest) = stops next rest) :
    Crosses store place (name :: rest) reached := by
  cases crosses with
  | directory opened =>
      rw [← same]
      exact .directory (by rwa [IsOpen, sameStops])
  | file last stands =>
      rw [← same] at last stands ⊢
      exact .file (by rwa [sameStops]) stands
  | vacant last absent clear =>
      rw [← same] at last absent ⊢
      exact .vacant (by rwa [sameStops]) absent (by rwa [IsClear, sameStops])
  | missing => exact .missing
  | invalid blocked => exact .invalid (by rwa [IsClear, sameStops])

theorem destination_of_proper (place : Location) (proper : IsProper name) (rest : List String) :
    destination place (name :: rest) = destination (name :: place) rest := by
  have void : ¬IsVoid name := proper.1
  rw [destination, if_neg void, if_neg proper.2.1]

theorem stops_of_proper (place : Location) (proper : IsProper name) (rest : List String) :
    stops place (name :: rest) = (name :: place) :: stops (name :: place) rest := by
  have void : ¬IsVoid name := proper.1
  rw [stops, if_neg void, if_neg proper.2.1]

/-- A name may enter a directory. -/
theorem Crosses.enter (crosses : Crosses store (name :: place) rest reached)
    (proper : IsProper name) (stands : store.entryAt? (name :: place) = some .directory) :
    Crosses store place (name :: rest) reached := by
  have leads := destination_of_proper place proper rest
  have enters := stops_of_proper place proper rest
  have fits : Fits (name :: place) := (fits_cons place).mpr proper.2.2
  cases crosses with
  | directory opened =>
      rw [← leads]
      refine .directory ?_
      rw [IsOpen, enters]
      exact List.forall_mem_cons.mpr ⟨⟨stands, fits⟩, opened⟩
  | file last stands =>
      rw [← leads] at last stands ⊢
      exact .file (enters ▸ List.mem_cons_of_mem _ last) stands
  | vacant last absent clear =>
      rw [← leads] at last absent ⊢
      refine .vacant (enters ▸ List.mem_cons_of_mem _ last) absent ?_
      rw [IsClear, enters]
      exact List.forall_mem_cons.mpr ⟨⟨numberAt?_of_directory stands, fits⟩, clear⟩
  | missing => exact .missing
  | invalid blocked =>
      refine .invalid fun clear => blocked fun stop inside => clear stop ?_
      exact enters ▸ List.mem_cons_of_mem _ inside

/-- At a file, a walk has to end. -/
theorem walk_crosses_file {number : Nat} (rest : List String) (proper : IsProper name)
    (stands : store.entryAt? (name :: place) = some (.file number)) :
    Crosses store place (name :: rest) (store.walk place (name :: rest)) := by
  have enters := stops_of_proper place proper rest
  simp only [walk, if_neg proper.1, if_neg proper.2.1, if_neg proper.2.2, stands]
  by_cases last : rest = []
  · subst last
    have here : destination place [name] = name :: place := destination_of_proper place proper []
    rw [if_pos rfl, ← here]
    exact .file (by rw [here, enters]; exact List.mem_cons_self) (by rwa [here])
  · rw [if_neg last]
    refine .invalid fun clear => ?_
    have none := (clear (name :: place) (enters ▸ List.mem_cons_self)).1
    rw [numberAt?_eq_some_iff.mpr stands] at none
    cases none

/-- Where nothing is, a walk may end. -/
theorem walk_crosses_absent (rest : List String) (proper : IsProper name)
    (absent : store.entryAt? (name :: place) = none) :
    Crosses store place (name :: rest) (store.walk place (name :: rest)) := by
  simp only [walk, if_neg proper.1, if_neg proper.2.1, if_neg proper.2.2, absent]
  split
  · next empty =>
      have void (later : String) (inside : later ∈ rest) : IsVoid later :=
        .inl (empty later inside)
      have here : destination place (name :: rest) = name :: place := by
        rw [destination_of_proper place proper, destination_of_void _ void]
      have alone : stops place (name :: rest) = [name :: place] := by
        rw [stops_of_proper place proper, stops_of_void _ void]
      rw [← here]
      refine .vacant (by rw [here, alone]; exact List.mem_cons_self) (by rwa [here]) ?_
      rw [IsClear, alone]
      exact List.forall_mem_singleton.mpr
        ⟨numberAt?_of_absent absent, (fits_cons place).mpr proper.2.2⟩
  · exact .missing

end

/-- Every walk ends in one of these ways. -/
theorem walk_crosses (store : Store) (place : Location) (names : List String) :
    Crosses store place names (store.walk place names) := by
  induction names generalizing place with
  | nil => exact .directory fun stop inside => absurd inside List.not_mem_nil
  | cons name rest ih =>
      rcases walk_cases name with skipped | outward | ⟨kept, inner, long⟩ | proper
      · have void : IsVoid name := skipped
        rw [walk, if_pos skipped]
        exact (ih place).pass (by rw [destination, if_pos void]) (by rw [stops, if_pos void])
      · subst outward
        rw [walk, if_neg (by decide), if_pos rfl]
        exact (ih place.tail).pass (by rw [destination, if_neg (by decide), if_pos rfl])
          (by rw [stops, if_neg (by decide), if_pos rfl])
      · have void : ¬IsVoid name := kept
        rw [walk, if_neg kept, if_neg inner, if_pos long]
        refine .invalid fun clear => ?_
        have fits := (clear (name :: place) (by simp [stops, void, inner])).2
        exact (fits_cons place).mp fits long
      · cases stands : store.entryAt? (name :: place) with
        | none => exact walk_crosses_absent rest proper stands
        | some entry =>
            cases entry with
            | file number => exact walk_crosses_file rest proper stands
            | directory =>
                rw [walk_of_directory proper stands]
                exact (ih (name :: place)).enter proper stands

/-- Where a path starts from. -/
def start (store : Store) (path : Path) : Location :=
  if path.isAbsolute then [] else store.workingDirectory

/-- The place that a path names, whatever stands there. -/
def location (store : Store) (path : Path) : Location :=
  destination (store.start path) path.names

/-- The last name of a path is that of its place, if it is a proper one. -/
theorem head?_location {last : List Char} (store : Store) (named : path.lastName? = some last)
    (kept : ¬IsVoid (.ofList last)) (inner : String.ofList last ≠ "..") :
    (store.location path).head? = some (.ofList last) := by
  obtain ⟨front, cut⟩ := List.getLast?_eq_some_iff.mp named
  rw [location, Path.names, cut, List.map_append, destination_append]
  simp [destination, kept, inner]

/-- The places that a path leads through and to. -/
def way (store : Store) (path : Path) : List Location :=
  stops (store.start path) path.names

/-- A text that can be a path. -/
def IsValid (path : Path) : Prop :=
  path.text ≠ "" ∧ '\x00' ∉ path.text.toList ∧ path.text.utf8ByteSize ≤ pathLimit

theorem reach_of_isValid (valid : IsValid path) :
    store.reach path = store.walk (store.start path) path.names := by
  obtain ⟨nonempty, noMark, short⟩ := valid
  rw [reach, if_neg nonempty, if_neg (not_or.mpr ⟨noMark, Nat.not_lt.mpr short⟩)]
  rfl

theorem reach_of_not_isValid (invalid : ¬IsValid path) :
    store.reach path = if path.text = "" then .missing else .invalid := by
  rw [reach]
  split
  · rfl
  · next nonempty =>
      rw [if_pos]
      by_contra proper
      rw [not_or, Nat.not_lt] at proper
      exact invalid ⟨nonempty, proper⟩

/-- What the end of a path says about its way. -/
theorem reach_crosses (store : Store) (valid : IsValid path) :
    Crosses store (store.start path) path.names (store.reach path) := by
  rw [reach_of_isValid valid]
  exact walk_crosses store _ _

/-- The place of a path is the one that it names. -/
theorem location_of_place? (found : store.place? path = some place) :
    store.location path = place := by
  by_cases valid : IsValid path
  · have crosses := reach_crosses store valid
    rw [place?] at found
    revert found crosses
    generalize store.reach path = reached
    intro found crosses
    cases crosses with
    | file => exact Option.some.inj found
    | @vacant slash =>
        cases slash with
        | false => exact Option.some.inj found
        | true => cases found
    | directory | missing | invalid => cases found
  · rw [place?, reach_of_not_isValid valid] at found
    split at found <;> cases found

end Store

end JavaStructure
