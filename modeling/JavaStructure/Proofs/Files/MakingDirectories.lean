/-
# The making of directories

Directories are made on the way of a path and nowhere else. Whether they can be made depends on the
files on that way alone, and not on which of the directories are there already.
-/

import JavaStructure.Proofs.Files.Ways

namespace JavaStructure

namespace Store

open JavaStructure.Path (IsVoid kept)

variable {store before middle after : Store} {path front : Path} {place : Location} {name : String}
variable {places more : Location → Prop}

theorem start_congr (same : after.workingDirectory = before.workingDirectory) (path : Path) :
    after.start path = before.start path := by
  rw [start, start, same]

theorem way_congr (same : after.workingDirectory = before.workingDirectory) (path : Path) :
    after.way path = before.way path := by
  rw [way, way, start_congr same]

theorem location_congr (same : after.workingDirectory = before.workingDirectory) (path : Path) :
    after.location path = before.location path := by
  rw [location, location, start_congr same]

theorem start_of_cutLast? (cut : path.cutLast? = some (front, name)) (named : front.text ≠ "") :
    store.start front = store.start path := by
  obtain ⟨more, -, text⟩ := Path.text_of_cutLast? cut
  obtain ⟨c, rest, starts⟩ := List.exists_cons_of_ne_nil fun empty =>
    named (String.toList_injective empty)
  rw [start, start, Path.isAbsolute, Path.isAbsolute, text, starts]
  rfl

/-- The way of a parent starts where the path starts. -/
theorem way_front (cut : path.cutLast? = some (front, name)) :
    store.way front = stops (store.start path) front.names := by
  by_cases empty : front.text = ""
  · have unnamed : ∀ other ∈ front.names, IsVoid other := by
      rw [Path.names, empty]
      exact Path.isVoidText_nil
    rw [way, stops_of_void _ unnamed, stops_of_void _ unnamed]
  · rw [way, start_of_cutLast? cut empty]

/-- The way of a path is the way of its parent, and where its last name leads. -/
theorem way_of_cutLast? (cut : path.cutLast? = some (front, name)) :
    store.way path =
      store.way front ++ stops (destination (store.start path) front.names) [name] := by
  obtain ⟨before, after, names, keptBefore, void, -⟩ := Path.names_of_cutLast? cut
  have sameEnd := destination_kept (store.start path) before
  rw [keptBefore, destination_kept] at sameEnd
  have sameStops : stops (store.start path) before = stops (store.start path) front.names := by
    rw [← stops_kept _ before, keptBefore, stops_kept]
  calc store.way path
    _ = stops (store.start path) before ++
        stops (destination (store.start path) before) (name :: after) := by
      rw [way, names, stops_append]
    _ = stops (store.start path) front.names ++
        stops (destination (store.start path) front.names) ([name] ++ after) := by
      rw [sameStops, sameEnd, List.singleton_append]
    _ = store.way front ++ stops (destination (store.start path) front.names) [name] := by
      rw [way_front cut, stops_append, stops_of_void _ void, List.append_nil]

/-- A path leads from where its parent leads to where its last name does. -/
theorem location_of_cutLast? (cut : path.cutLast? = some (front, name)) :
    store.location path = destination (destination (store.start path) front.names) [name] := by
  obtain ⟨before, after, names, keptBefore, void, -⟩ := Path.names_of_cutLast? cut
  have sameEnd := destination_kept (store.start path) before
  rw [keptBefore, destination_kept] at sameEnd
  calc store.location path
    _ = destination (destination (store.start path) before) ([name] ++ after) := by
      rw [location, names, destination_append, List.singleton_append]
    _ = destination (destination (store.start path) before) [name] := by
      rw [destination_append, destination_of_void _ void]
    _ = destination (destination (store.start path) front.names) [name] := by rw [sameEnd]

/-- The parent of a path that is valid is valid, unless it is empty. -/
theorem isValid_of_cutLast? (cut : path.cutLast? = some (front, name)) (valid : IsValid path)
    (named : front.text ≠ "") : IsValid front := by
  obtain ⟨more, -, text⟩ := Path.text_of_cutLast? cut
  obtain ⟨-, noMark, short⟩ := valid
  have whole : path.text = front.text ++ String.ofList more := by
    apply String.toList_injective
    rw [text, String.toList_append, String.toList_ofList]
  rw [text, List.mem_append, not_or] at noMark
  rw [whole, String.utf8ByteSize_append] at short
  exact ⟨named, noMark.1, Nat.le_trans (Nat.le_add_right _ _) short⟩

/-- A walk along a path whose parent leads through directories goes on with the last name. -/
theorem reach_of_cutLast? (cut : path.cutLast? = some (front, name)) (valid : IsValid path) :
    ∃ after, (∀ other ∈ after, IsVoid other) ∧ (path.IsTrimmed → after = []) ∧
      ∀ store : Store,
        (∀ stop ∈ store.way front, store.entryAt? stop = some .directory ∧ Fits stop) →
          store.reach path =
            store.walk (destination (store.start path) front.names) (name :: after) := by
  obtain ⟨before, after, names, keptBefore, void, trimmed⟩ := Path.names_of_cutLast? cut
  refine ⟨after, void, trimmed, fun store opened => ?_⟩
  rw [way_front cut, ← stops_kept, ← keptBefore, stops_kept] at opened
  rw [reach_of_isValid valid, names, walk_append _ opened, ← destination_kept _ before, keptBefore,
    destination_kept]

/-- There are more directories, all of them at given places, and the files are the same. -/
structure DeepensAlong (places : Location → Prop) (before after : Store) : Prop
    extends Deepens before after where
  made : ∀ location, after.entryAt? location = some .directory →
    before.entryAt? location = some .directory ∨ places location

namespace DeepensAlong

theorem refl (places : Location → Prop) (store : Store) : DeepensAlong places store store :=
  ⟨.refl store, fun _ => .inl⟩

theorem trans (first : DeepensAlong places before middle)
    (second : DeepensAlong places middle after) : DeepensAlong places before after :=
  ⟨first.toDeepens.trans second.toDeepens, fun location stands =>
    (second.made location stands).elim (first.made location) .inr⟩

theorem of_pause (places : Location → Prop) (store : Store) (elapsed : Nat) :
    DeepensAlong places store (store.pause elapsed) :=
  ⟨⟨rfl, fun _ => id, fun _ _ => Iff.rfl, fun _ => rfl, Nat.le_refl _⟩, fun _ => .inl⟩

theorem mono (deepens : DeepensAlong places before after)
    (wider : ∀ place, places place → more place) : DeepensAlong more before after :=
  ⟨deepens.toDeepens, fun location stands => (deepens.made location stands).imp_right (wider _)⟩

end DeepensAlong

theorem put_deepensAlong {store : Store} (absent : store.entryAt? place = none)
    (inside : places place) : DeepensAlong places store (store.put place .directory) := by
  refine ⟨put_deepens absent, fun location stands => ?_⟩
  rw [entryAt?_put] at stands
  split at stands
  · next root => exact .inl (by rw [root]; rfl)
  · split at stands
    · next here => exact .inr (here ▸ inside)
    · exact .inl stands

/-- What is vacant at the end of a path is the last place on its way. -/
theorem vacant_mem_way {store : Store} {slash : Bool}
    (ended : store.reach path = .vacant place slash) :
    place ∈ store.way path ∧ store.entryAt? place = none ∧
      IsClear store (store.start path) path.names := by
  by_cases valid : IsValid path
  · have crosses := reach_crosses store valid
    rw [ended] at crosses
    cases crosses with
    | vacant last absent clear => exact ⟨last, absent, clear⟩
  · rw [reach_of_not_isValid valid] at ended
    split at ended <;> cases ended

/-- Directories are made on the way of the path. -/
theorem makeDirectoriesUpTo_along (store : Store) (path : Path) (depth : Nat) :
    DeepensAlong (· ∈ store.way path) store (store.makeDirectoriesUpTo path depth).2 := by
  induction depth generalizing path with
  | zero => exact .refl _ store
  | succ depth ih =>
      by_cases empty : path.text = ""
      · rw [makeDirectoriesUpTo, if_pos empty]
        exact .refl _ store
      rw [makeDirectoriesUpTo, if_neg empty]
      split
      · next location slash ended =>
          obtain ⟨onWay, absent, -⟩ := vacant_mem_way ended
          exact put_deepensAlong absent onWay
      · exact .refl _ store
      · split
        · exact .refl _ store
        · next parent named =>
            obtain ⟨⟨front, name⟩, cut, rfl⟩ := Option.map_eq_some_iff.mp named
            have outer : DeepensAlong (· ∈ store.way path) store
                (store.makeDirectoriesUpTo front depth).2 := by
              refine (ih front).mono fun place inside => ?_
              rw [way_of_cutLast? cut]
              exact List.mem_append_left _ inside
            split
            · next left outcome => rwa [outcome] at outer
            · next left outcome =>
                rw [outcome] at outer
                split
                · next location slash ended =>
                    obtain ⟨onWay, absent, -⟩ := vacant_mem_way ended
                    rw [way_congr outer.workingDirectory] at onWay
                    exact outer.trans (put_deepensAlong absent onWay)
                · exact outer
                · exact outer
      · exact .refl _ store

/-- Nothing on the way of a path is a file. -/
def LeadsClear (store : Store) (path : Path) : Prop :=
  ∀ stop ∈ store.way path, store.numberAt? stop = none ∧ Fits stop

theorem way_of_empty (store : Store) (empty : path.text = "") : store.way path = [] := by
  have unnamed : ∀ other ∈ path.names, IsVoid other := by
    rw [Path.names, empty]
    exact Path.isVoidText_nil
  rw [way, stops_of_void _ unnamed]

theorem leadsClear_of_empty (store : Store) (empty : path.text = "") : LeadsClear store path := by
  rw [LeadsClear, way_of_empty store empty]
  exact fun stop inside => absurd inside List.not_mem_nil

/-- Nothing on the way of a path is a file if there is none on the way of its parent, and the last
name enters none. -/
theorem leadsClear_of_cutLast? (cut : path.cutLast? = some (front, name)) :
    LeadsClear store path ↔
      LeadsClear store front ∧
        IsClear store (destination (store.start path) front.names) [name] := by
  rw [LeadsClear, way_of_cutLast? cut, List.forall_mem_append]
  rfl

/-- At a single name, a walk misses nothing. -/
theorem walk_singleton_ne_missing (store : Store) (place : Location) (name : String) :
    store.walk place [name] ≠ .missing := by
  rw [walk]
  split
  · simp [walk]
  · split
    · simp [walk]
    · split
      · simp
      · split <;> simp [walk]

/-- At the end of a walk there is a directory, or one can be made. -/
def Reached.isRoom : Reached → Bool
  | .directory _ => true
  | .vacant _ _ => true
  | _ => false

/-- A walk that misses nothing leads past no file exactly if a directory can be at its end. -/
theorem Crosses.isRoom_iff {names : List String} {reached : Reached}
    (crosses : Crosses store place names reached) (found : reached ≠ .missing) :
    reached.isRoom = true ↔ IsClear store place names := by
  cases crosses with
  | directory opened => exact iff_of_true rfl opened.isClear
  | vacant _ _ clear => exact iff_of_true rfl clear
  | missing => exact absurd rfl found
  | invalid blocked => exact iff_of_false nofun blocked
  | file last stands =>
      refine iff_of_false nofun fun clear => ?_
      have none := (clear _ last).1
      rw [numberAt?_eq_some_iff.mpr stands] at none
      cases none

theorem makeDirectoriesUpTo_of_empty (store : Store) (empty : path.text = "") (depth : Nat) :
    store.makeDirectoriesUpTo path depth = (true, store) := by
  cases depth with
  | zero => simp [makeDirectoriesUpTo, empty]
  | succ depth => rw [makeDirectoriesUpTo, if_pos empty]

/-- Directories that could be made are all there. -/
theorem opens_of_made (store : Store) (path : Path) (depth : Nat)
    (made : (store.makeDirectoriesUpTo path depth).1 = true) :
    ∀ stop ∈ store.way path,
      (store.makeDirectoriesUpTo path depth).2.entryAt? stop = some .directory ∧ Fits stop := by
  by_cases empty : path.text = ""
  · rw [way_of_empty store empty]
    exact fun stop inside => absurd inside List.not_mem_nil
  · obtain ⟨deepens, leads⟩ := makeDirectoriesUpTo_spec store path depth
    obtain ⟨place, ended⟩ := leads made empty
    rw [← way_congr deepens.workingDirectory]
    by_cases valid : IsValid path
    · have crosses := reach_crosses (store.makeDirectoriesUpTo path depth).2 valid
      rw [ended] at crosses
      cases crosses with
      | directory opened => exact opened
    · rw [reach_of_not_isValid valid] at ended
      split at ended <;> cases ended

/-- Where no directory is missing, only the last one may have to be made. -/
theorem makeDirectoriesUpTo_of_found {depth : Nat} (nonempty : path.text ≠ "")
    (found : store.reach path ≠ .missing) :
    (store.makeDirectoriesUpTo path (depth + 1)).1 = (store.reach path).isRoom := by
  rw [makeDirectoriesUpTo, if_neg nonempty]
  cases ended : store.reach path <;> first | rfl | exact absurd ended found

/-- Else those of the parent are made first. -/
theorem makeDirectoriesUpTo_of_missing {depth : Nat} (nonempty : path.text ≠ "")
    (ended : store.reach path = .missing) (cut : path.cutLast? = some (front, name)) :
    (store.makeDirectoriesUpTo path (depth + 1)).1 =
      ((store.makeDirectoriesUpTo front depth).1 &&
        ((store.makeDirectoriesUpTo front depth).2.reach path).isRoom) := by
  rw [makeDirectoriesUpTo, if_neg nonempty, ended, Path.parent?, cut, Option.map_some]
  dsimp only
  obtain ⟨made, left⟩ := store.makeDirectoriesUpTo front depth
  cases made with
  | false => rfl
  | true =>
      dsimp only
      cases left.reach path <;> rfl

/-- When those of the parent are made, the last one can be made if its name enters no file. -/
theorem isRoom_of_made {depth : Nat} (trimmed : path.IsTrimmed) (valid : IsValid path)
    (cut : path.cutLast? = some (front, name))
    (made : (store.makeDirectoriesUpTo front depth).1 = true) :
    ((store.makeDirectoriesUpTo front depth).2.reach path).isRoom = true ↔
      IsClear store (destination (store.start path) front.names) [name] := by
  have along := makeDirectoriesUpTo_along store front depth
  have opened := opens_of_made store front depth made
  generalize store.makeDirectoriesUpTo front depth = outcome at along opened ⊢
  obtain ⟨_, left⟩ := outcome
  obtain ⟨after, -, last, reach⟩ := reach_of_cutLast? cut valid
  rw [← way_congr along.workingDirectory] at opened
  rw [reach left opened, last trimmed, start_congr along.workingDirectory,
    (walk_crosses left _ [name]).isRoom_iff (walk_singleton_ne_missing left _ name), IsClear,
    IsClear]
  simp only [along.toDeepens.numberAt?]

/-- The directories of a path can be made exactly if no file is on its way. -/
theorem makeDirectoriesUpTo_iff (store : Store) {depth : Nat} (trimmed : path.IsTrimmed)
    (valid : IsValid path) (deep : path.text.length < depth) :
    (store.makeDirectoriesUpTo path depth).1 = true ↔ LeadsClear store path := by
  induction depth generalizing path with
  | zero => exact absurd deep (Nat.not_lt_zero _)
  | succ depth ih =>
      by_cases ended : store.reach path = .missing
      · cases cut : path.cutLast? with
        | none =>
            have void : ∀ name ∈ path.names, IsVoid name := Path.isVoidText_of_not_cut cut
            rw [reach_of_isValid valid, walk_of_void _ void] at ended
            cases ended
        | some parts =>
            obtain ⟨front, name⟩ := parts
            have outer : (store.makeDirectoriesUpTo front depth).1 = true ↔
                LeadsClear store front := by
              by_cases empty : front.text = ""
              · rw [makeDirectoriesUpTo_of_empty store empty]
                exact iff_of_true rfl (leadsClear_of_empty store empty)
              · refine ih (Path.isTrimmed_of_cutLast? cut) (isValid_of_cutLast? cut valid empty) ?_
                exact Nat.lt_of_lt_of_le (Path.length_of_cutLast? cut) (Nat.le_of_lt_succ deep)
            rw [makeDirectoriesUpTo_of_missing valid.1 ended cut, Bool.and_eq_true,
              leadsClear_of_cutLast? cut, ← outer]
            exact and_congr_right (isRoom_of_made trimmed valid cut)
      · rw [makeDirectoriesUpTo_of_found valid.1 ended]
        exact (reach_crosses store valid).isRoom_iff ended

/-- Directories that are made some time later are made on the way of the path. -/
theorem deepensAlong_of_made {elapsed : Nat} {made : Bool}
    (answered : store.answerAfter elapsed (.makeDirectories path) = (made, after)) :
    DeepensAlong (· ∈ store.way path) store after := by
  obtain rfl : _ = after := congrArg Prod.snd answered
  exact (DeepensAlong.of_pause _ store elapsed).trans
    (makeDirectoriesUpTo_along (store.pause elapsed) path _)

end Store

end JavaStructure
