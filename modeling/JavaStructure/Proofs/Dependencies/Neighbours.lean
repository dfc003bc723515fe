/-
# The files beside a cache

A cache, its lock, the names under which locks are put aside and the temporary files
have different last names, so none of them can stand at the place of another. The one
exception is a cache that is called like a temporary file.
-/

import JavaStructure.Dependencies.Cache
import JavaStructure.Proofs.Files.Steps

namespace JavaStructure

/-- A path always has a last name. -/
theorem Path.exists_lastName (path : Path) : ∃ last, path.lastName? = some last := by
  obtain ⟨pieces, last, cut, _⟩ := splitOn_append (List.not_mem_nil : '/' ∉ []) path.text.toList
  exact ⟨last, by simp [lastName?, cut]⟩

/-- What is joined to a path, and holds no slash, is its last name. -/
theorem Path.lastName?_join (directory : Path) {name : String} (plain : '/' ∉ name.toList) :
    (directory.join name).lastName? = some name.toList := by
  have behind (front : List Char) :
      ((front ++ '/' :: name.toList).splitOn '/').getLast? = some name.toList := by
    rw [List.splitOn_append_cons_self, List.splitOn_eq_singleton plain]
    simp
  have relative : Path.isAbsolute ⟨name⟩ = false := by
    rw [isAbsolute, beq_eq_false_iff_ne]
    intro slash
    exact plain (List.mem_of_mem_head? slash)
  rw [join, relative]
  simp only [Bool.false_eq_true, if_false]
  split
  · simp [lastName?, List.splitOn_eq_singleton plain]
  · next ending =>
      obtain ⟨front, text⟩ := List.getLast?_eq_some_iff.mp ending
      simpa [lastName?, String.toList_append, text] using behind front
  · simpa [lastName?, String.toList_append] using behind directory.text.toList

/-- Numerals are made of digits. -/
theorem Text.isDigit_of_mem_decimal {count : Nat} {c : Char}
    (inside : c ∈ (Text.decimal count).toList) : c.isDigit = true := by
  rw [Text.decimal, String.toList_ofList] at inside
  exact Nat.isDigit_of_mem_toDigits (by decide) (by decide) inside

namespace Dependencies

/-- A name for a temporary file. -/
def IsTemporary (path : Path) : Prop :=
  ∃ (directory : Path) (count : Nat), path = directory.join (".tmp" ++ Text.decimal count)

/-- A name under which a lock can be put aside. -/
def IsAside (lock path : Path) : Prop :=
  ∃ back : String, '/' ∉ back.toList ∧ path = ⟨lock.text ++ ".stale." ++ back⟩

variable {cache path : Path}

theorem lastName?_lock (cache : Path) :
    (Lock.pathFor cache).lastName? = cache.lastName?.map (· ++ ".lock".toList) :=
  Path.lastName?_append cache (by decide)

theorem lastName?_aside (aside : IsAside (Lock.pathFor cache) path) :
    ∃ back, path.lastName? = cache.lastName?.map (· ++ (".lock.stale.".toList ++ back)) := by
  obtain ⟨back, plain, rfl⟩ := aside
  refine ⟨back.toList, ?_⟩
  have plainToo : '/' ∉ (".lock.stale." ++ back).toList := by
    rw [String.toList_append, List.mem_append, not_or]
    exact ⟨by decide, plain⟩
  have named := Path.lastName?_append cache plainToo
  rw [String.toList_append] at named
  rw [← named, Lock.pathFor]
  simp only [String.append_assoc]
  rfl

theorem lastName?_temporary (temporary : IsTemporary path) :
    ∃ last, path.lastName? = some last ∧ 'k' ∉ last := by
  obtain ⟨directory, count, rfl⟩ := temporary
  have mark (c : Char) (inside : c ∈ (".tmp" ++ Text.decimal count).toList) :
      c ∈ ".tmp".toList ∨ c.isDigit = true := by
    rw [String.toList_append, List.mem_append] at inside
    exact inside.imp id Text.isDigit_of_mem_decimal
  refine ⟨_, Path.lastName?_join directory fun slash => ?_, fun letter => ?_⟩
  · exact (mark _ slash).elim (by decide) (by decide)
  · exact (mark _ letter).elim (by decide) (by decide)

theorem lock_ne_cache (cache : Path) : (Lock.pathFor cache).lastName? ≠ cache.lastName? := by
  obtain ⟨last, named⟩ := cache.exists_lastName
  rw [lastName?_lock, named]
  simp

theorem aside_ne_cache (aside : IsAside (Lock.pathFor cache) path) :
    path.lastName? ≠ cache.lastName? := by
  obtain ⟨last, named⟩ := cache.exists_lastName
  obtain ⟨back, namedAside⟩ := lastName?_aside aside
  rw [namedAside, named]
  simp

theorem aside_ne_lock (aside : IsAside (Lock.pathFor cache) path) :
    path.lastName? ≠ (Lock.pathFor cache).lastName? := by
  obtain ⟨last, named⟩ := cache.exists_lastName
  obtain ⟨back, namedAside⟩ := lastName?_aside aside
  rw [namedAside, lastName?_lock, named]
  intro same
  have lengths := congrArg (Option.map List.length) same
  simp at lengths

theorem temporary_ne_lock (cache : Path) (temporary : IsTemporary path) :
    path.lastName? ≠ (Lock.pathFor cache).lastName? := by
  obtain ⟨last, named⟩ := cache.exists_lastName
  obtain ⟨lastToo, namedToo, without⟩ := lastName?_temporary temporary
  rw [lastName?_lock, named, namedToo]
  rintro same
  apply without
  rw [Option.some.inj same]
  simp

theorem temporary_ne_aside {aside : Path} (temporary : IsTemporary path)
    (putAside : IsAside (Lock.pathFor cache) aside) : path.lastName? ≠ aside.lastName? := by
  obtain ⟨last, named⟩ := cache.exists_lastName
  obtain ⟨lastToo, namedToo, without⟩ := lastName?_temporary temporary
  obtain ⟨back, namedAside⟩ := lastName?_aside putAside
  rw [namedAside, named, namedToo]
  rintro same
  apply without
  rw [Option.some.inj same]
  simp

/-- The private name for a lock is a name for putting it aside if the token can stand
in a name. -/
theorem asidePath_isAside (lock : Path) {token : String} (plain : '/' ∉ token.toList) :
    IsAside lock (Lock.asidePath lock token) := by
  refine ⟨_, ?_, rfl⟩
  simp only [Text.mapChars, String.toList_ofList, Text.replaceChar, List.mem_flatMap, not_exists,
    not_and]
  intro c inside
  split
  · decide
  · rw [List.mem_singleton]
    rintro rfl
    exact plain inside

/-- Tokens can stand in names. -/
theorem token_plain (store : Store) : '/' ∉ store.token.1.toList := by
  simp only [Store.token, String.toList_append, List.mem_append, not_or]
  refine ⟨⟨⟨by decide, fun slash => ?_⟩, by decide⟩, fun slash => ?_⟩
  all_goals exact absurd (Text.isDigit_of_mem_decimal slash) (by decide)

end Dependencies

end JavaStructure
