/-
# What an update makes of a cache

An update seen without files: the record of a source is built from the directories
there are, and the lines of the cache are rewritten with it. The definitions here say
what a merge is to bring about, as a function of what the cache holds.
-/

import JavaStructure.Dependencies.Cache
import JavaStructure.Files.Store

namespace JavaStructure.Dependencies

/-- The lines that a cache holds. A cache that is not there has none. -/
def Cache.linesOf : Option Content → List String
  | some (.text text) => (Text.lines text.toList).map .ofList
  | _ => []

/-- Lines as the text of a cache. -/
def Cache.textOf (lines : List String) : String :=
  String.join (lines.map (· ++ "\n"))

theorem Cache.textOf_cons (line : String) (rest : List String) :
    textOf (line :: rest) = line ++ "\n" ++ textOf rest := by
  simp [textOf]

/-- An update that a process is to make. -/
structure Merge where
  policy : RetryPolicy := {}
  imports : Imports
  /-- Seconds since the epoch. -/
  now : Nat
  deriving DecidableEq

namespace Merge

/-- What the process does. -/
def program (cache : Path) (merge : Merge) : Program (Except Failure MergeOutcome) :=
  (Cache.merge ⟨cache, merge.policy⟩ merge.imports merge.now).run

/-- The record of the source, if it imports anything. -/
def record? (isDirectory : String → Bool) (merge : Merge) : Option Record :=
  Record.ofImports? isDirectory merge.imports.source merge.imports.declarations
    merge.imports.root merge.now

/-- What the update makes of the content of a cache. -/
def effect (isDirectory : String → Bool) (merge : Merge) (content : Option Content) :
    Option Content :=
  match merge.record? isDirectory with
  | none => content
  | some record => some (.text (Cache.textOf (Cache.replaceLine (Cache.linesOf content) record)))

end Merge

/-- A record only depends on which of the candidates are directories. -/
theorem Record.ofImports?_filter (isDirectory : String → Bool) (imports : Imports) (now : Nat) :
    Record.ofImports? ((imports.candidates.filter isDirectory).contains ·) imports.source
        imports.declarations imports.root now =
      Record.ofImports? isDirectory imports.source imports.declarations imports.root now := by
  rw [ofImports?, ofImports?]
  split
  · rfl
  · refine congrArg some (congrArg _ (List.map_congr_left fun target inside => ?_))
    have candidate : withSeparator imports.root ++ target.1 ∈ imports.candidates :=
      List.mem_map.mpr ⟨target, inside, rfl⟩
    have known : (imports.candidates.filter isDirectory).contains
        (withSeparator imports.root ++ target.1) =
          isDirectory (withSeparator imports.root ++ target.1) := by
      simp [candidate]
    simp only [entryFor, known]

end JavaStructure.Dependencies
