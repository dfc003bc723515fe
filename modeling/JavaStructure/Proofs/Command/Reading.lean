/-
# What a run reads

Before it writes anything, a run reads its settings, its source and its context. None of this
changes a store, but that time passes; what is read is what the store holds. A context file that
cannot be read might as well not have been named.
-/

import JavaStructure.Analysis
import JavaStructure.Proofs.Files.Footprints
import JavaStructure.Proofs.Interchange.DocumentNames
import JavaStructure.Settings

namespace JavaStructure

open Program (step)
open Store (answerAfter)

variable {α β : Type} {faults : Faults} {store after : Store} {path : Path} {elapsed : Nat}

theorem Store.readText_pause (store : Store) (elapsed : Nat) (path : Path) :
    (store.pause elapsed).readText path = store.readText path := by
  rw [readText, readText, reach_pause]
  rfl

/-- The path of something in its absolute form, if it has one. -/
def Store.absolute (store : Store) (path : Path) : Path :=
  (store.canonical path).getD path

theorem Store.absolute_pause (store : Store) (elapsed : Nat) (path : Path) :
    (store.pause elapsed).absolute path = store.absolute path := by
  rw [absolute, Interchange.canonical_pause, absolute]

/-- What a store answers later, it may also answer now. -/
theorem Faulty.of_pause {request : Request} {answer : request.Answer}
    (answered : Faulty faults (store.pause elapsed) request answer after) :
    Faulty faults store request answer after := by
  obtain ⟨spared, later, answered⟩ | ⟨struck, refused⟩ := answered
  · rw [answerAfter, Store.pause_pause] at answered
    exact .inl ⟨spared, _, answered⟩
  · refine .inr ⟨struck, ?_⟩
    cases request with
    | readText | createNew | createTemporary | rename | link | remove | age =>
        obtain ⟨refused, later, rfl⟩ := refused
        exact ⟨refused, _, Store.pause_pause store elapsed later⟩
    | makeDirectories path =>
        obtain ⟨refused, deepens⟩ := refused
        exact ⟨refused, (Store.DeepensAlong.of_pause _ store elapsed).trans deepens⟩
    | writeText path text =>
        obtain ⟨refused, ⟨later, rfl⟩ | ⟨later, content, written⟩⟩ := refused
        · exact ⟨refused, .inl ⟨_, Store.pause_pause store elapsed later⟩⟩
        · rw [Store.pause_pause] at written
          exact ⟨refused, .inr ⟨_, content, written⟩⟩
    | writeHandle handle text =>
        obtain ⟨refused, ⟨later, rfl⟩ | ⟨later, content, rfl⟩⟩ := refused
        · exact ⟨refused, .inl ⟨_, Store.pause_pause store elapsed later⟩⟩
        · rw [Store.pause_pause]
          exact ⟨refused, .inr ⟨_, content, rfl⟩⟩
    | canonical | isPresent | isDirectory | now | token | pause => exact refused.elim

/-- The absolute form of a path is the one that the store knows. -/
theorem Program.ends_canonicalOrSame {value : Path}
    (ends : (canonicalOrSame path).Ends (Faulty faults) store value after) :
    value = store.absolute path ∧ ∃ elapsed, after = store.pause elapsed := by
  obtain ⟨found, middle, ⟨-, elapsed, answered⟩ | ⟨-, never⟩, rfl, rfl⟩ := ends
  · obtain ⟨rfl, rfl⟩ := Prod.mk.inj answered
    rw [Interchange.canonical_pause]
    exact ⟨rfl, elapsed, rfl⟩
  · exact never.elim

/-- A text that is read is what the store holds, and it was not refused. -/
theorem ends_readText {read : Except ReadFault String}
    (answered : Faulty faults store (.readText path) read after) :
    (∃ elapsed, after = store.pause elapsed) ∧
      ∀ text, read = .ok text →
        store.readText path = .ok text ∧ ¬faults.barred (.readText path) := by
  obtain ⟨spared, elapsed, answered⟩ | ⟨-, rfl, elapsed, rfl⟩ := answered
  · obtain ⟨rfl, rfl⟩ := Prod.mk.inj answered
    exact ⟨⟨elapsed, rfl⟩, fun text told => ⟨(store.readText_pause elapsed path).symm.trans told,
      spared⟩⟩
  · exact ⟨⟨elapsed, rfl⟩, nofun⟩

namespace Settings

/-- The settings that a store holds for a user. -/
def heldBy (store : Store) (home : Option String) : Option Settings :=
  if store.isPresent (file home) then
    match store.readText (file home) with
    | .ok text => parse? text
    | .error _ => none
  else some {}

/-- Settings that cannot be loaded: a file for them is there, but it is refused, or it holds
none. -/
def IsUnreadable (faults : Faults) (store : Store) (home : Option String) : Prop :=
  heldBy store home = none ∨ store.isPresent (file home) ∧ faults.barred (.readText (file home))

/-- Settings that are loaded are those that the store holds, and they can be loaded. -/
theorem ends_load {home : Option String} {result : Except Failure Settings}
    (ends : (load home).run.Ends (Faulty faults) store result after) :
    (∃ elapsed, after = store.pause elapsed) ∧ ∀ settings, result = .ok settings →
      heldBy store home = some settings ∧ ¬IsUnreadable faults store home := by
  rw [load] at ends
  obtain ⟨present, middle, ⟨-, elapsed, answered⟩ | ⟨-, never⟩, ends⟩ := Attempt.ends_ask ends
  · obtain ⟨rfl, rfl⟩ := Prod.mk.inj answered
    have same : (store.pause elapsed).isPresent (file home) = store.isPresent (file home) := by
      rw [Store.isPresent, Interchange.canonical_pause, Store.isPresent]
    rw [same] at ends
    cases found : store.isPresent (file home) with
    | false =>
        rw [found] at ends
        obtain ⟨rfl, rfl⟩ := ends
        refine ⟨⟨elapsed, rfl⟩, ?_⟩
        rintro _ ⟨⟩
        simp [IsUnreadable, heldBy, found]
    | true =>
        rw [found] at ends
        obtain ⟨read, later, answered, ends⟩ := Attempt.ends_ask ends
        obtain ⟨⟨more, rfl⟩, told⟩ := ends_readText answered
        rw [Store.readText_pause] at told
        have passed := Store.pause_pause store elapsed more
        cases read with
        | error fault =>
            obtain ⟨rfl, rfl⟩ := ends
            exact ⟨⟨_, passed⟩, by rintro _ ⟨⟩⟩
        | ok text =>
            obtain ⟨told, spared⟩ := told text rfl
            cases parsed : parse? text with
            | none =>
                simp only [parsed] at ends
                obtain ⟨rfl, rfl⟩ := ends
                exact ⟨⟨_, passed⟩, by rintro _ ⟨⟩⟩
            | some settings =>
                simp only [parsed] at ends
                obtain ⟨rfl, rfl⟩ := ends
                refine ⟨⟨_, passed⟩, ?_⟩
                rintro _ ⟨⟩
                simp [IsUnreadable, heldBy, found, told, parsed, spared]
  · exact never.elim

end Settings

namespace SourceFile

/-- A source that is read has the path that the store knows. -/
theorem ends_read {parser : SourceParser} {result : Except Failure SourceFile}
    (ends : (read parser path).run.Ends (Faulty faults) store result after) :
    (∃ elapsed, after = store.pause elapsed) ∧
      ∀ file, result = .ok file → file.path = store.absolute path := by
  rw [read] at ends
  obtain ⟨_, middle, named, ends⟩ := Attempt.ends_after ends
  obtain ⟨rfl, elapsed, rfl⟩ := Program.ends_canonicalOrSame named
  obtain ⟨text, later, answered, ends⟩ := Attempt.ends_ask ends
  obtain ⟨⟨more, rfl⟩, -⟩ := ends_readText answered
  rw [Store.pause_pause] at ends
  cases text with
  | ok text =>
      obtain ⟨rfl, rfl⟩ := ends
      exact ⟨⟨_, rfl⟩, by rintro _ ⟨⟩; rfl⟩
  | error fault =>
      obtain ⟨rfl, rfl⟩ := ends
      exact ⟨⟨_, rfl⟩, by rintro _ ⟨⟩⟩

theorem ends_readReadable {parser : SourceParser} {paths : List Path} {result : List SourceFile}
    (ends : (readReadable parser paths).Ends (Faulty faults) store result after) :
    ∃ elapsed, after = store.pause elapsed := by
  induction paths generalizing store result after with
  | nil =>
      obtain ⟨-, rfl⟩ := ends
      exact ⟨0, store.pause_zero.symm⟩
  | cons path rest ih =>
      rw [readReadable] at ends
      obtain ⟨file, middle, read, ends⟩ := Program.ends_bind.mp ends
      obtain ⟨⟨elapsed, rfl⟩, -⟩ := ends_read read
      obtain ⟨others, last, readRest, ends⟩ := Program.ends_bind.mp ends
      obtain ⟨more, rfl⟩ := ih readRest
      rw [Store.pause_pause] at ends
      cases file <;>
      · obtain ⟨-, rfl⟩ := ends
        exact ⟨_, rfl⟩

/-- A path from which no source can be read, whether there is no text or it is refused. -/
def IsUnreadable (faults : Faults) (store : Store) (path : Path) : Prop :=
  faults.barred (.readText (store.absolute path)) ∨
    ∀ text, store.readText (store.absolute path) ≠ .ok text

theorem IsUnreadable.pause (unreadable : IsUnreadable faults store path) (elapsed : Nat) :
    IsUnreadable faults (store.pause elapsed) path := by
  rw [IsUnreadable, Store.absolute_pause]
  refine unreadable.imp_right fun textless text => ?_
  rw [Store.readText_pause]
  exact textless text

/-- The reading of an unreadable source fails. -/
theorem IsUnreadable.ends_read {parser : SourceParser} {result : Except Failure SourceFile}
    (unreadable : IsUnreadable faults store path)
    (ends : (read parser path).run.Ends (Faulty faults) store result after) :
    ∃ failure, result = .error failure := by
  rw [read] at ends
  obtain ⟨_, middle, named, ends⟩ := Attempt.ends_after ends
  obtain ⟨rfl, elapsed, rfl⟩ := Program.ends_canonicalOrSame named
  obtain ⟨text, later, answered, ends⟩ := Attempt.ends_ask ends
  cases text with
  | error fault =>
      obtain ⟨rfl, -⟩ := ends
      exact ⟨_, rfl⟩
  | ok text =>
      obtain ⟨told, spared⟩ := (ends_readText answered).2 text rfl
      rw [Store.readText_pause] at told
      obtain barred | textless := unreadable
      · exact absurd barred spared
      · exact absurd told (textless text)

/-- It can fail at once. -/
theorem IsUnreadable.exists_ends (parser : SourceParser)
    (unreadable : IsUnreadable faults store path) :
    ∃ failure, (read parser path).run.Ends (Faulty faults) store (.error failure) store := by
  have found : Faulty faults store (.canonical path) (store.canonical path) store := by
    refine .inl ⟨faults.refusable _, 0, ?_⟩
    rw [answerAfter, Store.pause_zero]
    rfl
  have textless : ∃ fault, Faulty faults store (.readText (store.absolute path)) (.error fault)
      store := by
    by_cases barred : faults.barred (.readText (store.absolute path))
    · exact ⟨.unreadable, .inr ⟨.inr barred, rfl, 0, store.pause_zero.symm⟩⟩
    · cases told : store.readText (store.absolute path) with
      | ok text => exact absurd told (unreadable.resolve_left barred text)
      | error fault =>
          refine ⟨fault, .inl ⟨barred, 0, ?_⟩⟩
          rw [answerAfter, Store.pause_zero]
          exact congrArg (·, store) told
  obtain ⟨fault, answered⟩ := textless
  exact ⟨.cannotReadSource (store.absolute path), _, _, found, _, _, answered, rfl, rfl⟩

/-- The files of a list together with a file that may not have been read. -/
def joined (file : Except Failure SourceFile) (others : List SourceFile) : List SourceFile :=
  match file with
  | .ok file => file :: others
  | .error _ => others

end SourceFile

/-- An analysis is of the source at the path that the store knows. Only the source itself has to be
read. -/
theorem Analysis.ends_ofPath {parser : SourceParser} {context : List Path} {analysis : Analysis}
    (ends : (ofPath parser path context).run.Ends (Faulty faults) store (.ok analysis) after) :
    (∃ elapsed, after = store.pause elapsed) ∧ analysis.file.path = store.absolute path := by
  obtain ⟨failure, -, other⟩ | ⟨file, middle, read, ends⟩ := Attempt.ends_bind ends
  · cases other
  · obtain ⟨⟨elapsed, rfl⟩, named⟩ := SourceFile.ends_read read
    obtain ⟨files, last, readContext, same, rfl⟩ := Attempt.ends_after ends
    obtain rfl := Except.ok.inj same
    obtain ⟨more, rfl⟩ := SourceFile.ends_readReadable readContext
    exact ⟨⟨_, Store.pause_pause store elapsed more⟩, named file rfl⟩

/-- A document is called by what the store knows of the paths. -/
theorem Interchange.ends_documentFor {source root output value : Path} {extension : String}
    (ends : (documentFor source root output extension).Ends (Faulty faults) store value after) :
    value = documentPath (store.absolute source) (store.absolute root) (store.absolute output)
        extension ∧ ∃ elapsed, after = store.pause elapsed := by
  obtain ⟨_, _, ends₁, ends⟩ := Program.ends_bind.mp ends
  obtain ⟨rfl, first, rfl⟩ := Program.ends_canonicalOrSame ends₁
  obtain ⟨_, _, ends₂, ends⟩ := Program.ends_bind.mp ends
  obtain ⟨rfl, second, rfl⟩ := Program.ends_canonicalOrSame ends₂
  obtain ⟨_, _, ends₃, rfl, rfl⟩ := Program.ends_bind.mp ends
  obtain ⟨rfl, third, rfl⟩ := Program.ends_canonicalOrSame ends₃
  simp only [Store.pause_pause, Store.absolute_pause]
  exact ⟨trivial, _, rfl⟩

end JavaStructure
