/-
# The stages of a run

A run loads its settings and reads its source and its context; it writes its document and its line
hashes, comes to the cache, and writes its dumps behind it. Each stage may fail, and all but the
merge then end the run. What each of them writes is one file.
-/

import JavaStructure.Command.Run
import JavaStructure.Proofs.Building.NameSources
import JavaStructure.Proofs.Command.Reading
import JavaStructure.Proofs.Files.Obstacles

namespace JavaStructure.Command

open Program (step)
open Store

variable {parser : SourceParser} {home : Option String} {arguments : Arguments}
variable {settings : Settings} {analysis : Analysis} {answering : Answering} {faults : Faults}
variable {store before after : Store} {path : Path}

/-- What a run writes when it is past the cache. -/
def conclude (analysis : Analysis) (arguments : Arguments) : Attempt Unit := do
  writeDump arguments .model analysis.model.toJson
  writeDump arguments .tree analysis.unit.toJson

section

variable (parser home arguments answering store)

/-- A run can load its settings and read its source. -/
def Reads (settings : Settings) (analysis : Analysis) (after : Store) : Prop :=
  ∃ loaded, (Settings.load home).run.Ends answering store (.ok settings) loaded ∧
    (Analysis.ofPath parser arguments.source (contextSources arguments)).run.Ends answering loaded
      (.ok analysis) after

/-- A run can also write its document, and its line hashes if they were asked for. It comes to the
cache then. -/
def Delivered (settings : Settings) (analysis : Analysis) (after : Store) : Prop :=
  ∃ read document written, Reads parser home arguments answering store settings analysis read ∧
    (writeModel analysis.model arguments settings).run.Ends answering read (.ok document) written ∧
    (writeHashes analysis.file.text document arguments settings).run.Ends answering written (.ok ())
      after

/-- What can go wrong with a run before it comes to the cache. -/
inductive Stops : Failure → Store → Prop
  /-- The settings cannot be loaded. -/
  | settings {failure : Failure} {after : Store}
      (unloaded : (Settings.load home).run.Ends answering store (.error failure) after) :
      Stops (.noSettings failure) after
  /-- The source cannot be read. -/
  | source {settings : Settings} {loaded : Store} {failure : Failure} {after : Store}
      (loads : (Settings.load home).run.Ends answering store (.ok settings) loaded)
      (unread : (SourceFile.read parser arguments.source).run.Ends answering loaded
        (.error failure) after) :
      Stops failure after
  /-- The document cannot be written. -/
  | document {settings : Settings} {analysis : Analysis} {read : Store} {failure : Failure}
      {after : Store} (reads : Reads parser home arguments answering store settings analysis read)
      (unwritten : (writeModel analysis.model arguments settings).run.Ends answering read
        (.error failure) after) :
      Stops failure after
  /-- The line hashes cannot be written. -/
  | hashes {settings : Settings} {analysis : Analysis} {read : Store} {document : Path}
      {written : Store} {failure : Failure} {after : Store}
      (reads : Reads parser home arguments answering store settings analysis read)
      (writes : (writeModel analysis.model arguments settings).run.Ends answering read
        (.ok document) written)
      (unwritten : (writeHashes analysis.file.text document arguments settings).run.Ends answering
        written (.error failure) after) :
      Stops failure after

end

/-- What a run writes besides the cache. -/
inductive Output
  | document
  | hashes
  | dump (dump : Dump)
  deriving DecidableEq

/-- The path of the document of a run. -/
def documentOf (store : Store) (arguments : Arguments) (settings : Settings) : Path :=
  Interchange.documentPath (store.absolute (store.absolute arguments.source))
    (store.absolute arguments.sourceRoot) (store.absolute arguments.output)
    settings.output.extension

/-- Where an output of a run goes, if it was asked for. -/
def Output.path? (store : Store) (arguments : Arguments) (settings : Settings) :
    Output → Option Path
  | .document => some (documentOf store arguments settings)
  | .hashes =>
      if arguments.has .hashes then
        some (Interchange.hashesPath (documentOf store arguments settings)
          settings.output.hashesDirectory)
      else none
  | .dump wanted => arguments.dumpPath? wanted

/-- The text of an output. -/
def Output.text (analysis : Analysis) : Output → String
  | .document => Interchange.renderModel analysis.model
  | .hashes => LineHash.listing analysis.file.text
  | .dump .model => analysis.model.toJson.pretty
  | .dump .tree => analysis.unit.toJson.pretty

theorem ends_writeHashes {text : String} {document : Path} {result : Except Failure Unit}
    (ends : (writeHashes text document arguments settings).run.Ends (Faulty faults) before result
      after) :
    Writes (if arguments.has .hashes then
      some (Interchange.hashesPath document settings.output.hashesDirectory) else none)
      before after := by
  rw [writeHashes] at ends
  -- Neither the path nor the text is looked into.
  generalize Interchange.hashesPath document settings.output.hashesDirectory = path at ends ⊢
  generalize LineHash.listing text = listing at ends
  by_cases asked : arguments.has .hashes
  · rw [if_pos asked] at ends ⊢
    exact .inr ⟨path, rfl, ends_writeText ends⟩
  · rw [if_neg asked] at ends ⊢
    exact .inl ends.2.symm

/-- Line hashes that are written could be written, and are what their file holds. -/
theorem ends_writeHashes_ok {text : String} {document : Path}
    (asked : arguments.has .hashes = true)
    (ends : (writeHashes text document arguments settings).run.Ends (Faulty faults) before (.ok ())
      after) :
    ¬IsUnwritable faults before
        (Interchange.hashesPath document settings.output.hashesDirectory) ∧
      after.contentOf? (Interchange.hashesPath document settings.output.hashesDirectory) =
        some (.text (LineHash.listing text)) := by
  rw [writeHashes, if_pos asked] at ends
  generalize Interchange.hashesPath document settings.output.hashesDirectory = path at ends ⊢
  generalize LineHash.listing text = listing at ends ⊢
  exact ends_writeText_ok ends

theorem ends_writeDump {dump : Dump} {json : Json} {result : Except Failure Unit}
    (ends : (writeDump arguments dump json).run.Ends (Faulty faults) before result after) :
    Writes (arguments.dumpPath? dump) before after := by
  rw [writeDump] at ends
  cases asked : arguments.dumpPath? dump with
  | none =>
      simp only [asked] at ends
      exact .inl ends.2.symm
  | some path =>
      simp only [asked] at ends
      exact .inr ⟨path, rfl, ends_writeText ends⟩

/-- A dump that is written is what its file holds. -/
theorem ends_writeDump_ok {dump : Dump} {json : Json} (asked : path ∈ arguments.dumpPath? dump)
    (ends : (writeDump arguments dump json).run.Ends (Faulty faults) before (.ok ()) after) :
    after.contentOf? path = some (.text json.pretty) := by
  rw [writeDump] at ends
  generalize json.pretty = text at ends ⊢
  simp only [Option.mem_def.mp asked] at ends
  exact (ends_writeText_ok ends).2

/-- What a run has read tells where its document goes. -/
theorem Reads.known {read : Store}
    (reads : Reads parser home arguments (Faulty faults) store settings analysis read) :
    Settings.heldBy store home = some settings ∧ (∃ elapsed, read = store.pause elapsed) ∧
      ⟨analysis.model.moduleInfo.path⟩ = store.absolute arguments.source := by
  obtain ⟨loaded, loads, reads⟩ := reads
  obtain ⟨⟨elapsed, rfl⟩, held⟩ := Settings.ends_load loads
  obtain ⟨⟨more, rfl⟩, named⟩ := Analysis.ends_ofPath reads
  rw [Store.absolute_pause] at named
  refine ⟨(held settings rfl).1, ⟨_, Store.pause_pause store elapsed more⟩, ?_⟩
  rw [← named]
  exact congrArg Path.mk (Model.ofUnit_follows _ _ _).path

theorem Reads.ends_writeModel {read : Store} {result : Except Failure Path}
    (reads : Reads parser home arguments (Faulty faults) store settings analysis read)
    (ends : (writeModel analysis.model arguments settings).run.Ends (Faulty faults) read result
      after) :
    Delivers (documentOf store arguments settings) store after ∧
      ∀ document, result = .ok document → document = documentOf store arguments settings ∧
        ¬IsUnwritable faults store document ∧
        after.contentOf? document = some (.text (Interchange.renderModel analysis.model)) := by
  obtain ⟨-, ⟨elapsed, rfl⟩, named⟩ := reads.known
  rw [writeModel, named] at ends
  obtain ⟨document, _, told, ends⟩ := Attempt.ends_after ends
  obtain ⟨called, more, rfl⟩ := Interchange.ends_documentFor told
  simp only [Store.absolute_pause] at called
  rw [documentOf, ← called]
  have paused := (DeepensAlong.of_pause (· ∈ store.way document) store elapsed).trans
    (.of_pause _ _ more)
  obtain ⟨failure, unwritten, rfl⟩ | ⟨⟨⟩, last, written, rfl, rfl⟩ := Attempt.ends_bind ends
  · obtain ⟨_, ends, -⟩ := Attempt.ends_adapt.mp unwritten
    exact ⟨.after_deepens paused (ends_writeDocument ends), nofun⟩
  · obtain ⟨_ | ⟨⟨⟩⟩, ends, same⟩ := Attempt.ends_adapt.mp written <;> cases same
    obtain ⟨writable, held⟩ := ends_writeDocument_ok ends
    refine ⟨.after_deepens paused (ends_writeDocument ends), ?_⟩
    rintro _ ⟨⟩
    exact ⟨rfl, fun unwritable => writable ((unwritable.pause elapsed).pause more), held⟩

/-- A run that stops has written nothing but its document and its line hashes. -/
theorem Stops.writes {failure : Failure}
    (stops : Stops parser home arguments (Faulty faults) store failure after) :
    (∃ elapsed, after = store.pause elapsed) ∨
      ∃ settings, Settings.heldBy store home = some settings ∧
        ∃ written, Writes (Output.document.path? store arguments settings) store written ∧
          Writes (Output.hashes.path? store arguments settings) written after := by
  cases stops with
  | settings unloaded => exact .inl (Settings.ends_load unloaded).1
  | source loads unread =>
      obtain ⟨⟨elapsed, rfl⟩, -⟩ := Settings.ends_load loads
      obtain ⟨⟨more, rfl⟩, -⟩ := SourceFile.ends_read unread
      exact .inl ⟨_, Store.pause_pause store elapsed more⟩
  | document reads unwritten =>
      obtain ⟨delivers, -⟩ := reads.ends_writeModel unwritten
      exact .inr ⟨_, reads.known.1, after, .inr ⟨_, rfl, delivers⟩, .inl rfl⟩
  | hashes reads writes unwritten =>
      obtain ⟨delivers, named⟩ := reads.ends_writeModel writes
      rw [(named _ rfl).1] at unwritten
      exact .inr ⟨_, reads.known.1, _, .inr ⟨_, rfl, delivers⟩, ends_writeHashes unwritten⟩

/-- A run that comes to the cache has written nothing else either, and its document and its line
hashes are there. -/
theorem Delivered.writes
    (delivered : Delivered parser home arguments (Faulty faults) store settings analysis after) :
    Settings.heldBy store home = some settings ∧
      ∃ written, Writes (Output.document.path? store arguments settings) store written ∧
        Writes (Output.hashes.path? store arguments settings) written after ∧
        (∀ path ∈ Output.document.path? store arguments settings, ¬IsUnwritable faults store path ∧
          written.contentOf? path = some (.text (Output.document.text analysis))) ∧
        ∀ path ∈ Output.hashes.path? store arguments settings, ¬IsUnwritable faults written path ∧
          after.contentOf? path = some (.text (Output.hashes.text analysis)) := by
  obtain ⟨read, document, written, reads, writes, writesToo⟩ := delivered
  obtain ⟨delivers, told⟩ := reads.ends_writeModel writes
  obtain ⟨named, holds⟩ := told document rfl
  rw [named] at holds writesToo
  refine ⟨reads.known.1, written, .inr ⟨_, rfl, delivers⟩, ends_writeHashes writesToo, ?_, ?_⟩
  · intro path asked
    obtain rfl : documentOf store arguments settings = path := Option.some.inj asked
    rw [Output.text]
    exact holds
  · intro path asked
    rw [Output.path?] at asked
    rw [Output.text]
    by_cases wanted : arguments.has .hashes = true
    · rw [if_pos wanted] at asked
      obtain rfl := Option.some.inj asked
      exact ends_writeHashes_ok wanted writesToo
    · rw [if_neg wanted] at asked
      cases asked

end JavaStructure.Command
