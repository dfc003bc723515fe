/-
# How failures are kept apart

A run that fails before it comes to the cache has touched neither the cache nor a dump. What becomes
of the cache makes no difference to anything else, and neither does a context file that cannot be
read.
-/

import JavaStructure.Proofs.Command.Stages
import JavaStructure.Proofs.Dependencies.Footprint
import JavaStructure.Proofs.Grammar.Sketches

namespace JavaStructure.Command

open Dependencies (IsOfMerge IsDrawn IsMadeForMerge StaysWithMerge Lock)
open Store

section

variable {parser : SourceParser} {home : Option String} {arguments : Arguments}
variable {settings : Settings} {analysis : Analysis} {faults : Faults}
variable {store before after : Store} {path cache : Path} {output : Output}
variable {paths : Output → Option Path}

/-- The outputs of a run, its cache and the lock of that all stand apart, and nothing that a merge
calls by a name of its own is on the way of an output. -/
structure KeepsApart (store : Store) (paths : Output → Option Path) (cache : Path) : Prop where
  outputs : ∀ output outputToo, output ≠ outputToo → ∀ path ∈ paths output,
    ∀ pathToo ∈ paths outputToo, store.StandApart path pathToo
  fromCache : ∀ output, ∀ path ∈ paths output, store.StandApart path cache
  fromLock : ∀ output, ∀ path ∈ paths output, store.StandApart path (Lock.pathFor cache)
  fromDrawn : ∀ output, ∀ path ∈ paths output, ∀ name, IsDrawn cache store.fresh name →
    ¬store.Passes path (store.location name)

namespace KeepsApart

theorem of_writes {path? : Option Path} (apart : KeepsApart before paths cache)
    (numbered : before.IsNumbered) (writes : Writes path? before after) :
    KeepsApart after paths cache where
  outputs output outputToo differ path asked pathToo askedToo :=
    (apart.outputs output outputToo differ path asked pathToo askedToo).of_writes numbered writes
  fromCache output path asked := (apart.fromCache output path asked).of_writes numbered writes
  fromLock output path asked := (apart.fromLock output path asked).of_writes numbered writes
  fromDrawn output path asked name drawn := by
    obtain ⟨same, fresh, -⟩ := writes.changes
    obtain ⟨drawnIn, later, named⟩ := drawn
    rw [passes_congr same, location_congr same]
    exact apart.fromDrawn output path asked name ⟨drawnIn, Nat.le_trans fresh later, named⟩

/-- What a merge touches is not on the way of an output. -/
theorem untouched (apart : KeepsApart before paths cache) (asked : path ∈ paths output)
    {place : Location} (passed : before.Passes path place) :
    ¬∃ other, IsOfMerge cache before.fresh other ∧ before.location other = place := by
  rintro ⟨other, rfl | rfl | drawn, rfl⟩
  · exact (apart.fromCache output path asked).passes passed
  · exact (apart.fromLock output path asked).passes passed
  · exact apart.fromDrawn output path asked other drawn passed

/-- And no output is where it makes a directory. -/
theorem unmade (apart : KeepsApart before paths cache) (asked : path ∈ paths output) :
    ¬∃ front, IsMadeForMerge cache front ∧ before.location path ∈ before.way front := by
  rintro ⟨front, parent, inside⟩
  obtain ⟨name, cut⟩ := exists_cut_of_properParent? parent
  refine (apart.fromCache output path asked).passesToo (.inr ?_)
  rw [way_of_cutLast? cut]
  exact List.mem_append_left _ inside

end KeepsApart

/-- The document and the line hashes of a run that comes to the cache are there. -/
theorem Delivered.holds (numbered : store.IsNumbered)
    (apart : KeepsApart store (Output.path? store arguments settings) cache)
    (delivered : Delivered parser home arguments (Faulty faults) store settings analysis after)
    (early : ∀ dump, output ≠ .dump dump) (asked : path ∈ output.path? store arguments settings) :
    after.contentOf? path = some (.text (output.text analysis)) := by
  obtain ⟨held, written, writes, writesToo, document, hashes⟩ := delivered.writes
  cases output with
  | document =>
      have apartToo (other : Path) (asks : other ∈ Output.hashes.path? store arguments settings) :
          written.StandApart path other :=
        (apart.outputs .document .hashes nofun path asked other asks).of_writes numbered writes
      calc after.contentOf? path
        _ = written.contentOf? path := writesToo.contentOf? apartToo (writes.changes.2.2 numbered)
        _ = some (.text (Output.document.text analysis)) := (document path asked).2
  | hashes => exact (hashes path asked).2
  | dump dump => exact absurd rfl (early dump)

/-- What is left of a run leaves the other outputs, and writes the dumps if it succeeds. -/
theorem ends_conclude {result : Except Failure Unit} (numbered : before.IsNumbered)
    (goes : ∀ dump, paths (.dump dump) = arguments.dumpPath? dump)
    (apart : ∀ output outputToo, output ≠ outputToo → ∀ path ∈ paths output,
      ∀ pathToo ∈ paths outputToo, before.StandApart path pathToo)
    (ends : (conclude analysis arguments).run.Ends (Faulty faults) before result after)
    (asked : path ∈ paths output) :
    ((∀ dump, output ≠ .dump dump) → after.contentOf? path = before.contentOf? path) ∧
      ∀ dump, output = .dump dump → result = .ok () →
        after.contentOf? path = some (.text (output.text analysis)) := by
  have stand (dump : Dump) (other : output ≠ .dump dump) :
      ∀ third ∈ paths (.dump dump), before.StandApart path third :=
    apart output (.dump dump) other path asked
  obtain ⟨failure, failed, rfl⟩ | ⟨⟨⟩, middle, first, second⟩ := Attempt.ends_bind ends
  · have writes := ends_writeDump failed
    rw [← goes] at writes
    exact ⟨fun early => writes.contentOf? (stand .model (early _)) numbered, nofun⟩
  have writes := ends_writeDump first
  have writesToo := ends_writeDump second
  rw [← goes] at writes writesToo
  have kept (other : output ≠ .dump .tree) : after.contentOf? path = middle.contentOf? path :=
    writesToo.contentOf?
      (fun third asks => (stand .tree other third asks).of_writes numbered writes)
      (writes.changes.2.2 numbered)
  refine ⟨fun early => ?_, ?_⟩
  · calc after.contentOf? path
      _ = middle.contentOf? path := kept (early _)
      _ = before.contentOf? path := writes.contentOf? (stand .model (early _)) numbered
  · rintro dump rfl rfl
    rw [goes] at asked
    cases dump with
    | model =>
        calc after.contentOf? path
          _ = middle.contentOf? path := kept nofun
          _ = some (.text (Output.text analysis (.dump .model))) := ends_writeDump_ok asked first
    | tree => exact ends_writeDump_ok asked second

/-- Two stores that agree on the outputs of a run, and on whether those that are still ahead can be
written. -/
structure Agree (paths : Output → Option Path) (ahead : Output → Prop) (store other : Store) :
    Prop where
  numbered : store.IsNumbered
  numberedToo : other.IsNumbered
  apart : ∀ output outputToo, output ≠ outputToo → ∀ path ∈ paths output,
    ∀ pathToo ∈ paths outputToo, store.StandApart path pathToo ∧ other.StandApart path pathToo
  contents : ∀ output, ∀ path ∈ paths output, other.contentOf? path = store.contentOf? path
  resembles : ∀ output, ahead output → ∀ path ∈ paths output, Resembles path store other

namespace Agree

variable {ahead : Output → Prop} {other afterToo : Store}

/-- Both stores agree still when one output was written in both. -/
theorem of_writes (agree : Agree paths ahead store other)
    (writes : Writes (paths output) store after) (writesToo : Writes (paths output) other afterToo)
    (own : ∀ path ∈ paths output, afterToo.contentOf? path = after.contentOf? path) :
    Agree paths (fun later => ahead later ∧ later ≠ output) after afterToo where
  numbered := writes.changes.2.2 agree.numbered
  numberedToo := writesToo.changes.2.2 agree.numberedToo
  apart first second differ path asked pathToo askedToo :=
    (agree.apart first second differ path asked pathToo askedToo).imp
      (·.of_writes agree.numbered writes) (·.of_writes agree.numberedToo writesToo)
  contents later path asked := by
    by_cases same : later = output
    · subst same
      exact own path asked
    · have apart := agree.apart later output same path asked
      rw [writes.contentOf? (fun third inside => (apart third inside).1) agree.numbered,
        writesToo.contentOf? (fun third inside => (apart third inside).2) agree.numberedToo]
      exact agree.contents later path asked
  resembles later next path asked := by
    have apart := agree.apart later output next.2 path asked
    exact (writes.resembles fun third inside => (apart third inside).1).symm.trans
      ((agree.resembles later next.1 path asked).trans
        (writesToo.resembles fun third inside => (apart third inside).2))

/-- A dump is written in both stores or in neither. -/
theorem writeDump {dump : Dump} {json : Json} {result resultToo : Except Failure Unit}
    (agree : Agree paths ahead store other) (goes : paths (.dump dump) = arguments.dumpPath? dump)
    (next : ahead (.dump dump))
    (ends : (writeDump arguments dump json).run.Ends (Faulty .none) store result after)
    (endsToo : (writeDump arguments dump json).run.Ends (Faulty .none) other resultToo afterToo) :
    result = resultToo ∧
      Agree paths (fun later => ahead later ∧ later ≠ .dump dump) after afterToo := by
  have writes := ends_writeDump ends
  have writesToo := ends_writeDump endsToo
  rw [← goes] at writes writesToo
  rw [Command.writeDump] at ends endsToo
  generalize json.pretty = text at ends endsToo
  cases asked : arguments.dumpPath? dump with
  | none =>
      simp only [asked] at ends endsToo
      exact ⟨ends.1.symm.trans endsToo.1, agree.of_writes writes writesToo (by simp [goes, asked])⟩
  | some path =>
      simp only [asked] at ends endsToo
      rw [asked] at goes
      have mine : path ∈ paths (.dump dump) := goes
      obtain ⟨same, held⟩ := ends_writeText_none (agree.resembles _ next path mine)
        (agree.contents _ path mine) ends endsToo
      refine ⟨same, agree.of_writes writes writesToo fun other inside => ?_⟩
      obtain rfl : path = other := Option.mem_unique mine inside
      exact held.symm

/-- What is left of a run ends alike in both stores. -/
theorem conclude {result resultToo : Except Failure Unit} (agree : Agree paths ahead store other)
    (goes : ∀ dump, paths (.dump dump) = arguments.dumpPath? dump)
    (next : ∀ dump, ahead (.dump dump))
    (ends : (conclude analysis arguments).run.Ends (Faulty .none) store result after)
    (endsToo : (conclude analysis arguments).run.Ends (Faulty .none) other resultToo afterToo) :
    result = resultToo ∧ ∃ later, Agree paths later after afterToo := by
  obtain ⟨failure, failed, rfl⟩ | ⟨⟨⟩, middle, first, ends⟩ := Attempt.ends_bind ends <;>
    obtain ⟨failureToo, failedToo, rfl⟩ | ⟨⟨⟩, middleToo, firstToo, endsToo⟩ :=
      Attempt.ends_bind endsToo
  · obtain ⟨same, agree⟩ := agree.writeDump (goes _) (next _) failed failedToo
    exact ⟨congrArg _ (Except.error.inj same), _, agree⟩
  · cases (agree.writeDump (goes _) (next _) failed firstToo).1
  · cases (agree.writeDump (goes _) (next _) first failedToo).1
  · obtain ⟨-, agree⟩ := agree.writeDump (goes _) (next _) first firstToo
    obtain ⟨same, agree⟩ := agree.writeDump (goes _) ⟨next _, by simp⟩ ends endsToo
    exact ⟨same, _, agree⟩

/-- Whatever becomes of two merges, they leave the outputs as they were. -/
theorem of_merges {middle merged mergedToo : Store} (apart : KeepsApart middle paths cache)
    (numbered : middle.IsNumbered)
    (touches : Program.Touches (IsOfMerge cache middle.fresh) (IsMadeForMerge cache) middle merged)
    (touchesToo : Program.Touches (IsOfMerge cache middle.fresh) (IsMadeForMerge cache) middle
      mergedToo) : Agree paths (fun _ => True) merged mergedToo := by
  have untouched {output : Output} {path : Path} (asked : path ∈ paths output) :=
    apart.untouched asked (.inl rfl)
  have resembles {left : Store}
      (touches : Program.Touches (IsOfMerge cache middle.fresh) (IsMadeForMerge cache) middle left)
      {output : Output} {path : Path} (asked : path ∈ paths output) : Resembles path middle left :=
    .of_changesOnly touches (fun _ inside => apart.untouched asked (.inr inside))
      (apart.unmade asked)
  have contents {left : Store}
      (touches : Program.Touches (IsOfMerge cache middle.fresh) (IsMadeForMerge cache) middle left)
      {output : Output} {path : Path} (asked : path ∈ paths output) :
      left.contentOf? path = middle.contentOf? path := by
    rw [contentOf?, location_congr touches.workingDirectory, contentAt?,
      touches.numberAt? _ (untouched asked)]
    exact Option.bind_congr fun number stands => touches.held number (numbered _ number stands) id
  refine ⟨touches.isNumbered numbered, touchesToo.isNumbered numbered, ?_, ?_, ?_⟩
  · intro output outputToo differ path asked pathToo askedToo
    have stand := apart.outputs output outputToo differ path asked pathToo askedToo
    exact ⟨stand.of_changesOnly touches (untouched asked) (untouched askedToo),
      stand.of_changesOnly touchesToo (untouched asked) (untouched askedToo)⟩
  · intro output path asked
    rw [contents touches asked, contents touchesToo asked]
  · intro output _ path asked
    exact (resembles touches asked).symm.trans (resembles touchesToo asked)

end Agree

/-- A run goes on from where it comes to the cache. Whatever becomes of the merge, and whatever is
refused to it, no step after it is refused. -/
def Finishes (analysis : Analysis) (arguments : Arguments) (settings : Settings) (middle : Store)
    (result : Except Failure Unit) (after : Store) : Prop :=
  ∃ harms outcome merged,
    (updateCache analysis.model arguments settings).run.Ends (Faulty harms) middle outcome merged ∧
      (conclude analysis arguments).run.Ends (Faulty .none) merged result after

theorem staysWithMerge_updateCache (model : Model) (arguments : Arguments) (settings : Settings)
    (bound : Nat) :
    StaysWithMerge (cacheFor arguments settings).path bound (fun _ => True)
      (updateCache model arguments settings).run :=
  Attempt.isWithin_ask trivial fun _ _ => Dependencies.staysWithMerge_mergeNow _

/-- Two runs that have come to the cache in the same way end in the same way. -/
theorem Finishes.agree {middle afterToo : Store} {result resultToo : Except Failure Unit}
    (numbered : middle.IsNumbered)
    (apart : KeepsApart middle paths (cacheFor arguments settings).path)
    (goes : ∀ dump, paths (.dump dump) = arguments.dumpPath? dump)
    (finishes : Finishes analysis arguments settings middle result after)
    (finishesToo : Finishes analysis arguments settings middle resultToo afterToo) :
    result = resultToo ∧ ∃ later, Agree paths later after afterToo := by
  obtain ⟨_, _, merged, merges, ends⟩ := finishes
  obtain ⟨_, _, mergedToo, mergesToo, endsToo⟩ := finishesToo
  have within := staysWithMerge_updateCache analysis.model arguments settings middle.fresh
  have touches := Program.touches_of_ends within (.refl _ _ _ middle) merges
  have touchesToo := Program.touches_of_ends within (.refl _ _ _ middle) mergesToo
  exact (Agree.of_merges apart numbered touches touchesToo).conclude goes (fun _ => trivial) ends
    endsToo

/-- The document and the line hashes of a run that has come to the cache stay, and its dumps are
there if it succeeds. -/
theorem Finishes.holds {middle : Store} {result : Except Failure Unit}
    (numbered : middle.IsNumbered)
    (apart : KeepsApart middle paths (cacheFor arguments settings).path)
    (goes : ∀ dump, paths (.dump dump) = arguments.dumpPath? dump)
    (finishes : Finishes analysis arguments settings middle result after)
    (asked : path ∈ paths output) :
    ((∀ dump, output ≠ .dump dump) → after.contentOf? path = middle.contentOf? path) ∧
      ∀ dump, output = .dump dump → result = .ok () →
        after.contentOf? path = some (.text (output.text analysis)) := by
  obtain ⟨_, _, merged, merges, ends⟩ := finishes
  have within := staysWithMerge_updateCache analysis.model arguments settings middle.fresh
  have agree := Agree.of_merges apart numbered (.refl _ _ _ middle)
    (Program.touches_of_ends within (.refl _ _ _ middle) merges)
  have apartToo (output outputToo : Output) (differ : output ≠ outputToo) (path : Path)
      (asked : path ∈ paths output) (pathToo : Path) (askedToo : pathToo ∈ paths outputToo) :
      merged.StandApart path pathToo :=
    (agree.apart output outputToo differ path asked pathToo askedToo).2
  rw [← agree.contents output path asked]
  exact ends_conclude agree.numberedToo goes apartToo ends asked

/-- What is drawn is not on the way of a path whose places are called otherwise. -/
theorem not_passes_drawn {name : Path} {bound : Nat} {last : List Char}
    (drawn : IsDrawn cache bound name) (named : cache.lastName? = some last)
    (other : ∀ stop ∈ store.location path :: store.way path, ∀ head ∈ stop.head?,
      ¬".tmp".toList <+: head.toList ∧ ¬last ++ ".lock.stale.".toList <+: head.toList) :
    ¬store.Passes path (store.location name) := by
  obtain ⟨front, back, namedDrawn, kind⟩ := drawn.lastName? named
  have long : 3 ≤ (front ++ back).length := by
    obtain rfl | rfl := kind
    · simp
    · simp
      omega
  have proper {short : String} (few : short.toList.length < 3) :
      String.ofList (front ++ back) ≠ short := by
    rintro rfl
    rw [String.toList_ofList] at few
    omega
  have head := store.head?_location namedDrawn
    (not_or.mpr ⟨proper (by decide), proper (by decide)⟩) (proper (by decide))
  intro passes
  have apart := other _ (List.mem_cons.mpr passes) _ head
  simp only [String.toList_ofList] at apart
  obtain rfl | rfl := kind
  · exact apart.1 (List.prefix_append _ _)
  · exact apart.2 (List.prefix_append _ _)

end

namespace Workspace

/-- A parser for sources that are one import. -/
def parser : SourceParser := fun text =>
  ⟨.bare "program" none text [.bare "import_declaration" none text []], false⟩

/-- A source, and an empty cache beside an old dump. -/
def initial : Store where
  entries :=
    [(["src"], .directory), (["A.java", "src"], .file 0), (["out"], .directory),
      (["incdeps.txt", "out"], .file 1), (["model.json", "out"], .file 2)]
  files := [(0, ⟨.text "import b.B;", 0⟩), (1, ⟨.text "", 0⟩), (2, ⟨.text "{}", 0⟩)]
  fresh := 3

/-- Everything is asked for, with a context that does not exist. -/
def arguments : Arguments where
  source := ⟨"/src/A.java"⟩
  sourceRoot := ⟨"/src"⟩
  output := ⟨"/out"⟩
  context := [⟨"/src/B.java"⟩]
  flags := [.hashes]
  dumps := [(.model, ⟨"/out/model.json"⟩), (.tree, ⟨"/out/tree.json"⟩)]

/-- The source, as it is read. -/
def analysis : Analysis where
  file := .ofText parser ⟨"/src/A.java"⟩ "import b.B;"

theorem isNumbered : initial.IsNumbered :=
  isNumbered_of_entries (by simp [initial])

theorem keepsApart :
    KeepsApart initial (Output.path? initial arguments {}) (cacheFor arguments {}).path := by
  have listed (output : Output) : output ∈ [.document, .hashes, .dump .model, .dump .tree] := by
    rcases output with _ | _ | _ | _ <;> decide
  have apart : ∀ output ∈ [Output.document, .hashes, .dump .model, .dump .tree],
      ∀ outputToo ∈ [Output.document, .hashes, .dump .model, .dump .tree], output ≠ outputToo →
      ∀ path ∈ output.path? initial arguments {}, ∀ pathToo ∈ outputToo.path? initial arguments {},
        initial.StandApart path pathToo := by decide +kernel
  have beside : ∀ output ∈ [Output.document, .hashes, .dump .model, .dump .tree],
      ∀ path ∈ output.path? initial arguments {},
        initial.StandApart path (cacheFor arguments {}).path ∧
        initial.StandApart path (Lock.pathFor (cacheFor arguments {}).path) ∧
        ∀ stop ∈ initial.location path :: initial.way path, ∀ head ∈ stop.head?,
          ¬".tmp".toList <+: head.toList ∧
            ¬"incdeps.txt".toList ++ ".lock.stale.".toList <+: head.toList := by decide +kernel
  exact
    { outputs := fun output outputToo => apart output (listed output) outputToo (listed outputToo)
      fromCache := fun output path asked => (beside output (listed output) path asked).1
      fromLock := fun output path asked => (beside output (listed output) path asked).2.1
      fromDrawn := fun output path asked name drawn => not_passes_drawn drawn (by decide +kernel)
        (beside output (listed output) path asked).2.2 }

/-- What a program leaves when some steps are refused. -/
def left {α : Type} (refused : Request → Bool) (program : Program α) (store : Store) : Store :=
  (program.runWithout refused store).2

/-- No step is refused. -/
def unrefused : Request → Bool :=
  fun _ => false

theorem ends_unrefused {α : Type} {faults : Faults} (free : ∀ request, ¬faults.barred request)
    (program : Program α) (store : Store) {result : α}
    (ran : (program.runWithout unrefused store).1 = result) :
    program.Ends (Faulty faults) store result (left unrefused program store) :=
  ran ▸ Program.ends_runWithout (fun _ never => absurd never Bool.false_ne_true)
    (fun request barred => absurd barred (free request)) program store

theorem ends_refused {α : Type} (refused : Request → Bool) (program : Program α) (store : Store)
    {result : α} (ran : (program.runWithout refused store).1 = result) :
    program.Ends (Faulty .any) store result (left refused program store) :=
  ran ▸ Program.ends_runWithout (fun _ _ => .inl trivial) (fun _ => False.elim) program store

/-- The writing of the document. -/
def documenting : Program (Except Failure Path) :=
  (writeModel analysis.model arguments {}).run

/-- The writing of the line hashes. -/
def hashing : Program (Except Failure Unit) :=
  (writeHashes analysis.file.text ⟨"/out/A_djava.xmi"⟩ arguments {}).run

/-- The merge. -/
def merging : Program (Except Failure Dependencies.MergeOutcome) :=
  (updateCache analysis.model arguments {}).run

/-- The writing of the dumps. -/
def concluding : Program (Except Failure Unit) :=
  (conclude analysis arguments).run

/-- The workspace with the document. -/
def documented : Store :=
  left unrefused documenting (initial.pause 5)

/-- The workspace with the line hashes too. -/
def hashed : Store :=
  left unrefused hashing documented

-- The endings are applied where nothing is expected yet: what is expected would be run.

theorem reads :
    Reads parser none arguments (Faulty .any) initial {} analysis (initial.pause 5) :=
  ⟨initial.pause 1,
    ends_unrefused (fun _ => id) (Settings.load none).run initial (by decide +kernel),
    ends_unrefused (fun _ => id) _ _ rfl⟩

theorem documents :
    documenting.Ends (Faulty .any) (initial.pause 5) (.ok ⟨"/out/A_djava.xmi"⟩) documented :=
  ends_unrefused (fun _ => id) documenting (initial.pause 5) (by decide +kernel)

theorem delivered : Delivered parser none arguments (Faulty .any) initial {} analysis hashed := by
  have written := ends_unrefused (fun _ => id : ∀ request, ¬Faults.any.barred request) hashing
    documented (show _ = Except.ok () by decide +kernel)
  refine ⟨_, _, _, reads, documents, ?_⟩
  apply written

theorem finishes {refused : Request → Bool}
    (done : (concluding.runWithout unrefused (left refused merging hashed)).1 = .ok ()) :
    Finishes analysis arguments {} hashed (.ok ())
      (left unrefused concluding (left refused merging hashed)) := by
  have concluded := ends_unrefused (fun _ => id : ∀ request, ¬Faults.none.barred request)
    concluding _ done
  refine ⟨.any, _, _, ends_refused refused merging hashed rfl, ?_⟩
  apply concluded

end Workspace

end JavaStructure.Command
