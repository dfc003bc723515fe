/-
# Usage

What the command says about itself: how it is called, which version it is, and
what is wrong with a command line.
-/

import JavaStructure.Command.Arguments

namespace JavaStructure.Command

/-- What is wrong with a command line. -/
def ArgumentFault.message : ArgumentFault → String
  | .unknown => "there is an argument that nobody knows"
  | .missing => "a source, a source root and an output directory are required"
  | .badValue => "an argument has an empty value or none"
  | .repeated => "an argument is given twice"
  | .surplus => "a flag takes no value"
  | .helpWanted => "help was asked for"
  | .versionWanted => "the version was asked for"

/-- How the command is called. -/
def usage : String :=
  String.join ([
    "Usage: javamodel [OPTIONS] <SOURCE> <SOURCE_ROOT> <OUTPUT_DIR> [CONTEXT]...",
    "",
    "Writes the structural model of a Java source file as a document for diagrams,",
    "and records its imports in the dependency cache of the output directory.",
    "",
    "Options:",
    "  -dups, --dups         also write a hash for every line",
    "  --debug               log more",
    "  --quiet               log nothing",
    "  --dump-model <PATH>   write the model as JSON",
    "  --dump-tree <PATH>    write the syntax tree as JSON",
    "  -h, --help            print this text",
    "  -V, --version         print the version"].map (· ++ "\n"))

/-- Which version the command is. -/
def versionLine : String :=
  "javamodel 1.0.0\n"

end JavaStructure.Command
