import Chip8.CommandLine
import Chip8.FileTree
import Chip8.Listing
import Chip8.Machine

set_option autoImplicit false

/-! What the command does, in order: it reads the program, lists it if asked to,
creates the log file and opens the terminal. Each time it needs something from
outside it says what, and how it goes on after each answer. The same plan is
carried out on real files by the command itself and on described files here. -/

namespace Chip8

structure CommandReport where
  code : Nat
  output : String
  errors : String
  deriving DecidableEq, Repr

namespace CommandReport

def success (output : String) : CommandReport := ⟨0, output, ""⟩

def usage (error : UsageError) : CommandReport :=
  ⟨2, "", "error: " ++ error.message ++ "\n"⟩

def failure (text cause : String) : CommandReport :=
  ⟨1, "", "Error: " ++ text ++ "\n\nCaused by:\n    " ++ cause ++ "\n"⟩

end CommandReport

def versionText : String := "chip8-term 0.1.0\n"

def helpText : String :=
  "Runs a CHIP-8 program inside of the terminal\n\n" ++
  "Usage: chip8-term [OPTIONS] <ROM>\n\n" ++
  "  --hertz <HERTZ>  The instruction clock rate\n" ++
  "  --log <PATH>     Where the log is written to\n" ++
  "  --disassemble    Print the listing of the program and exit\n" ++
  "  -h, --help       Print help\n" ++
  "  -V, --version    Print version\n"

inductive CommandPlan where
  | finish (report : CommandReport)
  | readProgram (path : String) (next : Except FileProblem (List Byte) → CommandPlan)
  | createLog (path : String) (next : Option FileProblem → CommandPlan)
  | openTerminal (next : Option FileProblem → CommandPlan)
  | play (options : Options) (program : List Byte)

namespace CommandPlan

/-- The listing of a program, a line end after every line. -/
def listingText (program : List Byte) : String :=
  String.join ((disassemble program programStart).map (fun line => line ++ "\n"))

def withTerminal (options : Options) (program : List Byte) : Option FileProblem → CommandPlan
  | some problem =>
      .finish (.failure "Unable to set up the terminal" problem.message)
  | none =>
      match glyphMemory.load programStart program with
      | .error range =>
          .finish (.failure ("The rom " ++ options.program ++ " does not fit into memory")
            range.message)
      | .ok _ => .play options program

def withLog (options : Options) (program : List Byte) : Option FileProblem → CommandPlan
  | some problem =>
      .finish (.failure ("Unable to create the log file " ++ options.logFile) problem.message)
  | none => .openTerminal (withTerminal options program)

def withProgram (options : Options) : Except FileProblem (List Byte) → CommandPlan
  | .error problem =>
      .finish (.failure ("Unable to read the rom " ++ options.program) problem.message)
  | .ok program =>
      if options.listing then .finish (.success (listingText program))
      else .createLog options.logFile (withLog options program)

def ofRequest : Except UsageError CommandRequest → CommandPlan
  | .error error => .finish (.usage error)
  | .ok .version => .finish (.success versionText)
  | .ok .help => .finish (.success helpText)
  | .ok (.start options) => .readProgram options.program (withProgram options)

def ofArguments (arguments : List String) : CommandPlan :=
  ofRequest (CommandRequest.ofArguments arguments)

end CommandPlan

/-- Carries a plan out on described files and without a terminal. -/
def CommandPlan.carryOutIn (tree : FileTree) : CommandPlan → FileTree × CommandReport
  | finish report => (tree, report)
  | readProgram path next => (next (tree.read path)).carryOutIn tree
  | createLog path next =>
      match tree.create path with
      | .error problem => (next (some problem)).carryOutIn tree
      | .ok created => (next none).carryOutIn created
  | openTerminal next => (next (some .noDevice)).carryOutIn tree
  | play _ _ => (tree, .success "")

end Chip8
