import MixMachine.Image.Document
import MixMachine.Listing
import MixMachine.Machine.Run

/-!
# The command line

Three commands work on an image file: `run` executes it, `disasm` lists it, and
`dump` shows what it leaves in memory. A command is a function from what the file
holds to what the user sees and the exit status, so reading the file and printing
are all that is left to the program.
-/

namespace MixMachine

/-- What a command leaves behind. -/
structure Outcome where
  status : Nat
  output : String
  errors : String
  deriving DecidableEq

/-- The outcome of a command that failed after it had printed `output`. -/
def Outcome.failed (output message : String) : Outcome :=
  ⟨1, output, message ++ "\n"⟩

/-- What the user asks for. -/
inductive Command where
  /-- Execute an image for at most `maxSteps` instructions. -/
  | run (path : String) (start : Option Nat) (maxSteps : Nat) (trace : Bool)
  /-- List an image. -/
  | disassemble (path : String)
  /-- Show `count` cells from `first` on, as the image leaves them. -/
  | dump (path : String) (first count : Nat)
  deriving DecidableEq

namespace Command

/-! ## Running -/

/-- How far a run is: the machine, how many instructions it executed, a line for
each of them when they are traced, the last one first, and the failure that ended
the run. -/
structure Progress where
  machine : Machine Buffer
  count : Nat
  trace : List String
  failure : Option (Nat × Fault)

/-- The trace of an instruction that was fetched from `pc`, in the machine that it
left. -/
def traceLine (pc : Nat) (m : Machine Buffer) : String :=
  match m.last with
  | none => ""
  | some instruction =>
    s!"{Decimal.padded 4 pc}: {padRight 24 instruction.text} " ++
      s!"A={Decimal.integer m.registers.a.value} X={Decimal.integer m.registers.x.value} " ++
      s!"J={Decimal.integer m.registers.j.value}\n"

/-- Takes steps while the machine runs and fewer than `maxSteps` have been counted here,
up to one that fails. -/
def advance (trace : Bool) (maxSteps : Nat) (p : Progress) : Progress :=
  if _ : p.machine.state = .running ∧ p.count < maxSteps then
    let pc := p.machine.registers.pc
    match Machine.step p.machine with
    | .ok _ m =>
      advance trace maxSteps
        ⟨m, p.count + 1, if trace then traceLine pc m :: p.trace else p.trace, none⟩
    | .error e m => { p with machine := m, failure := some (pc, e) }
  else p
termination_by maxSteps - p.count

/-- A register with its word and its number. -/
def registerLine (rs : Registers) (r : Register) : String :=
  padRight 11 (r.text ++ ":") ++ s!" {(rs.get r).text} ({Decimal.integer (rs.get r).value})\n"

/-- What a run that ended without a failure shows of the machine. -/
def summary (m : Machine Buffer) (count maxSteps : Nat) : String :=
  s!"\nSteps:      {Decimal.natural count}\n" ++
    s!"Time:       {Decimal.natural m.clock}u\n" ++
    s!"State:      {Variants.name m.state}\n" ++
    s!"PC:         {Decimal.natural m.registers.pc}\n" ++
    String.join ((Register.operands ++ [Register.j]).map (registerLine m.registers)) ++
    s!"Overflow:   {m.registers.overflow}\n" ++
    s!"Comparison: {Registers.comparisonRecord m.registers.comparison}\n" ++
    (if m.state = .running then
      s!"\nReached step limit ({Decimal.natural maxSteps}). Use --max-steps to increase.\n"
    else "")

/-- Makes a machine ready to run an image, from another start when one is given. -/
def prepare (image : Image) (start : Option Nat) : Except String (Machine Buffer) :=
  match Machine.loadImage image Machine.standard with
  | .error e _ => .error s!"Failed to load program: {e.message}"
  | .ok _ m =>
    match start with
    | none => .ok m
    | some pc =>
      match Machine.setPc pc m with
      | .error e _ => .error s!"Bad start address: {e.message}"
      | .ok _ m => .ok m

/-- Runs a machine that is ready. -/
def runMachine (m : Machine Buffer) (maxSteps : Nat) (trace : Bool) : Outcome :=
  let p := advance trace maxSteps ⟨m, 0, [], none⟩
  let lines := String.join p.trace.reverse
  match p.failure with
  | some (pc, e) => .failed lines s!"Machine error at PC={Decimal.natural pc}: {e.message}"
  | none => ⟨0, lines ++ summary p.machine p.count maxSteps, ""⟩

/-! ## Listing and dumping -/

/-- The listing of an image from its lowest address to its highest. -/
def listing (image : Image) : String :=
  match image.extent? with
  | none => "; empty image\n"
  | some (low, high) => Listing.text low (image.words low (high - low + 1))

/-- A cell with its word and its number, unless it holds a zero. -/
def cellLine (c : Nat × Word) : String :=
  if c.2.isZero then ""
  else s!"{Decimal.padded 4 c.1}: {c.2.text}  ({Decimal.integer c.2.value})\n"

/-! ## Commands -/

/-- The path of the image file that a command works on. -/
def path : Command → String
  | run path .. | disassemble path | dump path .. => path

/-- Carries out a command on an image. -/
def onImage (image : Image) : Command → Outcome
  | run _ start maxSteps trace =>
    match prepare image start with
    | .error message => .failed "" message
    | .ok m => runMachine m maxSteps trace
  | disassemble _ => ⟨0, listing image, ""⟩
  | dump _ first count =>
    match prepare image none with
    | .error message => .failed "" message
    | .ok m => ⟨0, String.join ((m.memory.dump first count).map cellLine), ""⟩

/-- Carries out a command on what its file holds. -/
def execute (command : Command) (content : Option ByteArray) : Outcome :=
  match Image.load command.path content with
  | .error e => .failed "" s!"Failed to load {command.path}: {e.message}"
  | .ok image => command.onImage image

/-! ## Arguments -/

/-- An option of a command: a word behind two hyphens or a letter behind one. -/
structure Choice where
  word : String
  letter : Char
  /-- Whether a value belongs to it. -/
  hasValue : Bool

/-- The arguments of a command, taken apart: what is no option, and the options
with their values. -/
structure Arguments where
  plain : List String
  chosen : List (String × String)

/-- Puts an option and its value in front. -/
def Arguments.choose (word value : String) (rest : Arguments) : Arguments :=
  { rest with chosen := (word, value) :: rest.chosen }

/-- The options that a run of letters chooses: letters without a value, then
perhaps one with a value, which is what stands behind it in the run. The answer's
second part is the option whose value is still to come, because nothing stands
behind its letter. -/
def readLetters (choices : List Choice) :
    List Char → Option (List (String × String) × Option String)
  | [] => some ([], none)
  | c :: cs => do
    let choice ← choices.find? (·.letter == c)
    if choice.hasValue then
      match cs with
      | [] => return ([], some choice.word)
      | '=' :: value => return ([(choice.word, String.ofList value)], none)
      | value => return ([(choice.word, String.ofList value)], none)
    else
      let (chosen, missing) ← readLetters choices cs
      return ((choice.word, "") :: chosen, missing)

/-- The option that a word chooses, with its value behind an equals sign, or whose
value is still to come. -/
def readWord (choices : List Choice) (cs : List Char) :
    Option (List (String × String) × Option String) := do
  let word := String.ofList (cs.takeWhile (· ≠ '='))
  let choice ← choices.find? (·.word == word)
  match choice.hasValue, cs.dropWhile (· ≠ '=') with
  | true, [] => return ([], some word)
  | true, _ :: value => return ([(word, String.ofList value)], none)
  | false, [] => return ([(word, "")], none)
  | false, _ => none

/-- Takes arguments apart. The value of an option may be the argument behind it,
which must not look like an option itself. Two hyphens alone end the options:
what stands behind them is no option, whatever it looks like. -/
def readArguments (choices : List Choice) (pending : Option String) :
    List String → Option Arguments
  | [] => if pending.isNone then some ⟨[], []⟩ else none
  | a :: rest =>
    match pending, a.toList with
    | some _, '-' :: _ :: _ => none
    | some word, _ => (readArguments choices none rest).map (·.choose word a)
    | none, ['-', '-'] => some ⟨rest, []⟩
    | none, '-' :: '-' :: cs => do
      let (chosen, missing) ← readWord choices cs
      let args ← readArguments choices missing rest
      return { args with chosen := chosen ++ args.chosen }
    | none, '-' :: c :: cs => do
      let (chosen, missing) ← readLetters choices (c :: cs)
      let args ← readArguments choices missing rest
      return { args with chosen := chosen ++ args.chosen }
    | none, _ => do
      let args ← readArguments choices none rest
      return { args with plain := a :: args.plain }

/-- The value that an option has been given, if it was chosen at all. No option
may be chosen twice. -/
def Arguments.value? (args : Arguments) (word : String) : Option (Option String) :=
  match args.chosen.filter (·.1 == word) with
  | [] => some none
  | [(_, value)] => some (some value)
  | _ => none

/-- The number that an option has been given, if it was chosen at all. -/
def Arguments.number? (args : Arguments) (word : String) (read : List Char → Option Nat) :
    Option (Option Nat) := do
  match ← args.value? word with
  | none => return none
  | some value => return some (← read value.toList)

/-- Reads the address to start at. It is read as a signed number, so a zero may
have a minus sign, and it need not be the address of a cell. -/
def readStart (cs : List Char) : Option Nat := do
  let v ← Decimal.signed? cs
  if 0 ≤ v ∧ v ≤ addressLimit then some v.toNat else none

/-- Reads a count, or the number of the first cell to show. -/
def readCount (cs : List Char) : Option Nat :=
  Decimal.unsigned? 0xFFFFFFFFFFFFFFFF cs

/-- Reads a command from the arguments of the program. -/
def parse? : List String → Option Command
  | "run" :: rest => do
    let args ← readArguments
      [⟨"start", 's', true⟩, ⟨"max-steps", 'm', true⟩, ⟨"trace", 't', false⟩] none rest
    match args.plain with
    | [path] =>
      let start ← args.number? "start" readStart
      let maxSteps ← args.number? "max-steps" readCount
      let trace ← args.value? "trace"
      return .run path start (maxSteps.getD 100000) trace.isSome
    | _ => none
  | "disasm" :: rest => do
    let args ← readArguments [] none rest
    match args.plain with
    | [path] => return .disassemble path
    | _ => none
  | "dump" :: rest => do
    let args ← readArguments [⟨"from", 'f', true⟩, ⟨"count", 'c', true⟩] none rest
    match args.plain with
    | [path] =>
      let first ← args.number? "from" readCount
      let count ← args.number? "count" readCount
      return .dump path (first.getD 0) (count.getD 100)
    | _ => none
  | _ => none

/-- How the program is used. -/
def usage : String :=
  "usage: mix run [--start N] [--max-steps N] [--trace] IMAGE\n" ++
    "       mix disasm IMAGE\n" ++
    "       mix dump [--from N] [--count N] IMAGE\n"

/-- What the program does with its arguments, when `read` reads a file. -/
def outcome {m : Type → Type} [Monad m] (read : String → m (Option ByteArray))
    (args : List String) : m Outcome := do
  match parse? args with
  | none => return ⟨2, "", usage⟩
  | some command => return command.execute (← read command.path)

end Command

end MixMachine
